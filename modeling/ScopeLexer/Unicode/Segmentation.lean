import ScopeLexer.Unicode.Property

/-!
# Clusters of characters

What a reader sees as one character may be several: a letter with its marks, a syllable, an emoji.
`endsCluster` tells where such a cluster ends, by the rules of extended grapheme clusters.
-/

namespace ScopeLexer.Unicode

inductive Hangul where
  | leading
  | vowel
  | trailing
  | openSyllable
  | closedSyllable
  deriving Repr, DecidableEq, Inhabited

inductive Grapheme where
  | carriageReturn
  | lineFeed
  | control
  | extending
  | joiner
  | spacing
  | prepended
  | regional
  | hangul (part : Hangul)
  | other
  deriving Repr, DecidableEq, Inhabited

def prefixes : RangeTable := .ofRows [
  "1536 6 215 1 49 1 384 2 80 1 1131 1 66414 1 15 1 244 2 1915 1 1 1 248 1 73 6 700 1 443 1"]

/-- Spacing marks that are clusters of their own. -/
def separateMarks : RangeTable := .ofRows [
  "4139 2 11 1 41 3 2 7 21 1 3 6 2 1 10 3 2500 1 1 2 36886 1 1 1 27810 2"]

def ignorable : RangeTable := .ofRows ["8293 1 57226 9 851975 1 1 30 96 128 240 3600"]

def pictographs : RangeTable := .ofRows [
  "169 1 4 1 8077 1 12 1 216 1 22 1 90 6 15 2 367 2 12 1 95 1 70 1 25 11 4 3 199 1 231 2 10 1 9",
  "1 58 4 1 6 1 12 1 114 10 118 2 11 1 1 1 1 6 1 3 1 6 1 10 2 15 1 2 1 4 1 1 1 4 3 1 1 11 5 45",
  "3 9 1 14 1 14 1 372 2 463 3 19 2 51 1 4 1 1242 1 12 1 601 1 1 1 114022 256 13 3 31 1 60 6 12",
  "2 14 1 2 10 18 57 27 15 10 1 20 1 2 9 1 4 9 434 5 318 8 266 48 128 116 12 85 43 12 4 56 8 10",
  "6 40 8 30 82 12 47 1 10 1 441 256 1022"]

def Hangul.of? (c : Char) : Option Hangul :=
  let within (first last : Nat) := first ≤ c.toNat && c.toNat ≤ last
  if within 0x1100 0x115F || within 0xA960 0xA97C then some .leading
  else if within 0x1160 0x11A7 || within 0xD7B0 0xD7C6 then some .vowel
  else if within 0x11A8 0x11FF || within 0xD7CB 0xD7FB then some .trailing
  else if within 0xAC00 0xD7A3 then
    some (if (c.toNat - 0xAC00) % 28 == 0 then .openSyllable else .closedSyllable)
  else none

def Hangul.continues : (last next : Hangul) → Bool
  | .leading, next => next != .trailing
  | .vowel, next => next == .vowel || next == .trailing
  | .openSyllable, next => next == .vowel || next == .trailing
  | .trailing, next => next == .trailing
  | .closedSyllable, next => next == .trailing

def Grapheme.of (c : Char) : Grapheme :=
  if c == '\r' then .carriageReturn
  else if c == '\n' then .lineFeed
  else if c.toNat < 0xA0 then if isPrintable c then .other else .control
  else if c.toNat == 0x200D then .joiner
  else if 0x1F1E6 ≤ c.toNat && c.toNat ≤ 0x1F1FF then .regional
  else if isGraphemeExtend c || (0x1F3FB ≤ c.toNat && c.toNat ≤ 0x1F3FF) then .extending
  else if prefixes.contains c then .prepended
  else
    match Hangul.of? c with
    | some part => .hangul part
    | none =>
        match Category.of c with
        | .spacingMark => if separateMarks.contains c then .other else .spacing
        | .control | .format | .lineSeparator | .paragraphSeparator => .control
        | _ =>
            if ignorable.contains c then .control
            else if c.toNat == 0xE33 || c.toNat == 0xEB3 then .spacing
            else .other

/-- Whether a cluster ends between characters, given last first, and the next one. -/
def endsCluster : (before : List Char) → (next : Char) → Bool
  | [], _ => true
  | last :: before, next =>
      match Grapheme.of last, Grapheme.of next with
      | .carriageReturn, .lineFeed => false
      | .carriageReturn, _ | .lineFeed, _ | .control, _ => true
      | _, .carriageReturn | _, .lineFeed | _, .control => true
      | .hangul part, .hangul following => !part.continues following
      | _, .extending | _, .joiner | _, .spacing => false
      | .prepended, _ => false
      | .joiner, _ =>
          -- an emoji of several, joined
          let joined := (before.dropWhile (Grapheme.of · == .extending)).head?
          !(pictographs.contains next && joined.any pictographs.contains)
      | .regional, .regional =>
          -- two of them are a flag
          (before.takeWhile (Grapheme.of · == .regional)).length % 2 == 1
      | _, _ => true

end ScopeLexer.Unicode
