import ScopeLexer.Proofs.Regex.Rows
import ScopeLexer.Proofs.Regex.Variants

/-!
# References as atoms

Resolving an expression puts escaped text in place of its references, and the result is read anew.
`readAtoms` reads the expression itself, each reference as one atom that matches the text of its
group.  Where the resolved expression is read in the same pieces and no reference is repeated, both
find the same matches: the characters of a text stand in a row with what is around them.
-/

namespace ScopeLexer.Regex

open Outcome

/-! ## Readers of pieces -/

abbrev PieceReader := Options → Cursor → Except Fault (Option Piece × Cursor)

def readBy (read : PieceReader) : (fuel : Nat) → (inGroup : Bool) → Options → List Node →
    List Item → Cursor → Except Fault (Node × Cursor)
  | 0, _, _, _, _, _ => .error .unclosedGroup
  | fuel + 1, inGroup, options, branches, items, cursor =>
      read options cursor >>= fun
        | (none, cursor) => readBy read fuel inGroup options branches items cursor
        | (some piece, cursor) =>
            afterPiece (readBy read fuel) piece inGroup options branches items cursor

def plainPiece : PieceReader := fun options cursor =>
  (readPiece options cursor).map fun (piece, next) => (some piece, next)

variable {fuel : Nat} {inGroup : Bool} {options : Options} {branches : List Node}
  {items : List Item} {cursor : Cursor} {piece : Piece}

theorem readBy_plainPiece (fuel : Nat) : readBy plainPiece fuel = readAlternatives fuel := by
  induction fuel with
  | zero => rfl
  | succ fuel ih =>
      funext inGroup options branches items cursor
      rw [readAlternatives_succ, readBy, plainPiece]
      cases readPiece options cursor with
      | error fault => rfl
      | ok read => rw [← ih]; rfl

theorem afterPiece_mono {again other : ReadOn}
    (h : ∀ inGroup options branches items cursor result,
      again inGroup options branches items cursor = .ok result →
        other inGroup options branches items cursor = .ok result) {result : Node × Cursor}
    (hread : afterPiece again piece inGroup options branches items cursor = .ok result) :
    afterPiece other piece inGroup options branches items cursor = .ok result := by
  cases piece with
  | finish => exact hread
  | close => exact hread
  | bar => exact h _ _ _ _ _ _ hread
  | repetition repetition =>
      cases items with
      | nil => exact hread
      | cons item items =>
          simp only [afterPiece] at hread ⊢
          split at hread
          · contradiction
          · next hrefuses =>
            rw [if_neg hrefuses]
            exact h _ _ _ _ _ _ hread
  | node read => exact h _ _ _ _ _ _ hread
  | caseless c => exact h _ _ _ _ _ _ hread
  | opening kind inner =>
      obtain ⟨body, hbody, hread⟩ := bind_eq_ok.mp hread
      exact bind_eq_ok.mpr ⟨body, h _ _ _ _ _ _ hbody, h _ _ _ _ _ _ hread⟩
  | condition inner =>
      obtain ⟨condition, hcondition, hread⟩ := bind_eq_ok.mp hread
      obtain ⟨behind, hbehind, hread⟩ := bind_eq_ok.mp hread
      obtain ⟨body, hbody, hread⟩ := bind_eq_ok.mp hread
      exact bind_eq_ok.mpr ⟨condition, h _ _ _ _ _ _ hcondition, bind_eq_ok.mpr ⟨behind, hbehind,
        bind_eq_ok.mpr ⟨body, h _ _ _ _ _ _ hbody, h _ _ _ _ _ _ hread⟩⟩⟩
  | options inner =>
      obtain ⟨body, hbody, hread⟩ := bind_eq_ok.mp hread
      exact bind_eq_ok.mpr ⟨body, h _ _ _ _ _ _ hbody, hread⟩

theorem readBy_mono {read other : PieceReader}
    (h : ∀ options cursor found, read options cursor = .ok found → other options cursor = .ok found)
    {result : Node × Cursor}
    (hread : readBy read fuel inGroup options branches items cursor = .ok result) :
    readBy other fuel inGroup options branches items cursor = .ok result := by
  induction fuel generalizing inGroup options branches items cursor result with
  | zero => contradiction
  | succ fuel ih =>
      obtain ⟨⟨piece?, next⟩, hpiece, hread⟩ := bind_eq_ok.mp hread
      refine bind_eq_ok.mpr ⟨_, h _ _ _ hpiece, ?_⟩
      cases piece? with
      | none => exact ih hread
      | some piece => exact afterPiece_mono (fun _ _ _ _ _ _ => ih) hread

/-! ## Atoms -/

def referred (line : Text) (groups : Groups) (c : Char) : List Char :=
  (line.group? groups (c.toNat - '0'.toNat)).getD []

def reference? (options : Options) (cursor : Cursor) : Option (Char × List Char) :=
  match skipIgnored options (cursor.rest.length + 1) cursor.rest with
  | .ok ('\\' :: c :: rest) => if isReferenceDigit c then some (c, rest) else none
  | _ => none

def atom? : List Char → Option Piece
  | [] => none
  | text => some (.node (Node.inSequence (text.map .character)))

variable {line : Text} {groups : Groups}

def atomPiece (line : Text) (groups : Groups) : PieceReader := fun options cursor =>
  match reference? options cursor with
  | some (c, rest) => .ok (atom? (referred line groups c), cursor.moveTo rest)
  | none => plainPiece options cursor

def readAtoms (line : Text) (groups : Groups) (text : List Char) : Except Fault (Node × Cursor) :=
  readBy (atomPiece line groups) (text.length + 2) false {} [] [] { rest := text }

def Cursor.resolve (line : Text) (groups : Groups) (cursor : Cursor) : Cursor :=
  cursor.moveTo (substitute line groups cursor.rest)

def repeats (options : Options) (cursor : Cursor) : Bool :=
  match readPiece options cursor with
  | .ok (.repetition _, _) => true
  | _ => false

/-- Whether what stands at a place is read alike once references are resolved.  Of a reference the
escaped text is what is read first; its letters match their case, and it is not repeated, unless it
is a single character. -/
def alike (line : Text) (groups : Groups) (options : Options) (cursor : Cursor) : Bool :=
  match reference? options cursor with
  | some (c, rest) =>
      let text := referred line groups c
      let behind := cursor.moveTo (substitute line groups rest)
      decide (readPiece options (cursor.resolve line groups) =
          readPiece options (cursor.moveTo (escape text ++ behind.rest))) &&
        (text.isEmpty || !options.anyCase) && (text.length == 1 || !repeats options behind)
  | none =>
      decide (readPiece options (cursor.resolve line groups) =
        (readPiece options cursor).map fun (piece, next) => (piece, next.resolve line groups))

/-- The reader that takes references as atoms, and fails where a piece is read otherwise once they
are resolved. -/
def apartPiece (line : Text) (groups : Groups) : PieceReader := fun options cursor =>
  if alike line groups options cursor then atomPiece line groups options cursor
  else .error .backreference

/-- Whether the pieces of an expression stand apart from its references: each of them is read alike
once these are resolved. -/
def readsApart (line : Text) (groups : Groups) (text : List Char) : Bool :=
  (readBy (apartPiece line groups) (text.length + 2) false {} [] [] { rest := text }).toBool

/-! ## Escaped text -/

theorem not_isAlphanum_of_needsEscape {c : Char} (h : needsEscape c = true) :
    c.isAlphanum = false := by
  rcases Bool.or_eq_true_iff.mp h with hspecial | hblank
  · have hsigns : ("-\\\x7b\x7d*+?|^$.,[]()#".toList.all fun sign => !sign.isAlphanum) = true := rfl
    simpa using List.all_eq_true.mp hsigns c (List.contains_iff_mem.mp hspecial)
  · simp only [Unicode.isWhiteSpace, Bool.or_eq_true, Bool.and_eq_true, decide_eq_true_eq,
      beq_iff_eq] at hblank
    change (decide (c.val ≥ 'A'.val ∧ c.val ≤ 'Z'.val)
      || decide (c.val ≥ 'a'.val) && decide (c.val ≤ 'z'.val)
      || decide (c.val ≥ '0'.val) && decide (c.val ≤ '9'.val)) = false
    simp only [Bool.or_eq_false_iff, Bool.and_eq_false_iff, decide_eq_false_iff_not,
      UInt32.le_iff_toNat_le, ge_iff_le]
    have hc : c.val.toNat = c.toNat := rfl
    have hletters : ('A' : Char).val.toNat = 65 ∧ ('Z' : Char).val.toNat = 90 ∧
        ('a' : Char).val.toNat = 97 ∧ ('z' : Char).val.toNat = 122 ∧
        ('0' : Char).val.toNat = 48 ∧ ('9' : Char).val.toNat = 57 := by decide
    refine ⟨⟨?_, ?_⟩, ?_⟩ <;> omega

theorem ne_of_isAlphanum {c letter : Char} (h : c.isAlphanum = false)
    (hletter : letter.isAlphanum = true) : c ≠ letter := by
  rintro rfl
  rw [h] at hletter
  contradiction

theorem nodeLetter?_of_not_isAlphanum {c : Char} (h : c.isAlphanum = false) :
    nodeLetter? c = none := by
  unfold nodeLetter?
  split
  all_goals first | contradiction | skip
  unfold classLetter?
  split
  all_goals first | contradiction | rfl

theorem readLetter_of_not_isAlphanum {c : Char} (h : c.isAlphanum = false) (fuel : Nat)
    (rest : List Char) : readLetter (fuel + 1) (c :: rest) = .ok (c.toNat, rest) := by
  have hcontrol : controlLetter c = c := by
    unfold controlLetter
    split
    all_goals first | contradiction | rfl
  rw [readLetter_plain (ne_of_isAlphanum h rfl) (ne_of_isAlphanum h rfl) (ne_of_isAlphanum h rfl),
    hcontrol]

theorem readEscape_of_needsEscape {c : Char} (h : needsEscape c = true) (options : Options)
    (cursor : Cursor) (rest : List Char) :
    readEscape options cursor (c :: rest) = .ok (literal options c, cursor.moveTo rest) := by
  have hletter := not_isAlphanum_of_needsEscape h
  have hne : ∀ letter : Char, letter.isAlphanum = true → c ≠ letter :=
    fun _ => ne_of_isAlphanum hletter
  have hdigit : c.isDigit = false := (Bool.or_eq_false_iff.mp hletter).2
  rw [readEscape_letter (nodeLetter?_of_not_isAlphanum hletter) ?_ ?_ (hne 'x' rfl) (hne 'o' rfl)
    (hne 'u' rfl) (hne '0' rfl), letterPiece, hdigit, readLetter_of_not_isAlphanum hletter]
  · simp
  · rintro (rfl | rfl) <;> contradiction
  · rintro (rfl | rfl) <;> contradiction

theorem ne_of_needsEscape {c sign : Char} (h : needsEscape c = false)
    (hsign : needsEscape sign = true) : c ≠ sign := by
  rintro rfl
  rw [h] at hsign
  contradiction

theorem isBlank_of_not_needsEscape {c : Char} (h : needsEscape c = false) (options : Options) :
    isBlank options c = false := by
  have hblanks : [' ', '\t', '\n', '\r', '\x0c'].all needsEscape = true := rfl
  rw [isBlank, List.contains_eq_mem, Bool.and_eq_false_iff, decide_eq_false_iff_not]
  exact .inr fun hmem => ne_of_needsEscape h (List.all_eq_true.mp hblanks c hmem) rfl

theorem beginsPiece_of_not_needsEscape {c : Char} (h : needsEscape c = false) :
    beginsPiece c = false := by
  have hsigns : ['\\', '|', '(', ')', '[', '.', '^', '$', '*', '+', '?', '{'].all needsEscape =
      true := rfl
  rw [beginsPiece, List.contains_eq_mem, decide_eq_false_iff_not]
  exact fun hmem => ne_of_needsEscape h (List.all_eq_true.mp hsigns c hmem) rfl

theorem readPiece_escapeChar (options : Options) (cursor : Cursor) (c : Char) (rest : List Char) :
    readPiece options (cursor.moveTo (escapeChar c ++ rest)) =
      .ok (literal options c, cursor.moveTo rest) := by
  rw [readPiece_eq, escapeChar]
  cases hescape : needsEscape c with
  | true =>
      have hskip : skipIgnored options ((cursor.moveTo ('\\' :: c :: rest)).rest.length + 1)
          (cursor.moveTo ('\\' :: c :: rest)).rest = .ok ('\\' :: c :: rest) := skipIgnored_escape
      rw [if_pos rfl, List.cons_append, List.cons_append, List.nil_append, hskip]
      change pieceAt options (cursor.moveTo _) ('\\' :: c :: rest) = _
      rw [pieceAt_moveTo]
      exact readEscape_of_needsEscape hescape options cursor rest
  | false =>
      have hskip : skipIgnored options ((cursor.moveTo (c :: rest)).rest.length + 1)
          (cursor.moveTo (c :: rest)).rest = .ok (c :: rest) := by
        refine (skipIgnored_plain (ne_of_needsEscape hescape rfl)
          fun h => absurd h (ne_of_needsEscape hescape rfl)).trans ?_
        rw [isBlank_of_not_needsEscape hescape]
        rfl
      rw [if_neg Bool.false_ne_true, List.cons_append, List.nil_append, hskip]
      change pieceAt options (cursor.moveTo _) (c :: rest) = _
      rw [pieceAt_moveTo, pieceAt_literal (beginsPiece_of_not_needsEscape hescape)]

theorem readAlternatives_escape (hcase : options.anyCase = false) {text rest : List Char}
    {result : Node × Cursor}
    (h : readAlternatives fuel inGroup options branches items
      (cursor.moveTo (escape text ++ rest)) = .ok result) :
    ∃ less, readAlternatives less inGroup options branches
      (text.reverse.map (Item.node ∘ Node.character) ++ items) (cursor.moveTo rest) = .ok result := by
  induction text generalizing fuel items with
  | nil => exact ⟨fuel, h⟩
  | cons c text ih =>
      cases fuel with
      | zero => contradiction
      | succ fuel =>
          rw [escape, List.flatMap_cons, List.append_assoc, ← escape, readAlternatives_succ,
            readPiece_escapeChar] at h
          have hliteral : literal options c = .node (.character c) := by simp [literal, hcase]
          rw [hliteral] at h
          obtain ⟨less, hless⟩ := ih h
          exact ⟨less, by simpa using hless⟩

end ScopeLexer.Regex
