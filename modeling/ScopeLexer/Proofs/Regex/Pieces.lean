import ScopeLexer.Proofs.Regex.Brackets
import ScopeLexer.Proofs.Regex.Names
import ScopeLexer.Proofs.Regex.Without

/-!
# Pieces of an expression with an anchor switched off

Outside of brackets and comments the escape of an anchor is a piece of its own.  With the anchor
switched off a group that matches nowhere opens there; every other piece stays as it is.
-/

namespace ScopeLexer.Regex

open Outcome

variable {anchor c : Char} {off : Assertion} {text rest : List Char} {options : Options}
  {cursor next : Cursor} {piece : Piece}

/-! ## Anchors -/

/-- The letter of an assertion that is written as an escape and as nothing else. -/
def Assertion.letter? : Assertion → Option Char
  | .textStart => some 'A'
  | .textEnd => some 'z'
  | .textEndOrFinalNewline => some 'Z'
  | .searchStart => some 'G'
  | _ => none

theorem nodeLetter?_of_letter (h : off.letter? = some anchor) :
    nodeLetter? anchor = some (.assertion off) := by
  cases off <;> cases h <;> rfl

theorem under_of_letter (h : off.letter? = some anchor) (options : Options) :
    (Node.assertion off).under options = .assertion off := by
  cases off <;> cases h <;> rfl

theorem isAlpha_of_letter (h : off.letter? = some anchor) : anchor.isAlpha = true := by
  cases off <;> cases h <;> rfl

theorem occurrences_unlettered {condition : Assertion} (hletter : off.letter? = some anchor)
    (hcondition : condition.letter? = none) : (Node.assertion condition).occurrences off = 0 := by
  rw [Node.occurrences, if_neg]
  rintro rfl
  rw [hcondition] at hletter
  contradiction

theorem occurrences_anyCluster (h : off.letter? = some anchor) :
    anyCluster.occurrences off = 0 := by
  have hbetween : (Node.assertion .notClusterBoundary).occurrences off = 0 :=
    occurrences_unlettered h rfl
  simp only [anyCluster, Node.occurrences, Nat.zero_add, Nat.add_zero]
  exact hbetween

theorem occurrences_nodeLetter (h : off.letter? = some anchor) (hc : c ≠ anchor) {node : Node}
    (hnode : nodeLetter? c = some node) (options : Options) :
    (node.under options).occurrences off = 0 := by
  have hother : ∀ {condition : Assertion}, condition.letter? = some c →
      (Node.assertion condition).occurrences off = 0 := by
    intro condition hcondition
    rw [Node.occurrences, if_neg]
    rintro rfl
    exact hc (Option.some.inj (hcondition.symm.trans h))
  unfold nodeLetter? at hnode
  split at hnode
  case h_14 =>
    obtain ⟨inner, _, rfl⟩ := Option.map_eq_some_iff.mp hnode
    rfl
  all_goals
    cases hnode
    first
      | rfl
      | exact hother rfl
      | exact occurrences_unlettered h rfl
      | exact occurrences_anyCluster h

/-! ## Steady readers -/

def Piece.occurrences (off : Assertion) : Piece → Nat
  | .node read => read.occurrences off
  | _ => 0

def Cursor.disable (anchor : Char) (cursor : Cursor) : Cursor :=
  cursor.moveTo (disableAnchor anchor cursor.rest)

/-- A reader of pieces that is robust and reads no anchor. -/
def Steady (anchor : Char) (off : Assertion) (text : List Char)
    (read readOff : Except Fault (Piece × Cursor)) : Prop :=
  ∀ piece next, read = .ok (piece, next) → piece.occurrences off = 0 ∧
    escapes anchor next.rest ≤ escapes anchor text ∧
      (escapes anchor next.rest = escapes anchor text →
        readOff = .ok (piece, next.disable anchor))

namespace Steady

variable {read readOff : Except Fault (Piece × Cursor)} {fault : Fault}

theorem error : Steady anchor off text (.error fault) readOff :=
  fun _ _ h => nomatch h

theorem ok (cursor : Cursor) (hpiece : piece.occurrences off = 0) :
    Steady anchor off rest (.ok (piece, cursor.moveTo rest))
      (.ok (piece, cursor.moveTo (disableAnchor anchor rest))) := by
  intro _ _ h
  cases h
  exact ⟨hpiece, Nat.le_refl _, fun _ => rfl⟩

theorem congr {other : List Char} (heq : escapes anchor text = escapes anchor other)
    (h : Steady anchor off text read readOff) : Steady anchor off other read readOff := by
  intro piece next hread
  rw [← heq]
  exact h piece next hread

theorem cons (hc : c ≠ '\\') (h : Steady anchor off rest read readOff) :
    Steady anchor off (c :: rest) read readOff :=
  h.congr (escapes_cons hc).symm

theorem bind {α : Type} {first firstOff : Except Fault (α × List Char)}
    {after afterOff : α × List Char → Except Fault (Piece × Cursor)}
    (h : Robust anchor text first firstOff)
    (hafter : ∀ value rest, Steady anchor off rest (after (value, rest))
      (afterOff (value, disableAnchor anchor rest))) :
    Steady anchor off text (first >>= after) (firstOff >>= afterOff) := by
  intro piece next hread
  obtain ⟨⟨value, rest⟩, hfirst, hread⟩ := bind_eq_ok.mp hread
  obtain ⟨hle, hoff⟩ := h value rest hfirst
  obtain ⟨hpiece, hle', hoffAfter⟩ := hafter value rest piece next hread
  refine ⟨hpiece, Nat.le_trans hle' hle, fun heq => ?_⟩
  have hrest : escapes anchor rest = escapes anchor text := by omega
  rw [hoff hrest]
  exact hoffAfter (by omega)

end Steady

/-! ## Characters -/

theorem occurrences_literal (options : Options) (c : Char) :
    (literal options c).occurrences off = 0 := by
  unfold literal
  split <;> rfl

theorem occurrences_literals (options : Options) (cs : List Char) :
    (literals options cs).occurrences off = 0 := by
  unfold literals
  split
  · exact occurrences_literal options _
  · split
    · exact occurrences_caselessRun _ cs
    · exact occurrences_letters cs CharClass.single

/-! ## Groups -/

theorem occurrences_readOptions {value : Bool}
    (h : readOptions options value text = .ok (piece, rest)) : piece.occurrences off = 0 := by
  induction text generalizing options value with
  | nil => simp [readOptions] at h
  | cons c text ih =>
      rw [readOptions.eq_def] at h
      split at h
      · contradiction
      · cases h
        rfl
      · cases h
        rfl
      · next heq =>
        cases heq
        exact ih h
      · next heq =>
        cases heq
        split at h
        · exact ih h
        · contradiction

theorem readOptions_steady (options : Options) (cursor : Cursor) (text : List Char) :
    Steady anchor off text
      (readOptions options true text >>= fun (piece, rest) => .ok (piece, cursor.moveTo rest))
      (readOptions options true (disableAnchor anchor text) >>= fun (piece, rest) =>
        .ok (piece, cursor.moveTo rest)) := by
  intro piece next hread
  obtain ⟨⟨piece, rest⟩, hfirst, hread⟩ := bind_eq_ok.mp hread
  cases hread
  obtain ⟨hle, hoff⟩ := readOptions_robust options true text piece rest hfirst
  exact ⟨occurrences_readOptions hfirst, hle, fun heq => bind_eq_ok.mpr ⟨_, hoff heq, rfl⟩⟩

theorem named_steady {closing : Char} (hclosing : closing ≠ '\\') (options : Options)
    (cursor : Cursor) (text : List Char) :
    Steady anchor off text (readGroup.named options cursor closing text)
      (readGroup.named options cursor closing (disableAnchor anchor text)) :=
  Steady.bind (readGroupName_robust hclosing text) fun name _ =>
    .ok (cursor.openNamed name).2 rfl

theorem angled_named (hne : rest ≠ []) (hequal : rest.head? ≠ some '=')
    (hnegated : rest.head? ≠ some '!') :
    readGroup.angled options cursor rest = readGroup.named options cursor '>' rest := by
  unfold readGroup.angled
  split
  · contradiction
  · simp at hequal
  · simp at hnegated
  · rfl

theorem angled_steady (options : Options) (cursor : Cursor) (text : List Char) :
    Steady anchor off text (readGroup.angled options cursor text)
      (readGroup.angled options cursor (disableAnchor anchor text)) := by
  by_cases hne : text = []
  · rw [hne]
    exact .error
  by_cases hequal : text.head? = some '='
  · obtain ⟨rest, rfl⟩ := List.head?_eq_some_iff.mp hequal
    rw [disableAnchor_cons (by decide)]
    exact .cons (by decide) (.ok cursor rfl)
  by_cases hnegated : text.head? = some '!'
  · obtain ⟨rest, rfl⟩ := List.head?_eq_some_iff.mp hnegated
    rw [disableAnchor_cons (by decide)]
    exact .cons (by decide) (.ok cursor rfl)
  · rw [angled_named hne hequal hnegated,
      angled_named (by rwa [Ne, disableAnchor_eq_nil])
        (head?_disableAnchor_ne hequal (by decide) (by decide))
        (head?_disableAnchor_ne hnegated (by decide) (by decide))]
    exact named_steady (by decide) options cursor text

theorem absent_opening (hne : text ≠ []) (hbar : text.head? ≠ some '|') :
    readGroup.absent options cursor text = .ok (.opening .absent options, cursor.moveTo text) := by
  unfold readGroup.absent
  split
  · contradiction
  · simp at hbar
  · rfl

theorem absent_steady (options : Options) (cursor : Cursor) (text : List Char) :
    Steady anchor off text (readGroup.absent options cursor text)
      (readGroup.absent options cursor (disableAnchor anchor text)) := by
  by_cases hne : text = []
  · rw [hne]
    exact .error
  by_cases hbar : text.head? = some '|'
  · obtain ⟨rest, rfl⟩ := List.head?_eq_some_iff.mp hbar
    exact .error
  · rw [absent_opening hne hbar, absent_opening (by rwa [Ne, disableAnchor_eq_nil])
      (head?_disableAnchor_ne hbar (by decide) (by decide))]
    exact .ok cursor rfl

/-! ### Conditions -/

theorem decided_branches (groups : List Nat) (hne : text ≠ []) (h : text.head? ≠ some ')') :
    readGroup.decided options cursor groups text =
      .ok (.opening (.decided groups) options, cursor.moveTo text) := by
  unfold readGroup.decided
  split
  · contradiction
  · simp at h
  · rfl

theorem decided_steady (options : Options) (cursor : Cursor) (groups : List Nat)
    (text : List Char) :
    Steady anchor off text (readGroup.decided options cursor groups text)
      (readGroup.decided options cursor groups (disableAnchor anchor text)) := by
  by_cases hne : text = []
  · rw [hne]
    exact .error
  by_cases hclose : text.head? = some ')'
  · obtain ⟨rest, rfl⟩ := List.head?_eq_some_iff.mp hclose
    rw [disableAnchor_cons (by decide)]
    exact .cons (by decide) (.ok cursor rfl)
  · rw [decided_branches groups hne hclose,
      decided_branches groups (by rwa [Ne, disableAnchor_eq_nil])
        (head?_disableAnchor_ne hclose (by decide) (by decide))]
    exact .ok cursor rfl

theorem enclosed_other (groups : List Nat) (h : text.head? ≠ some ')') :
    readGroup.enclosed options cursor groups text = .error .endInGroup := by
  unfold readGroup.enclosed
  split
  · simp at h
  · rfl

theorem enclosed_steady (options : Options) (cursor : Cursor) (groups : List Nat)
    (text : List Char) :
    Steady anchor off text (readGroup.enclosed options cursor groups text)
      (readGroup.enclosed options cursor groups (disableAnchor anchor text)) := by
  by_cases hclose : text.head? = some ')'
  · obtain ⟨rest, rfl⟩ := List.head?_eq_some_iff.mp hclose
    rw [disableAnchor_cons (by decide)]
    exact .cons (by decide) (decided_steady options cursor groups rest)
  · rw [enclosed_other groups hclose]
    exact .error

theorem condition_checked {reference : GroupReference}
    (h : readChecked text = some (reference, rest)) :
    readGroup.condition options cursor text =
      referredGroups cursor reference >>= fun groups =>
        readGroup.decided options cursor groups rest := by
  rw [readGroup.condition.eq_def, h]

theorem condition_short (h : readChecked text = none) (hlength : text.length < 2) :
    readGroup.condition options cursor text = .error .endInGroup := by
  rw [readGroup.condition.eq_def, h]
  match text, hlength with
  | [], _ => rfl
  | [_], _ => rfl

theorem condition_named {quote closing : Char} (h : readChecked (quote :: rest) = none)
    (hne : rest ≠ []) (hclosing : closingOf? quote = some closing) :
    readGroup.condition options cursor (quote :: rest) =
      readReference closing rest >>= fun (reference, rest) =>
        referredGroups cursor reference >>= fun groups =>
          readGroup.enclosed options cursor groups rest := by
  obtain ⟨next, rest, rfl⟩ := List.exists_cons_of_ne_nil hne
  simp only [readGroup.condition, h, hclosing]

theorem condition_expression (h : readChecked text = none) (hlength : 2 ≤ text.length)
    (hclosing : text.head?.bind closingOf? = none) :
    readGroup.condition options cursor text = .ok (.condition options, cursor.moveTo text) := by
  match text, hlength with
  | first :: next :: rest, _ =>
    have hfirst : closingOf? first = none := hclosing
    simp only [readGroup.condition, h, hfirst]

theorem condition_steady (options : Options) (cursor : Cursor) (text : List Char) :
    Steady anchor off text (readGroup.condition options cursor text)
      (readGroup.condition options cursor (disableAnchor anchor text)) := by
  have hoff := @readChecked_off anchor text
  cases hchecked : readChecked text with
  | some read =>
      obtain ⟨reference, rest⟩ := read
      rw [hchecked, Option.map_some] at hoff
      rw [condition_checked hchecked, condition_checked hoff]
      cases referredGroups cursor reference with
      | error fault => exact .error
      | ok groups =>
          exact (decided_steady options cursor groups rest).congr (escapes_readChecked hchecked)
  | none =>
      rw [hchecked, Option.map_none] at hoff
      by_cases hshort : text.length < 2
      · rw [condition_short hchecked hshort]
        exact .error
      have hlength := Nat.not_lt.mp hshort
      cases hclosing : text.head?.bind closingOf? with
      | none =>
          rw [condition_expression hchecked hlength hclosing,
            condition_expression hoff (Nat.le_trans hlength (length_le_disableAnchor anchor text))
              (by rwa [head?_bind_disableAnchor rfl rfl])]
          exact .ok cursor rfl
      | some closing =>
          obtain ⟨quote, hquote, hclosing⟩ := Option.bind_eq_some_iff.mp hclosing
          obtain ⟨rest, rfl⟩ := List.head?_eq_some_iff.mp hquote
          have hplain : quote ≠ '\\' := by
            rintro rfl
            contradiction
          have hne : rest ≠ [] := by
            rintro rfl
            exact hshort Nat.one_lt_two
          rw [disableAnchor_cons hplain] at hoff ⊢
          rw [condition_named hchecked hne hclosing,
            condition_named hoff (by rwa [Ne, disableAnchor_eq_nil]) hclosing]
          refine .cons hplain (.bind (readReference_robust (closingOf?_ne_backslash hclosing) rest)
            fun reference rest => ?_)
          dsimp only
          cases referredGroups cursor reference with
          | error fault => exact .error
          | ok groups => exact enclosed_steady options cursor groups rest

/-! ### Openings -/

theorem readGroup_capture (h : text.head? ≠ some '?') :
    readGroup options cursor text =
      .ok (.opening (.capture cursor.openGroup.1) options, cursor.openGroup.2.moveTo text) := by
  unfold readGroup
  split
  · simp at h
  · rfl

theorem readGroup_options (hplain : c ≠ ':') (hahead : c ≠ '=') (hnegated : c ≠ '!')
    (hatomic : c ≠ '>') (hangle : c ≠ '<') (hquote : c ≠ '\'') (hcondition : c ≠ '(')
    (habsent : c ≠ '~') :
    readGroup options cursor ('?' :: c :: rest) =
      readOptions options true (c :: rest) >>= fun (piece, rest) =>
        .ok (piece, cursor.moveTo rest) := by
  simp only [readGroup]
  split <;> simp_all
  rfl

theorem readGroup_steady (options : Options) (cursor : Cursor) (text : List Char) :
    Steady anchor off text (readGroup options cursor text)
      (readGroup options cursor (disableAnchor anchor text)) := by
  by_cases hquestion : text.head? = some '?'
  · obtain ⟨text, rfl⟩ := List.head?_eq_some_iff.mp hquestion
    rw [disableAnchor_cons (by decide)]
    refine Steady.cons (by decide) ?_
    cases text using walk with
    | nil => exact .error
    | lone => exact .error
    | escape c rest _ => exact .error
    | plain c rest hc _ =>
        rw [disableAnchor_cons hc]
        by_cases hplain : c = ':'
        · rw [hplain]
          exact .cons (by decide) (.ok cursor rfl)
        by_cases hahead : c = '='
        · rw [hahead]
          exact .cons (by decide) (.ok cursor rfl)
        by_cases hnegated : c = '!'
        · rw [hnegated]
          exact .cons (by decide) (.ok cursor rfl)
        by_cases hatomic : c = '>'
        · rw [hatomic]
          exact .cons (by decide) (.ok cursor rfl)
        by_cases hangle : c = '<'
        · rw [hangle]
          exact .cons (by decide) (angled_steady options cursor rest)
        by_cases hquote : c = '\''
        · rw [hquote]
          exact .cons (by decide) (named_steady (by decide) options cursor rest)
        by_cases hcondition : c = '('
        · rw [hcondition]
          exact .cons (by decide) (condition_steady options cursor rest)
        by_cases habsent : c = '~'
        · rw [habsent]
          exact .cons (by decide) (absent_steady options cursor rest)
        · rw [readGroup_options hplain hahead hnegated hatomic hangle hquote hcondition habsent,
            readGroup_options hplain hahead hnegated hatomic hangle hquote hcondition habsent,
            ← disableAnchor_cons hc]
          exact readOptions_steady options cursor (c :: rest)
  · rw [readGroup_capture hquestion,
      readGroup_capture (head?_disableAnchor_ne hquestion (by decide) (by decide))]
    exact .ok cursor.openGroup.2 rfl

/-! ## Escapes -/

def backreferencePiece (options : Options) (cursor : Cursor) (read : GroupReference × List Char) :
    Except Fault (Piece × Cursor) :=
  (referredGroups cursor read.1).map fun groups =>
    (.node (.backreference groups options.anyCase), cursor.moveTo read.2)

def callPiece (cursor : Cursor) (read : GroupReference × List Char) :
    Except Fault (Piece × Cursor) :=
  .ok (.node (.call cursor.calls.length),
    { cursor with
      rest := read.2
      calls := cursor.calls ++ [read.1.countedFrom cursor.groups] })

def literalsPiece (options : Options) (cursor : Cursor) (read : List Char × List Char) :
    Except Fault (Piece × Cursor) :=
  .ok (literals options read.1, cursor.moveTo read.2)

def letterPiece (options : Options) (cursor : Cursor) (c : Char) (rest : List Char) :
    Except Fault (Piece × Cursor) :=
  if c.isDigit then
    readNumberEscape options cursor (c :: rest) >>= fun (piece, rest) =>
      .ok (piece, cursor.moveTo rest)
  else
    readLetter (rest.length + 2) (c :: rest) >>= fun (code, rest) =>
      .ok (literal options (Char.ofNat code), cursor.moveTo rest)

theorem readEscape_node {node : Node} (h : nodeLetter? c = some node) :
    readEscape options cursor (c :: rest) =
      .ok (.node (node.under options), cursor.moveTo rest) := by
  simp only [readEscape, h]

theorem readEscape_property :
    readEscape options cursor ('p' :: '{' :: rest) =
      readProperty false rest >>= fun (inner, rest) =>
        .ok (.node (.oneOf (inner.under options)), cursor.moveTo rest) := rfl

theorem readEscape_notProperty :
    readEscape options cursor ('P' :: '{' :: rest) =
      readProperty true rest >>= fun (inner, rest) =>
        .ok (.node (.oneOf (inner.under options)), cursor.moveTo rest) := rfl

theorem readEscape_backreference {quote closing : Char} (h : closingOf? quote = some closing) :
    readEscape options cursor ('k' :: quote :: rest) =
      readReference closing rest >>= backreferencePiece options cursor := by
  have hnode : nodeLetter? 'k' = none := rfl
  simp only [readEscape, hnode, h]
  cases readReference closing rest with
  | error fault => rfl
  | ok read =>
      simp only [bind, Except.bind, backreferencePiece]
      cases referredGroups cursor read.1 <;> rfl

theorem readEscape_call {quote closing : Char} (h : closingOf? quote = some closing) :
    readEscape options cursor ('g' :: quote :: rest) =
      readReference closing rest >>= callPiece cursor := by
  have hnode : nodeLetter? 'g' = none := rfl
  simp only [readEscape, hnode, h]
  rfl

theorem readEscape_unquoted (hc : c = 'k' ∨ c = 'g') (hne : rest ≠ [])
    (h : rest.head?.bind closingOf? = none) :
    readEscape options cursor (c :: rest) = .ok (literal options c, cursor.moveTo rest) := by
  obtain ⟨quote, rest, rfl⟩ := List.exists_cons_of_ne_nil hne
  have hquote : closingOf? quote = none := h
  have hk : nodeLetter? 'k' = none := rfl
  have hg : nodeLetter? 'g' = none := rfl
  rcases hc with rfl | rfl
  · simp only [readEscape, hk, hquote]
    rfl
  · simp only [readEscape, hg, hquote]
    rfl

theorem readEscape_hex :
    readEscape options cursor ('x' :: rest) = readHex rest >>= literalsPiece options cursor := rfl

theorem readEscape_octalBraces :
    readEscape options cursor ('o' :: rest) =
      readOctalBraces rest >>= literalsPiece options cursor := rfl

theorem readEscape_unicode :
    readEscape options cursor ('u' :: rest) =
      ((readUnicode rest).map fun (c, rest) => ([c], rest)) >>= literalsPiece options cursor := rfl

theorem readEscape_zero :
    readEscape options cursor ('0' :: rest) =
      ((readOctal 2 rest).map fun (c, rest) => ([c], rest)) >>= literalsPiece options cursor := rfl

theorem readEscape_letter (hnode : nodeLetter? c = none)
    (hproperty : c = 'p' ∨ c = 'P' → rest.head? ≠ some '{') (hnamed : c = 'k' ∨ c = 'g' → rest = [])
    (hx : c ≠ 'x') (ho : c ≠ 'o') (hu : c ≠ 'u') (hzero : c ≠ '0') :
    readEscape options cursor (c :: rest) = letterPiece options cursor c rest := by
  simp only [readEscape, hnode]
  split <;> simp_all
  rfl

theorem backreferencePiece_steady (options : Options) (cursor : Cursor)
    (reference : GroupReference) (rest : List Char) :
    Steady anchor off rest (backreferencePiece options cursor (reference, rest))
      (backreferencePiece options cursor (reference, disableAnchor anchor rest)) := by
  unfold backreferencePiece
  dsimp only
  cases referredGroups cursor reference with
  | error fault => exact .error
  | ok groups => exact .ok cursor rfl

theorem callPiece_steady (cursor : Cursor) (reference : GroupReference) (rest : List Char) :
    Steady anchor off rest (callPiece cursor (reference, rest))
      (callPiece cursor (reference, disableAnchor anchor rest)) := by
  intro piece next hread
  cases hread
  exact ⟨rfl, Nat.le_refl _, fun _ => rfl⟩

theorem literalsPiece_steady (options : Options) (cursor : Cursor) (cs rest : List Char) :
    Steady anchor off rest (literalsPiece options cursor (cs, rest))
      (literalsPiece options cursor (cs, disableAnchor anchor rest)) :=
  .ok cursor (occurrences_literals options cs)

def readNumberLiteral (options : Options) (text : List Char) : Except Fault (Piece × List Char) :=
  match text with
  | '8' :: rest => .ok (literal options '8', rest)
  | '9' :: rest => .ok (literal options '9', rest)
  | _ => (readOctal 3 text).map fun (c, rest) => (literal options c, rest)

theorem readNumberLiteral_other (height : text.head? ≠ some '8') (hnine : text.head? ≠ some '9') :
    readNumberLiteral options text =
      (readOctal 3 text).map fun (c, rest) => (literal options c, rest) := by
  unfold readNumberLiteral
  split
  · simp at height
  · simp at hnine
  · rfl

theorem readNumberEscape_eq (text : List Char) :
    readNumberEscape options cursor text =
      if (decide ((readDigits 10 text.length 0 0 text).1.1 ≤ cursor.groups) &&
          decide ((readDigits 10 text.length 0 0 text).1.1 ≤ 1000)) ||
          decide ((readDigits 10 text.length 0 0 text).1.1 ≤ 9) then
        .ok (.node (.backreference [(readDigits 10 text.length 0 0 text).1.1] options.anyCase),
          (readDigits 10 text.length 0 0 text).2)
      else readNumberLiteral options text := by
  unfold readNumberEscape
  dsimp only
  split
  · rfl
  · split
    · rfl
    · rfl
    · next height hnine =>
      rw [readNumberLiteral_other]
      · cases readOctal 3 text <;> rfl
      · exact fun h => (List.head?_eq_some_iff.mp h).elim height
      · exact fun h => (List.head?_eq_some_iff.mp h).elim hnine

theorem readNumberLiteral_robust (options : Options) (text : List Char) :
    Robust anchor text (readNumberLiteral options text)
      (readNumberLiteral options (disableAnchor anchor text)) := by
  by_cases height : text.head? = some '8'
  · obtain ⟨rest, rfl⟩ := List.head?_eq_some_iff.mp height
    rw [disableAnchor_cons (by decide)]
    exact .cons (by decide) (.ok (Nat.le_refl _))
  by_cases hnine : text.head? = some '9'
  · obtain ⟨rest, rfl⟩ := List.head?_eq_some_iff.mp hnine
    rw [disableAnchor_cons (by decide)]
    exact .cons (by decide) (.ok (Nat.le_refl _))
  · rw [readNumberLiteral_other height hnine,
      readNumberLiteral_other (head?_disableAnchor_ne height (by decide) (by decide))
        (head?_disableAnchor_ne hnine (by decide) (by decide))]
    exact (readOctal_robust 3 text).map (literal options)

theorem readNumberEscape_robust (options : Options) (cursor : Cursor) (text : List Char) :
    Robust anchor text (readNumberEscape options cursor text)
      (readNumberEscape options cursor (disableAnchor anchor text)) := by
  rw [readNumberEscape_eq, readNumberEscape_eq, readDigits_length_off (by decide)]
  split
  · exact (Robust.ok (Nat.le_refl _)).congr (escapes_readDigits (by decide) _ 0 0 text)
  · exact readNumberLiteral_robust options text

theorem occurrences_readNumberEscape (h : readNumberEscape options cursor text = .ok (piece, rest)) :
    piece.occurrences off = 0 := by
  rw [readNumberEscape_eq] at h
  split at h
  · cases h
    rfl
  · unfold readNumberLiteral at h
    split at h
    · cases h
      exact occurrences_literal options _
    · cases h
      exact occurrences_literal options _
    · obtain ⟨_, _, heq⟩ := map_eq_ok.mp h
      cases heq
      exact occurrences_literal options _

theorem letterPiece_steady (options : Options) (cursor : Cursor) (c : Char) (rest : List Char) :
    Steady anchor off rest (letterPiece options cursor c rest)
      (letterPiece options cursor c (disableAnchor anchor rest)) := by
  unfold letterPiece
  split
  · next hdigit =>
    have hc : c ≠ '\\' := by
      rintro rfl
      contradiction
    rw [← disableAnchor_cons hc]
    intro piece next hread
    obtain ⟨⟨piece, behind⟩, hfirst, hread⟩ := bind_eq_ok.mp hread
    cases hread
    obtain ⟨hle, hoff⟩ := readNumberEscape_robust options cursor (c :: rest) piece behind hfirst
    rw [escapes_cons hc] at hle hoff
    exact ⟨occurrences_readNumberEscape hfirst, hle, fun heq => bind_eq_ok.mpr ⟨_, hoff heq, rfl⟩⟩
  · exact Steady.bind (readLetter_robust
      (Nat.add_le_add_right (length_le_disableAnchor anchor rest) 2) c rest) fun code _ =>
        .ok cursor (occurrences_literal options _)

theorem readEscape_steady (hletter : off.letter? = some anchor) (hc : c ≠ anchor)
    (options : Options) (cursor : Cursor) (rest : List Char) :
    Steady anchor off rest (readEscape options cursor (c :: rest))
      (readEscape options cursor (c :: disableAnchor anchor rest)) := by
  cases hnode : nodeLetter? c with
  | some node =>
      rw [readEscape_node hnode, readEscape_node hnode]
      exact .ok cursor (occurrences_nodeLetter hletter hc hnode options)
  | none =>
      by_cases hx : c = 'x'
      · rw [hx, readEscape_hex, readEscape_hex]
        exact .bind (readHex_robust rest) (literalsPiece_steady options cursor)
      by_cases ho : c = 'o'
      · rw [ho, readEscape_octalBraces, readEscape_octalBraces]
        exact .bind (readOctalBraces_robust rest) (literalsPiece_steady options cursor)
      by_cases hu : c = 'u'
      · rw [hu, readEscape_unicode, readEscape_unicode]
        exact .bind ((readUnicode_robust rest).map fun c => [c])
          (literalsPiece_steady options cursor)
      by_cases hzero : c = '0'
      · rw [hzero, readEscape_zero, readEscape_zero]
        exact .bind ((readOctal_robust 2 rest).map fun c => [c])
          (literalsPiece_steady options cursor)
      by_cases hproperty : (c = 'p' ∨ c = 'P') ∧ rest.head? = some '{'
      · obtain ⟨hp, hbrace⟩ := hproperty
        obtain ⟨rest, rfl⟩ := List.head?_eq_some_iff.mp hbrace
        rw [disableAnchor_cons (by decide)]
        refine Steady.cons (by decide) ?_
        rcases hp with rfl | rfl
        · rw [readEscape_property, readEscape_property]
          exact .bind (readProperty_robust false rest) fun _ _ => .ok cursor rfl
        · rw [readEscape_notProperty, readEscape_notProperty]
          exact .bind (readProperty_robust true rest) fun _ _ => .ok cursor rfl
      by_cases hnamed : (c = 'k' ∨ c = 'g') ∧ rest ≠ []
      · obtain ⟨hk, hne⟩ := hnamed
        cases hquote : rest.head?.bind closingOf? with
        | none =>
            have hquoteOff : (disableAnchor anchor rest).head?.bind closingOf? = none := by
              rwa [head?_bind_disableAnchor rfl rfl]
            rw [readEscape_unquoted hk hne hquote,
              readEscape_unquoted hk (by rwa [Ne, disableAnchor_eq_nil]) hquoteOff]
            exact .ok cursor (occurrences_literal options c)
        | some closing =>
            obtain ⟨quote, rest, rfl⟩ := List.exists_cons_of_ne_nil hne
            have hclosing := closingOf?_ne_backslash hquote
            have hquoteEscape : quote ≠ '\\' := by
              rintro rfl
              contradiction
            rw [disableAnchor_cons hquoteEscape]
            refine Steady.cons hquoteEscape ?_
            rcases hk with rfl | rfl
            · rw [readEscape_backreference hquote, readEscape_backreference hquote]
              exact .bind (readReference_robust hclosing rest)
                (backreferencePiece_steady options cursor)
            · rw [readEscape_call hquote, readEscape_call hquote]
              exact .bind (readReference_robust hclosing rest) (callPiece_steady cursor)
      · have hletters : c = 'k' ∨ c = 'g' → rest = [] :=
          fun hk => Decidable.byContradiction fun hne => hnamed ⟨hk, hne⟩
        have hbraces : c = 'p' ∨ c = 'P' → rest.head? ≠ some '{' :=
          fun hp hbrace => hproperty ⟨hp, hbrace⟩
        rw [readEscape_letter hnode hbraces hletters hx ho hu hzero,
          readEscape_letter hnode
            (fun hp => head?_disableAnchor_ne (hbraces hp) (by decide) (by decide))
            (fun hk => disableAnchor_eq_nil.mpr (hletters hk)) hx ho hu hzero]
        exact letterPiece_steady options cursor c rest

/-! ## Pieces -/

def classPiece (options : Options) (cursor : Cursor) (read : (Bool × CharClass) × List Char) :
    Except Fault (Piece × Cursor) :=
  let inner := read.1.2.under options
  .ok (.node (if options.anyCase then caselessClass read.1.1 inner
    else .oneOf (.negateIf read.1.1 inner)), cursor.moveTo read.2)

def bracePiece (options : Options) (cursor : Cursor) (read : Option Repetition × List Char) :
    Except Fault (Piece × Cursor) :=
  match read.1 with
  | some bounds => .ok (.repetition bounds, cursor.moveTo read.2)
  | none => .ok (literal options '{', cursor.moveTo read.2)

def pieceAt (options : Options) (cursor : Cursor) (text : List Char) :
    Except Fault (Piece × Cursor) :=
  match text with
  | [] => .ok (.finish, cursor.moveTo [])
  | '\\' :: rest => readEscape options cursor rest
  | '|' :: rest => .ok (.bar, cursor.moveTo rest)
  | '(' :: rest => readGroup options cursor rest
  | ')' :: rest => .ok (.close, cursor.moveTo rest)
  | '[' :: rest => readBracket (2 * rest.length + 2) rest >>= classPiece options cursor
  | '.' :: rest =>
      .ok (.node (.oneOf (if options.dotAll then CharClass.everything else .exceptNewline)),
        cursor.moveTo rest)
  | '^' :: rest => .ok (.node (.assertion .lineStart), cursor.moveTo rest)
  | '$' :: rest => .ok (.node (.assertion .lineEnd), cursor.moveTo rest)
  | '*' :: rest => .ok (readPiece.repetition cursor { least := 0, most := none } rest)
  | '+' :: rest => .ok (readPiece.repetition cursor { least := 1, most := none } rest)
  | '?' :: rest => .ok (readPiece.repetition cursor { least := 0, most := some 1 } rest)
  | '{' :: rest => readBounds rest >>= bracePiece options cursor
  | c :: rest => .ok (literal options c, cursor.moveTo rest)

theorem readPiece_eq (options : Options) (cursor : Cursor) :
    readPiece options cursor =
      skipIgnored options (cursor.rest.length + 1) cursor.rest >>= pieceAt options cursor := by
  rw [readPiece]
  congr 1
  funext text
  unfold pieceAt
  congr 1
  funext rest
  unfold readBounds
  cases readInterval rest with
  | error fault => rfl
  | ok found => cases found <;> rfl

theorem repetition_steady (cursor : Cursor) (bounds : Repetition) (rest : List Char) :
    Steady anchor off rest (.ok (readPiece.repetition cursor bounds rest))
      (.ok (readPiece.repetition cursor bounds (disableAnchor anchor rest))) := by
  change Steady anchor off rest
    ((.ok (readSuffix bounds false false rest) : Except Fault _) >>= fun read =>
      .ok (.repetition read.1, cursor.moveTo read.2))
    ((.ok (readSuffix bounds false false (disableAnchor anchor rest)) : Except Fault _) >>=
      fun read => .ok (.repetition read.1, cursor.moveTo read.2))
  exact .bind (readSuffix_robust bounds false false rest) fun _ _ => .ok cursor rfl

theorem classPiece_steady (options : Options) (cursor : Cursor) (read : Bool × CharClass)
    (rest : List Char) :
    Steady anchor off rest (classPiece options cursor (read, rest))
      (classPiece options cursor (read, disableAnchor anchor rest)) := by
  refine .ok cursor ?_
  unfold Piece.occurrences
  dsimp only
  split
  · exact occurrences_caselessClass read.1 _
  · rfl

theorem bracePiece_steady (options : Options) (cursor : Cursor) (read : Option Repetition)
    (rest : List Char) :
    Steady anchor off rest (bracePiece options cursor (read, rest))
      (bracePiece options cursor (read, disableAnchor anchor rest)) := by
  cases read with
  | none => exact .ok cursor (occurrences_literal options '{')
  | some bounds => exact .ok cursor rfl

def beginsPiece (c : Char) : Bool :=
  ['\\', '|', '(', ')', '[', '.', '^', '$', '*', '+', '?', '{'].contains c

theorem pieceAt_literal (h : beginsPiece c = false) :
    pieceAt options cursor (c :: rest) = .ok (literal options c, cursor.moveTo rest) := by
  unfold pieceAt
  split <;> simp_all [beginsPiece]

theorem pieceAt_moveTo (other text : List Char) :
    pieceAt options (cursor.moveTo other) text = pieceAt options cursor text := by
  unfold pieceAt
  split <;> rfl

theorem pieceAt_steady (hletter : off.letter? = some anchor) (options : Options) (cursor : Cursor)
    (htext : ∀ rest, text ≠ '\\' :: anchor :: rest) :
    Steady anchor off text (pieceAt options cursor text)
      (pieceAt options cursor (disableAnchor anchor text)) := by
  cases text using walk with
  | nil => exact .ok cursor rfl
  | lone => exact .error
  | escape c rest _ =>
      have hc : c ≠ anchor := fun heq => htext rest (heq ▸ rfl)
      rw [disableAnchor_escape hc]
      exact (readEscape_steady hletter hc options cursor rest).congr (by simp [hc])
  | plain c rest hc _ =>
      rw [disableAnchor_cons hc]
      refine Steady.cons hc ?_
      cases hbegins : beginsPiece c with
      | false =>
          rw [pieceAt_literal hbegins, pieceAt_literal hbegins]
          exact .ok cursor (occurrences_literal options c)
      | true =>
          simp only [beginsPiece, List.contains_iff_mem, List.mem_cons, List.not_mem_nil,
            or_false] at hbegins
          rcases hbegins with rfl | rfl | rfl | rfl | rfl | rfl | rfl | rfl | rfl | rfl | rfl | rfl
          · contradiction
          · exact .ok cursor rfl
          · exact readGroup_steady options cursor rest
          · exact .ok cursor rfl
          · have hlength := length_le_disableAnchor anchor rest
            exact .bind (readBracket_robust (isAlpha_of_letter hletter) (by omega) rest)
              (classPiece_steady options cursor)
          · exact .ok cursor rfl
          · exact .ok cursor (occurrences_unlettered hletter rfl)
          · exact .ok cursor (occurrences_unlettered hletter rfl)
          · exact repetition_steady cursor _ rest
          · exact repetition_steady cursor _ rest
          · exact repetition_steady cursor _ rest
          · exact .bind (readBounds_robust rest) (bracePiece_steady options cursor)

theorem pieceAt_anchor (hletter : off.letter? = some anchor) :
    pieceAt options cursor ('\\' :: anchor :: rest) =
      .ok (.node (.assertion off), cursor.moveTo rest) := by
  rw [← under_of_letter hletter options]
  exact readEscape_node (nodeLetter?_of_letter hletter)

theorem pieceAt_never :
    pieceAt options cursor ('(' :: '?' :: '!' :: ')' :: rest) =
      .ok (.opening (.look .ahead true) options, cursor.moveTo (')' :: rest)) := rfl

/-- A piece is the anchor, or it is read alike with the anchor switched off. -/
theorem readPiece_cases (hletter : off.letter? = some anchor)
    (h : readPiece options cursor = .ok (piece, next)) :
    (piece = .node (.assertion off) ∧ escapes anchor next.rest + 1 ≤ escapes anchor cursor.rest ∧
      (escapes anchor next.rest + 1 = escapes anchor cursor.rest →
        readPiece options (cursor.disable anchor) = .ok (.opening (.look .ahead true) options,
          next.moveTo (')' :: disableAnchor anchor next.rest)))) ∨
    (piece.occurrences off = 0 ∧ escapes anchor next.rest ≤ escapes anchor cursor.rest ∧
      (escapes anchor next.rest = escapes anchor cursor.rest →
        readPiece options (cursor.disable anchor) = .ok (piece, next.disable anchor))) := by
  rw [readPiece_eq] at h
  obtain ⟨text, hskip, hpiece⟩ := bind_eq_ok.mp h
  have hlonger := Nat.succ_le_succ (length_le_disableAnchor anchor cursor.rest)
  obtain ⟨hle, hoffSkip⟩ := skipIgnored_robust (Nat.lt_succ_self _) hlonger () text
    (map_eq_ok.mpr ⟨text, hskip, rfl⟩)
  have hoff : escapes anchor text = escapes anchor cursor.rest →
      readPiece options (cursor.disable anchor) =
        pieceAt options cursor (disableAnchor anchor text) := by
    intro heq
    obtain ⟨_, hskipOff, hrest⟩ := map_eq_ok.mp (hoffSkip heq)
    cases hrest
    rw [readPiece_eq]
    exact (congrArg (· >>= _) hskipOff).trans (pieceAt_moveTo ..)
  -- Only what is skipped can hide escapes; the anchor itself is one that is not hidden.
  by_cases htext : ∃ rest, text = '\\' :: anchor :: rest
  · obtain ⟨rest, rfl⟩ := htext
    rw [pieceAt_anchor hletter] at hpiece
    cases hpiece
    rw [escapes_escape, if_pos rfl] at hle hoff
    refine .inl ⟨rfl, by simp only [Cursor.moveTo]; omega, fun heq => ?_⟩
    rw [hoff (by simp only [Cursor.moveTo] at heq; omega), disableAnchor_anchor, pieceAt_never]
    rfl
  · obtain ⟨hoccurs, hle', hoffPiece⟩ := pieceAt_steady hletter options cursor
      (fun rest heq => htext ⟨rest, heq⟩) piece next hpiece
    refine .inr ⟨hoccurs, Nat.le_trans hle' hle, fun heq => ?_⟩
    rw [hoff (by omega)]
    exact hoffPiece (by omega)

end ScopeLexer.Regex
