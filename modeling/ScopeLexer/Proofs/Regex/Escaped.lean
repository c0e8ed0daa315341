import ScopeLexer.Proofs.Regex.Apart
import ScopeLexer.Proofs.Text.Boundary

/-!
# Escaped text

The expression of an escaped text is read as the characters of the text in a row.  It has no groups,
anchors or references, and a search finds the first place where the text stands.
-/

namespace ScopeLexer

/-! ## Occurrences -/

namespace Text

def OccursAt (text : Text) (part : List Char) (position : Nat) : Prop :=
  ∃ before behind, text.toList = before ++ part ++ behind ∧ byteLength before = position

/-- No earlier position from `start` on has the part. -/
structure OccursFirst (text : Text) (part : List Char) (start position : Nat) : Prop where
  le : start ≤ position
  occurs : text.OccursAt part position
  least : ∀ other, start ≤ other → text.OccursAt part other → position ≤ other

theorem occursAt_offset {text : Text} {part : List Char} {index : Nat}
    (h : part <+: text.toList.drop index) : text.OccursAt part (text.offset index) := by
  obtain ⟨behind, hbehind⟩ := h
  refine ⟨text.toList.take index, behind, ?_, rfl⟩
  rw [List.append_assoc, hbehind, List.take_append_drop]

theorem OccursAt.exists_index {text : Text} {part : List Char} {position first : Nat}
    (h : text.OccursAt part position) (hfirst : first ≤ text.toList.length)
    (hle : text.offset first ≤ position) :
    ∃ index, text.offset index = position ∧ (first ≤ index ∧ index ≤ text.toList.length) ∧
      part <+: text.toList.drop index := by
  obtain ⟨before, behind, hsplit, rfl⟩ := h
  have hsplit : text.toList = before ++ (part ++ behind) := by rw [hsplit, List.append_assoc]
  have hoffset := text.offset_length hsplit
  refine ⟨before.length, hoffset, ⟨?_, by simp [hsplit]⟩, ?_⟩
  · refine Nat.not_lt.mp fun hlt => ?_
    have hoffsets := text.offset_lt hlt hfirst
    omega
  · rw [hsplit, List.drop_left]
    exact List.prefix_append part behind

theorem occursFirst_offset {text : Text} {part : List Char} {first index : Nat}
    (hbounds : first ≤ index ∧ index ≤ text.toList.length) (hpart : part <+: text.toList.drop index)
    (hearlier : ∀ earlier, first ≤ earlier → earlier < index →
      ¬part <+: text.toList.drop earlier) :
    text.OccursFirst part (text.offset first) (text.offset index) where
  le := text.offset_mono hbounds.1
  occurs := occursAt_offset hpart
  least := by
    intro other hle hother
    obtain ⟨later, rfl, hlater, hpart⟩ := hother.exists_index (by omega) hle
    exact text.offset_mono (Nat.not_lt.mp fun hlt => hearlier later hlater.1 hlt hpart)

end Text

namespace Regex

/-! ## Characters in a row -/

namespace Node

def characters (text : List Char) : Node := inSequence (text.map character)

theorem refersWithin_characters (count : Nat) (text : List Char) :
    (characters text).refersWithin count = true := by
  induction text with
  | nil => rfl
  | cons c text ih =>
      cases text with
      | nil => rfl
      | cons d text => exact ih

theorem called_characters (text : List Char) : (characters text).called = [] := by
  induction text with
  | nil => rfl
  | cons c text ih =>
      cases text with
      | nil => rfl
      | cons d text => exact ih

theorem looksBehindSoundly_characters (text : List Char) :
    (characters text).looksBehindSoundly = true := by
  induction text with
  | nil => rfl
  | cons c text ih =>
      cases text with
      | nil => rfl
      | cons d text => exact ih

/-! ## Matching -/

variable {calls : Calls} {subject : Subject}

theorem run_character (hlimit : subject.limit = subject.text.size) (c : Char)
    (progress : Progress) (rest : Rest) :
    (character c).run calls subject progress rest =
      if subject.text[progress.position]? = some c then
        rest (progress.moveTo (progress.position + 1))
      else none := by
  have hat : subject.at? progress.position = subject.text[progress.position]? := by
    rw [Subject.at?, hlimit]
    split
    · rfl
    · next h => rw [Array.getElem?_eq_none (Nat.not_lt.mp h)]
  rw [character, run, hat]
  cases subject.text[progress.position]? with
  | none => rfl
  | some d =>
      have hsingle : (CharClass.single c).contains d = decide (d = c) := by
        rw [CharClass.single, CharClass.contains, Bool.eq_iff_iff]
        simp only [Bool.and_eq_true, decide_eq_true_eq, ← Char.toNat_inj]
        omega
      simp [hsingle]

theorem run_characters_cons (c : Char) (text : List Char) (progress : Progress) (rest : Rest) :
    (characters (c :: text)).run calls subject progress rest =
      (character c).run calls subject progress fun next =>
        (characters text).run calls subject next rest := by
  cases text <;> rfl

theorem cons_prefix_drop {c : Char} {part text : List Char} {index : Nat} :
    c :: part <+: text.drop index ↔ text[index]? = some c ∧ part <+: text.drop (index + 1) := by
  rw [List.cons_prefix_iff]
  constructor
  · rintro ⟨rest, hrest, hpart⟩
    rw [← List.head?_drop, ← List.tail_drop, hrest]
    exact ⟨rfl, hpart⟩
  · rintro ⟨hfirst, hpart⟩
    obtain ⟨hindex, rfl⟩ := List.getElem?_eq_some_iff.mp hfirst
    exact ⟨text.drop (index + 1), List.drop_eq_getElem_cons hindex, hpart⟩

theorem run_characters (hlimit : subject.limit = subject.text.size) (text : List Char)
    (progress : Progress) (rest : Rest) :
    (characters text).run calls subject progress rest =
      if text <+: subject.text.toList.drop progress.position then
        rest (progress.moveTo (progress.position + text.length))
      else none := by
  induction text generalizing progress with
  | nil => simp [characters, inSequence, run, Progress.moveTo]
  | cons c text ih =>
      have hmoved : ((progress.moveTo (progress.position + 1)).moveTo
          (progress.position + 1 + text.length)) =
            progress.moveTo (progress.position + (c :: text).length) := by
        rw [List.length_cons, Nat.add_assoc, Nat.add_comm 1]
        rfl
      rw [run_characters_cons, run_character hlimit]
      simp only [ih, cons_prefix_drop, Array.getElem?_toList]
      by_cases hfirst : subject.text[progress.position]? = some c
      · simp only [hfirst, true_and, if_true, ← hmoved]
        rfl
      · simp [hfirst]

end Node

/-! ## Searching -/

namespace Program

def ofCharacters (text : List Char) : Program := { root := .characters text, groups := 0 }

variable {program : Program} {subject : Subject} {tries position first : Nat} {found : Progress}

theorem searchFrom_eq_some
    (h : program.searchFrom subject tries position = some (first, found)) :
    (position ≤ first ∧ first < position + tries) ∧
      program.root.run (program.call maxNesting) subject (program.begin first) some = some found ∧
      ∀ earlier, position ≤ earlier → earlier < first →
        program.root.run (program.call maxNesting) subject (program.begin earlier) some = none := by
  induction tries generalizing position with
  | zero => contradiction
  | succ tries ih =>
      rw [searchFrom] at h
      split at h
      · next hrun =>
        cases h
        exact ⟨⟨Nat.le_refl _, by omega⟩, hrun, fun earlier hle hlt => absurd hle (by omega)⟩
      · next hrun =>
        obtain ⟨hbounds, hfound, hnone⟩ := ih h
        refine ⟨by omega, hfound, fun earlier hle hlt => ?_⟩
        rcases Nat.eq_or_lt_of_le hle with rfl | hlater
        · exact hrun
        · exact hnone earlier hlater hlt

theorem searchFrom_eq_none (h : program.searchFrom subject tries position = none) :
    ∀ index, position ≤ index → index < position + tries →
      program.root.run (program.call maxNesting) subject (program.begin index) some = none := by
  induction tries generalizing position with
  | zero => exact fun index hle hlt => absurd hle (by omega)
  | succ tries ih =>
      rw [searchFrom] at h
      split at h
      · contradiction
      · next hrun =>
        intro index hle hlt
        rcases Nat.eq_or_lt_of_le hle with rfl | hlater
        · exact hrun
        · exact ih h index hlater (by omega)

theorem run_ofCharacters (part : List Char) (chars : Array Char) (start index : Nat) :
    (ofCharacters part).root.run ((ofCharacters part).call maxNesting)
        { text := chars, start, limit := chars.size } ((ofCharacters part).begin index) some =
      if part <+: chars.toList.drop index then
        some ((ofCharacters part).begin (index + part.length))
      else none :=
  Node.run_characters rfl part _ some

theorem search_ofCharacters {part : List Char} {chars : Array Char} {start : Nat}
    (hstart : start ≤ chars.size) :
    (∃ index, (ofCharacters part).search chars start =
        some (index, (ofCharacters part).begin (index + part.length)) ∧
      (start ≤ index ∧ index ≤ chars.size) ∧ part <+: chars.toList.drop index ∧
      ∀ earlier, start ≤ earlier → earlier < index → ¬part <+: chars.toList.drop earlier) ∨
    (ofCharacters part).search chars start = none ∧
      ∀ index, start ≤ index → index ≤ chars.size → ¬part <+: chars.toList.drop index := by
  have hnone : ∀ {index : Nat},
      (ofCharacters part).root.run ((ofCharacters part).call maxNesting)
          { text := chars, start, limit := chars.size } ((ofCharacters part).begin index) some = none →
        ¬part <+: chars.toList.drop index := by
    intro index hrun hpart
    rw [run_ofCharacters, if_pos hpart] at hrun
    contradiction
  cases hsearch : (ofCharacters part).search chars start with
  | none =>
      refine .inr ⟨rfl, fun index hle hsize => hnone (searchFrom_eq_none hsearch index hle ?_)⟩
      omega
  | some result =>
      obtain ⟨index, found⟩ := result
      obtain ⟨hbounds, hrun, hearlier⟩ := searchFrom_eq_some hsearch
      rw [run_ofCharacters] at hrun
      split at hrun
      · next hpart =>
        cases hrun
        exact .inl ⟨index, rfl, by omega, hpart, fun earlier hle hlt =>
          hnone (hearlier earlier hle hlt)⟩
      · contradiction

end Program

/-! ## Reading -/

theorem joinItems_characters (text : List Char) :
    joinItems (text.map (Item.node ∘ Node.character)) [] = text.map Node.character := by
  induction text with
  | nil => rfl
  | cons c text ih => exact congrArg _ ih

theorem readAlternatives_escape_append {options : Options} (hcase : options.anyCase = false)
    (fuel : Nat) (inGroup : Bool) (branches : List Node) (items : List Item) (cursor : Cursor)
    (text rest : List Char) :
    readAlternatives (text.length + fuel) inGroup options branches items
        (cursor.moveTo (escape text ++ rest)) =
      readAlternatives fuel inGroup options branches
        (text.reverse.map (Item.node ∘ Node.character) ++ items) (cursor.moveTo rest) := by
  induction text generalizing items with
  | nil => simp [escape]
  | cons c text ih =>
      have hliteral : literal options c = .node (.character c) := by simp [literal, hcase]
      rw [List.length_cons, Nat.succ_add, escape, List.flatMap_cons, List.append_assoc, ← escape,
        readAlternatives_succ, readPiece_escapeChar, hliteral]
      exact (ih (.node (.character c) :: items)).trans (by simp)

theorem length_le_escape (text : List Char) : text.length ≤ (escape text).length := by
  induction text with
  | nil => exact Nat.le_refl _
  | cons c text ih =>
      rw [escape, List.flatMap_cons, ← escape, List.length_append, List.length_cons, escapeChar]
      split <;> simp only [List.length_cons, List.length_nil] <;> omega

theorem readTree_escape (text : List Char) :
    readTree (escape text) = .ok (.characters text, { rest := [] }) := by
  obtain ⟨fuel, hfuel⟩ : ∃ fuel, (escape text).length + 2 = text.length + (fuel + 1) := by
    have hlength := length_le_escape text
    exact ⟨(escape text).length - text.length + 1, by omega⟩
  have hread := @readAlternatives_escape_append {} rfl (fuel + 1) false [] [] { rest := [] } text []
  have hend : complete [] (text.reverse.map (Item.node ∘ Node.character)) = .characters text := by
    rw [complete, branchNode, List.map_reverse, List.reverse_reverse, joinItems_characters]
    rfl
  rw [List.append_nil, List.append_nil, ← hfuel] at hread
  exact hread.trans (congrArg (fun tree => Except.ok (tree, _)) hend)

theorem ofNamed_characters (text : List Char) :
    Program.ofNamed (.characters text) 0 = .ok (.ofCharacters text) := by
  have hcalled := Node.called_characters text
  have hnone : (Node.characters text).recursiveGroups 0 = [] := by
    rw [Node.recursiveGroups, hcalled]
    rfl
  rw [ofNamed_eq_ok, hnone]
  refine ⟨rfl, ?_, Node.looksBehindSoundly_characters text⟩
  exact congrArg (Program.mk · 0) (Node.mapCalls_of_called hcalled).symm

theorem ofText_escape (text : List Char) :
    Program.ofText (escape text) = .ok (.ofCharacters text) :=
  ofText_eq_ok.mpr ⟨_, _, readTree_escape text, ofTree_eq_ok.mpr
    ⟨Node.refersWithin_characters _ text, _,
      Node.nameCalls_of_called (Node.called_characters text), ofNamed_characters text⟩⟩

/-! ## Expressions -/

def Expression.ofCharacters (text : List Char) : Expression where
  source := String.ofList (escape text)
  features := {}
  plain := .ofCharacters text
  withoutSearchAnchor := none
  withoutTextAnchor := none
  withoutAnchors := none

theorem features_escape (text : List Char) : Features.ofSource (escape text) = {} := by
  simpa [Features.ofSource] using Features.ofSource_escape_append text []

theorem ofSource_escape (text : List Char) :
    Expression.ofSource (String.ofList (escape text)) = .ok (.ofCharacters text) := by
  have hplain : compile (escape text) = .ok (.ofCharacters text) := by
    rw [compile, ofText_escape]
  rw [Expression.ofSource, Expression.build, String.toList_ofList, features_escape, hplain]
  rfl

theorem variant_ofCharacters (text : List Char) (anchors : Anchors) :
    (Expression.ofCharacters text).variant anchors = .ofCharacters text := by
  obtain ⟨firstLine, atAnchor⟩ := anchors
  cases firstLine <;> cases atAnchor <;> rfl

theorem report_ofCharacters {part : List Char} {text : Text} {index : Nat}
    (h : part <+: text.toList.drop index) :
    Expression.report text index ((Program.ofCharacters part).begin (index + part.length)) =
      ⟨text.offset index, text.offset index + byteLength part,
        [some ⟨text.offset index, text.offset index + byteLength part⟩]⟩ := by
  have hstop : text.offset (index + part.length) = text.offset index + byteLength part := by
    obtain ⟨behind, hbehind⟩ := h
    rw [Text.offset, List.take_add, byteLength_append, ← hbehind, List.take_left]
    rfl
  simp only [Expression.report, Program.begin, Program.ofCharacters, hstop]
  rfl

theorem findAt?_ofCharacters {part : List Char} {text : Text} {start : Nat}
    (hstart : text.IsBoundary start) (anchors : Anchors) :
    (∃ position, text.OccursFirst part start position ∧
      (Expression.ofCharacters part).findAt? text start anchors =
        some ⟨position, position + byteLength part,
          [some ⟨position, position + byteLength part⟩]⟩) ∨
    (∀ position, start ≤ position → ¬text.OccursAt part position) ∧
      (Expression.ofCharacters part).findAt? text start anchors = none := by
  obtain ⟨first, hindex, hfirst⟩ := Text.index?_of_isBoundary hstart
  obtain rfl := text.offset_of_index? hindex
  rw [Expression.findAt?, hindex, variant_ofCharacters]
  dsimp only
  rcases @Program.search_ofCharacters part text.chars first hfirst with
    ⟨index, hsearch, hbounds, hpart, hearlier⟩ | ⟨hsearch, hnone⟩
  · refine .inl ⟨text.offset index, Text.occursFirst_offset hbounds hpart hearlier, ?_⟩
    rw [hsearch]
    exact congrArg some (report_ofCharacters hpart)
  · refine .inr ⟨fun position hle hoccurs => ?_, ?_⟩
    · obtain ⟨index, -, hindex, hpart⟩ := hoccurs.exists_index hfirst hle
      exact hnone index hindex.1 hindex.2 hpart
    · rw [hsearch]
      rfl

/-- The expression of an escaped text has no groups, anchors or references, and from a position
between characters it finds the first occurrence of the text, as long as the text is, or nothing
when there is none. -/
theorem escape_finds_text (part : List Char) :
    ∃ expression, Expression.ofSource (String.ofList (escape part)) = .ok expression ∧
      expression.groupCount = 0 ∧ expression.hasAnchor = false ∧
      expression.hasReferences = false ∧
      ∀ (text : Text) (start : Nat) (anchors : Anchors), text.IsBoundary start →
        (∃ position, text.OccursFirst part start position ∧
          expression.findAt? text start anchors =
            some ⟨position, position + byteLength part,
              [some ⟨position, position + byteLength part⟩]⟩) ∨
        (∀ position, start ≤ position → ¬text.OccursAt part position) ∧
          expression.findAt? text start anchors = none := by
  exact ⟨_, ofSource_escape part, rfl, rfl, rfl, fun _ _ anchors hstart =>
    findAt?_ofCharacters hstart anchors⟩

theorem escaped_dot_finds_dot : (Text.ofString "é axb a.b").IsBoundary 2 ∧
    (Text.ofString "é axb a.b").OccursFirst ['a', '.', 'b'] 2 7 ∧
    ∃ expression, Expression.ofSource "a\\.b" = .ok expression ∧
      expression.findAt? (.ofString "é axb a.b") 2 {} = some ⟨7, 10, [some ⟨7, 10⟩]⟩ := by
  have hstart : (Text.ofString "é axb a.b").IsBoundary 2 := ⟨['é'], " axb a.b".toList, rfl, rfl⟩
  obtain ⟨expression, hsource, -, -, -, hfind⟩ := escape_finds_text ['a', '.', 'b']
  obtain rfl := Except.ok.inj ((ofSource_escape ['a', '.', 'b']).symm.trans hsource)
  have hfound : (Expression.ofCharacters ['a', '.', 'b']).findAt? (.ofString "é axb a.b") 2 {} =
      some ⟨7, 10, [some ⟨7, 10⟩]⟩ := by decide +kernel
  rcases hfind _ 2 {} hstart with ⟨position, hfirst, hposition⟩ | ⟨-, hnone⟩
  · rw [hfound] at hposition
    cases hposition
    exact ⟨hstart, hfirst, _, hsource, hfound⟩
  · rw [hfound] at hnone
    contradiction

end Regex

end ScopeLexer
