import ScopeLexer.Proofs.Outcome
import ScopeLexer.Regex.Expression

/-!
# References in expressions

Text that is put in place of a reference is escaped, and no escape of a sign or a blank is an anchor
or a reference.  So an expression has its own anchors after its references are resolved, and no
references.
-/

namespace ScopeLexer.Regex

open Outcome

namespace Features

theorem ofEscape_of_needsEscape {c : Char} (h : needsEscape c = true) : ofEscape c = {} := by
  rcases Bool.or_eq_true_iff.mp h with hspecial | hblank
  · have hsigns : ("-\\\x7b\x7d*+?|^$.,[]()#".toList.all fun sign => ofEscape sign == {}) = true :=
      rfl
    exact eq_of_beq (List.all_eq_true.mp hsigns c (List.contains_iff_mem.mp hspecial))
  · have hG : c ≠ 'G' := by
      rintro rfl
      revert hblank
      decide
    have hA : c ≠ 'A' := by
      rintro rfl
      revert hblank
      decide
    have hdigit : isReferenceDigit c = false := by
      simp only [Unicode.isWhiteSpace, Bool.or_eq_true, Bool.and_eq_true, decide_eq_true_eq,
        beq_iff_eq] at hblank
      simp only [isReferenceDigit, Bool.and_eq_false_iff, decide_eq_false_iff_not, Char.le_def,
        UInt32.le_iff_toNat_le]
      have h1 : ('1' : Char).val.toNat = 49 := rfl
      have h9 : ('9' : Char).val.toNat = 57 := rfl
      have hc : c.val.toNat = c.toNat := rfl
      omega
    simp [ofEscape, hG, hA, hdigit]

theorem ofSource_cons {c : Char} (h : c ≠ '\\') (rest : List Char) :
    ofSource (c :: rest) = ofSource rest := by
  rw [ofSource]
  · simp [h]
  · simp [h]

theorem ofSource_escape_append (text rest : List Char) :
    ofSource (escape text ++ rest) = ofSource rest := by
  induction text with
  | nil => rfl
  | cons c text ih =>
      rw [escape, List.flatMap_cons, List.append_assoc, ← escape]
      cases hc : needsEscape c with
      | true =>
          simp only [escapeChar, hc, if_true, List.cons_append, List.nil_append, ofSource,
            ofEscape_of_needsEscape hc, ih]
          simp [join]
      | false =>
          have hne : c ≠ '\\' := by
            rintro rfl
            revert hc
            decide
          simp only [escapeChar, hc, Bool.false_eq_true, if_false, List.cons_append,
            List.nil_append, ofSource_cons hne, ih]

theorem not_anchor_of_isReferenceDigit {c : Char} (h : isReferenceDigit c = true) :
    (c == 'G') = false ∧ (c == 'A') = false := by
  constructor
  all_goals
    rw [beq_eq_false_iff_ne]
    rintro rfl
    revert h
    decide

/-- With its references resolved an expression keeps its anchors and has no references. -/
theorem ofSource_substitute (line : Text) (groups : Groups) (source : List Char) :
    ofSource (substitute line groups source) = { ofSource source with references := false } := by
  fun_induction substitute line groups source with
  | case1 c rest ih =>
      cases hdigit : isReferenceDigit c with
      | true =>
          obtain ⟨hG, hA⟩ := not_anchor_of_isReferenceDigit hdigit
          simp only [if_true, ofSource_escape_append, ih, ofSource, ofEscape, join, hG, hA,
            Bool.false_or]
      | false =>
          simp only [Bool.false_eq_true, if_false, List.cons_append, List.nil_append, ofSource, ih,
            ofEscape, join, hdigit, Bool.false_or]
  | case2 => rfl
  | case3 c rest hescape hlast ih =>
      have hne : c ≠ '\\' := by
        rintro rfl
        cases rest with
        | nil => exact hlast rfl rfl
        | cons d rest => exact hescape d rest rfl rfl
      rw [ofSource_cons hne, ofSource_cons hne, ih]
  | case4 => rfl

end Features

/-! ## Resolved expressions -/

namespace Expression

theorem source_of_build {source : String} {searched : List Char} {expression : Expression}
    (h : build source searched = .ok expression) : expression.source = source := by
  unfold build at h
  obtain ⟨plain, -, h⟩ := bind_eq_ok.mp h
  obtain ⟨withoutSearchAnchor, -, h⟩ := bind_eq_ok.mp h
  obtain ⟨withoutTextAnchor, -, h⟩ := bind_eq_ok.mp h
  obtain ⟨withoutAnchors, -, h⟩ := bind_eq_ok.mp h
  cases pure_eq_ok.mp h
  rfl

structure Resolved (expression : Expression) : Prop where
  compiled : ofSource expression.source = .ok expression
  noReferences : (Features.ofSource expression.source.toList).references = false

theorem Resolved.of_resolve {expression resolved : Expression} {line : Text} {groups : Groups}
    (h : expression.resolve line groups = .ok resolved) : resolved.Resolved := by
  have hsource : resolved.source =
      String.ofList (substitute line groups expression.source.toList) := source_of_build h
  constructor
  · rw [hsource]
    exact h
  · rw [hsource, String.toList_ofList, Features.ofSource_substitute]

end Expression

end ScopeLexer.Regex
