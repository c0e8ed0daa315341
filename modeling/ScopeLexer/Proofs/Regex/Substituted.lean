import ScopeLexer.Proofs.Regex.Apart

/-!
# Text put into expressions

Escaped text is a sequence of whole escapes and of characters that begin none.  So the escapes
around it are read as before, wherever it is put and whatever it says: nothing in it is a reference
or an anchor, and none of those around it is lost.
-/

namespace ScopeLexer.Regex

/-! ## Escaped text -/

theorem escape_cons (c : Char) (text : List Char) :
    escape (c :: text) = escapeChar c ++ escape text :=
  List.flatMap_cons

theorem escape_append (first second : List Char) :
    escape (first ++ second) = escape first ++ escape second :=
  List.flatMap_append

theorem escapeChar_ne_nil (c : Char) : escapeChar c ≠ [] := by
  rw [escapeChar]
  split <;> exact List.cons_ne_nil _ _

theorem escapeChar_append_inj {c d : Char} {rest others : List Char}
    (h : escapeChar c ++ rest = escapeChar d ++ others) : c = d ∧ rest = others := by
  have hsign : needsEscape '\\' = true := by decide
  unfold escapeChar at h
  split at h
  · split at h
    · cases h
      exact ⟨rfl, rfl⟩
    · next hd =>
      cases h
      contradiction
  · split at h
    · next hc _ =>
      cases h
      contradiction
    · cases h
      exact ⟨rfl, rfl⟩

theorem escape_inj {first second : List Char} : escape first = escape second ↔ first = second := by
  refine ⟨fun h => ?_, congrArg escape⟩
  induction first generalizing second with
  | nil =>
      cases second with
      | nil => rfl
      | cons d second =>
          rw [escape_cons] at h
          exact absurd (List.append_eq_nil_iff.mp h.symm).1 (escapeChar_ne_nil d)
  | cons c first ih =>
      rw [escape_cons] at h
      cases second with
      | nil => exact absurd (List.append_eq_nil_iff.mp h).1 (escapeChar_ne_nil c)
      | cons d second =>
          rw [escape_cons] at h
          obtain ⟨rfl, hrest⟩ := escapeChar_append_inj h
          rw [ih hrest]

/-! ## Substitution -/

variable {line : Text} {groups : Groups}

theorem substitute_eq_self {source : List Char}
    (h : (Features.ofSource source).references = false) :
    substitute line groups source = source := by
  induction source using walk with
  | nil => rfl
  | lone => rfl
  | escape c rest ih =>
      obtain ⟨hdigit, hrest⟩ := Bool.or_eq_false_iff.mp h
      have hdigit : isReferenceDigit c = false := hdigit
      rw [substitute, hdigit, ih hrest]
      rfl
  | plain c rest hc ih =>
      rw [Features.ofSource_cons hc] at h
      rw [substitute_cons hc, ih h]

/-- Whatever the text of groups, an expression keeps its anchors when it is put in place of the
references, and has no references any more; putting text in once more, and switching anchors off
before or after, makes no difference.  What was escaped is told from the result, part by part. -/
theorem substitute_keeps_syntax (line : Text) (groups : Groups) (source : List Char) :
    Features.ofSource (substitute line groups source) =
      { Features.ofSource source with references := false } ∧
    (∀ other others, substitute other others (substitute line groups source) =
      substitute line groups source) ∧
    (∀ first second, escape first = escape second ↔ first = second) ∧
    (∀ first second, escape (first ++ second) = escape first ++ escape second) ∧
    disableAnchor 'G' (substitute line groups source) =
      substitute line groups (disableAnchor 'G' source) ∧
    disableAnchor 'A' (substitute line groups source) =
      substitute line groups (disableAnchor 'A' source) := by
  have hfeatures := Features.ofSource_substitute line groups source
  refine ⟨hfeatures, fun other others => ?_, fun _ _ => escape_inj, escape_append,
    disableAnchor_substitute rfl rfl source, disableAnchor_substitute rfl rfl source⟩
  exact substitute_eq_self (by rw [hfeatures])

end ScopeLexer.Regex
