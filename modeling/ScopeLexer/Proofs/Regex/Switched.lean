import ScopeLexer.Proofs.Regex.Substituted

/-!
# Anchors that are switched off together

What is put in place of an anchor holds no escape, so the escapes behind it are met as before.
Switching anchors off one after the other is then the same as switching all of them off at once, in
whatever order and however often; and each program of an expression is read from the text without
the anchors that may not match where it is used.
-/

namespace ScopeLexer.Regex

variable {off others : Char → Bool} {c : Char} {rest text : List Char}

def disableAll (off : Char → Bool) : List Char → List Char
  | '\\' :: c :: rest => (if off c then never else ['\\', c]) ++ disableAll off rest
  | ['\\'] => ['\\']
  | c :: rest => c :: disableAll off rest
  | [] => []

theorem disableAll_cons (hc : c ≠ '\\') (rest : List Char) :
    disableAll off (c :: rest) = c :: disableAll off rest := by
  rw [disableAll]
  · simp [hc]
  · simp [hc]

theorem disableAll_kept (h : off c = false) :
    disableAll off ('\\' :: c :: rest) = '\\' :: c :: disableAll off rest := by
  simp [disableAll, h]

theorem disableAll_never_append (rest : List Char) :
    disableAll off (never ++ rest) = never ++ disableAll off rest := by
  simp only [never, List.cons_append, List.nil_append]
  rw [disableAll_cons (by decide), disableAll_cons (by decide), disableAll_cons (by decide),
    disableAll_cons (by decide)]

theorem disableAll_off (h : off c = true) :
    disableAll off ('\\' :: c :: rest) = never ++ disableAll off rest := by
  simp [disableAll, h]

theorem disableAnchor_eq (anchor : Char) (text : List Char) :
    disableAnchor anchor text = disableAll (· == anchor) text := by
  induction text using walk with
  | nil => rfl
  | lone => rfl
  | escape c rest ih => rw [disableAnchor, disableAll, ih]
  | plain c rest hc ih => rw [disableAnchor_cons hc, disableAll_cons hc, ih]

theorem disableAll_none (text : List Char) : disableAll (fun _ => false) text = text := by
  induction text using walk with
  | nil => rfl
  | lone => rfl
  | escape c rest ih => rw [disableAll_kept rfl, ih]
  | plain c rest hc ih => rw [disableAll_cons hc, ih]

/-- What was put in place of an anchor stays, and what stood behind it is still met. -/
theorem disableAll_disableAll (off others : Char → Bool) (text : List Char) :
    disableAll off (disableAll others text) = disableAll (fun c => off c || others c) text := by
  induction text using walk with
  | nil => rfl
  | lone => rfl
  | escape c rest ih =>
      cases hothers : others c with
      | true => rw [disableAll_off hothers, disableAll_never_append, ih,
          disableAll_off (by rw [hothers, Bool.or_true])]
      | false =>
          rw [disableAll_kept hothers]
          cases hoff : off c with
          | true => rw [disableAll_off hoff, ih, disableAll_off (by rw [hoff, Bool.true_or])]
          | false => rw [disableAll_kept hoff, ih, disableAll_kept (by rw [hoff, hothers]; rfl)]
  | plain c rest hc ih =>
      rw [disableAll_cons hc, disableAll_cons hc, disableAll_cons hc, ih]

/-! ## Features -/

namespace Features

def without (off : Char → Bool) (features : Features) : Features :=
  { features with
    searchAnchor := features.searchAnchor && !off 'G'
    textAnchor := features.textAnchor && !off 'A' }

theorem ofSource_never_append (rest : List Char) : ofSource (never ++ rest) = ofSource rest := by
  simp only [never, List.cons_append, List.nil_append]
  rw [ofSource_cons (by decide), ofSource_cons (by decide), ofSource_cons (by decide),
    ofSource_cons (by decide)]

theorem join_without (h : off c = false) (features : Features) :
    (ofEscape c).join (features.without off) = ((ofEscape c).join features).without off := by
  have hkept (anchor : Char) (has : Bool) :
      (c == anchor || has && !off anchor) = ((c == anchor || has) && !off anchor) := by
    by_cases hc : c = anchor
    · rw [← hc, h, Bool.not_false, Bool.and_true, Bool.and_true]
    · rw [beq_eq_false_iff_ne.mpr hc, Bool.false_or, Bool.false_or]
  simp only [without, join, ofEscape, hkept]

theorem join_off_without (h : off c = true) (hdigit : isReferenceDigit c = false)
    (features : Features) : ((ofEscape c).join features).without off = features.without off := by
  have hoff (anchor : Char) (has : Bool) :
      ((c == anchor || has) && !off anchor) = (has && !off anchor) := by
    by_cases hc : c = anchor
    · rw [← hc, h, Bool.not_true, Bool.and_false, Bool.and_false]
    · rw [beq_eq_false_iff_ne.mpr hc, Bool.false_or]
  simp only [without, join, ofEscape, hoff, hdigit, Bool.false_or]

theorem ofSource_disableAll (hdigits : ∀ c, off c = true → isReferenceDigit c = false)
    (text : List Char) : ofSource (disableAll off text) = (ofSource text).without off := by
  induction text using walk with
  | nil => rfl
  | lone => rfl
  | escape c rest ih =>
      cases hc : off c with
      | true =>
          rw [disableAll_off hc, ofSource_never_append, ih, ofSource,
            join_off_without hc (hdigits c hc)]
      | false => rw [disableAll_kept hc, ofSource, ih, ofSource, join_without hc]
  | plain c rest hc ih => rw [disableAll_cons hc, ofSource_cons hc, ofSource_cons hc, ih]

theorem ofSource_disableAnchor {anchor : Char} (h : isReferenceDigit anchor = false)
    (text : List Char) :
    ofSource (disableAnchor anchor text) = (ofSource text).without (· == anchor) := by
  rw [disableAnchor_eq]
  refine ofSource_disableAll (fun c hc => ?_) text
  rw [eq_of_beq hc, h]

end Features

/-! ## Programs -/

def Anchors.forbids (anchors : Anchors) (anchor : Char) : Bool :=
  (anchor == 'G' && !anchors.atAnchor) || (anchor == 'A' && !anchors.firstLine)

theorem unless_allowed (allowed : Bool) (anchor : Char) (text : List Char) :
    (if allowed then text else disableAnchor anchor text) =
      disableAll (fun c => c == anchor && !allowed) text := by
  cases allowed with
  | true => simp only [if_true, Bool.not_true, Bool.and_false, disableAll_none]
  | false => simp only [Bool.false_eq_true, if_false, Bool.not_false, Bool.and_true,
      disableAnchor_eq]

theorem switchedOff_eq (anchors : Anchors) (text : List Char) :
    switchedOff anchors text = disableAll anchors.forbids text := by
  rw [switchedOff, unless_allowed, unless_allowed, disableAll_disableAll]
  rfl

theorem compile_of_ofText {text : List Char} {program : Program}
    (h : Program.ofText text = .ok program) : compile text = .ok program := by
  rw [compile, h]

theorem compile_variant_of_ofEndSource {source : String} {expression : Expression}
    (h : Expression.ofEndSource source = .ok expression) (anchors : Anchors) :
    compile (disableAll anchors.forbids (substitute ⟨#[]⟩ [] source.toList)) =
      .ok (expression.variant anchors) := by
  have hsearched : (if (Features.ofSource source.toList).references then
      substitute ⟨#[]⟩ [] source.toList else source.toList) = substitute ⟨#[]⟩ [] source.toList := by
    cases href : (Features.ofSource source.toList).references with
    | true => rfl
    | false => exact (substitute_eq_self href).symm
  rw [Expression.ofEndSource, hsearched] at h
  rw [← switchedOff_eq]
  have hfeatures := Features.ofSource_substitute ⟨#[]⟩ [] source.toList
  exact compile_of_ofText (ofText_variant_of_build h (by rw [hfeatures]) (by rw [hfeatures]) anchors)

/-- Two anchors are switched off in any order and as often as one likes.  The text without an anchor
has the other features of the expression, and is the expression where it has no such anchor.  So for
whatever anchors may match, the program that is searched with is read from the text in which exactly
the others are replaced. -/
theorem disableAnchor_switches (source : String) :
    disableAnchor 'G' (disableAnchor 'A' source.toList) =
      disableAnchor 'A' (disableAnchor 'G' source.toList) ∧
    (∀ anchor, disableAnchor anchor (disableAnchor anchor source.toList) =
      disableAnchor anchor source.toList) ∧
    Features.ofSource (disableAnchor 'G' source.toList) =
      { Features.ofSource source.toList with searchAnchor := false } ∧
    Features.ofSource (disableAnchor 'A' source.toList) =
      { Features.ofSource source.toList with textAnchor := false } ∧
    ((Features.ofSource source.toList).searchAnchor = false →
      disableAnchor 'G' source.toList = source.toList) ∧
    ((Features.ofSource source.toList).textAnchor = false →
      disableAnchor 'A' source.toList = source.toList) ∧
    (∀ expression, Expression.ofSource source = .ok expression → ∀ anchors : Anchors,
      compile (disableAll anchors.forbids source.toList) = .ok (expression.variant anchors)) ∧
    ∀ expression, Expression.ofEndSource source = .ok expression → ∀ anchors : Anchors,
      compile (disableAll anchors.forbids (substitute ⟨#[]⟩ [] source.toList)) =
        .ok (expression.variant anchors) := by
  refine ⟨?_, fun anchor => ?_, ?_, ?_, fun h => ?_, fun h => ?_, fun expression h anchors => ?_,
    fun expression h anchors => compile_variant_of_ofEndSource h anchors⟩
  · simp only [disableAnchor_eq, disableAll_disableAll, Bool.or_comm]
  · simp only [disableAnchor_eq, disableAll_disableAll, Bool.or_self]
  · rw [Features.ofSource_disableAnchor rfl]
    simp [Features.without]
  · rw [Features.ofSource_disableAnchor rfl]
    simp [Features.without]
  · exact disableAnchor_eq_self (escapes_searchAnchor h)
  · exact disableAnchor_eq_self (escapes_textAnchor h)
  · rw [← switchedOff_eq]
    exact compile_of_ofText (ofText_variant h anchors)

/-- Behind an escaped backslash there is no anchor, so one of the two is left as it is. -/
theorem alternatives_switch :
    (Features.ofSource "\\Ga|\\\\Ab".toList).textAnchor = false ∧
      disableAnchor 'A' "\\Ga|\\\\Ab".toList = "\\Ga|\\\\Ab".toList ∧
      ∃ expression, Expression.ofSource "\\Ga|\\\\Ab" = .ok expression ∧
        compile (disableAll (Anchors.forbids {}) "\\Ga|\\\\Ab".toList) =
          .ok (expression.variant {}) := by
  obtain ⟨-, -, -, -, -, htext, hvariant, -⟩ := disableAnchor_switches "\\Ga|\\\\Ab"
  have hnone : (Features.ofSource "\\Ga|\\\\Ab".toList).textAnchor = false := by decide
  exact ⟨hnone, htext hnone, _, rfl, hvariant _ rfl {}⟩

end ScopeLexer.Regex
