import ScopeLexer.Proofs.Text.Boundary
import ScopeLexer.Scope.Name

/-!
# Filled templates

A template is filled reference by reference.  Whether a dollar sign begins a reference is decided by
the text up to the next one, so what stands behind a dollar sign is filled on its own; text that was
put in is not looked at again.  The scopes are the words of the filled template.
-/

namespace ScopeLexer

/-! ## Groups -/

namespace Text

variable {line : Text} {groups : Groups} {index : Nat} {text : List Char}

def HasGroup (line : Text) (groups : Groups) (index : Nat) (text : List Char) : Prop :=
  ∃ before after, line.toList = before ++ text ++ after ∧
    groups[index]? = some (some ⟨byteLength before, byteLength before + byteLength text⟩)

theorem group?_eq_some :
    line.group? groups index = some text ↔ line.HasGroup groups index text := by
  constructor
  · intro h
    unfold group? at h
    split at h
    · next range hgroup =>
      obtain ⟨before, after, hline, rfl⟩ := slice?_eq_some h
      exact ⟨before, after, hline, hgroup⟩
    · contradiction
  · rintro ⟨before, after, hline, hgroup⟩
    simp only [group?, hgroup]
    exact slice?_between hline

end Text

/-! ## References -/

structure Numeral (digits : List Char) (index : Nat) : Prop where
  nonempty : digits ≠ []
  decimal : ∀ c ∈ digits, c.isDigit = true
  value : Decimal.value digits = index
  fits : index ≤ Decimal.maxIndex

theorem Numeral.of_indexOfDigits? {digits : List Char} {index : Nat}
    (hdigits : ∀ c ∈ digits, c.isDigit = true) (h : Decimal.indexOfDigits? digits = some index) :
    Numeral digits index := by
  unfold Decimal.indexOfDigits? at h
  split at h
  · contradiction
  · next hfits =>
    simp only [Bool.or_eq_true, List.isEmpty_iff, decide_eq_true_eq, not_or, Nat.not_lt] at hfits
    cases h
    exact ⟨hfits.1, hdigits, rfl, hfits.2⟩

theorem Numeral.indexOfDigits? {digits : List Char} {index : Nat} (h : Numeral digits index) :
    Decimal.indexOfDigits? digits = some index := by
  obtain ⟨hne, -, rfl, hfits⟩ := h
  simp [Decimal.indexOfDigits?, hne, hfits]

def Recase.suffix : Recase → List Char
  | .asIs => []
  | .downcase => [':', '/', 'd', 'o', 'w', 'n', 'c', 'a', 's', 'e']
  | .upcase => [':', '/', 'u', 'p', 'c', 'a', 's', 'e']

theorem Recase.ofSuffix?_eq_some {suffix : List Char} {recase : Recase} :
    Recase.ofSuffix? suffix = some recase ↔ suffix = recase.suffix := by
  rw [Recase.ofSuffix?, show ":/downcase".toList = Recase.downcase.suffix by decide,
    show ":/upcase".toList = Recase.upcase.suffix by decide]
  cases recase <;> grind [Recase.suffix]

theorem Recase.suffix_plain (recase : Recase) :
    ∀ c ∈ recase.suffix, c.isDigit = false ∧ c ≠ '}' ∧ c ≠ '$' := by
  cases recase <;> simp [Recase.suffix]

/-- What is written behind a dollar sign, in front of some text, to refer to a group: an index with
all its digits, or an index in braces, maybe with a change of case. -/
inductive Refers (index : Nat) : Recase → (written after : List Char) → Prop where
  | plain {digits after : List Char} (hdigits : Numeral digits index)
      (hafter : ∀ c ∈ after.head?, c.isDigit = false) : Refers index .asIs digits after
  | braced {digits : List Char} {recase : Recase} {after : List Char}
      (hdigits : Numeral digits index) :
      Refers index recase ('{' :: (digits ++ recase.suffix ++ ['}'])) after

section

variable {line : Text} {groups : Groups} {index length : Nat} {recase : Recase}
  {text written after captured filled left right : List Char}

theorem captured?_eq_some : captured? line groups index = some filled ↔
    ∃ captured, line.HasGroup groups index captured ∧
      captured.dropWhile (· == '.') = filled := by
  simp [captured?, Text.group?_eq_some]

theorem takeWhile_split (p : Char → Bool) (text : List Char) :
    (∀ c ∈ text.takeWhile p, p c = true) ∧
    ∃ after, text.takeWhile p ++ after = text ∧ ∀ c ∈ after.head?, p c = false := by
  refine ⟨List.all_eq_true.mp List.all_takeWhile, text.dropWhile p,
    List.takeWhile_append_dropWhile, fun c hc => ?_⟩
  have hhead := List.head?_dropWhile_not p text
  rwa [hc] at hhead

theorem takeWhile_append_end {p : Char → Bool} (hall : ∀ c ∈ text, p c = true)
    (hafter : ∀ c ∈ after.head?, p c = false) : (text ++ after).takeWhile p = text := by
  rw [List.takeWhile_append_of_pos hall]
  cases after with
  | nil => simp
  | cons c after => simp [hafter c rfl]

theorem Refers.of_reference? (h : reference? line groups text = some (filled, length)) :
    ∃ index recase written after captured, text = written ++ after ∧
      Refers index recase written after ∧ line.HasGroup groups index captured ∧
      filled = recase.apply (captured.dropWhile (· == '.')) ∧ length = written.length := by
  unfold ScopeLexer.reference? at h
  split at h
  · next rest =>
    obtain ⟨hdecimal, tail, htail, -⟩ := takeWhile_split Char.isDigit rest
    obtain ⟨-, closing, hclosing, hbrace⟩ := takeWhile_split (· != '}') tail
    obtain ⟨index, hindex, h⟩ := Option.bind_eq_some_iff.mp h
    generalize rest.takeWhile Char.isDigit = digits at *
    subst htail
    simp only [List.drop_left] at h
    generalize tail.takeWhile (· != '}') = suffix at *
    subst hclosing
    cases closing with
    | nil => simp at h
    | cons brace after =>
        obtain rfl : brace = '}' := by simpa using hbrace brace rfl
        have hlong : ¬(suffix ++ '}' :: after).length ≤ suffix.length := by simp
        rw [if_neg hlong] at h
        obtain ⟨group, hgroup, h⟩ := Option.bind_eq_some_iff.mp h
        obtain ⟨recase, hrecase, h⟩ := Option.bind_eq_some_iff.mp h
        obtain ⟨captured, hcaptured, rfl⟩ := captured?_eq_some.mp hgroup
        obtain rfl := Recase.ofSuffix?_eq_some.mp hrecase
        cases h
        refine ⟨index, recase, _, after, captured, by simp,
          .braced (.of_indexOfDigits? hdecimal hindex), hcaptured, rfl, ?_⟩
        simp
        omega
  · next hplain =>
    obtain ⟨hdecimal, after, hafter, hmaximal⟩ := takeWhile_split Char.isDigit text
    obtain ⟨index, hindex, h⟩ := Option.bind_eq_some_iff.mp h
    obtain ⟨group, hgroup, h⟩ := Option.bind_eq_some_iff.mp h
    obtain ⟨captured, hcaptured, rfl⟩ := captured?_eq_some.mp hgroup
    cases h
    exact ⟨index, .asIs, _, after, captured, hafter.symm,
      .plain (.of_indexOfDigits? hdecimal hindex) hmaximal, hcaptured, rfl, rfl⟩

theorem Refers.reference? (h : Refers index recase written after)
    (hgroup : line.HasGroup groups index captured) :
    reference? line groups (written ++ after) =
      some (recase.apply (captured.dropWhile (· == '.')), written.length) := by
  have hcaptured := captured?_eq_some.mpr ⟨captured, hgroup, rfl⟩
  cases h with
  | plain hdigits hafter =>
      have hdigit := takeWhile_append_end hdigits.decimal hafter
      have hbrace : ∀ rest, written ++ after ≠ '{' :: rest := by
        intro rest hrest
        have hhead := congrArg (List.takeWhile Char.isDigit) hrest
        rw [hdigit] at hhead
        exact hdigits.nonempty (hhead.trans rfl)
      unfold ScopeLexer.reference?
      split
      · next rest heq => exact absurd heq (hbrace rest)
      · simp [hdigit, hdigits.indexOfDigits?, hcaptured, Recase.apply]
  | @braced digits _ _ hdigits =>
      have hend : ∀ c ∈ (recase.suffix ++ '}' :: after).head?, c.isDigit = false := by
        cases recase <;> simp [Recase.suffix]
      have hdigit := takeWhile_append_end hdigits.decimal hend
      have hsuffix : (recase.suffix ++ '}' :: after).takeWhile (· != '}') = recase.suffix :=
        takeWhile_append_end (fun c hc => by simpa using (recase.suffix_plain c hc).2.1) (by simp)
      have hrecase := Recase.ofSuffix?_eq_some.mpr (Eq.refl recase.suffix)
      simp only [List.cons_append, List.append_assoc, List.nil_append]
      simp [ScopeLexer.reference?, hdigit, hdigits.indexOfDigits?, hsuffix, hcaptured, hrecase]
      omega

theorem Refers.not_mem_dollar (h : Refers index recase written after) : '$' ∉ written := by
  have hdecimal {digits : List Char} (hdigits : Numeral digits index) : '$' ∉ digits :=
    fun hmem => absurd (hdigits.decimal _ hmem) (by decide)
  cases h with
  | plain hdigits => exact hdecimal hdigits
  | braced hdigits =>
      have hsuffix : '$' ∉ recase.suffix := fun hmem => (recase.suffix_plain _ hmem).2.2 rfl
      simp [hdecimal hdigits, hsuffix]

theorem Refers.of_head? {other : List Char} (h : Refers index recase written after)
    (hother : ∀ c ∈ other.head?, c.isDigit = true → c ∈ after.head?) :
    Refers index recase written other := by
  cases h with
  | plain hdigits hafter =>
      refine .plain hdigits fun c hc => Bool.eq_false_iff.mpr fun hdigit => ?_
      simp [hafter c (hother c hc hdigit)] at hdigit
  | braced hdigits => exact .braced hdigits

theorem Refers.append_dollar (h : Refers index recase written after)
    (hsplit : text ++ '$' :: right = written ++ after) :
    ∃ rest, text = written ++ rest ∧ after = rest ++ '$' :: right := by
  rcases List.append_eq_append_iff.mp hsplit with ⟨rest, hwritten, hrest⟩ | ⟨rest, htext, hrest⟩
  · cases rest with
    | nil => exact ⟨[], by simpa using hwritten.symm, by simpa using hrest.symm⟩
    | cons c rest =>
        -- the dollar sign would be written in the reference
        cases hrest
        have hdollar := h.not_mem_dollar
        simp [hwritten] at hdollar
  · exact ⟨rest, htext, hrest⟩

theorem reference?_append_dollar (line : Text) (groups : Groups) (text right : List Char) :
    reference? line groups (text ++ '$' :: right) = reference? line groups text := by
  have hread (result : List Char × Nat) :
      reference? line groups (text ++ '$' :: right) = some result ↔
        reference? line groups text = some result := by
    obtain ⟨filled, length⟩ := result
    constructor
    · intro h
      obtain ⟨index, recase, written, after, captured, hsplit, hrefers, hgroup, rfl, rfl⟩ :=
        Refers.of_reference? h
      obtain ⟨rest, rfl, hrest⟩ := hrefers.append_dollar hsplit
      refine Refers.reference? (hrefers.of_head? fun c hc _ => ?_) hgroup
      rw [hrest, List.head?_append, hc]
      rfl
    · intro h
      obtain ⟨index, recase, written, after, captured, rfl, hrefers, hgroup, rfl, rfl⟩ :=
        Refers.of_reference? h
      rw [List.append_assoc]
      refine Refers.reference? (hrefers.of_head? fun c hc hdigit => ?_) hgroup
      cases after with
      | nil =>
          cases hc
          contradiction
      | cons => exact hc
  exact Option.ext hread

/-! ## Filling -/

theorem fillTemplate_skip (line : Text) (groups : Groups) (written after : List Char) :
    fillTemplate line groups written.length (written ++ after) =
      fillTemplate line groups 0 after := by
  induction written with
  | nil => rfl
  | cons c written ih => exact ih

theorem fillTemplate_reference (h : Refers index recase written after)
    (hgroup : line.HasGroup groups index captured) :
    fillTemplate line groups 0 ('$' :: (written ++ after)) =
      recase.apply (captured.dropWhile (· == '.')) ++ fillTemplate line groups 0 after := by
  simp [fillTemplate, h.reference? hgroup, fillTemplate_skip]

theorem fillTemplate_eq_self
    (h : ∀ before rest, text = before ++ '$' :: rest → reference? line groups rest = none) :
    fillTemplate line groups 0 text = text := by
  induction text with
  | nil => rfl
  | cons c rest ih =>
      have hrest := ih fun before after hsplit => h (c :: before) after (by simp [hsplit])
      by_cases hdollar : c = '$'
      · subst hdollar
        simp [fillTemplate, h [] rest rfl, hrest]
      · simp [fillTemplate, hdollar, hrest]

theorem fillTemplate_of_not_mem (line : Text) (groups : Groups) (h : '$' ∉ text) :
    fillTemplate line groups 0 text = text := by
  refine fillTemplate_eq_self fun before rest hsplit => ?_
  simp [hsplit] at h

theorem fillTemplate_append_dollar (line : Text) (groups : Groups) (left right : List Char)
    (skip : Nat) (hskip : skip ≤ left.length) :
    fillTemplate line groups skip (left ++ '$' :: right) =
      fillTemplate line groups skip left ++ fillTemplate line groups 0 ('$' :: right) := by
  induction left generalizing skip with
  | nil =>
      obtain rfl : skip = 0 := by simpa using hskip
      rfl
  | cons c rest ih =>
      cases skip with
      | succ skip => exact ih skip (by simpa using hskip)
      | zero =>
          have hcopied := ih 0 (Nat.zero_le _)
          by_cases hdollar : c = '$'
          · subst hdollar
            cases href : reference? line groups rest with
            | none => simp [fillTemplate, reference?_append_dollar, href, hcopied]
            | some result =>
                obtain ⟨_, _, _, _, _, hsplit, -, -, -, hlength⟩ := Refers.of_reference? href
                have hfilled := ih result.2 (by simp [hlength, hsplit])
                simp [fillTemplate, reference?_append_dollar, href, hfilled]
          · simp [fillTemplate, hdollar, hcopied]

end

/-! ## Words -/

open Unicode (isWhiteSpace)

/-- A text and its words: each is as long as can be, with white space around it. -/
inductive Spaced : List Char → List (List Char) → Prop where
  | nil : Spaced [] []
  | blank {c : Char} {rest : List Char} {words : List (List Char)}
      (hblank : isWhiteSpace c = true) (hrest : Spaced rest words) : Spaced (c :: rest) words
  | word {word rest : List Char} {words : List (List Char)} (hne : word ≠ [])
      (hword : ∀ c ∈ word, isWhiteSpace c = false)
      (hend : ∀ c ∈ rest.head?, isWhiteSpace c = true) (hrest : Spaced rest words) :
      Spaced (word ++ rest) (word :: words)

theorem Unicode.words_blank {c : Char} (h : isWhiteSpace c = true) (rest : List Char) :
    Unicode.words (c :: rest) = Unicode.words rest := by
  simp [Unicode.words, List.splitOnP_cons_eq_if_modifyHead, h]

theorem Unicode.words_append {word rest : List Char} (hne : word ≠ [])
    (hword : ∀ c ∈ word, isWhiteSpace c = false)
    (hend : ∀ c ∈ rest.head?, isWhiteSpace c = true) :
    Unicode.words (word ++ rest) = word :: Unicode.words rest := by
  cases rest with
  | nil => simp [Unicode.words, List.splitOnP_eq_singleton hword, hne]
  | cons c rest =>
      rw [Unicode.words_blank (hend c rfl)]
      simp [Unicode.words, List.splitOnP_append_cons_of_forall_mem hword c (hend c rfl), hne]

namespace Spaced

variable {text : List Char} {words : List (List Char)}

theorem eq_words (h : Spaced text words) : words = Unicode.words text := by
  induction h with
  | nil => rfl
  | blank hblank _ ih => rw [ih, Unicode.words_blank hblank]
  | word hne hword hend _ ih => rw [ih, Unicode.words_append hne hword hend]

theorem letter {c : Char} (h : Spaced text words) (hletter : isWhiteSpace c = false) :
    ∃ words, Spaced (c :: text) words := by
  have hsingle : ∀ d ∈ [c], isWhiteSpace d = false := by simpa using hletter
  cases h with
  | nil => exact ⟨_, @word [c] [] _ (by simp) hsingle (by simp) .nil⟩
  | blank hblank hrest =>
      exact ⟨_, word (List.cons_ne_nil c []) hsingle (by simpa) (.blank hblank hrest)⟩
  | @word first rest words hne hword hend hrest =>
      have hlonger : ∀ d ∈ c :: first, isWhiteSpace d = false :=
        List.forall_mem_cons.mpr ⟨hletter, hword⟩
      exact ⟨_, word (List.cons_ne_nil c _) hlonger hend hrest⟩

theorem of_words (text : List Char) : Spaced text (Unicode.words text) := by
  have hspaced : ∃ words, Spaced text words := by
    induction text with
    | nil => exact ⟨[], .nil⟩
    | cons c text ih =>
        obtain ⟨words, hwords⟩ := ih
        cases hblank : isWhiteSpace c with
        | true => exact ⟨words, hwords.blank hblank⟩
        | false => exact hwords.letter hblank
  obtain ⟨words, hwords⟩ := hspaced
  rwa [hwords.eq_words] at hwords

theorem mem_words (h : Spaced text words) :
    ∀ word ∈ words, word ≠ [] ∧ ∀ c ∈ word, isWhiteSpace c = false := by
  induction h with
  | nil => simp
  | blank _ _ ih => exact ih
  | word hne hword _ _ ih => exact List.forall_mem_cons.mpr ⟨⟨hne, hword⟩, ih⟩

end Spaced

/-! ## Scopes -/

namespace ScopeName

theorem resolve_eq (name : ScopeName) (line : Text) (groups : Groups) :
    name.resolve line groups =
      (Unicode.words (fillTemplate line groups 0 name.source.toList)).map String.ofList := by
  unfold resolve
  cases hdynamic : name.isDynamic with
  | true => rfl
  | false =>
      have hfree : '$' ∉ name.source.toList := by simpa [isDynamic] using hdynamic
      have hself := fillTemplate_of_not_mem line groups hfree
      simp [hself]

/-- Scope names stand for the words of their templates, with references to groups filled in.

A template that refers to no group with a text stays as it is, as does one without a dollar sign.
What stands in front of a dollar sign and what is behind it are filled apart.  A reference becomes
the text of its group, without dots in front and in the case it asks for; this text is not filled
again.  No scope is empty or holds white space. -/
theorem resolve_fills_references (line : Text) (groups : Groups) :
    (∀ name : ScopeName,
      (∀ before index recase written after captured,
        name.source.toList = before ++ '$' :: (written ++ after) →
        Refers index recase written after → ¬line.HasGroup groups index captured) →
      fillTemplate line groups 0 name.source.toList = name.source.toList ∧
      ∃ words, Spaced name.source.toList words ∧
        name.resolve line groups = words.map String.ofList) ∧
    (∀ text, '$' ∉ text → fillTemplate line groups 0 text = text) ∧
    (∀ left right, fillTemplate line groups 0 (left ++ '$' :: right) =
      fillTemplate line groups 0 left ++ fillTemplate line groups 0 ('$' :: right)) ∧
    (∀ index recase written after captured, Refers index recase written after →
      line.HasGroup groups index captured →
      fillTemplate line groups 0 ('$' :: (written ++ after)) =
        recase.apply (captured.dropWhile (· == '.')) ++ fillTemplate line groups 0 after) ∧
    ∀ name : ScopeName,
      (∃ words, Spaced (fillTemplate line groups 0 name.source.toList) words ∧
        name.resolve line groups = words.map String.ofList) ∧
      ∀ scope ∈ name.resolve line groups,
        scope ≠ "" ∧ ∀ c ∈ scope.toList, isWhiteSpace c = false := by
  have hwords (name : ScopeName) := Spaced.of_words (fillTemplate line groups 0 name.source.toList)
  refine ⟨fun name hnone => ?unfilled, fun _ => fillTemplate_of_not_mem line groups,
    fun left right => fillTemplate_append_dollar line groups left right 0 (Nat.zero_le _),
    fun _ _ _ _ _ => fillTemplate_reference,
    fun name => ⟨⟨_, hwords name, resolve_eq name line groups⟩, ?scopes⟩⟩
  case unfilled =>
    have hself : fillTemplate line groups 0 name.source.toList = name.source.toList := by
      refine fillTemplate_eq_self fun before rest hsplit => ?_
      refine Option.eq_none_iff_forall_ne_some.mpr fun result hresult => ?_
      obtain ⟨index, recase, written, after, captured, rfl, hrefers, hgroup, -⟩ :=
        Refers.of_reference? hresult
      exact hnone before index recase written after captured hsplit hrefers hgroup
    refine ⟨hself, _, Spaced.of_words _, ?_⟩
    rw [resolve_eq, hself]
  case scopes =>
    intro scope hscope
    rw [resolve_eq] at hscope
    obtain ⟨word, hword, rfl⟩ := List.mem_map.mp hscope
    obtain ⟨hne, hletters⟩ := (hwords name).mem_words word hword
    refine ⟨fun hempty => hne ?_, by simpa using hletters⟩
    simpa using hempty

theorem resolve_fills_references_downcase :
    fillTemplate (.ofString "x .Foo") [some ⟨0, 6⟩, none, some ⟨2, 6⟩] 0
      ("entity.".toList ++ '$' :: ("{2:/downcase}".toList ++ ".x".toList)) =
        "entity.foo.x".toList ∧
    ∃ words, Spaced "a $1 b".toList words ∧
      (ScopeName.mk "a $1 b").resolve (.ofString "x") [none, none] = words.map String.ofList := by
  obtain ⟨-, hplain, happend, hfilled, -⟩ :=
    resolve_fills_references (.ofString "x .Foo") [some ⟨0, 6⟩, none, some ⟨2, 6⟩]
  obtain ⟨hnone, -⟩ := resolve_fills_references (.ofString "x") [none, none]
  constructor
  · have hnumeral : Numeral ['2'] 2 := ⟨by simp, by simp, rfl, by decide⟩
    have hrefers : Refers 2 .downcase "{2:/downcase}".toList ".x".toList := .braced hnumeral
    have hgroup : (Text.ofString "x .Foo").HasGroup [some ⟨0, 6⟩, none, some ⟨2, 6⟩] 2
        ".Foo".toList := ⟨['x', ' '], [], by decide, by decide⟩
    rw [happend, hfilled _ _ _ _ _ hrefers hgroup, hplain _ (by decide), hplain _ (by decide)]
    decide +kernel
  · refine (hnone (ScopeName.mk "a $1 b") ?_).2
    rintro before index recase written after captured - - ⟨_, _, -, hgroup⟩
    rcases index with _ | _ | index <;> simp at hgroup

end ScopeName

end ScopeLexer
