import ScopeLexer.Proofs.Regex.Escapes
import ScopeLexer.Regex.Reader

/-!
# Robust readers of names, bounds and comments

Names, numbers and the letters of options hold no escapes.  Comments may hold some, and are skipped
over escape by escape.
-/

namespace ScopeLexer.Regex

open Outcome

variable {anchor c closing : Char} {text rest : List Char}

/-! ## Names -/

theorem isWordCharacter_backslash : Unicode.isWordCharacter '\\' = false := by decide

theorem readNameTail_fault (start : List Char) (fault : String → Fault) (soFar text : List Char)
    (read : List Char × List Char) :
    readNameTail closing start (some fault) soFar text ≠ .ok read := by
  induction text generalizing fault soFar with
  | nil => simp [readNameTail]
  | cons c rest ih =>
      rw [readNameTail]
      split
      · simp
      split
      · simp
      split
      · exact ih fault _
      · exact ih _ _

theorem readNameTail_backslash (hclosing : closing ≠ '\\') (start soFar rest : List Char)
    (read : List Char × List Char) :
    readNameTail closing start none soFar ('\\' :: rest) ≠ .ok read := by
  rw [readNameTail, if_neg (by simpa using Ne.symm hclosing), if_neg (by decide),
    isWordCharacter_backslash, if_neg (by decide)]
  exact readNameTail_fault _ _ _ _ _

theorem readNameTail_robust (hclosing : closing ≠ '\\') (start other soFar text : List Char) :
    Robust anchor text (readNameTail closing start none soFar text)
      (readNameTail closing other none soFar (disableAnchor anchor text)) := by
  induction text using walk generalizing soFar with
  | nil => exact .error
  | lone => exact .failure fun _ _ => readNameTail_backslash hclosing _ _ _ _
  | escape c rest _ => exact .failure fun _ _ => readNameTail_backslash hclosing _ _ _ _
  | plain c rest hc ih =>
      rw [disableAnchor_cons hc, readNameTail, readNameTail]
      refine Robust.cons hc ?_
      split
      · exact .ok (Nat.le_refl _)
      split
      · exact .error
      split
      · exact ih _
      · exact .failure fun _ _ => readNameTail_fault _ _ _ _ _

theorem readGroupName_cons (hclosing : c ≠ closing) (hdigit : c.isDigit = false) (hminus : c ≠ '-')
    (hplus : c ≠ '+') (hword : Unicode.isWordCharacter c = true) :
    readGroupName closing (c :: rest) =
      (readNameTail closing (c :: rest) none [c] rest).map fun (name, rest) =>
        (String.ofList name, rest) := by
  simp [readGroupName, hclosing, hdigit, hminus, hplus, hword]

theorem readGroupName_fault
    (h : c.isDigit = true ∨ c = '-' ∨ c = '+' ∨ Unicode.isWordCharacter c = false)
    (read : String × List Char) : readGroupName closing (c :: rest) ≠ .ok read := by
  unfold readGroupName
  dsimp only
  split
  · simp
  intro hread
  obtain ⟨name, hname, _⟩ := map_eq_ok.mp hread
  revert hname
  split
  · exact readNameTail_fault _ _ _ _ _
  split
  · simp_all
  · exact readNameTail_fault _ _ _ _ _

theorem readGroupName_robust (hclosing : closing ≠ '\\') (text : List Char) :
    Robust anchor text (readGroupName closing text)
      (readGroupName closing (disableAnchor anchor text)) := by
  have hbackslash : ∀ rest read, readGroupName closing ('\\' :: rest) ≠ .ok read :=
    fun _ read => readGroupName_fault (.inr (.inr (.inr isWordCharacter_backslash))) read
  cases text using walk with
  | nil => exact .error
  | lone => exact .failure fun _ _ => hbackslash _ _
  | escape c rest _ => exact .failure fun _ _ => hbackslash _ _
  | plain c rest hc _ =>
      rw [disableAnchor_cons hc]
      by_cases hempty : c = closing
      · refine .failure fun _ _ => ?_
        simp [readGroupName, hempty]
      by_cases hfault : c.isDigit = true ∨ c = '-' ∨ c = '+' ∨ Unicode.isWordCharacter c = false
      · exact .failure fun _ _ => readGroupName_fault hfault _
      · simp only [not_or, Bool.not_eq_true, Bool.not_eq_false] at hfault
        obtain ⟨hdigit, hminus, hplus, hword⟩ := hfault
        rw [readGroupName_cons hempty hdigit hminus hplus hword,
          readGroupName_cons hempty hdigit hminus hplus hword]
        exact ((readNameTail_robust hclosing _ _ _ rest).map String.ofList).cons hc

/-! ## References -/

def afterReference (closing : Char) (start : List Char) (build : Nat → GroupReference)
    (number : Nat × Nat) (text : List Char) : Except Fault (GroupReference × List Char) :=
  match number, text with
  | (_, 0), c :: _ =>
      if c == closing || Unicode.isWordCharacter c then
        .error (.groupName (String.ofList (start.takeWhile (· != closing))))
      else .error (.groupNameCharacter (String.ofList (start.takeWhile (· != closing))))
  | (value, _), c :: rest =>
      if c == closing then
        if value > 2147483647 then .error .numberTooBig else .ok (build value, rest)
      else if c == ')' then .error (.groupName (String.ofList start))
      else .error (.groupName (String.ofList (start.takeWhile (· != closing))))
  | (_, _), [] => .error (.groupName (String.ofList start))

theorem readReferenceNumber_eq (closing : Char) (start : List Char) (build : Nat → GroupReference)
    (text : List Char) :
    readReferenceNumber closing start build text =
      afterReference closing start build (readDigits 10 text.length 0 0 text).1
        (readDigits 10 text.length 0 0 text).2 := by
  unfold readReferenceNumber
  rcases readDigits 10 text.length 0 0 text with ⟨⟨value, _ | count⟩, _ | ⟨c, rest⟩⟩ <;> rfl

theorem afterReference_eq_ok {start : List Char} {build : Nat → GroupReference}
    {number : Nat × Nat} {reference : GroupReference} :
    afterReference closing start build number text = .ok (reference, rest) ↔
      number.2 ≠ 0 ∧ text = closing :: rest ∧ number.1 ≤ 2147483647 ∧
        reference = build number.1 := by
  obtain ⟨value, _ | count⟩ := number
  · cases text with
    | nil => simp [afterReference]
    | cons c rest =>
        simp only [afterReference]
        split <;> simp
  · cases text with
    | nil => simp [afterReference]
    | cons c following =>
        simp only [afterReference]
        by_cases hclose : c = closing
        · by_cases hbig : value > 2147483647
          · have hlarge : ¬value ≤ 2147483647 := Nat.not_le_of_lt hbig
            simp [hclose, hbig, hlarge]
          · simp only [hclose, hbig, BEq.rfl, if_true, if_false, Except.ok.injEq, Prod.mk.injEq]
            grind
        · simp only [beq_eq_false_iff_ne.mpr hclose]
          grind

theorem afterReference_robust (hclosing : closing ≠ '\\') (start other : List Char)
    (build : Nat → GroupReference) (number : Nat × Nat) (text : List Char) :
    Robust anchor text (afterReference closing start build number text)
      (afterReference closing other build number (disableAnchor anchor text)) := by
  intro reference rest hread
  obtain ⟨hcount, rfl, hsmall, hreference⟩ := afterReference_eq_ok.mp hread
  rw [escapes_cons hclosing, disableAnchor_cons hclosing]
  exact ⟨Nat.le_refl _, fun _ => afterReference_eq_ok.mpr ⟨hcount, rfl, hsmall, hreference⟩⟩

theorem readReferenceNumber_robust (hclosing : closing ≠ '\\') (start other : List Char)
    (build : Nat → GroupReference) (text : List Char) :
    Robust anchor text (readReferenceNumber closing start build text)
      (readReferenceNumber closing other build (disableAnchor anchor text)) := by
  rw [readReferenceNumber_eq, readReferenceNumber_eq]
  exact Robust.digits_length (by decide) 0 0 fun number rest =>
    afterReference_robust hclosing start other build number rest

theorem readReference_name (hminus : c ≠ '-') (hplus : c ≠ '+') (hdigit : c.isDigit = false) :
    readReference closing (c :: rest) =
      (readGroupName closing (c :: rest)).map fun (name, rest) => (.name name, rest) := by
  rw [readReference, if_neg (by simp [hdigit])]
  · exact hminus
  · exact hplus

theorem readReference_digit (hdigit : c.isDigit = true) :
    readReference closing (c :: rest) =
      readReferenceNumber closing (c :: rest) .number (c :: rest) := by
  rw [readReference, if_pos hdigit]
  · rintro rfl
    contradiction
  · rintro rfl
    contradiction

theorem readReference_robust (hclosing : closing ≠ '\\') (text : List Char) :
    Robust anchor text (readReference closing text)
      (readReference closing (disableAnchor anchor text)) := by
  have hbackslash : ∀ rest read, readReference closing ('\\' :: rest) ≠ .ok read := by
    intro rest read hread
    rw [readReference_name (by decide) (by decide) (by decide)] at hread
    obtain ⟨name, hname, _⟩ := map_eq_ok.mp hread
    exact readGroupName_fault (.inr (.inr (.inr isWordCharacter_backslash))) _ hname
  cases text using walk with
  | nil => exact .error
  | lone => exact .failure fun _ _ => hbackslash _ _
  | escape c rest _ => exact .failure fun _ _ => hbackslash _ _
  | plain c rest hc _ =>
      by_cases hminus : c = '-'
      · rw [hminus, disableAnchor_cons (by decide)]
        exact (readReferenceNumber_robust hclosing _ _ _ rest).cons (by decide)
      by_cases hplus : c = '+'
      · rw [hplus, disableAnchor_cons (by decide)]
        exact (readReferenceNumber_robust hclosing _ _ _ rest).cons (by decide)
      cases hdigit : c.isDigit with
      | true =>
          rw [readReference_digit hdigit, disableAnchor_cons hc, readReference_digit hdigit,
            ← disableAnchor_cons hc]
          exact readReferenceNumber_robust hclosing _ _ _ (c :: rest)
      | false =>
          rw [readReference_name hminus hplus hdigit, disableAnchor_cons hc,
            readReference_name hminus hplus hdigit, ← disableAnchor_cons hc]
          exact (readGroupName_robust hclosing (c :: rest)).map GroupReference.name

theorem closingOf?_ne_backslash {quote : Char} (h : closingOf? quote = some closing) :
    closing ≠ '\\' := by
  unfold closingOf? at h
  split at h <;> cases h <;> decide

/-! ## Conditions -/

theorem closeNumber_close (least : Nat) (build : Nat → GroupReference) (value digits : Nat) :
    closeNumber least build value digits (')' :: rest) =
      if digits == 0 || value < least || 2147483647 < value then none
      else some (build value, rest) := rfl

theorem closeNumber_other (h : text.head? ≠ some ')') (least : Nat)
    (build : Nat → GroupReference) (value digits : Nat) :
    closeNumber least build value digits text = none := by
  unfold closeNumber
  split
  · simp at h
  · rfl

theorem closeNumber_off (least : Nat) (build : Nat → GroupReference) (value digits : Nat)
    (text : List Char) :
    closeNumber least build value digits (disableAnchor anchor text) =
      (closeNumber least build value digits text).map fun (reference, rest) =>
        (reference, disableAnchor anchor rest) := by
  by_cases hclose : text.head? = some ')'
  · obtain ⟨rest, rfl⟩ := List.head?_eq_some_iff.mp hclose
    rw [disableAnchor_cons (by decide), closeNumber_close, closeNumber_close]
    split <;> rfl
  · rw [closeNumber_other hclose,
      closeNumber_other (head?_disableAnchor_ne hclose (by decide) (by decide))]
    rfl

theorem readCheckedNumber_off (least : Nat) (build : Nat → GroupReference) (text : List Char) :
    readCheckedNumber least build (disableAnchor anchor text) =
      (readCheckedNumber least build text).map fun (reference, rest) =>
        (reference, disableAnchor anchor rest) := by
  unfold readCheckedNumber
  rw [readDigits_length_off (by decide)]
  exact closeNumber_off ..

theorem escapes_readCheckedNumber {least : Nat} {build : Nat → GroupReference}
    {reference : GroupReference} (h : readCheckedNumber least build text = some (reference, rest)) :
    escapes anchor rest = escapes anchor text := by
  have hdigits := @escapes_readDigits anchor 10 (by decide) text.length 0 0 text
  unfold readCheckedNumber closeNumber at h
  dsimp only at h
  split at h
  · next hrest =>
    split at h
    · contradiction
    · cases h
      rw [← hdigits, hrest, escapes_cons (by decide)]
  · contradiction

theorem readChecked_plain (hminus : text.head? ≠ some '-') (hplus : text.head? ≠ some '+') :
    readChecked text = readCheckedNumber 0 .number text := by
  unfold readChecked
  split
  · simp at hminus
  · simp at hplus
  · rfl

theorem readChecked_off (text : List Char) :
    readChecked (disableAnchor anchor text) =
      (readChecked text).map fun (reference, rest) => (reference, disableAnchor anchor rest) := by
  by_cases hminus : text.head? = some '-'
  · obtain ⟨rest, rfl⟩ := List.head?_eq_some_iff.mp hminus
    rw [disableAnchor_cons (by decide)]
    exact readCheckedNumber_off 1 .before rest
  by_cases hplus : text.head? = some '+'
  · obtain ⟨rest, rfl⟩ := List.head?_eq_some_iff.mp hplus
    rw [disableAnchor_cons (by decide)]
    exact readCheckedNumber_off 1 .after rest
  · rw [readChecked_plain hminus hplus, readChecked_plain
      (head?_disableAnchor_ne hminus (by decide) (by decide))
      (head?_disableAnchor_ne hplus (by decide) (by decide))]
    exact readCheckedNumber_off 0 .number text

theorem escapes_readChecked {reference : GroupReference}
    (h : readChecked text = some (reference, rest)) :
    escapes anchor rest = escapes anchor text := by
  unfold readChecked at h
  split at h
  · exact (escapes_readCheckedNumber h).trans (escapes_cons (by decide)).symm
  · exact (escapes_readCheckedNumber h).trans (escapes_cons (by decide)).symm
  · exact escapes_readCheckedNumber h

/-! ## Bounds of repetitions -/

theorem readSuffix_other (h : c ≠ '?') (hplus : c ≠ '+') (repetition : Repetition)
    (interval fixed : Bool) :
    readSuffix repetition interval fixed (c :: rest) = (repetition, c :: rest) := by
  unfold readSuffix
  split <;> simp_all

theorem readSuffix_robust (repetition : Repetition) (interval fixed : Bool) (text : List Char) :
    Robust anchor text (.ok (readSuffix repetition interval fixed text))
      (.ok (readSuffix repetition interval fixed (disableAnchor anchor text))) := by
  cases text using walk with
  | nil => exact .ok (Nat.le_refl _)
  | lone => exact .ok (Nat.le_refl _)
  | escape c rest _ =>
      have hoff : readSuffix repetition interval fixed (disableAnchor anchor ('\\' :: c :: rest)) =
          (repetition, disableAnchor anchor ('\\' :: c :: rest)) := by
        by_cases hc : c = anchor
        · rw [hc, disableAnchor_anchor, readSuffix_other (by decide) (by decide)]
        · rw [disableAnchor_escape hc, readSuffix_other (by decide) (by decide)]
      rw [hoff, readSuffix_other (by decide) (by decide)]
      exact .ok (Nat.le_refl _)
  | plain c rest hc _ =>
      rw [disableAnchor_cons hc]
      by_cases hlazy : c = '?'
      · subst hlazy
        simp only [readSuffix]
        split
        · rw [← disableAnchor_cons hc]
          exact .ok (Nat.le_refl _)
        · exact .cons hc (.ok (Nat.le_refl _))
      by_cases hplus : c = '+'
      · subst hplus
        simp only [readSuffix]
        split
        · rw [← disableAnchor_cons hc]
          exact .ok (Nat.le_refl _)
        · exact .cons hc (.ok (Nat.le_refl _))
      · rw [readSuffix_other hlazy hplus, readSuffix_other hlazy hplus, ← disableAnchor_cons hc]
        exact .ok (Nat.le_refl _)

def readBounds (text : List Char) : Except Fault (Option Repetition × List Char) :=
  (readInterval text).map fun found =>
    match found with
    | some (read, rest) => (some read, rest)
    | none => (none, text)

def afterComma (start : List Char) (low high : Nat × Nat) (text : List Char) :
    Except Fault (Option Repetition × List Char) :=
  if high.1 > maxRepeat then .error .repeatTooBig
  else if low.2 == 0 && high.2 == 0 then .ok (none, start)
  else
    match text with
    | '}' :: rest =>
        let repetition : Repetition :=
          if high.2 == 0 then { least := low.1, most := none }
          else if low.1 > high.1 then { least := high.1, most := some low.1, possessive := true }
          else { least := low.1, most := some high.1 }
        let read := readSuffix repetition true false rest
        .ok (some read.1, read.2)
    | _ => .ok (none, start)

def afterLow (start : List Char) (low : Nat × Nat) (text : List Char) :
    Except Fault (Option Repetition × List Char) :=
  if low.1 > maxRepeat then .error .repeatTooBig
  else
    match text with
    | ',' :: rest =>
        afterComma start low (readDigits 10 rest.length 0 0 rest).1
          (readDigits 10 rest.length 0 0 rest).2
    | '}' :: rest =>
        if low.2 == 0 then .ok (none, start)
        else
          let read := readSuffix { least := low.1, most := some low.1 } true true rest
          .ok (some read.1, read.2)
    | _ => .ok (none, start)

theorem afterComma_other {start : List Char} {low high : Nat × Nat} (hhigh : ¬high.1 > maxRepeat)
    (h : text.head? ≠ some '}') : afterComma start low high text = .ok (none, start) := by
  unfold afterComma
  rw [if_neg hhigh]
  split
  · rfl
  split
  · simp at h
  · rfl

theorem afterLow_other {start : List Char} {low : Nat × Nat} (hlow : ¬low.1 > maxRepeat)
    (hcomma : text.head? ≠ some ',') (hclose : text.head? ≠ some '}') :
    afterLow start low text = .ok (none, start) := by
  unfold afterLow
  rw [if_neg hlow]
  split
  · simp at hcomma
  · simp at hclose
  · rfl

theorem afterLow_comma {start : List Char} {low : Nat × Nat} (hlow : ¬low.1 > maxRepeat) :
    afterLow start low (',' :: rest) =
      afterComma start low (readDigits 10 rest.length 0 0 rest).1
        (readDigits 10 rest.length 0 0 rest).2 :=
  if_neg hlow

theorem afterLow_close {start : List Char} {low : Nat × Nat} (hlow : ¬low.1 > maxRepeat) :
    afterLow start low ('}' :: rest) =
      if low.2 == 0 then .ok (none, start)
      else
        let read := readSuffix { least := low.1, most := some low.1 } true true rest
        .ok (some read.1, read.2) :=
  if_neg hlow

theorem readBounds_eq (text : List Char) :
    readBounds text = afterLow text (readDigits 10 text.length 0 0 text).1
      (readDigits 10 text.length 0 0 text).2 := by
  unfold readBounds readInterval
  rcases readDigits 10 text.length 0 0 text with ⟨⟨low, lowDigits⟩, rest⟩
  dsimp only
  split
  · next hlow =>
    unfold afterLow
    rw [if_pos hlow]
    rfl
  · next hlow =>
    split
    · next rest =>
      rw [afterLow_comma hlow]
      rcases readDigits 10 rest.length 0 0 rest with ⟨⟨high, highDigits⟩, rest⟩
      dsimp only
      split
      · next hhigh =>
        unfold afterComma
        rw [if_pos hhigh]
        rfl
      · next hhigh =>
        split
        · next hnone =>
          unfold afterComma
          rw [if_neg hhigh, if_pos hnone]
          rfl
        · next hsome =>
          split
          · unfold afterComma
            rw [if_neg hhigh, if_neg hsome]
            rfl
          · next hclose =>
            rw [afterComma_other hhigh]
            · rfl
            · exact fun h => (List.head?_eq_some_iff.mp h).elim hclose
    · rw [afterLow_close hlow]
      split <;> rfl
    · next hcomma hclose =>
      rw [afterLow_other hlow]
      · rfl
      · exact fun h => (List.head?_eq_some_iff.mp h).elim hcomma
      · exact fun h => (List.head?_eq_some_iff.mp h).elim hclose

theorem afterComma_robust {start : List Char} (hstart : escapes anchor text = escapes anchor start)
    (low high : Nat × Nat) :
    Robust anchor start (afterComma start low high text)
      (afterComma (disableAnchor anchor start) low high (disableAnchor anchor text)) := by
  by_cases hhigh : high.1 > maxRepeat
  · unfold afterComma
    rw [if_pos hhigh]
    exact .error
  by_cases hclose : text.head? = some '}'
  · obtain ⟨rest, rfl⟩ := List.head?_eq_some_iff.mp hclose
    rw [disableAnchor_cons (by decide)]
    unfold afterComma
    rw [if_neg hhigh, if_neg hhigh]
    split
    · exact .ok (Nat.le_refl _)
    · rw [escapes_cons (by decide)] at hstart
      exact ((readSuffix_robust _ true false rest).map some).congr hstart
  · rw [afterComma_other hhigh hclose,
      afterComma_other hhigh (head?_disableAnchor_ne hclose (by decide) (by decide))]
    exact .ok (Nat.le_refl _)

theorem afterLow_robust {start : List Char} (hstart : escapes anchor text = escapes anchor start)
    (low : Nat × Nat) :
    Robust anchor start (afterLow start low text)
      (afterLow (disableAnchor anchor start) low (disableAnchor anchor text)) := by
  by_cases hlow : low.1 > maxRepeat
  · unfold afterLow
    rw [if_pos hlow]
    exact .error
  by_cases hcomma : text.head? = some ','
  · obtain ⟨rest, rfl⟩ := List.head?_eq_some_iff.mp hcomma
    rw [disableAnchor_cons (by decide), afterLow_comma hlow, afterLow_comma hlow,
      readDigits_length_off (by decide)]
    refine afterComma_robust ?_ low _
    rw [escapes_readDigits (by decide), ← hstart, escapes_cons (by decide)]
  by_cases hclose : text.head? = some '}'
  · obtain ⟨rest, rfl⟩ := List.head?_eq_some_iff.mp hclose
    rw [disableAnchor_cons (by decide), afterLow_close hlow, afterLow_close hlow]
    split
    · exact .ok (Nat.le_refl _)
    · rw [escapes_cons (by decide)] at hstart
      exact ((readSuffix_robust _ true true rest).map some).congr hstart
  · rw [afterLow_other hlow hcomma hclose,
      afterLow_other hlow (head?_disableAnchor_ne hcomma (by decide) (by decide))
        (head?_disableAnchor_ne hclose (by decide) (by decide))]
    exact .ok (Nat.le_refl _)

theorem readBounds_robust (text : List Char) :
    Robust anchor text (readBounds text) (readBounds (disableAnchor anchor text)) := by
  rw [readBounds_eq, readBounds_eq, readDigits_length_off (by decide)]
  exact afterLow_robust (escapes_readDigits (by decide) _ 0 0 text) _

/-! ## Options -/

theorem readOptions_letter {options : Options} {value : Bool} (hclose : c ≠ ')') (hcolon : c ≠ ':')
    (hminus : c ≠ '-') :
    readOptions options value (c :: rest) =
      match options.switch? c value with
      | some options => readOptions options value rest
      | none => .error .groupOption := by
  rw [readOptions.eq_def]
  split
  · contradiction
  · next heq => exact absurd (List.cons.inj heq).1 hclose
  · next heq => exact absurd (List.cons.inj heq).1 hcolon
  · next heq => exact absurd (List.cons.inj heq).1 hminus
  · next heq =>
    cases heq
    rfl

theorem readOptions_robust (options : Options) (value : Bool) (text : List Char) :
    Robust anchor text (readOptions options value text)
      (readOptions options value (disableAnchor anchor text)) := by
  induction text using walk generalizing options value with
  | nil => exact .error
  | lone => exact .error
  | escape c rest _ => exact .error
  | plain c rest hc ih =>
      rw [disableAnchor_cons hc]
      refine Robust.cons hc ?_
      by_cases hclose : c = ')'
      · rw [hclose]
        exact .ok (Nat.le_refl _)
      by_cases hcolon : c = ':'
      · rw [hcolon]
        exact .ok (Nat.le_refl _)
      by_cases hminus : c = '-'
      · rw [hminus]
        exact ih options false
      · rw [readOptions_letter hclose hcolon hminus, readOptions_letter hclose hcolon hminus]
        cases options.switch? c value with
        | none => exact .error
        | some options => exact ih options value

/-! ## Comments -/

def skipped (read : Except Fault (List Char)) : Except Fault (Unit × List Char) :=
  read.map (Prod.mk ())

theorem skipComment_cons (hclose : c ≠ ')') (hescape : c ≠ '\\') :
    skipComment (c :: rest) = skipComment rest := by
  rw [skipComment]
  · exact hclose
  · rintro rfl
    contradiction
  · rintro first following rfl
    contradiction

theorem skipComment_robust (text : List Char) :
    Robust anchor text (skipped (skipComment text))
      (skipped (skipComment (disableAnchor anchor text))) := by
  induction text using walk with
  | nil => exact .error
  | lone => exact .error
  | escape c rest ih =>
      refine Robust.escape ih fun hne => ?_
      rw [disableAnchor_escape hne]
      rfl
  | plain c rest hc ih =>
      rw [disableAnchor_cons hc]
      refine Robust.cons hc ?_
      by_cases hclose : c = ')'
      · rw [hclose]
        exact .ok (Nat.le_refl _)
      · rw [skipComment_cons hclose hc, skipComment_cons hclose hc]
        exact ih

theorem skipLine_cons (h : c ≠ '\n') : skipLine (c :: rest) = skipLine rest := by
  rw [skipLine]
  exact h

theorem skipLine_robust (text : List Char) :
    Robust anchor text (skipped (.ok (skipLine text)))
      (skipped (.ok (skipLine (disableAnchor anchor text)))) := by
  induction text using walk with
  | nil => exact .ok (Nat.le_refl _)
  | lone => exact .ok (Nat.le_refl _)
  | escape c rest ih =>
      rw [skipLine_cons (by decide)]
      by_cases hline : c = '\n'
      · subst hline
        refine Robust.escape (.ok (Nat.le_refl _)) fun hne => ?_
        rw [disableAnchor_escape hne]
        rfl
      · rw [skipLine_cons hline]
        refine Robust.escape ih fun hne => ?_
        rw [disableAnchor_escape hne, skipLine_cons (by decide), skipLine_cons hline]
  | plain c rest hc ih =>
      rw [disableAnchor_cons hc]
      refine Robust.cons hc ?_
      by_cases hline : c = '\n'
      · rw [hline]
        exact .ok (Nat.le_refl _)
      · rw [skipLine_cons hline, skipLine_cons hline]
        exact ih

theorem skipComment_shortens (h : skipComment text = .ok rest) : rest.length < text.length := by
  fun_induction skipComment text with
  | case1 => contradiction
  | case2 following =>
      cases h
      exact Nat.lt_succ_self _
  | case3 => contradiction
  | case4 c following ih =>
      have hless := ih h
      simp only [List.length_cons]
      omega
  | case5 c following _ _ _ ih =>
      have hless := ih h
      simp only [List.length_cons]
      omega

theorem skipLine_shortens (text : List Char) : (skipLine text).length ≤ text.length := by
  fun_induction skipLine text with
  | case1 => exact Nat.le_refl _
  | case2 rest => exact Nat.le_succ _
  | case3 c rest _ ih => exact Nat.le_succ_of_le ih

def isBlank (options : Options) (c : Char) : Bool :=
  options.extended && [' ', '\t', '\n', '\r', '\x0c'].contains c

section

variable {options : Options} {fuel other : Nat}

theorem skipIgnored_comment :
    skipIgnored options (fuel + 1) ('(' :: '?' :: '#' :: rest) =
      skipComment rest >>= skipIgnored options fuel := rfl

theorem skipIgnored_line :
    skipIgnored options (fuel + 1) ('#' :: rest) =
      if options.extended then skipIgnored options fuel (skipLine rest) else .ok ('#' :: rest) := rfl

theorem skipIgnored_plain (hline : c ≠ '#')
    (hcomment : c = '(' → ∀ following, rest ≠ '?' :: '#' :: following) :
    skipIgnored options (fuel + 1) (c :: rest) =
      if isBlank options c then skipIgnored options fuel rest else .ok (c :: rest) := by
  rw [skipIgnored]
  · rfl
  · rintro following rfl rfl
    exact hcomment rfl _ rfl
  · exact hline

theorem skipIgnored_nil : skipIgnored options fuel [] = .ok [] := by
  cases fuel <;> rfl

theorem skipIgnored_escape :
    skipIgnored options (fuel + 1) ('\\' :: rest) = .ok ('\\' :: rest) := by
  rw [skipIgnored_plain (by decide) fun h => absurd h (by decide), if_neg]
  simp [isBlank]

theorem skipIgnored_group (h : ∀ following, rest ≠ '?' :: '#' :: following) :
    skipIgnored options (fuel + 1) ('(' :: rest) = .ok ('(' :: rest) := by
  rw [skipIgnored_plain (by decide) fun _ => h, if_neg]
  simp [isBlank]

theorem skipped_bind (read : Except Fault (List Char))
    (next : List Char → Except Fault (List Char)) :
    skipped (read >>= next) = skipped read >>= fun (_, rest) => skipped (next rest) := by
  cases read <;> rfl

theorem startsNoComment_disableAnchor (h : ∀ following, rest ≠ '?' :: '#' :: following)
    (following : List Char) : disableAnchor anchor rest ≠ '?' :: '#' :: following := by
  intro heq
  have hfirst : rest.head? = some '?' :=
    (head?_disableAnchor (by decide) (by decide) rest).mp (by rw [heq]; rfl)
  obtain ⟨second, rfl⟩ := List.head?_eq_some_iff.mp hfirst
  rw [disableAnchor_cons (by decide)] at heq
  have hsecond : second.head? = some '#' :=
    (head?_disableAnchor (by decide) (by decide) second).mp (by rw [(List.cons.inj heq).2]; rfl)
  obtain ⟨third, rfl⟩ := List.head?_eq_some_iff.mp hsecond
  exact h third rfl

theorem skipIgnored_escape_off :
    skipIgnored options (fuel + 1) (disableAnchor anchor ('\\' :: c :: rest)) =
      .ok (disableAnchor anchor ('\\' :: c :: rest)) := by
  by_cases hc : c = anchor
  · rw [hc, disableAnchor_anchor, skipIgnored_group]
    simp
  · rw [disableAnchor_escape hc, skipIgnored_escape]

/-- What is skipped holds escapes in comments only. -/
theorem skipIgnored_robust (hlength : text.length < fuel) (hfuel : fuel ≤ other) :
    Robust anchor text (skipped (skipIgnored options fuel text))
      (skipped (skipIgnored options other (disableAnchor anchor text))) := by
  induction fuel generalizing other text with
  | zero => exact absurd hlength (Nat.not_lt_zero _)
  | succ fuel ih =>
      obtain ⟨other, rfl⟩ := Nat.exists_eq_add_one_of_ne_zero (Nat.ne_zero_of_lt hfuel)
      have hless := Nat.le_of_succ_le_succ hfuel
      cases text using walk with
      | nil =>
          rw [disableAnchor_nil, skipIgnored_nil, skipIgnored_nil]
          exact .ok (Nat.le_refl _)
      | lone =>
          rw [disableAnchor_lone, skipIgnored_escape, skipIgnored_escape]
          exact .ok (Nat.le_refl _)
      | escape c rest _ =>
          rw [skipIgnored_escape_off, skipIgnored_escape]
          exact .ok (Nat.le_refl _)
      | plain c rest hc _ =>
          rw [disableAnchor_cons hc]
          rw [List.length_cons] at hlength
          by_cases hline : c = '#'
          · subst hline
            rw [skipIgnored_line, skipIgnored_line]
            split
            · change Robust anchor ('#' :: rest)
                (skipped (.ok (skipLine rest)) >>= fun (_, rest) =>
                  skipped (skipIgnored options fuel rest))
                (skipped (.ok (skipLine (disableAnchor anchor rest))) >>= fun (_, rest) =>
                  skipped (skipIgnored options other rest))
              refine Robust.cons hc ((skipLine_robust rest).bind fun _ behind hbehind => ?_)
              cases hbehind
              exact ih (Nat.lt_of_le_of_lt (skipLine_shortens rest) (Nat.lt_of_succ_lt_succ hlength))
                hless
            · rw [← disableAnchor_cons hc]
              exact .ok (Nat.le_refl _)
          by_cases hcomment : c = '(' ∧ ∃ following, rest = '?' :: '#' :: following
          · obtain ⟨rfl, following, rfl⟩ := hcomment
            rw [disableAnchor_cons (by decide), disableAnchor_cons (by decide), skipIgnored_comment,
              skipIgnored_comment, skipped_bind, skipped_bind]
            refine Robust.cons hc (.cons (by decide) (.cons (by decide)
              ((skipComment_robust following).bind fun _ behind hbehind => ih ?_ hless)))
            obtain ⟨_, hskip, heq⟩ := map_eq_ok.mp hbehind
            cases heq
            have hshort := skipComment_shortens hskip
            simp only [List.length_cons] at hlength
            omega
          · have hplain : c = '(' → ∀ following, rest ≠ '?' :: '#' :: following :=
              fun h following heq => hcomment ⟨h, following, heq⟩
            rw [skipIgnored_plain hline hplain,
              skipIgnored_plain hline fun h => startsNoComment_disableAnchor (hplain h)]
            split
            · exact (ih (Nat.lt_of_succ_lt_succ hlength) hless).cons hc
            · rw [← disableAnchor_cons hc]
              exact .ok (Nat.le_refl _)

end

end ScopeLexer.Regex
