import ScopeLexer.Proofs.Regex.Walk

/-!
# Robust readers of escapes

Digits, code points, bytes and the names of properties hold no escapes, or hold them whole.  So what
follows a backslash is read alike with an anchor switched off behind it.
-/

namespace ScopeLexer.Regex

open Outcome

variable {anchor c : Char} {text rest : List Char} {base : Nat}

/-! ## Digits -/

theorem digitValue?_backslash (hbase : base ≤ 16) : digitValue? base '\\' = none :=
  if_neg (Nat.not_lt_of_le hbase)

theorem digitValue?_parenthesis (hbase : base ≤ 16) : digitValue? base '(' = none :=
  if_neg (Nat.not_lt_of_le hbase)

theorem ne_backslash_of_digit {digit : Nat} (hbase : base ≤ 16)
    (h : digitValue? base c = some digit) : c ≠ '\\' := by
  rintro rfl
  rw [digitValue?_backslash hbase] at h
  contradiction

theorem readDigits_zero (value count : Nat) (text : List Char) :
    readDigits base 0 value count text = ((value, count), text) := by
  simp [readDigits]

theorem readDigits_none {limit value count : Nat} (h : digitValue? base c = none) :
    readDigits base limit value count (c :: rest) = ((value, count), c :: rest) := by
  cases limit with
  | zero => exact readDigits_zero ..
  | succ limit => simp [readDigits, h]

theorem readDigits_some {limit value count digit : Nat} (h : digitValue? base c = some digit) :
    readDigits base (limit + 1) value count (c :: rest) =
      readDigits base limit (value * base + digit) (count + 1) rest := by
  simp [readDigits, h]

theorem readDigits_nil (limit value count : Nat) :
    readDigits base limit value count [] = ((value, count), []) := by
  cases limit <;> simp [readDigits]

theorem readDigits_off (hbase : base ≤ 16) (limit value count : Nat) (text : List Char) :
    readDigits base limit value count (disableAnchor anchor text) =
      ((readDigits base limit value count text).1,
        disableAnchor anchor (readDigits base limit value count text).2) := by
  induction text using walk generalizing limit value count with
  | nil => rw [disableAnchor_nil, readDigits_nil, disableAnchor_nil]
  | lone =>
      rw [disableAnchor_lone, readDigits_none (digitValue?_backslash hbase), disableAnchor_lone]
  | escape c rest ih =>
      rw [readDigits_none (digitValue?_backslash hbase)]
      by_cases hc : c = anchor
      · rw [hc, disableAnchor_anchor, readDigits_none (digitValue?_parenthesis hbase)]
      · rw [disableAnchor_escape hc, readDigits_none (digitValue?_backslash hbase)]
  | plain c rest hc ih =>
      rw [disableAnchor_cons hc]
      cases hdigit : digitValue? base c with
      | none => rw [readDigits_none hdigit, readDigits_none hdigit, disableAnchor_cons hc]
      | some digit =>
          cases limit with
          | zero => rw [readDigits_zero, readDigits_zero, disableAnchor_cons hc]
          | succ limit => rw [readDigits_some hdigit, readDigits_some hdigit, ih]

theorem escapes_readDigits (hbase : base ≤ 16) (limit value count : Nat) (text : List Char) :
    escapes anchor (readDigits base limit value count text).2 = escapes anchor text := by
  induction text using walk generalizing limit value count with
  | nil => rw [readDigits_nil]
  | lone => rw [readDigits_none (digitValue?_backslash hbase)]
  | escape c rest ih => rw [readDigits_none (digitValue?_backslash hbase)]
  | plain c rest hc ih =>
      cases hdigit : digitValue? base c with
      | none => rw [readDigits_none hdigit]
      | some digit =>
          cases limit with
          | zero => rw [readDigits_zero]
          | succ limit => rw [readDigits_some hdigit, ih, escapes_cons hc]

theorem readDigits_limit {limit other value count : Nat} (hlimit : text.length ≤ limit)
    (hother : text.length ≤ other) :
    readDigits base limit value count text = readDigits base other value count text := by
  induction text generalizing limit other value count with
  | nil => rw [readDigits_nil, readDigits_nil]
  | cons c rest ih =>
      obtain ⟨limit, rfl⟩ := Nat.exists_eq_add_one_of_ne_zero (Nat.ne_zero_of_lt hlimit)
      obtain ⟨other, rfl⟩ := Nat.exists_eq_add_one_of_ne_zero (Nat.ne_zero_of_lt hother)
      cases hdigit : digitValue? base c with
      | none => rw [readDigits_none hdigit, readDigits_none hdigit]
      | some digit =>
          rw [readDigits_some hdigit, readDigits_some hdigit]
          exact ih (Nat.le_of_succ_le_succ hlimit) (Nat.le_of_succ_le_succ hother)

theorem readDigits_length_off (hbase : base ≤ 16) (value count : Nat) (text : List Char) :
    readDigits base (disableAnchor anchor text).length value count (disableAnchor anchor text) =
      ((readDigits base text.length value count text).1,
        disableAnchor anchor (readDigits base text.length value count text).2) := by
  rw [readDigits_off hbase, readDigits_limit (length_le_disableAnchor anchor text) (Nat.le_refl _)]

section

variable {α : Type} {next offNext : Nat × Nat → List Char → Except Fault (α × List Char)}

theorem Robust.digits (hbase : base ≤ 16) (limit value count : Nat)
    (h : ∀ number rest,
      Robust anchor rest (next number rest) (offNext number (disableAnchor anchor rest))) :
    Robust anchor text
      (next (readDigits base limit value count text).1 (readDigits base limit value count text).2)
      (offNext (readDigits base limit value count (disableAnchor anchor text)).1
        (readDigits base limit value count (disableAnchor anchor text)).2) := by
  rw [readDigits_off hbase]
  exact (h _ _).congr (escapes_readDigits hbase limit value count text)

theorem Robust.digits_length (hbase : base ≤ 16) (value count : Nat)
    (h : ∀ number rest,
      Robust anchor rest (next number rest) (offNext number (disableAnchor anchor rest))) :
    Robust anchor text
      (next (readDigits base text.length value count text).1
        (readDigits base text.length value count text).2)
      (offNext
        (readDigits base (disableAnchor anchor text).length value count (disableAnchor anchor text)).1
        (readDigits base (disableAnchor anchor text).length value count
          (disableAnchor anchor text)).2) := by
  rw [readDigits_length_off hbase]
  exact (h _ _).congr (escapes_readDigits hbase _ value count text)

end

/-! ## Bytes -/

def needByte (text : List Char) : Except Fault (Nat × List Char) :=
  match readByte? text with
  | some read => .ok read
  | none => .error .partialCharacter

theorem needByte_octal (hx : c ≠ 'x') :
    needByte ('\\' :: c :: rest) =
      if (readDigits 8 3 0 0 (c :: rest)).1.2 == 0 then .error .partialCharacter
      else .ok ((readDigits 8 3 0 0 (c :: rest)).1.1 % 256, (readDigits 8 3 0 0 (c :: rest)).2) := by
  unfold needByte readByte?
  split <;> simp_all

theorem needByte_robust (text : List Char) :
    Robust anchor text (needByte text) (needByte (disableAnchor anchor text)) := by
  cases text using walk with
  | nil => exact .error
  | lone => exact .error
  | plain c rest hc _ =>
      have hnone : needByte (c :: rest) = .error .partialCharacter := by
        simp [needByte, readByte?, hc]
      rw [hnone]
      exact .error
  | escape c rest _ =>
      by_cases hx : c = 'x'
      · subst hx
        refine Robust.escape ?_ fun hne => congrArg needByte (disableAnchor_escape hne)
        have hread : ∀ rest, needByte ('\\' :: 'x' :: rest) =
            .ok ((readDigits 16 2 0 0 rest).1.1, (readDigits 16 2 0 0 rest).2) := fun _ => rfl
        rw [hread, hread, readDigits_off (by decide)]
        exact (Robust.ok (Nat.le_refl _)).congr (escapes_readDigits (by decide) 2 0 0 rest)
      · refine Robust.escape ?_ fun hne => congrArg needByte (disableAnchor_escape hne)
        rw [needByte_octal hx, needByte_octal hx]
        cases hdigit : digitValue? 8 c with
        | none =>
            rw [readDigits_none hdigit]
            exact .error
        | some digit =>
            have hc := ne_backslash_of_digit (by decide) hdigit
            rw [← disableAnchor_cons hc, readDigits_off (by decide)]
            split
            · exact .error
            · refine (Robust.ok (Nat.le_refl _)).congr ?_
              rw [escapes_readDigits (by decide), escapes_cons hc]

theorem readTail_succ (missing code : Nat) (text : List Char) :
    readTail (missing + 1) code text = needByte text >>= fun (byte, rest) =>
      if 0x80 ≤ byte && byte < 0xC0 then readTail missing (code * 64 + (byte - 0x80)) rest
      else .error .codePoint := by
  rw [readTail, needByte]
  cases readByte? text <;> rfl

theorem readTail_robust (missing code : Nat) (text : List Char) :
    Robust anchor text (readTail missing code text)
      (readTail missing code (disableAnchor anchor text)) := by
  induction missing generalizing code text with
  | zero => exact .ok (Nat.le_refl _)
  | succ missing ih =>
      rw [readTail_succ, readTail_succ]
      refine (needByte_robust text).bind fun byte rest _ => ?_
      dsimp only
      split
      · exact ih _ rest
      · exact .error

theorem readBytes_robust (first : Nat) (text : List Char) :
    Robust anchor text (readBytes first text) (readBytes first (disableAnchor anchor text)) := by
  unfold readBytes
  split
  · exact .error
  · exact .ok (Nat.le_refl _)
  · exact (readTail_robust _ _ text).bind_pure

/-! ## Code points -/

theorem dropWhile_blanks_off (text : List Char) :
    (disableAnchor anchor text).dropWhile (· == ' ') =
      disableAnchor anchor (text.dropWhile (· == ' ')) := by
  induction text using walk with
  | nil => rfl
  | lone => rfl
  | escape c rest ih =>
      by_cases hc : c = anchor
      · rw [hc, disableAnchor_anchor, List.dropWhile_cons_of_neg (by decide),
          List.dropWhile_cons_of_neg (by decide), disableAnchor_anchor]
      · rw [disableAnchor_escape hc, List.dropWhile_cons_of_neg (by decide),
          List.dropWhile_cons_of_neg (by decide), disableAnchor_escape hc]
  | plain c rest hc ih =>
      rw [disableAnchor_cons hc, List.dropWhile_cons, List.dropWhile_cons]
      split
      · exact ih
      · rw [disableAnchor_cons hc]

theorem escapes_dropWhile_blanks (text : List Char) :
    escapes anchor (text.dropWhile (· == ' ')) = escapes anchor text := by
  induction text using walk with
  | nil => rfl
  | lone => rfl
  | escape c rest ih => rw [List.dropWhile_cons_of_neg (by decide)]
  | plain c rest hc ih =>
      rw [List.dropWhile_cons]
      split
      · rw [ih, escapes_cons hc]
      · rfl

def readBracedTail (fuel base value : Nat) (text : List Char) :
    Except Fault (List Char × List Char) :=
  match text with
  | '}' :: rest => do return ([← characterAt value], rest)
  | rest => do
      let first ← characterAt value
      let (others, rest) ← readBraced fuel base rest
      return (first :: others, rest)

theorem readBracedTail_more {fuel value : Nat} (h : text.head? ≠ some '}') :
    readBracedTail fuel base value text = characterAt value >>= fun first =>
      (readBraced fuel base text).map fun (others, rest) => (first :: others, rest) := by
  unfold readBracedTail
  split
  · simp at h
  · cases characterAt value with
    | error fault => rfl
    | ok first => cases readBraced fuel base text <;> rfl

theorem readBracedTail_robust {fuel other : Nat} (value : Nat)
    (ih : ∀ text, Robust anchor text (readBraced fuel base text)
      (readBraced other base (disableAnchor anchor text))) (text : List Char) :
    Robust anchor text (readBracedTail fuel base value text)
      (readBracedTail other base value (disableAnchor anchor text)) := by
  by_cases hclose : text.head? = some '}'
  · obtain ⟨rest, rfl⟩ := List.head?_eq_some_iff.mp hclose
    rw [disableAnchor_cons (by decide)]
    simp only [readBracedTail]
    cases characterAt value with
    | error fault => exact .error
    | ok found => exact .cons (by decide) (.ok (Nat.le_refl _))
  · rw [readBracedTail_more hclose,
      readBracedTail_more (head?_disableAnchor_ne hclose (by decide) (by decide))]
    cases characterAt value with
    | error fault => exact .error
    | ok found => exact (ih text).map (found :: ·)

def readBracedRest (fuel base : Nat) (number : Nat × Nat) (text : List Char) :
    Except Fault (List Char × List Char) :=
  match number, text with
  | (_, 0), _ => .error .codePoint
  | (value, _ + 1), '}' :: rest => do return ([← characterAt value], rest)
  | (value, _ + 1), ' ' :: rest => readBracedTail fuel base value (rest.dropWhile (· == ' '))
  | _, c :: _ => if (digitValue? base c).isSome then .error .codePointTooLong else .error .codePoint
  | _, [] => .error .codePoint

theorem readBraced_succ (fuel : Nat) (text : List Char) :
    readBraced (fuel + 1) base text =
      readBracedRest fuel base (readDigits base 8 0 0 text).1 (readDigits base 8 0 0 text).2 := by
  rw [readBraced]
  rcases readDigits base 8 0 0 text with ⟨⟨value, _ | count⟩, rest⟩
  · simp [readBracedRest]
  · dsimp only
    split
    · rfl
    · rfl
    · next c following hclose hblank =>
      unfold readBracedRest
      split <;> simp_all
    · rfl

theorem readBracedRest_robust {fuel other : Nat} (number : Nat × Nat)
    (ih : ∀ text, Robust anchor text (readBraced fuel base text)
      (readBraced other base (disableAnchor anchor text))) (text : List Char) :
    Robust anchor text (readBracedRest fuel base number text)
      (readBracedRest other base number (disableAnchor anchor text)) := by
  obtain ⟨value, _ | count⟩ := number
  · exact .error
  · by_cases hclose : text.head? = some '}'
    · obtain ⟨rest, rfl⟩ := List.head?_eq_some_iff.mp hclose
      rw [disableAnchor_cons (by decide)]
      simp only [readBracedRest]
      cases characterAt value with
      | error fault => exact .error
      | ok found => exact .cons (by decide) (.ok (Nat.le_refl _))
    by_cases hblank : text.head? = some ' '
    · obtain ⟨rest, rfl⟩ := List.head?_eq_some_iff.mp hblank
      rw [disableAnchor_cons (by decide)]
      simp only [readBracedRest]
      rw [dropWhile_blanks_off]
      exact ((readBracedTail_robust value ih _).congr (escapes_dropWhile_blanks rest)).cons (by decide)
    · intro read rest hread
      unfold readBracedRest at hread
      split at hread
      · contradiction
      · simp at hclose
      · simp at hblank
      · split at hread <;> contradiction
      · contradiction

theorem readBraced_robust (hbase : base ≤ 16) {fuel other : Nat} (hfuel : fuel ≤ other)
    (text : List Char) :
    Robust anchor text (readBraced fuel base text)
      (readBraced other base (disableAnchor anchor text)) := by
  induction fuel generalizing other text with
  | zero => exact .error
  | succ fuel ih =>
      obtain ⟨other, rfl⟩ := Nat.exists_eq_add_one_of_ne_zero (Nat.ne_zero_of_lt hfuel)
      rw [readBraced_succ, readBraced_succ]
      exact .digits hbase 8 0 0 fun number rest =>
        readBracedRest_robust number (ih (Nat.le_of_succ_le_succ hfuel)) rest

theorem readHex_brace (text : List Char) :
    readHex ('{' :: text) =
      if (text.head?.bind (digitValue? 16)).isSome then readBraced (text.length + 1) 16 text
      else .ok (['x'], '{' :: text) := by
  cases text <;> rfl

theorem readHex_digits (h : text.head? ≠ some '{') (hne : text ≠ []) :
    readHex text = (readBytes (readDigits 16 2 0 0 text).1.1 (readDigits 16 2 0 0 text).2).map
      fun (c, rest) => ([c], rest) := by
  unfold readHex
  split
  · simp at h
  · contradiction
  · dsimp only
    cases readBytes (readDigits 16 2 0 0 text).1.1 (readDigits 16 2 0 0 text).2 <;> rfl

theorem readHex_robust (text : List Char) :
    Robust anchor text (readHex text) (readHex (disableAnchor anchor text)) := by
  by_cases hbrace : text.head? = some '{'
  · obtain ⟨rest, rfl⟩ := List.head?_eq_some_iff.mp hbrace
    rw [disableAnchor_cons (by decide), readHex_brace, readHex_brace,
      head?_bind_disableAnchor (digitValue?_backslash (by decide))
        (digitValue?_parenthesis (by decide))]
    split
    · exact (readBraced_robust (by decide)
        (Nat.succ_le_succ (length_le_disableAnchor anchor rest)) rest).cons (by decide)
    · rw [← disableAnchor_cons (by decide)]
      exact .ok (Nat.le_refl _)
  · by_cases hnil : text = []
    · subst hnil
      exact .ok (Nat.le_refl _)
    · rw [readHex_digits hbrace hnil,
        readHex_digits (head?_disableAnchor_ne hbrace (by decide) (by decide))
          (by rwa [Ne, disableAnchor_eq_nil]),
        readDigits_off (by decide)]
      have hdigits : escapes anchor (readDigits 16 2 0 0 text).2 = escapes anchor text :=
        escapes_readDigits (by decide) 2 0 0 text
      exact ((readBytes_robust _ _).congr hdigits).map fun c => [c]

theorem readOctalBraces_brace (text : List Char) :
    readOctalBraces ('{' :: text) =
      if (text.head?.bind (digitValue? 8)).isSome then readBraced (text.length + 1) 8 text
      else .ok (['o'], '{' :: text) := by
  cases text <;> rfl

theorem readOctalBraces_robust (text : List Char) :
    Robust anchor text (readOctalBraces text) (readOctalBraces (disableAnchor anchor text)) := by
  by_cases hbrace : text.head? = some '{'
  · obtain ⟨rest, rfl⟩ := List.head?_eq_some_iff.mp hbrace
    rw [disableAnchor_cons (by decide), readOctalBraces_brace, readOctalBraces_brace,
      head?_bind_disableAnchor (digitValue?_backslash (by decide))
        (digitValue?_parenthesis (by decide))]
    split
    · exact (readBraced_robust (by decide)
        (Nat.succ_le_succ (length_le_disableAnchor anchor rest)) rest).cons (by decide)
    · rw [← disableAnchor_cons (by decide)]
      exact .ok (Nat.le_refl _)
  · have hplain : ∀ {text : List Char}, text.head? ≠ some '{' →
        readOctalBraces text = .ok (['o'], text) := by
      intro text h
      unfold readOctalBraces
      split
      · simp at h
      · rfl
    rw [hplain hbrace, hplain (head?_disableAnchor_ne hbrace (by decide) (by decide))]
    exact .ok (Nat.le_refl _)

theorem readUnicode_cons (h : text ≠ []) :
    readUnicode text =
      if (readDigits 16 4 0 0 text).1.2 = 4 then
        (characterAt (readDigits 16 4 0 0 text).1.1).map fun c => (c, (readDigits 16 4 0 0 text).2)
      else .error .codePoint := by
  unfold readUnicode
  split
  · contradiction
  · split
    · next value rest hread =>
      rw [hread]
      cases characterAt value <;> rfl
    · next hcount =>
      rw [if_neg]
      exact fun heq => hcount _ _ (Prod.ext (Prod.ext rfl heq) rfl)

theorem readUnicode_robust (text : List Char) :
    Robust anchor text (readUnicode text) (readUnicode (disableAnchor anchor text)) := by
  by_cases hnil : text = []
  · subst hnil
    exact .ok (Nat.le_refl _)
  · rw [readUnicode_cons hnil, readUnicode_cons (by rwa [Ne, disableAnchor_eq_nil]),
      readDigits_off (by decide)]
    split
    · cases characterAt _ with
      | error fault => exact .error
      | ok found =>
          exact (Robust.ok (Nat.le_refl _)).congr (escapes_readDigits (by decide) 4 0 0 text)
    · exact .error

theorem readOctal_robust (limit : Nat) (text : List Char) :
    Robust anchor text (readOctal limit text) (readOctal limit (disableAnchor anchor text)) := by
  unfold readOctal
  rw [readDigits_off (by decide)]
  dsimp only
  split
  · exact .error
  · exact (readBytes_robust _ _).congr (escapes_readDigits (by decide) limit 0 0 text)

/-! ## Letters -/

section

-- The equations of both readers, made once for all lemmas on single letters.
attribute [local simp] readLetter readLetter.control

theorem control_plain {fuel : Nat} (hquestion : c ≠ '?') (hescape : c ≠ '\\') :
    readLetter.control fuel (c :: rest) = .ok (Nat.land c.toNat 0x9F, rest) := by
  cases fuel with
  | zero =>
      rw [readLetter.control]
      · exact hquestion
      · exact hescape
  | succ fuel =>
      rw [readLetter.control]
      · exact hquestion
      · exact hescape

theorem control_question {fuel : Nat} :
    readLetter.control fuel ('?' :: rest) = .ok (0x7F, rest) := by
  cases fuel <;> simp

theorem control_escape {fuel : Nat} :
    readLetter.control (fuel + 1) ('\\' :: rest) =
      (readLetter fuel rest).map fun (code, rest) => (Nat.land code 0x9F, rest) := by
  simp only [readLetter.control]
  cases readLetter fuel rest <;> rfl

theorem readLetter_nil (fuel : Nat) : readLetter fuel [] = .error .endAtEscape := by
  cases fuel <;> simp

theorem readLetter_meta {fuel : Nat} :
    readLetter (fuel + 1) ('M' :: '-' :: '\\' :: rest) =
      (readLetter fuel rest).map fun (code, rest) => (code % 128 + 128, rest) := by
  simp only [readLetter]
  cases readLetter fuel rest <;> rfl

theorem readLetter_meta_plain {fuel : Nat} (hc : c ≠ '\\') :
    readLetter (fuel + 1) ('M' :: '-' :: c :: rest) = .ok (c.toNat % 128 + 128, rest) := by
  rw [readLetter]
  exact hc

theorem readLetter_meta_error (fuel : Nat) (h : text.head? ≠ some '-') :
    ∃ fault, readLetter (fuel + 1) ('M' :: text) = .error fault := by
  cases text with
  | nil => exact ⟨_, rfl⟩
  | cons first rest =>
      refine ⟨.metaForm, ?_⟩
      rw [readLetter]
      all_goals simp_all

theorem readLetter_control_error (fuel : Nat) (h : text.head? ≠ some '-') :
    ∃ fault, readLetter (fuel + 1) ('C' :: text) = .error fault := by
  cases text with
  | nil => exact ⟨_, rfl⟩
  | cons first rest =>
      refine ⟨.controlForm, ?_⟩
      rw [readLetter]
      all_goals simp_all

theorem readLetter_plain {fuel : Nat} (hM : c ≠ 'M') (hC : c ≠ 'C') (hc : c ≠ 'c') :
    readLetter (fuel + 1) (c :: rest) = .ok ((controlLetter c).toNat, rest) := by
  rw [readLetter]
  all_goals simp [hM, hC, hc]

end

theorem control_robust {fuel other : Nat} (hfuel : fuel ≤ other)
    (hletter : ∀ less, fuel = less + 1 → ∀ more, less ≤ more → ∀ c rest,
      Robust anchor rest (readLetter less (c :: rest))
        (readLetter more (c :: disableAnchor anchor rest))) (text : List Char) :
    Robust anchor text (readLetter.control fuel text)
      (readLetter.control other (disableAnchor anchor text)) := by
  cases text using walk with
  | nil =>
      cases fuel <;> exact .error
  | lone =>
      cases fuel with
      | zero => exact .error
      | succ fuel =>
          rw [control_escape, readLetter_nil]
          exact .error
  | escape c rest _ =>
      cases fuel with
      | zero => exact .error
      | succ fuel =>
          obtain ⟨other, rfl⟩ := Nat.exists_eq_add_one_of_ne_zero (Nat.ne_zero_of_lt hfuel)
          rw [control_escape]
          refine Robust.escape ((hletter fuel rfl other (Nat.le_of_succ_le_succ hfuel) c rest).map
            fun code => Nat.land code 0x9F) fun hne => ?_
          rw [disableAnchor_escape hne, control_escape]
  | plain c rest hc _ =>
      rw [disableAnchor_cons hc]
      by_cases hquestion : c = '?'
      · subst hquestion
        rw [control_question, control_question]
        exact .cons hc (.ok (Nat.le_refl _))
      · rw [control_plain hquestion hc, control_plain hquestion hc]
        exact .cons hc (.ok (Nat.le_refl _))

theorem readLetter_robust {fuel other : Nat} (hfuel : fuel ≤ other) (c : Char)
    (rest : List Char) :
    Robust anchor rest (readLetter fuel (c :: rest))
      (readLetter other (c :: disableAnchor anchor rest)) := by
  induction fuel using Nat.strongRecOn generalizing other c rest with
  | ind fuel ih =>
    cases fuel with
    | zero => exact .error
    | succ fuel =>
      obtain ⟨other, rfl⟩ := Nat.exists_eq_add_one_of_ne_zero (Nat.ne_zero_of_lt hfuel)
      have hle := Nat.le_of_succ_le_succ hfuel
      have hcontrol : ∀ text, Robust anchor text (readLetter.control fuel text)
          (readLetter.control other (disableAnchor anchor text)) :=
        control_robust hle fun less hless more hmore c rest => ih less (by omega) hmore c rest
      by_cases hM : c = 'M'
      · subst hM
        by_cases hrest : rest.head? = some '-'
        · obtain ⟨following, rfl⟩ := List.head?_eq_some_iff.mp hrest
          rw [disableAnchor_cons (by decide)]
          refine .cons (by decide) ?_
          cases following using walk with
          | nil => exact .error
          | lone =>
              rw [readLetter_meta, readLetter_nil]
              exact .error
          | escape d rest _ =>
              rw [readLetter_meta]
              refine Robust.escape ((ih fuel (Nat.lt_succ_self _) hle d rest).map
                fun code => code % 128 + 128) fun hne => ?_
              rw [disableAnchor_escape hne, readLetter_meta]
          | plain d rest hd _ =>
              rw [disableAnchor_cons hd, readLetter_meta_plain hd, readLetter_meta_plain hd]
              exact .cons hd (.ok (Nat.le_refl _))
        · obtain ⟨fault, hfault⟩ := readLetter_meta_error fuel hrest
          rw [hfault]
          exact .error
      by_cases hC : c = 'C'
      · subst hC
        by_cases hrest : rest.head? = some '-'
        · obtain ⟨following, rfl⟩ := List.head?_eq_some_iff.mp hrest
          rw [disableAnchor_cons (by decide)]
          exact .cons (by decide) (hcontrol following)
        · obtain ⟨fault, hfault⟩ := readLetter_control_error fuel hrest
          rw [hfault]
          exact .error
      by_cases hc : c = 'c'
      · subst hc
        exact hcontrol rest
      · rw [readLetter_plain hM hC hc, readLetter_plain hM hC hc]
        exact .ok (Nat.le_refl _)

/-! ## Properties -/

def hasBackslash (name : String) : Bool := name.toByteArray.data.toList.contains 92

theorem hasBackslash_of_mem {name : String} (h : '\\' ∈ name.toList) : hasBackslash name = true := by
  have hbytes : name.toByteArray = name.toList.utf8Encode := by
    rw [← String.toByteArray_ofList, String.ofList_toList]
  rw [hasBackslash, hbytes, List.contains_iff_mem]
  simpa [List.utf8Encode] using ⟨'\\', h, by decide⟩

theorem toLower_eq_backslash {c : Char} (h : c.toLower = '\\') : c = '\\' := by
  unfold Char.toLower at h
  split at h
  · next hupper =>
    have hval := congrArg (fun c => c.val.toNat) h
    simp at hval
    have := hupper.1
    have := hupper.2
    simp [UInt32.le_iff_toNat_le] at *
    omega
  · exact h

theorem mem_normalizeName {name : String} :
    '\\' ∈ (CharProperty.normalizeName name).toList ↔ '\\' ∈ name.toList := by
  rw [CharProperty.normalizeName, String.toList_ofList, List.mem_map]
  constructor
  · rintro ⟨c, hc, hlower⟩
    rw [toLower_eq_backslash hlower] at hc
    exact (List.mem_filter.mp hc).1
  · intro h
    exact ⟨'\\', List.mem_filter.mpr ⟨h, by decide⟩, by decide⟩

theorem names_hasBackslash :
    (CharProperty.bracketNames ++ CharProperty.propertyNames).all
      (fun entry => !hasBackslash entry.1) = true := by
  decide +kernel

theorem categories_hasBackslash :
    Unicode.Category.all.all (fun category =>
      !hasBackslash category.abbreviation && !hasBackslash category.fullName) = true := by
  decide +kernel

theorem scripts_hasBackslash :
    Unicode.scripts.all (fun entry => !hasBackslash entry.1) = true := by
  decide +kernel

theorem named?_of_backslash {name : String} (h : '\\' ∈ name.toList) :
    CharProperty.named? name = none := by
  have hkey := mem_normalizeName.mpr h
  have hother : ∀ {other : String}, hasBackslash other = false →
      other ≠ CharProperty.normalizeName name := by
    rintro other hnone rfl
    exact Bool.false_ne_true (hnone.symm.trans (hasBackslash_of_mem hkey))
  have hnormal : ∀ {other : String}, hasBackslash other = false →
      CharProperty.normalizeName other ≠ CharProperty.normalizeName name := by
    intro other hnone heq
    rw [← heq, mem_normalizeName] at hkey
    exact Bool.false_ne_true (hnone.symm.trans (hasBackslash_of_mem hkey))
  have hnames : (CharProperty.bracketNames ++ CharProperty.propertyNames).find?
      (·.1 == CharProperty.normalizeName name) = none := by
    refine List.find?_eq_none.mpr fun entry hentry heq => ?_
    have hplain := List.all_eq_true.mp names_hasBackslash entry hentry
    exact hother (Bool.not_eq_true' _ ▸ hplain) (beq_iff_eq.mp heq)
  have hcategories : Unicode.Category.all.find? (fun candidate =>
      CharProperty.normalizeName candidate.abbreviation == CharProperty.normalizeName name
        || CharProperty.normalizeName candidate.fullName == CharProperty.normalizeName name) =
          none := by
    refine List.find?_eq_none.mpr fun category hcategory heq => ?_
    have hplain := List.all_eq_true.mp categories_hasBackslash category hcategory
    simp only [Bool.and_eq_true, Bool.not_eq_true'] at hplain
    rcases Bool.or_eq_true _ _ ▸ heq with heq | heq
    · exact hnormal hplain.1 (beq_iff_eq.mp heq)
    · exact hnormal hplain.2 (beq_iff_eq.mp heq)
  have hscripts : Unicode.scripts.find? (fun entry =>
      CharProperty.normalizeName entry.1 == CharProperty.normalizeName name) = none := by
    refine List.find?_eq_none.mpr fun entry hentry heq => ?_
    have hplain := List.all_eq_true.mp scripts_hasBackslash entry hentry
    exact hnormal (Bool.not_eq_true' _ ▸ hplain) (beq_iff_eq.mp heq)
  simp only [CharProperty.named?, hnames, hcategories, hscripts, Option.map_none]

theorem readPropertyName_eq_ok {soFar : List Char} {name : String}
    (h : readPropertyName soFar text = .ok (name, rest)) :
    ∃ chars, text = chars ++ '}' :: rest ∧ name = String.ofList (soFar ++ chars) ∧
      ∀ other, readPropertyName soFar (chars ++ '}' :: other) = .ok (name, other) := by
  induction text generalizing soFar with
  | nil => simp [readPropertyName] at h
  | cons c text ih =>
      rw [readPropertyName.eq_def] at h
      split at h
      · contradiction
      · next heq =>
        cases heq
        cases h
        exact ⟨[], rfl, by rw [List.append_nil], fun other => rfl⟩
      · next first others hclose heq =>
        cases heq
        split at h
        · contradiction
        · next hsign =>
          obtain ⟨chars, htext, hname, hread⟩ := ih h
          refine ⟨c :: chars, by rw [htext, List.cons_append], ?_, fun other => ?_⟩
          · rw [hname, List.append_assoc, List.singleton_append]
          · rw [List.cons_append, readPropertyName, if_neg hsign, hread]
            exact hclose

def readPlainProperty (negated : Bool) (text : List Char) : Except Fault (CharClass × List Char) :=
  readPropertyName [] text >>= fun (name, rest) =>
    match CharProperty.named? name with
    | some property => .ok (.negateIf negated (.property property), rest)
    | none => .error (.propertyName name)

theorem readProperty_negated (negated : Bool) (text : List Char) :
    readProperty negated ('^' :: text) = readPlainProperty (!negated) text := rfl

theorem readProperty_plain {negated : Bool} (h : text.head? ≠ some '^') :
    readProperty negated text = readPlainProperty negated text := by
  unfold readProperty
  split
  next heq =>
  split at heq
  · simp at h
  · cases heq
    rfl

theorem readPlainProperty_robust (negated : Bool) (text : List Char) :
    Robust anchor text (readPlainProperty negated text)
      (readPlainProperty negated (disableAnchor anchor text)) := by
  intro inner rest hread
  obtain ⟨⟨name, rest⟩, hname, hread⟩ := bind_eq_ok.mp hread
  obtain ⟨chars, rfl, rfl, hother⟩ := readPropertyName_eq_ok hname
  dsimp only at hread
  have hplain : '\\' ∉ chars ++ ['}'] := by
    intro hmem
    have hchars : '\\' ∈ (String.ofList ([] ++ chars)).toList := by simpa using hmem
    rw [named?_of_backslash hchars] at hread
    contradiction
  rw [List.append_cons chars '}' rest]
  split at hread
  · next property hnamed =>
    cases hread
    rw [escapes_append hplain]
    refine ⟨Nat.le_refl _, fun _ => ?_⟩
    rw [disableAnchor_append hplain, List.append_assoc, List.singleton_append, readPlainProperty,
      hother]
    simp only [bind, Except.bind, hnamed]
  · contradiction

theorem readProperty_robust (negated : Bool) (text : List Char) :
    Robust anchor text (readProperty negated text)
      (readProperty negated (disableAnchor anchor text)) := by
  by_cases hcaret : text.head? = some '^'
  · obtain ⟨rest, rfl⟩ := List.head?_eq_some_iff.mp hcaret
    rw [disableAnchor_cons (by decide), readProperty_negated, readProperty_negated]
    exact .cons (by decide) (readPlainProperty_robust _ rest)
  · rw [readProperty_plain hcaret,
      readProperty_plain (head?_disableAnchor_ne hcaret (by decide) (by decide))]
    exact readPlainProperty_robust negated text

end ScopeLexer.Regex
