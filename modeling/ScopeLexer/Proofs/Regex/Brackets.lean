import ScopeLexer.Proofs.Regex.Escapes
import ScopeLexer.Regex.Bracket

/-!
# Robust readers of brackets

In brackets an anchor is an ordinary letter.  A class without one is read alike when the anchor is
switched off behind it, although its reader looks ahead for the end of bracket names and for a
closing bracket.
-/

namespace ScopeLexer.Regex

open Outcome

variable {anchor c : Char} {text rest : List Char}

theorem ne_of_isAlpha (hanchor : anchor.isAlpha = true) (hc : c.isAlpha = false) : c ≠ anchor := by
  rintro rfl
  exact Bool.false_ne_true (hc.symm.trans hanchor)

/-! ## Looking ahead -/

theorem contains_disableAnchor (hanchor : anchor ≠ ']') (text : List Char) :
    (disableAnchor anchor text).contains ']' = text.contains ']' := by
  induction text using walk with
  | nil => rfl
  | lone => rfl
  | escape c rest ih =>
      by_cases hc : c = anchor
      · rw [hc, disableAnchor_anchor]
        simp only [List.contains_cons, ih]
        simp [beq_eq_false_iff_ne.mpr (Ne.symm hanchor)]
      · rw [disableAnchor_escape hc]
        simp only [List.contains_cons, ih]
  | plain c rest hc ih =>
      rw [disableAnchor_cons hc]
      simp only [List.contains_cons, ih]

theorem hasBracketName_plain (hc : c ≠ '\\') (hclose : c ≠ ']')
    (hname : c = ':' → rest.head? ≠ some ']') :
    hasBracketName (c :: rest) = hasBracketName rest := by
  rw [hasBracketName]
  · rintro following rfl rfl
    simp at hname
  · exact hclose
  · rintro rfl
    contradiction
  · rintro first following rfl
    contradiction

theorem hasBracketName_disableAnchor (text : List Char) :
    hasBracketName (disableAnchor anchor text) = hasBracketName text := by
  induction text using walk with
  | nil => rfl
  | lone => rfl
  | escape c rest ih =>
      by_cases hc : c = anchor
      · rw [hc, disableAnchor_anchor]
        simpa [hasBracketName] using ih
      · rw [disableAnchor_escape hc]
        simpa [hasBracketName] using ih
  | plain c rest hc ih =>
      rw [disableAnchor_cons hc]
      by_cases hclose : c = ']'
      · rw [hclose, hasBracketName, hasBracketName]
      by_cases hname : c = ':' ∧ rest.head? = some ']'
      · obtain ⟨rfl, hname⟩ := hname
        obtain ⟨following, rfl⟩ := List.head?_eq_some_iff.mp hname
        rw [disableAnchor_cons (by decide), hasBracketName, hasBracketName]
      · have hplain : c = ':' → rest.head? ≠ some ']' := fun h hhead => hname ⟨h, hhead⟩
        rw [hasBracketName_plain hc hclose hplain, hasBracketName_plain hc hclose, ih]
        exact fun h => head?_disableAnchor_ne (hplain h) (by decide) (by decide)

/-! ## Bracket names -/

theorem bracketNames_letters :
    CharProperty.bracketNames.all (fun entry =>
      4 ≤ entry.1.toList.length && entry.1.toList.all Char.isAlpha) = true := by
  decide +kernel

theorem dropStart?_eq_some {start : List Char} (h : dropStart? start text = some rest) :
    text = start ++ rest := by
  induction start generalizing text with
  | nil =>
      cases h
      rfl
  | cons a start ih =>
      cases text with
      | nil => simp [dropStart?] at h
      | cons b text =>
          rw [dropStart?] at h
          split at h
          · next heq => rw [beq_iff_eq.mp heq, ih h, List.cons_append]
          · contradiction

theorem dropStart?_disableAnchor {start : List Char} (hstart : start.all Char.isAlpha = true)
    (text : List Char) :
    dropStart? start (disableAnchor anchor text) =
      (dropStart? start text).map (disableAnchor anchor) := by
  induction start generalizing text with
  | nil => rfl
  | cons a start ih =>
      simp only [List.all_cons, Bool.and_eq_true] at hstart
      have hescape : (a == '\\') = false :=
        beq_eq_false_iff_ne.mpr (ne_of_isAlpha hstart.1 (by decide)).symm
      have hgroup : (a == '(') = false :=
        beq_eq_false_iff_ne.mpr (ne_of_isAlpha hstart.1 (by decide)).symm
      cases text using walk with
      | nil => rfl
      | lone => simp [dropStart?, hescape]
      | escape c rest _ =>
          by_cases hc : c = anchor
          · rw [hc, disableAnchor_anchor]
            simp [dropStart?, hescape, hgroup]
          · rw [disableAnchor_escape hc]
            simp [dropStart?, hescape]
      | plain c rest hc _ =>
          rw [disableAnchor_cons hc, dropStart?, dropStart?]
          split
          · exact ih hstart.2 rest
          · rfl

theorem startingName?_disableAnchor (text : List Char) :
    startingName? (disableAnchor anchor text) =
      (startingName? text).map fun (property, rest) => (property, disableAnchor anchor rest) := by
  have hletters := List.all_eq_true.mp bracketNames_letters
  unfold startingName?
  generalize CharProperty.bracketNames = entries at hletters
  induction entries with
  | nil => rfl
  | cons entry entries ih =>
      have hentry := hletters entry List.mem_cons_self
      simp only [Bool.and_eq_true, decide_eq_true_eq] at hentry
      rw [List.findSome?_cons, List.findSome?_cons, dropStart?_disableAnchor hentry.2]
      cases dropStart? entry.1.toList text with
      | none => exact ih fun other hother => hletters other (List.mem_cons_of_mem _ hother)
      | some rest => rfl

theorem startingName?_eq_some {property : CharProperty}
    (h : startingName? text = some (property, rest)) :
    ∃ name : List Char, text = name ++ rest ∧ 4 ≤ name.length ∧ ∀ c ∈ name, c.isAlpha = true := by
  obtain ⟨entry, hentry, hdrop⟩ := List.exists_of_findSome?_eq_some h
  obtain ⟨following, hfollowing, heq⟩ := Option.map_eq_some_iff.mp hdrop
  cases heq
  have hletters := List.all_eq_true.mp bracketNames_letters entry hentry
  simp only [Bool.and_eq_true, decide_eq_true_eq] at hletters
  exact ⟨entry.1.toList, dropStart?_eq_some hfollowing, hletters.1, List.all_eq_true.mp hletters.2⟩

theorem hasBracketName_append {name : List Char} (hname : ∀ c ∈ name, c.isAlpha = true)
    (rest : List Char) : hasBracketName (name ++ rest) = hasBracketName rest := by
  induction name with
  | nil => rfl
  | cons c name ih =>
      have hc := hname c List.mem_cons_self
      rw [List.cons_append, hasBracketName_plain (ne_of_isAlpha hc (by decide)).symm
        (ne_of_isAlpha hc (by decide)).symm fun h => absurd h (ne_of_isAlpha hc (by decide)).symm]
      exact ih fun d hd => hname d (List.mem_cons_of_mem _ hd)

def nameEnd : List Char → Nat × List Char
  | [] => (0, [])
  | c :: rest =>
      if c == ':' || c == ']' then (0, c :: rest) else ((nameEnd rest).1 + 1, (nameEnd rest).2)

theorem nameEnd_cons (hname : c ≠ ':') (hclose : c ≠ ']') :
    nameEnd (c :: rest) = ((nameEnd rest).1 + 1, (nameEnd rest).2) := by
  rw [nameEnd, if_neg]
  simp [hname, hclose]

theorem nameEnd_end (h : c = ':' ∨ c = ']') : nameEnd (c :: rest) = (0, c :: rest) := by
  rw [nameEnd, if_pos]
  simpa using h

theorem nameEnd_eq (text : List Char) :
    ((text.takeWhile fun c => !(c == ':' || c == ']')).length,
      text.drop (text.takeWhile fun c => !(c == ':' || c == ']')).length) = nameEnd text := by
  induction text with
  | nil => rfl
  | cons c rest ih =>
      rw [nameEnd, List.takeWhile_cons]
      cases c == ':' || c == ']' with
      | true => rfl
      | false =>
          rw [← ih]
          rfl

theorem looksLikeName_eq (text : List Char) :
    looksLikeName text = ((nameEnd text).1 ≤ 20 && (nameEnd text).2.take 2 == [':', ']']) := by
  rw [← nameEnd_eq]
  rfl

theorem nameSign_disableAnchor (h : (c :: disableAnchor anchor rest).take 2 = [':', ']']) :
    (c :: rest).take 2 = [':', ']'] := by
  have hhead : (disableAnchor anchor rest).head? = some ']' := by
    cases hrest : disableAnchor anchor rest with
    | nil => simp [hrest] at h
    | cons d following => simp_all
  obtain ⟨following, rfl⟩ :=
    List.head?_eq_some_iff.mp ((head?_disableAnchor (by decide) (by decide) rest).mp hhead)
  simp_all

/-- Text gets longer in front of the end of a name, and no other end appears. -/
theorem nameEnd_disableAnchor (hanchor : anchor.isAlpha = true) (text : List Char) :
    (nameEnd text).1 ≤ (nameEnd (disableAnchor anchor text)).1 ∧
      ((nameEnd (disableAnchor anchor text)).2.take 2 = [':', ']'] →
        (nameEnd text).2.take 2 = [':', ']']) := by
  have hslash : ∀ rest, nameEnd ('\\' :: rest) = ((nameEnd rest).1 + 1, (nameEnd rest).2) :=
    fun _ => rfl
  have hnever : ∀ rest, nameEnd ('(' :: '?' :: '!' :: ')' :: rest) =
      ((nameEnd rest).1 + 4, (nameEnd rest).2) :=
    fun _ => rfl
  induction text using walk with
  | nil => exact ⟨Nat.le_refl _, id⟩
  | lone => exact ⟨Nat.le_refl _, id⟩
  | escape c rest ih =>
      by_cases hc : c = anchor
      · have hname := ne_of_isAlpha hanchor (c := ':') (by decide)
        have hclose := ne_of_isAlpha hanchor (c := ']') (by decide)
        rw [hc, disableAnchor_anchor, hslash, nameEnd_cons (Ne.symm hname) (Ne.symm hclose), hnever]
        exact ⟨by dsimp only; omega, ih.2⟩
      · rw [disableAnchor_escape hc, hslash, hslash]
        by_cases hend : c = ':' ∨ c = ']'
        · rw [nameEnd_end hend, nameEnd_end hend]
          exact ⟨Nat.le_refl _, nameSign_disableAnchor⟩
        · rw [not_or] at hend
          rw [nameEnd_cons hend.1 hend.2, nameEnd_cons hend.1 hend.2]
          exact ⟨by dsimp only; omega, ih.2⟩
  | plain c rest hc ih =>
      rw [disableAnchor_cons hc]
      by_cases hend : c = ':' ∨ c = ']'
      · rw [nameEnd_end hend, nameEnd_end hend]
        exact ⟨Nat.le_refl _, nameSign_disableAnchor⟩
      · rw [not_or] at hend
        rw [nameEnd_cons hend.1 hend.2, nameEnd_cons hend.1 hend.2]
        exact ⟨by dsimp only; omega, ih.2⟩

theorem looksLikeName_disableAnchor (hanchor : anchor.isAlpha = true)
    (h : looksLikeName text = false) : looksLikeName (disableAnchor anchor text) = false := by
  obtain ⟨hlength, hend⟩ := nameEnd_disableAnchor hanchor text
  rw [looksLikeName_eq] at h ⊢
  simp only [Bool.and_eq_false_iff, decide_eq_false_iff_not, beq_eq_false_iff_ne] at h ⊢
  exact h.imp (fun hlong hshort => hlong (Nat.le_trans hlength hshort)) (mt hend)

def readPlainName (negated : Bool) (text : List Char) :
    Except Fault (Option (CharClass × List Char)) :=
  let misread : Except Fault (Option (CharClass × List Char)) :=
    if looksLikeName text then .error .posixName else .ok none
  if text.length < 7 then misread
  else
    match startingName? text with
    | some (property, ':' :: ']' :: rest) =>
        .ok (some (.negateIf negated (.property property), rest))
    | some _ => .error .posixName
    | none => misread

theorem readBracketName_negated (text : List Char) :
    readBracketName ('^' :: text) = readPlainName true text := rfl

theorem readBracketName_plain (h : text.head? ≠ some '^') :
    readBracketName text = readPlainName false text := by
  unfold readBracketName
  split
  next heq =>
  split at heq
  · simp at h
  · cases heq
    rfl

theorem hasBracketName_eq_true (h : hasBracketName text = true) :
    ∃ before behind, text = before ++ ':' :: ']' :: behind := by
  fun_induction hasBracketName text with
  | case1 behind => exact ⟨[], behind, rfl⟩
  | case2 => contradiction
  | case3 => contradiction
  | case4 c rest ih =>
      obtain ⟨before, behind, rfl⟩ := ih h
      exact ⟨'\\' :: c :: before, behind, rfl⟩
  | case5 c rest _ _ _ _ ih =>
      obtain ⟨before, behind, rfl⟩ := ih h
      exact ⟨c :: before, behind, rfl⟩
  | case6 => contradiction

theorem nameEnd_append {name : List Char} (hname : ∀ c ∈ name, c.isAlpha = true)
    (rest : List Char) :
    nameEnd (name ++ rest) = (name.length + (nameEnd rest).1, (nameEnd rest).2) := by
  induction name with
  | nil => rw [List.nil_append, List.length_nil, Nat.zero_add]
  | cons c name ih =>
      have hc := hname c List.mem_cons_self
      rw [List.cons_append, nameEnd_cons (ne_of_isAlpha hc (by decide)).symm
        (ne_of_isAlpha hc (by decide)).symm, ih fun d hd => hname d (List.mem_cons_of_mem _ hd),
        List.length_cons]
      exact Prod.ext (by dsimp only; omega) rfl

theorem startingName?_eq_none (hname : hasBracketName text = true)
    (hlooks : looksLikeName text = false) (hlength : text.length < 7) :
    startingName? text = none := by
  refine Option.eq_none_iff_forall_ne_some.mpr fun found hstart => ?_
  obtain ⟨property, rest⟩ := found
  obtain ⟨name, rfl, hlong, hletters⟩ := startingName?_eq_some hstart
  rw [hasBracketName_append hletters] at hname
  obtain ⟨before, behind, rfl⟩ := hasBracketName_eq_true hname
  simp only [List.length_append, List.length_cons] at hlength
  -- only the end of the name has room behind it
  have hbefore : before = [] := List.eq_nil_of_length_eq_zero (by omega)
  have hlooksLike : looksLikeName (name ++ (before ++ ':' :: ']' :: behind)) = true := by
    rw [looksLikeName_eq, nameEnd_append hletters, hbefore, List.nil_append,
      nameEnd_end (Or.inl rfl)]
    simp only [List.take_succ_cons, List.take_zero, BEq.rfl, Bool.and_true, decide_eq_true_eq]
    omega
  exact Bool.false_ne_true (hlooks.symm.trans hlooksLike)

theorem readPlainName_disableAnchor (hanchor : anchor.isAlpha = true) {negated : Bool}
    {found : Option (CharClass × List Char)} (hname : hasBracketName text = true)
    (h : readPlainName negated text = .ok found) :
    readPlainName negated (disableAnchor anchor text) =
      .ok (found.map fun (inner, rest) => (inner, disableAnchor anchor rest)) := by
  have hmisread : ∀ {found : Option (CharClass × List Char)},
      (if looksLikeName text then .error .posixName else .ok none) =
        (.ok found : Except Fault (Option (CharClass × List Char))) →
      looksLikeName text = false ∧ found = none := by
    intro found h
    split at h
    · contradiction
    · next hlooks =>
      cases h
      exact ⟨Bool.eq_false_iff.mpr hlooks, rfl⟩
  have hmissing : looksLikeName text = false → startingName? text = none →
      readPlainName negated (disableAnchor anchor text) = .ok none := by
    intro hlooks hstart
    have hoff := looksLikeName_disableAnchor hanchor hlooks
    unfold readPlainName
    rw [startingName?_disableAnchor, hstart]
    simp [hoff]
  unfold readPlainName at h
  dsimp only at h
  split at h
  · next hlength =>
    obtain ⟨hlooks, rfl⟩ := hmisread h
    exact hmissing hlooks (startingName?_eq_none hname hlooks hlength)
  · next hlength =>
    have hoffLength : ¬(disableAnchor anchor text).length < 7 :=
      fun hshort => hlength (Nat.lt_of_le_of_lt (length_le_disableAnchor anchor text) hshort)
    split at h
    · next property rest hstart =>
      cases h
      unfold readPlainName
      rw [startingName?_disableAnchor, hstart, if_neg hoffLength]
      simp [disableAnchor_cons]
    · contradiction
    · next hstart =>
      obtain ⟨hlooks, rfl⟩ := hmisread h
      exact hmissing hlooks hstart

theorem escapes_readPlainName {negated : Bool} {inner : CharClass}
    (h : readPlainName negated text = .ok (some (inner, rest))) :
    escapes anchor rest = escapes anchor text := by
  have hmisread : (if looksLikeName text then .error .posixName else .ok none) ≠
      (.ok (some (inner, rest)) : Except Fault (Option (CharClass × List Char))) := by
    split <;> simp
  unfold readPlainName at h
  dsimp only at h
  split at h
  · exact absurd h hmisread
  · split at h
    · next property following hstart =>
      obtain ⟨name, rfl, _, hletters⟩ := startingName?_eq_some hstart
      cases h
      rw [escapes_append fun hmem => absurd (hletters _ hmem) (by decide), escapes_cons (by decide),
        escapes_cons (by decide)]
    · contradiction
    · exact absurd h hmisread

/-! ## Escapes in brackets -/

def soleMember (read : List Char × List Char) : Except Fault (BracketItem × List Char) :=
  match read with
  | ([c], rest) => .ok (.member c.toNat, rest)
  | _ => .error .codePoint

theorem soleMember_robust (read : List Char) (rest : List Char) :
    Robust anchor rest (soleMember (read, rest)) (soleMember (read, disableAnchor anchor rest)) := by
  match read with
  | [c] => exact .ok (Nat.le_refl _)
  | [] | _ :: _ :: _ => exact .error

theorem readBracketEscape_hex :
    readBracketEscape ('x' :: rest) = readHex rest >>= soleMember := rfl

theorem readBracketEscape_octalBraces :
    readBracketEscape ('o' :: rest) = readOctalBraces rest >>= soleMember := rfl

theorem readBracketEscape_unicode :
    readBracketEscape ('u' :: rest) = asMember (readUnicode rest) := rfl

theorem readBracketEscape_property :
    readBracketEscape ('p' :: '{' :: rest) =
      (readProperty false rest).map fun (inner, rest) => (.members inner, rest) := by
  rw [readBracketEscape]
  cases readProperty false rest <;> rfl

theorem readBracketEscape_notProperty :
    readBracketEscape ('P' :: '{' :: rest) =
      (readProperty true rest).map fun (inner, rest) => (.members inner, rest) := by
  rw [readBracketEscape]
  cases readProperty true rest <;> rfl

theorem readBracketEscape_other (hclass : classLetter? c = none) (hx : c ≠ 'x') (ho : c ≠ 'o')
    (hu : c ≠ 'u') (hproperty : c = 'p' ∨ c = 'P' → rest.head? ≠ some '{') :
    readBracketEscape (c :: rest) =
      if (digitValue? 8 c).isSome then asMember (readOctal 3 (c :: rest))
      else (readLetter (rest.length + 2) (c :: rest)).map fun (code, rest) =>
        (.member code, rest) := by
  unfold readBracketEscape
  dsimp only
  rw [hclass]
  dsimp only
  split
  · simp at hproperty
  · simp at hproperty
  · contradiction
  · contradiction
  · contradiction
  · split
    · rfl
    · rw [List.length_cons]
      cases readLetter (rest.length + 1 + 1) (c :: rest) <;> rfl

theorem readBracketEscape_robust (c : Char) (rest : List Char) :
    Robust anchor rest (readBracketEscape (c :: rest))
      (readBracketEscape (c :: disableAnchor anchor rest)) := by
  cases hclass : classLetter? c with
  | some inner =>
      have hread : ∀ rest, readBracketEscape (c :: rest) = .ok (.members inner, rest) := by
        intro rest
        simp only [readBracketEscape, hclass]
      rw [hread, hread]
      exact .ok (Nat.le_refl _)
  | none =>
      by_cases hx : c = 'x'
      · rw [hx, readBracketEscape_hex, readBracketEscape_hex]
        exact (readHex_robust rest).bind fun read rest _ => soleMember_robust read rest
      by_cases ho : c = 'o'
      · rw [ho, readBracketEscape_octalBraces, readBracketEscape_octalBraces]
        exact (readOctalBraces_robust rest).bind fun read rest _ => soleMember_robust read rest
      by_cases hu : c = 'u'
      · rw [hu, readBracketEscape_unicode, readBracketEscape_unicode]
        exact (readUnicode_robust rest).map fun c => BracketItem.member c.toNat
      by_cases hproperty : (c = 'p' ∨ c = 'P') ∧ rest.head? = some '{'
      · obtain ⟨hletter, hbrace⟩ := hproperty
        obtain ⟨following, rfl⟩ := List.head?_eq_some_iff.mp hbrace
        rw [disableAnchor_cons (by decide)]
        refine Robust.cons (by decide) ?_
        rcases hletter with rfl | rfl
        · rw [readBracketEscape_property, readBracketEscape_property]
          exact (readProperty_robust false following).map BracketItem.members
        · rw [readBracketEscape_notProperty, readBracketEscape_notProperty]
          exact (readProperty_robust true following).map BracketItem.members
      · rw [readBracketEscape_other hclass hx ho hu fun h hbrace => hproperty ⟨h, hbrace⟩,
          readBracketEscape_other hclass hx ho hu fun h hbrace => hproperty
            ⟨h, (head?_disableAnchor (by decide) (by decide) rest).mp hbrace⟩]
        split
        · next hdigit =>
          obtain ⟨digit, hdigit⟩ := Option.isSome_iff_exists.mp hdigit
          have hc := ne_backslash_of_digit (by decide) hdigit
          rw [← disableAnchor_cons hc]
          exact ((readOctal_robust 3 (c :: rest)).map fun c => BracketItem.member c.toNat).congr
            (escapes_cons hc)
        · exact (readLetter_robust
            (Nat.add_le_add_right (length_le_disableAnchor anchor rest) 2) c rest).map
              BracketItem.member

/-! ## Items of brackets -/

def readNameItem (text : List Char) : Except Fault (BracketItem × List Char) :=
  readBracketName text >>= fun found =>
    match found with
    | some (inner, rest) => .ok (.members inner, rest)
    | none => .ok (.member '['.toNat, ':' :: text)

theorem readNameItem_robust (hanchor : anchor.isAlpha = true) (hname : hasBracketName text = true) :
    Robust anchor text (readNameItem text) (readNameItem (disableAnchor anchor text)) := by
  -- a sign of negation changes neither the end of the name nor the escapes
  have hplain : ∃ negated plain, readBracketName text = readPlainName negated plain ∧
      readBracketName (disableAnchor anchor text) =
        readPlainName negated (disableAnchor anchor plain) ∧
      hasBracketName plain = true ∧ escapes anchor plain = escapes anchor text := by
    by_cases hcaret : text.head? = some '^'
    · obtain ⟨plain, rfl⟩ := List.head?_eq_some_iff.mp hcaret
      refine ⟨true, plain, rfl, ?_, ?_, (escapes_cons (by decide)).symm⟩
      · rw [disableAnchor_cons (by decide), readBracketName_negated]
      · rwa [hasBracketName_plain (by decide) (by decide) fun h => absurd h (by decide)] at hname
    · have hoff : (disableAnchor anchor text).head? ≠ some '^' :=
        head?_disableAnchor_ne hcaret (by decide) (by decide)
      exact ⟨false, text, readBracketName_plain hcaret, readBracketName_plain hoff, hname, rfl⟩
  obtain ⟨negated, plain, hread, hoffRead, hname, hescapes⟩ := hplain
  unfold readNameItem
  rw [hread, hoffRead]
  cases hfound : readPlainName negated plain with
  | error fault => exact .error
  | ok found =>
      rw [readPlainName_disableAnchor hanchor hname hfound]
      cases found with
      | none =>
          simp only [bind, Except.bind, Option.map_none]
          rw [← disableAnchor_cons (by decide)]
          exact .ok (Nat.le_of_eq (escapes_cons (by decide)))
      | some found =>
          simp only [bind, Except.bind, Option.map_some]
          exact .ok (Nat.le_of_eq ((escapes_readPlainName hfound).trans hescapes))

section

-- The equations of the reader, made once for all lemmas on single items.
attribute [local simp] readBracketItem

theorem readBracketItem_name :
    readBracketItem ('[' :: ':' :: rest) =
      if hasBracketName rest then readNameItem rest else .ok (.opening, ':' :: rest) := by
  rw [readBracketItem, readNameItem]
  split
  · cases readBracketName rest with
    | error fault => rfl
    | ok found => cases found <;> rfl
  · rfl

theorem readBracketItem_opening (h : rest.head? ≠ some ':') :
    readBracketItem ('[' :: rest) = .ok (.opening, rest) := by
  rw [readBracketItem]
  rintro following rfl
  simp at h

theorem readBracketItem_ampersand (h : rest.head? ≠ some '&') :
    readBracketItem ('&' :: rest) = .ok (.member '&'.toNat, rest) := by
  cases rest with
  | nil => rfl
  | cons c rest =>
      rw [readBracketItem]
      all_goals simp_all

theorem readBracketItem_plain (hescape : c ≠ '\\') (hclose : c ≠ ']') (hhyphen : c ≠ '-')
    (hboth : c ≠ '&') (hopening : c ≠ '[') :
    readBracketItem (c :: rest) = .ok (.member c.toNat, rest) := by
  rw [readBracketItem]
  all_goals simp_all

end

theorem readBracketItem_robust (hanchor : anchor.isAlpha = true) (text : List Char) :
    Robust anchor text (readBracketItem text) (readBracketItem (disableAnchor anchor text)) := by
  cases text using walk with
  | nil => exact .ok (Nat.le_refl _)
  | lone => exact .error
  | escape c rest _ =>
      refine Robust.escape (readBracketEscape_robust c rest) fun hne => ?_
      rw [disableAnchor_escape hne]
      rfl
  | plain c rest hc _ =>
      rw [disableAnchor_cons hc]
      refine Robust.cons hc ?_
      by_cases hclose : c = ']'
      · rw [hclose]
        exact .ok (Nat.le_refl _)
      by_cases hhyphen : c = '-'
      · rw [hhyphen]
        exact .ok (Nat.le_refl _)
      by_cases hboth : c = '&'
      · subst hboth
        by_cases hrest : rest.head? = some '&'
        · obtain ⟨following, rfl⟩ := List.head?_eq_some_iff.mp hrest
          rw [disableAnchor_cons (by decide)]
          exact .cons (by decide) (.ok (Nat.le_refl _))
        · rw [readBracketItem_ampersand hrest,
            readBracketItem_ampersand (head?_disableAnchor_ne hrest (by decide) (by decide))]
          exact .ok (Nat.le_refl _)
      by_cases hopening : c = '['
      · subst hopening
        by_cases hrest : rest.head? = some ':'
        · obtain ⟨following, rfl⟩ := List.head?_eq_some_iff.mp hrest
          rw [disableAnchor_cons (by decide), readBracketItem_name, readBracketItem_name,
            hasBracketName_disableAnchor]
          split
          · next hname => exact .cons (by decide) (readNameItem_robust hanchor hname)
          · rw [← disableAnchor_cons (by decide)]
            exact .ok (Nat.le_refl _)
        · rw [readBracketItem_opening hrest,
            readBracketItem_opening (head?_disableAnchor_ne hrest (by decide) (by decide))]
          exact .ok (Nat.le_refl _)
      · rw [readBracketItem_plain hc hclose hhyphen hboth hopening,
          readBracketItem_plain hc hclose hhyphen hboth hopening]
        exact .ok (Nat.le_refl _)

/-! ## Classes -/

namespace readBracket

def afterItem (fuel : Nat) (gathered : Gathered) (item : BracketItem) (rest : List Char) :
    Except Fault (CharClass × List Char) :=
  match item with
  | .finish => .error .unclosedClass
  | .close => .ok (gathered.result, rest)
  | .member code => gathered.takeCode code >>= fun gathered => members fuel gathered rest
  | .members inner => gathered.takeMembers inner >>= fun gathered => members fuel gathered rest
  | .both => members fuel gathered.intersect rest
  | .opening =>
      readBracket fuel rest >>= fun ((negated, inner), rest) =>
        members fuel (gathered.takeNested (.negateIf negated inner)) rest
  | .hyphen =>
      match gathered.state with
      | .range _ => gathered.takeCode '-'.toNat >>= fun gathered => members fuel gathered rest
      | _ => readBracketItem rest >>= fun (next, _) =>
          gathered.takeHyphen next >>= fun gathered => members fuel gathered rest

theorem members_succ (fuel : Nat) (gathered : Gathered) (text : List Char) :
    members (fuel + 1) gathered text =
      readBracketItem text >>= fun (item, rest) => afterItem fuel gathered item rest := by
  rw [members]
  cases readBracketItem text with
  | error fault => rfl
  | ok read =>
      obtain ⟨item, rest⟩ := read
      cases item <;> rfl

def plain (fuel : Nat) (text : List Char) : Except Fault (CharClass × List Char) :=
  match text with
  | ']' :: rest =>
      if rest.contains ']' then members fuel { state := .value ']'.toNat } rest
      else .error .emptyClass
  | _ => members fuel {} text

theorem plain_close (fuel : Nat) :
    plain fuel (']' :: rest) =
      if rest.contains ']' then members fuel { state := .value ']'.toNat } rest
      else .error .emptyClass := rfl

theorem plain_members {fuel : Nat} (h : text.head? ≠ some ']') :
    plain fuel text = members fuel {} text := by
  unfold plain
  split
  · simp at h
  · rfl

theorem succ_of_sign (fuel : Nat) {negated : Bool}
    (h : (match text with
      | '^' :: rest => (true, rest)
      | _ => (false, text)) = (negated, rest)) :
    readBracket (fuel + 1) text =
      (plain fuel rest).map fun (inner, rest) => ((negated, inner), rest) := by
  unfold readBracket
  split
  next heq =>
  cases heq.symm.trans h
  split
  · next following =>
    rw [plain_close]
    split
    · cases members fuel { state := .value ']'.toNat } following <;> rfl
    · rfl
  · next hclose =>
    rw [plain_members]
    · cases members fuel {} rest <;> rfl
    · intro hhead
      obtain ⟨following, rfl⟩ := List.head?_eq_some_iff.mp hhead
      exact hclose following rfl

theorem succ_negated (fuel : Nat) (text : List Char) :
    readBracket (fuel + 1) ('^' :: text) =
      (plain fuel text).map fun (inner, rest) => ((true, inner), rest) :=
  succ_of_sign fuel rfl

theorem succ_plain (fuel : Nat) (h : text.head? ≠ some '^') :
    readBracket (fuel + 1) text =
      (plain fuel text).map fun (inner, rest) => ((false, inner), rest) := by
  refine succ_of_sign fuel ?_
  split
  · simp at h
  · rfl

/-- The readers of a class and of its members are robust, and the members begin with the item that
a look ahead finds. -/
structure Robustly (anchor : Char) (fuel other : Nat) : Prop where
  class_ (text : List Char) :
    Robust anchor text (readBracket fuel text) (readBracket other (disableAnchor anchor text))
  members (gathered : Gathered) (text : List Char) :
    Robust anchor text (members fuel gathered text)
      (members other gathered (disableAnchor anchor text))
  first {gathered : Gathered} {text behind rest : List Char} {item : BracketItem}
    {inner : CharClass} :
    readBracketItem text = .ok (item, behind) →
    readBracket.members fuel gathered text = .ok (inner, rest) →
      escapes anchor rest ≤ escapes anchor behind

variable {fuel other : Nat}

theorem Robustly.afterItem (hanchor : anchor.isAlpha = true) (h : Robustly anchor fuel other)
    (gathered : Gathered) (item : BracketItem) (rest : List Char) :
    Robust anchor rest (afterItem fuel gathered item rest)
      (afterItem other gathered item (disableAnchor anchor rest)) := by
  have htaken : ∀ taken : Except Fault Gathered,
      Robust anchor rest (taken >>= fun gathered => readBracket.members fuel gathered rest)
        (taken >>= fun gathered =>
          readBracket.members other gathered (disableAnchor anchor rest)) := by
    rintro (fault | gathered)
    · exact .error
    · exact h.members gathered rest
  cases item with
  | finish => exact .error
  | close => exact .ok (Nat.le_refl _)
  | member code => exact htaken _
  | members inner => exact htaken _
  | both => exact h.members _ rest
  | opening => exact (h.class_ rest).bind fun _ rest _ => h.members _ rest
  | hyphen =>
      have hpeek : Robust anchor rest
          (readBracketItem rest >>= fun (next, _) => gathered.takeHyphen next >>= fun gathered =>
            readBracket.members fuel gathered rest)
          (readBracketItem (disableAnchor anchor rest) >>= fun (next, _) =>
            gathered.takeHyphen next >>= fun gathered =>
              readBracket.members other gathered (disableAnchor anchor rest)) := by
        intro inner final hread
        obtain ⟨⟨next, behind⟩, hnext, hread⟩ := bind_eq_ok.mp hread
        obtain ⟨taken, htaken, hread⟩ := bind_eq_ok.mp hread
        obtain ⟨hle, hoff⟩ := h.members taken rest inner final hread
        obtain ⟨hbehind, hnextOff⟩ := readBracketItem_robust hanchor rest next behind hnext
        have hfirst := h.first hnext hread
        refine ⟨hle, fun heq => ?_⟩
        rw [hnextOff (by omega)]
        exact bind_eq_ok.mpr ⟨_, rfl, bind_eq_ok.mpr ⟨taken, htaken, hoff heq⟩⟩
      unfold readBracket.afterItem
      dsimp only
      split
      · exact htaken _
      · exact hpeek

theorem robustly (hanchor : anchor.isAlpha = true) (hfuel : fuel ≤ other) :
    Robustly anchor fuel other := by
  induction fuel generalizing other with
  | zero =>
      exact ⟨fun _ => .error, fun _ _ => .error, fun _ hread => nomatch hread⟩
  | succ fuel ih =>
      obtain ⟨other, rfl⟩ := Nat.exists_eq_add_one_of_ne_zero (Nat.ne_zero_of_lt hfuel)
      have hless := ih (Nat.le_of_succ_le_succ hfuel)
      have hplain : ∀ text, Robust anchor text (plain fuel text)
          (plain other (disableAnchor anchor text)) := by
        intro text
        by_cases hclose : text.head? = some ']'
        · obtain ⟨rest, rfl⟩ := List.head?_eq_some_iff.mp hclose
          rw [disableAnchor_cons (by decide), plain_close, plain_close,
            contains_disableAnchor (ne_of_isAlpha hanchor (by decide)).symm]
          split
          · exact (hless.members _ rest).cons (by decide)
          · exact .error
        · rw [plain_members hclose,
            plain_members (head?_disableAnchor_ne hclose (by decide) (by decide))]
          exact hless.members _ text
      refine ⟨fun text => ?_, fun gathered text => ?_, fun {gathered text} behind rest item inner
        hitem hread => ?_⟩
      · by_cases hcaret : text.head? = some '^'
        · obtain ⟨rest, rfl⟩ := List.head?_eq_some_iff.mp hcaret
          rw [disableAnchor_cons (by decide), succ_negated, succ_negated]
          exact ((hplain rest).map (Prod.mk true)).cons (by decide)
        · rw [succ_plain fuel hcaret,
            succ_plain other (head?_disableAnchor_ne hcaret (by decide) (by decide))]
          exact (hplain text).map (Prod.mk false)
      · rw [members_succ, members_succ]
        exact (readBracketItem_robust hanchor text).bind fun item rest _ =>
          hless.afterItem hanchor gathered item rest
      · rw [members_succ, hitem] at hread
        exact (hless.afterItem hanchor gathered item behind inner rest hread).1

end readBracket

theorem readBracket_robust (hanchor : anchor.isAlpha = true) {fuel other : Nat}
    (hfuel : fuel ≤ other) (text : List Char) :
    Robust anchor text (readBracket fuel text) (readBracket other (disableAnchor anchor text)) :=
  (readBracket.robustly hanchor hfuel).class_ text

end ScopeLexer.Regex
