import ScopeLexer.Proofs.Outcome
import ScopeLexer.Regex.Escape
import ScopeLexer.Regex.Source

/-!
# Reading text whose anchors are switched off

Switching an anchor off replaces its escapes in the text.  A reader is `Robust` when it does not see
the difference as long as no such escape lies in what it takes: then it takes the same from the
changed text, and leaves the changed rest.
-/

namespace ScopeLexer.Regex

open Outcome

variable {anchor c : Char} {text rest : List Char}

/-! ## Escapes of an anchor -/

def escapes (anchor : Char) : List Char → Nat
  | '\\' :: c :: rest => (if c == anchor then 1 else 0) + escapes anchor rest
  | ['\\'] => 0
  | _ :: rest => escapes anchor rest
  | [] => 0

theorem walk {motive : List Char → Prop} (nil : motive []) (lone : motive ['\\'])
    (escape : ∀ c rest, motive rest → motive ('\\' :: c :: rest))
    (plain : ∀ c rest, c ≠ '\\' → motive rest → motive (c :: rest)) (text : List Char) :
    motive text := by
  match text with
  | [] => exact nil
  | [c] =>
      by_cases hc : c = '\\'
      · exact hc ▸ lone
      · exact plain c [] hc nil
  | c :: d :: rest =>
      by_cases hc : c = '\\'
      · exact hc ▸ escape d rest (walk nil lone escape plain rest)
      · exact plain c (d :: rest) hc (walk nil lone escape plain (d :: rest))

@[simp] theorem escapes_nil : escapes anchor [] = 0 := rfl

@[simp] theorem escapes_lone : escapes anchor ['\\'] = 0 := rfl

@[simp] theorem escapes_cons (hc : c ≠ '\\') : escapes anchor (c :: rest) = escapes anchor rest := by
  rw [escapes]
  · simp [hc]
  · simp [hc]

@[simp] theorem escapes_escape :
    escapes anchor ('\\' :: c :: rest) = (if c = anchor then 1 else 0) + escapes anchor rest := by
  simp [escapes]

@[simp] theorem disableAnchor_nil : disableAnchor anchor [] = [] := rfl

@[simp] theorem disableAnchor_lone : disableAnchor anchor ['\\'] = ['\\'] := rfl

@[simp] theorem disableAnchor_cons (hc : c ≠ '\\') :
    disableAnchor anchor (c :: rest) = c :: disableAnchor anchor rest := by
  rw [disableAnchor]
  · simp [hc]
  · simp [hc]

theorem disableAnchor_escape (hc : c ≠ anchor) :
    disableAnchor anchor ('\\' :: c :: rest) = '\\' :: c :: disableAnchor anchor rest := by
  simp [disableAnchor, hc]

theorem disableAnchor_anchor :
    disableAnchor anchor ('\\' :: anchor :: rest) =
      '(' :: '?' :: '!' :: ')' :: disableAnchor anchor rest := by
  simp [disableAnchor, never]

theorem disableAnchor_eq_self (h : escapes anchor text = 0) : disableAnchor anchor text = text := by
  induction text using walk with
  | nil => rfl
  | lone => rfl
  | escape c rest ih =>
      rw [escapes_escape] at h
      split at h
      · omega
      · next hc => rw [disableAnchor_escape hc, ih (by omega)]
  | plain c rest hc ih =>
      rw [escapes_cons hc] at h
      rw [disableAnchor_cons hc, ih h]

theorem length_le_disableAnchor (anchor : Char) (text : List Char) :
    text.length ≤ (disableAnchor anchor text).length := by
  induction text using walk with
  | nil => exact Nat.le_refl _
  | lone => exact Nat.le_refl _
  | escape c rest ih =>
      by_cases hc : c = anchor
      · rw [hc, disableAnchor_anchor]
        simp only [List.length_cons]
        omega
      · rw [disableAnchor_escape hc]
        simp only [List.length_cons]
        omega
  | plain c rest hc ih =>
      rw [disableAnchor_cons hc]
      simp only [List.length_cons]
      omega

theorem disableAnchor_eq_nil : disableAnchor anchor text = [] ↔ text = [] := by
  constructor
  · intro h
    have hlength := length_le_disableAnchor anchor text
    rw [h] at hlength
    exact List.eq_nil_of_length_eq_zero (Nat.le_zero.mp hlength)
  · rintro rfl
    rfl

theorem escapes_disableAnchor {other : Char} (hne : other ≠ anchor) (text : List Char) :
    escapes other (disableAnchor anchor text) = escapes other text := by
  induction text using walk with
  | nil => rfl
  | lone => rfl
  | escape c rest ih =>
      by_cases hc : c = anchor
      · rw [hc, disableAnchor_anchor, escapes_escape, if_neg (Ne.symm hne), Nat.zero_add,
          escapes_cons (by decide), escapes_cons (by decide), escapes_cons (by decide),
          escapes_cons (by decide), ih]
      · rw [disableAnchor_escape hc, escapes_escape, escapes_escape, ih]
  | plain c rest hc ih => rw [disableAnchor_cons hc, escapes_cons hc, escapes_cons hc, ih]

theorem disableAnchor_append {plain : List Char} (h : '\\' ∉ plain) (rest : List Char) :
    disableAnchor anchor (plain ++ rest) = plain ++ disableAnchor anchor rest := by
  induction plain with
  | nil => rfl
  | cons c plain ih =>
      obtain ⟨hc, hplain⟩ := List.ne_and_not_mem_of_not_mem_cons h
      rw [List.cons_append, disableAnchor_cons (Ne.symm hc), ih hplain, List.cons_append]

theorem escapes_append {plain : List Char} (h : '\\' ∉ plain) (rest : List Char) :
    escapes anchor (plain ++ rest) = escapes anchor rest := by
  induction plain with
  | nil => rfl
  | cons c plain ih =>
      obtain ⟨hc, hplain⟩ := List.ne_and_not_mem_of_not_mem_cons h
      rw [List.cons_append, escapes_cons (Ne.symm hc), ih hplain]

theorem head?_disableAnchor {first : Char} (hescape : first ≠ '\\') (hgroup : first ≠ '(')
    (text : List Char) :
    (disableAnchor anchor text).head? = some first ↔ text.head? = some first := by
  cases text using walk with
  | nil => rfl
  | lone => rfl
  | escape c rest _ =>
      by_cases hc : c = anchor
      · rw [hc, disableAnchor_anchor]
        simp [Ne.symm hescape, Ne.symm hgroup]
      · rw [disableAnchor_escape hc]
        rfl
  | plain c rest hc _ =>
      rw [disableAnchor_cons hc]
      rfl

theorem head?_disableAnchor_ne {first : Char} (h : text.head? ≠ some first)
    (hescape : first ≠ '\\') (hgroup : first ≠ '(') :
    (disableAnchor anchor text).head? ≠ some first := by
  rwa [Ne, head?_disableAnchor hescape hgroup]

theorem head?_bind_disableAnchor {α : Type} {told : Char → Option α} (hescape : told '\\' = none)
    (hgroup : told '(' = none) (text : List Char) :
    (disableAnchor anchor text).head?.bind told = text.head?.bind told := by
  cases text using walk with
  | nil => rfl
  | lone => rfl
  | escape c rest _ =>
      by_cases hc : c = anchor
      · rw [hc, disableAnchor_anchor]
        simp [hescape, hgroup]
      · rw [disableAnchor_escape hc]
        rfl
  | plain c rest hc _ =>
      rw [disableAnchor_cons hc]
      rfl

/-! ## Robust readers -/

section

variable {α β : Type}

/-- When a reader takes the text in front of a rest, and no escape of the anchor lies in it, `off` is
the same with the anchor switched off in the rest. -/
def Robust (anchor : Char) (text : List Char) (read off : Except Fault (α × List Char)) : Prop :=
  ∀ value rest, read = .ok (value, rest) → escapes anchor rest ≤ escapes anchor text ∧
    (escapes anchor rest = escapes anchor text → off = .ok (value, disableAnchor anchor rest))

namespace Robust

variable {read off : Except Fault (α × List Char)} {value : α} {fault : Fault}

theorem error : Robust anchor text (.error fault) off :=
  fun _ _ h => nomatch h

theorem failure (h : ∀ value rest, read ≠ .ok (value, rest)) : Robust anchor text read off :=
  fun value rest hread => absurd hread (h value rest)

theorem ok (hrest : escapes anchor rest ≤ escapes anchor text) :
    Robust anchor text (.ok (value, rest)) (.ok (value, disableAnchor anchor rest)) := by
  intro _ _ h
  cases h
  exact ⟨hrest, fun _ => rfl⟩

theorem bind {next : α × List Char → Except Fault (β × List Char)}
    {offNext : α × List Char → Except Fault (β × List Char)} (h : Robust anchor text read off)
    (hnext : ∀ value rest, read = .ok (value, rest) →
      Robust anchor rest (next (value, rest)) (offNext (value, disableAnchor anchor rest))) :
    Robust anchor text (read >>= next) (off >>= offNext) := by
  intro value rest hread
  obtain ⟨⟨first, middle⟩, hfirst, hread⟩ := bind_eq_ok.mp hread
  obtain ⟨hle, hoff⟩ := h first middle hfirst
  obtain ⟨hle', hoffNext⟩ := hnext first middle hfirst value rest hread
  refine ⟨Nat.le_trans hle' hle, fun heq => ?_⟩
  have hmiddle : escapes anchor middle = escapes anchor text := by omega
  rw [hoff hmiddle]
  exact hoffNext (by omega)

theorem bind_pure {change : α → Except Fault β} (h : Robust anchor text read off) :
    Robust anchor text (read >>= fun (value, rest) => do return (← change value, rest))
      (off >>= fun (value, rest) => do return (← change value, rest)) := by
  refine h.bind fun value rest _ => ?_
  dsimp only
  cases change value with
  | error fault => exact error
  | ok changed => exact ok (Nat.le_refl _)

theorem map (change : α → β) (h : Robust anchor text read off) :
    Robust anchor text (read.map fun (value, rest) => (change value, rest))
      (off.map fun (value, rest) => (change value, rest)) := by
  intro value rest hread
  obtain ⟨⟨first, _⟩, hfirst, hchanged⟩ := map_eq_ok.mp hread
  cases hchanged
  obtain ⟨hle, hoff⟩ := h first rest hfirst
  refine ⟨hle, fun heq => ?_⟩
  rw [hoff heq]
  rfl

theorem congr {other : List Char} (heq : escapes anchor text = escapes anchor other)
    (h : Robust anchor text read off) : Robust anchor other read off := by
  intro value rest hread
  rw [← heq]
  exact h value rest hread

theorem cons (hc : c ≠ '\\') (h : Robust anchor rest read off) :
    Robust anchor (c :: rest) read off := by
  intro value remaining hread
  rw [escapes_cons hc]
  exact h value remaining hread

/-- An escape in front.  If it is one of the anchor, it lies in what is taken. -/
theorem escape {taken : Except Fault (α × List Char)} (h : Robust anchor rest read off)
    (hoff : c ≠ anchor → taken = off) : Robust anchor ('\\' :: c :: rest) read taken := by
  intro value remaining hread
  obtain ⟨hle, hsame⟩ := h value remaining hread
  rw [escapes_escape]
  split
  · exact ⟨by omega, fun heq => by omega⟩
  · next hc =>
    rw [Nat.zero_add]
    exact ⟨hle, fun heq => (hoff hc).trans (hsame heq)⟩

end Robust

end

end ScopeLexer.Regex
