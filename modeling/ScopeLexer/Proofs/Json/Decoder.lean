import Mathlib.Tactic.SplitIfs
import ScopeLexer.Json.Decoder
import ScopeLexer.Proofs.Outcome

/-!
# What is decoded from JSON

A property of all that a decoder yields carries over to the optional values, the lists, the tables
and the records that are read with it.
-/

namespace ScopeLexer.Json

open Outcome

variable {α β ρ : Type} {inner : Decoder α} {good : α → Prop} {field : RecordField ρ}
  {fields : List (RecordField ρ)} {filled : ρ → Prop} {initial : ρ} {depth fuel : Nat}
  {bytes rest : List UInt8}

def Yields (decoder : Decoder α) (good : α → Prop) : Prop :=
  ∀ ⦃depth bytes value rest⦄, decoder depth bytes = .ok (value, rest) → good value

theorem yields_any (decoder : Decoder α) : Yields decoder fun _ => True :=
  fun _ _ _ _ _ => True.intro

theorem Yields.imp {better : α → Prop} (h : Yields inner good)
    (himp : ∀ value, good value → better value) : Yields inner better :=
  fun _ _ value _ hread => himp value (h hread)

theorem wrongType_ne_ok {expected : String} {result : α} :
    wrongType expected bytes ≠ .ok result := by
  unfold wrongType
  extract_lets fault
  have hfault (found : Found) : fault found ≠ .ok result := nofun
  split
  · exact throw_ne_ok
  · intro h
    split_ifs at h <;>
      simp only [bind_eq_ok, hfault, and_false, exists_false] at h

theorem Yields.nullable (h : Yields inner good) :
    Yields (nullable inner) fun value? => ∀ value ∈ value?, good value := by
  intro depth bytes result rest hread
  unfold Json.nullable at hread
  split at hread
  · split at hread
    · obtain ⟨more, -, heq⟩ := bind_eq_ok.mp hread
      cases heq
      simp
    · obtain ⟨⟨value, more⟩, hinner, heq⟩ := bind_eq_ok.mp hread
      cases heq
      simpa using h hinner
  · obtain ⟨⟨value, more⟩, hinner, heq⟩ := bind_eq_ok.mp hread
    cases heq
    simpa using h hinner

theorem elements_yield (h : Yields inner good) {isFirst : Bool} {values : List α}
    (hread : elements inner depth fuel isFirst bytes = .ok (values, rest)) :
    ∀ value ∈ values, good value := by
  induction fuel generalizing isFirst bytes values rest with
  | zero => contradiction
  | succ fuel ih =>
      rw [elements, bind_eq_ok] at hread
      obtain ⟨next, -, hread⟩ := hread
      cases next with
      | none =>
          cases hread
          exact List.forall_mem_nil _
      | some bytes =>
          obtain ⟨⟨value, more⟩, hvalue, hread⟩ := bind_eq_ok.mp hread
          obtain ⟨⟨others, more'⟩, hothers, hread⟩ := bind_eq_ok.mp hread
          cases hread
          exact List.forall_mem_cons.mpr ⟨h hvalue, ih hothers⟩

theorem Yields.list (h : Yields inner good) :
    Yields (list inner) fun values => ∀ value ∈ values, good value := by
  intro depth bytes result rest hread
  unfold Json.list at hread
  split at hread
  · contradiction
  · split at hread
    · obtain ⟨within, -, hread⟩ := bind_eq_ok.mp hread
      obtain ⟨⟨values, more⟩, hvalues, hread⟩ := bind_eq_ok.mp hread
      obtain ⟨last, -, heq⟩ := bind_eq_ok.mp hread
      cases heq
      exact elements_yield h hvalues
    · exact absurd hread wrongType_ne_ok

theorem entries_yield (h : Yields inner good) {isFirst : Bool} {entries : List (String × α)}
    (hread : Json.entries inner depth fuel isFirst bytes = .ok (entries, rest)) :
    ∀ entry ∈ entries, good entry.2 := by
  induction fuel generalizing isFirst bytes entries rest with
  | zero => contradiction
  | succ fuel ih =>
      rw [Json.entries, bind_eq_ok] at hread
      obtain ⟨next, -, hread⟩ := hread
      cases next with
      | none =>
          cases hread
          exact List.forall_mem_nil _
      | some next =>
          obtain ⟨more, -, hread⟩ := bind_eq_ok.mp hread
          obtain ⟨⟨value, more⟩, hvalue, hread⟩ := bind_eq_ok.mp hread
          obtain ⟨⟨others, more'⟩, hothers, hread⟩ := bind_eq_ok.mp hread
          cases hread
          exact List.forall_mem_cons.mpr ⟨h hvalue, ih hothers⟩

theorem Yields.table (h : Yields inner good) :
    Yields (table inner) fun entries => ∀ entry ∈ entries, good entry.2 := by
  intro depth bytes result rest hread
  unfold Json.table at hread
  split at hread
  · contradiction
  · split at hread
    · obtain ⟨within, -, hread⟩ := bind_eq_ok.mp hread
      obtain ⟨⟨values, more⟩, hvalues, hread⟩ := bind_eq_ok.mp hread
      obtain ⟨last, -, heq⟩ := bind_eq_ok.mp hread
      cases heq
      exact entries_yield h hvalues
    · exact absurd hread wrongType_ne_ok

/-! ## Records -/

def RecordField.Keeps (field : RecordField ρ) (filled : ρ → Prop) : Prop :=
  ∀ record, filled record → Yields (field.read record) filled

theorem RecordField.Keeps.of {key : String} {store : ρ → α → ρ} {required : Bool}
    (h : Yields inner good)
    (hstore : ∀ record value, filled record → good value → filled (store record value)) :
    (RecordField.of key inner store required).Keeps filled := by
  intro record hrecord depth bytes result rest hread
  obtain ⟨⟨value, more⟩, hvalue, heq⟩ := bind_eq_ok.mp hread
  cases heq
  exact hstore record value hrecord (h hvalue)

theorem recordEntries_yield (hfields : ∀ field ∈ fields, field.Keeps filled)
    {seen seen' : List String} {isFirst : Bool} {record result : ρ} (hrecord : filled record)
    (hread : recordEntries fields depth fuel seen isFirst record bytes =
      .ok ((seen', result), rest)) : filled result := by
  induction fuel generalizing seen isFirst record bytes with
  | zero => contradiction
  | succ fuel ih =>
      rw [recordEntries, bind_eq_ok] at hread
      obtain ⟨next, -, hread⟩ := hread
      cases next with
      | none =>
          cases hread
          exact hrecord
      | some next =>
          obtain ⟨key, more⟩ := next
          simp only at hread
          split at hread
          · next field hfield =>
            split at hread
            · obtain ⟨_, hthrow, -⟩ := bind_eq_ok.mp hread
              exact absurd hthrow throw_ne_ok
            obtain ⟨more, -, hread⟩ := bind_eq_ok.mp hread
            obtain ⟨⟨next, more⟩, hnext, hread⟩ := bind_eq_ok.mp hread
            exact ih (hfields field (List.mem_of_find?_eq_some hfield) record hrecord hnext) hread
          · obtain ⟨more, -, hread⟩ := bind_eq_ok.mp hread
            obtain ⟨more, -, hread⟩ := bind_eq_ok.mp hread
            exact ih hrecord hread

theorem recordElements_yield (hfields : ∀ field ∈ fields, field.Keeps filled) {expected : String}
    {index : Nat} {record result : ρ} (hrecord : filled record)
    (hread : recordElements expected depth fields index record bytes = .ok (result, rest)) :
    filled result := by
  induction fields generalizing index record bytes with
  | nil =>
      cases hread
      exact hrecord
  | cons field fields ih =>
      obtain ⟨hfield, hfields⟩ := List.forall_mem_cons.mp hfields
      rw [recordElements, bind_eq_ok] at hread
      obtain ⟨next, -, hread⟩ := hread
      cases next with
      | none =>
          simp only at hread
          split at hread
          · contradiction
          · cases hread
            exact hrecord
      | some bytes =>
          obtain ⟨⟨next, more⟩, hnext, hread⟩ := bind_eq_ok.mp hread
          exact ih hfields (hfield record hrecord hnext) hread

theorem yields_record {name : String} (hfields : ∀ field ∈ fields, field.Keeps filled)
    (hinitial : filled initial) : Yields (record name fields initial) filled := by
  intro depth bytes result rest hread
  unfold record at hread
  split at hread
  · contradiction
  · split at hread
    · obtain ⟨within, -, hread⟩ := bind_eq_ok.mp hread
      obtain ⟨⟨values, more⟩, hvalues, hread⟩ := bind_eq_ok.mp hread
      obtain ⟨last, -, heq⟩ := bind_eq_ok.mp hread
      cases heq
      exact recordElements_yield hfields hinitial hvalues
    · split at hread
      · obtain ⟨within, -, hread⟩ := bind_eq_ok.mp hread
        obtain ⟨⟨⟨seen, values⟩, more⟩, hvalues, hread⟩ := bind_eq_ok.mp hread
        simp only at hread
        split at hread
        · contradiction
        · obtain ⟨last, -, heq⟩ := bind_eq_ok.mp hread
          cases heq
          exact recordEntries_yield hfields hinitial hvalues
      · exact absurd hread wrongType_ne_ok

theorem Yields.of_decode (h : Yields inner good) {value : α}
    (hread : decode inner bytes = .ok value) : good value := by
  obtain ⟨⟨found, more⟩, hfound, hread⟩ := bind_eq_ok.mp hread
  simp only at hread
  split at hread
  · cases hread
    exact h hfound
  · contradiction

end ScopeLexer.Json
