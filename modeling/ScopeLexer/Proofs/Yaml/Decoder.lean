import ScopeLexer.Proofs.Outcome
import ScopeLexer.Yaml.Decoder

/-!
# What is decoded from YAML

A property of all that a decoder yields carries over to the optional values, the lists, the tables
and the records that are read with it.
-/

namespace ScopeLexer.Yaml

open Outcome

variable {α β ρ : Type} {inner : Decoder α} {good : α → Prop} {fields : List (RecordField ρ)}
  {filled : ρ → Prop} {initial : ρ} {depth : Nat} {location : Location}

/-! ## Computations within a document -/

def Gives (decoding : Decoding α) (good : α → Prop) : Prop :=
  ∀ ⦃document left value left'⦄, decoding document left = .ok (value, left') → good value

namespace Gives

variable {decoding first second : Decoding α} {next : α → Decoding β} {goodNext : β → Prop}

theorem any (decoding : Decoding α) : Gives decoding fun _ => True :=
  fun _ _ _ _ _ => True.intro

theorem pure {value : α} (h : good value) : Gives (pure value) good := by
  intro document left result left' hread
  cases hread
  exact h

theorem refuse (location : Location) (mismatch : Mismatch) :
    Gives (refuse location mismatch : Decoding α) good :=
  nofun

theorem bind (h : Gives decoding good) (hnext : ∀ value, good value → Gives (next value) goodNext) :
    Gives (decoding >>= next) goodNext := by
  intro document left result left' hread
  obtain ⟨⟨value, more⟩, hvalue, hread⟩ := bind_eq_ok.mp hread
  exact hnext value (h hvalue) hread

theorem skip (hnext : ∀ value, Gives (next value) goodNext) : Gives (decoding >>= next) goodNext :=
  (any decoding).bind fun value _ => hnext value

theorem ite {condition : Prop} [Decidable condition] (hfirst : Gives first good)
    (hsecond : Gives second good) : Gives (if condition then first else second) good := by
  split
  · exact hfirst
  · exact hsecond

end Gives

/-! ## Decoders -/

def Yields (decoder : Decoder α) (good : α → Prop) : Prop :=
  ∀ depth location node, Gives (decoder depth location node) good

theorem yields_any (decoder : Decoder α) : Yields decoder fun _ => True :=
  fun _ _ _ => .any _

theorem Yields.imp {better : α → Prop} (h : Yields inner good)
    (himp : ∀ value, good value → better value) : Yields inner better :=
  fun depth location node _ _ value _ hread => himp value (h depth location node hread)

theorem Yields.nullable (h : Yields inner good) :
    Yields (nullable inner) fun value? => ∀ value ∈ value?, good value := by
  intro depth location node
  have hsome (node : Node) : Gives (do return some (← inner depth location node))
      fun value? => ∀ value ∈ value?, good value :=
    (h depth location node).bind fun value hvalue => .pure (by simpa using hvalue)
  have hnone : Gives (α := Option α) (pure none) fun value? => ∀ value ∈ value?, good value :=
    .pure (by simp)
  refine .skip fun node => ?_
  split
  · exact .ite hnone (hsome _)
  · exact .ite (hsome _) (.ite hnone (.refuse _ _))
  · exact hsome _

theorem items_give (h : Yields inner good) (index : Nat) (nodes : List Node) :
    Gives (items inner depth location index nodes) fun values => ∀ value ∈ values, good value := by
  induction nodes generalizing index with
  | nil => exact .pure (List.forall_mem_nil _)
  | cons node nodes ih =>
      exact (h _ _ node).bind fun value hvalue => (ih (index + 1)).bind fun values hvalues =>
        .pure (List.forall_mem_cons.mpr ⟨hvalue, hvalues⟩)

theorem Yields.list (h : Yields inner good) :
    Yields (list inner) fun values => ∀ value ∈ values, good value := by
  intro depth location node
  refine .skip fun node => ?_
  split
  · exact .skip fun depth => items_give h 0 _
  · exact .pure (List.forall_mem_nil _)
  · exact .refuse _ _

theorem entries_give (h : Yields inner good) (nodes : List (Node × Node)) :
    Gives (entries inner depth location nodes) fun entries => ∀ entry ∈ entries, good entry.2 := by
  induction nodes with
  | nil => exact .pure (List.forall_mem_nil _)
  | cons node nodes ih =>
      exact .skip fun key => (h _ _ node.2).bind fun value hvalue => ih.bind fun entries hentries =>
        .pure (List.forall_mem_cons.mpr ⟨hvalue, hentries⟩)

theorem Yields.table (h : Yields inner good) :
    Yields (table inner) fun entries => ∀ entry ∈ entries, good entry.2 := by
  intro depth location node
  refine .skip fun node => ?_
  split
  · exact .skip fun depth => entries_give h _
  · exact .pure (List.forall_mem_nil _)
  · exact .refuse _ _

/-! ## Records -/

def RecordField.Keeps (field : RecordField ρ) (filled : ρ → Prop) : Prop :=
  ∀ record, filled record → Yields (field.read record) filled

theorem RecordField.Keeps.of {key : String} {store : ρ → α → ρ} {required : Bool}
    (h : Yields inner good)
    (hstore : ∀ record value, filled record → good value → filled (store record value)) :
    (RecordField.of key inner store required).Keeps filled :=
  fun record hrecord depth location node =>
    (h depth location node).bind fun value hvalue => .pure (hstore record value hrecord hvalue)

theorem recordEntries_give (hfields : ∀ field ∈ fields, field.Keeps filled) {seen : List String}
    {record : ρ} (hrecord : filled record) (nodes : List (Node × Node)) :
    Gives (recordEntries fields depth location seen record nodes) filled := by
  induction nodes generalizing seen record with
  | nil =>
      rw [recordEntries]
      split
      · exact .refuse _ _
      · exact .pure hrecord
  | cons node nodes ih =>
      rw [recordEntries]
      refine .skip fun key => ?_
      split
      · exact ih hrecord
      · next field hfield =>
        have hkeeps := hfields field (List.mem_of_find?_eq_some hfield) record hrecord
        have hrest : Gives (do
            let record ← field.read record depth (location.key key) node.2
            recordEntries fields depth location (key :: seen) record nodes) filled :=
          (hkeeps depth _ node.2).bind fun record hrecord => ih hrecord
        exact .ite (.skip fun _ => hrest) hrest

theorem yields_record {name : String} (hfields : ∀ field ∈ fields, field.Keeps filled)
    (hinitial : filled initial) : Yields (record name fields initial) filled := by
  intro depth location node
  refine .skip fun node => ?_
  split
  · exact .skip fun depth => recordEntries_give hfields hinitial _
  · exact recordEntries_give hfields hinitial []
  · exact .refuse _ _

theorem Yields.of_decode (h : Yields inner good) {bytes : List UInt8} {value : α}
    (hread : decode inner bytes = .ok value) : good value := by
  obtain ⟨document, -, hread⟩ := bind_eq_ok.mp hread
  obtain ⟨⟨found, left⟩, hfound, hread⟩ := bind_eq_ok.mp hread
  cases hread
  exact h _ _ _ hfound

end ScopeLexer.Yaml
