/-!
# Outcomes of sequences

A sequence of computations succeeds exactly when each of them does, and fails with the first that
fails.  Two sequences whose parts have related outcomes have related outcomes themselves.
-/

namespace ScopeLexer.Outcome

variable {ε α β : Type}

@[simp] theorem bind_eq_ok {first : Except ε α} {next : α → Except ε β} {result : β} :
    first >>= next = .ok result ↔ ∃ value, first = .ok value ∧ next value = .ok result := by
  cases first <;> simp [bind, Except.bind]

@[simp] theorem bind_eq_error {first : Except ε α} {next : α → Except ε β} {fault : ε} :
    first >>= next = .error fault ↔
      first = .error fault ∨ ∃ value, first = .ok value ∧ next value = .error fault := by
  cases first <;> simp [bind, Except.bind]

@[simp] theorem map_eq_ok {first : Except ε α} {change : α → β} {result : β} :
    first.map change = .ok result ↔ ∃ value, first = .ok value ∧ change value = result := by
  cases first <;> simp [Except.map]

@[simp] theorem map_eq_error {first : Except ε α} {change : α → β} {fault : ε} :
    first.map change = .error fault ↔ first = .error fault := by
  cases first <;> simp [Except.map]

@[simp] theorem mapError_eq_ok {δ : Type} {first : Except ε α} {change : ε → δ} {result : α} :
    first.mapError change = .ok result ↔ first = .ok result := by
  cases first with
  | error fault => exact iff_of_false nofun nofun
  | ok value =>
      constructor
      · intro h
        cases h
        rfl
      · intro h
        cases h
        rfl

@[simp] theorem pure_eq_ok {value result : α} :
    (pure value : Except ε α) = .ok result ↔ value = result := by
  simp [pure, Except.pure]

@[simp] theorem pure_ne_error {value : α} {fault : ε} :
    (pure value : Except ε α) ≠ .error fault := by
  simp [pure, Except.pure]

@[simp] theorem throw_ne_ok {fault : ε} {result : α} :
    (throw fault : Except ε α) ≠ .ok result := by
  simp [throw, throwThe, MonadExceptOf.throw]

@[simp] theorem throw_eq_error {fault other : ε} :
    (throw fault : Except ε α) = .error other ↔ fault = other := by
  simp [throw, throwThe, MonadExceptOf.throw]

/-! ## Success -/

def Succeeds (outcome : Except ε α) : Prop := ∃ result, outcome = .ok result

@[simp] theorem succeeds_pure {value : α} : Succeeds (pure value : Except ε α) := by
  simp [Succeeds]

@[simp] theorem not_succeeds_throw {fault : ε} : ¬Succeeds (throw fault : Except ε α) := by
  simp [Succeeds]

/-- A sequence succeeds when both parts do, whatever the first hands to the second. -/
theorem succeeds_bind {first : Except ε α} {next : α → Except ε β} {P Q : Prop}
    (hfirst : Succeeds first ↔ P) (hnext : ∀ value, Succeeds (next value) ↔ Q) :
    Succeeds (first >>= next) ↔ P ∧ Q := by
  rw [← hfirst]
  cases first with
  | error fault => simp [Succeeds]
  | ok value => simpa [Succeeds] using hnext value

theorem succeeds_bind_last {first : Except ε α} {next : α → Except ε β} {P : Prop}
    (hfirst : Succeeds first ↔ P) (hnext : ∀ value, Succeeds (next value)) :
    Succeeds (first >>= next) ↔ P := by
  simpa using succeeds_bind hfirst fun value => iff_true_intro (hnext value)

theorem succeeds_guard {condition P : Prop} [Decidable condition] {fault : ε} {next : Except ε α}
    (hnext : Succeeds next ↔ P) :
    Succeeds (if condition then throw fault else next) ↔ ¬condition ∧ P := by
  split <;> simp [*]

/-! ## Two computations -/

inductive Related (related : α → β → Prop) : Except ε α → Except ε β → Prop where
  | failed (fault : ε) : Related related (.error fault) (.error fault)
  | succeeded {result : α} {other : β} (h : related result other) :
      Related related (.ok result) (.ok other)

namespace Related

variable {γ δ : Type} {related : α → β → Prop} {relatedNext : γ → δ → Prop}
  {first : Except ε α} {second : Except ε β}

theorem bind {next : α → Except ε γ} {otherNext : β → Except ε δ} (h : Related related first second)
    (hnext : ∀ result other, related result other →
      Related relatedNext (next result) (otherNext other)) :
    Related relatedNext (first >>= next) (second >>= otherNext) := by
  cases h with
  | failed fault => exact .failed fault
  | succeeded hresult => exact hnext _ _ hresult

theorem imp {weaker : α → β → Prop} (h : Related related first second)
    (hweaker : ∀ result other, related result other → weaker result other) :
    Related weaker first second := by
  cases h with
  | failed fault => exact .failed fault
  | succeeded hresult => exact .succeeded (hweaker _ _ hresult)

theorem map {change : α → γ} {otherChange : β → δ} (h : Related related first second)
    (hchange : ∀ result other, related result other →
      relatedNext (change result) (otherChange other)) :
    Related relatedNext (first.map change) (second.map otherChange) := by
  cases h with
  | failed fault => exact .failed fault
  | succeeded hresult => exact .succeeded (hchange _ _ hresult)

end Related

end ScopeLexer.Outcome
