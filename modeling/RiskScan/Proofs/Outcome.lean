/-!
# Results that may be errors

Steps that can fail are strung together so that the first error is the result. A result that has
been evaluated only as far as some fact about its value is a value with that fact.
-/

namespace RiskScan

namespace Except

variable {ε α β : Type}

theorem exists_of_bind_eq_ok {part : Except ε α} {next : α → Except ε β} {b : β}
    (h : (part >>= next) = .ok b) : ∃ a, part = .ok a ∧ next a = .ok b := by
  cases part with
  | error error => cases h
  | ok a => exact ⟨a, rfl, h⟩

theorem bind_of_ok {part : Except ε α} {next : α → Except ε β} {a : α} (h : part = .ok a) :
    (part >>= next) = next a := by
  rw [h]
  rfl

theorem eq_ok_of_mapError {ε' : Type} {result : Except ε α} {f : ε → ε'} {a : α}
    (h : result.mapError f = .ok a) : result = .ok a := by
  cases result with
  | error error => cases h
  | ok b => exact congrArg Except.ok (Except.ok.inj h)

theorem eq_ok_of_toOption {result : Except ε α} {a : α} (h : result.toOption = some a) :
    result = .ok a := by
  cases result with
  | error error => cases h
  | ok b => exact congrArg Except.ok (Option.some.inj h)

theorem exists_of_map_toOption {result : Except ε α} {f : α → β} {b : β}
    (h : result.toOption.map f = some b) : ∃ a, result = .ok a ∧ f a = b := by
  obtain ⟨a, ha, hb⟩ := Option.map_eq_some_iff.mp h
  exact ⟨a, eq_ok_of_toOption ha, hb⟩

theorem exists_of_mapError_eq_error {ε' : Type} {result : Except ε α} {f : ε → ε'} {error : ε'}
    (h : result.mapError f = .error error) : ∃ cause, result = .error cause ∧ f cause = error := by
  cases result with
  | error cause => exact ⟨cause, rfl, Except.error.inj h⟩
  | ok a => cases h

/-- The error of a result that is one. -/
def error? : Except ε α → Option ε
  | .error error => some error
  | .ok _ => none

theorem error?_eq_some_iff {result : Except ε α} {error : ε} :
    error? result = some error ↔ result = .error error := by
  cases result with
  | error cause => simp [error?]
  | ok a => simp [error?]

theorem error?_map (result : Except ε α) (f : α → β) : error? (result.map f) = error? result := by
  cases result <;> rfl

/-- The first step that fails gives the error of all. -/
theorem error?_bind {ι : Type} {part : Except ε α} {next : α → Except ε β} {refusal? : ι → Option ε}
    {step : ι} {steps : List ι} (hstep : error? part = refusal? step)
    (hnext : ∀ a, part = .ok a → error? (next a) = steps.findSome? refusal?) :
    error? (part >>= next) = (step :: steps).findSome? refusal? := by
  rw [List.findSome?_cons, ← hstep]
  cases part with
  | error error => rfl
  | ok a => exact hnext a rfl

end Except

end RiskScan
