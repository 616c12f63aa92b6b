import Mathlib.Tactic.Common
import Modbus.Error

/-!
# Chains of steps that can fail

Frames and PDUs are read by chains of steps, each of which may end the whole with an error.  The
lemmas here open such a chain: a chain succeeds exactly when each of its steps does
(`Result.bind_eq_ok`), and a step whose outcome is known goes away (`Result.ok_bind`,
`Result.error_bind`).  A chain whose steps tell of no exception reply tells of none either
(`Result.Plain`).
-/

namespace Modbus.Result

variable {α β : Type}

@[simp] lemma ok_bind (value : α) (next : α → Result β) :
    ((Except.ok value : Result α) >>= next) = next value := rfl

@[simp] lemma error_bind (error : Error) (next : α → Result β) :
    ((Except.error error : Result α) >>= next) = .error error := rfl

@[simp] lemma pure_eq (value : α) : (pure value : Result α) = .ok value := rfl

@[simp] lemma throw_eq (error : Error) : (throw error : Result α) = .error error := rfl

/-- **A chain succeeds when its steps do.** -/
lemma bind_eq_ok {first : Result α} {next : α → Result β} {value : β} :
    (first >>= next) = .ok value ↔ ∃ middle, first = .ok middle ∧ next middle = .ok value := by
  cases first with
  | ok middle => simp
  | error error => simp

lemma map_eq_ok {first : Result α} {change : α → β} {value : β} :
    first.map change = .ok value ↔ ∃ before, first = .ok before ∧ change before = value := by
  cases first with
  | ok before => simp [Except.map]
  | error error => simp [Except.map]

lemma toOption_eq_some {result : Result α} {value : α} :
    result.toOption = some value ↔ result = .ok value := by
  cases result with
  | ok other => simp [Except.toOption]
  | error error => simp [Except.toOption]

/-! ## Results that no device gave -/

/-- **A result that does not tell of an exception reply.** -/
def Plain (result : Result α) : Prop :=
  ∀ error, result = .error error → error.exceptionCode? = none

lemma plain_ok (value : α) : Plain (.ok value) := nofun

lemma plain_error {error : Error} (h : error.exceptionCode? = none) :
    Plain (.error error : Result α) := by
  rintro _ ⟨⟩
  exact h

lemma Plain.bind {first : Result α} {next : α → Result β} (hfirst : Plain first)
    (hnext : ∀ value, Plain (next value)) : Plain (first >>= next) := by
  cases first with
  | ok value => exact hnext value
  | error error => exact plain_error (hfirst error rfl)

lemma Plain.map {first : Result α} (h : Plain first) (change : α → β) :
    Plain (first.map change) := by
  cases first with
  | ok value => exact plain_ok _
  | error error => exact plain_error (h error rfl)

end Modbus.Result
