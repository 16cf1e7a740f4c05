import Mathlib

/-!
# Sequences of checks

A function that validates its input is a sequence of checks, each of which may
throw, followed by a result.  `throwIf` is one check; the lemmas here turn
"the whole sequence returned" into the conjunction of the checks having passed,
and "it threw" into the first check that failed.
-/

namespace Tablefolk

variable {ε α β : Type}

/-- `if (bad) throw error`. -/
def throwIf (bad : Prop) [Decidable bad] (error : ε) : Except ε Unit :=
  if bad then .error error else .ok ()

@[simp] theorem except_pure_eq (a : α) : (pure a : Except ε α) = .ok a := rfl

@[simp] theorem except_throw_eq (e : ε) : (throw e : Except ε α) = .error e := rfl

@[simp] theorem ok_bind (a : α) (f : α → Except ε β) : (Except.ok a >>= f) = f a := rfl

@[simp] theorem error_bind (e : ε) (f : α → Except ε β) :
    ((Except.error e : Except ε α) >>= f) = .error e := rfl

theorem throwIf_neg {bad : Prop} [Decidable bad] (h : ¬ bad) (e : ε) :
    throwIf bad e = .ok () := if_neg h

theorem throwIf_pos {bad : Prop} [Decidable bad] (h : bad) (e : ε) :
    throwIf bad e = .error e := if_pos h

@[simp] theorem throwIf_eq_ok {bad : Prop} [Decidable bad] {e : ε} {u : Unit} :
    throwIf bad e = .ok u ↔ ¬ bad := by
  by_cases h : bad <;> simp [throwIf, h]

@[simp] theorem throwIf_eq_error {bad : Prop} [Decidable bad] {e e' : ε} :
    throwIf bad e = .error e' ↔ bad ∧ e = e' := by
  by_cases h : bad <;> simp [throwIf, h]

/-- A sequence of computations returns when the first does and the rest does on
its value. -/
theorem bind_eq_ok {x : Except ε α} {f : α → Except ε β} {b : β} :
    (x >>= f) = .ok b ↔ ∃ a, x = .ok a ∧ f a = .ok b := by
  cases x <;> simp

/-- A sequence throws when its first computation does, or when the rest does. -/
theorem bind_eq_error {x : Except ε α} {f : α → Except ε β} {e : ε} :
    (x >>= f) = .error e ↔ x = .error e ∨ ∃ a, x = .ok a ∧ f a = .error e := by
  cases x <;> simp

/-- A check passes and the rest of the sequence returns. -/
@[simp] theorem check_bind_eq_ok {x : Except ε Unit} {f : Unit → Except ε β} {b : β} :
    (x >>= f) = .ok b ↔ x = .ok () ∧ f () = .ok b := by
  cases x <;> simp

end Tablefolk
