import Tablefolk.Lib.Checks

/-!
# Two computations that agree

Two functions that may throw, written apart and with errors of their own, agree when either both
throw or both return and their results are related.  The rules follow the shape of the code: a
check against a check, a sequence against a sequence.
-/

namespace Tablefolk

variable {ε δ α β γ κ : Type}

/-- Both throw, or both return and what they return is related. -/
inductive Agree (R : α → β → Prop) : Except ε α → Except δ β → Prop
  | pure {a : α} {b : β} (h : R a b) : Agree R (.ok a) (.ok b)
  | throws (e : ε) (d : δ) : Agree R (.error e) (.error d)

theorem Agree.bind {R : α → β → Prop} {S : γ → κ → Prop} {x : Except ε α} {y : Except δ β}
    {f : α → Except ε γ} {g : β → Except δ κ} (h : Agree R x y)
    (hnext : ∀ a b, R a b → Agree S (f a) (g b)) : Agree S (x >>= f) (y >>= g) := by
  cases h with
  | pure h => exact hnext _ _ h
  | throws e d => exact .throws e d

theorem Agree.check {bad bad' : Prop} [Decidable bad] [Decidable bad'] {e : ε} {d : δ}
    (h : bad ↔ bad') : Agree (fun _ _ => ¬ bad) (throwIf bad e) (throwIf bad' d) := by
  by_cases hbad : bad
  · rw [throwIf_pos hbad, throwIf_pos (h.1 hbad)]
    exact .throws e d
  · rw [throwIf_neg hbad, throwIf_neg (mt h.2 hbad)]
    exact .pure hbad

/-- What both return is the same value, seen twice. -/
theorem Agree.ok_iff {f : β → α} {x : Except ε α} {y : Except δ β}
    (h : Agree (fun a b => a = f b) x y) (a : α) : x = .ok a ↔ ∃ b, y = .ok b ∧ f b = a := by
  cases h with
  | pure h => simp [h]
  | throws e d => simp

end Tablefolk
