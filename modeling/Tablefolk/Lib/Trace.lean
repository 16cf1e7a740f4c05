import Mathlib

/-!
# Lawful traces

A component that calls others leaves a trace of what it has done to them.  Many rules about it say
what must and must not have happened before: a trace is lawful when each of its effects was
allowed by those before it.
-/

namespace Tablefolk

variable {ε : Type} {may : List ε → ε → Prop} {trace before after : List ε} {e : ε}

/-- Every effect of the trace was allowed by the effects before it. -/
inductive Lawful (may : List ε → ε → Prop) : List ε → Prop where
  | nil : Lawful may []
  | snoc {before : List ε} {e : ε} :
      Lawful may before → may before e → Lawful may (before ++ [e])

theorem lawful_snoc : Lawful may (before ++ [e]) ↔ Lawful may before ∧ may before e := by
  constructor
  · intro h
    generalize htrace : before ++ [e] = trace at h
    cases h with
    | nil => simp at htrace
    | snoc hbefore he =>
        obtain ⟨rfl, hsame⟩ := List.append_inj' htrace rfl
        cases hsame
        exact ⟨hbefore, he⟩
  · rintro ⟨hbefore, he⟩
    exact .snoc hbefore he

theorem Lawful.of_append (h : Lawful may (before ++ after)) : Lawful may before := by
  induction after using List.reverseRecOn with
  | nil => rwa [List.append_nil] at h
  | append_singleton rest e ih =>
      rw [← List.append_assoc, lawful_snoc] at h
      exact ih h.1

/-- Where an effect stands in a lawful trace, it was allowed. -/
theorem Lawful.may_of_eq (h : Lawful may trace) (htrace : trace = before ++ e :: after) :
    may before e := by
  rw [htrace, List.append_cons] at h
  exact (lawful_snoc.1 h.of_append).2

end Tablefolk
