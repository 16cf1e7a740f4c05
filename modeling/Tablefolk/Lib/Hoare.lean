import Tablefolk.Lib.Checks

/-!
# Programs with a state and exceptions

A program reads and changes a state, and returns or throws; what it throws leaves the state as it
was then, as an `async` function does that keeps its progress in variables.  `Triple P x Q E` says
that `x`, started where `P` holds, ends where `Q` holds of what it returns or `E` of what it
throws.
-/

namespace Tablefolk

variable {σ ε α β : Type}

/-- A program: the state it leaves behind goes with what it returns or throws. -/
def Prog (σ ε α : Type) := σ → Except ε α × σ

namespace Prog

def bind (x : Prog σ ε α) (f : α → Prog σ ε β) : Prog σ ε β := fun s =>
  match x s with
  | (.ok a, s') => f a s'
  | (.error e, s') => (.error e, s')

instance : Monad (Prog σ ε) where
  pure a := fun s => (.ok a, s)
  bind := bind

/-- Throw. -/
def fail (e : ε) : Prog σ ε α := fun s => (.error e, s)

/-- The state. -/
def read : Prog σ ε σ := fun s => (.ok s, s)

/-- Change the state. -/
def change (f : σ → σ) : Prog σ ε Unit := fun s => (.ok (), f s)

/-- A computation that does not look at the state. -/
def lift (x : Except ε α) : Prog σ ε α := fun s => (x, s)

/-- Started where `P` holds, the program ends where `Q` or `E` does. -/
def Triple (P : σ → Prop) (x : Prog σ ε α) (Q : α → σ → Prop) (E : ε → σ → Prop) : Prop :=
  ∀ s, P s → (∀ a s', x s = (.ok a, s') → Q a s') ∧ ∀ e s', x s = (.error e, s') → E e s'

namespace Triple

variable {P P' : σ → Prop} {Q Q' : α → σ → Prop} {R : β → σ → Prop} {E : ε → σ → Prop}
  {x : Prog σ ε α} {f : α → Prog σ ε β}

theorem pure {a : α} (h : ∀ s, P s → Q a s) :
    Triple P (Pure.pure a : Prog σ ε α) Q E := by
  intro s hs
  refine ⟨?_, ?_⟩
  · rintro a' s' ⟨⟩
    exact h s hs
  · rintro e s' ⟨⟩

theorem bind (hx : Triple P x Q E) (hf : ∀ a, Triple (Q a) (f a) R E) :
    Triple P (x >>= f) R E := by
  intro s hs
  obtain ⟨hok, herror⟩ := hx s hs
  show (∀ b s', Prog.bind x f s = (.ok b, s') → R b s') ∧
    ∀ e s', Prog.bind x f s = (.error e, s') → E e s'
  rw [Prog.bind]
  rcases hrun : x s with ⟨⟨e⟩ | ⟨a⟩, s'⟩
  · refine ⟨?_, ?_⟩
    · rintro b s' ⟨⟩
    · rintro e s' ⟨⟩
      exact herror _ _ hrun
  · exact hf a s' (hok a s' hrun)

theorem fail {e : ε} (h : ∀ s, P s → E e s) : Triple P (Prog.fail e : Prog σ ε α) Q E := by
  intro s hs
  refine ⟨?_, ?_⟩
  · rintro a s' ⟨⟩
  · rintro e' s' ⟨⟩
    exact h s hs

theorem read : Triple P (Prog.read : Prog σ ε σ) (fun a s => a = s ∧ P s) E := by
  intro s hs
  refine ⟨?_, ?_⟩
  · rintro a s' ⟨⟩
    exact ⟨rfl, hs⟩
  · rintro e s' ⟨⟩

theorem change {g : σ → σ} {R : Unit → σ → Prop} (h : ∀ s, P s → R () (g s)) :
    Triple P (Prog.change g : Prog σ ε Unit) R E := by
  intro s hs
  refine ⟨?_, ?_⟩
  · rintro a s' ⟨⟩
    exact h s hs
  · rintro e s' ⟨⟩

/-- What does not look at the state does not change it. -/
theorem lift {y : Except ε α} (hthrow : ∀ e s, y = .error e → P s → E e s) :
    Triple P (Prog.lift y : Prog σ ε α) (fun a s => y = .ok a ∧ P s) E := by
  intro s hs
  refine ⟨?_, ?_⟩
  · rintro a s' h
    obtain ⟨hy, rfl⟩ := Prod.mk.inj h
    exact ⟨hy, hs⟩
  · rintro e s' h
    obtain ⟨hy, rfl⟩ := Prod.mk.inj h
    exact hthrow e s hy hs

end Triple

end Prog

end Tablefolk
