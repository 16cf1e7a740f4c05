import Tablefolk.Lib.Replay

/-!
# Calls that take turns

A resource with calls on it.  A call may be made at any time and is put in a queue; when its turn
comes it looks at the resource, and unless it is refused it waits for an answer from outside, with
which it settles.  The next call has its turn only then.  Others may write to the resource between
any two steps.

* `Run.ordered`: the calls settle in the order in which they were made.
* `exists_turn`, `exists_answer`: whatever a call settles with, the next one is not held up.
* `Run.sequential`: with no other writers, the resource is what the calls leave when each of them
  runs alone, one after the other.
-/

namespace Tablefolk.Serial

/-- What the calls do: `check` may refuse one as it is made, `classify` when its turn comes, and
`settle` does the rest once there is an answer. -/
structure Protocol (S C K A R W : Type) where
  check : C → Option R
  classify : S → C → Except R K
  settle : S → C → K → A → R × S
  write : S → W → S

/-- A call that has settled, with the answer if it waited for one. -/
structure Settled (C A R : Type) where
  id : ℕ
  call : C
  answer : Option A
  result : R

/-- The resource and its calls. -/
structure State (S C K A R : Type) where
  resource : S
  queue : List (ℕ × C)
  active : Option (ℕ × C × K)
  next : ℕ
  done : List (Settled C A R)
  refused : List (C × R)

/-- What happens. -/
inductive Input (C A W : Type) where
  | call (c : C)
  | turn
  | answer (a : A)
  | write (w : W)

/-- Nothing has been called yet. -/
def start {S : Type} (C K A R : Type) (resource : S) : State S C K A R :=
  ⟨resource, [], none, 0, [], []⟩

variable {S C K A R W : Type} (p : Protocol S C K A R W)

/-- One step; `none` when the input cannot come. -/
def step (s : State S C K A R) : Input C A W → Option (State S C K A R)
  | .call c =>
      match p.check c with
      | some r => some { s with refused := s.refused ++ [(c, r)] }
      | none => some { s with queue := s.queue ++ [(s.next, c)], next := s.next + 1 }
  | .turn =>
      match s.active, s.queue with
      | none, (id, c) :: rest =>
          match p.classify s.resource c with
          | .error r => some { s with queue := rest, done := s.done ++ [⟨id, c, none, r⟩] }
          | .ok k => some { s with queue := rest, active := some (id, c, k) }
      | _, _ => none
  | .answer a =>
      match s.active with
      | some (id, c, k) =>
          let (r, resource) := p.settle s.resource c k a
          some { s with
            resource := resource
            active := none
            done := s.done ++ [⟨id, c, some a, r⟩] }
      | none => none
  | .write w => some { s with resource := p.write s.resource w }

/-- What a step does. -/
inductive Moves (s : State S C K A R) : Input C A W → State S C K A R → Prop
  | refused {c r} (h : p.check c = some r) :
      Moves s (.call c) { s with refused := s.refused ++ [(c, r)] }
  | queued {c} (h : p.check c = none) :
      Moves s (.call c) { s with queue := s.queue ++ [(s.next, c)], next := s.next + 1 }
  | rejected {id c rest r} (hidle : s.active = none) (hqueue : s.queue = (id, c) :: rest)
      (h : p.classify s.resource c = .error r) :
      Moves s .turn { s with queue := rest, done := s.done ++ [⟨id, c, none, r⟩] }
  | began {id c rest k} (hidle : s.active = none) (hqueue : s.queue = (id, c) :: rest)
      (h : p.classify s.resource c = .ok k) :
      Moves s .turn { s with queue := rest, active := some (id, c, k) }
  | answered {id c k a r next} (hactive : s.active = some (id, c, k))
      (h : p.settle s.resource c k a = (r, next)) :
      Moves s (.answer a)
        { s with resource := next, active := none, done := s.done ++ [⟨id, c, some a, r⟩] }
  | written {w} : Moves s (.write w) { s with resource := p.write s.resource w }

variable {p} {s s' : State S C K A R} {input : Input C A W}

theorem moves_of_step (h : step p s input = some s') : Moves p s input s' := by
  cases input with
  | call c =>
      simp only [step] at h
      cases hcheck : p.check c with
      | some r =>
          rw [hcheck] at h
          cases h
          exact .refused hcheck
      | none =>
          rw [hcheck] at h
          cases h
          exact .queued hcheck
  | turn =>
      cases hactive : s.active with
      | some active => simp [step, hactive] at h
      | none =>
          cases hqueue : s.queue with
          | nil => simp [step, hactive, hqueue] at h
          | cons head rest =>
              obtain ⟨id, c⟩ := head
              simp only [step, hactive, hqueue] at h
              cases hclassify : p.classify s.resource c with
              | error r =>
                  rw [hclassify] at h
                  obtain rfl := Option.some.inj h
                  have hmove := Moves.rejected (p := p) hactive hqueue hclassify
                  simpa only [hactive] using hmove
              | ok k =>
                  rw [hclassify] at h
                  obtain rfl := Option.some.inj h
                  exact .began hactive hqueue hclassify
  | answer a =>
      cases hactive : s.active with
      | none => simp [step, hactive] at h
      | some active =>
          obtain ⟨id, c, k⟩ := active
          simp only [step, hactive] at h
          obtain rfl := Option.some.inj h
          exact .answered hactive rfl
  | write w =>
      cases h
      exact .written

/-! ## Turns -/

/-- The numbers of the calls, from the first that has settled to the last that waits. -/
def State.ids (s : State S C K A R) : List ℕ :=
  s.done.map Settled.id ++ (s.active.toList.map Prod.fst ++ s.queue.map Prod.fst)

/-- **A call that waits has its turn**, whatever the one before it has settled with. -/
theorem exists_turn (hidle : s.active = none) (hqueue : s.queue ≠ []) :
    ∃ s', step p s .turn = some s' ∧ s'.queue = s.queue.tail := by
  cases hcalls : s.queue with
  | nil => exact absurd hcalls hqueue
  | cons head rest =>
      obtain ⟨id, c⟩ := head
      simp only [step, hidle, hcalls]
      cases p.classify s.resource c with
      | error r => exact ⟨_, rfl, rfl⟩
      | ok k => exact ⟨_, rfl, rfl⟩

/-- Any answer settles the call that waits for it. -/
theorem exists_answer (hactive : s.active ≠ none) (a : A) :
    ∃ s', step p s (.answer a) = some s' ∧ s'.active = none := by
  cases hcall : s.active with
  | none => exact absurd hcall hactive
  | some active =>
      obtain ⟨id, c, k⟩ := active
      simp only [step, hcall]
      exact ⟨_, rfl, rfl⟩

theorem Moves.ids (h : Moves p s input s') (hids : s.ids = List.range s.next) :
    s'.ids = List.range s'.next := by
  unfold State.ids at hids ⊢
  cases h with
  | refused hcheck => exact hids
  | queued hcheck =>
      simp only [List.map_append, List.map_cons, List.map_nil, List.range_succ, ← hids,
        List.append_assoc]
  | rejected hidle hqueue hclassify =>
      rw [hidle, hqueue] at hids
      simpa [hidle] using hids
  | began hidle hqueue hclassify =>
      rw [hidle, hqueue] at hids
      simpa using hids
  | answered hactive hsettle =>
      rw [hactive] at hids
      simpa using hids
  | written => exact hids

/-! ## Calls that run alone -/

/-- A call on a resource that nobody else changes: what it is answered, what it settles with, and
what it leaves. -/
inductive Executes (p : Protocol S C K A R W) (before : S) : Settled C A R → S → Prop
  | rejected {id c r} (h : p.classify before c = .error r) :
      Executes p before ⟨id, c, none, r⟩ before
  | answered {id c k a r after} (hclassify : p.classify before c = .ok k)
      (h : p.settle before c k a = (r, after)) :
      Executes p before ⟨id, c, some a, r⟩ after

/-- Calls that run alone, one after the other. -/
inductive Sequential (p : Protocol S C K A R W) (first : S) : List (Settled C A R) → S → Prop
  | nil : Sequential p first [] first
  | snoc {done settled between last} (h : Sequential p first done between)
      (hlast : Executes p between settled last) : Sequential p first (done ++ [settled]) last

/-- The resource is as it was when the call that waits had its turn. -/
def State.Undisturbed (p : Protocol S C K A R W) (s : State S C K A R) : Prop :=
  ∀ id c k, s.active = some (id, c, k) → p.classify s.resource c = .ok k

theorem Moves.sequential {first : S} (h : Moves p s input s') (hsole : ∀ w, input ≠ .write w)
    (hs : s.Undisturbed p ∧ Sequential p first s.done s.resource) :
    s'.Undisturbed p ∧ Sequential p first s'.done s'.resource := by
  obtain ⟨hundisturbed, hsequential⟩ := hs
  cases h with
  | refused hcheck => exact ⟨hundisturbed, hsequential⟩
  | queued hcheck => exact ⟨hundisturbed, hsequential⟩
  | rejected hidle hqueue hclassify =>
      exact ⟨hundisturbed, hsequential.snoc (.rejected hclassify)⟩
  | began hidle hqueue hclassify =>
      refine ⟨?_, hsequential⟩
      rintro id c k ⟨⟩
      exact hclassify
  | @answered id c k a r next hactive hsettle =>
      refine ⟨?_, hsequential.snoc (.answered (hundisturbed id c k hactive) hsettle)⟩
      rintro id c k ⟨⟩
  | @written w => exact absurd rfl (hsole w)

/-! ## Runs -/

variable {first : S} {inputs : List (Input C A W)}

/-- A state that a resource gets to. -/
abbrev Run (p : Protocol S C K A R W) (first : S) (inputs : List (Input C A W))
    (s : State S C K A R) : Prop :=
  Replay.run (step p) (start C K A R first) inputs = some s

/-- **Calls settle in the order in which they were made.** -/
theorem Run.ordered (h : Run p first inputs s) : s.ids = List.range s.next :=
  Replay.run_invariant (step p) (P := fun s => s.ids = List.range s.next)
    (fun hids hstep => (moves_of_step hstep).ids hids) (by rfl) h

/-- **With no other writers the calls run alone**, one after the other. -/
theorem Run.sequential (h : Run p first inputs s) (hsole : ∀ w, .write w ∉ inputs) :
    s.Undisturbed p ∧ Sequential p first s.done s.resource := by
  have hhistory : (∀ w, .write w ∉ inputs) →
      s.Undisturbed p ∧ Sequential p first s.done s.resource := by
    refine Replay.run_history (step p) (P := fun inputs s => (∀ w, .write w ∉ inputs) →
      s.Undisturbed p ∧ Sequential p first s.done s.resource) ?_ ?_ h
    · exact fun _ => ⟨by rintro id c k ⟨⟩, .nil⟩
    · intro l t t' input ih hstep hnone
      have hbefore := ih fun w hw => hnone w (List.mem_append_left _ hw)
      refine (moves_of_step hstep).sequential (fun w hw => hnone w ?_) hbefore
      rw [hw]
      simp
  exact hhistory hsole

/-- The calls that have settled and those that wait. -/
def State.calls (s : State S C K A R) : List C :=
  s.done.map Settled.call ++ (s.active.toList.map (fun call => call.2.1) ++ s.queue.map Prod.snd)

/-- What settles or waits was called. -/
theorem Run.called (h : Run p first inputs s) : ∀ c ∈ s.calls, .call c ∈ inputs := by
  refine Replay.run_history (step p) (P := fun inputs s => ∀ c ∈ s.calls, .call c ∈ inputs)
    (by simp [start, State.calls]) ?_ h
  intro l t t' input ih hstep c hc
  unfold State.calls at ih hc
  rw [List.mem_append]
  have hmoves := moves_of_step hstep
  cases hmoves with
  | refused hcheck => exact .inl (ih c hc)
  | @queued made hcheck =>
      simp only [List.map_append, List.map_cons, List.map_nil, List.mem_append,
        List.mem_singleton] at hc ih
      rcases hc with hc | hc | hc | rfl
      · exact .inl (ih c (.inl hc))
      · exact .inl (ih c (.inr (.inl hc)))
      · exact .inl (ih c (.inr (.inr hc)))
      · exact .inr (by simp)
  | rejected hidle hqueue hclassify =>
      refine .inl (ih c ?_)
      simp only [hidle, hqueue] at hc ⊢
      simpa using hc
  | began hidle hqueue hclassify =>
      refine .inl (ih c ?_)
      simp only [hidle, hqueue] at hc ⊢
      simpa using hc
  | answered hactive hsettle =>
      refine .inl (ih c ?_)
      simp only [hactive] at hc ⊢
      simpa using hc
  | written => exact .inl (ih c hc)

/-- What settles or waits has passed the check that is made at once. -/
theorem Run.checked (h : Run p first inputs s) : ∀ c ∈ s.calls, p.check c = none := by
  refine Replay.run_invariant (step p) (P := fun s => ∀ c ∈ s.calls, p.check c = none)
    (fun {t t' input} ih hstep c hc => ?_) (by simp [start, State.calls]) h
  unfold State.calls at ih hc
  have hmoves := moves_of_step hstep
  cases hmoves with
  | refused hcheck => exact ih c hc
  | @queued made hcheck =>
      simp only [List.map_append, List.map_cons, List.map_nil, List.mem_append,
        List.mem_singleton] at hc ih
      rcases hc with hc | hc | hc | rfl
      · exact ih c (.inl hc)
      · exact ih c (.inr (.inl hc))
      · exact ih c (.inr (.inr hc))
      · exact hcheck
  | rejected hidle hqueue hclassify =>
      refine ih c ?_
      simp only [hidle, hqueue] at hc ⊢
      simpa using hc
  | began hidle hqueue hclassify =>
      refine ih c ?_
      simp only [hidle, hqueue] at hc ⊢
      simpa using hc
  | answered hactive hsettle =>
      refine ih c ?_
      simp only [hactive] at hc ⊢
      simpa using hc
  | written => exact ih c hc

end Tablefolk.Serial
