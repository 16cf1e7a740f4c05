import Mathlib

/-!
# Replaying a log in another order

A system that reads messages one at a time is a partial function
`step : S → M → Option S`: `none` means the message is rejected, and a rejected
message changes nothing.  This file is about two runs of one such system that read
the same messages in different orders, or different prefixes of them.

* `Exchanges`: messages of different senders commute wherever both are accepted.
  `run_join` then says that two runs whose senders' logs are comparable can be
  continued to a common state, and `run_eq_of_same_logs` that runs with the same
  logs end in the same state, however they were interleaved.
* `run_choose`: the greedy replay.  If a sender's next message looks acceptable in
  the current state, it may be read now without changing where the run ends.
* `run_perm`: with no senders at all, runs over a permutation agree, provided any
  two accepted messages commute or exclude one another for good.
-/

namespace Tablefolk.Replay

variable {S M I : Type} (step : S → M → Option S)

/-- Read the messages one after the other, stopping at the first rejection. -/
def run : S → List M → Option S
  | s, [] => some s
  | s, m :: rest => (step s m).bind fun s' => run s' rest

@[simp] theorem run_nil (s : S) : run step s [] = some s := rfl

theorem run_cons_eq_some {s t : S} {m : M} {rest : List M} :
    run step s (m :: rest) = some t ↔ ∃ s', step s m = some s' ∧ run step s' rest = some t :=
  Option.bind_eq_some_iff

theorem run_append (s : S) (l r : List M) :
    run step s (l ++ r) = (run step s l).bind fun s' => run step s' r := by
  induction l generalizing s with
  | nil => rfl
  | cons m rest ih =>
      cases h : step s m with
      | none => simp [run, h]
      | some s' => simpa [run, h] using ih s'

theorem run_append_eq_some {s t : S} {l r : List M} :
    run step s (l ++ r) = some t ↔ ∃ s', run step s l = some s' ∧ run step s' r = some t := by
  rw [run_append]
  exact Option.bind_eq_some_iff

theorem run_singleton (s : S) (m : M) : run step s [m] = step s m := by
  cases h : step s m <;> simp [run, h]

/-- Whatever every accepted message keeps, a run keeps. -/
theorem run_invariant {P : S → Prop} (hstep : ∀ {s s' m}, P s → step s m = some s' → P s')
    {l : List M} {s t : S} (h : P s) (hrun : run step s l = some t) : P t := by
  induction l generalizing s with
  | nil =>
      cases hrun
      exact h
  | cons m rest ih =>
      obtain ⟨s', hs', hrest⟩ := (run_cons_eq_some step).1 hrun
      exact ih (hstep h hs') hrest

/-- An invariant of the state and of what was read to get there. -/
theorem run_history {P : List M → S → Prop} {s t : S} (hstart : P [] s)
    (hstep : ∀ {l t t' m}, P l t → step t m = some t' → P (l ++ [m]) t') {l : List M}
    (hrun : run step s l = some t) : P l t := by
  induction l using List.reverseRecOn generalizing t with
  | nil =>
      cases hrun
      exact hstart
  | append_singleton l m ih =>
      obtain ⟨mid, hmid, hlast⟩ := (run_append_eq_some step).1 hrun
      rw [run_singleton] at hlast
      exact hstep (ih hmid) hlast

/-- Splitting a list at the first element with a property. -/
theorem exists_first {p : M → Prop} {l : List M} (h : ∃ m ∈ l, p m) :
    ∃ u m v, l = u ++ m :: v ∧ p m ∧ ∀ x ∈ u, ¬ p x := by
  induction l with
  | nil => obtain ⟨m, hm, -⟩ := h; simp at hm
  | cons a rest ih =>
      by_cases ha : p a
      · exact ⟨[], a, rest, rfl, ha, by simp⟩
      · obtain ⟨u, m, v, rfl, hm, hu⟩ := ih (by
          obtain ⟨m, hm, hp⟩ := h
          rcases List.mem_cons.1 hm with rfl | hm
          · exact absurd hp ha
          · exact ⟨m, hm, hp⟩)
        refine ⟨a :: u, m, v, rfl, hm, fun x hx => ?_⟩
        rcases List.mem_cons.1 hx with rfl | hx
        · exact ha
        · exact hu x hx

/-! ## Messages of different senders -/

section Senders

variable [DecidableEq I] (sender : M → I)

/-- A sender's log. -/
def logOf (i : I) (l : List M) : List M := l.filter fun m => sender m = i

@[simp] theorem logOf_nil (i : I) : logOf sender i [] = [] := rfl

theorem logOf_append (i : I) (l r : List M) :
    logOf sender i (l ++ r) = logOf sender i l ++ logOf sender i r := List.filter_append ..

theorem logOf_cons_self (m : M) (l : List M) :
    logOf sender (sender m) (m :: l) = m :: logOf sender (sender m) l := by
  simp [logOf]

theorem logOf_cons_ne {i : I} {m : M} (h : sender m ≠ i) (l : List M) :
    logOf sender i (m :: l) = logOf sender i l := by
  simp [logOf, h]

theorem logOf_eq_nil {i : I} {l : List M} (h : ∀ m ∈ l, sender m ≠ i) : logOf sender i l = [] :=
  List.filter_eq_nil_iff.2 fun m hm => by simpa using h m hm

theorem mem_of_mem_logOf {i : I} {m : M} {l : List M} (h : m ∈ logOf sender i l) : m ∈ l :=
  List.mem_of_mem_filter h

/-- Splitting a log's owner at its first message. -/
theorem exists_first_of_logOf {i : I} {m : M} {l rest : List M} (h : logOf sender i l = m :: rest) :
    ∃ u v, l = u ++ m :: v ∧ (∀ x ∈ u, sender x ≠ i) ∧ sender m = i ∧ logOf sender i v = rest := by
  have hm : m ∈ logOf sender i l := h ▸ List.mem_cons_self
  obtain ⟨u, b, v, rfl, hb, hu⟩ := exists_first (p := fun x => sender x = i) (l := l)
    ⟨m, mem_of_mem_logOf sender hm, by simpa using (List.mem_filter.1 hm).2⟩
  rw [logOf_append, logOf_eq_nil sender hu, List.nil_append] at h
  subst hb
  rw [logOf_cons_self] at h
  obtain ⟨rfl, rfl⟩ := List.cons.inj h
  exact ⟨u, v, rfl, hu, rfl, rfl⟩

/-- Removing a sender's first message leaves the other logs alone. -/
theorem logOf_remove_ne {i : I} {m : M} (h : sender m ≠ i) (u v : List M) :
    logOf sender i (u ++ v) = logOf sender i (u ++ m :: v) := by
  rw [logOf_append, logOf_append, logOf_cons_ne sender h]

/-- Two accepted messages of different senders can be read in either order. -/
def Exchanges (O : M → Prop) : Prop :=
  ∀ ⦃s a b s₁ s₂⦄, O a → O b → sender a ≠ sender b → step s a = some s₁ → step s b = some s₂ →
    ∃ t, step s₁ b = some t ∧ step s₂ a = some t

variable {step sender} {O : M → Prop} (hx : Exchanges step sender O)
include hx

omit [DecidableEq I] in
/-- A message waits for the messages of the other senders. -/
theorem run_exchange {a : M} {l : List M} {s s₁ t : S} (ha : O a)
    (hl : ∀ m ∈ l, O m ∧ sender m ≠ sender a) (hstep : step s a = some s₁)
    (hrun : run step s l = some t) : ∃ t', step t a = some t' ∧ run step s₁ l = some t' := by
  induction l generalizing s s₁ with
  | nil =>
      cases hrun
      exact ⟨s₁, hstep, rfl⟩
  | cons m rest ih =>
      obtain ⟨s₂, hm, hrest⟩ := (run_cons_eq_some step).1 hrun
      obtain ⟨hO, hne⟩ := hl m List.mem_cons_self
      obtain ⟨r, hr₁, hr₂⟩ := hx ha hO (Ne.symm hne) hstep hm
      obtain ⟨t', ht', hrun'⟩ :=
        ih (fun m hm => hl m (List.mem_cons_of_mem _ hm)) hr₂ hrest
      exact ⟨t', ht', (run_cons_eq_some step).2 ⟨r, hr₁, hrun'⟩⟩

omit [DecidableEq I] in
/-- A sender's first message, if it is accepted now, may be read first. -/
theorem run_pull {a : M} {u v : List M} {s s₁ t : S} (ha : O a)
    (hu : ∀ m ∈ u, O m ∧ sender m ≠ sender a) (hstep : step s a = some s₁)
    (hrun : run step s (u ++ a :: v) = some t) : run step s₁ (u ++ v) = some t := by
  obtain ⟨mid, hmid, hrest⟩ := (run_append_eq_some step).1 hrun
  obtain ⟨mid', hmid', hv⟩ := (run_cons_eq_some step).1 hrest
  obtain ⟨t', ht', hrun'⟩ := run_exchange hx ha hu hstep hmid
  obtain rfl := Option.some.inj (hmid'.symm.trans ht')
  exact (run_append_eq_some step).2 ⟨mid', hrun', hv⟩

omit hx in
/-- One log is a prefix of the other. -/
def Comparable (l r : List M) : Prop := l <+: r ∨ r <+: l

omit hx in
theorem Comparable.of_cons {a b : M} {l r : List M} (h : Comparable (a :: l) (b :: r)) :
    a = b ∧ Comparable l r := by
  rcases h with h | h
  · obtain ⟨hab, h⟩ := List.cons_prefix_cons.1 h
    exact ⟨hab, .inl h⟩
  · obtain ⟨hab, h⟩ := List.cons_prefix_cons.1 h
    exact ⟨hab.symm, .inr h⟩

/-- **Runs with comparable logs meet.**  If every sender's log in one run is
comparable with its log in the other, both runs can be continued to one state. -/
theorem run_join {l r : List M} {s t₁ t₂ : S} (hl : ∀ m ∈ l, O m) (hr : ∀ m ∈ r, O m)
    (hcomparable : ∀ i, Comparable (logOf sender i l) (logOf sender i r))
    (h₁ : run step s l = some t₁) (h₂ : run step s r = some t₂) :
    ∃ l' r' t, run step t₁ l' = some t ∧ run step t₂ r' = some t := by
  induction l generalizing s r t₂ with
  | nil =>
      cases h₁
      exact ⟨r, [], t₂, h₂, rfl⟩
  | cons a l ih =>
      obtain ⟨s₁, ha, hrest⟩ := (run_cons_eq_some step).1 h₁
      have hOa := hl a List.mem_cons_self
      have hOl : ∀ m ∈ l, O m := fun m hm => hl m (List.mem_cons_of_mem _ hm)
      cases hlog : logOf sender (sender a) r with
      | nil =>
          -- the other run has not read anything of this sender yet, so it can read `a` last
          have hne : ∀ m ∈ r, O m ∧ sender m ≠ sender a := fun m hm => ⟨hr m hm, fun h => by
            have : m ∈ logOf sender (sender a) r := List.mem_filter.2 ⟨hm, by simpa using h⟩
            simp [hlog] at this⟩
          obtain ⟨t₂', ht₂', hrun⟩ := run_exchange hx hOa hne ha h₂
          obtain ⟨l', r', t, hl', hr'⟩ := ih hOl hr (fun i => by
            by_cases hi : sender a = i
            · subst hi
              rw [hlog]
              exact .inr List.nil_prefix
            · have := hcomparable i
              rwa [logOf_cons_ne sender hi] at this) hrest hrun
          exact ⟨l', a :: r', t, hl', (run_cons_eq_some step).2 ⟨t₂', ht₂', hr'⟩⟩
      | cons b tail =>
          have hhead := hcomparable (sender a)
          rw [logOf_cons_self, hlog] at hhead
          obtain ⟨rfl, htail⟩ := hhead.of_cons
          obtain ⟨u, v, rfl, hu, -, hv⟩ := exists_first_of_logOf sender hlog
          have hOu : ∀ m ∈ u, O m ∧ sender m ≠ sender a := fun m hm =>
            ⟨hr m (List.mem_append_left _ hm), hu m hm⟩
          have hOr : ∀ m ∈ u ++ v, O m := fun m hm => by
            rcases List.mem_append.1 hm with hm | hm
            · exact hr m (List.mem_append_left _ hm)
            · exact hr m (List.mem_append_right _ (List.mem_cons_of_mem _ hm))
          refine ih hOl hOr (fun i => ?_) hrest (run_pull hx hOa hOu ha h₂)
          by_cases hi : sender a = i
          · subst hi
            rw [logOf_append, logOf_eq_nil sender hu, List.nil_append, hv]
            exact htail
          · have := hcomparable i
            rwa [logOf_cons_ne sender hi, ← logOf_remove_ne sender hi] at this

/-- **Runs with the same logs end in the same state.** -/
theorem run_eq_of_same_logs {l r : List M} {s t₁ t₂ : S} (hl : ∀ m ∈ l, O m)
    (hsame : ∀ i, logOf sender i l = logOf sender i r)
    (h₁ : run step s l = some t₁) (h₂ : run step s r = some t₂) : t₁ = t₂ := by
  induction l generalizing s r with
  | nil =>
      -- the other run has nothing to read
      have hr : r = [] := by
        rw [List.eq_nil_iff_forall_not_mem]
        intro m hm
        have hmem : m ∈ logOf sender (sender m) r := List.mem_filter.2 ⟨hm, by simp⟩
        rw [← hsame] at hmem
        simp at hmem
      subst hr
      exact Option.some.inj (h₁.symm.trans h₂)
  | cons a l ih =>
      obtain ⟨s₁, ha, hrest⟩ := (run_cons_eq_some step).1 h₁
      have hOl : ∀ m ∈ l, O m := fun m hm => hl m (List.mem_cons_of_mem _ hm)
      have hlog := (hsame (sender a)).symm
      rw [logOf_cons_self] at hlog
      obtain ⟨u, v, rfl, hu, -, hv⟩ := exists_first_of_logOf sender hlog
      have hOu : ∀ m ∈ u, O m ∧ sender m ≠ sender a := fun m hm => by
        refine ⟨hl m ?_, hu m hm⟩
        have hmem : m ∈ logOf sender (sender m) (u ++ a :: v) :=
          List.mem_filter.2 ⟨List.mem_append_left _ hm, by simp⟩
        rw [← hsame] at hmem
        exact mem_of_mem_logOf sender hmem
      refine ih hOl (fun i => ?_) hrest (run_pull hx (hl a List.mem_cons_self) hOu ha h₂)
      by_cases hi : sender a = i
      · subst hi
        rw [logOf_append, logOf_eq_nil sender hu, List.nil_append, hv]
      · rw [logOf_remove_ne sender hi, ← hsame, logOf_cons_ne sender hi]

/-- `ready s m`: the message looks acceptable in `s`.  What looks acceptable now and
is accepted later, with none of its sender's messages in between, is accepted now. -/
def Early (step : S → M → Option S) (sender : M → I) (O : M → Prop) (ready : S → M → Prop) :
    Prop :=
  ∀ ⦃s t t' m l⦄, O m → (∀ x ∈ l, O x ∧ sender x ≠ sender m) → ready s m →
    run step s l = some t → step t m = some t' → ∃ s', step s m = some s'

/-- **The greedy replay.**  A sender's next message that looks acceptable is
accepted, and what is left is a run to the same state. -/
theorem run_choose {ready : S → M → Prop} (hearly : Early step sender O ready) {i : I}
    {l rest : List M} {m : M} {s t : S} (hl : ∀ m ∈ l, O m) (hlog : logOf sender i l = m :: rest)
    (hready : ready s m) (hrun : run step s l = some t) :
    ∃ s' l', step s m = some s' ∧ run step s' l' = some t ∧ l.Perm (m :: l') ∧
      logOf sender i l' = rest ∧ (∀ j, i ≠ j → logOf sender j l' = logOf sender j l) := by
  obtain ⟨u, v, rfl, hu, hm, hv⟩ := exists_first_of_logOf sender hlog
  subst hm
  have hOm : O m := hl m (List.mem_append_right _ List.mem_cons_self)
  have hOu : ∀ x ∈ u, O x ∧ sender x ≠ sender m := fun x hx =>
    ⟨hl x (List.mem_append_left _ hx), hu x hx⟩
  obtain ⟨mid, hmid, hafter⟩ := (run_append_eq_some step).1 hrun
  obtain ⟨mid', hmid', -⟩ := (run_cons_eq_some step).1 hafter
  obtain ⟨s', hs'⟩ := hearly hOm hOu hready hmid hmid'
  refine ⟨s', u ++ v, hs', run_pull hx hOm hOu hs' hrun, List.perm_middle, ?_, fun j hj => ?_⟩
  · rw [logOf_append, logOf_eq_nil sender hu, List.nil_append, hv]
  · exact logOf_remove_ne sender hj u v

end Senders

/-! ## Permutations -/

section Permutation

variable {step}

/-- Once `a` has been read in `s`, `b` is never accepted again. -/
def Blocks (step : S → M → Option S) (s : S) (a b : M) : Prop :=
  ∀ ⦃s₁ l t⦄, step s a = some s₁ → run step s₁ l = some t → step t b = none

/-- Two accepted messages commute, or each of them excludes the other for good. -/
def ExchangesOrBlocks (step : S → M → Option S) (P : S → Prop) (O : M → Prop) : Prop :=
  ∀ ⦃s a b s₁ s₂⦄, P s → O a → O b → a ≠ b → step s a = some s₁ → step s b = some s₂ →
    (∃ t, step s₁ b = some t ∧ step s₂ a = some t) ∨ Blocks step s b a

variable {P : S → Prop} {O : M → Prop} (hkeep : ∀ {s s' m}, P s → O m → step s m = some s' → P s')
  (hx : ExchangesOrBlocks step P O)
include hkeep hx

/-- A message that is accepted now and read later may be read first. -/
theorem run_advance {a : M} {u v : List M} {s s₁ t : S} (hP : P s) (ha : O a)
    (hu : ∀ m ∈ u, O m ∧ m ≠ a) (hstep : step s a = some s₁)
    (hrun : run step s (u ++ a :: v) = some t) : run step s₁ (u ++ v) = some t := by
  induction u generalizing s s₁ with
  | nil =>
      obtain ⟨s₁', hs₁', hv⟩ := (run_cons_eq_some step).1 hrun
      obtain rfl := Option.some.inj (hstep.symm.trans hs₁')
      exact hv
  | cons b u ih =>
      obtain ⟨s₂, hb, hrest⟩ := (run_cons_eq_some step).1 hrun
      obtain ⟨hOb, hne⟩ := hu b List.mem_cons_self
      rcases hx hP ha hOb (Ne.symm hne) hstep hb with ⟨r, hr₁, hr₂⟩ | hblocks
      · have hrun' := ih (hkeep hP hOb hb) (fun m hm => hu m (List.mem_cons_of_mem _ hm)) hr₂ hrest
        exact (run_cons_eq_some step).2 ⟨r, hr₁, hrun'⟩
      · -- `a` is read later in this very run, so `b` cannot exclude it
        obtain ⟨mid, hmid, hafter⟩ := (run_append_eq_some step).1 hrest
        obtain ⟨mid', hmid', -⟩ := (run_cons_eq_some step).1 hafter
        rw [hblocks hb hmid] at hmid'
        cases hmid'

/-- **Runs over a permutation of the messages agree.** -/
theorem run_perm {l r : List M} {s t₁ t₂ : S} (hP : P s) (hl : ∀ m ∈ l, O m) (hperm : l.Perm r)
    (h₁ : run step s l = some t₁) (h₂ : run step s r = some t₂) : t₁ = t₂ := by
  induction l generalizing s r with
  | nil =>
      obtain rfl := List.nil_perm.1 hperm
      exact Option.some.inj (h₁.symm.trans h₂)
  | cons a l ih =>
      obtain ⟨s₁, ha, hrest⟩ := (run_cons_eq_some step).1 h₁
      obtain ⟨u, b, v, rfl, hb, hu⟩ := exists_first (p := fun m => m = a)
        ⟨a, hperm.mem_iff.1 List.mem_cons_self, rfl⟩
      subst hb
      have hOu : ∀ m ∈ u, O m ∧ m ≠ b := fun m hm =>
        ⟨hl m (hperm.mem_iff.2 (List.mem_append_left _ hm)), hu m hm⟩
      have hOb := hl b List.mem_cons_self
      refine ih (hkeep hP hOb ha) (fun m hm => hl m (List.mem_cons_of_mem _ hm)) ?_ hrest
        (run_advance hkeep hx hP hOb hOu ha h₂)
      exact (hperm.trans List.perm_middle).cons_inv

end Permutation

end Tablefolk.Replay
