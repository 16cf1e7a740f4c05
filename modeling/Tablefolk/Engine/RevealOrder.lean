import Tablefolk.Engine.RevealInvariant

/-!
# The ledger in any order

The reveal ledger reads envelopes from several peers, in whatever order they arrive.

* `shares_exchange`: contributions of different seats to one step commute.
* `ledger_exchangesOrBlocks`: two envelopes that are both accepted in one state
  either commute, or whichever is read first excludes the other for good.
* `ledger_run_perm`: ledgers that accepted the same envelopes are in the same state.
* `contributions_of_run`: the deal advances exactly when every donor of the current
  step has contributed, each of them once.
-/

namespace Tablefolk

section

variable {q : ℕ} {G : Type} [AddCommGroup G] [Module (ZMod q) G] [DecidableEq G]
  {P : Primitives q G} {L : RoundReveal P} {s t : LedgerState G} {a b : SignedEnvelope}

/-! ## Contributions commute -/

omit [DecidableEq G] in
/-- A contribution that leaves its step open. -/
theorem contribute_eq_of_more (hash : Hash256) {seat : ℕ} (items : List (PositionShare q G))
    (h : (insert seat s.contributors).card ≠ L.donorCount) :
    (L.contribute s hash seat items).dealIndex = s.dealIndex ∧
      (L.contribute s hash seat items).contributors = insert seat s.contributors :=
  ⟨if_neg h, if_neg h⟩

/-- While another donor is pending the step stays open. -/
theorem card_insert_ne (hinv : LedgerInv L s) {step : ScheduledDeal} {seat other : ℕ}
    (hdeal : L.currentDeal s = some step) (hseat : L.isDonor step seat)
    (hother : L.isDonor step other) (hpending : other ∉ s.contributors) (hne : seat ≠ other) :
    (insert seat s.contributors).card ≠ L.donorCount := by
  rw [← card_donors (mem_schedule_of_currentDeal hdeal)]
  intro hcard
  have heq := Finset.eq_of_subset_of_card_le (insert_contributors hinv hdeal hseat) hcard.ge
  have hmem := heq ▸ mem_donors.2 hother
  rcases Finset.mem_insert.1 hmem with h | h
  · exact hne h.symm
  · exact hpending h

/-- Another seat's contribution is still accepted after one that left the step open. -/
theorem SharesAccepted.after {step : ScheduledDeal} {seat other : ℕ} {body : SharesBody q G}
    {items : List (PositionShare q G)} {hash : Hash256} (h : SharesAccepted L s b other step body)
    (hmore : (insert seat s.contributors).card ≠ L.donorCount) (hne : seat ≠ other)
    (hhash : P.hashEnvelope b ≠ hash) :
    SharesAccepted L (L.contribute s hash seat items) b other step body := by
  obtain ⟨hindex, hcontributors⟩ :=
    contribute_eq_of_more hash items hmore
  have hdeal : L.currentDeal (L.contribute s hash seat items) = some step := by
    rw [RoundReveal.currentDeal, hindex]
    exact h.deal
  exact
    { scope := h.scope
      type := h.type
      decoded := h.decoded
      fresh := (Function.update_of_ne hhash _ _).trans h.fresh
      deal := hdeal
      phase := by
        rw [phase_of_dealing hdeal, hindex, h.phase, phase_of_dealing h.deal]
      donor := h.donor
      pending := by
        rw [hcontributors, Finset.mem_insert]
        exact fun hmem => hmem.elim (fun heq => hne heq.symm) h.pending
      recipient := h.recipient
      positions := h.positions
      proofs := h.proofs }

omit [DecidableEq G] in
/-- Two contributions record the same in either order. -/
theorem contribute_comm {hashA hashB : Hash256} {seatA seatB : ℕ}
    {itemsA itemsB : List (PositionShare q G)} (hhash : hashA ≠ hashB) (hseat : seatA ≠ seatB)
    (hmoreA : (insert seatA s.contributors).card ≠ L.donorCount)
    (hmoreB : (insert seatB s.contributors).card ≠ L.donorCount) :
    L.contribute (L.contribute s hashA seatA itemsA) hashB seatB itemsB
      = L.contribute (L.contribute s hashB seatB itemsB) hashA seatA itemsA := by
  obtain ⟨hindexA, hcontributorsA⟩ :=
    contribute_eq_of_more hashA itemsA hmoreA
  obtain ⟨hindexB, hcontributorsB⟩ :=
    contribute_eq_of_more hashB itemsB hmoreB
  have hinsert : insert seatB (insert seatA s.contributors)
      = insert seatA (insert seatB s.contributors) := Finset.insert_comm ..
  refine LedgerState.ext ?_ rfl ?_ ?_ rfl (Function.update_comm hhash _ _ _)
  · show (if (insert seatB (L.contribute s hashA seatA itemsA).contributors).card = L.donorCount then
        _ else _) = if (insert seatA (L.contribute s hashB seatB itemsB).contributors).card
          = L.donorCount then _ else _
    rw [hcontributorsA, hcontributorsB, hinsert, hindexA, hindexB]
  · show (if (insert seatB (L.contribute s hashA seatA itemsA).contributors).card = L.donorCount then
        _ else _) = if (insert seatA (L.contribute s hashB seatB itemsB).contributors).card
          = L.donorCount then _ else _
    rw [hcontributorsA, hcontributorsB, hinsert]
  · funext position donor
    simp only [RoundReveal.contribute]
    by_cases hA : donor = seatA
    · rw [if_neg (fun h => hseat (hA.symm.trans h)), if_pos hA, if_pos hA,
        if_neg (fun h => hseat (hA.symm.trans h))]
    · rw [if_neg hA, if_neg hA]

/-- **Contributions of different seats commute**: whichever is read first, the other
is still accepted, and the same state is reached. -/
theorem shares_exchange (hinv : LedgerInv L s) {seatA seatB : ℕ} {step stepB : ScheduledDeal}
    {bodyA bodyB : SharesBody q G} (hA : SharesAccepted L s a seatA step bodyA)
    (hB : SharesAccepted L s b seatB stepB bodyB) (hseat : seatA ≠ seatB)
    (hhash : P.hashEnvelope a ≠ P.hashEnvelope b) :
    ∃ t, L.step (L.contribute s (P.hashEnvelope a) seatA bodyA.items) b = some t ∧
      L.step (L.contribute s (P.hashEnvelope b) seatB bodyB.items) a = some t := by
  cases hA.deal.symm.trans hB.deal
  have hmoreA := card_insert_ne hinv hA.deal hA.isDonor hB.isDonor hB.pending hseat
  have hmoreB := card_insert_ne hinv hA.deal hB.isDonor hA.isDonor hA.pending hseat.symm
  refine ⟨_, step_eq_some.2 ⟨_, .shares (hB.after hmoreA hseat hhash.symm)⟩,
    step_eq_some.2 ⟨⟨true, seatA, .shares bodyA⟩, ?_⟩⟩
  rw [contribute_comm hhash hseat hmoreA hmoreB]
  exact .shares (hA.after hmoreB hseat.symm hhash)

/-! ## What excludes what -/

/-- What every step keeps and `b` contradicts, excludes `b` for good. -/
theorem blocks_of {I : LedgerState G → Prop} {s₁ : LedgerState G} {l : List SignedEnvelope}
    (hkeep : ∀ {t t' m}, I t → L.step t m = some t' → I t') (hstart : I s₁)
    (hb : ∀ {t transition t'}, I t → ¬ LedgerStep L t b transition t')
    (hrun : Replay.run L.step s₁ l = some t) : L.step t b = none := by
  have ht := Replay.run_invariant L.step hkeep hstart hrun
  cases hstep : L.step t b with
  | none => rfl
  | some t' =>
      obtain ⟨transition, hstep⟩ := step_eq_some.1 hstep
      exact absurd hstep (hb ht)

theorem LedgerStep.fresh {transition : RevealTransition q G} (h : LedgerStep L s a transition t) :
    s.accepted (P.hashEnvelope a) = none := by
  cases h with
  | shares accepted => exact accepted.fresh
  | action accepted => exact accepted.fresh

theorem LedgerStep.accepted {transition : RevealTransition q G} (h : LedgerStep L s a transition t) :
    ∃ revealed, t.accepted = Function.update s.accepted (P.hashEnvelope a) (some revealed) := by
  cases h with
  | shares accepted => exact ⟨_, rfl⟩
  | action accepted => exact ⟨_, rfl⟩

/-- An envelope is accepted once. -/
theorem blocks_same_hash (hhash : P.hashEnvelope a = P.hashEnvelope b) :
    Replay.Blocks L.step s a b := by
  intro s₁ l t hstep hrun
  obtain ⟨transition, hstep⟩ := step_eq_some.1 hstep
  obtain ⟨revealed, hrevealed⟩ := hstep.accepted
  refine blocks_of (I := fun t => t.accepted (P.hashEnvelope b) ≠ none) ?_ ?_ ?_ hrun
  · intro t t' m ht hm
    obtain ⟨transition, hm⟩ := step_eq_some.1 hm
    obtain ⟨revealed, heq⟩ := hm.accepted
    rw [heq]
    by_cases hsame : P.hashEnvelope b = P.hashEnvelope m
    · rw [hsame, Function.update_self]
      simp
    · rwa [Function.update_of_ne hsame]
  · rw [hrevealed, hhash, Function.update_self]
    simp
  · exact fun ht hm => ht hm.fresh

omit [DecidableEq G] in
/-- What was given stays given. -/
theorem contribute_gave {hash : Hash256} {seat other i : ℕ} {items : List (PositionShare q G)}
    {step : ScheduledDeal} (hdeal : L.currentDeal s = some step)
    (h : s.Gave i other ∨ i = s.dealIndex ∧ seat = other) :
    (L.contribute s hash seat items).Gave i other := by
  have hlt : s.dealIndex < L.schedule.length := (List.getElem?_eq_some_iff.1 hdeal).1
  by_cases hlast : (insert seat s.contributors).card = L.donorCount
  · have hindex : (L.contribute s hash seat items).dealIndex
        = s.dealIndex + if L.batchDeal then L.schedule.length else 1 := if_pos hlast
    refine .inl ?_
    rw [hindex]
    have hpos : 0 < if L.batchDeal then L.schedule.length else 1 := by split <;> omega
    rcases h with (h | ⟨h, -⟩) | ⟨h, -⟩ <;> omega
  · obtain ⟨hindex, hcontributors⟩ := contribute_eq_of_more hash items hlast
    rw [LedgerState.Gave, hindex, hcontributors, Finset.mem_insert]
    rcases h with (h | ⟨h, hmem⟩) | ⟨h, rfl⟩
    · exact .inl h
    · exact .inr ⟨h, .inr hmem⟩
    · exact .inr ⟨h, .inl rfl⟩

/-- A seat contributes to a step once. -/
theorem blocks_same_seat {seat : ℕ} {step stepB : ScheduledDeal} {bodyA bodyB : SharesBody q G}
    (hA : SharesAccepted L s a seat step bodyA) (hB : SharesAccepted L s b seat stepB bodyB) :
    Replay.Blocks L.step s a b := by
  intro s₁ l t hstep hrun
  have hs₁ := Option.some.inj (hstep.symm.trans (step_eq_some.2 ⟨_, .shares hA⟩))
  subst hs₁
  refine blocks_of (I := fun t => t.Gave s.dealIndex seat) ?_ ?_ ?_ hrun
  · intro t t' m ht hm
    obtain ⟨transition, hm⟩ := step_eq_some.1 hm
    cases hm with
    | shares accepted => exact contribute_gave accepted.deal (.inl ht)
    | action accepted => exact ht
  · exact contribute_gave hA.deal (.inr ⟨rfl, rfl⟩)
  · intro t transition t' ht hm
    cases hm with
    | @shares seat' _ _ accepted =>
        obtain rfl := Option.some.inj (hB.scope.seat.symm.trans accepted.scope.seat)
        have hphase := accepted.phase
        rw [hB.phase, phase_of_dealing hB.deal, phase_of_dealing accepted.deal] at hphase
        have hindex := dealPhase_injective hphase
        rcases ht with hlt | ⟨-, hmem⟩
        · omega
        · exact accepted.pending hmem
    | action accepted => cases hB.type.symm.trans accepted.type

/-- Of two actions that fit one state, the ledger reads one. -/
theorem blocks_actions {seatA seatB : ℕ} {bodyA bodyB : ActionBody q G}
    {revealedA revealedB : List (ℕ × String)} (hA : ActionAccepted L s a seatA bodyA revealedA)
    (hB : ActionAccepted L s b seatB bodyB revealedB) : Replay.Blocks L.step s a b := by
  intro s₁ l t hstep hrun
  have hs₁ := Option.some.inj (hstep.symm.trans (step_eq_some.2 ⟨_, .action hA⟩))
  subst hs₁
  refine blocks_of (I := fun t => s.actionIndex < t.actionIndex) ?_ ?_ ?_ hrun
  · intro t t' m ht hm
    obtain ⟨transition, hm⟩ := step_eq_some.1 hm
    cases hm with
    | shares accepted => exact ht
    | action accepted => exact Nat.lt_succ_of_lt ht
  · exact Nat.lt_succ_self _
  · intro t transition t' ht hm
    cases hm with
    | shares accepted => cases hB.type.symm.trans accepted.type
    | action accepted =>
        have hphase := accepted.phase
        rw [hB.phase, phase_of_dealt hB.dealt, phase_of_dealt accepted.dealt] at hphase
        have hindex := playPhase_injective hphase
        omega

/-- Two accepted envelopes commute, or each excludes the other. -/
theorem ledger_exchangesOrBlocks :
    Replay.ExchangesOrBlocks L.step (LedgerInv L) fun _ => True := by
  intro s a b s₁ s₂ hinv _ _ _ ha hb
  by_cases hhash : P.hashEnvelope a = P.hashEnvelope b
  · exact .inr (blocks_same_hash hhash.symm)
  obtain ⟨transitionA, hA⟩ := step_eq_some.1 ha
  obtain ⟨transitionB, hB⟩ := step_eq_some.1 hb
  cases hA with
  | @shares seatA _ _ hA =>
      cases hB with
      | @shares seatB _ _ hB =>
          by_cases hseat : seatA = seatB
          · subst hseat
            exact .inr (blocks_same_seat hB hA)
          · exact .inl (shares_exchange hinv hA hB hseat hhash)
      | action hB => cases hA.deal.symm.trans hB.dealt
  | action hA =>
      cases hB with
      | shares hB => cases hB.deal.symm.trans hA.dealt
      | action hB => exact .inr (blocks_actions hB hA)

/-- **The order does not matter**: ledgers that accepted the same envelopes, one by
one, are in the same state. -/
theorem ledger_run_perm {l r : List SignedEnvelope} {t t' : LedgerState G} (hperm : l.Perm r)
    (hl : Replay.run L.step LedgerState.start l = some t)
    (hr : Replay.run L.step LedgerState.start r = some t') : t = t' :=
  Replay.run_perm (fun h _ hstep => LedgerInv.step h hstep) ledger_exchangesOrBlocks LedgerInv.start
    (fun _ _ => trivial) hperm hl hr

/-! ## When the deal advances -/

/-- The seats that contributed to step `i`, one for each contribution. -/
def RoundReveal.contributionsTo (L : RoundReveal P) (i : ℕ) (l : List SignedEnvelope) : List ℕ :=
  l.filterMap fun e =>
    if e.type = .SHARES ∧ e.phase = dealPhase L.round i then L.roster.seatOf e.from_ else none

/-- The seat has to contribute to step `i`; a batch is one step. -/
def RoundReveal.Due (L : RoundReveal P) (i seat : ℕ) : Prop :=
  (L.batchDeal = true → i = 0) ∧ ∃ step, L.schedule[i]? = some step ∧ L.isDonor step seat

omit [DecidableEq G] in
theorem contributionsTo_snoc (i : ℕ) (l : List SignedEnvelope) (e : SignedEnvelope) :
    L.contributionsTo i (l ++ [e]) = L.contributionsTo i l ++
      (if e.type = .SHARES ∧ e.phase = dealPhase L.round i then L.roster.seatOf e.from_
        else none).toList := by
  rw [RoundReveal.contributionsTo, List.filterMap_append]
  congr 1

/-- Who has given after a contribution. -/
theorem SharesAccepted.gave_iff (hinv : LedgerInv L s) {seat : ℕ} {step : ScheduledDeal}
    {body : SharesBody q G} (h : SharesAccepted L s a seat step body) {i other : ℕ}
    (hdue : L.Due i other) :
    (L.contribute s (P.hashEnvelope a) seat body.items).Gave i other ↔
      s.Gave i other ∨ i = s.dealIndex ∧ seat = other := by
  refine ⟨fun hgave => ?_, contribute_gave h.deal⟩
  obtain ⟨hone, stepI, hstepI, hdonor⟩ := hdue
  by_cases hlast : (insert seat s.contributors).card = L.donorCount
  · have hindex : (L.contribute s (P.hashEnvelope a) seat body.items).dealIndex
        = s.dealIndex + if L.batchDeal then L.schedule.length else 1 := if_pos hlast
    have hcontributors : (L.contribute s (P.hashEnvelope a) seat body.items).contributors = ∅ :=
      if_pos hlast
    rw [LedgerState.Gave, hindex, hcontributors] at hgave
    have hlt := hgave.resolve_right (by simp)
    have hle : i ≤ s.dealIndex := by
      by_cases hbatch : L.batchDeal = true
      · rw [hone hbatch]
        exact Nat.zero_le _
      · rw [if_neg hbatch] at hlt
        omega
    rcases hle.lt_or_eq with hlt | rfl
    · exact .inl (.inl hlt)
    · cases hstepI.symm.trans h.deal
      have hall := Finset.eq_of_subset_of_card_le (insert_contributors hinv h.deal h.isDonor)
        (by rw [card_donors (mem_schedule_of_currentDeal h.deal), hlast])
      have hmem := mem_donors.2 hdonor
      rw [← hall, Finset.mem_insert] at hmem
      rcases hmem with rfl | hmem
      · exact .inr ⟨rfl, rfl⟩
      · exact .inl (.inr ⟨rfl, hmem⟩)
  · obtain ⟨hindex, hcontributors⟩ := contribute_eq_of_more (P.hashEnvelope a) body.items hlast
    rw [LedgerState.Gave, hindex, hcontributors, Finset.mem_insert] at hgave
    rcases hgave with hlt | ⟨rfl, rfl | hmem⟩
    · exact .inl (.inl hlt)
    · exact .inr ⟨rfl, rfl⟩
    · exact .inl (.inr ⟨rfl, hmem⟩)

/-- The contributions of a run: each seat's once, and those of the state. -/
def Contributed (L : RoundReveal P) (l : List SignedEnvelope) (s : LedgerState G) : Prop :=
  ∀ i, (L.contributionsTo i l).Nodup ∧
    ∀ seat, seat ∈ L.contributionsTo i l ↔ L.Due i seat ∧ s.Gave i seat

theorem Contributed.step {l : List SignedEnvelope} (h : Contributed L l s) (hinv : LedgerInv L s)
    (hstep : L.step s a = some t) : Contributed L (l ++ [a]) t := by
  obtain ⟨transition, hstep⟩ := step_eq_some.1 hstep
  intro i
  obtain ⟨hnodup, hmem⟩ := h i
  cases hstep with
  | @shares seat step body accepted =>
      have hphase := accepted.phase.trans (phase_of_dealing accepted.deal)
      rw [contributionsTo_snoc, accepted.scope.seat, accepted.type, hphase]
      by_cases hi : i = s.dealIndex
      · subst hi
        have hdue : L.Due s.dealIndex seat :=
          ⟨fun hbatch => hinv.batch hbatch (by simp [accepted.deal]), step, accepted.deal,
            accepted.isDonor⟩
        have hnew : seat ∉ L.contributionsTo s.dealIndex l := fun hold => by
          rcases ((hmem seat).1 hold).2 with hlt | ⟨-, hgave⟩
          · exact lt_irrefl _ hlt
          · exact accepted.pending hgave
        rw [if_pos ⟨rfl, rfl⟩]
        refine ⟨List.nodup_append.2 ⟨hnodup, List.nodup_singleton _, fun x hx y hy => ?_⟩,
          fun other => ?_⟩
        · rintro rfl
          exact hnew (List.mem_singleton.1 hy ▸ hx)
        · rw [List.mem_append, hmem other]
          constructor
          · rintro (⟨hdue', hgave⟩ | hother)
            · exact ⟨hdue', (accepted.gave_iff hinv hdue').2 (.inl hgave)⟩
            · obtain rfl := List.mem_singleton.1 hother
              exact ⟨hdue, (accepted.gave_iff hinv hdue).2 (.inr ⟨rfl, rfl⟩)⟩
          · rintro ⟨hdue', hgave⟩
            rcases (accepted.gave_iff hinv hdue').1 hgave with hgave | ⟨-, rfl⟩
            · exact .inl ⟨hdue', hgave⟩
            · exact .inr (List.mem_singleton.2 rfl)
      · rw [if_neg fun heq => hi (dealPhase_injective heq.2.symm), Option.toList_none,
          List.append_nil]
        refine ⟨hnodup, fun other => ?_⟩
        rw [hmem other]
        refine and_congr_right fun hdue => ?_
        rw [accepted.gave_iff hinv hdue]
        simp [hi]
  | action accepted =>
      rw [contributionsTo_snoc, accepted.type, if_neg (by simp), Option.toList_none,
        List.append_nil]
      exact h i

/-- **The deal advances exactly when every required donor has contributed.**  In every
state a run reaches, each seat's contributions to a step are its donors' and no seat's
twice, and the step is over if and only if no donor is missing. -/
theorem contributions_of_run {l : List SignedEnvelope}
    (h : Replay.run L.step LedgerState.start l = some s) :
    Contributed L l s ∧ ∀ i step, L.schedule[i]? = some step → (L.batchDeal = true → i = 0) →
      (i < s.dealIndex ↔ ∀ seat, L.isDonor step seat → seat ∈ L.contributionsTo i l) := by
  have hinv := ledgerInv_of_run h
  have hcontributed : Contributed L l s := by
    refine (Replay.run_history L.step (P := fun l s => LedgerInv L s ∧ Contributed L l s)
      ?_ ?_ h).2
    · refine ⟨LedgerInv.start, fun i => ⟨List.nodup_nil, fun seat => ?_⟩⟩
      simp [RoundReveal.contributionsTo, LedgerState.Gave, LedgerState.start]
    · rintro l t t' m ⟨hinv, hcontributed⟩ hstep
      exact ⟨hinv.step hstep, hcontributed.step hinv hstep⟩
  refine ⟨hcontributed, fun i step hstep hone => ⟨fun hlt seat hdonor => ?_, fun hall => ?_⟩⟩
  · exact ((hcontributed i).2 seat).2 ⟨⟨hone, step, hstep, hdonor⟩, .inl hlt⟩
  · by_contra hle
    have hgave : ∀ seat, L.isDonor step seat → i = s.dealIndex ∧ seat ∈ s.contributors :=
      fun seat hdonor =>
        (((hcontributed i).2 seat).1 (hall seat hdonor)).2.resolve_left hle
    have hsub : L.donors step ⊆ s.contributors := fun seat hmem =>
      (hgave seat (mem_donors.1 hmem)).2
    have hcard := Finset.card_le_card hsub
    rw [card_donors (List.mem_of_getElem? hstep)] at hcard
    have hwaiting := hinv.waiting
    omega

end

end Tablefolk
