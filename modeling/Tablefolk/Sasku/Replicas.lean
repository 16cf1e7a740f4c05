import Tablefolk.Sasku.RoundReceiver

/-!
# Replicas of a round

Two receivers of one round get the same envelopes in different orders.

* `HasAccepted`: the states of a receiver with what it has accepted since the round began.
* `RoundReveal.commitAll`: a ledger that commits envelopes, all of which it accepts.
* `replicas_agree`: what two receivers, or two ledgers, have in common.
-/

namespace Tablefolk

section

variable {q : ℕ} {G : Type} [AddCommGroup G] [Module (ZMod q) G] [DecidableEq G]
  {P : Primitives q G}

/-! ## Ledgers -/

/-- Commit envelopes one after the other, each with the seat that is expected; `none` when one of
them is not accepted. -/
def RoundReveal.commitAll (L : RoundReveal P) (s : LedgerState G) :
    List (SignedEnvelope × Option ℕ) → Option (LedgerState G)
  | [] => some s
  | (received, expectedSeat) :: rest =>
      match L.commit s received expectedSeat with
      | .ok (transition, next) => if transition.accepted then L.commitAll next rest else none
      | .error _ => none

variable {L : RoundReveal P} {s t : LedgerState G} {a b : SignedEnvelope}

theorem run_of_commitAll {calls : List (SignedEnvelope × Option ℕ)}
    (h : L.commitAll s calls = some t) : Replay.run L.step s (calls.map Prod.fst) = some t := by
  induction calls generalizing s with
  | nil => exact h
  | cons call rest ih =>
      obtain ⟨received, expectedSeat⟩ := call
      rw [RoundReveal.commitAll] at h
      split at h
      · rename_i transition next hcommit
        split at h
        · rename_i haccepted
          exact (Replay.run_cons_eq_some L.step).2 ⟨next, step_of_commit hcommit haccepted, ih h⟩
        · cases h
      · cases h

/-- A step that reads shares is a commit, whoever is expected. -/
theorem commit_of_step (h : L.step s a = some t) (htype : a.type = .SHARES)
    (expectedSeat : Option ℕ) :
    ∃ transition, L.commit s a expectedSeat = .ok (transition, t) ∧ transition.accepted = true := by
  obtain ⟨transition, hstep⟩ := step_eq_some.1 h
  refine ⟨transition, process_of_step hstep fun haction => ?_, ?_⟩
  · rw [htype] at haction
    cases haction
  · cases hstep with
    | shares accepted => rfl
    | action accepted => rfl

/-- Shares of different seats that are both accepted are accepted in either order, and lead to the
same state. -/
theorem commit_shares_exchange (hinv : LedgerInv L s) {expectedA expectedB : Option ℕ}
    {transitionA transitionB : RevealTransition q G} {s₁ s₂ : LedgerState G}
    (hA : L.commit s a expectedA = .ok (transitionA, s₁)) (hacceptedA : transitionA.accepted = true)
    (hB : L.commit s b expectedB = .ok (transitionB, s₂)) (hacceptedB : transitionB.accepted = true)
    (htypeA : a.type = .SHARES) (htypeB : b.type = .SHARES)
    (hseat : transitionA.seat ≠ transitionB.seat) (hhash : P.hashEnvelope a ≠ P.hashEnvelope b) :
    ∃ u transitionA' transitionB', L.commit s₁ b expectedB = .ok (transitionB', u) ∧
      transitionB'.accepted = true ∧ L.commit s₂ a expectedA = .ok (transitionA', u) ∧
      transitionA'.accepted = true := by
  have hstepA := (process_accepted hA hacceptedA).1
  have hstepB := (process_accepted hB hacceptedB).1
  cases hstepA with
  | action accepted =>
      rw [accepted.type] at htypeA
      cases htypeA
  | shares hsharesA =>
      cases hstepB with
      | action accepted =>
          rw [accepted.type] at htypeB
          cases htypeB
      | shares hsharesB =>
          obtain ⟨u, hBu, hAu⟩ := shares_exchange hinv hsharesA hsharesB hseat hhash
          obtain ⟨transitionB', hcommitB, hacceptedB'⟩ := commit_of_step hBu htypeB expectedB
          obtain ⟨transitionA', hcommitA, hacceptedA'⟩ := commit_of_step hAu htypeA expectedA
          exact ⟨u, transitionA', transitionB', hcommitB, hacceptedB', hcommitA, hacceptedA'⟩

/-- A step is over when each of its donors has contributed to it exactly once. -/
theorem deal_advances {l : List SignedEnvelope}
    (h : Replay.run L.step LedgerState.start l = some s) {i : ℕ} {step : ScheduledDeal}
    (hstep : L.schedule[i]? = some step) (hbatch : L.batchDeal = true → i = 0) :
    (i < s.dealIndex ↔ ∀ seat, L.isDonor step seat → (L.contributionsTo i l).count seat = 1) ∧
      ∀ seat, seat ∈ L.contributionsTo i l → L.isDonor step seat := by
  obtain ⟨hcontributed, hadvances⟩ := contributions_of_run h
  obtain ⟨hnodup, hmem⟩ := hcontributed i
  constructor
  · rw [hadvances i step hstep hbatch]
    refine forall_congr' fun seat => imp_congr_right fun _ => ?_
    constructor
    · exact fun hgiven => List.count_eq_one_of_mem hnodup hgiven
    · intro hcount
      exact List.count_pos_iff.1 (by omega)
  · intro seat hgiven
    obtain ⟨⟨-, other, hother, hdonor⟩, -⟩ := (hmem seat).1 hgiven
    cases hstep.symm.trans hother
    exact hdonor

/-! ## Receivers -/

variable {R : SaskuRound P} {ed : Ed25519}

/-- The receiver is in a state that it can get to, new or recovered, and has accepted these
envelopes since the round began. -/
def PersistentSaskuRoundReceiver.HasAccepted (R : SaskuRound P) (ed : Ed25519)
    (r : PersistentSaskuRoundReceiver P) (l : List SignedEnvelope) : Prop :=
  ∃ history first maxPendingEnvelopes maxPendingBytes durable events,
    Replay.run R.step R.init history = some first ∧
    Replay.run (fun r event => PersistentSaskuRoundReceiver.step r R ed event)
      (.start maxPendingEnvelopes maxPendingBytes durable first) events = some r ∧
    l = history ++ r.accepted

theorem core_of_hasAccepted {r : PersistentSaskuRoundReceiver P} {l : List SignedEnvelope}
    (h : r.HasAccepted R ed l) : Replay.run R.step R.init l = some r.core := by
  obtain ⟨history, first, _, _, durable, events, hfirst, hrun, rfl⟩ := h
  exact (Replay.run_append_eq_some R.step).2
    ⟨first, hfirst, (inv_of_run (.recovered hfirst) hrun).history⟩

/-- A run of the round keeps the invariant on the way. -/
theorem roundState_of_run {l : List SignedEnvelope} {c : RoundCore G} (s : RoundState R)
    (h : Replay.run R.step s.core l = some c) :
    ∃ t : RoundState R, Replay.run RoundState.step s l = some t ∧ t.core = c := by
  induction l generalizing s with
  | nil => exact ⟨s, rfl, Option.some.inj h⟩
  | cons e rest ih =>
      obtain ⟨next, hstep, hrest⟩ := (Replay.run_cons_eq_some R.step).1 h
      have hround := (round_step_eq_some s.inv).1 hstep
      obtain ⟨t, hrun, ht⟩ := ih ⟨next, s.inv.next hround⟩ hrest
      exact ⟨t, (Replay.run_cons_eq_some RoundState.step).2
        ⟨_, RoundState.step_eq_some.2 hround, hrun⟩, ht⟩

/-- The accepted log of this sender. -/
abbrev sentBy (sender : IdentityPublicKey) (l : List SignedEnvelope) : List SignedEnvelope :=
  Replay.logOf (fun e : SignedEnvelope => e.from_) sender l

/-- Rounds that read comparable logs have comparable histories, and are the same when the logs
are. -/
theorem rounds_agree {l l' : List SignedEnvelope} {c c' : RoundCore G}
    (h : Replay.run R.step R.init l = some c) (h' : Replay.run R.step R.init l' = some c')
    (hhash : Set.InjOn P.hashEnvelope {e | e ∈ l ∨ e ∈ l'})
    (hcomparable : ∀ sender, Replay.Comparable (sentBy sender l) (sentBy sender l')) :
    (c.hand.history <+: c'.hand.history ∨ c'.hand.history <+: c.hand.history) ∧
      ((∀ sender, sentBy sender l = sentBy sender l') → c = c') := by
  obtain ⟨t, hrun, rfl⟩ := roundState_of_run (.init R) h
  obtain ⟨t', hrun', rfl⟩ := roundState_of_run (.init R) h'
  have hexchanges := round_exchanges (R := R) hhash
  constructor
  · -- both histories are prefixes of the one where the runs meet
    obtain ⟨more, more', u, hmore, hmore'⟩ := Replay.run_join hexchanges (fun e he => .inl he)
      (fun e he => .inr he) hcomparable hrun hrun'
    exact List.prefix_or_prefix_of_prefix (grows_of_run hmore).history (grows_of_run hmore').history
  · intro hsame
    rw [Replay.run_eq_of_same_logs hexchanges (fun e he => .inl he) hsame hrun hrun']

/-- **Replicas agree.**  Two receivers of one round, whatever they have been through, which have
accepted comparable logs from every sender: one history of actions continues the other; and with
the same logs they have the same snapshot.  Two ledgers that have committed the same envelopes, in
different orders, are in the same state; shares of different seats that are both accepted commute;
and a step of the deal is over exactly when each of its donors has contributed to it once.
Different envelopes have different hashes. -/
theorem replicas_agree :
    (∀ (R : SaskuRound P) (ed : Ed25519) (r r' : PersistentSaskuRoundReceiver P)
      (l l' : List SignedEnvelope), r.HasAccepted R ed l → r'.HasAccepted R ed l' →
      Set.InjOn P.hashEnvelope {e | e ∈ l ∨ e ∈ l'} →
      (∀ sender, Replay.Comparable (sentBy sender l) (sentBy sender l')) →
      ((R.snapshot r.core).history <+: (R.snapshot r'.core).history ∨
        (R.snapshot r'.core).history <+: (R.snapshot r.core).history) ∧
      ((∀ sender, sentBy sender l = sentBy sender l') →
        R.snapshot r.core = R.snapshot r'.core)) ∧
    (∀ (L : RoundReveal P) (calls calls' : List (SignedEnvelope × Option ℕ)) (s s' : LedgerState G),
      (calls.map Prod.fst).Perm (calls'.map Prod.fst) → L.commitAll .start calls = some s →
      L.commitAll .start calls' = some s' →
      L.snapshot s = L.snapshot s' ∧ ∀ seat secretKey,
        L.readPrivateHand s seat secretKey = L.readPrivateHand s' seat secretKey) ∧
    ∀ (L : RoundReveal P) (calls : List (SignedEnvelope × Option ℕ)) (s : LedgerState G),
      L.commitAll .start calls = some s →
      (∀ a b expectedA expectedB transitionA transitionB s₁ s₂,
        L.commit s a expectedA = .ok (transitionA, s₁) → transitionA.accepted = true →
        L.commit s b expectedB = .ok (transitionB, s₂) → transitionB.accepted = true →
        a.type = .SHARES → b.type = .SHARES → transitionA.seat ≠ transitionB.seat →
        P.hashEnvelope a ≠ P.hashEnvelope b →
        ∃ u transitionA' transitionB', L.commit s₁ b expectedB = .ok (transitionB', u) ∧
          transitionB'.accepted = true ∧ L.commit s₂ a expectedA = .ok (transitionA', u) ∧
          transitionA'.accepted = true) ∧
      ∀ i step, L.schedule[i]? = some step → (L.batchDeal = true → i = 0) →
        (i < s.dealIndex ↔ ∀ seat, L.isDonor step seat →
          (L.contributionsTo i (calls.map Prod.fst)).count seat = 1) ∧
        ∀ seat, seat ∈ L.contributionsTo i (calls.map Prod.fst) → L.isDonor step seat := by
  refine ⟨?_, ?_, ?_⟩
  · intro R ed r r' l l' haccepted haccepted' hhash hcomparable
    obtain ⟨hhistory, hsame⟩ := rounds_agree (core_of_hasAccepted haccepted)
      (core_of_hasAccepted haccepted') hhash hcomparable
    refine ⟨hhistory, fun hlogs => ?_⟩
    rw [hsame hlogs]
  · intro L calls calls' s s' hperm hcalls hcalls'
    have hsame := ledger_run_perm hperm (run_of_commitAll hcalls) (run_of_commitAll hcalls')
    subst hsame
    exact ⟨rfl, fun _ _ => rfl⟩
  · intro L calls s hcalls
    have hrun := run_of_commitAll hcalls
    refine ⟨?_, fun i step hstep hbatch => deal_advances hrun hstep hbatch⟩
    intro a b expectedA expectedB transitionA transitionB s₁ s₂ hA hacceptedA hB hacceptedB
    exact commit_shares_exchange (ledgerInv_of_run hrun) hA hacceptedA hB hacceptedB

end

/-! ## Two small replicas -/

namespace SmallGroup

/-- A receiver after these envelopes. -/
def roundReplica (l : List SignedEnvelope) :
    Option (PersistentSaskuRoundReceiver (primitives fun _ => 0)) :=
  Replay.run (fun r event => PersistentSaskuRoundReceiver.step r saskuRound ed25519 event)
    (.start 4 1000000 sessionCalls saskuRound.init) (l.flatMap acceptedEvents)

theorem exists_replica {l : List SignedEnvelope}
    (h : (roundReplica l).map PersistentSaskuRoundReceiver.accepted = some l) :
    ∃ r, roundReplica l = some r ∧ r.HasAccepted saskuRound ed25519 l := by
  obtain ⟨r, hrun, haccepted⟩ := Option.map_eq_some_iff.1 h
  refine ⟨r, hrun, [], _, 4, 1000000, sessionCalls, l.flatMap acceptedEvents, rfl, hrun, ?_⟩
  rw [List.nil_append, haccepted]

end SmallGroup

/-- Two envelopes of different senders have the same logs in either order. -/
theorem sentBy_swap {a b : SignedEnvelope} (h : a.from_ ≠ b.from_) (sender : IdentityPublicKey) :
    sentBy sender [a, b] = sentBy sender [b, a] := by
  by_cases ha : a.from_ = sender
  · have hb : b.from_ ≠ sender := fun hb => h (ha.trans hb.symm)
    simp [sentBy, Replay.logOf, ha, hb]
  · simp [sentBy, Replay.logOf, List.filter_cons, ha]

open SmallGroup in
/-- The shares of two seats, in either order. -/
theorem replicas_agree_small :
    ∃ r r', roundReplica [openingEnvelope 1, openingEnvelope 2] = some r ∧
      roundReplica [openingEnvelope 2, openingEnvelope 1] = some r' ∧
      saskuRound.snapshot r.core = saskuRound.snapshot r'.core := by
  obtain ⟨r, hr, haccepted⟩ := exists_replica (l := [openingEnvelope 1, openingEnvelope 2])
    (by decide +kernel)
  obtain ⟨r', hr', haccepted'⟩ := exists_replica (l := [openingEnvelope 2, openingEnvelope 1])
    (by decide +kernel)
  have hlogs := sentBy_swap (a := openingEnvelope 1) (b := openingEnvelope 2) (by decide)
  have hhash : (primitives fun _ => 0).hashEnvelope (openingEnvelope 1) ≠
      (primitives fun _ => 0).hashEnvelope (openingEnvelope 2) := by decide +kernel
  refine ⟨r, r', hr, hr', (replicas_agree.1 saskuRound ed25519 r r' _ _ haccepted haccepted' ?_
    fun sender => .inl ⟨[], ?_⟩).2 hlogs⟩
  · intro a ha b hb hab
    have ha' : a = openingEnvelope 1 ∨ a = openingEnvelope 2 := by simpa [or_comm] using ha
    have hb' : b = openingEnvelope 1 ∨ b = openingEnvelope 2 := by simpa [or_comm] using hb
    rcases ha' with rfl | rfl <;> rcases hb' with rfl | rfl
    · rfl
    · exact absurd hab hhash
    · exact absurd hab.symm hhash
    · rfl
  · rw [List.append_nil, hlogs sender]

end Tablefolk
