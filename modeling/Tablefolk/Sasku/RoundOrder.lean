import Tablefolk.Engine.RevealOrder
import Tablefolk.Sasku.RoundInvariant

/-!
# A round in any order

Peers receive the shares, actions and disclosures of a round in different orders.

* `RoundState` is a state with its invariant, and `RoundState.step` the round as a
  machine on such states.
* `round_exchanges`: envelopes of different senders commute wherever both are accepted.
* `Grows`: what only ever grows along a run.
* `round_early`: an envelope that carries the phase of the current state and is accepted
  later is accepted now.
-/

namespace Tablefolk

section

variable {q : ℕ} {G : Type} [AddCommGroup G] [Module (ZMod q) G] [DecidableEq G]
  {P : Primitives q G} {R : SaskuRound P} {c c' c'' : RoundCore G} {a b e : SignedEnvelope}

/-! ## One envelope, one step -/

theorem SharesAccepted.unique {L : RoundReveal P} {s : LedgerState G} {seat seat' : ℕ}
    {step step' : ScheduledDeal} {body body' : SharesBody q G}
    (h : SharesAccepted L s e seat step body) (h' : SharesAccepted L s e seat' step' body') :
    seat = seat' ∧ body = body' :=
  ⟨Option.some.inj (h.scope.seat.symm.trans h'.scope.seat),
    Except.ok.inj (h.decoded.symm.trans h'.decoded)⟩

theorem PlayAccepted.unique {seat seat' : ℕ} {body body' : ActionBody q G}
    {revealed revealed' : List (ℕ × String)} {cards cards' : List (ℕ × SaskuCardId)}
    {action action' : SaskuHandAction} {hand hand' : HandState}
    (h : PlayAccepted R c e seat body revealed cards action hand)
    (h' : PlayAccepted R c e seat' body' revealed' cards' action' hand') :
    revealed = revealed' ∧ hand = hand' := by
  obtain rfl := Option.some.inj (h.turn.symm.trans h'.turn)
  obtain rfl := Except.ok.inj (h.ledger.decoded.symm.trans h'.ledger.decoded)
  obtain rfl := Except.ok.inj (h.ledger.opened.symm.trans h'.ledger.opened)
  obtain rfl := Except.ok.inj (h.parsed.symm.trans h'.parsed)
  obtain rfl := Except.ok.inj (h.decoded.symm.trans h'.decoded)
  exact ⟨rfl, Except.ok.inj (h.next.symm.trans h'.next)⟩

omit [DecidableEq G] in
/-- A result is fixed by what is pending. -/
theorem result_unique {pending : List ℕ} {result result' : Option SaskuRoundAuditResult}
    (hsame : R.buildAudit c = R.buildAudit c') (hopen : pending ≠ [] → result = none)
    (hclosed : pending = [] → ∃ checked, R.buildAudit c = .ok checked ∧ result = some checked)
    (hopen' : pending ≠ [] → result' = none)
    (hclosed' : pending = [] → ∃ checked, R.buildAudit c' = .ok checked ∧ result' = some checked) :
    result = result' := by
  by_cases hpending : pending = []
  · obtain ⟨checked, hchecked, rfl⟩ := hclosed hpending
    obtain ⟨checked', hchecked', rfl⟩ := hclosed' hpending
    rw [hsame, hchecked'] at hchecked
    cases hchecked
    rfl
  · rw [hopen hpending, hopen' hpending]

/-- An envelope leads to one state. -/
theorem RoundStep.unique (h : RoundStep R c e c') (h' : RoundStep R c e c'') : c' = c'' := by
  cases h with
  | shares accepted =>
      cases h' with
      | shares accepted' =>
          obtain ⟨rfl, rfl⟩ := accepted.unique accepted'
          rfl
      | action accepted' => cases accepted.type.symm.trans accepted'.ledger.type
      | audit accepted' => cases accepted.type.symm.trans accepted'.type
  | action accepted =>
      cases h' with
      | shares accepted' => cases accepted.ledger.type.symm.trans accepted'.type
      | action accepted' =>
          obtain ⟨rfl, rfl⟩ := accepted.unique accepted'
          rfl
      | audit accepted' => cases accepted.ledger.type.symm.trans accepted'.type
  | audit accepted hpending hopen hclosed =>
      cases h' with
      | shares accepted' => cases accepted.type.symm.trans accepted'.type
      | action accepted' => cases accepted.type.symm.trans accepted'.ledger.type
      | audit accepted' hpending' hopen' hclosed' =>
          cases accepted.opened.symm.trans accepted'.opened
          obtain rfl := Option.some.inj (accepted.sender.symm.trans accepted'.sender)
          subst hpending hpending'
          rw [result_unique rfl hopen hclosed hopen' hclosed']

theorem RoundStep.accepts (h : RoundStep R c e c') : ∃ t : SaskuRound.RoundTransition,
    t.accepted = true ∧ Accepts R c e t := by
  cases h with
  | shares accepted => exact ⟨_, rfl, .shares accepted⟩
  | action accepted => exact ⟨_, rfl, .action accepted⟩
  | audit accepted => exact ⟨_, rfl, .audit accepted⟩

/-- The machine makes exactly the steps. -/
theorem round_step_eq_some (h : RoundInv R c) : R.step c e = some c' ↔ RoundStep R c e c' := by
  constructor
  · intro hstep
    unfold SaskuRound.step at hstep
    split at hstep
    · rename_i t hclassify
      split at hstep
      · rename_i haccepted
        obtain ⟨next, hcommit, hnext⟩ := commit_of_accepts h (classify_accepts hclassify haccepted)
        rw [hcommit] at hstep
        cases hstep
        exact hnext
      · cases hstep
    · cases hstep
  · intro hstep
    obtain ⟨t, haccepted, haccepts⟩ := hstep.accepts
    obtain ⟨next, hcommit, hnext⟩ := commit_of_accepts h haccepts
    rw [SaskuRound.step, classify_of_accepts haccepts]
    simp only [haccepted, hcommit, hstep.unique hnext]
    rfl

/-- A state that satisfies the invariant. -/
structure RoundState (R : SaskuRound P) where
  core : RoundCore G
  inv : RoundInv R core

theorem RoundState.ext {s t : RoundState R} (h : s.core = t.core) : s = t := by
  cases s
  cases t
  cases h
  rfl

/-- The state of a new receiver. -/
def RoundState.init (R : SaskuRound P) : RoundState R := ⟨R.init, .init⟩

/-- The round as a machine on states with the invariant. -/
def RoundState.step (s : RoundState R) (e : SignedEnvelope) : Option (RoundState R) :=
  match h : R.step s.core e with
  | some next => some ⟨next, s.inv.next ((round_step_eq_some s.inv).1 h)⟩
  | none => none

theorem RoundState.step_eq_some {s t : RoundState R} :
    s.step e = some t ↔ RoundStep R s.core e t.core := by
  rw [← round_step_eq_some s.inv, RoundState.step]
  constructor
  · intro h
    split at h
    · rename_i next hnext
      cases h
      exact hnext
    · cases h
  · intro h
    split
    · rename_i next hnext
      rw [hnext] at h
      cases h
      rfl
    · rename_i hnone
      rw [hnone] at h
      cases h

/-! ## Different senders -/

/-- While the audit is open the hand is complete. -/
theorem AuditAccepted.complete (h : RoundInv R c) {seat : ℕ} {audit : SaskuRoundAuditSnapshot}
    (accepted : AuditAccepted R c e seat audit) : c.hand.phase = .complete := by
  by_contra hne
  cases (h.unaudited hne).1.symm.trans accepted.opened

omit [DecidableEq G] in
theorem seat_ne_of_sender_ne {L : RoundReveal P} {seat seat' : ℕ}
    (ha : L.roster.seatOf a.from_ = some seat) (hb : L.roster.seatOf b.from_ = some seat')
    (hne : a.from_ ≠ b.from_) : seat ≠ seat' := by
  rintro rfl
  exact hne (Roster.seatOf_inj ha hb)

/-- Contributions of different senders. -/
theorem round_exchange_shares (h : RoundInv R c) {seatA seatB : ℕ} {stepA stepB : ScheduledDeal}
    {bodyA bodyB : SharesBody q G} (hA : SharesAccepted R.ledger c.ledger a seatA stepA bodyA)
    (hB : SharesAccepted R.ledger c.ledger b seatB stepB bodyB) (hne : a.from_ ≠ b.from_)
    (hhash : P.hashEnvelope a ≠ P.hashEnvelope b) : ∃ d,
      RoundStep R { c with ledger :=
        R.ledger.contribute c.ledger (P.hashEnvelope a) seatA bodyA.items } b d ∧
      RoundStep R { c with ledger :=
        R.ledger.contribute c.ledger (P.hashEnvelope b) seatB bodyB.items } a d := by
  have hseat := seat_ne_of_sender_ne hA.scope.seat hB.scope.seat hne
  cases hA.deal.symm.trans hB.deal
  have hmoreA := card_insert_ne h.ledger hA.deal hA.isDonor hB.isDonor hB.pending hseat
  have hmoreB := card_insert_ne h.ledger hA.deal hB.isDonor hA.isDonor hA.pending hseat.symm
  have hcomm : R.ledger.contribute (R.ledger.contribute c.ledger (P.hashEnvelope a) seatA
        bodyA.items) (P.hashEnvelope b) seatB bodyB.items
      = R.ledger.contribute (R.ledger.contribute c.ledger (P.hashEnvelope b) seatB
        bodyB.items) (P.hashEnvelope a) seatA bodyA.items :=
    contribute_comm hhash hseat hmoreA hmoreB
  refine ⟨{ c with ledger := R.ledger.contribute (R.ledger.contribute c.ledger (P.hashEnvelope a)
    seatA bodyA.items) (P.hashEnvelope b) seatB bodyB.items },
    .shares (hB.after hmoreA hseat hhash.symm), ?_⟩
  rw [hcomm]
  exact .shares (hA.after hmoreB hseat.symm hhash)

omit [DecidableEq G] in
/-- A disclosure is still accepted after another seat's. -/
theorem AuditAccepted.after {seat other : ℕ} {audit audit' : SaskuRoundAuditSnapshot}
    {hash : Hash256} (accepted : AuditAccepted R c e seat audit) (hne : seat ≠ other)
    (hphase : audit'.phase = audit.phase) :
    AuditAccepted R
      { c with auditHashes := Function.update c.auditHashes other (some hash)
               audit := some audit' } e seat audit' :=
  { accepted with
    opened := rfl
    phase := accepted.phase.trans hphase.symm
    fresh := (Function.update_of_ne hne _ _).trans accepted.fresh }

/-- Disclosures of different senders. -/
theorem round_exchange_audits (h : RoundInv R c) {seatA seatB : ℕ}
    {auditA auditB : SaskuRoundAuditSnapshot} {pendingA pendingB : List ℕ}
    {resultA resultB : Option SaskuRoundAuditResult}
    (hA : AuditAccepted R c a seatA auditA) (hB : AuditAccepted R c b seatB auditB)
    (hpendingA : pendingA = auditA.pendingSenders.filter fun other => other ≠ seatA)
    (hopenA : pendingA ≠ [] → resultA = none)
    (hclosedA : pendingA = [] → ∃ checked, R.buildAudit c = .ok checked ∧ resultA = some checked)
    (hpendingB : pendingB = auditB.pendingSenders.filter fun other => other ≠ seatB)
    (hopenB : pendingB ≠ [] → resultB = none)
    (hclosedB : pendingB = [] → ∃ checked, R.buildAudit c = .ok checked ∧ resultB = some checked)
    (hne : a.from_ ≠ b.from_) : ∃ d,
      RoundStep R
        { c with auditHashes := Function.update c.auditHashes seatA (some (P.hashEnvelope a))
                 audit := some ⟨auditA.phase, pendingA, resultA⟩ } b d ∧
      RoundStep R
        { c with auditHashes := Function.update c.auditHashes seatB (some (P.hashEnvelope b))
                 audit := some ⟨auditB.phase, pendingB, resultB⟩ } a d := by
  have hseat := seat_ne_of_sender_ne hA.sender hB.sender hne
  cases hA.opened.symm.trans hB.opened
  have hcA := h.audit hA hpendingA hopenA hclosedA
  have hcB := h.audit hB hpendingB hopenB hclosedB
  have hBA : AuditAccepted R
      { c with auditHashes := Function.update c.auditHashes seatA (some (P.hashEnvelope a))
               audit := some ⟨auditA.phase, pendingA, resultA⟩ } b seatB
      ⟨auditA.phase, pendingA, resultA⟩ := hB.after hseat.symm rfl
  have hAB : AuditAccepted R
      { c with auditHashes := Function.update c.auditHashes seatB (some (P.hashEnvelope b))
               audit := some ⟨auditA.phase, pendingB, resultB⟩ } a seatA
      ⟨auditA.phase, pendingB, resultB⟩ := hA.after hseat rfl
  obtain ⟨d, -, hd⟩ := commit_of_accepts hcA (.audit hBA)
  obtain ⟨d', -, hd'⟩ := commit_of_accepts hcB (.audit hAB)
  refine ⟨d, hd, ?_⟩
  cases hd with
  | shares accepted => cases accepted.type.symm.trans hB.type
  | action accepted => cases accepted.ledger.type.symm.trans hB.type
  | @audit seat audit pending result accepted hpending hopen hclosed =>
      cases accepted.opened
      obtain rfl := Option.some.inj (accepted.sender.symm.trans hB.sender)
      cases hd' with
      | shares accepted' => cases accepted'.type.symm.trans hA.type
      | action accepted' => cases accepted'.ledger.type.symm.trans hA.type
      | @audit seat' audit' pending' result' accepted' hpending' hopen' hclosed' =>
          cases accepted'.opened
          obtain rfl := Option.some.inj (accepted'.sender.symm.trans hA.sender)
          have hsame : pending = pending' := by
            rw [hpending, hpending']
            show pendingA.filter _ = pendingB.filter _
            rw [hpendingA, hpendingB, List.filter_comm]
          subst hsame
          obtain rfl := result_unique (buildAudit_congr rfl rfl) hopen hclosed hopen' hclosed'
          have hcomm := Function.update_comm hseat (some (P.hashEnvelope a))
            (some (P.hashEnvelope b)) c.auditHashes
          have hstep := RoundStep.audit hAB hpending' hopen' hclosed'
          rw [← hcomm] at hstep
          exact hstep

/-- **Envelopes of different senders commute** wherever both are accepted, as long as
their hashes differ. -/
theorem round_exchanges {E : Set SignedEnvelope} (hhash : Set.InjOn P.hashEnvelope E) :
    Replay.Exchanges (RoundState.step (R := R)) (fun e => e.from_) fun e => e ∈ E := by
  intro s a b s₁ s₂ ha hb hne hstepA hstepB
  rw [RoundState.step_eq_some] at hstepA hstepB
  have hhash : P.hashEnvelope a ≠ P.hashEnvelope b := fun heq =>
    hne (by rw [hhash ha hb heq])
  suffices hmeet : ∃ d, RoundStep R s₁.core b d ∧ RoundStep R s₂.core a d by
    obtain ⟨d, hd₁, hd₂⟩ := hmeet
    exact ⟨⟨d, s₁.inv.next hd₁⟩, RoundState.step_eq_some.2 hd₁, RoundState.step_eq_some.2 hd₂⟩
  obtain ⟨c, hinv⟩ := s
  generalize s₁.core = c₁ at hstepA ⊢
  generalize s₂.core = c₂ at hstepB ⊢
  change RoundStep R c a c₁ at hstepA
  change RoundStep R c b c₂ at hstepB
  cases hstepA with
  | shares hA =>
      cases hstepB with
      | shares hB => exact round_exchange_shares hinv hA hB hne hhash
      | action hB => cases hA.deal.symm.trans hB.ledger.dealt
      | audit hB => exact absurd (hB.complete hinv) (hinv.of_dealing hA.deal).2
  | action hA =>
      cases hstepB with
      | shares hB => cases hB.deal.symm.trans hA.ledger.dealt
      | action hB =>
          have hseat := Option.some.inj (hA.turn.symm.trans hB.turn)
          exact absurd hseat (seat_ne_of_sender_ne hA.ledger.scope.seat hB.ledger.scope.seat hne)
      | audit hB => exact absurd (hB.complete hinv) hA.incomplete
  | audit hA hpendingA hopenA hclosedA =>
      cases hstepB with
      | shares hB => exact absurd (hA.complete hinv) (hinv.of_dealing hB.deal).2
      | action hB => exact absurd (hA.complete hinv) hB.incomplete
      | audit hB hpendingB hopenB hclosedB =>
          exact round_exchange_audits hinv hA hB hpendingA hopenA hclosedA hpendingB hopenB hclosedB
            hne

/-! ## What only grows -/

/-- What no step undoes. -/
structure Grows (c c' : RoundCore G) : Prop where
  dealIndex : c.ledger.dealIndex ≤ c'.ledger.dealIndex
  contributors : c.ledger.dealIndex = c'.ledger.dealIndex →
    c.ledger.contributors ⊆ c'.ledger.contributors
  accepted : ∀ hash, c'.ledger.accepted hash = none → c.ledger.accepted hash = none
  auditHashes : ∀ seat, c'.auditHashes seat = none → c.auditHashes seat = none
  history : c.hand.history <+: c'.hand.history

omit [AddCommGroup G] [Module (ZMod q) G] [DecidableEq G] in
theorem Grows.refl (c : RoundCore G) : Grows c c :=
  ⟨le_rfl, fun _ => subset_rfl, fun _ => id, fun _ => id, List.prefix_rfl⟩

omit [AddCommGroup G] [Module (ZMod q) G] [DecidableEq G] in
theorem Grows.trans (h : Grows c c') (h' : Grows c' c'') : Grows c c'' where
  dealIndex := h.dealIndex.trans h'.dealIndex
  contributors := fun heq => (h.contributors (by have := h.dealIndex; have := h'.dealIndex; omega)).trans
    (h'.contributors (by have := h.dealIndex; have := h'.dealIndex; omega))
  accepted := fun hash hnone => h.accepted hash (h'.accepted hash hnone)
  auditHashes := fun seat hnone => h.auditHashes seat (h'.auditHashes seat hnone)
  history := h.history.trans h'.history

theorem update_eq_none {α β : Type} [DecidableEq α] {f : α → Option β} {a a' : α} {b : β}
    (h : Function.update f a (some b) a' = none) : f a' = none := by
  by_cases heq : a' = a
  · subst heq
    rw [Function.update_self] at h
    cases h
  · rwa [Function.update_of_ne heq] at h

theorem RoundStep.grows (h : RoundStep R c e c') : Grows c c' := by
  cases h with
  | @shares seat step body accepted =>
      by_cases hlast : (insert seat c.ledger.contributors).card = R.ledger.donorCount
      · have hindex : (R.ledger.contribute c.ledger (P.hashEnvelope e) seat body.items).dealIndex
            = c.ledger.dealIndex + if R.ledger.batchDeal then R.ledger.schedule.length else 1 :=
          if_pos hlast
        have hlt : c.ledger.dealIndex < R.ledger.schedule.length :=
          (List.getElem?_eq_some_iff.1 accepted.deal).1
        have hpos : 0 < if R.ledger.batchDeal then R.ledger.schedule.length else 1 := by
          split <;> omega
        exact ⟨by simp only [hindex]; omega, fun heq => by simp only [hindex] at heq; omega,
          fun hash => update_eq_none, fun _ => id, List.prefix_rfl⟩
      · obtain ⟨hindex, hcontributors⟩ :=
          contribute_eq_of_more (P.hashEnvelope e) body.items hlast
        exact ⟨hindex.ge, fun _ => hcontributors ▸ Finset.subset_insert _ _,
          fun hash => update_eq_none, fun _ => id, List.prefix_rfl⟩
  | action accepted =>
      exact ⟨le_rfl, fun _ => subset_rfl, fun hash => update_eq_none, fun _ => id,
        (plays_of_nextAction accepted.next).1 ▸ List.prefix_append _ _⟩
  | audit accepted =>
      exact ⟨le_rfl, fun _ => subset_rfl, fun _ => id, fun seat => update_eq_none,
        List.prefix_rfl⟩

theorem grows_of_run {l : List SignedEnvelope} {s t : RoundState R}
    (h : Replay.run RoundState.step s l = some t) : Grows s.core t.core :=
  Replay.run_invariant RoundState.step (P := fun t => Grows s.core t.core)
    (fun hgrows hstep => hgrows.trans (RoundState.step_eq_some.1 hstep).grows) (.refl _) h

/-! ## What carries the current phase -/

/-- The type of the messages the round waits for. -/
def SaskuRound.awaitedType (R : SaskuRound P) (c : RoundCore G) : EnvelopeMessageType :=
  if c.audit.isSome then .AUDIT_DISCLOSE
  else if (R.ledger.currentDeal c.ledger).isSome then .SHARES
  else .ACTION

/-- The phase of the messages the round waits for. -/
def SaskuRound.awaitedPhase (R : SaskuRound P) (c : RoundCore G) : String :=
  match c.audit with
  | some audit => audit.phase
  | none => R.ledger.phase c.ledger

/-- The envelope carries the type and the phase the round waits for. -/
def RoundState.Awaits (s : RoundState R) (e : SignedEnvelope) : Prop :=
  e.type = R.awaitedType s.core ∧ e.phase = R.awaitedPhase s.core

instance (s : RoundState R) (e : SignedEnvelope) : Decidable (s.Awaits e) :=
  inferInstanceAs (Decidable (_ ∧ _))

theorem awaitedType_eq_shares {s : RoundState R} (h : R.awaitedType s.core = .SHARES) :
    s.core.audit = none ∧ ∃ step, R.ledger.currentDeal s.core.ledger = some step := by
  rw [SaskuRound.awaitedType] at h
  split at h
  · cases h
  · rename_i haudit
    split at h
    · rename_i hdeal
      exact ⟨by simpa using haudit, Option.isSome_iff_exists.1 hdeal⟩
    · cases h

theorem awaitedType_eq_action {s : RoundState R} (h : R.awaitedType s.core = .ACTION) :
    s.core.audit = none ∧ R.ledger.currentDeal s.core.ledger = none := by
  rw [SaskuRound.awaitedType] at h
  split at h
  · cases h
  · rename_i haudit
    split at h
    · cases h
    · rename_i hdeal
      exact ⟨by simpa using haudit, by simpa using hdeal⟩

theorem awaitedType_eq_audit {s : RoundState R} (h : R.awaitedType s.core = .AUDIT_DISCLOSE) :
    ∃ audit, s.core.audit = some audit := by
  rw [SaskuRound.awaitedType] at h
  split at h
  · rename_i haudit
    exact Option.isSome_iff_exists.1 haudit
  · split at h <;> cases h

/-- Between two actions nothing else is accepted. -/
theorem eq_of_run_of_history {l : List SignedEnvelope} {s t : RoundState R}
    (hrun : Replay.run RoundState.step s l = some t) (haudit : s.core.audit = none)
    (hdealt : R.ledger.currentDeal s.core.ledger = none)
    (hhistory : s.core.hand.history.length = t.core.hand.history.length) : s = t := by
  cases l with
  | nil =>
      cases hrun
      rfl
  | cons m rest =>
      obtain ⟨s₁, hstep, hrest⟩ := (Replay.run_cons_eq_some _).1 hrun
      have hgrows := (grows_of_run hrest).history.length_le
      have hround := RoundState.step_eq_some.1 hstep
      generalize s₁.core = c₁ at hround hgrows
      cases hround with
      | shares accepted => cases accepted.deal.symm.trans hdealt
      | action accepted =>
          rw [(plays_of_nextAction accepted.next).1, List.length_append, List.length_singleton]
            at hgrows
          omega
      | audit accepted => cases accepted.opened.symm.trans haudit

/-- **What carries the current phase and is accepted later is accepted now.** -/
theorem round_early {E : Set SignedEnvelope} : Replay.Early (RoundState.step (R := R))
    (fun e => e.from_) (fun e => e ∈ E) RoundState.Awaits := by
  intro s t t' m l _ _ hready hrun hstep
  have hgrows := grows_of_run hrun
  have hround := RoundState.step_eq_some.1 hstep
  suffices hnow : ∃ c', RoundStep R s.core m c' by
    obtain ⟨c', hc'⟩ := hnow
    exact ⟨⟨c', s.inv.next hc'⟩, RoundState.step_eq_some.2 hc'⟩
  obtain ⟨htype, hphase⟩ := hready
  generalize t'.core = next at hround
  cases hround with
  | @shares seat step body accepted =>
      obtain ⟨haudit, step', hdeal⟩ := awaitedType_eq_shares (htype.symm.trans accepted.type)
      rw [SaskuRound.awaitedPhase, haudit] at hphase
      have hindex : s.core.ledger.dealIndex = t.core.ledger.dealIndex := by
        have hsame := hphase.symm.trans accepted.phase
        rw [phase_of_dealing hdeal, phase_of_dealing accepted.deal] at hsame
        exact dealPhase_injective hsame
      have hdeal : R.ledger.currentDeal s.core.ledger = some step := by
        rw [RoundReveal.currentDeal, hindex]
        exact accepted.deal
      exact ⟨_, .shares
        { accepted with
          fresh := hgrows.accepted _ accepted.fresh
          deal := hdeal
          phase := hphase
          pending := fun hmem => accepted.pending (hgrows.contributors hindex hmem) }⟩
  | @action seat body revealed cards action hand accepted =>
      obtain ⟨haudit, hdealt⟩ := awaitedType_eq_action (htype.symm.trans accepted.ledger.type)
      rw [SaskuRound.awaitedPhase, haudit] at hphase
      have hindex : s.core.ledger.actionIndex = t.core.ledger.actionIndex := by
        have hsame := hphase.symm.trans accepted.ledger.phase
        rw [phase_of_dealt hdealt, phase_of_dealt accepted.ledger.dealt] at hsame
        exact playPhase_injective hsame
      rw [s.inv.actions, t.inv.actions] at hindex
      obtain rfl := eq_of_run_of_history hrun haudit hdealt hindex
      exact ⟨_, .action accepted⟩
  | @audit seat audit pending result accepted =>
      obtain ⟨audit', haudit⟩ := awaitedType_eq_audit (htype.symm.trans accepted.type)
      rw [SaskuRound.awaitedPhase, haudit] at hphase
      have hnow : AuditAccepted R s.core m seat audit' :=
        { accepted with
          opened := haudit
          phase := hphase
          fresh := hgrows.auditHashes _ accepted.fresh }
      obtain ⟨c', -, hc'⟩ := commit_of_accepts s.inv (.audit hnow)
      exact ⟨c', hc'⟩

/-- The first message of a run carries the awaited phase. -/
theorem awaits_of_step {s t : RoundState R} (h : s.step e = some t) : s.Awaits e := by
  have hround := RoundState.step_eq_some.1 h
  generalize t.core = next at hround
  cases hround with
  | shares accepted =>
      have haudit := (s.inv.unaudited (s.inv.of_dealing accepted.deal).2).1
      refine ⟨?_, ?_⟩
      · simp [SaskuRound.awaitedType, haudit, accepted.deal, accepted.type]
      · simp [SaskuRound.awaitedPhase, haudit, accepted.phase]
  | action accepted =>
      have haudit := (s.inv.unaudited accepted.incomplete).1
      refine ⟨?_, ?_⟩
      · simp [SaskuRound.awaitedType, haudit, accepted.ledger.dealt, accepted.ledger.type]
      · simp [SaskuRound.awaitedPhase, haudit, accepted.ledger.phase]
  | audit accepted =>
      refine ⟨?_, ?_⟩
      · simp [SaskuRound.awaitedType, accepted.opened, accepted.type]
      · simp [SaskuRound.awaitedPhase, accepted.opened, accepted.phase]

end

end Tablefolk
