import Tablefolk.Sasku.Replicas
import Tablefolk.Sasku.RoundReplay

/-!
# What the session of a round holds

A receiver classifies an envelope before the session keeps it, and commits it afterwards.

* `not_accepted_again`, `seen_of_duplicate`: a round knows just the envelopes that it has accepted.
* `Synced`: what holds of a receiver and its session while it has not failed.
* `synced_of_run`: the session holds the traffic that was accepted, and what is on its way.
-/

namespace Tablefolk

section

variable {q : ℕ} {G : Type} [AddCommGroup G] [Module (ZMod q) G] [DecidableEq G]
  {P : Primitives q G} {R : SaskuRound P} {ed : Ed25519} {c c' : RoundCore G} {e : SignedEnvelope}
  {l : List SignedEnvelope}

/-! ## What a round knows -/

/-- The round has an envelope with this hash. -/
def RoundCore.Knows (c : RoundCore G) (hash : Hash256) : Prop :=
  c.ledger.accepted hash ≠ none ∨ ∃ seat, c.auditHashes seat = some hash

/-- A step adds the hash of what it reads, and no other. -/
theorem RoundStep.knows (h : RoundStep R c e c') {hash : Hash256} (hknows : c'.Knows hash) :
    c.Knows hash ∨ hash = P.hashEnvelope e := by
  by_cases heq : hash = P.hashEnvelope e
  · exact .inr heq
  left
  cases h with
  | shares accepted =>
      rcases hknows with hknows | hknows
      · refine .inl fun hnone => hknows ?_
        simp only [RoundReveal.contribute, Function.update_of_ne heq, hnone]
      · exact .inr hknows
  | action accepted =>
      rcases hknows with hknows | hknows
      · refine .inl fun hnone => hknows ?_
        simp only [LedgerState.reveal, Function.update_of_ne heq, hnone]
      · exact .inr hknows
  | @audit seat audit pending result accepted =>
      rcases hknows with hknows | ⟨other, hother⟩
      · exact .inl hknows
      · refine .inr ⟨other, ?_⟩
        by_cases hseat : other = seat
        · subst hseat
          simp only [Function.update_self] at hother
          exact absurd (Option.some.inj hother).symm heq
        · simpa only [Function.update_of_ne hseat] using hother

theorem knows_of_run (h : Replay.run R.step R.init l = some c) {hash : Hash256}
    (hknows : c.Knows hash) : ∃ e ∈ l, P.hashEnvelope e = hash := by
  refine Replay.run_history R.step (P := fun l c => RoundInv R c ∧
    (c.Knows hash → ∃ e ∈ l, P.hashEnvelope e = hash)) ⟨.init, ?_⟩ ?_ h |>.2 hknows
  · rintro (hknows | ⟨seat, hknows⟩)
    · exact absurd rfl hknows
    · cases hknows
  · rintro l c c' e ⟨hinv, ih⟩ hstep
    have hround := (round_step_eq_some hinv).1 hstep
    refine ⟨hinv.next hround, fun hknows => ?_⟩
    rcases hround.knows hknows with hknows | rfl
    · obtain ⟨other, hother, hhash⟩ := ih hknows
      exact ⟨other, List.mem_append_left _ hother, hhash⟩
    · exact ⟨e, by simp, rfl⟩

/-- What a classification takes for a duplicate has the hash of something that was accepted. -/
theorem seen_of_duplicate (h : Replay.run R.step R.init l = some c)
    {t : SaskuRound.RoundTransition} (hclassify : R.classify c e = .ok t)
    (hduplicate : t.accepted = false) : ∃ other ∈ l, P.hashEnvelope other = P.hashEnvelope e := by
  refine knows_of_run h ?_
  rw [SaskuRound.classify] at hclassify
  split at hclassify
  · right
    rw [SaskuRound.classifyAudit] at hclassify
    obtain ⟨-, hclassify⟩ := check_bind_eq_ok.1 hclassify
    split at hclassify
    · cases hclassify
    rename_i seat hseat
    obtain ⟨-, hclassify⟩ := check_bind_eq_ok.1 hclassify
    split at hclassify
    · cases hclassify
    obtain ⟨-, hclassify⟩ := check_bind_eq_ok.1 hclassify
    split at hclassify
    · cases hclassify
    obtain ⟨-, hclassify⟩ := check_bind_eq_ok.1 hclassify
    obtain ⟨hprior, hclassify⟩ := check_bind_eq_ok.1 hclassify
    cases hclassify
    rw [throwIf_eq_ok, not_and_or, not_not, not_not] at hprior
    refine ⟨seat, hprior.resolve_left fun hnone => ?_⟩
    simp [hnone] at hduplicate
  · obtain ⟨transition, ledger, hcommit, haccepted, -⟩ :=
      classifyReveal_duplicate hclassify hduplicate
    left
    exact Option.isSome_iff_ne_none.1 (process_not_accepted hcommit haccepted).2

/-- What was accepted is not accepted again. -/
theorem not_accepted_again (h : Replay.run R.step R.init l = some c) (he : e ∈ l)
    {t : SaskuRound.RoundTransition} (hclassify : R.classify c e = .ok t) : t.accepted = false := by
  obtain ⟨u, v, rfl⟩ := List.append_of_mem he
  obtain ⟨s, hrun, rfl⟩ := roundState_of_run (.init R) h
  obtain ⟨before, -, hrun⟩ := (Replay.run_append_eq_some _).1 hrun
  obtain ⟨after, hstep, hrest⟩ := (Replay.run_cons_eq_some _).1 hrun
  have hgrows := grows_of_run hrest
  have hround := RoundState.step_eq_some.1 hstep
  by_contra hnot
  have haccepts := classify_accepts hclassify (Bool.eq_true_of_not_eq_false hnot)
  generalize after.core = next at hgrows hround
  cases hround with
  | @shares seat step body accepted =>
      have hheld : (R.ledger.contribute before.core.ledger (P.hashEnvelope e) seat body.items).accepted
          (P.hashEnvelope e) ≠ none := by simp [RoundReveal.contribute]
      cases haccepts with
      | shares again => exact hheld (hgrows.accepted _ again.fresh)
      | action again => exact hheld (hgrows.accepted _ again.ledger.fresh)
      | audit again => cases accepted.type.symm.trans again.type
  | @action seat body revealed cards action hand accepted =>
      have hheld : (before.core.ledger.reveal (P.hashEnvelope e) revealed).accepted
          (P.hashEnvelope e) ≠ none := by simp [LedgerState.reveal]
      cases haccepts with
      | shares again => exact hheld (hgrows.accepted _ again.fresh)
      | action again => exact hheld (hgrows.accepted _ again.ledger.fresh)
      | audit again => cases accepted.ledger.type.symm.trans again.type
  | @audit seat audit pending result accepted =>
      cases haccepts with
      | shares again => cases accepted.type.symm.trans again.type
      | action again => cases accepted.type.symm.trans again.ledger.type
      | @audit other _ again =>
          obtain rfl := Option.some.inj (accepted.sender.symm.trans again.sender)
          have hnone := hgrows.auditHashes _ again.fresh
          simp at hnone

/-! ## A step of the session -/

omit [DecidableEq G] in
/-- A receipt that accepts extends the registry by its envelope; any other one leaves it alone. -/
theorem persistThenIngest_effect {before after next : SessionChainRegistry P}
    {received : SignedEnvelope} {outcome : AcceptedEnvelopePersistenceOutcome}
    {receipt : Except PersistentSessionReceiverError PersistentSessionReceiveResult}
    (h : persistThenIngest ed before after received outcome = (receipt, next)) :
    (∃ persistence head, receipt = .ok (.accepted persistence) ∧
      after.classify received = .chain (.accepted head) ∧ next = (after.ingest received).2) ∨
    (∀ persistence, receipt ≠ .ok (.accepted persistence)) ∧ next = after := by
  unfold persistThenIngest at h
  split at h
  · split at h
    · cases h
      exact .inr ⟨by simp, rfl⟩
    · cases h
      exact .inr ⟨by simp, rfl⟩
    · rename_i persistence _
      split at h
      · rename_i head ingested hingest
        cases h
        refine .inl ⟨persistence, head, rfl, ?_, by rw [hingest]⟩
        rw [← HoldsLogs.ingest_fst, hingest]
      · rename_i existing ingested hingest
        cases h
        exact .inr ⟨by simp, ingest_duplicate hingest fun head => by simp⟩
      · cases h
        exact .inr ⟨by simp, rfl⟩
  · split at h
    · cases h
      exact .inr ⟨by simp, rfl⟩
    · cases h
      exact .inr ⟨by simp, rfl⟩
    · cases h
      exact .inr ⟨by simp, rfl⟩
  · cases h
    exact .inr ⟨by simp, rfl⟩

/-- The calls on a session that have not settled. -/
def Serial.State.waiting {S C K A Z : Type} (s : Serial.State S C K A Z) : List (ℕ × C) :=
  s.active.toList.map (fun call => (call.1, call.2.1)) ++ s.queue

theorem ids_eq_waiting {S C K A Z : Type} (s : Serial.State S C K A Z) :
    s.ids = s.done.map Serial.Settled.id ++ s.waiting.map Prod.fst := by
  unfold Serial.State.ids Serial.State.waiting
  rw [List.map_append, List.map_map]
  rfl

/-- Whether an envelope is traffic of a round. -/
def isRoundTraffic (round : ℕ) (e : SignedEnvelope) : Bool :=
  (e.type = .SHARES ∨ e.type = .ACTION ∨ e.type = .AUDIT_DISCLOSE) ∧ e.round = round

/-- Whether an envelope is traffic of this round. -/
abbrev SaskuRound.isTraffic (R : SaskuRound P) : SignedEnvelope → Bool :=
  isRoundTraffic R.ledger.round

/-- What was accepted is traffic of the round. -/
theorem traffic_of_mem (h : Replay.run R.step R.init l = some c) (he : e ∈ l) :
    R.isTraffic e = true ∧ ∃ seat < 4, R.ledger.roster.seatOf e.from_ = some seat := by
  obtain ⟨u, v, rfl⟩ := List.append_of_mem he
  obtain ⟨s, hrun, rfl⟩ := roundState_of_run (.init R) h
  obtain ⟨before, -, hrun⟩ := (Replay.run_append_eq_some _).1 hrun
  obtain ⟨after, hstep, -⟩ := (Replay.run_cons_eq_some _).1 hrun
  obtain ⟨-, hround, htype, hseat⟩ := (RoundState.step_eq_some.1 hstep).scope
  exact ⟨decide_eq_true ⟨htype, hround⟩, hseat⟩

/-- What has a hash of its own and is classified is traffic of the round. -/
theorem traffic_of_classify {E : Set SignedEnvelope} (hhash : Set.InjOn P.hashEnvelope E)
    (h : Replay.run R.step R.init l = some c) (hl : ∀ e ∈ l, e ∈ E) (he : e ∈ E)
    {t : SaskuRound.RoundTransition} (hclassify : R.classify c e = .ok t) :
    R.isTraffic e = true := by
  cases haccepted : t.accepted with
  | true =>
      obtain ⟨next, -, hnext⟩ := commit_of_accepts (.recovered h)
        (classify_accepts hclassify haccepted)
      obtain ⟨-, hround, htype, -⟩ := hnext.scope
      exact decide_eq_true ⟨htype, hround⟩
  | false =>
      obtain ⟨other, hother, hsame⟩ := seen_of_duplicate h hclassify haccepted
      rw [← hhash (hl other hother) he hsame]
      exact (traffic_of_mem h hother).1

/-- What a session may get after the round has begun: traffic of the round that is not too large, or
what others bring. -/
def SaskuRound.Brings (R : SaskuRound P) (others : SignedEnvelope → Prop) (e : SignedEnvelope) :
    Prop :=
  R.isTraffic e = true ∧ e.byteLength ≤ MAX_ROUND_REVEAL_ENVELOPE_BYTES ∨
    R.isTraffic e = false ∧ others e

/-- What the session of a round holds: what it began with, and the traffic that was accepted and
whatever others have brought. -/
structure SessionHolds (R : SaskuRound P) (ed : Ed25519) (others : SignedEnvelope → Prop)
    (first : ℕ → List SignedEnvelope) (session : SessionChainRegistry P)
    (l : List SignedEnvelope) : Prop where
  game : session.gameId = R.ledger.gameId
  roster : session.roster = R.ledger.roster
  held : ∃ logs, HoldsLogs session logs ∧ (∀ seat, ∀ e ∈ logs seat, e.Artifact ed) ∧
    (∀ seat, ∃ later, logs seat = first seat ++ later ∧ ∀ e ∈ later, R.Brings others e) ∧
    ∀ seat < 4, (logs seat).filter R.isTraffic = R.sentFrom seat l

section

variable {others : SignedEnvelope → Prop} {first : ℕ → List SignedEnvelope}
  {session : SessionChainRegistry P}

omit [DecidableEq G] in
/-- The session accepts an envelope: traffic of the round, or what others bring. -/
theorem SessionHolds.ingest (h : SessionHolds R ed others first session l)
    (hartifact : e.Artifact ed) (hbrings : R.Brings others e) {head : ChainHead}
    (haccepted : session.classify e = .chain (.accepted head)) :
    SessionHolds R ed others first (session.ingest e).2
      (l ++ if R.isTraffic e = true then [e] else []) := by
  obtain ⟨logs, hlogs, hartifacts, hlater, hfilter⟩ := h.held
  obtain ⟨hgame, hroster⟩ := ingest_scope session e
  obtain ⟨-, seat, hseat, -⟩ := hlogs.classify_accepted.1 ⟨head, haccepted⟩
  refine ⟨hgame.trans h.game, hroster.trans h.roster, _, hlogs.ingest_of_accepted hseat haccepted,
    ?_, ?_, ?_⟩
  · intro other m hm
    by_cases heq : other = seat
    · subst heq
      rw [Function.update_self, List.mem_append, List.mem_singleton] at hm
      rcases hm with hm | rfl
      · exact hartifacts other m hm
      · exact hartifact
    · rw [Function.update_of_ne heq] at hm
      exact hartifacts other m hm
  · intro other
    obtain ⟨later, hother, hmem⟩ := hlater other
    by_cases heq : other = seat
    · subst heq
      refine ⟨later ++ [e], by rw [Function.update_self, hother, List.append_assoc], ?_⟩
      intro m hm
      rcases List.mem_append.1 hm with hm | hm
      · exact hmem m hm
      · rw [List.mem_singleton.1 hm]
        exact hbrings
    · rw [Function.update_of_ne heq]
      exact ⟨later, hother, hmem⟩
  · intro other hlt
    rw [h.roster] at hseat
    simp only [SaskuRound.sentFrom, List.filter_append]
    by_cases heq : other = seat
    · subst heq
      rw [Function.update_self, List.filter_append, hfilter other hlt]
      refine congrArg _ ?_
      by_cases htraffic : R.isTraffic e = true
      · simp [htraffic, hseat]
      · simp [htraffic]
    · rw [Function.update_of_ne heq, hfilter other hlt]
      have hnot : R.ledger.roster.seatOf e.from_ ≠ some other := fun hother =>
        heq (Option.some.inj (hother.symm.trans hseat))
      by_cases htraffic : R.isTraffic e = true
      · simp [htraffic, hnot, SaskuRound.sentFrom]
      · simp [htraffic, SaskuRound.sentFrom]

omit [DecidableEq G] in
/-- The session has each of the messages once. -/
theorem SessionHolds.nodup (h : SessionHolds R ed others first session l) {seat : ℕ}
    (hseat : seat < 4) : (R.sentFrom seat l).Nodup := by
  obtain ⟨logs, hlogs, -, -, hfilter⟩ := h.held
  have hsize : seat < session.roster.size := by
    rw [h.roster, R.four]
    exact hseat
  rw [← hfilter seat hseat]
  exact ((List.nodup_flatMap.1 hlogs.nodup_held).1 seat (List.mem_range.2 hsize)).filter _

end

namespace PersistentSaskuRoundReceiver

/-- What the session has kept and the round has not committed yet. -/
def inFlight (r : PersistentSaskuRoundReceiver P) : List SignedEnvelope :=
  match r.active with
  | some (_, .storing _ transition call) =>
      match (r.receiptOf call).map Serial.Settled.result with
      | some (.ok (.accepted _)) => [transition.received]
      | _ => []
  | _ => []

/-- What holds of a receiver that has not failed, and of its session.  The session began with the
logs `first`, with which `history` had been accepted. -/
structure Synced (R : SaskuRound P) (ed : Ed25519) (E : Set SignedEnvelope)
    (others : SignedEnvelope → Prop) (first : ℕ → List SignedEnvelope)
    (history : List SignedEnvelope) (r : PersistentSaskuRoundReceiver P) : Prop where
  holds : SessionHolds R ed others first r.durable.resource
    (history ++ (r.accepted ++ r.inFlight))
  known : ∀ e ∈ history ++ r.accepted, e ∈ E
  ids : r.durable.ids = List.range r.durable.next
  /-- a call with traffic of the round is the one the receiver waits for -/
  waiting : ∀ id e, (id, e) ∈ r.durable.waiting → e.Artifact ed ∧
    (R.isTraffic e = true ∧ (∃ job authored t, r.active = some (job, .storing authored t id)) ∨
      R.isTraffic e = false ∧ others e)
  /-- what the receiver waits for is called, or has settled -/
  storing : ∀ job authored t call, r.active = some (job, .storing authored t call) →
    R.isTraffic t.received = true ∧ t.received.byteLength ≤ MAX_ROUND_REVEAL_ENVELOPE_BYTES ∧
      t.received ∈ E ∧
      ((call, t.received) ∈ r.durable.waiting ∨ (r.receiptOf call).isSome = true)
  queued : ∀ received, .receive received ∈ r.queue → received ∈ E ∧
    received.Artifact ed ∧ received.byteLength ≤ MAX_ROUND_REVEAL_ENVELOPE_BYTES

variable {E : Set SignedEnvelope} {others : SignedEnvelope → Prop}
  {first : ℕ → List SignedEnvelope} {history : List SignedEnvelope}
  {r r' : PersistentSaskuRoundReceiver P}

/-! ## Steps that leave the session alone -/

/-- The receiver does not wait for a receipt. -/
def NotStoring (r : PersistentSaskuRoundReceiver P) : Prop :=
  ∀ job authored t call, r.active ≠ some (job, .storing authored t call)

omit [DecidableEq G] in
theorem NotStoring.inFlight (h : r.NotStoring) : r.inFlight = [] := by
  unfold PersistentSaskuRoundReceiver.inFlight
  split
  · rename_i job authored t call hactive
    exact absurd hactive (h job authored t call)
  · rfl

/-- A step that leaves the session alone, and what was accepted, and begins or ends no receipt. -/
theorem Synced.quiet (h : r.Synced R ed E others first history) (hdurable : r'.durable = r.durable)
    (haccepted : r'.accepted = r.accepted)
    (hactive : r'.active = r.active ∨ r.NotStoring ∧ r'.NotStoring)
    (hqueue : ∀ received, .receive received ∈ r'.queue → .receive received ∈ r.queue ∨
      received ∈ E ∧ received.Artifact ed ∧
        received.byteLength ≤ MAX_ROUND_REVEAL_ENVELOPE_BYTES) :
    r'.Synced R ed E others first history := by
  have hflight : r'.inFlight = r.inFlight := by
    rcases hactive with hactive | ⟨hidle, hidle'⟩
    · unfold inFlight receiptOf
      rw [hactive, hdurable]
    · rw [hidle.inFlight, hidle'.inFlight]
  constructor
  · rw [hdurable, haccepted, hflight]
    exact h.holds
  · rw [haccepted]
    exact h.known
  · rw [hdurable]
    exact h.ids
  · intro id e hmem
    rw [hdurable] at hmem
    obtain ⟨hartifact, htraffic | hforeign⟩ := h.waiting id e hmem
    · refine ⟨hartifact, .inl ⟨htraffic.1, ?_⟩⟩
      obtain ⟨-, job, authored, t, hstoring⟩ := htraffic
      rcases hactive with hactive | ⟨hidle, -⟩
      · exact ⟨job, authored, t, hactive.trans hstoring⟩
      · exact absurd hstoring (hidle job authored t id)
    · exact ⟨hartifact, .inr hforeign⟩
  · intro job authored t call hstoring
    rcases hactive with hactive | ⟨-, hidle'⟩
    · unfold receiptOf
      rw [hdurable]
      exact h.storing job authored t call (hactive ▸ hstoring)
    · exact absurd hstoring (hidle' job authored t call)
  · intro received hmem
    rcases hqueue received hmem with hmem | hnew
    · exact h.queued received hmem
    · exact hnew

/-- The receiver stops waiting, and has accepted what was on its way. -/
theorem Synced.settle (h : r.Synced R ed E others first history) (hdurable : r'.durable = r.durable)
    (haccepted : r'.accepted = r.accepted ++ r.inFlight) (hidle : r'.NotStoring)
    (hwaiting : ∀ id e, (id, e) ∈ r.durable.waiting → R.isTraffic e = false)
    (hqueue : r'.queue = r.queue) : r'.Synced R ed E others first history := by
  constructor
  · rw [hdurable, haccepted, hidle.inFlight, List.append_nil]
    exact h.holds
  · rw [haccepted, ← List.append_assoc]
    intro e he
    rcases List.mem_append.1 he with he | he
    · exact h.known e he
    · unfold inFlight at he
      split at he
      · rename_i job authored t call hactive
        split at he
        · rw [List.mem_singleton.1 he]
          exact (h.storing job authored t call hactive).2.2.1
        · cases he
      · cases he
  · rw [hdurable]
    exact h.ids
  · intro id e hmem
    rw [hdurable] at hmem
    obtain ⟨hartifact, ⟨htraffic, -⟩ | hforeign⟩ := h.waiting id e hmem
    · rw [hwaiting id e hmem] at htraffic
      cases htraffic
    · exact ⟨hartifact, .inr hforeign⟩
  · intro job authored t call hstoring
    exact absurd hstoring (hidle job authored t call)
  · rw [hqueue]
    exact h.queued

omit [DecidableEq G] in
/-- No call with traffic of the round waits when the receiver does not. -/
theorem Synced.not_waiting (h : r.Synced R ed E others first history) (hidle : r.NotStoring)
    {id : ℕ} (hmem : (id, e) ∈ r.durable.waiting) : R.isTraffic e = false := by
  obtain ⟨-, ⟨-, job, authored, t, hstoring⟩ | ⟨hforeign, -⟩⟩ := h.waiting id e hmem
  · exact absurd hstoring (hidle job authored t id)
  · exact hforeign

/-! ## Steps of the session -/

omit [DecidableEq G] in
theorem artifact_of_check (h : (PersistentSessionReceiver (P := P) ed).check e = none) :
    e.Artifact ed := by
  simp only [PersistentSessionReceiver] at h
  split at h
  · cases h
  · rename_i hverify
    exact (verifyArtifact_eq_ok.1 hverify).2

omit [DecidableEq G] in
/-- A call that waits has no receipt. -/
theorem Synced.not_settled (h : r.Synced R ed E others first history) {id : ℕ}
    (hmem : (id, e) ∈ r.durable.waiting) : r.receiptOf id = none := by
  rw [receiptOf, List.find?_eq_none]
  intro settled hsettled hid
  have hids := h.ids
  rw [ids_eq_waiting] at hids
  have hnodup : (r.durable.done.map Serial.Settled.id ++ r.durable.waiting.map Prod.fst).Nodup :=
    hids ▸ List.nodup_range
  rw [List.nodup_append] at hnodup
  exact hnodup.2.2 settled.id (List.mem_map_of_mem hsettled) id (List.mem_map_of_mem hmem)
    (by simpa using hid)

omit [DecidableEq G] in
/-- Calls that wait have different numbers. -/
theorem Synced.same_call (h : r.Synced R ed E others first history) {id : ℕ}
    {a b : SignedEnvelope} (ha : (id, a) ∈ r.durable.waiting) (hb : (id, b) ∈ r.durable.waiting) :
    a = b := by
  have hids := h.ids
  rw [ids_eq_waiting] at hids
  have hnodup : (r.durable.done.map Serial.Settled.id ++ r.durable.waiting.map Prod.fst).Nodup :=
    hids ▸ List.nodup_range
  rw [List.nodup_append] at hnodup
  exact congrArg Prod.snd (List.inj_on_of_nodup_map hnodup.2.1 ha hb rfl)

omit [DecidableEq G] in
theorem receiptOf_settles {durable : SessionCalls P} {settled : SessionReceipt}
    (hdone : durable.done = r.durable.done ++ [settled]) (call : ℕ) :
    { r with durable := durable }.receiptOf call
      = (r.receiptOf call).or (if settled.id = call then some settled else none) := by
  unfold receiptOf
  rw [hdone, List.find?_append]
  by_cases hid : settled.id = call <;> simp [hid]

omit [DecidableEq G] in
/-- What is on its way depends on the receipt that is waited for. -/
theorem inFlight_congr (hactive : r'.active = r.active) (hreceipt : ∀ job authored t call,
      r.active = some (job, .storing authored t call) → r'.receiptOf call = r.receiptOf call) :
    r'.inFlight = r.inFlight := by
  unfold inFlight
  rw [hactive]
  split
  · rename_i job authored t call hstoring
    rw [hreceipt job authored t call hstoring]
  · rfl

section

variable {job : RoundJob} {authored : Bool} {t : SaskuRound.RoundTransition} {call : ℕ}

omit [DecidableEq G] in
theorem inFlight_of_accepted (hactive : r.active = some (job, .storing authored t call))
    {settled : SessionReceipt} (hsettled : r.receiptOf call = some settled)
    {persistence : PersistenceStatus} (hresult : settled.result = .ok (.accepted persistence)) :
    r.inFlight = [t.received] := by
  unfold inFlight
  simp only [hactive, hsettled, Option.map_some, hresult]

/-- What is on its way is what the receiver waits for. -/
theorem exists_storing (he : e ∈ r.inFlight) : ∃ job authored t call,
    r.active = some (job, .storing authored t call) ∧ r.inFlight = [t.received] := by
  have hflight := he
  unfold inFlight at hflight
  split at hflight
  · rename_i job authored t call hactive
    split at hflight
    · rename_i persistence hresult
      obtain ⟨settled, hsettled, hresult⟩ := Option.map_eq_some_iff.1 hresult
      exact ⟨job, authored, t, call, hactive, inFlight_of_accepted hactive hsettled hresult⟩
    · cases hflight
  · cases hflight

omit [DecidableEq G] in
theorem inFlight_of_not_accepted (hactive : r.active = some (job, .storing authored t call))
    (hnot : ∀ settled, r.receiptOf call = some settled →
      ∀ persistence, settled.result ≠ .ok (.accepted persistence)) : r.inFlight = [] := by
  unfold inFlight
  simp only [hactive]
  split
  · rename_i persistence hresult
    obtain ⟨settled, hsettled, hresult⟩ := Option.map_eq_some_iff.1 hresult
    exact absurd hresult (hnot settled hsettled persistence)
  · rfl

end

/-- A call of the session settles. -/
theorem Synced.settles (h : r.Synced R ed E others first history) {durable : SessionCalls P}
    (id : ℕ) (c : SignedEnvelope) {answer : Option AcceptedEnvelopePersistenceOutcome}
    {result : Except PersistentSessionReceiverError PersistentSessionReceiveResult}
    (hwaiting : r.durable.waiting = (id, c) :: durable.waiting)
    (hdone : durable.done = r.durable.done ++ [⟨id, c, answer, result⟩])
    (hids : durable.ids = List.range durable.next)
    (heffect : (∃ persistence head, result = .ok (.accepted persistence) ∧
        r.durable.resource.classify c = .chain (.accepted head) ∧
        durable.resource = (r.durable.resource.ingest c).2) ∨
      (∀ persistence, result ≠ .ok (.accepted persistence)) ∧
        durable.resource = r.durable.resource) :
    { r with durable := durable }.Synced R ed E others first history := by
  have hhead : (id, c) ∈ r.durable.waiting := by
    rw [hwaiting]
    exact List.mem_cons_self
  have hnone := h.not_settled hhead
  have hreceipt := receiptOf_settles (r := r) hdone
  have hmem : ∀ entry ∈ durable.waiting, entry ∈ r.durable.waiting := by
    intro entry hentry
    rw [hwaiting]
    exact List.mem_cons_of_mem _ hentry
  refine ⟨?_, h.known, hids, fun id e he => h.waiting id e (hmem _ he), ?_, h.queued⟩
  · show SessionHolds R ed others first durable.resource (history ++ (r.accepted ++ _))
    obtain ⟨hartifact, ⟨htraffic, job, authored, t, hactive⟩ | ⟨hforeign, hothers⟩⟩ :=
      h.waiting id c hhead
    · -- the receipt that the receiver waits for
      obtain ⟨-, hsize, -, hcall⟩ := h.storing job authored t id hactive
      have hsame : t.received = c := by
        rcases hcall with hcall | hsome
        · exact h.same_call hcall hhead
        · rw [hnone] at hsome
          cases hsome
      have hbefore : r.inFlight = [] :=
        inFlight_of_not_accepted hactive fun settled hsettled => by
          rw [hnone] at hsettled
          cases hsettled
      have hholds := h.holds
      rw [hbefore, List.append_nil] at hholds
      have hafter := hreceipt id
      rw [hnone, Option.none_or, if_pos rfl] at hafter
      rcases heffect with ⟨persistence, head, rfl, haccepted, hresource⟩ | ⟨hnot, hresource⟩
      · have hflight : { r with durable := durable }.inFlight = [t.received] :=
          inFlight_of_accepted hactive hafter rfl
        have hnext := hholds.ingest hartifact (.inl ⟨htraffic, hsame ▸ hsize⟩) haccepted
        rw [if_pos htraffic, List.append_assoc] at hnext
        rw [hflight, hresource, hsame]
        exact hnext
      · have hflight : { r with durable := durable }.inFlight = [] := by
          refine inFlight_of_not_accepted hactive fun settled hsettled => ?_
          cases hafter.symm.trans hsettled
          exact hnot
        rw [hflight, List.append_nil, hresource]
        exact hholds
    · -- what others have called
      have hflight : { r with durable := durable }.inFlight = r.inFlight := by
        refine inFlight_congr rfl fun job authored t call hactive => ?_
        have hne : id ≠ call := by
          rintro rfl
          obtain ⟨htraffic, -, -, hcall⟩ := h.storing job authored t id hactive
          rcases hcall with hcall | hsome
          · rw [h.same_call hcall hhead, hforeign] at htraffic
            cases htraffic
          · rw [hnone] at hsome
            cases hsome
        rw [hreceipt call, if_neg hne, Option.or_none]
      rw [hflight]
      rcases heffect with ⟨persistence, head, rfl, haccepted, hresource⟩ | ⟨-, hresource⟩
      · have hnext := h.holds.ingest hartifact (.inr ⟨hforeign, hothers⟩) haccepted
        rw [hforeign, if_neg Bool.false_ne_true, List.append_nil] at hnext
        rw [hresource]
        exact hnext
      · rw [hresource]
        exact h.holds
  · intro job authored t call hactive
    obtain ⟨htraffic, hsize, hknown, hcall⟩ := h.storing job authored t call hactive
    refine ⟨htraffic, hsize, hknown, ?_⟩
    rw [hreceipt call]
    rcases hcall with hcall | hsome
    · rw [hwaiting, List.mem_cons] at hcall
      rcases hcall with hcall | hcall
      · obtain ⟨rfl, rfl⟩ := Prod.ext_iff.1 hcall
        exact .inr (by simp)
      · exact .inl hcall
    · exact .inr (by simp [hsome])

/-- What others do to the session: they bring what is no traffic of the round. -/
def Foreign (R : SaskuRound P) (ed : Ed25519) (others : SignedEnvelope → Prop) :
    SessionInput → Prop
  | .call e => R.isTraffic e = false ∧ others e
  | .write e => e.Artifact ed ∧ R.isTraffic e = false ∧ others e
  | _ => True

/-- Whatever happens to the session. -/
theorem Synced.durable (h : r.Synced R ed E others first history) {input : SessionInput}
    (hforeign : Foreign R ed others input) {durable : SessionCalls P}
    (hstep : Serial.step (PersistentSessionReceiver ed) r.durable input = some durable) :
    { r with durable := durable }.Synced R ed E others first history := by
  have hmoves := Serial.moves_of_step hstep
  have hids := hmoves.ids h.ids
  cases hmoves with
  | refused hcheck => exact ⟨h.holds, h.known, h.ids, h.waiting, h.storing, h.queued⟩
  | @queued c hcheck =>
      refine ⟨h.holds, h.known, hids, ?_, ?_, h.queued⟩
      · intro id e hmem
        simp only [Serial.State.waiting, ← List.append_assoc] at hmem
        rcases List.mem_append.1 hmem with hmem | hmem
        · exact h.waiting id e hmem
        · cases List.mem_singleton.1 hmem
          exact ⟨artifact_of_check hcheck, .inr hforeign⟩
      · intro job authored t call hactive
        obtain ⟨htraffic, hsize, hknown, hcall⟩ := h.storing job authored t call hactive
        refine ⟨htraffic, hsize, hknown, hcall.imp_left fun hmem => ?_⟩
        simp only [Serial.State.waiting, ← List.append_assoc]
        exact List.mem_append_left _ hmem
  | @rejected id c rest result hidle hqueue hclassify =>
      refine h.settles id c ?_ rfl hids (.inr ⟨?_, rfl⟩)
      · simp [Serial.State.waiting, hidle, hqueue]
      · rintro persistence rfl
        simp only [PersistentSessionReceiver] at hclassify
        split at hclassify <;> cases hclassify
  | @began id c rest k hidle hqueue hclassify =>
      have hwaiting : ∀ entry, entry ∈ r.durable.waiting ↔
          entry ∈ (Serial.State.waiting
            { r.durable with queue := rest, active := some (id, c, k) }) := by
        intro entry
        simp [Serial.State.waiting, hidle, hqueue]
      refine ⟨h.holds, h.known, hids, fun id e hmem => h.waiting id e ((hwaiting _).2 hmem), ?_,
        h.queued⟩
      intro job authored t call hactive
      obtain ⟨htraffic, hsize, hknown, hcall⟩ := h.storing job authored t call hactive
      exact ⟨htraffic, hsize, hknown, hcall.imp_left (hwaiting _).1⟩
  | @answered id c k answer result next hactive hsettle =>
      refine h.settles id c ?_ rfl hids (persistThenIngest_effect hsettle)
      simp [Serial.State.waiting, hactive]
  | @written e =>
      refine ⟨?_, h.known, h.ids, h.waiting, h.storing, h.queued⟩
      by_cases haccepted : ∃ head, r.durable.resource.classify e = .chain (.accepted head)
      · obtain ⟨head, haccepted⟩ := haccepted
        have hnext := h.holds.ingest hforeign.1 (.inr hforeign.2) haccepted
        rwa [hforeign.2.1, if_neg Bool.false_ne_true, List.append_nil] at hnext
      · have hsame : (r.durable.resource.ingest e).2 = r.durable.resource :=
          HoldsLogs.ingest_of_not_accepted fun head hhead => haccepted ⟨head, hhead⟩
        have hholds := h.holds
        rw [← hsame] at hholds
        exact hholds

/-! ## Submitting and settling -/

section

variable {job : RoundJob} {authored : Bool} {t : SaskuRound.RoundTransition} {call : ℕ}
  {result : RoundCallResult} {received : SignedEnvelope}

omit [DecidableEq G] in
/-- A job that ends without a failure has just settled. -/
theorem conclude_eq_finish (h : (r.conclude job authored result).failure = none) :
    r.conclude job authored result = r.finish job result ∧ r.failure = none := by
  unfold conclude at h ⊢
  split at h
  · cases h
  · cases h
  · exact ⟨rfl, h⟩

theorem Synced.finish (h : r.Synced R ed E others first history) (hflight : r.inFlight = [])
    (hwaiting : ∀ id e, (id, e) ∈ r.durable.waiting → R.isTraffic e = false)
    (hresult : acceptedOf result = none) :
    (r.finish job result).Synced R ed E others first history := by
  refine h.settle rfl ?_ (by rintro _ _ _ _ ⟨⟩) hwaiting rfl
  rw [hflight, List.append_nil]
  exact (leaves_finish (R := R) hresult).accepted

/-- An envelope is classified and given to the session. -/
theorem Synced.submit (h : r.Synced R ed E others first history)
    (hhash : Set.InjOn P.hashEnvelope E)
    (hcore : Replay.run R.step R.init (history ++ r.accepted) = some r.core)
    (hidle : r.NotStoring) (hknown : received ∈ E) (hartifact : received.Artifact ed)
    (hsize : received.byteLength ≤ MAX_ROUND_REVEAL_ENVELOPE_BYTES)
    (hhealthy : (r.receiveOne R ed job authored received).failure = none) :
    (r.receiveOne R ed job authored received).Synced R ed E others first history := by
  have hwaiting : ∀ id e, (id, e) ∈ r.durable.waiting → R.isTraffic e = false :=
    fun id e hmem => h.not_waiting hidle hmem
  unfold receiveOne at hhealthy ⊢
  split at hhealthy
  · rw [(conclude_eq_finish hhealthy).1]
    exact h.finish hidle.inFlight hwaiting rfl
  split at hhealthy
  · rename_i hclosed
    rw [if_pos hclosed, (conclude_eq_finish hhealthy).1]
    exact h.finish hidle.inFlight hwaiting rfl
  rename_i hopen
  rw [if_neg hopen]
  split at hhealthy
  · cases (conclude_eq_finish hhealthy).2
  · rw [(conclude_eq_finish hhealthy).1]
    exact h.finish hidle.inFlight hwaiting rfl
  rename_i t hclassify
  have htraffic := traffic_of_classify hhash hcore h.known hknown hclassify
  have hsame : t.received = received := (commit_of_classify (.recovered hcore) hclassify).1
  have hcheck : (PersistentSessionReceiver (P := P) ed).check received = none := by
    simp only [PersistentSessionReceiver, verifyArtifact_of_artifact hartifact]
  have hstep : Serial.step (PersistentSessionReceiver ed) r.durable (.call received)
      = some { r.durable with
          queue := r.durable.queue ++ [(r.durable.next, received)]
          next := r.durable.next + 1 } := by
    simp only [Serial.step, hcheck]
  have hids := (Serial.moves_of_step hstep).ids h.ids
  have hmem : ∀ id e, (id, e) ∈ Serial.State.waiting { r.durable with
        queue := r.durable.queue ++ [(r.durable.next, received)]
        next := r.durable.next + 1 } →
      (id, e) ∈ r.durable.waiting ∨ id = r.durable.next ∧ e = received := by
    intro id e hmem
    simp only [Serial.State.waiting, ← List.append_assoc] at hmem
    rcases List.mem_append.1 hmem with hmem | hmem
    · exact .inl hmem
    · cases List.mem_singleton.1 hmem
      exact .inr ⟨rfl, rfl⟩
  have hnone : r.receiptOf r.durable.next = none := by
    rw [receiptOf, List.find?_eq_none]
    intro settled hsettled hid
    have hrange : settled.id ∈ List.range r.durable.next := by
      rw [← h.ids, Serial.State.ids]
      exact List.mem_append_left _ (List.mem_map_of_mem hsettled)
    rw [List.mem_range] at hrange
    have hid : settled.id = r.durable.next := by simpa using hid
    omega
  rw [hstep, Option.getD_some]
  constructor
  · -- nothing is on its way yet
    have hflight := inFlight_of_not_accepted (r := { r with
        active := some (job, .storing authored t r.durable.next)
        durable := { r.durable with
          queue := r.durable.queue ++ [(r.durable.next, received)]
          next := r.durable.next + 1 } }) rfl
      fun settled hsettled => by
        rw [show r.receiptOf r.durable.next = some settled from hsettled] at hnone
        cases hnone
    rw [hflight]
    have hholds := h.holds
    rw [hidle.inFlight] at hholds
    exact hholds
  · exact h.known
  · exact hids
  · intro id e hwait
    rcases hmem id e hwait with hwait | ⟨rfl, rfl⟩
    · have hforeign := hwaiting id e hwait
      obtain ⟨hartifact, ⟨htraffic, -⟩ | hothers⟩ := h.waiting id e hwait
      · rw [hforeign] at htraffic
        cases htraffic
      · exact ⟨hartifact, .inr hothers⟩
    · exact ⟨hartifact, .inl ⟨htraffic, job, authored, t, rfl⟩⟩
  · rintro _ _ _ _ ⟨⟩
    rw [hsame]
    refine ⟨htraffic, hsize, hknown, .inl ?_⟩
    simp [Serial.State.waiting]
  · exact h.queued

/-- **A receipt** that fails nothing commits what was prepared, or settles the job and accepts
nothing; what the session has accepted is committed. -/
theorem receipt_effect {core : RoundCore G} (hcommit : R.commit r.core t = .ok core)
    (hactive : r.active = some (job, .storing authored t call)) {settled : SessionReceipt}
    (hsettled : r.receiptOf call = some settled)
    (hhealthy : (r.receipt R job authored t settled).failure = none) :
    (∃ chainAccepted persistence, settled.result
        = .ok (if chainAccepted then .accepted persistence else .duplicate persistence) ∧
      r.reflects t.received = true ∧
      r.receipt R job authored t settled = r.committed job core t chainAccepted persistence) ∨
    (∀ persistence, settled.result ≠ .ok (.accepted persistence)) ∧
      ∃ result, acceptedOf result = none ∧
        r.receipt R job authored t settled = r.finish job result := by
  have hcommitted (chainAccepted : Bool) (persistence : PersistenceStatus)
      (hhealthy : (r.commit R job authored t chainAccepted persistence).failure = none) :
      r.reflects t.received = true ∧ r.commit R job authored t chainAccepted persistence
        = r.committed job core t chainAccepted persistence := by
    rcases hreflects : r.reflects t.received with _ | _
    · unfold commit at hhealthy
      rw [hreflects, if_neg Bool.false_ne_true] at hhealthy
      cases (conclude_eq_finish hhealthy).2
    · refine ⟨rfl, ?_⟩
      cases hfailure : r.failure with
      | none => exact commit_eq r job authored hcommit _ _ hfailure hreflects
      | some code =>
          unfold commit at hhealthy
          simp only [hreflects, if_true, hfailure] at hhealthy
          rw [(conclude_eq_finish hhealthy).2] at hfailure
          cases hfailure
  unfold receipt at hhealthy ⊢
  split at hhealthy
  · rename_i error herror
    right
    refine ⟨fun persistence => by rw [herror]; rintro ⟨⟩, ?_⟩
    split at hhealthy
    · exact ⟨_, rfl, (conclude_eq_finish hhealthy).1⟩
    · exact ⟨_, rfl, (conclude_eq_finish hhealthy).1⟩
    · cases (conclude_eq_finish hhealthy).2
  · rename_i result hresult
    split at hhealthy
    · cases (conclude_eq_finish hhealthy).2
    rename_i hcall
    rw [if_neg hcall]
    have hreject (reason : RoundRejection)
        (hhealthy : (r.reject job authored t.received reason).failure = none) :
        ∃ result, acceptedOf result = none ∧
          r.reject job authored t.received reason = r.finish job result := by
      unfold reject at hhealthy ⊢
      split at hhealthy
      · exact ⟨_, rfl, (conclude_eq_finish hhealthy).1⟩
      · exact ⟨_, rfl, (conclude_eq_finish hhealthy).1⟩
    split at hhealthy
    · obtain ⟨hreflects, heq⟩ := hcommitted true _ hhealthy
      exact .inl ⟨true, _, hresult, hreflects, heq⟩
    · obtain ⟨hreflects, heq⟩ := hcommitted false _ hhealthy
      exact .inl ⟨false, _, hresult, hreflects, heq⟩
    · exact .inr ⟨by rw [hresult]; rintro persistence ⟨⟩, hreject _ hhealthy⟩
    · exact .inr ⟨by rw [hresult]; rintro persistence ⟨⟩, hreject _ hhealthy⟩
    · exact .inr ⟨by rw [hresult]; rintro persistence ⟨⟩, hreject _ hhealthy⟩
    · exact .inr ⟨by rw [hresult]; rintro persistence ⟨⟩, hreject _ hhealthy⟩
    · cases (conclude_eq_finish hhealthy).2

omit [DecidableEq G] in
/-- The session has what it reflects. -/
theorem mem_of_reflects (h : SessionHolds R ed others first r.durable.resource l)
    (hreflects : r.reflects e = true) (htraffic : R.isTraffic e = true) : e ∈ l := by
  obtain ⟨logs, hlogs, hartifacts, -, hfilter⟩ := h.held
  unfold reflects at hreflects
  split at hreflects
  · rename_i existing envelopes hclassify hrange
    obtain rfl := of_decide_eq_true hreflects
    obtain ⟨-, seat, hseat, hexisting, -⟩ := hlogs.classify_duplicate.1 hclassify
    have hartifact := hartifacts seat existing (List.mem_of_getElem? hexisting)
    obtain ⟨-, hseq, -⟩ := (hlogs.chain seat).linked.getElem? hexisting
    rw [hlogs.readRange hseat le_rfl (hseq ▸ hartifact.seq_le)] at hrange
    have hlt : e.seq < (logs seat).length := (List.getElem?_eq_some_iff.1 hexisting).1
    rw [if_pos hlt] at hrange
    have hmem : e ∈ (logs seat).drop e.seq := by
      have hrange := SyncRangeResult.complete.inj (Except.ok.inj hrange)
      refine List.mem_of_mem_take (i := e.seq - e.seq + 1) ?_
      rw [hrange]
      exact List.mem_singleton_self e
    have hsize : seat < 4 := by
      have hlt := Roster.lt_size_of_seatOf hseat
      rwa [h.roster, R.four] at hlt
    have hfound : e ∈ (logs seat).filter R.isTraffic :=
      List.mem_filter.2 ⟨List.mem_of_mem_drop hmem, htraffic⟩
    rw [hfilter seat hsize] at hfound
    exact List.mem_of_mem_filter hfound
  · cases hreflects

/-- What the session has accepted for the receiver is new to the round. -/
theorem accepted_of_inFlight (hhash : Set.InjOn P.hashEnvelope E)
    (hcore : Replay.run R.step R.init (history ++ r.accepted) = some r.core)
    (h : r.Synced R ed E others first history) (hflight : r.inFlight = [t.received])
    (hknown : t.received ∈ E) (hclassify : R.classify r.core t.received = .ok t) :
    t.accepted = true := by
  by_contra hnot
  obtain ⟨other, hother, hsame⟩ :=
    seen_of_duplicate hcore hclassify (Bool.eq_false_iff.2 hnot)
  obtain rfl := hhash (h.known other hother) hknown hsame
  obtain ⟨-, seat, hlt, hseat⟩ := traffic_of_mem hcore hother
  -- the session would have it twice
  have hnodup := h.holds.nodup hlt
  rw [hflight, ← List.append_assoc, SaskuRound.sentFrom, List.filter_append,
    List.nodup_append] at hnodup
  exact hnodup.2.2 _ (List.mem_filter.2 ⟨hother, decide_eq_true hseat⟩) _
    (List.mem_filter.2 ⟨List.mem_singleton_self _, decide_eq_true hseat⟩) rfl

/-- The receipt of the session arrives. -/
theorem Synced.resume (h : r.Synced R ed E others first history)
    (hhash : Set.InjOn P.hashEnvelope E)
    (hcore : Replay.run R.step R.init (history ++ r.accepted) = some r.core)
    (hactive : r.active = some (job, .storing authored t call))
    (hclassify : R.classify r.core t.received = .ok t) {settled : SessionReceipt}
    (hsettled : r.receiptOf call = some settled)
    (hhealthy : (r.receipt R job authored t settled).failure = none) :
    (r.receipt R job authored t settled).Synced R ed E others first history := by
  have hwaiting : ∀ id e, (id, e) ∈ r.durable.waiting → R.isTraffic e = false := by
    intro id e hmem
    obtain ⟨-, ⟨-, other, authored', t', hstoring⟩ | ⟨hforeign, -⟩⟩ := h.waiting id e hmem
    · rw [hactive] at hstoring
      cases hstoring
      rw [h.not_settled hmem] at hsettled
      cases hsettled
    · exact hforeign
  obtain ⟨-, core, hcommit, -, -⟩ := commit_of_classify (.recovered hcore) hclassify
  obtain ⟨htraffic, -, hknown, -⟩ := h.storing job authored t call hactive
  rcases receipt_effect hcommit hactive hsettled hhealthy with
    ⟨chainAccepted, persistence, hresult, hreflects, heq⟩ | ⟨hnot, result, hresult, heq⟩
  · rw [heq]
    refine h.settle rfl ?_ (by rintro _ _ _ _ ⟨⟩) hwaiting rfl
    rw [accepted_committed]
    refine congrArg _ ?_
    cases chainAccepted with
    | true =>
        -- the session has accepted it now, so that the round cannot have had it
        have hflight := inFlight_of_accepted hactive hsettled hresult
        rw [hflight, if_pos (accepted_of_inFlight hhash hcore h hflight hknown hclassify)]
    | false =>
        -- the session had it before, so that the round has accepted it
        have hflight := inFlight_of_not_accepted hactive fun other hother => by
          obtain rfl := Option.some.inj (hsettled.symm.trans hother)
          rw [hresult]
          rintro persistence ⟨⟩
        have hmem := mem_of_reflects h.holds hreflects htraffic
        rw [hflight, List.append_nil] at hmem
        rw [hflight, if_neg]
        exact Bool.eq_false_iff.1 (not_accepted_again hcore hmem hclassify)
  · rw [heq]
    refine h.finish (inFlight_of_not_accepted hactive fun other hother => ?_) hwaiting hresult
    obtain rfl := Option.some.inj (hsettled.symm.trans hother)
    exact hnot

end

/-! ## Runs -/

/-- What the events of a receiver bring: envelopes with hashes of their own, and from others no
traffic of the round. -/
def Brings (R : SaskuRound P) (ed : Ed25519) (E : Set SignedEnvelope)
    (others : SignedEnvelope → Prop) : RoundEvent → Prop
  | .receive candidate => candidate ∈ E
  | .authored (.signed artifact) => artifact ∈ E
  | .durable input => Foreign R ed others input
  | _ => True

omit [DecidableEq G] in
theorem checkReceive_eq_ok {candidate : SignedEnvelope} (h : r.checkReceive ed candidate = .ok ()) :
    candidate.Artifact ed ∧ candidate.byteLength ≤ MAX_ROUND_REVEAL_ENVELOPE_BYTES := by
  unfold checkReceive at h
  split at h
  · cases h
  obtain ⟨-, h⟩ := check_bind_eq_ok.1 h
  obtain ⟨hsize, h⟩ := check_bind_eq_ok.1 h
  obtain ⟨-, h⟩ := check_bind_eq_ok.1 h
  obtain ⟨received, hverify, -⟩ := bind_eq_ok.1 h
  exact ⟨(mapError_verifyArtifact_eq_ok.1 hverify).2, not_lt.1 (throwIf_eq_ok.1 hsize)⟩

theorem receiveOne_healthy {job : RoundJob} {authored : Bool} {received : SignedEnvelope}
    (h : (r.receiveOne R ed job authored received).failure = none) : r.failure = none := by
  unfold receiveOne at h
  split at h
  · exact (conclude_eq_finish h).2
  · assumption

/-- **A step** of a receiver that has not failed. -/
theorem Synced.step {start : RoundCore G} (hhash : Set.InjOn P.hashEnvelope E)
    (hstart : Replay.run R.step R.init history = some start) (hinv : Inv R start r)
    (h : r.failure = none → r.Synced R ed E others first history) {event : RoundEvent}
    (hbrings : Brings R ed E others event) (hstep : r.step R ed event = some r')
    (hhealthy : r'.failure = none) : r'.Synced R ed E others first history := by
  have hcore : Replay.run R.step R.init (history ++ r.accepted) = some r.core :=
    (Replay.run_append_eq_some R.step).2 ⟨start, hstart, hinv.history⟩
  have hsettle (job : RoundJob) (result : RoundCallResult) (hresult : acceptedOf result = none)
      (hhealthy : r.failure = none) : (r.settle job result).Synced R ed E others first history :=
    (h hhealthy).quiet rfl (leaves_settle (R := R) hresult).accepted (.inl rfl) fun _ => .inl
  cases event with
  | receive candidate =>
      cases hstep
      unfold receive at hhealthy ⊢
      split at hhealthy
      · exact hsettle _ _ rfl hhealthy
      · rename_i hcheck
        obtain ⟨hartifact, hsize⟩ := checkReceive_eq_ok hcheck
        refine (h hhealthy).quiet rfl rfl (.inl rfl) fun received hmem => ?_
        rcases List.mem_append.1 hmem with hmem | hmem
        · exact .inl hmem
        · cases List.mem_singleton.1 hmem
          exact .inr ⟨hbrings, hartifact, hsize⟩
  | author refused =>
      cases hstep
      unfold author at hhealthy ⊢
      split at hhealthy
      · exact hsettle _ _ rfl hhealthy
      split at hhealthy
      · rename_i hclosed
        rw [if_pos hclosed]
        exact hsettle _ _ rfl hhealthy
      rename_i hopen
      rw [if_neg hopen]
      split at hhealthy
      · rename_i hfull
        rw [if_pos hfull]
        exact hsettle _ _ rfl hhealthy
      rename_i hroom
      rw [if_neg hroom]
      split at hhealthy
      · rename_i hrefused
        rw [if_pos hrefused]
        exact hsettle _ _ rfl hhealthy
      rename_i hsigns
      rw [if_neg hsigns]
      refine (h hhealthy).quiet rfl rfl (.inl rfl) fun received hmem => .inl ?_
      simpa using hmem
  | turn =>
      simp only [PersistentSaskuRoundReceiver.step] at hstep
      split at hstep
      · rename_i received rest hactive hqueue
        cases hstep
        have hbefore := h (receiveOne_healthy (r := { r with queue := rest }) hhealthy)
        have hidle : { r with queue := rest }.NotStoring := by
          rintro job authored t call hstoring
          cases hactive.symm.trans hstoring
        obtain ⟨hknown, hartifact, hsize⟩ := hbefore.queued received (by simp [hqueue])
        have hnext : { r with queue := rest }.Synced R ed E others first history :=
          hbefore.quiet rfl rfl (.inl rfl) fun other hmem => .inl (by
            rw [hqueue]
            exact List.mem_cons_of_mem _ hmem)
        exact hnext.submit hhash hcore hidle hknown hartifact hsize hhealthy
      · rename_i rest hactive hqueue
        cases hstep
        refine (h hhealthy).quiet rfl rfl (.inr ⟨?_, by rintro _ _ _ _ ⟨⟩⟩) fun other hmem => .inl ?_
        · rintro job authored t call hstoring
          cases hactive.symm.trans hstoring
        · rw [hqueue]
          exact List.mem_cons_of_mem _ hmem
      · cases hstep
  | authored outcome =>
      simp only [PersistentSaskuRoundReceiver.step] at hstep
      split at hstep
      · rename_i job hactive
        cases hstep
        have hidle : r.NotStoring := by
          rintro job authored t call hstoring
          cases hactive.symm.trans hstoring
        unfold finishAuthoring at hhealthy ⊢
        cases outcome with
        | refused =>
            have hfinish (error : RoundCallError) (hhealthy : r.failure = none) :
                (r.finish job (.error error)).Synced R ed E others first history :=
              (h hhealthy).finish hidle.inFlight
                (fun id e hmem => (h hhealthy).not_waiting hidle hmem) rfl
            simp only at hhealthy ⊢
            split at hhealthy
            · exact hfinish _ hhealthy
            · exact hfinish _ hhealthy
        | uncertain => cases hhealthy
        | signed artifact =>
            simp only at hhealthy ⊢
            split at hhealthy
            · cases hhealthy
            rename_i hsize
            rw [if_neg hsize]
            split at hhealthy
            · cases hhealthy
            rename_i hverify
            exact (h (receiveOne_healthy hhealthy)).submit hhash hcore hidle hbrings
              (verifyArtifact_eq_ok.1 hverify).2 (not_lt.1 hsize) hhealthy
      · cases hstep
  | durable input =>
      obtain ⟨durable, hdurable, rfl⟩ := Option.map_eq_some_iff.1 hstep
      exact (h hhealthy).durable hbrings hdurable
  | resume =>
      simp only [PersistentSaskuRoundReceiver.step] at hstep
      split at hstep
      · rename_i job authored t call hactive
        obtain ⟨settled, hsettled, rfl⟩ := Option.map_eq_some_iff.1 hstep
        have hclassify := hinv.classified job authored t call hactive
        obtain ⟨-, core, hcommit, -, -⟩ := commit_of_classify hinv.round hclassify
        have hbefore : r.failure = none := by
          rcases receipt_effect hcommit hactive hsettled hhealthy with
            ⟨chainAccepted, persistence, -, -, heq⟩ | ⟨-, result, -, heq⟩
          · rw [heq] at hhealthy
            exact hhealthy
          · rw [heq] at hhealthy
            exact hhealthy
        exact (h hbefore).resume hhash hcore hactive hclassify hsettled hhealthy
      · cases hstep
  | unreadable =>
      simp only [PersistentSaskuRoundReceiver.step] at hstep
      split at hstep
      · cases hstep
      · cases hstep
        cases hhealthy
  | close =>
      cases hstep
      exact (h hhealthy).quiet rfl (leaves_close (R := R)).accepted (.inl rfl) fun received hmem => by
        cases hmem

/-- A receiver that begins. -/
theorem Synced.start {maxPendingEnvelopes maxPendingBytes : ℕ} {durable : SessionCalls P}
    {core : RoundCore G} (hholds : SessionHolds R ed others first durable.resource history)
    (hknown : ∀ e ∈ history, e ∈ E) (hids : durable.ids = List.range durable.next)
    (hwaiting : ∀ id e, (id, e) ∈ durable.waiting →
      e.Artifact ed ∧ R.isTraffic e = false ∧ others e) :
    (PersistentSaskuRoundReceiver.start maxPendingEnvelopes maxPendingBytes durable core).Synced
      R ed E others first history where
  holds := by
    rw [NotStoring.inFlight (by rintro _ _ _ _ ⟨⟩)]
    simpa [accepted, PersistentSaskuRoundReceiver.start] using hholds
  known := by simpa [accepted, PersistentSaskuRoundReceiver.start] using hknown
  ids := hids
  waiting := fun id e hmem => ⟨(hwaiting id e hmem).1, .inr (hwaiting id e hmem).2⟩
  storing := by rintro _ _ _ _ ⟨⟩
  queued := by rintro received ⟨⟩

/-- **A run**: as long as the receiver has not failed, the session has the traffic that the round has
accepted, in the order of its senders, and nothing else of it but what is on its way. -/
theorem synced_of_run {maxPendingEnvelopes maxPendingBytes : ℕ} {durable : SessionCalls P}
    {core : RoundCore G} (hhash : Set.InjOn P.hashEnvelope E)
    (hcore : Replay.run R.step R.init history = some core)
    (hstart : (PersistentSaskuRoundReceiver.start maxPendingEnvelopes maxPendingBytes durable
      core).Synced R ed E others first history)
    {events : List RoundEvent} (hbrings : ∀ event ∈ events, Brings R ed E others event)
    (hrun : Replay.run (fun r event => r.step R ed event)
      (.start maxPendingEnvelopes maxPendingBytes durable core) events = some r)
    (hhealthy : r.failure = none) : r.Synced R ed E others first history := by
  refine (Replay.run_history (fun r event => PersistentSaskuRoundReceiver.step r R ed event)
    (P := fun events r => (∀ event ∈ events, Brings R ed E others event) → Inv R core r ∧
      (r.failure = none → r.Synced R ed E others first history)) ?_ ?_ hrun hbrings).2 hhealthy
  · exact fun _ => ⟨⟨.recovered hcore, rfl, by rintro ⟨⟩, by rintro _ _ _ _ ⟨⟩⟩, fun _ => hstart⟩
  · intro l t t' event ih hstep hall
    obtain ⟨hinv, hsynced⟩ := ih fun event hmem => hall event (List.mem_append_left _ hmem)
    exact ⟨hinv.step hstep, fun hhealthy => Synced.step hhash hcore hinv hsynced
      (hall event (by simp)) hstep hhealthy⟩

end PersistentSaskuRoundReceiver

end

end Tablefolk
