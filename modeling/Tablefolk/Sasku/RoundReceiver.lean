import Tablefolk.Sasku.Authoring
import Tablefolk.Sasku.RoundOrder
import Tablefolk.Session.DurableReceivers

/-!
# The durable receiver of a round

The model of `game-sasku/src/persistent-round-receiver.ts` around the ledger, the hand and the
audit.  The jobs of a receiver take turns.  An envelope is classified, then kept by the durable
receiver of the session, and only then committed; the durable receiver has a queue of its own, and
others use it and the session as well.  What an author does is left open.

* `PersistentSaskuRoundReceiver.step`: what happens to a receiver.
* `PersistentSaskuRoundReceiver.Inv`: what every step keeps.
* `round_commits_never_fail`: what that says of every run.
-/

namespace Tablefolk

/-- Why a receipt is rejected. -/
inductive RoundRejection where
  | gap | broken_prev | equivocation | durable_conflict
  deriving DecidableEq, Repr

/-- `SaskuRoundReceiveResult`, without the snapshot. -/
inductive SaskuRoundReceiveResult where
  | received (received : SignedEnvelope) (accepted chainAccepted : Bool)
      (persistence : PersistenceStatus)
  | rejected (received : SignedEnvelope) (reason : RoundRejection)

/-- What a call throws: an error of the round, or what the store or the author throws. -/
inductive RoundCallError where
  | round (error : RoundError)
  | store
  | author

/-- How a call ends. -/
abbrev RoundCallResult := Except RoundCallError SaskuRoundReceiveResult

/-- The envelope that a call has accepted. -/
def acceptedOf : RoundCallResult → Option SignedEnvelope
  | .ok (.received received true _ _) => some received
  | _ => none

/-- What waits for its turn: an envelope, or a local call that authors one. -/
inductive RoundJob where
  | receive (received : SignedEnvelope)
  | author

/-- What a job is charged; an authoring pays for the largest envelope. -/
def RoundJob.size : RoundJob → ℕ
  | .receive received => received.byteLength
  | .author => MAX_ROUND_REVEAL_ENVELOPE_BYTES

/-- What the job that has its turn waits for: its author, or its receipt from the session. -/
inductive RoundStage where
  | authoring
  | storing (authored : Bool) (transition : SaskuRound.RoundTransition) (call : ℕ)

/-- How an author ends: it throws before it may have signed, or later, or it has signed. -/
inductive AuthoringOutcome where
  | refused
  | uncertain
  | signed (artifact : SignedEnvelope)

section

variable {q : ℕ} {G : Type} [AddCommGroup G] [Module (ZMod q) G] [DecidableEq G]

/-- A durable session receiver with its registry and its calls. -/
abbrev SessionCalls (P : Primitives q G) := Serial.State (SessionChainRegistry P) SignedEnvelope
  (SessionChainRegistry P) AcceptedEnvelopePersistenceOutcome
  (Except PersistentSessionReceiverError PersistentSessionReceiveResult)

/-- A call of a durable session receiver that has settled. -/
abbrev SessionReceipt := Serial.Settled SignedEnvelope AcceptedEnvelopePersistenceOutcome
  (Except PersistentSessionReceiverError PersistentSessionReceiveResult)

/-- What happens to a durable session receiver. -/
abbrev SessionInput := Serial.Input SignedEnvelope AcceptedEnvelopePersistenceOutcome SignedEnvelope

/-- `PersistentSaskuRoundReceiver`, with the durable receiver it is bound to. -/
structure PersistentSaskuRoundReceiver (P : Primitives q G) where
  maxPendingEnvelopes : ℕ
  maxPendingBytes : ℕ
  durable : SessionCalls P
  core : RoundCore G
  queue : List RoundJob
  active : Option (RoundJob × RoundStage)
  closed : Bool
  failure : Option SaskuRoundReceiverErrorCode
  settled : List (RoundJob × RoundCallResult)

/-- What happens to a receiver. -/
inductive RoundEvent where
  /-- a call of `receive` -/
  | receive (candidate : SignedEnvelope)
  /-- a local call that authors; its own checks may refuse it -/
  | author (refused : Bool)
  /-- the next job has its turn -/
  | turn
  /-- the author of the job that has its turn ends -/
  | authored (outcome : AuthoringOutcome)
  /-- something happens to the durable receiver -/
  | durable (input : SessionInput)
  /-- the receipt of the session arrives -/
  | resume
  /-- `readPrivateHand` finds that the deck is inconsistent -/
  | unreadable
  | close

variable {P : Primitives q G}

namespace PersistentSaskuRoundReceiver

/-- A receiver on a round that has got somewhere: a new one, or one that was recovered. -/
def start (maxPendingEnvelopes maxPendingBytes : ℕ) (durable : SessionCalls P)
    (core : RoundCore G) : PersistentSaskuRoundReceiver P where
  maxPendingEnvelopes := maxPendingEnvelopes
  maxPendingBytes := maxPendingBytes
  durable := durable
  core := core
  queue := []
  active := none
  closed := false
  failure := none
  settled := []

variable (r : PersistentSaskuRoundReceiver P)

/-- What the receiver has accepted, in this order. -/
def accepted : List SignedEnvelope := r.settled.filterMap fun entry => acceptedOf entry.2

/-- An error that has failed the receiver. -/
def thrown (code : SaskuRoundReceiverErrorCode) : RoundCallError := .round (.failed code)

/-- `#fail`: the first failure stays, and the queue is rejected. -/
def fail (code : SaskuRoundReceiverErrorCode) : PersistentSaskuRoundReceiver P :=
  { r with
    failure := some (r.failure.getD code)
    queue := []
    settled := r.settled ++ r.queue.map fun job => (job, .error (thrown (r.failure.getD code))) }

/-- `close`. -/
def close : PersistentSaskuRoundReceiver P :=
  let cause := match r.failure with
    | some code => thrown code
    | none => .round (.receiver .closed)
  { r with
    closed := true
    queue := []
    settled := r.settled ++ r.queue.map fun job => (job, .error cause) }

/-- A call settles. -/
def settle (job : RoundJob) (result : RoundCallResult) : PersistentSaskuRoundReceiver P :=
  { r with settled := r.settled ++ [(job, result)] }

/-- The job that has its turn settles. -/
def finish (job : RoundJob) (result : RoundCallResult) : PersistentSaskuRoundReceiver P :=
  { r.settle job result with active := none }

/-- The job fails the receiver. -/
def failWith (job : RoundJob) (code : SaskuRoundReceiverErrorCode) :
    PersistentSaskuRoundReceiver P :=
  (r.fail code).finish job (.error (thrown (r.failure.getD code)))

/-- A receipt ends.  What was authored is in the history of the author, so that it has to be
received. -/
def conclude (job : RoundJob) (authored : Bool) (result : RoundCallResult) :
    PersistentSaskuRoundReceiver P :=
  match authored, result with
  | true, .ok (.rejected _ _) | true, .error _ => r.failWith job .recovery_required
  | _, _ => r.finish job result

/-- `#pendingEnvelopes`. -/
def pendingEnvelopes : ℕ := r.queue.length + r.active.toList.length

/-- `#pendingBytes`. -/
def pendingBytes : ℕ :=
  (r.queue.map RoundJob.size).sum + (r.active.toList.map fun active => active.1.size).sum

/-- `#reserve` throws. -/
def Full (bytes : ℕ) : Prop :=
  r.maxPendingEnvelopes ≤ r.pendingEnvelopes ∨ r.maxPendingBytes < bytes + r.pendingBytes

instance (bytes : ℕ) : Decidable (r.Full bytes) := inferInstanceAs (Decidable (_ ∨ _))

variable (R : SaskuRound P) (ed : Ed25519)

/-- `receive`: what it throws at once. -/
def checkReceive (candidate : SignedEnvelope) : Except RoundError Unit :=
  match r.failure with
  | some code => .error (.failed code)
  | none => do
      throwIf (r.closed = true) (.receiver .closed)
      throwIf (MAX_ROUND_REVEAL_ENVELOPE_BYTES < candidate.byteLength) (.receiver .invalid_envelope)
      throwIf (r.Full candidate.byteLength) (.receiver .queue_limit)
      let _ ← (verifyArtifact ed candidate).mapError fun _ => .receiver .invalid_envelope
      return ()

/-- `receive`. -/
def receive (candidate : SignedEnvelope) : PersistentSaskuRoundReceiver P :=
  match r.checkReceive ed candidate with
  | .error error => r.settle (.receive candidate) (.error (.round error))
  | .ok () => { r with queue := r.queue ++ [.receive candidate] }

/-- `#enqueueAuthoring`. -/
def author (refused : Bool) : PersistentSaskuRoundReceiver P :=
  match r.failure with
  | some code => r.settle .author (.error (thrown code))
  | none =>
      if r.closed then r.settle .author (.error (.round (.receiver .closed)))
      else if r.Full MAX_ROUND_REVEAL_ENVELOPE_BYTES then
        r.settle .author (.error (.round (.receiver .queue_limit)))
      else if refused then r.settle .author (.error .author)
      else { r with queue := r.queue ++ [.author] }

/-- `#receiveOne` up to the durable receiver, on an envelope that was verified. -/
def receiveOne (job : RoundJob) (authored : Bool) (received : SignedEnvelope) :
    PersistentSaskuRoundReceiver P :=
  match r.failure with
  | some code => r.conclude job authored (.error (thrown code))
  | none =>
      if r.closed ∧ ¬ authored then
        r.conclude job authored (.error (.round (.receiver .closed)))
      else match R.classify r.core received with
      | .error (.failed code) => (r.fail code).conclude job authored (.error (thrown code))
      | .error error => r.conclude job authored (.error (.round error))
      | .ok transition => { r with
          active := some (job, .storing authored transition r.durable.next)
          durable := (Serial.step (PersistentSessionReceiver ed) r.durable
            (.call received)).getD r.durable }

/-- `#authorAndReceive`, from the end of its author on. -/
def finishAuthoring (job : RoundJob) (outcome : AuthoringOutcome) :
    PersistentSaskuRoundReceiver P :=
  match outcome with
  | .refused =>
      match r.failure with
      | some code => r.finish job (.error (thrown code))
      | none => r.finish job (.error .author)
  | .uncertain => r.failWith job .recovery_required
  | .signed artifact =>
      if MAX_ROUND_REVEAL_ENVELOPE_BYTES < artifact.byteLength then
        r.failWith job .invalid_receipt
      else match verifyArtifact ed artifact with
      | .error _ => r.failWith job .invalid_receipt
      | .ok _ => r.receiveOne R ed job true artifact

/-- A receipt that is not what the session promises. -/
def invalidReceipt (job : RoundJob) (authored : Bool) : PersistentSaskuRoundReceiver P :=
  (r.fail .invalid_receipt).conclude job authored
    (.error (thrown (r.failure.getD .invalid_receipt)))

/-- A receipt that rejects. -/
def reject (job : RoundJob) (authored : Bool) (received : SignedEnvelope)
    (reason : RoundRejection) : PersistentSaskuRoundReceiver P :=
  match r.failure with
  | some code => r.conclude job authored (.error (thrown code))
  | none => r.conclude job authored (.ok (.rejected received reason))

/-- The session has just this envelope at its place. -/
def reflects (received : SignedEnvelope) : Bool :=
  match r.durable.resource.classify received,
    r.durable.resource.readRange received.from_ received.seq received.seq with
  | .chain (.duplicate _), .ok (.complete envelopes) => envelopes = [received]
  | _, _ => false

/-- A receipt that keeps the envelope. -/
def commit (job : RoundJob) (authored : Bool) (transition : SaskuRound.RoundTransition)
    (chainAccepted : Bool) (persistence : PersistenceStatus) : PersistentSaskuRoundReceiver P :=
  if r.reflects transition.received then
    match r.failure with
    | some code => r.conclude job authored (.error (thrown code))
    | none =>
        match R.commit r.core transition with
        | .error _ =>
            (r.fail .commit_failed).conclude job authored (.error (thrown .commit_failed))
        | .ok core => { r with core := core }.conclude job authored
            (.ok (.received transition.received transition.accepted chainAccepted persistence))
  else r.invalidReceipt job authored

/-- `#receiveOne`, from the receipt of the session on. -/
def receipt (job : RoundJob) (authored : Bool) (transition : SaskuRound.RoundTransition)
    (settled : SessionReceipt) : PersistentSaskuRoundReceiver P :=
  match settled.result with
  | .error error =>
      match r.failure, error with
      | some code, _ => r.conclude job authored (.error (thrown code))
      | none, .store => r.conclude job authored (.error .store)
      | none, _ => (r.fail .recovery_required).conclude job authored
          (.error (thrown .recovery_required))
  | .ok result =>
      if settled.call ≠ transition.received then r.invalidReceipt job authored
      else match result with
      | .accepted persistence => r.commit R job authored transition true persistence
      | .duplicate persistence => r.commit R job authored transition false persistence
      | .durableConflict _ => r.reject job authored transition.received .durable_conflict
      | .rejected (.chain (.gap _ _)) => r.reject job authored transition.received .gap
      | .rejected (.chain (.broken_prev _ _)) =>
          r.reject job authored transition.received .broken_prev
      | .rejected (.chain (.equivocation _)) =>
          r.reject job authored transition.received .equivocation
      | .rejected _ => r.invalidReceipt job authored

/-- What the session has to say about a call, once it has settled. -/
def receiptOf (call : ℕ) : Option SessionReceipt :=
  r.durable.done.find? fun settled => settled.id = call

/-- One step; `none` when the event cannot come. -/
def step : RoundEvent → Option (PersistentSaskuRoundReceiver P)
  | .receive candidate => some (r.receive ed candidate)
  | .author refused => some (r.author refused)
  | .turn =>
      match r.active, r.queue with
      | none, .receive received :: rest =>
          some ({ r with queue := rest }.receiveOne R ed (.receive received) false received)
      | none, .author :: rest =>
          some { r with queue := rest, active := some (.author, .authoring) }
      | _, _ => none
  | .authored outcome =>
      match r.active with
      | some (job, .authoring) => some (r.finishAuthoring R ed job outcome)
      | _ => none
  | .durable input =>
      (Serial.step (PersistentSessionReceiver ed) r.durable input).map fun durable =>
        { r with durable := durable }
  | .resume =>
      match r.active with
      | some (job, .storing authored transition call) =>
          (r.receiptOf call).map (r.receipt R job authored transition)
      | _ => none
  | .unreadable =>
      if r.failure.isSome ∨ r.closed then none else some (r.fail .recovery_required)
  | .close => some r.close

end PersistentSaskuRoundReceiver

/-! ## Duplicates -/

variable {R : SaskuRound P} {ed : Ed25519} {c : RoundCore G} {e : SignedEnvelope}

omit [DecidableEq G] in
theorem classifyAudit_eq_ok {t : SaskuRound.RoundTransition} (h : R.classifyAudit c e = .ok t) :
    t.received = e ∧ t.type = .AUDIT_DISCLOSE := by
  rw [SaskuRound.classifyAudit] at h
  obtain ⟨-, h⟩ := check_bind_eq_ok.1 h
  split at h
  · cases h
  obtain ⟨-, h⟩ := check_bind_eq_ok.1 h
  split at h
  · cases h
  obtain ⟨-, h⟩ := check_bind_eq_ok.1 h
  split at h
  · cases h
  obtain ⟨-, h⟩ := check_bind_eq_ok.1 h
  obtain ⟨-, h⟩ := check_bind_eq_ok.1 h
  cases h
  exact ⟨rfl, rfl⟩

/-- A reveal that is a duplicate is one for the ledger as well. -/
theorem classifyReveal_duplicate {t : SaskuRound.RoundTransition}
    (h : R.classifyReveal c e = .ok t) (hduplicate : t.accepted = false) :
    ∃ transition ledger, R.ledger.commit c.ledger e c.expectedSeat = .ok (transition, ledger) ∧
      transition.accepted = false ∧
      t = ⟨e, c.expectedSeat, transition.body.type, transition.seat, false, none⟩ := by
  rw [SaskuRound.classifyReveal] at h
  split at h
  · split at h
    · cases h
    · split at h
      · split at h <;> cases h
      · cases h
  rename_i transition hclassify
  obtain ⟨ledger, hprocess⟩ := classify_eq_ok.1 hclassify
  refine ⟨transition, ledger, hprocess, ?_⟩
  split at h
  · cases h
  split at h
  · rename_i body hbody
    cases h
    have hfalse : transition.accepted = false := hduplicate
    exact ⟨hfalse, by rw [hbody, hfalse]; rfl⟩
  · rename_i body revealed hbody
    split at h
    · obtain ⟨action, -, h⟩ := bind_eq_ok.1 h
      cases h
      cases hduplicate
    · rename_i hnot
      cases h
      exact ⟨Bool.eq_false_iff.2 hnot, by rw [hbody]; rfl⟩

/-- Committing what was classified as a duplicate changes nothing. -/
theorem duplicate_of_classify {t : SaskuRound.RoundTransition} (h : R.classify c e = .ok t)
    (hduplicate : t.accepted = false) : t.received = e ∧ R.commit c t = .ok c := by
  rw [SaskuRound.classify] at h
  split at h
  · obtain ⟨hreceived, htype⟩ := classifyAudit_eq_ok h
    refine ⟨hreceived, ?_⟩
    rw [SaskuRound.commit, htype]
    simp only [SaskuRound.commitAudit, hduplicate]
    rfl
  · obtain ⟨transition, ledger, hcommit, haccepted, rfl⟩ := classifyReveal_duplicate h hduplicate
    refine ⟨rfl, ?_⟩
    have hreveal : R.commitReveal c
        ⟨e, c.expectedSeat, transition.body.type, transition.seat, false, none⟩ = .ok c := by
      simp only [SaskuRound.commitReveal, liftError_eq_ok.2 hcommit, ok_bind]
      rw [throwIf_neg (by simp [haccepted]), ok_bind,
        throwIf_neg (by simp [SaskuRound.matchesPlay]), ok_bind]
      simp only [ok_bind, haccepted]
      rfl
    rw [SaskuRound.commit]
    cases hbody : transition.body with
    | shares body =>
        rw [hbody] at hreveal
        simp only [RevealBody.type] at hreveal ⊢
        rw [hreveal]
        rfl
    | action body revealed =>
        rw [hbody] at hreveal
        simp only [RevealBody.type] at hreveal ⊢
        rw [hreveal]
        rfl

/-- **A transition that was classified is committed**, and it keeps the invariant. -/
theorem commit_of_classify (h : RoundInv R c) {t : SaskuRound.RoundTransition}
    (hclassify : R.classify c e = .ok t) :
    t.received = e ∧ ∃ next, R.commit c t = .ok next ∧ RoundInv R next ∧
      (t.accepted = false → next = c) := by
  cases haccepted : t.accepted with
  | true =>
      have haccepts := classify_accepts hclassify haccepted
      obtain ⟨next, hcommit, hnext⟩ := commit_of_accepts h haccepts
      refine ⟨?_, next, hcommit, h.next hnext, by rintro ⟨⟩⟩
      cases haccepts with
      | shares accepted => rfl
      | action accepted => rfl
      | audit accepted => rfl
  | false =>
      obtain ⟨hreceived, hcommit⟩ := duplicate_of_classify hclassify haccepted
      exact ⟨hreceived, c, hcommit, h, fun _ => rfl⟩

/-! ## What classifying throws -/

theorem raises_throw {ε α : Type} {error : ε} {p : ε → Prop} (h : p error) :
    Raises (throw error : Except ε α) p := by
  rintro thrown ⟨⟩
  exact h

theorem raises_liftError {ε α : Type} {x : Except ε α} {wrap : ε → RoundError}
    {p : RoundError → Prop} (h : ∀ error, p (wrap error)) : Raises (liftError wrap x) p := by
  intro error herror
  cases x with
  | error cause =>
      cases herror
      exact h cause
  | ok a => cases herror

/-- The error is not the failure of a commit. -/
def RoundError.Healthy (error : RoundError) : Prop := error ≠ .failed .commit_failed

theorem parseRevealed_raises (revealed : List (ℕ × String)) :
    Raises (SaskuRound.parseRevealed revealed) RoundError.Healthy := by
  induction revealed with
  | nil => exact raises_pure
  | cons head rest ih =>
      exact (raises_liftError (by rintro error ⟨⟩)).bind fun _ => ih.bind fun _ => raises_pure

omit [DecidableEq G] in
theorem classifyAction_raises {seat : ℕ} {revealed : List (ℕ × String)} :
    Raises (SaskuRound.classifyAction (P := P) c e seat revealed) RoundError.Healthy :=
  (raises_throwIf (by rintro ⟨⟩)).bind fun _ => (parseRevealed_raises revealed).bind fun _ =>
    (raises_liftError (by rintro error ⟨⟩)).bind fun _ =>
      (raises_liftError (by rintro error ⟨⟩)).bind fun _ =>
        (raises_liftError (by rintro error ⟨⟩)).bind fun _ => raises_pure

omit [DecidableEq G] in
theorem classifyAudit_raises : Raises (R.classifyAudit c e) RoundError.Healthy := by
  unfold SaskuRound.classifyAudit
  refine (raises_throwIf (by rintro ⟨⟩)).bind fun _ => ?_
  split
  · exact raises_throw (by rintro ⟨⟩)
  refine (raises_throwIf (by rintro ⟨⟩)).bind fun _ => ?_
  split
  · exact raises_throw (by rintro ⟨⟩)
  refine (raises_throwIf (by rintro ⟨⟩)).bind fun _ => ?_
  split
  · exact raises_throw (by rintro ⟨⟩)
  refine (raises_throwIf (by rintro ⟨⟩)).bind fun _ => ?_
  exact (raises_throwIf (by rintro ⟨⟩)).bind fun _ => raises_pure

theorem classifyReveal_raises : Raises (R.classifyReveal c e) RoundError.Healthy := by
  unfold SaskuRound.classifyReveal
  split
  · split
    · exact raises_throw (by rintro ⟨⟩)
    · split
      · split
        · exact raises_throw (by rintro ⟨⟩)
        · exact raises_throw (by rintro ⟨⟩)
      · exact raises_throw (by rintro ⟨⟩)
  · split
    · exact raises_throw (by rintro ⟨⟩)
    · split
      · exact raises_pure
      · split
        · exact classifyAction_raises.bind fun _ => raises_pure
        · exact raises_pure

theorem classify_raises : Raises (R.classify c e) RoundError.Healthy := by
  unfold SaskuRound.classify
  split
  · exact classifyAudit_raises
  · exact classifyReveal_raises

/-! ## What a step leaves alone -/

namespace PersistentSaskuRoundReceiver

variable {r r' r'' : PersistentSaskuRoundReceiver P} {first : RoundCore G} {job : RoundJob}
  {authored : Bool} {result : RoundCallResult} {code : SaskuRoundReceiverErrorCode}

/-- Nothing is committed. -/
structure Leaves (R : SaskuRound P) (r r' : PersistentSaskuRoundReceiver P) : Prop where
  core : r'.core = r.core
  accepted : r'.accepted = r.accepted
  /-- no commit has failed -/
  healthy : r.failure ≠ some .commit_failed → r'.failure ≠ some .commit_failed
  /-- what waits for its receipt was classified in this core -/
  waits : ∀ job authored t call, r'.active = some (job, .storing authored t call) →
    r.active = some (job, .storing authored t call) ∨ R.classify r.core t.received = .ok t

theorem Leaves.refl (r : PersistentSaskuRoundReceiver P) : Leaves R r r :=
  ⟨rfl, rfl, id, fun _ _ _ _ h => .inl h⟩

theorem Leaves.trans (h : Leaves R r r') (h' : Leaves R r' r'') : Leaves R r r'' where
  core := h'.core.trans h.core
  accepted := h'.accepted.trans h.accepted
  healthy := fun hhealthy => h'.healthy (h.healthy hhealthy)
  waits := by
    intro job authored t call hactive
    rcases h'.waits job authored t call hactive with hactive | hclassify
    · exact h.waits job authored t call hactive
    · rw [h.core] at hclassify
      exact .inr hclassify

theorem accepted_rejected (queue : List RoundJob) (error : RoundCallError) :
    (queue.map fun job => ((job, .error error) : RoundJob × RoundCallResult)).filterMap
      (fun entry => acceptedOf entry.2) = [] := by
  rw [List.filterMap_map]
  simp [Function.comp_def, acceptedOf]

theorem leaves_fail (r : PersistentSaskuRoundReceiver P) (hcode : code ≠ .commit_failed) :
    Leaves R r (r.fail code) where
  core := rfl
  accepted := by
    simp only [accepted, fail, List.filterMap_append, accepted_rejected, List.append_nil]
  healthy := by
    intro hhealthy
    cases hfailure : r.failure with
    | none => simpa [fail, hfailure] using hcode
    | some first => simpa [fail, hfailure] using hhealthy
  waits := fun _ _ _ _ h => .inl h

omit [DecidableEq G] in
theorem accepted_settle (r : PersistentSaskuRoundReceiver P) (job : RoundJob)
    (result : RoundCallResult) :
    (r.settle job result).accepted = r.accepted ++ (acceptedOf result).toList := by
  simp only [accepted, settle, List.filterMap_append, List.filterMap_cons, List.filterMap_nil]
  cases acceptedOf result with
  | none => rfl
  | some received => rfl

theorem leaves_settle (h : acceptedOf result = none) : Leaves R r (r.settle job result) :=
  ⟨rfl, by rw [accepted_settle, h]; exact List.append_nil _, id, fun _ _ _ _ h => .inl h⟩

theorem leaves_finish (h : acceptedOf result = none) : Leaves R r (r.finish job result) :=
  ⟨rfl, (leaves_settle (R := R) h).accepted, id, by rintro _ _ _ _ ⟨⟩⟩

theorem leaves_failWith (hcode : code ≠ .commit_failed) : Leaves R r (r.failWith job code) :=
  (leaves_fail r hcode).trans (leaves_finish rfl)

theorem leaves_conclude (h : acceptedOf result = none) :
    Leaves R r (r.conclude job authored result) := by
  unfold conclude
  split
  · exact leaves_failWith (by decide)
  · exact leaves_failWith (by decide)
  · exact leaves_finish h

theorem leaves_invalidReceipt : Leaves R r (r.invalidReceipt job authored) :=
  (leaves_fail r (by decide)).trans (leaves_conclude rfl)

theorem leaves_reject {received : SignedEnvelope} {reason : RoundRejection} :
    Leaves R r (r.reject job authored received reason) := by
  unfold reject
  split
  · exact leaves_conclude rfl
  · exact leaves_conclude rfl

theorem leaves_close : Leaves R r r.close where
  core := rfl
  accepted := by
    simp only [accepted, close, List.filterMap_append, accepted_rejected, List.append_nil]
  healthy := id
  waits := fun _ _ _ _ h => .inl h

theorem leaves_receive {candidate : SignedEnvelope} : Leaves R r (r.receive ed candidate) := by
  unfold receive
  split
  · exact leaves_settle rfl
  · exact ⟨rfl, rfl, id, fun _ _ _ _ h => .inl h⟩

theorem leaves_author {refused : Bool} : Leaves R r (r.author refused) := by
  unfold author
  split
  · exact leaves_settle rfl
  · split
    · exact leaves_settle rfl
    · split
      · exact leaves_settle rfl
      · split
        · exact leaves_settle rfl
        · exact ⟨rfl, rfl, id, fun _ _ _ _ h => .inl h⟩

theorem leaves_receiveOne (hround : RoundInv R r.core) {received : SignedEnvelope} :
    Leaves R r (r.receiveOne R ed job authored received) := by
  unfold receiveOne
  split
  · exact leaves_conclude rfl
  · split
    · exact leaves_conclude rfl
    · split
      · rename_i code hclassify
        have hcode : code ≠ .commit_failed := by
          rintro rfl
          exact classify_raises _ hclassify rfl
        exact (leaves_fail r hcode).trans (leaves_conclude rfl)
      · exact leaves_conclude rfl
      · rename_i transition hclassify
        refine ⟨rfl, rfl, id, ?_⟩
        rintro _ _ _ _ ⟨⟩
        rw [(commit_of_classify hround hclassify).1]
        exact .inr hclassify

theorem leaves_finishAuthoring (hround : RoundInv R r.core) {outcome : AuthoringOutcome} :
    Leaves R r (r.finishAuthoring R ed job outcome) := by
  unfold finishAuthoring
  split
  · split
    · exact leaves_finish rfl
    · exact leaves_finish rfl
  · exact leaves_failWith (by decide)
  · split
    · exact leaves_failWith (by decide)
    · split
      · exact leaves_failWith (by decide)
      · exact leaves_receiveOne hround

/-! ## Receipts -/

/-- A receipt of the session that keeps the envelope of the job that has its turn. -/
structure Prepared (r : PersistentSaskuRoundReceiver P) (job : RoundJob) (authored : Bool)
    (t : SaskuRound.RoundTransition) (chainAccepted : Bool) (persistence : PersistenceStatus) :
    Prop where
  healthy : r.failure = none
  /-- the session has accepted the envelope that was submitted, or had it already -/
  receipt : ∃ call settled, r.active = some (job, .storing authored t call) ∧
    r.receiptOf call = some settled ∧ settled.call = t.received ∧
    settled.result = .ok (if chainAccepted then .accepted persistence else .duplicate persistence)
  reflects : r.reflects t.received = true

/-- The receiver after a commit. -/
def committed (r : PersistentSaskuRoundReceiver P) (job : RoundJob) (core : RoundCore G)
    (t : SaskuRound.RoundTransition) (chainAccepted : Bool) (persistence : PersistenceStatus) :
    PersistentSaskuRoundReceiver P :=
  { r with core := core }.finish job
    (.ok (.received t.received t.accepted chainAccepted persistence))

theorem accepted_committed {core : RoundCore G} {t : SaskuRound.RoundTransition}
    {chainAccepted : Bool} {persistence : PersistenceStatus} :
    (r.committed job core t chainAccepted persistence).accepted
      = r.accepted ++ if t.accepted = true then [t.received] else [] := by
  have hsettle := accepted_settle { r with core := core } job
    (.ok (.received t.received t.accepted chainAccepted persistence))
  refine hsettle.trans (congrArg _ ?_)
  cases t.accepted with
  | true => rfl
  | false => rfl

theorem commit_eq (r : PersistentSaskuRoundReceiver P) (job : RoundJob) (authored : Bool)
    {t : SaskuRound.RoundTransition} {core : RoundCore G} (hcommit : R.commit r.core t = .ok core)
    (chainAccepted : Bool) (persistence : PersistenceStatus) (hfailure : r.failure = none)
    (hreflects : r.reflects t.received = true) :
    r.commit R job authored t chainAccepted persistence
      = r.committed job core t chainAccepted persistence := by
  unfold commit
  rw [if_pos hreflects]
  split
  · rename_i code hcode
    rw [hfailure] at hcode
    cases hcode
  · split
    · rename_i error herror
      rw [hcommit] at herror
      cases herror
    · rename_i next hnext
      rw [hcommit] at hnext
      cases hnext
      cases authored with
      | true => rfl
      | false => rfl

theorem commit_cases (r : PersistentSaskuRoundReceiver P) (job : RoundJob) (authored : Bool)
    {t : SaskuRound.RoundTransition} {core : RoundCore G} (hcommit : R.commit r.core t = .ok core)
    (chainAccepted : Bool) (persistence : PersistenceStatus) :
    Leaves R r (r.commit R job authored t chainAccepted persistence) ∨
      r.failure = none ∧ r.reflects t.received = true := by
  by_cases hreflects : r.reflects t.received = true
  · by_cases hfailure : r.failure = none
    · exact .inr ⟨hfailure, hreflects⟩
    · obtain ⟨code, hcode⟩ := Option.ne_none_iff_exists'.1 hfailure
      unfold commit
      rw [if_pos hreflects]
      simp only [hcode]
      exact .inl (leaves_conclude rfl)
  · unfold commit
    rw [if_neg hreflects]
    exact .inl leaves_invalidReceipt

/-- **A receipt** that is not prepared to be committed commits nothing. -/
theorem receipt_cases {t : SaskuRound.RoundTransition} {core : RoundCore G} {call : ℕ}
    {settled : SessionReceipt} (hcommit : R.commit r.core t = .ok core)
    (hactive : r.active = some (job, .storing authored t call))
    (hsettled : r.receiptOf call = some settled) :
    Leaves R r (r.receipt R job authored t settled) ∨
      ∃ chainAccepted persistence, r.Prepared job authored t chainAccepted persistence ∧
        r.receipt R job authored t settled
          = r.committed job core t chainAccepted persistence := by
  have hprepared (hcall : settled.call = t.received) (chainAccepted : Bool)
      (persistence : PersistenceStatus) (hresult : settled.result
        = .ok (if chainAccepted then .accepted persistence else .duplicate persistence)) :
      Leaves R r (r.commit R job authored t chainAccepted persistence) ∨
        ∃ chainAccepted' persistence', r.Prepared job authored t chainAccepted' persistence' ∧
          r.commit R job authored t chainAccepted persistence
            = r.committed job core t chainAccepted' persistence' := by
    rcases commit_cases r job authored hcommit chainAccepted persistence with
      hleaves | ⟨hhealthy, hreflects⟩
    · exact .inl hleaves
    · exact .inr ⟨chainAccepted, persistence,
        ⟨hhealthy, ⟨call, settled, hactive, hsettled, hcall, hresult⟩, hreflects⟩,
        commit_eq r job authored hcommit chainAccepted persistence hhealthy hreflects⟩
  unfold receipt
  split
  · split
    · exact .inl (leaves_conclude rfl)
    · exact .inl (leaves_conclude rfl)
    · exact .inl ((leaves_fail r (by decide)).trans (leaves_conclude rfl))
  · rename_i result hresult
    by_cases hcall : settled.call = t.received
    · rw [if_neg (not_not.2 hcall)]
      split
      · exact hprepared hcall true _ hresult
      · exact hprepared hcall false _ hresult
      · exact .inl leaves_reject
      · exact .inl leaves_reject
      · exact .inl leaves_reject
      · exact .inl leaves_reject
      · exact .inl leaves_invalidReceipt
    · rw [if_pos hcall]
      exact .inl leaves_invalidReceipt

/-! ## Steps -/

/-- The joint invariant of a receiver. -/
structure Inv (R : SaskuRound P) (first : RoundCore G) (r : PersistentSaskuRoundReceiver P) :
    Prop where
  round : RoundInv R r.core
  /-- the round is what was accepted leads to -/
  history : Replay.run R.step first r.accepted = some r.core
  healthy : r.failure ≠ some .commit_failed
  classified : ∀ job authored t call, r.active = some (job, .storing authored t call) →
    R.classify r.core t.received = .ok t

theorem Inv.leaves (h : Inv R first r) (hleaves : Leaves R r r') : Inv R first r' where
  round := by
    rw [hleaves.core]
    exact h.round
  history := by
    rw [hleaves.core, hleaves.accepted]
    exact h.history
  healthy := hleaves.healthy h.healthy
  classified := by
    intro job authored t call hactive
    rw [hleaves.core]
    rcases hleaves.waits job authored t call hactive with hactive | hclassify
    · exact h.classified job authored t call hactive
    · exact hclassify

/-- **A step** commits what was prepared, or leaves the round alone. -/
theorem step_cases (h : Inv R first r) {event : RoundEvent} (hstep : r.step R ed event = some r') :
    Leaves R r r' ∨ event = .resume ∧ ∃ job authored t chainAccepted persistence core,
      r.Prepared job authored t chainAccepted persistence ∧ R.commit r.core t = .ok core ∧
      r' = r.committed job core t chainAccepted persistence := by
  cases event with
  | receive candidate =>
      cases hstep
      exact .inl leaves_receive
  | author refused =>
      cases hstep
      exact .inl leaves_author
  | turn =>
      simp only [step] at hstep
      split at hstep
      · cases hstep
        rename_i received rest hactive hqueue
        have hnext : Leaves R r { r with queue := rest } := ⟨rfl, rfl, id, fun _ _ _ _ h => .inl h⟩
        exact .inl (hnext.trans (leaves_receiveOne (r := { r with queue := rest }) h.round))
      · cases hstep
        exact .inl ⟨rfl, rfl, id, by rintro _ _ _ _ ⟨⟩⟩
      · cases hstep
  | authored outcome =>
      simp only [step] at hstep
      split at hstep
      · cases hstep
        exact .inl (leaves_finishAuthoring h.round)
      · cases hstep
  | durable input =>
      obtain ⟨durable, -, rfl⟩ := Option.map_eq_some_iff.1 hstep
      exact .inl ⟨rfl, rfl, id, fun _ _ _ _ h => .inl h⟩
  | resume =>
      simp only [step] at hstep
      split at hstep
      · rename_i job authored t call hactive
        obtain ⟨settled, hsettled, rfl⟩ := Option.map_eq_some_iff.1 hstep
        obtain ⟨-, core, hcommit, -, -⟩ :=
          commit_of_classify h.round (h.classified job authored t call hactive)
        rcases receipt_cases hcommit hactive hsettled with
          hleaves | ⟨chainAccepted, persistence, hprepared, hcommitted⟩
        · exact .inl hleaves
        · exact .inr ⟨rfl, job, authored, t, chainAccepted, persistence, core, hprepared, hcommit,
            hcommitted⟩
      · cases hstep
  | unreadable =>
      simp only [step] at hstep
      split at hstep
      · cases hstep
      · cases hstep
        exact .inl (leaves_fail r (by decide))
  | close =>
      cases hstep
      exact .inl leaves_close

theorem Prepared.classified (h : Inv R first r) {t : SaskuRound.RoundTransition}
    {chainAccepted : Bool} {persistence : PersistenceStatus}
    (hprepared : r.Prepared job authored t chainAccepted persistence) :
    R.classify r.core t.received = .ok t := by
  obtain ⟨call, settled, hactive, -⟩ := hprepared.receipt
  exact h.classified job authored t call hactive

theorem Inv.step (h : Inv R first r) {event : RoundEvent} (hstep : r.step R ed event = some r') :
    Inv R first r' := by
  rcases step_cases h hstep with hleaves |
    ⟨-, job, authored, t, chainAccepted, persistence, core, hprepared, hcommit, rfl⟩
  · exact h.leaves hleaves
  · have hclassify := hprepared.classified h
    obtain ⟨-, next, hnext, hround, hsame⟩ := commit_of_classify h.round hclassify
    rw [hcommit] at hnext
    cases hnext
    refine ⟨hround, ?_, h.healthy, by rintro _ _ _ _ ⟨⟩⟩
    rw [accepted_committed]
    cases haccepted : t.accepted with
    | true =>
        refine (Replay.run_append_eq_some R.step).2 ⟨r.core, h.history, ?_⟩
        rw [if_pos rfl, Replay.run_singleton, SaskuRound.step, hclassify]
        simp only [haccepted, hcommit, if_true]
        rfl
    | false =>
        obtain rfl := hsame haccepted
        rw [if_neg (by decide), List.append_nil]
        exact h.history

/-- A receipt that is prepared is committed. -/
theorem Prepared.resume (ed : Ed25519) (h : Inv R first r) {t : SaskuRound.RoundTransition}
    {chainAccepted : Bool} {persistence : PersistenceStatus}
    (hprepared : r.Prepared job authored t chainAccepted persistence) :
    ∃ core, R.commit r.core t = .ok core ∧
      r.step R ed .resume = some (r.committed job core t chainAccepted persistence) := by
  obtain ⟨-, core, hcommit, -, -⟩ := commit_of_classify h.round (hprepared.classified h)
  obtain ⟨call, settled, hactive, hsettled, hcall, hresult⟩ := hprepared.receipt
  have hcommitted := commit_eq r job authored hcommit chainAccepted persistence hprepared.healthy
    hprepared.reflects
  refine ⟨core, hcommit, ?_⟩
  have hreceipt : r.receipt R job authored t settled
      = r.committed job core t chainAccepted persistence := by
    rw [← hcommitted]
    unfold PersistentSaskuRoundReceiver.receipt
    rw [hresult]
    cases chainAccepted with
    | true => exact if_neg (not_not.2 hcall)
    | false => exact if_neg (not_not.2 hcall)
  simp only [step, hactive, hsettled, Option.map_some, hreceipt]

end PersistentSaskuRoundReceiver

/-! ## Runs -/

open PersistentSaskuRoundReceiver

/-- A round that was recovered from a history. -/
theorem RoundInv.recovered {history : List SignedEnvelope} {core : RoundCore G}
    (h : Replay.run R.step R.init history = some core) : RoundInv R core :=
  Replay.run_invariant R.step (P := RoundInv R)
    (fun hinv hstep => hinv.next ((round_step_eq_some hinv).1 hstep)) .init h

theorem inv_of_run {maxPendingEnvelopes maxPendingBytes : ℕ} {durable : SessionCalls P}
    {core : RoundCore G} (hcore : RoundInv R core) {events : List RoundEvent}
    {r : PersistentSaskuRoundReceiver P}
    (hrun : Replay.run (fun r event => r.step R ed event)
      (.start maxPendingEnvelopes maxPendingBytes durable core) events = some r) : Inv R core r :=
  Replay.run_invariant (fun r event => r.step R ed event) (P := Inv R core)
    (fun hinv hstep => hinv.step hstep)
    ⟨hcore, rfl, by rintro ⟨⟩, by rintro _ _ _ _ ⟨⟩⟩ hrun

/-- What holds of a round in every state of its receiver. -/
structure JointInvariant (R : SaskuRound P) (c : RoundCore G) : Prop where
  /-- the reveal ledger counts the actions of the hand -/
  actions : c.ledger.actionIndex = c.hand.history.length
  /-- a public position was opened by a play of the seat that owns it, and shows the card played -/
  shown : ∀ position text, c.ledger.revealed position = some text →
    ∃ play ∈ c.hand.plays, R.ledger.owner position = some play.seat.val ∧ text = play.card.text
  played : ∀ play ∈ c.hand.plays, ∃ position, R.ledger.owner position = some play.seat.val ∧
    c.ledger.revealed position = some play.card.text
  /-- the audit is there exactly when the hand is complete -/
  audited : c.audit.isSome = true ↔ c.hand.phase = .complete
  revealed : c.hand.phase = .complete → ∀ position < 36, (c.ledger.revealed position).isSome = true

theorem RoundInv.joint (h : RoundInv R c) : JointInvariant R c where
  actions := h.actions
  shown := h.shown
  played := h.played
  audited := by
    by_cases hcomplete : c.hand.phase = .complete
    · obtain ⟨audit, haudit, -⟩ := h.audited hcomplete
      simp [haudit, hcomplete]
    · simp [(h.unaudited hcomplete).1, hcomplete]
  revealed := fun hcomplete => (all_revealed h.reached h.played hcomplete).1

/-- **A commit never fails.**  Whatever is received or authored on a receiver, new or recovered,
whatever the session and its store do meanwhile, and whenever the receiver is closed or finds its
deck unreadable: the ledger, the hand and the audit agree; a transition that was classified can be
committed, so that no commit fails; a step changes the round only when it commits an envelope that
was classified as accepted and that the session has kept, for a call that says so; and a receipt
that has been kept is committed. -/
theorem round_commits_never_fail (R : SaskuRound P) (ed : Ed25519) (maxPendingEnvelopes
    maxPendingBytes : ℕ) (durable : SessionCalls P) {history : List SignedEnvelope}
    {core : RoundCore G} (hcore : Replay.run R.step R.init history = some core)
    (events : List RoundEvent) {r : PersistentSaskuRoundReceiver P}
    (hrun : Replay.run (fun r event => r.step R ed event)
      (.start maxPendingEnvelopes maxPendingBytes durable core) events = some r) :
    JointInvariant R r.core ∧
    (∀ e t, R.classify r.core e = .ok t → ∃ next, R.commit r.core t = .ok next) ∧
    r.failure ≠ some .commit_failed ∧
    (∀ event r', r.step R ed event = some r' → r'.core ≠ r.core →
      event = .resume ∧ ∃ job authored t chainAccepted persistence,
        r.Prepared job authored t chainAccepted persistence ∧ t.accepted = true ∧
        R.classify r.core t.received = .ok t ∧ R.commit r.core t = .ok r'.core ∧
        r'.settled = r.settled ++
          [(job, .ok (.received t.received true chainAccepted persistence))]) ∧
    ∀ job authored t chainAccepted persistence,
      r.Prepared job authored t chainAccepted persistence → ∃ r', r.step R ed .resume = some r' ∧
        R.commit r.core t = .ok r'.core ∧ r'.failure = none ∧
        r'.settled = r.settled ++
          [(job, .ok (.received t.received t.accepted chainAccepted persistence))] := by
  have hinv := inv_of_run (.recovered hcore) hrun
  refine ⟨hinv.round.joint, ?_, hinv.healthy, ?_, ?_⟩
  · intro e t hclassify
    obtain ⟨-, next, hcommit, -⟩ := commit_of_classify hinv.round hclassify
    exact ⟨next, hcommit⟩
  · intro event r' hstep hne
    rcases step_cases hinv hstep with hleaves |
      ⟨rfl, job, authored, t, chainAccepted, persistence, next, hprepared, hcommit, rfl⟩
    · exact absurd hleaves.core hne
    · have hclassify := hprepared.classified hinv
      have haccepted : t.accepted = true := by
        by_contra hnot
        have hduplicate := duplicate_of_classify hclassify (Bool.eq_false_iff.2 hnot)
        rw [hcommit] at hduplicate
        exact hne (Except.ok.inj hduplicate.2)
      refine ⟨rfl, job, authored, t, chainAccepted, persistence, hprepared, haccepted, hclassify,
        hcommit, ?_⟩
      rw [← haccepted]
      rfl
  · intro job authored t chainAccepted persistence hprepared
    obtain ⟨next, hcommit, hstep⟩ := hprepared.resume ed hinv
    exact ⟨_, hstep, hcommit, hprepared.healthy, rfl⟩

end

/-! ## A small round -/

namespace SmallGroup

/-- The 36 cards at different points. -/
def saskuTable : CardPointTable (ZMod 41) where
  cards := (SASKU_CARDS.map SaskuCardId.text).zip
    ((List.range 36).map fun n : ℕ => (n : ZMod 41) + 1)
  size_ge := by decide
  size_le := by decide
  ids := by decide +kernel
  points := by decide +kernel

/-- The identities of the four seats. -/
def saskuSeats : List IdentityPublicKey :=
  [padded 32 [1], padded 32 [2], padded 32 [3], padded 32 [4]]

theorem three_le_saskuSeats : 3 ≤ saskuSeats.length := by decide

theorem saskuSeats_le_eight : saskuSeats.length ≤ 8 := by decide

theorem nodup_saskuSeats : saskuSeats.Nodup := by decide

theorem one_le_maxSafeInteger : 1 ≤ MAX_SAFE_INTEGER := by decide

/-- Four seats, each of which is dealt nine cards in a row. -/
def saskuRound : SaskuRound (primitives fun _ => 0) where
  ledger := {
    gameId := game
    round := 1
    roster :=
      ⟨saskuSeats, three_le_saskuSeats, saskuSeats_le_eight, nodup_saskuSeats, fun _ _ => rfl⟩
    publicKeys := (List.range 4).map fun n : ℕ => (n : ZMod 41) + 1
    table := saskuTable
    deck := (List.range 36).map fun n : ℕ => ⟨1, (n : ZMod 41)⟩
    steps := [⟨0, 9⟩, ⟨1, 9⟩, ⟨2, 9⟩, ⟨3, 9⟩]
    maxActions := MAX_SASKU_HAND_ACTIONS
    batchDeal := false
    round_safe := one_le_maxSafeInteger
    publicKeys_length := rfl
    deck_length := by decide +kernel
    steps_ok := ⟨by decide, by decide, by decide⟩
    batch_ok := by decide }
  dealer := 0
  four := rfl
  cards := by decide +kernel
  budget := rfl
  nine := by decide

/-- A session receiver with an empty registry. -/
def sessionCalls : SessionCalls (primitives fun _ => 0) :=
  Serial.start _ _ _ _ (.start game (roster _))

/-- The shares that this seat gives at the start of the round. -/
def openingShares (seat : SaskuSeat) : EnvelopeContent :=
  match saskuRound.authoredShares saskuRound.init seat (seat.val + 1 : ZMod 41)
      (List.replicate 100 2) with
  | .ok (some content) => content
  | _ => ⟨0, "", .JOIN, .null⟩

/-- The first envelope of this seat. -/
def openingEnvelope (seat : SaskuSeat) : SignedEnvelope where
  game := game
  from_ := padded 32 [UInt8.ofNat (seat.val + 1)]
  seq := 0
  prev := ZERO_HASH
  round := (openingShares seat).round
  phase := (openingShares seat).phase
  type := (openingShares seat).type
  body := (openingShares seat).body
  sig := zeroBytes 64

/-- The envelope is received, kept and committed. -/
def acceptedEvents (e : SignedEnvelope) : List RoundEvent :=
  [.receive e, .turn, .durable .turn, .durable (.answer (.stored e)), .resume]

/-- An envelope that is refused, one that is committed, an author that changes its mind, and the
end. -/
def roundEvents : List RoundEvent :=
  [.receive firstEnvelope, .turn] ++ acceptedEvents (openingEnvelope 1) ++
    [.author false, .turn, .authored .refused, .close]

end SmallGroup

open SmallGroup in
/-- A round that goes on from the shares of one seat and commits those of another. -/
theorem round_commits_never_fail_small : ∃ core r,
    Replay.run saskuRound.step saskuRound.init [openingEnvelope 2] = some core ∧
    Replay.run (fun r event => PersistentSaskuRoundReceiver.step r saskuRound ed25519 event)
      (.start 4 1000000 sessionCalls core) roundEvents = some r ∧
    r.accepted = [openingEnvelope 1] ∧ JointInvariant saskuRound r.core ∧
    r.failure ≠ some .commit_failed := by
  have hrun : ((Replay.run saskuRound.step saskuRound.init [openingEnvelope 2]).bind fun core =>
      Replay.run (fun r event => PersistentSaskuRoundReceiver.step r saskuRound ed25519 event)
        (.start 4 1000000 sessionCalls core) roundEvents).map
      PersistentSaskuRoundReceiver.accepted = some [openingEnvelope 1] := by
    decide +kernel
  obtain ⟨r, hrun, haccepted⟩ := Option.map_eq_some_iff.1 hrun
  obtain ⟨core, hcore, hrun⟩ := Option.bind_eq_some_iff.1 hrun
  obtain ⟨hjoint, -, hhealthy, -⟩ := round_commits_never_fail saskuRound ed25519 4 1000000
    sessionCalls hcore roundEvents hrun
  exact ⟨core, r, hcore, hrun, haccepted, hjoint, hhealthy⟩

end Tablefolk
