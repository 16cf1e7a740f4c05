import Tablefolk.Engine.RevealLedger
import Tablefolk.Lib.Replay
import Tablefolk.Rules.Hand
import Tablefolk.Session.Registry

/-!
# The round inbox

The model of `game-sasku/src/round-inbox.ts`.  The receiver and its session are what the inbox
reads of them, and may change between any two steps; what runs without an `await` is one step.

* `Inv`: the books balance, every admitted promise is queued, active or settled, and the queues are
  in order.
* `round_inbox_exact`: what that says of every run.
-/

namespace Tablefolk

/-- `SaskuRoundInboxErrorCode`. -/
inductive SaskuRoundInboxErrorCode where
  | invalid_envelope | wrong_game | wrong_round | wrong_peer | wrong_type | wrong_phase
  | queue_limit | conflicting_pending | closed | invalid_receipt
  deriving DecidableEq, Repr

/-- What a promise is rejected with: an error of the inbox, or one of the receiver. -/
inductive InboxCause where
  | code (code : SaskuRoundInboxErrorCode)
  | receiver (failure : String)
  deriving DecidableEq, Repr

/-- How a promise is settled: with the receiver's receipt, with a rejection that the inbox makes
itself, or with an error. -/
inductive InboxSettlement where
  | receipt
  | refused
  | rejected (cause : InboxCause)
  deriving DecidableEq, Repr

/-- A payload: its size, and what `decodeAndVerifyEnvelope` makes of it. -/
structure InboxPayload where
  size : ℕ
  envelope : Option SignedEnvelope
  size_eq : ∀ e, envelope = some e → size = e.byteLength

/-- `PendingEnvelope`; `id` is its promise. -/
structure PendingEnvelope where
  id : ℕ
  envelope : SignedEnvelope
  seat : Fin 4
  stage : ℕ
  index : ℕ

namespace PendingEnvelope

def size (job : PendingEnvelope) : ℕ := job.envelope.byteLength

def seq (job : PendingEnvelope) : ℕ := job.envelope.seq

end PendingEnvelope

section

variable {q : ℕ} {G : Type} [AddCommGroup G] [Module (ZMod q) G]

/-- What the inbox reads of the receiver and of its session. -/
structure RoundView (P : Primitives q G) where
  failure : Option String
  closed : Bool
  pendingEnvelopes : ℕ
  audit : Bool
  deal : Bool
  dealIndex : ℕ
  actionIndex : ℕ
  session : SessionChainRegistry P

/-- What the constructor fixes. -/
structure InboxOptions (P : Primitives q G) where
  game : GameId
  round : ℕ
  dealCount : ℕ
  roster : Roster P
  selfSeat : ℕ
  maxPendingEnvelopes : ℕ
  maxPendingBytes : ℕ

/-- Where `#drain` is. -/
inductive DrainPoint where
  | idle
  | waiting
  | receiving
  deriving DecidableEq, Repr

/-- A call of `receiver.receive`, with what was there when it was made. -/
structure InboxSubmission (P : Primitives q G) where
  job : PendingEnvelope
  view : RoundView P
  queue : List PendingEnvelope

/-- `SaskuRoundInbox`.  `admitted` counts the promises that were handed out; `settled` and
`submitted` are what was done so far; `observed` says that the drain has gone idle or
`processPending` was called since the receiver or the session changed. -/
structure SaskuRoundInbox (P : Primitives q G) where
  queues : Fin 4 → List PendingEnvelope
  active : Option PendingEnvelope
  nextSeat : Fin 4
  pendingEnvelopes : ℕ
  pendingBytes : ℕ
  closed : Bool
  failure : Option InboxCause
  point : DrainPoint
  view : RoundView P
  observed : Bool
  admitted : ℕ
  settled : List (ℕ × InboxSettlement)
  submitted : List (InboxSubmission P)

variable {P : Primitives q G}

namespace RoundView

def stage (view : RoundView P) : ℕ := if view.audit then 2 else if view.deal then 1 else 0

def index (view : RoundView P) : ℕ :=
  if view.stage = 2 then 0 else if view.stage = 0 then view.dealIndex else view.actionIndex

end RoundView

/-- What is done with the head of a queue. -/
inductive HeadChoice where
  | skip
  | submit
  | refuse
  deriving DecidableEq, Repr

/-- The choice for the head of a queue; `none` when `#drain` throws. -/
def RoundView.choose (view : RoundView P) (job : PendingEnvelope) : Option HeadChoice :=
  match view.session.classify job.envelope with
  | .chain (.gap _ _) => some .skip
  | .chain (.broken_prev _ _) => some .refuse
  | .chain (.equivocation _) => some .refuse
  | .chain (.accepted _) | .chain (.duplicate _) =>
      if view.stage < job.stage ∨ (job.stage = view.stage ∧ view.index < job.index) then some .skip
      else some .submit
  | .chain (.wrong_sender _ _) | .wrong_game _ _ | .unknown_sender _ => none

namespace SaskuRoundInbox

/-- `new SaskuRoundInbox(options)`. -/
def create (view : RoundView P) : SaskuRoundInbox P where
  queues := fun _ => []
  active := none
  nextSeat := 0
  pendingEnvelopes := 0
  pendingBytes := 0
  closed := false
  failure := none
  point := .idle
  view := view
  observed := false
  admitted := 0
  settled := []
  submitted := []

/-- `#reserve`. -/
def reserve (o : InboxOptions P) (s : SaskuRoundInbox P) (bytes : ℕ) :
    Except SaskuRoundInboxErrorCode (SaskuRoundInbox P) :=
  if o.maxPendingEnvelopes ≤ s.pendingEnvelopes ∨ o.maxPendingBytes < s.pendingBytes + bytes then
    .error .queue_limit
  else
    .ok { s with
      pendingEnvelopes := s.pendingEnvelopes + 1
      pendingBytes := s.pendingBytes + bytes }

/-- `#release`. -/
def release (s : SaskuRoundInbox P) (bytes : ℕ) : SaskuRoundInbox P :=
  { s with
    pendingEnvelopes := s.pendingEnvelopes - 1
    pendingBytes := s.pendingBytes - bytes }

/-- Settle the promise of a job. -/
def settle (s : SaskuRoundInbox P) (job : PendingEnvelope) (settlement : InboxSettlement) :
    SaskuRoundInbox P :=
  { s with settled := s.settled ++ [(job.id, settlement)] }

/-- The jobs of all queues. -/
def queued (queues : Fin 4 → List PendingEnvelope) : List PendingEnvelope :=
  queues 0 ++ queues 1 ++ queues 2 ++ queues 3

/-- `#rejectQueued`. -/
def rejectQueued (s : SaskuRoundInbox P) (cause : InboxCause) : SaskuRoundInbox P :=
  (queued s.queues).foldl (fun s job => (s.release job.size).settle job (.rejected cause))
    { s with queues := fun _ => [] }

/-- `#fail`. -/
def fail (s : SaskuRoundInbox P) (cause : InboxCause) : SaskuRoundInbox P :=
  { s with failure := some (s.failure.getD cause) }.rejectQueued (s.failure.getD cause)

/-- `close`. -/
def close (s : SaskuRoundInbox P) : SaskuRoundInbox P :=
  { s with closed := true }.rejectQueued (s.failure.getD (.code .closed))

/-- What `#stopped` does. -/
def checkStopped (s : SaskuRoundInbox P) : SaskuRoundInbox P :=
  let s := match s.view.failure with
    | none => s
    | some failure => s.fail (.receiver failure)
  if s.view.closed then s.close else s

/-- What `#stopped` returns. -/
def stopped (s : SaskuRoundInbox P) : Bool := s.closed || s.failure.isSome

/-- The end of `#drain`. -/
def goIdle (s : SaskuRoundInbox P) : SaskuRoundInbox P :=
  { s with point := .idle, observed := true }

/-- The loop of `#drain` from its condition on. -/
def continueDrain (s : SaskuRoundInbox P) : SaskuRoundInbox P :=
  let s := s.checkStopped
  if s.stopped ∨ s.pendingEnvelopes = 0 then s.goIdle else { s with point := .waiting }

/-- `#startDrain`. -/
def startDrain (s : SaskuRoundInbox P) : SaskuRoundInbox P :=
  if s.point = .idle then s.continueDrain else s

/-- The stage and index of a type and phase. -/
def readPhase (o : InboxOptions P) (envelope : SignedEnvelope) :
    Except SaskuRoundInboxErrorCode (ℕ × ℕ) :=
  match envelope.type with
  | .SHARES =>
      match (List.range o.dealCount).find? fun index =>
        envelope.phase = "round." ++ toString o.round ++ ".deal." ++ toString index with
      | some index => .ok (0, index)
      | none => .error .wrong_phase
  | .ACTION =>
      match (List.range MAX_SASKU_HAND_ACTIONS).find? fun index =>
        envelope.phase = "round." ++ toString o.round ++ ".play." ++ toString index with
      | some index => .ok (1, index)
      | none => .error .wrong_phase
  | .AUDIT_DISCLOSE =>
      if envelope.phase = "round." ++ toString o.round ++ ".audit" then .ok (2, 0)
      else .error .wrong_phase
  | _ => .error .wrong_type

/-- Whether the body decodes. -/
def decodesBody (P : Primitives q G) (envelope : SignedEnvelope) (stage : ℕ) : Bool :=
  if stage = 0 then (decodeSharesBody P envelope.body).isOk
  else if stage = 1 then (decodeActionBody P envelope.body).isOk
  else match decodeAuditDiscloseBody P envelope.body with
    | .ok body => body.items.length = 0
    | .error _ => false

/-- The checks of `receive` after the reservation; `id` is the promise that will be handed out. -/
def checkAdmission (o : InboxOptions P) (s : SaskuRoundInbox P) (remote : Option IdentityPublicKey)
    (payload : InboxPayload) (id : ℕ) : Except SaskuRoundInboxErrorCode PendingEnvelope :=
  match remote with
  | none => .error .wrong_peer
  | some peer =>
      match o.roster.seatOf peer with
      | none => .error .wrong_peer
      | some seat =>
          if hseat : seat = o.selfSeat ∨ 4 ≤ seat then .error .wrong_peer
          else
            match payload.envelope with
            | none => .error .invalid_envelope
            | some envelope =>
                if envelope.from_ ≠ peer then .error .wrong_peer
                else if envelope.game ≠ o.game then .error .wrong_game
                else if envelope.round ≠ o.round then .error .wrong_round
                else
                  match readPhase o envelope with
                  | .error code => .error code
                  | .ok (stage, index) =>
                      if decodesBody P envelope stage = false then .error .invalid_envelope
                      else
                        let job : PendingEnvelope :=
                          ⟨id, envelope, ⟨seat, by omega⟩, stage, index⟩
                        let existing := match s.active with
                          | some active =>
                              if active.seat = job.seat ∧ active.seq = job.seq then some active
                              else (s.queues job.seat).find? fun queued => queued.seq = job.seq
                          | none => (s.queues job.seat).find? fun queued => queued.seq = job.seq
                        match existing with
                        | none => .ok job
                        | some existing =>
                            if existing.envelope ≠ envelope then .error .conflicting_pending
                            else .ok job

/-- `queue.splice`, before the first job with a later sequence number. -/
def insertJob (job : PendingEnvelope) : List PendingEnvelope → List PendingEnvelope
  | [] => [job]
  | queued :: rest =>
      if job.seq < queued.seq then job :: queued :: rest else queued :: insertJob job rest

/-- The queues with one more job. -/
def enqueue (s : SaskuRoundInbox P) (job : PendingEnvelope) : SaskuRoundInbox P :=
  { s with
    queues := Function.update s.queues job.seat (insertJob job (s.queues job.seat))
    admitted := s.admitted + 1 }

/-- `receive`. -/
def receive (o : InboxOptions P) (s : SaskuRoundInbox P) (remote : Option IdentityPublicKey)
    (payload : InboxPayload) : Except InboxCause ℕ × SaskuRoundInbox P :=
  let s := s.checkStopped
  if s.stopped then (.error (s.failure.getD (.code .closed)), s)
  else if payload.size < 1 ∨ MAX_ROUND_REVEAL_ENVELOPE_BYTES < payload.size then
    (.error (.code .invalid_envelope), s)
  else
    match s.reserve o payload.size with
    | .error code => (.error (.code code), s)
    | .ok reserved =>
        match checkAdmission o reserved remote payload s.admitted with
        | .error code => (.error (.code code), reserved.release payload.size)
        | .ok job => (.ok job.id, (reserved.enqueue job).startDrain)

/-- `processPending`. -/
def processPending (s : SaskuRoundInbox P) : SaskuRoundInbox P :=
  { s with observed := true }.startDrain

/-- The loop over the heads of the queues; `none` when it throws. -/
def select (s : SaskuRoundInbox P) :
    List (Fin 4) → Option (Option (PendingEnvelope × HeadChoice))
  | [] => some none
  | seat :: rest =>
      match s.queues seat with
      | [] => select s rest
      | head :: _ =>
          match s.view.choose head with
          | none => none
          | some .skip => select s rest
          | some choice => some (some (head, choice))

/-- The end of the work on a job. -/
def finishActive (s : SaskuRoundInbox P) (job : PendingEnvelope) (settlement : InboxSettlement) :
    SaskuRoundInbox P :=
  ({ (s.settle job settlement).release job.size with active := none }).continueDrain

/-- Take the head of its queue. -/
def take (s : SaskuRoundInbox P) (job : PendingEnvelope) : SaskuRoundInbox P :=
  { s with
    queues := Function.update s.queues job.seat (s.queues job.seat).tail
    nextSeat := job.seat + 1
    active := some job }

/-- What `#drain` throws, without an `await`. -/
def drainThrows (s : SaskuRoundInbox P) : SaskuRoundInbox P :=
  (s.fail ((s.view.failure.map InboxCause.receiver).getD (.code .invalid_receipt))).goIdle

/-- `#drain` after its `await` of `whenIdle`. -/
def wake (s : SaskuRoundInbox P) : SaskuRoundInbox P :=
  let s := s.checkStopped
  if s.stopped then s.goIdle
  else if s.view.pendingEnvelopes ≠ 0 then s.continueDrain
  else
    match s.select [s.nextSeat, s.nextSeat + 1, s.nextSeat + 2, s.nextSeat + 3] with
    | none => s.drainThrows
    | some none => s.goIdle
    | some (some (job, .submit)) =>
        { s.take job with
          point := .receiving
          submitted := s.submitted ++ [⟨job, s.view, s.queues job.seat⟩] }
    | some (some (job, _)) => (s.take job).finishActive job .refused

/-- A receipt: whether it is well formed and for the submitted envelope, and whether it says that
the envelope was accepted or is a duplicate. -/
structure RoundReceipt where
  wellFormed : Bool
  success : Bool

/-- How `receiver.receive` ends. -/
inductive ReceiveOutcome where
  | resolved (receipt : RoundReceipt)
  | rejected (cause : String)

/-- `#validateReceipt`. -/
def validReceipt (s : SaskuRoundInbox P) (job : PendingEnvelope) (receipt : RoundReceipt) : Bool :=
  receipt.wellFormed && (!receipt.success ||
    ((match s.view.session.classify job.envelope with
      | .chain (.duplicate _) => true
      | _ => false) &&
    (match s.view.session.readRange job.envelope.from_ job.seq job.seq with
      | .ok (.complete [envelope]) => envelope = job.envelope
      | _ => false)))

/-- `#drain` after its `await` of `receiver.receive`. -/
def receipt (s : SaskuRoundInbox P) (job : PendingEnvelope) (outcome : ReceiveOutcome) :
    SaskuRoundInbox P :=
  match outcome with
  | .resolved receipt =>
      let s := if s.validReceipt job receipt then s else s.fail (.code .invalid_receipt)
      let s := s.checkStopped
      match s.failure with
      | none => s.finishActive job .receipt
      | some failure => s.finishActive job (.rejected failure)
  | .rejected cause =>
      let s := s.checkStopped
      s.finishActive job (.rejected (s.failure.getD (.receiver cause)))

/-- What happens to the inbox. -/
inductive InboxInput (P : Primitives q G) where
  | receive (remote : Option IdentityPublicKey) (payload : InboxPayload)
  | processPending
  | close
  | outside (view : RoundView P)
  | wake
  | idleRejected
  | receipt (outcome : ReceiveOutcome)

/-- One step; `none` when the input cannot come. -/
def step (o : InboxOptions P) (s : SaskuRoundInbox P) : InboxInput P → Option (SaskuRoundInbox P)
  | .receive remote payload => some (s.receive o remote payload).2
  | .processPending => some s.processPending
  | .close => some s.close
  | .outside view => some { s with view := view, observed := false }
  | .wake => if s.point = .waiting then some s.wake else none
  | .idleRejected => if s.point = .waiting then some s.drainThrows else none
  | .receipt outcome =>
      match s.point, s.active with
      | .receiving, some job => some (s.receipt job outcome)
      | _, _ => none

/-- The jobs that are not settled. -/
def held (s : SaskuRoundInbox P) : List PendingEnvelope := queued s.queues ++ s.active.toList

/-! ## The books -/

variable {o : InboxOptions P} {s : SaskuRoundInbox P} {job : PendingEnvelope}

/-- A submission was due: its predecessors were there and its phase was reached, and no other job
of its sender had a lower sequence number. -/
def Due (submission : InboxSubmission P) : Prop :=
  submission.view.choose submission.job = some .submit ∧
    ∃ rest, submission.queue = submission.job :: rest ∧
      ∀ other ∈ rest, submission.job.seq ≤ other.seq

/-- The books of the inbox, and its queues. -/
structure Ledger (s : SaskuRoundInbox P) : Prop where
  envelopes : s.pendingEnvelopes = s.held.length
  bytes : s.pendingBytes = (s.held.map PendingEnvelope.size).sum
  promises : (s.held.map PendingEnvelope.id ++ s.settled.map Prod.fst).Perm (List.range s.admitted)
  seats : ∀ seat, ∀ job ∈ s.queues seat, job.seat = seat
  sorted : ∀ seat, (s.queues seat).Pairwise fun a b => a.seq ≤ b.seq
  submitted : ∀ submission ∈ s.submitted, Due submission

/-- The queues of the other seats. -/
def others (queues : Fin 4 → List PendingEnvelope) (seat : Fin 4) : List PendingEnvelope :=
  queued (Function.update queues seat [])

theorem queued_update (queues : Fin 4 → List PendingEnvelope) (seat : Fin 4)
    (queue : List PendingEnvelope) :
    (queued (Function.update queues seat queue)).Perm (queue ++ others queues seat) := by
  classical
  rw [List.perm_iff_count]
  intro job
  unfold others queued
  fin_cases seat <;> simp [Function.update, List.count_append] <;> omega

theorem queued_perm (queues : Fin 4 → List PendingEnvelope) (seat : Fin 4) :
    (queued queues).Perm (queues seat ++ others queues seat) := by
  have h := queued_update queues seat (queues seat)
  rwa [Function.update_eq_self] at h

theorem rejectAll_eq (cause : InboxCause) (jobs : List PendingEnvelope) (s : SaskuRoundInbox P) :
    jobs.foldl (fun s job => (s.release job.size).settle job (.rejected cause)) s = { s with
      pendingEnvelopes := s.pendingEnvelopes - jobs.length
      pendingBytes := s.pendingBytes - (jobs.map PendingEnvelope.size).sum
      settled := s.settled ++ jobs.map fun job => (job.id, .rejected cause) } := by
  induction jobs generalizing s with
  | nil => simp
  | cons job rest ih =>
      rw [List.foldl_cons, ih]
      simp only [release, settle, List.length_cons, List.map_cons, List.sum_cons, List.append_assoc,
        List.singleton_append, Nat.sub_sub, add_comm 1 rest.length]

theorem rejectQueued_eq (s : SaskuRoundInbox P) (cause : InboxCause) :
    s.rejectQueued cause = { s with
      queues := fun _ => []
      pendingEnvelopes := s.pendingEnvelopes - (queued s.queues).length
      pendingBytes := s.pendingBytes - ((queued s.queues).map PendingEnvelope.size).sum
      settled := s.settled ++ (queued s.queues).map fun job => (job.id, .rejected cause) } :=
  rejectAll_eq cause _ _

theorem queued_nil : queued (fun _ => []) = [] := rfl

/-- Rejecting what is queued keeps the books. -/
theorem Ledger.rejectQueued (h : Ledger s) (cause : InboxCause) :
    Ledger (s.rejectQueued cause) := by
  rw [rejectQueued_eq]
  have henvelopes := h.envelopes
  have hbytes := h.bytes
  unfold held at henvelopes hbytes
  rw [List.length_append] at henvelopes
  rw [List.map_append, List.sum_append] at hbytes
  refine ⟨?_, ?_, ?_, by rintro seat job ⟨⟩, fun _ => List.Pairwise.nil, h.submitted⟩
  · simp only [held, queued_nil, List.nil_append]
    omega
  · simp only [held, queued_nil, List.nil_append]
    omega
  · refine List.Perm.trans ?_ h.promises
    have hids : ((queued s.queues).map fun job => (job.id, InboxSettlement.rejected cause)).map
        Prod.fst = (queued s.queues).map PendingEnvelope.id := by
      rw [List.map_map]
      rfl
    simp only [held, queued_nil, List.nil_append, List.map_append, hids]
    classical
    rw [List.perm_iff_count]
    intro id
    simp only [List.count_append]
    omega

/-- Only what is admitted, queued, active, submitted and settled is in the books. -/
theorem Ledger.congr (h : Ledger s) {s' : SaskuRoundInbox P} (hqueues : s'.queues = s.queues)
    (hactive : s'.active = s.active) (henvelopes : s'.pendingEnvelopes = s.pendingEnvelopes)
    (hbytes : s'.pendingBytes = s.pendingBytes) (hadmitted : s'.admitted = s.admitted)
    (hsettled : s'.settled = s.settled) (hsubmitted : s'.submitted = s.submitted) : Ledger s' := by
  have hheld : s'.held = s.held := by rw [held, held, hqueues, hactive]
  refine ⟨?_, ?_, ?_, ?_, ?_, ?_⟩
  · rw [henvelopes, hheld, h.envelopes]
  · rw [hbytes, hheld, h.bytes]
  · rw [hheld, hsettled, hadmitted]
    exact h.promises
  · rw [hqueues]
    exact h.seats
  · rw [hqueues]
    exact h.sorted
  · rw [hsubmitted]
    exact h.submitted

theorem Ledger.fail (h : Ledger s) (cause : InboxCause) : Ledger (s.fail cause) := by
  have hfailed : Ledger { s with failure := some (s.failure.getD cause) } :=
    h.congr rfl rfl rfl rfl rfl rfl rfl
  exact hfailed.rejectQueued _

theorem Ledger.close (h : Ledger s) : Ledger s.close := by
  have hclosed : Ledger { s with closed := true } := h.congr rfl rfl rfl rfl rfl rfl rfl
  exact hclosed.rejectQueued _

theorem Ledger.checkStopped (h : Ledger s) : Ledger s.checkStopped := by
  unfold SaskuRoundInbox.checkStopped
  simp only
  split_ifs
  · split
    · exact h.close
    · exact (h.fail _).close
  · split
    · exact h
    · exact h.fail _

/-- When the inbox is stopped, nothing is queued. -/
def Emptied (s : SaskuRoundInbox P) : Prop := s.stopped = true → ∀ seat, s.queues seat = []

theorem emptied_fail (cause : InboxCause) : Emptied (s.fail cause) := by
  intro _ seat
  rw [fail, rejectQueued_eq]

theorem emptied_close : Emptied s.close := by
  intro _ seat
  rw [close, rejectQueued_eq]

theorem Emptied.checkStopped (h : Emptied s) : Emptied s.checkStopped := by
  unfold SaskuRoundInbox.checkStopped
  simp only
  split_ifs
  · exact emptied_close
  · split
    · exact h
    · exact emptied_fail _

/-- What a stop leaves as it is. -/
theorem checkStopped_frame (s : SaskuRoundInbox P) :
    s.checkStopped.active = s.active ∧ s.checkStopped.point = s.point ∧
      s.checkStopped.view = s.view ∧ s.checkStopped.observed = s.observed ∧
      (∀ seat, s.checkStopped.queues seat = s.queues seat ∨ s.checkStopped.queues seat = []) ∧
      s.checkStopped.submitted = s.submitted := by
  have hfail : ∀ (s : SaskuRoundInbox P) cause, (s.fail cause).active = s.active ∧
      (s.fail cause).point = s.point ∧ (s.fail cause).view = s.view ∧
      (s.fail cause).observed = s.observed ∧ (∀ seat, (s.fail cause).queues seat = []) ∧
      (s.fail cause).submitted = s.submitted := by
    intro s cause
    rw [fail, rejectQueued_eq]
    exact ⟨rfl, rfl, rfl, rfl, fun _ => rfl, rfl⟩
  have hclose : ∀ s : SaskuRoundInbox P, s.close.active = s.active ∧
      s.close.point = s.point ∧ s.close.view = s.view ∧ s.close.observed = s.observed ∧
      (∀ seat, s.close.queues seat = []) ∧ s.close.submitted = s.submitted := by
    intro s
    rw [close, rejectQueued_eq]
    exact ⟨rfl, rfl, rfl, rfl, fun _ => rfl, rfl⟩
  unfold SaskuRoundInbox.checkStopped
  cases s.view.failure with
  | none =>
      simp only
      split_ifs
      · obtain ⟨h1, h2, h3, h4, h5, h6⟩ := hclose s
        exact ⟨h1, h2, h3, h4, fun seat => .inr (h5 seat), h6⟩
      · exact ⟨rfl, rfl, rfl, rfl, fun _ => .inl rfl, rfl⟩
  | some failure =>
      obtain ⟨h1, h2, h3, h4, h5, h6⟩ := hfail s (.receiver failure)
      simp only
      split_ifs
      · obtain ⟨g1, g2, g3, g4, g5, g6⟩ := hclose (s.fail (.receiver failure))
        exact ⟨g1.trans h1, g2.trans h2, g3.trans h3, g4.trans h4, fun seat => .inr (g5 seat),
          g6.trans h6⟩
      · exact ⟨h1, h2, h3, h4, fun seat => .inr (h5 seat), h6⟩

/-! ## The steps -/

/-- What every step keeps. -/
structure Inv (s : SaskuRoundInbox P) : Prop where
  ledger : Ledger s
  emptied : Emptied s
  active : s.active.isSome = true ↔ s.point = .receiving
  idle : s.point = .idle → s.observed = true → ∀ seat head rest, s.queues seat = head :: rest →
    s.view.choose head = some .skip

/-- Without pending envelopes nothing is queued. -/
theorem Ledger.queues_nil (h : Ledger s) (hzero : s.pendingEnvelopes = 0) (seat : Fin 4) :
    s.queues seat = [] := by
  have hlength := h.envelopes
  rw [hzero, held, List.length_append] at hlength
  have hperm := (queued_perm s.queues seat).length_eq
  rw [List.length_append] at hperm
  exact List.length_eq_zero_iff.1 (by omega)

theorem Ledger.goIdle (h : Ledger s) : Ledger s.goIdle := h.congr rfl rfl rfl rfl rfl rfl rfl

/-- The drain goes idle when no head is due. -/
theorem inv_goIdle (h : Ledger s) (hemptied : Emptied s) (hactive : s.active = none)
    (hheads : ∀ seat head rest, s.queues seat = head :: rest → s.view.choose head = some .skip) :
    Inv s.goIdle :=
  ⟨h.goIdle, hemptied, by simp [SaskuRoundInbox.goIdle, hactive], fun _ _ => hheads⟩

theorem inv_goIdle_of_nil (h : Ledger s) (hemptied : Emptied s) (hactive : s.active = none)
    (hnil : ∀ seat, s.queues seat = []) : Inv s.goIdle := by
  refine inv_goIdle h hemptied hactive fun seat head rest hqueue => ?_
  rw [hnil seat] at hqueue
  cases hqueue

/-- The loop goes on, or the drain ends. -/
theorem inv_continueDrain (h : Ledger s) (hemptied : Emptied s) (hactive : s.active = none) :
    Inv s.continueDrain := by
  have hledger := h.checkStopped
  have hstopped := hemptied.checkStopped
  obtain ⟨hsame, -⟩ := checkStopped_frame s
  unfold continueDrain
  simp only
  split_ifs with hends
  · refine inv_goIdle_of_nil hledger hstopped (hsame.trans hactive) ?_
    rcases hends with hstop | hzero
    · exact hstopped hstop
    · exact hledger.queues_nil hzero
  · exact ⟨hledger.congr rfl rfl rfl rfl rfl rfl rfl, hstopped,
      by simp [hsame, hactive], by rintro ⟨⟩⟩

theorem Inv.startDrain (h : Inv s) : Inv s.startDrain := by
  unfold SaskuRoundInbox.startDrain
  split_ifs with hidle
  · refine inv_continueDrain h.ledger h.emptied ?_
    cases hactive : s.active with
    | none => rfl
    | some job =>
        have hreceiving := h.active.1 (by rw [hactive]; rfl)
        rw [hidle] at hreceiving
        cases hreceiving
  · exact h

theorem Inv.checkStopped (h : Inv s) : Inv s.checkStopped := by
  obtain ⟨hactive, hpoint, hview, hobserved, hqueues, -⟩ := checkStopped_frame s
  refine ⟨h.ledger.checkStopped, h.emptied.checkStopped, by rw [hactive, hpoint]; exact h.active, ?_⟩
  intro hidle hseen seat head rest hqueue
  rw [hpoint] at hidle
  rw [hobserved] at hseen
  rw [hview]
  rcases hqueues seat with hsame | hnil
  · exact h.idle hidle hseen seat head rest (hsame ▸ hqueue)
  · rw [hnil] at hqueue
    cases hqueue

theorem Inv.close (h : Inv s) : Inv s.close := by
  refine ⟨h.ledger.close, emptied_close, ?_, ?_⟩
  · have hactive := h.active
    rw [SaskuRoundInbox.close, rejectQueued_eq]
    exact hactive
  · intro _ _ seat head rest hqueue
    rw [SaskuRoundInbox.close, rejectQueued_eq] at hqueue
    cases hqueue

theorem insertJob_perm (queue : List PendingEnvelope) :
    (insertJob job queue).Perm (job :: queue) := by
  induction queue with
  | nil => exact List.Perm.refl _
  | cons queued rest ih =>
      rw [insertJob]
      split_ifs
      · exact List.Perm.refl _
      · exact (ih.cons queued).trans (List.Perm.swap job queued rest)

theorem insertJob_sorted {queue : List PendingEnvelope}
    (h : queue.Pairwise fun a b => a.seq ≤ b.seq) :
    (insertJob job queue).Pairwise fun a b => a.seq ≤ b.seq := by
  induction queue with
  | nil => exact List.pairwise_singleton _ _
  | cons queued rest ih =>
      obtain ⟨hfirst, hrest⟩ := List.pairwise_cons.1 h
      rw [insertJob]
      split_ifs with hlt
      · refine List.pairwise_cons.2 ⟨fun other hmem => ?_, h⟩
        rcases List.mem_cons.1 hmem with rfl | hmem
        · exact hlt.le
        · exact hlt.le.trans (hfirst other hmem)
      · refine List.pairwise_cons.2 ⟨fun other hmem => ?_, ih hrest⟩
        rcases List.mem_cons.1 ((insertJob_perm rest).subset hmem) with rfl | hmem
        · exact not_lt.1 hlt
        · exact hfirst other hmem

/-- An admitted envelope is charged, and its promise is new. -/
theorem Ledger.enqueue (h : Ledger s) (hid : job.id = s.admitted) :
    Ledger (SaskuRoundInbox.enqueue { s with
      pendingEnvelopes := s.pendingEnvelopes + 1
      pendingBytes := s.pendingBytes + job.size } job) := by
  have hheld : (queued (Function.update s.queues job.seat (insertJob job (s.queues job.seat)))
      ++ s.active.toList).Perm (job :: s.held) := by
    have hqueue := ((queued_update s.queues job.seat (insertJob job (s.queues job.seat))).trans
      ((insertJob_perm (s.queues job.seat)).append_right _)).trans
        ((queued_perm s.queues job.seat).symm.cons job)
    exact hqueue.append_right s.active.toList
  refine ⟨?_, ?_, ?_, ?_, ?_, h.submitted⟩
  · change s.pendingEnvelopes + 1 = _
    rw [h.envelopes]
    exact hheld.length_eq.symm
  · change s.pendingBytes + job.size = _
    rw [h.bytes]
    refine Eq.trans ?_ (hheld.map _).sum_eq.symm
    rw [List.map_cons, List.sum_cons, add_comm]
  · change (List.map PendingEnvelope.id (queued (Function.update s.queues job.seat
      (insertJob job (s.queues job.seat))) ++ s.active.toList) ++ s.settled.map Prod.fst).Perm
        (List.range (s.admitted + 1))
    refine ((hheld.map PendingEnvelope.id).append_right _).trans ?_
    rw [List.map_cons, List.cons_append, List.range_succ, hid]
    exact (h.promises.cons s.admitted).trans (List.perm_append_singleton _ _).symm
  · intro seat other hother
    change other ∈ Function.update s.queues job.seat (insertJob job (s.queues job.seat)) seat at hother
    by_cases hseat : seat = job.seat
    · subst hseat
      rw [Function.update_self] at hother
      rcases List.mem_cons.1 ((insertJob_perm _).subset hother) with rfl | hmem
      · rfl
      · exact h.seats _ other hmem
    · rw [Function.update_of_ne hseat] at hother
      exact h.seats seat other hother
  · intro seat
    change (Function.update s.queues job.seat (insertJob job (s.queues job.seat)) seat).Pairwise _
    by_cases hseat : seat = job.seat
    · subst hseat
      rw [Function.update_self]
      exact insertJob_sorted (h.sorted _)
    · rw [Function.update_of_ne hseat]
      exact h.sorted seat

/-- What is admitted: the payload, and the promise that is handed out. -/
theorem checkAdmission_eq_ok {remote : Option IdentityPublicKey} {payload : InboxPayload} {id : ℕ}
    (h : checkAdmission o s remote payload id = .ok job) : job.id = id ∧ job.size = payload.size := by
  unfold checkAdmission at h
  split at h
  · cases h
  · split at h
    · cases h
    · split_ifs at h
      split at h
      · cases h
      · rename_i envelope henvelope
        split_ifs at h
        split at h
        · cases h
        · split_ifs at h
          simp only at h
          split at h
          · cases h
            exact ⟨rfl, (payload.size_eq envelope henvelope).symm⟩
          · split_ifs at h
            cases h
            exact ⟨rfl, (payload.size_eq envelope henvelope).symm⟩

theorem Inv.receive (h : Inv s) (remote : Option IdentityPublicKey) (payload : InboxPayload) :
    Inv (s.receive o remote payload).2 := by
  have hchecked := h.checkStopped
  unfold SaskuRoundInbox.receive
  simp only
  split_ifs with hstopped hsize
  · exact hchecked
  · exact hchecked
  · unfold reserve
    split_ifs
    · exact hchecked
    · simp only
      cases hadmit : checkAdmission o { s.checkStopped with
        pendingEnvelopes := s.checkStopped.pendingEnvelopes + 1
        pendingBytes := s.checkStopped.pendingBytes + payload.size } remote payload
          s.checkStopped.admitted with
      | error code =>
          simp only
          refine ⟨hchecked.ledger.congr rfl rfl ?_ ?_ rfl rfl rfl, hchecked.emptied,
            hchecked.active, hchecked.idle⟩
          · simp [release]
          · simp [release]
      | ok job =>
          obtain ⟨hid, hsame⟩ := checkAdmission_eq_ok hadmit
          have hledger := hchecked.ledger.enqueue hid
          rw [hsame] at hledger
          have hlive : s.checkStopped.stopped = false := by simpa using hstopped
          simp only
          unfold SaskuRoundInbox.startDrain
          split_ifs with hidle
          · refine inv_continueDrain hledger (fun hstop => ?_) ?_
            · change s.checkStopped.stopped = true at hstop
              rw [hlive] at hstop
              cases hstop
            · change s.checkStopped.active = none
              cases hactive : s.checkStopped.active with
              | none => rfl
              | some job =>
                  have hreceiving := hchecked.active.1 (by rw [hactive]; rfl)
                  change s.checkStopped.point = .idle at hidle
                  rw [hidle] at hreceiving
                  cases hreceiving
          · refine ⟨hledger, fun hstop => ?_, hchecked.active, fun hpoint => absurd hpoint hidle⟩
            change s.checkStopped.stopped = true at hstop
            rw [hlive] at hstop
            cases hstop

/-- A stop hands out no promise. -/
theorem checkStopped_admitted (s : SaskuRoundInbox P) : s.checkStopped.admitted = s.admitted := by
  have hfail : ∀ (s : SaskuRoundInbox P) cause, (s.fail cause).admitted = s.admitted := by
    intro s cause
    rw [fail, rejectQueued_eq]
  have hclose : ∀ s : SaskuRoundInbox P, s.close.admitted = s.admitted := by
    intro s
    rw [close, rejectQueued_eq]
  unfold SaskuRoundInbox.checkStopped
  cases s.view.failure with
  | none =>
      simp only
      split_ifs
      · exact hclose s
      · rfl
  | some failure =>
      simp only
      split_ifs
      · rw [hclose, hfail]
      · exact hfail s _

theorem startDrain_admitted (s : SaskuRoundInbox P) : s.startDrain.admitted = s.admitted := by
  unfold SaskuRoundInbox.startDrain SaskuRoundInbox.continueDrain SaskuRoundInbox.goIdle
  simp only
  split_ifs
  · exact checkStopped_admitted s
  · exact checkStopped_admitted s
  · rfl

/-- A call that is answered hands out the next promise. -/
theorem receive_ok {remote : Option IdentityPublicKey} {payload : InboxPayload} {id : ℕ}
    {s' : SaskuRoundInbox P} (h : s.receive o remote payload = (.ok id, s')) :
    id = s.admitted ∧ s'.admitted = s.admitted + 1 := by
  unfold SaskuRoundInbox.receive reserve at h
  simp only at h
  split_ifs at h
  · cases h
  · cases h
  · cases h
  · simp only at h
    split at h
    · cases h
    · rename_i job hadmit
      cases h
      refine ⟨(checkAdmission_eq_ok hadmit).1.trans (checkStopped_admitted s), ?_⟩
      rw [startDrain_admitted]
      exact congrArg (· + 1) (checkStopped_admitted s)

/-- A call that is refused hands out none. -/
theorem receive_error {remote : Option IdentityPublicKey} {payload : InboxPayload}
    {cause : InboxCause} {s' : SaskuRoundInbox P}
    (h : s.receive o remote payload = (.error cause, s')) : s'.admitted = s.admitted := by
  unfold SaskuRoundInbox.receive reserve at h
  simp only at h
  split_ifs at h
  · cases h
    exact checkStopped_admitted s
  · cases h
    exact checkStopped_admitted s
  · cases h
    exact checkStopped_admitted s
  · simp only at h
    split at h
    · cases h
      exact checkStopped_admitted s
    · cases h

/-- The loop over the heads finds one that is not to be skipped. -/
theorem select_some {seats : List (Fin 4)} {choice : HeadChoice}
    (h : s.select seats = some (some (job, choice))) : choice ≠ .skip ∧
      s.view.choose job = some choice ∧ ∃ seat rest, s.queues seat = job :: rest := by
  induction seats with
  | nil => cases h
  | cons seat rest ih =>
      rw [select] at h
      cases hqueue : s.queues seat with
      | nil =>
          rw [hqueue] at h
          exact ih h
      | cons head tail =>
          rw [hqueue] at h
          simp only at h
          cases hchoice : s.view.choose head with
          | none =>
              rw [hchoice] at h
              cases h
          | some found =>
              rw [hchoice] at h
              cases found with
              | skip => exact ih h
              | submit =>
                  cases h
                  exact ⟨by simp, hchoice, seat, tail, hqueue⟩
              | refuse =>
                  cases h
                  exact ⟨by simp, hchoice, seat, tail, hqueue⟩

/-- The loop over the heads skips them all. -/
theorem select_none {seats : List (Fin 4)} (h : s.select seats = some none) :
    ∀ seat ∈ seats, ∀ head rest, s.queues seat = head :: rest →
      s.view.choose head = some .skip := by
  induction seats with
  | nil => simp
  | cons seat rest ih =>
      rw [select] at h
      cases hqueue : s.queues seat with
      | nil =>
          rw [hqueue] at h
          refine List.forall_mem_cons.2 ⟨fun head tail hhead => ?_, ih h⟩
          rw [hqueue] at hhead
          cases hhead
      | cons head tail =>
          rw [hqueue] at h
          simp only at h
          cases hchoice : s.view.choose head with
          | none =>
              rw [hchoice] at h
              cases h
          | some found =>
              rw [hchoice] at h
              cases found with
              | skip =>
                  refine List.forall_mem_cons.2 ⟨fun other rest' hhead => ?_, ih h⟩
                  rw [hqueue] at hhead
                  cases hhead
                  exact hchoice
              | submit => cases h
              | refuse => cases h

/-- The head of a queue becomes the active job. -/
theorem Ledger.take (h : Ledger s) (hactive : s.active = none) {seat : Fin 4}
    {rest : List PendingEnvelope} (hqueue : s.queues seat = job :: rest) :
    Ledger (s.take job) ∧ (s.take job).active = some job ∧ job.seat = seat := by
  have hseat : job.seat = seat := h.seats seat job (by rw [hqueue]; exact List.mem_cons_self)
  subst hseat
  have hheld : (s.take job).held.Perm s.held := by
    unfold held SaskuRoundInbox.take
    simp only
    rw [hqueue, List.tail_cons, hactive, Option.toList_some, Option.toList_none, List.append_nil]
    have hbefore := queued_perm s.queues job.seat
    rw [hqueue] at hbefore
    refine (List.perm_append_singleton _ _).trans ?_
    exact ((queued_update s.queues job.seat rest).cons job).trans hbefore.symm
  refine ⟨⟨?_, ?_, ?_, ?_, ?_, h.submitted⟩, rfl, rfl⟩
  · exact h.envelopes.trans hheld.length_eq.symm
  · exact h.bytes.trans (hheld.map _).sum_eq.symm
  · exact ((hheld.map _).append_right _).trans h.promises
  · intro other queued hmem
    change queued ∈ Function.update s.queues job.seat (s.queues job.seat).tail other at hmem
    by_cases hother : other = job.seat
    · subst hother
      rw [Function.update_self] at hmem
      exact h.seats _ queued (List.mem_of_mem_tail hmem)
    · rw [Function.update_of_ne hother] at hmem
      exact h.seats other queued hmem
  · intro other
    change (Function.update s.queues job.seat (s.queues job.seat).tail other).Pairwise _
    by_cases hother : other = job.seat
    · subst hother
      rw [Function.update_self]
      exact (h.sorted _).tail
    · rw [Function.update_of_ne hother]
      exact h.sorted other

/-- The active job is settled. -/
theorem Ledger.finish (h : Ledger s) (hactive : s.active = some job)
    (settlement : InboxSettlement) :
    Ledger { (s.settle job settlement).release job.size with active := none } := by
  have hheld : s.held = queued s.queues ++ [job] := by
    rw [held, hactive]
    rfl
  have henvelopes := h.envelopes
  have hbytes := h.bytes
  have hpromises := h.promises
  rw [hheld] at henvelopes hbytes hpromises
  refine ⟨?_, ?_, ?_, h.seats, h.sorted, h.submitted⟩
  · change s.pendingEnvelopes - 1 = (queued s.queues ++ []).length
    rw [henvelopes]
    simp
  · change s.pendingBytes - job.size = ((queued s.queues ++ []).map PendingEnvelope.size).sum
    rw [hbytes]
    simp
  · change ((queued s.queues ++ []).map PendingEnvelope.id
      ++ (s.settled ++ [(job.id, settlement)]).map Prod.fst).Perm (List.range s.admitted)
    refine List.Perm.trans ?_ hpromises
    classical
    rw [List.perm_iff_count]
    intro id
    simp only [List.map_append, List.count_append, List.map_cons, List.map_nil, List.append_nil]
    omega

theorem inv_finishActive (h : Ledger s) (hemptied : Emptied s) (hactive : s.active = some job)
    (settlement : InboxSettlement) : Inv (s.finishActive job settlement) :=
  inv_continueDrain (h.finish hactive settlement) hemptied rfl

theorem inv_drainThrows (h : Ledger s) (hactive : s.active = none) : Inv s.drainThrows := by
  refine inv_goIdle_of_nil (h.fail _) (emptied_fail _) ?_ ?_
  · rw [fail, rejectQueued_eq]
    exact hactive
  · intro seat
    rw [fail, rejectQueued_eq]

theorem mem_seats (first seat : Fin 4) : seat ∈ [first, first + 1, first + 2, first + 3] := by
  revert first seat
  decide

theorem Inv.wake (h : Inv s) (hwaiting : s.point = .waiting) : Inv s.wake := by
  have hchecked := h.checkStopped
  have hnone : s.checkStopped.active = none := by
    obtain ⟨hactive, -⟩ := checkStopped_frame s
    rw [hactive]
    cases hjob : s.active with
    | none => rfl
    | some job =>
        have hreceiving := h.active.1 (by rw [hjob]; rfl)
        rw [hwaiting] at hreceiving
        cases hreceiving
  unfold SaskuRoundInbox.wake
  simp only
  split_ifs with hstopped hpending
  · exact inv_goIdle_of_nil hchecked.ledger hchecked.emptied hnone (hchecked.emptied hstopped)
  · exact inv_continueDrain hchecked.ledger hchecked.emptied hnone
  · have hlive : s.checkStopped.stopped = false := by simpa using hstopped
    cases hselect : s.checkStopped.select [s.checkStopped.nextSeat, s.checkStopped.nextSeat + 1,
      s.checkStopped.nextSeat + 2, s.checkStopped.nextSeat + 3] with
    | none => exact inv_drainThrows hchecked.ledger hnone
    | some selected =>
        cases selected with
        | none =>
            exact inv_goIdle hchecked.ledger hchecked.emptied hnone
              fun seat => select_none hselect seat (mem_seats _ seat)
        | some selected =>
            obtain ⟨job, choice⟩ := selected
            obtain ⟨hskip, hchoice, seat, rest, hqueue⟩ := select_some hselect
            obtain ⟨hledger, hactive, rfl⟩ := hchecked.ledger.take hnone hqueue
            have hemptied : Emptied (s.checkStopped.take job) := by
              intro hstop
              change s.checkStopped.stopped = true at hstop
              rw [hlive] at hstop
              cases hstop
            cases choice with
            | skip => exact absurd rfl hskip
            | submit =>
                refine ⟨⟨hledger.envelopes, hledger.bytes, hledger.promises, hledger.seats,
                  hledger.sorted, ?_⟩, hemptied, by simp [hactive], by rintro ⟨⟩⟩
                intro submission hmem
                rcases List.mem_append.1 hmem with hold | hnew
                · exact hchecked.ledger.submitted submission hold
                · rw [List.mem_singleton.1 hnew]
                  refine ⟨hchoice, rest, hqueue, ?_⟩
                  have hsorted := hchecked.ledger.sorted job.seat
                  rw [hqueue] at hsorted
                  exact (List.pairwise_cons.1 hsorted).1
            | refuse => exact inv_finishActive hledger hemptied hactive .refused

theorem Inv.receipt (h : Inv s) (hactive : s.active = some job) (outcome : ReceiveOutcome) :
    Inv (s.receipt job outcome) := by
  have hkept : ∀ s : SaskuRoundInbox P, s.active = some job → s.checkStopped.active = some job :=
    fun s hsame => (checkStopped_frame s).1.trans hsame
  unfold SaskuRoundInbox.receipt
  cases outcome with
  | rejected cause =>
      exact inv_finishActive h.ledger.checkStopped h.emptied.checkStopped (hkept s hactive) _
  | resolved receipt =>
      have hvalidated : Ledger (if s.validReceipt job receipt then s
          else s.fail (.code .invalid_receipt)) ∧
          Emptied (if s.validReceipt job receipt then s else s.fail (.code .invalid_receipt)) ∧
          (if s.validReceipt job receipt then s
            else s.fail (.code .invalid_receipt)).active = some job := by
        split_ifs
        · exact ⟨h.ledger, h.emptied, hactive⟩
        · refine ⟨h.ledger.fail _, emptied_fail _, ?_⟩
          rw [fail, rejectQueued_eq]
          exact hactive
      obtain ⟨hledger, hemptied, hsame⟩ := hvalidated
      simp only
      split
      · exact inv_finishActive hledger.checkStopped hemptied.checkStopped (hkept _ hsame) _
      · exact inv_finishActive hledger.checkStopped hemptied.checkStopped (hkept _ hsame) _

/-- **Every step keeps the invariant.** -/
theorem Inv.step (h : Inv s) {input : InboxInput P} {s' : SaskuRoundInbox P}
    (hstep : s.step o input = some s') : Inv s' := by
  cases input with
  | receive remote payload =>
      cases hstep
      exact h.receive remote payload
  | processPending =>
      cases hstep
      unfold SaskuRoundInbox.processPending SaskuRoundInbox.startDrain
      split_ifs with hidle
      · refine inv_continueDrain (h.ledger.congr rfl rfl rfl rfl rfl rfl rfl) h.emptied ?_
        change s.active = none
        cases hactive : s.active with
        | none => rfl
        | some job =>
            have hreceiving := h.active.1 (by rw [hactive]; rfl)
            change s.point = .idle at hidle
            rw [hidle] at hreceiving
            cases hreceiving
      · exact ⟨h.ledger.congr rfl rfl rfl rfl rfl rfl rfl, h.emptied, h.active,
          fun hpoint => absurd hpoint hidle⟩
  | close =>
      cases hstep
      exact h.close
  | outside view =>
      cases hstep
      exact ⟨h.ledger.congr rfl rfl rfl rfl rfl rfl rfl, h.emptied, h.active,
        fun _ hobserved => by cases hobserved⟩
  | wake =>
      simp only [SaskuRoundInbox.step, Option.ite_none_right_eq_some, Option.some.injEq] at hstep
      obtain ⟨hwaiting, rfl⟩ := hstep
      exact h.wake hwaiting
  | idleRejected =>
      simp only [SaskuRoundInbox.step, Option.ite_none_right_eq_some, Option.some.injEq] at hstep
      obtain ⟨hwaiting, rfl⟩ := hstep
      refine inv_drainThrows h.ledger ?_
      cases hactive : s.active with
      | none => rfl
      | some job =>
          have hreceiving := h.active.1 (by rw [hactive]; rfl)
          rw [hwaiting] at hreceiving
          cases hreceiving
  | receipt outcome =>
      unfold SaskuRoundInbox.step at hstep
      simp only at hstep
      split at hstep
      · rename_i job hpoint hactive
        cases hstep
        exact h.receipt hactive outcome
      · cases hstep

theorem create_inv (view : RoundView P) : Inv (create view) :=
  ⟨⟨rfl, rfl, List.Perm.refl _, by rintro seat job ⟨⟩, fun _ => List.Pairwise.nil, by rintro _ ⟨⟩⟩,
    fun _ _ => rfl, by simp [create], by rintro - - seat head rest ⟨⟩⟩

/-! ## The drain and its wakes -/

theorem observed_checkStopped : s.checkStopped.observed = s.observed :=
  (checkStopped_frame s).2.2.2.1

theorem observed_continueDrain (h : s.observed = true) : s.continueDrain.observed = true := by
  unfold continueDrain
  simp only
  split_ifs
  · rfl
  · exact observed_checkStopped.trans h

theorem observed_startDrain (h : s.observed = true) : s.startDrain.observed = true := by
  unfold SaskuRoundInbox.startDrain
  split_ifs
  · exact observed_continueDrain h
  · exact h

/-- A drain that ends has looked at the receiver and the session as they are. -/
theorem continueDrain_idle (h : s.continueDrain.point = .idle) : s.continueDrain.observed = true := by
  unfold continueDrain at h ⊢
  simp only at h ⊢
  split_ifs at h ⊢
  rfl

theorem wake_idle (h : s.wake.point = .idle) : s.wake.observed = true := by
  unfold SaskuRoundInbox.wake at h ⊢
  simp only at h ⊢
  split_ifs at h ⊢
  · rfl
  · exact continueDrain_idle h
  · cases hselect : s.checkStopped.select [s.checkStopped.nextSeat, s.checkStopped.nextSeat + 1,
      s.checkStopped.nextSeat + 2, s.checkStopped.nextSeat + 3] with
    | none => rfl
    | some selected =>
        rw [hselect] at h
        cases selected with
        | none => rfl
        | some selected =>
            obtain ⟨job, choice⟩ := selected
            cases choice with
            | skip => exact continueDrain_idle h
            | submit => cases h
            | refuse => exact continueDrain_idle h

theorem receipt_idle {outcome : ReceiveOutcome} (h : (s.receipt job outcome).point = .idle) :
    (s.receipt job outcome).observed = true := by
  unfold SaskuRoundInbox.receipt at h ⊢
  cases outcome with
  | rejected cause => exact continueDrain_idle h
  | resolved receipt =>
      simp only at h ⊢
      split at h
      · exact continueDrain_idle h
      · exact continueDrain_idle h

theorem observed_wake (h : s.observed = true) : s.wake.observed = true := by
  have hchecked : s.checkStopped.observed = true := observed_checkStopped.trans h
  unfold SaskuRoundInbox.wake
  simp only
  split_ifs
  · rfl
  · exact observed_continueDrain hchecked
  · split
    · rfl
    · rfl
    · exact hchecked
    · exact observed_continueDrain hchecked

theorem observed_fail (cause : InboxCause) : (s.fail cause).observed = s.observed := by
  rw [fail, rejectQueued_eq]

theorem observed_receipt (h : s.observed = true) (outcome : ReceiveOutcome) :
    (s.receipt job outcome).observed = true := by
  unfold SaskuRoundInbox.receipt
  cases outcome with
  | rejected cause => exact observed_continueDrain (observed_checkStopped.trans h)
  | resolved receipt =>
      have hvalidated : (if s.validReceipt job receipt then s
          else s.fail (.code .invalid_receipt)).observed = true := by
        split_ifs
        · exact h
        · exact (observed_fail _).trans h
      simp only
      split
      · exact observed_continueDrain (observed_checkStopped.trans hvalidated)
      · exact observed_continueDrain (observed_checkStopped.trans hvalidated)

theorem observed_receive (h : s.observed = true) (remote : Option IdentityPublicKey)
    (payload : InboxPayload) : (s.receive o remote payload).2.observed = true := by
  have hchecked : s.checkStopped.observed = true := observed_checkStopped.trans h
  unfold SaskuRoundInbox.receive reserve
  simp only
  split_ifs
  · exact hchecked
  · exact hchecked
  · exact hchecked
  · simp only
    split
    · exact hchecked
    · exact observed_startDrain hchecked

/-- Only outside progress has to be observed. -/
theorem observed_step {input : InboxInput P} {s' : SaskuRoundInbox P} (h : s.observed = true)
    (hinput : ∀ view, input ≠ .outside view) (hstep : s.step o input = some s') :
    s'.observed = true := by
  cases input with
  | receive remote payload =>
      cases hstep
      exact observed_receive h remote payload
  | processPending =>
      cases hstep
      exact observed_startDrain rfl
  | close =>
      cases hstep
      rw [SaskuRoundInbox.close, rejectQueued_eq]
      exact h
  | outside view => exact absurd rfl (hinput view)
  | wake =>
      simp only [SaskuRoundInbox.step, Option.ite_none_right_eq_some, Option.some.injEq] at hstep
      obtain ⟨-, rfl⟩ := hstep
      exact observed_wake h
  | idleRejected =>
      simp only [SaskuRoundInbox.step, Option.ite_none_right_eq_some, Option.some.injEq] at hstep
      obtain ⟨-, rfl⟩ := hstep
      rfl
  | receipt outcome =>
      unfold SaskuRoundInbox.step at hstep
      simp only at hstep
      split at hstep
      · cases hstep
        exact observed_receipt h outcome
      · cases hstep

/-- A drain that goes idle in a step has observed the state it goes idle in. -/
theorem goes_idle {input : InboxInput P} {s' : SaskuRoundInbox P} (hstep : s.step o input = some s')
    (hbefore : s.point ≠ .idle) (hafter : s'.point = .idle) : s'.observed = true := by
  have hpoint : s.checkStopped.point = s.point := (checkStopped_frame s).2.1
  cases input with
  | receive remote payload =>
      cases hstep
      exfalso
      unfold SaskuRoundInbox.receive reserve at hafter
      simp only at hafter
      split_ifs at hafter
      · exact hbefore (hpoint.symm.trans hafter)
      · exact hbefore (hpoint.symm.trans hafter)
      · exact hbefore (hpoint.symm.trans hafter)
      · simp only at hafter
        split at hafter
        · exact hbefore (hpoint.symm.trans hafter)
        · unfold SaskuRoundInbox.startDrain at hafter
          split_ifs at hafter with hidle
          · exact hbefore (hpoint.symm.trans hidle)
          · exact hbefore (hpoint.symm.trans hafter)
  | processPending =>
      cases hstep
      exact observed_startDrain rfl
  | close =>
      cases hstep
      rw [SaskuRoundInbox.close, rejectQueued_eq] at hafter
      exact absurd hafter hbefore
  | outside view =>
      cases hstep
      exact absurd hafter hbefore
  | wake =>
      simp only [SaskuRoundInbox.step, Option.ite_none_right_eq_some, Option.some.injEq] at hstep
      obtain ⟨-, rfl⟩ := hstep
      exact wake_idle hafter
  | idleRejected =>
      simp only [SaskuRoundInbox.step, Option.ite_none_right_eq_some, Option.some.injEq] at hstep
      obtain ⟨-, rfl⟩ := hstep
      rfl
  | receipt outcome =>
      unfold SaskuRoundInbox.step at hstep
      simp only at hstep
      split at hstep
      · cases hstep
        exact receipt_idle hafter
      · cases hstep

/-! ## The inbox -/

/-- A job that the drain would take: its chain position is settled, or it can be submitted. -/
def Eligible (view : RoundView P) (job : PendingEnvelope) : Prop := view.choose job ≠ some .skip

/-- No head of a queue is eligible in the receiver's and session's present state. -/
def Quiet (s : SaskuRoundInbox P) : Prop :=
  ∀ seat head rest, s.queues seat = head :: rest → ¬ Eligible s.view head

/-- Everything that comes before an envelope in its sender's chain is held by the session. -/
def PredecessorHeld (session : SessionChainRegistry P) (envelope : SignedEnvelope) : Prop :=
  ∀ logs, HoldsLogs session logs → ∃ seat, session.roster.seatOf envelope.from_ = some seat ∧
    envelope.seq ≤ (logs seat).length

/-- What the inbox promises in a state. -/
structure Exact (o : InboxOptions P) (s : SaskuRoundInbox P) : Prop where
  /-- The counters are those of the queued and active envelopes. -/
  envelopes : s.pendingEnvelopes = s.held.length
  bytes : s.pendingBytes = (s.held.map PendingEnvelope.size).sum
  /-- They are zero when all promises are settled. -/
  zero : s.settled.length = s.admitted → s.pendingEnvelopes = 0 ∧ s.pendingBytes = 0
  /-- No promise is settled twice, and those that are not are queued or active. -/
  once : (s.settled.map Prod.fst).Nodup
  promises : ∀ id, id < s.admitted ↔
    id ∈ s.settled.map Prod.fst ∨ id ∈ s.held.map PendingEnvelope.id
  /-- A call of `receive` that is answered has handed out the next promise, and no other has. -/
  answered : ∀ remote payload id s', s.receive o remote payload = (.ok id, s') →
    id = s.admitted ∧ s'.admitted = s.admitted + 1
  refused : ∀ remote payload cause s', s.receive o remote payload = (.error cause, s') →
    s'.admitted = s.admitted
  /-- After a close or a failure only an active receipt is not settled. -/
  stopped : s.stopped = true → s.active = none →
    ∀ id, id < s.admitted → id ∈ s.settled.map Prod.fst
  /-- What was submitted was due. -/
  submitted : ∀ submission ∈ s.submitted,
    PredecessorHeld submission.view.session submission.job.envelope ∧
    ¬ (submission.view.stage < submission.job.stage ∨
      (submission.job.stage = submission.view.stage ∧
        submission.view.index < submission.job.index)) ∧
    ∃ rest, submission.queue = submission.job :: rest ∧
      ∀ other ∈ rest, submission.job.seq ≤ other.seq
  /-- A drain that goes idle leaves no eligible head. -/
  idle : ∀ input s', s.step o input = some s' → s.point ≠ .idle → s'.point = .idle →
    s'.stopped = false → Quiet s'
  /-- After `processPending`, as long as nothing changes outside, an idle drain leaves none. -/
  woken : ∀ inputs s', (∀ input ∈ inputs, ∀ view, input ≠ .outside view) →
    Replay.run (step o) s.processPending inputs = some s' → s'.point = .idle →
    s'.stopped = false → Quiet s'

theorem Inv.quiet (h : Inv s) (hidle : s.point = .idle) (hobserved : s.observed = true) :
    Quiet s :=
  fun seat head rest hqueue heligible => heligible (h.idle hidle hobserved seat head rest hqueue)

theorem due_submitted {submission : InboxSubmission P} (h : Due submission) :
    PredecessorHeld submission.view.session submission.job.envelope ∧
    ¬ (submission.view.stage < submission.job.stage ∨
      (submission.job.stage = submission.view.stage ∧
        submission.view.index < submission.job.index)) := by
  obtain ⟨hchoice, -⟩ := h
  unfold RoundView.choose at hchoice
  cases hclass : submission.view.session.classify submission.job.envelope with
  | wrong_game => simp [hclass] at hchoice
  | unknown_sender => simp [hclass] at hchoice
  | chain result =>
      cases result with
      | accepted head =>
          simp only [hclass] at hchoice
          split_ifs at hchoice with hphase
          · cases hchoice
          · refine ⟨fun logs hlogs => ?_, hphase⟩
            obtain ⟨-, seat, hseat, hseq, -⟩ := hlogs.classify_accepted.1 ⟨head, hclass⟩
            exact ⟨seat, hseat, hseq.le⟩
      | duplicate existing =>
          simp only [hclass] at hchoice
          split_ifs at hchoice with hphase
          · cases hchoice
          · refine ⟨fun logs hlogs => ?_, hphase⟩
            obtain ⟨-, seat, hseat, hget, -⟩ := hlogs.classify_duplicate.1 hclass
            exact ⟨seat, hseat, (List.getElem?_eq_some_iff.1 hget).1.le⟩
      | wrong_sender => simp [hclass] at hchoice
      | gap => simp [hclass] at hchoice
      | broken_prev => simp [hclass] at hchoice
      | equivocation => simp [hclass] at hchoice

theorem Inv.exact (h : Inv s) : Exact o s := by
  have hperm := h.ledger.promises
  have hnodup := hperm.nodup_iff.2 List.nodup_range
  have hmem : ∀ id, id < s.admitted ↔
      id ∈ s.settled.map Prod.fst ∨ id ∈ s.held.map PendingEnvelope.id := by
    intro id
    rw [← List.mem_range, ← hperm.mem_iff, List.mem_append, or_comm]
  refine ⟨h.ledger.envelopes, h.ledger.bytes, fun hall => ?_, (List.nodup_append.1 hnodup).2.1,
    hmem, fun _ _ _ _ => receive_ok, fun _ _ _ _ => receive_error,
    fun hstopped hnone id hid => ?_, fun submission hsubmission => ?_,
    fun input s' hstep hbefore hafter _ => ?_, fun inputs s' hinputs hrun hidle _ => ?_⟩
  · have hlength := hperm.length_eq
    rw [List.length_append, List.length_map, List.length_map, List.length_range] at hlength
    have hnil : s.held = [] := List.length_eq_zero_iff.1 (by omega)
    rw [h.ledger.envelopes, h.ledger.bytes, hnil]
    exact ⟨rfl, rfl⟩
  · have hnil : s.held = [] := by
      have hqueues := h.emptied hstopped
      simp [held, queued, hqueues, hnone]
    have hsettled := (hmem id).1 hid
    rw [hnil] at hsettled
    exact hsettled.resolve_right (by simp)
  · obtain ⟨hheld, hphase⟩ := due_submitted (h.ledger.submitted submission hsubmission)
    exact ⟨hheld, hphase, (h.ledger.submitted submission hsubmission).2⟩
  · exact (h.step hstep).quiet hafter (goes_idle hstep hbefore hafter)
  · have hstep : s.step o .processPending = some s.processPending := rfl
    have hwoken : Inv s.processPending ∧ s.processPending.observed = true :=
      ⟨h.step hstep, observed_startDrain rfl⟩
    have hend : Inv s' ∧ s'.observed = true := by
      generalize s.processPending = start at hwoken hrun
      induction inputs generalizing start with
      | nil =>
          cases hrun
          exact hwoken
      | cons input rest ih =>
          obtain ⟨next, hnext, hrest⟩ := (Replay.run_cons_eq_some _).1 hrun
          exact ih (fun other hother => hinputs other (List.mem_cons_of_mem _ hother)) next
            ⟨hwoken.1.step hnext, observed_step hwoken.2 (hinputs input List.mem_cons_self) hnext⟩
            hrest
    exact hend.1.quiet hidle hend.2

/-- In every state of every run the inbox keeps its promises. -/
def RunsExactly (o : InboxOptions P) : Prop :=
  ∀ (view : RoundView P) (inputs : List (InboxInput P)) (s : SaskuRoundInbox P),
    Replay.run (step o) (create view) inputs = some s → Exact o s

/-- **The round inbox neither loses, reorders nor leaks.** -/
theorem round_inbox_exact (o : InboxOptions P) : RunsExactly o := by
  intro view inputs s hrun
  have h : Inv s := Replay.run_invariant (step o) (fun h hstep => h.step hstep)
    (create_inv view) hrun
  exact h.exact

end SaskuRoundInbox

end

end Tablefolk
