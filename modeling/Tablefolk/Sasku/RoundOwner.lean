import Tablefolk.Engine.ShuffleReceiver
import Tablefolk.Lib.Replay
import Tablefolk.Rules.Hand
import Tablefolk.Session.Sync

/-!
# The round owner

The model of the job queue of `game-sasku/src/candidate-round-owner.ts`.  The receivers and the
session are what the owner reads of them, and may change between any two steps; what runs without
an `await` is one step.  The decoders of the bodies of sync controls are parameters.

* `Inv`: the books balance, every promise is queued, active or settled, and the shuffle is handed
  over in the job that completes it.
* `round_owner_exact`: what that says of every run.
-/

namespace Tablefolk

/-! ## The owner's queue -/

/-- What a promise is rejected with. -/
inductive OwnerCause where
  | failure (failure : String)
  | run (cause : String)
  | message (text : String)
  deriving DecidableEq, Repr

/-- How a promise is settled. -/
inductive OwnerSettlement where
  | resolved
  | rejected (cause : OwnerCause)
  deriving DecidableEq, Repr

/-- A payload: its size, and what `decodeAndVerifyEnvelope` makes of it. -/
structure OwnerPayload where
  size : ℕ
  envelope : Option SignedEnvelope

/-- What `#prepare` returns; there is no stage for a control. -/
structure PreparedJob where
  size : ℕ
  stage : Option ℕ
  index : ℕ
  bytes : Option SignedEnvelope

/-- `Job`; `id` is its promise. -/
structure OwnerJob extends PreparedJob where
  id : ℕ
  signal : Option ℕ

section

variable {q : ℕ} {G : Type} [AddCommGroup G] [Module (ZMod q) G]

/-- What the owner reads of the shuffle receiver, the round receiver and the session. -/
structure OwnerView (P : Primitives q G) where
  shuffleComplete : Bool
  nextSeat : Option ℕ
  shuffleFailure : Option String
  roundFailure : Option String
  audit : Bool
  deal : Bool
  dealIndex : ℕ
  actionIndex : ℕ
  session : SessionChainRegistry P

/-- What `open` fixes. -/
structure OwnerOptions (P : Primitives q G) where
  roster : Roster P
  gameId : GameId
  self : IdentityPublicKey
  round : ℕ
  schedule : ℕ
  maxCount : ℕ
  maxBytes : ℕ
  decodeSyncRequestBody : CborValue → Option SyncRequestBody
  decodeSyncResponseBody : CborValue → Option SyncResponseBody

/-- Where `#drain` is: idle, in `job.run`, or in `#promote` after it. -/
inductive OwnerPoint where
  | idle
  | running
  | promoting
  deriving DecidableEq, Repr

/-- The change to the round phase: the job that was active, and whether the shuffle was complete
when that job was started. -/
structure Handoff where
  job : ℕ
  completeBefore : Bool
  deriving DecidableEq, Repr

/-- `CandidateSaskuRoundOwner`.  `admitted` counts the promises of jobs, `settled` and `handoffs`
are what was done so far, `completeBefore` is what the active job found, and `observed` says that
the drain has ended since the receivers or the session changed. -/
structure CandidateSaskuRoundOwner (P : Primitives q G) where
  queue : List OwnerJob
  active : Option OwnerJob
  pendingBytes : ℕ
  closed : Bool
  failure : Option String
  round : Bool
  point : OwnerPoint
  aborted : List ℕ
  view : OwnerView P
  observed : Bool
  completeBefore : Bool
  admitted : ℕ
  settled : List (ℕ × OwnerSettlement)
  handoffs : List Handoff

variable {P : Primitives q G}

namespace CandidateSaskuRoundOwner

/-- `open`, which hands a complete shuffle over at once. -/
def create (view : OwnerView P) : CandidateSaskuRoundOwner P where
  queue := []
  active := none
  pendingBytes := 0
  closed := false
  failure := none
  round := view.shuffleComplete
  point := .idle
  aborted := []
  view := view
  observed := false
  completeBefore := false
  admitted := 0
  settled := []
  handoffs := []

/-- `pendingEnvelopes`. -/
def pendingEnvelopes (s : CandidateSaskuRoundOwner P) : ℕ :=
  s.queue.length + if s.active.isSome then 1 else 0

/-- `#guard`. -/
def guard (s : CandidateSaskuRoundOwner P) : Except OwnerCause Unit :=
  match s.failure with
  | some failure => .error (.failure failure)
  | none => throwIf (s.closed = true) (.message "Round owner is closed")

/-- `#capacity`. -/
def capacity (o : OwnerOptions P) (s : CandidateSaskuRoundOwner P) (size : ℕ) :
    Except OwnerCause Unit := do
  s.guard
  throwIf (size < 1 ∨ o.maxCount ≤ s.pendingEnvelopes ∨ o.maxBytes < s.pendingBytes + size)
    (.message "Round owner queue limit")

/-- What has been decoded. -/
def decoded (payload : OwnerPayload) : Except OwnerCause SignedEnvelope :=
  match payload.envelope with
  | some envelope => .ok envelope
  | none => .error (.message "Invalid envelope")

/-- The checks of a control. -/
def prepareControl (o : OwnerOptions P) (size : ℕ) (e : SignedEnvelope) :
    Except OwnerCause PreparedJob := do
  throwIf (e.phase ≠ "control.sync") (.message "Invalid sync control phase")
  match e.type with
  | .SYNC_REQ =>
      match o.decodeSyncRequestBody e.body with
      | none => throw (.message "Invalid SYNC_REQ.body")
      | some request =>
          throwIf (request.from_ ∉ o.roster.seats ∨ 32 ≤ request.toSeq - request.fromSeq)
            (.message "Invalid sync request range")
          return ⟨size, none, 0, some e⟩
  | .SYNC_RESP =>
      match o.decodeSyncResponseBody e.body with
      | none => throw (.message "Invalid SYNC_RESP.body")
      | some response =>
          throwIf (32 < response.envelopes.length) (.message "Sync response range limit")
          return ⟨size, none, 0, some e⟩
  | _ => throw (.message "Unsupported control type")

/-- The stage of a type, its name in a phase, and the bound of its index. -/
def stageOf (o : OwnerOptions P) : EnvelopeMessageType → Option (ℕ × String × ℕ)
  | .SHUFFLE => some (0, "shuffle", 4)
  | .SHARES => some (1, "deal", o.schedule)
  | .ACTION => some (2, "play", MAX_SASKU_HAND_ACTIONS)
  | .AUDIT_DISCLOSE => some (3, "audit", 1)
  | _ => none

/-- The checks of semantic traffic. -/
def prepareSemantic (o : OwnerOptions P) (size : ℕ) (e : SignedEnvelope) :
    Except OwnerCause PreparedJob :=
  match stageOf o e.type with
  | none =>
      .error (.message "Unsupported semantic traffic; controls require a coordinated adapter")
  | some (stage, name, limit) =>
      if stage = 3 then do
        throwIf (e.phase ≠ "round." ++ toString e.round ++ "." ++ name)
          (.message "Invalid semantic phase")
        return ⟨size, some stage, 0, some e⟩
      else
        match (List.range limit).find? fun index =>
          e.phase = "round." ++ toString e.round ++ "." ++ name ++ "." ++ toString index with
        | some index => .ok ⟨size, some stage, index, some e⟩
        | none => .error (.message "Invalid semantic phase")

/-- Whether a queued job contradicts an envelope. -/
def conflicts (e : SignedEnvelope) (job : OwnerJob) : Bool :=
  match job.bytes with
  | none => false
  | some prior => prior.seq = e.seq ∧ prior.from_ = e.from_ ∧ prior ≠ e

/-- `#prepare`. -/
def prepare (o : OwnerOptions P) (s : CandidateSaskuRoundOwner P) (payload : OwnerPayload)
    (peer : Option IdentityPublicKey) (control reserved : Bool) :
    Except OwnerCause PreparedJob := do
  s.guard
  throwIf (payload.size < 1 ∨ 64 * 1024 < payload.size) (.message "Invalid semantic envelope size")
  if reserved then pure () else s.capacity o payload.size
  let e ← decoded payload
  throwIf (∃ identity, peer = some identity ∧ identity ≠ e.from_)
    (.message "Direct sender differs from authenticated peer")
  throwIf (e.game ≠ o.gameId ∨ e.round ≠ o.round ∨ e.from_ ∉ o.roster.seats)
    (.message "Wrong round scope")
  throwIf ((s.queue ++ s.active.toList).any (conflicts e) = true)
    (.message "Conflicting queued sender sequence")
  if control then prepareControl o payload.size e else prepareSemantic o payload.size e

/-- `#syncPeer`, and the same check of `receive`. -/
def checkPeer (o : OwnerOptions P) (remote : IdentityPublicKey) (text : String) :
    Except OwnerCause Unit :=
  throwIf (remote = o.self ∨ remote ∉ o.roster.seats) (.message text)

/-- A call that may enqueue a job.  `authorLocal` is any call of `#local`; what such a call checks
before it only rejects it. -/
inductive OwnerRequest where
  | receive (remote : IdentityPublicKey) (payload : OwnerPayload)
  | receiveHistory (payload : OwnerPayload)
  | receiveSyncRequest (remote : IdentityPublicKey) (payload : OwnerPayload)
  | receiveSyncResponse (remote : IdentityPublicKey) (payload : OwnerPayload)
      (request : SyncRequestBody) (sizes : SignedEnvelope → ℕ) (signal : Option ℕ)
  | authorLocal (isAuthor : Bool)
  | authorShuffle (isAuthor : Bool) (size : ℕ)

/-- The checks of a response before it is enqueued; the originals are charged with it. -/
def checkSyncResponse (o : OwnerOptions P) (s : CandidateSaskuRoundOwner P)
    (remote : IdentityPublicKey) (payload : OwnerPayload) (request : SyncRequestBody)
    (sizes : SignedEnvelope → ℕ) : Except OwnerCause PreparedJob := do
  checkPeer o remote "Wrong sync peer"
  throwIf (64 * 1024 < payload.size) (.message "Invalid sync response bytes")
  s.capacity o (payload.size * 2)
  let outer ← prepare o s payload (some remote) true false
  let e ← decoded payload
  throwIf (e.type ≠ .SYNC_RESP) (.message "Expected sync response")
  match o.decodeSyncResponseBody e.body with
  | none => throw (.message "Invalid SYNC_RESP.body")
  | some response =>
      match preflightSyncResponse s.view.session request response ⟨32, 64 * 1024⟩ with
      | .error text => throw (.message text)
      | .ok (.rejected _) => throw (.message "preflight")
      | .ok (.valid _ response) => do
          let _ ← response.envelopes.mapM fun original => prepare o s
            ⟨sizes original, some original⟩ none
            (original.type = .SYNC_REQ ∨ original.type = .SYNC_RESP) true
          return ⟨payload.size * 2, none, 0, outer.bytes⟩

/-- What a call hands to `#enqueue`, with its signal. -/
def checkRequest (o : OwnerOptions P) (s : CandidateSaskuRoundOwner P) :
    OwnerRequest → Except OwnerCause (PreparedJob × Option ℕ)
  | .receive remote payload => do
      checkPeer o remote "Wrong direct peer"
      return (← prepare o s payload (some remote) false false, none)
  | .receiveHistory payload => do
      return (← prepare o s payload none false false, none)
  | .receiveSyncRequest remote payload => do
      checkPeer o remote "Wrong sync peer"
      let job ← prepare o s payload (some remote) true false
      let e ← decoded payload
      throwIf (e.type ≠ .SYNC_REQ) (.message "Expected sync request")
      return (job, none)
  | .receiveSyncResponse remote payload request sizes signal => do
      throwIf (∃ k, signal = some k ∧ k ∈ s.aborted) (.message "Sync cancelled")
      return (← checkSyncResponse o s remote payload request sizes, signal)
  | .authorLocal isAuthor => do
      s.guard
      throwIf (isAuthor = false) (.message "Wrong local author")
      return (⟨64 * 1024, none, 0, none⟩, none)
  | .authorShuffle isAuthor size => do
      s.guard
      throwIf (isAuthor = false) (.message "Wrong local author")
      s.capacity o size
      throwIf (16 * 1024 < size) (.message "Invalid shuffle preparation size")
      return (⟨size, none, 0, none⟩, none)

/-- `#rejectQueued`. -/
def rejectQueued (s : CandidateSaskuRoundOwner P) (cause : OwnerCause) :
    CandidateSaskuRoundOwner P :=
  s.queue.foldl (fun s job => { s with
      pendingBytes := s.pendingBytes - job.size
      settled := s.settled ++ [(job.id, .rejected cause)] }) { s with queue := [] }

/-- The phase the owner is in, as the stage and index that are due. -/
def due (s : CandidateSaskuRoundOwner P) : ℕ × ℕ :=
  if s.round then
    if s.view.audit then (3, 0)
    else if s.view.deal then (1, s.view.dealIndex)
    else (2, s.view.actionIndex)
  else (0, s.view.nextSeat.getD 4)

/-- `#eligible`. -/
def eligible (s : CandidateSaskuRoundOwner P) (job : OwnerJob) : Bool :=
  match job.bytes, job.stage with
  | some e, some stage =>
      match s.view.session.classify e with
      | .chain (.gap _ _) => false
      | .chain (.accepted _) | .chain (.duplicate _) =>
          stage < s.due.1 ∨ (stage = s.due.1 ∧ job.index ≤ s.due.2)
      | _ => true
  | _, _ => true

/-- Whether the owner is closed or has failed. -/
def stopped (s : CandidateSaskuRoundOwner P) : Bool := s.closed || s.failure.isSome

/-- The loop of `#drain` from its condition on. -/
def continueDrain (s : CandidateSaskuRoundOwner P) : CandidateSaskuRoundOwner P :=
  if s.stopped then { s with point := .idle, observed := true }
  else
    match s.queue.findIdx? s.eligible with
    | none => { s with point := .idle, observed := true }
    | some index =>
        { s with
          queue := s.queue.eraseIdx index
          active := s.queue[index]?
          point := .running
          completeBefore := s.view.shuffleComplete }

/-- `#start`. -/
def start (s : CandidateSaskuRoundOwner P) : CandidateSaskuRoundOwner P :=
  if s.point ≠ .idle ∨ s.stopped then s else s.continueDrain

/-- `#enqueue`. -/
def enqueue (o : OwnerOptions P) (s : CandidateSaskuRoundOwner P) (prepared : PreparedJob)
    (signal : Option ℕ) : Except OwnerCause ℕ × CandidateSaskuRoundOwner P :=
  match s.capacity o prepared.size with
  | .error cause => (.error cause, s)
  | .ok () =>
      if ∃ k, signal = some k ∧ k ∈ s.aborted then (.error (.message "Sync cancelled"), s)
      else
        let job : OwnerJob := { toPreparedJob := prepared, id := s.admitted, signal := signal }
        (.ok s.admitted, ({ s with
          pendingBytes := s.pendingBytes + prepared.size
          queue := s.queue ++ [job]
          admitted := s.admitted + 1 } : CandidateSaskuRoundOwner P).start)

/-- A call that may enqueue a job. -/
def request (o : OwnerOptions P) (s : CandidateSaskuRoundOwner P) (request : OwnerRequest) :
    Except OwnerCause ℕ × CandidateSaskuRoundOwner P :=
  match checkRequest o s request with
  | .error cause => (.error cause, s)
  | .ok (prepared, signal) => s.enqueue o prepared signal

/-- The listener a queued job has added to its signal. -/
def cancel (s : CandidateSaskuRoundOwner P) (job : OwnerJob) : CandidateSaskuRoundOwner P :=
  { s with
    queue := s.queue.filter fun queued => queued.id ≠ job.id
    pendingBytes := s.pendingBytes - job.size
    settled := s.settled ++ [(job.id, .rejected (.message "Sync cancelled"))] }

/-- A signal is aborted. -/
def abort (s : CandidateSaskuRoundOwner P) (signal : ℕ) : CandidateSaskuRoundOwner P :=
  (s.queue.filter fun job => job.signal = some signal).foldl cancel
    { s with aborted := signal :: s.aborted }

/-- `close`. -/
def close (s : CandidateSaskuRoundOwner P) : CandidateSaskuRoundOwner P :=
  { s with closed := true }.rejectQueued (.message "Round owner is closed")

/-- `#promote`; `handoff` is the error of the handoff, if there is one. -/
def promote (s : CandidateSaskuRoundOwner P) (handoff : Option String) :
    Bool × CandidateSaskuRoundOwner P :=
  if s.closed ∨ s.round ∨ s.view.shuffleComplete = false then (true, s)
  else
    match handoff with
    | none => (true, { s with
        round := true
        handoffs := s.handoffs ++ s.active.toList.map fun job => ⟨job.id, s.completeBefore⟩ })
    | some error => (false, { s with failure := some error })

/-- The end of the work on a job. -/
def finish (s : CandidateSaskuRoundOwner P) (job : OwnerJob) (settlement : OwnerSettlement) :
    CandidateSaskuRoundOwner P :=
  ({ s with
    settled := s.settled ++ [(job.id, settlement)]
    pendingBytes := s.pendingBytes - job.size
    active := none }).continueDrain

/-- The failure that an error in a job reveals. -/
def fatal (s : CandidateSaskuRoundOwner P) : Option String :=
  s.failure.or (s.view.shuffleFailure.or (if s.round then s.view.roundFailure else none))

/-- A job throws. -/
def throws (s : CandidateSaskuRoundOwner P) (job : OwnerJob) (cause : OwnerCause) :
    CandidateSaskuRoundOwner P :=
  match s.fatal with
  | none => s.finish job (.rejected cause)
  | some failure =>
      ({ s with failure := some failure }.rejectQueued (.failure failure)).finish job
        (.rejected cause)

/-- How `job.run` ends. -/
inductive RunOutcome where
  | resolved (handoff : Option String)
  | rejected (cause : String)
  deriving DecidableEq, Repr

/-- `#drain` after `job.run`. -/
def ran (s : CandidateSaskuRoundOwner P) (job : OwnerJob) : RunOutcome →
    CandidateSaskuRoundOwner P
  | .rejected cause => s.throws job (.run cause)
  | .resolved handoff =>
      if s.closed then s.finish job .resolved
      else
        match s.promote handoff with
        | (true, s) => { s with point := .promoting }
        | (false, s) => s.throws job (.run "Round handoff requires recovery")

/-- What happens to the owner. -/
inductive OwnerInput (P : Primitives q G) where
  | request (request : OwnerRequest)
  | abort (signal : ℕ)
  | close
  | outside (view : OwnerView P)
  | promoted (handoff : Option String)
  | failed (error : String)
  | ran (outcome : RunOutcome)
  | resolve

/-- The changes of the receivers that can come: the owner is the only one to use its shuffle
receiver, whose shuffle is completed by one of its calls, and only the job that is running makes
calls. -/
def CanChange (s : CandidateSaskuRoundOwner P) (view : OwnerView P) : Prop :=
  s.point = .running ∨ view.shuffleComplete = s.view.shuffleComplete

/-- How a run can end: with an error once the owner has failed; and a run that throws without a
failure has not completed the shuffle, since the call that does so is accepted. -/
def CanEnd (s : CandidateSaskuRoundOwner P) : RunOutcome → Prop
  | .resolved _ => s.failure = none
  | .rejected _ => s.fatal = none → s.round = false → s.view.shuffleComplete = false

instance (s : CandidateSaskuRoundOwner P) (view : OwnerView P) : Decidable (s.CanChange view) :=
  inferInstanceAs (Decidable (_ ∨ _))

instance (s : CandidateSaskuRoundOwner P) (outcome : RunOutcome) :
    Decidable (s.CanEnd outcome) := by
  unfold CanEnd
  cases outcome <;> exact inferInstance

/-- One step; `none` when the input cannot come.  `promoted` is the call of `#promote` within a
response, and `failed` the failure that a control or that call sets before it throws. -/
def step (o : OwnerOptions P) (s : CandidateSaskuRoundOwner P) :
    OwnerInput P → Option (CandidateSaskuRoundOwner P)
  | .request request => some (s.request o request).2
  | .abort signal => some (s.abort signal)
  | .close => some s.close
  | .outside view =>
      if s.CanChange view then some { s with view := view, observed := false } else none
  | .promoted handoff => if s.point = .running then some (s.promote handoff).2 else none
  | .failed error => if s.point = .running then some { s with failure := some error } else none
  | .ran outcome =>
      match s.point, s.active with
      | .running, some job => if s.CanEnd outcome then some (s.ran job outcome) else none
      | _, _ => none
  | .resolve =>
      match s.point, s.active with
      | .promoting, some job => some (s.finish job .resolved)
      | _, _ => none

/-- The jobs that are not settled. -/
def held (s : CandidateSaskuRoundOwner P) : List OwnerJob := s.queue ++ s.active.toList

/-! ## The books -/

variable {o : OwnerOptions P} {s : CandidateSaskuRoundOwner P} {job : OwnerJob}

/-- The books of the owner. -/
structure Ledger (o : OwnerOptions P) (s : CandidateSaskuRoundOwner P) : Prop where
  bytes : s.pendingBytes = (s.held.map fun job => job.size).sum
  promises : (s.held.map OwnerJob.id ++ s.settled.map Prod.fst).Perm (List.range s.admitted)
  count : s.held.length ≤ o.maxCount
  limit : s.pendingBytes ≤ o.maxBytes

theorem pendingEnvelopes_eq (s : CandidateSaskuRoundOwner P) :
    s.pendingEnvelopes = s.held.length := by
  unfold pendingEnvelopes held
  rw [List.length_append]
  cases s.active <;> rfl

/-- Jobs that are settled leave the books together with their bytes. -/
theorem Ledger.release (h : Ledger o s) {s' : CandidateSaskuRoundOwner P} (jobs : List OwnerJob)
    (hheld : s.held.Perm (jobs ++ s'.held))
    (hbytes : s'.pendingBytes = s.pendingBytes - (jobs.map fun job => job.size).sum)
    (hsettled : s'.settled.map Prod.fst = s.settled.map Prod.fst ++ jobs.map OwnerJob.id)
    (hadmitted : s'.admitted = s.admitted) : Ledger o s' := by
  refine ⟨?_, ?_, ?_, ?_⟩
  · have hsum := (hheld.map fun job => job.size).sum_eq
    rw [List.map_append, List.sum_append, ← h.bytes] at hsum
    omega
  · rw [hsettled, hadmitted]
    refine List.Perm.trans ?_ h.promises
    have hids := hheld.map OwnerJob.id
    rw [List.map_append] at hids
    rw [List.perm_iff_count] at hids ⊢
    intro id
    have hcount := hids id
    simp only [List.count_append] at hcount ⊢
    omega
  · have hlength := hheld.length_eq
    rw [List.length_append] at hlength
    have hcount := h.count
    omega
  · have hlimit := h.limit
    omega

/-- Moving a job within the books changes nothing. -/
theorem Ledger.move (h : Ledger o s) {s' : CandidateSaskuRoundOwner P}
    (hheld : s.held.Perm s'.held) (hbytes : s'.pendingBytes = s.pendingBytes)
    (hsettled : s'.settled = s.settled) (hadmitted : s'.admitted = s.admitted) : Ledger o s' :=
  h.release [] hheld hbytes (by rw [hsettled, List.map_nil, List.append_nil]) hadmitted

/-- Only what is queued, active, admitted and settled is in the books. -/
theorem Ledger.congr (h : Ledger o s) {s' : CandidateSaskuRoundOwner P}
    (hqueue : s'.queue = s.queue) (hactive : s'.active = s.active)
    (hbytes : s'.pendingBytes = s.pendingBytes) (hsettled : s'.settled = s.settled)
    (hadmitted : s'.admitted = s.admitted) : Ledger o s' :=
  h.move (by rw [held, held, hqueue, hactive]) hbytes hsettled hadmitted

theorem rejectAll_eq (cause : OwnerCause) (jobs : List OwnerJob) (s : CandidateSaskuRoundOwner P) :
    jobs.foldl (fun s job => { s with
      pendingBytes := s.pendingBytes - job.size
      settled := s.settled ++ [(job.id, .rejected cause)] }) s = { s with
        pendingBytes := s.pendingBytes - (jobs.map fun job => job.size).sum
        settled := s.settled ++ jobs.map fun job => (job.id, .rejected cause) } := by
  induction jobs generalizing s with
  | nil => simp
  | cons job rest ih =>
      rw [List.foldl_cons, ih]
      simp only [List.map_cons, List.sum_cons, List.append_assoc, List.singleton_append,
        Nat.sub_sub]

theorem rejectQueued_eq (s : CandidateSaskuRoundOwner P) (cause : OwnerCause) :
    s.rejectQueued cause = { s with
      queue := []
      pendingBytes := s.pendingBytes - (s.queue.map fun job => job.size).sum
      settled := s.settled ++ s.queue.map fun job => (job.id, .rejected cause) } :=
  rejectAll_eq cause _ _

/-- Rejecting what is queued keeps the books. -/
theorem Ledger.rejectQueued (h : Ledger o s) (cause : OwnerCause) :
    Ledger o (s.rejectQueued cause) := by
  rw [rejectQueued_eq]
  refine h.release s.queue (List.Perm.refl _) rfl ?_ rfl
  rw [List.map_append, List.map_map]
  rfl

/-- A job that is cancelled was queued once. -/
theorem Ledger.cancel (h : Ledger o s) (hjob : job ∈ s.queue) : Ledger o (s.cancel job) := by
  refine h.release [job] ?_ ?_ ?_ rfl
  · have hnodup : (s.queue.map OwnerJob.id).Nodup := by
      have hall := h.promises.nodup_iff.2 List.nodup_range
      have hheld := (List.nodup_append.1 hall).1
      rw [held, List.map_append] at hheld
      exact (List.nodup_append.1 hheld).1
    have hqueue : s.queue.Perm (job :: s.queue.filter fun queued => queued.id ≠ job.id) := by
      generalize s.queue = queue at hjob hnodup
      induction queue with
      | nil => cases hjob
      | cons queued rest ih =>
          rw [List.map_cons, List.nodup_cons] at hnodup
          rcases List.mem_cons.1 hjob with rfl | hmem
          · have hrest : (rest.filter fun queued => queued.id ≠ job.id) = rest := by
              refine List.filter_eq_self.2 fun other hother => ?_
              have hne : other.id ≠ job.id := fun heq =>
                hnodup.1 (heq ▸ List.mem_map_of_mem hother)
              simpa using hne
            rw [List.filter_cons_of_neg (by simp), hrest]
          · have hne : queued.id ≠ job.id := fun heq =>
              hnodup.1 (heq ▸ List.mem_map_of_mem hmem)
            rw [List.filter_cons_of_pos (by simpa using hne)]
            exact ((ih hmem hnodup.2).cons queued).trans (List.Perm.swap job queued _)
    exact hqueue.append_right _
  · change s.pendingBytes - job.size = _
    simp
  · change List.map Prod.fst (s.settled ++ [_]) = _
    rw [List.map_append]
    rfl

/-- Cancelling queued jobs keeps the books, and only the queue and the books change. -/
theorem cancelAll_spec (jobs : List OwnerJob) (h : Ledger o s) (hjobs : ∀ job ∈ jobs, job ∈ s.queue)
    (hnodup : (jobs.map OwnerJob.id).Nodup) :
    Ledger o (jobs.foldl cancel s) ∧ (jobs.foldl cancel s).queue ⊆ s.queue ∧
      ∃ queue pendingBytes settled, jobs.foldl cancel s = { s with
        queue := queue, pendingBytes := pendingBytes, settled := settled } := by
  induction jobs generalizing s with
  | nil => exact ⟨h, fun _ hmem => hmem, _, _, _, rfl⟩
  | cons job rest ih =>
      rw [List.map_cons, List.nodup_cons] at hnodup
      have hrest : ∀ other ∈ rest, other ∈ (s.cancel job).queue := by
        intro other hother
        have hne : other.id ≠ job.id := fun heq =>
          hnodup.1 (heq ▸ List.mem_map_of_mem hother)
        exact List.mem_filter.2 ⟨hjobs other (List.mem_cons_of_mem _ hother), by simpa using hne⟩
      obtain ⟨hledger, hsubset, queue, pendingBytes, settled, heq⟩ :=
        ih (h.cancel (hjobs job List.mem_cons_self)) hrest hnodup.2
      refine ⟨hledger, fun other hother => ?_, queue, pendingBytes, settled, heq⟩
      exact (List.mem_filter.1 (hsubset hother)).1

/-! ## The steps -/

/-- The shuffle is handed over at most once, by a job that did not find it complete. -/
structure Phase (s : CandidateSaskuRoundOwner P) : Prop where
  round : s.round = true → s.handoffs.length ≤ 1
  shuffle : s.round = false → s.handoffs = []
  handoffs : ∀ handoff ∈ s.handoffs, handoff.completeBefore = false

/-- What every step keeps. -/
structure Inv (o : OwnerOptions P) (s : CandidateSaskuRoundOwner P) : Prop where
  ledger : Ledger o s
  active : s.active.isSome = true ↔ s.point ≠ .idle
  closed : s.closed = true → s.queue = []
  failed : s.failure.isSome = true → s.active = none → s.queue = []
  unfailed : s.point = .promoting → s.failure = none
  idle : s.point = .idle → s.observed = true → s.stopped = false → ∀ job ∈ s.queue,
    s.eligible job = false
  resting : (s.point = .idle → s.stopped = false) → s.point ≠ .running → s.round = false →
    s.view.shuffleComplete = false
  before : s.point ≠ .idle → s.round = false → s.completeBefore = false
  phase : Phase s

theorem stopped_eq_false : s.stopped = false ↔ s.closed = false ∧ s.failure = none := by
  unfold stopped
  rw [Bool.or_eq_false_iff, Option.isSome_eq_false_iff, Option.isNone_iff_eq_none]

theorem create_inv (view : OwnerView P) : Inv o (create view) where
  ledger := ⟨rfl, List.Perm.refl _, Nat.zero_le _, Nat.zero_le _⟩
  active := by simp [create]
  closed _ := rfl
  failed _ _ := rfl
  unfailed := by rintro ⟨⟩
  idle _ _ _ _ hmem := by cases hmem
  resting _ _ hround := hround
  before hpoint := absurd rfl hpoint
  phase := ⟨fun _ => Nat.zero_le _, fun _ => rfl, fun _ hmem => by cases hmem⟩

/-- What holds between two jobs. -/
structure Between (o : OwnerOptions P) (s : CandidateSaskuRoundOwner P) : Prop where
  ledger : Ledger o s
  active : s.active = none
  emptied : s.stopped = true → s.queue = []
  resting : s.stopped = false → s.round = false → s.view.shuffleComplete = false
  phase : Phase s

/-- The drain ends, or it starts the first eligible job. -/
theorem Between.continueDrain (h : Between o s) : Inv o s.continueDrain := by
  have hclosed : s.closed = true → s.queue = [] := fun hclosed =>
    h.emptied (by rw [stopped, hclosed, Bool.true_or])
  have hfailed : s.failure.isSome = true → s.queue = [] := fun hfailed =>
    h.emptied (by rw [stopped, hfailed, Bool.or_true])
  have hends : (∀ job ∈ s.queue, s.stopped = false → s.eligible job = false) →
      Inv o { s with point := .idle, observed := true } := fun hqueue =>
    { ledger := h.ledger.congr rfl rfl rfl rfl rfl
      active := by simp [h.active]
      closed := hclosed
      failed := fun hsome _ => hfailed hsome
      unfailed := by rintro ⟨⟩
      idle := fun _ _ hgoing job hjob => hqueue job hjob hgoing
      resting := fun hgoing _ hround => h.resting (hgoing rfl) hround
      before := fun hpoint => absurd rfl hpoint
      phase := ⟨h.phase.round, h.phase.shuffle, h.phase.handoffs⟩ }
  unfold CandidateSaskuRoundOwner.continueDrain
  split_ifs with hstopped
  · exact hends fun job _ hgoing => by rw [hstopped] at hgoing; cases hgoing
  · have hgoing : s.stopped = false := by simpa using hstopped
    obtain ⟨hopen, hfailure⟩ := stopped_eq_false.1 hgoing
    cases hindex : s.queue.findIdx? s.eligible with
    | none => exact hends fun job hjob _ => List.findIdx?_eq_none_iff.1 hindex job hjob
    | some index =>
        obtain ⟨hlt, -, -⟩ := List.findIdx?_eq_some_iff_getElem.1 hindex
        have hget : s.queue[index]? = some s.queue[index] := List.getElem?_eq_getElem hlt
        exact
          { ledger := by
              refine h.ledger.move ?_ rfl rfl rfl
              simp only [held, h.active, hget, Option.toList_none, Option.toList_some,
                List.append_nil]
              exact (List.getElem_cons_eraseIdx_perm hlt).symm.trans
                (List.perm_append_singleton _ _).symm
            active := by simp [hget]
            closed := fun hclosed' => by rw [hopen] at hclosed'; cases hclosed'
            failed := fun hsome => by rw [hfailure] at hsome; cases hsome
            unfailed := by rintro ⟨⟩
            idle := by rintro ⟨⟩
            resting := fun _ hpoint => absurd rfl hpoint
            before := fun _ hround => h.resting hgoing hround
            phase := ⟨h.phase.round, h.phase.shuffle, h.phase.handoffs⟩ }

theorem Inv.active_none (h : Inv o s) (hidle : s.point = .idle) : s.active = none := by
  cases hactive : s.active with
  | none => rfl
  | some job => exact absurd hidle (h.active.1 (by rw [hactive]; rfl))

theorem Inv.emptied (h : Inv o s) (hactive : s.active = none) (hstopped : s.stopped = true) :
    s.queue = [] := by
  unfold stopped at hstopped
  rcases Bool.or_eq_true_iff.1 hstopped with hclosed | hfailed
  · exact h.closed hclosed
  · exact h.failed hfailed hactive

theorem Inv.between (h : Inv o s) (hidle : s.point = .idle) : Between o s where
  ledger := h.ledger
  active := h.active_none hidle
  emptied := h.emptied (h.active_none hidle)
  resting hgoing := h.resting (fun _ => hgoing) (by rw [hidle]; rintro ⟨⟩)
  phase := h.phase

/-- A job is settled, and the drain goes on. -/
theorem inv_finish (hledger : Ledger o s) (hactive : s.active = some job)
    (hemptied : s.stopped = true → s.queue = [])
    (hresting : s.stopped = false → s.round = false → s.view.shuffleComplete = false)
    (hphase : Phase s) (settlement : OwnerSettlement) : Inv o (s.finish job settlement) := by
  refine Between.continueDrain ⟨?_, rfl, hemptied, hresting, hphase.round, hphase.shuffle,
    hphase.handoffs⟩
  refine hledger.release [job] ?_ ?_ ?_ rfl
  · simp only [held, hactive, Option.toList_some, Option.toList_none, List.append_nil]
    exact List.perm_append_singleton _ _
  · simp
  · rw [List.map_append]
    rfl

/-- The capacity that was checked is there. -/
theorem capacity_eq_ok {size : ℕ} (h : s.capacity o size = .ok ()) :
    s.stopped = false ∧ s.held.length < o.maxCount ∧ s.pendingBytes + size ≤ o.maxBytes := by
  unfold capacity guard at h
  cases hfailure : s.failure with
  | some failure => simp [hfailure] at h
  | none =>
      simp only [hfailure] at h
      obtain ⟨hopen, h⟩ := check_bind_eq_ok.1 h
      have hlimit := throwIf_eq_ok.1 h
      rw [pendingEnvelopes_eq] at hlimit
      refine ⟨stopped_eq_false.2 ⟨by simpa using hopen, hfailure⟩, ?_, ?_⟩ <;> omega

/-- A job is charged, and its promise is new. -/
theorem Ledger.enqueue (h : Ledger o s) (hid : job.id = s.admitted)
    (hcount : s.held.length < o.maxCount) (hlimit : s.pendingBytes + job.size ≤ o.maxBytes) :
    Ledger o { s with
      pendingBytes := s.pendingBytes + job.size
      queue := s.queue ++ [job]
      admitted := s.admitted + 1 } := by
  have hheld : ((s.queue ++ [job]) ++ s.active.toList).Perm (job :: s.held) := by
    rw [List.append_assoc, List.singleton_append]
    exact List.perm_middle
  refine ⟨?_, ?_, ?_, hlimit⟩
  · refine Eq.trans ?_ (hheld.map fun job => job.size).sum_eq.symm
    rw [List.map_cons, List.sum_cons, ← h.bytes, add_comm]
  · refine ((hheld.map OwnerJob.id).append_right _).trans ?_
    rw [List.map_cons, List.cons_append, List.range_succ, hid]
    exact (h.promises.cons s.admitted).trans (List.perm_append_singleton _ _).symm
  · refine hheld.length_eq.trans_le ?_
    rw [List.length_cons]
    omega

theorem Inv.enqueue (h : Inv o s) (prepared : PreparedJob) (signal : Option ℕ) :
    Inv o (s.enqueue o prepared signal).2 := by
  unfold CandidateSaskuRoundOwner.enqueue
  cases hcapacity : s.capacity o prepared.size with
  | error cause => exact h
  | ok =>
      obtain ⟨hgoing, hcount, hlimit⟩ := capacity_eq_ok hcapacity
      obtain ⟨hopen, hfailure⟩ := stopped_eq_false.1 hgoing
      simp only
      split_ifs with haborted
      · exact h
      · have hid : (OwnerJob.mk prepared s.admitted signal).id = s.admitted := rfl
        have hledger := h.ledger.enqueue hid hcount hlimit
        unfold CandidateSaskuRoundOwner.start
        split_ifs with hbusy
        · -- the drain is at work, and finds the job later
          have hpoint : s.point ≠ .idle := hbusy.resolve_right fun hstopped => by
            rw [show s.stopped = true from hstopped] at hgoing
            cases hgoing
          exact
            { ledger := hledger
              active := h.active
              closed := fun hclosed => by
                rw [show s.closed = true from hclosed] at hopen
                cases hopen
              failed := fun hfailed => by
                rw [show s.failure = none from hfailure] at hfailed
                cases hfailed
              unfailed := h.unfailed
              idle := fun hidle => absurd hidle hpoint
              resting := h.resting
              before := h.before
              phase := ⟨h.phase.round, h.phase.shuffle, h.phase.handoffs⟩ }
        · have hidle : s.point = .idle := by
            by_contra hpoint
            exact hbusy (.inl hpoint)
          have hbetween := h.between hidle
          refine Between.continueDrain ⟨hledger, hbetween.active, fun hstopped => ?_,
            hbetween.resting, hbetween.phase.round, hbetween.phase.shuffle, hbetween.phase.handoffs⟩
          rw [show s.stopped = true from hstopped] at hgoing
          cases hgoing

theorem Inv.request (h : Inv o s) (request : OwnerRequest) : Inv o (s.request o request).2 := by
  unfold CandidateSaskuRoundOwner.request
  cases checkRequest o s request with
  | error cause => exact h
  | ok prepared => exact h.enqueue prepared.1 prepared.2

theorem Inv.close (h : Inv o s) : Inv o s.close := by
  have hledger : Ledger o { s with closed := true } := h.ledger.congr rfl rfl rfl rfl rfl
  have hrejected := hledger.rejectQueued (.message "Round owner is closed")
  unfold CandidateSaskuRoundOwner.close
  rw [rejectQueued_eq] at hrejected ⊢
  exact
    { ledger := hrejected
      active := h.active
      closed := fun _ => rfl
      failed := fun _ _ => rfl
      unfailed := h.unfailed
      idle := fun _ _ _ _ hjob => by cases hjob
      resting := fun hgoing hpoint hround => by
        refine h.resting (fun hidle => ?_) hpoint hround
        have hstopped := hgoing hidle
        rw [stopped_eq_false] at hstopped
        cases hstopped.1
      before := h.before
      phase := ⟨h.phase.round, h.phase.shuffle, h.phase.handoffs⟩ }

/-- An abort takes jobs out of the queue. -/
theorem Inv.abort_spec (h : Inv o s) (signal : ℕ) :
    Ledger o (s.abort signal) ∧ (s.abort signal).queue ⊆ s.queue ∧
      ∃ queue pendingBytes settled, s.abort signal = { s with
        aborted := signal :: s.aborted
        queue := queue, pendingBytes := pendingBytes, settled := settled } := by
  have hledger : Ledger o { s with aborted := signal :: s.aborted } :=
    h.ledger.congr rfl rfl rfl rfl rfl
  have hnodup : ((s.queue.filter fun job => job.signal = some signal).map OwnerJob.id).Nodup := by
    have hall := (List.nodup_append.1 (h.ledger.promises.nodup_iff.2 List.nodup_range)).1
    rw [held, List.map_append] at hall
    exact (List.nodup_append.1 hall).1.sublist (List.filter_sublist.map _)
  exact cancelAll_spec (s.queue.filter fun job => job.signal = some signal) hledger
    (fun job hjob => (List.mem_filter.1 hjob).1) hnodup

theorem Inv.abort (h : Inv o s) (signal : ℕ) : Inv o (s.abort signal) := by
  obtain ⟨hcancelled, hsubset, queue, pendingBytes, settled, heq⟩ := h.abort_spec signal
  rw [heq] at hcancelled hsubset ⊢
  have hnil : s.queue = [] → queue = [] := fun hqueue =>
    List.subset_nil.1 (hqueue ▸ hsubset)
  exact
    { ledger := hcancelled
      active := h.active
      closed := fun hclosed => hnil (h.closed hclosed)
      failed := fun hfailed hactive => hnil (h.failed hfailed hactive)
      unfailed := h.unfailed
      idle := fun hidle hobserved hgoing job hjob =>
        h.idle hidle hobserved hgoing job (hsubset hjob)
      resting := h.resting
      before := h.before
      phase := ⟨h.phase.round, h.phase.shuffle, h.phase.handoffs⟩ }

theorem Inv.outside (h : Inv o s) {view : OwnerView P} (hchange : s.CanChange view) :
    Inv o { s with view := view, observed := false } where
  ledger := h.ledger.congr rfl rfl rfl rfl rfl
  active := h.active
  closed := h.closed
  failed := h.failed
  unfailed := h.unfailed
  idle := fun _ hobserved => by cases hobserved
  resting := fun hgoing hpoint hround =>
    (hchange.resolve_left hpoint).trans (h.resting hgoing hpoint hround)
  before := h.before
  phase := ⟨h.phase.round, h.phase.shuffle, h.phase.handoffs⟩

/-- A job that is running may set the failure. -/
theorem Inv.setFailure (h : Inv o s) (hrunning : s.point = .running) (error : String) :
    Inv o { s with failure := some error } where
  ledger := h.ledger.congr rfl rfl rfl rfl rfl
  active := h.active
  closed := h.closed
  failed := fun _ hnone => by
    have hactive := h.active.2 (by rw [hrunning]; rintro ⟨⟩)
    rw [show s.active = none from hnone] at hactive
    cases hactive
  unfailed := fun hpromoting => by
    rw [show s.point = .promoting from hpromoting] at hrunning
    cases hrunning
  idle := fun hidle => by
    rw [show s.point = .idle from hidle] at hrunning
    cases hrunning
  resting := fun _ hpoint => absurd hrunning hpoint
  before := h.before
  phase := ⟨h.phase.round, h.phase.shuffle, h.phase.handoffs⟩

/-- The handoff leaves the books alone; a job makes it that found the shuffle incomplete. -/
theorem promote_spec (h : Inv o s) (hrunning : s.point = .running) (handoff : Option String) :
    ((s.promote handoff).1 = true ∧ (s.promote handoff).2.failure = s.failure ∧
        ((s.promote handoff).2.closed = false → (s.promote handoff).2.round = false →
          s.view.shuffleComplete = false) ∨
      (s.promote handoff).1 = false ∧ (s.promote handoff).2.failure.isSome = true) ∧
    Inv o (s.promote handoff).2 ∧ (s.promote handoff).2.point = .running ∧
    (s.promote handoff).2.active = s.active ∧ (s.promote handoff).2.view = s.view ∧
    (s.promote handoff).2.closed = s.closed ∧ (s.promote handoff).2.queue = s.queue := by
  have hactive := h.active.2 (by rw [hrunning]; rintro ⟨⟩)
  unfold CandidateSaskuRoundOwner.promote
  split_ifs with hstays
  · refine ⟨.inl ⟨rfl, rfl, fun hclosed hround => ?_⟩, h, hrunning, rfl, rfl, rfl, rfl⟩
    rcases hstays with hclosed' | hround' | hcomplete
    · rw [hclosed'] at hclosed
      cases hclosed
    · rw [hround'] at hround
      cases hround
    · exact hcomplete
  · rw [not_or, not_or] at hstays
    obtain ⟨hclosed, hround, hcomplete⟩ := hstays
    have hshuffle : s.round = false := by simpa using hround
    obtain ⟨job, hjob⟩ := Option.isSome_iff_exists.1 hactive
    cases handoff with
    | none =>
        refine ⟨.inl ⟨rfl, rfl, fun _ hround => by cases hround⟩, ?_, hrunning, rfl, rfl, rfl, rfl⟩
        have hbefore := h.before (by rw [hrunning]; rintro ⟨⟩) hshuffle
        exact
          { ledger := h.ledger.congr rfl rfl rfl rfl rfl
            active := h.active
            closed := h.closed
            failed := h.failed
            unfailed := h.unfailed
            idle := fun hidle => by rw [show s.point = .idle from hidle] at hrunning; cases hrunning
            resting := fun _ _ hround => by cases hround
            before := fun _ hround => by cases hround
            phase := by
              refine ⟨fun _ => ?_, fun hround => (by cases hround), fun handoff hmem => ?_⟩
              · simp [h.phase.shuffle hshuffle, hjob]
              · simp only [h.phase.shuffle hshuffle, hjob, List.nil_append, Option.toList_some,
                  List.map_cons, List.map_nil, List.mem_singleton] at hmem
                rw [hmem]
                exact hbefore }
    | some error =>
        exact ⟨.inr ⟨rfl, rfl⟩, h.setFailure hrunning error, hrunning, rfl, rfl, rfl, rfl⟩

/-- A job that throws is rejected after what is queued, when the error reveals a failure. -/
theorem Inv.throws (h : Inv o s) (hrunning : s.point = .running) (hactive : s.active = some job)
    (hresting : s.fatal = none → s.round = false → s.view.shuffleComplete = false)
    (cause : OwnerCause) : Inv o (s.throws job cause) := by
  unfold CandidateSaskuRoundOwner.throws
  cases hfatal : s.fatal with
  | none =>
      have hfailure : s.failure = none := (Option.or_eq_none_iff.1 hfatal).1
      refine inv_finish h.ledger hactive (fun hstopped => ?_) (fun _ => hresting hfatal) h.phase _
      rw [stopped, hfailure, Option.isSome_none, Bool.or_false] at hstopped
      exact h.closed hstopped
  | some failure =>
      have hledger : Ledger o { s with failure := some failure } :=
        h.ledger.congr rfl rfl rfl rfl rfl
      have hrejected := hledger.rejectQueued (.failure failure)
      simp only
      rw [rejectQueued_eq] at hrejected ⊢
      refine inv_finish hrejected hactive (fun _ => rfl) (fun hgoing => ?_)
        ⟨h.phase.round, h.phase.shuffle, h.phase.handoffs⟩ _
      cases (stopped_eq_false.1 hgoing).2

/-- The end of `job.run`. -/
theorem Inv.ran (h : Inv o s) (hrunning : s.point = .running) (hactive : s.active = some job)
    {outcome : RunOutcome} (hends : s.CanEnd outcome) : Inv o (s.ran job outcome) := by
  cases outcome with
  | rejected cause => exact h.throws hrunning hactive hends (.run cause)
  | resolved handoff =>
      have hfailure : s.failure = none := hends
      unfold CandidateSaskuRoundOwner.ran
      simp only
      split_ifs with hclosed
      · refine inv_finish h.ledger hactive (fun _ => h.closed hclosed) (fun hgoing => ?_) h.phase _
        have hopen := (stopped_eq_false.1 hgoing).1
        rw [hclosed] at hopen
        cases hopen
      · obtain ⟨hresult, hinv, hpoint, hsame, hview, hclosed', -⟩ := promote_spec h hrunning handoff
        generalize s.promote handoff = result at *
        obtain ⟨done, s'⟩ := result
        rcases hresult with ⟨rfl, hfailure', hcomplete⟩ | ⟨rfl, hfailed⟩
        · have hopen : s'.closed = false := by rw [hclosed']; simpa using hclosed
          exact
            { ledger := hinv.ledger.congr rfl rfl rfl rfl rfl
              active := by simp [show s'.active = s.active from hsame, hactive]
              closed := hinv.closed
              failed := hinv.failed
              unfailed := fun _ => hfailure'.trans hfailure
              idle := by rintro ⟨⟩
              resting := fun _ _ hround => by
                change s'.view.shuffleComplete = false
                rw [show s'.view = s.view from hview]
                exact hcomplete hopen hround
              before := fun _ => hinv.before (by
                rw [show s'.point = .running from hpoint]
                rintro ⟨⟩)
              phase := ⟨hinv.phase.round, hinv.phase.shuffle, hinv.phase.handoffs⟩ }
        · refine hinv.throws hpoint (hsame.trans hactive) (fun hfatal => ?_) _
          have hnone : s'.failure = none := (Option.or_eq_none_iff.1 hfatal).1
          rw [show s'.failure.isSome = true ↔ False by simp [hnone]] at hfailed
          exact hfailed.elim

/-- The active job is resolved after the handoff. -/
theorem Inv.resolve (h : Inv o s) (hpromoting : s.point = .promoting)
    (hactive : s.active = some job) : Inv o (s.finish job .resolved) := by
  have hfailure := h.unfailed hpromoting
  refine inv_finish h.ledger hactive (fun hstopped => ?_)
    (fun _ => h.resting (by rw [hpromoting]; rintro ⟨⟩) (by rw [hpromoting]; rintro ⟨⟩)) h.phase _
  rw [stopped, hfailure, Option.isSome_none, Bool.or_false] at hstopped
  exact h.closed hstopped

/-- Every step keeps the invariant. -/
theorem Inv.step (h : Inv o s) {input : OwnerInput P} {s' : CandidateSaskuRoundOwner P}
    (hstep : s.step o input = some s') : Inv o s' := by
  cases input with
  | request request =>
      cases hstep
      exact h.request request
  | abort signal =>
      cases hstep
      exact h.abort signal
  | close =>
      cases hstep
      exact h.close
  | outside view =>
      simp only [CandidateSaskuRoundOwner.step, Option.ite_none_right_eq_some,
        Option.some.injEq] at hstep
      obtain ⟨hchange, rfl⟩ := hstep
      exact h.outside hchange
  | promoted handoff =>
      simp only [CandidateSaskuRoundOwner.step, Option.ite_none_right_eq_some,
        Option.some.injEq] at hstep
      obtain ⟨hrunning, rfl⟩ := hstep
      exact (promote_spec h hrunning handoff).2.1
  | failed error =>
      simp only [CandidateSaskuRoundOwner.step, Option.ite_none_right_eq_some,
        Option.some.injEq] at hstep
      obtain ⟨hrunning, rfl⟩ := hstep
      exact h.setFailure hrunning error
  | ran outcome =>
      unfold CandidateSaskuRoundOwner.step at hstep
      simp only at hstep
      split at hstep
      · next job hrunning hactive =>
          simp only [Option.ite_none_right_eq_some, Option.some.injEq] at hstep
          obtain ⟨hends, rfl⟩ := hstep
          exact h.ran hrunning hactive hends
      · cases hstep
  | resolve =>
      unfold CandidateSaskuRoundOwner.step at hstep
      simp only at hstep
      split at hstep
      · next job hpromoting hactive =>
          cases hstep
          exact h.resolve hpromoting hactive
      · cases hstep

/-! ## What a step does -/

/-- What a step does to the active job and to the phase. -/
structure Effect (s s' : CandidateSaskuRoundOwner P) : Prop where
  /-- A job is active until it is settled. -/
  active : ∀ job, s.active = some job → s'.active = some job ∨ job.id ∈ s'.settled.map Prod.fst
  /-- A job that is started finds the shuffle as it is. -/
  started : s'.active = s.active ∨ s'.active = none ∨
    s'.completeBefore = s'.view.shuffleComplete
  round : s.round = true → s'.round = true
  /-- The phase changes in a job that found the shuffle incomplete and has completed it. -/
  handoff : s.round = false → s'.round = true → ∃ job, s.active = some job ∧
    s'.active = some job ∧ s.completeBefore = false ∧ s.view.shuffleComplete = true ∧
    s'.handoffs = [⟨job.id, false⟩]
  /-- A drain that ends has looked at everything that is queued. -/
  idle : s'.point = .idle → s.point ≠ .idle ∨ s'.admitted ≠ s.admitted → s'.observed = true

/-- A step that leaves the active job alone. -/
theorem Effect.of_same {s' : CandidateSaskuRoundOwner P} (hactive : s'.active = s.active)
    (hround : s'.round = s.round) (hpoint : s'.point = s.point)
    (hadmitted : s.point = .idle → s'.admitted = s.admitted) : Effect s s' where
  active := fun job hjob => .inl (hactive.trans hjob)
  started := .inl hactive
  round := hround.trans
  handoff := fun hshuffle hround' => by
    rw [hround, hshuffle] at hround'
    cases hround'
  idle := fun hidle hchange => by
    rw [hpoint] at hidle
    rcases hchange with hbusy | hnew
    · exact absurd hidle hbusy
    · exact absurd (hadmitted hidle) hnew

/-- The drain goes on from a state without an active job. -/
theorem Effect.continueDrain {next : CandidateSaskuRoundOwner P} (hround : next.round = s.round)
    (hnone : next.active = none)
    (hsettled : ∀ job, s.active = some job → job.id ∈ next.settled.map Prod.fst) :
    Effect s next.continueDrain := by
  have hspec : next.continueDrain.settled = next.settled ∧
      next.continueDrain.round = next.round ∧
      (next.continueDrain.active = none ∧ next.continueDrain.observed = true ∨
        next.continueDrain.point = .running ∧
        next.continueDrain.completeBefore = next.continueDrain.view.shuffleComplete) := by
    unfold CandidateSaskuRoundOwner.continueDrain
    split_ifs
    · exact ⟨rfl, rfl, .inl ⟨hnone, rfl⟩⟩
    · split
      · exact ⟨rfl, rfl, .inl ⟨hnone, rfl⟩⟩
      · exact ⟨rfl, rfl, .inr ⟨rfl, rfl⟩⟩
  obtain ⟨hsame, hphase, hends⟩ := hspec
  refine ⟨fun job hjob => .inr ?_, ?_, fun h => ?_, fun hshuffle h => ?_, fun hidle _ => ?_⟩
  · rw [hsame]
    exact hsettled job hjob
  · rcases hends with ⟨hnone', -⟩ | ⟨-, hfound⟩
    · exact .inr (.inl hnone')
    · exact .inr (.inr hfound)
  · rw [hphase, hround, h]
  · rw [hphase, hround, hshuffle] at h
    cases h
  · rcases hends with ⟨-, hobserved⟩ | ⟨hrunning, -⟩
    · exact hobserved
    · rw [hrunning] at hidle
      cases hidle

theorem Effect.finish {next : CandidateSaskuRoundOwner P} (hround : next.round = s.round)
    (hactive : s.active = some job) (settlement : OwnerSettlement) :
    Effect s (next.finish job settlement) := by
  refine Effect.continueDrain hround rfl fun other hother => ?_
  rw [hactive] at hother
  cases hother
  simp

theorem Effect.throws {next : CandidateSaskuRoundOwner P} (hround : next.round = s.round)
    (hactive : s.active = some job) (cause : OwnerCause) : Effect s (next.throws job cause) := by
  unfold CandidateSaskuRoundOwner.throws
  cases next.fatal with
  | none => exact Effect.finish hround hactive _
  | some failure =>
      have hrejected : ({ next with failure := some failure }.rejectQueued
          (.failure failure)).round = s.round := by
        rw [rejectQueued_eq]
        exact hround
      exact Effect.finish hrejected hactive _

/-- The handoff does nothing, or it is made, or it fails. -/
theorem promote_cases (s : CandidateSaskuRoundOwner P) (handoff : Option String) :
    s.promote handoff = (true, s) ∨
    (s.round = false ∧ s.view.shuffleComplete = true ∧ s.promote handoff = (true, { s with
      round := true
      handoffs := s.handoffs ++ s.active.toList.map fun job => ⟨job.id, s.completeBefore⟩ })) ∨
    ∃ error, s.promote handoff = (false, { s with failure := some error }) := by
  unfold CandidateSaskuRoundOwner.promote
  split_ifs with hstays
  · exact .inl rfl
  · rw [not_or, not_or] at hstays
    obtain ⟨-, hround, hcomplete⟩ := hstays
    cases handoff with
    | none => exact .inr (.inl ⟨by simpa using hround, by simpa using hcomplete, rfl⟩)
    | some error => exact .inr (.inr ⟨error, rfl⟩)

/-- The handoff in a job that is running. -/
theorem Inv.effect_handoff (h : Inv o s) (hrunning : s.point = .running)
    (hround : s.round = false) (hcomplete : s.view.shuffleComplete = true) (point : OwnerPoint)
    (hpoint : point ≠ .idle) :
    Effect s { s with
      point := point
      round := true
      handoffs := s.handoffs ++ s.active.toList.map fun job => ⟨job.id, s.completeBefore⟩ } := by
  have hbusy : s.point ≠ .idle := by
    rw [hrunning]
    rintro ⟨⟩
  obtain ⟨job, hjob⟩ := Option.isSome_iff_exists.1 (h.active.2 hbusy)
  have hbefore := h.before hbusy hround
  refine ⟨fun _ hactive => .inl hactive, .inl rfl, fun _ => rfl, fun _ _ => ?_,
    fun hidle => absurd hidle hpoint⟩
  refine ⟨job, hjob, hjob, hbefore, hcomplete, ?_⟩
  simp [h.phase.shuffle hround, hjob, hbefore]

theorem enqueue_effect (prepared : PreparedJob) (signal : Option ℕ) (h : Inv o s) :
    Effect s (s.enqueue o prepared signal).2 := by
  unfold CandidateSaskuRoundOwner.enqueue
  split
  · exact Effect.of_same rfl rfl rfl fun _ => rfl
  · next hcapacity =>
      obtain ⟨hgoing, -, -⟩ := capacity_eq_ok hcapacity
      simp only
      split_ifs
      · exact Effect.of_same rfl rfl rfl fun _ => rfl
      · unfold CandidateSaskuRoundOwner.start
        split_ifs with hbusy
        · refine Effect.of_same rfl rfl rfl fun hidle => ?_
          rcases hbusy with hbusy | hstopped
          · exact absurd hidle hbusy
          · rw [show s.stopped = true from hstopped] at hgoing
            cases hgoing
        · have hidle : s.point = .idle := by
            by_contra hpoint
            exact hbusy (.inl hpoint)
          refine Effect.continueDrain rfl (h.active_none hidle) fun job hjob => ?_
          rw [h.active_none hidle] at hjob
          cases hjob

theorem start_admitted (s : CandidateSaskuRoundOwner P) : s.start.admitted = s.admitted := by
  unfold CandidateSaskuRoundOwner.start CandidateSaskuRoundOwner.continueDrain
  split_ifs
  · rfl
  · rfl
  · split
    · rfl
    · rfl

/-- A call that is answered hands out the next promise. -/
theorem request_ok {request : OwnerRequest} {id : ℕ} {s' : CandidateSaskuRoundOwner P}
    (h : s.request o request = (.ok id, s')) : id = s.admitted ∧ s'.admitted = s.admitted + 1 := by
  unfold CandidateSaskuRoundOwner.request CandidateSaskuRoundOwner.enqueue at h
  split at h
  · cases h
  · split at h
    · cases h
    · simp only at h
      split_ifs at h
      · cases h
      · cases h
        exact ⟨rfl, start_admitted _⟩

/-- A call that is refused changes nothing. -/
theorem request_error {request : OwnerRequest} {cause : OwnerCause}
    {s' : CandidateSaskuRoundOwner P} (h : s.request o request = (.error cause, s')) : s' = s := by
  unfold CandidateSaskuRoundOwner.request CandidateSaskuRoundOwner.enqueue at h
  split at h
  · cases h
    rfl
  · split at h
    · cases h
      rfl
    · simp only at h
      split_ifs at h
      · cases h
        rfl
      · cases h

/-- Every step has such an effect. -/
theorem Inv.effect (h : Inv o s) {input : OwnerInput P} {s' : CandidateSaskuRoundOwner P}
    (hstep : s.step o input = some s') : Effect s s' := by
  cases input with
  | request request =>
      cases hstep
      unfold CandidateSaskuRoundOwner.request
      split
      · exact Effect.of_same rfl rfl rfl fun _ => rfl
      · exact enqueue_effect _ _ h
  | abort signal =>
      cases hstep
      obtain ⟨-, -, queue, pendingBytes, settled, heq⟩ := h.abort_spec signal
      rw [heq]
      exact Effect.of_same rfl rfl rfl fun _ => rfl
  | close =>
      cases hstep
      rw [CandidateSaskuRoundOwner.close, rejectQueued_eq]
      exact Effect.of_same rfl rfl rfl fun _ => rfl
  | outside view =>
      simp only [CandidateSaskuRoundOwner.step, Option.ite_none_right_eq_some,
        Option.some.injEq] at hstep
      obtain ⟨-, rfl⟩ := hstep
      exact Effect.of_same rfl rfl rfl fun _ => rfl
  | promoted handoff =>
      simp only [CandidateSaskuRoundOwner.step, Option.ite_none_right_eq_some,
        Option.some.injEq] at hstep
      obtain ⟨hrunning, rfl⟩ := hstep
      rcases promote_cases s handoff with hsame | ⟨hround, hcomplete, hmade⟩ | ⟨error, hfailed⟩
      · rw [hsame]
        exact Effect.of_same rfl rfl rfl fun _ => rfl
      · rw [hmade]
        exact h.effect_handoff hrunning hround hcomplete s.point (by rw [hrunning]; rintro ⟨⟩)
      · rw [hfailed]
        exact Effect.of_same rfl rfl rfl fun _ => rfl
  | failed error =>
      simp only [CandidateSaskuRoundOwner.step, Option.ite_none_right_eq_some,
        Option.some.injEq] at hstep
      obtain ⟨-, rfl⟩ := hstep
      exact Effect.of_same rfl rfl rfl fun _ => rfl
  | ran outcome =>
      unfold CandidateSaskuRoundOwner.step at hstep
      simp only at hstep
      split at hstep
      · next job hrunning hactive =>
          simp only [Option.ite_none_right_eq_some, Option.some.injEq] at hstep
          obtain ⟨-, rfl⟩ := hstep
          cases outcome with
          | rejected cause => exact Effect.throws rfl hactive _
          | resolved handoff =>
              unfold CandidateSaskuRoundOwner.ran
              simp only
              split_ifs
              · exact Effect.finish rfl hactive _
              · rcases promote_cases s handoff with hsame | ⟨hround, hcomplete, hmade⟩ |
                  ⟨error, hfailed⟩
                · rw [hsame]
                  refine ⟨fun _ hactive => .inl hactive, .inl rfl, fun hround => hround,
                    fun hshuffle hround => ?_, fun hidle => by cases hidle⟩
                  rw [show s.round = true from hround] at hshuffle
                  cases hshuffle
                · rw [hmade]
                  exact h.effect_handoff hrunning hround hcomplete .promoting (by rintro ⟨⟩)
                · have hround : ({ s with failure := some error } :
                      CandidateSaskuRoundOwner P).round = s.round := rfl
                  rw [hfailed]
                  exact Effect.throws hround hactive _
      · cases hstep
  | resolve =>
      unfold CandidateSaskuRoundOwner.step at hstep
      simp only at hstep
      split at hstep
      · next job _ hactive =>
          cases hstep
          exact Effect.finish rfl hactive _
      · cases hstep

/-! ## The promises of the owner -/

/-- What the owner promises in a state. -/
structure Exact (o : OwnerOptions P) (s : CandidateSaskuRoundOwner P) : Prop where
  /-- The counters are those of the queued and active jobs, and within the limits. -/
  bytes : s.pendingBytes = ((s.queue ++ s.active.toList).map fun job => job.size).sum
  envelopes : s.pendingEnvelopes = (s.queue ++ s.active.toList).length
  limits : s.pendingEnvelopes ≤ o.maxCount ∧ s.pendingBytes ≤ o.maxBytes
  /-- No promise is settled twice, and those that are not are queued or active. -/
  once : (s.settled.map Prod.fst).Nodup
  promises : ∀ id, id < s.admitted ↔
    id ∈ s.settled.map Prod.fst ∨ id ∈ (s.queue ++ s.active.toList).map OwnerJob.id
  /-- A call that is answered has handed out the next promise, and no other has an effect. -/
  answered : ∀ request id s', s.request o request = (.ok id, s') →
    id = s.admitted ∧ s'.admitted = s.admitted + 1
  refused : ∀ request cause s', s.request o request = (.error cause, s') → s' = s
  /-- After a close or a failure only the active job is not settled. -/
  stopped : s.stopped = true → s.active = none → ∀ id, id < s.admitted →
    id ∈ s.settled.map Prod.fst
  /-- A drain that ends leaves no eligible job, and none becomes eligible until the receivers or
  the session change. -/
  idle : ∀ input s', s.step o input = some s' → s'.point = .idle →
    s.point ≠ .idle ∨ s'.admitted ≠ s.admitted → s'.stopped = false →
    ∀ job ∈ s'.queue, s'.eligible job = false
  observed : s.point = .idle → s.observed = true → s.stopped = false →
    ∀ job ∈ s.queue, s.eligible job = false
  /-- A job that is active stays so until it is settled. -/
  active : ∀ input s', s.step o input = some s' →
    ∀ job, s.active = some job → s'.active = some job ∨ job.id ∈ s'.settled.map Prod.fst
  /-- The phase does not change back, and it changes in a job that found the shuffle incomplete
  and has completed it. -/
  phase : ∀ input s', s.step o input = some s' → (s.round = true → s'.round = true) ∧
    (s'.active = s.active ∨ s'.active = none ∨ s'.completeBefore = s'.view.shuffleComplete) ∧
    (s.round = false → s'.round = true → ∃ job, s.active = some job ∧ s'.active = some job ∧
      s.completeBefore = false ∧ s.view.shuffleComplete = true ∧ s'.handoffs = [⟨job.id, false⟩])
  handoffs : s.handoffs.length ≤ 1 ∧ (s.handoffs ≠ [] → s.round = true)

theorem Inv.exact (h : Inv o s) : Exact o s := by
  have hperm := h.ledger.promises
  have hnodup := hperm.nodup_iff.2 List.nodup_range
  have hmem : ∀ id, id < s.admitted ↔
      id ∈ s.settled.map Prod.fst ∨ id ∈ s.held.map OwnerJob.id := by
    intro id
    rw [← List.mem_range, ← hperm.mem_iff, List.mem_append, or_comm]
  refine
    { bytes := h.ledger.bytes
      envelopes := s.pendingEnvelopes_eq
      limits := ⟨s.pendingEnvelopes_eq.trans_le h.ledger.count, h.ledger.limit⟩
      once := (List.nodup_append.1 hnodup).2.1
      promises := hmem
      answered := fun _ _ _ => request_ok
      refused := fun _ _ _ => request_error
      stopped := fun hstopped hnone id hid => ?_
      idle := fun input s' hstep hidle hchange hgoing => ?_
      observed := h.idle
      active := fun input s' hstep => (h.effect hstep).active
      phase := fun input s' hstep =>
        ⟨(h.effect hstep).round, (h.effect hstep).started, (h.effect hstep).handoff⟩
      handoffs := ?_ }
  · have hnil : s.held = [] := by
      rw [held, h.emptied hnone hstopped, hnone]
      rfl
    have hsettled := (hmem id).1 hid
    rw [hnil] at hsettled
    exact hsettled.resolve_right (by simp)
  · exact (h.step hstep).idle hidle ((h.effect hstep).idle hidle hchange) hgoing
  · cases hround : s.round with
    | true => exact ⟨h.phase.round hround, fun _ => rfl⟩
    | false =>
        rw [h.phase.shuffle hround]
        exact ⟨Nat.zero_le _, fun hne => absurd rfl hne⟩

/-- In every state of every run the owner keeps its promises. -/
def RunsExactly (o : OwnerOptions P) : Prop :=
  ∀ (view : OwnerView P) (inputs : List (OwnerInput P)) (s : CandidateSaskuRoundOwner P),
    Replay.run (step o) (create view) inputs = some s → Exact o s

/-- **The job queue of the round owner is exact.** -/
theorem round_owner_exact (o : OwnerOptions P) : RunsExactly o := by
  intro view inputs s hrun
  have h : Inv o s := Replay.run_invariant (step o) (fun h hstep => h.step hstep)
    (create_inv view) hrun
  exact h.exact

end CandidateSaskuRoundOwner

end

end Tablefolk
