import Tablefolk.Session.SyncApply

/-!
# Receiving a range

The model of `session/persistent-sync-receiver.ts`.  A receipt runs alone, one after the other, and
what it reads while it waits, the registry, the abort signal and the answers of the two receivers, is
arbitrary: `SyncAnswers` has it all.

* `historyLoop_spec`, `receiveJob_spec`: which calls one receipt makes, and what it reports.
* `run_settled`: the calls of a receiver are those of its receipts, one receipt after the other.
* `sync_batch_all_or_nothing`: what is true of applying a range in memory and of receiving one.
-/

namespace Tablefolk

/-- The status of a receipt. -/
inductive SyncReceiptStatus where
  | accepted | duplicate | failed
  deriving DecidableEq, Repr

/-- What the receiver of histories returns; a status outside of its type is `malformed`. -/
inductive SyncHistoryAnswer where
  | settled (status : SyncReceiptStatus)
  | rejected (reason : String)
  | malformed
  deriving DecidableEq, Repr

/-- What the receiver of controls returns. -/
inductive SyncControlAnswer where
  | committed (status : SyncReceiptStatus) (received : SignedEnvelope)
  | rejected (reason : String)

inductive SyncStage where
  | outer | preflight | history
  deriving DecidableEq, Repr

/-- How a receipt ends. -/
inductive SyncOutcome where
  | range_received
  | cancelled
  | stopped (stage : SyncStage) (index : Option ℕ) (reason : String)
  | failed (stage : SyncStage) (index : Option ℕ) (error : String)
  deriving DecidableEq, Repr

/-- `PersistentSyncReceiveResult`. -/
structure PersistentSyncReceiveResult where
  outerStatus : Option SyncReceiptStatus
  receipts : List SyncReceiptStatus
  outcome : SyncOutcome
  deriving DecidableEq, Repr

/-- A call of one of the two receivers. -/
inductive SyncCall where
  | control (outer : SignedEnvelope)
  | history (artifact : SignedEnvelope)
  deriving DecidableEq

/-- The limits of a receiver. -/
structure SyncReceiverLimits where
  maxEnvelopes : ℕ
  maxResponseBytes : ℕ
  maxPendingResponses : ℕ
  maxPendingBytes : ℕ

/-- `reason` of a rejection. -/
def ChainIngestResult.rejection : ChainIngestResult → Option String
  | .accepted _ | .duplicate _ => none
  | .wrong_sender .. => some "wrong_sender"
  | .gap .. => some "gap"
  | .broken_prev .. => some "broken_prev"
  | .equivocation _ => some "equivocation"

/-- `reason` of a rejection. -/
def SessionIngestResult.rejection : SessionIngestResult → Option String
  | .chain result => result.rejection
  | .wrong_game .. => some "wrong_game"
  | .unknown_sender _ => some "unknown_sender"

/-- `preflight.index`, where there is one. -/
def SyncResponseRejection.index : SyncResponseRejection → Option ℕ
  | .wrong_game index | .wrong_sender index | .wrong_sequence index | .broken_prev index => some index
  | .unknown_sender | .wrong_count .. | .limit_exceeded => none

section

variable {q : ℕ} {G : Type} [AddCommGroup G] [Module (ZMod q) G] {P : Primitives q G}
  (ed : Ed25519)

/-- The envelopes of a body, from index `index` on. -/
def decodeEnvelopes (index : ℕ) : List CborValue → Except ProtocolSchemaError (List SignedEnvelope)
  | [] => return []
  | candidate :: rest => do
      let artifact ← ((encodeEnvelope candidate >>= decodeAndVerifyEnvelope ed).mapError fun _ =>
        ⟨indexed "SYNC_RESP.body.envelopes" index, "must be a canonical signed envelope"⟩)
      let artifacts ← decodeEnvelopes (index + 1) rest
      return artifact :: artifacts

/-- `decodeSyncResponseBody`. -/
def decodeSyncResponseBody (value : CborValue) : Except ProtocolSchemaError SyncResponseBody := do
  let body ← expectExactMap value ["envelopes"] "SYNC_RESP.body"
  let encoded ← expectArray (field body "envelopes") "SYNC_RESP.body.envelopes"
  throwIf (encoded = []) ⟨"SYNC_RESP.body.envelopes", "must be a non-empty array"⟩
  return ⟨← decodeEnvelopes ed 0 encoded⟩

variable (P) in
/-- What a receipt reads. -/
structure SyncAnswers where
  /-- the registry before the control is handed on -/
  registry : SessionChainRegistry P
  abortedAtStart : Bool
  abortedAfterPreflight : Bool
  /-- the answer of `#controls.receive`, or its exception -/
  control : Except String SyncControlAnswer
  registryAfterControl : SessionChainRegistry P
  /-- the signal before the artifact at a position, and at the end of the range -/
  aborted : ℕ → Bool
  registryBefore : ℕ → SessionChainRegistry P
  /-- the answer of `#history.receive` at a position with what it received, or its exception -/
  receipt : ℕ → Except String (SyncHistoryAnswer × SignedEnvelope)
  registryAfter : ℕ → SessionChainRegistry P

variable {ed}

variable (ed) in
/-- `#requireCommitted` does not throw. -/
def committed (registry : SessionChainRegistry P) (expected returned : SignedEnvelope) : Bool :=
  match verifyArtifact ed returned with
  | .error _ => false
  | .ok snapshot => decide (expected = snapshot) && (registry.classify expected).isDuplicate

variable (ed) in
/-- The loop over the artifacts of the range. -/
def historyLoop (answers : SyncAnswers P) (outerStatus : Option SyncReceiptStatus) (index : ℕ)
    (receipts : List SyncReceiptStatus) :
    List SignedEnvelope → List SyncCall × PersistentSyncReceiveResult
  | [] =>
      if answers.aborted index then ([], ⟨outerStatus, receipts, .cancelled⟩)
      else ([], ⟨outerStatus, receipts, .range_received⟩)
  | artifact :: rest =>
      if answers.aborted index then ([], ⟨outerStatus, receipts, .cancelled⟩)
      else match ((answers.registryBefore index).classify artifact).rejection with
      | some reason => ([], ⟨outerStatus, receipts, .stopped .history (some index) reason⟩)
      | none =>
          match answers.receipt index with
          | .error error =>
              ([.history artifact], ⟨outerStatus, receipts, .failed .history (some index) error⟩)
          | .ok (answer, received) =>
              if verifyArtifact ed received ≠ .ok artifact then
                ([.history artifact], ⟨outerStatus, receipts, .failed .history (some index)
                  "History receiver returned a receipt for a different artifact"⟩)
              else match answer with
              | .rejected reason =>
                  ([.history artifact], ⟨outerStatus, receipts, .stopped .history (some index) reason⟩)
              | .malformed =>
                  ([.history artifact], ⟨outerStatus, receipts, .failed .history (some index)
                    "History receiver returned an invalid receipt status"⟩)
              | .settled status =>
                  if committed ed (answers.registryAfter index) artifact received = false then
                    ([.history artifact], ⟨outerStatus, receipts, .failed .history (some index)
                      "Durable receiver did not commit the exact artifact to the shared registry"⟩)
                  else if status = .failed then
                    ([.history artifact], ⟨outerStatus, receipts ++ [status],
                      .stopped .history (some index) "terminal_history_failure"⟩)
                  else
                    let (calls, result) :=
                      historyLoop answers outerStatus (index + 1) (receipts ++ [status]) rest
                    (.history artifact :: calls, result)

variable (ed) in
/-- The part of `#receive` after the range has passed its checks. -/
def receiveRange (answers : SyncAnswers P) (outer : SignedEnvelope) (envelopes : List SignedEnvelope) :
    List SyncCall × PersistentSyncReceiveResult :=
  if answers.abortedAfterPreflight then ([], ⟨none, [], .cancelled⟩)
  else match answers.control with
  | .error error => ([.control outer], ⟨none, [], .failed .outer none error⟩)
  | .ok (.rejected reason) => ([.control outer], ⟨none, [], .stopped .outer none reason⟩)
  | .ok (.committed status received) =>
      if committed ed answers.registryAfterControl outer received = false then
        ([.control outer], ⟨none, [], .failed .outer none
          "Durable receiver did not commit the exact artifact to the shared registry"⟩)
      else
        let (calls, result) := historyLoop ed answers (some status) 0 [] envelopes
        (.control outer :: calls, result)

variable (ed) in
/-- The checks of `#receive` before anything is handed on: the outer envelope and the range, or how
the receipt ends. -/
def checkRange (limits : SyncReceiverLimits) (registry : SessionChainRegistry P)
    (request : SyncRequestBody) (outer : SignedEnvelope) :
    Except SyncOutcome (List SignedEnvelope) := do
  let outer ← (verifyArtifact ed outer).mapError fun _ => SyncOutcome.failed .outer none "invalid"
  throwIf (outer.type ≠ .SYNC_RESP) (SyncOutcome.stopped .outer none "wrong_type")
  match (registry.classify outer).rejection with
  | some reason => throw (.stopped .outer none reason)
  | none => do
      let failed := fun e : ProtocolSchemaError => SyncOutcome.failed .preflight none e.message
      let body ← (expectExactMap outer.body ["envelopes"] "SYNC_RESP.body").mapError failed
      let values ← (expectArray (field body "envelopes") "SYNC_RESP.body.envelopes").mapError failed
      throwIf (limits.maxEnvelopes < values.length)
        (SyncOutcome.stopped .preflight none "limit_exceeded")
      let response ← (decodeSyncResponseBody ed outer.body).mapError failed
      match preflightSyncResponse registry request response
        ⟨limits.maxEnvelopes, limits.maxResponseBytes⟩ with
      | .error error => throw (.failed .preflight none error)
      | .ok (.rejected rejection) => throw (.stopped .preflight rejection.index rejection.reason)
      | .ok (.valid _ response) => return response.envelopes

variable (ed) in
/-- `#receive`: the calls it makes, in order, and its result. -/
def receiveJob (limits : SyncReceiverLimits) (answers : SyncAnswers P) (request : SyncRequestBody)
    (outer : SignedEnvelope) : List SyncCall × PersistentSyncReceiveResult :=
  if answers.abortedAtStart then ([], ⟨none, [], .cancelled⟩)
  else match checkRange ed limits answers.registry request outer with
  | .error outcome => ([], ⟨none, [], outcome⟩)
  | .ok envelopes => receiveRange ed answers outer envelopes

/-! ## The queue -/

/-- `PendingResponse`. -/
structure PendingResponse where
  id : ℕ
  outer : SignedEnvelope
  request : SyncRequestBody

variable (P) in
/-- A receipt that has ended: what it read, the calls it made and what it returned. -/
structure SyncReceipt where
  job : PendingResponse
  answers : SyncAnswers P
  calls : List SyncCall
  result : PersistentSyncReceiveResult

variable (P) in
/-- `PersistentSyncReceiver`, with all calls that its receipts have made. -/
structure PersistentSyncReceiver where
  queue : List PendingResponse
  active : Option PendingResponse
  pendingBytes : ℕ
  calls : List SyncCall
  receipts : List (SyncReceipt P)

def PersistentSyncReceiver.new : PersistentSyncReceiver P := ⟨[], none, 0, [], []⟩

/-- The responses that are not settled. -/
def PersistentSyncReceiver.pending (receiver : PersistentSyncReceiver P) : ℕ :=
  receiver.queue.length + if receiver.active.isNone then 0 else 1

/-- `#drain`. -/
def PersistentSyncReceiver.drain (receiver : PersistentSyncReceiver P) : PersistentSyncReceiver P :=
  match receiver.active, receiver.queue with
  | none, job :: rest => { receiver with active := some job, queue := rest }
  | _, _ => receiver

variable (P) in
/-- What happens to a receiver. -/
inductive SyncEvent where
  /-- `receiveResponse`, with the two looks at the signal -/
  | receiveResponse (job : PendingResponse) (abortedBefore abortedAfter : Bool)
  /-- the signal of a response is aborted -/
  | abort (id : ℕ)
  /-- the active receipt ends, after it has read these answers -/
  | settle (answers : SyncAnswers P)

/-- `onAbort`: a response that still waits is taken out. -/
def PersistentSyncReceiver.abort (receiver : PersistentSyncReceiver P) (id : ℕ) :
    PersistentSyncReceiver P :=
  match receiver.queue.find? fun job => job.id = id with
  | none => receiver
  | some job => { receiver with
      queue := receiver.queue.eraseP fun job => job.id = id
      pendingBytes := receiver.pendingBytes - job.outer.byteLength }

variable (ed) in
/-- The receiver after an event; what `receiveResponse` throws changes nothing. -/
def PersistentSyncReceiver.next (limits : SyncReceiverLimits) (receiver : PersistentSyncReceiver P) :
    SyncEvent P → PersistentSyncReceiver P
  | .receiveResponse job abortedBefore abortedAfter =>
      if abortedBefore = true ∨ limits.maxPendingResponses ≤ receiver.pending ∨
        limits.maxEnvelopes ≤ job.request.toSeq - job.request.fromSeq ∨
        limits.maxResponseBytes < job.outer.byteLength ∨
        limits.maxPendingBytes - receiver.pendingBytes < job.outer.byteLength then receiver
      else
        let queued := { receiver with queue := receiver.queue ++ [job]
                                      pendingBytes := receiver.pendingBytes + job.outer.byteLength }
        (if abortedAfter then queued.abort job.id else queued).drain
  | .abort id => receiver.abort id
  | .settle answers =>
      match receiver.active with
      | none => receiver
      | some job =>
          let (calls, result) := receiveJob ed limits answers job.request job.outer
          PersistentSyncReceiver.drain { receiver with
            active := none
            pendingBytes := receiver.pendingBytes - job.outer.byteLength
            calls := receiver.calls ++ calls
            receipts := receiver.receipts ++ [⟨job, answers, calls, result⟩] }

variable (ed) in
/-- The receiver after some events. -/
def PersistentSyncReceiver.run (limits : SyncReceiverLimits) (events : List (SyncEvent P)) :
    PersistentSyncReceiver P :=
  events.foldl (PersistentSyncReceiver.next ed limits) .new

/-! ## The calls of one receipt -/

variable {answers : SyncAnswers P} {index : ℕ} {envelopes : List SignedEnvelope}
  {calls : List SyncCall} {statuses : List SyncReceiptStatus} {artifact : SignedEnvelope}

variable (ed answers) in
/-- The calls submit a prefix of the range in order, the statuses are those of a prefix of the
calls, each confirmed, and a call follows only when the one before it did not fail. -/
structure InOrder (index : ℕ) (envelopes : List SignedEnvelope) (calls : List SyncCall)
    (statuses : List SyncReceiptStatus) : Prop where
  submitted : calls = (envelopes.take calls.length).map .history
  statuses_le : statuses.length ≤ calls.length
  calls_le : calls.length ≤ statuses.length + 1
  settled : ∀ k status, statuses[k]? = some status → ∃ artifact received,
    envelopes[k]? = some artifact ∧ answers.receipt (index + k) = .ok (.settled status, received) ∧
    committed ed (answers.registryAfter (index + k)) artifact received = true
  stops : ∀ k, k + 1 < calls.length → ∃ status, statuses[k]? = some status ∧ status ≠ .failed

theorem InOrder.none : InOrder ed answers index envelopes [] [] :=
  ⟨by simp, le_rfl, Nat.zero_le _, fun k status h => by simp at h, fun k hk => by simp at hk⟩

/-- The receipt ends with a call that is not confirmed. -/
theorem InOrder.single : InOrder ed answers index (artifact :: envelopes) [.history artifact] [] :=
  ⟨by simp, Nat.zero_le _, by simp, fun k status h => by simp at h, fun k hk => by simp at hk⟩

theorem InOrder.cons {status : SyncReceiptStatus} {received : SignedEnvelope}
    (h : InOrder ed answers (index + 1) envelopes calls statuses)
    (hreceipt : answers.receipt index = .ok (.settled status, received))
    (hcommitted : committed ed (answers.registryAfter index) artifact received = true)
    (hstatus : calls ≠ [] → status ≠ .failed) :
    InOrder ed answers index (artifact :: envelopes) (.history artifact :: calls)
      (status :: statuses) where
  submitted := by
    rw [List.length_cons, List.take_succ_cons, List.map_cons, ← h.submitted]
  statuses_le := Nat.succ_le_succ h.statuses_le
  calls_le := Nat.succ_le_succ h.calls_le
  settled := by
    intro k other hk
    cases k with
    | zero =>
        cases hk
        exact ⟨artifact, received, rfl, hreceipt, hcommitted⟩
    | succ k =>
        rw [show index + (k + 1) = index + 1 + k by omega]
        exact h.settled k other hk
  stops := by
    intro k hk
    rw [List.length_cons] at hk
    cases k with
    | zero =>
        refine ⟨status, rfl, hstatus fun hnil => ?_⟩
        rw [hnil] at hk
        exact absurd hk (by simp)
    | succ k => exact h.stops k (by omega)

/-- **The loop submits a prefix of the range in order** and stops at the first failure. -/
theorem historyLoop_spec (outerStatus : Option SyncReceiptStatus) (index : ℕ)
    (receipts : List SyncReceiptStatus) (envelopes : List SignedEnvelope) :
    ∃ statuses, (historyLoop ed answers outerStatus index receipts envelopes).2.receipts =
        receipts ++ statuses ∧
      (historyLoop ed answers outerStatus index receipts envelopes).2.outerStatus = outerStatus ∧
      InOrder ed answers index envelopes
        (historyLoop ed answers outerStatus index receipts envelopes).1 statuses ∧
      ((historyLoop ed answers outerStatus index receipts envelopes).2.outcome = .range_received →
        statuses.length = envelopes.length ∧ .failed ∉ statuses) := by
  induction envelopes generalizing index receipts with
  | nil =>
      unfold historyLoop
      split
      · exact ⟨[], by simp, rfl, .none, fun h => by cases h⟩
      · exact ⟨[], by simp, rfl, .none, fun _ => ⟨rfl, by simp⟩⟩
  | cons artifact rest ih =>
      unfold historyLoop
      split
      · exact ⟨[], by simp, rfl, .none, fun h => by cases h⟩
      split
      · exact ⟨[], by simp, rfl, .none, fun h => by cases h⟩
      split
      · exact ⟨[], by simp, rfl, .single, fun h => by cases h⟩
      next answer received hreceipt =>
        split
        · exact ⟨[], by simp, rfl, .single, fun h => by cases h⟩
        split
        · exact ⟨[], by simp, rfl, .single, fun h => by cases h⟩
        · exact ⟨[], by simp, rfl, .single, fun h => by cases h⟩
        next status =>
          split
          · exact ⟨[], by simp, rfl, .single, fun h => by cases h⟩
          next hcommitted =>
            have hcommitted := Bool.eq_true_of_not_eq_false hcommitted
            split
            next hfailed =>
              refine ⟨[status], rfl, rfl, ?_, fun h => by cases h⟩
              exact InOrder.cons .none hreceipt hcommitted fun h => absurd rfl h
            next hfailed =>
              obtain ⟨statuses, hreceipts, houter, horder, hrange⟩ :=
                ih (index + 1) (receipts ++ [status])
              refine ⟨status :: statuses, by simpa using hreceipts, houter,
                horder.cons hreceipt hcommitted fun _ => hfailed, fun hreceived => ?_⟩
              obtain ⟨hlength, hnot⟩ := hrange hreceived
              refine ⟨by rw [List.length_cons, List.length_cons, hlength], fun hmem => ?_⟩
              rcases List.mem_cons.1 hmem with heq | hmem
              · exact hfailed heq.symm
              · exact hnot hmem

variable (ed) in
/-- What the calls of a receipt look like: none, or the control and then a prefix of the checked
range, submitted once the control was committed. -/
def Proper (limits : SyncReceiverLimits) (receipt : SyncReceipt P) : Prop :=
  (receipt.calls = [] ∧ receipt.result.receipts = [] ∧ receipt.result.outcome ≠ .range_received) ∨
  ∃ envelopes calls, checkRange ed limits receipt.answers.registry receipt.job.request
      receipt.job.outer = .ok envelopes ∧
    receipt.calls = .control receipt.job.outer :: calls ∧
    (calls ≠ [] → ∃ status received, receipt.answers.control = .ok (.committed status received) ∧
      receipt.result.outerStatus = some status ∧
      committed ed receipt.answers.registryAfterControl receipt.job.outer received = true) ∧
    InOrder ed receipt.answers 0 envelopes calls receipt.result.receipts ∧
    (receipt.result.outcome = .range_received →
      receipt.result.receipts.length = envelopes.length ∧ .failed ∉ receipt.result.receipts)

theorem mapError_eq_error {ε δ α : Type} {x : Except ε α} {f : ε → δ} {error : δ} :
    x.mapError f = .error error ↔ ∃ cause, x = .error cause ∧ f cause = error := by
  cases x <;> simp [Except.mapError]

/-- A check never reports that the range was received. -/
theorem checkRange_outcome {limits : SyncReceiverLimits} {registry : SessionChainRegistry P}
    {request : SyncRequestBody} {outer : SignedEnvelope} {outcome : SyncOutcome}
    (h : checkRange ed limits registry request outer = .error outcome) :
    outcome ≠ .range_received := by
  rintro rfl
  unfold checkRange at h
  rcases bind_eq_error.1 h with h | ⟨outer, -, h⟩
  · obtain ⟨_, -, h⟩ := mapError_eq_error.1 h
    cases h
  rcases bind_eq_error.1 h with h | ⟨_, -, h⟩
  · cases (throwIf_eq_error.1 h).2
  split at h
  · cases h
  rcases bind_eq_error.1 h with h | ⟨body, -, h⟩
  · obtain ⟨_, -, h⟩ := mapError_eq_error.1 h
    cases h
  rcases bind_eq_error.1 h with h | ⟨values, -, h⟩
  · obtain ⟨_, -, h⟩ := mapError_eq_error.1 h
    cases h
  rcases bind_eq_error.1 h with h | ⟨_, -, h⟩
  · cases (throwIf_eq_error.1 h).2
  rcases bind_eq_error.1 h with h | ⟨response, -, h⟩
  · obtain ⟨_, -, h⟩ := mapError_eq_error.1 h
    cases h
  split at h <;> cases h

theorem receiveJob_spec (limits : SyncReceiverLimits) (answers : SyncAnswers P)
    (job : PendingResponse) : Proper ed limits ⟨job, answers,
      (receiveJob ed limits answers job.request job.outer).1,
      (receiveJob ed limits answers job.request job.outer).2⟩ := by
  unfold receiveJob
  split
  · exact .inl ⟨rfl, rfl, by simp⟩
  cases hcheck : checkRange ed limits answers.registry job.request job.outer with
  | error outcome => exact .inl ⟨rfl, rfl, checkRange_outcome hcheck⟩
  | ok envelopes =>
      simp only
      unfold receiveRange
      split
      · exact .inl ⟨rfl, rfl, by simp⟩
      cases hcontrol : answers.control with
      | error error =>
          exact .inr ⟨envelopes, [], hcheck, rfl, fun h => absurd rfl h, .none, fun h => by cases h⟩
      | ok control =>
          cases control with
          | rejected reason =>
              exact .inr ⟨envelopes, [], hcheck, rfl, fun h => absurd rfl h, .none,
                fun h => by cases h⟩
          | committed status received =>
              simp only
              split
              · exact .inr ⟨envelopes, [], hcheck, rfl, fun h => absurd rfl h, .none,
                  fun h => by cases h⟩
              next hcommitted =>
                obtain ⟨statuses, hreceipts, houter, horder, hrange⟩ :=
                  historyLoop_spec (P := P) (some status) 0 [] envelopes
                rw [List.nil_append] at hreceipts
                rw [← hreceipts] at horder hrange
                exact .inr ⟨envelopes, _, hcheck, rfl, fun _ => ⟨status, received, hcontrol, houter,
                  Bool.eq_true_of_not_eq_false hcommitted⟩, horder, hrange⟩

/-! ## Runs -/

/-- What a receiver keeps: its calls are those of its receipts, one after the other. -/
structure PersistentSyncReceiver.Inv (ed : Ed25519) (limits : SyncReceiverLimits)
    (receiver : PersistentSyncReceiver P) : Prop where
  calls : receiver.calls = receiver.receipts.flatMap SyncReceipt.calls
  proper : ∀ receipt ∈ receiver.receipts, Proper ed limits receipt

theorem PersistentSyncReceiver.Inv.drain {limits : SyncReceiverLimits}
    {receiver : PersistentSyncReceiver P} (h : receiver.Inv ed limits) :
    receiver.drain.Inv ed limits := by
  unfold PersistentSyncReceiver.drain
  split
  · exact ⟨h.calls, h.proper⟩
  · exact h

theorem PersistentSyncReceiver.Inv.abort {limits : SyncReceiverLimits}
    {receiver : PersistentSyncReceiver P} (h : receiver.Inv ed limits) (id : ℕ) :
    (receiver.abort id).Inv ed limits := by
  unfold PersistentSyncReceiver.abort
  split
  · exact h
  · exact ⟨h.calls, h.proper⟩

theorem PersistentSyncReceiver.Inv.next {limits : SyncReceiverLimits}
    {receiver : PersistentSyncReceiver P} (h : receiver.Inv ed limits) (event : SyncEvent P) :
    (PersistentSyncReceiver.next ed limits receiver event).Inv ed limits := by
  cases event with
  | receiveResponse job abortedBefore abortedAfter =>
      unfold PersistentSyncReceiver.next
      simp only
      split
      · exact h
      · refine PersistentSyncReceiver.Inv.drain ?_
        split
        · have hqueued : PersistentSyncReceiver.Inv ed limits { receiver with
              queue := receiver.queue ++ [job]
              pendingBytes := receiver.pendingBytes + job.outer.byteLength } := ⟨h.calls, h.proper⟩
          exact hqueued.abort job.id
        · exact ⟨h.calls, h.proper⟩
  | abort id => exact h.abort id
  | settle answers =>
      unfold PersistentSyncReceiver.next
      cases hactive : receiver.active with
      | none => exact h
      | some job =>
          refine PersistentSyncReceiver.Inv.drain ⟨?_, fun receipt hreceipt => ?_⟩
          · simp [h.calls]
          · rcases List.mem_append.1 hreceipt with hreceipt | hreceipt
            · exact h.proper receipt hreceipt
            · rw [List.mem_singleton.1 hreceipt]
              exact receiveJob_spec limits answers job

theorem run_settled (limits : SyncReceiverLimits) (events : List (SyncEvent P)) :
    (PersistentSyncReceiver.run ed limits events).Inv ed limits := by
  unfold PersistentSyncReceiver.run
  have hrun : ∀ receiver : PersistentSyncReceiver P, receiver.Inv ed limits →
      (events.foldl (PersistentSyncReceiver.next ed limits) receiver).Inv ed limits := by
    induction events with
    | nil => exact fun receiver h => h
    | cons event rest ih => exact fun receiver h => ih _ (h.next event)
  exact hrun _ ⟨rfl, by simp [PersistentSyncReceiver.new]⟩

/-! ## Both ways -/

theorem preflight_parts {registry : SessionChainRegistry P} {request normalized : SyncRequestBody}
    {response body : SyncResponseBody} {limits : SyncResponseLimits}
    (h : preflightSyncResponse registry request response limits = .ok (.valid normalized body)) :
    normalizeRequest request = .ok normalized ∧ body = response := by
  unfold preflightSyncResponse at h
  obtain ⟨-, h⟩ := check_bind_eq_ok.1 h
  obtain ⟨-, h⟩ := check_bind_eq_ok.1 h
  obtain ⟨request', hrequest, h⟩ := bind_eq_ok.1 h
  rw [hrequest]
  clear hrequest
  simp only at h
  repeat' split at h
  all_goals cases h
  exact ⟨rfl, rfl⟩

/-- What `applySyncResponse` does once its check has passed. -/
theorem applySyncResponse_valid {registry : SessionChainRegistry P} {request normalized : SyncRequestBody}
    {response body : SyncResponseBody}
    (h : preflightSyncResponse registry request response .default = .ok (.valid normalized body)) :
    normalized = request ∧ body = response ∧
      applySyncResponse registry request response =
        .ok (.applied (ingestEach registry response.envelopes).1,
          (ingestEach registry response.envelopes).2) ∧
      (∃ seat, registry.roster.seatOf request.from_ = some seat) ∧ response.envelopes ≠ [] ∧
      response.envelopes.length = request.toSeq - request.fromSeq + 1 ∧
      request.fromSeq ≤ request.toSeq ∧
      Batch P registry.gameId request.from_ request.fromSeq response.envelopes := by
  obtain ⟨hnormalized, rfl⟩ := preflight_parts h
  obtain rfl := (normalizeRequest_eq_ok.1 hnormalized).1
  obtain ⟨-, hle, -⟩ := normalizeRequest_eq_ok.1 hnormalized
  obtain ⟨hseat, -, hlength, -, hcheck⟩ :=
    (preflight_valid_iff hnormalized (by decide) (by decide)).1 h
  have hbatch := (batch_of_checkEnvelopes hcheck).1
  refine ⟨rfl, rfl, ?_, Option.ne_none_iff_exists'.1 hseat, ?_, hlength, hle, hbatch⟩
  · unfold applySyncResponse
    rw [h]
    rfl
  · intro hnil
    rw [hnil] at hlength
    cases hlength

/-- A synchronised range is taken in order or not at all.  Applying a response that passes its check
either reports duplicates and then acceptances, and the sender's chain then holds exactly the range
and goes at least to its end; or it leaves the registry as it was, and some envelope was rejected.  In every run
of the receiver that stores what it gets, the calls are those of its receipts one after the other; a
receipt hands on a prefix of the checked range in order, only after the outer envelope was committed,
stops at the first failure, and reports the confirmed statuses of a prefix. -/
theorem sync_batch_all_or_nothing (P : Primitives q G) :
    (∀ (registry : SessionChainRegistry P) logs request response normalized body seat,
      HoldsLogs registry logs →
      preflightSyncResponse registry request response .default = .ok (.valid normalized body) →
      registry.roster.seatOf request.from_ = some seat →
      Set.InjOn P.hashEnvelope {e | e ∈ logs seat ∨ e ∈ response.envelopes} →
      ∃ results registry',
        applySyncResponse registry request response = .ok (.applied results, registry') ∧
        ((∃ duplicates accepted log head, results = duplicates ++ accepted ∧
            (∀ result ∈ duplicates, ∃ existing, result = .chain (.duplicate existing)) ∧
            (∀ result ∈ accepted, ∃ head, result = .chain (.accepted head)) ∧
            HoldsLogs registry' (Function.update logs seat log) ∧ logs seat <+: log ∧
            (registry'.chains seat).head = some head ∧ request.toSeq ≤ head.seq ∧
            ∀ index (hindex : index < response.envelopes.length),
              (registry'.chains seat).accepted (request.fromSeq + index) =
                some response.envelopes[index]) ∨
          (registry' = registry ∧ ∃ result ∈ results, result.isSettled = false))) ∧
    ∀ (ed : Ed25519) limits (events : List (SyncEvent P)),
      (PersistentSyncReceiver.run ed limits events).calls =
        (PersistentSyncReceiver.run ed limits events).receipts.flatMap SyncReceipt.calls ∧
      ∀ receipt ∈ (PersistentSyncReceiver.run ed limits events).receipts, Proper ed limits receipt := by
  refine ⟨?_, fun ed limits events => ⟨(run_settled limits events).calls,
    (run_settled limits events).proper⟩⟩
  intro registry logs request response normalized body seat h hpreflight hseat hhash
  obtain ⟨-, -, happly, -, hne, hlength, hle, hbatch⟩ := applySyncResponse_valid hpreflight
  refine ⟨_, _, happly, ?_⟩
  by_cases hstart : request.fromSeq ≤ (logs seat).length
  · rcases h.ingestEach_batch rfl hseat hhash hbatch hstart with happlied | hunchanged
    · left
      obtain ⟨⟨duplicates, accepted, hresults, hduplicates, haccepted⟩, log, hholds, hpre, hlong,
        htake⟩ := happlied
      have hchain := hholds.chain seat
      rw [Function.update_self] at hchain
      obtain ⟨last, hlast⟩ : ∃ last, log.getLast? = some last := by
        refine Option.ne_none_iff_exists'.1 fun hnone => ?_
        rw [List.getLast?_eq_none_iff.1 hnone] at hlong
        rw [List.length_nil] at hlong
        omega
      refine ⟨duplicates, accepted, log, _, hresults, hduplicates, haccepted, hholds, hpre,
        by rw [hchain.head, hlast]; rfl, by simp only; omega, fun index hindex => ?_⟩
      rw [hchain.accepted, ← List.getElem?_drop, ← List.getElem?_eq_getElem hindex]
      have hget := congrArg (fun l => l[index]?) htake
      simp only [List.getElem?_take, if_pos hindex] at hget
      exact hget
    · exact .inr hunchanged
  · right
    obtain ⟨hsame, hrefused⟩ := h.ingestEach_diverged hseat hhash hbatch fun first hfirst => by
      have hseq := hbatch.head_seq first hfirst
      exact .inl (by omega)
    refine ⟨hsame, ?_⟩
    obtain ⟨e, rest, hcases⟩ := List.exists_cons_of_ne_nil hne
    rw [hcases] at hrefused ⊢
    unfold ingestEach at hrefused ⊢
    exact ⟨_, List.mem_cons_self, hrefused _ List.mem_cons_self⟩

end

end Tablefolk
