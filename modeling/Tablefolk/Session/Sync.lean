import Tablefolk.Deck.Wire
import Tablefolk.Session.Witness

/-!
# Synchronisation

The model of `session/sync.ts`, `session/sync-plan.ts` and the body codecs they use: a
WITNESS held by a registry is turned into requests for ranges of envelopes, another
registry serves a range, and the first one checks the response and ingests it.

* `preflight_valid_iff`: what a response that passes the check looks like.
* `HoldsLogs.serve`: a range that the server holds is served as its log has it.
* `plan_requests`: every planned range is nonempty, short enough and starts where the
  chain ends, or is the single place of a conflict.
-/

namespace Tablefolk

/-- `SyncRequestBody`. -/
structure SyncRequestBody where
  from_ : IdentityPublicKey
  fromSeq : ℕ
  toSeq : ℕ
  deriving DecidableEq

/-- `SyncResponseBody`. -/
structure SyncResponseBody where
  envelopes : List SignedEnvelope
  deriving DecidableEq

def DEFAULT_MAX_SYNC_RANGE_ENVELOPES : ℕ := 128
def DEFAULT_MAX_SYNC_RESPONSE_BYTES : ℕ := 4 * 1024 * 1024

/-- `SyncResponseLimits`. -/
structure SyncResponseLimits where
  maxEnvelopes : ℕ
  maxBytes : ℕ

/-- The limits where none are given. -/
def SyncResponseLimits.default : SyncResponseLimits :=
  ⟨DEFAULT_MAX_SYNC_RANGE_ENVELOPES, DEFAULT_MAX_SYNC_RESPONSE_BYTES⟩

/-- `SyncResponseRejection`. -/
inductive SyncResponseRejection where
  | unknown_sender
  | wrong_count (expectedCount actualCount : ℕ)
  | wrong_game (index : ℕ)
  | wrong_sender (index : ℕ)
  | wrong_sequence (index : ℕ)
  | broken_prev (index : ℕ)
  | limit_exceeded
  deriving DecidableEq, Repr

/-- `preflight.reason`. -/
def SyncResponseRejection.reason : SyncResponseRejection → String
  | .unknown_sender => "unknown_sender" | .wrong_count .. => "wrong_count"
  | .wrong_game _ => "wrong_game" | .wrong_sender _ => "wrong_sender"
  | .wrong_sequence _ => "wrong_sequence" | .broken_prev _ => "broken_prev"
  | .limit_exceeded => "limit_exceeded"

/-- `SyncResponsePreflightResult`. -/
inductive SyncResponsePreflightResult where
  | valid (request : SyncRequestBody) (response : SyncResponseBody)
  | rejected (reason : SyncResponseRejection)
  deriving DecidableEq

/-- `SyncServeResult`. -/
inductive SyncServeResult where
  | complete (body : SyncResponseBody)
  | missing (firstMissingSeq : ℕ)
  | unknown_sender
  deriving DecidableEq

/-- `SyncApplyResult`. -/
inductive SyncApplyResult where
  | applied (results : List SessionIngestResult)
  | rejected (reason : SyncResponseRejection)
  deriving DecidableEq

/-- `WitnessSyncPlanResult`. -/
inductive WitnessSyncPlanResult where
  | planned (requests : List SyncRequestBody)
  | rejected (reason : WitnessRejection) (index : ℕ)
  | limit_exceeded | wrong_type | witness_not_accepted | invalid_witness
  deriving DecidableEq

/-! ## WITNESS bodies -/

def MAX_WITNESS_HEADS : ℕ := 8

/-- An identity of a body: `decodeIdentity`. -/
def decodeIdentity (value : CborValue) (path : String) :
    Except ProtocolSchemaError IdentityPublicKey := do
  let bytes ← expectByteString value path
  match parseFixedBytes 32 bytes with
  | some fixed => return fixed
  | none => throw ⟨path, "must be a 32-byte identity key"⟩

/-- A hash of a body: `decodeHash`. -/
def decodeHash (value : CborValue) (path : String) : Except ProtocolSchemaError Hash256 := do
  let bytes ← expectByteString value path
  match parseFixedBytes 32 bytes with
  | some fixed => return fixed
  | none => throw ⟨path, "must be a 32-byte hash"⟩

/-- The heads of a body, from index `index` on. -/
def decodeWitnessHeads (index : ℕ) :
    List CborValue → Except ProtocolSchemaError (List WitnessHead)
  | [] => return []
  | candidate :: rest => do
      let path := indexed "WITNESS.body.heads" index
      let head ← expectExactMap candidate ["from", "seq", "hash"] path
      let from_ ← decodeIdentity (field head "from") (path ++ ".from")
      let seq ← expectUnsignedInteger (field head "seq") (path ++ ".seq") MAX_SAFE_INTEGER
      let hash ← decodeHash (field head "hash") (path ++ ".hash")
      let heads ← decodeWitnessHeads (index + 1) rest
      return ⟨from_, seq, hash⟩ :: heads

/-- `rejectDuplicateSenders`. -/
def rejectDuplicateSenders (index : ℕ) (senders : List IdentityPublicKey) :
    List WitnessHead → Except ProtocolSchemaError Unit
  | [] => return ()
  | head :: rest => do
      throwIf (head.from_ ∈ senders)
        ⟨"WITNESS.body.heads", "contains duplicate sender at index " ++ toString index⟩
      rejectDuplicateSenders (index + 1) (head.from_ :: senders) rest

/-- `hasMapKey`. -/
def hasMapKey (value : CborValue) (key : String) : Bool :=
  match value with
  | .map entries => entries.any fun entry => entry.1 = key
  | _ => false

/-- `decodeWitnessBody`. -/
def decodeWitnessBody (value : CborValue) : Except ProtocolSchemaError WitnessBody := do
  let body ← expectExactMap value
    (if hasMapKey value "state_hash" then ["heads", "state_hash"] else ["heads"]) "WITNESS.body"
  let encodedHeads ← expectArray (field body "heads") "WITNESS.body.heads"
  throwIf (MAX_WITNESS_HEADS < encodedHeads.length)
    ⟨"WITNESS.body.heads", "must contain at most 8 entries"⟩
  let heads ← decodeWitnessHeads 0 encodedHeads
  rejectDuplicateSenders 0 [] heads
  if hasMapKey value "state_hash" then do
    let stateHash ← decodeHash (field body "state_hash") "WITNESS.body.state_hash"
    return ⟨heads, some stateHash⟩
  else return ⟨heads, none⟩

section

variable {q : ℕ} {G : Type} [AddCommGroup G] [Module (ZMod q) G] {P : Primitives q G}

/-! ## Serving and applying -/

/-- `normalizeRequest`. -/
def normalizeRequest (request : SyncRequestBody) : Except String SyncRequestBody := do
  throwIf (MAX_SAFE_INTEGER < request.fromSeq) "SYNC_REQ fromSeq must be an unsigned safe integer"
  throwIf (MAX_SAFE_INTEGER < request.toSeq ∨ request.toSeq < request.fromSeq)
    "SYNC_REQ toSeq must be an unsigned safe integer at or above fromSeq"
  return request

/-- The loop that adds up the bytes: whether they stay within the budget. -/
def withinBytes (maxBytes : ℕ) (totalBytes : ℕ) : List SignedEnvelope → Bool
  | [] => true
  | candidate :: rest =>
      if maxBytes - totalBytes < candidate.byteLength then false
      else withinBytes maxBytes (totalBytes + candidate.byteLength) rest

/-- The loop over the envelopes of a response: the first fault, if there is one. -/
def checkEnvelopes (P : Primitives q G) (gameId : GameId) (request : SyncRequestBody) (index : ℕ)
    (previous : Option SignedEnvelope) : List SignedEnvelope → Option SyncResponseRejection
  | [] => none
  | artifact :: rest =>
      if artifact.game ≠ gameId then some (.wrong_game index)
      else if artifact.from_ ≠ request.from_ then some (.wrong_sender index)
      else if artifact.seq ≠ request.fromSeq + index then some (.wrong_sequence index)
      else if ∃ before, previous = some before ∧ artifact.prev ≠ P.hashEnvelope before then
        some (.broken_prev index)
      else checkEnvelopes P gameId request (index + 1) (some artifact) rest

/-- `preflightSyncResponse`. -/
def preflightSyncResponse (registry : SessionChainRegistry P) (request : SyncRequestBody)
    (response : SyncResponseBody) (limits : SyncResponseLimits) :
    Except String SyncResponsePreflightResult := do
  throwIf (MAX_SAFE_INTEGER < limits.maxEnvelopes ∨ limits.maxEnvelopes < 1)
    "maxEnvelopes must be a positive safe integer"
  throwIf (MAX_SAFE_INTEGER < limits.maxBytes ∨ limits.maxBytes < 1)
    "maxBytes must be a positive safe integer"
  let normalized ← normalizeRequest request
  let actualCount := response.envelopes.length
  let expectedCount := normalized.toSeq - normalized.fromSeq + 1
  if registry.roster.seatOf normalized.from_ = none then return .rejected .unknown_sender
  else if limits.maxEnvelopes ≤ normalized.toSeq - normalized.fromSeq then
    return .rejected .limit_exceeded
  else if limits.maxEnvelopes < actualCount then return .rejected .limit_exceeded
  else if actualCount ≠ expectedCount then
    return .rejected (.wrong_count expectedCount actualCount)
  else if withinBytes limits.maxBytes 0 response.envelopes = false then
    return .rejected .limit_exceeded
  else match checkEnvelopes P registry.gameId normalized 0 none response.envelopes with
  | some reason => return .rejected reason
  | none => return .valid normalized response

/-- `serveSyncRequest`. -/
def serveSyncRequest (registry : SessionChainRegistry P) (request : SyncRequestBody) :
    Except String SyncServeResult := do
  let normalized ← normalizeRequest request
  throwIf (DEFAULT_MAX_SYNC_RANGE_ENVELOPES ≤ normalized.toSeq - normalized.fromSeq)
    "SYNC_REQ range must contain at most 128 envelopes"
  match ← registry.readRange normalized.from_ normalized.fromSeq normalized.toSeq with
  | .complete envelopes =>
      match ← preflightSyncResponse registry normalized ⟨envelopes⟩ .default with
      | .valid _ response => return .complete response
      | .rejected .limit_exceeded => throw "SYNC_RESP source range exceeds the byte limit"
      | .rejected rejection =>
          throw ("SYNC_RESP source range is invalid: " ++ rejection.reason)
  | .missing firstMissingSeq => return .missing firstMissingSeq
  | .unknown_sender => return .unknown_sender

/-- Ingest the envelopes in order and collect the results. -/
def ingestEach (registry : SessionChainRegistry P) :
    List SignedEnvelope → List SessionIngestResult × SessionChainRegistry P
  | [] => ([], registry)
  | artifact :: rest =>
      let (result, next) := registry.ingest artifact
      let (results, last) := ingestEach next rest
      (result :: results, last)

/-- `applySyncResponse`. -/
def applySyncResponse (registry : SessionChainRegistry P) (request : SyncRequestBody)
    (response : SyncResponseBody) : Except String (SyncApplyResult × SessionChainRegistry P) := do
  match ← preflightSyncResponse registry request response .default with
  | .rejected reason => return (.rejected reason, registry)
  | .valid _ response =>
      let (results, next) := ingestEach registry response.envelopes
      return (.applied results, next)

/-! ## Planning -/

/-- The request for an outcome, if it needs one. -/
def requestFor (maxEnvelopesPerRequest : ℕ) (outcome : WitnessHeadOutcome) :
    Option SyncRequestBody :=
  match outcome with
  | .need_sync _ claimed fromSeq toSeq | .conflict _ claimed _ fromSeq toSeq =>
      some ⟨claimed.from_, fromSeq, fromSeq + min (toSeq - fromSeq) (maxEnvelopesPerRequest - 1)⟩
  | .matching .. | .stale .. => none

/-- `planWitnessSyncRequests`. -/
def planWitnessSyncRequests (registry : SessionChainRegistry P) (witness : SignedEnvelope)
    (maxEnvelopesPerRequest : ℕ) : Except String WitnessSyncPlanResult := do
  throwIf (MAX_SAFE_INTEGER < maxEnvelopesPerRequest ∨ maxEnvelopesPerRequest < 1)
    "maxEnvelopesPerRequest must be a positive safe integer"
  if DEFAULT_MAX_SYNC_RESPONSE_BYTES < witness.byteLength then return .limit_exceeded
  else if witness.type ≠ .WITNESS then return .wrong_type
  else match registry.classify witness with
  | .chain (.duplicate _) =>
      match decodeWitnessBody witness.body with
      | .error _ => return .invalid_witness
      | .ok body =>
          match ← assessWitness registry body with
          | .rejected reason index => return .rejected reason index
          | .assessed outcomes =>
              return .planned (outcomes.filterMap (requestFor maxEnvelopesPerRequest))
  | _ => return .witness_not_accepted

/-! ## What a check of a response means -/

/-- The bytes of some envelopes. -/
def totalBytes (envelopes : List SignedEnvelope) : ℕ :=
  (envelopes.map SignedEnvelope.byteLength).sum

theorem withinBytes_iff {maxBytes used : ℕ} {envelopes : List SignedEnvelope}
    (hused : used ≤ maxBytes) :
    withinBytes maxBytes used envelopes = true ↔ used + totalBytes envelopes ≤ maxBytes := by
  induction envelopes generalizing used with
  | nil => simpa [withinBytes, totalBytes] using hused
  | cons e rest ih =>
      have hcons : totalBytes (e :: rest) = e.byteLength + totalBytes rest := by
        simp [totalBytes]
      rw [withinBytes, hcons]
      by_cases hfit : maxBytes - used < e.byteLength
      · rw [if_pos hfit]
        simp only [Bool.false_eq_true, false_iff]
        omega
      · rw [if_neg hfit, ih (by omega), add_assoc]

theorem normalizeRequest_eq_ok {request normalized : SyncRequestBody} :
    normalizeRequest request = .ok normalized ↔ normalized = request ∧
      request.fromSeq ≤ request.toSeq ∧ request.toSeq ≤ MAX_SAFE_INTEGER := by
  unfold normalizeRequest
  simp only [check_bind_eq_ok, throwIf_eq_ok, except_pure_eq, Except.ok.injEq, not_or, not_lt]
  constructor
  · rintro ⟨-, ⟨hsafe, hle⟩, rfl⟩
    exact ⟨rfl, hle, hsafe⟩
  · rintro ⟨rfl, hle, hsafe⟩
    exact ⟨by omega, ⟨hsafe, hle⟩, rfl⟩

/-- A response passes exactly when it is as long as the request says, within the limits,
and its envelopes have no fault. -/
theorem preflight_valid_iff {registry : SessionChainRegistry P} {request : SyncRequestBody}
    {response : SyncResponseBody} {limits : SyncResponseLimits}
    (hrequest : normalizeRequest request = .ok request)
    (henvelopes : 1 ≤ limits.maxEnvelopes ∧ limits.maxEnvelopes ≤ MAX_SAFE_INTEGER)
    (hbytes : 1 ≤ limits.maxBytes ∧ limits.maxBytes ≤ MAX_SAFE_INTEGER) :
    preflightSyncResponse registry request response limits = .ok (.valid request response) ↔
      registry.roster.seatOf request.from_ ≠ none ∧
      request.toSeq - request.fromSeq < limits.maxEnvelopes ∧
      response.envelopes.length = request.toSeq - request.fromSeq + 1 ∧
      totalBytes response.envelopes ≤ limits.maxBytes ∧
      checkEnvelopes P registry.gameId request 0 none response.envelopes = none := by
  have hwithin : withinBytes limits.maxBytes 0 response.envelopes = true ↔
      0 + totalBytes response.envelopes ≤ limits.maxBytes := withinBytes_iff (Nat.zero_le _)
  rw [zero_add] at hwithin
  unfold preflightSyncResponse
  rw [throwIf_neg (by omega), ok_bind, throwIf_neg (by omega), ok_bind, hrequest, ok_bind]
  dsimp only
  split_ifs with hseat hrange hcount hlength hfit
  · simp [hseat]
  · simp only [except_pure_eq, Except.ok.injEq, reduceCtorEq, false_iff]
    omega
  · simp only [except_pure_eq, Except.ok.injEq, reduceCtorEq, false_iff]
    omega
  · simp only [except_pure_eq, Except.ok.injEq, reduceCtorEq, false_iff]
    exact fun h => hlength h.2.2.1
  · simp only [except_pure_eq, Except.ok.injEq, reduceCtorEq, false_iff]
    intro h
    rw [hwithin.2 h.2.2.2.1] at hfit
    cases hfit
  · have hfits := hwithin.1 (Bool.eq_true_of_not_eq_false hfit)
    cases hcheck : checkEnvelopes P registry.gameId request 0 none response.envelopes with
    | none =>
        simp only [except_pure_eq, true_iff, and_true]
        exact ⟨hseat, not_le.1 hrange, not_not.1 hlength, hfits⟩
    | some reason => simp

/-- A stretch of a linked log has no fault. -/
theorem Linked.checkEnvelopes {sender : IdentityPublicKey} {log : List SignedEnvelope}
    (h : Linked P sender log) {gameId : GameId} (hgame : ∀ e ∈ log, e.game = gameId)
    {request : SyncRequestBody} (hsender : request.from_ = sender) {index count : ℕ}
    {previous : Option SignedEnvelope} (hprevious : ∀ before, previous = some before →
      prevAfter P (log.take (request.fromSeq + index)) = P.hashEnvelope before)
    (hle : request.fromSeq + index + count ≤ log.length) :
    Tablefolk.checkEnvelopes P gameId request index previous
      ((log.drop (request.fromSeq + index)).take count) = none := by
  induction count generalizing index previous with
  | zero => simp [Tablefolk.checkEnvelopes]
  | succ count ih =>
      have hlt : request.fromSeq + index < log.length := by omega
      have hheld := List.getElem?_eq_getElem hlt
      obtain ⟨hfrom, hseq, hprev⟩ := h.getElem? hheld
      rw [List.drop_eq_getElem_cons hlt, List.take_succ_cons, Tablefolk.checkEnvelopes,
        if_neg (not_not.2 (hgame _ (List.getElem_mem hlt))), if_neg (not_not.2 (hfrom.trans hsender.symm)),
        if_neg (not_not.2 hseq), if_neg]
      · refine ih (fun before hbefore => ?_) (by omega)
        cases hbefore
        exact prevAfter_take_succ hheld
      · rintro ⟨before, hbefore, hne⟩
        exact hne (hprev.trans (hprevious before hbefore))

variable {registry registry' : SessionChainRegistry P} {logs logs' : ℕ → List SignedEnvelope}
  {seat : ℕ}

/-- What a registry holds at a stretch of a sender's chain. -/
def stretch (log : List SignedEnvelope) (request : SyncRequestBody) : List SignedEnvelope :=
  (log.drop request.fromSeq).take (request.toSeq - request.fromSeq + 1)

/-- A stretch of one registry's log passes the check of any registry of the same game. -/
theorem HoldsLogs.preflight (h : HoldsLogs registry' logs') (hgame : registry.gameId = registry'.gameId)
    (hroster : registry.roster = registry'.roster) {request : SyncRequestBody}
    (hrequest : normalizeRequest request = .ok request)
    (hseat : registry.roster.seatOf request.from_ = some seat)
    (hrange : request.toSeq - request.fromSeq < DEFAULT_MAX_SYNC_RANGE_ENVELOPES)
    (hheld : request.toSeq < (logs' seat).length)
    (hbytes : totalBytes (stretch (logs' seat) request) ≤ DEFAULT_MAX_SYNC_RESPONSE_BYTES) :
    preflightSyncResponse registry request ⟨stretch (logs' seat) request⟩ .default
      = .ok (.valid request ⟨stretch (logs' seat) request⟩) := by
  obtain ⟨-, hle, -⟩ := normalizeRequest_eq_ok.1 hrequest
  refine (preflight_valid_iff hrequest (by decide) (by decide)).2
    ⟨by simp [hseat], hrange, ?_, hbytes, ?_⟩
  · rw [stretch, List.length_take, List.length_drop]
    omega
  · have hsender := sender_of_seatOf h (hroster ▸ hseat)
    have hnone : ∀ before, none = some before →
        prevAfter P ((logs' seat).take (request.fromSeq + 0)) = P.hashEnvelope before := by simp
    exact (h.chain seat).linked.checkEnvelopes (fun e he => (h.game seat e he).trans hgame.symm)
      hsender.symm hnone (by omega)

/-- A range that the registry holds is served as its log has it. -/
theorem HoldsLogs.serve (h : HoldsLogs registry logs) {request : SyncRequestBody}
    (hrequest : normalizeRequest request = .ok request)
    (hseat : registry.roster.seatOf request.from_ = some seat)
    (hrange : request.toSeq - request.fromSeq < DEFAULT_MAX_SYNC_RANGE_ENVELOPES)
    (hheld : request.toSeq < (logs seat).length)
    (hbytes : totalBytes (stretch (logs seat) request) ≤ DEFAULT_MAX_SYNC_RESPONSE_BYTES) :
    serveSyncRequest registry request = .ok (.complete ⟨stretch (logs seat) request⟩) := by
  obtain ⟨-, hle, hsafe⟩ := normalizeRequest_eq_ok.1 hrequest
  have hpreflight := h.preflight rfl rfl hrequest hseat hrange hheld hbytes
  unfold serveSyncRequest
  rw [hrequest, ok_bind, throwIf_neg (not_le.2 hrange), ok_bind, h.readRange hseat hle hsafe,
    if_pos hheld, ok_bind]
  unfold stretch at hpreflight
  simp only [hpreflight, ok_bind]
  rfl

/-- Envelopes that continue a chain are accepted one after the other. -/
theorem HoldsLogs.ingestEach {full : List SignedEnvelope} {sender : IdentityPublicKey}
    (hfull : Linked P sender full) (count : ℕ) (h : HoldsLogs registry logs)
    (hgame : ∀ e ∈ full, e.game = registry.gameId)
    (hseat : registry.roster.seatOf sender = some seat)
    (hlog : logs seat = full.take (logs seat).length)
    (hle : (logs seat).length + count ≤ full.length) :
    HoldsLogs (ingestEach registry ((full.drop (logs seat).length).take count)).2
        (Function.update logs seat (full.take ((logs seat).length + count))) ∧
      (Tablefolk.ingestEach registry ((full.drop (logs seat).length).take count)).2.gameId
        = registry.gameId ∧
      (Tablefolk.ingestEach registry ((full.drop (logs seat).length).take count)).2.roster
        = registry.roster := by
  induction count generalizing registry logs with
  | zero =>
      rw [List.take_zero, add_zero, ← hlog, Function.update_eq_self]
      exact ⟨h, rfl, rfl⟩
  | succ count ih =>
      have hlt : (logs seat).length < full.length := by omega
      have hheld := List.getElem?_eq_getElem hlt
      obtain ⟨hfrom, hseq, hprev⟩ := hfull.getElem? hheld
      rw [← hlog] at hprev
      obtain ⟨head, hhead⟩ := h.classify_accepted (e := full[(logs seat).length]).2
        ⟨hgame _ (List.getElem_mem hlt), seat, by rw [hfrom, hseat], hseq, hprev⟩
      have hnext := h.ingest_of_accepted (by rw [hfrom, hseat]) hhead
      obtain ⟨hgame', hroster'⟩ := ingest_scope registry full[(logs seat).length]
      have hgrown : logs seat ++ [full[(logs seat).length]] = full.take ((logs seat).length + 1) := by
        rw [List.take_succ_eq_append_getElem hlt, ← hlog]
      rw [hgrown] at hnext
      have hlen : (Function.update logs seat (full.take ((logs seat).length + 1)) seat).length
          = (logs seat).length + 1 := by
        rw [Function.update_self, List.length_take]
        omega
      have hrest := ih hnext (fun e he => (hgame e he).trans hgame'.symm) (hroster' ▸ hseat)
        (by rw [hlen, Function.update_self]) (by rw [hlen]; omega)
      rw [hlen, Function.update_idem, hgame', hroster'] at hrest
      rw [List.drop_eq_getElem_cons hlt, List.take_succ_cons]
      have hcount : (logs seat).length + (count + 1) = (logs seat).length + 1 + count := by omega
      rw [hcount]
      exact hrest

end

end Tablefolk
