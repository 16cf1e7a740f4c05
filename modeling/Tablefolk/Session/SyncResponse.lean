import Tablefolk.Session.PersistentSync

/-!
# Answering a request

The model of `encodeSyncResponseBody` in `protocol/sync.ts`, and what becomes of a range that
`serveSyncRequest` returns: it is signed as a SYNC_RESP and handed to a receiver with its default
options.

* `decodeSyncResponseBody_value`: the body that is written is read back.
* `signEnvelope_response`: a response is signed and decoded exactly when the decoder gets through
  the bodies of its envelopes five levels down.
* `byteLength_response`: how long it is.
* `Received`: what a response is for.
-/

namespace Tablefolk

def DEFAULT_MAX_PENDING_SYNC_RESPONSES : ℕ := 8
def DEFAULT_MAX_PENDING_SYNC_RESPONSE_BYTES : ℕ := 16 * 1024 * 1024

/-- The limits where no options are given. -/
def SyncReceiverLimits.default : SyncReceiverLimits where
  maxEnvelopes := DEFAULT_MAX_SYNC_RANGE_ENVELOPES
  maxResponseBytes := DEFAULT_MAX_SYNC_RESPONSE_BYTES
  maxPendingResponses := DEFAULT_MAX_PENDING_SYNC_RESPONSES
  maxPendingBytes := DEFAULT_MAX_PENDING_SYNC_RESPONSE_BYTES

section

variable (ed : Ed25519)

/-- The values of some artifacts, from index `index` on. -/
def encodeArtifacts (index : ℕ) :
    List SignedEnvelope → Except ProtocolSchemaError (List CborValue)
  | [] => return []
  | candidate :: rest => do
      let artifact ← (verifyArtifact ed candidate).mapError fun _ =>
        ⟨indexed "SYNC_RESP.body.envelopes" index, "must be a valid signed envelope artifact"⟩
      let values ← encodeArtifacts (index + 1) rest
      return artifact.value :: values

/-- `encodeSyncResponseBody`. -/
def encodeSyncResponseBody (body : SyncResponseBody) : Except ProtocolSchemaError CborValue := do
  throwIf (body.envelopes = []) ⟨"SYNC_RESP.body.envelopes", "must be a non-empty array"⟩
  return cborMap [("envelopes", .array (← encodeArtifacts ed 0 body.envelopes))]

/-- The body of a response. -/
def syncResponseValue (envelopes : List SignedEnvelope) : CborValue :=
  cborMap [("envelopes", .array (envelopes.map SignedEnvelope.value))]

variable {ed} {envelopes : List SignedEnvelope}

theorem encodeArtifacts_ok (h : ∀ e ∈ envelopes, e.Artifact ed) (index : ℕ) :
    encodeArtifacts ed index envelopes = .ok (envelopes.map SignedEnvelope.value) := by
  induction envelopes generalizing index with
  | nil => rfl
  | cons e rest ih =>
      obtain ⟨he, hrest⟩ := List.forall_mem_cons.1 h
      rw [encodeArtifacts, verifyArtifact_of_artifact he, ih hrest]
      rfl

theorem encodeSyncResponseBody_ok (h : ∀ e ∈ envelopes, e.Artifact ed) (hne : envelopes ≠ []) :
    encodeSyncResponseBody ed ⟨envelopes⟩ = .ok (syncResponseValue envelopes) := by
  rw [encodeSyncResponseBody, throwIf_neg hne, ok_bind]
  simp only
  rw [encodeArtifacts_ok h]
  rfl

theorem decodeEnvelopes_ok (h : ∀ e ∈ envelopes, e.Artifact ed) (index : ℕ) :
    decodeEnvelopes ed index (envelopes.map SignedEnvelope.value) = .ok envelopes := by
  induction envelopes generalizing index with
  | nil => rfl
  | cons e rest ih =>
      obtain ⟨he, hrest⟩ := List.forall_mem_cons.1 h
      have hverify := verifyArtifact_of_artifact he
      rw [verifyArtifact] at hverify
      rw [List.map_cons, decodeEnvelopes, hverify, ih hrest]
      rfl

/-- The fields of a response. -/
theorem syncResponse_fields (envelopes : List SignedEnvelope) (path : String) :
    ∃ body, expectExactMap (syncResponseValue envelopes) ["envelopes"] path = .ok body ∧
      field body "envelopes" = .array (envelopes.map SignedEnvelope.value) := by
  refine ⟨_, expectExactMap_cborMap path rfl (by simp), ?_⟩
  rw [field_cborMap (by simp)]
  rfl

/-- **The body that is written is read back.** -/
theorem decodeSyncResponseBody_value (h : ∀ e ∈ envelopes, e.Artifact ed) (hne : envelopes ≠ []) :
    decodeSyncResponseBody ed (syncResponseValue envelopes) = .ok ⟨envelopes⟩ := by
  obtain ⟨body, hbody, hfield⟩ := syncResponse_fields envelopes "SYNC_RESP.body"
  rw [decodeSyncResponseBody, hbody, ok_bind, hfield, expectArray, ok_bind, throwIf_neg (by simpa using hne), ok_bind,
    decodeEnvelopes_ok h]
  rfl

/-! ## Signing -/

/-- The envelope that a responder signs. -/
def UnsignedEnvelope.responding (header : UnsignedEnvelope) (body : CborValue) :
    UnsignedEnvelope :=
  { header with type := .SYNC_RESP, body := body }

/-- Envelopes stand two levels below the body of their response. -/
theorem fitsAt_syncResponseValue (h : ∀ e ∈ envelopes, e.Artifact ed) :
    (syncResponseValue envelopes).FitsAt 1 ↔ ∀ e ∈ envelopes, e.body.FitsAt 4 := by
  rw [syncResponseValue, fitsAt_cborMap, List.forall_mem_singleton, fitsAt_array,
    List.forall_mem_map]
  constructor
  · intro hfits e he
    exact (fitsAt_signed.1 (hfits.2.2 e he)).2.2
  · intro hfits
    refine ⟨by decide, by decide, fun e he => ?_⟩
    exact fitsAt_signed.2 ⟨(h e he).seq_le, (h e he).round_le, hfits e he⟩

/-- What a header has to be for its author to sign it. -/
structure UnsignedEnvelope.Authored (header : UnsignedEnvelope) (secretKey : ed.SecretKey) :
    Prop where
  seq_le : header.seq ≤ MAX_SAFE_INTEGER
  round_le : header.round ≤ MAX_SAFE_INTEGER
  phase_ne : header.phase ≠ ""
  sender : header.from_ = ed.deriveEd25519PublicKey secretKey

/-- The decoder counts five levels to the body of an envelope in a response: the response, its
body, two for the list, and the envelope. -/
theorem readDepth_syncResponseValue :
    (syncResponseValue envelopes).readDepth + 1 ≤ MAX_CBOR_NESTING_DEPTH ↔
      ∀ e ∈ envelopes, e.body.readDepth + 5 ≤ MAX_CBOR_NESTING_DEPTH := by
  rw [show MAX_CBOR_NESTING_DEPTH = 28 + 4 from rfl, show (28 + 4 : ℕ) = 31 + 1 from rfl,
    Nat.add_le_add_iff_right, syncResponseValue, readDepth_cborMap, List.forall_mem_singleton,
    show (31 : ℕ) = 30 + 1 from rfl, Nat.add_le_add_iff_right, readDepth_array, List.forall_mem_map]
  refine forall₂_congr fun e _ => ?_
  rw [show (30 : ℕ) = 28 + 2 from rfl, Nat.add_le_add_iff_right, readDepth_signed (by decide)]
  omega

/-- A response is signed and decoded exactly when the decoder gets through its envelopes where it
puts them. -/
theorem signEnvelope_response {header : UnsignedEnvelope} {secretKey : ed.SecretKey}
    (hheader : header.Authored secretKey) (h : ∀ e ∈ envelopes, e.Artifact ed) :
    (∃ outer, signEnvelope ed (header.responding (syncResponseValue envelopes)) secretKey
      = .ok outer ∧ verifyArtifact ed outer = .ok outer) ↔
      ∀ e ∈ envelopes, e.body.readDepth + 5 ≤ MAX_CBOR_NESTING_DEPTH := by
  rw [← readDepth_syncResponseValue]
  constructor
  · rintro ⟨outer, houter, hverified⟩
    have hread := (readDepth_signed (by decide)).1 (verifyArtifact_eq_ok.1 hverified).2.reads
    rwa [(signEnvelope_eq_ok.1 houter).2.2.2.2.2.2] at hread
  · intro hread
    have hfits : (syncResponseValue envelopes).FitsAt 1 := by
      rw [fitsAt_syncResponseValue h]
      intro e he
      have hdepth := readDepth_syncResponseValue.1 hread e he
      exact (fitsAt_signed.1 (h e he).fits).2.2.of_readDepth (by omega)
    obtain ⟨unsigned, hunsigned⟩ : ∃ unsigned : UnsignedEnvelope,
        unsigned = header.responding (syncResponseValue envelopes) := ⟨_, rfl⟩
    have hbody : unsigned.body = syncResponseValue envelopes := by rw [hunsigned]; rfl
    rw [← hunsigned]
    rw [← hbody] at hfits hread
    have hsigned : signEnvelope ed unsigned secretKey =
        .ok { unsigned with sig := ed.signEd25519 unsigned.value secretKey } := by
      refine signEnvelope_eq_ok.2 ⟨?_, ?_, ?_, hfits, (Nat.le_succ _).trans hread, ?_, rfl⟩
      · rw [hunsigned]
        exact hheader.seq_le
      · rw [hunsigned]
        exact hheader.round_le
      · rw [hunsigned]
        exact hheader.phase_ne
      · rw [hunsigned]
        exact hheader.sender
    exact ⟨_, hsigned, verifyArtifact_of_artifact (signEnvelope_artifact hsigned hread)⟩

/-! ## The length of a response -/

/-- The bytes of a response around its envelopes: the header without a body, and the list. -/
def syncResponseOverhead (header : UnsignedEnvelope) (count : ℕ) : ℕ :=
  (SignedEnvelope.mk (header.responding (.array [])) (zeroBytes 64)).byteLength
    + textLength "envelopes" + headLength count

/-- The bytes of a response. -/
def syncResponseLength (header : UnsignedEnvelope) (envelopes : List SignedEnvelope) : ℕ :=
  syncResponseOverhead header envelopes.length + totalBytes envelopes

theorem itemsLength_values (envelopes : List SignedEnvelope) :
    itemsLength (envelopes.map SignedEnvelope.value) = totalBytes envelopes := by
  induction envelopes with
  | nil => rfl
  | cons e rest ih =>
      rw [List.map_cons, itemsLength, ih]
      simp [totalBytes, SignedEnvelope.byteLength]

/-- A body adds its own length, and signatures are as long as each other. -/
theorem byteLength_body (unsigned : UnsignedEnvelope) (body : CborValue)
    (sig sig' : Ed25519Signature) :
    (SignedEnvelope.mk { unsigned with body := body } sig).byteLength + 1 =
      (SignedEnvelope.mk { unsigned with body := .array [] } sig').byteLength
        + body.encodedLength := by
  have hsig : (CborValue.bytes sig.val).encodedLength =
      (CborValue.bytes sig'.val).encodedLength := by
    rw [CborValue.encodedLength, CborValue.encodedLength, sig.property, sig'.property]
  have hempty : (CborValue.array []).encodedLength = 1 := rfl
  rw [SignedEnvelope.byteLength, SignedEnvelope.byteLength, SignedEnvelope.value,
    SignedEnvelope.value, encodedLength_cborMap, encodedLength_cborMap]
  simp only [UnsignedEnvelope.entries, List.cons_append, List.nil_append, entriesLength,
    List.length_cons, List.length_nil, hsig, hempty]
  omega

/-- The length of a response, whatever its signature is. -/
theorem byteLength_response (header : UnsignedEnvelope) (sig : Ed25519Signature) :
    (SignedEnvelope.mk (header.responding (syncResponseValue envelopes)) sig).byteLength =
      syncResponseLength header envelopes := by
  have hbody : (SignedEnvelope.mk (header.responding (syncResponseValue envelopes)) sig).byteLength
      + 1 = (SignedEnvelope.mk (header.responding (.array [])) (zeroBytes 64)).byteLength
        + (syncResponseValue envelopes).encodedLength :=
    byteLength_body { header with type := .SYNC_RESP } _ sig _
  have hvalue : (syncResponseValue envelopes).encodedLength =
      1 + (textLength "envelopes" + (headLength envelopes.length + totalBytes envelopes)) := by
    rw [syncResponseValue, encodedLength_cborMap]
    simp only [List.length_singleton, entriesLength, CborValue.encodedLength, List.length_map,
      itemsLength_values]
    rfl
  rw [syncResponseLength, syncResponseOverhead]
  omega

end

/-! ## Serving -/

section

variable {q : ℕ} {G : Type} [AddCommGroup G] [Module (ZMod q) G] {P : Primitives q G}
  {registry : SessionChainRegistry P} {logs : ℕ → List SignedEnvelope} {request : SyncRequestBody}
  {body : SyncResponseBody} {ed : Ed25519}

variable (registry request body) in
/-- What is known of a range that is served. -/
structure Served : Prop where
  request_ok : normalizeRequest request = .ok request
  range_lt : request.toSeq - request.fromSeq < DEFAULT_MAX_SYNC_RANGE_ENVELOPES
  length_eq : body.envelopes.length = request.toSeq - request.fromSeq + 1
  bytes_le : totalBytes body.envelopes ≤ DEFAULT_MAX_SYNC_RESPONSE_BYTES
  range_eq : registry.readRange request.from_ request.fromSeq request.toSeq
    = .ok (.complete body.envelopes)

theorem Served.nonempty (h : Served registry request body) : body.envelopes ≠ [] := by
  intro hnil
  have hlength := h.length_eq
  rw [hnil] at hlength
  cases hlength

theorem served_of_serve (h : serveSyncRequest registry request = .ok (.complete body)) :
    Served registry request body := by
  unfold serveSyncRequest at h
  obtain ⟨normalized, hrequest, hserve⟩ := bind_eq_ok.1 h
  have hnormalized := (normalizeRequest_eq_ok.1 hrequest).1
  rw [hnormalized] at hrequest hserve
  obtain ⟨hrange, hserve⟩ := check_bind_eq_ok.1 hserve
  obtain ⟨range, hread, hserve⟩ := bind_eq_ok.1 hserve
  cases range with
  | complete envelopes =>
      obtain ⟨preflight, hpreflight, hserve⟩ := bind_eq_ok.1 hserve
      cases preflight with
      | valid request' response =>
          cases hserve
          obtain ⟨hsame, rfl⟩ := preflight_parts hpreflight
          rw [(normalizeRequest_eq_ok.1 hsame).1] at hpreflight
          obtain ⟨-, hlt, hlength, hbytes, -⟩ :=
            (preflight_valid_iff hrequest (by decide) (by decide)).1 hpreflight
          exact ⟨hrequest, hlt, hlength, hbytes, hread⟩
      | rejected reason => cases reason <;> cases hserve
  | missing seq => cases hserve
  | unknown_sender => cases hserve

/-- What is served was accepted. -/
theorem Served.mem_log (h : Served registry request body) (hlogs : HoldsLogs registry logs)
    {e : SignedEnvelope} (he : e ∈ body.envelopes) : ∃ seat, e ∈ logs seat := by
  obtain ⟨-, hle, hsafe⟩ := normalizeRequest_eq_ok.1 h.request_ok
  have hread := h.range_eq
  cases hseat : registry.roster.seatOf request.from_ with
  | none =>
      rw [SessionChainRegistry.readRange, throwIf_neg (by omega), ok_bind, throwIf_neg (by omega),
        ok_bind, throwIf_neg (by omega), ok_bind, hseat] at hread
      cases hread
  | some seat =>
      rw [hlogs.readRange hseat hle hsafe] at hread
      split_ifs at hread
      · rw [← SyncRangeResult.complete.inj (Except.ok.inj hread)] at he
        exact ⟨seat, List.mem_of_mem_drop (List.mem_of_mem_take he)⟩
      · cases hread

/-! ## Checking a response -/

theorem checkEnvelopes_ne_limit {gameId : GameId} {index : ℕ} {previous : Option SignedEnvelope}
    {envelopes : List SignedEnvelope} :
    checkEnvelopes P gameId request index previous envelopes ≠ some .limit_exceeded := by
  induction envelopes generalizing index previous with
  | nil => simp [checkEnvelopes]
  | cons e rest ih =>
      unfold checkEnvelopes
      split_ifs
      · simp
      · simp
      · simp
      · simp
      · exact ih

/-- A range that was served is within the limits of whoever checks it. -/
theorem Served.preflight (h : Served registry request body) (registry' : SessionChainRegistry P) :
    ∃ result, preflightSyncResponse registry' request body .default = .ok result ∧
      result ≠ .rejected .limit_exceeded := by
  have hrange := h.range_lt
  have hlength := h.length_eq
  have hwithin := (withinBytes_iff (Nat.zero_le _)).2 ((zero_add _).le.trans h.bytes_le)
  unfold preflightSyncResponse
  rw [throwIf_neg (by decide), ok_bind, throwIf_neg (by decide), ok_bind, h.request_ok, ok_bind]
  dsimp only
  have hcount : ¬ SyncResponseLimits.default.maxEnvelopes < body.envelopes.length := by
    rw [hlength]
    exact not_lt.2 hrange
  rw [if_neg (not_le.2 hrange : ¬ SyncResponseLimits.default.maxEnvelopes ≤ _), if_neg hcount,
    if_neg (not_not.2 hlength)]
  split_ifs with hseat hfit
  · exact ⟨_, rfl, by simp⟩
  · exact absurd (hwithin.symm.trans hfit) (by simp)
  · cases hcheck : checkEnvelopes P registry'.gameId request 0 none body.envelopes with
    | none => exact ⟨_, rfl, by simp⟩
    | some reason =>
        refine ⟨_, rfl, fun heq => ?_⟩
        cases heq
        exact checkEnvelopes_ne_limit hcheck

theorem rejection_ne_limit {result : SessionIngestResult} {reason : String}
    (h : result.rejection = some reason) : reason ≠ "limit_exceeded" := by
  cases result with
  | chain result =>
      cases result <;> cases h <;> decide
  | wrong_game => cases h; decide
  | unknown_sender => cases h; decide

/-- **The checks of a receipt never fail for a limit**, and never for the encoding. -/
theorem Served.checkRange {registry' : SessionChainRegistry P} {outer : SignedEnvelope}
    {outcome : SyncOutcome} (h : Served registry request body)
    (hartifact : ∀ e ∈ body.envelopes, e.Artifact ed) (houter : outer.Artifact ed)
    (htype : outer.type = .SYNC_RESP) (hbody : outer.body = syncResponseValue body.envelopes)
    (hchecked : Tablefolk.checkRange ed .default registry' request outer = .error outcome) :
    ∃ stage index reason, outcome = .stopped stage index reason ∧ reason ≠ "limit_exceeded" := by
  obtain ⟨record, hrecord, hfield⟩ :=
    syncResponse_fields body.envelopes "SYNC_RESP.body"
  have hrange := h.range_lt
  have hlength := h.length_eq
  unfold Tablefolk.checkRange at hchecked
  rw [verifyArtifact_of_artifact houter] at hchecked
  simp only [Except.mapError, ok_bind] at hchecked
  rw [throwIf_neg (not_not.2 htype), ok_bind] at hchecked
  cases hrejection : (registry'.classify outer).rejection with
  | some reason =>
      rw [hrejection] at hchecked
      cases hchecked
      exact ⟨_, _, _, rfl, rejection_ne_limit hrejection⟩
  | none =>
      obtain ⟨result, hresult, hne⟩ := h.preflight registry'
      rw [hrejection, hbody, hrecord] at hchecked
      simp only [ok_bind, hfield, expectArray] at hchecked
      rw [throwIf_neg (by simpa [SyncReceiverLimits.default] using by omega), ok_bind,
        decodeSyncResponseBody_value hartifact h.nonempty] at hchecked
      simp only [ok_bind] at hchecked
      rw [show (⟨SyncReceiverLimits.default.maxEnvelopes,
        SyncReceiverLimits.default.maxResponseBytes⟩ : SyncResponseLimits) = .default from rfl,
        hresult] at hchecked
      cases result with
      | valid => cases hchecked
      | rejected rejection =>
          cases hchecked
          refine ⟨_, _, _, rfl, ?_⟩
          cases rejection with
          | limit_exceeded => exact absurd rfl hne
          | unknown_sender => decide
          | wrong_count => simp [SyncResponseRejection.reason]
          | wrong_game => simp [SyncResponseRejection.reason]
          | wrong_sender => simp [SyncResponseRejection.reason]
          | wrong_sequence => simp [SyncResponseRejection.reason]
          | broken_prev => simp [SyncResponseRejection.reason]

/-! ## What becomes of a response -/

theorem pendingBytes_drain (receiver : PersistentSyncReceiver P) :
    receiver.drain.pendingBytes = receiver.pendingBytes := by
  unfold PersistentSyncReceiver.drain
  split <;> rfl

theorem signed_byteLength_pos (e : SignedEnvelope) : 0 < e.byteLength := by
  rw [SignedEnvelope.byteLength, SignedEnvelope.value, encodedLength_cborMap]
  exact Nat.add_pos_left (by decide : 0 < headLength 10) _

/-- The receiver that has taken the response. -/
def PersistentSyncReceiver.queued (receiver : PersistentSyncReceiver P) (job : PendingResponse) :
    PersistentSyncReceiver P :=
  PersistentSyncReceiver.drain { receiver with
    queue := receiver.queue ++ [job]
    pendingBytes := receiver.pendingBytes + job.outer.byteLength }

/-- A response is taken exactly when its request and it are within the limits. -/
theorem next_eq_queued_iff {limits : SyncReceiverLimits} {receiver : PersistentSyncReceiver P}
    {job : PendingResponse} :
    receiver.next ed limits (.receiveResponse job false false) = receiver.queued job ↔
      receiver.pending < limits.maxPendingResponses ∧
      job.request.toSeq - job.request.fromSeq < limits.maxEnvelopes ∧
      job.outer.byteLength ≤ limits.maxResponseBytes ∧
      job.outer.byteLength ≤ limits.maxPendingBytes - receiver.pendingBytes := by
  have hpos := signed_byteLength_pos job.outer
  have hne : receiver ≠ receiver.queued job := by
    intro heq
    have hbytes := congrArg PersistentSyncReceiver.pendingBytes heq
    rw [PersistentSyncReceiver.queued, pendingBytes_drain] at hbytes
    simp only at hbytes
    omega
  simp only [PersistentSyncReceiver.next]
  split
  · rename_i hrefused
    refine iff_of_false hne ?_
    rintro ⟨hpending, hrange, hbytes, hroom⟩
    rcases hrefused with hrefused | hrefused | hrefused | hrefused | hrefused
    · cases hrefused
    all_goals omega
  · rename_i hrefused
    refine iff_of_true rfl ?_
    simp only [not_or, not_le, not_lt] at hrefused
    exact hrefused.2

variable (ed) in
/-- The response is signed and is what was served; a receiver with its default options takes it, and
whenever it comes to check it, whatever its registry is then, no limit is in its way. -/
structure Received (receiver : PersistentSyncReceiver P) (id : ℕ) (request : SyncRequestBody)
    (body : SyncResponseBody) (header : UnsignedEnvelope) (secretKey : ed.SecretKey)
    (outer : SignedEnvelope) : Prop where
  signed : ∃ value, encodeSyncResponseBody ed body = .ok value ∧
    signEnvelope ed (header.responding value) secretKey = .ok outer
  verified : verifyArtifact ed outer = .ok outer
  decoded : decodeSyncResponseBody ed outer.body = .ok body
  taken : receiver.next ed .default (.receiveResponse ⟨id, outer, request⟩ false false)
    = receiver.queued ⟨id, outer, request⟩
  checked : ∀ (registry' : SessionChainRegistry P) (outcome : SyncOutcome),
    checkRange ed .default registry' request outer = .error outcome →
    ∃ stage index reason, outcome = .stopped stage index reason ∧ reason ≠ "limit_exceeded"

/-- **Which served ranges can be received.**  The range that a registry of verified envelopes serves
can be signed, decoded and taken exactly when the decoder gets through the body of each of its
envelopes five levels down, the whole response is within the limit of a receiver, and the receiver
has room for it.  The limit that is checked when a range is served counts the envelopes only. -/
theorem served_range_received_iff (hlogs : HoldsLogs registry logs)
    (hverified : ∀ seat, ∀ e ∈ logs seat, e.Artifact ed)
    (hserve : serveSyncRequest registry request = .ok (.complete body))
    {header : UnsignedEnvelope} {secretKey : ed.SecretKey} (hheader : header.Authored secretKey)
    (receiver : PersistentSyncReceiver P) (id : ℕ) :
    (∃ outer, Received ed receiver id request body header secretKey outer) ↔
      (∀ e ∈ body.envelopes, e.body.readDepth + 5 ≤ MAX_CBOR_NESTING_DEPTH) ∧
      syncResponseLength header body.envelopes ≤ DEFAULT_MAX_SYNC_RESPONSE_BYTES ∧
      receiver.pending < DEFAULT_MAX_PENDING_SYNC_RESPONSES ∧
      syncResponseLength header body.envelopes ≤
        DEFAULT_MAX_PENDING_SYNC_RESPONSE_BYTES - receiver.pendingBytes := by
  have hserved := served_of_serve hserve
  have hartifact : ∀ e ∈ body.envelopes, e.Artifact ed := fun e he => by
    obtain ⟨seat, hmem⟩ := hserved.mem_log hlogs he
    exact hverified seat e hmem
  have hencode := encodeSyncResponseBody_ok hartifact hserved.nonempty
  -- a signed response has the fields of its header, and its length does not depend on who signs
  have hfields : ∀ outer, signEnvelope ed (header.responding (syncResponseValue body.envelopes))
      secretKey = .ok outer → outer.type = .SYNC_RESP ∧
        outer.body = syncResponseValue body.envelopes ∧
        outer.byteLength = syncResponseLength header body.envelopes := by
    intro outer houter
    obtain ⟨-, -, -, -, -, -, rfl⟩ := signEnvelope_eq_ok.1 houter
    exact ⟨rfl, rfl, byteLength_response header _⟩
  constructor
  · rintro ⟨outer, hreceived⟩
    obtain ⟨value, hvalue, hsigned⟩ := hreceived.signed
    obtain rfl := Except.ok.inj (hencode.symm.trans hvalue)
    obtain ⟨-, -, hlength⟩ := hfields outer hsigned
    obtain ⟨hpending, -, hbytes, hroom⟩ := next_eq_queued_iff.1 hreceived.taken
    rw [hlength] at hbytes hroom
    exact ⟨(signEnvelope_response hheader hartifact).1 ⟨outer, hsigned, hreceived.verified⟩, hbytes,
      hpending, hroom⟩
  · rintro ⟨hread, hbytes, hpending, hroom⟩
    obtain ⟨outer, hsigned, hverified⟩ := (signEnvelope_response hheader hartifact).2 hread
    obtain ⟨htype, hbody, hlength⟩ := hfields outer hsigned
    have houter := (verifyArtifact_eq_ok.1 hverified).2
    refine ⟨outer, ⟨_, hencode, hsigned⟩, hverified, ?_, ?_, ?_⟩
    · rw [hbody]
      exact decodeSyncResponseBody_value hartifact hserved.nonempty
    · refine next_eq_queued_iff.2 ⟨hpending, hserved.range_lt, ?_, ?_⟩
      · rwa [hlength]
      · rwa [hlength]
    · exact fun registry' outcome hchecked =>
        hserved.checkRange hartifact houter htype hbody hchecked

end

/-! ## Two small registries -/

namespace SmallGroup

/-- A registry that has accepted this envelope. -/
def storing (e : SignedEnvelope) : SessionChainRegistry (primitives fun _ => 0) :=
  ((SessionChainRegistry.start game (roster _)).ingest e).2

def firstRequest : SyncRequestBody := ⟨padded 32 [1], 0, 0⟩

/-- An envelope with this many arrays in its body. -/
def nestedEnvelope (depth : ℕ) : SignedEnvelope :=
  envelope 0 0 ZERO_HASH .READY (nestedArrays depth)

def secondHeader : UnsignedEnvelope := (envelope 1 0 ZERO_HASH .SYNC_RESP .null).toUnsignedEnvelope

theorem secondHeader_authored : @UnsignedEnvelope.Authored ed25519 secondHeader (padded 32 [2]) :=
  ⟨by decide, by decide, by decide, rfl⟩

theorem logs_storing {e : SignedEnvelope} (h : e.game = game) (hfrom : e.from_ = padded 32 [1])
    (hseq : e.seq = 0) (hprev : e.prev = ZERO_HASH) :
    HoldsLogs (storing e) (Function.update (fun _ => []) 0 [e]) := by
  have hstart := HoldsLogs.start (P := primitives fun _ => 0) game (roster _)
  have hseat : (roster fun _ => 0).seatOf e.from_ = some 0 := by
    rw [hfrom]
    decide
  obtain ⟨head, hhead⟩ := hstart.classify_accepted.2 ⟨h, 0, hseat, hseq, hprev⟩
  exact hstart.ingest_of_accepted hseat hhead

theorem serve_nested_13 : serveSyncRequest (storing (nestedEnvelope 13)) firstRequest =
    .ok (.complete ⟨[nestedEnvelope 13]⟩) := by decide +kernel

theorem serve_nested_14 : serveSyncRequest (storing (nestedEnvelope 14)) firstRequest =
    .ok (.complete ⟨[nestedEnvelope 14]⟩) := by decide +kernel

/-- These envelopes are verified. -/
theorem nested_artifact {depth : ℕ} (h : verifyArtifact ed25519 (nestedEnvelope depth) =
    .ok (nestedEnvelope depth)) (seat : ℕ) :
    ∀ e ∈ Function.update (fun _ => []) 0 [nestedEnvelope depth] seat, e.Artifact ed25519 := by
  intro e he
  by_cases hseat : seat = 0
  · rw [hseat, Function.update_self, List.mem_singleton] at he
    rw [he]
    exact (verifyArtifact_eq_ok.1 h).2
  · rw [Function.update_of_ne hseat] at he
    cases he

end SmallGroup

open SmallGroup in
/-- A body of thirteen arrays can be received, one of fourteen cannot, though it is served. -/
theorem served_range_received_small :
    (∃ outer, Received (P := primitives fun _ => 0) ed25519 .new 0 firstRequest
      ⟨[nestedEnvelope 13]⟩ secondHeader (padded 32 [2]) outer) ∧
    ¬ ∃ outer, Received (P := primitives fun _ => 0) ed25519 .new 0 firstRequest
      ⟨[nestedEnvelope 14]⟩ secondHeader (padded 32 [2]) outer := by
  constructor
  · refine (served_range_received_iff (logs_storing rfl rfl rfl rfl)
      (nested_artifact (by decide +kernel)) serve_nested_13 secondHeader_authored _ 0).2
      ⟨?_, by decide +kernel, by decide, by decide +kernel⟩
    intro e he
    rw [List.mem_singleton.1 he]
    show (nestedArrays 13).readDepth + 5 ≤ MAX_CBOR_NESTING_DEPTH
    rw [readDepth_nestedArrays]
    decide
  · intro hreceived
    have hread : (nestedArrays 14).readDepth + 5 ≤ MAX_CBOR_NESTING_DEPTH :=
      ((served_range_received_iff (logs_storing rfl rfl rfl rfl)
        (nested_artifact (by decide +kernel)) serve_nested_14 secondHeader_authored _ 0).1
        hreceived).1 _ List.mem_cons_self
    rw [readDepth_nestedArrays] at hread
    exact absurd hread (by decide)

end Tablefolk
