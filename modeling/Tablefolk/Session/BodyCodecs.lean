import Tablefolk.Deck.StatementCodec
import Tablefolk.Deck.WireCodec
import Tablefolk.Session.Lobby

/-!
# The bodies of the session are exact

The encoders of `protocol/lobby.ts` and `protocol/witness.ts` and the codec of a request in
`protocol/sync.ts`, against the decoders.  A value that came from canonical bytes has one body at
most, and the body has that value only.

* `decodeJoinBody_eq_ok`, `decodeRosterBody_eq_ok`, `decodeReadyBody_eq_ok`,
  `decodeSyncRequestBody_eq_ok`, `decodeWitnessBody_eq_ok`: what is accepted.
* `session_bodies_exact`: a decoder returns a body if and only if its encoder returns the value.
-/

namespace Tablefolk

/-! ## The encoders -/

/-- The fields of an encoded JOIN. -/
def joinEntries (body : JoinBody) : CborRecord :=
  [("pk_id", .bytes body.pkId.val), ("rules_hash", .bytes body.rulesHash.val),
    ("client_version", .text body.clientVersion)]

/-- `encodeJoinBody`. -/
def encodeJoinBody (body : JoinBody) : Except ProtocolSchemaError CborValue := do
  let _ ← expectNonEmptyText (.text body.clientVersion) "JOIN.body.client_version"
  return cborMap (joinEntries body)

/-- The identities of a roster, as they are encoded. -/
def seatValues (seats : List IdentityPublicKey) : List CborValue :=
  seats.map fun seat => .bytes seat.val

/-- The fields of an encoded ROSTER. -/
def rosterEntries (body : RosterBody) : CborRecord :=
  [("game_id", .bytes body.gameId.val), ("rules_hash", .bytes body.rulesHash.val),
    ("ice_config_hash", .bytes body.iceConfigHash.val), ("seats", .array (seatValues body.seats))]

/-- `encodeRosterBody`; a body passes the checks of `normalizeRosterBody` by its type. -/
def encodeRosterBody (body : RosterBody) : CborValue := cborMap (rosterEntries body)

/-- `encodeReadyBody`. -/
def encodeReadyBody (body : ReadyBody) : CborValue :=
  cborMap [("roster_hash", .bytes body.rosterHash.val)]

def REQUEST_KEYS : List String := ["from", "from_seq", "to_seq"]

/-- `normalizeRequest` of `protocol/sync.ts`. -/
def normalizeRequestBody (body : SyncRequestBody) : Except ProtocolSchemaError SyncRequestBody := do
  let fromSeq ← expectUnsignedInteger (.int body.fromSeq) "SYNC_REQ.body.from_seq" MAX_SAFE_INTEGER
  let toSeq ← expectUnsignedInteger (.int body.toSeq) "SYNC_REQ.body.to_seq" MAX_SAFE_INTEGER
  throwIf (toSeq < fromSeq) ⟨"SYNC_REQ.body", "from_seq must be less than or equal to to_seq"⟩
  return ⟨body.from_, fromSeq, toSeq⟩

/-- The fields of an encoded SYNC_REQ. -/
def requestEntries (body : SyncRequestBody) : CborRecord :=
  [("from", .bytes body.from_.val), ("from_seq", .int body.fromSeq), ("to_seq", .int body.toSeq)]

/-- `encodeSyncRequestBody`. -/
def encodeSyncRequestBody (body : SyncRequestBody) : Except ProtocolSchemaError CborValue := do
  let normalized ← normalizeRequestBody body
  return cborMap (requestEntries normalized)

/-- `decodeSyncRequestBody`. -/
def decodeSyncRequestBody (value : CborValue) : Except ProtocolSchemaError SyncRequestBody := do
  let body ← expectExactMap value REQUEST_KEYS "SYNC_REQ.body"
  let from_ ← decodeIdentity (field body "from") "SYNC_REQ.body.from"
  let fromSeq ← expectUnsignedInteger (field body "from_seq") "SYNC_REQ.body.from_seq"
    MAX_SAFE_INTEGER
  let toSeq ← expectUnsignedInteger (field body "to_seq") "SYNC_REQ.body.to_seq" MAX_SAFE_INTEGER
  normalizeRequestBody ⟨from_, fromSeq, toSeq⟩

/-- The numbers of the heads, from index `index` on. -/
def checkHeadNumbers (index : ℕ) : List WitnessHead → Except ProtocolSchemaError Unit
  | [] => return ()
  | head :: rest => do
      let _ ← expectUnsignedInteger (.int head.seq)
        (indexed "WITNESS.body.heads" index ++ ".seq") MAX_SAFE_INTEGER
      checkHeadNumbers (index + 1) rest

/-- `normalizeHeads`. -/
def normalizeHeads (heads : List WitnessHead) : Except ProtocolSchemaError (List WitnessHead) := do
  throwIf (MAX_WITNESS_HEADS < heads.length)
    ⟨"WITNESS.body.heads", "must contain at most 8 entries"⟩
  checkHeadNumbers 0 heads
  rejectDuplicateSenders 0 [] heads
  return heads

/-- An encoded head. -/
def headValue (head : WitnessHead) : CborValue :=
  cborMap [("from", .bytes head.from_.val), ("seq", .int head.seq), ("hash", .bytes head.hash.val)]

/-- The fields of an encoded WITNESS. -/
def witnessEntries (body : WitnessBody) : CborRecord :=
  ("heads", .array (body.heads.map headValue)) ::
    (body.stateHash.map fun hash => ("state_hash", CborValue.bytes hash.val)).toList

/-- `encodeWitnessBody`. -/
def encodeWitnessBody (body : WitnessBody) : Except ProtocolSchemaError CborValue := do
  let heads ← normalizeHeads body.heads
  return cborMap (witnessEntries ⟨heads, body.stateHash⟩)

/-! ## Byte strings of a fixed length -/

theorem decodeIdentity_eq_ok {value : CborValue} {path : String} {identity : IdentityPublicKey} :
    decodeIdentity value path = .ok identity ↔ value = .bytes identity.val := by
  unfold decodeIdentity
  constructor
  · intro h
    obtain ⟨bytes, hbytes, h⟩ := bind_eq_ok.1 h
    rw [expectByteString_eq_ok] at hbytes
    cases hread : parseFixedBytes 32 bytes with
    | none =>
        rw [hread] at h
        cases h
    | some fixed =>
        rw [hread] at h
        cases h
        rw [hbytes, parseFixedBytes_eq_some.1 hread]
  · rintro rfl
    rw [expectByteString_eq_ok.2 rfl, ok_bind, parseFixedBytes_val]
    rfl

theorem decodeHash_eq_ok {value : CborValue} {path : String} {hash : Hash256} :
    decodeHash value path = .ok hash ↔ value = .bytes hash.val := by
  unfold decodeHash
  constructor
  · intro h
    obtain ⟨bytes, hbytes, h⟩ := bind_eq_ok.1 h
    rw [expectByteString_eq_ok] at hbytes
    cases hread : parseFixedBytes 32 bytes with
    | none =>
        rw [hread] at h
        cases h
    | some fixed =>
        rw [hread] at h
        cases h
        rw [hbytes, parseFixedBytes_eq_some.1 hread]
  · rintro rfl
    rw [expectByteString_eq_ok.2 rfl, ok_bind, parseFixedBytes_val]
    rfl

theorem decodeGameId_eq_ok {value : CborValue} {path : String} {game : GameId} :
    decodeGameId value path = .ok game ↔ value = .bytes game.val := by
  unfold decodeGameId
  constructor
  · intro h
    obtain ⟨bytes, hbytes, h⟩ := bind_eq_ok.1 h
    rw [expectByteString_eq_ok] at hbytes
    cases hread : parseFixedBytes 16 bytes with
    | none =>
        rw [hread] at h
        cases h
    | some fixed =>
        rw [hread] at h
        cases h
        rw [hbytes, parseFixedBytes_eq_some.1 hread]
  · rintro rfl
    rw [expectByteString_eq_ok.2 rfl, ok_bind, parseFixedBytes_val]
    rfl

/-! ## JOIN and READY -/

/-- The value has exactly the fields of this JOIN. -/
def JoinShape (value : CborValue) (body : JoinBody) : Prop :=
  body.clientVersion ≠ "" ∧ ∃ entries, value = .map entries ∧
    (entries.map Prod.fst).Perm JOIN_KEYS ∧ field entries "pk_id" = .bytes body.pkId.val ∧
    field entries "rules_hash" = .bytes body.rulesHash.val ∧
    field entries "client_version" = .text body.clientVersion

theorem decodeJoinBody_eq_ok {value : CborValue} {body : JoinBody} :
    decodeJoinBody value = .ok body ↔ JoinShape value body := by
  have hkeys : JOIN_KEYS.Nodup := by decide
  unfold decodeJoinBody
  constructor
  · intro h
    obtain ⟨entries, hentries, h⟩ := bind_eq_ok.1 h
    obtain ⟨hvalue, hperm⟩ := (expectExactMap_eq_ok hkeys).1 hentries
    obtain ⟨pkId, hpkId, h⟩ := bind_eq_ok.1 h
    obtain ⟨rulesHash, hrulesHash, h⟩ := bind_eq_ok.1 h
    obtain ⟨version, hversion, h⟩ := bind_eq_ok.1 h
    cases h
    obtain ⟨htext, hnonempty⟩ := expectNonEmptyText_eq_ok.1 hversion
    exact ⟨hnonempty, entries, hvalue, hperm, decodeIdentity_eq_ok.1 hpkId,
      decodeHash_eq_ok.1 hrulesHash, htext⟩
  · rintro ⟨hnonempty, entries, rfl, hperm, hpkId, hrulesHash, hversion⟩
    rw [(expectExactMap_eq_ok hkeys).2 ⟨rfl, hperm⟩, ok_bind, decodeIdentity_eq_ok.2 hpkId,
      ok_bind, decodeHash_eq_ok.2 hrulesHash, ok_bind,
      expectNonEmptyText_eq_ok.2 ⟨hversion, hnonempty⟩]
    rfl

theorem encodeJoinBody_eq_ok {value : CborValue} {body : JoinBody} :
    encodeJoinBody body = .ok value ↔
      body.clientVersion ≠ "" ∧ value = cborMap (joinEntries body) := by
  unfold encodeJoinBody
  constructor
  · intro h
    obtain ⟨text, htext, h⟩ := bind_eq_ok.1 h
    cases h
    obtain ⟨hsame, hnonempty⟩ := expectNonEmptyText_eq_ok.1 htext
    cases hsame
    exact ⟨hnonempty, rfl⟩
  · rintro ⟨hnonempty, rfl⟩
    rw [expectNonEmptyText_eq_ok.2 ⟨rfl, hnonempty⟩]
    rfl

theorem join_exact {value : CborValue} {body : JoinBody} (hordered : value.Ordered) :
    decodeJoinBody value = .ok body ↔ encodeJoinBody body = .ok value := by
  rw [decodeJoinBody_eq_ok, encodeJoinBody_eq_ok]
  constructor
  · rintro ⟨hnonempty, entries, rfl, hperm, hpkId, hrulesHash, hversion⟩
    have hfields := perm_fields (by decide) hperm
    simp only [JOIN_KEYS, List.map_cons, List.map_nil, hpkId, hrulesHash, hversion] at hfields
    exact ⟨hnonempty, map_eq_cborMap hordered hfields⟩
  · rintro ⟨hnonempty, rfl⟩
    exact ⟨hnonempty, _, rfl, ((cborMap_entries _).map Prod.fst).trans (.of_eq rfl), rfl, rfl, rfl⟩

theorem decodeReadyBody_eq_ok {value : CborValue} {body : ReadyBody} :
    decodeReadyBody value = .ok body ↔ ∃ entries, value = .map entries ∧
      (entries.map Prod.fst).Perm READY_KEYS ∧
      field entries "roster_hash" = .bytes body.rosterHash.val := by
  have hkeys : READY_KEYS.Nodup := by decide
  unfold decodeReadyBody
  constructor
  · intro h
    obtain ⟨entries, hentries, h⟩ := bind_eq_ok.1 h
    obtain ⟨hvalue, hperm⟩ := (expectExactMap_eq_ok hkeys).1 hentries
    obtain ⟨rosterHash, hrosterHash, h⟩ := bind_eq_ok.1 h
    cases h
    exact ⟨entries, hvalue, hperm, decodeHash_eq_ok.1 hrosterHash⟩
  · rintro ⟨entries, rfl, hperm, hrosterHash⟩
    rw [(expectExactMap_eq_ok hkeys).2 ⟨rfl, hperm⟩, ok_bind, decodeHash_eq_ok.2 hrosterHash]
    rfl

theorem ready_exact {value : CborValue} {body : ReadyBody} (hordered : value.Ordered) :
    decodeReadyBody value = .ok body ↔ encodeReadyBody body = value := by
  rw [decodeReadyBody_eq_ok]
  constructor
  · rintro ⟨entries, rfl, hperm, hrosterHash⟩
    have hfields := perm_fields (by decide) hperm
    simp only [READY_KEYS, List.map_cons, List.map_nil, hrosterHash] at hfields
    exact (map_eq_cborMap hordered hfields).symm
  · rintro rfl
    exact ⟨_, rfl, .of_eq rfl, rfl⟩

/-! ## ROSTER -/

/-- The loop over the seats returns the identities of the values, when they are new and differ. -/
theorem decodeSeats_eq_ok {seen seats : List IdentityPublicKey} {distinct : seen.Nodup}
    {hseats : seats.Nodup} {values : List CborValue} :
    decodeSeats seen distinct values = .ok ⟨seats, hseats⟩ ↔
      ∃ rest, seats = seen ++ rest ∧ values = seatValues rest := by
  induction values generalizing seen with
  | nil =>
      rw [decodeSeats]
      constructor
      · intro h
        cases h
        exact ⟨[], (List.append_nil _).symm, rfl⟩
      · rintro ⟨rest, rfl, hvalues⟩
        have hrest : rest = [] := by
          cases rest with
          | nil => rfl
          | cons seat rest => cases hvalues
        subst hrest
        simp
  | cons candidate values ih =>
      rw [decodeSeats]
      constructor
      · intro h
        obtain ⟨seat, hseat, h⟩ := bind_eq_ok.1 h
        rw [decodeIdentity_eq_ok] at hseat
        split_ifs at h
        obtain ⟨rest, hrest, hvalues⟩ := ih.1 h
        refine ⟨seat :: rest, ?_, ?_⟩
        · rw [hrest, List.append_assoc, List.singleton_append]
        · rw [hvalues, hseat]
          rfl
      · rintro ⟨rest, hrest, hvalues⟩
        cases rest with
        | nil => cases hvalues
        | cons seat rest =>
            rw [seatValues, List.map_cons, List.cons.injEq] at hvalues
            obtain ⟨hseat, hvalues⟩ := hvalues
            have hfresh : seat ∉ seen := by
              intro hmem
              rw [hrest] at hseats
              exact (List.nodup_append.1 hseats).2.2 seat hmem seat (by simp) rfl
            rw [decodeIdentity_eq_ok.2 hseat, ok_bind, dif_neg hfresh]
            refine ih.2 ⟨rest, ?_, hvalues⟩
            rw [hrest, List.append_assoc, List.singleton_append]

/-- The value has exactly the fields of this ROSTER. -/
def RosterShape (value : CborValue) (body : RosterBody) : Prop :=
  ∃ entries, value = .map entries ∧ (entries.map Prod.fst).Perm ROSTER_KEYS ∧
    field entries "game_id" = .bytes body.gameId.val ∧
    field entries "rules_hash" = .bytes body.rulesHash.val ∧
    field entries "ice_config_hash" = .bytes body.iceConfigHash.val ∧
    field entries "seats" = .array (seatValues body.seats)

theorem decodeRosterBody_eq_ok {value : CborValue} {body : RosterBody} :
    decodeRosterBody value = .ok body ↔ RosterShape value body := by
  have hkeys : ROSTER_KEYS.Nodup := by decide
  unfold decodeRosterBody
  constructor
  · intro h
    obtain ⟨entries, hentries, h⟩ := bind_eq_ok.1 h
    obtain ⟨hvalue, hperm⟩ := (expectExactMap_eq_ok hkeys).1 hentries
    obtain ⟨gameId, hgameId, h⟩ := bind_eq_ok.1 h
    obtain ⟨rulesHash, hrulesHash, h⟩ := bind_eq_ok.1 h
    obtain ⟨iceConfigHash, hiceConfigHash, h⟩ := bind_eq_ok.1 h
    obtain ⟨candidates, hcandidates, h⟩ := bind_eq_ok.1 h
    obtain ⟨_, -, h⟩ := bind_eq_ok.1 h
    obtain ⟨⟨seats, distinct⟩, hseats, h⟩ := bind_eq_ok.1 h
    simp only at h
    split_ifs at h
    cases h
    obtain ⟨rest, hrest, hvalues⟩ := decodeSeats_eq_ok.1 hseats
    rw [List.nil_append] at hrest
    subst hrest
    refine ⟨entries, hvalue, hperm, decodeGameId_eq_ok.1 hgameId, decodeHash_eq_ok.1 hrulesHash,
      decodeHash_eq_ok.1 hiceConfigHash, ?_⟩
    rw [expectArray_eq_ok.1 hcandidates, hvalues]
  · rintro ⟨entries, rfl, hperm, hgameId, hrulesHash, hiceConfigHash, hseats⟩
    have hlength : (seatValues body.seats).length = body.seats.length := List.length_map ..
    have hone := body.one_le
    have height := body.le_eight
    have hread : decodeSeats [] List.nodup_nil (seatValues body.seats) =
        .ok ⟨body.seats, body.distinct⟩ := decodeSeats_eq_ok.2 ⟨body.seats, rfl, rfl⟩
    rw [(expectExactMap_eq_ok hkeys).2 ⟨rfl, hperm⟩, ok_bind, decodeGameId_eq_ok.2 hgameId, ok_bind,
      decodeHash_eq_ok.2 hrulesHash, ok_bind, decodeHash_eq_ok.2 hiceConfigHash, ok_bind,
      expectArray_eq_ok.2 hseats, ok_bind, throwIf_neg (by rw [hlength]; omega), ok_bind,
      hread, ok_bind]
    simp only
    rw [dif_pos ⟨hone, height⟩]
    rfl

theorem roster_exact {value : CborValue} {body : RosterBody} (hordered : value.Ordered) :
    decodeRosterBody value = .ok body ↔ encodeRosterBody body = value := by
  rw [decodeRosterBody_eq_ok]
  constructor
  · rintro ⟨entries, rfl, hperm, hgameId, hrulesHash, hiceConfigHash, hseats⟩
    have hfields := perm_fields (by decide) hperm
    simp only [ROSTER_KEYS, List.map_cons, List.map_nil, hgameId, hrulesHash, hiceConfigHash,
      hseats] at hfields
    exact (map_eq_cborMap hordered hfields).symm
  · rintro rfl
    exact ⟨_, rfl, ((cborMap_entries _).map Prod.fst).trans (.of_eq rfl), rfl, rfl, rfl, rfl⟩

/-! ## SYNC_REQ -/

theorem normalizeRequestBody_eq_ok {body normalized : SyncRequestBody} :
    normalizeRequestBody body = .ok normalized ↔
      normalized = body ∧ body.fromSeq ≤ body.toSeq ∧ body.toSeq ≤ MAX_SAFE_INTEGER := by
  unfold normalizeRequestBody
  constructor
  · intro h
    obtain ⟨fromSeq, hfromSeq, h⟩ := bind_eq_ok.1 h
    obtain ⟨toSeq, htoSeq, h⟩ := bind_eq_ok.1 h
    rw [check_bind_eq_ok, throwIf_eq_ok, not_lt] at h
    obtain ⟨hle, h⟩ := h
    obtain ⟨hfrom, -⟩ := expectUnsignedInteger_eq_ok.1 hfromSeq
    obtain ⟨hto, hsafe⟩ := expectUnsignedInteger_eq_ok.1 htoSeq
    simp only [CborValue.int.injEq, Nat.cast_inj] at hfrom hto
    subst hfrom
    subst hto
    cases h
    exact ⟨rfl, hle, hsafe⟩
  · rintro ⟨rfl, hle, hsafe⟩
    rw [expectUnsignedInteger_of_le (hle.trans hsafe), ok_bind, expectUnsignedInteger_of_le hsafe,
      ok_bind, throwIf_neg (not_lt.2 hle)]
    rfl

/-- The value has exactly the fields of this SYNC_REQ. -/
def RequestShape (value : CborValue) (body : SyncRequestBody) : Prop :=
  body.fromSeq ≤ body.toSeq ∧ body.toSeq ≤ MAX_SAFE_INTEGER ∧ ∃ entries, value = .map entries ∧
    (entries.map Prod.fst).Perm REQUEST_KEYS ∧ field entries "from" = .bytes body.from_.val ∧
    field entries "from_seq" = .int body.fromSeq ∧ field entries "to_seq" = .int body.toSeq

theorem decodeSyncRequestBody_eq_ok {value : CborValue} {body : SyncRequestBody} :
    decodeSyncRequestBody value = .ok body ↔ RequestShape value body := by
  have hkeys : REQUEST_KEYS.Nodup := by decide
  unfold decodeSyncRequestBody
  constructor
  · intro h
    obtain ⟨entries, hentries, h⟩ := bind_eq_ok.1 h
    obtain ⟨hvalue, hperm⟩ := (expectExactMap_eq_ok hkeys).1 hentries
    obtain ⟨from_, hfrom, h⟩ := bind_eq_ok.1 h
    obtain ⟨fromSeq, hfromSeq, h⟩ := bind_eq_ok.1 h
    obtain ⟨toSeq, htoSeq, h⟩ := bind_eq_ok.1 h
    obtain ⟨rfl, hle, hsafe⟩ := normalizeRequestBody_eq_ok.1 h
    exact ⟨hle, hsafe, entries, hvalue, hperm, decodeIdentity_eq_ok.1 hfrom,
      (expectUnsignedInteger_eq_ok.1 hfromSeq).1, (expectUnsignedInteger_eq_ok.1 htoSeq).1⟩
  · rintro ⟨hle, hsafe, entries, rfl, hperm, hfrom, hfromSeq, htoSeq⟩
    rw [(expectExactMap_eq_ok hkeys).2 ⟨rfl, hperm⟩, ok_bind, decodeIdentity_eq_ok.2 hfrom,
      ok_bind, expectUnsignedInteger_eq_ok.2 ⟨hfromSeq, hle.trans hsafe⟩, ok_bind,
      expectUnsignedInteger_eq_ok.2 ⟨htoSeq, hsafe⟩, ok_bind]
    exact normalizeRequestBody_eq_ok.2 ⟨rfl, hle, hsafe⟩

theorem encodeSyncRequestBody_eq_ok {value : CborValue} {body : SyncRequestBody} :
    encodeSyncRequestBody body = .ok value ↔ body.fromSeq ≤ body.toSeq ∧
      body.toSeq ≤ MAX_SAFE_INTEGER ∧ value = cborMap (requestEntries body) := by
  unfold encodeSyncRequestBody
  constructor
  · intro h
    obtain ⟨normalized, hnormalized, hvalue⟩ := bind_eq_ok.1 h
    obtain ⟨hsame, hle, hsafe⟩ := normalizeRequestBody_eq_ok.1 hnormalized
    cases hvalue
    exact ⟨hle, hsafe, by rw [hsame]⟩
  · rintro ⟨hle, hsafe, rfl⟩
    rw [normalizeRequestBody_eq_ok.2 ⟨rfl, hle, hsafe⟩]
    rfl

theorem request_exact {value : CborValue} {body : SyncRequestBody} (hordered : value.Ordered) :
    decodeSyncRequestBody value = .ok body ↔ encodeSyncRequestBody body = .ok value := by
  rw [decodeSyncRequestBody_eq_ok, encodeSyncRequestBody_eq_ok]
  constructor
  · rintro ⟨hle, hsafe, entries, rfl, hperm, hfrom, hfromSeq, htoSeq⟩
    have hfields := perm_fields (by decide) hperm
    simp only [REQUEST_KEYS, List.map_cons, List.map_nil, hfrom, hfromSeq, htoSeq] at hfields
    exact ⟨hle, hsafe, map_eq_cborMap hordered hfields⟩
  · rintro ⟨hle, hsafe, rfl⟩
    exact ⟨hle, hsafe, _, rfl, ((cborMap_entries _).map Prod.fst).trans (.of_eq rfl), rfl, rfl, rfl⟩

/-! ## WITNESS -/

theorem rejectDuplicateSenders_eq_ok {index : ℕ} {senders : List IdentityPublicKey}
    {heads : List WitnessHead} : rejectDuplicateSenders index senders heads = .ok () ↔
      (heads.map ChainHead.from_).Nodup ∧ ∀ head ∈ heads, head.from_ ∉ senders := by
  induction heads generalizing index senders with
  | nil => simp [rejectDuplicateSenders, except_pure_eq]
  | cons head rest ih =>
      rw [rejectDuplicateSenders, check_bind_eq_ok, throwIf_eq_ok, ih, List.map_cons,
        List.nodup_cons, List.forall_mem_cons]
      constructor
      · rintro ⟨hhead, hnodup, hrest⟩
        refine ⟨⟨fun hmem => ?_, hnodup⟩, hhead, fun other hother hmem => ?_⟩
        · obtain ⟨other, hother, hsame⟩ := List.mem_map.1 hmem
          exact hrest other hother (hsame ▸ List.mem_cons_self)
        · exact hrest other hother (List.mem_cons_of_mem _ hmem)
      · rintro ⟨⟨hfresh, hnodup⟩, hhead, hrest⟩
        refine ⟨hhead, hnodup, fun other hother hmem => ?_⟩
        rcases List.mem_cons.1 hmem with hsame | hmem
        · exact hfresh (hsame ▸ List.mem_map_of_mem hother)
        · exact hrest other hother hmem

theorem checkHeadNumbers_eq_ok {index : ℕ} {heads : List WitnessHead} :
    checkHeadNumbers index heads = .ok () ↔ ∀ head ∈ heads, head.seq ≤ MAX_SAFE_INTEGER := by
  induction heads generalizing index with
  | nil => simp [checkHeadNumbers, except_pure_eq]
  | cons head rest ih =>
      rw [checkHeadNumbers, List.forall_mem_cons]
      constructor
      · intro h
        obtain ⟨seq, hseq, h⟩ := bind_eq_ok.1 h
        obtain ⟨hsame, hsafe⟩ := expectUnsignedInteger_eq_ok.1 hseq
        simp only [CborValue.int.injEq, Nat.cast_inj] at hsame
        exact ⟨hsame ▸ hsafe, ih.1 h⟩
      · rintro ⟨hhead, hrest⟩
        rw [expectUnsignedInteger_of_le hhead, ok_bind]
        exact ih.2 hrest

/-- A body that passes the checks: at most eight heads, of different senders. -/
structure WitnessOk (body : WitnessBody) : Prop where
  length_le : body.heads.length ≤ MAX_WITNESS_HEADS
  seq_le : ∀ head ∈ body.heads, head.seq ≤ MAX_SAFE_INTEGER
  senders : (body.heads.map ChainHead.from_).Nodup

theorem encodeWitnessBody_eq_ok {value : CborValue} {body : WitnessBody} :
    encodeWitnessBody body = .ok value ↔
      WitnessOk body ∧ value = cborMap (witnessEntries body) := by
  unfold encodeWitnessBody normalizeHeads
  constructor
  · intro h
    obtain ⟨heads, hheads, h⟩ := bind_eq_ok.1 h
    rw [check_bind_eq_ok, throwIf_eq_ok, not_lt] at hheads
    obtain ⟨hlength, hheads⟩ := hheads
    obtain ⟨_, hnumbers, hheads⟩ := bind_eq_ok.1 hheads
    obtain ⟨_, hsenders, hheads⟩ := bind_eq_ok.1 hheads
    cases hheads
    cases h
    exact ⟨⟨hlength, checkHeadNumbers_eq_ok.1 hnumbers,
      (rejectDuplicateSenders_eq_ok.1 hsenders).1⟩, rfl⟩
  · rintro ⟨hok, rfl⟩
    have hsenders : rejectDuplicateSenders 0 [] body.heads = .ok () :=
      rejectDuplicateSenders_eq_ok.2 ⟨hok.senders, by simp⟩
    have hnumbers : checkHeadNumbers 0 body.heads = .ok () := checkHeadNumbers_eq_ok.2 hok.seq_le
    rw [throwIf_neg (not_lt.2 hok.length_le), ok_bind, hnumbers, ok_bind, hsenders]
    rfl

/-- The value is a map with exactly the fields of this head. -/
def HeadShape (value : CborValue) (head : WitnessHead) : Prop :=
  head.seq ≤ MAX_SAFE_INTEGER ∧ ∃ entries, value = .map entries ∧
    (entries.map Prod.fst).Perm ["from", "seq", "hash"] ∧
    field entries "from" = .bytes head.from_.val ∧ field entries "seq" = .int head.seq ∧
    field entries "hash" = .bytes head.hash.val

theorem decodeWitnessHeads_eq_ok {index : ℕ} {values : List CborValue}
    {heads : List WitnessHead} :
    decodeWitnessHeads index values = .ok heads ↔ List.Forall₂ HeadShape values heads := by
  have hkeys : ["from", "seq", "hash"].Nodup := by decide
  induction values generalizing index heads with
  | nil =>
      rw [decodeWitnessHeads, except_pure_eq]
      constructor
      · intro h
        cases h
        exact .nil
      · intro h
        cases h
        rfl
  | cons candidate rest ih =>
      rw [decodeWitnessHeads]
      constructor
      · intro h
        obtain ⟨entries, hentries, h⟩ := bind_eq_ok.1 h
        obtain ⟨hvalue, hperm⟩ := (expectExactMap_eq_ok hkeys).1 hentries
        obtain ⟨from_, hfrom, h⟩ := bind_eq_ok.1 h
        obtain ⟨seq, hseq, h⟩ := bind_eq_ok.1 h
        obtain ⟨hash, hhash, h⟩ := bind_eq_ok.1 h
        obtain ⟨others, hothers, h⟩ := bind_eq_ok.1 h
        cases h
        obtain ⟨hnumber, hsafe⟩ := expectUnsignedInteger_eq_ok.1 hseq
        exact .cons ⟨hsafe, entries, hvalue, hperm, decodeIdentity_eq_ok.1 hfrom, hnumber,
          decodeHash_eq_ok.1 hhash⟩ (ih.1 hothers)
      · intro h
        cases h with
        | cons hshape hrest =>
            obtain ⟨hsafe, entries, rfl, hperm, hfrom, hseq, hhash⟩ := hshape
            rw [(expectExactMap_eq_ok hkeys).2 ⟨rfl, hperm⟩, ok_bind, decodeIdentity_eq_ok.2 hfrom,
              ok_bind, expectUnsignedInteger_eq_ok.2 ⟨hseq, hsafe⟩, ok_bind,
              decodeHash_eq_ok.2 hhash, ok_bind, ih.2 hrest]
            rfl

theorem HeadShape.value_eq {value : CborValue} {head : WitnessHead} (h : HeadShape value head)
    (hordered : value.Ordered) : value = headValue head := by
  obtain ⟨-, entries, rfl, hperm, hfrom, hseq, hhash⟩ := h
  have hfields := perm_fields (by decide) hperm
  simp only [List.map_cons, List.map_nil, hfrom, hseq, hhash] at hfields
  exact map_eq_cborMap hordered hfields

theorem HeadShape.values_eq {values : List CborValue} {heads : List WitnessHead}
    (h : List.Forall₂ HeadShape values heads) (hordered : OrderedItems values) :
    values = heads.map headValue := by
  induction h with
  | nil => rfl
  | cons hshape _ ih => rw [hshape.value_eq hordered.1, ih hordered.2, List.map_cons]

theorem HeadShape.seq_le {values : List CborValue} {heads : List WitnessHead}
    (h : List.Forall₂ HeadShape values heads) : ∀ head ∈ heads, head.seq ≤ MAX_SAFE_INTEGER := by
  induction h with
  | nil => simp
  | cons hshape _ ih =>
      intro head hhead
      rcases List.mem_cons.1 hhead with rfl | hhead
      · exact hshape.1
      · exact ih head hhead

theorem headShapes {heads : List WitnessHead} (h : ∀ head ∈ heads, head.seq ≤ MAX_SAFE_INTEGER) :
    List.Forall₂ HeadShape (heads.map headValue) heads := by
  induction heads with
  | nil => exact .nil
  | cons head rest ih =>
      rw [List.forall_mem_cons] at h
      refine .cons ⟨h.1, _, rfl, ((cborMap_entries _).map Prod.fst).trans (.of_eq rfl), ?_, ?_, ?_⟩
        (ih h.2)
      all_goals
        rw [field_cborMap (by simp)]
        rfl

/-- The value has exactly the fields of this WITNESS. -/
def WitnessShape (value : CborValue) (body : WitnessBody) : Prop :=
  ∃ entries values, value = .map entries ∧
    (entries.map Prod.fst).Perm ((witnessEntries body).map Prod.fst) ∧
    field entries "heads" = .array values ∧ List.Forall₂ HeadShape values body.heads ∧
    ∀ hash, body.stateHash = some hash → field entries "state_hash" = .bytes hash.val

theorem hasMapKey_of_perm {entries : CborRecord} {keys : List String} {key : String}
    (h : (entries.map Prod.fst).Perm keys) : hasMapKey (.map entries) key = true ↔ key ∈ keys := by
  rw [← h.mem_iff]
  simp [hasMapKey]

theorem decodeWitnessBody_eq_ok {value : CborValue} {body : WitnessBody} :
    decodeWitnessBody value = .ok body ↔ WitnessOk body ∧ WitnessShape value body := by
  have hkeys : ∀ state : Bool, (if state then ["heads", "state_hash"] else ["heads"]).Nodup := by
    decide
  unfold decodeWitnessBody
  constructor
  · intro h
    obtain ⟨entries, hentries, h⟩ := bind_eq_ok.1 h
    obtain ⟨hvalue, hperm⟩ := (expectExactMap_eq_ok (hkeys _)).1 hentries
    obtain ⟨values, hvalues, h⟩ := bind_eq_ok.1 h
    rw [check_bind_eq_ok, throwIf_eq_ok, not_lt] at h
    obtain ⟨hlength, h⟩ := h
    obtain ⟨heads, hheads, h⟩ := bind_eq_ok.1 h
    obtain ⟨_, hsenders, h⟩ := bind_eq_ok.1 h
    rw [decodeWitnessHeads_eq_ok] at hheads
    have hcount : values.length = heads.length := hheads.length_eq
    have hsafe := HeadShape.seq_le hheads
    have hok : ∀ stateHash, WitnessOk ⟨heads, stateHash⟩ := fun stateHash =>
      ⟨hcount ▸ hlength, hsafe, (rejectDuplicateSenders_eq_ok.1 hsenders).1⟩
    cases hstate : hasMapKey value "state_hash" with
    | true =>
        rw [hstate] at h hperm
        obtain ⟨hash, hhash, h⟩ := bind_eq_ok.1 h
        cases h
        refine ⟨hok _, entries, values, hvalue, hperm, expectArray_eq_ok.1 hvalues, hheads, ?_⟩
        rintro _ ⟨⟩
        exact decodeHash_eq_ok.1 hhash
    | false =>
        rw [hstate] at h hperm
        cases h
        exact ⟨hok _, entries, values, hvalue, hperm, expectArray_eq_ok.1 hvalues, hheads,
          fun _ hnone => by cases hnone⟩
  · rintro ⟨hok, entries, values, rfl, hperm, hvalues, hheads, hhash⟩
    obtain ⟨heads, stateHash⟩ := body
    have hcount : values.length = heads.length := hheads.length_eq
    have hlength : ¬ MAX_WITNESS_HEADS < values.length := by
      rw [hcount]
      exact not_lt.2 hok.length_le
    have hsenders : rejectDuplicateSenders 0 [] heads = .ok () :=
      rejectDuplicateSenders_eq_ok.2 ⟨hok.senders, by simp⟩
    have hread : decodeWitnessHeads 0 values = .ok heads := decodeWitnessHeads_eq_ok.2 hheads
    cases stateHash with
    | none =>
        have hstate : hasMapKey (.map entries) "state_hash" = false := by
          rw [← Bool.not_eq_true, hasMapKey_of_perm hperm]
          simp [witnessEntries]
        have hperm : (entries.map Prod.fst).Perm ["heads"] := hperm
        rw [hstate]
        simp only [Bool.false_eq_true, if_false]
        rw [(expectExactMap_eq_ok (by decide)).2 ⟨rfl, hperm⟩, ok_bind, expectArray_eq_ok.2 hvalues,
          ok_bind, throwIf_neg hlength, ok_bind, hread, ok_bind, hsenders]
        rfl
    | some hash =>
        have hstate : hasMapKey (.map entries) "state_hash" = true := by
          rw [hasMapKey_of_perm hperm]
          simp [witnessEntries]
        have hperm : (entries.map Prod.fst).Perm ["heads", "state_hash"] := hperm
        rw [hstate]
        simp only [if_true]
        rw [(expectExactMap_eq_ok (by decide)).2 ⟨rfl, hperm⟩, ok_bind, expectArray_eq_ok.2 hvalues,
          ok_bind, throwIf_neg hlength, ok_bind, hread, ok_bind, hsenders, ok_bind,
          decodeHash_eq_ok.2 (hhash hash rfl)]
        rfl

theorem witness_exact {value : CborValue} {body : WitnessBody} (hordered : value.Ordered) :
    decodeWitnessBody value = .ok body ↔ encodeWitnessBody body = .ok value := by
  rw [decodeWitnessBody_eq_ok, encodeWitnessBody_eq_ok]
  refine and_congr_right fun hok => ?_
  obtain ⟨heads, stateHash⟩ := body
  have hkeys : ((witnessEntries ⟨heads, stateHash⟩).map Prod.fst).Nodup := by
    cases stateHash <;> simp [witnessEntries]
  constructor
  · rintro ⟨entries, values, rfl, hperm, hvalues, hheads, hhash⟩
    have hfields := perm_fields hkeys hperm
    have hitems : OrderedItems values := by
      refine orderedEntries_iff.1 hordered.2 ("heads", .array values) (hfields.mem_iff.2 ?_)
      simp [witnessEntries, hvalues]
    have hsame := HeadShape.values_eq hheads hitems
    rw [hsame] at hvalues
    cases stateHash with
    | none =>
        simp only [witnessEntries, Option.map_none, Option.toList_none, List.map_cons,
          List.map_nil, hvalues] at hfields
        exact map_eq_cborMap hordered hfields
    | some hash =>
        have hstate := hhash hash rfl
        simp only [witnessEntries, Option.map_some, Option.toList_some, List.map_cons,
          List.map_nil, hvalues, hstate] at hfields
        exact map_eq_cborMap hordered hfields
  · rintro rfl
    refine ⟨_, heads.map headValue, rfl, (cborMap_entries _).map Prod.fst, ?_,
      headShapes hok.seq_le, ?_⟩
    · rw [field_cborMap hkeys]
      rfl
    · rintro hash ⟨⟩
      rw [field_cborMap hkeys]
      rfl

/-- **The bodies of the session are exact.**  Of a value with its keys in canonical order, as every
decoded value has them, the decoder of JOIN, ROSTER, READY, SYNC_REQ and WITNESS returns a body if
and only if the encoder returns the value for this body. -/
theorem session_bodies_exact (value : CborValue) (hordered : value.Ordered) :
    (∀ body, decodeJoinBody value = .ok body ↔ encodeJoinBody body = .ok value) ∧
    (∀ body, decodeRosterBody value = .ok body ↔ encodeRosterBody body = value) ∧
    (∀ body, decodeReadyBody value = .ok body ↔ encodeReadyBody body = value) ∧
    (∀ body, decodeSyncRequestBody value = .ok body ↔ encodeSyncRequestBody body = .ok value) ∧
    ∀ body, decodeWitnessBody value = .ok body ↔ encodeWitnessBody body = .ok value :=
  ⟨fun _ => join_exact hordered, fun _ => roster_exact hordered, fun _ => ready_exact hordered,
    fun _ => request_exact hordered, fun _ => witness_exact hordered⟩

open SmallGroup in
/-- A roster of four seats, the JOIN of one of them and a WITNESS of two heads are read back. -/
theorem session_bodies_exact_small :
    let roster : RosterBody := ⟨padded 16 [1], padded 32 [2], padded 32 [3],
      [padded 32 [4], padded 32 [5], padded 32 [6], padded 32 [7]], by decide, by decide, by decide⟩
    let join : JoinBody := ⟨padded 32 [4], padded 32 [2], "1.0.0"⟩
    let witness : WitnessBody :=
      ⟨[⟨padded 32 [4], 7, padded 32 [8]⟩, ⟨padded 32 [5], 0, padded 32 [9]⟩], some (padded 32 [10])⟩
    decodeRosterBody (encodeRosterBody roster) = .ok roster ∧
      (∃ value, encodeJoinBody join = .ok value ∧ decodeJoinBody value = .ok join) ∧
      ∃ value, encodeWitnessBody witness = .ok value ∧ decodeWitnessBody value = .ok witness := by
  intro roster join witness
  have hroster : (encodeRosterBody roster).Ordered :=
    ordered_cborMap (by decide) (by simp [rosterEntries, seatValues, roster, CborValue.Ordered,
      OrderedItems])
  have hjoin : (cborMap (joinEntries join)).Ordered :=
    ordered_cborMap (by decide) (by simp [joinEntries, CborValue.Ordered])
  have hhead (head : WitnessHead) : (headValue head).Ordered :=
    ordered_cborMap (by simp) (by simp [CborValue.Ordered])
  have hwitness : (cborMap (witnessEntries witness)).Ordered :=
    ordered_cborMap (by simp [witnessEntries, witness])
      (by simp [witnessEntries, witness, CborValue.Ordered, OrderedItems, hhead])
  have hjoined : encodeJoinBody join = .ok (cborMap (joinEntries join)) :=
    encodeJoinBody_eq_ok.2 ⟨by decide, rfl⟩
  have hsaid : encodeWitnessBody witness = .ok (cborMap (witnessEntries witness)) :=
    encodeWitnessBody_eq_ok.2 ⟨⟨by decide, by decide, by decide⟩, rfl⟩
  exact ⟨((session_bodies_exact _ hroster).2.1 roster).2 rfl,
    ⟨_, hjoined, ((session_bodies_exact _ hjoin).1 join).2 hjoined⟩,
    ⟨_, hsaid, ((session_bodies_exact _ hwitness).2.2.2.2 witness).2 hsaid⟩⟩

end Tablefolk
