import Tablefolk.Session.Sync

/-!
# The lobby

The model of `protocol/lobby.ts` and of `session/lobby-bootstrap.ts`.

Before a game has a roster its players join a lobby: every identity has a sender chain,
the host publishes rosters, and members declare themselves ready for one roster hash.
When every seat of the current roster is ready, the lobby is finalized into a session
registry.

A call may throw after it has changed the registry, so a transition returns what it
reports or throws, together with the registry it leaves behind.
-/

namespace Tablefolk

/-! ## Lobby bodies -/

def MAX_LOBBY_SEATS : ℕ := 8

/-- `MIN_SESSION_SEATS`. -/
def MIN_SESSION_SEATS : ℕ := 3

/-- `JoinBody`. -/
structure JoinBody where
  pkId : IdentityPublicKey
  rulesHash : Hash256
  clientVersion : String
  deriving DecidableEq

/-- `RosterBody`, normalized: between one and eight different seats. -/
structure RosterBody where
  gameId : GameId
  rulesHash : Hash256
  iceConfigHash : Hash256
  seats : List IdentityPublicKey
  one_le : 1 ≤ seats.length
  le_eight : seats.length ≤ MAX_LOBBY_SEATS
  distinct : seats.Nodup

instance : DecidableEq RosterBody := fun a b =>
  decidable_of_iff (a.gameId = b.gameId ∧ a.rulesHash = b.rulesHash ∧
    a.iceConfigHash = b.iceConfigHash ∧ a.seats = b.seats) ⟨fun h => by
      cases a
      cases b
      obtain ⟨rfl, rfl, rfl, rfl⟩ := h
      rfl, fun h => h ▸ ⟨rfl, rfl, rfl, rfl⟩⟩

/-- `ReadyBody`. -/
structure ReadyBody where
  rosterHash : Hash256
  deriving DecidableEq

def JOIN_KEYS : List String := ["pk_id", "rules_hash", "client_version"]

def ROSTER_KEYS : List String := ["game_id", "rules_hash", "ice_config_hash", "seats"]

def READY_KEYS : List String := ["roster_hash"]

/-- `decodeGameId`. -/
def decodeGameId (value : CborValue) (path : String) : Except ProtocolSchemaError GameId := do
  let bytes ← expectByteString value path
  match parseFixedBytes 16 bytes with
  | some fixed => return fixed
  | none => throw ⟨path, "must be a 16-byte game identifier"⟩

/-- `decodeJoinBody`. -/
def decodeJoinBody (value : CborValue) : Except ProtocolSchemaError JoinBody := do
  let body ← expectExactMap value JOIN_KEYS "JOIN.body"
  let pkId ← decodeIdentity (field body "pk_id") "JOIN.body.pk_id"
  let rulesHash ← decodeHash (field body "rules_hash") "JOIN.body.rules_hash"
  let clientVersion ← expectNonEmptyText (field body "client_version") "JOIN.body.client_version"
  return ⟨pkId, rulesHash, clientVersion⟩

/-- The loop over the seats of a roster: the identities, in order and none twice. -/
def decodeSeats (seen : List IdentityPublicKey) (distinct : seen.Nodup) :
    List CborValue →
      Except ProtocolSchemaError { seats : List IdentityPublicKey // seats.Nodup }
  | [] => .ok ⟨seen, distinct⟩
  | candidate :: rest => do
      let seat ← decodeIdentity candidate (indexed "ROSTER.body.seats" seen.length)
      if hseen : seat ∈ seen then
        throw ⟨"ROSTER.body.seats",
          "contains duplicate identity at index " ++ toString seen.length⟩
      else
        decodeSeats (seen ++ [seat]) (List.nodup_append.2 ⟨distinct, List.nodup_singleton _,
          fun _ hx _ hy => by
            rw [List.mem_singleton.1 hy]
            exact fun h => hseen (h ▸ hx)⟩) rest

/-- `decodeRosterBody`. -/
def decodeRosterBody (value : CborValue) : Except ProtocolSchemaError RosterBody := do
  let body ← expectExactMap value ROSTER_KEYS "ROSTER.body"
  let gameId ← decodeGameId (field body "game_id") "ROSTER.body.game_id"
  let rulesHash ← decodeHash (field body "rules_hash") "ROSTER.body.rules_hash"
  let iceConfigHash ← decodeHash (field body "ice_config_hash") "ROSTER.body.ice_config_hash"
  let candidates ← expectArray (field body "seats") "ROSTER.body.seats"
  throwIf (candidates.length = 0 ∨ MAX_LOBBY_SEATS < candidates.length)
    ⟨"ROSTER.body.seats", "must contain between 1 and 8 identities"⟩
  let ⟨seats, distinct⟩ ← decodeSeats [] List.nodup_nil candidates
  -- one seat for every candidate, so the bounds hold here as well
  if hlen : 1 ≤ seats.length ∧ seats.length ≤ MAX_LOBBY_SEATS then
    return ⟨gameId, rulesHash, iceConfigHash, seats, hlen.1, hlen.2, distinct⟩
  else throw ⟨"ROSTER.body.seats", "must contain between 1 and 8 identities"⟩

/-- `decodeReadyBody`. -/
def decodeReadyBody (value : CborValue) : Except ProtocolSchemaError ReadyBody := do
  let body ← expectExactMap value READY_KEYS "READY.body"
  let rosterHash ← decodeHash (field body "roster_hash") "READY.body.roster_hash"
  return ⟨rosterHash⟩

/-! ## What the lobby reports -/

/-- `LobbyBootstrapContext`. -/
structure LobbyBootstrapContext where
  gameId : GameId
  host : IdentityPublicKey
  rulesHash : Hash256
  iceConfigHash : Hash256
  deriving DecidableEq

/-- Why the lobby refuses an envelope. -/
inductive LobbyRejection where
  | chain (result : ChainIngestResult)
  | wrong_game | wrong_type | wrong_phase | wrong_round | not_genesis | malformed_body
  | sender_mismatch | rules_mismatch | wrong_sender | body_game_mismatch
  | invalid_roster_identity (index : ℕ)
  | host_missing | lobby_finalized | no_roster | roster_not_finalizable | not_roster_member
  | roster_hash_mismatch | sender_chain_missing | unknown_roster_hash | not_in_history
  | unknown_sender (sender : IdentityPublicKey)
  deriving DecidableEq

/-- What a call reports: its status, and what comes with an envelope that was not
refused. -/
inductive LobbyResult (α : Type) where
  | accepted (value : α)
  | duplicate (value : α)
  | rejected (reason : LobbyRejection)
  deriving DecidableEq

/-- `status`. -/
inductive LobbyStatus where
  | accepted | duplicate | rejected
  deriving DecidableEq, Repr

def LobbyResult.status {α : Type} : LobbyResult α → LobbyStatus
  | .accepted _ => .accepted
  | .duplicate _ => .duplicate
  | .rejected _ => .rejected

/-- `LobbyState`. -/
inductive LobbyState where
  | forming | collecting_ready | finalized
  deriving DecidableEq, Repr

/-- What comes with a ROSTER. -/
structure LobbyRosterValue where
  chainResult : ChainIngestResult
  body : RosterBody
  rosterHash : Hash256
  iceConfigMatches : Bool
  deriving DecidableEq

/-- What comes with a READY. -/
structure LobbyReadyValue where
  seat : ℕ
  state : LobbyState
  body : ReadyBody
  chainResult : ChainIngestResult
  deriving DecidableEq

/-- What comes with a restored READY. -/
structure LobbyRestoreValue where
  seat : ℕ
  state : LobbyState
  body : ReadyBody
  received : SignedEnvelope
  deriving DecidableEq

/-- The internal inconsistencies the lobby throws on. -/
inductive LobbyError where
  | senderDisappeared
  | changed (result : ChainIngestResult)
  | lostHostChain
  | noRoster
  | incompleteChain
  | notContiguous
  | transfer (result : SessionIngestResult)
  | roster (error : RosterError)
  deriving DecidableEq

/-- A chain's answer with what comes along. -/
def LobbyResult.ofChain {α : Type} (result : ChainIngestResult) (value : α) : LobbyResult α :=
  match result with
  | .accepted _ => .accepted value
  | .duplicate _ => .duplicate value
  | _ => .rejected (.chain result)

section

variable {q : ℕ} {G : Type} [AddCommGroup G] [Module (ZMod q) G]

/-- `LobbyChainRegistry`. -/
structure LobbyChainRegistry (P : Primitives q G) where
  context : LobbyBootstrapContext
  chains : IdentityPublicKey → Option SenderChain
  readyByRoster : Hash256 → List (IdentityPublicKey × SignedEnvelope)
  knownRosters : Hash256 → Option RosterBody
  roster : Option RosterBody
  rosterHash : Option Hash256
  rosterArtifact : Option SignedEnvelope
  finalizedRegistry : Option (SessionChainRegistry P)

variable {P : Primitives q G}

/-- The outcome of a transition: a report or an error, and the registry it leaves. -/
abbrev LobbyOutcome (P : Primitives q G) (α : Type) :=
  Except LobbyError (LobbyResult α) × LobbyChainRegistry P

/-! ## Validation -/

/-- The first seat whose key is not valid. -/
def firstInvalid (P : Primitives q G) (seats : List IdentityPublicKey) : Option ℕ :=
  seats.findIdx? fun identity => P.importEd25519PublicKey identity = false

/-- `validateLobbyJoinEnvelope`. -/
def validateLobbyJoinEnvelope (received : SignedEnvelope) (context : LobbyBootstrapContext) :
    Except LobbyRejection JoinBody := do
  throwIf (received.game ≠ context.gameId) .wrong_game
  throwIf (received.type ≠ .JOIN) .wrong_type
  throwIf (received.phase ≠ "lobby") .wrong_phase
  throwIf (received.round ≠ 0) .wrong_round
  throwIf (received.seq ≠ 0 ∨ received.prev ≠ ZERO_HASH) .not_genesis
  let body ← (decodeJoinBody received.body).mapError fun _ => .malformed_body
  throwIf (body.pkId ≠ received.from_) .sender_mismatch
  throwIf (body.rulesHash ≠ context.rulesHash) .rules_mismatch
  return body

/-- `validateLobbyRosterEnvelope`, up to the hash of the body. -/
def validateLobbyRosterEnvelope (P : Primitives q G) (received : SignedEnvelope)
    (context : LobbyBootstrapContext) : Except LobbyRejection RosterBody := do
  throwIf (received.game ≠ context.gameId) .wrong_game
  throwIf (received.from_ ≠ context.host) .wrong_sender
  throwIf (received.type ≠ .ROSTER) .wrong_type
  throwIf (received.phase ≠ "lobby") .wrong_phase
  throwIf (received.round ≠ 0) .wrong_round
  let body ← (decodeRosterBody received.body).mapError fun _ => .malformed_body
  throwIf (body.gameId ≠ context.gameId) .body_game_mismatch
  throwIf (body.rulesHash ≠ context.rulesHash) .rules_mismatch
  match firstInvalid P body.seats with
  | some index => throw (.invalid_roster_identity index)
  | none => throwIf (context.host ∉ body.seats) .host_missing
  return body

/-- The checks on the place and the type of a READY. -/
def validateReadyEnvelope (received : SignedEnvelope) (context : LobbyBootstrapContext) :
    Except LobbyRejection Unit := do
  throwIf (received.game ≠ context.gameId) .wrong_game
  throwIf (received.type ≠ .READY) .wrong_type
  throwIf (received.phase ≠ "lobby") .wrong_phase
  throwIf (received.round ≠ 0) .wrong_round

/-- The seat of an identity in a roster. -/
def RosterBody.seatOf (body : RosterBody) (identity : IdentityPublicKey) : Option ℕ :=
  body.seats.findIdx? fun seat => seat = identity

namespace LobbyChainRegistry

variable (hashRosterBody : RosterBody → Hash256)

/-- `new LobbyChainRegistry`, with a valid host key. -/
def start (P : Primitives q G) (context : LobbyBootstrapContext) : LobbyChainRegistry P where
  context := context
  chains := Function.update (fun _ => none) context.host (some (.start context.host))
  readyByRoster := fun _ => []
  knownRosters := fun _ => none
  roster := none
  rosterHash := none
  rosterArtifact := none
  finalizedRegistry := none

variable (lobby : LobbyChainRegistry P)

/-- `state`. -/
def state : LobbyState :=
  if lobby.finalizedRegistry.isSome then .finalized
  else match lobby.roster with
  | some roster => if MIN_SESSION_SEATS ≤ roster.seats.length then .collecting_ready else .forming
  | none => .forming

/-- `#currentReady`; a roster hash with no entry has an empty map. -/
def currentReady : List (IdentityPublicKey × SignedEnvelope) :=
  match lobby.rosterHash with
  | none => []
  | some hash => lobby.readyByRoster hash

/-- `has` of a map of READYs. -/
def isReady (ready : List (IdentityPublicKey × SignedEnvelope)) (sender : IdentityPublicKey) :
    Bool := sender ∈ ready.map Prod.fst

/-- `readySeats`. -/
def readySeats : List ℕ :=
  match lobby.roster with
  | none => []
  | some roster => (List.range roster.seats.length).filter fun seat =>
      (roster.seats[seat]?).any fun sender => isReady lobby.currentReady sender

/-- `isRosterMember`. -/
def isRosterMember (sender : IdentityPublicKey) : Bool :=
  lobby.roster.any fun roster => sender ∈ roster.seats

/-- `classify`. -/
def classify (received : SignedEnvelope) : LobbyResult ChainIngestResult :=
  if lobby.finalizedRegistry.isSome then .rejected .lobby_finalized
  else if received.game ≠ lobby.context.gameId then .rejected .wrong_game
  else match lobby.chains received.from_ with
  | none => .rejected (.unknown_sender received.from_)
  | some chain => .ofChain (chain.classify P received) (chain.classify P received)

/-- A registry whose chain of this sender was replaced. -/
def withChain (sender : IdentityPublicKey) (chain : SenderChain) : LobbyChainRegistry P :=
  { lobby with chains := Function.update lobby.chains sender (some chain) }

/-- `ingest`. -/
def ingest (received : SignedEnvelope) : LobbyOutcome P ChainIngestResult :=
  match lobby.classify received with
  | .accepted _ =>
      match lobby.chains received.from_ with
      | none => (.error .senderDisappeared, lobby)
      | some chain =>
          let (result, chain) := chain.ingest P received
          (.ok (.ofChain result result), lobby.withChain received.from_ chain)
  | result => (.ok result, lobby)

/-- The chain of a sender, or a new one. -/
def chainOrNew (sender : IdentityPublicKey) : SenderChain :=
  (lobby.chains sender).getD (.start sender)

/-- `classifyBootstrapJoin`. -/
def classifyBootstrapJoin (received : SignedEnvelope) :
    LobbyResult (ChainIngestResult × JoinBody) :=
  if lobby.finalizedRegistry.isSome then .rejected .lobby_finalized
  else match validateLobbyJoinEnvelope received lobby.context with
  | .error reason => .rejected reason
  | .ok body =>
      let result := (lobby.chainOrNew received.from_).classify P received
      .ofChain result (result, body)

/-- `bootstrapJoin`. -/
def bootstrapJoin (received : SignedEnvelope) : LobbyOutcome P (ChainIngestResult × JoinBody) :=
  match lobby.classifyBootstrapJoin received with
  | .accepted (_, body) =>
      match (lobby.chainOrNew received.from_).ingest P received with
      | (.accepted head, chain) =>
          (.ok (.accepted (.accepted head, body)), lobby.withChain received.from_ chain)
      | (result, _) => (.error (.changed result), lobby)
  | result => (.ok result, lobby)

/-- `classifyRosterMemberJoin`. -/
def classifyRosterMemberJoin (received : SignedEnvelope) :
    LobbyResult (ChainIngestResult × JoinBody) :=
  if lobby.isRosterMember received.from_ = false then .rejected .not_roster_member
  else lobby.classifyBootstrapJoin received

/-- `bootstrapRosterMemberJoin`. -/
def bootstrapRosterMemberJoin (received : SignedEnvelope) :
    LobbyOutcome P (ChainIngestResult × JoinBody) :=
  match lobby.classifyRosterMemberJoin received with
  | .rejected reason => (.ok (.rejected reason), lobby)
  | _ => lobby.bootstrapJoin received

/-! ## Finalization -/

/-- The inner loop of `#buildFinalizedRegistry`: transfer a chain from place `seq` on. -/
def transferChain (chain : SenderChain) (registry : SessionChainRegistry P) (seq : ℕ) :
    ℕ → Except LobbyError (SessionChainRegistry P)
  | 0 => .ok registry
  | count + 1 =>
      match chain.accepted seq with
      | none => .error .notContiguous
      | some artifact =>
          match registry.ingest artifact with
          | (.chain (.accepted _), registry) => transferChain chain registry (seq + 1) count
          | (result, _) => .error (.transfer result)

/-- The outer loop of `#buildFinalizedRegistry`. -/
def transferSeats (chains : IdentityPublicKey → Option SenderChain)
    (registry : SessionChainRegistry P) :
    List IdentityPublicKey → Except LobbyError (SessionChainRegistry P)
  | [] => .ok registry
  | sender :: rest =>
      match chains sender with
      | none => .error .incompleteChain
      | some chain =>
          match chain.head with
          | none => .error .incompleteChain
          | some head => do
              let registry ← transferChain chain registry 0 (head.seq + 1)
              transferSeats chains registry rest

/-- `#buildFinalizedRegistry`. -/
def buildFinalizedRegistry : Except LobbyError (SessionChainRegistry P) :=
  match lobby.roster with
  | none => .error .noRoster
  | some body => do
      let roster ← (Roster.parse P body.seats).mapError LobbyError.roster
      transferSeats lobby.chains (.start lobby.context.gameId roster) body.seats

/-- `#finalizeIfReady`. -/
def finalizeIfReady : Except LobbyError Unit × LobbyChainRegistry P :=
  match lobby.finalizedRegistry, lobby.roster with
  | none, some roster =>
      if roster.seats.length < MIN_SESSION_SEATS then (.ok (), lobby)
      else if lobby.currentReady.length = roster.seats.length then
        match lobby.buildFinalizedRegistry with
        | .ok registry => (.ok (), { lobby with finalizedRegistry := some registry })
        | .error e => (.error e, lobby)
      else (.ok (), lobby)
  | _, _ => (.ok (), lobby)

/-! ## Rosters -/

/-- `classifyRoster`. -/
def classifyRoster (received : SignedEnvelope) : Except LobbyError (LobbyResult LobbyRosterValue) :=
  if lobby.finalizedRegistry.isSome then .ok (.rejected .lobby_finalized)
  else match validateLobbyRosterEnvelope P received lobby.context with
  | .error reason => .ok (.rejected reason)
  | .ok body =>
      match lobby.chains lobby.context.host with
      | none => .error .lostHostChain
      | some hostChain =>
          let result := hostChain.classify P received
          .ok (.ofChain result ⟨result, body, hashRosterBody body,
            body.iceConfigHash = lobby.context.iceConfigHash⟩)

/-- `ingestRoster`. -/
def ingestRoster (received : SignedEnvelope) : LobbyOutcome P LobbyRosterValue :=
  match lobby.classifyRoster hashRosterBody received with
  | .ok (.accepted value) =>
      match lobby.chains lobby.context.host with
      | none => (.error .lostHostChain, lobby)
      | some hostChain =>
          match hostChain.ingest P received with
          | (.accepted head, hostChain) =>
              let lobby := { lobby.withChain lobby.context.host hostChain with
                roster := some value.body
                rosterHash := some value.rosterHash
                rosterArtifact := some received
                knownRosters :=
                  Function.update lobby.knownRosters value.rosterHash (some value.body) }
              match lobby.finalizeIfReady with
              | (.error e, lobby) => (.error e, lobby)
              | (.ok (), lobby) =>
                  (.ok (.accepted { value with chainResult := .accepted head }), lobby)
          | (result, _) => (.error (.changed result), lobby)
  | .ok result => (.ok result, lobby)
  | .error e => (.error e, lobby)

/-! ## Readiness -/

/-- `classifyReady`. -/
def classifyReady (received : SignedEnvelope) : LobbyResult LobbyReadyValue :=
  if lobby.finalizedRegistry.isSome then .rejected .lobby_finalized
  else match validateReadyEnvelope received lobby.context with
  | .error reason => .rejected reason
  | .ok () =>
      match lobby.roster, lobby.rosterHash with
      | some roster, some rosterHash =>
          if roster.seats.length < MIN_SESSION_SEATS then .rejected .roster_not_finalizable
          else match roster.seatOf received.from_ with
          | none => .rejected .not_roster_member
          | some seat =>
              match decodeReadyBody received.body with
              | .error _ => .rejected .malformed_body
              | .ok body =>
                  if body.rosterHash ≠ rosterHash then .rejected .roster_hash_mismatch
                  else match lobby.chains received.from_ with
                  | none => .rejected .sender_chain_missing
                  | some chain =>
                      let ready := lobby.readyByRoster rosterHash
                      let finalizes := ready.length + 1 = roster.seats.length
                      match chain.classify P received with
                      | .accepted head =>
                          if isReady ready received.from_ then
                            .duplicate ⟨seat, lobby.state, body, .accepted head⟩
                          else .accepted ⟨seat, if finalizes then .finalized else lobby.state,
                            body, .accepted head⟩
                      | .duplicate existing =>
                          .duplicate ⟨seat, lobby.state, body, .duplicate existing⟩
                      | result => .rejected (.chain result)
      | _, _ => .rejected .no_roster

/-- A registry with one more READY for a roster hash. -/
def withReady (rosterHash : Hash256) (sender : IdentityPublicKey) (artifact : SignedEnvelope) :
    LobbyChainRegistry P :=
  { lobby with
    readyByRoster := Function.update lobby.readyByRoster rosterHash
      (lobby.readyByRoster rosterHash ++ [(sender, artifact)]) }

/-- `ingestReady`, once the chain has taken the envelope. -/
def commitReady (received : SignedEnvelope) (duplicate : Bool) (value : LobbyReadyValue) :
    LobbyOutcome P LobbyReadyValue :=
  match lobby.chains received.from_ with
  | none => (.error .senderDisappeared, lobby)
  | some chain =>
      match chain.ingest P received with
      | (.accepted head, chain) =>
          let lobby := lobby.withChain received.from_ chain
          if duplicate then
            (.ok (.duplicate { value with state := lobby.state, chainResult := .accepted head }),
              lobby)
          else
            let lobby := lobby.withReady value.body.rosterHash received.from_ received
            match lobby.finalizeIfReady with
            | (.error e, lobby) => (.error e, lobby)
            | (.ok (), lobby) =>
                (.ok (.accepted { value with
                  state := lobby.state, chainResult := .accepted head }), lobby)
      | (result, _) => (.error (.changed result), lobby)

/-- `ingestReady`. -/
def ingestReady (received : SignedEnvelope) : LobbyOutcome P LobbyReadyValue :=
  match lobby.classifyReady received with
  | .rejected reason => (.ok (.rejected reason), lobby)
  | .accepted value => lobby.commitReady received false value
  | .duplicate value =>
      match value.chainResult with
      | .duplicate _ => (.ok (.duplicate value), lobby)
      | _ => lobby.commitReady received true value

/-- `restoreReadyFromHistory`. -/
def restoreReadyFromHistory (received : SignedEnvelope) : LobbyOutcome P LobbyRestoreValue :=
  let reject (reason : LobbyRejection) : LobbyOutcome P LobbyRestoreValue :=
    (.ok (.rejected reason), lobby)
  if lobby.finalizedRegistry.isSome then reject .lobby_finalized
  else match validateReadyEnvelope received lobby.context with
  | .error reason => reject reason
  | .ok () =>
      match decodeReadyBody received.body with
      | .error _ => reject .malformed_body
      | .ok body =>
          match lobby.knownRosters body.rosterHash with
          | none => reject .unknown_roster_hash
          | some roster =>
              if roster.seats.length < MIN_SESSION_SEATS then reject .roster_not_finalizable
              else match roster.seatOf received.from_ with
              | none => reject .not_roster_member
              | some seat =>
                  match (lobby.chains received.from_).bind fun chain =>
                      chain.accepted received.seq with
                  | none => reject .not_in_history
                  | some historical =>
                      if historical ≠ received then reject .not_in_history
                      else if isReady (lobby.readyByRoster body.rosterHash) received.from_ then
                        (.ok (.duplicate ⟨seat, lobby.state, body, historical⟩), lobby)
                      else
                        let lobby := lobby.withReady body.rosterHash received.from_ historical
                        if lobby.rosterHash = some body.rosterHash then
                          match lobby.finalizeIfReady with
                          | (.error e, lobby) => (.error e, lobby)
                          | (.ok (), lobby) =>
                              (.ok (.accepted ⟨seat, lobby.state, body, historical⟩), lobby)
                        else (.ok (.accepted ⟨seat, lobby.state, body, historical⟩), lobby)

end LobbyChainRegistry

end

end Tablefolk
