import Tablefolk.Session.LobbyHistory
import Tablefolk.Session.TranscriptOrder

/-!
# Recovery of a lobby

The model of `session/lobby-recovery.ts`.  A transcript is grouped by sender; the host's chain is
ingested first, then the chains of all others, and at last the READYs are counted again: those for
rosters of the past before those for the current one, which may finalize the lobby.

* `recoverHost_eq_ok`, `recoverSenders_eq_ok`: which chains are rebuilt.
* `TranscriptOf`: what the first loop makes of the envelopes of some logs in any order.
-/

namespace Tablefolk

/-- Whose acceptance the recovery requires. -/
inductive RecoveryLabel where
  /-- `host sequence ${seq}` -/
  | host (seq : ℕ)
  /-- `sender ${senderKey} sequence ${seq}` -/
  | sender (senderKey : String) (seq : ℕ)
  /-- `READY at ${senderKey}:${seq}` -/
  | ready (senderKey : String) (seq : ℕ)

/-- `LobbyRecoveryError`, or what the lobby throws. -/
inductive LobbyRecoveryError where
  /-- what is wrong with the transcript -/
  | transcript (error : TranscriptError)
  /-- `The invitation host cannot have a JOIN envelope` -/
  | host_join
  /-- `Sender ${senderKey} has no chain genesis` -/
  | no_genesis (senderKey : String)
  /-- `Sender ${senderKey} has JOIN after its genesis` -/
  | later_join (senderKey : String)
  /-- `Non-host sender ${senderKey} has a ROSTER envelope` -/
  | member_roster (senderKey : String)
  /-- `Could not recover ${label}: ${reason}`, where a duplicate has no other reason -/
  | not_recovered (label : RecoveryLabel) (reason : Option LobbyRejection)
  /-- `Transcript has a roster but durable snapshot is missing` -/
  | missing_snapshot
  /-- `Durable roster snapshot is invalid` -/
  | invalid_snapshot (cause : EnvelopeError)
  /-- `Durable roster snapshot does not match latest host history` -/
  | other_snapshot
  /-- `READY at ${senderKey}:${seq} has invalid lobby metadata` -/
  | ready_metadata (senderKey : String) (seq : ℕ)
  /-- `READY at ${senderKey}:${seq} has a malformed body` -/
  | ready_body (senderKey : String) (seq : ℕ) (cause : ProtocolSchemaError)
  /-- a `LobbyInvariantError` of the registry -/
  | lobby (error : LobbyError)

/-- `ReadyCandidate`. -/
structure ReadyCandidate where
  artifact : SignedEnvelope
  rosterKey : String
  senderKey : String

/-- `compareSequence`. -/
def compareSequence (left right : SignedEnvelope) : ℤ :=
  if left.seq = right.seq then 0 else if left.seq < right.seq then -1 else 1

/-- `compareText`. -/
def compareText (left right : String) : ℤ :=
  if left = right then 0 else if left < right then -1 else 1

/-- `compareReadyCandidate`. -/
def compareReadyCandidate (left right : ReadyCandidate) : ℤ :=
  let rosterOrder := compareText left.rosterKey right.rosterKey
  if rosterOrder ≠ 0 then rosterOrder
  else
    let senderOrder := compareText left.senderKey right.senderKey
    if senderOrder ≠ 0 then senderOrder else compareSequence left.artifact right.artifact

section

variable {q : ℕ} {G : Type} [AddCommGroup G] [Module (ZMod q) G] {P : Primitives q G}

/-- `LobbyRecoveryResult`. -/
structure LobbyRecoveryResult (P : Primitives q G) where
  lobby : LobbyChainRegistry P
  envelopeCount : ℕ
  restoredReadyCount : ℕ

/-- `requireAccepted`. -/
def requireAccepted {α : Type} (label : RecoveryLabel) :
    LobbyOutcome P α → Except LobbyRecoveryError (LobbyChainRegistry P)
  | (.error error, _) => .error (.lobby error)
  | (.ok (.accepted _), lobby) => .ok lobby
  | (.ok (.duplicate _), _) => .error (.not_recovered label none)
  | (.ok (.rejected reason), _) => .error (.not_recovered label (some reason))

variable (ed : Ed25519) (hashRosterBody : RosterBody → Hash256)

/-- The loop over the artifacts of the host. -/
def recoverHost : LobbyChainRegistry P → List SignedEnvelope →
    Except LobbyRecoveryError (LobbyChainRegistry P)
  | lobby, [] => return lobby
  | lobby, artifact :: rest => do
      throwIf (artifact.type = .JOIN) LobbyRecoveryError.host_join
      let lobby ← (if artifact.type = .ROSTER then
          requireAccepted (.host artifact.seq) (lobby.ingestRoster hashRosterBody artifact)
        else requireAccepted (.host artifact.seq) (lobby.ingest artifact))
      recoverHost lobby rest

/-- The loop over the artifacts of a sender after its genesis. -/
def recoverLater (senderKey : String) : LobbyChainRegistry P → List SignedEnvelope →
    Except LobbyRecoveryError (LobbyChainRegistry P)
  | lobby, [] => return lobby
  | lobby, artifact :: rest => do
      throwIf (artifact.type = .JOIN) (LobbyRecoveryError.later_join senderKey)
      throwIf (artifact.type = .ROSTER) (LobbyRecoveryError.member_roster senderKey)
      let lobby ← requireAccepted (.sender senderKey artifact.seq) (lobby.ingest artifact)
      recoverLater senderKey lobby rest

/-- The loop over the other senders. -/
def recoverSenders (bySender : OrderedMap String (List SignedEnvelope)) :
    LobbyChainRegistry P → List String → Except LobbyRecoveryError (LobbyChainRegistry P)
  | lobby, [] => return lobby
  | lobby, senderKey :: rest =>
      match artifactsOf bySender senderKey with
      | [] => throw (.no_genesis senderKey)
      | genesis :: later => do
          let lobby ← requireAccepted (.sender senderKey genesis.seq) (lobby.bootstrapJoin genesis)
          let lobby ← recoverLater senderKey lobby later
          recoverSenders bySender lobby rest

/-- `verifyRosterSnapshot`; the expected snapshot may be left out, and it may be null. -/
def verifyRosterSnapshot (lobby : LobbyChainRegistry P) :
    Option (Option SignedEnvelope) → Except LobbyRecoveryError Unit
  | none => return ()
  | some none => throwIf (lobby.rosterArtifact ≠ none) .missing_snapshot
  | some (some expected) => do
      let snapshot ← (verifyArtifact ed expected).mapError LobbyRecoveryError.invalid_snapshot
      throwIf (lobby.rosterArtifact ≠ some snapshot) .other_snapshot

/-- The inner loop of `collectReadyCandidates`. -/
def collectReadys (senderKey : String) :
    List SignedEnvelope → Except LobbyRecoveryError (List ReadyCandidate)
  | [] => return []
  | artifact :: rest =>
      if artifact.type ≠ .READY then collectReadys senderKey rest
      else do
        throwIf (artifact.phase ≠ "lobby" ∨ artifact.round ≠ 0)
          (LobbyRecoveryError.ready_metadata senderKey artifact.seq)
        let body ← (decodeReadyBody artifact.body).mapError
          (LobbyRecoveryError.ready_body senderKey artifact.seq)
        let candidates ← collectReadys senderKey rest
        return ⟨artifact, bytesToHex body.rosterHash.val, senderKey⟩ :: candidates

/-- `collectReadyCandidates`. -/
def collectReadyCandidates : List (String × List SignedEnvelope) →
    Except LobbyRecoveryError (List ReadyCandidate)
  | [] => return []
  | (senderKey, artifacts) :: rest => do
      let candidates ← collectReadys senderKey (sortBySequence artifacts)
      let others ← collectReadyCandidates rest
      return candidates ++ others

/-- One candidate for `firstByRosterAndSender`. -/
def keepFirst (first : OrderedMap (String × String) ReadyCandidate) (candidate : ReadyCandidate) :
    OrderedMap (String × String) ReadyCandidate :=
  let key := (candidate.rosterKey, candidate.senderKey)
  match first.get? key with
  | none => first.set key candidate
  | some existing =>
      if candidate.artifact.seq < existing.artifact.seq then first.set key candidate else first

/-- The first READY of every sender for every roster. -/
def firstByRosterAndSender (candidates : List ReadyCandidate) :
    OrderedMap (String × String) ReadyCandidate := candidates.foldl keepFirst .empty

/-- What the recovery reads from `currentSeats`. -/
def currentSeat (roster : Option RosterBody) (senderKey : String) : ℤ :=
  match roster with
  | none => -1
  | some body =>
      match body.seats.findIdx? fun sender => bytesToHex sender.val = senderKey with
      | none => -1
      | some seat => seat

/-- The candidates in the order in which they are restored. -/
def restoreOrder (lobby : LobbyChainRegistry P) (selected : List ReadyCandidate) :
    List ReadyCandidate :=
  let currentRosterKey := lobby.rosterHash.map fun hash => bytesToHex hash.val
  let historical := (selected.filter fun candidate =>
    some candidate.rosterKey ≠ currentRosterKey).insertionSort fun left right =>
      compareReadyCandidate left right ≤ 0
  let current := (selected.filter fun candidate =>
    some candidate.rosterKey = currentRosterKey).insertionSort fun left right =>
      let seats := currentSeat lobby.roster left.senderKey - currentSeat lobby.roster right.senderKey
      (if seats ≠ 0 then seats else compareReadyCandidate left right) ≤ 0
  historical ++ current

/-- The loop that restores the READYs. -/
def restoreCandidates : LobbyChainRegistry P → List ReadyCandidate →
    Except LobbyRecoveryError (LobbyChainRegistry P)
  | lobby, [] => return lobby
  | lobby, candidate :: rest => do
      let lobby ← requireAccepted (.ready candidate.senderKey candidate.artifact.seq)
        (lobby.restoreReadyFromHistory candidate.artifact)
      restoreCandidates lobby rest

/-- `recoverLobby`. -/
def recoverLobby (context : LobbyBootstrapContext) (transcript : List SignedEnvelope)
    (rosterSnapshot : Option (Option SignedEnvelope)) :
    Except LobbyRecoveryError (LobbyRecoveryResult P) := do
  let hostKey := bytesToHex context.host.val
  let bySender ← (groupBySender ed context.gameId (fun _ => true) 0 [] .empty transcript).mapError
    LobbyRecoveryError.transcript
  let lobby ← recoverHost hashRosterBody (.start P context) (artifactsOf bySender hostKey)
  let senderKeys := ((bySender.entries.map Prod.fst).filter (· ≠ hostKey)).insertionSort (· ≤ ·)
  let lobby ← recoverSenders bySender lobby senderKeys
  verifyRosterSnapshot ed lobby rosterSnapshot
  let candidates ← collectReadyCandidates bySender.entries
  let selected := (firstByRosterAndSender candidates).entries.map Prod.snd
  let order := restoreOrder lobby selected
  let lobby ← restoreCandidates lobby order
  return ⟨lobby, transcript.length, order.length⟩

variable {ed hashRosterBody} {rosters : Set RosterBody} {readies : List SignedEnvelope}
  {logs held : IdentityPublicKey → List SignedEnvelope} {lobby : LobbyChainRegistry P}
  {sender : IdentityPublicKey} {e : SignedEnvelope}

namespace LobbyChainRegistry

/-! ## Envelopes that continue a log -/

/-- A known sender's envelope that continues its log is ingested. -/
theorem ingest_of_continues (hopen : lobby.finalizedRegistry = none) (hlogs : LobbyLogs lobby held)
    (hknown : (lobby.chains e.from_).isSome = true) (hcontinues : Continues lobby held e) :
    ∃ value, lobby.ingest e = (.ok (.accepted value), lobby.extend e) := by
  obtain ⟨chain, hchain⟩ := Option.isSome_iff_exists.1 hknown
  obtain ⟨hsender, hlog⟩ := hlogs.chain hchain
  have haccepted : chain.classify P e = .accepted ⟨chain.sender, e.seq, P.hashEnvelope e⟩ :=
    hlog.classify_accepted.2 ⟨hsender.symm, hcontinues.2.1, hcontinues.2.2, rfl⟩
  have hclassify : lobby.classify e
      = .accepted (.accepted ⟨chain.sender, e.seq, P.hashEnvelope e⟩) := by
    unfold classify
    rw [if_neg (isSome_eq_false_of_open hopen), if_neg (not_not_intro hcontinues.1), hchain]
    simp only [haccepted, LobbyResult.ofChain]
  have hingest := (chainOrNew_accepted hlogs
    (by rw [chainOrNew_of_some hchain]; exact haccepted)).2.2
  rw [chainOrNew_of_some hchain] at hingest
  refine ⟨.accepted ⟨chain.sender, e.seq, P.hashEnvelope e⟩, ?_⟩
  unfold ingest extend
  rw [hclassify]
  simp only [hchain, chainOrNew_of_some hchain]
  rw [hingest]
  rfl

/-- A valid JOIN that starts a log is taken. -/
theorem bootstrapJoin_of_continues (hopen : lobby.finalizedRegistry = none)
    (hlogs : LobbyLogs lobby held) (hcontinues : Continues lobby held e) {body : JoinBody}
    (hbody : validateLobbyJoinEnvelope e lobby.context = .ok body) :
    ∃ value, lobby.bootstrapJoin e = (.ok (.accepted value), lobby.extend e) := by
  obtain ⟨hsender, hlog⟩ := chainOrNew_spec hlogs e.from_
  have haccepted : (lobby.chainOrNew e.from_).classify P e
      = .accepted ⟨(lobby.chainOrNew e.from_).sender, e.seq, P.hashEnvelope e⟩ :=
    hlog.classify_accepted.2 ⟨hsender.symm, hcontinues.2.1, hcontinues.2.2, rfl⟩
  have hclassify : ∃ result, lobby.classifyBootstrapJoin e = .accepted (result, body) := by
    refine ⟨(lobby.chainOrNew e.from_).classify P e, ?_⟩
    unfold classifyBootstrapJoin
    rw [if_neg (isSome_eq_false_of_open hopen), hbody]
    simp only [haccepted, LobbyResult.ofChain]
  obtain ⟨result, hclassify⟩ := hclassify
  have hingest := (chainOrNew_accepted hlogs haccepted).2.2
  refine ⟨(.accepted ⟨(lobby.chainOrNew e.from_).sender, e.seq, P.hashEnvelope e⟩, body), ?_⟩
  unfold bootstrapJoin extend
  rw [hclassify]
  simp only
  rw [hingest]

/-! ## Lobbies without READYs -/

/-- A lobby that is being rebuilt: no READY is counted yet, and a sender is known by its log. -/
structure Rebuilding (hashRosterBody : RosterBody → Hash256) (rosters : Set RosterBody)
    (lobby : LobbyChainRegistry P) (held : IdentityPublicKey → List SignedEnvelope) : Prop where
  logs : LobbyLogs lobby held
  counts : LobbyReadies hashRosterBody rosters [] lobby held
  empty : lobby.readyByRoster = fun _ => []
  isOpen : lobby.finalizedRegistry = none
  known : ∀ identity, identity ≠ lobby.context.host → (lobby.chains identity).isSome = true →
    held identity ≠ []

theorem not_finalizable_of_empty (h : lobby.readyByRoster = fun _ => []) :
    ¬ Finalizable hashRosterBody lobby := by
  rintro ⟨body, -, hmin, hlen⟩
  rw [h] at hlen
  have hnone : body.seats.length = 0 := hlen.symm
  rw [hnone] at hmin
  exact absurd hmin (by decide)

/-- Such a lobby keeps the invariant. -/
theorem Rebuilding.invariant (h : Rebuilding hashRosterBody rosters lobby held) :
    LobbyInvariant hashRosterBody rosters [] lobby held := by
  refine ⟨h.logs, h.counts, fun _ => not_finalizable_of_empty h.empty, fun hsome => ?_⟩
  rw [h.isOpen] at hsome
  cases hsome

theorem start_rebuilding (context : LobbyBootstrapContext) :
    Rebuilding hashRosterBody rosters (start P context) fun _ => [] := by
  have hinv : LobbyInvariant hashRosterBody rosters [] (start P context) fun _ => [] :=
    start_invariant context
  refine ⟨hinv.held, hinv.counts, rfl, rfl, fun identity hne hsome => ?_⟩
  have hnone : (start P context).chains identity = none := start_chains_of_ne hne
  rw [hnone] at hsome
  cases hsome

theorem grow_ne_nil {identity : IdentityPublicKey} (h : held identity ≠ []) :
    grow held e identity ≠ [] := by
  unfold grow
  by_cases heq : identity = e.from_
  · rw [heq, Function.update_self]
    simp
  · rwa [Function.update_of_ne heq]

/-- A chain takes an envelope. -/
theorem Rebuilding.extend (h : Rebuilding hashRosterBody rosters lobby held)
    (hcontinues : Continues lobby held e) :
    Rebuilding hashRosterBody rosters (lobby.extend e) (grow held e) := by
  refine ⟨extend_logs h.logs hcontinues, extend_readies h.counts e, h.empty, h.isOpen, ?_⟩
  intro identity hne hsome
  by_cases heq : identity = e.from_
  · unfold grow
    rw [heq, Function.update_self]
    simp
  · have hsame : (lobby.extend e).chains identity = lobby.chains identity :=
      Function.update_of_ne heq _ _
    rw [hsame] at hsome
    exact grow_ne_nil (h.known identity hne hsome)

/-- The host publishes a roster. -/
theorem Rebuilding.publish (hinj : Set.InjOn hashRosterBody rosters)
    (h : Rebuilding hashRosterBody rosters lobby held) {body : RosterBody} (hbody : body ∈ rosters)
    (hvalid : ∀ identity ∈ body.seats, P.importEd25519PublicKey identity = true)
    (artifact : SignedEnvelope) :
    Rebuilding hashRosterBody rosters (lobby.publish hashRosterBody body artifact) held :=
  ⟨⟨h.logs.chain, h.logs.absent, h.logs.game, h.logs.host⟩,
    publish_readies hinj h.counts hbody hvalid artifact, h.empty, h.isOpen, h.known⟩

/-- A valid ROSTER of the host is published. -/
theorem ingestRoster_of_continues (hinj : Set.InjOn hashRosterBody rosters)
    (h : Rebuilding hashRosterBody rosters lobby held) (hcontinues : Continues lobby held e)
    {body : RosterBody} (hbody : validateLobbyRosterEnvelope P e lobby.context = .ok body)
    (hwithin : body ∈ rosters) :
    ∃ value, lobby.ingestRoster hashRosterBody e
      = (.ok (.accepted value), (lobby.extend e).publish hashRosterBody body e) := by
  obtain ⟨-, hfrom, -, hdecode, -, hvalid⟩ := validateRoster_eq_ok hbody
  have hoffered : LobbyCall.Within rosters (.ingestRoster e) := by
    intro other hother
    have hsame := hdecode.symm.trans hother
    cases hsame
    exact hwithin
  obtain ⟨result, hresult, hstatus, heffect⟩ :=
    ingestRoster_effect hinj h.invariant h.isOpen e hoffered
  have haccepted : result.status = .accepted := by
    obtain ⟨hostChain, hhost⟩ := Option.isSome_iff_exists.1 h.logs.host
    obtain ⟨hsender, hlog⟩ := h.logs.chain hhost
    have hclassify := hlog.classify_accepted.2
      ⟨hfrom.trans hsender.symm, hfrom ▸ hcontinues.2.1, hfrom ▸ hcontinues.2.2, rfl⟩
    unfold classifyRoster at hstatus
    rw [if_neg (isSome_eq_false_of_open h.isOpen), hbody] at hstatus
    simp only [hhost, hclassify, LobbyResult.ofChain, Except.map, LobbyResult.status,
      Except.ok.injEq] at hstatus
    exact hstatus.symm
  cases result with
  | accepted value =>
      refine ⟨value, Prod.ext hresult ?_⟩
      generalize (lobby.ingestRoster hashRosterBody e).2 = next at heffect ⊢
      rw [haccepted] at heffect
      cases heffect with
      | idle hne => exact absurd rfl hne
      | joined hcall => rcases hcall with hcall | hcall <;> cases hcall
      | published hcontinues' hbody' hnext =>
          have hsame := hbody.symm.trans hbody'
          cases hsame
          have hpublished := (h.extend hcontinues).publish hinj hwithin hvalid e
          obtain ⟨after, hafter, -, hfinal⟩ :=
            finalizeIfReady_spec hpublished.logs hpublished.counts hpublished.isOpen
          rw [hnext] at hafter
          cases hafter
          rcases hfinal with ⟨hsame, -⟩ | ⟨hready, -⟩
          · exact hsame
          · exact absurd hready (not_finalizable_of_empty hpublished.empty)
  | duplicate value => cases haccepted
  | rejected reason => cases haccepted

/-! ## The chains -/

/-- The next envelope of a linked log continues what is held of it. -/
theorem continues_of_linked (lobby : LobbyChainRegistry P) {rest : List SignedEnvelope}
    (hlinked : Linked P sender (held sender ++ e :: rest)) (hgame : e.game = lobby.context.gameId) :
    e.from_ = sender ∧ Continues lobby held e := by
  obtain ⟨rfl, hseq, hprev⟩ := hlinked _ e rest rfl
  exact ⟨rfl, hgame, hseq, hprev⟩

theorem update_grow {rest : List SignedEnvelope} (hfrom : e.from_ = sender) :
    Function.update (grow held e) sender (grow held e sender ++ rest)
      = Function.update held sender (held sender ++ e :: rest) := by
  subst hfrom
  unfold grow
  rw [Function.update_idem, Function.update_self, List.append_assoc, List.singleton_append]

theorem extend_chains_self : ((lobby.extend e).chains e.from_).isSome = true := by
  unfold extend withChain
  simp only [Function.update_self, Option.isSome_some]

/-- What the host's loop does with one envelope. -/
theorem recoverHost_step (hinj : Set.InjOn hashRosterBody rosters)
    (h : Rebuilding hashRosterBody rosters lobby held) (hhost : e.from_ = lobby.context.host)
    (hcontinues : Continues lobby held e) (hroster : e.type = .ROSTER →
      ∃ body, validateLobbyRosterEnvelope P e lobby.context = .ok body ∧ body ∈ rosters) :
    (if e.type = .ROSTER then
      requireAccepted (.host e.seq) (lobby.ingestRoster hashRosterBody e)
      else requireAccepted (.host e.seq) (lobby.ingest e)) = .ok (hostStep hashRosterBody lobby e) ∧
    Rebuilding hashRosterBody rosters (hostStep hashRosterBody lobby e) (grow held e) := by
  by_cases htype : e.type = .ROSTER
  · obtain ⟨body, hbody, hwithin⟩ := hroster htype
    obtain ⟨value, hrun⟩ := ingestRoster_of_continues hinj h hcontinues hbody hwithin
    have hstep : hostStep hashRosterBody lobby e
        = (lobby.extend e).publish hashRosterBody body e := by
      unfold hostStep
      rw [hbody]
    rw [if_pos htype, hrun, hstep]
    exact ⟨rfl, (h.extend hcontinues).publish hinj hwithin (validateRoster_eq_ok hbody).2.2.2.2.2 e⟩
  · obtain ⟨value, hrun⟩ := ingest_of_continues h.isOpen h.logs
      (by rw [hhost]; exact h.logs.host) hcontinues
    rw [if_neg htype, hrun, hostStep_of_ne htype]
    exact ⟨rfl, h.extend hcontinues⟩

theorem hostStep_context : (hostStep hashRosterBody lobby e).context = lobby.context := by
  unfold hostStep
  split <;> rfl

/-- **The host's chain** is rebuilt, and the rosters with it. -/
theorem recoverHost_eq_ok (hinj : Set.InjOn hashRosterBody rosters)
    {artifacts : List SignedEnvelope} (h : Rebuilding hashRosterBody rosters lobby held)
    (hlinked : Linked P lobby.context.host (held lobby.context.host ++ artifacts))
    (hgame : ∀ e ∈ artifacts, e.game = lobby.context.gameId)
    (htypes : ∀ e ∈ artifacts, e.type ≠ .JOIN ∧ (e.type = .ROSTER →
      ∃ body, validateLobbyRosterEnvelope P e lobby.context = .ok body ∧ body ∈ rosters)) :
    recoverHost hashRosterBody lobby artifacts
      = .ok (artifacts.foldl (hostStep hashRosterBody) lobby) ∧
    Rebuilding hashRosterBody rosters (artifacts.foldl (hostStep hashRosterBody) lobby)
      (Function.update held lobby.context.host (held lobby.context.host ++ artifacts)) := by
  induction artifacts generalizing lobby held with
  | nil =>
      rw [List.append_nil, Function.update_eq_self]
      exact ⟨rfl, h⟩
  | cons e rest ih =>
      obtain ⟨hjoin, hroster⟩ := htypes e List.mem_cons_self
      obtain ⟨hhost, hcontinues⟩ :=
        continues_of_linked lobby hlinked (hgame e List.mem_cons_self)
      obtain ⟨hstep, hnext⟩ := recoverHost_step hinj h hhost hcontinues hroster
      have hcontext : (hostStep hashRosterBody lobby e).context = lobby.context := hostStep_context
      have hgrown : grow held e lobby.context.host = held lobby.context.host ++ [e] := by
        unfold grow
        rw [← hhost, Function.update_self]
      obtain ⟨hrun, hlast⟩ := ih hnext
        (by rw [hcontext, hgrown, List.append_assoc]; exact hlinked)
        (fun m hm => by rw [hcontext]; exact hgame m (List.mem_cons_of_mem e hm))
        (fun m hm => by rw [hcontext]; exact htypes m (List.mem_cons_of_mem e hm))
      rw [hcontext, update_grow hhost] at hlast
      refine ⟨?_, hlast⟩
      unfold recoverHost
      rw [throwIf_neg hjoin, ok_bind, hstep, ok_bind]
      exact hrun

/-- The chain of a sender that has joined is rebuilt. -/
theorem recoverLater_eq_ok (senderKey : String) {artifacts : List SignedEnvelope}
    (h : Rebuilding hashRosterBody rosters lobby held)
    (hknown : (lobby.chains sender).isSome = true)
    (hlinked : Linked P sender (held sender ++ artifacts))
    (hgame : ∀ e ∈ artifacts, e.game = lobby.context.gameId)
    (htypes : ∀ e ∈ artifacts, e.type ≠ .JOIN ∧ e.type ≠ .ROSTER) :
    ∃ next, recoverLater senderKey lobby artifacts = .ok next ∧ SameRosters next lobby ∧
      Rebuilding hashRosterBody rosters next
        (Function.update held sender (held sender ++ artifacts)) := by
  induction artifacts generalizing lobby held with
  | nil =>
      rw [List.append_nil, Function.update_eq_self]
      exact ⟨lobby, rfl, .refl _, h⟩
  | cons e rest ih =>
      obtain ⟨hjoin, hroster⟩ := htypes e List.mem_cons_self
      obtain ⟨hfrom, hcontinues⟩ :=
        continues_of_linked lobby hlinked (hgame e List.mem_cons_self)
      obtain ⟨value, hrun⟩ := ingest_of_continues h.isOpen h.logs (hfrom ▸ hknown) hcontinues
      have hgrown : grow held e sender = held sender ++ [e] := by
        unfold grow
        rw [← hfrom, Function.update_self]
      obtain ⟨next, hnext, hsame, hlast⟩ := ih (h.extend hcontinues)
        (by rw [← hfrom]; exact extend_chains_self)
        (by rw [hgrown, List.append_assoc]; exact hlinked)
        (fun m hm => hgame m (List.mem_cons_of_mem e hm))
        (fun m hm => htypes m (List.mem_cons_of_mem e hm))
      rw [update_grow hfrom] at hlast
      refine ⟨next, ?_, hsame.trans (sameRosters_extend lobby e), hlast⟩
      unfold recoverLater
      rw [throwIf_neg hjoin, ok_bind, throwIf_neg hroster, ok_bind, hrun]
      exact hnext

/-- A log that a sender of the lobby can have: a JOIN, and then neither JOIN nor ROSTER. -/
structure Joins (lobby : LobbyChainRegistry P) (sender : IdentityPublicKey)
    (log : List SignedEnvelope) : Prop where
  nonempty : log ≠ []
  linked : Linked P sender log
  game : ∀ e ∈ log, e.game = lobby.context.gameId
  genesis : ∀ first rest, log = first :: rest →
    (∃ body, validateLobbyJoinEnvelope first lobby.context = .ok body) ∧
      ∀ e ∈ rest, e.type ≠ .JOIN ∧ e.type ≠ .ROSTER

/-- **The other chains** are rebuilt, and the rosters stay. -/
theorem recoverSenders_eq_ok {bySender : OrderedMap String (List SignedEnvelope)}
    {senders : List IdentityPublicKey} (hnodup : senders.Nodup)
    (h : Rebuilding hashRosterBody rosters lobby held)
    (hgroups : ∀ sender ∈ senders, artifactsOf bySender (bytesToHex sender.val) = logs sender)
    (hnew : ∀ sender ∈ senders, held sender = [])
    (hjoins : ∀ sender ∈ senders, Joins lobby sender (logs sender)) :
    ∃ next, recoverSenders bySender lobby (senders.map fun sender => bytesToHex sender.val)
        = .ok next ∧ SameRosters next lobby ∧
      Rebuilding hashRosterBody rosters next
        fun identity => if identity ∈ senders then logs identity else held identity := by
  induction senders generalizing lobby held with
  | nil =>
      simp only [List.not_mem_nil, if_false]
      exact ⟨lobby, rfl, .refl _, h⟩
  | cons sender rest ih =>
      obtain ⟨hfirst, hrest⟩ := List.nodup_cons.1 hnodup
      have hlog := hjoins sender List.mem_cons_self
      obtain ⟨genesis, later, hsplit⟩ := List.exists_cons_of_ne_nil hlog.nonempty
      obtain ⟨⟨body, hbody⟩, htypes⟩ := hlog.genesis genesis later hsplit
      have hgame := hlog.game
      have hlinked := hlog.linked
      rw [hsplit] at hgame hlinked
      have hnone := hnew sender List.mem_cons_self
      have hstart : Linked P sender (held sender ++ genesis :: later) := by
        rw [hnone]
        exact hlinked
      obtain ⟨hfrom, hcontinues⟩ :=
        continues_of_linked lobby hstart (hgame genesis List.mem_cons_self)
      obtain ⟨value, hrun⟩ := bootstrapJoin_of_continues h.isOpen h.logs hcontinues hbody
      have hgrown : grow held genesis sender = held sender ++ [genesis] := by
        unfold grow
        rw [← hfrom, Function.update_self]
      have hknown : ((lobby.extend genesis).chains sender).isSome = true := by
        rw [← hfrom]
        exact extend_chains_self
      obtain ⟨joined, hjoined, hsame, hheld⟩ := recoverLater_eq_ok (bytesToHex sender.val)
        (h.extend hcontinues) hknown
        (by rw [hgrown, List.append_assoc]; exact hstart)
        (fun m hm => hgame m (List.mem_cons_of_mem genesis hm)) htypes
      rw [update_grow hfrom, hnone, List.nil_append, ← hsplit] at hheld
      have hsame' := hsame.trans (sameRosters_extend lobby genesis)
      obtain ⟨next, hnext, hlast, hfinal⟩ := ih hrest hheld
        (fun other hother => hgroups other (List.mem_cons_of_mem sender hother))
        (fun other hother => by
          have hne : other ≠ sender := fun heq => hfirst (heq ▸ hother)
          rw [Function.update_of_ne hne]
          exact hnew other (List.mem_cons_of_mem sender hother))
        (fun other hother => by
          obtain ⟨hnonempty, hlinked, hgame, hgenesis⟩ :=
            hjoins other (List.mem_cons_of_mem sender hother)
          rw [← hsame'.context] at hgame hgenesis
          exact ⟨hnonempty, hlinked, hgame, hgenesis⟩)
      refine ⟨next, ?_, hlast.trans hsame', ?_⟩
      · rw [List.map_cons]
        unfold recoverSenders
        rw [hgroups sender List.mem_cons_self, hsplit]
        simp only
        rw [hrun]
        simp only [requireAccepted]
        rw [ok_bind, hjoined, ok_bind]
        exact hnext
      · have hsets : (fun identity => if identity ∈ rest then logs identity
            else Function.update held sender (logs sender) identity)
            = fun identity => if identity ∈ sender :: rest then logs identity
              else held identity := by
          funext identity
          by_cases heq : identity = sender
          · subst heq
            simp [hfirst]
          · rw [Function.update_of_ne heq]
            simp [heq]
        rw [← hsets]
        exact hfinal

end LobbyChainRegistry

open LobbyChainRegistry

/-! ## The transcript -/

theorem LobbyLogs.linked (h : LobbyLogs lobby logs) (identity : IdentityPublicKey) :
    Linked P identity (logs identity) := by
  cases hchain : lobby.chains identity with
  | none =>
      rw [h.absent hchain]
      exact linked_nil
  | some chain =>
      obtain ⟨hsender, hlog⟩ := h.chain hchain
      rw [← hsender]
      exact hsender ▸ hlog.linked

theorem Linked.nodup {log : List SignedEnvelope} (h : Linked P sender log) : log.Nodup := by
  refine List.Nodup.of_map tuple ?_
  rw [h.map_tuple]
  exact List.nodup_range.map fun a b heq => (Prod.mk.inj heq).2

theorem Linked.from_eq {log : List SignedEnvelope} (h : Linked P sender log) (he : e ∈ log) :
    e.from_ = sender := by
  obtain ⟨index, hindex⟩ := List.mem_iff_getElem?.1 he
  exact (h.getElem? hindex).1

/-- The transcript has the envelopes of these logs, each of them once. -/
structure TranscriptOf (logs : IdentityPublicKey → List SignedEnvelope)
    (transcript : List SignedEnvelope) : Prop where
  nodup : transcript.Nodup
  mem : ∀ e, e ∈ transcript ↔ ∃ identity, e ∈ logs identity

namespace TranscriptOf

variable {transcript : List SignedEnvelope} (h : TranscriptOf logs transcript)
  (hlinked : ∀ identity, Linked P identity (logs identity))
include h hlinked

theorem mem_logs : e ∈ transcript ↔ e ∈ logs e.from_ := by
  rw [h.mem]
  constructor
  · rintro ⟨identity, he⟩
    rwa [(hlinked identity).from_eq he]
  · exact fun he => ⟨_, he⟩

/-- The artifacts of a sender are its log. -/
theorem chainOf_eq (sender : IdentityPublicKey) : chainOf transcript sender = logs sender := by
  refine sortBySequence_of_perm (hlinked sender) ?_
  refine (List.perm_ext_iff_of_nodup (h.nodup.filter _) (hlinked sender).nodup).2 fun e => ?_
  rw [List.mem_filter, decide_eq_true_eq, h.mem_logs hlinked]
  constructor
  · rintro ⟨he, hkey⟩
    have hfrom : e.from_ = sender := Subtype.ext (bytesToHex_inj hkey)
    rwa [hfrom] at he
  · intro he
    have hfrom := (hlinked sender).from_eq he
    refine ⟨by rwa [hfrom], ?_⟩
    unfold senderKey
    rw [hfrom]

/-- The senders other than the host, in the order in which the recovery goes through them. -/
theorem exists_others (host : IdentityPublicKey) : ∃ senders : List IdentityPublicKey,
    senders.Nodup ∧ senders.map (fun sender => bytesToHex sender.val) =
      (((transcript.foldl pushArtifact .empty).entries.map Prod.fst).filter
        (· ≠ bytesToHex host.val)).insertionSort (· ≤ ·) ∧
    ∀ sender, sender ∈ senders ↔ sender ≠ host ∧ logs sender ≠ [] := by
  obtain ⟨senders, hsorted, hkeys, hmem⟩ := exists_senders transcript
  have hnodup : senders.Nodup := hsorted.imp fun hlt heq => by
    rw [heq] at hlt
    exact lt_irrefl _ hlt
  have hfilter : (senders.filter fun sender => sender ≠ host).map
      (fun sender => bytesToHex sender.val)
        = (senders.map fun sender => bytesToHex sender.val).filter (· ≠ bytesToHex host.val) := by
    rw [List.filter_map]
    refine congrArg (List.map _) (List.filter_congr fun sender _ => ?_)
    have hiff : sender = host ↔ bytesToHex sender.val = bytesToHex host.val :=
      ⟨fun heq => by rw [heq], fun heq => Subtype.ext (bytesToHex_inj heq)⟩
    simp only [Function.comp_apply, ne_eq, hiff]
  refine ⟨senders.filter fun sender => sender ≠ host, hnodup.filter _, ?_, fun sender => ?_⟩
  · -- both lists are sorted and have the same keys
    have hperm : ((senders.filter fun sender => sender ≠ host).map
        fun sender => bytesToHex sender.val).Perm
        ((((transcript.foldl pushArtifact .empty).entries.map Prod.fst).filter
          (· ≠ bytesToHex host.val)).insertionSort (· ≤ ·)) := by
      rw [hfilter, hkeys]
      exact ((List.perm_insertionSort _ _).filter _).trans (List.perm_insertionSort _ _).symm
    have hle : ((senders.filter fun sender => sender ≠ host).map
        fun sender => bytesToHex sender.val).Pairwise (· ≤ ·) := by
      refine List.pairwise_map.2 ((hsorted.filter _).imp fun hlt => le_of_lt hlt)
    exact hperm.eq_of_pairwise (fun a b _ _ hab hba => le_antisymm hab hba) hle
      (List.pairwise_insertionSort _ _)
  · rw [List.mem_filter, decide_eq_true_eq, hmem, and_comm]
    refine and_congr_right fun _ => ?_
    constructor
    · rintro ⟨e, he, rfl⟩
      exact List.ne_nil_of_mem ((h.mem_logs hlinked).1 he)
    · intro hne
      obtain ⟨e, he⟩ := List.exists_mem_of_ne_nil _ hne
      have hfrom := (hlinked sender).from_eq he
      exact ⟨e, (h.mem_logs hlinked).2 (by rwa [hfrom]), hfrom⟩

theorem nodup_tuples : (transcript.map tuple).Nodup := by
  obtain ⟨senders, hsorted, -, hmem⟩ := exists_senders transcript
  have hchains : Chains P senders logs := by
    refine ⟨hsorted, fun sender hsender => ⟨?_, hlinked sender⟩⟩
    obtain ⟨e, he, rfl⟩ := (hmem sender).1 hsender
    exact List.ne_nil_of_mem ((h.mem_logs hlinked).1 he)
  have hperm := perm_flatMap_chainOf hchains.nodup fun e he => (hmem e.from_).2 ⟨e, he, rfl⟩
  have hlogs : senders.flatMap (chainOf transcript) = senders.flatMap logs :=
    List.flatMap_congr fun sender _ => h.chainOf_eq hlinked sender
  rw [hlogs] at hperm
  exact (hperm.map tuple).nodup_iff.2 hchains.nodup_tuples

/-- The transcript passes the first loop. -/
theorem groupBySender_eq {gameId : GameId}
    (hall : ∀ identity, ∀ e ∈ logs identity, e.Artifact ed ∧ e.game = gameId) :
    groupBySender ed gameId (fun _ => true) 0 [] .empty transcript
      = .ok (transcript.foldl pushArtifact .empty) := by
  refine groupBySender_eq_ok.2 ⟨fun e he => ?_, h.nodup_tuples hlinked, fun _ _ => by simp, rfl⟩
  obtain ⟨hartifact, hgame⟩ := hall _ e ((h.mem_logs hlinked).1 he)
  exact ⟨hartifact, hgame, rfl⟩

end TranscriptOf

end

end Tablefolk
