import Tablefolk.Session.LobbyInvariant
import Tablefolk.Session.SmallGroup

/-!
# Runs of the lobby

Any sequence of calls on a `LobbyChainRegistry`.  Every call is refused or repeats what is
known and changes nothing, or it grows one log, publishes a roster or counts a READY
(`LobbyEffect`).  `lobby_finalization_safe` collects what follows for every reachable lobby.
-/

namespace Tablefolk

section

variable {q : ℕ} {G : Type} [AddCommGroup G] [Module (ZMod q) G] {P : Primitives q G}

/-- A call on the lobby. -/
inductive LobbyCall where
  | ingest (received : SignedEnvelope)
  | bootstrapJoin (received : SignedEnvelope)
  | bootstrapRosterMemberJoin (received : SignedEnvelope)
  | ingestRoster (received : SignedEnvelope)
  | ingestReady (received : SignedEnvelope)
  | restoreReadyFromHistory (received : SignedEnvelope)

/-- The envelope of a call. -/
def LobbyCall.received : LobbyCall → SignedEnvelope
  | .ingest received | .bootstrapJoin received | .bootstrapRosterMemberJoin received
  | .ingestRoster received | .ingestReady received | .restoreReadyFromHistory received => received

/-- The roster a call offers, if any, is among these. -/
def LobbyCall.Within (rosters : Set RosterBody) (call : LobbyCall) : Prop :=
  ∀ body, decodeRosterBody call.received.body = .ok body → body ∈ rosters

namespace LobbyChainRegistry

variable (hashRosterBody : RosterBody → Hash256) (lobby : LobbyChainRegistry P)

/-- The status a call reports, and the lobby it leaves. -/
def apply : LobbyCall → Except LobbyError LobbyStatus × LobbyChainRegistry P
  | .ingest e => ((lobby.ingest e).1.map LobbyResult.status, (lobby.ingest e).2)
  | .bootstrapJoin e => ((lobby.bootstrapJoin e).1.map LobbyResult.status, (lobby.bootstrapJoin e).2)
  | .bootstrapRosterMemberJoin e =>
      ((lobby.bootstrapRosterMemberJoin e).1.map LobbyResult.status,
        (lobby.bootstrapRosterMemberJoin e).2)
  | .ingestRoster e =>
      ((lobby.ingestRoster hashRosterBody e).1.map LobbyResult.status,
        (lobby.ingestRoster hashRosterBody e).2)
  | .ingestReady e => ((lobby.ingestReady e).1.map LobbyResult.status, (lobby.ingestReady e).2)
  | .restoreReadyFromHistory e =>
      ((lobby.restoreReadyFromHistory e).1.map LobbyResult.status,
        (lobby.restoreReadyFromHistory e).2)

/-- The status the classifier of a call predicts; restoring has none. -/
def predict : LobbyCall → Option (Except LobbyError LobbyStatus)
  | .ingest e => some (.ok (lobby.classify e).status)
  | .bootstrapJoin e => some (.ok (lobby.classifyBootstrapJoin e).status)
  | .bootstrapRosterMemberJoin e => some (.ok (lobby.classifyRosterMemberJoin e).status)
  | .ingestRoster e =>
      some ((lobby.classifyRoster hashRosterBody e).map LobbyResult.status)
  | .ingestReady e => some (.ok (lobby.classifyReady e).status)
  | .restoreReadyFromHistory _ => none

/-- The READY a call counts: one that was accepted or restored. -/
def counted (call : LobbyCall) (status : Except LobbyError LobbyStatus) : List SignedEnvelope :=
  match call, status with
  | .ingestReady e, .ok .accepted | .restoreReadyFromHistory e, .ok .accepted => [e]
  | _, _ => []

/-- The lobby after a sequence of calls, and the READYs it has counted. -/
def run : List LobbyCall → LobbyChainRegistry P × List SignedEnvelope →
    LobbyChainRegistry P × List SignedEnvelope
  | [], state => state
  | call :: rest, (lobby, readies) =>
      let (status, next) := lobby.apply hashRosterBody call
      run rest (next, readies ++ counted call status)

/-- The lobby with a roster its host has published. -/
def publish (lobby : LobbyChainRegistry P) (body : RosterBody) (artifact : SignedEnvelope) :
    LobbyChainRegistry P :=
  { lobby with
    roster := some body
    rosterHash := some (hashRosterBody body)
    rosterArtifact := some artifact
    knownRosters := Function.update lobby.knownRosters (hashRosterBody body) (some body) }

/-- What a call does to an open lobby, with the status it reports. -/
inductive LobbyEffect (lobby : LobbyChainRegistry P)
    (logs : IdentityPublicKey → List SignedEnvelope) :
    LobbyCall → LobbyStatus → LobbyChainRegistry P → Prop
  /-- nothing changes -/
  | idle {call status} (h : status ≠ .accepted) : LobbyEffect lobby logs call status lobby
  /-- a known sender's chain takes an envelope -/
  | ingested {e} (h : Continues lobby logs e) (hknown : (lobby.chains e.from_).isSome) :
      LobbyEffect lobby logs (.ingest e) .accepted (lobby.extend e)
  /-- an identity joins -/
  | joined {call body} (hcall : call = .bootstrapJoin call.received ∨
        call = .bootstrapRosterMemberJoin call.received)
      (h : Continues lobby logs call.received)
      (hbody : validateLobbyJoinEnvelope call.received lobby.context = .ok body) :
      LobbyEffect lobby logs call .accepted (lobby.extend call.received)
  /-- the host publishes a roster -/
  | published {e body next} (h : Continues lobby logs e)
      (hbody : validateLobbyRosterEnvelope P e lobby.context = .ok body)
      (hnext : ((lobby.extend e).publish hashRosterBody body e).finalizeIfReady = (.ok (), next)) :
      LobbyEffect lobby logs (.ingestRoster e) .accepted next
  /-- a member that is ready says so again -/
  | repeated {e body} (h : Continues lobby logs e) (hbody : lobby.roster = some body)
      (hnames : NamesRoster e (hashRosterBody body)) (hmember : e.from_ ∈ body.seats)
      (hmin : MIN_SESSION_SEATS ≤ body.seats.length)
      (hready : isReady (lobby.readyByRoster (hashRosterBody body)) e.from_ = true) :
      LobbyEffect lobby logs (.ingestReady e) .duplicate (lobby.extend e)
  /-- a member gets ready -/
  | readied {e body next} (h : Continues lobby logs e) (hbody : lobby.roster = some body)
      (hnames : NamesRoster e (hashRosterBody body)) (hmember : e.from_ ∈ body.seats)
      (hmin : MIN_SESSION_SEATS ≤ body.seats.length)
      (hready : isReady (lobby.readyByRoster (hashRosterBody body)) e.from_ = false)
      (hnext : ((lobby.extend e).withReady (hashRosterBody body) e.from_ e).finalizeIfReady
        = (.ok (), next)) :
      LobbyEffect lobby logs (.ingestReady e) .accepted next
  /-- a READY of the history is counted -/
  | restored {e hash body next} (hheld : e ∈ logs e.from_)
      (hknown : lobby.knownRosters hash = some body) (hnames : NamesRoster e hash)
      (hmember : e.from_ ∈ body.seats) (hmin : MIN_SESSION_SEATS ≤ body.seats.length)
      (hready : isReady (lobby.readyByRoster hash) e.from_ = false)
      (hnext : (lobby.rosterHash ≠ some hash ∧ next = lobby.withReady hash e.from_ e) ∨
        (lobby.rosterHash = some hash ∧
          (lobby.withReady hash e.from_ e).finalizeIfReady = (.ok (), next))) :
      LobbyEffect lobby logs (.restoreReadyFromHistory e) .accepted next

variable {hashRosterBody} {lobby} {rosters : Set RosterBody}
  {readies : List SignedEnvelope} {logs : IdentityPublicKey → List SignedEnvelope}

/-! ## Ingesting and joining -/

theorem isSome_eq_false_of_open (h : lobby.finalizedRegistry = none) :
    ¬ lobby.finalizedRegistry.isSome = true := by simp [h]

/-- A chain's answer is accepted exactly when the chain accepts. -/
theorem ofChain_accepted {α : Type} {result : ChainIngestResult} {value value' : α}
    (h : LobbyResult.ofChain result value = .accepted value') :
    value' = value ∧ ∃ head, result = .accepted head := by
  unfold LobbyResult.ofChain at h
  split at h
  · cases h
    exact ⟨rfl, _, rfl⟩
  · cases h
  · cases h

theorem chainOrNew_of_some {identity : IdentityPublicKey} {chain : SenderChain}
    (h : lobby.chains identity = some chain) : lobby.chainOrNew identity = chain := by
  unfold chainOrNew
  rw [h]
  rfl

/-- `ingest` on an open lobby. -/
theorem ingest_effect (hopen : lobby.finalizedRegistry = none) (hlogs : LobbyLogs lobby logs)
    (e : SignedEnvelope) : ∃ result, (lobby.ingest e).1 = .ok result ∧
      result.status = (lobby.classify e).status ∧
      LobbyEffect hashRosterBody lobby logs (.ingest e) result.status (lobby.ingest e).2 := by
  cases hclassify : lobby.classify e with
  | accepted value =>
      have h := hclassify
      unfold classify at h
      rw [if_neg (isSome_eq_false_of_open hopen)] at h
      by_cases hgame : e.game = lobby.context.gameId
      · rw [if_neg (not_not_intro hgame)] at h
        cases hchain : lobby.chains e.from_ with
        | none => rw [hchain] at h; cases h
        | some chain =>
            rw [hchain] at h
            obtain ⟨-, head, hhead⟩ := ofChain_accepted h
            have hnew := chainOrNew_of_some hchain
            obtain ⟨hseq, hprev, hingest⟩ := chainOrNew_accepted hlogs (hnew.symm ▸ hhead)
            rw [hnew] at hingest
            have hrun : lobby.ingest e
                = (.ok (.accepted (.accepted head)), lobby.extend e) := by
              unfold ingest extend
              rw [hclassify]
              simp only [hchain, hnew]
              rw [hingest]
              rfl
            rw [hrun]
            exact ⟨_, rfl, rfl, .ingested ⟨hgame, hseq, hprev⟩ (by rw [hchain]; rfl)⟩
      · rw [if_pos hgame] at h
        cases h
  | duplicate value =>
      have hrun : lobby.ingest e = (.ok (.duplicate value), lobby) := by
        unfold ingest
        rw [hclassify]
      rw [hrun]
      exact ⟨_, rfl, rfl, .idle (by simp [LobbyResult.status])⟩
  | rejected reason =>
      have hrun : lobby.ingest e = (.ok (.rejected reason), lobby) := by
        unfold ingest
        rw [hclassify]
      rw [hrun]
      exact ⟨_, rfl, rfl, .idle (by simp [LobbyResult.status])⟩

theorem game_of_validateJoin {e : SignedEnvelope} {context : LobbyBootstrapContext}
    {body : JoinBody} (h : validateLobbyJoinEnvelope e context = .ok body) :
    e.game = context.gameId ∧ e.type = .JOIN ∧ e.seq = 0 := by
  unfold validateLobbyJoinEnvelope at h
  simp only [check_bind_eq_ok, throwIf_eq_ok, not_not, not_or] at h
  exact ⟨h.1, h.2.1, h.2.2.2.2.1.1⟩

/-- `bootstrapJoin` on an open lobby. -/
theorem bootstrapJoin_effect (hopen : lobby.finalizedRegistry = none)
    (hlogs : LobbyLogs lobby logs) (e : SignedEnvelope) (call : LobbyCall)
    (hcall : call = .bootstrapJoin e ∨ call = .bootstrapRosterMemberJoin e) :
    ∃ result, (lobby.bootstrapJoin e).1 = .ok result ∧
      result.status = (lobby.classifyBootstrapJoin e).status ∧
      LobbyEffect hashRosterBody lobby logs call result.status (lobby.bootstrapJoin e).2 := by
  have hreceived : call.received = e := by
    rcases hcall with rfl | rfl <;> rfl
  cases hclassify : lobby.classifyBootstrapJoin e with
  | accepted value =>
      have h := hclassify
      unfold classifyBootstrapJoin at h
      rw [if_neg (isSome_eq_false_of_open hopen)] at h
      cases hbody : validateLobbyJoinEnvelope e lobby.context with
      | error reason => rw [hbody] at h; cases h
      | ok body =>
          rw [hbody] at h
          obtain ⟨hvalue, head, hhead⟩ := ofChain_accepted h
          obtain ⟨hseq, hprev, hingest⟩ := chainOrNew_accepted hlogs hhead
          have hrun : lobby.bootstrapJoin e
              = (.ok (.accepted (.accepted head, body)), lobby.extend e) := by
            unfold bootstrapJoin extend
            rw [hclassify, hvalue]
            simp only
            rw [hingest]
          rw [hrun]
          refine ⟨_, rfl, rfl, ?_⟩
          rw [← hreceived] at hseq hprev hbody ⊢
          exact .joined (by rwa [hreceived]) ⟨(game_of_validateJoin hbody).1, hseq, hprev⟩ hbody
  | duplicate value =>
      have hrun : lobby.bootstrapJoin e = (.ok (.duplicate value), lobby) := by
        unfold bootstrapJoin
        rw [hclassify]
      rw [hrun]
      exact ⟨_, rfl, rfl, .idle (by simp [LobbyResult.status])⟩
  | rejected reason =>
      have hrun : lobby.bootstrapJoin e = (.ok (.rejected reason), lobby) := by
        unfold bootstrapJoin
        rw [hclassify]
      rw [hrun]
      exact ⟨_, rfl, rfl, .idle (by simp [LobbyResult.status])⟩

/-- `bootstrapRosterMemberJoin` on an open lobby. -/
theorem memberJoin_effect (hopen : lobby.finalizedRegistry = none)
    (hlogs : LobbyLogs lobby logs) (e : SignedEnvelope) :
    ∃ result, (lobby.bootstrapRosterMemberJoin e).1 = .ok result ∧
      result.status = (lobby.classifyRosterMemberJoin e).status ∧
      LobbyEffect hashRosterBody lobby logs (.bootstrapRosterMemberJoin e) result.status
        (lobby.bootstrapRosterMemberJoin e).2 := by
  by_cases hmember : lobby.isRosterMember e.from_ = false
  · have hclassify : lobby.classifyRosterMemberJoin e = .rejected .not_roster_member :=
      if_pos hmember
    have hrun : lobby.bootstrapRosterMemberJoin e
        = (.ok (.rejected .not_roster_member), lobby) := by
      unfold bootstrapRosterMemberJoin
      rw [hclassify]
    rw [hrun, hclassify]
    exact ⟨_, rfl, rfl, .idle (by simp [LobbyResult.status])⟩
  · have hclassify : lobby.classifyRosterMemberJoin e = lobby.classifyBootstrapJoin e :=
      if_neg hmember
    have hrun : lobby.bootstrapRosterMemberJoin e = lobby.bootstrapJoin e := by
      unfold bootstrapRosterMemberJoin
      rw [hclassify]
      cases hjoin : lobby.classifyBootstrapJoin e with
      | accepted value => rfl
      | duplicate value => rfl
      | rejected reason =>
          unfold bootstrapJoin
          rw [hjoin]
    rw [hrun, hclassify]
    exact bootstrapJoin_effect hopen hlogs e _ (.inr rfl)

/-! ## Rosters -/

theorem validateRoster_eq_ok {e : SignedEnvelope} {context : LobbyBootstrapContext}
    {body : RosterBody} (h : validateLobbyRosterEnvelope P e context = .ok body) :
    e.game = context.gameId ∧ e.from_ = context.host ∧ e.type = .ROSTER ∧
      decodeRosterBody e.body = .ok body ∧ context.host ∈ body.seats ∧
      ∀ identity ∈ body.seats, P.importEd25519PublicKey identity = true := by
  unfold validateLobbyRosterEnvelope at h
  simp only [check_bind_eq_ok, throwIf_eq_ok, not_not] at h
  obtain ⟨hgame, hfrom, htype, -, -, h⟩ := h
  cases hdecode : decodeRosterBody e.body with
  | error reason =>
      rw [hdecode] at h
      cases h
  | ok other =>
      rw [hdecode] at h
      simp only [Except.mapError, ok_bind, check_bind_eq_ok, throwIf_eq_ok, not_not] at h
      obtain ⟨-, -, h⟩ := h
      cases hinvalid : firstInvalid P other.seats with
      | some index =>
          simp only [hinvalid] at h
          cases h
      | none =>
          simp only [hinvalid, check_bind_eq_ok, throwIf_eq_ok, not_not, except_pure_eq] at h
          obtain ⟨hhost, h⟩ := h
          cases h
          refine ⟨hgame, hfrom, htype, rfl, hhost, fun identity hidentity => ?_⟩
          unfold firstInvalid at hinvalid
          rw [List.findIdx?_eq_none_iff] at hinvalid
          simpa using hinvalid identity hidentity

/-- `ingestRoster` on an open lobby. -/
theorem ingestRoster_effect (hinj : Set.InjOn hashRosterBody rosters)
    (hinv : LobbyInvariant hashRosterBody rosters readies lobby logs)
    (hopen : lobby.finalizedRegistry = none) (e : SignedEnvelope)
    (hwithin : LobbyCall.Within rosters (.ingestRoster e)) :
    ∃ result, (lobby.ingestRoster hashRosterBody e).1 = .ok result ∧
      (lobby.classifyRoster hashRosterBody e).map LobbyResult.status = .ok result.status ∧
      LobbyEffect hashRosterBody lobby logs (.ingestRoster e) result.status
        (lobby.ingestRoster hashRosterBody e).2 := by
  obtain ⟨hostChain, hhost⟩ := Option.isSome_iff_exists.1 hinv.held.host
  cases hbody : validateLobbyRosterEnvelope P e lobby.context with
  | error reason =>
      have hclassify : lobby.classifyRoster hashRosterBody e = .ok (.rejected reason) := by
        unfold classifyRoster
        rw [if_neg (isSome_eq_false_of_open hopen), hbody]
      have hrun : lobby.ingestRoster hashRosterBody e = (.ok (.rejected reason), lobby) := by
        unfold ingestRoster
        rw [hclassify]
      rw [hrun, hclassify]
      exact ⟨_, rfl, rfl, .idle (by simp [LobbyResult.status])⟩
  | ok body =>
      obtain ⟨hgame, hfrom, -, hdecode, -, hvalid⟩ := validateRoster_eq_ok hbody
      have hnew := chainOrNew_of_some hhost
      have hclassify : lobby.classifyRoster hashRosterBody e
          = .ok (.ofChain (hostChain.classify P e) ⟨hostChain.classify P e, body,
            hashRosterBody body, body.iceConfigHash = lobby.context.iceConfigHash⟩) := by
        unfold classifyRoster
        rw [if_neg (isSome_eq_false_of_open hopen), hbody]
        simp only [hhost]
      cases hchain : hostChain.classify P e with
      | accepted head =>
          rw [← hfrom] at hnew hhost
          obtain ⟨hseq, hprev, hingest⟩ :=
            chainOrNew_accepted hinv.held (hnew.symm ▸ hchain)
          rw [hnew] at hingest
          have hcontinues : Continues lobby logs e := ⟨hgame, hseq, hprev⟩
          have hlogs := extend_logs hinv.held hcontinues
          have hreadies := publish_readies hinj (extend_readies hinv.counts e)
            (hwithin body hdecode) hvalid e
          have hpublished : LobbyLogs ((lobby.extend e).publish hashRosterBody body e)
              (grow logs e) := ⟨hlogs.chain, hlogs.absent, hlogs.game, hlogs.host⟩
          obtain ⟨next, hnext, -, -⟩ := finalizeIfReady_spec hpublished hreadies hopen
          have hrun : lobby.ingestRoster hashRosterBody e = (.ok (.accepted
              ⟨.accepted head, body, hashRosterBody body,
                body.iceConfigHash = lobby.context.iceConfigHash⟩), next) := by
            unfold ingestRoster
            rw [hclassify, hchain]
            simp only [LobbyResult.ofChain]
            rw [← hfrom, hhost]
            simp only
            rw [hingest]
            simp only
            have hsame : ({ lobby.withChain e.from_ (hostChain.ingest P e).2 with
                roster := some body
                rosterHash := some (hashRosterBody body)
                rosterArtifact := some e
                knownRosters := Function.update lobby.knownRosters (hashRosterBody body)
                  (some body) } : LobbyChainRegistry P)
                = (lobby.extend e).publish hashRosterBody body e := by
              unfold extend publish
              rw [hnew]
              rfl
            rw [hsame, hnext]
          rw [hrun, hclassify, hchain]
          exact ⟨_, rfl, rfl, .published hcontinues hbody hnext⟩
      | duplicate existing =>
          rw [hchain] at hclassify
          have hrun : lobby.ingestRoster hashRosterBody e = (.ok (.duplicate
              ⟨.duplicate existing, body, hashRosterBody body,
                body.iceConfigHash = lobby.context.iceConfigHash⟩), lobby) := by
            unfold ingestRoster
            rw [hclassify]
            rfl
          rw [hrun, hclassify]
          exact ⟨_, rfl, rfl, .idle (by simp [LobbyResult.status])⟩
      | wrong_sender | gap | broken_prev | equivocation =>
          rw [hchain] at hclassify
          have hrun : ∃ reason, lobby.ingestRoster hashRosterBody e
              = (.ok (.rejected reason), lobby) := by
            unfold ingestRoster
            rw [hclassify]
            exact ⟨_, rfl⟩
          obtain ⟨reason, hrun⟩ := hrun
          rw [hrun, hclassify]
          exact ⟨_, rfl, rfl, .idle (by simp [LobbyResult.status])⟩

/-! ## Readiness -/

theorem validateReady_eq_ok {e : SignedEnvelope} {context : LobbyBootstrapContext} {u : Unit}
    (h : validateReadyEnvelope e context = .ok u) : e.game = context.gameId ∧ e.type = .READY ∧
      e.phase = "lobby" ∧ e.round = 0 := by
  unfold validateReadyEnvelope at h
  simpa only [check_bind_eq_ok, throwIf_eq_ok, not_not] using h

theorem RosterBody.mem_of_seatOf {body : RosterBody} {identity : IdentityPublicKey} {seat : ℕ}
    (h : body.seatOf identity = some seat) : identity ∈ body.seats := by
  unfold RosterBody.seatOf at h
  rw [List.findIdx?_eq_some_iff_getElem] at h
  obtain ⟨hlt, hsame, -⟩ := h
  rw [← of_decide_eq_true hsame]
  exact List.getElem_mem hlt

/-- What `classifyReady` has checked of a READY that it does not refuse. -/
structure ReadyChecks (lobby : LobbyChainRegistry P) (e : SignedEnvelope) (body : RosterBody)
    (rosterHash : Hash256) (seat : ℕ) (chain : SenderChain) : Prop where
  roster : lobby.roster = some body
  hash : lobby.rosterHash = some rosterHash
  game : e.game = lobby.context.gameId
  names : NamesRoster e rosterHash
  seatOf : body.seatOf e.from_ = some seat
  min : MIN_SESSION_SEATS ≤ body.seats.length
  chain : lobby.chains e.from_ = some chain

/-- `classifyReady` refuses, or all checks have passed and the chain answers. -/
theorem classifyReady_cases (hopen : lobby.finalizedRegistry = none) (e : SignedEnvelope) :
    (∃ reason, lobby.classifyReady e = .rejected reason) ∨
    ∃ body rosterHash seat chain, ReadyChecks lobby e body rosterHash seat chain ∧
      ((∃ head, chain.classify P e = .accepted head ∧ lobby.classifyReady e =
        if isReady (lobby.readyByRoster rosterHash) e.from_ then
          .duplicate ⟨seat, lobby.state, ⟨rosterHash⟩, .accepted head⟩
        else .accepted ⟨seat,
          if (lobby.readyByRoster rosterHash).length + 1 = body.seats.length then .finalized
          else lobby.state, ⟨rosterHash⟩, .accepted head⟩) ∨
      ∃ existing, lobby.classifyReady e
        = .duplicate ⟨seat, lobby.state, ⟨rosterHash⟩, .duplicate existing⟩) := by
  unfold classifyReady
  rw [if_neg (isSome_eq_false_of_open hopen)]
  cases hplace : validateReadyEnvelope e lobby.context with
  | error reason => exact .inl ⟨_, rfl⟩
  | ok u =>
      obtain ⟨hgame, htype, -, -⟩ := validateReady_eq_ok hplace
      cases hroster : lobby.roster with
      | none => exact .inl ⟨_, rfl⟩
      | some body =>
          cases hhash : lobby.rosterHash with
          | none => exact .inl ⟨_, rfl⟩
          | some rosterHash =>
              simp only
              by_cases hmin : body.seats.length < MIN_SESSION_SEATS
              · rw [if_pos hmin]
                exact .inl ⟨_, rfl⟩
              rw [if_neg hmin]
              cases hseat : body.seatOf e.from_ with
              | none => exact .inl ⟨_, rfl⟩
              | some seat =>
                  cases hbody : decodeReadyBody e.body with
                  | error reason => exact .inl ⟨_, rfl⟩
                  | ok ready =>
                      simp only
                      by_cases hsame : ready.rosterHash = rosterHash
                      · rw [if_neg (not_not_intro hsame)]
                        cases hchain : lobby.chains e.from_ with
                        | none => exact .inl ⟨_, rfl⟩
                        | some chain =>
                            obtain ⟨readyHash⟩ := ready
                            obtain rfl : readyHash = rosterHash := hsame
                            have hchecks : ReadyChecks lobby e body readyHash seat chain :=
                              ⟨hroster, hhash, hgame, ⟨htype, hbody⟩, hseat, not_lt.1 hmin, hchain⟩
                            simp only
                            cases hresult : chain.classify P e with
                            | accepted head =>
                                exact .inr ⟨body, readyHash, seat, chain, hchecks,
                                  .inl ⟨head, hresult, rfl⟩⟩
                            | duplicate existing =>
                                exact .inr ⟨body, readyHash, seat, chain, hchecks,
                                  .inr ⟨existing, rfl⟩⟩
                            | wrong_sender | gap | broken_prev | equivocation =>
                                exact .inl ⟨_, rfl⟩
                      · rw [if_pos hsame]
                        exact .inl ⟨_, rfl⟩

theorem state_of_open (hopen : lobby.finalizedRegistry = none) {body : RosterBody}
    (hbody : lobby.roster = some body) (hmin : MIN_SESSION_SEATS ≤ body.seats.length) :
    lobby.state = .collecting_ready := by
  unfold state
  rw [if_neg (isSome_eq_false_of_open hopen), hbody]
  simp only [if_pos hmin]

/-- The state after `finalizeIfReady` says whether the roster is ready. -/
theorem state_of_finalized {next : LobbyChainRegistry P} {body : RosterBody}
    (h : next = lobby ∧ ¬ Finalizable hashRosterBody lobby ∨ Finalizable hashRosterBody lobby ∧
      ∃ registry, next = { lobby with finalizedRegistry := some registry })
    (hopen : lobby.finalizedRegistry = none) (hbody : lobby.roster = some body)
    (hmin : MIN_SESSION_SEATS ≤ body.seats.length) :
    next.state = if (lobby.readyByRoster (hashRosterBody body)).length = body.seats.length
      then .finalized else .collecting_ready := by
  have hiff : Finalizable hashRosterBody lobby ↔
      (lobby.readyByRoster (hashRosterBody body)).length = body.seats.length := by
    constructor
    · rintro ⟨other, hother, -, hlen⟩
      rw [hbody] at hother
      cases hother
      exact hlen
    · exact fun hlen => ⟨body, hbody, hmin, hlen⟩
  rcases h with ⟨rfl, hnot⟩ | ⟨hready, registry, rfl⟩
  · rw [if_neg (hiff.not.1 hnot)]
    exact state_of_open hopen hbody hmin
  · rw [if_pos (hiff.1 hready)]
    rfl

/-- `ingestReady` on an open lobby: it returns what `classifyReady` predicted, and reaches
the state it predicted. -/
theorem ingestReady_effect (hinv : LobbyInvariant hashRosterBody rosters readies lobby logs)
    (hopen : lobby.finalizedRegistry = none) (e : SignedEnvelope) :
    (lobby.ingestReady e).1 = .ok (lobby.classifyReady e) ∧
    (∀ value, lobby.classifyReady e = .accepted value ∨ lobby.classifyReady e = .duplicate value →
      value.state = (lobby.ingestReady e).2.state) ∧
    LobbyEffect hashRosterBody lobby logs (.ingestReady e) (lobby.classifyReady e).status
      (lobby.ingestReady e).2 := by
  rcases classifyReady_cases hopen e with ⟨reason, hclassify⟩ |
    ⟨body, rosterHash, seat, chain, hchecks, hanswer⟩
  · have hrun : lobby.ingestReady e = (.ok (.rejected reason), lobby) := by
      unfold ingestReady
      rw [hclassify]
    rw [hrun, hclassify]
    refine ⟨rfl, ?_, .idle ?_⟩
    · rintro value (h | h) <;> cases h
    · unfold LobbyResult.status
      simp
  · have hhash : rosterHash = hashRosterBody body := by
      have := hinv.counts.rosterHash
      rw [hchecks.roster, hchecks.hash] at this
      exact Option.some.inj this
    subst hhash
    have hmember := RosterBody.mem_of_seatOf hchecks.seatOf
    rcases hanswer with ⟨head, hhead, hclassify⟩ | ⟨existing, hclassify⟩
    · have hnew := chainOrNew_of_some hchecks.chain
      obtain ⟨hseq, hprev, hingest⟩ := chainOrNew_accepted hinv.held (hnew.symm ▸ hhead)
      rw [hnew] at hingest
      have hcontinues : Continues lobby logs e := ⟨hchecks.game, hseq, hprev⟩
      have hextend : lobby.withChain e.from_ (chain.ingest P e).2 = lobby.extend e := by
        unfold extend
        rw [hnew]
      by_cases hready : isReady (lobby.readyByRoster (hashRosterBody body)) e.from_ = true
      · rw [if_pos hready] at hclassify
        have hrun : lobby.ingestReady e = (.ok (.duplicate ⟨seat, lobby.state,
            ⟨hashRosterBody body⟩, .accepted head⟩), lobby.extend e) := by
          unfold ingestReady commitReady
          rw [hclassify]
          simp only [hchecks.chain]
          rw [hingest]
          simp only [if_true, hextend]
          rfl
        rw [hrun, hclassify]
        refine ⟨rfl, ?_, .repeated hcontinues hchecks.roster hchecks.names hmember
          hchecks.min hready⟩
        rintro value (h | h) <;> cases h
        rfl
      · rw [if_neg hready] at hclassify
        have hnot : isReady (lobby.readyByRoster (hashRosterBody body)) e.from_ = false :=
          Bool.eq_false_iff.2 hready
        have hlogs := extend_logs hinv.held hcontinues
        have hheld : e ∈ grow logs e e.from_ := mem_grow.2 (.inr ⟨rfl, rfl⟩)
        have hreadies := withReady_readies (extend_readies hinv.counts e)
          (hinv.counts.current hchecks.roster) hchecks.min hmember hheld hchecks.names hnot
        have hcounted : LobbyLogs ((lobby.extend e).withReady (hashRosterBody body) e.from_ e)
            (grow logs e) := ⟨hlogs.chain, hlogs.absent, hlogs.game, hlogs.host⟩
        obtain ⟨next, hnext, -, hfinal⟩ := finalizeIfReady_spec hcounted hreadies hopen
        have hstate := state_of_finalized hfinal hopen hchecks.roster hchecks.min
        have hlen : (((lobby.extend e).withReady (hashRosterBody body) e.from_ e).readyByRoster
            (hashRosterBody body)).length
              = (lobby.readyByRoster (hashRosterBody body)).length + 1 := by
          unfold withReady
          simp [extend, withChain]
        rw [hlen] at hstate
        rw [state_of_open hopen hchecks.roster hchecks.min, ← hstate] at hclassify
        have hrun : lobby.ingestReady e = (.ok (.accepted ⟨seat, next.state,
            ⟨hashRosterBody body⟩, .accepted head⟩), next) := by
          unfold ingestReady commitReady
          rw [hclassify]
          simp only [hchecks.chain]
          rw [hingest]
          simp only [hextend, hnext, Bool.false_eq_true, if_false]
        rw [hrun, hclassify]
        refine ⟨rfl, ?_, .readied hcontinues hchecks.roster hchecks.names hmember
          hchecks.min hnot hnext⟩
        rintro value (h | h) <;> cases h
        rfl
    · have hrun : lobby.ingestReady e = (.ok (.duplicate ⟨seat, lobby.state,
          ⟨hashRosterBody body⟩, .duplicate existing⟩), lobby) := by
        unfold ingestReady
        rw [hclassify]
      rw [hrun, hclassify]
      refine ⟨rfl, ?_, .idle (by simp [LobbyResult.status])⟩
      rintro value (h | h) <;> cases h
      rfl

/-- A READY of the history is in its sender's log. -/
theorem mem_of_history (hlogs : LobbyLogs lobby logs) {e : SignedEnvelope}
    (h : ((lobby.chains e.from_).bind fun chain => chain.accepted e.seq) = some e) :
    e ∈ logs e.from_ := by
  obtain ⟨chain, hchain, haccepted⟩ := Option.bind_eq_some_iff.1 h
  rw [(hlogs.chain hchain).2.accepted] at haccepted
  exact List.mem_of_getElem? haccepted

/-- `restoreReadyFromHistory` on an open lobby. -/
theorem restore_effect (hinv : LobbyInvariant hashRosterBody rosters readies lobby logs)
    (hopen : lobby.finalizedRegistry = none) (e : SignedEnvelope) :
    ∃ result, (lobby.restoreReadyFromHistory e).1 = .ok result ∧
      LobbyEffect hashRosterBody lobby logs (.restoreReadyFromHistory e) result.status
        (lobby.restoreReadyFromHistory e).2 := by
  have hrefuse (reason : LobbyRejection)
      (h : lobby.restoreReadyFromHistory e = (.ok (.rejected reason), lobby)) :
      ∃ result, (lobby.restoreReadyFromHistory e).1 = .ok result ∧
        LobbyEffect hashRosterBody lobby logs (.restoreReadyFromHistory e) result.status
          (lobby.restoreReadyFromHistory e).2 := by
    rw [h]
    refine ⟨_, rfl, .idle ?_⟩
    unfold LobbyResult.status
    simp
  have hrun : lobby.restoreReadyFromHistory e = lobby.restoreReadyFromHistory e := rfl
  conv_rhs at hrun => unfold restoreReadyFromHistory
  rw [if_neg (isSome_eq_false_of_open hopen)] at hrun
  cases hplace : validateReadyEnvelope e lobby.context with
  | error reason => exact hrefuse reason (by rw [hrun, hplace])
  | ok u =>
      obtain ⟨-, htype, -, -⟩ := validateReady_eq_ok hplace
      rw [hplace] at hrun
      cases hbody : decodeReadyBody e.body with
      | error reason => exact hrefuse .malformed_body (by rw [hrun, hbody])
      | ok ready =>
          obtain ⟨hash⟩ := ready
          rw [hbody] at hrun
          simp only at hrun
          cases hknown : lobby.knownRosters hash with
          | none => exact hrefuse .unknown_roster_hash (by rw [hrun, hknown])
          | some body =>
              rw [hknown] at hrun
              simp only at hrun
              by_cases hmin : body.seats.length < MIN_SESSION_SEATS
              · exact hrefuse .roster_not_finalizable (by rw [hrun, if_pos hmin])
              rw [if_neg hmin] at hrun
              cases hseat : body.seatOf e.from_ with
              | none => exact hrefuse .not_roster_member (by rw [hrun, hseat])
              | some seat =>
                  rw [hseat] at hrun
                  simp only at hrun
                  have hmember := RosterBody.mem_of_seatOf hseat
                  cases hhistory : (lobby.chains e.from_).bind fun chain =>
                      chain.accepted e.seq with
                  | none => exact hrefuse .not_in_history (by rw [hrun, hhistory])
                  | some historical =>
                      rw [hhistory] at hrun
                      simp only at hrun
                      by_cases hsame : historical = e
                      · subst hsame
                        rw [if_neg (not_not_intro rfl)] at hrun
                        have hheld := mem_of_history hinv.held hhistory
                        by_cases hready : isReady (lobby.readyByRoster hash) historical.from_ = true
                        · rw [if_pos hready] at hrun
                          rw [hrun]
                          exact ⟨_, rfl, .idle (by simp [LobbyResult.status])⟩
                        · have hnot : isReady (lobby.readyByRoster hash) historical.from_ = false :=
                            Bool.eq_false_iff.2 hready
                          have hnames : NamesRoster historical hash := ⟨htype, hbody⟩
                          rw [if_neg hready] at hrun
                          have hreadies := withReady_readies hinv.counts hknown
                            (not_lt.1 hmin) hmember hheld hnames hnot
                          have hcounted : LobbyLogs
                              (lobby.withReady hash historical.from_ historical) logs :=
                            ⟨hinv.held.chain, hinv.held.absent, hinv.held.game, hinv.held.host⟩
                          obtain ⟨next, hnext, -, -⟩ := finalizeIfReady_spec hcounted hreadies hopen
                          by_cases hcurrent : lobby.rosterHash = some hash
                          · have hif : (lobby.withReady hash historical.from_ historical).rosterHash
                                = some hash := hcurrent
                            rw [if_pos hif, hnext] at hrun
                            rw [hrun]
                            exact ⟨_, rfl, .restored hheld hknown hnames hmember (not_lt.1 hmin)
                              hnot (.inr ⟨hcurrent, hnext⟩)⟩
                          · have hif : ¬ (lobby.withReady hash historical.from_ historical).rosterHash
                                = some hash := hcurrent
                            rw [if_neg hif] at hrun
                            rw [hrun]
                            exact ⟨_, rfl, .restored hheld hknown hnames hmember (not_lt.1 hmin)
                              hnot (.inl ⟨hcurrent, rfl⟩)⟩
                      · exact hrefuse .not_in_history (by rw [hrun, if_pos hsame])

/-! ## Every call -/

/-- **A finalized lobby refuses every call and stays as it is.** -/
theorem apply_of_finalized (h : lobby.finalizedRegistry.isSome = true) (call : LobbyCall) :
    lobby.apply hashRosterBody call = (.ok .rejected, lobby) := by
  have hjoin (e : SignedEnvelope) : lobby.classifyBootstrapJoin e = .rejected .lobby_finalized := by
    unfold classifyBootstrapJoin
    rw [if_pos h]
  have hbootstrap (e : SignedEnvelope) :
      lobby.bootstrapJoin e = (.ok (.rejected .lobby_finalized), lobby) := by
    unfold bootstrapJoin
    rw [hjoin]
  unfold apply
  cases call with
  | ingest e => simp [ingest, classify, h, Except.map, LobbyResult.status]
  | bootstrapJoin e => simp [hbootstrap, Except.map, LobbyResult.status]
  | bootstrapRosterMemberJoin e =>
      by_cases hmember : lobby.isRosterMember e.from_ = false <;>
        simp [bootstrapRosterMemberJoin, classifyRosterMemberJoin, hmember, hjoin, Except.map,
          LobbyResult.status]
  | ingestRoster e => simp [ingestRoster, classifyRoster, h, Except.map, LobbyResult.status]
  | ingestReady e => simp [ingestReady, classifyReady, h, Except.map, LobbyResult.status]
  | restoreReadyFromHistory e =>
      simp [restoreReadyFromHistory, h, Except.map, LobbyResult.status]

theorem predict_of_finalized (h : lobby.finalizedRegistry.isSome = true) {call : LobbyCall}
    {predicted : Except LobbyError LobbyStatus}
    (hpredicted : lobby.predict hashRosterBody call = some predicted) :
    predicted = .ok .rejected := by
  have hjoin (e : SignedEnvelope) : lobby.classifyBootstrapJoin e = .rejected .lobby_finalized := by
    unfold classifyBootstrapJoin
    rw [if_pos h]
  unfold predict at hpredicted
  cases call with
  | ingest e =>
      cases hpredicted
      simp [classify, h, LobbyResult.status]
  | bootstrapJoin e =>
      cases hpredicted
      simp [hjoin, LobbyResult.status]
  | bootstrapRosterMemberJoin e =>
      cases hpredicted
      by_cases hmember : lobby.isRosterMember e.from_ = false <;>
        simp [classifyRosterMemberJoin, hmember, hjoin, LobbyResult.status]
  | ingestRoster e =>
      cases hpredicted
      simp [classifyRoster, h, Except.map, LobbyResult.status]
  | ingestReady e =>
      cases hpredicted
      simp [classifyReady, h, LobbyResult.status]
  | restoreReadyFromHistory e => cases hpredicted

/-- What a call on an open lobby reports, and what it does. -/
theorem apply_effect (hinj : Set.InjOn hashRosterBody rosters)
    (hinv : LobbyInvariant hashRosterBody rosters readies lobby logs)
    (hopen : lobby.finalizedRegistry = none) (call : LobbyCall) (hwithin : call.Within rosters) :
    ∃ status, (lobby.apply hashRosterBody call).1 = .ok status ∧
      (∀ predicted, lobby.predict hashRosterBody call = some predicted →
        predicted = .ok status) ∧
      LobbyEffect hashRosterBody lobby logs call status (lobby.apply hashRosterBody call).2 := by
  unfold apply predict
  cases call with
  | ingest e =>
      obtain ⟨result, hrun, hstatus, heffect⟩ := ingest_effect hopen hinv.held e
      refine ⟨result.status, by simp only [hrun, Except.map], ?_, heffect⟩
      rintro predicted ⟨⟩
      rw [hstatus]
  | bootstrapJoin e =>
      obtain ⟨result, hrun, hstatus, heffect⟩ :=
        bootstrapJoin_effect hopen hinv.held e (.bootstrapJoin e) (.inl rfl)
      refine ⟨result.status, by simp only [hrun, Except.map], ?_, heffect⟩
      rintro predicted ⟨⟩
      rw [hstatus]
  | bootstrapRosterMemberJoin e =>
      obtain ⟨result, hrun, hstatus, heffect⟩ := memberJoin_effect hopen hinv.held e
      refine ⟨result.status, by simp only [hrun, Except.map], ?_, heffect⟩
      rintro predicted ⟨⟩
      rw [hstatus]
  | ingestRoster e =>
      obtain ⟨result, hrun, hstatus, heffect⟩ := ingestRoster_effect hinj hinv hopen e hwithin
      refine ⟨result.status, by simp only [hrun, Except.map], ?_, heffect⟩
      rintro predicted ⟨⟩
      exact hstatus
  | ingestReady e =>
      obtain ⟨hrun, -, heffect⟩ := ingestReady_effect hinv hopen e
      refine ⟨_, by simp only [hrun, Except.map], ?_, heffect⟩
      rintro predicted ⟨⟩
      rfl
  | restoreReadyFromHistory e =>
      obtain ⟨result, hrun, heffect⟩ := restore_effect hinv hopen e
      refine ⟨result.status, by simp only [hrun, Except.map], ?_, heffect⟩
      rintro predicted ⟨⟩

/-- Every effect keeps the invariant. -/
theorem LobbyEffect.invariant (hinj : Set.InjOn hashRosterBody rosters)
    (hinv : LobbyInvariant hashRosterBody rosters readies lobby logs)
    (hopen : lobby.finalizedRegistry = none) {call : LobbyCall} {status : LobbyStatus}
    {next : LobbyChainRegistry P} (hwithin : call.Within rosters)
    (h : LobbyEffect hashRosterBody lobby logs call status next) :
    next.context = lobby.context ∧ ∃ logs',
      LobbyInvariant hashRosterBody rosters (readies ++ counted call (.ok status)) next logs' := by
  have hgrown {e : SignedEnvelope} (hcontinues : Continues lobby logs e) :
      LobbyInvariant hashRosterBody rosters readies (lobby.extend e) (grow logs e) := by
    refine ⟨extend_logs hinv.held hcontinues, extend_readies hinv.counts e, fun _ => ?_,
      fun hsome => ?_⟩
    · exact hinv.open_ hopen
    · have hnone : (lobby.extend e).finalizedRegistry = none := hopen
      rw [hnone] at hsome
      cases hsome
  -- the context of what `finalizeIfReady` leaves
  have hcontext {before after : LobbyChainRegistry P}
      (hfinal : after = before ∧ ¬ Finalizable hashRosterBody before ∨
        Finalizable hashRosterBody before ∧
          ∃ registry, after = { before with finalizedRegistry := some registry })
      (hsame : before.context = lobby.context) :
      after.context = lobby.context := by
    rcases hfinal with ⟨rfl, -⟩ | ⟨-, registry, rfl⟩ <;> exact hsame
  cases h with
  | idle hnot =>
      have hnone : counted call (.ok status) = [] := by
        unfold counted
        cases status <;> cases call <;> first | rfl | exact absurd rfl hnot
      rw [hnone, List.append_nil]
      exact ⟨rfl, logs, hinv⟩
  | ingested hcontinues hknown =>
      rw [show counted (LobbyCall.ingest _) (.ok .accepted) = [] from rfl, List.append_nil]
      exact ⟨rfl, _, hgrown hcontinues⟩
  | joined hcall hcontinues hbody =>
      have hnone : counted call (.ok .accepted) = [] := by
        rcases hcall with hcall | hcall <;> rw [hcall] <;> rfl
      rw [hnone, List.append_nil]
      exact ⟨rfl, _, hgrown hcontinues⟩
  | @published e body next hcontinues hbody hnext =>
      rw [show counted (LobbyCall.ingestRoster e) (.ok .accepted) = [] from rfl, List.append_nil]
      obtain ⟨-, -, -, hdecode, -, hvalid⟩ := validateRoster_eq_ok hbody
      have hlogs := extend_logs hinv.held hcontinues
      have hpublished : LobbyLogs ((lobby.extend e).publish hashRosterBody body e)
          (grow logs e) := ⟨hlogs.chain, hlogs.absent, hlogs.game, hlogs.host⟩
      obtain ⟨after, hafter, hkeeps, hfinal⟩ := finalizeIfReady_spec hpublished
        (publish_readies hinj (extend_readies hinv.counts e) (hwithin body hdecode) hvalid e) hopen
      rw [hnext] at hafter
      cases hafter
      exact ⟨hcontext hfinal rfl, _, hkeeps⟩
  | @repeated e body hcontinues hbody hnames hmember hmin hready =>
      rw [show counted (LobbyCall.ingestReady e) (.ok .duplicate) = [] from rfl, List.append_nil]
      exact ⟨rfl, _, hgrown hcontinues⟩
  | @readied e body next hcontinues hbody hnames hmember hmin hready hnext =>
      have hlogs := extend_logs hinv.held hcontinues
      have hcounted : LobbyLogs ((lobby.extend e).withReady (hashRosterBody body) e.from_ e)
          (grow logs e) := ⟨hlogs.chain, hlogs.absent, hlogs.game, hlogs.host⟩
      obtain ⟨after, hafter, hkeeps, hfinal⟩ := finalizeIfReady_spec hcounted
        (withReady_readies (extend_readies hinv.counts e) (hinv.counts.current hbody) hmin hmember
          (mem_grow.2 (.inr ⟨rfl, rfl⟩)) hnames hready) hopen
      rw [hnext] at hafter
      cases hafter
      exact ⟨hcontext hfinal rfl, _, hkeeps⟩
  | @restored e hash body next hheld hknown hnames hmember hmin hready hnext =>
      have hreadies := withReady_readies hinv.counts hknown hmin hmember hheld hnames hready
      have hcounted : LobbyLogs (lobby.withReady hash e.from_ e) logs :=
        ⟨hinv.held.chain, hinv.held.absent, hinv.held.game, hinv.held.host⟩
      rcases hnext with ⟨hother, rfl⟩ | ⟨hcurrent, hnext⟩
      · refine ⟨rfl, logs, hcounted, hreadies, fun _ hready => ?_, fun hsome => ?_⟩
        · -- the current roster is another one, whose READYs are the same as before
          obtain ⟨current, hroster, hmin', hlen⟩ := hready
          have hroster' : lobby.roster = some current := hroster
          have hne : hashRosterBody current ≠ hash := by
            rintro rfl
            exact hother (by rw [hinv.counts.rosterHash, hroster']; rfl)
          refine hinv.open_ hopen ⟨current, hroster', hmin', ?_⟩
          simpa [withReady, Function.update_of_ne hne] using hlen
        · have hnone : (lobby.withReady hash e.from_ e).finalizedRegistry = none := hopen
          rw [hnone] at hsome
          cases hsome
      · obtain ⟨after, hafter, hkeeps, hfinal⟩ := finalizeIfReady_spec hcounted hreadies hopen
        rw [hnext] at hafter
        cases hafter
        exact ⟨hcontext hfinal rfl, _, hkeeps⟩

/-- Every run keeps the invariant. -/
theorem run_invariant (hinj : Set.InjOn hashRosterBody rosters) (calls : List LobbyCall)
    (hwithin : ∀ call ∈ calls, call.Within rosters)
    (hinv : LobbyInvariant hashRosterBody rosters readies lobby logs) :
    (run hashRosterBody calls (lobby, readies)).1.context = lobby.context ∧ ∃ logs',
      LobbyInvariant hashRosterBody rosters (run hashRosterBody calls (lobby, readies)).2
        (run hashRosterBody calls (lobby, readies)).1 logs' := by
  induction calls generalizing lobby readies logs with
  | nil => exact ⟨rfl, logs, hinv⟩
  | cons call rest ih =>
      have hrest := fun other hother => hwithin other (List.mem_cons_of_mem call hother)
      unfold run
      cases hfinal : lobby.finalizedRegistry with
      | none =>
          obtain ⟨status, hstatus, -, heffect⟩ :=
            apply_effect hinj hinv hfinal call (hwithin call List.mem_cons_self)
          obtain ⟨hcontext, logs', hnext⟩ :=
            heffect.invariant hinj hinv hfinal (hwithin call List.mem_cons_self)
          simp only [hstatus]
          obtain ⟨hcontext', hlast⟩ := ih hrest hnext
          exact ⟨hcontext'.trans hcontext, hlast⟩
      | some registry =>
          have hsome : lobby.finalizedRegistry.isSome = true := by rw [hfinal]; rfl
          have hnone : counted call (.ok .rejected) = [] := by cases call <;> rfl
          rw [apply_of_finalized hsome]
          simp only [hnone, List.append_nil]
          exact ih hrest hinv

end LobbyChainRegistry

open LobbyChainRegistry

/-- The state says whether the lobby is finalized. -/
theorem state_eq_finalized {lobby : LobbyChainRegistry P} :
    lobby.state = .finalized ↔ lobby.finalizedRegistry.isSome = true := by
  unfold LobbyChainRegistry.state
  cases lobby.finalizedRegistry with
  | some registry => simp
  | none =>
      cases lobby.roster with
      | none => simp
      | some body =>
          simp only [Option.isSome_none, Bool.false_eq_true, if_false, iff_false]
          split <;> simp

/-- A lobby is finalized exactly when every seat of its roster has a READY that counts. -/
theorem LobbyInvariant.finalized_iff {hashRosterBody : RosterBody → Hash256}
    {rosters : Set RosterBody} {readies : List SignedEnvelope} {lobby : LobbyChainRegistry P}
    {logs : IdentityPublicKey → List SignedEnvelope}
    (h : LobbyInvariant hashRosterBody rosters readies lobby logs) :
    lobby.state = .finalized ↔ ∃ body, lobby.roster = some body ∧
      MIN_SESSION_SEATS ≤ body.seats.length ∧ ∀ sender ∈ body.seats, ∃ e ∈ readies,
        e.from_ = sender ∧ NamesRoster e (hashRosterBody body) ∧
        ∃ chain, lobby.chains sender = some chain ∧ chain.accepted e.seq = some e := by
  have hready : lobby.state = .finalized ↔ Finalizable hashRosterBody lobby := by
    rw [state_eq_finalized]
    cases hfinal : lobby.finalizedRegistry with
    | none => simpa using h.open_ hfinal
    | some registry => simpa using (h.finalized hfinal).1
  rw [hready]
  constructor
  · rintro ⟨body, hbody, hmin, hlen⟩
    refine ⟨body, hbody, hmin, fun sender hsender => ?_⟩
    have hperm := perm_of_finalizable h.counts hbody hlen
    obtain ⟨⟨other, e⟩, hmem, hother⟩ := List.mem_map.1 (hperm.mem_iff.2 hsender)
    obtain rfl : other = sender := hother
    obtain ⟨-, -, -, -, hfrom, hheld, hnames, hcounted⟩ := h.counts.ready hmem
    cases hchain : lobby.chains other with
    | none =>
        rw [h.held.absent hchain] at hheld
        cases hheld
    | some chain =>
        obtain ⟨-, hlog⟩ := h.held.chain hchain
        obtain ⟨seq, hseq⟩ := List.mem_iff_getElem?.1 hheld
        obtain ⟨-, hplace, -⟩ := hlog.linked.getElem? hseq
        exact ⟨e, hcounted, hfrom, hnames, chain, rfl, by rw [hlog.accepted, hplace, hseq]⟩
  · rintro ⟨body, hbody, hmin, hall⟩
    refine ⟨body, hbody, hmin, le_antisymm ?_ ?_⟩
    · -- everyone counted is a member
      have hsub : (lobby.readyByRoster (hashRosterBody body)).map Prod.fst ⊆ body.seats := by
        intro identity hidentity
        obtain ⟨⟨other, e⟩, hmem, hother⟩ := List.mem_map.1 hidentity
        obtain rfl : other = identity := hother
        obtain ⟨known, hknown, -, hmember, -⟩ := h.counts.ready hmem
        rw [h.counts.current hbody] at hknown
        cases hknown
        exact hmember
      simpa using ((h.counts.nodup (hashRosterBody body)).subperm hsub).length_le
    · -- every member is counted
      have hsub : body.seats ⊆ (lobby.readyByRoster (hashRosterBody body)).map Prod.fst := by
        intro sender hsender
        obtain ⟨e, he, rfl, hnames, -⟩ := hall sender hsender
        exact h.counts.counted e he _ hnames
      simpa using (body.distinct.subperm hsub).length_le

/-- The chains of the finalized registry are the members' chains. -/
theorem LobbyInvariant.members {hashRosterBody : RosterBody → Hash256}
    {rosters : Set RosterBody} {readies : List SignedEnvelope} {lobby : LobbyChainRegistry P}
    {logs : IdentityPublicKey → List SignedEnvelope}
    (h : LobbyInvariant hashRosterBody rosters readies lobby logs)
    {registry : SessionChainRegistry P} (hfinal : lobby.finalizedRegistry = some registry) :
    registry.gameId = lobby.context.gameId ∧
      lobby.roster.map RosterBody.seats = some registry.roster.seats ∧
      ∀ seat sender, registry.roster.seats[seat]? = some sender →
        lobby.chains sender = some (registry.chains seat) := by
  obtain ⟨⟨body, hbody, -, hlen⟩, hgame, hseats, hlogs⟩ := h.finalized hfinal
  refine ⟨hgame, hseats, fun seat sender hseat => ?_⟩
  have hlt : seat < registry.roster.seats.length := (List.getElem?_eq_some_iff.1 hseat).1
  have hlog := hlogs.chain seat
  have hsender := hlogs.sender seat
  have hsame : seatLogs registry.roster.seats logs registry.roster.seats.length seat
      = logs sender := by
    unfold seatLogs
    rw [if_pos hlt, hseat]
    rfl
  rw [hsame] at hlog
  rw [List.getD_eq_getElem?_getD, hseat] at hsender
  have hmember : sender ∈ body.seats := by
    rw [hbody] at hseats
    have : body.seats = registry.roster.seats := by simpa using hseats
    rw [this]
    exact List.mem_of_getElem? hseat
  have hperm := perm_of_finalizable h.counts hbody hlen
  obtain ⟨⟨other, e⟩, hmem, hother⟩ := List.mem_map.1 (hperm.mem_iff.2 hmember)
  obtain rfl : other = sender := hother
  obtain ⟨-, -, -, -, -, hheld, -⟩ := h.counts.ready hmem
  cases hchain : lobby.chains other with
  | none =>
      rw [h.held.absent hchain] at hheld
      cases hheld
  | some chain =>
      obtain ⟨hchainSender, hchainLog⟩ := h.held.chain hchain
      rw [hchainLog.unique hlog (hchainSender.trans hsender.symm)]

/-- **Lobby finalization is safe.**  In every lobby that any sequence of calls leads to,
if the rosters offered have different hashes: it is finalized exactly when there is a
current roster of at least three seats, each with an accepted or restored READY in its own
chain that names the hash of this roster; the finalized registry holds exactly the members'
chains; a finalized lobby refuses everything and stays as it is; every call reports what
its classifier predicted, a READY with the state it reaches; and no call throws. -/
theorem lobby_finalization_safe (hashRosterBody : RosterBody → Hash256)
    (context : LobbyBootstrapContext) (rosters : Set RosterBody)
    (hinj : Set.InjOn hashRosterBody rosters) (calls : List LobbyCall)
    (hcalls : ∀ call ∈ calls, call.Within rosters) {lobby : LobbyChainRegistry P}
    {readies : List SignedEnvelope}
    (hrun : run hashRosterBody calls (start P context, []) = (lobby, readies)) :
    (lobby.state = .finalized ↔ ∃ body, lobby.roster = some body ∧
      MIN_SESSION_SEATS ≤ body.seats.length ∧ ∀ sender ∈ body.seats, ∃ e ∈ readies,
        e.from_ = sender ∧ NamesRoster e (hashRosterBody body) ∧
        ∃ chain, lobby.chains sender = some chain ∧ chain.accepted e.seq = some e) ∧
    (∀ registry, lobby.finalizedRegistry = some registry → registry.gameId = context.gameId ∧
      lobby.roster.map RosterBody.seats = some registry.roster.seats ∧
      ∀ seat sender, registry.roster.seats[seat]? = some sender →
        lobby.chains sender = some (registry.chains seat)) ∧
    (lobby.state = .finalized → ∀ call,
      lobby.apply hashRosterBody call = (.ok .rejected, lobby)) ∧
    (∀ call : LobbyCall, call.Within rosters →
      ∃ status, (lobby.apply hashRosterBody call).1 = .ok status ∧
        ∀ predicted, lobby.predict hashRosterBody call = some predicted → predicted = .ok status) ∧
    (∀ e value, lobby.classifyReady e = .accepted value ∨ lobby.classifyReady e = .duplicate value →
      (lobby.ingestReady e).1 = .ok (lobby.classifyReady e) ∧
        value.state = (lobby.ingestReady e).2.state) := by
  obtain ⟨hcontext, logs, hinv⟩ :=
    run_invariant hinj calls hcalls (start_invariant (P := P) context)
  rw [hrun] at hcontext hinv
  have hsame : lobby.context = context := hcontext
  refine ⟨hinv.finalized_iff, fun registry hregistry => ?_, fun hfinal => ?_, fun call hwithin => ?_,
    fun e value hvalue => ?_⟩
  · rw [← hsame]
    exact hinv.members hregistry
  · exact apply_of_finalized (state_eq_finalized.1 hfinal)
  · cases hfinal : lobby.finalizedRegistry with
    | none =>
        obtain ⟨status, hstatus, hpredict, -⟩ := apply_effect hinj hinv hfinal call hwithin
        exact ⟨status, hstatus, hpredict⟩
    | some registry =>
        have hsome : lobby.finalizedRegistry.isSome = true := by rw [hfinal]; rfl
        refine ⟨.rejected, by rw [apply_of_finalized hsome], fun predicted hpredicted => ?_⟩
        exact predict_of_finalized hsome hpredicted
  · cases hfinal : lobby.finalizedRegistry with
    | none =>
        obtain ⟨hready, hstate, -⟩ := ingestReady_effect hinv hfinal e
        exact ⟨hready, hstate value hvalue⟩
    | some registry =>
        have hrefused : lobby.classifyReady e = .rejected .lobby_finalized := by
          unfold LobbyChainRegistry.classifyReady
          rw [if_pos (by rw [hfinal]; rfl)]
        rw [hrefused] at hvalue
        rcases hvalue with h | h <;> cases h

end

/-! ## A small lobby -/

namespace SmallGroup

/-- An envelope of the lobby. -/
def lobbyEnvelope (seat seq : ℕ) (prev : Hash256) (type : EnvelopeMessageType) (body : CborValue) :
    SignedEnvelope :=
  { envelope seat seq prev type body with round := 0, phase := "lobby" }

/-- The hash of a seat's envelope. -/
def hashAt (seat seq : ℕ) : Hash256 :=
  padded 32 [1, UInt8.ofNat seq, UInt8.ofNat (seat + 1), UInt8.ofNat seq]

/-- A roster is hashed to the first bytes of its seats. -/
def rosterHash (body : RosterBody) : Hash256 :=
  padded 32 (body.seats.map fun seat => seat.val.headD 0)

def lobbyContext : LobbyBootstrapContext := ⟨game, padded 32 [1], ZERO_HASH, ZERO_HASH⟩

def joinEnvelope (seat : ℕ) : SignedEnvelope :=
  lobbyEnvelope seat 0 ZERO_HASH .JOIN (.map [("pk_id", .bytes (padded 32 [UInt8.ofNat (seat + 1)]).val),
    ("rules_hash", .bytes ZERO_HASH.val), ("client_version", .text "1")])

def rosterEnvelope : SignedEnvelope :=
  lobbyEnvelope 0 0 ZERO_HASH .ROSTER (.map [("game_id", .bytes game.val),
    ("rules_hash", .bytes ZERO_HASH.val), ("ice_config_hash", .bytes ZERO_HASH.val),
    ("seats", .array [.bytes (padded 32 [1]).val, .bytes (padded 32 [2]).val,
      .bytes (padded 32 [3]).val])])

def readyEnvelope (seat : ℕ) : SignedEnvelope :=
  lobbyEnvelope seat 1 (hashAt seat 0) .READY
    (.map [("roster_hash", .bytes (padded 32 [1, 2, 3]).val)])

/-- Two players join, the host publishes the roster and everyone gets ready. -/
def lobbyCalls : List LobbyCall :=
  [.bootstrapJoin (joinEnvelope 1), .ingestRoster rosterEnvelope,
    .bootstrapRosterMemberJoin (joinEnvelope 2), .ingestReady (readyEnvelope 2),
    .ingestReady (readyEnvelope 0), .ingestReady (readyEnvelope 1)]

/-- The rosters these calls offer. -/
def lobbyRosters : Set RosterBody :=
  {body | ∃ call ∈ lobbyCalls, decodeRosterBody call.received.body = .ok body}

theorem lobbyRosters_subsingleton : lobbyRosters.Subsingleton := by
  have hdecode : ∀ call ∈ lobbyCalls, decodeRosterBody call.received.body =
      decodeRosterBody rosterEnvelope.body ∨ (decodeRosterBody call.received.body).toOption = none := by
    decide +kernel
  have hsame {body : RosterBody} (h : body ∈ lobbyRosters) :
      decodeRosterBody rosterEnvelope.body = .ok body := by
    obtain ⟨call, hcall, hbody⟩ := h
    rcases hdecode call hcall with h | h
    · rw [← h, hbody]
    · rw [hbody] at h
      cases h
  intro a ha b hb
  have h := (hsame ha).symm.trans (hsame hb)
  cases h
  rfl

end SmallGroup

open SmallGroup LobbyChainRegistry in
theorem lobby_finalization_safe_small :
    (run rosterHash lobbyCalls (start (primitives fun _ => 0) lobbyContext, [])).1.apply rosterHash
        (.ingest firstEnvelope)
      = (.ok .rejected,
        (run rosterHash lobbyCalls (start (primitives fun _ => 0) lobbyContext, [])).1) := by
  obtain ⟨-, -, hfinal, -⟩ := lobby_finalization_safe (P := primitives fun _ => 0) rosterHash
    lobbyContext lobbyRosters (lobbyRosters_subsingleton.injOn _) lobbyCalls
    (fun call hcall body hbody => ⟨call, hcall, hbody⟩) rfl
  exact hfinal (by decide +kernel) _

end Tablefolk
