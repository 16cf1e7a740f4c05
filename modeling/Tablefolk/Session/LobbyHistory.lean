import Tablefolk.Session.DurableReceivers

/-!
# The history of a live lobby

What the logs of a lobby say about the lobby, if all calls on it are calls of a
`PersistentLobbyReceiver` and nobody bootstraps the host.

* `hostHistory`: the lobby that the host's log alone leads to; it has the rosters.
* `LiveLobby`: the host never joins, every other sender joins once and first, and every READY names
  a roster that its sender is a member of and is counted for.
* `lives_of_run`: every lobby that a receiver gets to is one of these.
-/

namespace Tablefolk

section

variable {q : ℕ} {G : Type} [AddCommGroup G] [Module (ZMod q) G] {P : Primitives q G}

/-- A log that a lobby holds is determined by the lobby. -/
theorem LobbyLogs.unique {lobby : LobbyChainRegistry P}
    {logs logs' : IdentityPublicKey → List SignedEnvelope} (h : LobbyLogs lobby logs)
    (h' : LobbyLogs lobby logs') : logs = logs' := by
  funext identity
  cases hchain : lobby.chains identity with
  | none => rw [h.absent hchain, h'.absent hchain]
  | some chain => exact (h.chain hchain).2.log_unique (h'.chain hchain).2

/-- A lobby holds the logs of another one with the same chains. -/
theorem LobbyLogs.of_chains {lobby next : LobbyChainRegistry P}
    {logs : IdentityPublicKey → List SignedEnvelope} (h : LobbyLogs lobby logs)
    (hchains : next.chains = lobby.chains) (hcontext : next.context = lobby.context) :
    LobbyLogs next logs := by
  refine ⟨fun hchain => h.chain (hchains ▸ hchain), fun hchain => h.absent (hchains ▸ hchain),
    fun hmem => (h.game hmem).trans (by rw [hcontext]), ?_⟩
  rw [hchains, hcontext]
  exact h.host

/-- A call of a `PersistentLobbyReceiver` that does not bootstrap the host. -/
def LobbyCall.Live (host : IdentityPublicKey) : LobbyCall → Prop
  | .ingest received => isLobbyControlType received.type = false
  | .bootstrapJoin received => received.from_ ≠ host
  | .restoreReadyFromHistory _ => False
  | _ => True

namespace LobbyChainRegistry

/-! ## The host's log -/

/-- The lobbies have the same context and the same rosters. -/
structure SameRosters (lobby other : LobbyChainRegistry P) : Prop where
  context : lobby.context = other.context
  roster : lobby.roster = other.roster
  rosterHash : lobby.rosterHash = other.rosterHash
  rosterArtifact : lobby.rosterArtifact = other.rosterArtifact
  knownRosters : lobby.knownRosters = other.knownRosters

theorem SameRosters.refl (lobby : LobbyChainRegistry P) : SameRosters lobby lobby :=
  ⟨rfl, rfl, rfl, rfl, rfl⟩

theorem SameRosters.trans {lobby other last : LobbyChainRegistry P} (h : SameRosters lobby other)
    (h' : SameRosters other last) : SameRosters lobby last :=
  ⟨h.context.trans h'.context, h.roster.trans h'.roster, h.rosterHash.trans h'.rosterHash,
    h.rosterArtifact.trans h'.rosterArtifact, h.knownRosters.trans h'.knownRosters⟩

theorem SameRosters.symm {lobby other : LobbyChainRegistry P} (h : SameRosters lobby other) :
    SameRosters other lobby :=
  ⟨h.context.symm, h.roster.symm, h.rosterHash.symm, h.rosterArtifact.symm, h.knownRosters.symm⟩

theorem sameRosters_extend (lobby : LobbyChainRegistry P) (e : SignedEnvelope) :
    SameRosters (lobby.extend e) lobby := ⟨rfl, rfl, rfl, rfl, rfl⟩

variable (hashRosterBody : RosterBody → Hash256)

/-- The lobby after an envelope of its host. -/
def hostStep (lobby : LobbyChainRegistry P) (e : SignedEnvelope) : LobbyChainRegistry P :=
  match validateLobbyRosterEnvelope P e lobby.context with
  | .ok body => (lobby.extend e).publish hashRosterBody body e
  | .error _ => lobby.extend e

/-- The lobby after these envelopes of its host and nothing else. -/
def hostHistory (context : LobbyBootstrapContext) (log : List SignedEnvelope) :
    LobbyChainRegistry P := log.foldl (hostStep hashRosterBody) (start P context)

variable {hashRosterBody} {lobby next : LobbyChainRegistry P} {rosters : Set RosterBody}
  {readies : List SignedEnvelope} {logs : IdentityPublicKey → List SignedEnvelope}
  {e : SignedEnvelope}

theorem hostHistory_snoc (context : LobbyBootstrapContext) (log : List SignedEnvelope)
    (e : SignedEnvelope) : hostHistory (P := P) hashRosterBody context (log ++ [e])
      = hostStep hashRosterBody (hostHistory hashRosterBody context log) e := by
  unfold hostHistory
  rw [List.foldl_append]
  rfl

/-- An envelope that is not a ROSTER only grows its chain. -/
theorem hostStep_of_ne (htype : e.type ≠ .ROSTER) (lobby : LobbyChainRegistry P) :
    hostStep hashRosterBody lobby e = lobby.extend e := by
  unfold hostStep
  cases hbody : validateLobbyRosterEnvelope P e lobby.context with
  | error reason => rfl
  | ok body => exact absurd (validateRoster_eq_ok hbody).2.2.1 htype

/-- Two lobbies with the same rosters have the same rosters after a ROSTER. -/
theorem SameRosters.publish {lobby other : LobbyChainRegistry P} (h : SameRosters lobby other)
    (body : RosterBody) (e : SignedEnvelope) :
    SameRosters (lobby.publish hashRosterBody body e) (other.publish hashRosterBody body e) := by
  refine ⟨h.context, rfl, rfl, rfl, ?_⟩
  show Function.update lobby.knownRosters _ _ = Function.update other.knownRosters _ _
  rw [h.knownRosters]

theorem finalizeIfReady_same {result : Except LobbyError Unit}
    (h : lobby.finalizeIfReady = (result, next)) :
    SameRosters next lobby ∧ next.readyByRoster = lobby.readyByRoster := by
  unfold finalizeIfReady at h
  split at h
  · split at h
    · cases h
      exact ⟨.refl _, rfl⟩
    · split at h
      · split at h
        · cases h
          exact ⟨⟨rfl, rfl, rfl, rfl, rfl⟩, rfl⟩
        · cases h
          exact ⟨.refl _, rfl⟩
      · cases h
        exact ⟨.refl _, rfl⟩
  · cases h
    exact ⟨.refl _, rfl⟩

/-! ## Live lobbies -/

/-- What the logs of a live lobby say about it. -/
structure LiveLobby (ed : Ed25519) (hashRosterBody : RosterBody → Hash256)
    (rosters : Set RosterBody) (lobby : LobbyChainRegistry P)
    (logs : IdentityPublicKey → List SignedEnvelope) : Prop where
  published : SameRosters lobby
    (hostHistory hashRosterBody lobby.context (logs lobby.context.host))
  hostLog : ∀ e ∈ logs lobby.context.host, e.type ≠ .JOIN ∧ (e.type = .ROSTER →
    ∃ body, validateLobbyRosterEnvelope P e lobby.context = .ok body)
  known : ∀ identity, identity ≠ lobby.context.host → (lobby.chains identity).isSome = true →
    logs identity ≠ []
  genesis : ∀ identity first rest, identity ≠ lobby.context.host →
    logs identity = first :: rest →
      (∃ body, validateLobbyJoinEnvelope first lobby.context = .ok body) ∧
      ∀ e ∈ rest, e.type ≠ .JOIN ∧ e.type ≠ .ROSTER
  ready : ∀ identity, ∀ e ∈ logs identity, e.type = .READY →
    validateReadyEnvelope e lobby.context = .ok () ∧ ∃ hash body, NamesRoster e hash ∧
      lobby.knownRosters hash = some body ∧ MIN_SESSION_SEATS ≤ body.seats.length ∧
      e.from_ ∈ body.seats ∧ e.from_ ∈ (lobby.readyByRoster hash).map Prod.fst
  artifact : ∀ identity, ∀ e ∈ logs identity, e.Artifact ed
  offered : ∀ identity, ∀ e ∈ logs identity, ∀ body, decodeRosterBody e.body = .ok body →
    body ∈ rosters

variable {ed : Ed25519}

theorem start_chains_of_ne {context : LobbyBootstrapContext} {identity : IdentityPublicKey}
    (hne : identity ≠ context.host) : (start P context).chains identity = none := by
  unfold start
  simp only [Function.update_of_ne hne]

theorem start_live (context : LobbyBootstrapContext) :
    LiveLobby ed hashRosterBody rosters (start P context) fun _ => [] := by
  constructor
  · exact .refl _
  · intro e he
    cases he
  · intro identity hne hsome
    have hnone : (start P context).chains identity = none := start_chains_of_ne hne
    rw [hnone] at hsome
    cases hsome
  · intro identity first rest _ hlog
    cases hlog
  · intro identity e he
    cases he
  · intro identity e he
    cases he
  · intro identity e he
    cases he

/-- An envelope that is not a ROSTER leaves the rosters as they are. -/
theorem published_grow (htype : e.type ≠ .ROSTER)
    (h : SameRosters lobby (hostHistory hashRosterBody lobby.context (logs lobby.context.host))) :
    SameRosters lobby
      (hostHistory hashRosterBody lobby.context (grow logs e lobby.context.host)) := by
  unfold grow
  by_cases hhost : lobby.context.host = e.from_
  · rw [hhost, Function.update_self, hostHistory_snoc, hostStep_of_ne htype, ← hhost]
    exact h.trans (sameRosters_extend _ e).symm
  · rw [Function.update_of_ne hhost]
    exact h

/-- A live lobby whose logs grow stays live. -/
theorem LiveLobby.grow (h : LiveLobby ed hashRosterBody rosters lobby logs) (hartifact : e.Artifact ed)
    (hoffered : ∀ body, decodeRosterBody e.body = .ok body → body ∈ rosters)
    (hcontext : next.context = lobby.context) (hchains : next.chains = (lobby.extend e).chains)
    (hpublished : SameRosters next (hostHistory hashRosterBody lobby.context
      (LobbyChainRegistry.grow logs e lobby.context.host)))
    (hhost : e.from_ = lobby.context.host → e.type ≠ .JOIN ∧ (e.type = .ROSTER →
      ∃ body, validateLobbyRosterEnvelope P e lobby.context = .ok body))
    (hother : e.from_ ≠ lobby.context.host →
      (logs e.from_ = [] ∧ ∃ body, validateLobbyJoinEnvelope e lobby.context = .ok body) ∨
      logs e.from_ ≠ [] ∧ e.type ≠ .JOIN ∧ e.type ≠ .ROSTER)
    (hknown : ∀ hash body, lobby.knownRosters hash = some body →
      next.knownRosters hash = some body)
    (hcounted : ∀ hash identity, identity ∈ (lobby.readyByRoster hash).map Prod.fst →
      identity ∈ (next.readyByRoster hash).map Prod.fst)
    (hready : e.type = .READY → validateReadyEnvelope e lobby.context = .ok () ∧
      ∃ hash body, NamesRoster e hash ∧ next.knownRosters hash = some body ∧
        MIN_SESSION_SEATS ≤ body.seats.length ∧ e.from_ ∈ body.seats ∧
        e.from_ ∈ (next.readyByRoster hash).map Prod.fst) :
    LiveLobby ed hashRosterBody rosters next (LobbyChainRegistry.grow logs e) := by
  constructor
  · rw [hcontext]
    exact hpublished
  · rw [hcontext]
    intro m hm
    rcases mem_grow.1 hm with hm | ⟨hfrom, rfl⟩
    · exact h.hostLog m hm
    · exact hhost hfrom.symm
  · rw [hcontext, hchains]
    intro identity hne hsome hnil
    unfold LobbyChainRegistry.grow at hnil
    by_cases hfrom : identity = e.from_
    · subst hfrom
      simp at hnil
    · rw [Function.update_of_ne hfrom] at hnil
      refine h.known identity hne ?_ hnil
      have hsame : (lobby.extend e).chains identity = lobby.chains identity :=
        Function.update_of_ne hfrom _ _
      rwa [hsame] at hsome
  · rw [hcontext]
    intro identity first rest hne hlog
    unfold LobbyChainRegistry.grow at hlog
    by_cases hfrom : identity = e.from_
    · subst hfrom
      rw [Function.update_self] at hlog
      rcases hother hne with ⟨hnil, hjoin⟩ | ⟨hnot, hlater⟩
      · rw [hnil, List.nil_append] at hlog
        cases hlog
        exact ⟨hjoin, by simp⟩
      · obtain ⟨before, after, hbefore⟩ := List.exists_cons_of_ne_nil hnot
        obtain ⟨hjoin, hafter⟩ := h.genesis _ before after hne hbefore
        rw [hbefore, List.cons_append] at hlog
        cases hlog
        refine ⟨hjoin, fun m hm => ?_⟩
        rcases List.mem_append.1 hm with hm | hm
        · exact hafter m hm
        · rw [List.mem_singleton.1 hm]
          exact hlater
    · rw [Function.update_of_ne hfrom] at hlog
      exact h.genesis identity first rest hne hlog
  · rw [hcontext]
    intro identity m hm htype
    rcases mem_grow.1 hm with hm | ⟨-, rfl⟩
    · obtain ⟨hplace, hash, body, hnames, hbody, hmin, hmember, hkept⟩ := h.ready identity m hm htype
      exact ⟨hplace, hash, body, hnames, hknown hash body hbody, hmin, hmember,
        hcounted hash _ hkept⟩
    · exact hready htype
  · intro identity m hm
    rcases mem_grow.1 hm with hm | ⟨-, rfl⟩
    · exact h.artifact identity m hm
    · exact hartifact
  · intro identity m hm
    rcases mem_grow.1 hm with hm | ⟨-, rfl⟩
    · exact h.offered identity m hm
    · exact hoffered

/-- Only a lobby with a roster lets its members join. -/
theorem roster_of_memberJoin
    (h : lobby.apply hashRosterBody (.bootstrapRosterMemberJoin e) = (.ok .accepted, next)) :
    lobby.roster ≠ none := by
  intro hnone
  have hmember : lobby.isRosterMember e.from_ = false := by
    unfold isRosterMember
    rw [hnone]
    rfl
  have hrun : lobby.bootstrapRosterMemberJoin e = (.ok (.rejected .not_roster_member), lobby) := by
    have hclassify : lobby.classifyRosterMemberJoin e = .rejected .not_roster_member :=
      if_pos hmember
    unfold bootstrapRosterMemberJoin
    rw [hclassify]
  simp only [apply, hrun] at h
  cases h

/-- A READY that is not refused has its place, and its sender has a chain. -/
theorem place_of_ingestReady (hopen : lobby.finalizedRegistry = none) {status : LobbyStatus}
    (h : lobby.apply hashRosterBody (.ingestReady e) = (.ok status, next))
    (hstatus : status ≠ .rejected) :
    validateReadyEnvelope e lobby.context = .ok () ∧ (lobby.chains e.from_).isSome = true := by
  have hnot : ∀ reason, lobby.classifyReady e ≠ .rejected reason := by
    intro reason hreason
    have hrun : lobby.ingestReady e = (.ok (.rejected reason), lobby) := by
      unfold ingestReady
      rw [hreason]
    simp only [apply, hrun] at h
    cases h
    exact hstatus rfl
  rcases classifyReady_cases hopen e with ⟨reason, hreason⟩ | ⟨_, _, _, chain, hchecks, -⟩
  · exact absurd hreason (hnot reason)
  · refine ⟨?_, by rw [hchecks.chain]; rfl⟩
    cases hplace : validateReadyEnvelope e lobby.context with
    | ok u => rfl
    | error reason =>
        refine absurd ?_ (hnot reason)
        unfold classifyReady
        rw [if_neg (isSome_eq_false_of_open hopen), hplace]

/-- A call on an open lobby that is live leaves it live. -/
theorem LobbyEffect.live (hinj : Set.InjOn hashRosterBody rosters)
    (hinv : LobbyInvariant hashRosterBody rosters readies lobby logs)
    (hlive : LiveLobby ed hashRosterBody rosters lobby logs) (hopen : lobby.finalizedRegistry = none)
    {call : LobbyCall} (hcall : call.Live lobby.context.host) (hwithin : call.Within rosters)
    (hartifact : call.received.Artifact ed) {status : LobbyStatus}
    (happly : lobby.apply hashRosterBody call = (.ok status, next))
    (h : LobbyEffect hashRosterBody lobby logs call status next) :
    ∃ logs', LobbyLogs next logs' ∧ LiveLobby ed hashRosterBody rosters next logs' := by
  cases h with
  | idle hstatus => exact ⟨logs, hinv.held, hlive⟩
  | @ingested e hcontinues hknown =>
      have hcontrol : isLobbyControlType e.type = false := hcall
      unfold isLobbyControlType at hcontrol
      simp only [decide_eq_false_iff_not, not_or] at hcontrol
      obtain ⟨hjoin, hroster, hready⟩ := hcontrol
      refine ⟨_, extend_logs hinv.held hcontinues, hlive.grow hartifact hwithin rfl rfl
        ((sameRosters_extend lobby e).trans (published_grow hroster hlive.published)) ?_ ?_
        (fun _ _ h => h) (fun _ _ h => h) (fun h => absurd h hready)⟩
      · exact fun _ => ⟨hjoin, fun h => absurd h hroster⟩
      · exact fun hne => .inr ⟨hlive.known _ hne hknown, hjoin, hroster⟩
  | @joined _ body hjoins hcontinues hbody =>
      obtain ⟨-, htype, hseq⟩ := game_of_validateJoin hbody
      have hroster : call.received.type ≠ .ROSTER := by
        rw [htype]
        decide
      have hfirst : logs call.received.from_ = [] :=
        List.eq_nil_of_length_eq_zero (hcontinues.2.1.symm.trans hseq)
      -- the host has published the roster that lets members join
      have hhost : call.received.from_ ≠ lobby.context.host := by
        intro hhost
        rcases hjoins with hjoin | hjoin
        · rw [hjoin] at hcall
          exact hcall hhost
        · rw [hjoin] at happly
          refine roster_of_memberJoin happly ?_
          rw [hlive.published.roster, ← hhost, hfirst]
          rfl
      refine ⟨_, extend_logs hinv.held hcontinues, hlive.grow hartifact hwithin rfl rfl
        ((sameRosters_extend lobby _).trans (published_grow hroster hlive.published))
        (fun h => absurd h hhost) (fun _ => .inl ⟨hfirst, body, hbody⟩)
        (fun _ _ h => h) (fun _ _ h => h) ?_⟩
      intro hready
      rw [htype] at hready
      cases hready
  | @published e body next hcontinues hbody hnext =>
      obtain ⟨-, hfrom, htype, hdecode, -, hvalid⟩ := validateRoster_eq_ok hbody
      obtain ⟨hchains, -⟩ := finalizeIfReady_keeps hnext
      obtain ⟨hsame, hreadies⟩ := finalizeIfReady_same hnext
      have hcontext : next.context = lobby.context := hsame.context
      refine ⟨_, (extend_logs hinv.held hcontinues).of_chains hchains hsame.context,
        hlive.grow hartifact hwithin hcontext hchains ?_ ?_ ?_ ?_ ?_ ?_⟩
      · have hhistory : hostHistory (P := P) hashRosterBody lobby.context
            (LobbyChainRegistry.grow logs e lobby.context.host)
            = ((hostHistory hashRosterBody lobby.context (logs lobby.context.host)).extend e).publish
              hashRosterBody body e := by
          unfold LobbyChainRegistry.grow
          rw [← hfrom, Function.update_self, hostHistory_snoc]
          unfold hostStep
          rw [hfrom, ← hlive.published.context, hbody]
        rw [hhistory]
        refine hsame.trans (SameRosters.publish ?_ body e)
        exact (sameRosters_extend lobby e).trans (hlive.published.trans (sameRosters_extend _ e).symm)
      · intro _
        exact ⟨by rw [htype]; decide, fun _ => ⟨body, hbody⟩⟩
      · exact fun hne => absurd hfrom hne
      · intro hash known hknown
        rw [hsame.knownRosters]
        show Function.update lobby.knownRosters (hashRosterBody body) (some body) hash = some known
        by_cases heq : hash = hashRosterBody body
        · obtain ⟨hhash, hoffered, -⟩ := hinv.counts.known hknown
          rw [heq, Function.update_self, hinj hoffered (hwithin body hdecode) (hhash.trans heq)]
        · rw [Function.update_of_ne heq]
          exact hknown
      · intro hash identity hidentity
        rw [hreadies]
        exact hidentity
      · intro hready
        rw [htype] at hready
        cases hready
  | @repeated e body hcontinues hbody hnames hmember hmin hready =>
      obtain ⟨hplace, hchain⟩ := place_of_ingestReady hopen happly (by decide)
      have htype := hnames.1
      refine ⟨_, extend_logs hinv.held hcontinues, hlive.grow hartifact hwithin rfl rfl
        ((sameRosters_extend lobby e).trans (published_grow (by rw [htype]; decide) hlive.published))
        ?_ ?_ (fun _ _ h => h) (fun _ _ h => h) ?_⟩
      · exact fun _ => ⟨by rw [htype]; decide, fun h => by rw [htype] at h; cases h⟩
      · exact fun hne => .inr ⟨hlive.known _ hne hchain, by rw [htype]; decide, by rw [htype]; decide⟩
      · exact fun _ => ⟨hplace, _, body, hnames, hinv.counts.current hbody, hmin, hmember,
          of_decide_eq_true hready⟩
  | @readied e body next hcontinues hbody hnames hmember hmin hready hnext =>
      obtain ⟨hplace, hchain⟩ := place_of_ingestReady hopen happly (by decide)
      obtain ⟨hchains, -⟩ := finalizeIfReady_keeps hnext
      obtain ⟨hsame, hreadies⟩ := finalizeIfReady_same hnext
      have hwithReady : SameRosters ((lobby.extend e).withReady (hashRosterBody body) e.from_ e)
          lobby := ⟨rfl, rfl, rfl, rfl, rfl⟩
      have hrosters := hsame.trans hwithReady
      have htype := hnames.1
      have hcounted : ∀ hash, next.readyByRoster hash = Function.update lobby.readyByRoster
          (hashRosterBody body) (lobby.readyByRoster (hashRosterBody body) ++ [(e.from_, e)]) hash := by
        intro hash
        rw [hreadies]
        rfl
      refine ⟨_, (extend_logs hinv.held hcontinues).of_chains hchains hsame.context,
        hlive.grow hartifact hwithin hrosters.context hchains
          (hrosters.trans (published_grow (by rw [htype]; decide) hlive.published)) ?_ ?_ ?_ ?_ ?_⟩
      · exact fun _ => ⟨by rw [htype]; decide, fun h => by rw [htype] at h; cases h⟩
      · exact fun hne => .inr ⟨hlive.known _ hne hchain, by rw [htype]; decide, by rw [htype]; decide⟩
      · intro hash known hknown
        rw [hrosters.knownRosters]
        exact hknown
      · intro hash identity hidentity
        rw [hcounted]
        by_cases heq : hash = hashRosterBody body
        · rw [heq] at hidentity ⊢
          rw [Function.update_self, List.map_append]
          exact List.mem_append_left _ hidentity
        · rw [Function.update_of_ne heq]
          exact hidentity
      · refine fun _ => ⟨hplace, _, body, hnames, ?_, hmin, hmember, ?_⟩
        · rw [hrosters.knownRosters]
          exact hinv.counts.current hbody
        · rw [hcounted, Function.update_self]
          simp
  | restored => cases hcall

/-- The lobby is live, as some logs show. -/
def Lives (ed : Ed25519) (hashRosterBody : RosterBody → Hash256) (rosters : Set RosterBody)
    (context : LobbyBootstrapContext) (lobby : LobbyChainRegistry P) : Prop :=
  lobby.context = context ∧ ∃ readies logs,
    LobbyInvariant hashRosterBody rosters readies lobby logs ∧
      LiveLobby ed hashRosterBody rosters lobby logs

theorem lives_apply (hinj : Set.InjOn hashRosterBody rosters) {context : LobbyBootstrapContext}
    (h : lobby.Lives ed hashRosterBody rosters context) {call : LobbyCall}
    (hcall : call.Live context.host) (hwithin : call.Within rosters)
    (hartifact : call.received.Artifact ed) :
    (lobby.apply hashRosterBody call).2.Lives ed hashRosterBody rosters context := by
  obtain ⟨rfl, readies, logs, hinv, hlive⟩ := h
  cases hfinal : lobby.finalizedRegistry with
  | some registry =>
      rw [apply_of_finalized (by rw [hfinal]; rfl)]
      exact ⟨rfl, readies, logs, hinv, hlive⟩
  | none =>
      obtain ⟨status, hstatus, -, heffect⟩ := apply_effect hinj hinv hfinal call hwithin
      obtain ⟨hcontext, held, hnext⟩ := heffect.invariant hinj hinv hfinal hwithin
      obtain ⟨logs', hlogs', hlive'⟩ := heffect.live hinj hinv hlive hfinal hcall hwithin hartifact
        (Prod.ext hstatus rfl)
      obtain rfl := hnext.held.unique hlogs'
      exact ⟨hcontext, _, held, hnext, hlive'⟩

/-! ## The receiver -/

/-- The receiver does not commit a control envelope as a known one. -/
theorem live_of_classify {call : LobbyReceive} {classification : LobbyStatus}
    {host : IdentityPublicKey} (hhost : ∀ received, call = .receiveAdmittedJoin received →
      received.from_ ≠ host)
    (h : (PersistentLobbyReceiver ed hashRosterBody).classify lobby call = .ok classification) :
    call.commit.Live host := by
  cases call with
  | receiveKnown received =>
      simp only [PersistentLobbyReceiver] at h
      split at h
      · cases h
      · rename_i hcontrol
        exact Bool.eq_false_iff.2 hcontrol
  | receiveAdmittedJoin received => exact hhost received rfl
  | receiveRosterMemberJoin received => trivial
  | receiveRoster received => trivial
  | receiveReady received => trivial

/-- A call that runs alone keeps the lobby live. -/
theorem lives_executes (hinj : Set.InjOn hashRosterBody rosters) {context : LobbyBootstrapContext}
    (h : lobby.Lives ed hashRosterBody rosters context)
    {settled : Serial.Settled LobbyReceive LobbyStoreAnswer LobbyReceipt}
    (hhost : ∀ received, settled.call = .receiveAdmittedJoin received →
      received.from_ ≠ context.host)
    (hwithin : settled.call.commit.Within rosters) (hartifact : settled.call.received.Artifact ed)
    (hexecutes : Serial.Executes (PersistentLobbyReceiver ed hashRosterBody) lobby settled next) :
    next.Lives ed hashRosterBody rosters context := by
  cases hexecutes with
  | rejected hclassify => exact h
  | answered hclassify hsettle =>
      rcases lobby_settle_cases hsettle with ⟨rfl, -⟩ | ⟨-, persistence, snapshot, hcommit⟩
      · exact h
      · obtain ⟨-, readies, logs, hinv, -⟩ := id h
        obtain ⟨status, after, happlies⟩ := exists_applies hinj ⟨readies, logs, hinv⟩ hwithin
        obtain ⟨rfl, -⟩ := commitTransition_eq happlies.runs hcommit
        have hkept := lives_apply hinj h (live_of_classify hhost hclassify) hwithin hartifact
        rwa [happlies.runs] at hkept

/-- **Every lobby that a receiver gets to is live**, whatever the store answers, if nobody else
changes it and the host is not bootstrapped. -/
theorem lives_of_run (hinj : Set.InjOn hashRosterBody rosters) {context : LobbyBootstrapContext}
    {inputs : List (Serial.Input LobbyReceive LobbyStoreAnswer LobbyCall)}
    {s : Serial.State (LobbyChainRegistry P) LobbyReceive LobbyStatus LobbyStoreAnswer LobbyReceipt}
    (hwithin : ∀ call, .call call ∈ inputs → call.commit.Within rosters)
    (hhost : ∀ received, .call (.receiveAdmittedJoin received) ∈ inputs →
      received.from_ ≠ context.host)
    (hsole : ∀ call, .write call ∉ inputs)
    (hrun : Serial.Run (PersistentLobbyReceiver ed hashRosterBody) (start P context) inputs s) :
    s.resource.Lives ed hashRosterBody rosters context := by
  have hcalled : ∀ settled ∈ s.done, .call settled.call ∈ inputs ∧
      settled.call.received.Artifact ed := by
    intro settled hsettled
    have hmem : settled.call ∈ s.calls := List.mem_append_left _ (List.mem_map_of_mem hsettled)
    refine ⟨hrun.called _ hmem, ?_⟩
    have hcheck := hrun.checked _ hmem
    simp only [PersistentLobbyReceiver] at hcheck
    split at hcheck
    · cases hcheck
    · rename_i hsnapshot
      exact (mapError_verifyArtifact_eq_ok.1 hsnapshot).2
  obtain ⟨-, hsequential⟩ := hrun.sequential hsole
  generalize hdone : s.done = done at hcalled hsequential
  generalize s.resource = last at hsequential
  clear hdone
  induction hsequential with
  | nil => exact ⟨rfl, [], _, start_invariant context, start_live context⟩
  | @snoc done settled between last hbefore hlast ih =>
      have hkept := ih fun other hother => hcalled other (List.mem_append_left _ hother)
      obtain ⟨hcall, hartifact⟩ := hcalled settled (by simp)
      refine lives_executes hinj hkept (fun received heq => hhost received (heq ▸ hcall))
        (hwithin _ hcall) hartifact hlast

end LobbyChainRegistry

end

end Tablefolk
