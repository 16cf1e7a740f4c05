import Tablefolk.Session.Lobby

/-!
# The lobby stays consistent

* `LobbyLogs`: the lobby holds a log for every identity it knows;
* `LobbyReadies`: who is ready for which roster hash, and on which envelope that rests;
* `LobbyInvariant`: both, and the lobby is finalized exactly when its current roster has
  enough seats and all of them are ready.
-/

namespace Tablefolk

section

variable {q : ℕ} {G : Type} [AddCommGroup G] [Module (ZMod q) G] {P : Primitives q G}

/-! ## Transferring chains -/

/-- A list of valid and different identities passes the checks. -/
theorem checkSeats_eq_ok {seen seats : List IdentityPublicKey} (hnodup : (seen ++ seats).Nodup)
    (hvalid : ∀ identity ∈ seats, P.importEd25519PublicKey identity = true) :
    checkSeats P seen seats = .ok () := by
  induction seats generalizing seen with
  | nil => rfl
  | cons identity rest ih =>
      have hfresh : identity ∉ seen := by
        intro hmem
        exact (List.nodup_append.1 hnodup).2.2 identity hmem identity List.mem_cons_self rfl
      unfold checkSeats
      rw [throwIf_neg (by simp [hvalid identity List.mem_cons_self]), ok_bind,
        throwIf_neg hfresh, ok_bind]
      exact ih (by simpa using hnodup) fun other hother =>
        hvalid other (List.mem_cons_of_mem identity hother)

theorem Roster.parse_eq_ok {seats : List IdentityPublicKey}
    (hlen : 3 ≤ seats.length ∧ seats.length ≤ 8) (hnodup : seats.Nodup)
    (hvalid : ∀ identity ∈ seats, P.importEd25519PublicKey identity = true) :
    Roster.parse P seats = .ok ⟨seats, hlen.1, hlen.2, hnodup, hvalid⟩ := by
  have hcheck : checkSeats P [] seats = .ok () := checkSeats_eq_ok (by simpa using hnodup) hvalid
  unfold Roster.parse
  rw [dif_pos hlen]
  split
  · rename_i e he
    rw [hcheck] at he
    cases he
  · rfl

namespace LobbyChainRegistry

/-- A chain is transferred envelope by envelope. -/
theorem transferChain_eq_ok {chain : SenderChain} {log : List SignedEnvelope}
    (hchain : HoldsLog P chain log) {registry : SessionChainRegistry P}
    {logs : ℕ → List SignedEnvelope} {seat : ℕ} (h : HoldsLogs registry logs)
    (hgame : ∀ e ∈ log, e.game = registry.gameId)
    (hseat : registry.roster.seatOf chain.sender = some seat) (count : ℕ)
    (hlog : logs seat = log.take (log.length - count)) (hle : count ≤ log.length) :
    ∃ next, transferChain chain registry (log.length - count) count = .ok next ∧
      HoldsLogs next (Function.update logs seat log) ∧ next.gameId = registry.gameId ∧
      next.roster = registry.roster := by
  induction count generalizing registry logs with
  | zero =>
      refine ⟨registry, rfl, ?_, rfl, rfl⟩
      rw [Nat.sub_zero, List.take_length] at hlog
      rwa [← hlog, Function.update_eq_self]
  | succ count ih =>
      have hlt : log.length - (count + 1) < log.length := by omega
      have hheld := List.getElem?_eq_getElem hlt
      obtain ⟨hfrom, hseq, hprev⟩ := hchain.linked.getElem? hheld
      have hlen : (logs seat).length = log.length - (count + 1) := by
        rw [hlog, List.length_take]
        omega
      obtain ⟨head, hhead⟩ := h.classify_accepted (e := log[log.length - (count + 1)]).2
        ⟨hgame _ (List.getElem_mem hlt), seat, by rw [hfrom, hseat], by rw [hseq, hlen],
          by rw [hprev, hlog]⟩
      have hfst : (registry.ingest log[log.length - (count + 1)]).1 =
          registry.classify log[log.length - (count + 1)] := HoldsLogs.ingest_fst
      rw [hhead] at hfst
      have hnext := h.ingest_of_accepted (by rw [hfrom, hseat]) hhead
      obtain ⟨hgame', hroster'⟩ := ingest_scope registry log[log.length - (count + 1)]
      have hplace : log.length - (count + 1) + 1 = log.length - count := by omega
      have hgrown : logs seat ++ [log[log.length - (count + 1)]] = log.take (log.length - count) := by
        rw [hlog, ← List.take_succ_eq_append_getElem hlt, hplace]
      rw [hgrown] at hnext
      obtain ⟨next, hrun, hlogs, hgame'', hroster''⟩ := ih hnext
        (fun e he => (hgame e he).trans hgame'.symm) (hroster' ▸ hseat) (by simp) (by omega)
      refine ⟨next, ?_, by simpa using hlogs, hgame''.trans hgame', hroster''.trans hroster'⟩
      unfold transferChain
      rw [hchain.accepted, hheld]
      have hpair : registry.ingest log[log.length - (count + 1)]
          = (.chain (.accepted head), (registry.ingest log[log.length - (count + 1)]).2) := by
        rw [← hfst]
      simp only
      rw [hpair]
      simp only [hplace]
      exact hrun

/-- The logs of the first `count` seats. -/
def seatLogs (seats : List IdentityPublicKey) (held : IdentityPublicKey → List SignedEnvelope)
    (count : ℕ) : ℕ → List SignedEnvelope := fun seat =>
  if seat < count then ((seats[seat]?).map held).getD [] else []

theorem seatLogs_succ {seats : List IdentityPublicKey}
    {held : IdentityPublicKey → List SignedEnvelope} {count : ℕ} {identity : IdentityPublicKey}
    (h : seats[count]? = some identity) :
    Function.update (seatLogs seats held count) count (held identity)
      = seatLogs seats held (count + 1) := by
  funext seat
  unfold seatLogs
  by_cases heq : seat = count
  · subst heq
    simp [h]
  · rw [Function.update_of_ne heq]
    by_cases hlt : seat < count
    · rw [if_pos hlt, if_pos (by omega)]
    · rw [if_neg hlt, if_neg (by omega)]

/-- The chains of all seats are transferred. -/
theorem transferSeats_eq_ok {chains : IdentityPublicKey → Option SenderChain}
    {held : IdentityPublicKey → List SignedEnvelope} {registry : SessionChainRegistry P}
    (done rest : List IdentityPublicKey) (hroster : registry.roster.seats = done ++ rest)
    (hchains : ∀ identity ∈ rest, ∃ chain, chains identity = some chain ∧
      chain.sender = identity ∧ HoldsLog P chain (held identity) ∧ held identity ≠ [] ∧
      ∀ e ∈ held identity, e.game = registry.gameId)
    (h : HoldsLogs registry (seatLogs registry.roster.seats held done.length)) :
    ∃ next, transferSeats chains registry rest = .ok next ∧
      HoldsLogs next (seatLogs registry.roster.seats held registry.roster.seats.length) ∧
      next.gameId = registry.gameId ∧ next.roster = registry.roster := by
  induction rest generalizing done registry with
  | nil =>
      refine ⟨registry, rfl, ?_, rfl, rfl⟩
      rw [hroster, List.append_nil] at h ⊢
      exact h
  | cons identity rest ih =>
      obtain ⟨chain, hchain, hsender, hlog, hne, hgame⟩ := hchains identity List.mem_cons_self
      have hplace : registry.roster.seats[done.length]? = some identity := by
        rw [hroster, List.getElem?_append_right le_rfl]
        simp
      have hseat : registry.roster.seatOf chain.sender = some done.length := by
        rw [hsender]
        exact Roster.seatOf_eq_some.2 hplace
      have hempty : seatLogs registry.roster.seats held done.length done.length
          = (held identity).take ((held identity).length - (held identity).length) := by
        unfold seatLogs
        simp
      obtain ⟨next, hrun, hlogs, hgame', hroster'⟩ :=
        transferChain_eq_ok hlog h hgame hseat (held identity).length hempty le_rfl
      rw [seatLogs_succ hplace] at hlogs
      have hdone : (done ++ [identity]).length = done.length + 1 := by simp
      have hrest : next.roster.seats = (done ++ [identity]) ++ rest := by
        rw [hroster', hroster]
        simp
      obtain ⟨last, hlast, hlastLogs, hlastGame, hlastRoster⟩ := ih (done ++ [identity]) hrest
        (fun other hother => by
          obtain ⟨c, hc, hs, hl, hn, hg⟩ := hchains other (List.mem_cons_of_mem identity hother)
          exact ⟨c, hc, hs, hl, hn, fun e he => (hg e he).trans hgame'.symm⟩)
        (by rw [hroster', hdone]; exact hlogs)
      refine ⟨last, ?_, by rwa [hroster'] at hlastLogs, hlastGame.trans hgame',
        hlastRoster.trans hroster'⟩
      -- the head of a chain that holds a log is its last envelope
      have hhead : chain.head = (held identity).getLast?.map fun e =>
          ⟨chain.sender, (held identity).length - 1, P.hashEnvelope e⟩ := hlog.head
      obtain ⟨e, he⟩ : ∃ e, (held identity).getLast? = some e := by
        cases hgetLast : (held identity).getLast? with
        | none => exact absurd (List.getLast?_eq_none_iff.1 hgetLast) hne
        | some e => exact ⟨e, rfl⟩
      have hpos : 0 < (held identity).length := List.length_pos_iff.2 hne
      unfold transferSeats
      rw [hchain]
      simp only [hhead, he, Option.map_some]
      rw [Nat.sub_self] at hrun
      rw [show (held identity).length - 1 + 1 = (held identity).length by omega, hrun, ok_bind]
      exact hlast

end LobbyChainRegistry

/-! ## The invariant -/

/-- A READY that names this roster hash. -/
def NamesRoster (e : SignedEnvelope) (hash : Hash256) : Prop :=
  e.type = .READY ∧ decodeReadyBody e.body = .ok ⟨hash⟩

instance (e : SignedEnvelope) (hash : Hash256) : Decidable (NamesRoster e hash) :=
  inferInstanceAs (Decidable (_ ∧ _))

/-- The lobby holds these logs, identity by identity. -/
structure LobbyLogs (lobby : LobbyChainRegistry P)
    (logs : IdentityPublicKey → List SignedEnvelope) : Prop where
  chain : ∀ {identity chain}, lobby.chains identity = some chain →
    chain.sender = identity ∧ HoldsLog P chain (logs identity)
  absent : ∀ {identity}, lobby.chains identity = none → logs identity = []
  game : ∀ {identity e}, e ∈ logs identity → e.game = lobby.context.gameId
  host : (lobby.chains lobby.context.host).isSome

/-- The READYs the lobby counts.  `rosters` are the rosters that were offered and
`readies` the READYs that were accepted or restored. -/
structure LobbyReadies (hashRosterBody : RosterBody → Hash256) (rosters : Set RosterBody)
    (readies : List SignedEnvelope) (lobby : LobbyChainRegistry P)
    (logs : IdentityPublicKey → List SignedEnvelope) : Prop where
  rosterHash : lobby.rosterHash = lobby.roster.map hashRosterBody
  current : ∀ {body}, lobby.roster = some body →
    lobby.knownRosters (hashRosterBody body) = some body
  known : ∀ {hash body}, lobby.knownRosters hash = some body → hashRosterBody body = hash ∧
    body ∈ rosters ∧ ∀ identity ∈ body.seats, P.importEd25519PublicKey identity = true
  nodup : ∀ hash, ((lobby.readyByRoster hash).map Prod.fst).Nodup
  ready : ∀ {hash identity e}, (identity, e) ∈ lobby.readyByRoster hash →
    ∃ body, lobby.knownRosters hash = some body ∧ MIN_SESSION_SEATS ≤ body.seats.length ∧
      identity ∈ body.seats ∧ e.from_ = identity ∧ e ∈ logs identity ∧ NamesRoster e hash ∧
      e ∈ readies
  counted : ∀ e ∈ readies, ∀ hash, NamesRoster e hash →
    e.from_ ∈ (lobby.readyByRoster hash).map Prod.fst

/-- The current roster has enough seats and as many READYs as seats. -/
def Finalizable (hashRosterBody : RosterBody → Hash256) (lobby : LobbyChainRegistry P) : Prop :=
  ∃ body, lobby.roster = some body ∧ MIN_SESSION_SEATS ≤ body.seats.length ∧
    (lobby.readyByRoster (hashRosterBody body)).length = body.seats.length

/-- The finalized registry holds exactly the members' logs. -/
def HoldsMembers (lobby : LobbyChainRegistry P)
    (logs : IdentityPublicKey → List SignedEnvelope) (registry : SessionChainRegistry P) : Prop :=
  registry.gameId = lobby.context.gameId ∧
    (lobby.roster.map RosterBody.seats = some registry.roster.seats) ∧
    HoldsLogs registry
      (LobbyChainRegistry.seatLogs registry.roster.seats logs registry.roster.seats.length)

/-- The lobby is finalized exactly when its current roster is ready. -/
structure LobbyInvariant (hashRosterBody : RosterBody → Hash256) (rosters : Set RosterBody)
    (readies : List SignedEnvelope) (lobby : LobbyChainRegistry P)
    (logs : IdentityPublicKey → List SignedEnvelope) : Prop where
  held : LobbyLogs lobby logs
  counts : LobbyReadies hashRosterBody rosters readies lobby logs
  open_ : lobby.finalizedRegistry = none → ¬ Finalizable hashRosterBody lobby
  finalized : ∀ {registry}, lobby.finalizedRegistry = some registry →
    Finalizable hashRosterBody lobby ∧ HoldsMembers lobby logs registry

variable {hashRosterBody : RosterBody → Hash256} {rosters : Set RosterBody}
  {readies : List SignedEnvelope} {lobby : LobbyChainRegistry P}
  {logs : IdentityPublicKey → List SignedEnvelope}

namespace LobbyChainRegistry

theorem start_invariant (context : LobbyBootstrapContext) :
    LobbyInvariant hashRosterBody rosters [] (start P context) fun _ => [] := by
  constructor
  · constructor
    · intro identity chain h
      unfold start at h
      by_cases heq : identity = context.host
      · subst heq
        simp only [Function.update_self, Option.some.injEq] at h
        subst h
        exact ⟨rfl, .start _⟩
      · simp [Function.update_of_ne heq] at h
    · intro identity _
      rfl
    · intro identity e h
      cases h
    · simp [start]
  · constructor
    · rfl
    · intro body h
      cases h
    · intro hash body h
      cases h
    · intro hash
      exact List.nodup_nil
    · intro hash identity e h
      cases h
    · intro e h
      cases h
  · rintro - ⟨body, hbody, -⟩
    cases hbody
  · intro registry h
    cases h

/-- The seats of a roster that is ready are exactly those that are counted. -/
theorem perm_of_finalizable (h : LobbyReadies hashRosterBody rosters readies lobby logs)
    {body : RosterBody} (hbody : lobby.roster = some body)
    (hlen : (lobby.readyByRoster (hashRosterBody body)).length = body.seats.length) :
    ((lobby.readyByRoster (hashRosterBody body)).map Prod.fst).Perm body.seats := by
  have hsub : (lobby.readyByRoster (hashRosterBody body)).map Prod.fst ⊆ body.seats := by
    intro identity hidentity
    obtain ⟨⟨_, e⟩, hmem, rfl⟩ := List.mem_map.1 hidentity
    obtain ⟨known, hknown, -, hmember, -⟩ := h.ready hmem
    rw [h.current hbody] at hknown
    cases hknown
    exact hmember
  have hsubperm := (h.nodup (hashRosterBody body)).subperm hsub
  exact hsubperm.perm_of_length_le (by rw [List.length_map, hlen])

/-- Finalizing cannot throw. -/
theorem buildFinalizedRegistry_eq_ok (hlogs : LobbyLogs lobby logs)
    (h : LobbyReadies hashRosterBody rosters readies lobby logs)
    (hready : Finalizable hashRosterBody lobby) :
    ∃ registry, lobby.buildFinalizedRegistry = .ok registry ∧
      HoldsMembers lobby logs registry := by
  obtain ⟨body, hbody, hmin, hlen⟩ := hready
  have hperm := perm_of_finalizable h hbody hlen
  have hvalid := (h.known (h.current hbody)).2.2
  have hseats : 3 ≤ body.seats.length ∧ body.seats.length ≤ 8 := ⟨hmin, body.le_eight⟩
  have hroster := Roster.parse_eq_ok (P := P) hseats body.distinct hvalid
  have hchains : ∀ identity ∈ body.seats, ∃ chain, lobby.chains identity = some chain ∧
      chain.sender = identity ∧ HoldsLog P chain (logs identity) ∧ logs identity ≠ [] ∧
      ∀ e ∈ logs identity, e.game = lobby.context.gameId := by
    intro identity hidentity
    obtain ⟨⟨sender, e⟩, hmem, hsender⟩ := List.mem_map.1 (hperm.mem_iff.2 hidentity)
    obtain rfl : sender = identity := hsender
    obtain ⟨-, -, -, -, -, hheld, -⟩ := h.ready hmem
    cases hchain : lobby.chains sender with
    | none =>
        rw [hlogs.absent hchain] at hheld
        cases hheld
    | some chain =>
        obtain ⟨hsender, hlog⟩ := hlogs.chain hchain
        exact ⟨chain, rfl, hsender, hlog, List.ne_nil_of_mem hheld, fun e he => hlogs.game he⟩
  have hstart : HoldsLogs (SessionChainRegistry.start lobby.context.gameId
      (⟨body.seats, hseats.1, hseats.2, body.distinct, hvalid⟩ : Roster P))
      (seatLogs body.seats logs 0) := by
    have hnone : seatLogs body.seats logs 0 = fun _ => [] := by
      funext seat
      unfold seatLogs
      simp
    rw [hnone]
    exact HoldsLogs.start _ _
  obtain ⟨registry, hrun, hheld, hgame, hsame⟩ :=
    transferSeats_eq_ok [] body.seats rfl hchains hstart
  refine ⟨registry, ?_, hgame, by rw [hbody, hsame]; rfl, by rw [hsame]; exact hheld⟩
  unfold buildFinalizedRegistry
  rw [hbody]
  simp only [hroster, Except.mapError, ok_bind]
  exact hrun

/-- Whether the current roster is ready can be seen from the current READYs. -/
theorem currentReady_eq (h : LobbyReadies hashRosterBody rosters readies lobby logs)
    {body : RosterBody} (hbody : lobby.roster = some body) :
    lobby.currentReady = lobby.readyByRoster (hashRosterBody body) := by
  unfold currentReady
  rw [h.rosterHash, hbody]
  rfl

/-- `finalizeIfReady` finalizes the lobby exactly when its current roster is ready. -/
theorem finalizeIfReady_spec (hlogs : LobbyLogs lobby logs)
    (h : LobbyReadies hashRosterBody rosters readies lobby logs)
    (hopen : lobby.finalizedRegistry = none) :
    ∃ next, lobby.finalizeIfReady = (.ok (), next) ∧
      LobbyInvariant hashRosterBody rosters readies next logs ∧
      (next = lobby ∧ ¬ Finalizable hashRosterBody lobby ∨
        Finalizable hashRosterBody lobby ∧
          ∃ registry, next = { lobby with finalizedRegistry := some registry }) := by
  by_cases hready : Finalizable hashRosterBody lobby
  · obtain ⟨registry, hbuild, hmembers⟩ := buildFinalizedRegistry_eq_ok hlogs h hready
    refine ⟨{ lobby with finalizedRegistry := some registry }, ?_, ?_,
      .inr ⟨hready, registry, rfl⟩⟩
    · obtain ⟨body, hbody, hmin, hlen⟩ := hready
      unfold finalizeIfReady
      rw [hopen]
      simp only [hbody, if_neg (not_lt.2 hmin), currentReady_eq h hbody, hlen, hbuild, if_true]
    · refine ⟨⟨hlogs.chain, hlogs.absent, hlogs.game, hlogs.host⟩,
        ⟨h.rosterHash, h.current, h.known, h.nodup, h.ready, h.counted⟩, ?_, ?_⟩
      · intro hnone
        cases hnone
      · intro other hother
        cases hother
        exact ⟨hready, hmembers⟩
  · refine ⟨lobby, ?_, ⟨hlogs, h, fun _ => hready, ?_⟩, .inl ⟨rfl, hready⟩⟩
    · unfold finalizeIfReady
      rw [hopen]
      cases hbody : lobby.roster with
      | none => rfl
      | some body =>
          by_cases hmin : body.seats.length < MIN_SESSION_SEATS
          · simp only [if_pos hmin]
          · have hlen : lobby.currentReady.length ≠ body.seats.length := by
              rw [currentReady_eq h hbody]
              exact fun hlen => hready ⟨body, hbody, not_lt.1 hmin, hlen⟩
            simp only [if_neg hmin, if_neg hlen]
    · intro registry hsome
      rw [hopen] at hsome
      cases hsome

/-! ## Growing a log -/

/-- The envelope continues its sender's log. -/
def Continues (lobby : LobbyChainRegistry P) (logs : IdentityPublicKey → List SignedEnvelope)
    (e : SignedEnvelope) : Prop :=
  e.game = lobby.context.gameId ∧ e.seq = (logs e.from_).length ∧ e.prev = prevAfter P (logs e.from_)

/-- The logs with one more envelope. -/
def grow (logs : IdentityPublicKey → List SignedEnvelope) (e : SignedEnvelope) :
    IdentityPublicKey → List SignedEnvelope :=
  Function.update logs e.from_ (logs e.from_ ++ [e])

theorem mem_grow {e m : SignedEnvelope} {identity : IdentityPublicKey} :
    m ∈ grow logs e identity ↔ m ∈ logs identity ∨ identity = e.from_ ∧ m = e := by
  unfold grow
  by_cases heq : identity = e.from_
  · subst heq
    simp
  · rw [Function.update_of_ne heq]
    simp [heq]

/-- The lobby after its sender's chain has taken an envelope. -/
def extend (lobby : LobbyChainRegistry P) (e : SignedEnvelope) : LobbyChainRegistry P :=
  lobby.withChain e.from_ ((lobby.chainOrNew e.from_).ingest P e).2

theorem chainOrNew_spec (hlogs : LobbyLogs lobby logs) (identity : IdentityPublicKey) :
    (lobby.chainOrNew identity).sender = identity ∧
      HoldsLog P (lobby.chainOrNew identity) (logs identity) := by
  unfold chainOrNew
  cases hchain : lobby.chains identity with
  | none =>
      rw [hlogs.absent hchain]
      exact ⟨rfl, .start identity⟩
  | some chain => exact hlogs.chain hchain

/-- The chain of its sender takes an envelope exactly when it continues the log. -/
theorem chainOrNew_accepted (hlogs : LobbyLogs lobby logs) {e : SignedEnvelope}
    {head : ChainHead} (h : (lobby.chainOrNew e.from_).classify P e = .accepted head) :
    e.seq = (logs e.from_).length ∧ e.prev = prevAfter P (logs e.from_) ∧
      (lobby.chainOrNew e.from_).ingest P e
        = (.accepted head, ((lobby.chainOrNew e.from_).ingest P e).2) := by
  obtain ⟨-, hlog⟩ := chainOrNew_spec hlogs e.from_
  obtain ⟨-, hseq, hprev, -⟩ := hlog.classify_accepted.1 h
  refine ⟨hseq, hprev, ?_⟩
  unfold SenderChain.ingest
  rw [h]

theorem extend_logs (hlogs : LobbyLogs lobby logs) {e : SignedEnvelope}
    (h : Continues lobby logs e) : LobbyLogs (lobby.extend e) (grow logs e) := by
  obtain ⟨hgame, hseq, hprev⟩ := h
  obtain ⟨hsender, hlog⟩ := chainOrNew_spec hlogs e.from_
  obtain ⟨head, haccepted⟩ : ∃ head, (lobby.chainOrNew e.from_).classify P e = .accepted head :=
    ⟨_, hlog.classify_accepted.2 ⟨hsender.symm, hseq, hprev, rfl⟩⟩
  have hingest : ((lobby.chainOrNew e.from_).ingest P e).2.sender = e.from_ ∧
      HoldsLog P ((lobby.chainOrNew e.from_).ingest P e).2 (logs e.from_ ++ [e]) := by
    rcases hlog.ingest (e := e) with ⟨_, -, hnext⟩ | ⟨hnot, -⟩
    · exact ⟨by simp [SenderChain.ingest, haccepted, hsender], hnext⟩
    · have hfirst : ((lobby.chainOrNew e.from_).ingest P e).1 = .accepted head := by
        unfold SenderChain.ingest
        rw [haccepted]
      exact absurd hfirst (hnot head)
  unfold extend withChain grow
  refine ⟨fun {identity chain} hchain => ?_, fun {identity} hchain => ?_,
    fun {identity m} hm => ?_, ?_⟩
  · by_cases heq : identity = e.from_
    · subst heq
      simp only [Function.update_self, Option.some.injEq] at hchain
      rw [← hchain, Function.update_self]
      exact hingest
    · simp only [Function.update_of_ne heq] at hchain ⊢
      exact hlogs.chain hchain
  · by_cases heq : identity = e.from_
    · subst heq
      simp at hchain
    · simp only [Function.update_of_ne heq] at hchain ⊢
      exact hlogs.absent hchain
  · rcases mem_grow.1 hm with hm | ⟨-, rfl⟩
    · exact hlogs.game hm
    · exact hgame
  · by_cases heq : lobby.context.host = e.from_
    · simp [heq]
    · simp only [Function.update_of_ne heq]
      exact hlogs.host

/-- Growing a log keeps the READYs. -/
theorem extend_readies (h : LobbyReadies hashRosterBody rosters readies lobby logs)
    (e : SignedEnvelope) :
    LobbyReadies hashRosterBody rosters readies (lobby.extend e) (grow logs e) := by
  refine ⟨h.rosterHash, h.current, h.known, h.nodup, fun hmem => ?_, h.counted⟩
  obtain ⟨body, hknown, hmin, hmember, hfrom, hheld, hnames, hcounted⟩ := h.ready hmem
  exact ⟨body, hknown, hmin, hmember, hfrom, mem_grow.2 (.inl hheld), hnames, hcounted⟩

/-- Publishing a roster keeps the READYs, if no other roster offered has its hash. -/
theorem publish_readies (hinj : Set.InjOn hashRosterBody rosters)
    (h : LobbyReadies hashRosterBody rosters readies lobby logs) {body : RosterBody}
    (hbody : body ∈ rosters)
    (hvalid : ∀ identity ∈ body.seats, P.importEd25519PublicKey identity = true)
    (artifact : SignedEnvelope) :
    LobbyReadies hashRosterBody rosters readies { lobby with
      roster := some body
      rosterHash := some (hashRosterBody body)
      rosterArtifact := some artifact
      knownRosters := Function.update lobby.knownRosters (hashRosterBody body) (some body) }
      logs := by
  refine ⟨rfl, fun {other} hother => ?_, fun {hash other} hother => ?_, h.nodup,
    fun {hash identity e} hmem => ?_, h.counted⟩
  · cases hother
    simp
  · by_cases heq : hash = hashRosterBody body
    · subst heq
      simp only [Function.update_self, Option.some.injEq] at hother
      subst hother
      exact ⟨rfl, hbody, hvalid⟩
    · simp only [Function.update_of_ne heq] at hother
      exact h.known hother
  · obtain ⟨known, hknown, hrest⟩ := h.ready hmem
    by_cases heq : hash = hashRosterBody body
    · -- the hash belongs to one roster only
      obtain ⟨hhash, hoffered, -⟩ := h.known hknown
      obtain rfl := hinj hoffered hbody (hhash.trans heq)
      exact ⟨known, by simp [heq], hrest⟩
    · exact ⟨known, by simpa [Function.update_of_ne heq] using hknown, hrest⟩

/-- Counting a READY of a member keeps the READYs in order. -/
theorem withReady_readies (h : LobbyReadies hashRosterBody rosters readies lobby logs)
    {hash : Hash256} {body : RosterBody} {e : SignedEnvelope}
    (hknown : lobby.knownRosters hash = some body) (hmin : MIN_SESSION_SEATS ≤ body.seats.length)
    (hmember : e.from_ ∈ body.seats) (hheld : e ∈ logs e.from_) (hnames : NamesRoster e hash)
    (hnew : isReady (lobby.readyByRoster hash) e.from_ = false) :
    LobbyReadies hashRosterBody rosters (readies ++ [e]) (lobby.withReady hash e.from_ e) logs := by
  have hfresh : e.from_ ∉ (lobby.readyByRoster hash).map Prod.fst := of_decide_eq_false hnew
  unfold withReady
  refine ⟨h.rosterHash, h.current, h.known, fun other => ?_, fun {other identity m} hmem => ?_,
    fun m hm other hother => ?_⟩
  · by_cases heq : other = hash
    · subst heq
      simp only [Function.update_self, List.map_append, List.map_cons, List.map_nil]
      refine List.nodup_append.2 ⟨h.nodup other, List.nodup_singleton _, fun x hx y hy => ?_⟩
      rw [List.mem_singleton.1 hy]
      exact fun hxy => hfresh (hxy ▸ hx)
    · simpa [Function.update_of_ne heq] using h.nodup other
  · have hold : (identity, m) ∈ lobby.readyByRoster other ∨
        other = hash ∧ identity = e.from_ ∧ m = e := by
      by_cases heq : other = hash
      · subst heq
        simp only [Function.update_self, List.mem_append, List.mem_singleton, Prod.mk.injEq] at hmem
        exact hmem.imp_right fun h => ⟨rfl, h⟩
      · exact .inl (by simpa [Function.update_of_ne heq] using hmem)
    rcases hold with hold | ⟨rfl, rfl, rfl⟩
    · obtain ⟨known, hk, hm, hs, hf, hl, hn, hc⟩ := h.ready hold
      exact ⟨known, hk, hm, hs, hf, hl, hn, List.mem_append_left _ hc⟩
    · exact ⟨body, hknown, hmin, hmember, rfl, hheld, hnames, by simp⟩
  · have hkeep : ∀ identity, identity ∈ (lobby.readyByRoster other).map Prod.fst →
        identity ∈ (Function.update lobby.readyByRoster hash
          (lobby.readyByRoster hash ++ [(e.from_, e)]) other).map Prod.fst := by
      intro identity hidentity
      by_cases heq : other = hash
      · subst heq
        simp only [Function.update_self, List.map_append, List.mem_append]
        exact .inl hidentity
      · simpa [Function.update_of_ne heq] using hidentity
    rcases List.mem_append.1 hm with hm | hm
    · exact hkeep _ (h.counted m hm other hother)
    · obtain rfl := List.mem_singleton.1 hm
      have hsame : other = hash := by
        have := hother.2.symm.trans hnames.2
        simpa using this
      subst hsame
      simp

end LobbyChainRegistry

end

end Tablefolk
