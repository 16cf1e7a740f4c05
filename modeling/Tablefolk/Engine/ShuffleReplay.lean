import Tablefolk.Engine.ShuffleReceiver

/-!
# Replaying the shuffles of a session

`openReceiver` rebuilds the ledger from the logs of the session.

* `recoverSetup_congr`: envelopes that are not of the setup do not matter to its recovery.
* `Agrees`: the session holds just the shuffles that the ledger has accepted.
* `openReceiver_agrees` and `Agrees.reopen`: a session opens exactly to a ledger it agrees with.
* `Agrees.snoc`: one more shuffle, in the session and in the ledger.
-/

namespace Tablefolk

section

variable {q : ℕ} {G : Type} [AddCommGroup G] [Module (ZMod q) G] [DecidableEq G]
  {P : Primitives q G} {ed : Ed25519} {hashRosterBody : RosterBody → Hash256}
  {verify : ShuffleVerifier}

/-! ## Lists -/

theorem flatMap_range_getElem? {α : Type} (l : List α) (n : ℕ) :
    ((List.range n).flatMap fun i => l[i]?.toList) = l.take n := by
  induction n with
  | zero => simp
  | succ n ih => rw [List.range_succ, List.flatMap_append, ih, List.take_add_one]; simp

theorem eq_toList_of_nodup {α : Type} {l : List α} {o : Option α} (hnodup : l.Nodup)
    (hmem : ∀ x, x ∈ l ↔ o = some x) : l = o.toList := by
  cases o with
  | none => exact List.eq_nil_iff_forall_not_mem.2 fun x hx => by simpa using (hmem x).1 hx
  | some a =>
      have hall : ∀ x ∈ l, x = a := fun x hx => (Option.some.inj ((hmem x).1 hx)).symm
      have ha : a ∈ l := (hmem a).2 rfl
      exact List.perm_singleton.1 ((List.perm_ext_iff_of_nodup hnodup (List.nodup_singleton a)).2
        fun x => ⟨fun hx => List.mem_singleton.2 (hall x hx), fun hx => List.mem_singleton.1 hx ▸ ha⟩)

/-! ## The places of the envelopes of a session -/

variable {session : SessionChainRegistry P} {logs : ℕ → List SignedEnvelope}

omit [DecidableEq G] in
theorem HoldsLogs.place (h : HoldsLogs session logs) {e : SignedEnvelope} {seat : ℕ}
    (he : e ∈ logs seat) :
    session.roster.seatOf e.from_ = some seat ∧ (logs seat)[e.seq]? = some e := by
  have hlt : seat < session.roster.size := by
    by_contra hle
    rw [h.absent seat (not_lt.1 hle)] at he
    cases he
  obtain ⟨index, hindex⟩ := List.getElem?_of_mem he
  obtain ⟨hfrom, hseq, -⟩ := (h.chain seat).linked.getElem? hindex
  exact ⟨by rw [hfrom]; exact seatOf_sender h hlt, by rw [hseq]; exact hindex⟩

omit [DecidableEq G] in
theorem HoldsLogs.nodup_seat (h : HoldsLogs session logs) (seat : ℕ) : (logs seat).Nodup := by
  rw [List.nodup_iff_injective_get]
  intro i j hij
  have hi := (h.chain seat).linked.getElem? (List.getElem?_eq_getElem i.isLt)
  have hj := (h.chain seat).linked.getElem? (List.getElem?_eq_getElem j.isLt)
  have hsame : (logs seat)[i.val] = (logs seat)[j.val] := hij
  exact Fin.ext (by rw [← hi.2.1, ← hj.2.1, hsame])

omit [DecidableEq G] in
theorem HoldsLogs.mem_held (h : HoldsLogs session logs) {e : SignedEnvelope} :
    e ∈ held session logs ↔ ∃ seat, e ∈ logs seat := by
  unfold held
  rw [List.mem_flatMap]
  constructor
  · rintro ⟨seat, -, he⟩
    exact ⟨seat, he⟩
  · rintro ⟨seat, he⟩
    exact ⟨seat, List.mem_range.2 (Roster.lt_size_of_seatOf (h.place he).1), he⟩

omit [DecidableEq G] in
/-- Sender and sequence number name one envelope. -/
theorem HoldsLogs.nodup_places (h : HoldsLogs session logs) :
    ((held session logs).map fun e => (e.from_, e.seq)).Nodup := by
  refine h.nodup_held.map_on fun x hx y hy hsame => ?_
  obtain ⟨hfrom, hseq⟩ := Prod.mk.inj hsame
  obtain ⟨seat, hx⟩ := h.mem_held.1 hx
  obtain ⟨other, hy⟩ := h.mem_held.1 hy
  obtain ⟨hseat, hplace⟩ := h.place hx
  obtain ⟨hother, hplace'⟩ := h.place hy
  rw [← hfrom, hseat] at hother
  obtain rfl := Option.some.inj hother
  rw [← hseq, hplace] at hplace'
  exact Option.some.inj hplace'

/-! ## Other envelopes do not matter to the setup -/

omit [DecidableEq G] in
theorem setupArtifactsFrom_mixed {game : GameId} {roster : Roster P} (index : ℕ)
    {tuples : List (IdentityPublicKey × ℕ)} {transcript : List SignedEnvelope}
    (hgame : ∀ e ∈ transcript, e.game = game)
    (hfresh : ∀ e ∈ transcript, (e.from_, e.seq) ∉ tuples)
    (hnodup : (transcript.map fun e => (e.from_, e.seq)).Nodup)
    (hseat : ∀ e ∈ transcript, ∃ seat, roster.seatOf e.from_ = some seat) :
    ∃ artifacts, setupArtifactsFrom game roster index tuples transcript = .ok artifacts ∧
      artifacts.map SetupArtifact.artifact = transcript.filter (·.isSetup) ∧
      ∀ a ∈ artifacts, setupTypeRank a.artifact.type = some a.rank ∧
        roster.seatOf a.artifact.from_ = some a.seat := by
  induction transcript generalizing index tuples with
  | nil => exact ⟨[], rfl, rfl, fun a ha => by cases ha⟩
  | cons e rest ih =>
      obtain ⟨seat, hseated⟩ := hseat e List.mem_cons_self
      rw [List.map_cons, List.nodup_cons] at hnodup
      have hnew : ∀ x ∈ rest, (x.from_, x.seq) ∉ tuples ++ [(e.from_, e.seq)] := by
        intro x hx hmem
        rcases List.mem_append.1 hmem with hmem | hmem
        · exact hfresh x (List.mem_cons_of_mem e hx) hmem
        · exact hnodup.1 (List.mem_map.2 ⟨x, hx, List.mem_singleton.1 hmem⟩)
      obtain ⟨artifacts, hrun, hmap, hall⟩ := ih (index + 1)
        (fun x hx => hgame x (List.mem_cons_of_mem e hx)) hnew hnodup.2
        (fun x hx => hseat x (List.mem_cons_of_mem e hx))
      unfold setupArtifactsFrom
      rw [throwIf_neg (not_not_intro (hgame e List.mem_cons_self)), ok_bind,
        throwIf_neg (hfresh e List.mem_cons_self), ok_bind]
      cases hrank : setupTypeRank e.type with
      | none =>
          refine ⟨artifacts, hrun, ?_, hall⟩
          rw [hmap, List.filter_cons_of_neg (by simp [SignedEnvelope.isSetup, hrank])]
      | some rank =>
          refine ⟨⟨e, rank, seat⟩ :: artifacts, ?_, ?_, fun a ha => ?_⟩
          · simp only [hseated, hrun, ok_bind, except_pure_eq]
          · rw [List.map_cons, hmap,
              List.filter_cons_of_pos (by simp [SignedEnvelope.isSetup, hrank])]
          · rcases List.mem_cons.1 ha with rfl | ha
            · exact ⟨hrank, hseated⟩
            · exact hall a ha

omit [DecidableEq G] in
/-- Artifacts with their own rank and seat are given by their envelopes. -/
theorem setupArtifacts_ext {roster : Roster P} {l l' : List SetupArtifact}
    (hmap : l.map SetupArtifact.artifact = l'.map SetupArtifact.artifact)
    (h : ∀ a ∈ l, setupTypeRank a.artifact.type = some a.rank ∧
      roster.seatOf a.artifact.from_ = some a.seat)
    (h' : ∀ a ∈ l', setupTypeRank a.artifact.type = some a.rank ∧
      roster.seatOf a.artifact.from_ = some a.seat) : l = l' := by
  induction l generalizing l' with
  | nil => exact (List.map_eq_nil_iff.1 hmap.symm).symm
  | cons a rest ih =>
      cases l' with
      | nil => cases hmap
      | cons b rest' =>
          obtain ⟨hartifact, hrest⟩ := List.cons.inj hmap
          obtain ⟨hrank, hseat⟩ := h a List.mem_cons_self
          obtain ⟨hrank', hseat'⟩ := h' b List.mem_cons_self
          have hsame : a = b := by
            obtain ⟨artifact, rank, seat⟩ := a
            obtain ⟨artifact', rank', seat'⟩ := b
            obtain rfl : artifact = artifact' := hartifact
            obtain rfl := Option.some.inj (hrank.symm.trans hrank')
            obtain rfl := Option.some.inj (hseat.symm.trans hseat')
            rfl
          rw [hsame, ih hrest (fun x hx => h x (List.mem_cons_of_mem _ hx))
            fun x hx => h' x (List.mem_cons_of_mem _ hx)]

omit [DecidableEq G] in
theorem Roster.parse_seats {seats : List IdentityPublicKey} {roster : Roster P}
    (h : Roster.parse P seats = .ok roster) : roster.seats = seats := by
  unfold Roster.parse at h
  split at h
  · split at h
    · cases h
    · cases h
      rfl
  · cases h

/-- A transcript without forks, of this game and these senders. -/
structure Plain (gameId : GameId) (seats : List IdentityPublicKey)
    (transcript : List SignedEnvelope) : Prop where
  game : ∀ e ∈ transcript, e.game = gameId
  sender : ∀ e ∈ transcript, e.from_ ∈ seats
  nodup : (transcript.map fun e => (e.from_, e.seq)).Nodup

omit [DecidableEq G] in
theorem HoldsLogs.plain (h : HoldsLogs session logs) :
    Plain session.gameId session.roster.seats (held session logs) := by
  refine ⟨fun e he => ?_, fun e he => ?_, h.nodup_places⟩
  · obtain ⟨seat, he⟩ := h.mem_held.1 he
    exact h.game seat e he
  · obtain ⟨seat, he⟩ := h.mem_held.1 he
    exact List.mem_of_getElem? (Roster.seatOf_eq_some.1 (h.place he).1)

/-- **Only setup envelopes matter to the recovery of a setup.** -/
theorem recoverSetup_congr {gameId : GameId} {round : ℕ} {seats : List IdentityPublicKey}
    {transcript transcript' : List SignedEnvelope} (beaconRequired : Bool)
    (h : Plain gameId seats transcript) (h' : Plain gameId seats transcript')
    (hsame : transcript.filter (·.isSetup) = transcript'.filter (·.isSetup)) :
    recoverSetup P gameId round seats transcript beaconRequired =
      recoverSetup P gameId round seats transcript' beaconRequired := by
  unfold recoverSetup
  cases hstart : SetupEnvelopeCoordinator.start P gameId round seats beaconRequired with
  | error error => rfl
  | ok coordinator =>
      have hroster : coordinator.roster.seats = seats := by
        unfold SetupEnvelopeCoordinator.start at hstart
        obtain ⟨-, hstart⟩ := check_bind_eq_ok.1 hstart
        obtain ⟨roster, hparse, hstart⟩ := bind_eq_ok.1 hstart
        obtain ⟨setup, -, hstart⟩ := bind_eq_ok.1 hstart
        cases hstart
        exact Roster.parse_seats (mapError_eq_ok.1 hparse)
      have hseat {l : List SignedEnvelope} (hl : Plain gameId seats l) :
          ∀ e ∈ l, ∃ seat, coordinator.roster.seatOf e.from_ = some seat := by
        intro e he
        refine ⟨_, if_pos ?_⟩
        rw [hroster]
        exact hl.sender e he
      obtain ⟨artifacts, hrun, hmap, hall⟩ := setupArtifactsFrom_mixed 0 h.game
        (fun e _ => List.not_mem_nil) h.nodup (hseat h)
      obtain ⟨artifacts', hrun', hmap', hall'⟩ := setupArtifactsFrom_mixed 0 h'.game
        (fun e _ => List.not_mem_nil) h'.nodup (hseat h')
      have hartifacts := setupArtifacts_ext (hmap.trans (hsame.trans hmap'.symm)) hall hall'
      simp only [Except.mapError, ok_bind, hrun, hrun', hartifacts]

/-! ## Accepting alone -/

section

variable {ledger next : CandidateShuffleLedger G} {roster : RosterBody} {round : ℕ} {key : G}
  {initial deck : List (MaskedCard G)} {accepted : List SignedEnvelope}

/-- Every envelope of a chain is the shuffle of its seat. -/
theorem ShuffleChain.getElem? (h : ShuffleChain P ed hashRosterBody roster round key initial
    accepted deck) {seat : ℕ} {e : SignedEnvelope} (he : accepted[seat]? = some e) :
    roster.seats[seat]? = some e.from_ ∧ e.type = .SHUFFLE ∧ e.round = round := by
  induction h with
  | nil => simp at he
  | snoc hchain hlink ih =>
      rename_i before _ last _
      rcases lt_trichotomy seat before.length with hlt | rfl | hlt
      · rw [List.getElem?_append_left hlt] at he
        exact ih he
      · rw [List.getElem?_concat_length] at he
        cases he
        exact ⟨hlink.from_, hlink.type, hlink.round_eq⟩
      · rw [List.getElem?_eq_none (by simp; omega)] at he
        cases he

/-- A ledger that no call is in and that is open. -/
def CandidateShuffleLedger.Idle (ledger : CandidateShuffleLedger G) : Prop :=
  ledger.busy = false ∧ ledger.closed = false

/-- The ledger with one more shuffle. -/
def CandidateShuffleLedger.extend (ledger : CandidateShuffleLedger G) (e : SignedEnvelope)
    (statement : CandidateShuffleStatement36 G) : CandidateShuffleLedger G :=
  { ledger with
    deck := statement.outputDeck
    accepted := ledger.accepted ++ [e]
    seat := ledger.seat + 1 }

/-- A shuffle that the ledger does not have, before the verifier is asked. -/
structure CandidateShuffleLedger.Begins (P : Primitives q G) (ed : Ed25519)
    (hashRosterBody : RosterBody → Hash256) (ledger : CandidateShuffleLedger G)
    (e : SignedEnvelope) (statement : CandidateShuffleStatement36 G) : Prop where
  begun : ledger.beginAccept P ed hashRosterBody e =
    .ok (⟨e, .verifying statement⟩, { ledger with busy := true })
  extends_ : ledger.Extends P ed hashRosterBody e statement
  fresh : e ∉ ledger.accepted

theorem CandidateShuffleLedger.beginAccept_cases {e : SignedEnvelope} {pending : PendingAccept G}
    (h : ledger.beginAccept P ed hashRosterBody e = .ok (pending, next)) :
    next = { ledger with busy := true } ∧
    (pending = ⟨e, .receiving none⟩ ∧ e ∈ ledger.accepted ∨
      ∃ statement, pending = ⟨e, .verifying statement⟩ ∧
        ledger.Begins P ed hashRosterBody e statement) := by
  obtain ⟨-, rfl, hcaptured, hstage⟩ := beginAccept_eq_ok h
  obtain ⟨captured, stage⟩ := pending
  obtain rfl : captured = e := hcaptured
  refine ⟨rfl, ?_⟩
  rcases hstage with ⟨rfl, hknown⟩ | ⟨statement, rfl, hextends⟩
  · exact .inl ⟨rfl, hknown⟩
  · refine .inr ⟨statement, rfl, h, hextends, fun hknown => ?_⟩
    unfold beginAccept at h
    obtain ⟨-, h⟩ := check_bind_eq_ok.1 h
    obtain ⟨-, h⟩ := check_bind_eq_ok.1 h
    obtain ⟨-, h⟩ := check_bind_eq_ok.1 h
    obtain ⟨same, hsame, h⟩ := bind_eq_ok.1 h
    rw [(mapError_verifyArtifact_eq_ok.1 hsame).1, if_pos hknown] at h
    cases h

omit [AddCommGroup G] [Module (ZMod q) G] [DecidableEq G] in
theorem CandidateShuffleLedger.received_some (hopen : ledger.closed = false) (e : SignedEnvelope)
    (statement : CandidateShuffleStatement36 G) :
    ledger.received e (some statement) true = .ok (.accepted, ledger.extend e statement) := by
  unfold received
  rw [throwIf_neg (by simp), ok_bind, throwIf_neg (by simp [hopen]), ok_bind]
  rfl

/-- A fresh shuffle whose proof is good is accepted. -/
theorem CandidateShuffleLedger.acceptAlone_of_begins (hidle : ledger.Idle) {e : SignedEnvelope}
    {statement : CandidateShuffleStatement36 G}
    (h : ledger.Begins P ed hashRosterBody e statement)
    (hverify : verifierAnswer verify e = some true) :
    ledger.acceptAlone P ed hashRosterBody verify e = .ok (ledger.extend e statement) := by
  obtain ⟨hbusy, hclosed⟩ := hidle
  have hverified : { ledger with busy := true }.verified (verifierAnswer verify e) = .ok () :=
    verified_eq_ok.2 ⟨hverify, hclosed⟩
  unfold acceptAlone
  rw [h.begun]
  simp only [ok_bind, hverified]
  have hopen : { ledger with busy := true }.closed = false := hclosed
  rw [received_some hopen]
  simp only [ok_bind, except_pure_eq, release, extend, hbusy]

/-- Without anything between, a fresh envelope is accepted only as a link of the chain. -/
theorem CandidateShuffleLedger.acceptAlone_eq_ok (hidle : ledger.Idle) {e : SignedEnvelope}
    (hfresh : e ∉ ledger.accepted)
    (h : ledger.acceptAlone P ed hashRosterBody verify e = .ok next) :
    ∃ statement, next = ledger.extend e statement ∧
      ledger.Extends P ed hashRosterBody e statement := by
  have hpeeled := h
  unfold acceptAlone at hpeeled
  obtain ⟨⟨pending, busy⟩, hbegin, hrest⟩ := bind_eq_ok.1 hpeeled
  obtain ⟨-, hcases⟩ := beginAccept_cases hbegin
  rcases hcases with ⟨-, hknown⟩ | ⟨statement, rfl, hbegins⟩
  · exact absurd hknown hfresh
  · simp only at hrest
    obtain ⟨hverified, -⟩ := check_bind_eq_ok.1 hrest
    have hanswer := (verified_eq_ok.1 hverified).1
    have haccept := acceptAlone_of_begins hidle hbegins hanswer
    rw [haccept] at h
    exact ⟨statement, (Except.ok.inj h).symm, hbegins.extends_⟩

/-- The replay of envelopes that the ledger does not have. -/
theorem CandidateShuffleLedger.foldlM_acceptAlone (hidle : ledger.Idle)
    (hchained : ledger.Chained P ed hashRosterBody initial) {l : List SignedEnvelope}
    (hnodup : l.Nodup) (hfresh : ∀ e ∈ l, e ∉ ledger.accepted)
    (h : l.foldlM (fun ledger e => ledger.acceptAlone P ed hashRosterBody verify e) ledger =
      .ok next) :
    next.Idle ∧ next.Chained P ed hashRosterBody initial ∧ next.accepted = ledger.accepted ++ l ∧
      next.roster = ledger.roster ∧ next.round = ledger.round := by
  induction l generalizing ledger with
  | nil =>
      cases h
      exact ⟨hidle, hchained, by simp, rfl, rfl⟩
  | cons e rest ih =>
      rw [List.foldlM_cons] at h
      obtain ⟨middle, hmiddle, hrest⟩ := bind_eq_ok.1 h
      rw [List.nodup_cons] at hnodup
      obtain ⟨statement, rfl, hextends⟩ :=
        acceptAlone_eq_ok hidle (hfresh e List.mem_cons_self) hmiddle
      have hnext : ∀ x ∈ rest, x ∉ (ledger.extend e statement).accepted := by
        intro x hx hmem
        rcases List.mem_append.1 hmem with hmem | hmem
        · exact hfresh x (List.mem_cons_of_mem _ hx) hmem
        · exact hnodup.1 (List.mem_singleton.1 hmem ▸ hx)
      have hidle' : (ledger.extend e statement).Idle := hidle
      have hchained' : (ledger.extend e statement).Chained P ed hashRosterBody initial :=
        hchained.snoc hextends
      obtain ⟨hlast, hchain, haccepted, hroster, hround⟩ :=
        ih hidle' hchained' hnodup.2 hnext hrest
      refine ⟨hlast, hchain, ?_, hroster, hround⟩
      simp [haccepted, CandidateShuffleLedger.extend]

end

/-! ## A session and its ledger -/

/-- The session holds just the shuffles of this round that the ledger has accepted, each in the
log of its seat, after the setup of its sender and before its play; and the ledger is their
replay. -/
structure Agrees (ed : Ed25519) (hashRosterBody : RosterBody → Hash256) (verify : ShuffleVerifier)
    (options : ShuffleReceiverOptions) (session : SessionChainRegistry P)
    (logs : ℕ → List SignedEnvelope) (ledger : CandidateShuffleLedger G) : Prop where
  holds : HoldsLogs session logs
  setupRound : options.setupRound ≤ MAX_SAFE_INTEGER
  gameId : options.roster.gameId = session.gameId
  four : options.roster.seats.length = 4
  seats : options.roster.seats = session.roster.seats
  self : options.self ∈ options.roster.seats
  idle : ledger.Idle
  scope : ledger.roster = options.roster ∧ ledger.round = options.round
  replayed : ∃ setup initial, recoverSetup P options.roster.gameId options.setupRound
      options.roster.seats (held session logs) options.beaconRequired = .ok setup ∧
    CandidateShuffleLedger.create ⟨setup, options.roster, options.round, options.deckSpec⟩ =
      .ok initial ∧
    ledger.accepted.foldlM
      (fun ledger e => ledger.acceptAlone P ed hashRosterBody verify e) initial = .ok ledger ∧
    ledger.Chained P ed hashRosterBody initial.deck
  seatwise : ∀ seat, (logs seat).filter (·.isContribution options.round) =
    ledger.accepted[seat]?.toList
  early : ∀ e ∈ ledger.accepted, ∀ a ∈ held session logs, a.from_ = e.from_ → a.isSetup = true →
    a.seq < e.seq
  later : ∀ a ∈ held session logs, a.isLater options.round = true → ledger.seat = 4 ∧
    ∃ own, (ledger.accepted.find? fun e => e.from_ = a.from_) = some own ∧ own.seq < a.seq

section

variable {options : ShuffleReceiverOptions} {ledger : CandidateShuffleLedger G}
  {r : PersistentCandidateShuffleReceiver P}

theorem Agrees.chained (h : Agrees ed hashRosterBody verify options session logs ledger) :
    ∃ deck, ledger.Chained P ed hashRosterBody deck := by
  obtain ⟨-, initial, -, -, -, hchained⟩ := h.replayed
  exact ⟨initial.deck, hchained⟩

/-- **The shuffles of the session are those of the ledger, in seat order.** -/
theorem Agrees.contributions (h : Agrees ed hashRosterBody verify options session logs ledger) :
    (held session logs).filter (·.isContribution options.round) = ledger.accepted := by
  obtain ⟨deck, hchained⟩ := h.chained
  have hle := hchained.seat_le
  rw [hchained.seat_eq] at hle
  have hsize : session.roster.size = 4 := by
    rw [Roster.size, ← h.seats, h.four]
  unfold held
  rw [List.filter_flatMap, hsize]
  simp only [h.seatwise]
  rw [flatMap_range_getElem?, List.take_of_length_le hle]

theorem replayContributions_eq_ok {history : CapturedSessionHistory P}
    {start last : CandidateShuffleLedger G} {l : List SignedEnvelope} :
    replayContributions ed hashRosterBody verify history session start l = .ok last ↔
      l.foldlM (fun ledger e => ledger.acceptAlone P ed hashRosterBody verify e) start = .ok last ∧
      (∀ e ∈ l, ∀ a ∈ history.envelopes, a.from_ = e.from_ → a.isSetup = true → a.seq < e.seq) ∧
      (l ≠ [] → history.Unchanged session) := by
  induction l generalizing start with
  | nil => simp [replayContributions, except_pure_eq]
  | cons e rest ih =>
      unfold replayContributions
      rw [List.foldlM_cons, check_bind_eq_ok, throwIf_eq_ok, bind_eq_ok, bind_eq_ok]
      simp only [mapError_eq_ok, check_bind_eq_ok, throwIf_eq_ok, not_not, ih, not_exists,
        not_and, not_le, List.forall_mem_cons]
      constructor
      · rintro ⟨hearly, middle, hmiddle, hunchanged, hrest, hothers, -⟩
        exact ⟨⟨middle, hmiddle, hrest⟩, ⟨hearly, hothers⟩, fun _ => hunchanged⟩
      · rintro ⟨⟨middle, hmiddle, hrest⟩, ⟨hearly, hothers⟩, hunchanged⟩
        exact ⟨hearly, middle, hmiddle, hunchanged (by simp), hrest, hothers,
          fun _ => hunchanged (by simp)⟩

theorem checkLater_eq_ok {contributions later : List SignedEnvelope} :
    checkLater contributions later = .ok () ↔ ∀ a ∈ later, ∃ own,
      (contributions.find? fun e => e.from_ = a.from_) = some own ∧ own.seq < a.seq := by
  induction later with
  | nil => simp [checkLater, except_pure_eq]
  | cons a rest ih =>
      unfold checkLater
      rw [List.forall_mem_cons, ← ih]
      cases hfind : contributions.find? fun e => e.from_ = a.from_ with
      | none => simp
      | some own => simp [check_bind_eq_ok, throwIf_eq_ok]

/-- What a session that opens holds. -/
theorem openReceiver_agrees (hlogs : HoldsLogs session logs)
    (h : openReceiver ed hashRosterBody verify options session = .ok r) :
    Agrees ed hashRosterBody verify options session logs r.ledger ∧
      captureSessionHistory ed session options.historyLimits = .ok r.checkpoint ∧
      r = ⟨options, session, r.ledger, r.checkpoint, r.ledger.snapshot, none, false, false⟩ := by
  unfold openReceiver at h
  obtain ⟨hround, h⟩ := check_bind_eq_ok.1 h
  obtain ⟨hscope, h⟩ := check_bind_eq_ok.1 h
  obtain ⟨history, hhistory, h⟩ := bind_eq_ok.1 h
  obtain ⟨setup, hsetup, h⟩ := bind_eq_ok.1 h
  obtain ⟨initial, hinitial, h⟩ := bind_eq_ok.1 h
  obtain ⟨hcount, h⟩ := check_bind_eq_ok.1 h
  obtain ⟨ledger, hledger, h⟩ := bind_eq_ok.1 h
  obtain ⟨hcomplete, h⟩ := check_bind_eq_ok.1 h
  obtain ⟨hlater, h⟩ := check_bind_eq_ok.1 h
  obtain ⟨-, h⟩ := check_bind_eq_ok.1 h
  cases h
  rw [throwIf_eq_ok] at hround hscope hcomplete
  simp only [not_or, not_not, ne_eq] at hscope
  obtain ⟨hgame, hfour, -, hseats, hself⟩ := hscope
  have hcapture := mapError_eq_ok.1 hhistory
  obtain ⟨henvelopes, -, -⟩ := captureSessionHistory_eq_ok hlogs hcapture
  rw [henvelopes] at hsetup hcount hledger hlater hcomplete
  have hcreate := mapError_eq_ok.1 hinitial
  obtain ⟨table, key, -, -, hstart, -⟩ := CandidateShuffleLedger.create_eq_ok hcreate
  obtain ⟨hreplay, hearly, -⟩ := replayContributions_eq_ok.1 hledger
  rw [henvelopes] at hearly
  generalize hsorted : ((held session logs).filter (·.isContribution options.round)).insertionSort
    (fun a b => options.roster.seatIndex a ≤ options.roster.seatIndex b) = sorted at *
  have hperm : sorted.Perm ((held session logs).filter (·.isContribution options.round)) :=
    hsorted ▸ List.perm_insertionSort _ _
  have hnodup : sorted.Nodup := hperm.nodup_iff.2 (hlogs.nodup_held.filter _)
  have hidle : initial.Idle := by
    rw [hstart]
    exact ⟨rfl, rfl⟩
  have hchained : initial.Chained P ed hashRosterBody initial.deck :=
    (CandidateShuffleLedger.create_invariant hcreate).chained
  have hnone : initial.accepted = [] := by rw [hstart]
  obtain ⟨hlast, hchain, haccepted, hroster, hrounds⟩ :=
    CandidateShuffleLedger.foldlM_acceptAlone hidle hchained hnodup (by simp [hnone]) hreplay
  rw [hnone, List.nil_append] at haccepted
  have hscope : ledger.roster = options.roster ∧ ledger.round = options.round := by
    rw [hroster, hrounds, hstart]
    exact ⟨rfl, rfl⟩
  refine ⟨⟨hlogs, not_lt.1 hround, hgame, hfour, hseats, hself, hlast, hscope,
    ⟨setup, initial, mapError_eq_ok.1 hsetup, hcreate, by rw [haccepted]; exact hreplay, hchain⟩,
    fun seat => ?_, by rw [haccepted]; exact hearly, fun a ha hplay => ⟨?_, ?_⟩⟩, hcapture, rfl⟩
  · refine eq_toList_of_nodup ((hlogs.nodup_seat seat).filter _) fun e => ?_
    rw [List.mem_filter]
    constructor
    · rintro ⟨he, hcontribution⟩
      have hmem : e ∈ ledger.accepted := by
        rw [haccepted, hperm.mem_iff, List.mem_filter]
        exact ⟨hlogs.mem_held.2 ⟨seat, he⟩, hcontribution⟩
      obtain ⟨index, hindex⟩ := List.getElem?_of_mem hmem
      obtain ⟨hfrom, -⟩ := hchain.chain.getElem? hindex
      have hseat := (hlogs.place he).1
      rw [hscope.1, hseats] at hfrom
      rw [Roster.seatOf_eq_some.2 hfrom] at hseat
      rw [← Option.some.inj hseat]
      exact hindex
    · intro hindex
      have hmem : e ∈ ledger.accepted := List.mem_of_getElem? hindex
      rw [haccepted, hperm.mem_iff, List.mem_filter] at hmem
      obtain ⟨hheld, hcontribution⟩ := hmem
      obtain ⟨other, he⟩ := hlogs.mem_held.1 hheld
      obtain ⟨hfrom, -⟩ := hchain.chain.getElem? hindex
      have hseat := (hlogs.place he).1
      rw [hscope.1, hseats] at hfrom
      rw [Roster.seatOf_eq_some.2 hfrom] at hseat
      rw [Option.some.inj hseat]
      exact ⟨he, hcontribution⟩
  · have hmem : a ∈ (held session logs).filter (·.isLater options.round) :=
      List.mem_filter.2 ⟨ha, hplay⟩
    have hfull : ledger.complete = true := by
      by_contra hincomplete
      exact hcomplete ⟨List.ne_nil_of_mem hmem, by simpa using hincomplete⟩
    unfold CandidateShuffleLedger.complete at hfull
    simp only [Bool.and_eq_true, beq_iff_eq] at hfull
    exact hfull.2
  · rw [haccepted]
    exact checkLater_eq_ok.1 hlater a (List.mem_filter.2 ⟨ha, hplay⟩)

/-- **A session opens to the ledger it agrees with.** -/
theorem Agrees.reopen (h : Agrees ed hashRosterBody verify options session logs ledger)
    {history : CapturedSessionHistory P}
    (hcapture : captureSessionHistory ed session options.historyLimits = .ok history) :
    openReceiver ed hashRosterBody verify options session =
      .ok ⟨options, session, ledger, history, ledger.snapshot, none, false, false⟩ := by
  obtain ⟨henvelopes, -, hunchanged⟩ := captureSessionHistory_eq_ok h.holds hcapture
  obtain ⟨setup, initial, hsetup, hcreate, hreplay, hchained⟩ := h.replayed
  have hsize : session.roster.seats.length = 4 := by rw [← h.seats, h.four]
  have hlength : ledger.accepted.length ≤ 4 := by
    rw [← hchained.seat_eq]
    exact hchained.seat_le
  have hsorted : ledger.accepted.insertionSort
      (fun a b => options.roster.seatIndex a ≤ options.roster.seatIndex b) = ledger.accepted := by
    have hindex (index : ℕ) (hlt : index < ledger.accepted.length) :
        options.roster.seatIndex ledger.accepted[index] = index := by
      obtain ⟨hfrom, -⟩ := hchained.chain.getElem? (List.getElem?_eq_getElem hlt)
      rw [h.scope.1] at hfrom
      obtain ⟨hseat, hfrom⟩ := List.getElem?_eq_some_iff.1 hfrom
      unfold RosterBody.seatIndex
      rw [← hfrom, options.roster.distinct.idxOf_getElem]
    refine List.Pairwise.insertionSort_eq (List.pairwise_iff_getElem.2 ?_)
    intro i j hi hj hlt
    rw [hindex i hi, hindex j hj]
    exact hlt.le
  have hcomplete : (held session logs).filter (·.isLater options.round) ≠ [] →
      ledger.complete = true := by
    intro hne
    obtain ⟨a, ha⟩ := List.exists_mem_of_ne_nil _ hne
    obtain ⟨hheld, hplay⟩ := List.mem_filter.1 ha
    simp [CandidateShuffleLedger.complete, h.idle.2, (h.later a hheld hplay).1]
  unfold openReceiver
  rw [throwIf_neg (not_lt.2 h.setupRound), ok_bind, throwIf_neg (by
      simp [h.gameId, hsize, h.seats, h.seats ▸ h.self]), ok_bind, hcapture]
  simp only [Except.mapError, ok_bind]
  rw [henvelopes, hsetup]
  simp only [ok_bind, hcreate, h.contributions]
  rw [throwIf_neg (by omega), ok_bind, hsorted, replayContributions_eq_ok.2
    ⟨hreplay, by rw [henvelopes]; exact h.early, fun _ => hunchanged⟩, ok_bind,
    throwIf_neg (fun hlater => by simp [hcomplete hlater.1] at hlater), ok_bind,
    checkLater_eq_ok.2 fun a ha => ?_, ok_bind, throwIf_neg (not_not.2 hunchanged), ok_bind]
  · rfl
  · obtain ⟨hheld, hplay⟩ := List.mem_filter.1 ha
    exact (h.later a hheld hplay).2

/-- **One more shuffle**: a fresh one that the session accepts and whose proof is good. -/
theorem Agrees.snoc (h : Agrees ed hashRosterBody verify options session logs ledger)
    {e : SignedEnvelope} {statement : CandidateShuffleStatement36 G} {head : ChainHead}
    (hbegins : ledger.Begins P ed hashRosterBody e statement)
    (hverify : verifierAnswer verify e = some true)
    (haccepted : session.classify e = .chain (.accepted head)) :
    ∃ next, Agrees ed hashRosterBody verify options (session.ingest e).2 next
      (ledger.extend e statement) := by
  obtain ⟨setup, initial, hsetup, hcreate, hreplay, hchained⟩ := h.replayed
  obtain ⟨hlink, hseatne⟩ := hbegins.extends_
  obtain ⟨-, seat, hseat, hseq, -⟩ := h.holds.classify_accepted.1 ⟨head, haccepted⟩
  have hnext := h.holds.ingest_of_accepted hseat haccepted
  obtain ⟨hgame, hroster⟩ := ingest_scope session e
  have hseat' : seat = ledger.accepted.length := by
    have hfrom := hlink.from_
    rw [h.scope.1, h.seats] at hfrom
    rw [Roster.seatOf_eq_some.2 hfrom] at hseat
    rw [← Option.some.inj hseat, hchained.seat_eq]
  have hcontribution : e.isContribution options.round = true := by
    simp [SignedEnvelope.isContribution, hlink.type, hlink.round_eq, h.scope.2]
  have hsetupless : e.isSetup = false := by
    simp [SignedEnvelope.isSetup, hlink.type, setupTypeRank]
  have hplayless : e.isLater options.round = false := by
    simp [SignedEnvelope.isLater, hlink.type]
  have hmem (a : SignedEnvelope) (ha : a ∈ held (session.ingest e).2
      (Function.update logs seat (logs seat ++ [e]))) : a ∈ held session logs ∨ a = e := by
    obtain ⟨other, ha⟩ := hnext.mem_held.1 ha
    by_cases hother : other = seat
    · subst hother
      rw [Function.update_self, List.mem_append, List.mem_singleton] at ha
      exact ha.imp_left fun ha => h.holds.mem_held.2 ⟨other, ha⟩
    · rw [Function.update_of_ne hother] at ha
      exact .inl (h.holds.mem_held.2 ⟨other, ha⟩)
  have hheld : (held (session.ingest e).2
      (Function.update logs seat (logs seat ++ [e]))).filter (·.isSetup) =
        (held session logs).filter (·.isSetup) := by
    unfold held
    rw [hroster, List.filter_flatMap, List.filter_flatMap]
    refine List.flatMap_congr fun other _ => ?_
    by_cases hother : other = seat
    · subst hother
      rw [Function.update_self, List.filter_append, List.filter_cons_of_neg (by simp [hsetupless]),
        List.filter_nil, List.append_nil]
    · rw [Function.update_of_ne hother]
  have hplain := hnext.plain
  rw [hgame, hroster, ← h.gameId, ← h.seats] at hplain
  have hold := h.holds.plain
  rw [← h.gameId, ← h.seats] at hold
  have hquiet : ∀ a ∈ held session logs, a.isLater options.round = false := by
    intro a ha
    by_contra hplay
    exact hseatne (h.later a ha (by simpa using hplay)).1
  refine ⟨_, ⟨hnext, h.setupRound, h.gameId.trans hgame.symm, h.four, by rw [hroster, h.seats],
    h.self, h.idle, h.scope, ⟨setup, initial, ?_, hcreate, ?_, hchained.snoc hbegins.extends_⟩,
    fun other => ?_, ?_, ?_⟩⟩
  · rw [recoverSetup_congr options.beaconRequired hplain hold hheld]
    exact hsetup
  · show (ledger.accepted ++ [e]).foldlM _ initial = _
    rw [List.foldlM_append, hreplay, ok_bind, List.foldlM_cons,
      CandidateShuffleLedger.acceptAlone_of_begins h.idle hbegins hverify]
    rfl
  · show _ = (ledger.accepted ++ [e])[other]?.toList
    by_cases hother : other = seat
    · subst hother
      rw [Function.update_self, List.filter_append, h.seatwise,
        List.filter_cons_of_pos (by simpa using hcontribution), List.filter_nil, hseat',
        List.getElem?_concat_length, List.getElem?_eq_none le_rfl]
      rfl
    · rw [Function.update_of_ne hother, h.seatwise]
      rcases lt_or_ge other ledger.accepted.length with hlt | hle
      · rw [List.getElem?_append_left hlt]
      · rw [List.getElem?_eq_none hle, List.getElem?_eq_none (by simp; omega)]
  · intro x hx a ha hfrom hsetupa
    rcases hmem a ha with hbefore | rfl
    · rcases List.mem_append.1 hx with hx | hx
      · exact h.early x hx a hbefore hfrom hsetupa
      · rw [List.mem_singleton] at hx
        subst hx
        obtain ⟨other, hother⟩ := h.holds.mem_held.1 hbefore
        obtain ⟨hown, hplace⟩ := h.holds.place hother
        rw [hfrom, hseat] at hown
        obtain rfl := Option.some.inj hown
        rw [hseq]
        exact (List.getElem?_eq_some_iff.1 hplace).1
    · rw [hsetupless] at hsetupa
      cases hsetupa
  · intro a ha hplay
    rcases hmem a ha with ha | rfl
    · rw [hquiet a ha] at hplay
      cases hplay
    · rw [hplayless] at hplay
      cases hplay

end

end

end Tablefolk
