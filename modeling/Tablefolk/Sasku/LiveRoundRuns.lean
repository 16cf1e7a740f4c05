import Tablefolk.Sasku.LiveRound

/-!
# Runs of the driver of a match

What holds of the driver after any steps in any order.

* `LiveCore`: the buffer stays within its budget and loses nothing, every promise of an action is
  settled once, and the match is the rounds that were ready and audited.
* `Awake`: an idle driver has looked at everything it was told.
-/

namespace Tablefolk

section

variable {q : ℕ} {G : Type} [AddCommGroup G] [Module (ZMod q) G] {P : Primitives q G}

/-- What holds of the driver at any time. -/
structure LiveCore (o : LiveOptions P) (s : LiveRound P) : Prop where
  size_le : s.pending.size ≤ 256
  bytes_eq : s.bytes = s.pending.total fun _ e => e.byteLength
  bytes_le : s.bytes ≤ 4 * 1024 * 1024
  /-- an envelope is kept under its sender and number, and belongs to the match -/
  keyed : ∀ key e, s.pending.get? key = some e →
    key = (e.from_, e.seq) ∧ e.game = o.game ∧
      (e.type.isSetup = true ∧ e.round = 0 ∨
        e.type.isRound = true ∧ 1 ≤ e.round ∧ e.round ≤ MAX_SASKU_MATCH_ROUNDS)
  receiving : ∀ key e, s.task = .receiving key e → s.pending.get? key = some e
  /-- nothing is lost -/
  conserved : s.admitted.Perm (s.pending.values ++ s.handed.map Prod.fst)
  handed : ∀ out ∈ s.handed, out.2 = .classified ∨ out.2 = .receipt .accepted ∨
    out.2 = .receipt .duplicate
  /-- every promise is open or settled, and not twice -/
  acts : (s.settled.map Prod.fst ++ (s.action.toList ++ s.task.act).map PendingAct.id).Perm
    (List.range s.acts)
  turn : ∀ act ∈ s.action.toList ++ s.task.act, act.expected.turn = some o.seat
  reached : MatchReached s.matchState
  ready : s.roundReady ≠ 0 → s.roundReady = s.matchState.round ∧ s.roundReady ∈ s.readyRounds
  recorded : ∀ done ∈ s.matchState.completed,
    done.round ∈ s.readyRounds ∧ (done.round, done.score) ∈ s.audits
  owner : ∀ round, s.owner = some round → round = s.matchState.round ∨
    round + 1 = s.matchState.round ∧ (s.task.between = true ∨ s.live = false)
  halted : s.error.isSome = true → s.task.halted = true

namespace LiveRound

/-- With what the last turn of the loop has read, there is nothing to do. -/
def Stopped (o : LiveOptions P) (s : LiveRound P) : Prop :=
  ∃ reads, s.last = some reads ∧ s.choose o reads = .stop

/-- A driver that has stopped has looked at everything, or is about to look again. -/
def Awake (o : LiveOptions P) (s : LiveRound P) : Prop :=
  s.live = true → s.threw = false →
    (s.task.isIdle = true → s.again = false ∧ s.Stopped o) ∧
    (s.task = .finishing → s.again = true ∨ s.Stopped o)

variable {o : LiveOptions P} {ed : Ed25519} {s : LiveRound P}

/-! ## The parts of a step -/

theorem live_eq_true : s.live = true ↔ s.closed = false ∧ s.error = none := by
  simp [live]

theorem create_core : LiveCore o (create : LiveRound P) where
  size_le := Nat.zero_le _
  bytes_eq := rfl
  bytes_le := Nat.zero_le _
  keyed := by
    intro key e h
    cases h
  receiving := by
    intro key e h
    cases h
  conserved := .refl _
  handed := by simp [create]
  acts := .refl _
  turn := by simp [create, LiveTask.act]
  reached := .initial
  ready := fun h => absurd rfl h
  recorded := by simp [create, INITIAL_SASKU_MATCH]
  owner := by simp [create]
  halted := by simp [create]

/-- Another task that makes no other action. -/
theorem core_task (h : LiveCore o s) {task : LiveTask} (hact : task.act = s.task.act)
    (hreceiving : ∀ key e, task = .receiving key e → s.pending.get? key = some e)
    (hbetween : s.task.between = true →
      task.between = true ∨ s.live = false ∨ s.owner = some s.matchState.round)
    (hhalted : s.task.halted = true → task.halted = true) :
    LiveCore o { s with task := task } :=
  { h with
    receiving := hreceiving
    acts := hact ▸ h.acts
    turn := hact ▸ h.turn
    owner := by
      intro round hround
      rcases h.owner round hround with hsame | ⟨hbefore, hstate⟩
      · exact .inl hsame
      · rcases hstate with hstate | hlive
        · rcases hbetween hstate with htask | hlive | howner
          · exact .inr ⟨hbefore, .inl htask⟩
          · exact .inr ⟨hbefore, .inr hlive⟩
          · exact .inl (Option.some.inj (hround.symm.trans howner))
        · exact .inr ⟨hbefore, .inr hlive⟩
    halted := fun herror => hhalted (h.halted herror) }

theorem core_throws (h : LiveCore o s) (hact : s.task.act = []) (hhalted : s.task.halted = false)
    (message : String) : LiveCore o (s.throws message) := by
  refine core_task h hact.symm (fun key e heq => by cases heq) (fun _ => .inl rfl) ?_
  simp [hhalted]

theorem core_kick (h : LiveCore o s) : LiveCore o s.kick := by
  have htask : LiveCore o { s with
      task := if s.live && s.task.isIdle then .looping else s.task } := by
    split
    · rename_i hidle
      obtain ⟨hlive, hidle⟩ := Bool.and_eq_true_iff.1 hidle
      cases htask : s.task with
      | idle =>
          have herror := (live_eq_true.1 hlive).2
          exact { h with
            receiving := fun key e heq => by cases heq
            acts := by simpa [htask, LiveTask.act] using h.acts
            turn := by simpa [htask, LiveTask.act] using h.turn
            owner := by simpa [htask, LiveTask.between, live] using h.owner
            halted := by simp [herror] }
      | _ => simp [htask, LiveTask.isIdle] at hidle
    · exact h
  exact { htask with }

theorem kick_awake (s : LiveRound P) : s.kick.Awake o := by
  intro hlive hthrew
  have hlive : s.live = true := hlive
  unfold kick
  constructor
  · intro hidle
    cases htask : s.task <;> simp [htask, hlive, LiveTask.isIdle] at hidle
  · intro hfinishing
    left
    cases htask : s.task <;> simp [htask, hlive, LiveTask.isIdle] at hfinishing ⊢

theorem awake_of_running (h : s.task.halted = false) : s.Awake o := by
  intro _ _
  cases htask : s.task <;> simp [htask, LiveTask.halted, LiveTask.isIdle] at h ⊢

theorem awake_of_not_live (h : s.live = false) : s.Awake o := fun hlive => by
  rw [h] at hlive
  cases hlive

/-! ## What comes from outside -/

theorem core_update (h : LiveCore o s) (reads : LiveReads P) : LiveCore o (s.update reads) :=
  { h with }

theorem core_setConnected (h : LiveCore o s) (value : Bool) (reads : LiveReads P) :
    LiveCore o (s.setConnected value reads) := by
  unfold setConnected
  split
  · exact h
  · simp only
    split
    · exact { h with }
    · refine core_kick (core_update ?_ reads)
      exact { h with }

theorem awake_setConnected (h : s.Awake o) (value : Bool) (reads : LiveReads P) :
    (s.setConnected value reads).Awake o := by
  unfold setConnected
  split
  · exact h
  · simp only
    split
    · intro _ hthrew
      cases hthrew
    · exact kick_awake _

theorem readyValue_eq {round : ℕ} (h : s.readyValue round ≠ 0) :
    s.readyValue round = s.matchState.round := by
  unfold readyValue at h ⊢
  split_ifs at h ⊢ with hround
  · exact hround
  · exact absurd rfl h

theorem core_setRoundReady (h : LiveCore o s) (round : ℕ) : LiveCore o (s.setRoundReady round) := by
  unfold setRoundReady
  split_ifs
  · exact h
  · exact h
  · refine core_kick { h with ready := ?_, recorded := ?_ }
    · intro hready
      exact ⟨readyValue_eq hready, List.mem_append_right _ (List.mem_singleton_self _)⟩
    · intro done hdone
      obtain ⟨hround, haudit⟩ := h.recorded done hdone
      exact ⟨List.mem_append_left _ hround, haudit⟩

theorem awake_setRoundReady (h : s.Awake o) (round : ℕ) : (s.setRoundReady round).Awake o := by
  unfold setRoundReady
  split_ifs
  · exact h
  · exact h
  · exact kick_awake _

/-- What an envelope that is admitted has passed. -/
structure Admits (o : LiveOptions P) (s : LiveRound P) (remote : IdentityPublicKey)
    (e : SignedEnvelope) : Prop where
  live : s.live = true
  from_ : e.from_ = remote
  game : e.game = o.game
  round : e.type.isSetup = true ∧ e.round = 0 ∨
    e.type.isRound = true ∧ 1 ≤ e.round ∧ e.round ≤ MAX_SASKU_MATCH_ROUNDS
  fresh : s.pending.get? (remote, e.seq) = none
  size : s.pending.size < 256
  bytes : s.bytes + e.byteLength ≤ 4 * 1024 * 1024

theorem admit_cases {remote : IdentityPublicKey} {e : SignedEnvelope} {next : LiveRound P}
    (h : s.enqueue remote e.byteLength e = .ok next) : next = s ∨
      (e.type.isSetup = true ∧ e.round = 0 ∨
        e.type.isRound = true ∧ 1 ≤ e.round ∧ e.round ≤ MAX_SASKU_MATCH_ROUNDS) ∧
      s.pending.get? (remote, e.seq) = none ∧ s.pending.size < 256 ∧
      s.bytes + e.byteLength ≤ 4 * 1024 * 1024 ∧ next = (s.withEnvelope remote e).kick := by
  unfold enqueue at h
  rw [check_bind_eq_ok] at h
  obtain ⟨htype, h⟩ := h
  rw [check_bind_eq_ok] at h
  obtain ⟨-, h⟩ := h
  split at h
  · rw [check_bind_eq_ok] at h
    exact .inl (Except.ok.inj h.2).symm
  · rename_i hget
    rw [check_bind_eq_ok] at h
    obtain ⟨hbudget, hnext⟩ := h
    rw [throwIf_eq_ok, not_or, not_le, not_lt] at hbudget
    refine .inr ⟨?_, hget, hbudget.1, hbudget.2, (Except.ok.inj hnext).symm⟩
    rw [throwIf_eq_ok, not_or] at htype
    cases hsetup : e.type.isSetup with
    | true =>
        simp only [hsetup, if_true] at htype
        exact .inl ⟨rfl, not_not.1 htype.1⟩
    | false =>
        simp [hsetup] at htype
        exact .inr ⟨htype.2, by omega, htype.1.2⟩

theorem receive_cases {remote : IdentityPublicKey} {payload : InboxPayload}
    {session : SessionChainRegistry P} {next : LiveRound P}
    (h : s.receive o remote payload session = .ok next) :
    next = s ∨ ∃ e, s.Admits o remote e ∧ next = (s.withEnvelope remote e).kick := by
  unfold receive at h
  rw [check_bind_eq_ok] at h
  obtain ⟨hlive, h⟩ := h
  rw [check_bind_eq_ok] at h
  obtain ⟨-, h⟩ := h
  rw [throwIf_eq_ok, Bool.not_eq_false] at hlive
  cases henvelope : payload.envelope with
  | none =>
      rw [henvelope] at h
      cases h
  | some e =>
      rw [henvelope] at h
      simp only at h
      rw [check_bind_eq_ok] at h
      obtain ⟨hsender, h⟩ := h
      rw [throwIf_eq_ok, not_or, not_or, not_not, not_not] at hsender
      have hadmit : s.enqueue remote e.byteLength e = .ok next ∨ next = s := by
        rw [payload.size_eq e henvelope] at h
        split at h
        all_goals first
          | exact .inr (Except.ok.inj h).symm
          | exact .inl h
          | cases h
      rcases hadmit with hadmit | hsame
      · obtain hsame | ⟨hround, hget, hsize, hbytes, hnext⟩ := admit_cases hadmit
        · exact .inl hsame
        · exact .inr ⟨e, ⟨hlive, hsender.1, hsender.2.1, hround, hget, hsize, hbytes⟩, hnext⟩
      · exact .inl hsame

theorem core_receive (h : LiveCore o s) {remote : IdentityPublicKey} {payload : InboxPayload}
    {session : SessionChainRegistry P} {next : LiveRound P}
    (hnext : s.receive o remote payload session = .ok next) : LiveCore o next := by
  obtain rfl | ⟨e, hadmits, rfl⟩ := receive_cases hnext
  · exact h
  · have hget := hadmits.fresh
    have hsize := hadmits.size
    refine core_kick { h with
      size_le := ?_, bytes_eq := ?_, bytes_le := hadmits.bytes, keyed := ?_, receiving := ?_,
      conserved := ?_ }
    · show (s.pending.set (remote, e.seq) e).size ≤ 256
      rw [OrderedMap.size_set, OrderedMap.delete_of_none hget]
      omega
    · show s.bytes + e.byteLength = OrderedMap.total _ (s.pending.set (remote, e.seq) e)
      rw [OrderedMap.total_set, OrderedMap.delete_of_none hget, ← h.bytes_eq, Nat.add_comm]
    · intro key other hother
      simp only [withEnvelope, OrderedMap.get?_set] at hother
      split_ifs at hother with hkey
      · cases hother
        exact ⟨hadmits.from_ ▸ hkey, hadmits.game, hadmits.round⟩
      · exact h.keyed key other hother
    · intro key other htask
      have hother := h.receiving key other htask
      have hne : key ≠ (remote, e.seq) := by
        rintro rfl
        rw [hget] at hother
        cases hother
      simpa only [withEnvelope, OrderedMap.get?_set, if_neg hne] using hother
    · refine (List.perm_append_singleton e s.admitted).trans ?_
      refine (h.conserved.cons e).trans ?_
      rw [← List.cons_append]
      exact (OrderedMap.values_set hget).symm.append_right _

theorem awake_receive (h : s.Awake o) {remote : IdentityPublicKey} {payload : InboxPayload}
    {session : SessionChainRegistry P} {next : LiveRound P}
    (hnext : s.receive o remote payload session = .ok next) : next.Awake o := by
  obtain rfl | ⟨e, -, rfl⟩ := receive_cases hnext
  · exact h
  · exact kick_awake _

/-- What an action that is handed in has passed. -/
theorem act_cases {intent : SaskuActionIntent} {next : LiveRound P}
    (h : s.act o intent = .ok next) : ∃ state, s.live = true ∧ s.action = none ∧
      state.turn = some o.seat ∧ next = { s with
        action := some ⟨s.acts, intent, state⟩
        acts := s.acts + 1 }.kick := by
  unfold act at h
  cases hview : s.view with
  | none =>
      rw [hview] at h
      cases h
  | some state =>
      rw [hview] at h
      simp only at h
      split_ifs at h with hwait
      simp only [not_or, not_not, Bool.not_eq_false, Bool.not_eq_true,
        Option.isSome_eq_false_iff, Option.isNone_iff_eq_none] at hwait
      obtain ⟨-, -, haction, hlive, hturn⟩ := hwait
      exact ⟨state, hlive, haction, hturn, (Except.ok.inj h).symm⟩

theorem core_act (h : LiveCore o s) {intent : SaskuActionIntent} {next : LiveRound P}
    (hnext : s.act o intent = .ok next) : LiveCore o next := by
  obtain ⟨state, -, haction, hturn, rfl⟩ := act_cases hnext
  have hacts := h.acts
  have hturns := h.turn
  rw [haction] at hacts hturns
  refine core_kick { h with acts := ?_, turn := ?_ }
  · show (_ ++ List.map _ (_ :: s.task.act)).Perm (List.range (s.acts + 1))
    rw [List.range_succ, List.map_cons]
    refine List.perm_middle.trans ?_
    refine ((List.perm_append_singleton s.acts _).trans (.cons _ ?_)).symm
    exact hacts.symm
  · intro act hact
    rcases List.mem_cons.1 hact with rfl | hact
    · exact hturn
    · exact hturns act hact

theorem awake_act {intent : SaskuActionIntent} {next : LiveRound P}
    (hnext : s.act o intent = .ok next) : next.Awake o := by
  obtain ⟨state, -, -, -, rfl⟩ := act_cases hnext
  exact kick_awake _

/-! ## A turn of the loop -/

theorem choose_handing {reads : LiveReads P} {key : LiveKey} {e : SignedEnvelope}
    (h : s.choose o reads = .drop key e ∨ s.choose o reads = .receive key e) :
    s.pending.get? key = some e := by
  have hmem : ∀ entry,
      (s.pending.entries.find? fun entry => s.eligible reads entry.2) = some entry →
      s.pending.get? entry.1 = some entry.2 :=
    fun entry hfind => OrderedMap.get?_eq_some.2 (List.mem_of_find?_eq_some hfind)
  have hproceed : s.proceed o reads ≠ .drop key e ∧ s.proceed o reads ≠ .receive key e := by
    unfold proceed attend contribute
    constructor <;> repeat' split
    all_goals simp
  unfold choose at h
  cases hfind : s.pending.entries.find? fun entry => s.eligible reads entry.2 with
  | none =>
      rw [hfind] at h
      exact absurd h (not_or.2 hproceed)
  | some entry =>
      rw [hfind] at h
      simp only at h
      split_ifs at h
      · obtain ⟨rfl, rfl⟩ : entry.1 = key ∧ entry.2 = e := by simpa using h
        exact hmem entry hfind
      · obtain ⟨rfl, rfl⟩ : entry.1 = key ∧ entry.2 = e := by simpa using h
        exact hmem entry hfind

theorem choose_of_proceed {reads : LiveReads P} {choice : LiveChoice}
    (h : s.choose o reads = choice) (hdrop : ∀ key e, choice ≠ .drop key e)
    (hreceive : ∀ key e, choice ≠ .receive key e) :
    (s.pending.entries.find? fun entry => s.eligible reads entry.2) = none ∧
      s.proceed o reads = choice := by
  unfold choose at h
  cases hfind : s.pending.entries.find? fun entry => s.eligible reads entry.2 with
  | none =>
      rw [hfind] at h
      exact ⟨rfl, h⟩
  | some entry =>
      rw [hfind] at h
      simp only at h
      split_ifs at h
      · exact absurd h.symm (hdrop _ _)
      · exact absurd h.symm (hreceive _ _)

theorem attend_eq {choice result : LiveChoice} (h : s.attend choice = result)
    (hresult : result ≠ .stop) : choice = result := by
  unfold attend at h
  split_ifs at h
  · exact absurd h.symm hresult
  · exact h

/-- What is known when a round is recorded. -/
theorem choose_record {reads : LiveReads P} {score : SaskuHandScore} {next : SaskuMatchState}
    (h : s.choose o reads = .record score next) :
    (s.pending.entries.find? fun entry => s.eligible reads entry.2) = none ∧
      (∃ round, s.owner = some round) ∧ s.roundReady = s.matchState.round ∧ score.Produced ∧
      recordSaskuRound s.matchState (dealerOf s.matchState.round) score = .ok next ∧
      ∃ state pending produced, reads.owner.snapshot = .round state ∧
        state.audit = some ⟨pending, some (.valid score produced)⟩ := by
  obtain ⟨hfind, h⟩ := choose_of_proceed h (by simp) (by simp)
  have hcontribute : ∀ state, s.contribute o state ≠ .record score next := by
    intro state
    unfold contribute
    repeat' split
    all_goals simp
  refine ⟨hfind, ?_⟩
  unfold proceed at h
  cases howner : s.owner with
  | none =>
      rw [howner] at h
      simp only at h
      by_cases hcomplete : reads.setup.state = .complete
      · rw [if_pos hcomplete] at h
        cases h
      · rw [if_neg hcomplete] at h
        have hchoice := attend_eq h (by simp)
        split_ifs at hchoice
  | some round =>
      rw [howner] at h
      simp only at h
      cases hsnapshot : reads.owner.snapshot with
      | shuffle nextSeat =>
          rw [hsnapshot] at h
          have hchoice := attend_eq h (by simp)
          split_ifs at hchoice
      | round state =>
          rw [hsnapshot] at h
          simp only at h
          cases haudit : state.audit with
          | none =>
              rw [haudit] at h
              exact absurd (attend_eq h (by simp)) (hcontribute state)
          | some audit =>
              obtain ⟨pending, result⟩ := audit
              rw [haudit] at h
              simp only [Option.bind_some] at h
              cases result with
              | none => exact absurd (attend_eq h (by simp)) (hcontribute state)
              | some reading =>
                  cases reading with
                  | violation rule => cases h
                  | valid found produced =>
                      simp only at h
                      split_ifs at h with hopen hready
                      · split at h
                        · rename_i next' hrecord
                          cases h
                          obtain ⟨dealer, hdealer, hrecord⟩ := bind_eq_ok.1 hrecord
                          have hdealer' := (recordSaskuRound_eq_ok.1 hrecord).2.1
                          exact ⟨⟨round, rfl⟩, not_not.1 hready, produced, hdealer' ▸ hrecord,
                            state, pending, produced, rfl, haudit⟩
                        · cases h
                      · exact absurd (attend_eq h (by simp)) (hcontribute state)

/-- An own contribution is one of five. -/
theorem choose_author {reads : LiveReads P} {task : LiveTask}
    (h : s.choose o reads = .author task) :
    (∃ action, task = .acting action ∧ s.action = some action) ∨
      task = .keyShare ∨ task = .proving ∨ task = .dealing ∨ task = .auditing := by
  obtain ⟨-, h⟩ := choose_of_proceed h (by simp) (by simp)
  have hcontribute : ∀ state, s.contribute o state = .author task →
      (∃ action, task = .acting action ∧ s.action = some action) ∨
      task = .keyShare ∨ task = .proving ∨ task = .dealing ∨ task = .auditing := by
    intro state hchoice
    unfold contribute at hchoice
    split_ifs at hchoice
    · cases hchoice
      simp
    · split at hchoice
      · rename_i action haction
        cases hchoice
        exact .inl ⟨action, rfl, haction⟩
      · split at hchoice
        · split_ifs at hchoice
          cases hchoice
          simp
        · cases hchoice
  unfold proceed at h
  split at h
  · by_cases hcomplete : reads.setup.state = .complete
    · rw [if_pos hcomplete] at h
      cases h
    · rw [if_neg hcomplete] at h
      have hchoice := attend_eq h (by simp)
      split_ifs at hchoice
      cases hchoice
      simp
  · split at h
    · have hchoice := attend_eq h (by simp)
      split_ifs at hchoice
      cases hchoice
      simp
    · split at h
      · cases h
      · split_ifs at h
        · split at h <;> cases h
        · exact hcontribute _ (attend_eq h (by simp))
      · exact hcontribute _ (attend_eq h (by simp))

theorem core_remove (h : LiveCore o s) {key : LiveKey} {e : SignedEnvelope}
    {handing : LiveHanding} (hget : s.pending.get? key = some e) (hact : s.task.act = [])
    (hhalted : s.task.halted = false)
    (hbetween : s.task.between = true → s.live = false)
    (hhanding : handing = .classified ∨ handing = .receipt .accepted ∨
      handing = .receipt .duplicate) : LiveCore o (s.remove key e handing) := by
  have htask : LiveCore o { s with task := .looping } :=
    core_task h hact.symm (fun _ _ heq => by cases heq) (fun hb => .inr (.inl (hbetween hb)))
      (by simp [hhalted])
  have hsize := OrderedMap.size_of_get? hget
  have htotal := OrderedMap.total_of_get? (fun _ e => e.byteLength) hget
  have hle := h.size_le
  have hbytes := h.bytes_eq
  have hbudget := h.bytes_le
  refine { htask with
    size_le := ?_, bytes_eq := ?_, bytes_le := ?_, keyed := ?_, receiving := ?_,
    conserved := ?_, handed := ?_ }
  · show (s.pending.delete key).size ≤ 256
    omega
  · show s.bytes - _ = OrderedMap.total _ (s.pending.delete key)
    omega
  · show s.bytes - _ ≤ _
    omega
  · intro other found hfound
    simp only [remove, OrderedMap.get?_delete] at hfound
    split_ifs at hfound
    exact h.keyed other found hfound
  · intro other found heq
    cases heq
  · show s.admitted.Perm (_ ++ List.map _ (s.handed ++ [(e, handing)]))
    rw [List.map_append, ← List.append_assoc]
    refine h.conserved.trans ?_
    refine ((OrderedMap.values_delete hget).append_right _).trans ?_
    exact (List.perm_append_singleton e _).symm
  · intro out hout
    rcases List.mem_append.1 hout with hout | hout
    · exact h.handed out hout
    · rw [List.mem_singleton.1 hout]
      exact hhanding

theorem core_opened (h : LiveCore o s) (reads : LiveReads P) (hact : s.task.act = [])
    (hhalted : s.task.halted = false) : LiveCore o (s.opened ed reads) := by
  have howner : LiveCore o { s with owner := some s.matchState.round } :=
    { h with owner := fun round hround => .inl (Option.some.inj hround).symm }
  unfold opened
  simp only
  split
  · exact core_task howner hact.symm (by simp) (fun _ => .inr (.inr rfl)) (by simp [hhalted])
  · exact core_throws howner hact hhalted _

theorem record_winner {m next : SaskuMatchState} {dealer : SaskuSeat}
    {score : SaskuHandScore} (h : recordSaskuRound m dealer score = .ok next) :
    (next.winner = none → next.round = m.round + 1) ∧ (next.winner ≠ none → next.round = m.round) ∧
      next.completed = m.completed ++ [⟨m.round, dealer, score⟩] := by
  obtain ⟨-, -, totals, -, -, rfl⟩ := recordSaskuRound_eq_ok.1 h
  refine ⟨fun hnone => ?_, fun hsome => ?_, rfl⟩
  · simp only at hnone ⊢
    rw [if_pos hnone]
  · simp only at hsome ⊢
    rw [if_neg hsome]

theorem core_record (h : LiveCore o s) {reads : LiveReads P} {score : SaskuHandScore}
    {next : SaskuMatchState} (htask : s.task = .looping) (hlive : s.live = true)
    (hchoose : s.choose o reads = .record score next) :
    LiveCore o (s.record ed reads score next) := by
  obtain ⟨-, ⟨round, howner⟩, hready, hproduced, hrecord, -⟩ := choose_record hchoose
  obtain ⟨hopen, hwon, hcompleted⟩ := record_winner hrecord
  have hround : round = s.matchState.round := by
    rcases h.owner round howner with hsame | ⟨-, hbetween | hclosed⟩
    · exact hsame
    · rw [htask] at hbetween
      cases hbetween
    · rw [hlive] at hclosed
      cases hclosed
  have hpositive : s.roundReady ≠ 0 := by
    obtain ⟨⟨-, hnumber, -⟩, -⟩ := recordSaskuRound_eq_ok.1 hrecord
    omega
  have hrecorded : ∀ done ∈ next.completed, done.round ∈ s.readyRounds ∧
      (done.round, done.score) ∈ s.audits ++ [(s.owner.getD 0, score)] := by
    rw [hcompleted, List.forall_mem_append]
    constructor
    · intro done hdone
      obtain ⟨hready, haudit⟩ := h.recorded done hdone
      exact ⟨hready, List.mem_append_left _ haudit⟩
    · intro done hdone
      rw [List.mem_singleton.1 hdone, howner, hround]
      refine ⟨?_, List.mem_append_right _ (List.mem_singleton_self _)⟩
      exact hready ▸ (h.ready hpositive).2
  have hreached := h.reached.record hproduced hrecord
  have hacts := h.acts
  have hturn := h.turn
  rw [htask] at hacts hturn
  have herror := (live_eq_true.1 hlive).2
  have hcore : ∀ task : LiveTask, task.act = [] → (∀ key e, task ≠ .receiving key e) →
      (next.winner = none → task.between = true) → LiveCore o { s with
        matchState := next
        roundReady := 0
        audits := s.audits ++ [(s.owner.getD 0, score)]
        task := task } := by
    intro task hact hreceiving hbetween
    exact { h with
      receiving := fun key e heq => absurd heq (hreceiving key e)
      acts := hact ▸ hacts
      turn := hact ▸ hturn
      reached := hreached
      ready := fun hne => absurd rfl hne
      recorded := hrecorded
      owner := by
        intro other hother
        cases howner.symm.trans hother
        by_cases hnone : next.winner = none
        · exact .inr ⟨by rw [hround]; exact (hopen hnone).symm, .inl (hbetween hnone)⟩
        · exact .inl (by rw [hround, hwon hnone])
      halted := fun hsome => absurd (hsome : s.error.isSome = true) (by simp [herror]) }
  unfold record
  simp only
  split_ifs with hnone
  · exact hcore .openingNext rfl (by simp) fun _ => rfl
  · split
    · exact { hcore .finishing rfl (by simp) fun h => absurd h hnone with }
    · exact hcore (.failing _) rfl (by simp) fun _ => rfl

/-- After a win there is nothing left to do. -/
theorem awake_record (h : LiveCore o s) {reads : LiveReads P} {score : SaskuHandScore}
    {next : SaskuMatchState} (hchoose : s.choose o reads = .record score next) :
    (s.record ed reads score next).Awake o := by
  obtain ⟨hfind, ⟨round, howner⟩, -, hproduced, hrecord, state, pending, produced, hsnapshot,
    haudit⟩ := choose_record hchoose
  obtain ⟨-, hwon, -⟩ := record_winner hrecord
  have hinv := (h.reached.record hproduced hrecord).inv
  unfold record
  simp only
  split_ifs with hnone
  · exact awake_of_running rfl
  · split
    · refine fun _ _ => ⟨(fun hidle => by cases hidle), fun _ => .inr ⟨reads, rfl, ?_⟩⟩
      have hfind' : s.pending.entries.find? (fun entry =>
          ({ s with matchState := next, roundReady := 0 } : LiveRound P).eligible reads
            entry.2) = none := by
        rw [← hfind]
        refine congrArg (fun p => s.pending.entries.find? p) (funext fun entry => ?_)
        simp only [eligible, expects, hwon hnone]
      have hlength : ¬ next.completed.length < next.round := by
        rw [hinv.won hnone]
        exact lt_irrefl _
      have hchoice : ({ s with matchState := next, roundReady := 0 } : LiveRound P).choose o
          reads = .stop := by
        unfold choose
        rw [hfind']
        simp only [proceed, howner, hsnapshot, haudit, Option.bind_some]
        rw [if_neg hlength, attend, if_pos (.inl hnone)]
      exact hchoice
    · exact awake_of_running rfl

theorem core_turn (h : LiveCore o s) (htask : s.task = .looping) (reads : LiveReads P) :
    LiveCore o (s.turn o ed reads) := by
  have hto : ∀ task : LiveTask, task.act = [] →
      (∀ key e, task = .receiving key e → s.pending.get? key = some e) →
      LiveCore o { s with task := task } := by
    intro task hact hreceiving
    refine core_task h (by rw [htask]; exact hact) hreceiving ?_ ?_
    · simp [htask, LiveTask.between]
    · simp [htask, LiveTask.halted]
  unfold turn
  split_ifs with hlive hthrows
  · exact hto .finishing rfl (by simp)
  · exact hto (.failing _) rfl (by simp)
  · have hlive : s.live = true := by simpa using hlive
    have hupdate := core_update h reads
    simp only
    split
    · rename_i key e hchoose
      exact core_remove hupdate (choose_handing (.inl hchoose)) (congrArg LiveTask.act htask)
        (congrArg LiveTask.halted htask) (by simp [update, htask, LiveTask.between]) (.inl rfl)
    · rename_i key e hchoose
      have hget : s.pending.get? key = some e := choose_handing (.inr hchoose)
      refine { hto (.receiving key e) rfl ?_ with }
      intro key' e' heq
      cases heq
      exact hget
    · exact { hto .waiting rfl (by simp) with }
    · rename_i score next hchoose
      exact core_record hupdate htask hlive hchoose
    · rename_i action hchoose
      have haction : s.action = some action := by
        rcases choose_author hchoose with ⟨_, heq, haction⟩ | heq | heq | heq | heq
        · cases heq
          exact haction
        all_goals cases heq
      have hacts := h.acts
      have hturn := h.turn
      rw [htask, haction] at hacts hturn
      exact { h with
        receiving := fun _ _ heq => by cases heq
        acts := hacts
        turn := hturn
        owner := (hto .waiting rfl (by simp)).owner
        halted := (hto .waiting rfl (by simp)).halted }
    · rename_i task hacting hchoose
      rcases choose_author hchoose with ⟨action, heq, -⟩ | rfl | rfl | rfl | rfl
      · exact absurd heq (hacting action)
      · exact { hto .keyShare rfl (by simp) with }
      · exact { hto .proving rfl (by simp) with }
      · exact { hto .dealing rfl (by simp) with }
      · exact { hto .auditing rfl (by simp) with }
    · exact { hto (.failing _) rfl (by simp) with }
    · exact { hto .finishing rfl (by simp) with }

theorem awake_turn (h : LiveCore o s) (reads : LiveReads P) : (s.turn o ed reads).Awake o := by
  unfold turn
  split_ifs with hlive hthrows
  · exact awake_of_not_live hlive
  · exact awake_of_running rfl
  · simp only
    split
    · exact awake_of_running rfl
    · exact awake_of_running rfl
    · exact awake_of_running rfl
    · rename_i score next hchoose
      exact awake_record (core_update h reads) hchoose
    · exact awake_of_running rfl
    · rename_i task hacting hchoose
      rcases choose_author hchoose with ⟨action, heq, -⟩ | rfl | rfl | rfl | rfl
      · exact absurd heq (hacting action)
      all_goals exact awake_of_running rfl
    · exact awake_of_running rfl
    · rename_i hchoose
      exact fun _ _ => ⟨(fun hidle => by cases hidle), fun _ => .inr ⟨reads, rfl, hchoose⟩⟩

/-! ## After an `await` -/

theorem contributed_cases (s : LiveRound P) (reply : LiveReply P)
    (message : LiveReceipt → String) : s.contributed reply message = s ∨
      s.contributed reply message = { s with task := .looping } ∨
      ∃ text, s.contributed reply message = s.throws text := by
  unfold contributed
  split
  · exact .inr (.inr ⟨_, rfl⟩)
  · exact .inr (.inl rfl)
  · exact .inr (.inr ⟨_, rfl⟩)
  · exact .inl rfl

theorem core_contributed (h : LiveCore o s) (hact : s.task.act = [])
    (hhalted : s.task.halted = false) (hbetween : s.task.between = false) (reply : LiveReply P)
    (message : LiveReceipt → String) : LiveCore o (s.contributed reply message) := by
  rcases contributed_cases s reply message with heq | heq | ⟨text, heq⟩
  · rw [heq]
    exact h
  · rw [heq]
    exact core_task h hact.symm (by simp) (by simp [hbetween]) (by simp [hhalted])
  · rw [heq]
    exact core_throws h hact hhalted text

theorem awake_contributed (h : s.Awake o) (reply : LiveReply P) (message : LiveReceipt → String) :
    (s.contributed reply message).Awake o := by
  rcases contributed_cases s reply message with heq | heq | ⟨text, heq⟩
  · rw [heq]
    exact h
  · rw [heq]
    exact awake_of_running rfl
  · rw [heq]
    exact awake_of_running rfl

theorem core_settle (h : LiveCore o s) {action : PendingAct} (htask : s.task = .acting action)
    (resolved : Bool) {task : LiveTask} (hact : task.act = [])
    (hreceiving : ∀ key e, task ≠ .receiving key e) :
    LiveCore o { s with settled := s.settled ++ [(action.id, resolved)], task := task } := by
  have hacts := h.acts
  have hturn := h.turn
  have howner := h.owner
  have hhalted := h.halted
  rw [htask] at hacts hturn howner hhalted
  exact { h with
    receiving := fun key e heq => absurd heq (hreceiving key e)
    acts := by
      refine List.Perm.trans ?_ hacts
      show (List.map _ (_ ++ _) ++ List.map _ (_ ++ task.act)).Perm _
      rw [hact]
      simp only [LiveTask.act, List.map_append, List.map_cons, List.map_nil, List.append_assoc]
      refine List.Perm.append_left _ ?_
      simpa using (List.perm_append_singleton action.id (s.action.toList.map PendingAct.id)).symm
    turn := by
      intro act hmem
      rw [hact, List.append_nil] at hmem
      exact hturn act (List.mem_append_left _ hmem)
    owner := by
      intro round hround
      rcases howner round hround with hsame | ⟨hbefore, hbetween | hlive⟩
      · exact .inl hsame
      · cases hbetween
      · exact .inr ⟨hbefore, .inr hlive⟩
    halted := fun hsome => by cases hhalted hsome }

theorem core_acted (h : LiveCore o s) {action : PendingAct} (htask : s.task = .acting action)
    (reply : LiveReply P) (failure : Bool) : LiveCore o (s.acted action reply failure) := by
  unfold acted
  split
  · exact core_settle h htask false (by split <;> rfl) (by intro key e; split <;> simp)
  · exact core_settle h htask true rfl (by simp)
  · exact core_settle h htask false (by split <;> rfl) (by intro key e; split <;> simp)
  · exact h

theorem awake_acted (h : s.Awake o) (action : PendingAct) (reply : LiveReply P) (failure : Bool) :
    (s.acted action reply failure).Awake o := by
  unfold acted
  split
  · exact awake_of_running (by simp only; split <;> rfl)
  · exact awake_of_running rfl
  · exact awake_of_running (by simp only; split <;> rfl)
  · exact h

theorem core_answer (h : LiveCore o s) (reply : LiveReply P) (failure : Bool) :
    LiveCore o (s.answer ed reply failure) := by
  have hto : ∀ task : LiveTask, s.task.act = [] → s.task.halted = false → s.task.between = false →
      task.act = [] → (∀ key e, task ≠ .receiving key e) → LiveCore o { s with task := task } := by
    intro task hact hhalted hbetween hact' hreceiving
    exact core_task h (hact'.trans hact.symm) (fun key e heq => absurd heq (hreceiving key e))
      (by simp [hbetween]) (by simp [hhalted])
  unfold answer
  cases htask : s.task with
  | idle | looping | finishing | failing => exact h
  | receiving key e =>
      have hact : s.task.act = [] := htask ▸ rfl
      have hhalted : s.task.halted = false := htask ▸ rfl
      have hbetween : s.task.between = true → s.live = false := by simp [htask, LiveTask.between]
      have hget := h.receiving key e htask
      simp only
      split
      · exact core_throws h hact hhalted _
      · exact core_remove h hget hact hhalted hbetween (.inr (.inl rfl))
      · exact core_remove h hget hact hhalted hbetween (.inr (.inr rfl))
      · exact core_throws h hact hhalted _
      · exact h
  | waiting =>
      simp only
      split
      · exact core_throws h (htask ▸ rfl) (htask ▸ rfl) _
      · exact hto .loading (htask ▸ rfl) (htask ▸ rfl) (htask ▸ rfl) rfl (by simp)
      · exact h
  | loading =>
      simp only
      split
      · exact core_throws h (htask ▸ rfl) (htask ▸ rfl) _
      · exact core_throws h (htask ▸ rfl) (htask ▸ rfl) _
      · exact { core_throws h (htask ▸ rfl) (htask ▸ rfl) _ with }
      · exact { hto .openingFirst (htask ▸ rfl) (htask ▸ rfl) (htask ▸ rfl) rfl (by simp) with }
      · exact h
  | openingFirst =>
      simp only
      split
      · exact core_throws h (htask ▸ rfl) (htask ▸ rfl) _
      · exact core_opened h _ (htask ▸ rfl) (htask ▸ rfl)
      · exact h
  | openingNext =>
      simp only
      split
      · exact core_throws h (htask ▸ rfl) (htask ▸ rfl) _
      · exact core_opened h _ (htask ▸ rfl) (htask ▸ rfl)
      · exact h
  | proving =>
      simp only
      split
      · exact core_throws h (htask ▸ rfl) (htask ▸ rfl) _
      · refine hto _ (htask ▸ rfl) (htask ▸ rfl) (htask ▸ rfl) ?_ ?_
        · split <;> rfl
        · intro key e
          split <;> simp
      · exact h
  | keyShare | shuffling | dealing | auditing =>
      exact core_contributed h (htask ▸ rfl) (htask ▸ rfl) (htask ▸ rfl) reply _
  | acting action => exact core_acted h htask reply failure

theorem awake_answer (h : s.Awake o) (reply : LiveReply P) (failure : Bool) :
    (s.answer ed reply failure).Awake o := by
  unfold answer
  cases htask : s.task with
  | idle | looping | finishing | failing => exact h
  | receiving | waiting | loading =>
      simp only
      split
      all_goals first
        | exact awake_of_running rfl
        | exact h
  | openingFirst | openingNext =>
      simp only
      split
      · exact awake_of_running rfl
      · unfold opened
        simp only
        split
        · exact awake_of_running rfl
        · exact awake_of_running rfl
      · exact h
  | proving =>
      simp only
      split
      · exact awake_of_running rfl
      · cases hclosed : s.closed with
        | true => exact awake_of_not_live (by simp [live, hclosed])
        | false => exact awake_of_running rfl
      · exact h
  | keyShare | shuffling | dealing | auditing => exact awake_contributed h reply _
  | acting action => exact awake_acted h action reply failure

/-! ## The end of the loop -/

theorem core_rejectAction (h : LiveCore o s) : LiveCore o s.rejectAction :=
  { h with
    acts := by
      refine List.Perm.trans (.of_eq ?_) h.acts
      simp [rejectAction, Function.comp_def]
    turn := fun act hact => h.turn act (List.mem_append_right _ hact) }

theorem core_caught (h : LiveCore o s) : LiveCore o s.caught := by
  unfold caught
  split
  · rename_i message htask
    have hreject := core_rejectAction h
    have hacts := hreject.acts
    have hturn := hreject.turn
    have hlive : ({ s.rejectAction with
        error := if s.closed then s.error else some message
        task := .finishing } : LiveRound P).live = false := by
      cases hclosed : s.closed <;> simp [live, rejectAction, hclosed]
    have hact : s.rejectAction.task.act = [] := congrArg LiveTask.act htask
    rw [hact] at hacts hturn
    exact { hreject with
      receiving := fun _ _ heq => by cases heq
      acts := hacts
      turn := hturn
      owner := by
        intro round hround
        rcases h.owner round hround with hsame | ⟨hbefore, -⟩
        · exact .inl hsame
        · exact .inr ⟨hbefore, .inr hlive⟩
      halted := fun _ => rfl }
  · exact h

theorem awake_caught (h : s.Awake o) : s.caught.Awake o := by
  unfold caught
  split
  · rename_i message htask
    refine awake_of_not_live ?_
    cases hclosed : s.closed <;> simp [live, rejectAction, hclosed]
  · exact h

theorem core_ended (h : LiveCore o s) (reads : LiveReads P) : LiveCore o (s.ended reads) := by
  unfold ended
  split
  · rename_i htask
    have hidle : LiveCore o { s with task := .idle } :=
      core_task h (by rw [htask]; rfl) (by simp) (by simp [htask, LiveTask.between]) (fun _ => rfl)
    simp only
    split_ifs
    · exact { hidle with }
    · exact core_kick { core_update hidle reads with }
    · exact core_update hidle reads
  · exact h

theorem awake_ended (h : s.Awake o) (reads : LiveReads P) : (s.ended reads).Awake o := by
  unfold ended
  split
  · rename_i htask
    simp only
    split_ifs with hthrows hagain
    · intro _ hthrew
      cases hthrew
    · exact kick_awake _
    · intro hlive hthrew
      rcases (h hlive hthrew).2 htask with htrue | hstopped
      · exact absurd htrue hagain
      · have hfalse : s.again = false := by simpa using hagain
        exact ⟨fun _ => ⟨hfalse, hstopped⟩, fun heq => by cases heq⟩
  · exact h

theorem core_close (h : LiveCore o s) : LiveCore o s.close :=
  { h with
    owner := by
      intro round hround
      rcases h.owner round hround with hsame | ⟨hbefore, -⟩
      · exact .inl hsame
      · exact .inr ⟨hbefore, .inr rfl⟩ }

theorem core_closing (h : LiveCore o s) : LiveCore o s.closing := by
  unfold closing
  split
  · exact core_rejectAction h
  · exact h

theorem awake_closing (h : s.Awake o) : s.closing.Awake o := by
  unfold closing
  split
  · rename_i hclosed
    refine awake_of_not_live ?_
    simp [live, rejectAction, (Bool.and_eq_true_iff.1 hclosed).1]
  · exact h

/-! ## Steps and runs -/

theorem core_step (h : LiveCore o s) (event : LiveEvent P) : LiveCore o (s.step o ed event) := by
  cases event with
  | connected value reads => exact core_setConnected h value reads
  | roundReady round => exact core_setRoundReady h round
  | receive remote payload session =>
      simp only [step]
      split
      · rename_i next hnext
        exact core_receive h hnext
      · exact h
  | act intent =>
      simp only [step]
      split
      · rename_i next hnext
        exact core_act h hnext
      · exact h
  | turn reads =>
      simp only [step]
      split
      · rename_i htask
        exact core_turn h htask reads
      · exact h
  | answer reply failure => exact core_answer h reply failure
  | caught => exact core_caught h
  | ended reads => exact core_ended h reads
  | close => exact core_close h
  | closing => exact core_closing h

theorem awake_step (h : LiveCore o s) (hawake : s.Awake o) (event : LiveEvent P) :
    (s.step o ed event).Awake o := by
  cases event with
  | connected value reads => exact awake_setConnected hawake value reads
  | roundReady round => exact awake_setRoundReady hawake round
  | receive remote payload session =>
      simp only [step]
      split
      · rename_i next hnext
        exact awake_receive hawake hnext
      · exact hawake
  | act intent =>
      simp only [step]
      split
      · rename_i next hnext
        exact awake_act hnext
      · exact hawake
  | turn reads =>
      simp only [step]
      split
      · exact awake_turn h reads
      · exact hawake
  | answer reply failure => exact awake_answer hawake reply failure
  | caught => exact awake_caught hawake
  | ended reads => exact awake_ended hawake reads
  | close => exact awake_of_not_live rfl
  | closing => exact awake_closing hawake

theorem run_holds (o : LiveOptions P) (ed : Ed25519) (events : List (LiveEvent P)) :
    LiveCore o ((create : LiveRound P).run o ed events) ∧
      ((create : LiveRound P).run o ed events).Awake o := by
  induction events using List.reverseRecOn with
  | nil => exact ⟨create_core, awake_of_running rfl⟩
  | append_singleton events event ih =>
      have hlast : (create : LiveRound P).run o ed (events ++ [event]) =
          ((create : LiveRound P).run o ed events).step o ed event := by
        unfold run
        rw [List.foldl_append, List.foldl_cons, List.foldl_nil]
      rw [hlast]
      exact ⟨core_step ih.1 event, awake_step ih.1 ih.2 event⟩

/-! ## A driver that has stopped for good -/

/-- A driver that is closed or has failed: the match stands, nothing is admitted any more, and no
contribution begins. -/
structure Stands (s t : LiveRound P) : Prop where
  live : t.live = false
  matchState : t.matchState = s.matchState
  admitted : t.admitted = s.admitted
  acts : t.acts = s.acts
  task : t.task.contributing = true → t.task = s.task

theorem Stands.refl (h : s.live = false) : s.Stands s := ⟨h, rfl, rfl, rfl, fun _ => rfl⟩

theorem Stands.trans {t u : LiveRound P} (h : s.Stands t) (h' : t.Stands u) : s.Stands u where
  live := h'.live
  matchState := h'.matchState.trans h.matchState
  admitted := h'.admitted.trans h.admitted
  acts := h'.acts.trans h.acts
  task := by
    intro hcontributing
    have hsame := h'.task hcontributing
    exact hsame.trans (h.task (hsame ▸ hcontributing))

theorem Stands.kick {t : LiveRound P} (h : s.Stands t) : s.Stands t.kick := by
  have hkick : t.kick = t := by simp [LiveRound.kick, h.live]
  rw [hkick]
  exact h

/-- Another task that is no contribution. -/
theorem stands_task (h : s.live = false) (task : LiveTask) (htask : task.contributing = false) :
    s.Stands { s with task := task } where
  live := h
  matchState := rfl
  admitted := rfl
  acts := rfl
  task := fun hcontributing => by
    rw [htask] at hcontributing
    cases hcontributing

theorem stands_contributed (h : s.live = false) (reply : LiveReply P)
    (message : LiveReceipt → String) : s.Stands (s.contributed reply message) := by
  rcases contributed_cases s reply message with heq | heq | ⟨text, heq⟩
  · rw [heq]
    exact .refl h
  · rw [heq]
    exact stands_task h _ rfl
  · rw [heq]
    exact stands_task h _ rfl

theorem stands_answer (hcore : LiveCore o s) (h : s.live = false) (reply : LiveReply P)
    (failure : Bool) : s.Stands (s.answer ed reply failure) := by
  unfold answer
  cases htask : s.task with
  | idle | looping | finishing | failing => exact .refl h
  | receiving key e =>
      simp only
      split
      · exact stands_task h _ rfl
      · exact { stands_task h .looping rfl with }
      · exact { stands_task h .looping rfl with }
      · exact stands_task h _ rfl
      · exact .refl h
  | waiting =>
      simp only
      split
      · exact stands_task h _ rfl
      · exact stands_task h _ rfl
      · exact .refl h
  | loading =>
      simp only
      split
      · exact stands_task h _ rfl
      · exact stands_task h _ rfl
      · exact { stands_task h (.failing _) rfl with }
      · exact { stands_task h .openingFirst rfl with }
      · exact .refl h
  | openingFirst | openingNext =>
      simp only
      split
      · exact stands_task h _ rfl
      · unfold opened
        simp only
        split
        · exact { stands_task h .looping rfl with }
        · exact { stands_task h (.failing _) rfl with }
      · exact .refl h
  | proving =>
      have hclosed : s.closed = true := by
        cases hclosed : s.closed with
        | true => rfl
        | false =>
            have herror : s.error.isSome = true := by
              cases herror : s.error <;> simp [live, hclosed, herror] at h ⊢
            have hhalted := hcore.halted herror
            rw [htask] at hhalted
            cases hhalted
      simp only
      split
      · exact stands_task h _ rfl
      · rw [if_pos hclosed]
        exact stands_task h _ rfl
      · exact .refl h
  | keyShare | shuffling | dealing | auditing => exact stands_contributed h reply _
  | acting action =>
      simp only [acted]
      split
      · split
        · exact { stands_task h (.failing _) rfl with }
        · exact { stands_task h .looping rfl with }
      · exact { stands_task h .looping rfl with }
      · split
        · exact { stands_task h (.failing _) rfl with }
        · exact { stands_task h .looping rfl with }
      · exact .refl h

theorem stands_step (hcore : LiveCore o s) (h : s.live = false) (event : LiveEvent P) :
    s.Stands (s.step o ed event) := by
  cases event with
  | connected value reads =>
      simp only [step, setConnected]
      split
      · exact .refl h
      · split
        · exact { Stands.refl h with }
        · exact Stands.kick { Stands.refl h with }
  | roundReady round =>
      simp only [step, setRoundReady]
      split_ifs
      · exact .refl h
      · exact .refl h
      · exact Stands.kick { Stands.refl h with }
  | receive remote payload session =>
      simp only [step]
      split
      · rename_i next hnext
        obtain rfl | ⟨e, hadmits, -⟩ := receive_cases hnext
        · exact .refl h
        · have hlive := hadmits.live
          rw [h] at hlive
          cases hlive
      · exact .refl h
  | act intent =>
      simp only [step]
      split
      · rename_i next hnext
        obtain ⟨state, hlive, -⟩ := act_cases hnext
        rw [h] at hlive
        cases hlive
      · exact .refl h
  | turn reads =>
      simp only [step]
      split
      · rw [turn, if_pos h]
        exact stands_task h _ rfl
      · exact .refl h
  | answer reply failure => exact stands_answer hcore h reply failure
  | caught =>
      simp only [step, caught]
      split
      · refine { stands_task h .finishing rfl with live := ?_ }
        cases hclosed : s.closed <;> simp [live, rejectAction, hclosed]
      · exact .refl h
  | ended reads =>
      simp only [step, ended]
      split
      · split_ifs
        · exact { stands_task h .idle rfl with }
        · exact Stands.kick { stands_task h .idle rfl with }
        · exact { stands_task h .idle rfl with }
      · exact .refl h
  | close => exact { Stands.refl h with live := rfl }
  | closing =>
      simp only [step, closing]
      split
      · exact { Stands.refl h with }
      · exact .refl h

theorem stands_run (hcore : LiveCore o s) (h : s.live = false) (later : List (LiveEvent P)) :
    s.Stands (s.run o ed later) := by
  induction later generalizing s with
  | nil => exact .refl h
  | cons event later ih =>
      have hstep : s.Stands (s.step o ed event) := stands_step hcore h event
      exact hstep.trans (ih (core_step hcore event) hstep.live)

/-- Closing an idle driver leaves no promise open. -/
theorem closing_settles (h : LiveCore o s) (hclosed : s.closed = true)
    (hidle : s.task.isIdle = true) : (s.closing.settled.map Prod.fst).Perm (List.range s.acts) := by
  have hacts := (core_closing h).acts
  unfold closing at hacts ⊢
  rw [if_pos (by simp [hclosed, hidle])] at hacts ⊢
  have htask : s.rejectAction.task.act = [] := by
    show s.task.act = []
    cases htask : s.task <;> simp [htask, LiveTask.isIdle] at hidle
    rfl
  rw [htask] at hacts
  simpa [rejectAction] using hacts

end LiveRound

open LiveRound

/-- **The driver of a match.**  After any steps in any order: at most 256 envelopes and 4 MiB are
held, each under its sender and number, and an envelope that was admitted is still held or has been
handed on; the promise of every action is open or settled, and not twice; each round of the match
was ready and has a valid audit of its own owner, which gave its score; and the owner is the one of
the present round, but for the time in which the next one is opened.  A driver that is idle has
looked at everything it was told and found nothing to do, unless it is closed or has failed, or an
update has thrown outside the loop, which leaves it asleep.  Closing leaves no promise open.  And once it is closed or has failed, the match stands, nothing is admitted
any more, and no contribution begins. -/
theorem live_round_exact (o : LiveOptions P) (ed : Ed25519) (events : List (LiveEvent P)) :
    let s := (create : LiveRound P).run o ed events
    LiveCore o s ∧ s.Awake o ∧
      (s.closed = true → s.task.isIdle = true →
        s.closing.action = none ∧ (s.closing.settled.map Prod.fst).Perm (List.range s.acts)) ∧
      (s.live = false → ∀ later, s.Stands (s.run o ed later)) := by
  intro s
  obtain ⟨hcore, hawake⟩ := run_holds o ed events
  refine ⟨hcore, hawake, fun hclosed hidle => ⟨?_, closing_settles hcore hclosed hidle⟩,
    fun hlive later => stands_run hcore hlive later⟩
  unfold closing
  rw [if_pos (by simp [hclosed, hidle])]
  rfl

end

end Tablefolk
