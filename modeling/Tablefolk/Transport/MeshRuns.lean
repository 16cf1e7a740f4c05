import Tablefolk.Session.SmallGroup
import Tablefolk.Transport.MeshInvariant

/-!
# Runs of the mesh

Every event moves one session at most, and the sessions of the map are those that have not ended.
So what is lawful for a session is lawful for the mesh, and an effect of a session that has not
ended goes through the map.

* `AuthenticatedMesh.Sound`: the invariant;
* `mesh_scopes_readiness`: what it says of every run.
-/

namespace Tablefolk

namespace AuthenticatedMesh

/-! ## The sessions of the map -/

section

variable {options : MeshOptions} {m : AuthenticatedMesh}

/-- Every session is gated, and the sessions of the map are those that have not ended. -/
structure Sound (options : MeshOptions) (m : AuthenticatedMesh) : Prop where
  gated : ∀ (id : ℕ) (s : PeerSession), m.sessions[id]? = some s → s.Gated options
  current : ∀ (id : ℕ) (s : PeerSession), m.sessions[id]? = some s →
    (s.phase ≠ .closed ↔ m.current s.remote = some id)
  known : ∀ (remote : IdentityPublicKey) (id : ℕ), m.current remote = some id →
    ∃ s, m.sessions[id]? = some s ∧ s.remote = remote
  closed : m.closed = true → ∀ remote, m.current remote = none

/-- Every session is still there, at a later state. -/
def Grows (m next : AuthenticatedMesh) : Prop :=
  ∀ (id : ℕ) (s : PeerSession), m.sessions[id]? = some s → ∃ last, next.sessions[id]? = some last ∧ s.Later last

/-- A transition of a session that keeps the gate. -/
def Keeps (options : MeshOptions) (f : Bool → PeerSession → PeerSession) : Prop :=
  ∀ (registered : Bool) (s : PeerSession), s.Gated options → (s.phase ≠ .closed → registered = true) →
    (f registered s).Gated options ∧ s.Later (f registered s)

theorem Grows.refl (m : AuthenticatedMesh) : Grows m m := fun _ s hs => ⟨s, hs, .refl s⟩

theorem Grows.trans {next last : AuthenticatedMesh} (h : Grows m next) (h' : Grows next last) :
    Grows m last := by
  intro id s hs
  obtain ⟨middle, hmiddle, hlater⟩ := h id s hs
  obtain ⟨final, hfinal, hlast⟩ := h' id middle hmiddle
  exact ⟨final, hfinal, hlater.trans hlast⟩

theorem Sound.start (options : MeshOptions) : AuthenticatedMesh.start.Sound options :=
  ⟨by simp [AuthenticatedMesh.start], by simp [AuthenticatedMesh.start],
    by simp [AuthenticatedMesh.start], by simp [AuthenticatedMesh.start]⟩

/-- A session that has not ended is registered. -/
theorem Sound.registered (h : m.Sound options) {id : ℕ} {s : PeerSession}
    (hs : m.sessions[id]? = some s) (hopen : s.phase ≠ .closed) :
    m.registered id s = true ∧ m.closed = false := by
  have hcurrent := (h.current id s hs).1 hopen
  have hclosed : m.closed = false := by
    cases hclosed : m.closed with
    | false => rfl
    | true =>
        rw [h.closed hclosed] at hcurrent
        cases hcurrent
  exact ⟨by simp [AuthenticatedMesh.registered, hclosed, hcurrent], hclosed⟩

/-- A session that has ended stays so. -/
theorem closed_of_later {s next : PeerSession} (h : s.Gated options) (hnext : next.Gated options)
    (hlater : s.Later next) (hclosed : s.phase = .closed) : next.phase = .closed :=
  hnext.ended.1 (hlater.2.subset (h.ended.2 hclosed))

theorem Sound.apply (h : m.Sound options) (id : ℕ) {f : Bool → PeerSession → PeerSession}
    (hf : Keeps options f) : (m.apply id f).Sound options ∧ Grows m (m.apply id f) := by
  unfold AuthenticatedMesh.apply
  cases hs : m.sessions[id]? with
  | none => exact ⟨h, .refl m⟩
  | some s =>
      simp only
      have hgated := h.gated id s hs
      obtain ⟨hnext, hlater⟩ := hf (m.registered id s) s hgated fun hopen =>
        (h.registered hs hopen).1
      generalize f (m.registered id s) s = next at hnext hlater
      have hlt : id < m.sessions.length := (List.getElem?_eq_some_iff.1 hs).1
      have hself : (m.sessions.set id next)[id]? = some next := by simp [hlt]
      have hother (other : ℕ) (hne : other ≠ id) :
          (m.sessions.set id next)[other]? = m.sessions[other]? := by
        rw [List.getElem?_set_ne (Ne.symm hne)]
      have hclosed (hended : s.phase = .closed) : next.phase = .closed :=
        closed_of_later hgated hnext hlater hended
      have hcurrent := h.current id s hs
      refine ⟨⟨?_, ?_, ?_, ?_⟩, ?_⟩
      · intro other t ht
        by_cases hne : other = id
        · subst hne
          rw [hself] at ht
          cases ht
          exact hnext
        · rw [hother other hne] at ht
          exact h.gated other t ht
      · intro other t ht
        by_cases hne : other = id
        · subst hne
          rw [hself] at ht
          cases ht
          by_cases hended : next.phase = .closed
          · by_cases hopen : s.phase = .closed
            · simp [hended, hopen, hlater.1, ← hcurrent]
            · simp [hended, hopen, hcurrent.1 hopen, hlater.1]
          · have hopen : s.phase ≠ .closed := fun hwas => hended (hclosed hwas)
            simp [hended, hlater.1, hcurrent.1 hopen]
        · rw [hother other hne] at ht
          rw [h.current other t ht]
          split
          · rename_i hends
            by_cases hremote : t.remote = s.remote
            · rw [hremote, hends.2.2]
              simp [Ne.symm hne]
            · simp [Function.update_of_ne hremote]
          · rfl
      · intro remote other hfound
        have hbefore : m.current remote = some other := by
          simp only at hfound
          split at hfound
          · by_cases hremote : remote = s.remote
            · rw [hremote, Function.update_self] at hfound
              cases hfound
            · rwa [Function.update_of_ne hremote] at hfound
          · exact hfound
        obtain ⟨t, ht, htremote⟩ := h.known remote other hbefore
        by_cases hne : other = id
        · subst hne
          rw [hs] at ht
          cases ht
          exact ⟨next, hself, hlater.1.trans htremote⟩
        · exact ⟨t, by rw [hother other hne]; exact ht, htremote⟩
      · intro hmesh remote
        have hnone := h.closed hmesh
        simp [hnone]
      · intro other t ht
        by_cases hne : other = id
        · subst hne
          rw [hs] at ht
          cases ht
          exact ⟨next, hself, hlater⟩
        · exact ⟨t, by rw [hother other hne]; exact ht, .refl t⟩

theorem keeps_step (event : SessionEvent) :
    Keeps options fun registered s => s.step options registered event :=
  fun _ _ hs hregistered => ⟨hs.step hregistered event, PeerSession.later_step event⟩

/-- A new session comes into the map. -/
theorem Sound.bound (h : m.Sound options) {remote : IdentityPublicKey} (generation : ℕ)
    (hopen : m.closed = false) (hfree : m.current remote = none) :
    let next := { m with
      sessions := m.sessions ++ [PeerSession.start remote generation]
      current := Function.update m.current remote (some m.sessions.length) }
    next.Sound options ∧ Grows m next := by
  have hnew : (m.sessions ++ [PeerSession.start remote generation])[m.sessions.length]? =
      some (PeerSession.start remote generation) := by simp
  have hold {id : ℕ} (hid : id < m.sessions.length) :
      (m.sessions ++ [PeerSession.start remote generation])[id]? = m.sessions[id]? :=
    List.getElem?_append_left hid
  have hcases {id : ℕ} {s : PeerSession}
      (hs : (m.sessions ++ [PeerSession.start remote generation])[id]? = some s) :
      m.sessions[id]? = some s ∧ id ≠ m.sessions.length ∨
        id = m.sessions.length ∧ s = PeerSession.start remote generation := by
    rcases lt_trichotomy id m.sessions.length with hid | rfl | hid
    · exact .inl ⟨by rwa [hold hid] at hs, by omega⟩
    · rw [hnew] at hs
      exact .inr ⟨rfl, (Option.some.inj hs).symm⟩
    · rw [List.getElem?_eq_none (by simp; omega)] at hs
      cases hs
  refine ⟨⟨?_, ?_, ?_, ?_⟩, ?_⟩
  · intro id s hs
    rcases hcases hs with ⟨hbefore, -⟩ | ⟨-, rfl⟩
    · exact h.gated id s hbefore
    · exact .start options remote generation
  · intro id s hs
    rcases hcases hs with ⟨hbefore, hne⟩ | ⟨rfl, rfl⟩
    · rw [h.current id s hbefore]
      by_cases hremote : s.remote = remote
      · simp [hremote, hfree, Ne.symm hne]
      · simp [Function.update_of_ne hremote]
    · simp [PeerSession.start]
  · intro other id hfound
    by_cases hremote : other = remote
    · simp only [hremote, Function.update_self, Option.some.injEq] at hfound
      subst hfound
      exact ⟨_, hnew, hremote.symm⟩
    · simp only [Function.update_of_ne hremote] at hfound
      obtain ⟨s, hs, hsremote⟩ := h.known other id hfound
      exact ⟨s, by rwa [hold (List.getElem?_eq_some_iff.1 hs).1], hsremote⟩
  · intro hclosed
    rw [hopen] at hclosed
    cases hclosed
  · intro id s hs
    exact ⟨s, by rwa [hold (List.getElem?_eq_some_iff.1 hs).1], .refl s⟩

/-- `close` discards the sessions of the map: all that have not ended. -/
theorem Sound.close (h : m.Sound options) :
    (m.step options .close).Sound options ∧ Grows m (m.step options .close) := by
  have hall (id : ℕ) (s : PeerSession) (hs : m.sessions[id]? = some s) :
      (m.step options .close).sessions[id]? = some s.discard := by
    simp only [AuthenticatedMesh.step, List.getElem?_mapIdx, hs, Option.map_some,
      Option.some.injEq]
    split
    · rfl
    · rename_i hnot
      unfold PeerSession.discard
      rw [if_pos (by_contra fun hopen => hnot ((h.current id s hs).1 hopen))]
  have hcases (id : ℕ) (last : PeerSession)
      (hlast : (m.step options .close).sessions[id]? = some last) :
      ∃ s, m.sessions[id]? = some s ∧ last = s.discard := by
    cases hs : m.sessions[id]? with
    | none => simp [AuthenticatedMesh.step, hs] at hlast
    | some s =>
        rw [hall id s hs] at hlast
        exact ⟨s, rfl, (Option.some.inj hlast).symm⟩
  refine ⟨⟨?_, ?_, ?_, fun _ _ => rfl⟩, ?_⟩
  · intro id last hlast
    obtain ⟨s, hs, rfl⟩ := hcases id last hlast
    exact (h.gated id s hs).toLogged.discard.1
  · intro id last hlast
    obtain ⟨s, hs, rfl⟩ := hcases id last hlast
    simp [(h.gated id s hs).toLogged.discard.2, AuthenticatedMesh.step]
  · intro remote id hfound
    cases hfound
  · intro id s hs
    exact ⟨s.discard, hall id s hs, PeerSession.later_discard s⟩

/-- **Every event keeps the mesh sound.** -/
theorem Sound.step (h : m.Sound options) (event : MeshEvent) :
    (m.step options event).Sound options ∧ Grows m (m.step options event) := by
  cases event with
  | bind remote generation channel created =>
      unfold AuthenticatedMesh.step bindChannel
      simp only
      split
      · exact ⟨h, .refl m⟩
      · rename_i hbind
        simp only [not_or, not_not, Bool.not_eq_true] at hbind
        obtain ⟨hsound, hgrows⟩ := h.bound generation hbind.1 hbind.2
        cases channel with
        | open_ =>
            obtain ⟨hlast, hmore⟩ := hsound.apply m.sessions.length
              (keeps_step (.opened created))
            exact ⟨hlast, hgrows.trans hmore⟩
        | connecting => exact ⟨hsound, hgrows⟩
        | other =>
            obtain ⟨hlast, hmore⟩ := hsound.apply m.sessions.length (keeps_step .channelFailed)
            exact ⟨hlast, hgrows.trans hmore⟩
  | session id event => exact h.apply id (keeps_step event)
  | send remote payload =>
      unfold AuthenticatedMesh.step
      simp only
      cases m.current remote with
      | none => exact ⟨h, .refl m⟩
      | some id => exact h.apply id fun _ _ hs _ => ⟨hs.send payload, PeerSession.later_send payload⟩
  | disconnected remote generation =>
      unfold AuthenticatedMesh.step
      simp only
      cases m.current remote with
      | none => exact ⟨h, .refl m⟩
      | some id =>
          refine h.apply id fun _ s hs _ => ?_
          split
          · exact ⟨hs.toLogged.discard.1, PeerSession.later_discard s⟩
          · exact ⟨hs, .refl s⟩
  | close => exact h.close

theorem Sound.run (h : m.Sound options) (events : List MeshEvent) :
    (m.run options events).Sound options ∧ Grows m (m.run options events) := by
  induction events generalizing m with
  | nil => exact ⟨h, .refl m⟩
  | cons event rest ih =>
      obtain ⟨hnext, hgrows⟩ := h.step event
      obtain ⟨hlast, hmore⟩ := ih hnext
      exact ⟨hlast, hgrows.trans hmore⟩

/-! ## Effects -/

/-- An effect that only a session that has not ended may have. -/
def NeedsCurrent : MeshEffect → Prop
  | .ready | .handled _ | .delivered _ | .sent _ | .contextSent _ | .handlerInstalled _
  | .resolved => True
  | _ => False

theorem not_ended_of_permitted {before : List MeshEffect} {effect : MeshEffect}
    (hneeds : NeedsCurrent effect) (h : PeerSession.Permitted before effect) :
    .ended ∉ before := by
  cases effect with
  | ready => exact h.2.1.2
  | handled payload => exact h.1.2.2
  | delivered payload => exact h.1.2
  | sent payload => exact h.2
  | contextSent payload => exact h.2.2
  | handlerInstalled handler => exact h.2.2
  | resolved => exact h.1.2
  | _ => exact absurd hneeds id

/-- What an event adds to the log of a session: nothing that only a current session may do, unless
the mesh is open and has the session in its map. -/
theorem Sound.added (h : m.Sound options) (event : MeshEvent) {id : ℕ} {s : PeerSession}
    (hs : m.sessions[id]? = some s) :
    ∃ last added, (m.step options event).sessions[id]? = some last ∧ last.remote = s.remote ∧
      last.log = s.log ++ added ∧ ∀ effect ∈ added, NeedsCurrent effect →
        m.current s.remote = some id ∧ m.closed = false := by
  obtain ⟨hsound, hgrows⟩ := h.step event
  obtain ⟨last, hlast, hremote, added, hadded⟩ := hgrows id s hs
  refine ⟨last, added, hlast, hremote, hadded.symm, fun effect hmem hneeds => ?_⟩
  obtain ⟨before, after, rfl⟩ := List.append_of_mem hmem
  have hlawful := (hsound.gated id last hlast).lawful
  have hmay := hlawful.may_of_eq (hadded.symm.trans (List.append_assoc _ _ _).symm)
  have hnotended : MeshEffect.ended ∉ s.log := fun hended =>
    not_ended_of_permitted hneeds hmay (List.mem_append_left _ hended)
  have hopen : s.phase ≠ .closed := fun hclosed =>
    hnotended ((h.gated id s hs).ended.2 hclosed)
  exact ⟨(h.current id s hs).1 hopen, (h.registered hs hopen).2⟩

/-! ## The receive queue -/

theorem apply_self {id : ℕ} {s : PeerSession} (hs : m.sessions[id]? = some s)
    (f : Bool → PeerSession → PeerSession) :
    (m.apply id f).sessions[id]? = some (f (m.registered id s) s) := by
  unfold AuthenticatedMesh.apply
  have hlt : id < m.sessions.length := (List.getElem?_eq_some_iff.1 hs).1
  simp only [hs]
  rw [List.getElem?_set_self hlt]

theorem apply_other {id other : ℕ} (hne : other ≠ id) (f : Bool → PeerSession → PeerSession) :
    (m.apply id f).sessions[other]? = m.sessions[other]? := by
  unfold AuthenticatedMesh.apply
  cases m.sessions[id]? with
  | none => rfl
  | some s => exact List.getElem?_set_ne (Ne.symm hne)

/-- The head of the receive queue runs, its handler settles, and it leaves the queue. -/
def queueRound (id : ℕ) : List MeshEvent :=
  [.session id .queueTurn, .session id (.handlerSettled true), .session id .queueFinally]

/-- So many turns of the receive queue. -/
def drain (id rounds : ℕ) : List MeshEvent := (List.replicate rounds (queueRound id)).flatten

variable (options) in
theorem run_queueRound {id : ℕ} {s : PeerSession} (hs : m.sessions[id]? = some s) :
    ∃ last, (m.run options (queueRound id)).sessions[id]? = some last ∧
      last.receiveQueue = s.receiveQueue.tail := by
  have hfirst := apply_self hs fun registered s => s.step options registered .queueTurn
  have hsecond := apply_self hfirst fun registered s =>
    s.step options registered (.handlerSettled true)
  have hthird := apply_self hsecond fun registered s => s.step options registered .queueFinally
  refine ⟨_, hthird, ?_⟩
  exact PeerSession.receiveQueue_of_round ..

variable (options) in
theorem run_drain (rounds : ℕ) {id : ℕ} {s : PeerSession} (hs : m.sessions[id]? = some s)
    (hle : s.receiveQueue.length ≤ rounds) :
    ∃ last, (m.run options (drain id rounds)).sessions[id]? = some last ∧
      last.receiveQueue = [] := by
  induction rounds generalizing m s with
  | zero => exact ⟨s, hs, List.length_eq_zero_iff.1 (by omega)⟩
  | succ rounds ih =>
      obtain ⟨next, hnext, hqueue⟩ := run_queueRound options hs
      obtain ⟨last, hlast, hempty⟩ := ih hnext (by rw [hqueue, List.length_tail]; omega)
      refine ⟨last, ?_, hempty⟩
      unfold drain at hlast ⊢
      rw [List.replicate_succ, List.flatten_cons, AuthenticatedMesh.run, List.foldl_append]
      exact hlast

end

end AuthenticatedMesh

/-! ## Every run -/

open AuthenticatedMesh PeerSession in
/-- **Readiness is scoped to the connection.**  In every run the log of every session is lawful:
what goes to `onMessage` or out by `send` does so after the session has become ready and before it
ends, and it becomes ready after its own authentication and synchronizer, with every earlier
payload handled.  Payloads are given on in order and once; the session of the map is the one that
has not ended, and only it has effects; its queue keeps its limits, and both counts are zero when
the handlers have settled. -/
theorem mesh_scopes_readiness (options : MeshOptions) (events : List MeshEvent) :
    let m := AuthenticatedMesh.start.run options events
    (∀ id s, m.sessions[id]? = some s →
      Lawful Permitted s.log ∧ handled s.log ++ delivered s.log <+: received s.log ∧
      (m.current s.remote = some id ↔ .ended ∉ s.log) ∧
      (s.phase = .ready ↔ .ready ∈ s.log ∧ .ended ∉ s.log) ∧
      (s.phase = .ready → s.receiveQueue = []) ∧
      (s.ready = .resolved ↔ .resolved ∈ s.log) ∧ (s.ready = .rejected ↔ .rejected ∈ s.log) ∧
      s.queuedMessages ≤ options.maxQueuedSynchronizationMessages ∧
      s.queuedBytes ≤ options.maxQueuedSynchronizationBytes) ∧
    (∀ remote id, m.current remote = some id →
      ∃ s, m.sessions[id]? = some s ∧ s.remote = remote) ∧
    (∀ remote, m.readyFor remote = some .resolved →
      ∃ id s, m.current remote = some id ∧ m.sessions[id]? = some s ∧ s.phase = .ready) ∧
    (∀ event id s, m.sessions[id]? = some s →
      ∃ last added, (m.step options event).sessions[id]? = some last ∧
        last.log = s.log ++ added ∧ ∀ effect ∈ added, NeedsCurrent effect →
          m.current s.remote = some id ∧ m.closed = false) ∧
    (∀ id event other, other ≠ id →
      (m.step options (.session id event)).sessions[other]? = m.sessions[other]?) ∧
    (∀ remote payload other, m.current remote ≠ some other →
      (m.step options (.send remote payload)).sessions[other]? = m.sessions[other]?) ∧
    ∀ id s, m.sessions[id]? = some s → ∃ last,
      (m.run options (drain id s.receiveQueue.length)).sessions[id]? = some last ∧
      last.queuedMessages = 0 ∧ last.queuedBytes = 0 := by
  intro m
  have hsound : m.Sound options := ((Sound.start options).run events).1
  refine ⟨?_, hsound.known, ?_, ?_, ?_, ?_, ?_⟩
  · intro id s hs
    have h := hsound.gated id s hs
    have hended := h.ended
    obtain ⟨hmessages, hbytes⟩ := h.counts
    refine ⟨h.lawful, h.given, ?_, ?_, h.drained, h.resolved.symm, h.rejected.symm,
      hmessages.trans_le h.limits.1, hbytes.trans_le h.limits.2⟩
    · rw [← hsound.current id s hs, hended]
    · constructor
      · intro hready
        exact ⟨h.mem_of_ready hready, fun hmem => by simp [hended.1 hmem] at hready⟩
      · rintro ⟨hready, hnot⟩
        exact (h.ready_of_mem hready).resolve_right fun hclosed => hnot (hended.2 hclosed)
  · intro remote hresolved
    unfold readyFor at hresolved
    obtain ⟨id, hcurrent, hrest⟩ := Option.bind_eq_some_iff.1 hresolved
    obtain ⟨s, hs, hready⟩ := Option.bind_eq_some_iff.1 hrest
    obtain ⟨t, ht, rfl⟩ := hsound.known remote id hcurrent
    rw [hs] at ht
    cases ht
    have hopen := (hsound.current id s hs).2 hcurrent
    have hphase := (hsound.gated id s hs).ready_of_resolved (Option.some.inj hready)
    exact ⟨id, s, hcurrent, hs, hphase.resolve_right hopen⟩
  · intro event id s hs
    obtain ⟨last, added, hlast, -, hlog, hadded⟩ := hsound.added event hs
    exact ⟨last, added, hlast, hlog, hadded⟩
  · intro id event other hne
    exact apply_other hne _
  · intro remote payload other hother
    unfold AuthenticatedMesh.step
    simp only
    cases hcurrent : m.current remote with
    | none => rfl
    | some id =>
        refine apply_other (fun hsame => hother ?_) _
        rw [hcurrent, hsame]
  · intro id s hs
    obtain ⟨last, hlast, hempty⟩ := run_drain options s.receiveQueue.length hs le_rfl
    have h := ((hsound.run (drain id s.receiveQueue.length)).1).gated id last hlast
    refine ⟨last, hlast, ?_, ?_⟩
    · rw [h.counts.1, hempty]
      rfl
    · rw [h.counts.2, hempty]
      rfl

-- a payload that comes while the peer synchronizes holds readiness back until it is handled
open SmallGroup in
example : ((AuthenticatedMesh.start.run ⟨64, 8 * 1024 * 1024⟩
    [.bind (padded 32 [1]) 0 .open_ true, .session 0 .authenticated,
      .session 0 (.contextOnMessage 0), .session 0 (.payload [7] false),
      .session 0 .synchronizerResolved, .session 0 .raceSettled, .session 0 .queueTurn,
      .session 0 (.handlerSettled true), .session 0 .queueFinally, .session 0 .raceSettled,
      .session 0 (.announced false)]).sessions.map fun s => (s.phase, s.ready, s.log)) =
    [(.ready, .resolved, [.authenticated, .handlerInstalled 0, .received [7], .synchronized,
      .handled [7], .ready, .resolved])] := by
  decide +kernel

end Tablefolk
