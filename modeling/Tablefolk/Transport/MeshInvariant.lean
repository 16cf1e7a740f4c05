import Tablefolk.Transport.Mesh

/-!
# The invariant of the mesh sessions

What one event does to a session, whatever has happened before.

* `PeerSession.Gated.step`: every event keeps the log lawful and the state in step with it;
* `PeerSession.later_step`: the log only grows.
-/

namespace Tablefolk

namespace PeerSession

section

variable {options : MeshOptions} {registered : Bool} {s : PeerSession} {log : List MeshEffect}

@[simp] theorem received_snoc (effect : MeshEffect) :
    received (log ++ [effect]) = match effect with
      | .received payload => received log ++ [payload]
      | _ => received log := by
  cases effect <;> simp [received]

@[simp] theorem handled_snoc (effect : MeshEffect) :
    handled (log ++ [effect]) = match effect with
      | .handled payload => handled log ++ [payload]
      | _ => handled log := by
  cases effect <;> simp [handled]

@[simp] theorem delivered_snoc (effect : MeshEffect) :
    delivered (log ++ [effect]) = match effect with
      | .delivered payload => delivered log ++ [payload]
      | _ => delivered log := by
  cases effect <;> simp [delivered]

/-- An effect that says nothing about payloads and phases. -/
def Quiet : MeshEffect → Prop
  | .authenticated | .synchronized | .sent _ | .contextSent _ | .handlerInstalled _ => True
  | _ => False

theorem Gated.emit (h : s.Gated options) (effect : MeshEffect) (hquiet : Quiet effect)
    (hmay : Permitted s.log effect) : (s.emit effect).Gated options := by
  obtain ⟨hlogged, hexact⟩ := h
  have hlawful : Lawful Permitted (s.emit effect).log := lawful_snoc.2 ⟨hlogged.lawful, hmay⟩
  have hready : MeshEffect.ready ∈ (s.emit effect).log ↔ .ready ∈ s.log := by
    cases effect <;> simp [Quiet, PeerSession.emit] at hquiet ⊢
  have hended : MeshEffect.ended ∈ (s.emit effect).log ↔ .ended ∈ s.log := by
    cases effect <;> simp [Quiet, PeerSession.emit] at hquiet ⊢
  have hresolved : MeshEffect.resolved ∈ (s.emit effect).log ↔ .resolved ∈ s.log := by
    cases effect <;> simp [Quiet, PeerSession.emit] at hquiet ⊢
  have hrejected : MeshEffect.rejected ∈ (s.emit effect).log ↔ .rejected ∈ s.log := by
    cases effect <;> simp [Quiet, PeerSession.emit] at hquiet ⊢
  have hpayloads : received (s.emit effect).log = received s.log ∧
      handled (s.emit effect).log = handled s.log ∧
      delivered (s.emit effect).log = delivered s.log := by
    cases effect <;> simp [Quiet, PeerSession.emit] at hquiet ⊢
  obtain ⟨hreceived, hhandled, hdelivered⟩ := hpayloads
  refine ⟨{ hlogged with
    lawful := hlawful
    given := ?_
    authenticated := fun hcalled => List.mem_append_left _ (hlogged.authenticated hcalled)
    synchronized := fun hracing => List.mem_append_left _ (hlogged.synchronized hracing)
    ready_of_mem := fun hmem => hlogged.ready_of_mem (hready.1 hmem)
    mem_of_ready := fun hphase => hready.2 (hlogged.mem_of_ready hphase)
    ended := hended.trans hlogged.ended
    resolved := hresolved.trans hlogged.resolved
    rejected := hrejected.trans hlogged.rejected
    silent := fun hready hclosed => hdelivered.trans (hlogged.silent hready hclosed) },
    fun hopen => ?_⟩
  · rw [hreceived, hhandled, hdelivered]
    exact hlogged.given
  · rw [hreceived, hhandled, hdelivered]
    exact hexact hopen

theorem Logged.gated (h : s.Logged options) (hclosed : s.phase = .closed) : s.Gated options :=
  ⟨h, fun hopen => absurd hclosed hopen⟩

/-- Whatever has come, a session can be discarded. -/
theorem Logged.discard (h : s.Logged options) :
    s.discard.Gated options ∧ s.discard.phase = .closed := by
  unfold PeerSession.discard
  by_cases hclosed : s.phase = .closed
  · rw [if_pos hclosed]
    exact ⟨h.gated hclosed, hclosed⟩
  · rw [if_neg hclosed]
    have hended : MeshEffect.ended ∉ s.log := fun hmem => hclosed (h.ended.1 hmem)
    have hlawful : Lawful Permitted (s.log ++ [.ended]) := lawful_snoc.2 ⟨h.lawful, hended⟩
    unfold rejectReady PeerSession.emit
    cases hready : s.ready with
    | pending =>
        simp only [and_true]
        have hunsettled : MeshEffect.resolved ∉ s.log ∧ MeshEffect.rejected ∉ s.log := by
          rw [h.resolved, h.rejected, hready]
          simp
        refine Logged.gated { h with
          lawful := lawful_snoc.2 ⟨hlawful, by simpa [Permitted] using hunsettled⟩
          given := by
            simp only [handled_snoc, delivered_snoc, received_snoc]
            exact h.given
          called := by simp
          authenticated := fun hcalled => by simp [h.authenticated hcalled]
          synchronized := fun hracing => by simp [h.synchronized hracing]
          ready_of_mem := by simp
          mem_of_ready := by simp
          ended := by simp
          resolved := by simp [hunsettled]
          rejected := by simp
          ready_of_resolved := by simp
          closed_iff := by simp
          closed_of_rejected := by simp
          announcing := by simp
          drained := by simp
          silent := by simp } rfl
    | resolved =>
        simp only [and_true]
        have hmem := h.resolved.2 hready
        have hnot : MeshEffect.rejected ∉ s.log := by
          rw [h.rejected, hready]
          simp
        refine Logged.gated { h with
          lawful := hlawful
          given := by simpa using h.given
          called := by simp
          authenticated := fun hcalled => by simp [h.authenticated hcalled]
          synchronized := fun hracing => by simp [h.synchronized hracing]
          ready_of_mem := by simp
          mem_of_ready := by simp
          ended := by simp
          resolved := by simp [hmem]
          rejected := by simp [hnot]
          ready_of_resolved := by simp
          closed_iff := by simp
          closed_of_rejected := by simp
          announcing := by simp
          drained := by simp
          silent := by simp } rfl
    | rejected => exact absurd (h.closed_of_rejected hready) hclosed

/-- A session that the mesh has in its map ends; another one has ended before. -/
theorem Logged.failSession (h : s.Logged options)
    (hregistered : s.phase ≠ .closed → registered = true) :
    (s.failSession registered).Gated options := by
  unfold PeerSession.failSession
  by_cases hcurrent : s.isCurrent registered
  · rw [if_pos hcurrent]
    exact h.discard.1
  · rw [if_neg hcurrent]
    refine h.gated ?_
    by_contra hopen
    exact hcurrent ⟨hregistered hopen, hopen⟩

theorem Gated.finishTurn (h : s.Gated options)
    (hregistered : s.phase ≠ .closed → registered = true)
    (hsynchronized : MeshEffect.synchronized ∈ s.log)
    (hcalled : s.synchronizer ≠ .idle) : (s.finishTurn registered).Gated options := by
  unfold PeerSession.finishTurn
  by_cases hsynchronizing : s.isSynchronizing registered
  · rw [if_pos hsynchronizing]
    exact { h with
      called := by simp
      authenticated := fun _ => h.authenticated hcalled
      synchronized := fun _ => hsynchronized
      announcing := by simp }
  · rw [if_neg hsynchronizing]
    refine Logged.failSession { h with
      called := by simp
      authenticated := fun _ => h.authenticated hcalled
      synchronized := by simp
      announcing := by simp } hregistered

/-- While a session synchronizes its promise is open, and nothing has been delivered. -/
theorem Logged.of_synchronizing (h : s.Logged options) (hphase : s.phase = .synchronizing) :
    s.ready = .pending ∧ delivered s.log = [] ∧ MeshEffect.authenticated ∈ s.log ∧
      MeshEffect.ready ∉ s.log ∧ MeshEffect.ended ∉ s.log := by
  refine ⟨?_, h.silent (by simp [hphase]) (by simp [hphase]),
    h.authenticated (h.called (.inl hphase)), fun hmem => ?_, fun hmem => ?_⟩
  · cases hready : s.ready with
    | pending => rfl
    | resolved =>
        rcases h.ready_of_resolved hready with hother | hother <;> simp [hphase] at hother
    | rejected =>
        have hother := h.closed_of_rejected hready
        simp [hphase] at hother
  · rcases h.ready_of_mem hmem with hother | hother <;> simp [hphase] at hother
  · have hother := h.ended.1 hmem
    simp [hphase] at hother

theorem Gated.finishSynchronization (h : s.Gated options)
    (hregistered : s.phase ≠ .closed → registered = true) {queue : ℕ}
    (hracing : s.synchronizer = .racing queue)
    (hsettled : s.queueSettled queue ∨ s.ready ≠ .pending) :
    (s.finishSynchronization registered queue).Gated options := by
  have hsynchronized := h.synchronized ⟨queue, hracing⟩
  have hcalled : s.synchronizer ≠ .idle := by simp [hracing]
  unfold PeerSession.finishSynchronization
  by_cases hsynchronizing : s.isSynchronizing registered
  · rw [if_neg (not_not.2 hsynchronizing)]
    by_cases hqueue : queue = s.enqueued
    · rw [if_neg (not_not.2 hqueue)]
      have hphase := hsynchronizing.2
      obtain ⟨hpending, hsilent, hauthenticated, hnotready, hnotended⟩ :=
        h.toLogged.of_synchronizing hphase
      -- the promise of the session is still open, so it was the queue that settled
      have hempty : s.receiveQueue = [] := by
        have hle := hsettled.resolve_right (not_not.2 hpending)
        unfold queueSettled at hle
        exact List.length_eq_zero_iff.1 (by omega)
      have hexact := h.exact (by simp [hphase])
      rw [unhandled, h.idle hempty, hempty, hsilent] at hexact
      simp only [List.append_nil, List.map_nil] at hexact
      have hmay : Permitted s.log .ready :=
        ⟨⟨hauthenticated, hsynchronized⟩, ⟨hnotready, hnotended⟩, hexact.symm, hsilent⟩
      exact { h with
        lawful := lawful_snoc.2 ⟨h.lawful, hmay⟩
        given := by simpa [PeerSession.emit] using h.given
        called := by simp
        authenticated := fun _ => by simp [PeerSession.emit, hauthenticated]
        synchronized := by simp
        ready_of_mem := by simp
        mem_of_ready := by simp [PeerSession.emit]
        ended := by simp [PeerSession.emit, hnotended]
        resolved := by simpa [PeerSession.emit] using h.resolved
        rejected := by simpa [PeerSession.emit] using h.rejected
        ready_of_resolved := by simp
        closed_iff := by simp
        closed_of_rejected := by simp [PeerSession.emit, hpending]
        announcing := by simp
        drained := fun _ => hempty
        silent := by simp
        exact := fun _ => by
          simp [PeerSession.emit, unhandled, h.idle hempty, hempty, hexact, hsilent] }
    · rw [if_pos hqueue]
      exact h.finishTurn hregistered hsynchronized hcalled
  · rw [if_pos hsynchronizing]
    exact Logged.failSession { h with
      called := by simp
      authenticated := fun _ => h.authenticated hcalled
      synchronized := by simp
      announcing := by simp } hregistered

theorem bytesOf_append (queue : List QueuedPayload) (queued : QueuedPayload) :
    bytesOf (queue ++ [queued]) = bytesOf queue + queued.payload.length := by
  simp [bytesOf]

theorem unhandled_append (hidle : s.receiveQueue = [] → s.head = .waiting)
    (queued : QueuedPayload) :
    { s with receiveQueue := s.receiveQueue ++ [queued] }.unhandled = s.unhandled ++ [queued] := by
  unfold unhandled
  have htail (hhead : s.head ≠ .waiting) :
      (s.receiveQueue ++ [queued]).tail = s.receiveQueue.tail ++ [queued] :=
    List.tail_append_of_ne_nil fun hempty => hhead (hidle hempty)
  cases hhead : s.head with
  | waiting => rfl
  | handling => exact htail (by simp [hhead])
  | settled => exact htail (by simp [hhead])

/-- A payload that comes, before it is given on. -/
theorem Gated.arrived (h : s.Gated options) (payload : List UInt8) :
    (s.emit (.received payload)).Logged options := by
  have hpre := h.given.trans (List.prefix_append (received s.log) [payload])
  exact { h with
    lawful := lawful_snoc.2 ⟨h.lawful, trivial⟩
    given := by simpa [PeerSession.emit] using hpre
    authenticated := fun hcalled => List.mem_append_left _ (h.authenticated hcalled)
    synchronized := fun hracing => List.mem_append_left _ (h.synchronized hracing)
    ready_of_mem := fun hmem => h.ready_of_mem (by simpa [PeerSession.emit] using hmem)
    mem_of_ready := fun hphase => List.mem_append_left _ (h.mem_of_ready hphase)
    ended := by simpa [PeerSession.emit] using h.ended
    resolved := by simpa [PeerSession.emit] using h.resolved
    rejected := by simpa [PeerSession.emit] using h.rejected
    silent := fun hready hclosed => by
      simpa [PeerSession.emit] using h.silent hready hclosed }

theorem Gated.delivered (h : s.Gated options) (hphase : s.phase = .ready) (payload : List UInt8) :
    ((s.emit (.received payload)).emit (.delivered payload)).Gated options := by
  have harrived := h.arrived payload
  have hempty := h.drained hphase
  have hexact := h.exact (by simp [hphase])
  rw [unhandled, h.idle hempty, hempty, List.map_nil, List.append_nil] at hexact
  have hnotended : MeshEffect.ended ∉ s.log := fun hmem => by
    have hother := h.ended.1 hmem
    simp [hphase] at hother
  have hmay : Permitted (s.log ++ [.received payload]) (.delivered payload) := by
    simp [Permitted, h.mem_of_ready hphase, hnotended, hexact]
  have hreceived : received ((s.emit (.received payload)).emit (.delivered payload)).log =
      received s.log ++ [payload] := by
    unfold PeerSession.emit
    rw [received_snoc, received_snoc]
  have hgiven : handled ((s.emit (.received payload)).emit (.delivered payload)).log ++
      PeerSession.delivered ((s.emit (.received payload)).emit (.delivered payload)).log =
        received s.log ++ [payload] := by
    unfold PeerSession.emit
    rw [handled_snoc, handled_snoc, delivered_snoc, delivered_snoc, hexact, List.append_assoc]
  refine ⟨{ harrived with
    lawful := lawful_snoc.2 ⟨harrived.lawful, hmay⟩
    given := ?_
    authenticated := fun hcalled => List.mem_append_left _ (harrived.authenticated hcalled)
    synchronized := fun hracing => List.mem_append_left _ (harrived.synchronized hracing)
    ready_of_mem := fun _ => .inl hphase
    mem_of_ready := fun _ => List.mem_append_left _ (harrived.mem_of_ready hphase)
    ended := ?_
    resolved := ?_
    rejected := ?_
    silent := fun hready => absurd hphase hready }, fun _ => ?_⟩
  · rw [hgiven, hreceived]
  · simpa [PeerSession.emit] using h.ended
  · simpa [PeerSession.emit] using h.resolved
  · simpa [PeerSession.emit] using h.rejected
  · rw [hgiven, hreceived]
    simp [PeerSession.emit, unhandled, h.idle hempty, hempty]

theorem Gated.receive (h : s.Gated options)
    (hregistered : s.phase ≠ .closed → registered = true) (payload : List UInt8) (threw : Bool) :
    ((s.emit (.received payload)).receive options registered payload threw).Gated options := by
  have harrived := h.arrived payload
  unfold PeerSession.receive
  by_cases hcurrent : (s.emit (.received payload)).isCurrent registered
  · rw [if_neg (not_not.2 hcurrent)]
    by_cases hphase : (s.emit (.received payload)).phase = .ready
    · rw [if_pos hphase]
      have hdelivered := h.delivered hphase payload
      cases threw with
      | false => exact hdelivered
      | true => exact hdelivered.toLogged.failSession hregistered
    · rw [if_neg hphase]
      by_cases hsynchronizing : (s.emit (.received payload)).isSynchronizing registered
      · rw [if_neg (not_not.2 hsynchronizing)]
        cases hhandler : (s.emit (.received payload)).synchronizationHandler with
        | none => exact harrived.failSession hregistered
        | some handler =>
            simp only
            split
            · exact harrived.failSession hregistered
            · rename_i hroom
              rw [not_or, not_le, not_lt] at hroom
              obtain ⟨hmessages, hbytes⟩ := hroom
              obtain ⟨hcount, hsum⟩ := harrived.counts
              have hopen : s.phase ≠ .closed := hcurrent.2
              refine ⟨{ harrived with
                counts := ?_
                limits := ?_
                enqueued := ?_
                idle := by simp
                drained := fun hready => absurd hready hphase }, fun _ => ?_⟩
              · simp only [List.length_append, List.length_singleton, bytesOf_append]
                omega
              · simp only [List.length_append, List.length_singleton, bytesOf_append]
                omega
              · have hle := harrived.enqueued
                simp only [List.length_append, List.length_singleton]
                omega
              · have hexact := h.exact hopen
                have hunhandled := unhandled_append harrived.idle ⟨payload, handler⟩
                simp only [PeerSession.emit, received_snoc, handled_snoc, delivered_snoc, hexact]
                unfold unhandled at hunhandled ⊢
                simp only [PeerSession.emit] at hunhandled ⊢
                rw [hunhandled, List.map_append, ← List.append_assoc]
                rfl
      · rw [if_pos hsynchronizing]
        exact harrived.failSession hregistered
  · rw [if_pos hcurrent]
    refine harrived.gated ?_
    by_contra hopen
    exact hcurrent ⟨hregistered hopen, hopen⟩

/-- Before a session synchronizes, its promise is open and nothing has been delivered. -/
theorem Logged.of_early (h : s.Logged options)
    (hphase : s.phase = .connecting ∨ s.phase = .authenticating) :
    s.ready = .pending ∧ MeshEffect.ready ∉ s.log ∧ MeshEffect.ended ∉ s.log ∧
      PeerSession.delivered s.log = [] ∧ s.synchronizer ≠ .announcing := by
  have hready : s.phase ≠ .ready := by rcases hphase with hphase | hphase <;> simp [hphase]
  have hclosed : s.phase ≠ .closed := by rcases hphase with hphase | hphase <;> simp [hphase]
  refine ⟨?_, fun hmem => ?_, fun hmem => hclosed (h.ended.1 hmem), h.silent hready hclosed,
    fun hannouncing => (h.announcing hannouncing).elim hready hclosed⟩
  · cases hpromise : s.ready with
    | pending => rfl
    | resolved => exact absurd (h.ready_of_resolved hpromise) (by simp [hready, hclosed])
    | rejected => exact absurd (h.closed_of_rejected hpromise) hclosed
  · exact (h.ready_of_mem hmem).elim hready hclosed

/-- A session goes on to a phase before `ready`. -/
theorem Gated.advance (h : s.Gated options)
    (hphase : s.phase = .connecting ∨ s.phase = .authenticating) (next : PeerSession)
    (hsame : next = { s with
      phase := next.phase
      authenticatedChannel := next.authenticatedChannel
      timer := next.timer
      synchronizer := next.synchronizer })
    (hearly : next.phase = .authenticating ∧ next.synchronizer = s.synchronizer ∨
      next.phase = .synchronizing ∧ next.synchronizer = .running ∧ .authenticated ∈ s.log) :
    next.Gated options := by
  obtain ⟨hpending, hnotready, hnotended, hsilent, hannouncing⟩ := h.toLogged.of_early hphase
  have hopen : s.phase ≠ .closed := by rcases hphase with hphase | hphase <;> simp [hphase]
  have hready : next.phase ≠ .ready := by
    rcases hearly with ⟨hnext, -⟩ | ⟨hnext, -⟩ <;> simp [hnext]
  have hclosed : next.phase ≠ .closed := by
    rcases hearly with ⟨hnext, -⟩ | ⟨hnext, -⟩ <;> simp [hnext]
  rw [hsame]
  exact { h with
    called := by
      rcases hearly with ⟨hnext, -⟩ | ⟨hnext, hrunning, -⟩
      · simp [hnext]
      · simp [hnext, hrunning]
    authenticated := fun hcalled => by
      rcases hearly with ⟨-, hsynchronizer⟩ | ⟨-, -, hmem⟩
      · exact h.authenticated (hsynchronizer ▸ hcalled)
      · exact hmem
    synchronized := fun ⟨queue, hracing⟩ => by
      rcases hearly with ⟨-, hsynchronizer⟩ | ⟨-, hrunning, -⟩
      · exact h.synchronized ⟨queue, hsynchronizer ▸ hracing⟩
      · exact absurd (hrunning.symm.trans hracing) (by simp)
    ready_of_mem := fun hmem => absurd hmem hnotready
    mem_of_ready := fun hnext => absurd hnext hready
    ended := by simp [hnotended, hclosed]
    ready_of_resolved := by simp [hpending]
    closed_iff := fun hnext => absurd hnext hclosed
    closed_of_rejected := by simp [hpending]
    announcing := fun hannounced => by
      rcases hearly with ⟨-, hsynchronizer⟩ | ⟨-, hrunning, -⟩
      · exact absurd (hsynchronizer ▸ hannounced) hannouncing
      · exact absurd (hrunning.symm.trans hannounced) (by simp)
    drained := fun hnext => absurd hnext hready
    silent := fun _ _ => hsilent
    exact := fun _ => h.exact hopen }

theorem Gated.beginAuthentication (h : s.Gated options) (created : Bool) :
    (s.beginAuthentication registered created).Gated options := by
  unfold PeerSession.beginAuthentication
  split
  · exact h
  · rename_i hconnecting
    simp only [not_or, not_not] at hconnecting
    have hphase : s.phase = .connecting ∨ s.phase = .authenticating := .inl hconnecting.2
    split
    · exact h.advance hphase _ rfl (.inl ⟨rfl, rfl⟩)
    · have hnext := h.advance hphase { s with phase := .authenticating } rfl
        (.inl ⟨rfl, rfl⟩)
      exact hnext.toLogged.failSession fun _ => hconnecting.1.1

theorem Gated.beginSynchronization (h : s.Gated options)
    (hauthenticated : MeshEffect.authenticated ∈ s.log) :
    (s.beginSynchronization registered).Gated options := by
  unfold PeerSession.beginSynchronization
  split
  · exact h
  · rename_i hphase
    simp only [not_or, not_not] at hphase
    exact h.advance (.inr hphase.2) _ rfl (.inr ⟨rfl, rfl, hauthenticated⟩)

theorem Gated.queueTurn (h : s.Gated options)
    (hregistered : s.phase ≠ .closed → registered = true) :
    (s.queueTurn registered).Gated options := by
  unfold PeerSession.queueTurn
  split
  · rename_i queued rest hqueue hhead
    by_cases hsynchronizing : s.isSynchronizing registered
    · rw [if_pos hsynchronizing]
      have hphase := hsynchronizing.2
      obtain ⟨-, hsilent, hauthenticated, hnotready, hnotended⟩ :=
        h.toLogged.of_synchronizing hphase
      have hexact := h.exact (by simp [hphase])
      rw [unhandled, hhead, hqueue, hsilent, List.append_nil] at hexact
      simp only [List.map_cons] at hexact
      have hnext : handled s.log ++ [queued.payload] <+: received s.log := by
        rw [hexact]
        exact ⟨rest.map (·.payload), by simp⟩
      have hmay : Permitted s.log (.handled queued.payload) :=
        ⟨⟨hauthenticated, hnotready, hnotended⟩, hnext⟩
      exact { h with
        lawful := lawful_snoc.2 ⟨h.lawful, hmay⟩
        idle := by simp [PeerSession.emit, hqueue]
        given := by simpa [PeerSession.emit, hsilent] using hnext
        authenticated := fun _ => List.mem_append_left _ hauthenticated
        synchronized := fun hracing => List.mem_append_left _ (h.synchronized hracing)
        ready_of_mem := by simp [PeerSession.emit, hnotready]
        mem_of_ready := by simp [PeerSession.emit, hphase]
        ended := by simp [PeerSession.emit, hnotended, hphase]
        resolved := by simpa [PeerSession.emit] using h.resolved
        rejected := by simpa [PeerSession.emit] using h.rejected
        silent := fun _ _ => by simpa [PeerSession.emit] using hsilent
        exact := fun _ => by
          simp [PeerSession.emit, unhandled, hqueue, hsilent, hexact] }
    · rw [if_neg hsynchronizing]
      exact Logged.failSession { h with idle := by simp [hqueue] } hregistered
  · exact h

/-- The handler of the head of the queue has settled. -/
theorem Gated.settleHead (h : s.Gated options) (hhead : s.head = .handling) :
    { s with head := .settled }.Gated options := by
  have hqueue : s.receiveQueue ≠ [] := fun hempty => by
    have hidle := h.idle hempty
    simp [hhead] at hidle
  refine ⟨{ h with idle := fun hempty => absurd hempty hqueue }, fun hopen => ?_⟩
  have hexact := h.exact hopen
  rw [unhandled, hhead] at hexact
  exact hexact

theorem Gated.queueFinally (h : s.Gated options) : s.queueFinally.Gated options := by
  unfold PeerSession.queueFinally
  split
  · rename_i queued rest hqueue hhead
    obtain ⟨hcount, hsum⟩ := h.counts
    obtain ⟨hmessages, hbytes⟩ := h.limits
    have henqueued := h.enqueued
    simp only [hqueue, List.length_cons, bytesOf, List.map_cons, List.sum_cons] at hcount hsum
    simp only [hqueue, List.length_cons, bytesOf, List.map_cons, List.sum_cons] at hmessages hbytes
    simp only [hqueue, List.length_cons] at henqueued
    refine ⟨{ h with
      counts := ?_
      limits := ?_
      enqueued := ?_
      idle := by simp
      drained := fun hready => ?_ }, fun hopen => ?_⟩
    · simp only [bytesOf]
      omega
    · simp only [bytesOf]
      omega
    · simp only
      omega
    · have hempty := h.drained hready
      rw [hqueue] at hempty
      cases hempty
    · have hexact := h.exact hopen
      rw [unhandled, hhead, hqueue] at hexact
      exact hexact
  · exact h

theorem Gated.resolveReady (h : s.Gated options) (hphase : s.phase = .ready) :
    s.resolveReady.Gated options := by
  unfold PeerSession.resolveReady
  split
  · rename_i hpending
    have hunsettled : MeshEffect.resolved ∉ s.log ∧ MeshEffect.rejected ∉ s.log := by
      rw [h.resolved, h.rejected, hpending]
      simp
    have hnotended : MeshEffect.ended ∉ s.log := fun hmem => by
      have hother := h.ended.1 hmem
      simp [hphase] at hother
    have hexact := h.exact (by simp [hphase])
    exact { h with
      lawful := lawful_snoc.2 ⟨h.lawful, ⟨h.mem_of_ready hphase, hnotended⟩, hunsettled⟩
      given := by simpa [PeerSession.emit] using h.given
      authenticated := fun hcalled => List.mem_append_left _ (h.authenticated hcalled)
      synchronized := fun hracing => List.mem_append_left _ (h.synchronized hracing)
      ready_of_mem := fun _ => .inl hphase
      mem_of_ready := fun _ => List.mem_append_left _ (h.mem_of_ready hphase)
      ended := by simp [PeerSession.emit, hnotended, hphase]
      resolved := by simp [PeerSession.emit]
      rejected := by simp [PeerSession.emit, hunsettled]
      ready_of_resolved := fun _ => .inl hphase
      closed_iff := by simp
      closed_of_rejected := by simp
      silent := fun hready => absurd hphase hready
      exact := fun _ => by simpa [PeerSession.emit, unhandled] using hexact }
  · exact h

/-- **Every event keeps the gate.** -/
theorem Gated.step (h : s.Gated options) (hregistered : s.phase ≠ .closed → registered = true)
    (event : SessionEvent) : (s.step options registered event).Gated options := by
  have hsettled : { s with synchronizer := .settled }.Logged options ∨ s.synchronizer = .idle := by
    by_cases hidle : s.synchronizer = .idle
    · exact .inr hidle
    · exact .inl { h with
        called := by simp
        authenticated := fun _ => h.authenticated hidle
        synchronized := by simp
        announcing := by simp }
  unfold PeerSession.step
  cases event with
  | opened created => exact h.beginAuthentication created
  | channelClosed =>
      simp only
      split
      · exact h.toLogged.failSession hregistered
      · exact h
  | channelFailed => exact h.toLogged.failSession hregistered
  | authenticated =>
      simp only
      split
      · have hnext := h.emit .authenticated trivial trivial
        exact hnext.beginSynchronization (by simp [PeerSession.emit])
      · exact h
  | contextSend payload =>
      simp only
      split
      · rename_i hsynchronizing
        obtain ⟨-, -, hmay⟩ := h.toLogged.of_synchronizing hsynchronizing.2
        exact h.emit (.contextSent payload) trivial hmay
      · exact h
  | contextOnMessage handler =>
      simp only
      split
      · rename_i hsynchronizing
        obtain ⟨-, -, hmay⟩ := h.toLogged.of_synchronizing hsynchronizing.2
        have hnext := h.emit (.handlerInstalled handler) trivial hmay
        exact { hnext with }
      · exact h
  | synchronizerResolved =>
      simp only
      split
      · rename_i hrunning
        have hmem := h.authenticated (by simp [hrunning])
        have hnext := h.emit .synchronized trivial hmem
        exact hnext.finishTurn hregistered (by simp [PeerSession.emit])
          (by simp [PeerSession.emit, hrunning])
      · exact h
  | synchronizerRejected =>
      simp only
      split
      · rename_i hrunning
        exact (hsettled.resolve_right (by simp [hrunning])).failSession hregistered
      · exact h
  | raceSettled =>
      simp only
      split
      · rename_i queue hracing
        split
        · rename_i hrace
          exact h.finishSynchronization hregistered hracing hrace
        · exact h
      · exact h
  | announced threw =>
      simp only
      split
      · rename_i hannouncing
        have hlogged := hsettled.resolve_right (by simp [hannouncing])
        split
        · exact hlogged.failSession hregistered
        · have hnext : { s with synchronizer := .settled }.Gated options :=
            ⟨hlogged, fun hopen => h.exact hopen⟩
          split
          · rename_i hcurrent
            exact hnext.resolveReady ((h.announcing hannouncing).resolve_right hcurrent.2)
          · exact hnext
      · exact h
  | timedOut =>
      simp only
      split
      · exact h.toLogged.failSession hregistered
      · exact h
  | payload payload threw => exact h.receive hregistered payload threw
  | queueTurn => exact h.queueTurn hregistered
  | handlerSettled fulfilled =>
      simp only
      split
      · rename_i hhead
        split
        · exact h.settleHead hhead
        · exact (h.settleHead hhead).toLogged.failSession hregistered
      · exact h
  | handlerReleased =>
      simp only
      split
      · rename_i hhead
        exact (h.settleHead hhead.1).toLogged.failSession hregistered
      · exact h
  | queueFinally => exact h.queueFinally

theorem Gated.send (h : s.Gated options) (payload : List UInt8) :
    (s.send payload).Gated options := by
  unfold PeerSession.send
  split
  · rename_i hready
    refine h.emit (.sent payload) trivial ⟨h.mem_of_ready hready.1, fun hmem => ?_⟩
    have hother := h.ended.1 hmem
    simp [hready.1] at hother
  · exact h

theorem Gated.start (options : MeshOptions) (remote : IdentityPublicKey) (generation : ℕ) :
    (PeerSession.start remote generation).Gated options := by
  unfold PeerSession.start
  exact {
    lawful := .nil
    counts := by simp [bytesOf]
    limits := by simp [bytesOf]
    enqueued := by simp
    idle := by simp
    given := by simp [handled, PeerSession.delivered, received]
    called := by simp
    authenticated := by simp
    synchronized := by simp
    ready_of_mem := by simp
    mem_of_ready := by simp
    ended := by simp
    resolved := by simp
    rejected := by simp
    ready_of_resolved := by simp
    closed_iff := by simp
    closed_of_rejected := by simp
    announcing := by simp
    drained := by simp
    silent := by simp [PeerSession.delivered]
    exact := by simp [handled, PeerSession.delivered, received, unhandled] }

/-! ## What a session keeps -/

/-- A later state of the same session: its log has grown. -/
def Later (s next : PeerSession) : Prop :=
  next.remote = s.remote ∧ s.log <+: next.log

theorem Later.refl (s : PeerSession) : Later s s := ⟨rfl, List.prefix_rfl⟩

theorem Later.trans {s next last : PeerSession} (h : Later s next) (h' : Later next last) :
    Later s last :=
  ⟨h'.1.trans h.1, h.2.trans h'.2⟩

theorem later_emit (s : PeerSession) (effect : MeshEffect) : Later s (s.emit effect) :=
  ⟨rfl, List.prefix_append _ _⟩

theorem later_discard (s : PeerSession) : Later s s.discard := by
  unfold PeerSession.discard rejectReady
  split
  · exact .refl s
  · split
    · exact (later_emit s .ended).trans ⟨rfl, List.prefix_append _ _⟩
    · exact later_emit s .ended

theorem later_failSession (registered : Bool) (s : PeerSession) :
    Later s (s.failSession registered) := by
  unfold PeerSession.failSession
  split
  · exact later_discard s
  · exact .refl s

theorem later_beginAuthentication (created : Bool) :
    Later s (s.beginAuthentication registered created) := by
  unfold PeerSession.beginAuthentication
  split
  · exact .refl s
  · split
    · exact .refl s
    · exact later_failSession registered { s with phase := .authenticating }

theorem later_beginSynchronization : Later s (s.beginSynchronization registered) := by
  unfold PeerSession.beginSynchronization
  split <;> exact .refl s

theorem later_finishTurn : Later s (s.finishTurn registered) := by
  unfold PeerSession.finishTurn
  split
  · exact .refl s
  · exact later_failSession registered { s with synchronizer := .settled }

theorem later_finishSynchronization (queue : ℕ) :
    Later s (s.finishSynchronization registered queue) := by
  unfold PeerSession.finishSynchronization
  split
  · exact later_failSession registered { s with synchronizer := .settled }
  · split
    · exact later_finishTurn
    · exact later_emit s .ready

theorem later_receive (payload : List UInt8) (threw : Bool) :
    Later s (s.receive options registered payload threw) := by
  have hfail := later_failSession registered s
  unfold PeerSession.receive
  split
  · exact .refl s
  · split
    · split
      · exact (later_emit s _).trans (later_failSession registered _)
      · exact later_emit s _
    · split
      · exact hfail
      · cases s.synchronizationHandler with
        | none => exact hfail
        | some handler =>
            simp only
            split
            · exact hfail
            · exact .refl s

theorem later_queueTurn : Later s (s.queueTurn registered) := by
  unfold PeerSession.queueTurn
  split
  · split
    · exact later_emit s _
    · exact later_failSession registered { s with head := .settled }
  · exact .refl s

theorem later_queueFinally (s : PeerSession) : Later s s.queueFinally := by
  unfold PeerSession.queueFinally
  split <;> exact .refl s

theorem later_resolveReady (s : PeerSession) : Later s s.resolveReady := by
  unfold PeerSession.resolveReady
  split
  · exact later_emit s .resolved
  · exact .refl s

theorem later_send (payload : List UInt8) : Later s (s.send payload) := by
  unfold PeerSession.send
  split
  · exact later_emit s _
  · exact .refl s

theorem later_step (event : SessionEvent) : Later s (s.step options registered event) := by
  have hfail := later_failSession registered s
  have hstopped := later_failSession registered { s with synchronizer := .settled }
  have hhead := later_failSession registered { s with head := .settled }
  unfold PeerSession.step
  cases event with
  | opened created => exact later_beginAuthentication created
  | channelClosed =>
      simp only
      split
      · exact hfail
      · exact .refl s
  | channelFailed => exact hfail
  | authenticated =>
      simp only
      split
      · exact (later_emit s _).trans later_beginSynchronization
      · exact .refl s
  | contextSend payload =>
      simp only
      split
      · exact later_emit s _
      · exact .refl s
  | contextOnMessage handler =>
      simp only
      split
      · exact later_emit s _
      · exact .refl s
  | synchronizerResolved =>
      simp only
      split
      · exact (later_emit s _).trans later_finishTurn
      · exact .refl s
  | synchronizerRejected =>
      simp only
      split
      · exact hstopped
      · exact .refl s
  | raceSettled =>
      simp only
      split
      · split
        · exact later_finishSynchronization _
        · exact .refl s
      · exact .refl s
  | announced threw =>
      simp only
      split
      · split
        · exact hstopped
        · split
          · exact later_resolveReady { s with synchronizer := .settled }
          · exact .refl s
      · exact .refl s
  | timedOut =>
      simp only
      split
      · exact hfail
      · exact .refl s
  | payload payload threw => exact (later_emit s _).trans (later_receive payload threw)
  | queueTurn => exact later_queueTurn
  | handlerSettled fulfilled =>
      simp only
      split
      · split
        · exact .refl s
        · exact hhead
      · exact .refl s
  | handlerReleased =>
      simp only
      split
      · exact hhead
      · exact .refl s
  | queueFinally => exact later_queueFinally s

/-! ## A turn of the queue -/

theorem failSession_queue (registered : Bool) (s : PeerSession) :
    (s.failSession registered).receiveQueue = s.receiveQueue ∧
      (s.failSession registered).head = s.head := by
  unfold PeerSession.failSession PeerSession.discard rejectReady
  split
  · split
    · exact ⟨rfl, rfl⟩
    · split <;> exact ⟨rfl, rfl⟩
  · exact ⟨rfl, rfl⟩

theorem queueTurn_queue (registered : Bool) (s : PeerSession) :
    (s.queueTurn registered).receiveQueue = s.receiveQueue ∧
      (s.receiveQueue ≠ [] → (s.queueTurn registered).head ≠ .waiting) := by
  unfold PeerSession.queueTurn
  split
  · split
    · exact ⟨rfl, fun _ => by simp⟩
    · obtain ⟨hqueue, hhead⟩ := failSession_queue registered { s with head := .settled }
      exact ⟨hqueue, fun _ => by simp [hhead]⟩
  · rename_i hnot
    refine ⟨rfl, fun hne hwaiting => ?_⟩
    obtain ⟨queued, rest, hqueue⟩ := List.exists_cons_of_ne_nil hne
    exact hnot queued rest hqueue hwaiting

/-- The turn of a payload ends with the payload out of the queue, whoever ends the session. -/
theorem receiveQueue_of_round (options : MeshOptions) (first second third : Bool)
    (s : PeerSession) :
    (((s.step options first .queueTurn).step options second (.handlerSettled true)).step options
      third .queueFinally).receiveQueue = s.receiveQueue.tail := by
  obtain ⟨hqueue, hhead⟩ := queueTurn_queue first s
  unfold PeerSession.step
  simp only [if_true]
  generalize s.queueTurn first = turned at hqueue hhead
  have hsettled : (if turned.head = .handling then { turned with head := .settled }
      else turned).receiveQueue = s.receiveQueue := by
    split <;> exact hqueue
  have hlast : s.receiveQueue ≠ [] → (if turned.head = .handling then
      { turned with head := .settled } else turned).head = .settled := by
    intro hne
    have hturned := hhead hne
    split
    · rfl
    · cases hcases : turned.head <;> simp_all
  generalize (if turned.head = .handling then { turned with head := .settled }
    else turned) = settled at hsettled hlast
  unfold PeerSession.queueFinally
  cases hcons : s.receiveQueue with
  | nil => simp [hsettled, hcons]
  | cons queued rest => simp [hsettled, hcons, hlast (by simp [hcons])]

end

end PeerSession

end Tablefolk
