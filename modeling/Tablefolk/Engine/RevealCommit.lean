import Tablefolk.Engine.RevealOrder

/-!
# What a call of the reveal ledger leaves behind

`#process` checks an envelope and, when it commits, changes the fields of the ledger one after
the other.  `RoundReveal.process` computes the state after a commit at once; here the assignments
are those of the source, in its order, and a call that throws leaves what it has assigned so far.

* `RoundRevealLedger.process_run`: no assignment comes before the last check, so a call that
  throws leaves the ledger as it was.
* `accepted_run`: what the ledger remembers of an envelope it never forgets.
* `commit_is_atomic`: `classify` and `commit` agree in every reachable state.
-/

namespace Tablefolk

section

variable {q : ℕ} {G : Type} [AddCommGroup G] [Module (ZMod q) G] [DecidableEq G]
  {P : Primitives q G}

variable (G) in
/-- A method of the ledger: it may throw, also after an assignment. -/
abbrev LedgerMethod (α : Type) := ExceptT RevealError (StateM (LedgerState G)) α

/-- A method is called. -/
def LedgerMethod.call {α : Type} (m : LedgerMethod G α) (s : LedgerState G) :
    Except RevealError α × LedgerState G := m.run.run s

namespace RoundRevealLedger

/-- A computation that assigns nothing. -/
def reads {α : Type} (x : Except RevealError α) : LedgerMethod G α := ExceptT.mk (pure x)

/-- `this.#shares[item.pos]!.set(seat, item.S)` for the items in turn. -/
def setShares (seat : ℕ) : List (PositionShare q G) → LedgerMethod G Unit
  | [] => pure ()
  | item :: rest => do
      modify fun s => { s with shares := fun position donor =>
        if position = item.pos ∧ donor = seat then some item.share.S else s.shares position donor }
      setShares seat rest

/-- `this.#revealed.set(position, revealed[position]!)` for the positions in turn. -/
def setRevealed (revealed : List (ℕ × String)) : List ℕ → LedgerMethod G Unit
  | [] => pure ()
  | position :: rest => do
      modify fun s => { s with revealed := Function.update s.revealed position (revealed.lookup position) }
      setRevealed revealed rest

variable (L : RoundReveal P)

/-- The assignments of the SHARES branch. -/
def commitShares (hash : Hash256) (seat : ℕ) (items : List (PositionShare q G)) :
    LedgerMethod G Unit := do
  setShares seat items
  modify fun s => { s with contributors := insert seat s.contributors }
  modify fun s => { s with accepted := Function.update s.accepted hash (some []) }
  if (← get).contributors.card = L.donorCount then
    modify fun s => { s with dealIndex := s.dealIndex + if L.batchDeal then L.schedule.length else 1 }
    modify fun s => { s with contributors := ∅ }

/-- The assignments of the ACTION branch. -/
def commitAction (hash : Hash256) (body : ActionBody q G) (revealed : List (ℕ × String)) :
    LedgerMethod G Unit := do
  setRevealed revealed body.reveal
  modify fun s => { s with accepted := Function.update s.accepted hash (some revealed) }
  modify fun s => { s with actionIndex := s.actionIndex + 1 }

/-- The SHARES branch of `#process`. -/
def processShares (received : SignedEnvelope) (seat : ℕ) (commit : Bool) :
    LedgerMethod G (RevealTransition q G) := do
  let s ← get
  match decodeSharesBody P received.body with
  | .error _ => throw (.code .malformed_body)
  | .ok body =>
      if (s.accepted (P.hashEnvelope received)).isSome then return ⟨false, seat, .shares body⟩
      match L.currentDeal s with
      | none => throw (.code .wrong_phase)
      | some step =>
          reads (throwIf (received.phase ≠ L.phase s) (.code .wrong_phase))
          reads (throwIf (L.batchDeal = false ∧ seat = step.to_) (.code .unexpected_sender))
          reads (throwIf (seat ∈ s.contributors) (.code .conflicting_contribution))
          reads (throwIf (body.to_ ≠ L.recipient step) (.code .wrong_recipient))
          reads (throwIf (¬ L.positionsMatch body.items (L.sharePositions step seat))
            (.code .wrong_positions))
          reads (L.checkShares ⟨L.gameId, L.round, received.phase⟩ seat body.items)
          if commit then commitShares L (P.hashEnvelope received) seat body.items
          return ⟨true, seat, .shares body⟩

/-- The ACTION branch of `#process`. -/
def processAction (received : SignedEnvelope) (seat : ℕ) (expectedSeat : Option ℕ) (commit : Bool) :
    LedgerMethod G (RevealTransition q G) := do
  let s ← get
  match s.accepted (P.hashEnvelope received) with
  | some revealed =>
      match decodeActionBody P received.body with
      | .error e => throw (.schema e)
      | .ok body => return ⟨false, seat, .action body revealed⟩
  | none =>
      reads (throwIf (L.currentDeal s ≠ none) (.code .deal_incomplete))
      reads (throwIf (L.maxActions ≤ s.actionIndex) (.code .action_limit))
      let (_, body) ← reads (L.decodeActionEnvelope s received expectedSeat.toList)
      reads (L.checkReveal s seat body.reveal)
      let revealed ← reads (L.openShares s ⟨L.gameId, L.round, received.phase⟩ seat [] body.shares)
      if commit then commitAction (P.hashEnvelope received) body revealed
      return ⟨true, seat, .action body revealed⟩

/-- `#process`. -/
def process (received : SignedEnvelope) (expectedSeat : Option ℕ) (commit : Bool) :
    LedgerMethod G (RevealTransition q G) := do
  reads (throwIf (MAX_ROUND_REVEAL_ENVELOPE_BYTES < received.byteLength) (.code .invalid_envelope))
  reads (throwIf (received.game ≠ L.gameId) (.code .wrong_game))
  match L.roster.seatOf received.from_ with
  | none => throw (.code .unknown_sender)
  | some seat =>
      reads (throwIf (received.round ≠ L.round) (.code .wrong_round))
      match received.type with
      | .SHARES => processShares L received seat commit
      | .ACTION => processAction L received seat expectedSeat commit
      | _ => throw (.code .wrong_type)

/-- `classify`. -/
def classify (received : SignedEnvelope) (expectedSeat : Option ℕ) :
    LedgerMethod G (RevealTransition q G) := process L received expectedSeat false

/-- `commit`. -/
def commit (received : SignedEnvelope) (expectedSeat : Option ℕ) :
    LedgerMethod G (RevealTransition q G) := process L received expectedSeat true

/-! ## A call throws before it assigns -/

variable {L}

omit [AddCommGroup G] [Module (ZMod q) G] [DecidableEq G] in
theorem call_bind_of_ok {α β : Type} {m : LedgerMethod G α} {a : α} {s s' : LedgerState G}
    (f : α → LedgerMethod G β) (h : m.call s = (.ok a, s')) : (m >>= f).call s = (f a).call s' := by
  have hbind : (m >>= f).call s = ExceptT.bindCont f (m.call s).1 (m.call s).2 := rfl
  rw [hbind, h]
  rfl

omit [AddCommGroup G] [Module (ZMod q) G] [DecidableEq G] in
theorem call_reads_bind {α β : Type} (x : Except RevealError α) (f : α → LedgerMethod G β)
    (s : LedgerState G) : (reads x >>= f).call s =
      match x with
      | .error e => (.error e, s)
      | .ok a => (f a).call s := by
  cases x <;> rfl

/-- The shares once those of a seat are recorded. -/
def sharesAfter (s : LedgerState G) (seat : ℕ) (items : List (PositionShare q G))
    (position donor : ℕ) : Option G :=
  if donor = seat then
    match items.find? fun item => item.pos = position with
    | some item => some item.share.S
    | none => s.shares position donor
  else s.shares position donor

omit [AddCommGroup G] [Module (ZMod q) G] [DecidableEq G] in
theorem call_setShares (seat : ℕ) {items : List (PositionShare q G)} (s : LedgerState G)
    (hnodup : (items.map PositionShare.pos).Nodup) :
    (setShares seat items).call s = (.ok (), { s with shares := sharesAfter s seat items }) := by
  induction items generalizing s with
  | nil =>
      have hshares : sharesAfter s seat ([] : List (PositionShare q G)) = s.shares := by
        funext position donor
        simp [sharesAfter]
      rw [hshares]
      rfl
  | cons item rest ih =>
      obtain ⟨hitem, hnodup⟩ := List.nodup_cons.1 hnodup
      show (setShares seat rest).call _ = _
      rw [ih _ hnodup]
      congr 2
      funext position donor
      by_cases hseat : donor = seat
      · by_cases hpos : item.pos = position
        · have hnone : rest.find? (fun other => other.pos = position) = none := by
            rw [List.find?_eq_none]
            intro other hother heq
            refine hitem ?_
            rw [hpos, ← of_decide_eq_true heq]
            exact List.mem_map_of_mem hother
          simp [sharesAfter, hseat, hpos, hnone]
        · have hpos' : ¬ position = item.pos := fun h => hpos h.symm
          simp [sharesAfter, hseat, hpos, hpos']
      · simp [sharesAfter, hseat]

omit [DecidableEq G] in
/-- The assignments of the SHARES branch are those of a contribution. -/
theorem call_commitShares (hash : Hash256) (seat : ℕ) {items : List (PositionShare q G)}
    (s : LedgerState G) (hnodup : (items.map PositionShare.pos).Nodup) :
    (commitShares L hash seat items).call s = (.ok (), L.contribute s hash seat items) := by
  unfold commitShares
  rw [call_bind_of_ok _ (call_setShares seat s hnodup)]
  show LedgerMethod.call (if (insert seat s.contributors).card = L.donorCount then _ else _) _ = _
  unfold RoundReveal.contribute
  by_cases hlast : (insert seat s.contributors).card = L.donorCount
  · rw [if_pos hlast]
    simp only [hlast, if_true]
    rfl
  · rw [if_neg hlast]
    simp only [hlast, if_false]
    rfl

omit [AddCommGroup G] [Module (ZMod q) G] [DecidableEq G] in
theorem call_setRevealed (revealed : List (ℕ × String)) (positions : List ℕ) (s : LedgerState G) :
    (setRevealed revealed positions).call s = (.ok (), { s with
      revealed := fun position =>
        if position ∈ positions then revealed.lookup position else s.revealed position }) := by
  induction positions generalizing s with
  | nil => simp [setRevealed, LedgerMethod.call]; rfl
  | cons position rest ih =>
      show (setRevealed revealed rest).call _ = _
      rw [ih]
      congr 2
      funext other
      by_cases hother : other = position
      · simp [hother]
      · simp [hother]

omit [AddCommGroup G] [Module (ZMod q) G] [DecidableEq G] in
theorem call_commitAction (hash : Hash256) {body : ActionBody q G} {revealed : List (ℕ × String)}
    (s : LedgerState G) (hpositions : revealed.map Prod.fst = body.reveal) :
    (commitAction hash body revealed).call s = (.ok (), s.reveal hash revealed) := by
  unfold commitAction
  rw [call_bind_of_ok _ (call_setRevealed revealed body.reveal s)]
  have hrevealed : (fun position => if position ∈ body.reveal then revealed.lookup position
      else s.revealed position) = (s.reveal hash revealed).revealed := by
    funext position
    have hmem : position ∈ body.reveal ↔ (revealed.lookup position).isSome := by
      simp [← hpositions]
    cases hlookup : revealed.lookup position with
    | none => simp [LedgerState.reveal, hmem, hlookup]
    | some card => simp [LedgerState.reveal, hmem, hlookup]
  rw [hrevealed]
  rfl

/-- A method throws what `x` throws and leaves the ledger as it was, or returns what `x` returns
and leaves the ledger of `x` if it commits. -/
def Leaves (commit : Bool) (s : LedgerState G) (m : LedgerMethod G (RevealTransition q G))
    (x : Except RevealError (RevealTransition q G × LedgerState G)) : Prop :=
  m.call s =
    match x with
    | .error error => (.error error, s)
    | .ok (transition, s') => (.ok transition, if commit then s' else s)

section

variable {commit : Bool} {s s' : LedgerState G} {transition : RevealTransition q G}

omit [AddCommGroup G] [Module (ZMod q) G] [DecidableEq G] in
theorem Leaves.reads {α : Type} {x : Except RevealError α}
    {f : α → LedgerMethod G (RevealTransition q G)}
    {g : α → Except RevealError (RevealTransition q G × LedgerState G)}
    (h : ∀ a, x = .ok a → Leaves commit s (f a) (g a)) :
    Leaves commit s (RoundRevealLedger.reads x >>= f) (x >>= g) := by
  unfold Leaves
  rw [call_reads_bind]
  cases x with
  | error error => rfl
  | ok a => exact h a rfl

omit [AddCommGroup G] [Module (ZMod q) G] [DecidableEq G] in
theorem Leaves.get {f : LedgerState G → LedgerMethod G (RevealTransition q G)}
    {x : Except RevealError (RevealTransition q G × LedgerState G)} (h : Leaves commit s (f s) x) :
    Leaves commit s (get >>= f) x := h

omit [AddCommGroup G] [Module (ZMod q) G] [DecidableEq G] in
theorem Leaves.assigns {m : LedgerMethod G Unit} (h : m.call s = (.ok (), s')) :
    Leaves commit s (if commit = true then m >>= fun _ => pure transition else pure transition)
      (.ok (transition, s')) := by
  cases commit with
  | false => rfl
  | true =>
      show (m >>= fun _ => pure transition).call s = _
      rw [call_bind_of_ok _ h]
      rfl

omit [AddCommGroup G] [Module (ZMod q) G] [DecidableEq G] in
/-- A duplicate assigns nothing. -/
theorem Leaves.same : Leaves commit s (pure transition) (.ok (transition, s)) := by
  cases commit <;> rfl

omit [AddCommGroup G] [Module (ZMod q) G] [DecidableEq G] in
theorem Leaves.throws {error : RevealError} :
    Leaves (q := q) commit s (throw error) (.error error) := rfl

end

theorem leaves_processShares (s : LedgerState G) (e : SignedEnvelope) (seat : ℕ) (commit : Bool) :
    Leaves commit s (processShares L e seat commit) (L.processShares s e seat) := by
  unfold processShares RoundReveal.processShares
  refine .get ?_
  cases hbody : decodeSharesBody P e.body with
  | error error => exact .throws
  | ok body =>
      show Leaves commit s (if (s.accepted (P.hashEnvelope e)).isSome = true then _ else _)
        (if (s.accepted (P.hashEnvelope e)).isSome = true then _ else _)
      split
      · exact .same
      · cases L.currentDeal s with
        | none => exact .throws
        | some step =>
            refine .reads fun _ _ => .reads fun _ _ => .reads fun _ _ => .reads fun _ _ =>
              .reads fun _ _ => .reads fun _ _ => .assigns ?_
            exact call_commitShares _ seat s (itemsOk_of_decodeSharesBody P hbody).distinct

theorem leaves_processAction (s : LedgerState G) (e : SignedEnvelope) (seat : ℕ)
    (expectedSeat : Option ℕ) (commit : Bool) : Leaves commit s
      (processAction L e seat expectedSeat commit) (L.processAction s e seat expectedSeat) := by
  unfold processAction RoundReveal.processAction
  refine .get ?_
  cases s.accepted (P.hashEnvelope e) with
  | some revealed =>
      cases decodeActionBody P e.body with
      | error error => exact .throws
      | ok body => exact .same
  | none =>
      refine .reads fun _ _ => .reads fun _ _ => .reads fun decoded hdecode => ?_
      refine .reads fun _ howned => .reads fun revealed hopened => .assigns ?_
      refine call_commitAction _ s ?_
      obtain ⟨-, -, -, hbody⟩ := decodeActionEnvelope_eq_ok hdecode
      obtain ⟨new, hnew, hforall, -, -⟩ := openShares_eq_ok hopened
      rw [hnew, List.nil_append, ← (actionOk_of_decodeActionBody P hbody).shares]
      exact map_eq_of_forall₂ (fun hopens => hopens.1) hforall

/-- `#process` throws before it assigns. -/
theorem leaves_process (s : LedgerState G) (e : SignedEnvelope) (expectedSeat : Option ℕ)
    (commit : Bool) :
    Leaves commit s (process L e expectedSeat commit) (L.process s e expectedSeat) := by
  unfold process RoundReveal.process
  refine .reads fun _ _ => .reads fun _ _ => ?_
  cases L.roster.seatOf e.from_ with
  | none => exact .throws
  | some seat =>
      refine .reads fun _ _ => ?_
      cases e.type with
      | SHARES => exact leaves_processShares s e seat commit
      | ACTION => exact leaves_processAction s e seat expectedSeat commit
      | _ => exact .throws

/-! ## What the ledger remembers -/

/-- A call of the ledger, with the envelope and the seat that is expected. -/
inductive Call where
  | classify (e : SignedEnvelope) (expectedSeat : Option ℕ)
  | commit (e : SignedEnvelope) (expectedSeat : Option ℕ)

variable (L) in
/-- The ledger after a call, whatever the call returns or throws. -/
def next (s : LedgerState G) : Call → LedgerState G
  | .classify e expectedSeat => ((classify L e expectedSeat).call s).2
  | .commit e expectedSeat => ((commit L e expectedSeat).call s).2

variable (L) in
/-- The ledger after a run of calls. -/
def run (s : LedgerState G) (calls : List Call) : LedgerState G := calls.foldl (next L) s

theorem call_classify (s : LedgerState G) (e : SignedEnvelope) (expectedSeat : Option ℕ) :
    (classify L e expectedSeat).call s = ((L.process s e expectedSeat).map Prod.fst, s) := by
  have h := leaves_process (L := L) s e expectedSeat false
  unfold Leaves at h
  unfold classify
  rw [h]
  cases L.process s e expectedSeat <;> rfl

theorem call_commit_error {s : LedgerState G} {e : SignedEnvelope} {expectedSeat : Option ℕ}
    {error : RevealError} (h : L.process s e expectedSeat = .error error) :
    (commit L e expectedSeat).call s = (.error error, s) := by
  have hleaves := leaves_process (L := L) s e expectedSeat true
  unfold Leaves at hleaves
  unfold commit
  rw [hleaves, h]

theorem call_commit_ok {s s' : LedgerState G} {e : SignedEnvelope} {expectedSeat : Option ℕ}
    {transition : RevealTransition q G} (h : L.process s e expectedSeat = .ok (transition, s')) :
    (commit L e expectedSeat).call s = (.ok transition, s') := by
  have hleaves := leaves_process (L := L) s e expectedSeat true
  unfold Leaves at hleaves
  unfold commit
  rw [hleaves, h]
  rfl

theorem next_classify (s : LedgerState G) (e : SignedEnvelope) (expectedSeat : Option ℕ) :
    next L s (.classify e expectedSeat) = s := congrArg Prod.snd (call_classify s e expectedSeat)

theorem next_commit_error {s : LedgerState G} {e : SignedEnvelope} {expectedSeat : Option ℕ}
    {error : RevealError} (h : L.process s e expectedSeat = .error error) :
    next L s (.commit e expectedSeat) = s := congrArg Prod.snd (call_commit_error h)

theorem next_commit_ok {s s' : LedgerState G} {e : SignedEnvelope} {expectedSeat : Option ℕ}
    {transition : RevealTransition q G} (h : L.process s e expectedSeat = .ok (transition, s')) :
    next L s (.commit e expectedSeat) = s' := congrArg Prod.snd (call_commit_ok h)

/-- A call that accepts an envelope remembers it besides what it remembered before. -/
theorem accepted_next {s : LedgerState G} (c : Call) {hash : Hash256} {cards : List (ℕ × String)}
    (h : s.accepted hash = some cards) : (next L s c).accepted hash = some cards := by
  cases c with
  | classify e expectedSeat =>
      rw [next_classify]
      exact h
  | commit e expectedSeat =>
      cases hprocess : L.process s e expectedSeat with
      | error error =>
          rw [next_commit_error hprocess]
          exact h
      | ok result =>
          obtain ⟨transition, s'⟩ := result
          rw [next_commit_ok hprocess]
          cases haccepted : transition.accepted with
          | false =>
              rw [(process_not_accepted hprocess haccepted).1]
              exact h
          | true =>
              have hstep := (process_accepted hprocess haccepted).1
              obtain ⟨revealed, hrevealed⟩ := hstep.accepted
              have hne : hash ≠ P.hashEnvelope e := by
                rintro rfl
                rw [hstep.fresh] at h
                cases h
              rw [hrevealed, Function.update_of_ne hne]
              exact h

/-- What the ledger remembers of an envelope it never forgets. -/
theorem accepted_run {s : LedgerState G} (calls : List Call) {hash : Hash256}
    {cards : List (ℕ × String)} (h : s.accepted hash = some cards) :
    (run L s calls).accepted hash = some cards := by
  induction calls generalizing s with
  | nil => exact h
  | cons c rest ih => exact ih (accepted_next c h)

/-- What the ledger answers to an envelope that it remembers with these cards. -/
def known (L : RoundReveal P) (e : SignedEnvelope) (cards : List (ℕ × String)) :
    Except RevealError (RevealTransition q G) := do
  throwIf (MAX_ROUND_REVEAL_ENVELOPE_BYTES < e.byteLength) (RevealError.code .invalid_envelope)
  throwIf (e.game ≠ L.gameId) (RevealError.code .wrong_game)
  match L.roster.seatOf e.from_ with
  | none => throw (.code .unknown_sender)
  | some seat =>
      throwIf (e.round ≠ L.round) (RevealError.code .wrong_round)
      match e.type with
      | .SHARES =>
          match decodeSharesBody P e.body with
          | .error _ => throw (.code .malformed_body)
          | .ok body => return ⟨false, seat, .shares body⟩
      | .ACTION =>
          match decodeActionBody P e.body with
          | .error error => throw (.schema error)
          | .ok body => return ⟨false, seat, .action body cards⟩
      | _ => throw (.code .wrong_type)

/-- Of an envelope that it remembers the ledger reads nothing but the cards. -/
theorem process_known {s : LedgerState G} {e : SignedEnvelope} {cards : List (ℕ × String)}
    (h : s.accepted (P.hashEnvelope e) = some cards) (expectedSeat : Option ℕ) :
    L.process s e expectedSeat = (known L e cards).map fun transition => (transition, s) := by
  have hshares : ∀ seat, L.processShares s e seat =
      (match decodeSharesBody P e.body with
        | .error _ => throw (.code .malformed_body)
        | .ok body => return ⟨false, seat, .shares body⟩ :
        Except RevealError (RevealTransition q G)).map fun transition => (transition, s) := by
    intro seat
    unfold RoundReveal.processShares
    cases decodeSharesBody P e.body with
    | error error => rfl
    | ok body =>
        show (if (s.accepted (P.hashEnvelope e)).isSome = true then _ else _) = _
        rw [h]
        rfl
  have haction : ∀ seat, L.processAction s e seat expectedSeat =
      (match decodeActionBody P e.body with
        | .error error => throw (.schema error)
        | .ok body => return ⟨false, seat, .action body cards⟩ :
        Except RevealError (RevealTransition q G)).map fun transition => (transition, s) := by
    intro seat
    unfold RoundReveal.processAction
    rw [h]
    cases decodeActionBody P e.body <;> rfl
  unfold RoundReveal.process known
  cases throwIf (MAX_ROUND_REVEAL_ENVELOPE_BYTES < e.byteLength) (RevealError.code .invalid_envelope) with
  | error error => rfl
  | ok _ =>
  cases throwIf (e.game ≠ L.gameId) (RevealError.code .wrong_game) with
  | error error => rfl
  | ok _ =>
  simp only [ok_bind]
  cases L.roster.seatOf e.from_ with
  | none => rfl
  | some seat =>
  simp only
  cases throwIf (e.round ≠ L.round) (RevealError.code .wrong_round) with
  | error error => rfl
  | ok _ =>
  simp only [ok_bind]
  cases e.type with
  | SHARES => exact hshares seat
  | ACTION => exact haction seat
  | _ => rfl

/-- An envelope that a commit accepted is remembered with the cards it revealed. -/
theorem known_of_step {s s' : LedgerState G} {e : SignedEnvelope} {transition : RevealTransition q G}
    (h : LedgerStep L s e transition s') : ∃ cards, s'.accepted (P.hashEnvelope e) = some cards ∧
      known L e cards = .ok { transition with accepted := false } := by
  have hscope : ∀ {seat : ℕ}, InScope L e seat → ∀ cards, known L e cards =
      match e.type with
      | .SHARES =>
          match decodeSharesBody P e.body with
          | .error _ => .error (.code .malformed_body)
          | .ok body => .ok ⟨false, seat, .shares body⟩
      | .ACTION =>
          match decodeActionBody P e.body with
          | .error error => .error (.schema error)
          | .ok body => .ok ⟨false, seat, .action body cards⟩
      | _ => .error (.code .wrong_type) := by
    intro seat hscope cards
    unfold known
    rw [throwIf_neg (not_lt.2 hscope.size), ok_bind, throwIf_neg (not_not.2 hscope.game), ok_bind,
      hscope.seat]
    simp only
    rw [throwIf_neg (not_not.2 hscope.round), ok_bind]
    cases e.type <;> rfl
  cases h with
  | shares accepted =>
      refine ⟨[], by simp [RoundReveal.contribute], ?_⟩
      rw [hscope accepted.scope, accepted.type]
      simp only [accepted.decoded]
  | @action seat body revealed accepted =>
      refine ⟨revealed, by simp [LedgerState.reveal], ?_⟩
      rw [hscope accepted.scope, accepted.type]
      simp only [accepted.decoded]

/-- Whatever `#process` has returned for an envelope, a commit remembers. -/
theorem known_of_process {s s' : LedgerState G} {e : SignedEnvelope} {expectedSeat : Option ℕ}
    {transition : RevealTransition q G} (h : L.process s e expectedSeat = .ok (transition, s')) :
    ∃ cards, s'.accepted (P.hashEnvelope e) = some cards ∧
      known L e cards = .ok { transition with accepted := false } := by
  cases haccepted : transition.accepted with
  | true => exact known_of_step (process_accepted h haccepted).1
  | false =>
      obtain ⟨rfl, hsome⟩ := process_not_accepted h haccepted
      obtain ⟨cards, hcards⟩ := Option.isSome_iff_exists.1 hsome
      refine ⟨cards, hcards, ?_⟩
      rw [process_known hcards] at h
      cases hknown : known L e cards with
      | error error =>
          rw [hknown] at h
          cases h
      | ok found =>
          rw [hknown] at h
          cases h
          rw [← haccepted]

end RoundRevealLedger

open RoundRevealLedger in
/-- In every state that calls of a new ledger can reach: `classify` changes nothing; `commit`
returns or throws what `classify` does; a commit that throws changes nothing; and once an envelope
is committed, committing it again is a duplicate with the same cards and changes nothing, whoever
is expected and whatever has been called in between. -/
theorem commits_are_atomic (L : RoundReveal P) (calls : List Call) (e : SignedEnvelope)
    (expectedSeat : Option ℕ) :
    ((classify L e expectedSeat).call (run L .start calls)).2 = run L .start calls ∧
    ((commit L e expectedSeat).call (run L .start calls)).1
      = ((classify L e expectedSeat).call (run L .start calls)).1 ∧
    (∀ error, ((commit L e expectedSeat).call (run L .start calls)).1 = .error error →
      ((commit L e expectedSeat).call (run L .start calls)).2 = run L .start calls) ∧
    ∀ transition s, (commit L e expectedSeat).call (run L .start calls) = (.ok transition, s) →
      (transition.accepted = false → s = run L .start calls) ∧
      ∀ later seat, (commit L e seat).call (run L s later)
        = (.ok { transition with accepted := false }, run L s later) := by
  refine ⟨?_, ?_, ?_, ?_⟩
  · rw [call_classify]
  · rw [call_classify]
    cases hprocess : L.process (run L .start calls) e expectedSeat with
    | error error => rw [call_commit_error hprocess]; rfl
    | ok result => rw [call_commit_ok hprocess]; rfl
  · intro error herror
    cases hprocess : L.process (run L .start calls) e expectedSeat with
    | error error => rw [call_commit_error hprocess]
    | ok result =>
        rw [call_commit_ok hprocess] at herror
        cases herror
  · intro transition s hcommit
    cases hprocess : L.process (run L .start calls) e expectedSeat with
    | error error =>
        rw [call_commit_error hprocess] at hcommit
        cases hcommit
    | ok result =>
        rw [call_commit_ok hprocess] at hcommit
        cases hcommit
        refine ⟨fun haccepted => (process_not_accepted hprocess haccepted).1, fun later seat => ?_⟩
        obtain ⟨cards, hcards, hknown⟩ := known_of_process hprocess
        refine call_commit_ok ?_
        rw [process_known (accepted_run later hcards), hknown]
        rfl

end

end Tablefolk
