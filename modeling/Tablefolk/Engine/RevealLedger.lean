import Tablefolk.Engine.Setup

/-!
# The round reveal ledger

The model of `engine/action-envelope.ts` and `engine/round-reveal-ledger.ts`.

A `RoundReveal` is what the constructor captures and never changes: the roster and
its keys, the card table, the masked deck and the deal schedule.  A `LedgerState`
is what `#process` changes.  `process` is `#process`: the transition it reports and
the state a commit leaves behind; `classify` looks at the transition only.
-/

namespace Tablefolk

def MAX_ACTION_ENVELOPE_BYTES : ℕ := 64 * 1024
def MAX_ROUND_REVEAL_ENVELOPE_BYTES : ℕ := MAX_ACTION_ENVELOPE_BYTES

/-- `RoundRevealErrorCode`. -/
inductive RoundRevealErrorCode where
  | invalid_envelope | wrong_game | wrong_round | wrong_type | wrong_phase
  | unknown_sender | unexpected_sender | malformed_body
  | deal_incomplete | wrong_recipient | wrong_positions | conflicting_contribution
  | unscheduled_position | wrong_owner | already_revealed | invalid_share_proof
  | action_limit | inconsistent_deck | invalid_local_key
  deriving DecidableEq, Repr

/-- What the ledger throws: a `RoundRevealError` with its code, a `RangeError`, a
`TypeError`, or an error of a schema. -/
inductive RevealError where
  | code (code : RoundRevealErrorCode)
  | range (message : String)
  | type (message : String)
  | schema (error : ProtocolSchemaError)
  | deckSpec (error : DeckSpecError)
  deriving DecidableEq, Repr

/-- `PrivateDealStep`. -/
structure PrivateDealStep where
  to_ : ℕ
  count : ℕ
  deriving DecidableEq, Repr

/-- `ScheduledDeal`. -/
structure ScheduledDeal where
  to_ : ℕ
  positions : List ℕ
  deriving DecidableEq, Repr

/-- The positions a schedule deals, step by step from position `cursor` on. -/
def scheduleFrom (cursor : ℕ) : List PrivateDealStep → List ScheduledDeal
  | [] => []
  | step :: rest =>
      ⟨step.to_, List.range' cursor step.count⟩ :: scheduleFrom (cursor + step.count) rest

/-- The owners of the positions a schedule deals. -/
def dealOwners (steps : List PrivateDealStep) : List ℕ :=
  steps.flatMap fun step => List.replicate step.count step.to_

/-- The constructor's loop over the schedule. -/
def checkSteps (seats size cursor : ℕ) : List PrivateDealStep → Except RevealError Unit
  | [] => .ok ()
  | step :: rest => do
      throwIf (seats ≤ step.to_ ∨ step.count < 1 ∨ size - cursor < step.count)
        (RevealError.range ("Each private-deal step must name a roster seat and an available "
          ++ "positive card count"))
      checkSteps seats size (cursor + step.count) rest

/-- A schedule that names seats of the table and deals no more than the deck. -/
structure StepsOk (seats size : ℕ) (steps : List PrivateDealStep) : Prop where
  seats : ∀ step ∈ steps, step.to_ < seats
  counts : ∀ step ∈ steps, 1 ≤ step.count
  size : (dealOwners steps).length ≤ size

theorem checkSteps_ok {seats size cursor : ℕ} {steps : List PrivateDealStep}
    (hcursor : cursor ≤ size) (h : checkSteps seats size cursor steps = .ok ()) :
    (∀ step ∈ steps, step.to_ < seats) ∧ (∀ step ∈ steps, 1 ≤ step.count) ∧
      cursor + (dealOwners steps).length ≤ size := by
  induction steps generalizing cursor with
  | nil => simpa [dealOwners] using hcursor
  | cons step rest ih =>
      simp only [checkSteps, check_bind_eq_ok, throwIf_eq_ok, not_or, not_le, not_lt] at h
      obtain ⟨⟨hseat, hcount, hsize⟩, hrest⟩ := h
      obtain ⟨hseats, hcounts, hlength⟩ := ih (by omega) hrest
      refine ⟨fun other hother => ?_, fun other hother => ?_, ?_⟩
      · rcases List.mem_cons.1 hother with rfl | hother
        · exact hseat
        · exact hseats other hother
      · rcases List.mem_cons.1 hother with rfl | hother
        · exact hcount
        · exact hcounts other hother
      · simp only [dealOwners, List.flatMap_cons, List.length_append, List.length_replicate]
          at hlength ⊢
        omega

section

variable {q : ℕ} {G : Type} [AddCommGroup G] [Module (ZMod q) G] [DecidableEq G]
  {P : Primitives q G}

/-! ## What the constructor captures -/

/-- `RoundRevealLedger`, the part that does not change. -/
structure RoundReveal (P : Primitives q G) where
  gameId : GameId
  round : ℕ
  roster : Roster P
  publicKeys : List G
  table : CardPointTable G
  deck : List (MaskedCard G)
  steps : List PrivateDealStep
  maxActions : ℕ
  batchDeal : Bool
  round_safe : round ≤ MAX_SAFE_INTEGER
  publicKeys_length : publicKeys.length = roster.size
  deck_length : deck.length = table.size
  steps_ok : StepsOk roster.size deck.length steps
  batch_ok : batchDeal = true → roster.size = 4 ∧ (dealOwners steps).length = deck.length

/-- `RoundRevealOptions`. -/
structure RoundRevealOptions (P : Primitives q G) where
  setup : SetupEnvelopeCoordinator P
  round : ℕ
  deckSpec : DeckSpec
  deck : List (MaskedCard G)
  schedule : List PrivateDealStep
  maxActions : ℕ
  batchDeal : Bool

/-- The public keys of a completed setup, seat by seat. -/
def publicKeysFrom (setup : SetupEnvelopeCoordinator P) (seat : ℕ) :
    ℕ → Except RevealError (List G)
  | 0 => .ok []
  | count + 1 =>
      match setup.publicKeyAt seat with
      | .ok (some key) => do
          let keys ← publicKeysFrom setup (seat + 1) count
          return key :: keys
      | _ => .error (.type "Completed setup is missing a public game key")

omit [DecidableEq G] in
theorem publicKeysFrom_length {setup : SetupEnvelopeCoordinator P} {seat count : ℕ}
    {keys : List G} (h : publicKeysFrom setup seat count = .ok keys) : keys.length = count := by
  induction count generalizing seat keys with
  | zero =>
      cases h
      rfl
  | succ count ih =>
      rw [publicKeysFrom] at h
      split at h
      · obtain ⟨rest, hrest, h⟩ := bind_eq_ok.1 h
        cases h
        simp [ih hrest]
      · cases h

/-- `new RoundRevealLedger`. -/
def RoundReveal.start (options : RoundRevealOptions P) : Except RevealError (RoundReveal P) := do
  throwIf (options.setup.state ≠ .complete) (.type "Round reveals require completed key setup")
  if hround : options.round < options.setup.round ∨ MAX_SAFE_INTEGER < options.round then
    throw (.range "Round must be a safe integer no earlier than setup")
  else
  throwIf (options.maxActions < 1) (.range "Round action budget must be a positive safe integer")
  throwIf (options.batchDeal = true ∧ options.setup.roster.size ≠ 4)
    (.type "All-recipient deal batches require four seats")
  match hkeys : publicKeysFrom options.setup 0 options.setup.roster.size with
  | .error e => throw e
  | .ok publicKeys =>
  match P.cardPointTable options.deckSpec with
  | .error e => throw (.deckSpec e)
  | .ok table =>
  if hdeck : options.deck.length = table.size then
    throwIf (options.deck.length < options.schedule.length)
      (RevealError.range "Private-deal schedule cannot exceed the deck size")
    match hsteps : checkSteps options.setup.roster.size options.deck.length 0 options.schedule with
    | .error e => throw e
    | .ok () =>
    if hbatch : options.batchDeal = true →
        options.setup.roster.size = 4 ∧ (dealOwners options.schedule).length = options.deck.length
    then
      have hok := checkSteps_ok (Nat.zero_le _) hsteps
      return ⟨options.setup.gameId, options.round, options.setup.roster, publicKeys, table,
        options.deck, options.schedule, options.maxActions, options.batchDeal,
        not_lt.1 (not_or.1 hround).2, publicKeysFrom_length hkeys, hdeck,
        ⟨hok.1, hok.2.1, by simpa using hok.2.2⟩, hbatch⟩
    else throw (.range "All-recipient deal batches must assign every deck position")
  else throw (.range "Ciphertext deck must match the deck specification size")

namespace RoundReveal

variable (L : RoundReveal P)

/-- `#schedule`. -/
def schedule : List ScheduledDeal := scheduleFrom 0 L.steps

/-- `dealCount`. -/
def dealCount : ℕ := L.schedule.length

/-- `#owners[position]`, `none` for a position that is not dealt or not there. -/
def owner (position : ℕ) : Option ℕ := (dealOwners L.steps)[position]?

/-- `ownerAt`. -/
def ownerAt (position : ℕ) : Except RevealError (Option ℕ) := do
  throwIf (L.deck.length ≤ position) (.range "Position is outside the round deck")
  return L.owner position

/-- `#deck[position]!`. -/
def cardAt (position : ℕ) : Except RevealError (MaskedCard G) :=
  match L.deck[position]? with
  | some card => .ok card
  | none => .error (.type "No card at this position")

/-- `#publicKeys[seat]!`. -/
def publicKey (seat : ℕ) : G := L.publicKeys.getD seat 0

/-- The seat a SHARES body must name: everyone in a batch, else the recipient. -/
def recipient (step : ScheduledDeal) : ℕ := if L.batchDeal then 4 else step.to_

/-- The positions a seat gives shares for. -/
def sharePositions (step : ScheduledDeal) (seat : ℕ) : List ℕ :=
  if L.batchDeal then
    (List.range L.deck.length).filter fun position => L.owner position ≠ some seat
  else step.positions

/-- A seat that has to contribute to a step. -/
def isDonor (step : ScheduledDeal) (seat : ℕ) : Prop :=
  seat < L.roster.size ∧ (L.batchDeal = true ∨ seat ≠ step.to_)

instance (step : ScheduledDeal) (seat : ℕ) : Decidable (L.isDonor step seat) :=
  inferInstanceAs (Decidable (_ ∧ (_ ∨ _)))

/-- How many contributions complete a step. -/
def donorCount : ℕ := if L.batchDeal then L.roster.size else L.roster.size - 1

end RoundReveal

/-! ## The state -/

variable (G) in
/-- `RoundRevealLedger`, the part that changes.  Maps are functions: `shares` by
position and donor, `revealed` by position, `accepted` by envelope hash. -/
@[ext] structure LedgerState where
  dealIndex : ℕ
  actionIndex : ℕ
  contributors : Finset ℕ
  shares : ℕ → ℕ → Option G
  revealed : ℕ → Option String
  accepted : Hash256 → Option (List (ℕ × String))

/-- The state of a new ledger. -/
def LedgerState.start : LedgerState G where
  dealIndex := 0
  actionIndex := 0
  contributors := ∅
  shares := fun _ _ => none
  revealed := fun _ => none
  accepted := fun _ => none

/-- `#schedule[#dealIndex]`. -/
def RoundReveal.currentDeal (L : RoundReveal P) (s : LedgerState G) : Option ScheduledDeal :=
  L.schedule[s.dealIndex]?

def playPhase (round actionIndex : ℕ) : String :=
  "round." ++ toString round ++ ".play." ++ toString actionIndex

def dealPhase (round dealIndex : ℕ) : String :=
  "round." ++ toString round ++ ".deal." ++ toString dealIndex

/-- `#phase`. -/
def RoundReveal.phase (L : RoundReveal P) (s : LedgerState G) : String :=
  if L.currentDeal s = none then playPhase L.round s.actionIndex else dealPhase L.round s.dealIndex

/-- The cards revealed so far. -/
def RoundReveal.revealedCards (L : RoundReveal P) (s : LedgerState G) : List String :=
  (List.range L.deck.length).filterMap s.revealed

/-- The revealed positions. -/
def RoundReveal.revealedPositions (L : RoundReveal P) (s : LedgerState G) : List ℕ :=
  (List.range L.deck.length).filter fun position => (s.revealed position).isSome

/-- `RoundRevealSnapshot`. -/
structure RoundRevealSnapshot where
  phase : String
  dealIndex : ℕ
  actionIndex : ℕ
  /-- the recipient, the positions and the pending senders of the current deal -/
  deal : Option (ℕ × List ℕ × List ℕ)
  revealed : ℕ → Option String

/-- `pendingSenders` of the current deal. -/
def RoundReveal.pendingSenders (L : RoundReveal P) (s : LedgerState G) (step : ScheduledDeal) :
    List ℕ :=
  (List.range L.roster.size).filter fun seat =>
    (L.batchDeal = true ∨ seat ≠ step.to_) ∧ seat ∉ s.contributors

/-- `snapshot`. -/
def RoundReveal.snapshot (L : RoundReveal P) (s : LedgerState G) : RoundRevealSnapshot where
  phase := L.phase s
  dealIndex := s.dealIndex
  actionIndex := s.actionIndex
  deal := (L.currentDeal s).map fun step =>
    (L.recipient step, if L.batchDeal then List.range L.deck.length else step.positions,
      L.pendingSenders s step)
  revealed := s.revealed

/-! ## Opening a card -/

/-- The shares of one position, seat by seat: `own` for the seat that opens it. -/
def sharesAt (s : LedgerState G) (position seat : ℕ) (own : G) (donor : ℕ) :
    ℕ → Except RevealError (List G)
  | 0 => .ok []
  | count + 1 =>
      match if donor = seat then some own else s.shares position donor with
      | some share => do
          let shares ← sharesAt s position seat own (donor + 1) count
          return share :: shares
      | none => .error (.code .deal_incomplete)

/-- Remove every seat's share from a card and identify it. -/
def RoundReveal.openCard (L : RoundReveal P) (s : LedgerState G) (position seat : ℕ) (own : G) :
    Except RevealError (Option String) := do
  let card ← L.cardAt position
  let shares ← sharesAt s position seat own 0 L.roster.size
  return L.table.identify (removeDecryptionShares card shares)

/-! ## Private hands -/

/-- `RoundPrivateHand`: positions with their cards, in position order. -/
structure RoundPrivateHand where
  dealt : List (ℕ × String)
  remaining : List (ℕ × String)
  deriving DecidableEq, Repr

/-- `#requireLocalKey`. -/
def RoundReveal.requireLocalKey (L : RoundReveal P) (seat : ℕ) (secretKey : ZMod q) :
    Except RevealError Unit := do
  throwIf (L.roster.size ≤ seat) (.range "Local seat must belong to the round roster")
  throwIf (secretKey • P.base ≠ L.publicKey seat) (.code .invalid_local_key)

/-- The loop of `readPrivateHand` over the seat's positions; `known` is
`cardPositions`, the cards seen so far with the position of each. -/
def RoundReveal.openHand (L : RoundReveal P) (s : LedgerState G) (seat : ℕ) (secretKey : ZMod q)
    (known : List (String × ℕ)) : List ℕ → Except RevealError RoundPrivateHand
  | [] => .ok ⟨[], []⟩
  | position :: rest => do
      let masked ← L.cardAt position
      let own ← (decryptionShare secretKey masked.A).mapError
        fun _ => RevealError.type "Decryption secret must be non-zero"
      match ← L.openCard s position seat own with
      | none => throw (RevealError.code .inconsistent_deck)
      | some card =>
          throwIf (∃ other ∈ known.lookup card, other ≠ position)
            (RevealError.code .inconsistent_deck)
          throwIf (∃ shown ∈ s.revealed position, shown ≠ card)
            (RevealError.code .inconsistent_deck)
          let hand ← L.openHand s seat secretKey ((card, position) :: known) rest
          return ⟨(position, card) :: hand.dealt,
            if s.revealed position = none then (position, card) :: hand.remaining
            else hand.remaining⟩

/-- The revealed cards with their positions, the last one first as a later entry of
the map replaces an earlier one. -/
def RoundReveal.cardPositions (L : RoundReveal P) (s : LedgerState G) : List (String × ℕ) :=
  ((List.range L.deck.length).filterMap fun position =>
    (s.revealed position).map fun card => (card, position)).reverse

/-- The positions a seat was dealt. -/
def RoundReveal.ownedPositions (L : RoundReveal P) (seat : ℕ) : List ℕ :=
  (List.range L.deck.length).filter fun position => L.owner position = some seat

/-- `readPrivateHand`. -/
def RoundReveal.readPrivateHand (L : RoundReveal P) (s : LedgerState G) (seat : ℕ)
    (secretKey : ZMod q) : Except RevealError (Option RoundPrivateHand) := do
  L.requireLocalKey seat secretKey
  if s.dealIndex < L.schedule.length then return none
  let hand ← L.openHand s seat secretKey (L.cardPositions s) (L.ownedPositions seat)
  return some hand

/-! ## Authoring -/

/-- The loop of `createDealShares` over the positions; the draws are those of the
random source. -/
def RoundReveal.createShares (L : RoundReveal P) (context : ProofContext) (secretKey : ZMod q) :
    List ℕ → List ℕ → Except RevealError (Option (List (PositionShare q G)))
  | [], _ => .ok (some [])
  | position :: rest, draws => do
      let masked ← L.cardAt position
      match randomNonZeroRistrettoScalar q draws with
      | none => return none
      | some (nonce, draws) =>
          let share ← (P.createProvenDecryptionShare context position secretKey masked.A
            nonce).mapError fun _ => RevealError.type "Game secret must be non-zero"
          let shares ← L.createShares context secretKey rest draws
          return shares.map fun shares => ⟨position, share⟩ :: shares

/-- `createDealShares`: `none` when the random source has not produced enough
scalars yet. -/
def RoundReveal.createDealShares (L : RoundReveal P) (s : LedgerState G) (seat : ℕ)
    (secretKey : ZMod q) (draws : List ℕ) : Except RevealError (Option (SharesBody q G)) := do
  L.requireLocalKey seat secretKey
  match L.currentDeal s with
  | none => throw (.code .wrong_phase)
  | some step =>
      throwIf (L.batchDeal = false ∧ seat = step.to_) (RevealError.code .unexpected_sender)
      throwIf (seat ∈ s.contributors) (RevealError.code .conflicting_contribution)
      let items ← L.createShares ⟨L.gameId, L.round, L.phase s⟩ secretKey
        (L.sharePositions step seat) draws
      return items.map fun items => ⟨L.recipient step, items⟩

/-- `createActionShare`. -/
def RoundReveal.createActionShare (L : RoundReveal P) (s : LedgerState G) (seat : ℕ)
    (secretKey : ZMod q) (position : ℕ) (draws : List ℕ) :
    Except RevealError (Option (PositionShare q G)) := do
  match ← L.readPrivateHand s seat secretKey with
  | none => throw (.code .deal_incomplete)
  | some hand =>
      let owner ← L.ownerAt position
      throwIf (owner = none) (RevealError.code .unscheduled_position)
      throwIf (owner ≠ some seat) (RevealError.code .wrong_owner)
      throwIf (position ∉ hand.remaining.map Prod.fst) (RevealError.code .already_revealed)
      throwIf (L.maxActions ≤ s.actionIndex) (RevealError.code .action_limit)
      let shares ← L.createShares ⟨L.gameId, L.round, L.phase s⟩ secretKey [position] draws
      return shares.bind List.head?

/-! ## Receiving -/

/-- The body of a transition: SHARES, or ACTION with what it revealed. -/
inductive RevealBody (q : ℕ) (G : Type) where
  | shares (body : SharesBody q G)
  | action (body : ActionBody q G) (revealed : List (ℕ × String))
  deriving DecidableEq

/-- `RoundRevealTransition`. -/
structure RevealTransition (q : ℕ) (G : Type) where
  accepted : Bool
  seat : ℕ
  body : RevealBody q G
  deriving DecidableEq

/-- `decodeActionEnvelope`, after the checks on a scope that is always well formed
(the roster is a `Roster`): the seat of the sender and the decoded action. -/
def RoundReveal.decodeActionEnvelope (L : RoundReveal P) (s : LedgerState G)
    (received : SignedEnvelope) (expectedSeats : List ℕ) :
    Except RevealError (ℕ × ActionBody q G) := do
  throwIf (MAX_ACTION_ENVELOPE_BYTES < received.byteLength) (RevealError.code .invalid_envelope)
  throwIf (expectedSeats = [] ∨ L.roster.size < expectedSeats.length)
    (RevealError.range "Action expected seats must be a nonempty subset of the roster")
  throwIf (∃ seat ∈ expectedSeats, L.roster.size ≤ seat)
    (RevealError.range "Action expected seats must be distinct roster indices")
  throwIf (¬ expectedSeats.Nodup)
    (RevealError.range "Action expected seats must be distinct roster indices")
  throwIf (received.game ≠ L.gameId) (RevealError.code .wrong_game)
  match L.roster.seatOf received.from_ with
  | none => throw (.code .unknown_sender)
  | some seat =>
      throwIf (received.round ≠ L.round) (RevealError.code .wrong_round)
      throwIf (received.type ≠ .ACTION) (RevealError.code .wrong_type)
      throwIf (received.phase ≠ playPhase L.round s.actionIndex) (RevealError.code .wrong_phase)
      throwIf (seat ∉ expectedSeats) (RevealError.code .unexpected_sender)
      match decodeActionBody P received.body with
      | .error _ => throw (.code .malformed_body)
      | .ok action => return (seat, action)

/-- Every share of the body verifies against the sender's key. -/
def RoundReveal.checkShares (L : RoundReveal P) (context : ProofContext) (seat : ℕ) :
    List (PositionShare q G) → Except RevealError Unit
  | [] => .ok ()
  | item :: rest => do
      let masked ← L.cardAt item.pos
      throwIf (P.verifyProvenDecryptionShare context item.pos (L.publicKey seat) masked.A item.share
        = false) (RevealError.code .invalid_share_proof)
      L.checkShares context seat rest

/-- The items name the positions the seat has to give shares for: in order in a
batch, in any order otherwise. -/
def RoundReveal.positionsMatch (L : RoundReveal P) (items : List (PositionShare q G))
    (positions : List ℕ) : Prop :=
  items.length = positions.length ∧
    if L.batchDeal then items.map PositionShare.pos = positions
    else ∀ item ∈ items, item.pos ∈ positions

instance (L : RoundReveal P) (items : List (PositionShare q G)) (positions : List ℕ) :
    Decidable (L.positionsMatch items positions) := by
  unfold RoundReveal.positionsMatch
  infer_instance

/-- A seat's shares are recorded; the last contribution completes the step. -/
def RoundReveal.contribute (L : RoundReveal P) (s : LedgerState G) (hash : Hash256) (seat : ℕ)
    (items : List (PositionShare q G)) : LedgerState G :=
  let contributors := insert seat s.contributors
  let last : Prop := contributors.card = L.donorCount
  { s with
    shares := fun position donor =>
      if donor = seat then
        match items.find? fun item => item.pos = position with
        | some item => some item.share.S
        | none => s.shares position donor
      else s.shares position donor
    contributors := if last then ∅ else contributors
    dealIndex := if last then s.dealIndex + (if L.batchDeal then L.schedule.length else 1)
      else s.dealIndex
    accepted := Function.update s.accepted hash (some []) }

/-- The SHARES branch of `#process`. -/
def RoundReveal.processShares (L : RoundReveal P) (s : LedgerState G) (received : SignedEnvelope)
    (seat : ℕ) : Except RevealError (RevealTransition q G × LedgerState G) :=
  match decodeSharesBody P received.body with
  | .error _ => .error (.code .malformed_body)
  | .ok body => do
      if (s.accepted (P.hashEnvelope received)).isSome then return (⟨false, seat, .shares body⟩, s)
      else match L.currentDeal s with
      | none => throw (.code .wrong_phase)
      | some step =>
          throwIf (received.phase ≠ L.phase s) (RevealError.code .wrong_phase)
          throwIf (L.batchDeal = false ∧ seat = step.to_) (RevealError.code .unexpected_sender)
          throwIf (seat ∈ s.contributors) (RevealError.code .conflicting_contribution)
          throwIf (body.to_ ≠ L.recipient step) (RevealError.code .wrong_recipient)
          throwIf (¬ L.positionsMatch body.items (L.sharePositions step seat))
            (RevealError.code .wrong_positions)
          L.checkShares ⟨L.gameId, L.round, received.phase⟩ seat body.items
          return (⟨true, seat, .shares body⟩,
            L.contribute s (P.hashEnvelope received) seat body.items)

/-- Every revealed position belongs to the sender and is still hidden. -/
def RoundReveal.checkReveal (L : RoundReveal P) (s : LedgerState G) (seat : ℕ) :
    List ℕ → Except RevealError Unit
  | [] => .ok ()
  | position :: rest => do
      throwIf (L.owner position = none) (RevealError.code .unscheduled_position)
      throwIf (L.owner position ≠ some seat) (RevealError.code .wrong_owner)
      throwIf ((s.revealed position).isSome) (RevealError.code .already_revealed)
      L.checkReveal s seat rest

/-- The loop over the shares of an action: verify and open each; `opened` is what
the loop opened before. -/
def RoundReveal.openShares (L : RoundReveal P) (s : LedgerState G) (context : ProofContext)
    (seat : ℕ) (opened : List (ℕ × String)) :
    List (PositionShare q G) → Except RevealError (List (ℕ × String))
  | [] => .ok opened
  | item :: rest => do
      let masked ← L.cardAt item.pos
      throwIf (P.verifyProvenDecryptionShare context item.pos (L.publicKey seat) masked.A item.share
        = false) (RevealError.code .invalid_share_proof)
      match ← L.openCard s item.pos seat item.share.S with
      | none => throw (RevealError.code .inconsistent_deck)
      | some card =>
          throwIf (card ∈ L.revealedCards s ++ opened.map Prod.snd)
            (RevealError.code .inconsistent_deck)
          L.openShares s context seat (opened ++ [(item.pos, card)]) rest

/-- The opened cards become public and the action is counted. -/
def LedgerState.reveal (s : LedgerState G) (hash : Hash256) (revealed : List (ℕ × String)) :
    LedgerState G :=
  { s with
    revealed := fun position =>
      match revealed.lookup position with
      | some card => some card
      | none => s.revealed position
    accepted := Function.update s.accepted hash (some revealed)
    actionIndex := s.actionIndex + 1 }

/-- The ACTION branch of `#process`. -/
def RoundReveal.processAction (L : RoundReveal P) (s : LedgerState G) (received : SignedEnvelope)
    (seat : ℕ) (expectedSeat : Option ℕ) :
    Except RevealError (RevealTransition q G × LedgerState G) :=
  match s.accepted (P.hashEnvelope received) with
  | some revealed =>
      match decodeActionBody P received.body with
      | .error e => .error (.schema e)
      | .ok body => .ok (⟨false, seat, .action body revealed⟩, s)
  | none => do
      throwIf (L.currentDeal s ≠ none) (RevealError.code .deal_incomplete)
      throwIf (L.maxActions ≤ s.actionIndex) (RevealError.code .action_limit)
      let (_, body) ← L.decodeActionEnvelope s received expectedSeat.toList
      L.checkReveal s seat body.reveal
      let revealed ← L.openShares s ⟨L.gameId, L.round, received.phase⟩ seat [] body.shares
      return (⟨true, seat, .action body revealed⟩,
        s.reveal (P.hashEnvelope received) revealed)

/-- `#process`: the transition, and the state if it is committed. -/
def RoundReveal.process (L : RoundReveal P) (s : LedgerState G) (received : SignedEnvelope)
    (expectedSeat : Option ℕ) : Except RevealError (RevealTransition q G × LedgerState G) := do
  throwIf (MAX_ROUND_REVEAL_ENVELOPE_BYTES < received.byteLength)
    (RevealError.code .invalid_envelope)
  throwIf (received.game ≠ L.gameId) (RevealError.code .wrong_game)
  match L.roster.seatOf received.from_ with
  | none => throw (.code .unknown_sender)
  | some seat =>
      throwIf (received.round ≠ L.round) (RevealError.code .wrong_round)
      match received.type with
      | .SHARES => L.processShares s received seat
      | .ACTION => L.processAction s received seat expectedSeat
      | _ => throw (.code .wrong_type)

/-- `classify`. -/
def RoundReveal.classify (L : RoundReveal P) (s : LedgerState G) (received : SignedEnvelope)
    (expectedSeat : Option ℕ) : Except RevealError (RevealTransition q G) :=
  (L.process s received expectedSeat).map Prod.fst

/-- `commit`. -/
def RoundReveal.commit (L : RoundReveal P) (s : LedgerState G) (received : SignedEnvelope)
    (expectedSeat : Option ℕ) : Except RevealError (RevealTransition q G × LedgerState G) :=
  L.process s received expectedSeat

end

end Tablefolk
