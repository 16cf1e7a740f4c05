import Tablefolk.Rules.Cards

/-!
# The Sasku hand controllers

The model of `rules-sasku/src/hand.ts`.  Both controllers run one transition
function, `nextState`, over one state: the public controller keeps `hands` at
`null`, the complete-information reference controller keeps the four hands and
checks the private rules against them.

* `ActionCandidate` is what a caller passes; `normalizeAction` turns it into a
  `SaskuHandAction`, the type of well-formed actions.
* `nextState` is split by phase into `nextBidding`, `nextChoosingTrump` and
  `nextPlaying`, in the order of the source's branches.
* `auditSaskuHand` replays a public history against a full deal.
-/

namespace Tablefolk

def MAX_SASKU_HAND_ACTIONS : ℕ := 64

/-! ## Actions -/

/-- A bid is a whole number from three to nine. -/
structure BidValue where
  val : ℕ
  three_le : 3 ≤ val
  le_nine : val ≤ 9
  deriving DecidableEq, Repr

theorem three_le_toNat {value : ℤ} (h : 3 ≤ value ∧ value ≤ 9) : 3 ≤ value.toNat := by
  omega

theorem toNat_le_nine {value : ℤ} (h : 3 ≤ value ∧ value ≤ 9) : value.toNat ≤ 9 := by
  omega

/-- A normalised action: the value of a bid is in range by construction. -/
inductive SaskuHandAction where
  | pass (seat : SaskuSeat)
  | diamonds (seat : SaskuSeat)
  | bid (seat : SaskuSeat) (value : BidValue)
  | choose_trump (seat : SaskuSeat) (suit : SaskuSuit)
  | play (seat : SaskuSeat) (card : SaskuCardId)
  deriving DecidableEq, Repr

def SaskuHandAction.seat : SaskuHandAction → SaskuSeat
  | .pass seat | .diamonds seat | .bid seat _ | .choose_trump seat _ | .play seat _ => seat

/-- The seat of a bid. -/
def SaskuHandAction.bidder : SaskuHandAction → Option SaskuSeat
  | .bid seat _ => some seat
  | _ => none

/-- The play an action makes. -/
def SaskuHandAction.toPlay : SaskuHandAction → Option SaskuPlay
  | .play seat card => some ⟨seat, card⟩
  | _ => none

/-- The fields a caller may put on an action object.  A field that is absent is
`none`; other keys are collected in `others`. -/
structure ActionCandidate where
  type : String
  seat : ℤ
  value : Option ℤ := none
  suit : Option String := none
  card : Option String := none
  others : List String := []
  deriving DecidableEq, Repr

/-- `Object.keys(action).sort().join(",")` when there are no other keys. -/
def ActionCandidate.keys (action : ActionCandidate) : List String :=
  action.card.toList.map (fun _ => "card") ++ ["seat"] ++ action.suit.toList.map (fun _ => "suit")
    ++ ["type"] ++ action.value.toList.map (fun _ => "value") ++ action.others

/-- `seat`: the range check on a seat. -/
def checkSeat (value : ℤ) : Except SaskuError SaskuSeat :=
  if h : 0 ≤ value ∧ value ≤ 3 then .ok ⟨value.toNat, by omega⟩
  else .error (.hand "Seat must be zero through three" none)

def invalidAction : SaskuError := .hand "Invalid hand action fields or values" none

/-- `normalizeAction`. -/
def normalizeAction (action : ActionCandidate) : Except SaskuError SaskuHandAction := do
  let actor ← checkSeat action.seat
  if action.type = "pass" ∧ action.keys = ["seat", "type"] then return .pass actor
  else if action.type = "diamonds" ∧ action.keys = ["seat", "type"] then return .diamonds actor
  else if action.type = "bid" ∧ action.keys = ["seat", "type", "value"] then
    match action.value with
    | some value =>
        if h : 3 ≤ value ∧ value ≤ 9 then
          return .bid actor ⟨value.toNat, three_le_toNat h, toNat_le_nine h⟩
        else throw invalidAction
    | none => throw invalidAction
  else if action.type = "choose_trump" ∧ action.keys = ["seat", "suit", "type"] then
    match action.suit.bind saskuSuitOf with
    | some suit => return .choose_trump actor suit
    | none => throw invalidAction
  else if action.type = "play" ∧ action.keys = ["card", "seat", "type"] then
    match parseSaskuCard (action.card.getD "") with
    | .ok card => return .play actor card
    | .error _ => throw invalidAction
  else throw invalidAction

/-- A normalised action as the object it is frozen into. -/
def SaskuHandAction.candidate : SaskuHandAction → ActionCandidate
  | .pass seat => { type := "pass", seat := seat.val }
  | .diamonds seat => { type := "diamonds", seat := seat.val }
  | .bid seat value => { type := "bid", seat := seat.val, value := some value.val }
  | .choose_trump seat suit => { type := "choose_trump", seat := seat.val, suit := some suit.text }
  | .play seat card => { type := "play", seat := seat.val, card := some card.text }

/-! ## The state of a hand -/

inductive SaskuHandPhase where
  | bidding | choosing_trump | playing | complete
  deriving DecidableEq, Repr

structure HighestBid where
  seat : SaskuSeat
  value : BidValue
  deriving DecidableEq, Repr

structure SaskuCompletedTrick where
  result : SaskuTrickResult
  plays : List SaskuPlay
  deriving DecidableEq, Repr

/-- `HandState`: `hands` is `none` in the public controller. -/
structure HandState where
  phase : SaskuHandPhase
  dealer : SaskuSeat
  turn : Option SaskuSeat
  highestBid : Option HighestBid
  consecutivePasses : ℕ
  contract : Option SaskuContract
  hands : Option (SaskuSeat → List SaskuCardId)
  handSizes : SaskuSeat → ℕ
  trick : List SaskuPlay
  completedTricks : List SaskuCompletedTrick
  cardPoints : SaskuPartnership → ℕ
  tricksWon : SaskuPartnership → ℕ
  score : Option SaskuHandScore
  history : List SaskuHandAction

def nextSeat (value : SaskuSeat) : SaskuSeat := value + 1

/-- `trumpSuit`: a pass round is played with diamonds. -/
def trumpSuit : SaskuContract → SaskuSuit
  | .passRound => .diamonds
  | .named suit _ => suit

/-- `state.contract!`. -/
def HandState.contractOrThrow (state : HandState) : Except SaskuError SaskuContract :=
  match state.contract with
  | some contract => .ok contract
  | none => .error .typeError

def initialState (dealer : SaskuSeat) (hands : Option (SaskuSeat → List SaskuCardId)) :
    HandState where
  phase := .bidding
  dealer := dealer
  turn := some (nextSeat dealer)
  highestBid := none
  consecutivePasses := 0
  contract := none
  hands := hands
  handSizes := fun _ => 9
  trick := []
  completedTricks := []
  cardPoints := fun _ => 0
  tricksWon := fun _ => 0
  score := none
  history := []

/-- `saskuBidStrength`: the court cards and the longest plain suit. -/
def saskuBidStrength (hand : List SaskuCardId) : Except SaskuError ℕ := do
  throwIf (hand.length ≠ 9) (.hand "Bid strength requires a complete nine-card hand" none)
  throwIf (¬ hand.Nodup) (.hand "A bidding hand cannot repeat cards" none)
  let courts := hand.countP SaskuCardId.isCourt
  let suit (s : SaskuSuit) := hand.countP fun card => !card.isCourt && decide (card.suit = s)
  return courts + ((SASKU_SUITS.map suit).max?.getD 0)

/-! ## The transition function -/

/-- A bid is checked against the bidder's hand, when the hands are known. -/
def checkBidStrength (state : HandState) (seat : SaskuSeat) (value : BidValue) :
    Except SaskuError Unit :=
  match state.hands with
  | none => .ok ()
  | some hands => do
      throwIf ((← saskuBidStrength (hands seat)) < value.val)
        (.hand "A bid cannot exceed the player's calculated hand strength" (some .bid_strength))

/-- A bid must beat the highest one so far. -/
def checkHigherBid (state : HandState) (value : BidValue) : Except SaskuError Unit :=
  match state.highestBid with
  | none => .ok ()
  | some highest =>
      throwIf (value.val ≤ highest.value.val)
        (.hand "A bid must strictly exceed the current highest bid" none)

/-- The `bidding` branch; `state` is `current` with the action recorded. -/
def nextBidding (current state : HandState) (action : SaskuHandAction) :
    Except SaskuError HandState :=
  match action with
  | .bid seat value => do
      checkBidStrength state seat value
      checkHigherBid state value
      throwIf (seat ∈ current.history.filterMap SaskuHandAction.bidder)
        (.hand "A player's bid cannot change while bidding" none)
      return { state with highestBid := some ⟨seat, value⟩, consecutivePasses := 0,
                          turn := some (nextSeat seat) }
  | .diamonds seat =>
      .ok { state with contract := some (.named .diamonds seat), phase := .playing,
                       turn := some seat }
  | .pass seat =>
      let passes := state.consecutivePasses + 1
      match state.highestBid with
      | none =>
          if passes = 4 then
            .ok { state with consecutivePasses := passes, contract := some .passRound,
                             phase := .playing, turn := some (nextSeat state.dealer) }
          else .ok { state with consecutivePasses := passes, turn := some (nextSeat seat) }
      | some highest =>
          if passes = 3 then
            .ok { state with consecutivePasses := passes, phase := .choosing_trump,
                             turn := some highest.seat }
          else .ok { state with consecutivePasses := passes, turn := some (nextSeat seat) }
  | _ => .error
      (.hand "Only bids, passes, or an on-turn diamonds call are allowed during bidding" none)

/-- The `choosing_trump` branch. -/
def nextChoosingTrump (state : HandState) (action : SaskuHandAction) :
    Except SaskuError HandState :=
  match action with
  | .choose_trump seat suit =>
      .ok { state with contract := some (.named suit seat), phase := .playing, turn := some seat }
  | _ => .error (.hand "The auction winner must choose the trump suit" none)

/-- The private rules of a play, checked only when the hands are known. -/
def checkHeldCard (state : HandState) (seat : SaskuSeat) (card : SaskuCardId) :
    Except SaskuError Unit :=
  match state.hands with
  | none => .ok ()
  | some hands => do
      throwIf (card ∉ hands seat)
        (.hand "The acting player does not hold that card" (some .card_ownership))
      let contract ← state.contractOrThrow
      throwIf (card ∉ (← legalSaskuCards (hands seat) state.trick (trumpSuit contract)))
        (.hand "The player must follow the effective led suit" (some .follow_suit))

/-- The card leaves the hand and joins the trick. -/
def HandState.playCard (state : HandState) (seat : SaskuSeat) (card : SaskuCardId) : HandState :=
  { state with
    hands := state.hands.map fun hands => Function.update hands seat ((hands seat).erase card)
    handSizes := Function.update state.handSizes seat (state.handSizes seat - 1)
    trick := state.trick ++ [⟨seat, card⟩] }

/-- The trick is counted for the winner's partnership. -/
def HandState.takeTrick (state : HandState) (result : SaskuTrickResult) : HandState :=
  { state with
    completedTricks := state.completedTricks ++ [⟨result, state.trick⟩]
    cardPoints := Function.update state.cardPoints result.partnership
      (state.cardPoints result.partnership + result.cardPoints)
    tricksWon := Function.update state.tricksWon result.partnership
      (state.tricksWon result.partnership + 1)
    trick := [] }

/-- The fourth play of a trick; the ninth trick also scores the hand. -/
def finishTrick (state : HandState) : Except SaskuError HandState := do
  let contract ← state.contractOrThrow
  let result ← resolveSaskuTrick state.trick (trumpSuit contract)
  let taken := state.takeTrick result
  if taken.completedTricks.length = 9 then
    let score ← scoreSaskuHand ⟨taken.cardPoints, taken.tricksWon, contract⟩
    return { taken with score := some score, phase := .complete, turn := none }
  else return { taken with turn := some result.winner.seat }

/-- The `playing` branch. -/
def nextPlaying (current state : HandState) (action : SaskuHandAction) :
    Except SaskuError HandState :=
  match action with
  | .play seat card => do
      checkHeldCard state seat card
      throwIf (card ∈ (current.history.filterMap SaskuHandAction.toPlay).map SaskuPlay.card)
        (.hand "A card cannot be played more than once" none)
      throwIf (state.handSizes seat = 0) (.hand "The acting player has no cards left" none)
      let played := state.playCard seat card
      if played.trick.length = 4 then finishTrick played
      else return { played with turn := some (nextSeat seat) }
  | _ => .error (.hand "Only card plays are allowed during trick play" none)

/-- `nextState` on a normalised action. -/
def nextAction (current : HandState) (action : SaskuHandAction) : Except SaskuError HandState := do
  throwIf (current.phase = .complete) (.hand "The hand is complete" none)
  throwIf (some action.seat ≠ current.turn)
    (.hand "Action is not from the expected seat" none)
  throwIf (MAX_SASKU_HAND_ACTIONS ≤ current.history.length)
    (.hand "Hand action limit exceeded" none)
  let state := { current with history := current.history ++ [action] }
  match current.phase with
  | .bidding => nextBidding current state action
  | .choosing_trump => nextChoosingTrump state action
  | _ => nextPlaying current state action

/-- `nextState`. -/
def nextState (current : HandState) (candidate : ActionCandidate) :
    Except SaskuError HandState := do
  nextAction current (← normalizeAction candidate)

/-! ## Controllers -/

/-- Four hands of nine cards that hold every card once. -/
structure SaskuDeal where
  hands : SaskuSeat → List SaskuCardId
  length_hand : ∀ seat, (hands seat).length = 9
  nodup : ((List.finRange 4).flatMap hands).Nodup

/-- The first complaint of the `SaskuHandController` constructor about hands that
are no deal.  It goes through the players in order, so a card seen twice in the
hands before the first one of the wrong length is reported instead of it. -/
def dealError (hands : SaskuSeat → List SaskuCardId) : SaskuError :=
  let before := (List.finRange 4).takeWhile fun player => (hands player).length = 9
  if before.length < 4 ∧ (before.flatMap hands).Nodup then
    .hand "Every player must start with nine cards" none
  else .hand "The deal must contain each of the 36 cards exactly once" none

/-- The checks of the `SaskuHandController` constructor on its hands. -/
def checkDeal (hands : SaskuSeat → List SaskuCardId) : Except SaskuError SaskuDeal :=
  if h : (∀ player, (hands player).length = 9) ∧ ((List.finRange 4).flatMap hands).Nodup then
    .ok ⟨hands, h.1, h.2⟩
  else .error (dealError hands)

/-- `new SaskuPublicHandController({ dealer })`. -/
def publicHand (dealer : SaskuSeat) : HandState := initialState dealer none

/-- `new SaskuHandController({ dealer, hands })`. -/
def referenceHand (dealer : SaskuSeat) (deal : SaskuDeal) : HandState :=
  initialState dealer (some deal.hands)

/-- `legalCardsForTurn`. -/
def HandState.legalCardsForTurn (state : HandState) : Except SaskuError (List SaskuCardId) :=
  match state.phase, state.turn, state.hands with
  | .playing, some turn, some hands => do
      let contract ← state.contractOrThrow
      legalSaskuCards (hands turn) state.trick (trumpSuit contract)
  | _, _, _ => .ok []

/-- Apply the actions one after the other. -/
def applyAll (state : HandState) (actions : List ActionCandidate) : Except SaskuError HandState :=
  actions.foldlM nextState state

/-- `SaskuHandSnapshot`; the public snapshot is the same record with the score
called `provisionalScore`. -/
structure SaskuHandSnapshot where
  phase : SaskuHandPhase
  dealer : SaskuSeat
  turn : Option SaskuSeat
  highestBid : Option HighestBid
  consecutivePasses : ℕ
  contract : Option SaskuContract
  trick : List SaskuPlay
  completedTricks : List SaskuCompletedTrick
  cardPoints : SaskuPartnership → ℕ
  tricksWon : SaskuPartnership → ℕ
  handSizes : SaskuSeat → ℕ
  score : Option SaskuHandScore
  nextDealer : Option SaskuSeat

def HandState.snapshot (state : HandState) : SaskuHandSnapshot where
  phase := state.phase
  dealer := state.dealer
  turn := state.turn
  highestBid := state.highestBid
  consecutivePasses := state.consecutivePasses
  contract := state.contract
  trick := state.trick
  completedTricks := state.completedTricks
  cardPoints := state.cardPoints
  tricksWon := state.tricksWon
  handSizes := state.handSizes
  score := state.score
  nextDealer := if state.phase = .complete then some (nextSeat state.dealer) else none

/-! ## The final audit -/

inductive SaskuHandAuditResult where
  | valid (snapshot : SaskuHandSnapshot)
  | incomplete (snapshot : SaskuHandSnapshot)
  | violation (seat : SaskuSeat) (index : ℕ) (rule : SaskuHandAuditRule)

/-- The second loop of `auditSaskuHand`, from the action at index `index` on. -/
def auditFrom (reference : HandState) (index : ℕ) :
    List SaskuHandAction → Except SaskuError SaskuHandAuditResult
  | [] => .ok (if reference.phase = .complete then .valid reference.snapshot
      else .incomplete reference.snapshot)
  | action :: rest =>
      match nextState reference action.candidate with
      | .ok next => auditFrom next (index + 1) rest
      | .error cause =>
          match cause.rule with
          | none => .error cause
          | some rule => .ok (.violation action.seat index rule)

/-- `auditSaskuHand`: the history must be publicly possible; it is then replayed
against the supplied hands. -/
def auditSaskuHand (dealer : SaskuSeat) (hands : SaskuSeat → List SaskuCardId)
    (actions : List ActionCandidate) : Except SaskuError SaskuHandAuditResult := do
  throwIf (MAX_SASKU_HAND_ACTIONS < actions.length)
    (.hand "Invalid or oversized hand action history" none)
  let deal ← checkDeal hands
  let reference := referenceHand dealer deal
  let publicFinal ← applyAll (publicHand reference.dealer) actions
  auditFrom reference 0 publicFinal.history

end Tablefolk
