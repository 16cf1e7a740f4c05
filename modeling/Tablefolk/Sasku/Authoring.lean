import Tablefolk.Protocol.Codec
import Tablefolk.Sasku.RoundInvariant

/-!
# Authoring in a Sasku round

The model of the authoring half of `game-sasku/src/persistent-round-receiver.ts`: what
`authorDealShares`, `authorAction` and `authorAuditDisclose` put into an envelope.

* `SaskuRound.createAction` is the body of `#authorActionOne`, private checks included.
* `authoredShares`, `authoredAction` and `authoredAudit` are the contents that are signed.
-/

namespace Tablefolk

/-! ## Intents -/

/-- `SaskuActionIntent`, once it has passed its checks. -/
inductive SaskuActionIntent where
  | pass
  | diamonds
  | bid (value : BidValue)
  | choose_trump (suit : SaskuSuit)
  | play (position : Fin 36)
  deriving DecidableEq

/-- `SaskuPrivateHand`: the cards of a seat with their positions. -/
structure SaskuPrivateHand where
  dealt : List (ℕ × SaskuCardId)
  remaining : List (ℕ × SaskuCardId)

section

variable {q : ℕ} {G : Type} [AddCommGroup G] [Module (ZMod q) G] [DecidableEq G]
  {P : Primitives q G}

namespace SaskuRound

variable (R : SaskuRound P) (c : RoundCore G)

/-- `readPrivateHand`: a deck that does not open fails the receiver. -/
def readPrivateHand (seat : SaskuSeat) (secretKey : ZMod q) :
    Except RoundError (Option SaskuPrivateHand) :=
  match R.ledger.readPrivateHand c.ledger seat.val secretKey with
  | .error error =>
      if error = .code .inconsistent_deck ∨ error = .code .deal_incomplete then
        .error (.failed .recovery_required)
      else .error (.reveal error)
  | .ok none => .ok none
  | .ok (some hand) => do
      let dealt ← parseRevealed hand.dealt
      let remaining ← parseRevealed hand.remaining
      return some ⟨dealt, remaining⟩

/-- The action an intent stands for. -/
def intendedAction (hand : SaskuPrivateHand) (seat : SaskuSeat) :
    SaskuActionIntent → Except RoundError SaskuHandAction
  | .pass => .ok (.pass seat)
  | .diamonds => .ok (.diamonds seat)
  | .bid value => .ok (.bid seat value)
  | .choose_trump suit => .ok (.choose_trump seat suit)
  | .play position => do
      let owner ← liftError RoundError.reveal (R.ledger.ownerAt position.val)
      throwIf (owner ≠ some seat.val) (RoundError.reveal (.code .wrong_owner))
      match hand.remaining.lookup position.val with
      | some card => return .play seat card
      | none => throw (.reveal (.code .already_revealed))

/-- The private rules, checked by the author on its own hand. -/
def checkPrivate (hand : SaskuPrivateHand) : SaskuHandAction → Except RoundError Unit
  | .bid _ value => do
      let strength ← liftError RoundError.hand (saskuBidStrength (hand.dealt.map Prod.snd))
      throwIf (strength < value.val) (RoundError.hand (.hand
        "A bid cannot exceed the player's calculated hand strength" (some .bid_strength)))
  | .play _ card => do
      let contract ← liftError RoundError.hand c.hand.contractOrThrow
      let legal ← liftError RoundError.hand
        (legalSaskuCards (hand.remaining.map Prod.snd) c.hand.trick (trumpSuit contract))
      throwIf (card ∉ legal) (RoundError.hand (.hand
        "The player must follow the effective led suit" (some .follow_suit)))
  | _ => .ok ()

/-- The shares of an authored action; `none` when the random source runs dry. -/
def actionShares (seat : SaskuSeat) (secretKey : ZMod q) (draws : List ℕ) :
    SaskuActionIntent → Except RoundError (Option (List ℕ × List (PositionShare q G)))
  | .play position => do
      let share ← liftError RoundError.reveal
        (R.ledger.createActionShare c.ledger seat.val secretKey position.val draws)
      return share.map fun share => ([position.val], [share])
  | _ => .ok (some ([], []))

/-- `#authorActionOne`, up to the body it hands to the author. -/
def createAction (seat : SaskuSeat) (secretKey : ZMod q) (intent : SaskuActionIntent)
    (draws : List ℕ) : Except RoundError (Option (SaskuHandAction × ActionBody q G)) := do
  match ← R.readPrivateHand c seat secretKey with
  | none => throw (.reveal (.code .deal_incomplete))
  | some hand =>
      throwIf (c.hand.phase = .complete) (RoundError.receiver .hand_complete)
      let action ← R.intendedAction hand seat intent
      let _ ← liftError RoundError.hand (nextState c.hand action.candidate)
      checkPrivate c hand action
      let shares ← R.actionShares c seat secretKey draws intent
      return shares.map fun (reveal, shares) =>
        (action, ⟨action.kind, cborMap action.data, reveal, shares⟩)

/-! ## The contents that are signed -/

/-- What `authorDealShares` signs. -/
def authoredShares (seat : SaskuSeat) (secretKey : ZMod q) (draws : List ℕ) :
    Except RoundError (Option EnvelopeContent) := do
  match ← liftError RoundError.reveal
      (R.ledger.createDealShares c.ledger seat.val secretKey draws) with
  | none => return none
  | some body =>
      let value ← liftError RoundError.schema (encodeSharesBody P body)
      return some ⟨R.ledger.round, R.ledger.phase c.ledger, .SHARES, value⟩

/-- What `authorAction` signs, with the action it stands for. -/
def authoredAction (seat : SaskuSeat) (secretKey : ZMod q) (intent : SaskuActionIntent)
    (draws : List ℕ) : Except RoundError (Option (SaskuHandAction × EnvelopeContent)) := do
  match ← R.createAction c seat secretKey intent draws with
  | none => return none
  | some (action, body) =>
      let value ← liftError RoundError.schema (encodeActionBody P body)
      return some (action, ⟨R.ledger.round, R.ledger.phase c.ledger, .ACTION, value⟩)

/-- What `authorAuditDisclose` signs, once its guard has passed. -/
def authoredAudit (seat : SaskuSeat) : Except RoundError EnvelopeContent :=
  match c.audit with
  | none => .error (.reveal (.code .wrong_phase))
  | some audit =>
      if seat.val ∈ audit.pendingSenders then do
        let value ← liftError RoundError.schema (encodeAuditDiscloseBody P ⟨[]⟩)
        return ⟨R.ledger.round, audit.phase, .AUDIT_DISCLOSE, value⟩
      else .error (.reveal (.code .conflicting_contribution))

/-- The envelope a seat signs over a content. -/
structure Carries (e : SignedEnvelope) (seat : SaskuSeat) (content : EnvelopeContent) : Prop where
  game : e.game = R.ledger.gameId
  sender : R.ledger.roster.seatOf e.from_ = some seat.val
  round : e.round = content.round
  phase : e.phase = content.phase
  type : e.type = content.type
  body : e.body = content.body

end SaskuRound

end

end Tablefolk
