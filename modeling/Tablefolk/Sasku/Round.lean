import Tablefolk.Engine.RevealInvariant
import Tablefolk.Rules.Action
import Tablefolk.Rules.Audit

/-!
# A Sasku round

The model of the semantic core of `game-sasku/src/persistent-round-receiver.ts`: the
deal, the public play and the final audit of one round, without the queue and the
durable session around it.

A `SaskuRound` is what the constructor fixes.  A `RoundCore` is what `#commit`
changes.  `classify` and `commit` are `#classify` and `#commit`; `step` is the round as
a machine that reads envelopes.
-/

namespace Tablefolk

/-- `SASKU_DECK_SPEC`. -/
def SASKU_DECK_SPEC : DeckSpec where
  id := "sasku-36/v1"
  cards := SASKU_CARDS.map SaskuCardId.text

/-- `SaskuRoundReceiverErrorCode`. -/
inductive SaskuRoundReceiverErrorCode where
  | invalid_envelope | queue_limit | closed | hand_complete | stale_action | stale_contribution
  | invalid_receipt | commit_failed | recovery_required
  deriving DecidableEq, Repr

/-- What the receiver throws.  `failed` is an error of `#fail`, after which the receiver
does nothing more; the others reject one message. -/
inductive RoundError where
  | receiver (code : SaskuRoundReceiverErrorCode)
  | failed (code : SaskuRoundReceiverErrorCode)
  | reveal (error : RevealError)
  | hand (error : SaskuError)
  | schema (error : ProtocolSchemaError)
  | range (message : String)
  | type (message : String)
  deriving DecidableEq, Repr

/-- Call a throwing function of another package. -/
def liftError {ε α : Type} (wrap : ε → RoundError) (x : Except ε α) : Except RoundError α :=
  x.mapError wrap

@[simp] theorem liftError_eq_ok {ε α : Type} {wrap : ε → RoundError} {x : Except ε α} {a : α} :
    liftError wrap x = .ok a ↔ x = .ok a := by
  cases x <;> simp [liftError, Except.mapError]

section

variable {q : ℕ} {G : Type} [AddCommGroup G] [Module (ZMod q) G] [DecidableEq G]
  {P : Primitives q G}

/-! ## The round -/

/-- What a round fixes: four seats, the Sasku deck, nine positions for each seat. -/
structure SaskuRound (P : Primitives q G) where
  ledger : RoundReveal P
  dealer : SaskuSeat
  four : ledger.roster.size = 4
  cards : ledger.table.cards.map Prod.fst = SASKU_CARDS.map SaskuCardId.text
  budget : ledger.maxActions = MAX_SASKU_HAND_ACTIONS
  nine : ∀ seat : SaskuSeat, (dealOwners ledger.steps).count seat.val = 9

/-- `PersistentSaskuRoundOptions`, without the session. -/
structure SaskuRoundOptions (P : Primitives q G) where
  setup : SetupEnvelopeCoordinator P
  round : ℕ
  deck : List (MaskedCard G)
  schedule : List PrivateDealStep
  batchDeal : Bool
  dealer : SaskuSeat

/-- The options of the round's reveal ledger. -/
def SaskuRoundOptions.reveal (options : SaskuRoundOptions P) : RoundRevealOptions P where
  setup := options.setup
  round := options.round
  deckSpec := SASKU_DECK_SPEC
  deck := options.deck
  schedule := options.schedule
  maxActions := MAX_SASKU_HAND_ACTIONS
  batchDeal := options.batchDeal

/-- What `new RoundRevealLedger` captures. -/
structure Captures (options : RoundRevealOptions P) (L : RoundReveal P) : Prop where
  gameId : L.gameId = options.setup.gameId
  round : L.round = options.round
  roster : L.roster = options.setup.roster
  publicKeys : publicKeysFrom options.setup 0 options.setup.roster.size = .ok L.publicKeys
  table : P.cardPointTable options.deckSpec = .ok L.table
  deck : L.deck = options.deck
  steps : L.steps = options.schedule
  maxActions : L.maxActions = options.maxActions
  batchDeal : L.batchDeal = options.batchDeal

theorem captures_of_start {options : RoundRevealOptions P} {L : RoundReveal P}
    (h : RoundReveal.start options = .ok L) : Captures options L := by
  rw [RoundReveal.start] at h
  obtain ⟨-, h⟩ := check_bind_eq_ok.1 h
  split at h
  · cases h
  obtain ⟨-, h⟩ := check_bind_eq_ok.1 h
  obtain ⟨-, h⟩ := check_bind_eq_ok.1 h
  split at h
  · cases h
  rename_i hkeys
  split at h
  · cases h
  rename_i htable
  split at h
  · obtain ⟨-, h⟩ := check_bind_eq_ok.1 h
    split at h
    · cases h
    split at h
    · cases h
      exact ⟨rfl, rfl, rfl, hkeys, htable, rfl, rfl, rfl, rfl⟩
    · cases h
  · cases h

omit [Module (ZMod q) G] in
theorem cards_of_cardPointTable [Module (ZMod q) G] {P : Primitives q G} {spec : DeckSpec}
    {table : CardPointTable G} (h : P.cardPointTable spec = .ok table) :
    table.cards.map Prod.fst = spec.cards := by
  rw [Primitives.cardPointTable] at h
  split at h
  · cases h
  split at h
  · simp only at h
    split at h
    · cases h
    · cases h
      simp [Function.comp_def]
  · cases h

/-- The constructor of the receiver, without its checks on the session and the queue. -/
def SaskuRound.start (options : SaskuRoundOptions P) : Except RoundError (SaskuRound P) :=
  if hsetup : options.setup.state ≠ .complete ∨ options.setup.roster.size ≠ 4 then
    .error (.type "A Sasku receiver requires completed four-seat setup")
  else
  match hledger : RoundReveal.start options.reveal with
  | .error e => .error (.reveal e)
  | .ok ledger =>
  if ∃ position ∈ List.range 36, ledger.owner position = none then
    .error (.range "Sasku must privately deal all 36 positions")
  else if hnine : ∀ seat : SaskuSeat, (dealOwners ledger.steps).count seat.val = 9 then
    have captures := captures_of_start hledger
    .ok ⟨ledger, options.dealer, by
      rw [captures.roster]
      exact not_not.1 (not_or.1 hsetup).2, cards_of_cardPointTable captures.table,
      captures.maxActions, hnine⟩
  else .error (.range "Sasku must deal exactly nine cards per seat")

/-! ## The state -/

/-- The result of the audit: `SaskuRoundAuditSnapshot["result"]` once it is there. -/
inductive SaskuRoundAuditResult where
  | valid (score : SaskuHandScore)
  | violation (seat : SaskuSeat) (index : ℕ) (rule : SaskuHandAuditRule)

/-- `SaskuRoundAuditSnapshot`. -/
structure SaskuRoundAuditSnapshot where
  phase : String
  pendingSenders : List ℕ
  result : Option SaskuRoundAuditResult

variable (G) in
/-- The ledger, the hand and the audit of a round: what `#commit` changes. -/
@[ext] structure RoundCore where
  ledger : LedgerState G
  hand : HandState
  auditHashes : ℕ → Option Hash256
  audit : Option SaskuRoundAuditSnapshot

/-- `SaskuRoundSnapshot`. -/
structure SaskuRoundSnapshot where
  ledger : RoundRevealSnapshot
  hand : SaskuHandSnapshot
  history : List SaskuHandAction
  audit : Option SaskuRoundAuditSnapshot

def auditPhase (round : ℕ) : String := "round." ++ toString round ++ ".audit"

/-- `hand.snapshot.turn ?? undefined`, as a seat of the roster. -/
def RoundCore.expectedSeat (c : RoundCore G) : Option ℕ := c.hand.turn.map Fin.val

/-- `classification.type`. -/
def RevealBody.type : RevealBody q G → EnvelopeMessageType
  | .shares _ => .SHARES
  | .action _ _ => .ACTION

namespace SaskuRound

variable (R : SaskuRound P)

/-- The state of a new receiver. -/
def init : RoundCore G where
  ledger := .start
  hand := publicHand R.dealer
  auditHashes := fun _ => none
  audit := none

/-- `snapshot`: every commit that accepts replaces it by the current one. -/
def snapshot (c : RoundCore G) : SaskuRoundSnapshot where
  ledger := R.ledger.snapshot c.ledger
  hand := c.hand.snapshot
  history := c.hand.history
  audit := c.audit

/-! ## Classifying -/

/-- `RoundTransition`. -/
structure RoundTransition where
  received : SignedEnvelope
  expectedSeat : Option ℕ
  type : EnvelopeMessageType
  seat : ℕ
  accepted : Bool
  action : Option SaskuHandAction

/-- The AUDIT_DISCLOSE branch of `#classify`. -/
def classifyAudit (c : RoundCore G) (received : SignedEnvelope) :
    Except RoundError RoundTransition := do
  throwIf (received.game ≠ R.ledger.gameId) (RoundError.reveal (.code .wrong_game))
  match R.ledger.roster.seatOf received.from_ with
  | none => throw (.reveal (.code .unknown_sender))
  | some seat =>
      throwIf (received.round ≠ R.ledger.round) (RoundError.reveal (.code .wrong_round))
      match c.audit with
      | none => throw (.reveal (.code .wrong_phase))
      | some audit =>
          throwIf (received.phase ≠ audit.phase) (RoundError.reveal (.code .wrong_phase))
          match decodeAuditDiscloseBody P received.body with
          | .error _ => throw (.reveal (.code .malformed_body))
          | .ok body =>
              throwIf (body.items.length ≠ 0) (RoundError.reveal (.code .wrong_positions))
              let prior := c.auditHashes seat
              throwIf (prior ≠ none ∧ prior ≠ some (P.hashEnvelope received))
                (RoundError.reveal (.code .conflicting_contribution))
              return ⟨received, c.expectedSeat, .AUDIT_DISCLOSE, seat, prior.isNone, none⟩

/-- The reveals of a transition with their cards parsed. -/
def parseRevealed : List (ℕ × String) → Except RoundError (List (ℕ × SaskuCardId))
  | [] => .ok []
  | (position, card) :: rest => do
      let card ← liftError RoundError.hand (parseSaskuCard card)
      let cards ← parseRevealed rest
      return (position, card) :: cards

/-- The rest of `#classify` on an accepted action: decode it and preview it. -/
def classifyAction (c : RoundCore G) (received : SignedEnvelope) (seat : ℕ)
    (revealed : List (ℕ × String)) : Except RoundError SaskuHandAction := do
  throwIf (c.expectedSeat = none) (RoundError.receiver .hand_complete)
  let cards ← parseRevealed revealed
  let body ← liftError RoundError.schema (decodeActionBody P received.body)
  let action ← liftError RoundError.hand
    (decodeSaskuAction seat body.kind body.data body.reveal cards)
  let _ ← liftError RoundError.hand (nextState c.hand action.candidate)
  return action

/-- The SHARES and ACTION branch of `#classify`, on what the ledger says. -/
def classifyReveal (c : RoundCore G) (received : SignedEnvelope) :
    Except RoundError RoundTransition :=
  match R.ledger.classify c.ledger received c.expectedSeat with
  | .error error =>
      if error = .code .inconsistent_deck then .error (.failed .recovery_required)
      else match error with
      | .range _ =>
          if c.expectedSeat = none ∧ received.type = .ACTION then .error (.receiver .hand_complete)
          else .error (.reveal error)
      | _ => .error (.reveal error)
  | .ok transition =>
      if transition.body.type ≠ received.type ∨
          R.ledger.roster.seatOf received.from_ ≠ some transition.seat then
        .error (.failed .recovery_required)
      else match transition.body with
      | .shares _ =>
          .ok ⟨received, c.expectedSeat, .SHARES, transition.seat, transition.accepted, none⟩
      | .action _ revealed =>
          if transition.accepted then do
            let action ← classifyAction (P := P) c received transition.seat revealed
            return ⟨received, c.expectedSeat, .ACTION, transition.seat, true, some action⟩
          else .ok ⟨received, c.expectedSeat, .ACTION, transition.seat, false, none⟩

/-- `#classify`. -/
def classify (c : RoundCore G) (received : SignedEnvelope) : Except RoundError RoundTransition :=
  match received.type with
  | .AUDIT_DISCLOSE => R.classifyAudit c received
  | _ => R.classifyReveal c received

/-! ## Committing -/

/-- The opened cards with their owners, position by position. -/
def openedCards (c : RoundCore G) : List ℕ → Except RoundError (List (ℕ × SaskuCardId))
  | [] => .ok []
  | position :: rest =>
      match R.ledger.ownerAt position, c.ledger.revealed position with
      | .ok (some owner), some text => do
          let card ← liftError RoundError.hand (parseSaskuCard text)
          let cards ← openedCards c rest
          return (owner, card) :: cards
      | _, _ => .error (.hand (.play "Unknown Sasku card identifier"))

/-- The hands the audit is built from. -/
def handsOf (cards : List (ℕ × SaskuCardId)) (seat : SaskuSeat) : List SaskuCardId :=
  (cards.filter fun card => card.1 = seat.val).map Prod.snd

/-- The final audit, once every seat has disclosed. -/
def buildAudit (c : RoundCore G) : Except RoundError SaskuRoundAuditResult := do
  let cards ← R.openedCards c (List.range 36)
  let checked ← liftError RoundError.hand
    (auditSaskuHand c.hand.dealer (handsOf cards) (c.hand.history.map SaskuHandAction.candidate))
  match checked with
  | .violation seat index rule => return .violation seat index rule
  | .valid snapshot =>
      match snapshot.score with
      | some score => return .valid score
      | none => throw (.type "Completed Sasku audit returned an incomplete result")
  | .incomplete _ => throw (.type "Completed Sasku audit returned an incomplete result")

/-- The AUDIT_DISCLOSE branch of `#commit`. -/
def commitAudit (c : RoundCore G) (t : RoundTransition) : Except RoundError (RoundCore G) :=
  if t.accepted then
    match c.audit with
    | none => .error (.failed .commit_failed)
    | some audit => do
        let pendingSenders := audit.pendingSenders.filter fun pending => pending ≠ t.seat
        let result ← if pendingSenders = [] then
            (R.buildAudit c).map some else (.ok none : Except RoundError _)
        return { c with
          auditHashes := Function.update c.auditHashes t.seat (some (P.hashEnvelope t.received))
          audit := some ⟨audit.phase, pendingSenders, result⟩ }
  else .ok c

/-- The audit after a hand has moved: it is opened once, when the hand is complete. -/
def nextAudit (c : RoundCore G) (ledger : LedgerState G) (hand : HandState) :
    Except RoundError (Option SaskuRoundAuditSnapshot) :=
  if hand.phase = .complete ∧ c.audit.isNone then do
    throwIf ((R.ledger.revealedPositions ledger).length ≠ 36)
      (RoundError.type "Completed Sasku hand has unopened positions")
    return some ⟨auditPhase R.ledger.round, [0, 1, 2, 3], none⟩
  else .ok c.audit

/-- The committed reveal shows the card of the previewed play. -/
def matchesPlay (body : RevealBody q G) : Option SaskuHandAction → Prop
  | some (.play _ card) =>
      match body with
      | .action _ revealed => revealed.map Prod.snd = [card.text]
      | .shares _ => False
  | _ => True

instance (body : RevealBody q G) (action : Option SaskuHandAction) :
    Decidable (matchesPlay body action) := by
  unfold matchesPlay
  split
  · split <;> infer_instance
  · infer_instance

/-- The SHARES and ACTION branch of `#commit`. -/
def commitReveal (c : RoundCore G) (t : RoundTransition) : Except RoundError (RoundCore G) := do
  let (committed, ledger) ← liftError RoundError.reveal
    (R.ledger.commit c.ledger t.received t.expectedSeat)
  throwIf (committed.accepted ≠ t.accepted ∨ committed.body.type ≠ t.type ∨
      committed.seat ≠ t.seat)
    (RoundError.type "Reveal commit does not match the original transition")
  throwIf (¬ matchesPlay committed.body t.action)
    (RoundError.type "Committed reveal does not match the previewed card")
  let hand ← match t.action with
    | some action => liftError RoundError.hand (nextState c.hand action.candidate)
    | none => (.ok c.hand : Except RoundError HandState)
  if committed.accepted then
    let audit ← R.nextAudit c ledger hand
    return { c with ledger := ledger, hand := hand, audit := audit }
  else return c

/-- `#commit`: whatever goes wrong fails the receiver. -/
def commit (c : RoundCore G) (t : RoundTransition) : Except RoundError (RoundCore G) :=
  (match t.type with
    | .AUDIT_DISCLOSE => R.commitAudit c t
    | _ => R.commitReveal c t).mapError fun _ => .failed .commit_failed

/-! ## The round as a machine -/

/-- Read an envelope: the state after it, if it is accepted. -/
def step (c : RoundCore G) (received : SignedEnvelope) : Option (RoundCore G) :=
  match R.classify c received with
  | .ok transition =>
      if transition.accepted then
        match R.commit c transition with
        | .ok next => some next
        | .error _ => none
      else none
  | .error _ => none

end SaskuRound

end

end Tablefolk
