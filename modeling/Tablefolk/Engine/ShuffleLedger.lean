import Tablefolk.Deck.Statement
import Tablefolk.Engine.SetupRecovery
import Tablefolk.Protocol.Codec
import Tablefolk.Session.Lobby
import Tablefolk.Session.SmallGroup

/-!
# The shuffle ledger

The model of `engine/candidate-shuffle-ledger.ts`.

`accept` awaits twice, its verifier and the receipt of its owner, so it is three transitions here:
`beginAccept` runs to the first of them, `verified` takes the verifier's answer and `received` the
owner's.  Between them anything may happen to the ledger.

* `ShuffleChain`: the envelopes that lead from the initial deck to a deck, one for each seat.
* `ShuffleMachine.Invariant`: the accepted envelopes are such a chain, and a call in progress
  holds what it has checked.
* `shuffle_ledger_chain`: what that says of every run.
-/

namespace Tablefolk

/-- What a call of the ledger throws. -/
inductive ShuffleLedgerError where
  | message (text : String)
  | range (text : String)
  | envelope (error : EnvelopeError)
  | codec (error : ShuffleCodecError)
  | deck (error : DeckSpecError)
  | verifier
  | receipt
  deriving DecidableEq

/-- What `accept` returns. -/
inductive ShuffleAcceptance where
  | accepted | duplicate
  deriving DecidableEq, Repr

def MAX_SHUFFLE_ENVELOPE_BYTES : ℕ := 16 * 1024

/-- `round.${round}.shuffle.${seat}`. -/
def shufflePhase (round seat : ℕ) : String :=
  "round." ++ toString round ++ ".shuffle." ++ toString seat

section

variable {q : ℕ} {G : Type} [AddCommGroup G] [Module (ZMod q) G] [DecidableEq G]

/-- `CandidateShuffleLedgerOptions`, apart from the verifier. -/
structure CandidateShuffleLedgerOptions (P : Primitives q G) where
  setup : SetupEnvelopeCoordinator P
  roster : RosterBody
  round : ℕ
  deckSpec : DeckSpec

/-- `CandidateShuffleLedger`, with the aggregate key of its completed setup. -/
structure CandidateShuffleLedger (G : Type) where
  roster : RosterBody
  round : ℕ
  aggregateKey : G
  deck : List (MaskedCard G)
  seat : ℕ
  busy : Bool
  closed : Bool
  accepted : List SignedEnvelope

/-- The place of a call of `accept`: it awaits the verifier, or the receipt of a shuffle or of a
duplicate. -/
inductive AcceptStage (G : Type) where
  | verifying (statement : CandidateShuffleStatement36 G)
  | receiving (statement : Option (CandidateShuffleStatement36 G))

/-- A call of `accept` that is in progress. -/
structure PendingAccept (G : Type) where
  captured : SignedEnvelope
  stage : AcceptStage G

variable (P : Primitives q G) (ed : Ed25519) (hashRosterBody : RosterBody → Hash256)

/-! ## The body of a shuffle -/

/-- The statement and the proof in the body of a SHUFFLE. -/
def shuffleBody (body : CborValue) : Except ShuffleLedgerError (List UInt8 × List UInt8) :=
  match body with
  | .map entries => do
      let keys := (entries.map Prod.fst).mergeSort fun a b => decide (a ≤ b)
      throwIf (",".intercalate keys ≠ "proof,statement") (.message "Invalid candidate shuffle body")
      match field entries "statement", field entries "proof" with
      | .bytes statement, .bytes proof => return (statement, proof)
      | _, _ => throw (.message "Invalid candidate shuffle body bytes")
  | _ => throw (.message "Invalid candidate shuffle body")

/-- The statement of a SHUFFLE whose proof is well formed. -/
def shuffleStatement (body : CborValue) :
    Except ShuffleLedgerError (CandidateShuffleStatement36 G) := do
  let (statementBytes, proofBytes) ← shuffleBody body
  let statement ← (decodeCandidateShuffleStatement36 P statementBytes).mapError .codec
  let _ ← (decodeCandidateShuffleProof36 P proofBytes).mapError .codec
  return statement

/-! ## The ledger -/

namespace CandidateShuffleLedger

variable {P} in
/-- `new CandidateShuffleLedger`. -/
def create (options : CandidateShuffleLedgerOptions P) :
    Except ShuffleLedgerError (CandidateShuffleLedger G) :=
  match options.setup.state, options.setup.setup.aggregateKey with
  | .complete, some aggregateKey => do
      throwIf (options.roster.seats.length ≠ 4 ∨ options.setup.roster.seats.length ≠ 4 ∨
          options.roster.gameId ≠ options.setup.gameId ∨
          options.roster.seats ≠ options.setup.roster.seats)
        (.message "Shuffle roster differs from setup")
      throwIf (MAX_SAFE_INTEGER < options.round ∨ options.round < options.setup.round)
        (.message "Invalid shuffle round")
      let table ← (P.cardPointTable options.deckSpec).mapError .deck
      throwIf (table.size ≠ 36) (.message "Candidate shuffle requires 36 cards")
      return ⟨options.roster, options.round, aggregateKey, table.initialDeck, 0, false, false, []⟩
  | _, _ => throw (.message "Shuffle requires completed setup")

/-- `nextSeat`. -/
def nextSeat (ledger : CandidateShuffleLedger G) : Option ℕ :=
  if ledger.seat = 4 then none else some ledger.seat

/-- `complete`. -/
def complete (ledger : CandidateShuffleLedger G) : Bool := !ledger.closed && ledger.seat == 4

/-- `close`. -/
def close (ledger : CandidateShuffleLedger G) : CandidateShuffleLedger G :=
  { ledger with closed := true }

/-- The statement that `nextStatement` encodes. -/
def template (ledger : CandidateShuffleLedger G) : CandidateShuffleStatement36 G :=
  ⟨ledger.roster.gameId, ledger.round, ledger.seat, hashRosterBody ledger.roster,
    ledger.aggregateKey, ledger.deck, ledger.deck⟩

/-- `nextStatement`. -/
def nextStatement (ledger : CandidateShuffleLedger G) :
    Except ShuffleLedgerError (List UInt8) := do
  throwIf (ledger.closed = true ∨ ledger.seat = 4)
    (.message "Shuffle ledger is closed or complete")
  (encodeCandidateShuffleStatement36 P (ledger.template hashRosterBody)).mapError .codec

/-- The comparison of a statement with the next one, apart from the output deck. -/
def requireExtends (ledger : CandidateShuffleLedger G)
    (statement : CandidateShuffleStatement36 G) (message : String) :
    Except ShuffleLedgerError Unit := do
  let next ← ledger.nextStatement P hashRosterBody
  let expected ← (decodeCandidateShuffleStatement36 P next).mapError .codec
  let left ← (encodeCandidateShuffleStatement36 P
    { statement with outputDeck := expected.outputDeck }).mapError .codec
  let right ← (encodeCandidateShuffleStatement36 P expected).mapError .codec
  throwIf (left ≠ right) (.message message)

/-- The envelope is the shuffle of the next seat of this round. -/
def InScope (ledger : CandidateShuffleLedger G) (e : SignedEnvelope) : Prop :=
  e.type = .SHUFFLE ∧ e.game = ledger.roster.gameId ∧ e.round = ledger.round ∧
    e.phase = shufflePhase ledger.round ledger.seat ∧
    ledger.roster.seats[ledger.seat]? = some e.from_

instance (ledger : CandidateShuffleLedger G) (e : SignedEnvelope) :
    Decidable (ledger.InScope e) :=
  inferInstanceAs (Decidable (_ ∧ _))

/-- `accept` up to its first `await`. -/
def beginAccept (ledger : CandidateShuffleLedger G) (bytes : SignedEnvelope) :
    Except ShuffleLedgerError (PendingAccept G × CandidateShuffleLedger G) := do
  throwIf (ledger.closed = true) (.message "Shuffle ledger is closed")
  throwIf (ledger.busy = true) (.message "Shuffle verification is busy")
  throwIf (MAX_SHUFFLE_ENVELOPE_BYTES < bytes.byteLength) (.message "Invalid shuffle envelope size")
  let captured ← (verifyArtifact ed bytes).mapError .envelope
  if captured ∈ ledger.accepted then
    return (⟨captured, .receiving none⟩, { ledger with busy := true })
  else do
    throwIf (ledger.seat = 4) (.message "Shuffle chain is complete")
    throwIf (¬ ledger.InScope captured) (.message "Wrong shuffle envelope scope or sender")
    let statement ← shuffleStatement P captured.body
    ledger.requireExtends P hashRosterBody statement
      "Shuffle statement does not extend admitted state"
    return (⟨captured, .verifying statement⟩, { ledger with busy := true })

/-- `finally`. -/
def release (ledger : CandidateShuffleLedger G) : CandidateShuffleLedger G :=
  { ledger with busy := false }

/-- `accept` after the verifier has answered, or thrown: the barrier of the owner is next. -/
def verified (ledger : CandidateShuffleLedger G) (answer : Option Bool) :
    Except ShuffleLedgerError Unit :=
  match answer with
  | none => throw .verifier
  | some answer => do
      throwIf (answer = false) (.message "Invalid shuffle proof")
      throwIf (ledger.closed = true) (.message "Shuffle ledger closed during verification")

/-- `accept` after the barrier of the owner has resolved, or thrown. -/
def received (ledger : CandidateShuffleLedger G) (captured : SignedEnvelope)
    (statement : Option (CandidateShuffleStatement36 G)) (resolved : Bool) :
    Except ShuffleLedgerError (ShuffleAcceptance × CandidateShuffleLedger G) := do
  throwIf (resolved = false) .receipt
  throwIf (ledger.closed = true) (.message "Shuffle ledger closed during receipt")
  match statement with
  | none => return (.duplicate, ledger)
  | some statement => return (.accepted, { ledger with
      deck := statement.outputDeck
      accepted := ledger.accepted ++ [captured]
      seat := ledger.seat + 1 })

end CandidateShuffleLedger

/-! ## Calls in progress -/

/-- A ledger with the calls of `accept` that are in progress. -/
structure ShuffleMachine (G : Type) where
  ledger : CandidateShuffleLedger G
  calls : List (PendingAccept G)

/-- What happens to a ledger: a call of `accept` or `close`, or an answer for a call that is in
progress, of the verifier (`none` when it throws) or of the owner's barrier. -/
inductive ShuffleEvent where
  | accept (bytes : SignedEnvelope)
  | verified (call : ℕ) (answer : Option Bool)
  | received (call : ℕ) (resolved : Bool)
  | close

/-- What becomes of a call at an event: it ends, or it goes on. -/
abbrev ShuffleOutcome := Option (Except ShuffleLedgerError ShuffleAcceptance)

namespace ShuffleMachine

/-- A call ends. -/
def finish (m : ShuffleMachine G) (call : ℕ) (ledger : CandidateShuffleLedger G) :
    ShuffleMachine G :=
  ⟨ledger.release, m.calls.eraseIdx call⟩

/-- The verifier's answer for a call. -/
def onVerified (m : ShuffleMachine G) (call : ℕ) (pending : PendingAccept G)
    (answer : Option Bool) : ShuffleOutcome × ShuffleMachine G :=
  match pending.stage with
  | .receiving _ => (none, m)
  | .verifying statement =>
      match m.ledger.verified answer with
      | .error error => (some (.error error), m.finish call m.ledger)
      | .ok () => (none, { m with
          calls := m.calls.set call ⟨pending.captured, .receiving (some statement)⟩ })

/-- The barrier's answer for a call. -/
def onReceived (m : ShuffleMachine G) (call : ℕ) (pending : PendingAccept G) (resolved : Bool) :
    ShuffleOutcome × ShuffleMachine G :=
  match pending.stage with
  | .verifying _ => (none, m)
  | .receiving statement =>
      match m.ledger.received pending.captured statement resolved with
      | .error error => (some (.error error), m.finish call m.ledger)
      | .ok (acceptance, ledger) => (some (.ok acceptance), m.finish call ledger)

/-- One event. -/
def step (m : ShuffleMachine G) : ShuffleEvent → ShuffleOutcome × ShuffleMachine G
  | .accept bytes =>
      match m.ledger.beginAccept P ed hashRosterBody bytes with
      | .error error => (some (.error error), m)
      | .ok (pending, ledger) => (none, ⟨ledger, m.calls ++ [pending]⟩)
  | .verified call answer =>
      match m.calls[call]? with
      | none => (none, m)
      | some pending => m.onVerified call pending answer
  | .received call resolved =>
      match m.calls[call]? with
      | none => (none, m)
      | some pending => m.onReceived call pending resolved
  | .close => (none, { m with ledger := m.ledger.close })

/-- The machine after some events. -/
def run (m : ShuffleMachine G) (events : List ShuffleEvent) : ShuffleMachine G :=
  events.foldl (fun m event => (m.step P ed hashRosterBody event).2) m

end ShuffleMachine

/-! ## The chain -/

/-- The envelope is the shuffle of a seat: its statement names the seat, the round, the roster and
the key, and starts from this deck. -/
structure ShuffleLink (roster : RosterBody) (round : ℕ) (aggregateKey : G) (seat : ℕ)
    (deck : List (MaskedCard G)) (e : SignedEnvelope) (statement : CandidateShuffleStatement36 G) :
    Prop where
  artifact : e.Artifact ed
  type : e.type = .SHUFFLE
  game : e.game = roster.gameId
  round_eq : e.round = round
  phase : e.phase = shufflePhase round seat
  from_ : roster.seats[seat]? = some e.from_
  decoded : shuffleStatement P e.body = .ok statement
  fields : statement = ⟨roster.gameId, round, seat, hashRosterBody roster, aggregateKey, deck,
    statement.outputDeck⟩

/-- These envelopes lead from the initial deck to this deck, one for each seat: every one starts
from the output deck of the one before. -/
inductive ShuffleChain (roster : RosterBody) (round : ℕ) (aggregateKey : G)
    (initial : List (MaskedCard G)) : List SignedEnvelope → List (MaskedCard G) → Prop where
  | nil : ShuffleChain roster round aggregateKey initial [] initial
  | snoc {accepted : List SignedEnvelope} {deck : List (MaskedCard G)} {e : SignedEnvelope}
      {statement : CandidateShuffleStatement36 G} :
      ShuffleChain roster round aggregateKey initial accepted deck →
      ShuffleLink P ed hashRosterBody roster round aggregateKey accepted.length deck e statement →
      ShuffleChain roster round aggregateKey initial (accepted ++ [e]) statement.outputDeck

namespace CandidateShuffleLedger

/-- The envelope is a link for the next seat of a ledger. -/
def Extends (ledger : CandidateShuffleLedger G) (e : SignedEnvelope)
    (statement : CandidateShuffleStatement36 G) : Prop :=
  ShuffleLink P ed hashRosterBody ledger.roster ledger.round ledger.aggregateKey ledger.seat
    ledger.deck e statement ∧ ledger.seat ≠ 4

variable {P ed hashRosterBody}
variable {ledger next : CandidateShuffleLedger G}

/-- A statement that passes the comparison is the next one, apart from its output deck. -/
theorem requireExtends_eq_ok {statement : CandidateShuffleStatement36 G} {message : String}
    (h : ledger.requireExtends P hashRosterBody statement message = .ok ()) :
    { statement with outputDeck := ledger.deck } = ledger.template hashRosterBody := by
  unfold requireExtends nextStatement at h
  obtain ⟨bytes, hbytes, hrest⟩ := bind_eq_ok.1 h
  obtain ⟨expected, hexpected, hlast⟩ := bind_eq_ok.1 hrest
  obtain ⟨left, hleft, hcompare⟩ := bind_eq_ok.1 hlast
  obtain ⟨right, hright, hsame⟩ := bind_eq_ok.1 hcompare
  have hencode := mapError_eq_ok.1 (check_bind_eq_ok.1 hbytes).2
  have hdecode := mapError_eq_ok.1 hexpected
  rw [decodeCandidateShuffleStatement36_encode hencode, Except.ok.injEq] at hdecode
  rw [← hdecode] at hleft hright
  rw [not_not.1 (throwIf_eq_ok.1 hsame)] at hleft
  exact encodeCandidateShuffleStatement36_inj (mapError_eq_ok.1 hleft) (mapError_eq_ok.1 hright)

/-- What a call of `accept` has found when it comes to its first `await`. -/
theorem beginAccept_eq_ok {bytes : SignedEnvelope} {pending : PendingAccept G}
    (h : ledger.beginAccept P ed hashRosterBody bytes = .ok (pending, next)) :
    ledger.busy = false ∧ next = { ledger with busy := true } ∧ pending.captured = bytes ∧
    (pending.stage = .receiving none ∧ bytes ∈ ledger.accepted ∨
      ∃ statement, pending.stage = .verifying statement ∧
        ledger.Extends P ed hashRosterBody bytes statement) := by
  unfold beginAccept at h
  obtain ⟨-, h⟩ := check_bind_eq_ok.1 h
  obtain ⟨hbusy, h⟩ := check_bind_eq_ok.1 h
  obtain ⟨-, h⟩ := check_bind_eq_ok.1 h
  obtain ⟨captured, hcaptured, h⟩ := bind_eq_ok.1 h
  obtain ⟨hsame, hartifact⟩ := mapError_verifyArtifact_eq_ok.1 hcaptured
  rw [hsame] at h
  refine ⟨by simpa using throwIf_eq_ok.1 hbusy, ?_⟩
  by_cases hknown : bytes ∈ ledger.accepted
  · rw [if_pos hknown] at h
    cases h
    exact ⟨rfl, rfl, .inl ⟨rfl, hknown⟩⟩
  · rw [if_neg hknown] at h
    obtain ⟨hseat, h⟩ := check_bind_eq_ok.1 h
    obtain ⟨hscope, h⟩ := check_bind_eq_ok.1 h
    obtain ⟨statement, hstatement, h⟩ := bind_eq_ok.1 h
    obtain ⟨hextends, h⟩ := check_bind_eq_ok.1 h
    cases h
    obtain ⟨htype, hgame, hround, hphase, hfrom⟩ := not_not.1 (throwIf_eq_ok.1 hscope)
    have hfields := requireExtends_eq_ok hextends
    refine ⟨rfl, rfl, .inr ⟨statement, rfl, ⟨hartifact, htype, hgame, hround, hphase, hfrom,
      hstatement, ?_⟩, throwIf_eq_ok.1 hseat⟩⟩
    calc statement = { ({ statement with outputDeck := ledger.deck } :
          CandidateShuffleStatement36 G) with outputDeck := statement.outputDeck } := rfl
      _ = { ledger.template hashRosterBody with outputDeck := statement.outputDeck } := by
          rw [hfields]

/-- The shuffle of the next seat is taken in, if the next statement can be encoded. -/
theorem beginAccept_of_extends {e : SignedEnvelope} {statement : CandidateShuffleStatement36 G}
    {bytes : List UInt8} (hopen : ledger.closed = false) (hidle : ledger.busy = false)
    (hsize : e.byteLength ≤ MAX_SHUFFLE_ENVELOPE_BYTES) (hnew : e ∉ ledger.accepted)
    (hextends : ledger.Extends P ed hashRosterBody e statement)
    (hbytes : encodeCandidateShuffleStatement36 P (ledger.template hashRosterBody) = .ok bytes) :
    ledger.beginAccept P ed hashRosterBody e
      = .ok (⟨e, .verifying statement⟩, { ledger with busy := true }) := by
  obtain ⟨hlink, hseat⟩ := hextends
  have hverify : (verifyArtifact ed e).mapError ShuffleLedgerError.envelope = .ok e :=
    mapError_verifyArtifact_eq_ok.2 ⟨rfl, hlink.artifact⟩
  have hscope : ledger.InScope e :=
    ⟨hlink.type, hlink.game, hlink.round_eq, hlink.phase, hlink.from_⟩
  have hnext : ledger.nextStatement P hashRosterBody = .ok bytes := by
    unfold nextStatement
    rw [throwIf_neg (by simp [hopen, hseat]), ok_bind, hbytes]
    rfl
  have hleft : { statement with outputDeck := (ledger.template hashRosterBody).outputDeck }
      = ledger.template hashRosterBody := by
    rw [hlink.fields]
    rfl
  have hrequire : ledger.requireExtends P hashRosterBody statement
      "Shuffle statement does not extend admitted state" = .ok () := by
    unfold requireExtends
    rw [hnext, ok_bind]
    simp only [decodeCandidateShuffleStatement36_encode hbytes, Except.mapError, ok_bind, hleft,
      hbytes]
    simp
  unfold beginAccept
  rw [throwIf_neg (by simp [hopen]), ok_bind, throwIf_neg (by simp [hidle]), ok_bind,
    throwIf_neg (not_lt.2 hsize), ok_bind, hverify, ok_bind, if_neg hnew, throwIf_neg hseat, ok_bind,
    throwIf_neg (not_not.2 hscope), ok_bind, hlink.decoded, ok_bind, hrequire]
  rfl

omit [AddCommGroup G] [DecidableEq G] in
theorem verified_eq_ok {answer : Option Bool} :
    ledger.verified answer = .ok () ↔ answer = some true ∧ ledger.closed = false := by
  unfold verified
  cases answer with
  | none => simp
  | some answer => cases answer <;> simp

omit [AddCommGroup G] [DecidableEq G] in
/-- What a call of `accept` does when the barrier has resolved. -/
theorem received_eq_ok {captured : SignedEnvelope} {resolved : Bool}
    {statement : Option (CandidateShuffleStatement36 G)} {acceptance : ShuffleAcceptance}
    (h : ledger.received captured statement resolved = .ok (acceptance, next)) :
    resolved = true ∧ ledger.closed = false ∧
    match statement with
    | none => acceptance = .duplicate ∧ next = ledger
    | some statement => acceptance = .accepted ∧ next = { ledger with
        deck := statement.outputDeck
        accepted := ledger.accepted ++ [captured]
        seat := ledger.seat + 1 } := by
  unfold received at h
  obtain ⟨hresolved, h⟩ := check_bind_eq_ok.1 h
  obtain ⟨hclosed, h⟩ := check_bind_eq_ok.1 h
  refine ⟨by simpa using throwIf_eq_ok.1 hresolved, by simpa using throwIf_eq_ok.1 hclosed, ?_⟩
  cases statement <;>
  · cases h
    exact ⟨rfl, rfl⟩

end CandidateShuffleLedger

/-! ## What holds between the events -/

namespace CandidateShuffleLedger

/-- The accepted shuffles of a ledger are one chain, from this initial deck to its deck. -/
structure Chained (initial : List (MaskedCard G)) (ledger : CandidateShuffleLedger G) : Prop where
  chain : ShuffleChain P ed hashRosterBody ledger.roster ledger.round ledger.aggregateKey initial
    ledger.accepted ledger.deck
  seat_eq : ledger.seat = ledger.accepted.length
  seat_le : ledger.seat ≤ 4

/-- What a call in progress has checked, which still holds. -/
def Checked (ledger : CandidateShuffleLedger G) (call : PendingAccept G) : Prop :=
  match call.stage with
  | .verifying statement | .receiving (some statement) =>
      ledger.Extends P ed hashRosterBody call.captured statement
  | .receiving none => call.captured ∈ ledger.accepted

variable {P ed hashRosterBody}

/-- One more link. -/
theorem Chained.snoc {initial : List (MaskedCard G)} {ledger : CandidateShuffleLedger G}
    {e : SignedEnvelope} {statement : CandidateShuffleStatement36 G}
    (h : ledger.Chained P ed hashRosterBody initial)
    (hextends : ledger.Extends P ed hashRosterBody e statement) :
    Chained P ed hashRosterBody initial { ledger with
      deck := statement.outputDeck
      accepted := ledger.accepted ++ [e]
      seat := ledger.seat + 1 } := by
  obtain ⟨hlink, hseat⟩ := hextends
  have hle := h.seat_le
  refine ⟨.snoc h.chain ?_, ?_, by simp only; omega⟩
  · rw [← h.seat_eq]
    exact hlink
  · rw [List.length_append, List.length_singleton, h.seat_eq]

end CandidateShuffleLedger

namespace ShuffleMachine

/-- The accepted shuffles are a chain, and the ledger is busy exactly while a call is in
progress, which has checked what it holds. -/
structure Invariant (initial : List (MaskedCard G)) (m : ShuffleMachine G) : Prop where
  chained : m.ledger.Chained P ed hashRosterBody initial
  calls : m.calls = [] ∧ m.ledger.busy = false ∨ ∃ call, m.calls = [call] ∧ m.ledger.busy = true ∧
    m.ledger.Checked P ed hashRosterBody call

variable {P ed hashRosterBody}
variable {initial : List (MaskedCard G)} {m : ShuffleMachine G}

/-- What a call that does not accept leaves as it was. -/
def SameChain (m next : ShuffleMachine G) : Prop :=
  next.ledger.deck = m.ledger.deck ∧ next.ledger.seat = m.ledger.seat ∧
    next.ledger.accepted = m.ledger.accepted

/-- The roster, the round and the aggregate key of a ledger. -/
def scope (m : ShuffleMachine G) : RosterBody × ℕ × G :=
  (m.ledger.roster, m.ledger.round, m.ledger.aggregateKey)

/-- What one event does: the chain grows only when a call returns `accepted`, and then the ledger
is not closed; a call that ends leaves the ledger free, if it was not refused at once; and a
closed ledger stays closed. -/
structure Steps (m : ShuffleMachine G) (outcome : ShuffleOutcome) (next : ShuffleMachine G) :
    Prop where
  same : outcome ≠ some (.ok .accepted) → SameChain m next
  open_ : outcome = some (.ok .accepted) → m.ledger.closed = false
  free : outcome ≠ none → next = m ∨ next.ledger.busy = false
  closed : m.ledger.closed = true → next.ledger.closed = true
  scope : next.scope = m.scope

omit [AddCommGroup G] [DecidableEq G] in
theorem Steps.refl (m : ShuffleMachine G) (outcome : ShuffleOutcome)
    (h : outcome ≠ some (.ok .accepted)) : Steps m outcome m :=
  ⟨fun _ => ⟨rfl, rfl, rfl⟩, fun haccepted => absurd haccepted h, fun _ => .inl rfl, id, rfl⟩

/-- The call in progress is the only one. -/
theorem Invariant.of_getElem? (h : m.Invariant P ed hashRosterBody initial) {call : ℕ}
    {pending : PendingAccept G} (hcall : m.calls[call]? = some pending) :
    call = 0 ∧ m.calls = [pending] ∧ m.ledger.busy = true ∧
      m.ledger.Checked P ed hashRosterBody pending := by
  rcases h.calls with ⟨hnone, -⟩ | ⟨only, honly, hbusy, hchecked⟩
  · rw [hnone] at hcall
    cases hcall
  · rw [honly] at hcall
    cases call with
    | zero =>
        cases hcall
        exact ⟨rfl, honly, hbusy, hchecked⟩
    | succ call => cases hcall

theorem Invariant.onVerified (h : m.Invariant P ed hashRosterBody initial) {call : ℕ}
    {pending : PendingAccept G} (hcall : m.calls[call]? = some pending) (answer : Option Bool) :
    (m.onVerified call pending answer).2.Invariant P ed hashRosterBody initial ∧
      Steps m (m.onVerified call pending answer).1 (m.onVerified call pending answer).2 := by
  obtain ⟨rfl, hcalls, hbusy, hchecked⟩ := h.of_getElem? hcall
  unfold ShuffleMachine.onVerified
  unfold CandidateShuffleLedger.Checked at hchecked
  cases hstage : pending.stage with
  | receiving statement => exact ⟨h, .refl m _ (by simp)⟩
  | verifying statement =>
      rw [hstage] at hchecked
      simp only
      cases hverified : m.ledger.verified answer with
      | error error =>
          refine ⟨⟨⟨h.chained.chain, h.chained.seat_eq, h.chained.seat_le⟩, .inl ⟨?_, rfl⟩⟩,
            fun _ => ⟨rfl, rfl, rfl⟩, by simp, fun _ => .inr rfl, id, rfl⟩
          simp [finish, hcalls]
      | ok _ =>
          refine ⟨⟨h.chained, .inr ⟨⟨pending.captured, .receiving (some statement)⟩, ?_, hbusy,
            hchecked⟩⟩, fun _ => ⟨rfl, rfl, rfl⟩, by simp, by simp, id, rfl⟩
          simp [hcalls]

theorem Invariant.onReceived (h : m.Invariant P ed hashRosterBody initial) {call : ℕ}
    {pending : PendingAccept G} (hcall : m.calls[call]? = some pending) (resolved : Bool) :
    (m.onReceived call pending resolved).2.Invariant P ed hashRosterBody initial ∧
      Steps m (m.onReceived call pending resolved).1 (m.onReceived call pending resolved).2 := by
  obtain ⟨rfl, hcalls, hbusy, hchecked⟩ := h.of_getElem? hcall
  have hfree : m.calls.eraseIdx 0 = [] := by simp [hcalls]
  unfold ShuffleMachine.onReceived
  unfold CandidateShuffleLedger.Checked at hchecked
  cases hstage : pending.stage with
  | verifying statement => exact ⟨h, .refl m _ (by simp)⟩
  | receiving statement =>
      rw [hstage] at hchecked
      simp only
      cases hreceived : m.ledger.received pending.captured statement resolved with
      | error error =>
          exact ⟨⟨⟨h.chained.chain, h.chained.seat_eq, h.chained.seat_le⟩, .inl ⟨hfree, rfl⟩⟩,
            fun _ => ⟨rfl, rfl, rfl⟩, by simp, fun _ => .inr rfl, id, rfl⟩
      | ok result =>
          obtain ⟨acceptance, next⟩ := result
          obtain ⟨-, hopen, hresult⟩ := CandidateShuffleLedger.received_eq_ok hreceived
          cases statement with
          | none =>
              obtain ⟨rfl, rfl⟩ := hresult
              exact ⟨⟨⟨h.chained.chain, h.chained.seat_eq, h.chained.seat_le⟩,
                .inl ⟨hfree, rfl⟩⟩, fun _ => ⟨rfl, rfl, rfl⟩, by simp, fun _ => .inr rfl, id, rfl⟩
          | some statement =>
              obtain ⟨rfl, rfl⟩ := hresult
              obtain ⟨hchain, hseat, hle⟩ := h.chained.snoc hchecked
              exact ⟨⟨⟨hchain, hseat, hle⟩, .inl ⟨hfree, rfl⟩⟩, by simp, fun _ => hopen,
                fun _ => .inr rfl, id, rfl⟩

/-- Every event keeps the invariant. -/
theorem Invariant.step (h : m.Invariant P ed hashRosterBody initial) (event : ShuffleEvent) :
    (m.step P ed hashRosterBody event).2.Invariant P ed hashRosterBody initial ∧
      Steps m (m.step P ed hashRosterBody event).1 (m.step P ed hashRosterBody event).2 := by
  unfold ShuffleMachine.step
  cases event with
  | accept bytes =>
      simp only
      cases hbegin : m.ledger.beginAccept P ed hashRosterBody bytes with
      | error error => exact ⟨h, .refl m _ (by simp)⟩
      | ok result =>
          obtain ⟨pending, next⟩ := result
          obtain ⟨hfree, rfl, hcaptured, hstage⟩ := CandidateShuffleLedger.beginAccept_eq_ok hbegin
          have hcalls : m.calls = [] := by
            rcases h.calls with ⟨hnone, -⟩ | ⟨-, -, hbusy, -⟩
            · exact hnone
            · rw [hfree] at hbusy
              cases hbusy
          refine ⟨⟨⟨h.chained.chain, h.chained.seat_eq, h.chained.seat_le⟩,
            .inr ⟨pending, by simp [hcalls], rfl, ?_⟩⟩, fun _ => ⟨rfl, rfl, rfl⟩, by simp,
            by simp, id, rfl⟩
          unfold CandidateShuffleLedger.Checked
          rcases hstage with ⟨hstage, hknown⟩ | ⟨statement, hstage, hextends⟩
          · rw [hstage, hcaptured]
            exact hknown
          · rw [hstage, hcaptured]
            exact hextends
  | verified call answer =>
      simp only
      cases hcall : m.calls[call]? with
      | none => exact ⟨h, .refl m _ (by simp)⟩
      | some pending => exact h.onVerified hcall answer
  | received call resolved =>
      simp only
      cases hcall : m.calls[call]? with
      | none => exact ⟨h, .refl m _ (by simp)⟩
      | some pending => exact h.onReceived hcall resolved
  | close =>
      refine ⟨⟨⟨h.chained.chain, h.chained.seat_eq, h.chained.seat_le⟩, ?_⟩,
        fun _ => ⟨rfl, rfl, rfl⟩, by simp, by simp, fun _ => rfl, rfl⟩
      rcases h.calls with hnone | ⟨call, hcalls, hbusy, hchecked⟩
      · exact .inl hnone
      · exact .inr ⟨call, hcalls, hbusy, hchecked⟩

theorem run_append (m : ShuffleMachine G) (before after : List ShuffleEvent) :
    m.run P ed hashRosterBody (before ++ after) =
      (m.run P ed hashRosterBody before).run P ed hashRosterBody after :=
  List.foldl_append

theorem Invariant.run (h : m.Invariant P ed hashRosterBody initial) (events : List ShuffleEvent) :
    (m.run P ed hashRosterBody events).Invariant P ed hashRosterBody initial ∧
      (m.run P ed hashRosterBody events).scope = m.scope := by
  induction events generalizing m with
  | nil => exact ⟨h, rfl⟩
  | cons event rest ih =>
      obtain ⟨hnext, hsteps⟩ := h.step event
      obtain ⟨hrun, hscope⟩ := ih hnext
      exact ⟨hrun, hscope.trans hsteps.scope⟩

/-- Nothing is accepted after `close`. -/
theorem Invariant.run_closed (h : m.Invariant P ed hashRosterBody initial)
    (hclosed : m.ledger.closed = true) (events : List ShuffleEvent) :
    SameChain m (m.run P ed hashRosterBody events) := by
  induction events generalizing m with
  | nil => exact ⟨rfl, rfl, rfl⟩
  | cons event rest ih =>
      obtain ⟨hnext, hsteps⟩ := h.step event
      obtain ⟨hdeck, hseat, haccepted⟩ := ih hnext (hsteps.closed hclosed)
      have hsame := hsteps.same fun hout => by
        rw [hsteps.open_ hout] at hclosed
        cases hclosed
      exact ⟨hdeck.trans hsame.1, hseat.trans hsame.2.1, haccepted.trans hsame.2.2⟩

end ShuffleMachine

variable {P ed hashRosterBody}

/-- What a new ledger starts from. -/
theorem CandidateShuffleLedger.create_eq_ok {options : CandidateShuffleLedgerOptions P}
    {ledger : CandidateShuffleLedger G} (h : create options = .ok ledger) :
    ∃ table aggregateKey, options.setup.setup.aggregateKey = some aggregateKey ∧
      P.cardPointTable options.deckSpec = .ok table ∧
      ledger = ⟨options.roster, options.round, aggregateKey, table.initialDeck, 0, false, false, []⟩ ∧
      options.roster.seats.length = 4 := by
  unfold create at h
  split at h
  · rename_i aggregateKey _ hkey
    obtain ⟨hroster, h⟩ := check_bind_eq_ok.1 h
    obtain ⟨-, h⟩ := check_bind_eq_ok.1 h
    obtain ⟨table, htable, h⟩ := bind_eq_ok.1 h
    obtain ⟨-, h⟩ := check_bind_eq_ok.1 h
    cases h
    have hseats : options.roster.seats.length = 4 := by
      by_contra hne
      exact throwIf_eq_ok.1 hroster (.inl hne)
    exact ⟨table, aggregateKey, hkey, mapError_eq_ok.1 htable, rfl, hseats⟩
  · cases h

theorem CandidateShuffleLedger.create_invariant {options : CandidateShuffleLedgerOptions P}
    {ledger : CandidateShuffleLedger G} (h : create options = .ok ledger) :
    ShuffleMachine.Invariant P ed hashRosterBody ledger.deck ⟨ledger, []⟩ := by
  obtain ⟨table, aggregateKey, -, -, rfl, -⟩ := create_eq_ok h
  exact ⟨⟨.nil, rfl, Nat.zero_le _⟩, .inl ⟨rfl, rfl⟩⟩

variable (P ed hashRosterBody)

/-- **The shuffle ledger is one unbroken chain.**  After any calls of `accept` and `close` and any
answers of verifiers and owners, in any order, the accepted shuffles lead from the initial deck to
the current one, one for each seat in turn.  The ledger is busy only while a call is in progress;
only a call that returns `accepted` changes the chain, and none does after `close`. -/
theorem shuffle_ledger_chain (options : CandidateShuffleLedgerOptions P)
    (ledger : CandidateShuffleLedger G)
    (hcreate : CandidateShuffleLedger.create options = .ok ledger) (events : List ShuffleEvent)
    (m : ShuffleMachine G)
    (hrun : ShuffleMachine.run P ed hashRosterBody ⟨ledger, []⟩ events = m) :
    (m.ledger.seat = m.ledger.accepted.length ∧ m.ledger.seat ≤ 4) ∧
    (∃ table aggregateKey, P.cardPointTable options.deckSpec = .ok table ∧
      options.setup.setup.aggregateKey = some aggregateKey ∧
      ShuffleChain P ed hashRosterBody options.roster options.round aggregateKey table.initialDeck
        m.ledger.accepted m.ledger.deck) ∧
    (m.calls.length ≤ 1 ∧ (m.ledger.busy = true ↔ m.calls ≠ [])) ∧
    (∀ before event after, events = before ++ event :: after →
      let earlier := ShuffleMachine.run P ed hashRosterBody ⟨ledger, []⟩ before
      (earlier.step P ed hashRosterBody event).2 =
        ShuffleMachine.run P ed hashRosterBody ⟨ledger, []⟩ (before ++ [event]) ∧
      ShuffleMachine.Steps earlier (earlier.step P ed hashRosterBody event).1
        (earlier.step P ed hashRosterBody event).2) ∧
    ∀ before after, events = before ++ after →
      (ShuffleMachine.run P ed hashRosterBody ⟨ledger, []⟩ before).ledger.closed = true →
      ShuffleMachine.SameChain (ShuffleMachine.run P ed hashRosterBody ⟨ledger, []⟩ before) m := by
  have hstart : ShuffleMachine.Invariant P ed hashRosterBody ledger.deck ⟨ledger, []⟩ :=
    CandidateShuffleLedger.create_invariant hcreate
  obtain ⟨hinvariant, hscope⟩ := hstart.run events
  rw [hrun] at hinvariant hscope
  obtain ⟨table, aggregateKey, hkey, htable, hledger, -⟩ :=
    CandidateShuffleLedger.create_eq_ok hcreate
  refine ⟨⟨hinvariant.chained.seat_eq, hinvariant.chained.seat_le⟩, ?_, ?_, ?_, ?_⟩
  · have hchain := hinvariant.chained.chain
    simp only [ShuffleMachine.scope, hledger, Prod.mk.injEq] at hscope
    obtain ⟨hroster, hround, hkeys⟩ := hscope
    rw [hroster, hround, hkeys, hledger] at hchain
    exact ⟨table, aggregateKey, htable, hkey, hchain⟩
  · rcases hinvariant.calls with ⟨hcalls, hbusy⟩ | ⟨call, hcalls, hbusy, -⟩
    · simp [hcalls, hbusy]
    · simp [hcalls, hbusy]
  · rintro before event after -
    rw [ShuffleMachine.run_append]
    exact ⟨rfl, ((hstart.run before).1.step event).2⟩
  · rintro before after rfl hclosed
    rw [ShuffleMachine.run_append] at hrun
    rw [← hrun]
    exact (hstart.run before).1.run_closed hclosed after

end

/-! ## A small ledger -/

namespace SmallGroup

/-- The point of a card is given by its first character. -/
def firstCharacter (id : String) : ZMod 41 := ((id.toList.headD 'a').toNat : ZMod 41)

/-- Four seats. -/
def shuffleRoster : Roster (primitives firstCharacter) :=
  ⟨[padded 32 [1], padded 32 [2], padded 32 [3], padded 32 [4]], by decide, by decide, by decide,
    fun _ _ => rfl⟩

/-- The keys of the four seats. -/
def shuffleKeys : List SignedEnvelope := (List.range 4).map fun seat => keyEnvelope seat 0

/-- The setup that they complete. -/
def shuffleSetup : SetupEnvelopeCoordinator (primitives firstCharacter) :=
  let started : SetupEnvelopeCoordinator (primitives firstCharacter) :=
    ⟨game, 1, shuffleRoster, false, ⟨game, 1, 4, false, fun _ => none, .keys, none, none⟩⟩
  match started.ingestAll shuffleKeys with
  | .ok (live, _) => live
  | .error _ => started

/-- 36 cards for these seats. -/
def shuffleOptions : CandidateShuffleLedgerOptions (primitives firstCharacter) where
  setup := shuffleSetup
  roster := ⟨game, padded 32 [], padded 32 [], shuffleRoster.seats, by decide, by decide, by decide⟩
  round := 1
  deckSpec := ⟨"small", (List.range 36).map fun n => String.ofList [Char.ofNat (48 + n)]⟩

/-- Their ledger. -/
def shuffleLedger : CandidateShuffleLedger (ZMod 41) :=
  match CandidateShuffleLedger.create shuffleOptions with
  | .ok ledger => ledger
  | .error _ => ⟨shuffleOptions.roster, 1, 0, [], 0, false, false, []⟩

theorem exists_of_isOk {ε α : Type} {result : Except ε α} (h : result.isOk = true) :
    ∃ value, result = .ok value := by
  cases result with
  | error error => cases h
  | ok value => exact ⟨value, rfl⟩

theorem create_shuffleOptions :
    CandidateShuffleLedger.create shuffleOptions = .ok shuffleLedger := by
  have hok : (CandidateShuffleLedger.create shuffleOptions).isOk = true := by decide +kernel
  obtain ⟨ledger, hcreate⟩ := exists_of_isOk hok
  unfold shuffleLedger
  rw [hcreate]

/-- A proof of the right form. -/
def smallProof : List UInt8 :=
  proofHeader ++ (List.replicate 106 (0x58 :: 32 :: (residueBytes 1).val)).flatten

/-- The statement of the next shuffle: the deck is turned around, and every card masked anew. -/
def nextStatementOf (ledger : CandidateShuffleLedger (ZMod 41)) :
    CandidateShuffleStatement36 (ZMod 41) :=
  { ledger.template (fun body => body.rulesHash) with
    outputDeck := ledger.deck.reverse.map fun card =>
      ⟨card.A + 1, card.B + ledger.aggregateKey⟩ }

def statementBytesOf (statement : CandidateShuffleStatement36 (ZMod 41)) : List UInt8 :=
  (encodeCandidateShuffleStatement36 (primitives firstCharacter) statement).toOption.getD []

/-- The next shuffle, after the key of its sender. -/
def nextShuffle (ledger : CandidateShuffleLedger (ZMod 41)) : SignedEnvelope where
  game := ledger.roster.gameId
  from_ := ledger.roster.seats.getD ledger.seat (padded 32 [])
  seq := 1
  prev := (primitives firstCharacter).hashEnvelope (keyEnvelope ledger.seat 0)
  round := ledger.round
  phase := shufflePhase ledger.round ledger.seat
  type := .SHUFFLE
  body := .map [("proof", .bytes smallProof),
    ("statement", .bytes (statementBytesOf (nextStatementOf ledger)))]
  sig := zeroBytes 64

/-- The ledger with one more shuffle. -/
def shuffled (ledger : CandidateShuffleLedger (ZMod 41)) : CandidateShuffleLedger (ZMod 41) :=
  { ledger with
    deck := (nextStatementOf ledger).outputDeck
    accepted := ledger.accepted ++ [nextShuffle ledger]
    seat := ledger.seat + 1 }

/-- The next shuffle is well formed, as far as this can be computed. -/
def shuffleFits (ledger : CandidateShuffleLedger (ZMod 41)) : Bool :=
  (verifyArtifact ed25519 (nextShuffle ledger)).isOk && decide (ledger.InScope (nextShuffle ledger)) &&
    decide ((nextShuffle ledger).byteLength ≤ MAX_SHUFFLE_ENVELOPE_BYTES) &&
    (encodeCandidateShuffleStatement36 (primitives firstCharacter) (nextStatementOf ledger)).isOk &&
    (encodeCandidateShuffleStatement36 (primitives firstCharacter)
      (ledger.template fun body => body.rulesHash)).isOk

theorem smallProof_decodes :
    (decodeCandidateShuffleProof36 (primitives firstCharacter) smallProof).isOk = true := by
  decide +kernel

theorem shuffleBody_pair (statement proof : List UInt8) :
    shuffleBody (.map [("proof", .bytes proof), ("statement", .bytes statement)])
      = .ok (statement, proof) := by
  have hsort : (["proof", "statement"] : List String).mergeSort (fun a b => decide (a ≤ b))
      = ["proof", "statement"] := List.mergeSort_of_pairwise (by decide)
  unfold shuffleBody
  simp only [List.map_cons, List.map_nil]
  rw [hsort, throwIf_neg (by decide), ok_bind]
  rfl

theorem beginAccept_nextShuffle {ledger : CandidateShuffleLedger (ZMod 41)}
    (hopen : ledger.closed = false) (hidle : ledger.busy = false) (hseat : ledger.seat ≠ 4)
    (hnew : nextShuffle ledger ∉ ledger.accepted) (hfits : shuffleFits ledger = true) :
    ledger.beginAccept (primitives firstCharacter) ed25519 (fun body => body.rulesHash)
      (nextShuffle ledger) = .ok (⟨nextShuffle ledger, .verifying (nextStatementOf ledger)⟩,
        { ledger with busy := true }) := by
  unfold shuffleFits at hfits
  simp only [Bool.and_eq_true, decide_eq_true_eq] at hfits
  obtain ⟨⟨⟨⟨hverify, hscope⟩, hsize⟩, hstatement⟩, htemplate⟩ := hfits
  obtain ⟨artifact, hverify⟩ := exists_of_isOk hverify
  obtain ⟨statementBytes, hstatement⟩ := exists_of_isOk hstatement
  obtain ⟨templateBytes, htemplate⟩ := exists_of_isOk htemplate
  obtain ⟨elements, hproof⟩ := exists_of_isOk smallProof_decodes
  obtain ⟨htype, hgame, hround, hphase, hfrom⟩ := hscope
  refine CandidateShuffleLedger.beginAccept_of_extends hopen hidle hsize hnew
    ⟨⟨(verifyArtifact_eq_ok.1 hverify).2, htype, hgame, hround, hphase, hfrom, ?_, rfl⟩, hseat⟩
    htemplate
  have hbytes : statementBytesOf (nextStatementOf ledger) = statementBytes := by
    unfold statementBytesOf
    rw [hstatement]
    rfl
  unfold shuffleStatement nextShuffle
  simp only
  rw [hbytes, shuffleBody_pair, ok_bind]
  simp only
  rw [decodeCandidateShuffleStatement36_encode hstatement, hproof]
  rfl

/-- A shuffle is offered, verified and kept. -/
def shuffleOnce (ledger : CandidateShuffleLedger (ZMod 41)) : List ShuffleEvent :=
  [.accept (nextShuffle ledger), .verified 0 (some true), .received 0 true]

theorem run_shuffleOnce {ledger : CandidateShuffleLedger (ZMod 41)}
    (hopen : ledger.closed = false) (hidle : ledger.busy = false) (hseat : ledger.seat ≠ 4)
    (hnew : nextShuffle ledger ∉ ledger.accepted) (hfits : shuffleFits ledger = true) :
    ShuffleMachine.run (primitives firstCharacter) ed25519 (fun body => body.rulesHash) ⟨ledger, []⟩
      (shuffleOnce ledger) = ⟨shuffled ledger, []⟩ := by
  have hbegin := beginAccept_nextShuffle hopen hidle hseat hnew hfits
  have hverified : ({ ledger with busy := true } : CandidateShuffleLedger (ZMod 41)).verified
      (some true) = .ok () := CandidateShuffleLedger.verified_eq_ok.2 ⟨rfl, hopen⟩
  have hreceived : ({ ledger with busy := true } : CandidateShuffleLedger (ZMod 41)).received
      (nextShuffle ledger) (some (nextStatementOf ledger)) true
        = .ok (.accepted, { shuffled ledger with busy := true }) := by
    unfold CandidateShuffleLedger.received
    rw [throwIf_neg (by simp), ok_bind, throwIf_neg (by simp [hopen]), ok_bind]
    rfl
  have hend : ({ shuffled ledger with busy := true } : CandidateShuffleLedger (ZMod 41)).release
      = shuffled ledger := by
    unfold CandidateShuffleLedger.release shuffled
    rw [hidle]
  unfold shuffleOnce ShuffleMachine.run
  simp only [List.foldl_cons, List.foldl_nil, ShuffleMachine.step, hbegin, List.nil_append,
    List.getElem?_cons_zero, ShuffleMachine.onVerified, hverified, List.set_cons_zero,
    ShuffleMachine.onReceived, hreceived, ShuffleMachine.finish, hend, List.eraseIdx_cons_zero]

end SmallGroup

open SmallGroup in
/-- Two seats shuffle. -/
theorem shuffle_ledger_chain_small : ∃ m,
    ShuffleMachine.run (primitives firstCharacter) ed25519 (fun body => body.rulesHash)
      ⟨shuffleLedger, []⟩ (shuffleOnce shuffleLedger ++ shuffleOnce (shuffled shuffleLedger)) = m ∧
    m.ledger.accepted = [nextShuffle shuffleLedger, nextShuffle (shuffled shuffleLedger)] ∧
    ∃ table aggregateKey, ShuffleChain (primitives firstCharacter) ed25519
      (fun body => body.rulesHash) shuffleOptions.roster shuffleOptions.round aggregateKey
      (CardPointTable.initialDeck table) m.ledger.accepted m.ledger.deck := by
  have hstart : shuffleLedger.closed = false ∧ shuffleLedger.busy = false ∧ shuffleLedger.seat = 0 ∧
      shuffleLedger.accepted = [] := by
    obtain ⟨table, aggregateKey, -, -, hledger, -⟩ :=
      CandidateShuffleLedger.create_eq_ok create_shuffleOptions
    rw [hledger]
    exact ⟨rfl, rfl, rfl, rfl⟩
  obtain ⟨hopen, hidle, hseat, hnone⟩ := hstart
  have hfirst := run_shuffleOnce hopen hidle (by omega) (by simp [hnone]) (by decide +kernel)
  have hnew : nextShuffle (shuffled shuffleLedger) ∉ (shuffled shuffleLedger).accepted := by
    have hsenders : (nextShuffle (shuffled shuffleLedger)).from_ ≠ (nextShuffle shuffleLedger).from_ := by
      decide +kernel
    unfold shuffled at hsenders ⊢
    rw [hnone]
    simp only [List.nil_append, List.mem_singleton]
    exact fun heq => hsenders (congrArg (fun e => e.from_) heq)
  have hsecond := @run_shuffleOnce (shuffled shuffleLedger) hopen hidle
    (by unfold shuffled; simp only; omega) hnew (by decide +kernel)
  have hrun : ShuffleMachine.run (primitives firstCharacter) ed25519 (fun body => body.rulesHash)
      ⟨shuffleLedger, []⟩ (shuffleOnce shuffleLedger ++ shuffleOnce (shuffled shuffleLedger))
      = ⟨shuffled (shuffled shuffleLedger), []⟩ := by
    rw [ShuffleMachine.run_append, hfirst, hsecond]
  obtain ⟨-, ⟨table, aggregateKey, -, -, hchain⟩, -⟩ := shuffle_ledger_chain
    (primitives firstCharacter) ed25519 (fun body => body.rulesHash) shuffleOptions shuffleLedger
    create_shuffleOptions _ _ hrun
  refine ⟨_, hrun, ?_, table, aggregateKey, hchain⟩
  unfold shuffled
  simp only
  rw [hnone]
  rfl

end Tablefolk
