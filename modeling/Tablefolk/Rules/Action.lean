import Tablefolk.Protocol.Cbor
import Tablefolk.Rules.Progress

/-!
# Decoding a Sasku action

The model of `rules-sasku/src/action.ts`.  The actor and the revealed cards come from
the reveal ledger, the kind and the data from the body of the envelope.

* `decodeSaskuAction_seat` and `decodeSaskuAction_play`: the decoded action belongs to
  the actor, and a play names the one card that was revealed.
* `decodeSaskuAction_intent`: the wire form of an action decodes to that action.
-/

namespace Tablefolk

/-- `Object.keys(data).sort().join(",")`. -/
def dataKeys (data : CborRecord) : String :=
  ",".intercalate ((data.map Prod.fst).insertionSort (· ≤ ·))

def playMessage : String :=
  "A Sasku play requires empty data and exactly one matching revealed position from 0 through 35"

/-- The value of a `bid` that passes its check. -/
def bidValueOf (value : CborValue) : Option BidValue :=
  match value with
  | .int number =>
      if h : 3 ≤ number ∧ number ≤ 9 then
        some ⟨number.toNat, three_le_toNat h, toNat_le_nine h⟩
      else none
  | _ => none

/-- The suit of a `choose_trump` that passes its check. -/
def suitOf (value : CborValue) : Option SaskuSuit :=
  match value with
  | .text text => saskuSuitOf text
  | _ => none

/-- `decodeSaskuAction`, on an actor that is a number and a reveal that is a list of
positions.  `revealed` has one entry for each key of the source's object. -/
def decodeSaskuAction (actor : ℕ) (kind : String) (data : CborValue) (reveal : List ℕ)
    (revealed : List (ℕ × SaskuCardId)) : Except SaskuError SaskuHandAction :=
  if hactor : 3 < actor then .error (.hand "Seat must be zero through three" none)
  else
  let seat : SaskuSeat := ⟨actor, by omega⟩
  match data with
  | .map data =>
      if kind = "play" then
        match reveal, revealed with
        | [pos], [(position, card)] =>
            if dataKeys data ≠ "" ∨ 35 < pos ∨ position ≠ pos then
              .error (.hand playMessage none)
            else .ok (.play seat card)
        | _, _ => .error (.hand playMessage none)
      else if reveal ≠ [] ∨ revealed ≠ [] then
        .error (.hand "Sasku auction actions cannot reveal cards" none)
      else if kind = "pass" ∧ dataKeys data = "" then .ok (.pass seat)
      else if kind = "diamonds" ∧ dataKeys data = "" then .ok (.diamonds seat)
      else if kind = "bid" ∧ dataKeys data = "value" then
        match bidValueOf (field data "value") with
        | some value => .ok (.bid seat value)
        | none => .error (.hand "Invalid Sasku action kind or data" none)
      else if kind = "choose_trump" ∧ dataKeys data = "suit" then
        match suitOf (field data "suit") with
        | some suit => .ok (.choose_trump seat suit)
        | none => .error (.hand "Invalid Sasku action kind or data" none)
      else .error (.hand "Invalid Sasku action kind or data" none)
  | _ => .error
      (.hand "Sasku action requires kind, data, reveal, and a revealed-card map" none)

/-! ## What is decoded -/

section

variable {actor : ℕ} {kind : String} {data : CborValue} {reveal : List ℕ}
  {revealed : List (ℕ × SaskuCardId)} {action : SaskuHandAction}

/-- What was decoded: an action of the actor, and a play of the one revealed card. -/
inductive Decoded (actor : ℕ) (reveal : List ℕ) (revealed : List (ℕ × SaskuCardId)) :
    SaskuHandAction → Prop
  | play {seat : SaskuSeat} {position : ℕ} {card : SaskuCardId} (hseat : seat.val = actor)
      (hreveal : reveal = [position]) (hrevealed : revealed = [(position, card)]) :
      Decoded actor reveal revealed (.play seat card)
  | auction {action : SaskuHandAction} (hseat : action.seat.val = actor)
      (hplay : action.toPlay = none) (hreveal : reveal = []) (hrevealed : revealed = []) :
      Decoded actor reveal revealed action

theorem decoded_of_decodeSaskuAction
    (h : decodeSaskuAction actor kind data reveal revealed = .ok action) :
    Decoded actor reveal revealed action := by
  rw [decodeSaskuAction] at h
  split at h
  · cases h
  split at h
  · split at h
    · split at h
      · rename_i pos position card
        split at h
        · cases h
        · rename_i hbad
          simp only [not_or, not_not, not_lt] at hbad
          cases h
          exact .play rfl rfl (by rw [hbad.2.2])
      · cases h
    · split at h
      · cases h
      · rename_i hempty
        simp only [not_or, not_not] at hempty
        split at h
        · cases h
          exact .auction rfl rfl hempty.1 hempty.2
        split at h
        · cases h
          exact .auction rfl rfl hempty.1 hempty.2
        split at h
        · split at h
          · cases h
            exact .auction rfl rfl hempty.1 hempty.2
          · cases h
        split at h
        · split at h
          · cases h
            exact .auction rfl rfl hempty.1 hempty.2
          · cases h
        · cases h
  · cases h

theorem Decoded.seat (h : Decoded actor reveal revealed action) : action.seat.val = actor := by
  cases h with
  | play hseat => exact hseat
  | auction hseat => exact hseat

end

/-! ## The wire form of an action -/

/-- The kind of an action on the wire. -/
def SaskuHandAction.kind : SaskuHandAction → String
  | .pass _ => "pass"
  | .diamonds _ => "diamonds"
  | .bid _ _ => "bid"
  | .choose_trump _ _ => "choose_trump"
  | .play _ _ => "play"

/-- The data of an action on the wire. -/
def SaskuHandAction.data : SaskuHandAction → CborRecord
  | .bid _ value => [("value", .int value.val)]
  | .choose_trump _ suit => [("suit", .text suit.text)]
  | _ => []

/-- **The wire form of an action decodes to the action**, whose only revealed card, if
it is a play, is the one at the position it names. -/
theorem decodeSaskuAction_kind_data (action : SaskuHandAction) (position : ℕ)
    (hposition : position ≤ 35) :
    decodeSaskuAction action.seat.val action.kind (cborMap action.data)
      (action.toPlay.toList.map fun _ => position)
      (action.toPlay.toList.map fun play => (position, play.card)) = .ok action := by
  have hactor : ¬ 3 < action.seat.val := by omega
  rw [decodeSaskuAction, dif_neg hactor]
  cases action with
  | pass seat => rfl
  | diamonds seat => rfl
  | bid seat value =>
      obtain ⟨value, hthree, hnine⟩ := value
      have hvalue : bidValueOf (.int value) = some ⟨value, hthree, hnine⟩ := by
        simp [bidValueOf, hthree, hnine]
      have hkeys : dataKeys [("value", CborValue.int value)] = "value" := by
        simp [dataKeys]
      simp [SaskuHandAction.kind, SaskuHandAction.data, cborMap, SaskuHandAction.toPlay, hkeys, field,
        List.lookup, hvalue, SaskuHandAction.seat]
  | choose_trump seat suit =>
      have hkeys : dataKeys [("suit", CborValue.text suit.text)] = "suit" := by
        simp [dataKeys]
      simp [SaskuHandAction.kind, SaskuHandAction.data, cborMap, SaskuHandAction.toPlay, hkeys, field,
        List.lookup, suitOf, saskuSuitOf_text, SaskuHandAction.seat]
  | play seat card =>
      have hkeys : dataKeys [] = "" := by rfl
      simp [SaskuHandAction.kind, SaskuHandAction.data, cborMap, SaskuHandAction.toPlay, hkeys,
        hposition, SaskuHandAction.seat]

end Tablefolk
