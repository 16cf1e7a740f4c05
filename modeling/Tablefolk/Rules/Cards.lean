import Tablefolk.Rules.Scoring

/-!
# Sasku cards and tricks

The model of `rules-sasku/src/cards.ts`: the 36 cards and their identifiers,
effective suits, the cards a hand may legally play, and the winner of a trick.

Each function keeps its checks, so that "does not throw" is something to prove:
`legalSaskuCards_ok` and `resolveSaskuTrick_ok` give the conditions.
-/

namespace Tablefolk

/-! ## Cards -/

/-- `SASKU_RANKS`, in the source's order. -/
inductive SaskuRank where
  | six | seven | eight | nine | ten | jack | queen | king | ace
  deriving DecidableEq, Repr

/-- A card, named by its rank and suit. -/
structure SaskuCardId where
  rank : SaskuRank
  suit : SaskuSuit
  deriving DecidableEq, Repr

def SASKU_SUITS : List SaskuSuit := [.clubs, .spades, .hearts, .diamonds]

def SASKU_RANKS : List SaskuRank :=
  [.six, .seven, .eight, .nine, .ten, .jack, .queen, .king, .ace]

/-- `SASKU_CARDS`: suit by suit, rank by rank. -/
def SASKU_CARDS : List SaskuCardId :=
  SASKU_SUITS.flatMap fun suit => SASKU_RANKS.map fun rank => ⟨rank, suit⟩

def SaskuSuit.text : SaskuSuit → String
  | .clubs => "clubs" | .spades => "spades" | .hearts => "hearts" | .diamonds => "diamonds"

/-- `SASKU_SUITS.includes(value)`, with the suit it names. -/
def saskuSuitOf (value : String) : Option SaskuSuit :=
  SASKU_SUITS.find? fun suit => suit.text = value

/-- `suitCodes`. -/
def SaskuSuit.code : SaskuSuit → String
  | .clubs => "C" | .spades => "S" | .hearts => "H" | .diamonds => "D"

def SaskuRank.text : SaskuRank → String
  | .six => "6" | .seven => "7" | .eight => "8" | .nine => "9" | .ten => "10"
  | .jack => "J" | .queen => "Q" | .king => "K" | .ace => "A"

/-- The card identifier, rank before suit code. -/
def SaskuCardId.text (card : SaskuCardId) : String := card.rank.text ++ card.suit.code

/-- `rankPoints`. -/
def SaskuCardId.points (card : SaskuCardId) : ℕ :=
  match card.rank with
  | .ten => 10 | .jack => 2 | .queen => 3 | .king => 4 | .ace => 11
  | _ => 0

def SaskuCardId.isCourt (card : SaskuCardId) : Bool :=
  card.rank = .king || card.rank = .queen || card.rank = .jack

/-- `parseSaskuCard`: look the identifier up among the 36 cards. -/
def parseSaskuCard (value : String) : Except SaskuError SaskuCardId :=
  match SASKU_CARDS.find? fun card => card.text = value with
  | some card => .ok card
  | none => .error (.play "Unknown Sasku card identifier")

theorem saskuSuitOf_text (suit : SaskuSuit) : saskuSuitOf suit.text = some suit := by
  cases suit <;> decide

theorem mem_SASKU_CARDS (card : SaskuCardId) : card ∈ SASKU_CARDS := by
  obtain ⟨rank, suit⟩ := card
  cases suit <;> cases rank <;> decide

theorem nodup_SASKU_CARDS : SASKU_CARDS.Nodup := by decide

theorem length_SASKU_CARDS : SASKU_CARDS.length = 36 := rfl

/-- The points of the whole deck are the scoring inventory. -/
theorem points_SASKU_CARDS : (SASKU_CARDS.map SaskuCardId.points).Perm inventory := by decide

/-- Every card's identifier parses back to the card. -/
theorem parseSaskuCard_text (card : SaskuCardId) : parseSaskuCard card.text = .ok card := by
  obtain ⟨rank, suit⟩ := card
  cases suit <;> cases rank <;> decide

/-! ## Effective suits and the strength of a card -/

inductive SaskuEffectiveSuit where
  | suit (suit : SaskuSuit)
  | trump
  deriving DecidableEq, Repr

/-- `saskuEffectiveSuit`: court cards and the trump suit are all trumps. -/
def saskuEffectiveSuit (card : SaskuCardId) (trump : SaskuSuit) : SaskuEffectiveSuit :=
  if card.isCourt ∨ card.suit = trump then .trump else .suit card.suit

/-- `SASKU_COURT_ORDER`, strongest first. -/
def SASKU_COURT_ORDER : List SaskuCardId :=
  [SaskuRank.king, .queen, .jack].flatMap fun rank => SASKU_SUITS.map fun suit => ⟨rank, suit⟩

/-- `plainRanks`, weakest first. -/
def plainRanks : List SaskuRank := [.six, .seven, .eight, .nine, .ten, .ace]

/-- `priority`: how strong a card is in a trick that was led in suit `led`. -/
def priority (card : SaskuCardId) (led : SaskuEffectiveSuit) (trump : SaskuSuit) : ℕ :=
  let strength := if card ∈ SASKU_COURT_ORDER then 18 - SASKU_COURT_ORDER.idxOf card
    else plainRanks.idxOf card.rank + 1
  let suit := saskuEffectiveSuit card trump
  if suit = .trump then 100 + strength else if suit = led then strength else 0

/-! ## Tricks -/

structure SaskuPlay where
  seat : SaskuSeat
  card : SaskuCardId
  deriving DecidableEq, Repr

structure SaskuTrickResult where
  winner : SaskuPlay
  partnership : SaskuPartnership
  cardPoints : ℕ
  deriving DecidableEq, Repr

/-- `normalizeTrick`: at most four plays, no seat and no card twice. -/
def normalizeTrick (value : List SaskuPlay) : Except SaskuError (List SaskuPlay) := do
  throwIf (4 < value.length) (.play "A trick contains at most four plays")
  throwIf (¬ (value.map SaskuPlay.seat).Nodup ∨ ¬ (value.map SaskuPlay.card).Nodup)
    (.play "A trick cannot repeat a seat or card")
  return value

/-- `legalSaskuCards`: the cards of `hand` that may follow the trick. -/
def legalSaskuCards (hand : List SaskuCardId) (trick : List SaskuPlay) (trump : SaskuSuit) :
    Except SaskuError (List SaskuCardId) := do
  let plays ← normalizeTrick trick
  throwIf (plays.length = 4) (.play "The trick is already complete")
  throwIf (9 < hand.length) (.play "A Sasku hand contains at most nine cards")
  throwIf (¬ hand.Nodup ∨ ∃ card ∈ hand, card ∈ plays.map SaskuPlay.card)
    (.play "A hand contains duplicate or already-played cards")
  match plays with
  | [] => return hand
  | lead :: _ =>
      let led := saskuEffectiveSuit lead.card trump
      let following := hand.filter fun card => saskuEffectiveSuit card trump = led
      return if following = [] then hand else following

/-- The loop of `winnerOf`: a later play wins only if it is strictly stronger. -/
def strongerPlay (led : SaskuEffectiveSuit) (trump : SaskuSuit) (winner play : SaskuPlay) :
    SaskuPlay :=
  if priority winner.card led trump < priority play.card led trump then play else winner

/-- `winnerOf`. -/
def winnerOf (plays : List SaskuPlay) (trump : SaskuSuit) : Option SaskuPlay :=
  match plays with
  | [] => none
  | lead :: rest =>
      some (rest.foldl (strongerPlay (saskuEffectiveSuit lead.card trump) trump) lead)

/-- `resolveSaskuTrick`: the winner, its partnership and the points of a full trick. -/
def resolveSaskuTrick (trick : List SaskuPlay) (trump : SaskuSuit) :
    Except SaskuError SaskuTrickResult := do
  let plays ← normalizeTrick trick
  throwIf (plays.length ≠ 4) (.play "A completed trick requires four distinct seats and cards")
  match winnerOf plays trump with
  | none => throw .typeError
  | some winner =>
      return ⟨winner, partnershipForSeat winner.seat, (plays.map fun p => p.card.points).sum⟩

/-! ## When these do not throw -/

/-- A trick that `normalizeTrick` accepts. -/
structure TrickOk (trick : List SaskuPlay) : Prop where
  length_le : trick.length ≤ 4
  seats : (trick.map SaskuPlay.seat).Nodup
  cards : (trick.map SaskuPlay.card).Nodup

theorem normalizeTrick_ok {trick : List SaskuPlay} (h : TrickOk trick) :
    normalizeTrick trick = .ok trick := by
  simp [normalizeTrick, h.length_le, h.seats, h.cards]

/-- The cards `legalSaskuCards` returns when its checks pass. -/
def followingCards (hand : List SaskuCardId) (trick : List SaskuPlay) (trump : SaskuSuit) :
    List SaskuCardId :=
  match trick with
  | [] => hand
  | lead :: _ =>
      let led := saskuEffectiveSuit lead.card trump
      let following := hand.filter fun card => saskuEffectiveSuit card trump = led
      if following = [] then hand else following

/-- The legal cards of an unfinished trick and a hand disjoint from it. -/
theorem legalSaskuCards_ok {hand : List SaskuCardId} {trick : List SaskuPlay} {trump : SaskuSuit}
    (htrick : TrickOk trick) (hlen : trick.length < 4) (hhand : hand.length ≤ 9)
    (hnodup : hand.Nodup) (hdisj : ∀ card ∈ hand, card ∉ trick.map SaskuPlay.card) :
    legalSaskuCards hand trick trump = .ok (followingCards hand trick trump) := by
  have hnone : ¬ ∃ card ∈ hand, card ∈ trick.map SaskuPlay.card :=
    fun ⟨card, hc, hc'⟩ => hdisj card hc hc'
  rw [legalSaskuCards, normalizeTrick_ok htrick, ok_bind, throwIf_neg (by omega), ok_bind,
    throwIf_neg (by omega), ok_bind, throwIf_neg (not_or.2 ⟨not_not.2 hnodup, hnone⟩), ok_bind]
  cases trick <;> rfl

theorem mem_of_mem_followingCards {hand : List SaskuCardId} {trick : List SaskuPlay}
    {trump : SaskuSuit} {card : SaskuCardId} (h : card ∈ followingCards hand trick trump) :
    card ∈ hand := by
  unfold followingCards at h
  split at h
  · exact h
  · dsimp only at h
    split at h
    · exact h
    · exact List.mem_of_mem_filter h

/-- A hand that is not empty always has a legal card. -/
theorem followingCards_ne_nil {hand : List SaskuCardId} (h : hand ≠ []) (trick : List SaskuPlay)
    (trump : SaskuSuit) : followingCards hand trick trump ≠ [] := by
  unfold followingCards
  split
  · exact h
  · dsimp only
    split
    · exact h
    · assumption

theorem strongerPlay_eq (led : SaskuEffectiveSuit) (trump : SaskuSuit) (winner play : SaskuPlay) :
    strongerPlay led trump winner play = play ∨ strongerPlay led trump winner play = winner := by
  unfold strongerPlay
  split <;> simp

/-- The winner of a trick is one of its plays. -/
theorem winnerOf_mem {plays : List SaskuPlay} {trump : SaskuSuit} {winner : SaskuPlay}
    (h : winnerOf plays trump = some winner) : winner ∈ plays := by
  cases plays with
  | nil => exact absurd h (by simp [winnerOf])
  | cons lead rest =>
      simp only [winnerOf, Option.some.injEq] at h
      subst h
      generalize saskuEffectiveSuit lead.card trump = led
      induction rest generalizing lead with
      | nil => simp
      | cons play rest ih =>
          rw [List.foldl_cons]
          have := ih (strongerPlay led trump lead play)
          rcases strongerPlay_eq led trump lead play with h | h <;> rw [h] at this ⊢ <;>
            simp only [List.mem_cons] at this ⊢ <;> tauto

/-- A full trick resolves, to one of its plays and to the sum of its points. -/
theorem resolveSaskuTrick_ok {trick : List SaskuPlay} (trump : SaskuSuit) (h : TrickOk trick)
    (hlen : trick.length = 4) :
    ∃ winner ∈ trick, resolveSaskuTrick trick trump = .ok ⟨winner,
      partnershipForSeat winner.seat, (trick.map fun p => p.card.points).sum⟩ := by
  obtain ⟨winner, hw⟩ : ∃ winner, winnerOf trick trump = some winner := by
    cases trick with
    | nil => simp at hlen
    | cons lead rest => exact ⟨_, rfl⟩
  refine ⟨winner, winnerOf_mem hw, ?_⟩
  rw [resolveSaskuTrick, normalizeTrick_ok h, ok_bind, throwIf_neg (by simp [hlen]), ok_bind, hw]
  rfl

end Tablefolk
