import Tablefolk.Lib.Checks

/-!
# Sasku scoring

The model of `rules-sasku/src/scoring.ts`: suits, seats, partnerships and
contracts, the table of feasible (card count, card points) pairs, and
`scoreSaskuHand`.

* `feasiblePoints` is the source's in-place knapsack table, with its two
  descending loops; `feasiblePoints_of_subperm` says that every hand of cards
  drawn from the inventory is marked in it.
* `scoreSaskuHand_ok` says that scoring never throws on totals that come from
  splitting the 36 cards between the two partnerships by tricks.
-/

namespace Tablefolk

/-! ## Suits, seats, contracts -/

/-- `SASKU_SUITS`, in the source's order. -/
inductive SaskuSuit where
  | clubs | spades | hearts | diamonds
  deriving DecidableEq, Repr

/-- A seat, `0 | 1 | 2 | 3`. -/
abbrev SaskuSeat := Fin 4

/-- A partnership, `0 | 1`. -/
abbrev SaskuPartnership := Fin 2

instance neZeroSeats : NeZero (3 + 1) := ⟨by decide⟩

instance neZeroPartnerships : NeZero (1 + 1) := ⟨by decide⟩

/-- `partnershipForSeat`: opposite seats play together. -/
def partnershipForSeat (seat : SaskuSeat) : SaskuPartnership :=
  ⟨seat.val % 2, Nat.mod_lt _ (by decide)⟩

/-- The contract a hand is played under. -/
inductive SaskuContract where
  | named (suit : SaskuSuit) (declarerSeat : SaskuSeat)
  | passRound
  deriving DecidableEq, Repr

/-- The private rules a hand audit can find broken. -/
inductive SaskuHandAuditRule where
  | bid_strength | card_ownership | follow_suit
  deriving DecidableEq, Repr

/-- What the rules package throws: the three error classes with their messages,
and the rule that a `SaskuHandError` may carry. -/
inductive SaskuError where
  | scoring (message : String)
  | play (message : String)
  | hand (message : String) (rule : Option SaskuHandAuditRule)
  /-- A property access on `null`, such as `contract!.kind`. -/
  | typeError
  deriving DecidableEq, Repr

/-- `cause instanceof SaskuHandError ? cause.rule : null`. -/
def SaskuError.rule : SaskuError → Option SaskuHandAuditRule
  | .hand _ rule => rule
  | _ => none

/-! ## The feasibility table -/

def SASKU_TOTAL_CARD_POINTS : ℕ := 120

def SASKU_TRICKS_PER_HAND : ℕ := 9

/-- `Object.values(SASKU_CARD_POINTS)`, in order. -/
def SASKU_CARD_POINTS : List ℕ := [11, 10, 4, 3, 2, 0]

/-- Four copies of each scoring rank and sixteen cards worth nothing. -/
def inventory : List ℕ :=
  ((SASKU_CARD_POINTS.filter fun points => points > 0).flatMap fun points =>
    [points, points, points, points]) ++ List.replicate 16 0

/-- The 37 rows of 121 flags: `table[count][sum]`. -/
abbrev PointsTable := Array (Array Bool)

/-- `table[count]![sum] === 1`. -/
def PointsTable.marked (table : PointsTable) (count sum : ℕ) : Bool :=
  (table.getD count #[]).getD sum false

/-- `table[count]![sum] = 1`. -/
def PointsTable.mark (table : PointsTable) (count sum : ℕ) : PointsTable :=
  table.modify count fun row => row.setIfInBounds sum true

/-- The table before any card is counted. -/
def emptyPoints : PointsTable :=
  PointsTable.mark (Array.replicate 37 (Array.replicate 121 false)) 0 0

/-- The body of the two inner loops. -/
def addCardAt (points count : ℕ) (table : PointsTable) (sum : ℕ) : PointsTable :=
  if table.marked count sum then table.mark (count + 1) (sum + points) else table

/-- `for (sum = 120 - points; sum >= 0; sum -= 1)`. -/
def addCardRow (points : ℕ) (table : PointsTable) (count : ℕ) : PointsTable :=
  (List.range (121 - points)).reverse.foldl (addCardAt points count) table

/-- `for (count = 35; count >= 0; count -= 1)`. -/
def addCard (table : PointsTable) (points : ℕ) : PointsTable :=
  (List.range 36).reverse.foldl (addCardRow points) table

/-- The table after every card of the inventory. -/
def feasiblePoints : PointsTable := inventory.foldl addCard emptyPoints

/-! ## Scoring -/

inductive SaskuScoreKind where
  | simple_win | seajann | jann | karvane | pokk | pass_round_win | pass_round_tie
  deriving DecidableEq, Repr

structure SaskuHandScore where
  kind : SaskuScoreKind
  winner : Option SaskuPartnership
  gamePoints : ℕ × ℕ
  basePoints : ℕ
  bonusPoints : ℕ
  deriving DecidableEq, Repr

structure SaskuHandTotals where
  cardPoints : SaskuPartnership → ℕ
  tricks : SaskuPartnership → ℕ
  contract : SaskuContract

/-- `result`: the game points go to the winner. -/
def scoreResult (kind : SaskuScoreKind) (winner : Option SaskuPartnership)
    (basePoints bonusPoints : ℕ) : SaskuHandScore :=
  let total := basePoints + bonusPoints
  let gamePoints := match winner with
    | none => (0, 0)
    | some w => if w = 0 then (total, 0) else (0, total)
  ⟨kind, winner, gamePoints, basePoints, bonusPoints⟩

/-- `pair`: both totals must be whole numbers up to `maximum`. -/
def scorePair (value : SaskuPartnership → ℕ) (maximum : ℕ) (name : String) :
    Except SaskuError Unit :=
  throwIf (maximum < value 0 ∨ maximum < value 1)
    (.scoring s!"{name} must be whole numbers from zero to {maximum}")

/-- The score once the totals have passed their checks. -/
def scoreChecked (input : SaskuHandTotals) : SaskuHandScore :=
  let points := input.cardPoints
  match input.contract with
  | .passRound =>
      if points 0 = points 1 then scoreResult .pass_round_tie none 0 0
      else scoreResult .pass_round_win (some (if points 1 < points 0 then 0 else 1)) 2 0
  | .named suit declarerSeat =>
      let declaringSide := partnershipForSeat declarerSeat
      if points 0 = points 1 then
        scoreResult .pokk (some (if declaringSide = 0 then 1 else 0)) 2 0
      else
        let winner : SaskuPartnership := if points 1 < points 0 then 0 else 1
        if input.tricks (if winner = 0 then 1 else 0) = 0 then
          scoreResult .karvane (some winner) 12 0
        else
          let base := (if winner = declaringSide then 2 else 4)
            + (if suit = .diamonds then 2 else 0)
          let winningPoints := points winner
          let bonus := if winningPoints = 90 then 1 else if 91 ≤ winningPoints then 2 else 0
          scoreResult (if bonus = 1 then .seajann else if bonus = 2 then .jann else .simple_win)
            (some winner) base bonus

/-- `scoreSaskuHand`: the totals of a completed hand, checked, and its score. -/
def scoreSaskuHand (input : SaskuHandTotals) : Except SaskuError SaskuHandScore := do
  scorePair input.cardPoints SASKU_TOTAL_CARD_POINTS "Card points"
  scorePair input.tricks SASKU_TRICKS_PER_HAND "Tricks"
  throwIf (input.cardPoints 0 + input.cardPoints 1 ≠ SASKU_TOTAL_CARD_POINTS)
    (.scoring "Both partnerships' card points must add up to 120")
  throwIf (input.tricks 0 + input.tricks 1 ≠ SASKU_TRICKS_PER_HAND)
    (.scoring "Both partnerships' tricks must add up to nine")
  throwIf (feasiblePoints.marked (input.tricks 0 * 4) (input.cardPoints 0) ≠ true)
    (.scoring
      "Those card points and trick counts are not possible with the scoring-card inventory")
  return scoreChecked input

/-- What `scoreSaskuHand` returns, when it returns. -/
theorem scoreSaskuHand_eq {input : SaskuHandTotals} {score : SaskuHandScore}
    (h : scoreSaskuHand input = .ok score) : score = scoreChecked input := by
  simp only [scoreSaskuHand, check_bind_eq_ok, except_pure_eq, Except.ok.injEq] at h
  exact h.2.2.2.2.2.symm

/-! ## What the table marks -/

/-- Marking only adds marks. -/
theorem PointsTable.marked_mark_of_marked {table : PointsTable} {count sum c s : ℕ}
    (h : table.marked c s = true) : (table.mark count sum).marked c s = true := by
  unfold PointsTable.marked PointsTable.mark at *
  simp only [Array.getD_eq_getD_getElem?, Array.getElem?_modify] at *
  by_cases hc : count = c
  · subst hc
    cases hrow : table[count]? with
    | none => rw [hrow] at h; simp at h
    | some row =>
        rw [hrow] at h
        simp only [Option.getD_some, if_true, Option.map_some, Array.getElem?_setIfInBounds] at h ⊢
        by_cases hs : sum = s
        · subst hs
          have hlt : sum < row.size := by
            by_contra hge
            rw [Array.getElem?_eq_none (not_lt.1 hge)] at h
            simp at h
          simp [hlt]
        · simpa [hs] using h
  · simpa [hc] using h

/-- The table keeps its 37 rows of 121 flags. -/
def PointsTable.Wide (table : PointsTable) : Prop :=
  table.size = 37 ∧ ∀ (count : ℕ) (row : Array Bool), table[count]? = some row → row.size = 121

theorem PointsTable.Wide.mark {table : PointsTable} (h : table.Wide) (count sum : ℕ) :
    (table.mark count sum).Wide := by
  obtain ⟨hsize, hrows⟩ := h
  refine ⟨by simpa [PointsTable.mark] using hsize, ?_⟩
  intro c row hrow
  rw [PointsTable.mark, Array.getElem?_modify] at hrow
  by_cases hc : count = c
  · rw [if_pos hc] at hrow
    obtain ⟨old, hold, rfl⟩ := Option.map_eq_some_iff.1 hrow
    simpa using hrows c old hold
  · rw [if_neg hc] at hrow
    exact hrows c row hrow

theorem PointsTable.Wide.marked_mark {table : PointsTable} (h : table.Wide) {count sum : ℕ}
    (hcount : count < 37) (hsum : sum < 121) :
    (table.mark count sum).marked count sum = true := by
  have hlt : count < table.size := by rw [h.1]; exact hcount
  have hget : table[count]? = some table[count] := Array.getElem?_eq_getElem hlt
  have hrow : sum < (table[count]).size := by rw [h.2 count _ hget]; exact hsum
  simp only [PointsTable.marked, PointsTable.mark, Array.getD_eq_getD_getElem?,
    Array.getElem?_modify, if_true, hget, Option.map_some, Option.getD_some,
    Array.getElem?_setIfInBounds, if_pos hrow]

theorem wide_blank : PointsTable.Wide (Array.replicate 37 (Array.replicate 121 false)) := by
  refine ⟨Array.size_replicate, ?_⟩
  intro count row hrow
  rw [Array.getElem?_replicate] at hrow
  split at hrow
  · cases hrow
    exact Array.size_replicate
  · exact absurd hrow (by simp)

theorem wide_emptyPoints : emptyPoints.Wide := wide_blank.mark 0 0

/-- What both inner loops preserve: the shape of the table and every mark in it. -/
structure Extends (old new : PointsTable) : Prop where
  wide : old.Wide → new.Wide
  marked : ∀ {c s}, old.marked c s = true → new.marked c s = true

theorem Extends.rfl' (table : PointsTable) : Extends table table := ⟨id, id⟩

theorem Extends.trans {a b c : PointsTable} (h₁ : Extends a b) (h₂ : Extends b c) :
    Extends a c := ⟨fun h => h₂.wide (h₁.wide h), fun h => h₂.marked (h₁.marked h)⟩

/-- A loop whose every iteration extends the table extends it. -/
theorem Extends.foldl {β : Type} {f : PointsTable → β → PointsTable}
    (hf : ∀ t b, Extends t (f t b)) (l : List β) (t : PointsTable) :
    Extends t (l.foldl f t) := by
  induction l generalizing t with
  | nil => exact Extends.rfl' t
  | cons b l ih => exact (hf t b).trans (ih (f t b))

/-- A loop that extends the table keeps what the iteration at `b` establishes. -/
theorem Extends.foldl_mem {β : Type} {f : PointsTable → β → PointsTable}
    (hf : ∀ t b, Extends t (f t b)) {l : List β} {b : β} (hb : b ∈ l) (t : PointsTable) :
    ∃ t', Extends t t' ∧ Extends (f t' b) (l.foldl f t) := by
  obtain ⟨before, after, rfl⟩ := List.append_of_mem hb
  refine ⟨before.foldl f t, Extends.foldl hf before t, ?_⟩
  rw [List.foldl_append, List.foldl_cons]
  exact Extends.foldl hf after _

theorem extends_addCardAt (points count : ℕ) (table : PointsTable) (sum : ℕ) :
    Extends table (addCardAt points count table sum) := by
  unfold addCardAt
  split
  · exact ⟨fun h => h.mark _ _, PointsTable.marked_mark_of_marked⟩
  · exact Extends.rfl' table

theorem extends_addCardRow (points : ℕ) (table : PointsTable) (count : ℕ) :
    Extends table (addCardRow points table count) :=
  Extends.foldl (extends_addCardAt points count) _ table

theorem extends_addCard (table : PointsTable) (points : ℕ) :
    Extends table (addCard table points) :=
  Extends.foldl (extends_addCardRow points) _ table

/-- Counting one more card marks every pair that the card can be added to. -/
theorem marked_addCard {table : PointsTable} (hw : table.Wide) {points count sum : ℕ}
    (h : table.marked count sum = true) (hcount : count < 36) (hsum : sum + points ≤ 120) :
    (addCard table points).marked (count + 1) (sum + points) = true := by
  have hc : count ∈ (List.range 36).reverse := by simpa using hcount
  have hs : sum ∈ (List.range (121 - points)).reverse := by simp; omega
  obtain ⟨t₁, h₁, h₁'⟩ := Extends.foldl_mem (extends_addCardRow points) hc table
  obtain ⟨t₂, h₂, h₂'⟩ := Extends.foldl_mem (extends_addCardAt points count) hs t₁
  refine h₁'.marked (h₂'.marked ?_)
  -- when the loops reach `(count, sum)` the pair is still marked, so its successor is set
  have hmark : t₂.marked count sum = true := h₂.marked (h₁.marked h)
  rw [addCardAt, if_pos hmark]
  exact (h₂.wide (h₁.wide hw)).marked_mark (by omega) (by omega)

/-- Every sublist of the cards counted so far is marked with its length and sum. -/
theorem marked_foldl_addCard {taken cards : List ℕ} (hsub : taken.Sublist cards) :
    ∀ {table : PointsTable} {count sum : ℕ}, table.Wide → table.marked count sum = true →
      count + taken.length ≤ 36 → sum + taken.sum ≤ 120 →
      (cards.foldl addCard table).marked (count + taken.length) (sum + taken.sum) = true := by
  induction hsub with
  | slnil => intro table count sum _ h _ _; simpa using h
  | cons card _ ih =>
      intro table count sum hw h hcount hsum
      exact ih ((extends_addCard table card).wide hw) ((extends_addCard table card).marked h)
        hcount hsum
  | @cons_cons taken cards card _ ih =>
      intro table count sum hw h hcount hsum
      simp only [List.length_cons, List.sum_cons] at hcount hsum ⊢
      have hcard : (addCard table card).marked (count + 1) (sum + card) = true :=
        marked_addCard hw h (by omega) (by omega)
      have hrest := ih ((extends_addCard table card).wide hw) hcard (by omega) (by omega)
      rw [show count + (taken.length + 1) = count + 1 + taken.length from by omega,
        show sum + (card + taken.sum) = sum + card + taken.sum from by omega]
      exact hrest

/-- **The table is complete.**  Any cards drawn from the inventory are marked
feasible at their number and their total. -/
theorem feasiblePoints_of_subperm {taken : List ℕ} (h : taken.Subperm inventory) :
    feasiblePoints.marked taken.length taken.sum = true := by
  obtain ⟨l, hperm, hsub⟩ := h
  have hlen : l.length ≤ 36 := hsub.length_le
  have hsum : l.sum ≤ 120 := hsub.sum_le_sum fun _ _ => Nat.zero_le _
  have hstart : emptyPoints.marked 0 0 = true := wide_blank.marked_mark (by omega) (by omega)
  have := marked_foldl_addCard hsub wide_emptyPoints hstart (by omega) (by omega)
  rw [hperm.length_eq, hperm.sum_eq] at this
  simpa [feasiblePoints] using this

/-- **Scoring never throws on a real hand.**  If the two partnerships' cards are
the inventory, four for every trick won, `scoreSaskuHand` returns a score. -/
theorem scoreSaskuHand_ok {input : SaskuHandTotals} {side₀ side₁ : List ℕ}
    (hcards : (side₀ ++ side₁).Perm inventory)
    (hlen₀ : side₀.length = input.tricks 0 * 4) (hlen₁ : side₁.length = input.tricks 1 * 4)
    (hsum₀ : input.cardPoints 0 = side₀.sum) (hsum₁ : input.cardPoints 1 = side₁.sum) :
    scoreSaskuHand input = .ok (scoreChecked input) := by
  have htotal : side₀.sum + side₁.sum = 120 := by
    rw [← List.sum_append, hcards.sum_eq]; decide
  have hlength : side₀.length + side₁.length = 36 := by
    rw [← List.length_append, hcards.length_eq]; decide
  have hfeasible : feasiblePoints.marked (input.tricks 0 * 4) (input.cardPoints 0) = true := by
    rw [hsum₀, ← hlen₀]
    exact feasiblePoints_of_subperm
      ((List.sublist_append_left side₀ side₁).subperm.trans hcards.subperm)
  simp only [scoreSaskuHand, scorePair, check_bind_eq_ok, throwIf_eq_ok, except_pure_eq, and_true]
  simp only [SASKU_TOTAL_CARD_POINTS, SASKU_TRICKS_PER_HAND]
  exact ⟨by omega, by omega, by omega, by omega, by simp [hfeasible]⟩

end Tablefolk
