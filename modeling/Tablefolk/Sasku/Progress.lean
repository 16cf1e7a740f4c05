import Tablefolk.Sasku.Admission
import Tablefolk.Sasku.RoundOrder

/-!
# A round never runs into its limits

The reveal ledger counts the actions of a hand against `maxActions`.  A hand has at most
53 actions, so neither the ledger nor the controllers ever refuse one for its number.
-/

namespace Tablefolk

section

variable {q : ℕ} {G : Type} [AddCommGroup G] [Module (ZMod q) G] [DecidableEq G]
  {P : Primitives q G} {L : RoundReveal P} {s : LedgerState G} {e : SignedEnvelope}

/-- What is thrown is not `action_limit`. -/
def RevealError.NotLimit (error : RevealError) : Prop := error ≠ .code .action_limit

theorem notLimit_of_throwIf {bad : Prop} [Decidable bad] {error thrown : RevealError}
    (h : throwIf bad error = .error thrown) (hne : error.NotLimit) : thrown.NotLimit := by
  rw [throwIf_eq_error] at h
  exact h.2 ▸ hne

omit [DecidableEq G] in
theorem notLimit_of_cardAt {position : ℕ} {error : RevealError}
    (h : L.cardAt position = .error error) : error.NotLimit := by
  rw [RoundReveal.cardAt] at h
  split at h <;> cases h
  simp [RevealError.NotLimit]

omit [AddCommGroup G] [Module (ZMod q) G] [DecidableEq G] in
theorem notLimit_of_sharesAt {position seat donor count : ℕ} {own : G} {error : RevealError}
    (h : sharesAt s position seat own donor count = .error error) : error.NotLimit := by
  induction count generalizing donor with
  | zero => cases h
  | succ count ih =>
      rw [sharesAt] at h
      split at h
      · rcases bind_eq_error.1 h with h | ⟨_, -, h⟩
        · exact ih h
        · cases h
      · cases h
        simp [RevealError.NotLimit]

theorem notLimit_of_openCard {position seat : ℕ} {own : G} {error : RevealError}
    (h : L.openCard s position seat own = .error error) : error.NotLimit := by
  rcases bind_eq_error.1 h with h | ⟨_, -, h⟩
  · exact notLimit_of_cardAt h
  · rcases bind_eq_error.1 h with h | ⟨_, -, h⟩
    · exact notLimit_of_sharesAt h
    · cases h

theorem notLimit_of_checkShares {context : ProofContext} {seat : ℕ}
    {items : List (PositionShare q G)} {error : RevealError}
    (h : L.checkShares context seat items = .error error) : error.NotLimit := by
  induction items with
  | nil => cases h
  | cons item rest ih =>
      rcases bind_eq_error.1 h with h | ⟨_, -, h⟩
      · exact notLimit_of_cardAt h
      · rcases bind_eq_error.1 h with h | ⟨_, -, h⟩
        · exact notLimit_of_throwIf h (by simp [RevealError.NotLimit])
        · exact ih h

omit [DecidableEq G] in
theorem notLimit_of_checkReveal {seat : ℕ} {positions : List ℕ} {error : RevealError}
    (h : L.checkReveal s seat positions = .error error) : error.NotLimit := by
  induction positions with
  | nil => cases h
  | cons position rest ih =>
      rw [RoundReveal.checkReveal] at h
      rcases bind_eq_error.1 h with h | ⟨_, -, h⟩
      · exact notLimit_of_throwIf h (by simp [RevealError.NotLimit])
      · rcases bind_eq_error.1 h with h | ⟨_, -, h⟩
        · exact notLimit_of_throwIf h (by simp [RevealError.NotLimit])
        · rcases bind_eq_error.1 h with h | ⟨_, -, h⟩
          · exact notLimit_of_throwIf h (by simp [RevealError.NotLimit])
          · exact ih h

theorem notLimit_of_openShares {context : ProofContext} {seat : ℕ} {opened : List (ℕ × String)}
    {items : List (PositionShare q G)} {error : RevealError}
    (h : L.openShares s context seat opened items = .error error) : error.NotLimit := by
  induction items generalizing opened with
  | nil => cases h
  | cons item rest ih =>
      rw [RoundReveal.openShares] at h
      rcases bind_eq_error.1 h with h | ⟨_, -, h⟩
      · exact notLimit_of_cardAt h
      rcases bind_eq_error.1 h with h | ⟨_, -, h⟩
      · exact notLimit_of_throwIf h (by simp [RevealError.NotLimit])
      rcases bind_eq_error.1 h with h | ⟨opened, -, h⟩
      · exact notLimit_of_openCard h
      split at h
      · cases h
        simp [RevealError.NotLimit]
      · rcases bind_eq_error.1 h with h | ⟨_, -, h⟩
        · exact notLimit_of_throwIf h (by simp [RevealError.NotLimit])
        · exact ih h

omit [DecidableEq G] in
theorem notLimit_of_decodeActionEnvelope {expectedSeats : List ℕ} {error : RevealError}
    (h : L.decodeActionEnvelope s e expectedSeats = .error error) : error.NotLimit := by
  rw [RoundReveal.decodeActionEnvelope] at h
  rcases bind_eq_error.1 h with h | ⟨_, -, h⟩
  · exact notLimit_of_throwIf h (by simp [RevealError.NotLimit])
  rcases bind_eq_error.1 h with h | ⟨_, -, h⟩
  · exact notLimit_of_throwIf h (by simp [RevealError.NotLimit])
  rcases bind_eq_error.1 h with h | ⟨_, -, h⟩
  · exact notLimit_of_throwIf h (by simp [RevealError.NotLimit])
  rcases bind_eq_error.1 h with h | ⟨_, -, h⟩
  · exact notLimit_of_throwIf h (by simp [RevealError.NotLimit])
  rcases bind_eq_error.1 h with h | ⟨_, -, h⟩
  · exact notLimit_of_throwIf h (by simp [RevealError.NotLimit])
  split at h
  · cases h
    simp [RevealError.NotLimit]
  rcases bind_eq_error.1 h with h | ⟨_, -, h⟩
  · exact notLimit_of_throwIf h (by simp [RevealError.NotLimit])
  rcases bind_eq_error.1 h with h | ⟨_, -, h⟩
  · exact notLimit_of_throwIf h (by simp [RevealError.NotLimit])
  rcases bind_eq_error.1 h with h | ⟨_, -, h⟩
  · exact notLimit_of_throwIf h (by simp [RevealError.NotLimit])
  rcases bind_eq_error.1 h with h | ⟨_, -, h⟩
  · exact notLimit_of_throwIf h (by simp [RevealError.NotLimit])
  split at h <;> cases h
  simp [RevealError.NotLimit]

theorem notLimit_of_processShares {seat : ℕ} {error : RevealError}
    (h : L.processShares s e seat = .error error) : error.NotLimit := by
  rw [RoundReveal.processShares] at h
  split at h
  · cases h
    simp [RevealError.NotLimit]
  split at h
  · cases h
  split at h
  · cases h
    simp [RevealError.NotLimit]
  rcases bind_eq_error.1 h with h | ⟨_, -, h⟩
  · exact notLimit_of_throwIf h (by simp [RevealError.NotLimit])
  rcases bind_eq_error.1 h with h | ⟨_, -, h⟩
  · exact notLimit_of_throwIf h (by simp [RevealError.NotLimit])
  rcases bind_eq_error.1 h with h | ⟨_, -, h⟩
  · exact notLimit_of_throwIf h (by simp [RevealError.NotLimit])
  rcases bind_eq_error.1 h with h | ⟨_, -, h⟩
  · exact notLimit_of_throwIf h (by simp [RevealError.NotLimit])
  rcases bind_eq_error.1 h with h | ⟨_, -, h⟩
  · exact notLimit_of_throwIf h (by simp [RevealError.NotLimit])
  rcases bind_eq_error.1 h with h | ⟨_, -, h⟩
  · exact notLimit_of_checkShares h
  · cases h

/-- **`action_limit` is thrown only when the budget is used up.** -/
theorem limit_of_process {expectedSeat : Option ℕ}
    (h : L.process s e expectedSeat = .error (.code .action_limit)) :
    L.maxActions ≤ s.actionIndex := by
  by_contra hbudget
  suffices hnot : (RevealError.code .action_limit).NotLimit from hnot rfl
  rw [RoundReveal.process] at h
  rcases bind_eq_error.1 h with h | ⟨_, -, h⟩
  · exact notLimit_of_throwIf h (by simp [RevealError.NotLimit])
  rcases bind_eq_error.1 h with h | ⟨_, -, h⟩
  · exact notLimit_of_throwIf h (by simp [RevealError.NotLimit])
  split at h
  · cases h
  rcases bind_eq_error.1 h with h | ⟨_, -, h⟩
  · exact notLimit_of_throwIf h (by simp [RevealError.NotLimit])
  split at h
  · exact notLimit_of_processShares h
  · rw [RoundReveal.processAction] at h
    split at h
    · split at h <;> cases h
    rcases bind_eq_error.1 h with h | ⟨_, -, h⟩
    · exact notLimit_of_throwIf h (by simp [RevealError.NotLimit])
    rcases bind_eq_error.1 h with h | ⟨_, -, h⟩
    · exact absurd (throwIf_eq_error.1 h).1 hbudget
    rcases bind_eq_error.1 h with h | ⟨_, -, h⟩
    · exact notLimit_of_decodeActionEnvelope h
    rcases bind_eq_error.1 h with h | ⟨_, -, h⟩
    · exact notLimit_of_checkReveal h
    rcases bind_eq_error.1 h with h | ⟨_, -, h⟩
    · exact notLimit_of_openShares h
    · cases h
  · cases h

/-- What `hand_never_blocks` says of one deal and one dealer. -/
structure NeverBlocks (deal : SaskuDeal) (dealer : SaskuSeat) : Prop where
  /-- the public controller -/
  shown : ∀ actions s, applyAll (publicHand dealer) actions = .ok s → Progress none actions s
  /-- the reference controller -/
  held : ∀ actions s, applyAll (referenceHand dealer deal) actions = .ok s →
    Progress (some deal) actions s
  /-- both controllers accept one and the same action -/
  both : ∀ actions r, applyAll (referenceHand dealer deal) actions = .ok r →
    r.phase ≠ .complete → ∃ p r' p', ∃ a : SaskuHandAction, applyAll (publicHand dealer) actions = .ok p ∧
      p.turn = some a.seat ∧ nextState r a.candidate = .ok r' ∧ nextState p a.candidate = .ok p'

/-- **A hand is bounded and never blocks**, in both controllers, and in a round the
ledger never refuses an action for its number. -/
theorem hand_never_blocks (deal : SaskuDeal) (dealer : SaskuSeat) :
    NeverBlocks deal dealer ∧
    ∀ (R : SaskuRound P) (l : List SignedEnvelope) (s : RoundState R),
      Replay.run RoundState.step (RoundState.init R) l = some s →
      s.core.ledger.actionIndex ≤ 53 ∧ ∀ e expectedSeat,
        R.ledger.process s.core.ledger e expectedSeat ≠ .error (.code .action_limit) := by
  refine ⟨⟨fun actions s h => hand_progresses h, fun actions s h => hand_progresses h, ?_⟩, ?_⟩
  · intro actions r h hphase
    have hprogress : Progress (some deal) actions r := hand_progresses h
    obtain ⟨a, r', hturn, hr'⟩ := hprogress.unblocked hphase
    obtain ⟨normalized, hforall, hrun⟩ := applyAll_eq_ok.1 h
    have hpublic : applyAll (publicHand dealer) actions = .ok r.erase :=
      applyAll_eq_ok.2 ⟨normalized, hforall, runActions_erase hrun⟩
    rw [nextState_candidate] at hr'
    exact ⟨r.erase, r', r'.erase, a, hpublic, hturn, by rw [nextState_candidate, hr'],
      by rw [nextState_candidate, nextAction_erase hr']⟩
  · intro R l s _
    have hlength := history_length_le s.inv.reached.inv.table s.inv.reached.auction
    refine ⟨s.inv.actions ▸ hlength, fun e expectedSeat h => ?_⟩
    exact absurd (limit_of_process h) (not_le.2 s.inv.budget)

end

end Tablefolk
