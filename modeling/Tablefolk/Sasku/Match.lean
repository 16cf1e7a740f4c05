import Tablefolk.Rules.Scoring

/-!
# Matches

The model of `apps/web/src/sasku-match.ts`: the rounds of a match, one after the other, until a
partnership has the points to win.

A hand that awards points awards at least two of them, to one partnership.  So neither partnership
has been awarded points more than five times while the match is open, which bounds the hands that
award points, and with them the length of a match.

* `gamePoints_cases`: what the scoring table can award.
* `MatchReached.inv`: what holds of every match that was recorded.
* `MatchReached.awards_le`: an open match has at most ten hands that awarded points.
-/

namespace Tablefolk

def SASKU_MATCH_TARGET : ℕ := 12

def MAX_SASKU_MATCH_ROUNDS : ℕ := 32

/-- `CompletedSaskuRound`. -/
structure CompletedSaskuRound where
  round : ℕ
  dealer : SaskuSeat
  score : SaskuHandScore
  deriving DecidableEq, Repr

/-- `SaskuMatchState`. -/
structure SaskuMatchState where
  round : ℕ
  totals : ℕ × ℕ
  completed : List CompletedSaskuRound
  winner : Option SaskuPartnership
  deriving DecidableEq, Repr

/-- `INITIAL_SASKU_MATCH`. -/
def INITIAL_SASKU_MATCH : SaskuMatchState := ⟨1, (0, 0), [], none⟩

/-- `((3 + round - 1) % 4)`. -/
def dealerOf (round : ℕ) : SaskuSeat := ⟨(3 + round - 1) % 4, Nat.mod_lt _ (by decide)⟩

/-- `dealerForSaskuRound`. -/
def dealerForSaskuRound (round : ℕ) : Except String SaskuSeat := do
  throwIf (round < 1 ∨ MAX_SASKU_MATCH_ROUNDS < round) "Invalid Sasku match round"
  return dealerOf round

/-- The partnership that has the points to win. -/
def matchWinner (totals : ℕ × ℕ) : Option SaskuPartnership :=
  if SASKU_MATCH_TARGET ≤ totals.1 then some 0
  else if SASKU_MATCH_TARGET ≤ totals.2 then some 1 else none

def closedMessage : String := "Sasku match cannot accept another round"

def limitMessage : String := "Sasku match history limit reached before a winner"

/-- `recordSaskuRound`. -/
def recordSaskuRound (m : SaskuMatchState) (dealer : SaskuSeat) (score : SaskuHandScore) :
    Except String SaskuMatchState := do
  throwIf (m.winner ≠ none ∨ m.round ≠ m.completed.length + 1 ∨
    MAX_SASKU_MATCH_ROUNDS < m.round) closedMessage
  throwIf (dealer ≠ dealerOf m.round) "Sasku dealer rotation does not match the game profile"
  let totals := (m.totals.1 + score.gamePoints.1, m.totals.2 + score.gamePoints.2)
  let winner := matchWinner totals
  throwIf (winner = none ∧ m.round = MAX_SASKU_MATCH_ROUNDS) limitMessage
  return ⟨if winner = none then m.round + 1 else m.round, totals,
    m.completed ++ [⟨m.round, dealer, score⟩], winner⟩

/-- The score can be produced by `scoreSaskuHand`. -/
def SaskuHandScore.Produced (score : SaskuHandScore) : Prop :=
  ∃ input, scoreSaskuHand input = .ok score

/-- The hand awards points. -/
def SaskuHandScore.Awards (score : SaskuHandScore) : Prop := score.gamePoints ≠ (0, 0)

instance (score : SaskuHandScore) : Decidable score.Awards := inferInstanceAs (Decidable (_ ≠ _))

/-! ## What a hand awards -/

theorem scoreResult_gamePoints (kind : SaskuScoreKind) (winner : SaskuPartnership)
    (basePoints bonusPoints : ℕ) :
    (scoreResult kind (some winner) basePoints bonusPoints).gamePoints =
        (basePoints + bonusPoints, 0) ∨
      (scoreResult kind (some winner) basePoints bonusPoints).gamePoints =
        (0, basePoints + bonusPoints) := by
  unfold scoreResult
  by_cases hwinner : winner = 0
  · exact .inl (if_pos hwinner)
  · exact .inr (if_neg hwinner)

theorem scoreResult_two_le {kind : SaskuScoreKind} {winner : SaskuPartnership}
    {basePoints bonusPoints : ℕ} (h : 2 ≤ basePoints) :
    ∃ points, 2 ≤ points ∧
      ((scoreResult kind (some winner) basePoints bonusPoints).gamePoints = (points, 0) ∨
        (scoreResult kind (some winner) basePoints bonusPoints).gamePoints = (0, points)) :=
  ⟨basePoints + bonusPoints, by omega, scoreResult_gamePoints kind winner basePoints bonusPoints⟩

/-- A hand awards nothing, or at least two points to one partnership. -/
theorem gamePoints_cases {score : SaskuHandScore} (h : score.Produced) :
    score.gamePoints = (0, 0) ∨
      ∃ points, 2 ≤ points ∧ (score.gamePoints = (points, 0) ∨ score.gamePoints = (0, points)) := by
  obtain ⟨input, hscore⟩ := h
  rw [scoreSaskuHand_eq hscore]
  unfold scoreChecked
  cases input.contract with
  | passRound =>
      simp only
      split
      · exact .inl rfl
      · exact .inr (scoreResult_two_le le_rfl)
  | named suit declarerSeat =>
      simp only
      generalize (if input.cardPoints 1 < input.cardPoints 0 then 0 else 1 : SaskuPartnership) =
        winner
      by_cases hpokk : input.cardPoints 0 = input.cardPoints 1
      · rw [if_pos hpokk]
        exact .inr (scoreResult_two_le le_rfl)
      · rw [if_neg hpokk]
        by_cases hkarvane : input.tricks (if winner = 0 then 1 else 0) = 0
        · rw [if_pos hkarvane]
          exact .inr (scoreResult_two_le (by decide))
        · rw [if_neg hkarvane]
          refine .inr (scoreResult_two_le ?_)
          by_cases hside : winner = partnershipForSeat declarerSeat
          · rw [if_pos hside]
            omega
          · rw [if_neg hside]
            omega

/-! ## Every match -/

/-- A match that was recorded hand by hand. -/
inductive MatchReached : SaskuMatchState → Prop
  | initial : MatchReached INITIAL_SASKU_MATCH
  | record {m next : SaskuMatchState} {dealer : SaskuSeat} {score : SaskuHandScore}
      (h : MatchReached m) (hscore : score.Produced) (hnext : recordSaskuRound m dealer score = .ok next) :
      MatchReached next

/-- The points of a partnership in these rounds. -/
def awardedPoints (side : ℕ × ℕ → ℕ) (completed : List CompletedSaskuRound) : ℕ :=
  (completed.map fun done => side done.score.gamePoints).sum

/-- How many of these rounds awarded points. -/
def awards (completed : List CompletedSaskuRound) : ℕ :=
  completed.countP fun done => done.score.Awards

/-- What holds of every match. -/
structure MatchInv (m : SaskuMatchState) : Prop where
  /-- the rounds are numbered from one on, and the dealer moves by one seat a round -/
  numbered : ∀ index done, m.completed[index]? = some done →
    done.round = index + 1 ∧ done.dealer.val = (3 + index) % 4
  produced : ∀ done ∈ m.completed, done.score.Produced
  /-- the totals are the sums of the awarded points -/
  totals : m.totals = (awardedPoints Prod.fst m.completed, awardedPoints Prod.snd m.completed)
  winner : m.winner = matchWinner m.totals
  /-- the next round, until someone wins -/
  open_ : m.winner = none → m.round = m.completed.length + 1 ∧ m.completed.length < 32
  won : m.winner ≠ none → m.round = m.completed.length
  /-- the two partnerships never both have the points to win -/
  exclusive : ¬ (SASKU_MATCH_TARGET ≤ m.totals.1 ∧ SASKU_MATCH_TARGET ≤ m.totals.2)

theorem matchWinner_eq_none {totals : ℕ × ℕ} :
    matchWinner totals = none ↔ totals.1 < SASKU_MATCH_TARGET ∧ totals.2 < SASKU_MATCH_TARGET := by
  unfold matchWinner
  split_ifs with h h'
  · simp [h.not_gt]
  · simp [h'.not_gt]
  · simp [not_le.1 h, not_le.1 h']

/-- What a recorded round is. -/
theorem recordSaskuRound_eq_ok {m next : SaskuMatchState} {dealer : SaskuSeat}
    {score : SaskuHandScore} : recordSaskuRound m dealer score = .ok next ↔
      (m.winner = none ∧ m.round = m.completed.length + 1 ∧ m.round ≤ MAX_SASKU_MATCH_ROUNDS) ∧
      dealer = dealerOf m.round ∧
      ∃ totals, totals = (m.totals.1 + score.gamePoints.1, m.totals.2 + score.gamePoints.2) ∧
        ¬ (matchWinner totals = none ∧ m.round = MAX_SASKU_MATCH_ROUNDS) ∧
        next = ⟨if matchWinner totals = none then m.round + 1 else m.round, totals,
          m.completed ++ [⟨m.round, dealer, score⟩], matchWinner totals⟩ := by
  unfold recordSaskuRound
  simp only [check_bind_eq_ok, throwIf_eq_ok, not_or, not_not, not_lt, except_pure_eq,
    Except.ok.injEq, exists_eq_left]
  constructor
  · rintro ⟨hopen, hdealer, hlimit, rfl⟩
    exact ⟨hopen, hdealer, hlimit, rfl⟩
  · rintro ⟨hopen, hdealer, hlimit, rfl⟩
    exact ⟨hopen, hdealer, hlimit, rfl⟩

theorem awardedPoints_snoc (side : ℕ × ℕ → ℕ) (completed : List CompletedSaskuRound)
    (done : CompletedSaskuRound) :
    awardedPoints side (completed ++ [done]) = awardedPoints side completed + side done.score.gamePoints := by
  simp [awardedPoints]

theorem MatchInv.record {m next : SaskuMatchState} {dealer : SaskuSeat} {score : SaskuHandScore}
    (h : MatchInv m) (hscore : score.Produced) (hnext : recordSaskuRound m dealer score = .ok next) :
    MatchInv next := by
  obtain ⟨⟨hopen, hround, hmax⟩, rfl, totals, htotals, hlimit, rfl⟩ := recordSaskuRound_eq_ok.1 hnext
  obtain ⟨hfirst, hsecond⟩ := matchWinner_eq_none.1 (h.winner ▸ hopen)
  refine ⟨?_, ?_, ?_, rfl, ?_, ?_, ?_⟩
  · intro index done hdone
    rw [List.getElem?_append] at hdone
    split at hdone
    · exact h.numbered index done hdone
    · rename_i hlast
      obtain ⟨hindex, hdone⟩ := List.getElem?_eq_some_iff.1 hdone
      rw [List.length_singleton] at hindex
      have hposition : index = m.completed.length := by omega
      rw [List.getElem_singleton] at hdone
      rw [← hdone, hposition]
      refine ⟨hround, ?_⟩
      simp only [dealerOf, hround]
      omega
  · intro done hdone
    rcases List.mem_append.1 hdone with hdone | hdone
    · exact h.produced done hdone
    · rw [List.mem_singleton.1 hdone]
      exact hscore
  · rw [htotals, awardedPoints_snoc, awardedPoints_snoc, h.totals]
  · intro hnone
    simp only at hnone
    refine ⟨?_, ?_⟩
    · simp only [if_pos hnone, List.length_append, List.length_singleton]
      omega
    · simp only [List.length_append, List.length_singleton]
      unfold MAX_SASKU_MATCH_ROUNDS at hlimit hmax
      have hne : m.round ≠ 32 := fun h32 => hlimit ⟨hnone, h32⟩
      omega
  · intro hsome
    simp only at hsome
    simp only [if_neg hsome, List.length_append, List.length_singleton]
    exact hround
  · rintro ⟨hreach, hreach'⟩
    rcases gamePoints_cases hscore with hzero | ⟨points, -, hpoints | hpoints⟩
    · simp only [htotals, hzero] at hreach
      omega
    · simp only [htotals, hpoints] at hreach'
      omega
    · simp only [htotals, hpoints] at hreach
      omega

theorem MatchReached.inv {m : SaskuMatchState} (h : MatchReached m) : MatchInv m := by
  induction h with
  | initial =>
      refine ⟨by simp [INITIAL_SASKU_MATCH], by simp [INITIAL_SASKU_MATCH], rfl, rfl, ?_, ?_, ?_⟩
      · exact fun _ => ⟨rfl, by decide⟩
      · exact fun hwinner => absurd rfl hwinner
      · decide
  | record _ hscore hnext ih => exact ih.record hscore hnext

/-! ## How long a match is -/

/-- How many of these rounds awarded points to a partnership. -/
def awardsTo (side : ℕ × ℕ → ℕ) (completed : List CompletedSaskuRound) : ℕ :=
  completed.countP fun done => side done.score.gamePoints ≠ 0

theorem awardsTo_cons (side : ℕ × ℕ → ℕ) (done : CompletedSaskuRound)
    (rest : List CompletedSaskuRound) : awardsTo side (done :: rest) =
      awardsTo side rest + if side done.score.gamePoints = 0 then 0 else 1 := by
  unfold awardsTo
  rw [List.countP_cons]
  by_cases h : side done.score.gamePoints = 0 <;> simp [h]

theorem awards_cons (done : CompletedSaskuRound) (rest : List CompletedSaskuRound) :
    awards (done :: rest) = awards rest + if done.score.gamePoints = (0, 0) then 0 else 1 := by
  unfold awards SaskuHandScore.Awards
  rw [List.countP_cons]
  by_cases h : done.score.gamePoints = (0, 0) <;> simp [h]

theorem two_mul_awardsTo_le (side : ℕ × ℕ → ℕ) {completed : List CompletedSaskuRound}
    (hfirst : ∀ points, 2 ≤ points → side (points, 0) = 0 ∨ 2 ≤ side (points, 0))
    (hsecond : ∀ points, 2 ≤ points → side (0, points) = 0 ∨ 2 ≤ side (0, points))
    (hzero : side (0, 0) = 0) (h : ∀ done ∈ completed, done.score.Produced) :
    2 * awardsTo side completed ≤ awardedPoints side completed := by
  induction completed with
  | nil => exact Nat.zero_le _
  | cons done rest ih =>
      obtain ⟨hdone, hrest⟩ := List.forall_mem_cons.1 h
      have hrest := ih hrest
      have hpoints : side done.score.gamePoints = 0 ∨ 2 ≤ side done.score.gamePoints := by
        rcases gamePoints_cases hdone with hnone | ⟨points, hle, hpoints | hpoints⟩
        · exact .inl (hnone ▸ hzero)
        · exact hpoints ▸ hfirst points hle
        · exact hpoints ▸ hsecond points hle
      have hsum : awardedPoints side (done :: rest) =
          side done.score.gamePoints + awardedPoints side rest := by simp [awardedPoints]
      rw [awardsTo_cons, hsum]
      split <;> omega

/-- A round that awards points awards them to one of the two. -/
theorem awards_le_awardsTo (completed : List CompletedSaskuRound) :
    awards completed ≤ awardsTo Prod.fst completed + awardsTo Prod.snd completed := by
  induction completed with
  | nil => exact Nat.zero_le _
  | cons done rest ih =>
      rw [awards_cons, awardsTo_cons, awardsTo_cons]
      by_cases hnone : done.score.gamePoints = (0, 0)
      · rw [if_pos hnone]
        omega
      · have hsome : ¬ (done.score.gamePoints.1 = 0 ∧ done.score.gamePoints.2 = 0) :=
          fun hzero => hnone (Prod.ext hzero.1 hzero.2)
        rw [if_neg hnone]
        split_ifs <;> omega

/-- While neither partnership has the points to win, at most ten hands awarded points. -/
theorem awards_le_ten {completed : List CompletedSaskuRound}
    (h : ∀ done ∈ completed, done.score.Produced)
    (hopen : matchWinner (awardedPoints Prod.fst completed, awardedPoints Prod.snd completed) = none) :
    awards completed ≤ 10 := by
  obtain ⟨hfirst, hsecond⟩ := matchWinner_eq_none.1 hopen
  have hfirst' := two_mul_awardsTo_le Prod.fst (fun _ hle => .inr hle)
    (fun _ _ => .inl rfl) rfl h
  have hsecond' := two_mul_awardsTo_le Prod.snd (fun _ _ => .inl rfl)
    (fun _ hle => .inr hle) rfl h
  have hsum := awards_le_awardsTo completed
  unfold SASKU_MATCH_TARGET at hfirst hsecond
  simp only at hfirst hsecond
  omega

/-- An open match has at most ten hands that awarded points. -/
theorem MatchInv.awards_le {m : SaskuMatchState} (h : MatchInv m) (hopen : m.winner = none) :
    awards m.completed ≤ 10 :=
  awards_le_ten h.produced (h.totals ▸ h.winner ▸ hopen)

theorem awards_append (completed later : List CompletedSaskuRound) :
    awards (completed ++ later) = awards completed + awards later := List.countP_append

theorem awards_le_length (completed : List CompletedSaskuRound) :
    awards completed ≤ completed.length := List.countP_le_length

/-- A match has at most eleven hands that awarded points. -/
theorem MatchReached.awards_le {m : SaskuMatchState} (h : MatchReached m) : awards m.completed ≤ 11 := by
  cases h with
  | initial => exact Nat.zero_le _
  | @record m _ dealer score h _ hnext =>
      obtain ⟨⟨hopen, -⟩, -, -, -, -, rfl⟩ := recordSaskuRound_eq_ok.1 hnext
      have hbefore := h.inv.awards_le hopen
      have hlast := awards_le_length [⟨m.round, dealer, score⟩]
      rw [List.length_singleton] at hlast
      rw [awards_append]
      omega

/-! ## Hand by hand -/

/-- The next hand is recorded with the dealer of its round; what throws leaves the match as it
is. -/
def SaskuMatchState.play (m : SaskuMatchState) (score : SaskuHandScore) : SaskuMatchState :=
  match dealerForSaskuRound m.round >>= fun dealer => recordSaskuRound m dealer score with
  | .ok next => next
  | .error _ => m

/-- The match after these hands. -/
def playAll (scores : List SaskuHandScore) : SaskuMatchState :=
  scores.foldl SaskuMatchState.play INITIAL_SASKU_MATCH

/-- The next hand of an open match is recorded, unless the match has no more rounds. -/
theorem MatchInv.record_open {m : SaskuMatchState} (h : MatchInv m) (hopen : m.winner = none)
    (score : SaskuHandScore) :
    (∃ next, recordSaskuRound m (dealerOf m.round) score = .ok next ∧
      next.completed = m.completed ++ [⟨m.round, dealerOf m.round, score⟩]) ∨
    recordSaskuRound m (dealerOf m.round) score = .error limitMessage ∧ m.completed.length = 31 := by
  obtain ⟨hround, hlength⟩ := h.open_ hopen
  have hclosed : ¬ (m.winner ≠ none ∨ m.round ≠ m.completed.length + 1 ∨
      MAX_SASKU_MATCH_ROUNDS < m.round) := by
    unfold MAX_SASKU_MATCH_ROUNDS
    rw [not_or, not_or, not_not, not_not]
    exact ⟨hopen, hround, by omega⟩
  unfold recordSaskuRound
  rw [throwIf_neg hclosed, ok_bind, throwIf_neg (not_not.2 rfl), ok_bind]
  simp only
  by_cases hlimit : matchWinner (m.totals.1 + score.gamePoints.1, m.totals.2 + score.gamePoints.2)
      = none ∧ m.round = MAX_SASKU_MATCH_ROUNDS
  · right
    rw [throwIf_pos hlimit]
    have hmax : m.round = 32 := hlimit.2
    exact ⟨rfl, by omega⟩
  · left
    rw [throwIf_neg hlimit, ok_bind]
    exact ⟨_, rfl, rfl⟩

/-- Only the last hand that is possible meets the limit. -/
theorem MatchInv.limit {m : SaskuMatchState} {dealer : SaskuSeat} {score : SaskuHandScore}
    (h : MatchInv m) (herror : recordSaskuRound m dealer score = .error limitMessage) :
    m.winner = none ∧ m.completed.length = 31 ∧ matchWinner
      (m.totals.1 + score.gamePoints.1, m.totals.2 + score.gamePoints.2) = none := by
  unfold recordSaskuRound at herror
  rcases bind_eq_error.1 herror with herror | ⟨_, hclosed, herror⟩
  · exact absurd (throwIf_eq_error.1 herror).2 (by decide)
  · rcases bind_eq_error.1 herror with herror | ⟨_, -, herror⟩
    · exact absurd (throwIf_eq_error.1 herror).2 (by decide)
    · rcases bind_eq_error.1 herror with herror | ⟨_, -, herror⟩
      · rw [throwIf_eq_ok, not_or, not_not] at hclosed
        obtain ⟨⟨hwinner, hmax⟩, -⟩ := throwIf_eq_error.1 herror
        obtain ⟨hround, -⟩ := h.open_ hclosed.1
        have hmax : m.round = 32 := hmax
        exact ⟨hclosed.1, by omega, hwinner⟩
      · cases herror

theorem play_of_open {m : SaskuMatchState} (h : MatchInv m) (hopen : m.winner = none)
    (score : SaskuHandScore) : m.play score =
      match recordSaskuRound m (dealerOf m.round) score with
      | .ok next => next
      | .error _ => m := by
  obtain ⟨hround, hlength⟩ := h.open_ hopen
  have hdealer : dealerForSaskuRound m.round = .ok (dealerOf m.round) := by
    unfold dealerForSaskuRound MAX_SASKU_MATCH_ROUNDS
    rw [throwIf_neg (by omega)]
    rfl
  rw [SaskuMatchState.play, hdealer, ok_bind]

/-- Nothing is recorded after a win. -/
theorem record_closed {m : SaskuMatchState} (h : m.winner ≠ none) (dealer : SaskuSeat)
    (score : SaskuHandScore) : recordSaskuRound m dealer score = .error closedMessage := by
  unfold recordSaskuRound
  rw [throwIf_pos (.inl h)]
  rfl

theorem play_closed {m : SaskuMatchState} (h : m.winner ≠ none) (score : SaskuHandScore) :
    m.play score = m := by
  unfold SaskuMatchState.play
  cases dealerForSaskuRound m.round with
  | error message => rfl
  | ok dealer => rw [ok_bind, record_closed h]

theorem MatchReached.play {m : SaskuMatchState} (h : MatchReached m) {score : SaskuHandScore}
    (hscore : score.Produced) : MatchReached (m.play score) := by
  unfold SaskuMatchState.play
  cases dealerForSaskuRound m.round with
  | error message => exact h
  | ok dealer =>
      rw [ok_bind]
      cases hnext : recordSaskuRound m dealer score with
      | error message => exact h
      | ok next => exact h.record hscore hnext

theorem playAll_snoc (scores : List SaskuHandScore) (score : SaskuHandScore) :
    playAll (scores ++ [score]) = (playAll scores).play score := by
  unfold playAll
  rw [List.foldl_append, List.foldl_cons, List.foldl_nil]

/-- The hands of the match, in order. -/
def SaskuMatchState.scores (m : SaskuMatchState) : List SaskuHandScore :=
  m.completed.map CompletedSaskuRound.score

theorem play_scores {m : SaskuMatchState} (score : SaskuHandScore) :
    (m.play score).scores = m.scores ∨ (m.play score).scores = m.scores ++ [score] := by
  unfold SaskuMatchState.play
  cases dealerForSaskuRound m.round with
  | error message => exact .inl rfl
  | ok dealer =>
      rw [ok_bind]
      cases hnext : recordSaskuRound m dealer score with
      | error message => exact .inl rfl
      | ok next =>
          obtain ⟨-, -, -, -, -, rfl⟩ := recordSaskuRound_eq_ok.1 hnext
          exact .inr (by simp [SaskuMatchState.scores])

theorem playAll_scores (scores : List SaskuHandScore) : (playAll scores).scores.Sublist scores := by
  induction scores using List.reverseRecOn with
  | nil => exact .refl _
  | append_singleton scores score ih =>
      rw [playAll_snoc]
      rcases play_scores (m := playAll scores) score with hsame | hnext
      · rw [hsame]
        exact ih.trans (List.sublist_append_left _ _)
      · rw [hnext]
        exact ih.append_right _

/-- A match that is still open has recorded every hand, or all the hands that it can record. -/
theorem playAll_open {scores : List SaskuHandScore} (h : ∀ score ∈ scores, score.Produced) :
    MatchReached (playAll scores) ∧ ((playAll scores).winner = none →
      (playAll scores).completed.length = scores.length ∨
        (playAll scores).completed.length = 31) := by
  induction scores using List.reverseRecOn with
  | nil => exact ⟨.initial, fun _ => .inl rfl⟩
  | append_singleton scores score ih =>
      rw [List.forall_mem_append] at h
      obtain ⟨hreached, hrecorded⟩ := ih h.1
      have hscore := h.2 score (List.mem_singleton_self score)
      rw [playAll_snoc]
      refine ⟨hreached.play hscore, fun hopen => ?_⟩
      by_cases hbefore : (playAll scores).winner = none
      · rcases hreached.inv.record_open hbefore score with ⟨next, hnext, hcompleted⟩ | ⟨hlimit, hlast⟩
        · rw [play_of_open hreached.inv hbefore, hnext] at hopen ⊢
          simp only at hopen ⊢
          have hlength := ((hreached.record hscore hnext).inv.open_ hopen).2
          rw [hcompleted, List.length_append, List.length_singleton] at hlength ⊢
          rw [List.length_append, List.length_singleton]
          have hrecorded := hrecorded hbefore
          omega
        · rw [play_of_open hreached.inv hbefore, hlimit]
          exact .inr hlast
      · rw [play_closed hbefore] at hopen
        exact absurd hopen hbefore

theorem awards_eq_length {m : SaskuMatchState} (h : ∀ score ∈ m.scores, score.Awards) :
    awards m.completed = m.completed.length := by
  refine List.countP_eq_length.2 fun done hdone => ?_
  exact decide_eq_true (h _ (List.mem_map_of_mem hdone))

/-- The hands that award nothing are the others. -/
theorem countP_not_awards (completed : List CompletedSaskuRound) :
    (completed.map CompletedSaskuRound.score).countP (fun score => ¬ score.Awards) =
      completed.length - awards completed := by
  induction completed with
  | nil => rfl
  | cons done rest ih =>
      have hle := awards_le_length rest
      rw [List.map_cons, List.countP_cons, ih, awards_cons, List.length_cons]
      unfold SaskuHandScore.Awards
      by_cases hzero : done.score.gamePoints = (0, 0)
      · simp only [hzero, ne_eq, not_true, not_false_iff, decide_true, if_true]
        omega
      · simp only [hzero, ne_eq, not_false_iff, not_true, decide_false, Bool.false_eq_true, if_false]
        omega

/-- The limit is met when 22 of the hands so far awarded nothing. -/
theorem MatchInv.limit_awards {m : SaskuMatchState} {dealer : SaskuSeat} {score : SaskuHandScore}
    (h : MatchInv m) (hscore : score.Produced)
    (herror : recordSaskuRound m dealer score = .error limitMessage) :
    22 ≤ (m.scores ++ [score]).countP fun score => ¬ score.Awards := by
  obtain ⟨hopen, hlength, hwinner⟩ := h.limit herror
  have hproduced : ∀ done ∈ m.completed ++ [⟨m.round, dealer, score⟩], done.score.Produced := by
    rw [List.forall_mem_append]
    exact ⟨h.produced, fun done hdone => List.mem_singleton.1 hdone ▸ hscore⟩
  rw [h.totals] at hwinner
  have hawards := awards_le_ten hproduced (by rw [awardedPoints_snoc, awardedPoints_snoc]; exact hwinner)
  have hscores : m.scores ++ [score] = List.map CompletedSaskuRound.score
      (m.completed ++ [⟨m.round, dealer, score⟩]) := by
    rw [List.map_append]
    rfl
  rw [hscores, countP_not_awards, List.length_append, List.length_singleton, hlength]
  omega

/-- **Match progression is sound.**  Of every match that is recorded hand by hand: the next round
is the one after the completed rounds until someone wins, the dealer moves by one seat a round, the
totals are the sums of the awarded points, and the two partnerships never both have the points to
win.  Nothing is recorded after a win.  When each hand awards points the match ends within eleven
hands.  The limit of rounds is met only when 22 of the hands up to this one awarded nothing. -/
theorem match_progression_sound :
    (∀ m, MatchReached m → MatchInv m) ∧
    (∀ m dealer score, m.winner ≠ none → recordSaskuRound m dealer score = .error closedMessage) ∧
    (∀ scores : List SaskuHandScore, (∀ score ∈ scores, score.Produced) →
      MatchReached (playAll scores) ∧
      ((∀ score ∈ scores, score.Awards) → 11 ≤ scores.length →
        (playAll scores).winner ≠ none ∧ (playAll scores).completed.length ≤ 11)) ∧
    ∀ m dealer score, MatchReached m → SaskuHandScore.Produced score →
      recordSaskuRound m dealer score = .error limitMessage →
      22 ≤ (m.scores ++ [score]).countP fun score => ¬ score.Awards := by
  refine ⟨fun m h => h.inv, fun m dealer score h => record_closed h dealer score,
    fun scores hscores => ⟨(playAll_open hscores).1, fun hawards hlength => ?_⟩, ?_⟩
  · obtain ⟨hreached, hrecorded⟩ := playAll_open hscores
    have hall := awards_eq_length (m := playAll scores) fun score hscore =>
      hawards score ((playAll_scores scores).subset hscore)
    have hbound := hreached.awards_le
    refine ⟨fun hopen => ?_, hall ▸ hbound⟩
    have hten := hreached.inv.awards_le hopen
    have hlast := hrecorded hopen
    omega
  · exact fun m dealer score h hscore herror => h.inv.limit_awards hscore herror

end Tablefolk
