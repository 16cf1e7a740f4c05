import Tablefolk.Sasku.LiveRound

/-!
# The history of a match

What `#validateMatchHistory` of `apps/web/src/live-round.ts` passes: the loops over the chains of a
captured session, with the highest round so far.

* `checkRounds_eq_ok`, `checkChains_eq_ok`: the two loops.
* `match_history_exact`: the histories that pass.
-/

namespace Tablefolk

section

variable {q : ℕ} {G : Type} [AddCommGroup G] [Module (ZMod q) G] {P : Primitives q G}

namespace LiveRound

/-- The rounds of a chain, in order. -/
def matchRounds (chain : List SignedEnvelope) : List ℕ :=
  (chain.filter fun e => e.type.isRound).map fun e => e.round

/-- A chain goes through the rounds of a match in order. -/
def RoundsInOrder (chain : List SignedEnvelope) : Prop :=
  (matchRounds chain).Pairwise (· ≤ ·) ∧
    ∀ round ∈ matchRounds chain, 1 ≤ round ∧ round ≤ MAX_SASKU_MATCH_ROUNDS

theorem pairwise_le_cons_cons {prior round : ℕ} {rest : List ℕ} :
    (prior :: round :: rest).Pairwise (· ≤ ·) ↔
      prior ≤ round ∧ (round :: rest).Pairwise (· ≤ ·) := by
  rw [List.pairwise_cons, List.forall_mem_cons]
  constructor
  · rintro ⟨⟨hle, -⟩, hrest⟩
    exact ⟨hle, hrest⟩
  · rintro ⟨hle, hrest⟩
    refine ⟨⟨hle, fun other hother => ?_⟩, hrest⟩
    exact hle.trans ((List.pairwise_cons.1 hrest).1 other hother)

theorem checkRounds_eq_ok {prior highest result : ℕ} {chain : List SignedEnvelope} :
    checkRounds prior highest chain = .ok result ↔
      (prior :: matchRounds chain).Pairwise (· ≤ ·) ∧
      (∀ round ∈ matchRounds chain, 1 ≤ round ∧ round ≤ MAX_SASKU_MATCH_ROUNDS) ∧
      result = (matchRounds chain).foldl max highest := by
  induction chain generalizing prior highest with
  | nil => simp [checkRounds, matchRounds, eq_comm]
  | cons e rest ih =>
      rw [checkRounds]
      cases hround : e.type.isRound with
      | false =>
          have hsame : matchRounds (e :: rest) = matchRounds rest := by simp [matchRounds, hround]
          rw [if_pos rfl, ih, hsame]
      | true =>
          have hcons : matchRounds (e :: rest) = e.round :: matchRounds rest := by
            simp [matchRounds, hround]
          rw [if_neg (by simp), hcons, pairwise_le_cons_cons, List.forall_mem_cons, List.foldl_cons]
          by_cases hbad : e.round < 1 ∨ MAX_SASKU_MATCH_ROUNDS < e.round ∨ e.round < prior
          · rw [if_pos hbad]
            simp only [reduceCtorEq, false_iff]
            rintro ⟨⟨hle, -⟩, ⟨⟨hone, hmax⟩, -⟩, -⟩
            omega
          · rw [if_neg hbad, ih]
            push Not at hbad
            obtain ⟨hone, hmax, hle⟩ := hbad
            constructor
            · rintro ⟨hpairwise, hrange, hresult⟩
              exact ⟨⟨hle, hpairwise⟩, ⟨⟨hone, hmax⟩, hrange⟩, hresult⟩
            · rintro ⟨⟨-, hpairwise⟩, ⟨-, hrange⟩, hresult⟩
              exact ⟨hpairwise, hrange, hresult⟩

/-- The loop over the chains. -/
theorem checkChains_eq_ok {chains : ℕ → List SignedEnvelope} {seats : List ℕ}
    {highest result : ℕ} :
    seats.foldlM (fun highest seat => checkRounds 0 highest (chains seat)) highest = .ok result ↔
      (∀ seat ∈ seats, RoundsInOrder (chains seat)) ∧
      result = (seats.flatMap fun seat => matchRounds (chains seat)).foldl max highest := by
  induction seats generalizing highest with
  | nil => simp [except_pure_eq, eq_comm]
  | cons seat rest ih =>
      rw [List.foldlM_cons, List.forall_mem_cons, List.flatMap_cons, List.foldl_append]
      constructor
      · intro h
        obtain ⟨next, hnext, h⟩ := bind_eq_ok.1 h
        obtain ⟨hpairwise, hrange, rfl⟩ := checkRounds_eq_ok.1 hnext
        obtain ⟨hrest, hresult⟩ := ih.1 h
        exact ⟨⟨⟨(List.pairwise_cons.1 hpairwise).2, hrange⟩, hrest⟩, hresult⟩
      · rintro ⟨⟨⟨hpairwise, hrange⟩, hrest⟩, hresult⟩
        refine bind_eq_ok.2 ⟨_, checkRounds_eq_ok.2 ⟨?_, hrange, rfl⟩, ih.2 ⟨hrest, hresult⟩⟩
        exact List.pairwise_cons.2 ⟨fun _ _ => Nat.zero_le _, hpairwise⟩

theorem foldl_max_le {rounds : List ℕ} {highest bound : ℕ} :
    rounds.foldl max highest ≤ bound ↔ highest ≤ bound ∧ ∀ round ∈ rounds, round ≤ bound := by
  induction rounds generalizing highest with
  | nil => simp
  | cons round rest ih => rw [List.foldl_cons, ih, max_le_iff, List.forall_mem_cons, and_assoc]

/-- The owner has read a valid audit of its round. -/
def AuditValid (s : LiveRound P) (reads : LiveReads P) : Prop :=
  ∃ state pending score produced, s.stateOf reads = some state ∧
    state.audit = some ⟨pending, some (.valid score produced)⟩

theorem auditComplete_iff {s : LiveRound P} {reads : LiveReads P} :
    s.auditComplete reads = true ↔ s.AuditValid reads := by
  unfold auditComplete AuditValid
  cases hstate : s.stateOf reads with
  | none => simp
  | some state =>
      cases haudit : state.audit with
      | none => simp [haudit]
      | some audit =>
          obtain ⟨pending, result⟩ := audit
          rcases result with _ | ⟨score, produced⟩ | rule
          · simp [haudit]
          · exact ⟨fun _ => ⟨state, pending, score, produced, rfl, haudit⟩,
              fun _ => by simp [haudit]⟩
          · simp [haudit]

/-- **The history of a match.**  `#validateMatchHistory` passes a history if and only if it can be
captured, every chain in it goes through the rounds of the match in order, and no chain is beyond
the present round, unless nobody has won and the owner has a valid audit of the present round. -/
theorem match_history_exact (ed : Ed25519) (s : LiveRound P) (reads : LiveReads P) :
    s.validateMatchHistory ed reads = .ok () ↔
      ∃ history, captureSessionHistory ed reads.session MATCH_HISTORY_LIMITS = .ok history ∧
        (∀ seat < history.roster.size, RoundsInOrder (history.bySeat seat)) ∧
        (s.matchState.winner = none ∧ s.AuditValid reads ∨
          ∀ seat < history.roster.size, ∀ round ∈ matchRounds (history.bySeat seat),
            round ≤ s.matchState.round) := by
  have hseats : ∀ (history : CapturedSessionHistory P) (p : ℕ → Prop),
      (∀ seat ∈ List.range history.roster.size, p seat) ↔ ∀ seat < history.roster.size, p seat := by
    simp
  have hbound : ∀ history : CapturedSessionHistory P,
      ((List.range history.roster.size).flatMap fun seat =>
          matchRounds (history.bySeat seat)).foldl max 0 ≤ s.matchState.round ↔
        ∀ seat < history.roster.size, ∀ round ∈ matchRounds (history.bySeat seat),
          round ≤ s.matchState.round := by
    intro history
    rw [foldl_max_le]
    simp only [Nat.zero_le, true_and, List.mem_flatMap, List.mem_range, forall_exists_index, and_imp]
    exact ⟨fun h seat hseat round hround => h round seat hseat hround,
      fun h round seat hseat hround => h seat hseat round hround⟩
  rw [← auditComplete_iff]
  unfold validateMatchHistory
  constructor
  · intro h
    obtain ⟨history, hhistory, h⟩ := bind_eq_ok.1 h
    obtain ⟨highest, hhighest, h⟩ := bind_eq_ok.1 h
    obtain ⟨horder, rfl⟩ := checkChains_eq_ok.1 hhighest
    refine ⟨history, hhistory, (hseats history _).1 horder, ?_⟩
    rw [throwIf_eq_ok, not_and_or, not_lt, not_or, not_not, Bool.not_eq_false] at h
    rcases h with hle | hcomplete
    · exact .inr ((hbound history).1 hle)
    · exact .inl hcomplete
  · rintro ⟨history, hhistory, horder, hround⟩
    refine bind_eq_ok.2 ⟨history, hhistory, bind_eq_ok.2
      ⟨_, checkChains_eq_ok.2 ⟨(hseats history _).2 horder, rfl⟩, ?_⟩⟩
    rw [throwIf_eq_ok, not_and_or, not_lt, not_or, not_not, Bool.not_eq_false]
    rcases hround with hcomplete | hle
    · exact .inr hcomplete
    · exact .inl ((hbound history).2 hle)

end LiveRound

end

end Tablefolk
