import Tablefolk.Sasku.RoundStep

/-!
# The deal that was opened

Once every position is public, the revealed cards and the owners of the positions are a
deal, and the audit is the replay of the history against it.

* `SaskuRound.dealOf`: thirty-six different cards, one for each position, are a deal.
* `SaskuRound.buildAudit_eq`: the audit of a complete hand never throws; it is the first
  action that breaks a private rule of the opened deal, or the score.
-/

namespace Tablefolk

/-- The positions of a value are as many as its occurrences. -/
theorem length_filter_getElem? (l : List ℕ) (a : ℕ) :
    ((List.range l.length).filter fun i => l[i]? = some a).length = l.count a := by
  have hmap : (List.range l.length).map (fun i => l[i]?) = l.map some := by
    refine List.ext_getElem (by simp) fun i h _ => ?_
    simp
  rw [← List.countP_eq_length_filter, ← List.count_map_of_injective l some (Option.some_injective _),
    ← hmap, List.count, List.countP_map]
  refine List.countP_congr fun i _ => ?_
  simp

/-- A run never changes the dealer. -/
theorem dealer_of_run {s s' : HandState} {actions : List SaskuHandAction}
    (h : runActions s actions = .ok s') : s'.dealer = s.dealer := by
  induction actions generalizing s with
  | nil =>
      cases h
      rfl
  | cons a rest ih =>
      rw [runActions_cons] at h
      obtain ⟨mid, hmid, hrest⟩ := bind_eq_ok.1 h
      rw [ih hrest]
      obtain ⟨-, -, hstep⟩ := nextAction_ok_iff.1 hmid
      cases hstep <;> rfl

section

variable {q : ℕ} {G : Type} [AddCommGroup G] [Module (ZMod q) G]
  {P : Primitives q G} (R : SaskuRound P)

/-- The positions of a seat. -/
def SaskuRound.positionsOf (seat : SaskuSeat) : List ℕ :=
  (List.range 36).filter fun position => R.ledger.owner position = some seat.val

theorem SaskuRound.length_positionsOf (seat : SaskuSeat) : (R.positionsOf seat).length = 9 := by
  have hlength := length_filter_getElem? (dealOwners R.ledger.steps) seat.val
  rw [R.length_owners, R.nine seat] at hlength
  exact hlength

theorem SaskuRound.mem_positionsOf {seat : SaskuSeat} {position : ℕ} :
    position ∈ R.positionsOf seat ↔ R.ledger.owner position = some seat.val := by
  rw [positionsOf, List.mem_filter, List.mem_range, decide_eq_true_iff]
  exact ⟨fun h => h.2, fun h => ⟨R.lt_of_owner h, h⟩⟩

/-- Different cards at the 36 positions are a deal. -/
def SaskuRound.dealOf (card : ℕ → SaskuCardId)
    (hcard : ∀ p < 36, ∀ p' < 36, card p = card p' → p = p') : SaskuDeal where
  hands seat := (R.positionsOf seat).map card
  length_hand seat := by rw [List.length_map, R.length_positionsOf]
  nodup := by
    have hlt : ∀ {seat p}, p ∈ R.positionsOf seat → p < 36 := fun hp =>
      R.lt_of_owner (R.mem_positionsOf.1 hp)
    rw [List.nodup_flatMap]
    refine ⟨fun seat _ => (List.nodup_range.filter _).map_on fun p hp p' hp' =>
      hcard p (hlt hp) p' (hlt hp'), (List.nodup_finRange 4).imp fun {seat seat'} hne => ?_⟩
    intro c hc hc'
    obtain ⟨p, hp, rfl⟩ := List.mem_map.1 hc
    obtain ⟨p', hp', heq⟩ := List.mem_map.1 hc'
    obtain rfl := hcard p' (hlt hp') p (hlt hp) heq
    have howner := (R.mem_positionsOf.1 hp).symm.trans (R.mem_positionsOf.1 hp')
    exact hne (Fin.ext (Option.some.inj howner))

theorem SaskuRound.mem_dealOf {card : ℕ → SaskuCardId}
    (hcard : ∀ p < 36, ∀ p' < 36, card p = card p' → p = p') {seat : SaskuSeat}
    {held : SaskuCardId} : held ∈ (R.dealOf card hcard).hands seat ↔
      ∃ position, R.ledger.owner position = some seat.val ∧ card position = held := by
  show held ∈ (R.positionsOf seat).map card ↔ _
  rw [List.mem_map]
  exact exists_congr fun position => and_congr_left' R.mem_positionsOf

/-! ## The audit -/

variable [DecidableEq G] {R} {c : RoundCore G} {card : ℕ → SaskuCardId}

omit [DecidableEq G] in
/-- The cards of a round with every position public. -/
theorem openedCards_eq_ok (hrevealed : ∀ p < 36, c.ledger.revealed p = some (card p).text)
    {positions : List ℕ} (hpositions : ∀ p ∈ positions, p < 36) :
    R.openedCards c positions
      = .ok (positions.map fun p => ((R.ledger.owner p).getD 0, card p)) := by
  induction positions with
  | nil => rfl
  | cons position rest ih =>
      have hlt := hpositions position List.mem_cons_self
      obtain ⟨seat, howner⟩ := R.exists_owner hlt
      have hrest := ih fun p hp => hpositions p (List.mem_cons_of_mem _ hp)
      simp only [SaskuRound.openedCards, R.ownerAt_eq hlt, howner, hrevealed position hlt, hrest,
        liftError_eq_ok.2 (parseSaskuCard_text (card position)), ok_bind, List.map_cons]
      rfl

omit [DecidableEq G] in
theorem handsOf_openedCards (hcard : ∀ p < 36, ∀ p' < 36, card p = card p' → p = p') :
    SaskuRound.handsOf ((List.range 36).map fun p => ((R.ledger.owner p).getD 0, card p))
      = (R.dealOf card hcard).hands := by
  funext seat
  show _ = (R.positionsOf seat).map card
  rw [SaskuRound.handsOf, List.filter_map, List.map_map, SaskuRound.positionsOf]
  congr 1
  refine List.filter_congr fun position hposition => ?_
  obtain ⟨other, howner⟩ := R.exists_owner (List.mem_range.1 hposition)
  simp [howner]

/-- What the audit of a complete round is: the score, if the reference controller on
the opened deal accepts the whole history, else the first action it rejects. -/
inductive AuditVerdict (deal : SaskuDeal) (dealer : SaskuSeat) (hand : HandState) :
    SaskuRoundAuditResult → Prop
  | valid {final : HandState} {score : SaskuHandScore}
      (run : runActions (referenceHand dealer deal) hand.history = .ok final)
      (scored : hand.score = some score) : AuditVerdict deal dealer hand (.valid score)
  | violation {before after : List SaskuHandAction} {action : SaskuHandAction} {mid : HandState}
      {rule : SaskuHandAuditRule} (split : hand.history = before ++ action :: after)
      (run : runActions (referenceHand dealer deal) before = .ok mid)
      (rejected : RejectedFor deal mid action rule) :
      AuditVerdict deal dealer hand (.violation action.seat before.length rule)

omit [DecidableEq G] in
/-- **The audit of a complete round never throws.** -/
theorem buildAudit_eq_ok (hrun : runActions (publicHand R.dealer) c.hand.history = .ok c.hand)
    (hcomplete : c.hand.phase = .complete)
    (hrevealed : ∀ p < 36, c.ledger.revealed p = some (card p).text)
    (hcard : ∀ p < 36, ∀ p' < 36, card p = card p' → p = p') :
    ∃ result, R.buildAudit c = .ok result ∧
      AuditVerdict (R.dealOf card hcard) R.dealer c.hand result := by
  have hpublic := applyAll_of_run hrun
  have hdealer : c.hand.dealer = R.dealer := dealer_of_run hrun
  obtain ⟨checked, hchecked, houtcome⟩ :=
    auditSaskuHand_lockstep (R.dealOf card hcard) hpublic
  have hreached : Reached none c.hand :=
    reached_of_run (show applyAll (startHand R.dealer none) _ = .ok _ from hpublic)
  rw [SaskuRound.buildAudit, openedCards_eq_ok hrevealed (fun p hp => List.mem_range.1 hp), ok_bind,
    handsOf_openedCards hcard, hdealer, liftError_eq_ok.2 hchecked, ok_bind]
  rcases houtcome with ⟨final, hfinal, herase, rfl⟩ |
    ⟨before, action, after, mid, rule, hsplit, hmid, hrejected, rfl⟩
  · -- nothing was rejected: the reference controller shows the public score
    obtain ⟨-, -, -, _, score, -, -, hscore⟩ := hreached.finished hcomplete
    have hphase : final.phase = .complete := by
      have := congrArg HandState.phase herase
      exact this.trans hcomplete
    have hsnapshot : final.snapshot.score = some score := by
      have := congrArg HandState.score herase
      exact this.trans hscore
    refine ⟨.valid score, ?_, .valid hfinal hscore⟩
    simp only [finalResult, if_pos hphase, hsnapshot]
    rfl
  · exact ⟨_, rfl, .violation hsplit hmid hrejected⟩

end

end Tablefolk
