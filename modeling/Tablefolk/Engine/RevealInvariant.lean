import Tablefolk.Engine.RevealStep
import Tablefolk.Lib.Replay

/-!
# The invariant of the reveal ledger

What every state of the ledger satisfies that is reached by accepted envelopes.

* The phase strings of different steps differ, so an envelope fits one step only.
* `owner_of_mem_schedule`, `exists_step_of_owner`: the steps of the schedule deal
  the owned positions, each to its owner.
* `LedgerInv` is the invariant, `LedgerInv.step` says that every accepted envelope
  keeps it.
-/

namespace Tablefolk

/-! ## Phases -/

theorem toString_nat_injective {m n : ℕ} (h : toString m = toString n) : m = n :=
  Nat.repr_injective h

theorem playPhase_injective {round i j : ℕ} (h : playPhase round i = playPhase round j) : i = j :=
  toString_nat_injective (String.append_right_inj _ |>.1 h)

theorem dealPhase_injective {round i j : ℕ} (h : dealPhase round i = dealPhase round j) : i = j :=
  toString_nat_injective (String.append_right_inj _ |>.1 h)

/-! ## The schedule -/

/-- A position of a step is dealt to the seat of the step. -/
theorem owner_of_mem_scheduleFrom {steps : List PrivateDealStep} {cursor position : ℕ}
    {step : ScheduledDeal} (h : step ∈ scheduleFrom cursor steps) (hmem : position ∈ step.positions) :
    cursor ≤ position ∧ (dealOwners steps)[position - cursor]? = some step.to_ := by
  induction steps generalizing cursor with
  | nil => simp [scheduleFrom] at h
  | cons first rest ih =>
      rw [dealOwners, List.flatMap_cons]
      rcases List.mem_cons.1 h with rfl | h
      · obtain ⟨hle, hlt⟩ := List.mem_range'_1.1 hmem
        rw [List.getElem?_append_left (by simp; omega), List.getElem?_replicate,
          if_pos (by omega)]
        exact ⟨hle, rfl⟩
      · obtain ⟨hle, howner⟩ := ih h
        rw [List.getElem?_append_right (by simp; omega), List.length_replicate,
          Nat.sub_sub, ← howner]
        exact ⟨by omega, rfl⟩

/-- Every dealt position belongs to a step. -/
theorem exists_mem_scheduleFrom {steps : List PrivateDealStep} {cursor index seat : ℕ}
    (h : (dealOwners steps)[index]? = some seat) : ∃ step ∈ scheduleFrom cursor steps,
      step.to_ = seat ∧ cursor + index ∈ step.positions := by
  induction steps generalizing cursor index with
  | nil => simp [dealOwners] at h
  | cons first rest ih =>
      rw [dealOwners, List.flatMap_cons] at h
      by_cases hlt : index < first.count
      · rw [List.getElem?_append_left (by simpa using hlt), List.getElem?_replicate,
          if_pos hlt] at h
        cases h
        exact ⟨_, List.mem_cons_self, rfl, List.mem_range'_1.2 ⟨by omega, by omega⟩⟩
      · rw [List.getElem?_append_right (by simpa using hlt), List.length_replicate] at h
        obtain ⟨step, hmem, hto, hpos⟩ := ih h
        refine ⟨step, List.mem_cons_of_mem _ hmem, hto, ?_⟩
        rwa [Nat.add_assoc, Nat.add_sub_cancel' (by omega)] at hpos

theorem mem_steps_of_mem_scheduleFrom {steps : List PrivateDealStep} {cursor : ℕ}
    {step : ScheduledDeal} (h : step ∈ scheduleFrom cursor steps) :
    ∃ s ∈ steps, step.to_ = s.to_ ∧ step.positions.length = s.count ∧ step.positions.Nodup := by
  induction steps generalizing cursor with
  | nil => simp [scheduleFrom] at h
  | cons first rest ih =>
      rcases List.mem_cons.1 h with rfl | h
      · exact ⟨first, List.mem_cons_self, rfl, List.length_range', List.nodup_range'⟩
      · obtain ⟨s, hs, hrest⟩ := ih h
        exact ⟨s, List.mem_cons_of_mem _ hs, hrest⟩

section

variable {q : ℕ} {G : Type} [AddCommGroup G] [Module (ZMod q) G]
  {P : Primitives q G} {L : RoundReveal P}

theorem owner_of_mem_schedule {step : ScheduledDeal} {position : ℕ} (h : step ∈ L.schedule)
    (hmem : position ∈ step.positions) : L.owner position = some step.to_ :=
  (owner_of_mem_scheduleFrom h hmem).2

theorem exists_step_of_owner {position seat : ℕ} (h : L.owner position = some seat) :
    ∃ step ∈ L.schedule, step.to_ = seat ∧ position ∈ step.positions := by
  obtain ⟨step, hmem, hto, hpos⟩ :
      ∃ step ∈ scheduleFrom 0 L.steps, step.to_ = seat ∧ 0 + position ∈ step.positions :=
    exists_mem_scheduleFrom h
  exact ⟨step, hmem, hto, by rwa [Nat.zero_add] at hpos⟩

theorem recipient_lt_size {step : ScheduledDeal} (h : step ∈ L.schedule) :
    step.to_ < L.roster.size := by
  obtain ⟨s, hs, hto, -⟩ := mem_steps_of_mem_scheduleFrom h
  exact hto ▸ L.steps_ok.seats s hs

theorem lt_deck_of_owner {position seat : ℕ} (h : L.owner position = some seat) :
    position < L.deck.length := by
  obtain ⟨hlt, -⟩ := List.getElem?_eq_some_iff.1 h
  exact lt_of_lt_of_le hlt L.steps_ok.size

theorem mem_schedule_of_currentDeal {s : LedgerState G} {step : ScheduledDeal}
    (h : L.currentDeal s = some step) : step ∈ L.schedule := List.mem_of_getElem? h

theorem cardAt_of_lt {position : ℕ} (h : position < L.deck.length) :
    ∃ card, L.deck[position]? = some card ∧ L.cardAt position = .ok card :=
  ⟨L.deck[position], List.getElem?_eq_getElem h, by
    rw [RoundReveal.cardAt, List.getElem?_eq_getElem h]⟩

theorem of_cardAt_eq_ok {position : ℕ} {card : MaskedCard G} (h : L.cardAt position = .ok card) :
    L.deck[position]? = some card := by
  rw [RoundReveal.cardAt] at h
  split at h
  · cases h
    assumption
  · cases h

/-! ## Donors -/

/-- The seats that contribute to a step. -/
def RoundReveal.donors (L : RoundReveal P) (step : ScheduledDeal) : Finset ℕ :=
  (Finset.range L.roster.size).filter (L.isDonor step)

theorem mem_donors {step : ScheduledDeal} {seat : ℕ} : seat ∈ L.donors step ↔ L.isDonor step seat := by
  simp [RoundReveal.donors, RoundReveal.isDonor]

theorem card_donors {step : ScheduledDeal} (h : step ∈ L.schedule) :
    (L.donors step).card = L.donorCount := by
  have hto := recipient_lt_size h
  by_cases hbatch : L.batchDeal = true
  · have heq : L.donors step = Finset.range L.roster.size := by
      ext seat
      simp [mem_donors, RoundReveal.isDonor, hbatch]
    rw [heq, RoundReveal.donorCount, if_pos hbatch, Finset.card_range]
  · have heq : L.donors step = (Finset.range L.roster.size).erase step.to_ := by
      ext seat
      simp [mem_donors, RoundReveal.isDonor, hbatch, and_comm]
    rw [heq, RoundReveal.donorCount, if_neg hbatch, Finset.card_erase_of_mem (by simpa using hto),
      Finset.card_range]

theorem donorCount_pos : 2 ≤ L.donorCount := by
  have hsize := L.roster.three_le
  rw [RoundReveal.donorCount, Roster.size]
  split <;> omega

/-! ## What the loops check -/

section Loops

variable [DecidableEq G] {s : LedgerState G} {context : ProofContext} {seat : ℕ}

/-- `item` is a verified share of the seat's for its position. -/
def RoundReveal.Verified (L : RoundReveal P) (context : ProofContext) (seat : ℕ)
    (item : PositionShare q G) : Prop :=
  ∃ masked : MaskedCard G, L.deck[item.pos]? = some masked ∧
    P.verifyProvenDecryptionShare context item.pos (L.publicKey seat) masked.A item.share = true

theorem checkShares_eq_ok {items : List (PositionShare q G)} :
    L.checkShares context seat items = .ok () ↔ ∀ item ∈ items, L.Verified context seat item := by
  induction items with
  | nil => simp [RoundReveal.checkShares]
  | cons item rest ih =>
      rw [RoundReveal.checkShares, bind_eq_ok, List.forall_mem_cons]
      constructor
      · rintro ⟨masked, hmasked, h⟩
        obtain ⟨hproof, hrest⟩ := check_bind_eq_ok.1 h
        exact ⟨⟨masked, of_cardAt_eq_ok hmasked, by simpa using hproof⟩, ih.1 hrest⟩
      · rintro ⟨⟨masked, hmasked, hproof⟩, hrest⟩
        exact ⟨masked, by rw [RoundReveal.cardAt, hmasked], by
          rw [throwIf_neg (by simp [hproof]), ok_bind, ih.2 hrest]⟩

omit [DecidableEq G] in
/-- The positions of the items are those the seat has to give shares for. -/
theorem exists_item_iff {step : ScheduledDeal} {items : List (PositionShare q G)}
    (hok : ItemsOk items) (hstep : step ∈ L.schedule)
    (h : L.positionsMatch items (L.sharePositions step seat)) (position : ℕ) :
    (∃ item ∈ items, item.pos = position) ↔ position ∈ L.sharePositions step seat := by
  rw [← List.mem_map]
  obtain ⟨hlen, hmatch⟩ := h
  split at hmatch
  · rw [hmatch]
  · rename_i hbatch
    obtain ⟨_, -, -, -, hnodup⟩ := mem_steps_of_mem_scheduleFrom hstep
    have hpositions : L.sharePositions step seat = step.positions := if_neg hbatch
    have hsub : (items.map PositionShare.pos).Subperm (L.sharePositions step seat) :=
      List.subperm_of_subset hok.distinct fun p hp => by
        obtain ⟨item, hitem, rfl⟩ := List.mem_map.1 hp
        exact hmatch item hitem
    exact (hsub.perm_of_length_le (by simp [hlen])).mem_iff

/-- `card` is what a verified share of the seat opens. -/
def RoundReveal.Opens (L : RoundReveal P) (s : LedgerState G) (context : ProofContext) (seat : ℕ)
    (item : PositionShare q G) (entry : ℕ × String) : Prop :=
  entry.1 = item.pos ∧ L.Verified context seat item ∧
    L.openCard s item.pos seat item.share.S = .ok (some entry.2)

/-- What the loop over the shares of an action has opened: each card once, and none
that was public before. -/
theorem openShares_eq_ok {items : List (PositionShare q G)} {opened result : List (ℕ × String)}
    (h : L.openShares s context seat opened items = .ok result) :
    ∃ new, result = opened ++ new ∧ List.Forall₂ (L.Opens s context seat) items new ∧
      (new.map Prod.snd).Nodup ∧
      ∀ entry ∈ new, entry.2 ∉ L.revealedCards s ++ opened.map Prod.snd := by
  induction items generalizing opened with
  | nil =>
      cases h
      exact ⟨[], by simp⟩
  | cons item rest ih =>
      rw [RoundReveal.openShares, bind_eq_ok] at h
      obtain ⟨masked, hmasked, h⟩ := h
      obtain ⟨hproof, h⟩ := check_bind_eq_ok.1 h
      obtain ⟨card, hcard, h⟩ := bind_eq_ok.1 h
      split at h
      · cases h
      · rename_i card
        obtain ⟨hfresh, h⟩ := check_bind_eq_ok.1 h
        rw [throwIf_eq_ok] at hfresh
        obtain ⟨new, rfl, hforall, hnodup, hnew⟩ := ih h
        refine ⟨(item.pos, card) :: new, by simp, .cons ⟨rfl, ⟨masked, of_cardAt_eq_ok hmasked,
          by simpa using hproof⟩, hcard⟩ hforall, ?_, ?_⟩
        · rw [List.map_cons, List.nodup_cons]
          refine ⟨fun hmem => ?_, hnodup⟩
          obtain ⟨entry, hentry, heq⟩ := List.mem_map.1 hmem
          exact hnew entry hentry (by simp [heq])
        · intro entry hentry
          rcases List.mem_cons.1 hentry with rfl | hentry
          · exact hfresh
          · exact fun hmem => hnew entry hentry (by
              rcases List.mem_append.1 hmem with hmem | hmem
              · exact List.mem_append_left _ hmem
              · exact List.mem_append_right _ (by
                  rw [List.map_append]
                  exact List.mem_append_left _ hmem))

omit [DecidableEq G] in
theorem checkReveal_eq_ok {positions : List ℕ} : L.checkReveal s seat positions = .ok () ↔
    ∀ position ∈ positions, L.owner position = some seat ∧ s.revealed position = none := by
  induction positions with
  | nil => simp [RoundReveal.checkReveal]
  | cons position rest ih =>
      rw [RoundReveal.checkReveal, check_bind_eq_ok, check_bind_eq_ok, check_bind_eq_ok,
        throwIf_eq_ok, throwIf_eq_ok, throwIf_eq_ok, ih, List.forall_mem_cons]
      constructor
      · rintro ⟨-, howner, hhidden, hrest⟩
        exact ⟨⟨not_not.1 howner, by simpa using hhidden⟩, hrest⟩
      · rintro ⟨⟨howner, hhidden⟩, hrest⟩
        exact ⟨by simp [howner], not_not.2 howner, by simp [hhidden], hrest⟩

omit [DecidableEq G] in
theorem mem_revealedCards {card : String} :
    card ∈ L.revealedCards s ↔ ∃ position < L.deck.length, s.revealed position = some card := by
  simp [RoundReveal.revealedCards]

end Loops

/-! ## The invariant -/

/-- A share that verified against the donor's key, in some phase of the round. -/
def RoundReveal.Vouched [DecidableEq G] (L : RoundReveal P) (position donor : ℕ) (S : G) : Prop :=
  ∃ (phase : String) (share : ProvenDecryptionShare q G),
    L.Verified ⟨L.gameId, L.round, phase⟩ donor ⟨position, share⟩ ∧ share.S = S

/-- A seat has given its shares for step `i`. -/
def LedgerState.Gave (s : LedgerState G) (i seat : ℕ) : Prop :=
  i < s.dealIndex ∨ i = s.dealIndex ∧ seat ∈ s.contributors

/-- The invariant of the ledger. -/
structure LedgerInv [DecidableEq G] (L : RoundReveal P) (s : LedgerState G) : Prop where
  /-- a batch is one step -/
  batch : L.batchDeal = true → L.currentDeal s ≠ none → s.dealIndex = 0
  donors : ∀ seat ∈ s.contributors, ∃ step, L.currentDeal s = some step ∧ L.isDonor step seat
  waiting : s.contributors.card < L.donorCount
  /-- nobody's shares are missing -/
  held : ∀ i step seat, L.schedule[i]? = some step → L.isDonor step seat → s.Gave i seat →
    ∀ position ∈ L.sharePositions step seat, (s.shares position seat).isSome
  vouched : ∀ position donor S, s.shares position donor = some S → L.Vouched position donor S
  actionIndex_le : s.actionIndex ≤ L.maxActions
  dealt : s.actionIndex ≠ 0 → L.currentDeal s = none
  /-- a public card is what its owner's share opened -/
  opened : ∀ position card, s.revealed position = some card → L.currentDeal s = none ∧
    ∃ seat own, L.owner position = some seat ∧ L.Vouched position seat own ∧
      L.openCard s position seat own = .ok (some card)
  distinct : ∀ position position' card, s.revealed position = some card →
    s.revealed position' = some card → position = position'

variable [DecidableEq G] {s s' : LedgerState G} {e : SignedEnvelope} {seat : ℕ}

theorem LedgerInv.start : LedgerInv L (LedgerState.start : LedgerState G) where
  batch := fun _ _ => rfl
  donors := by simp [LedgerState.start]
  waiting := lt_of_lt_of_le (by simp [LedgerState.start]) donorCount_pos
  held := by simp [LedgerState.start, LedgerState.Gave]
  vouched := by simp [LedgerState.start]
  actionIndex_le := Nat.zero_le _
  dealt := fun h => absurd rfl h
  opened := by simp [LedgerState.start]
  distinct := by simp [LedgerState.start]

/-- The seats that have contributed once `seat` has. -/
theorem insert_contributors (h : LedgerInv L s) {step : ScheduledDeal}
    (hdeal : L.currentDeal s = some step) (hdonor : L.isDonor step seat) :
    insert seat s.contributors ⊆ L.donors step := by
  refine Finset.insert_subset (mem_donors.2 hdonor) fun other hother => ?_
  obtain ⟨step', hdeal', hother⟩ := h.donors other hother
  cases hdeal.symm.trans hdeal'
  exact mem_donors.2 hother

theorem SharesAccepted.isDonor {step : ScheduledDeal} {body : SharesBody q G}
    (h : SharesAccepted L s e seat step body) : L.isDonor step seat :=
  ⟨Roster.lt_size_of_seatOf h.scope.seat, h.donor⟩

omit [DecidableEq G] in
/-- The shares of a contribution. -/
theorem contribute_shares (L : RoundReveal P) (s : LedgerState G) (hash : Hash256) (seat : ℕ)
    (items : List (PositionShare q G)) (position donor : ℕ) :
    (∃ item ∈ items, item.pos = position ∧
        (L.contribute s hash seat items).shares position donor
          = if donor = seat then some item.share.S else s.shares position donor) ∨
    (∀ item ∈ items, item.pos ≠ position) ∧
      (L.contribute s hash seat items).shares position donor = s.shares position donor := by
  simp only [RoundReveal.contribute]
  cases hfind : items.find? fun item => item.pos = position with
  | none =>
      refine .inr ⟨fun item hitem => by simpa using List.find?_eq_none.1 hfind item hitem, ?_⟩
      split <;> rfl
  | some item =>
      exact .inl ⟨item, List.mem_of_find?_eq_some hfind, by simpa using List.find?_some hfind, rfl⟩

/-- No share is lost, and the contributor's are added. -/
theorem SharesAccepted.gives {step : ScheduledDeal} {body : SharesBody q G}
    (h : SharesAccepted L s e seat step body) {position donor : ℕ}
    (hgave : (s.shares position donor).isSome ∨
      donor = seat ∧ position ∈ L.sharePositions step seat) :
    ((L.contribute s (P.hashEnvelope e) seat body.items).shares position donor).isSome := by
  have hok := itemsOk_of_decodeSharesBody P h.decoded
  have hitems := exists_item_iff hok (mem_schedule_of_currentDeal h.deal) h.positions position
  rcases contribute_shares L s (P.hashEnvelope e) seat body.items position donor with
    ⟨item, hitem, hpos, heq⟩ | ⟨hnone, heq⟩
  · rw [heq]
    split
    · rfl
    · rename_i hne
      exact hgave.resolve_right fun hgave => hne hgave.1
  · rw [heq]
    refine hgave.resolve_right fun hgave => ?_
    obtain ⟨item, hitem, hpos⟩ := hitems.2 hgave.2
    exact hnone item hitem hpos

theorem SharesAccepted.vouched {step : ScheduledDeal} {body : SharesBody q G}
    (h : SharesAccepted L s e seat step body) (hinv : LedgerInv L s) {position donor : ℕ} {S : G}
    (hS : (L.contribute s (P.hashEnvelope e) seat body.items).shares position donor = some S) :
    L.Vouched position donor S := by
  rcases contribute_shares L s (P.hashEnvelope e) seat body.items position donor with
    ⟨item, hitem, hpos, heq⟩ | ⟨-, heq⟩
  · rw [heq] at hS
    split at hS
    · rename_i hdonor
      cases hS
      subst hpos hdonor
      exact ⟨e.phase, item.share, checkShares_eq_ok.1 h.proofs item hitem, rfl⟩
    · exact hinv.vouched position donor S hS
  · exact hinv.vouched position donor S (heq ▸ hS)

/-- While cards are dealt nothing is revealed and no action was made. -/
theorem LedgerInv.of_dealing (h : LedgerInv L s) {step : ScheduledDeal}
    (hdeal : L.currentDeal s = some step) : s.actionIndex = 0 ∧ ∀ position, s.revealed position = none := by
  refine ⟨?_, fun position => ?_⟩
  · by_contra hne
    cases hdeal.symm.trans (h.dealt hne)
  · cases hrevealed : s.revealed position with
    | none => rfl
    | some card => cases hdeal.symm.trans (h.opened position card hrevealed).1

/-- A contribution that does not complete its step. -/
theorem LedgerInv.contribute_more (h : LedgerInv L s) {step : ScheduledDeal} {body : SharesBody q G}
    (haccepted : SharesAccepted L s e seat step body)
    (hmore : (insert seat s.contributors).card ≠ L.donorCount) :
    LedgerInv L (L.contribute s (P.hashEnvelope e) seat body.items) := by
  obtain ⟨hindex, hhidden⟩ := h.of_dealing haccepted.deal
  have hsub := insert_contributors h haccepted.deal haccepted.isDonor
  have hdealIndex : (L.contribute s (P.hashEnvelope e) seat body.items).dealIndex = s.dealIndex :=
    if_neg hmore
  have hcontributors : (L.contribute s (P.hashEnvelope e) seat body.items).contributors
      = insert seat s.contributors := if_neg hmore
  have hdeal : L.currentDeal (L.contribute s (P.hashEnvelope e) seat body.items) = some step := by
    rw [RoundReveal.currentDeal, hdealIndex]
    exact haccepted.deal
  exact
    { batch := fun hbatch _ => hdealIndex.trans (h.batch hbatch (by simp [haccepted.deal]))
      donors := fun other hother => ⟨step, hdeal, mem_donors.1 (hsub (hcontributors ▸ hother))⟩
      waiting := by
        have hcard := card_donors (mem_schedule_of_currentDeal haccepted.deal)
        have hle := Finset.card_le_card hsub
        rw [hcontributors]
        omega
      held := by
        intro i step' other hi hdonor hgave position hposition
        rw [LedgerState.Gave, hdealIndex, hcontributors, Finset.mem_insert] at hgave
        rcases hgave with hlt | ⟨rfl, rfl | hmem⟩
        · exact haccepted.gives (.inl (h.held i step' other hi hdonor (.inl hlt) position hposition))
        · cases hi.symm.trans haccepted.deal
          exact haccepted.gives (.inr ⟨rfl, hposition⟩)
        · exact haccepted.gives
            (.inl (h.held _ step' other hi hdonor (.inr ⟨rfl, hmem⟩) position hposition))
      vouched := fun _ _ _ => haccepted.vouched h
      actionIndex_le := h.actionIndex_le
      dealt := fun hne => absurd hindex hne
      opened := fun position card hrevealed => by
        cases (hhidden position).symm.trans hrevealed
      distinct := h.distinct }

/-- The contribution that completes its step. -/
theorem LedgerInv.contribute_last (h : LedgerInv L s) {step : ScheduledDeal} {body : SharesBody q G}
    (haccepted : SharesAccepted L s e seat step body)
    (hlast : (insert seat s.contributors).card = L.donorCount) :
    LedgerInv L (L.contribute s (P.hashEnvelope e) seat body.items) := by
  obtain ⟨hindex, hhidden⟩ := h.of_dealing haccepted.deal
  have hstep := mem_schedule_of_currentDeal haccepted.deal
  have hall : insert seat s.contributors = L.donors step := Finset.eq_of_subset_of_card_le
    (insert_contributors h haccepted.deal haccepted.isDonor) (by rw [card_donors hstep, hlast])
  have hdealIndex : (L.contribute s (P.hashEnvelope e) seat body.items).dealIndex
      = s.dealIndex + if L.batchDeal then L.schedule.length else 1 := if_pos hlast
  have hcontributors : (L.contribute s (P.hashEnvelope e) seat body.items).contributors = ∅ :=
    if_pos hlast
  -- every donor of the step has given its shares by now
  have hgiven : ∀ other, L.isDonor step other → ∀ position ∈ L.sharePositions step other,
      ((L.contribute s (P.hashEnvelope e) seat body.items).shares position other).isSome := by
    intro other hdonor position hposition
    have hmem := mem_donors.2 hdonor
    rw [← hall, Finset.mem_insert] at hmem
    rcases hmem with rfl | hmem
    · exact haccepted.gives (.inr ⟨rfl, hposition⟩)
    · exact haccepted.gives (.inl (h.held _ step other haccepted.deal hdonor (.inr ⟨rfl, hmem⟩)
        position hposition))
  exact
    { batch := fun hbatch hdealing => by
        rw [if_pos hbatch] at hdealIndex
        exact absurd (List.getElem?_eq_none (by omega)) hdealing
      donors := by simp [hcontributors]
      waiting := by
        rw [hcontributors, Finset.card_empty]
        exact lt_of_lt_of_le (by omega) donorCount_pos
      held := by
        intro i step' other hi hdonor hgave position hposition
        rw [LedgerState.Gave, hdealIndex, hcontributors] at hgave
        have hlt := hgave.resolve_right (by simp)
        by_cases hbatch : L.batchDeal = true
        · -- a batch gives the same positions whatever the step is called
          have hsame : L.sharePositions step' other = L.sharePositions step other := by
            simp [RoundReveal.sharePositions, hbatch]
          exact hgiven other ⟨hdonor.1, .inl hbatch⟩ position (hsame ▸ hposition)
        · rw [if_neg hbatch] at hlt
          by_cases hi' : i = s.dealIndex
          · subst hi'
            cases hi.symm.trans haccepted.deal
            exact hgiven other hdonor position hposition
          · exact haccepted.gives
              (.inl (h.held i step' other hi hdonor (.inl (by omega)) position hposition))
      vouched := fun _ _ _ => haccepted.vouched h
      actionIndex_le := h.actionIndex_le
      dealt := fun hne => absurd hindex hne
      opened := fun position card hrevealed => by
        cases (hhidden position).symm.trans hrevealed
      distinct := h.distinct }

/-! ## Actions -/

theorem exists_of_mem_forall₂ {α β : Type} {R : α → β → Prop} {l : List α} {r : List β}
    (h : List.Forall₂ R l r) {b : β} (hb : b ∈ r) : ∃ a ∈ l, R a b := by
  induction h with
  | nil => simp at hb
  | @cons a _ _ _ hab _ ih =>
      rcases List.mem_cons.1 hb with rfl | hb
      · exact ⟨a, List.mem_cons_self, hab⟩
      · obtain ⟨a, ha, hab⟩ := ih hb
        exact ⟨a, List.mem_cons_of_mem _ ha, hab⟩

theorem map_eq_of_forall₂ {α β γ : Type} {R : α → β → Prop} {f : α → γ} {g : β → γ}
    (hR : ∀ {a b}, R a b → g b = f a) {l : List α} {r : List β} (h : List.Forall₂ R l r) :
    r.map g = l.map f := by
  induction h with
  | nil => rfl
  | cons hab _ ih => rw [List.map_cons, List.map_cons, ih, hR hab]

/-- What an accepted action reveals: positions of its sender that were hidden, each
opened by a verified share, with cards that were not public. -/
structure Reveals (L : RoundReveal P) (s : LedgerState G) (e : SignedEnvelope) (seat : ℕ)
    (body : ActionBody q G) (revealed : List (ℕ × String)) : Prop where
  positions : revealed.map Prod.fst = body.reveal
  distinct : (revealed.map Prod.fst).Nodup
  cards : (revealed.map Prod.snd).Nodup
  entries : ∀ entry ∈ revealed, L.owner entry.1 = some seat ∧ s.revealed entry.1 = none ∧
    entry.2 ∉ L.revealedCards s ∧
    ∃ item ∈ body.shares, L.Opens s ⟨L.gameId, L.round, e.phase⟩ seat item entry

theorem ActionAccepted.reveals {body : ActionBody q G} {revealed : List (ℕ × String)}
    (h : ActionAccepted L s e seat body revealed) : Reveals L s e seat body revealed := by
  have hok := actionOk_of_decodeActionBody P h.decoded
  obtain ⟨new, hnew, hforall, hnodup, hfresh⟩ := openShares_eq_ok h.opened
  obtain rfl : revealed = new := by simpa using hnew
  have hpositions : revealed.map Prod.fst = body.reveal := by
    rw [← hok.shares]
    exact map_eq_of_forall₂ (fun hopens => hopens.1) hforall
  refine ⟨hpositions, hpositions ▸ hok.distinct, hnodup, fun entry hentry => ?_⟩
  have hmem : entry.1 ∈ body.reveal := hpositions ▸ List.mem_map_of_mem hentry
  obtain ⟨howner, hhidden⟩ := checkReveal_eq_ok.1 h.owned entry.1 hmem
  exact ⟨howner, hhidden, by simpa using hfresh entry hentry, exists_of_mem_forall₂ hforall hentry⟩

omit [AddCommGroup G] [DecidableEq G] in
/-- The public cards after an action. -/
theorem reveal_revealed {hash : Hash256} {revealed : List (ℕ × String)} {position : ℕ}
    {card : String} (hdistinct : (revealed.map Prod.fst).Nodup)
    (hhidden : ∀ entry ∈ revealed, s.revealed entry.1 = none) :
    (s.reveal hash revealed).revealed position = some card ↔
      (position, card) ∈ revealed ∨ s.revealed position = some card := by
  simp only [LedgerState.reveal]
  cases hlookup : revealed.lookup position with
  | none =>
      have hnone : ∀ entry ∈ revealed, position ≠ entry.1 := by
        simpa [List.lookup_eq_none_iff] using hlookup
      exact ⟨.inr, fun h => h.resolve_left fun hmem => hnone _ hmem rfl⟩
  | some found =>
      obtain ⟨before, after, rfl, -⟩ := List.lookup_eq_some_iff.1 hlookup
      have hmem : (position, found) ∈ before ++ (position, found) :: after := by simp
      constructor
      · rintro ⟨⟩
        exact .inl hmem
      · rintro (h | h)
        · have := List.inj_on_of_nodup_map hdistinct hmem h rfl
          exact congrArg some (congrArg Prod.snd this)
        · rw [hhidden _ hmem] at h
          cases h

/-- Opening a card reads the recorded shares only. -/
theorem openCard_congr (h : s.shares = s'.shares) (position seat : ℕ) (own : G) :
    L.openCard s position seat own = L.openCard s' position seat own := by
  have hshares : ∀ donor count, sharesAt s position seat own donor count
      = sharesAt s' position seat own donor count := by
    intro donor count
    induction count generalizing donor with
    | zero => rfl
    | succ count ih => rw [sharesAt, sharesAt, h, ih]
  rw [RoundReveal.openCard, RoundReveal.openCard, hshares]

theorem LedgerInv.reveal (h : LedgerInv L s) {body : ActionBody q G}
    {revealed : List (ℕ × String)} (haccepted : ActionAccepted L s e seat body revealed) :
    LedgerInv L (s.reveal (P.hashEnvelope e) revealed) := by
  have hreveals := haccepted.reveals
  have hiff : ∀ position card, (s.reveal (P.hashEnvelope e) revealed).revealed position = some card ↔
      (position, card) ∈ revealed ∨ s.revealed position = some card := fun _ _ =>
    reveal_revealed hreveals.distinct fun entry hentry => (hreveals.entries entry hentry).2.1
  have hsame : ∀ position seat own, L.openCard (s.reveal (P.hashEnvelope e) revealed) position seat own
      = L.openCard s position seat own := openCard_congr rfl
  have hpublic : ∀ {position card}, s.revealed position = some card → card ∈ L.revealedCards s := by
    intro position card hcard
    obtain ⟨-, _, -, howner, -⟩ := h.opened position card hcard
    exact mem_revealedCards.2 ⟨position, lt_deck_of_owner howner, hcard⟩
  exact
    { batch := h.batch
      donors := h.donors
      waiting := h.waiting
      held := h.held
      vouched := h.vouched
      actionIndex_le := haccepted.budget
      dealt := fun _ => haccepted.dealt
      opened := by
        intro position card hcard
        rcases (hiff position card).1 hcard with hmem | hold
        · obtain ⟨howner, -, -, item, hitem, hopens⟩ := hreveals.entries _ hmem
          obtain ⟨hpos, hverified, hopen⟩ := hopens
          refine ⟨haccepted.dealt, seat, item.share.S, howner, ⟨e.phase, item.share, ?_, rfl⟩, ?_⟩
          · rw [show position = item.pos from hpos]
            exact hverified
          · rw [hsame, show position = item.pos from hpos]
            exact hopen
        · obtain ⟨hdealt, other, own, howner, hvouched, hopen⟩ := h.opened position card hold
          exact ⟨hdealt, other, own, howner, hvouched, by rwa [hsame]⟩
      distinct := by
        intro position position' card hcard hcard'
        rcases (hiff _ _).1 hcard with hmem | hold <;> rcases (hiff _ _).1 hcard' with hmem' | hold'
        · exact congrArg Prod.fst (List.inj_on_of_nodup_map hreveals.cards hmem hmem' rfl)
        · exact absurd (hpublic hold') (hreveals.entries _ hmem).2.2.1
        · exact absurd (hpublic hold) (hreveals.entries _ hmem').2.2.1
        · exact h.distinct _ _ _ hold hold' }

/-- **Every accepted envelope keeps the invariant.** -/
theorem LedgerInv.next (h : LedgerInv L s) {transition : RevealTransition q G}
    (hstep : LedgerStep L s e transition s') : LedgerInv L s' := by
  cases hstep with
  | @shares seat step body accepted =>
      by_cases hlast : (insert seat s.contributors).card = L.donorCount
      · exact h.contribute_last accepted hlast
      · exact h.contribute_more accepted hlast
  | action accepted => exact h.reveal accepted

theorem LedgerInv.step (h : LedgerInv L s) (hstep : L.step s e = some s') : LedgerInv L s' := by
  obtain ⟨transition, hstep⟩ := step_eq_some.1 hstep
  exact h.next hstep

theorem ledgerInv_of_run {l : List SignedEnvelope}
    (h : Replay.run L.step LedgerState.start l = some s) : LedgerInv L s :=
  Replay.run_invariant L.step (fun h hstep => LedgerInv.step h hstep) LedgerInv.start h

end

end Tablefolk
