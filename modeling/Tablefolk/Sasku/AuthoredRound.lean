import Tablefolk.Engine.DealOpen
import Tablefolk.Sasku.Admission
import Tablefolk.Sasku.Replicas

/-!
# Rounds that are authored

A round in which every envelope carries what its seat authors with its secret.

* `AuthoredRun`: the states such a round gets to.
* `NothingToAuthor`: no seat has anything to author.
* `exists_authored`: before the end, on a deck that was shuffled, some seat has.
* `AuthoredRun.length_le`: a round is not longer than its deal, its hand and its audit.
-/

namespace Tablefolk

/-! ## The cards that a seat has left -/

/-- In a trick that was taken every seat has played once. -/
theorem TrickTaken.count_seat {t : SaskuCompletedTrick} (h : TrickTaken t) (seat : SaskuSeat) :
    (t.plays.map SaskuPlay.seat).count seat = 1 := by
  have hall : (t.plays.map SaskuPlay.seat).toFinset = Finset.univ := by
    refine Finset.eq_univ_of_card _ ?_
    rw [List.toFinset_card_of_nodup h.seats, List.length_map, h.length]
    rfl
  refine List.count_eq_one_of_mem h.seats (List.mem_toFinset.1 ?_)
  rw [hall]
  exact Finset.mem_univ seat

/-- Every seat has played once in each trick. -/
theorem count_seat_flatMap {tricks : List SaskuCompletedTrick} (h : ∀ t ∈ tricks, TrickTaken t)
    (seat : SaskuSeat) :
    ((tricks.flatMap SaskuCompletedTrick.plays).map SaskuPlay.seat).count seat = tricks.length := by
  induction tricks with
  | nil => rfl
  | cons t rest ih =>
      have hrest := ih fun other hother => h other (List.mem_cons_of_mem _ hother)
      rw [List.flatMap_cons, List.map_append, List.count_append, hrest,
        (h t List.mem_cons_self).count_seat, List.length_cons, Nat.add_comm]

/-- The public sizes of the hands are what is left of a deal that all plays came out of. -/
theorem TableInv.length_remaining {s : HandState} (h : TableInv s) {deal : SaskuDeal}
    (howned : ∀ p ∈ s.plays, p.card ∈ deal.hands p.seat) (seat : SaskuSeat) :
    (deal.remaining s seat).length = s.handSizes seat := by
  have hplayed : ((deal.hands seat).filter fun card => card ∈ s.plays.map SaskuPlay.card).Perm
      ((s.plays.filter fun p => p.seat = seat).map SaskuPlay.card) := by
    refine (List.perm_ext_iff_of_nodup ((deal.nodup_hand seat).filter _)
      (h.distinct.sublist (List.filter_sublist.map _))).2 fun card => ?_
    simp only [List.mem_filter, List.mem_map, decide_eq_true_iff]
    constructor
    · rintro ⟨hcard, p, hp, rfl⟩
      exact ⟨p, ⟨hp, deal.seat_unique (howned p hp) hcard⟩, rfl⟩
    · rintro ⟨p, ⟨hp, rfl⟩, rfl⟩
      exact ⟨howned p hp, p, hp, rfl⟩
  have hcount : ((s.plays.filter fun p => p.seat = seat).map SaskuPlay.card).length
      = s.completedTricks.length + (s.trick.map SaskuPlay.seat).count seat := by
    rw [List.length_map, ← List.countP_eq_length_filter, ← count_seat_flatMap h.tricks seat,
      ← List.count_append, ← List.map_append, h.plays, List.count, List.countP_map]
    exact List.countP_congr fun p _ => by simp
  have hsplit := List.length_eq_length_filter_add (l := deal.hands seat)
    fun card => decide (card ∈ s.plays.map SaskuPlay.card)
  have hrest : (deal.remaining s seat).length
      = ((deal.hands seat).filter
          fun card => !decide (card ∈ s.plays.map SaskuPlay.card)).length := by
    simp only [SaskuDeal.remaining, decide_not]
  have hsizes := h.sizes seat
  rw [deal.length_hand, hplayed.length_eq, hcount, ← hrest] at hsplit
  omega

/-- In play the seat to move has a card of the deal that follows the trick. -/
theorem Reached.exists_following {s : HandState} (h : Reached none s) {deal : SaskuDeal}
    (howned : ∀ p ∈ s.plays, p.card ∈ deal.hands p.seat) (phase : s.phase = .playing)
    {seat : SaskuSeat} (turn : s.turn = some seat) :
    ∃ contract legal, s.contract = some contract ∧
      legalSaskuCards (deal.remaining s seat) s.trick (trumpSuit contract) = .ok legal ∧
      ∃ card ∈ legal, card ∈ deal.remaining s seat := by
  -- the state as the reference controller on this deal has it
  have hinv : HandInv { s with hands := some (deal.remaining s) } :=
    ⟨⟨h.inv.table.plays, h.inv.table.distinct, h.inv.table.tricks, h.inv.table.sizes,
      h.inv.table.cardPoints, h.inv.table.tricksWon⟩, h.inv.phase⟩
  have hholds : HoldsDeal deal { s with hands := some (deal.remaining s) } :=
    ⟨rfl, howned, fun other => h.inv.table.length_remaining howned other⟩
  obtain ⟨contract, hcontract, hlegal⟩ := hholds.legalCards hinv phase turn
  have hhas : deal.remaining s seat ≠ [] := by
    intro hnil
    refine hinv.holds_card phase turn ?_
    rw [← hholds.sizes]
    exact congrArg List.length hnil
  obtain ⟨card, hcard⟩ := List.exists_mem_of_ne_nil _
    (followingCards_ne_nil hhas s.trick (trumpSuit contract))
  exact ⟨contract, _, hcontract, hlegal, card, hcard, mem_of_mem_followingCards hcard⟩

section

variable {q : ℕ} {G : Type} [AddCommGroup G] [Module (ZMod q) G] [DecidableEq G]
  {P : Primitives q G} {R : SaskuRound P} {c c' : RoundCore G} {e : SignedEnvelope}
  {secrets : ℕ → ZMod q} {witnesses : List (DeckShuffleWitness q)} {seat : SaskuSeat}

/-! ## The true deal -/

omit [DecidableEq G] in
theorem parseRevealed_ok (cards : List (ℕ × SaskuCardId)) :
    SaskuRound.parseRevealed (cards.map fun card => (card.1, card.2.text)) = .ok cards := by
  induction cards with
  | nil => rfl
  | cons card rest ih =>
      rw [List.map_cons, SaskuRound.parseRevealed, liftError_eq_ok.2 (parseSaskuCard_text card.2),
        ok_bind, ih, ok_bind]
      rfl

/-- The true cards of a shuffled deck. -/
structure TrueCards (R : SaskuRound P) (secrets : ℕ → ZMod q) (card : ℕ → SaskuCardId) : Prop where
  opens : ∀ p < 36, R.ledger.trueCard secrets p = some (card p).text
  distinct : ∀ p < 36, ∀ p' < 36, card p = card p' → p = p'

theorem ShuffledDeck.exists_trueCards (h : ShuffledDeck R.ledger secrets witnesses) :
    ∃ card, TrueCards R secrets card := by
  have hexists : ∀ p, ∃ card : SaskuCardId, p < 36 →
      R.ledger.trueCard secrets p = some card.text := by
    intro p
    by_cases hlt : p < 36
    · obtain ⟨text, htext⟩ := h.exists_trueCard (R.length_deck ▸ hlt)
      obtain ⟨masked, -, hidentify⟩ := Option.bind_eq_some_iff.1 htext
      obtain ⟨card, rfl⟩ := R.exists_card hidentify
      exact ⟨card, fun _ => htext⟩
    · exact ⟨⟨.six, .clubs⟩, fun hlt' => absurd hlt' hlt⟩
  choose card hcard using hexists
  refine ⟨card, hcard, fun p hp p' hp' heq => ?_⟩
  refine h.trueCard_inj (R.length_deck ▸ hp) (R.length_deck ▸ hp') ?_
  rw [hcard p hp, hcard p' hp', heq]

section

variable {card : ℕ → SaskuCardId} (htrue : TrueCards R secrets card) (hinv : RoundInv R c)
  (hledger : Truthful R.ledger secrets c.ledger)
include htrue hinv hledger

/-- Every play came out of the true deal. -/
theorem TrueCards.owned :
    ∀ p ∈ c.hand.plays, p.card ∈ (R.dealOf card htrue.distinct).hands p.seat := by
  intro p hp
  obtain ⟨position, howner, hrevealed⟩ := hinv.played p hp
  have hopens := hledger.revealed position _ hrevealed
  rw [htrue.opens position (R.lt_of_owner howner)] at hopens
  exact (R.mem_dealOf htrue.distinct).2
    ⟨position, howner, card_text_injective (Option.some.inj hopens)⟩

/-- A position is hidden as long as its card has not been played. -/
theorem TrueCards.hidden_iff {position : ℕ} (hlt : position < 36) :
    c.ledger.revealed position = none ↔ card position ∉ c.hand.plays.map SaskuPlay.card := by
  constructor
  · intro hhidden hmem
    obtain ⟨play, hplay, hcard⟩ := List.mem_map.1 hmem
    obtain ⟨other, howner, hrevealed⟩ := hinv.played play hplay
    have hopens := hledger.revealed other _ hrevealed
    have hother := R.lt_of_owner howner
    rw [htrue.opens other hother, hcard] at hopens
    obtain rfl := htrue.distinct other hother position hlt
      (card_text_injective (Option.some.inj hopens))
    rw [hhidden] at hrevealed
    cases hrevealed
  · intro hfresh
    by_contra hshown
    obtain ⟨text, htext⟩ := Option.ne_none_iff_exists'.1 hshown
    obtain ⟨play, hplay, -, rfl⟩ := hinv.shown position text htext
    have hopens := hledger.revealed position _ htext
    rw [htrue.opens position hlt] at hopens
    refine hfresh (List.mem_map.2 ⟨play, hplay, ?_⟩)
    exact (card_text_injective (Option.some.inj hopens)).symm

/-- The hidden cards of a seat are what is left of its hand. -/
theorem TrueCards.hidden_eq_remaining (seat : SaskuSeat) :
    (((R.positionsOf seat).map fun p => (p, card p)).filter
        fun entry => c.ledger.revealed entry.1 = none).map Prod.snd
      = (R.dealOf card htrue.distinct).remaining c.hand seat := by
  rw [List.filter_map, List.map_map]
  show _ = ((R.positionsOf seat).map card).filter _
  rw [List.filter_map]
  refine congrArg (List.map card) (List.filter_congr fun position hposition => ?_)
  have hlt := R.lt_of_owner (R.mem_positionsOf.1 hposition)
  exact decide_eq_decide.2 (htrue.hidden_iff hinv hledger hlt)

end

/-! ## Reading a hand -/

/-- The hand of a seat on a shuffled deck: its true cards, and those that are hidden. -/
structure ReadsTrue (R : SaskuRound P) (c : RoundCore G) (secrets : ℕ → ZMod q)
    (card : ℕ → SaskuCardId) (seat : SaskuSeat) (hand : SaskuPrivateHand) : Prop where
  reads : R.readPrivateHand c seat (secrets seat.val) = .ok (some hand)
  dealt : hand.dealt = (R.positionsOf seat).map fun p => (p, card p)
  remaining : hand.remaining = hand.dealt.filter fun entry => c.ledger.revealed entry.1 = none
  /-- the ledger reads the same positions -/
  ledger : ∃ raw, R.ledger.readPrivateHand c.ledger seat.val (secrets seat.val) = .ok (some raw) ∧
    raw.remaining = hand.remaining.map fun entry => (entry.1, entry.2.text)

omit [DecidableEq G] in
theorem ownedPositions_eq : R.ledger.ownedPositions seat.val = R.positionsOf seat := by
  rw [RoundReveal.ownedPositions, SaskuRound.positionsOf, R.length_deck]

theorem ShuffledDeck.readsTrue (h : ShuffledDeck R.ledger secrets witnesses) (seat : SaskuSeat)
    (hinv : RoundInv R c) (hledger : Truthful R.ledger secrets c.ledger) {card : ℕ → SaskuCardId}
    (htrue : TrueCards R secrets card) (hdealt : R.ledger.currentDeal c.ledger = none) :
    ∃ hand, ReadsTrue R c secrets card seat hand := by
  have hseat : seat.val < R.ledger.roster.size := seat.isLt.trans_eq R.four.symm
  obtain ⟨raw, hraw, hpositions, hcards⟩ := h.readPrivateHand hinv.ledger hledger hdealt hseat
  have hread := readPrivateHand_eq_ok hinv.ledger hraw
  have hdealtRaw : raw.dealt = ((R.positionsOf seat).map fun p => (p, card p)).map
      fun entry => (entry.1, entry.2.text) := by
    rw [← ownedPositions_eq, ← hpositions, List.map_map, List.map_map]
    refine (List.map_id _).symm.trans (List.map_congr_left fun entry hentry => ?_)
    have howner : R.ledger.owner entry.1 = some seat.val := by
      rw [← mem_ownedPositions, ← hpositions]
      exact List.mem_map_of_mem hentry
    have hopens := hcards entry hentry
    rw [htrue.opens entry.1 (R.lt_of_owner howner)] at hopens
    exact Prod.ext rfl (Option.some.inj hopens).symm
  have hremaining : raw.remaining
      = (((R.positionsOf seat).map fun p => (p, card p)).filter
          fun entry => c.ledger.revealed entry.1 = none).map
        fun entry => (entry.1, entry.2.text) := by
    rw [hread.remaining, hdealtRaw, List.filter_map]
    rfl
  refine ⟨⟨(R.positionsOf seat).map fun p => (p, card p), ((R.positionsOf seat).map
    fun p => (p, card p)).filter fun entry => c.ledger.revealed entry.1 = none⟩, ?_, rfl, rfl,
    raw, hraw, hremaining⟩
  rw [SaskuRound.readPrivateHand, hraw]
  simp only [hdealtRaw, hremaining, parseRevealed_ok, ok_bind]
  rfl

/-- What is left of a hand is what is left of the true deal. -/
theorem ReadsTrue.remaining_eq {card : ℕ → SaskuCardId} {hand : SaskuPrivateHand}
    (h : ReadsTrue R c secrets card seat hand) (htrue : TrueCards R secrets card)
    (hinv : RoundInv R c) (hledger : Truthful R.ledger secrets c.ledger) :
    hand.remaining.map Prod.snd = (R.dealOf card htrue.distinct).remaining c.hand seat := by
  rw [h.remaining, h.dealt]
  exact htrue.hidden_eq_remaining hinv hledger seat

/-- An entry of what is left: its position is the seat's, and it is found by its position. -/
theorem ReadsTrue.of_remaining {card : ℕ → SaskuCardId} {hand : SaskuPrivateHand}
    (h : ReadsTrue R c secrets card seat hand) {entry : ℕ × SaskuCardId}
    (hentry : entry ∈ hand.remaining) :
    R.ledger.owner entry.1 = some seat.val ∧ hand.remaining.lookup entry.1 = some entry.2 := by
  have hdealt : ∀ other ∈ hand.remaining,
      R.ledger.owner other.1 = some seat.val ∧ other.2 = card other.1 := by
    intro other hother
    rw [h.remaining, h.dealt, List.mem_filter] at hother
    obtain ⟨position, hposition, rfl⟩ := List.mem_map.1 hother.1
    exact ⟨R.mem_positionsOf.1 hposition, rfl⟩
  refine ⟨(hdealt entry hentry).1, ?_⟩
  cases hlookup : hand.remaining.lookup entry.1 with
  | none =>
      have hnone := List.lookup_eq_none_iff.1 hlookup entry hentry
      simp at hnone
  | some found =>
      obtain ⟨before, after, heq, -⟩ := List.lookup_eq_some_iff.1 hlookup
      have hfound : (entry.1, found) ∈ hand.remaining := heq ▸ by simp
      exact congrArg some ((hdealt _ hfound).2.trans (hdealt entry hentry).2.symm)

/-! ## Something to author -/

omit [DecidableEq G] in
/-- A seat that contributes to a step has shares to give, for different positions of the deck. -/
theorem sharePositions_ok (seat : SaskuSeat) {step : ScheduledDeal}
    (hstep : step ∈ R.ledger.schedule) :
    R.ledger.sharePositions step seat.val ≠ [] ∧ (R.ledger.sharePositions step seat.val).Nodup ∧
      ∀ p ∈ R.ledger.sharePositions step seat.val, p < 36 := by
  rw [RoundReveal.sharePositions, R.length_deck]
  split
  · refine ⟨?_, List.nodup_range.filter _, fun p hp => List.mem_range.1 (List.mem_filter.1 hp).1⟩
    -- the next seat owns a position
    have hne : R.positionsOf (seat + 1) ≠ [] := by
      rw [← List.length_pos_iff, R.length_positionsOf]
      decide
    obtain ⟨position, hposition⟩ := List.exists_mem_of_ne_nil _ hne
    have howner := R.mem_positionsOf.1 hposition
    refine List.ne_nil_of_mem (a := position) (List.mem_filter.2
      ⟨List.mem_range.2 (R.lt_of_owner howner), ?_⟩)
    rw [decide_eq_true_iff, howner]
    intro heq
    have hother : ∀ other : SaskuSeat, other + 1 ≠ other := by decide
    exact hother seat (Fin.ext (Option.some.inj heq))
  · obtain ⟨dealt, hdealt, -, hlength, hnodup⟩ := mem_steps_of_mem_scheduleFrom hstep
    refine ⟨?_, hnodup, fun p hp => R.lt_of_owner (owner_of_mem_schedule hstep hp)⟩
    rw [← List.length_pos_iff, hlength]
    exact R.ledger.steps_ok.counts dealt hdealt

/-- A seat of a deal that is not over can author its shares. -/
theorem exists_authoredShares (h : ShuffledDeck R.ledger secrets witnesses) (hinv : RoundInv R c)
    {step : ScheduledDeal} (hdeal : R.ledger.currentDeal c.ledger = some step) :
    ∃ (seat : SaskuSeat) (draws : List ℕ) (content : EnvelopeContent),
      R.authoredShares c seat (secrets seat.val) draws = .ok (some content) := by
  have hstep := mem_schedule_of_currentDeal hdeal
  -- fewer seats have contributed than have to
  obtain ⟨donor, hdonor, hpending⟩ : ∃ donor ∈ R.ledger.donors step,
      donor ∉ c.ledger.contributors := by
    refine Finset.exists_mem_notMem_of_card_lt_card ?_
    rw [card_donors hstep]
    exact hinv.ledger.waiting
  obtain ⟨hlt, hgives⟩ := mem_donors.1 hdonor
  obtain ⟨seat, rfl⟩ : ∃ seat : SaskuSeat, seat.val = donor := ⟨⟨donor, R.four ▸ hlt⟩, rfl⟩
  have hkey := h.localKey hlt
  obtain ⟨hne, hnodup, hdeck⟩ := sharePositions_ok seat hstep
  obtain ⟨items, hitems⟩ : ∃ items, R.ledger.createShares
      ⟨R.ledger.gameId, R.ledger.round, R.ledger.phase c.ledger⟩ (secrets seat.val)
      (R.ledger.sharePositions step seat.val)
      (List.replicate (R.ledger.sharePositions step seat.val).length 1) = .ok (some items) :=
    createShares_ok (h.secrets_ne_zero seat.val hlt) fun p hp => R.length_deck ▸ hdeck p hp
  have hpositions := (createShares_eq_ok hkey hitems).1
  have hcreated : R.ledger.createDealShares c.ledger seat.val (secrets seat.val)
      (List.replicate (R.ledger.sharePositions step seat.val).length 1)
        = .ok (some ⟨R.ledger.recipient step, items⟩) := by
    rw [RoundReveal.createDealShares, requireLocalKey_eq_ok.2 hkey, ok_bind]
    simp only [hdeal]
    rw [throwIf_neg (by rintro ⟨hbatch, hto⟩; simp [hbatch, hto] at hgives), ok_bind,
      throwIf_neg hpending, ok_bind, hitems]
    rfl
  have hok : ItemsOk items := by
    refine ⟨?_, ?_, fun item hitem => ?_, hpositions ▸ hnodup⟩
    · rintro rfl
      exact hne hpositions.symm
    · have hsub : (R.ledger.sharePositions step seat.val).Subperm (List.range 36) :=
        List.subperm_of_subset hnodup fun p hp => List.mem_range.2 (hdeck p hp)
      have hlength := hsub.length_le
      rw [← hpositions, List.length_map, List.length_range] at hlength
      omega
    · have := hdeck item.pos (hpositions ▸ List.mem_map_of_mem hitem)
      omega
  have hto : R.ledger.recipient step ≤ 7 := by
    have hrecipient := recipient_lt_size hstep
    rw [R.four] at hrecipient
    rw [RoundReveal.recipient]
    split <;> omega
  obtain ⟨value, hvalue⟩ : ∃ value, encodeSharesBody P ⟨R.ledger.recipient step, items⟩
      = .ok value := ⟨_, encodeSharesBody_ok P hto hok⟩
  refine ⟨seat, List.replicate (R.ledger.sharePositions step seat.val).length 1,
    ⟨R.ledger.round, R.ledger.phase c.ledger, .SHARES, value⟩, ?_⟩
  rw [SaskuRound.authoredShares, liftError_eq_ok.2 hcreated, ok_bind]
  show liftError RoundError.schema _ >>= _ = _
  rw [liftError_eq_ok.2 hvalue]
  rfl

omit [AddCommGroup G] [Module (ZMod q) G] [DecidableEq G] in
/-- The body of an action passes the checks of its own decoder. -/
theorem SaskuHandAction.actionOk (action : SaskuHandAction) {shares : List (PositionShare q G)}
    (hlength : shares.length ≤ 1) (hpositions : ∀ share ∈ shares, share.pos < 36) :
    ActionOk ⟨action.kind, cborMap action.data, shares.map PositionShare.pos, shares⟩ where
  kind := by
    have hkinds : ∀ kind ∈ ["pass", "diamonds", "bid", "choose_trump", "play"],
        kind.length ≤ MAX_ACTION_KIND_BYTES ∧ isKind kind = true := by decide
    cases action <;> exact hkinds _ (by simp [SaskuHandAction.kind])
  length_le := by
    show (shares.map PositionShare.pos).length ≤ MAX_ACTION_REVEALS
    rw [List.length_map, MAX_ACTION_REVEALS]
    omega
  positions := by
    intro pos hpos
    obtain ⟨share, hshare, rfl⟩ := List.mem_map.1 hpos
    have := hpositions share hshare
    omega
  distinct := by
    show (shares.map PositionShare.pos).Nodup
    cases shares with
    | nil => exact List.nodup_nil
    | cons share rest =>
        cases rest with
        | nil => exact List.nodup_singleton _
        | cons other rest => simp at hlength
  shares := rfl
  data := by
    cases action with
    | bid seat value =>
        obtain ⟨value, hthree, hnine⟩ := value
        interval_cases value <;> exact Nat.le_of_ble_eq_true rfl
    | choose_trump seat suit => cases suit <;> exact Nat.le_of_ble_eq_true rfl
    | pass | diamonds | play => exact Nat.le_of_ble_eq_true rfl
  fits := by
    refine fitsAt_iff_root.2 ?_
    cases action with
    | bid seat value =>
        obtain ⟨value, hthree, hnine⟩ := value
        interval_cases value <;> rfl
    | choose_trump seat suit => rfl
    | pass | diamonds | play => rfl
  reads := by
    show (cborMap action.data).readDepth ≤ MAX_CBOR_NESTING_DEPTH
    rw [readDepth_cborMap]
    cases action <;>
      simp [SaskuHandAction.data, CborValue.readDepth, MAX_CBOR_NESTING_DEPTH]

/-- An intent that passes the checks of `#authorActionOne` is authored. -/
theorem authoredAction_ok {hand : SaskuPrivateHand} {secretKey : ZMod q}
    (intent : SaskuActionIntent) (draws : List ℕ) (shares : List (PositionShare q G))
    {action : SaskuHandAction} {next : HandState}
    (hread : R.readPrivateHand c seat secretKey = .ok (some hand))
    (hphase : c.hand.phase ≠ .complete) (hintended : R.intendedAction hand seat intent = .ok action)
    (hnext : nextAction c.hand action = .ok next)
    (hchecked : SaskuRound.checkPrivate c hand action = .ok ())
    (hshares : R.actionShares c seat secretKey draws intent
      = .ok (some (shares.map PositionShare.pos, shares)))
    (hlength : shares.length ≤ 1) (hpositions : ∀ share ∈ shares, share.pos < 36) :
    ∃ content, R.authoredAction c seat secretKey intent draws = .ok (some (action, content)) := by
  obtain ⟨value, hvalue⟩ : ∃ value, encodeActionBody P
      ⟨action.kind, cborMap action.data, shares.map PositionShare.pos, shares⟩ = .ok value :=
    ⟨_, encodeActionBody_ok P (action.actionOk hlength hpositions)⟩
  have hcreated : R.createAction c seat secretKey intent draws = .ok (some (action,
      ⟨action.kind, cborMap action.data, shares.map PositionShare.pos, shares⟩)) := by
    rw [SaskuRound.createAction, hread, ok_bind]
    show throwIf _ _ >>= _ = _
    rw [throwIf_neg hphase, ok_bind, hintended, ok_bind, nextState_candidate,
      liftError_eq_ok.2 hnext, ok_bind, hchecked, ok_bind, hshares, ok_bind]
    rfl
  refine ⟨⟨R.ledger.round, R.ledger.phase c.ledger, .ACTION, value⟩, ?_⟩
  rw [SaskuRound.authoredAction, hcreated, ok_bind]
  show liftError RoundError.schema _ >>= _ = _
  rw [liftError_eq_ok.2 hvalue]
  rfl

/-- The owner of a hidden position of the true deal can author its share. -/
theorem exists_actionShare (h : ShuffledDeck R.ledger secrets witnesses) (hinv : RoundInv R c)
    {card : ℕ → SaskuCardId} {hand : SaskuPrivateHand}
    (hread : ReadsTrue R c secrets card seat hand) {position : ℕ}
    (howner : R.ledger.owner position = some seat.val)
    (hmem : position ∈ hand.remaining.map Prod.fst) :
    ∃ share : PositionShare q G, share.pos = position ∧
      R.ledger.createActionShare c.ledger seat.val (secrets seat.val) position [1]
        = .ok (some share) := by
  have hlt := R.lt_of_owner howner
  have hseat : seat.val < R.ledger.roster.size := seat.isLt.trans_eq R.four.symm
  obtain ⟨raw, hraw, hremaining⟩ := hread.ledger
  obtain ⟨items, hitems⟩ : ∃ items, R.ledger.createShares
      ⟨R.ledger.gameId, R.ledger.round, R.ledger.phase c.ledger⟩ (secrets seat.val) [position] [1]
        = .ok (some items) :=
    createShares_ok (h.secrets_ne_zero seat.val hseat)
      (by simpa [R.length_deck] using hlt)
  have hpositions := (createShares_eq_ok (h.localKey hseat) hitems).1
  obtain ⟨share, rfl⟩ : ∃ share, items = [share] :=
    List.length_eq_one_iff.1 (by simpa using congrArg List.length hpositions)
  have hleft : position ∈ raw.remaining.map Prod.fst := by
    rw [hremaining, List.map_map]
    exact hmem
  refine ⟨share, (List.cons.inj hpositions).1, ?_⟩
  rw [RoundReveal.createActionShare, hraw, ok_bind]
  show RoundReveal.ownerAt R.ledger position >>= _ = _
  rw [R.ownerAt_eq hlt, ok_bind, howner, throwIf_neg (by simp), ok_bind, throwIf_neg (by simp),
    ok_bind, throwIf_neg (not_not.2 hleft), ok_bind, throwIf_neg (not_le.2 hinv.budget), ok_bind]
  show R.ledger.createShares _ _ _ [1] >>= _ = _
  rw [hitems, ok_bind]
  rfl

/-- The seat whose turn it is can author an action. -/
theorem exists_authoredAction (h : ShuffledDeck R.ledger secrets witnesses) (hinv : RoundInv R c)
    (hledger : Truthful R.ledger secrets c.ledger)
    (hdealt : R.ledger.currentDeal c.ledger = none) (hphase : c.hand.phase ≠ .complete) :
    ∃ (seat : SaskuSeat) (intent : SaskuActionIntent) (draws : List ℕ)
      (authored : SaskuHandAction × EnvelopeContent),
      R.authoredAction c seat (secrets seat.val) intent draws = .ok (some authored) := by
  obtain ⟨card, htrue⟩ := h.exists_trueCards
  have hreached := hinv.reached
  have hbudget := history_in_budget hreached.inv.table hreached.auction
  have hinvariant := hreached.inv.phase
  cases hp : c.hand.phase with
  | complete => exact absurd hp hphase
  | bidding =>
      rw [PhaseInv, hp] at hinvariant
      obtain ⟨seat, turn⟩ := Option.ne_none_iff_exists'.1 hinvariant.2.2.2.2
      obtain ⟨hand, hread⟩ := h.readsTrue seat hinv hledger htrue hdealt
      obtain ⟨next, hstep⟩ : ∃ next, HandStep c.hand (.pass seat) next := passes hp
      obtain ⟨content, hcontent⟩ := authoredAction_ok (R := R) .pass [] [] hread.reads hphase rfl
        (nextAction_ok_iff.2 ⟨⟨turn, hbudget⟩, trivial, hstep⟩) rfl rfl (by simp) (by simp)
      exact ⟨seat, .pass, [], _, hcontent⟩
  | choosing_trump =>
      rw [PhaseInv, hp] at hinvariant
      obtain ⟨-, -, -, highest, -, turn⟩ := hinvariant
      obtain ⟨hand, hread⟩ := h.readsTrue highest.seat hinv hledger htrue hdealt
      obtain ⟨content, hcontent⟩ := authoredAction_ok (R := R) (.choose_trump .clubs) [] []
        hread.reads hphase rfl (nextAction_ok_iff.2 ⟨⟨turn, hbudget⟩, trivial, .chooseTrump hp⟩)
        rfl rfl (by simp) (by simp)
      exact ⟨highest.seat, .choose_trump .clubs, [], _, hcontent⟩
  | playing =>
      obtain ⟨-, -, -, -, leader, turn, -⟩ := hinvariant.of_playing hp
      obtain ⟨hand, hread⟩ := h.readsTrue (seatAfter leader c.hand.trick.length) hinv hledger htrue
        hdealt
      -- a card of the true deal that follows the trick, and the position it is at
      obtain ⟨contract, legal, hcontract, hlegal, played, hplayed, hleft⟩ :=
        hreached.exists_following (htrue.owned hinv hledger) hp turn
      have hfresh := (SaskuDeal.mem_remaining.1 hleft).2
      rw [← hread.remaining_eq htrue hinv hledger] at hlegal hleft
      obtain ⟨entry, hentry, rfl⟩ := List.mem_map.1 hleft
      obtain ⟨howner, hlookup⟩ := hread.of_remaining hentry
      have hlt := R.lt_of_owner howner
      obtain ⟨share, hposition, hshare⟩ := exists_actionShare h hinv hread howner
        (List.mem_map_of_mem hentry)
      obtain ⟨next, hnext⟩ := accepts_play hreached.inv hreached.auction hp turn hfresh
        fun hands hhands => by
          rw [hreached.hidden rfl] at hhands
          cases hhands
      have hintended : R.intendedAction hand (seatAfter leader c.hand.trick.length)
          (.play ⟨entry.1, hlt⟩) = .ok (.play (seatAfter leader c.hand.trick.length) entry.2) := by
        rw [SaskuRound.intendedAction, liftError_eq_ok.2 (R.ownerAt_eq hlt), ok_bind, howner,
          throwIf_neg (by simp), ok_bind]
        simp only [hlookup]
        rfl
      have hchecked : SaskuRound.checkPrivate c hand
          (.play (seatAfter leader c.hand.trick.length) entry.2) = .ok () := by
        rw [SaskuRound.checkPrivate, liftError_eq_ok.2 (contractOrThrow_of_some hcontract), ok_bind,
          liftError_eq_ok.2 hlegal, ok_bind, throwIf_neg (not_not.2 hplayed)]
      have hshares : R.actionShares c (seatAfter leader c.hand.trick.length)
          (secrets (seatAfter leader c.hand.trick.length).val) [1] (.play ⟨entry.1, hlt⟩)
            = .ok (some ([share].map PositionShare.pos, [share])) := by
        rw [SaskuRound.actionShares, liftError_eq_ok.2 hshare, ok_bind]
        show Except.ok (some ([entry.1], [share])) = _
        rw [List.map_singleton, hposition]
      obtain ⟨content, hcontent⟩ := authoredAction_ok (R := R) (.play ⟨entry.1, hlt⟩) [1] [share]
        hread.reads hphase hintended hnext hchecked
        hshares (by simp) (by simpa [hposition] using hlt)
      exact ⟨_, _, [1], _, hcontent⟩

/-- A seat that has not disclosed can author its disclosure. -/
theorem exists_authoredAudit {audit : SaskuRoundAuditSnapshot} (hinv : RoundInv R c)
    (hcomplete : c.hand.phase = .complete) (haudit : c.audit = some audit)
    (hpending : audit.pendingSenders ≠ []) :
    ∃ (seat : SaskuSeat) (content : EnvelopeContent), R.authoredAudit c seat = .ok content := by
  obtain ⟨audit', haudit', -, hsenders, -⟩ := hinv.audited hcomplete
  obtain rfl := Option.some.inj (haudit.symm.trans haudit')
  obtain ⟨sender, hsender⟩ := List.exists_mem_of_ne_nil _ hpending
  have hseats : sender ∈ [0, 1, 2, 3] := by
    rw [hsenders] at hsender
    exact (List.mem_filter.1 hsender).1
  obtain ⟨seat, rfl⟩ : ∃ seat : SaskuSeat, seat.val = sender :=
    ⟨⟨sender, by simp at hseats; omega⟩, rfl⟩
  refine ⟨seat, ⟨R.ledger.round, audit.phase, .AUDIT_DISCLOSE, cborMap [("items", .array [])]⟩, ?_⟩
  rw [SaskuRound.authoredAudit, haudit]
  simp only [if_pos hsender]
  rw [liftError_eq_ok.2 (encodeAuditDiscloseBody_nil P).1, ok_bind]
  rfl

/-! ## Rounds -/

/-- No seat has anything to author. -/
structure NothingToAuthor (R : SaskuRound P) (secrets : ℕ → ZMod q) (c : RoundCore G) : Prop where
  shares : ∀ (seat : SaskuSeat) draws content,
    R.authoredShares c seat (secrets seat.val) draws ≠ .ok (some content)
  action : ∀ (seat : SaskuSeat) intent draws authored,
    R.authoredAction c seat (secrets seat.val) intent draws ≠ .ok (some authored)
  audit : ∀ (seat : SaskuSeat) content, R.authoredAudit c seat ≠ .ok content

omit [AddCommGroup G] [DecidableEq G] in
/-- The hand is over, every seat has disclosed, and there is a result. -/
structure RoundCore.Audited (c : RoundCore G) : Prop where
  complete : c.hand.phase = .complete
  result : ∃ audit result, c.audit = some audit ∧ audit.pendingSenders = [] ∧
    audit.result = some result

/-- Every envelope carries what its seat authors with its secret, has a new hash, and is
committed. -/
inductive AuthoredRun (R : SaskuRound P) (secrets : ℕ → ZMod q) :
    List SignedEnvelope → RoundCore G → Prop
  | start : AuthoredRun R secrets [] R.init
  | next {l : List SignedEnvelope} {c c' : RoundCore G} {seat : SaskuSeat} {e : SignedEnvelope}
      {intended : Option SaskuHandAction} (run : AuthoredRun R secrets l c)
      (authors : Authors R c seat (secrets seat.val) e intended)
      (fresh : c.ledger.accepted (P.hashEnvelope e) = none)
      (step : R.step c e = some c') : AuthoredRun R secrets (l ++ [e]) c'

/-- What a seat authors carries the shares of its secret. -/
theorem Authors.trueShares {intended : Option SaskuHandAction} (hinv : RoundInv R c)
    (h : Authors R c seat (secrets seat.val) e intended)
    (hfresh : c.ledger.accepted (P.hashEnvelope e) = none) : TrueShares R.ledger secrets e := by
  intro sender hsender
  cases h with
  | shares authored carries =>
      obtain ⟨step, body, -, accepted, hown⟩ := authoredShares_accepted authored carries hfresh
      obtain rfl := Option.some.inj (accepted.scope.seat.symm.trans hsender)
      refine ⟨fun _ body' hbody => ?_, fun htype => ?_⟩
      · cases accepted.decoded.symm.trans hbody
        exact hown
      · rw [accepted.type] at htype
        cases htype
  | action authored carries =>
      obtain ⟨body, _, _, _, accepted, hown⟩ :=
        authoredAction_accepted hinv authored carries hfresh
      obtain rfl := Option.some.inj (accepted.ledger.scope.seat.symm.trans hsender)
      refine ⟨fun htype => ?_, fun _ body' hbody => ?_⟩
      · rw [accepted.ledger.type] at htype
        cases htype
      · cases accepted.ledger.decoded.symm.trans hbody
        exact hown
  | audit authored carries =>
      obtain ⟨audit, accepted⟩ := authoredAudit_accepted hinv authored carries
      constructor <;> intro htype <;> rw [accepted.type] at htype <;> cases htype

theorem Truthful.roundStep (h : Truthful R.ledger secrets c.ledger)
    (htrue : TrueShares R.ledger secrets e) (hstep : RoundStep R c e c') :
    Truthful R.ledger secrets c'.ledger := by
  cases hstep with
  | shares accepted =>
      exact h.contribute _ ((htrue _ accepted.scope.seat).1 accepted.type _ accepted.decoded)
  | action accepted =>
      exact h.reveal accepted.ledger
        ((htrue _ accepted.ledger.scope.seat).2 accepted.ledger.type _ accepted.ledger.decoded)
  | audit accepted => exact h

theorem AuthoredRun.inv {l : List SignedEnvelope} (h : AuthoredRun R secrets l c) :
    RoundInv R c ∧ Truthful R.ledger secrets c.ledger := by
  induction h with
  | start => exact ⟨.init, .start⟩
  | next run authors fresh step ih =>
      obtain ⟨hinv, hledger⟩ := ih
      have hstep := (round_step_eq_some hinv).1 step
      exact ⟨hinv.next hstep, hledger.roundStep (authors.trueShares hinv fresh) hstep⟩

theorem AuthoredRun.replay {l : List SignedEnvelope} (h : AuthoredRun R secrets l c) :
    Replay.run R.step R.init l = some c := by
  induction h with
  | start => rfl
  | next run authors fresh step ih =>
      exact (Replay.run_append_eq_some R.step).2
        ⟨_, ih, (Replay.run_cons_eq_some R.step).2 ⟨_, step, rfl⟩⟩

/-- On a shuffled deck, a round in which nobody has anything to author is over. -/
theorem audited_of_nothingToAuthor (h : ShuffledDeck R.ledger secrets witnesses)
    (hinv : RoundInv R c) (hledger : Truthful R.ledger secrets c.ledger)
    (hidle : NothingToAuthor R secrets c) : c.Audited := by
  cases hdeal : R.ledger.currentDeal c.ledger with
  | some step =>
      obtain ⟨seat, draws, content, hshares⟩ := exists_authoredShares h hinv hdeal
      exact absurd hshares (hidle.shares seat draws content)
  | none =>
      by_cases hcomplete : c.hand.phase = .complete
      · obtain ⟨audit, haudit, -, -, -, hclosed⟩ := hinv.audited hcomplete
        have hnone : audit.pendingSenders = [] := by
          by_contra hpending
          obtain ⟨seat, content, hcontent⟩ := exists_authoredAudit hinv hcomplete haudit hpending
          exact hidle.audit seat content hcontent
        obtain ⟨result, hresult, -⟩ := hclosed hnone
        exact ⟨hcomplete, audit, result, haudit, hnone, hresult⟩
      · obtain ⟨seat, intent, draws, authored, haction⟩ :=
          exists_authoredAction h hinv hledger hdeal hcomplete
        exact absurd haction (hidle.action seat intent draws authored)

/-! ## How long a round is -/

/-- The envelopes that a round can still accept: shares, actions and disclosures. -/
def stepsLeft (R : SaskuRound P) (c : RoundCore G) : ℕ :=
  (4 * (R.ledger.schedule.length - c.ledger.dealIndex) - c.ledger.contributors.card)
    + (53 - c.hand.history.length)
    + ([0, 1, 2, 3].filter fun seat => c.auditHashes seat = none).length

omit [DecidableEq G] in
theorem donorCount_le_four : R.ledger.donorCount ≤ 4 := by
  rw [RoundReveal.donorCount, R.four]
  split <;> omega

omit [DecidableEq G] in
/-- A disclosure takes one seat off the list. -/
theorem length_filter_update_lt {hashes : ℕ → Option Hash256} {sender : ℕ} (hash : Hash256)
    (hsender : sender < 4) (hfresh : hashes sender = none) :
    ([0, 1, 2, 3].filter fun other =>
        Function.update hashes sender (some hash) other = none).length
      < ([0, 1, 2, 3].filter fun other => hashes other = none).length := by
  have hsub : ([0, 1, 2, 3].filter fun other =>
      Function.update hashes sender (some hash) other = none).Sublist
        ([0, 1, 2, 3].filter fun other => hashes other = none) := by
    refine List.monotone_filter_right _ fun other hother => ?_
    by_cases heq : other = sender
    · rw [heq] at hother
      simp at hother
    · rwa [Function.update_of_ne heq] at hother
  refine lt_of_le_of_ne hsub.length_le fun hlength => ?_
  have hmem : sender ∈ [0, 1, 2, 3].filter fun other => hashes other = none := by
    rw [List.mem_filter]
    exact ⟨by simp; omega, by simpa using hfresh⟩
  rw [← hsub.eq_of_length hlength] at hmem
  simp at hmem

/-- Every envelope that is accepted leaves fewer. -/
theorem stepsLeft_lt (hinv : RoundInv R c) (hstep : RoundStep R c e c') :
    stepsLeft R c' < stepsLeft R c := by
  have hreached := (hinv.next hstep).reached
  cases hstep with
  | @shares sender step body accepted =>
      have hwaiting := hinv.ledger.waiting
      have hfour := donorCount_le_four (R := R)
      have hlt : c.ledger.dealIndex < R.ledger.schedule.length :=
        (List.getElem?_eq_some_iff.1 accepted.deal).1
      have hcard := Finset.card_insert_of_notMem accepted.pending
      by_cases hlast : (insert sender c.ledger.contributors).card = R.ledger.donorCount
      · have hindex : (R.ledger.contribute c.ledger (P.hashEnvelope e) sender body.items).dealIndex
            = c.ledger.dealIndex + if R.ledger.batchDeal then R.ledger.schedule.length else 1 :=
          if_pos hlast
        have hnone :
            (R.ledger.contribute c.ledger (P.hashEnvelope e) sender body.items).contributors = ∅ :=
          if_pos hlast
        simp only [stepsLeft, hindex, hnone, Finset.card_empty]
        split <;> omega
      · obtain ⟨hindex, hcontributors⟩ :=
          contribute_eq_of_more (P.hashEnvelope e) body.items hlast
        simp only [stepsLeft, hindex, hcontributors]
        omega
  | @action _ _ _ _ action hand accepted =>
      have hle := history_length_le hreached.inv.table hreached.auction
      have hhistory : hand.history = c.hand.history ++ [action] :=
        (plays_of_nextAction accepted.next).1
      have hlength : hand.history.length = c.hand.history.length + 1 := by simp [hhistory]
      replace hle : hand.history.length ≤ 53 := hle
      simp only [stepsLeft, LedgerState.reveal]
      omega
  | audit accepted =>
      have hsender := Roster.lt_size_of_seatOf accepted.sender
      rw [R.four] at hsender
      have hless := length_filter_update_lt (P.hashEnvelope e) hsender accepted.fresh
      simp only [stepsLeft]
      omega

/-- A round is not longer than its deal, its hand and its audit. -/
theorem AuthoredRun.length_le {l : List SignedEnvelope} (h : AuthoredRun R secrets l c) :
    l.length + stepsLeft R c ≤ 4 * R.ledger.schedule.length + 57 := by
  induction h with
  | start => simp [stepsLeft, SaskuRound.init, LedgerState.start, publicHand, initialState]
  | next run authors fresh step ih =>
      have hinv := run.inv.1
      have hless := stepsLeft_lt hinv ((round_step_eq_some hinv).1 step)
      rw [List.length_append, List.length_singleton]
      omega

/-! ## What is authored is admitted -/

/-- The envelope is classified as accepted, from this seat and for this action, and committed. -/
def AdmittedAs (R : SaskuRound P) (c : RoundCore G) (e : SignedEnvelope) (seat : SaskuSeat)
    (intended : Option SaskuHandAction) : Prop :=
  ∃ t next, R.classify c e = .ok t ∧ t.accepted = true ∧ t.seat = seat.val ∧
    t.action = intended ∧ R.commit c t = .ok next ∧ R.step c e = some next

theorem Authors.admitted {secretKey : ZMod q} {intended : Option SaskuHandAction}
    (hinv : RoundInv R c) (h : Authors R c seat secretKey e intended)
    (hfresh : c.ledger.accepted (P.hashEnvelope e) = none) : AdmittedAs R c e seat intended := by
  obtain ⟨t, haccepts, haccepted, hseat, haction⟩ := authored_accepts hinv h hfresh
  obtain ⟨next, hcommit, hstep⟩ := commit_of_accepts hinv haccepts
  exact ⟨t, next, classify_of_accepts haccepts, haccepted, hseat, haction, hcommit,
    (round_step_eq_some hinv).2 hstep⟩

theorem authoredAction_eq_created {secretKey : ZMod q} {intent : SaskuActionIntent}
    {draws : List ℕ} {action : SaskuHandAction} {content : EnvelopeContent}
    (h : R.authoredAction c seat secretKey intent draws = .ok (some (action, content))) :
    ∃ body value, R.createAction c seat secretKey intent draws = .ok (some (action, body)) ∧
      encodeActionBody P body = .ok value ∧ content.body = value := by
  rw [SaskuRound.authoredAction, bind_eq_ok] at h
  obtain ⟨created, hcreated, h⟩ := h
  cases created with
  | none => cases h
  | some created =>
      obtain ⟨value, hvalue, h⟩ := bind_eq_ok.1 h
      cases h
      exact ⟨created.2, value, hcreated, liftError_eq_ok.1 hvalue, rfl⟩

omit [DecidableEq G] in
theorem exists_right_of_forall₂ {α β : Type} {rel : α → β → Prop} {l : List α} {l' : List β}
    (h : List.Forall₂ rel l l') : ∀ a ∈ l, ∃ b, rel a b := by
  induction h with
  | nil => simp
  | cons hrel _ ih =>
      intro a ha
      rcases List.mem_cons.1 ha with rfl | ha
      · exact ⟨_, hrel⟩
      · exact ih a ha

/-- **What an honest peer authors every honest peer admits.**  In every state of a round, what a
seat authors for a deal, an action or an audit, whatever is drawn, is decoded to what was created,
with shares that verify in the phase that the receivers derive, and is accepted by ledgers and
receivers as what was intended.  On a deck that is the initial deck after shuffles, with the
secrets of the seats' keys, a round of such envelopes has a bound, and it only stops when it has
been audited. -/
theorem authored_is_admitted (R : SaskuRound P) :
    (∀ history c, Replay.run R.step R.init history = some c →
      ∀ (seat : SaskuSeat) (secretKey : ZMod q) (draws : List ℕ) (e : SignedEnvelope),
        c.ledger.accepted (P.hashEnvelope e) = none →
        (∀ content, R.authoredShares c seat secretKey draws = .ok (some content) →
          R.Carries e seat content → ∃ body ledger,
            R.ledger.createDealShares c.ledger seat.val secretKey draws = .ok (some body) ∧
            decodeSharesBody P e.body = .ok body ∧
            (∀ item ∈ body.items,
              R.ledger.Verified ⟨R.ledger.gameId, R.ledger.round, e.phase⟩ seat.val item) ∧
            (∀ expectedSeat, R.ledger.commit c.ledger e expectedSeat
              = .ok (⟨true, seat.val, .shares body⟩, ledger)) ∧
            AdmittedAs R c e seat none) ∧
        (∀ intent action content,
          R.authoredAction c seat secretKey intent draws = .ok (some (action, content)) →
          R.Carries e seat content → ∃ body revealed ledger,
            R.createAction c seat secretKey intent draws = .ok (some (action, body)) ∧
            decodeActionBody P e.body = .ok body ∧
            (∀ share ∈ body.shares,
              R.ledger.Verified ⟨R.ledger.gameId, R.ledger.round, e.phase⟩ seat.val share) ∧
            R.ledger.commit c.ledger e (some seat.val)
              = .ok (⟨true, seat.val, .action body revealed⟩, ledger) ∧
            AdmittedAs R c e seat (some action)) ∧
        ∀ content, R.authoredAudit c seat = .ok content → R.Carries e seat content →
          decodeAuditDiscloseBody P e.body = .ok ⟨[]⟩ ∧ AdmittedAs R c e seat none) ∧
    ∀ secrets witnesses, ShuffledDeck R.ledger secrets witnesses →
      ∀ l c, AuthoredRun R secrets l c →
        Replay.run R.step R.init l = some c ∧ l.length ≤ 4 * R.ledger.schedule.length + 57 ∧
        (NothingToAuthor R secrets c → c.Audited) := by
  constructor
  · intro history c hrun seat secretKey draws e hfresh
    have hinv : RoundInv R c := by
      obtain ⟨t, -, rfl⟩ := roundState_of_run (.init R) hrun
      exact t.inv
    refine ⟨?_, ?_, ?_⟩
    · intro content hauthored hcarries
      obtain ⟨step, body, hcreated, accepted, -⟩ :=
        authoredShares_accepted hauthored hcarries hfresh
      refine ⟨body, _, hcreated, accepted.decoded, checkShares_eq_ok.1 accepted.proofs,
        fun expectedSeat => process_of_step (.shares accepted) fun haction => ?_,
        Authors.admitted hinv (.shares hauthored hcarries) hfresh⟩
      rw [accepted.type] at haction
      cases haction
    · intro intent action content hauthored hcarries
      obtain ⟨body, value, hcreated, hencoded, hvalue⟩ := authoredAction_eq_created hauthored
      obtain ⟨body', revealed, _, _, accepted, -⟩ :=
        authoredAction_accepted hinv hauthored hcarries hfresh
      have hdecoded : decodeActionBody P e.body = .ok body := by
        rw [hcarries.body, hvalue]
        exact decodeActionBody_encode P hencoded
      obtain rfl := Except.ok.inj (accepted.ledger.decoded.symm.trans hdecoded)
      obtain ⟨new, -, hopens, -, -⟩ := openShares_eq_ok accepted.ledger.opened
      refine ⟨body', revealed, _, hcreated, hdecoded, fun share hshare => ?_,
        process_of_step (.action accepted.ledger) fun _ => rfl,
        Authors.admitted hinv (.action hauthored hcarries) hfresh⟩
      obtain ⟨entry, -, hverified, -⟩ := exists_right_of_forall₂ hopens share hshare
      exact hverified
    · intro content hauthored hcarries
      obtain ⟨audit, accepted⟩ := authoredAudit_accepted hinv hauthored hcarries
      have hauthors : Authors R c seat secretKey e none := .audit hauthored hcarries
      exact ⟨accepted.decoded, hauthors.admitted hinv hfresh⟩
  · intro secrets witnesses h l c hrun
    obtain ⟨hinv, hledger⟩ := hrun.inv
    have hlength := hrun.length_le
    exact ⟨hrun.replay, by omega, fun hidle => audited_of_nothingToAuthor h hinv hledger hidle⟩

end

/-! ## A deck that does not open -/

namespace SmallGroup

/-- The secrets of the keys 1, 2, 3 and 4. -/
def seatSecret (seat : ℕ) : ZMod 41 := (seat : ZMod 41) + 1

/-- The envelope in which a seat sends this content. -/
def envelopeOf (seat : SaskuSeat) (seq : ℕ) (content : EnvelopeContent) : SignedEnvelope where
  game := game
  from_ := padded 32 [UInt8.ofNat (seat.val + 1)]
  seq := seq
  prev := ZERO_HASH
  round := content.round
  phase := content.phase
  type := content.type
  body := content.body
  sig := zeroBytes 64

/-- A seat gives its shares of the current step. -/
def giveShares (R : SaskuRound (primitives fun _ => 0)) (c : RoundCore (ZMod 41))
    (seat : SaskuSeat) : Option (RoundCore (ZMod 41)) :=
  match R.authoredShares c seat (seatSecret seat.val) (List.replicate 100 2) with
  | .ok (some content) =>
      let e := envelopeOf seat c.ledger.dealIndex content
      if c.ledger.accepted ((primitives fun _ => 0).hashEnvelope e) = none then R.step c e else none
  | _ => none

/-- The order in which the seats give their shares of the four steps. -/
def givingSeats : List SaskuSeat := [1, 2, 3, 0, 2, 3, 0, 1, 3, 0, 1, 2]

theorem authoredRun_of_giveShares {c c' : RoundCore (ZMod 41)} {seat : SaskuSeat}
    {l : List SignedEnvelope} (hrun : AuthoredRun saskuRound seatSecret l c)
    (h : giveShares saskuRound c seat = some c') :
    ∃ e, AuthoredRun saskuRound seatSecret (l ++ [e]) c' := by
  unfold giveShares at h
  split at h
  · rename_i content hauthored
    dsimp only at h
    split at h
    · rename_i hfresh
      have hsender : ∀ other : SaskuSeat,
          saskuRound.ledger.roster.seatOf (padded 32 [UInt8.ofNat (other.val + 1)])
            = some other.val := by decide
      have hcarries : saskuRound.Carries (envelopeOf seat c.ledger.dealIndex content) seat
          content := ⟨rfl, hsender seat, rfl, rfl, rfl, rfl⟩
      exact ⟨_, .next hrun (.shares hauthored hcarries) hfresh h⟩
    · cases h
  · cases h

theorem authoredRun_of_deal {seats : List SaskuSeat} {c c' : RoundCore (ZMod 41)}
    {l : List SignedEnvelope} (hrun : AuthoredRun saskuRound seatSecret l c)
    (h : seats.foldlM (giveShares saskuRound) c = some c') :
    ∃ l', AuthoredRun saskuRound seatSecret l' c' := by
  induction seats generalizing c l with
  | nil =>
      cases h
      exact ⟨l, hrun⟩
  | cons seat rest ih =>
      rw [List.foldlM_cons] at h
      obtain ⟨mid, hmid, hrest⟩ := Option.bind_eq_some_iff.1 h
      obtain ⟨e, hnext⟩ := authoredRun_of_giveShares hrun hmid
      exact ih hnext hrest

/-- The deal is over, it is the turn of seat 1, and its hand does not open. -/
def Stuck (c : RoundCore (ZMod 41)) : Prop :=
  saskuRound.ledger.currentDeal c.ledger = none ∧ c.hand.turn = some 1 ∧ c.audit.isNone ∧
    (saskuRound.readPrivateHand c 1 (seatSecret 1)).isOk = false

instance : DecidablePred Stuck := fun c => inferInstanceAs (Decidable (_ ∧ _ ∧ _ ∧ _))

theorem nothingToAuthor_of_stuck {c : RoundCore (ZMod 41)} (hinv : RoundInv saskuRound c)
    (h : Stuck c) : NothingToAuthor saskuRound seatSecret c := by
  obtain ⟨hdealt, hturn, haudit, hread⟩ := h
  refine ⟨fun seat draws content hauthored => ?_, fun seat intent draws authored hauthored => ?_,
    fun seat content hauthored => ?_⟩
  · rw [SaskuRound.authoredShares, bind_eq_ok] at hauthored
    obtain ⟨created, hcreated, hauthored⟩ := hauthored
    cases created with
    | none => cases hauthored
    | some body =>
        obtain ⟨-, step, hdeal, -⟩ := createDealShares_eq_ok (liftError_eq_ok.1 hcreated)
        cases hdealt.symm.trans hdeal
  · obtain ⟨action, content⟩ := authored
    obtain ⟨_, _, _, _, hcreated, -⟩ := authoredAction_eq_ok hinv hauthored
    obtain rfl : seat = 1 := by
      have hexpected := hcreated.turn
      rw [RoundCore.expectedSeat, hturn] at hexpected
      exact (Fin.ext (Option.some.inj hexpected)).symm
    obtain ⟨_, _, hauthored, -⟩ := authoredAction_eq_created hauthored
    rw [SaskuRound.createAction, bind_eq_ok] at hauthored
    obtain ⟨hand, hhand, -⟩ := hauthored
    rw [show (1 : SaskuSeat).val = 1 from rfl] at hhand
    rw [hhand] at hread
    cases hread
  · rw [SaskuRound.authoredAudit, Option.isNone_iff_eq_none.1 haudit] at hauthored
    cases hauthored

end SmallGroup

open SmallGroup in
/-- Some of the points behind the masks of this deck are those of no card: the seats deal it, and
then the seat whose turn it is cannot read its hand. -/
theorem authored_round_stuck :
    (∀ seat : SaskuSeat, LocalKey saskuRound.ledger seat.val (seatSecret seat.val)) ∧
      ∃ l c, AuthoredRun saskuRound seatSecret l c ∧ NothingToAuthor saskuRound seatSecret c ∧
        ¬ c.Audited := by
  have hdealt : (givingSeats.foldlM (giveShares saskuRound) saskuRound.init).any
      (fun c => Stuck c) = true := by decide +kernel
  obtain ⟨c, hdeal, hstuck⟩ := (Option.any_eq_true _ _).1 hdealt
  rw [decide_eq_true_iff] at hstuck
  obtain ⟨l, hrun⟩ := authoredRun_of_deal .start hdeal
  refine ⟨fun seat => ⟨seat.isLt, ?_⟩, l, c, hrun, nothingToAuthor_of_stuck hrun.inv.1 hstuck,
    fun haudited => ?_⟩
  · have hkeys : ∀ other : SaskuSeat, seatSecret other.val • (primitives fun _ => 0).base
        = saskuRound.ledger.publicKey other.val := by decide
    exact hkeys seat
  · obtain ⟨-, _, _, haudit, -⟩ := haudited
    rw [Option.isNone_iff_eq_none.1 hstuck.2.2.1] at haudit
    cases haudit

/-! ## A deck that does -/

namespace SmallGroup

/-- Every card keeps its place. -/
def stay : DeckShuffleWitness 41 := ⟨List.range 36, List.replicate 36 1⟩

/-- The small round on a deck after one shuffle. -/
def shuffledRound : SaskuRound (primitives fun _ => 0) where
  ledger := { saskuRound.ledger with
    deck := (List.range 36).map fun n : ℕ => ⟨1, ((n + 11 : ℕ) : ZMod 41)⟩
    deck_length := by decide +kernel
    steps_ok := ⟨by decide, by decide, by decide⟩
    batch_ok := by decide }
  dealer := 0
  four := rfl
  cards := saskuRound.cards
  budget := rfl
  nine := saskuRound.nine

theorem shuffledRound_shuffled : ShuffledDeck shuffledRound.ledger seatSecret [stay] where
  secrets_ne_zero := by
    intro seat hseat
    have hseat : seat < 4 := hseat
    interval_cases seat <;> decide
  publicKeys := by decide
  drawn := by
    intro witness hwitness
    rw [List.mem_singleton.1 hwitness]
    exact ⟨by decide, rfl, by decide⟩
  deck := ⟨10, rfl, by decide +kernel⟩

end SmallGroup

open SmallGroup in
/-- The shares of the first seat are admitted, and a shuffled round is not over at the start. -/
theorem authored_is_admitted_small :
    (∃ content, saskuRound.authoredShares saskuRound.init 1 (seatSecret 1) (List.replicate 100 2)
        = .ok (some content) ∧
      AdmittedAs saskuRound saskuRound.init (envelopeOf 1 0 content) 1 none) ∧
    ¬ NothingToAuthor shuffledRound seatSecret shuffledRound.init := by
  have hauthored : ∃ content, saskuRound.authoredShares saskuRound.init 1 (seatSecret 1)
      (List.replicate 100 2) = .ok (some content) := by
    have hok : (giveShares saskuRound saskuRound.init 1).isSome = true := by decide +kernel
    unfold giveShares at hok
    split at hok
    · rename_i content hcontent
      exact ⟨content, hcontent⟩
    · cases hok
  obtain ⟨content, hcontent⟩ := hauthored
  refine ⟨⟨content, hcontent, ?_⟩, fun hidle => ?_⟩
  · obtain ⟨hshares, -⟩ := (authored_is_admitted saskuRound).1 [] saskuRound.init rfl 1
      (seatSecret 1) (List.replicate 100 2) (envelopeOf 1 0 content) rfl
    obtain ⟨_, _, -, -, -, -, hadmitted⟩ := hshares content hcontent ⟨rfl, rfl, rfl, rfl, rfl, rfl⟩
    exact hadmitted
  · obtain ⟨-, -, hover⟩ := (authored_is_admitted shuffledRound).2 seatSecret [stay]
      shuffledRound_shuffled [] shuffledRound.init .start
    have hcomplete := (hover hidle).complete
    cases hcomplete

end Tablefolk
