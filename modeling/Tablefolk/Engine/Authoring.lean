import Tablefolk.Engine.RevealInvariant

/-!
# What a seat reads and authors

The local half of the reveal ledger, on a state with the invariant.

* `ReadHand`: what `readPrivateHand` has checked of the hand it returns.
* `createShares_eq_ok`: the shares a seat creates verify against its key, whatever was
  drawn.
* `createShares_ok`: it can create them for any positions of the deck.
-/

namespace Tablefolk

/-! ## The length of a phase -/

theorem length_toString_le {n e : ℕ} (hpos : 0 < e) (h : n < 10 ^ e) : (toString n).length ≤ e :=
  Nat.repr_length n e hpos h

theorem length_scheduleFrom (cursor : ℕ) (steps : List PrivateDealStep) :
    (scheduleFrom cursor steps).length = steps.length := by
  induction steps generalizing cursor with
  | nil => rfl
  | cons step rest ih => rw [scheduleFrom, List.length_cons, List.length_cons, ih]

/-- A schedule has no more steps than it deals cards. -/
theorem length_le_dealOwners {steps : List PrivateDealStep} (h : ∀ step ∈ steps, 1 ≤ step.count) :
    steps.length ≤ (dealOwners steps).length := by
  induction steps with
  | nil => simp
  | cons step rest ih =>
      have hcount := h step List.mem_cons_self
      have hrest := ih fun other hother => h other (List.mem_cons_of_mem _ hother)
      simp only [dealOwners, List.flatMap_cons, List.length_append, List.length_replicate,
        List.length_cons] at hrest ⊢
      omega

section

variable {q : ℕ} {G : Type} [AddCommGroup G] [Module (ZMod q) G]
  {P : Primitives q G} {L : RoundReveal P} {s : LedgerState G}

theorem length_deck_le : L.deck.length ≤ 128 := L.deck_length.trans_le L.table.size_le

theorem length_schedule_le : L.schedule.length ≤ 128 := by
  rw [RoundReveal.schedule, length_scheduleFrom]
  exact (length_le_dealOwners L.steps_ok.counts).trans (L.steps_ok.size.trans length_deck_le)

/-- A phase is short, so an envelope stays within its limit. -/
theorem utf8ByteSize_phase (h : L.currentDeal s = none → s.actionIndex < 10 ^ 16) :
    (L.phase s).utf8ByteSize ≤ 200 := by
  have hround := length_toString_le (by omega : 0 < 16) (show L.round < 10 ^ 16 from
    L.round_safe.trans_lt (by decide))
  refine (utf8ByteSize_le _).trans ?_
  cases hdeal : L.currentDeal s with
  | none =>
      have hindex := length_toString_le (by omega : 0 < 16) (h hdeal)
      rw [RoundReveal.phase, if_pos hdeal, playPhase]
      simp only [String.length_append, show "round.".length = 6 from rfl,
        show ".play.".length = 6 from rfl]
      omega
  | some step =>
      have hlt : s.dealIndex < L.schedule.length := (List.getElem?_eq_some_iff.1 hdeal).1
      have hindex := length_toString_le (by omega : 0 < 16)
        (show s.dealIndex < 10 ^ 16 by have := length_schedule_le (L := L); omega)
      rw [RoundReveal.phase, if_neg (by simp [hdeal]), dealPhase]
      simp only [String.length_append, show "round.".length = 6 from rfl,
        show ".deal.".length = 6 from rfl]
      omega

/-! ## Local keys -/

/-- A seat with the secret of its public key. -/
structure LocalKey (L : RoundReveal P) (seat : ℕ) (secretKey : ZMod q) : Prop where
  lt : seat < L.roster.size
  key : secretKey • P.base = L.publicKey seat

theorem requireLocalKey_eq_ok [DecidableEq G] {seat : ℕ} {secretKey : ZMod q} :
    L.requireLocalKey seat secretKey = .ok () ↔ LocalKey L seat secretKey := by
  rw [RoundReveal.requireLocalKey, check_bind_eq_ok, throwIf_eq_ok, throwIf_eq_ok]
  exact ⟨fun h => ⟨not_le.1 h.1, not_not.1 h.2⟩, fun h => ⟨not_le.2 h.lt, not_not.2 h.key⟩⟩

/-- The group has prime order, so a secret that is not zero has a key that is not. -/
theorem smul_base_ne_zero (P : Primitives q G) {secretKey : ZMod q} (h : secretKey ≠ 0) :
    secretKey • P.base ≠ 0 := by
  have := Fact.mk P.prime
  exact smul_ne_zero h P.base_ne_zero

/-! ## Creating shares -/

variable [DecidableEq G] {seat : ℕ} {secretKey : ZMod q}

/-- `item` is the seat's own share for its position. -/
def RoundReveal.Own (L : RoundReveal P) (secretKey : ZMod q) (item : PositionShare q G) : Prop :=
  ∃ masked : MaskedCard G, L.deck[item.pos]? = some masked ∧ item.share.S = secretKey • masked.A

/-- **Created shares verify**, position by position, in the context they were created for. -/
theorem createShares_eq_ok {context : ProofContext} {positions draws : List ℕ}
    {items : List (PositionShare q G)} (hkey : LocalKey L seat secretKey)
    (h : L.createShares context secretKey positions draws = .ok (some items)) :
    items.map PositionShare.pos = positions ∧
      ∀ item ∈ items, L.Verified context seat item ∧ L.Own secretKey item := by
  induction positions generalizing draws items with
  | nil =>
      cases h
      exact ⟨rfl, by simp⟩
  | cons position rest ih =>
      rw [RoundReveal.createShares, bind_eq_ok] at h
      obtain ⟨masked, hmasked, h⟩ := h
      split at h
      · cases h
      · rename_i nonce draws' hnonce
        obtain ⟨share, hshare, h⟩ := bind_eq_ok.1 h
        obtain ⟨shares, hshares, h⟩ := bind_eq_ok.1 h
        cases shares with
        | none => cases h
        | some shares =>
            cases h
            obtain ⟨hpositions, hall⟩ := ih hshares
            have hcreated : P.createProvenDecryptionShare context position secretKey masked.A nonce
                = .ok share := by
              revert hshare
              cases P.createProvenDecryptionShare context position secretKey masked.A nonce <;>
                simp [Except.mapError]
            have hsecret : secretKey ≠ 0 := by
              rw [Primitives.createProvenDecryptionShare, check_bind_eq_ok, check_bind_eq_ok,
                throwIf_eq_ok, throwIf_eq_ok] at hcreated
              exact hcreated.2.1
            obtain ⟨hS, hverify⟩ := P.verify_createProvenDecryptionShare hkey.key
              (hkey.key ▸ smul_base_ne_zero P hsecret) hcreated
            have hdeck := of_cardAt_eq_ok hmasked
            refine ⟨by simp [hpositions], fun item hitem => ?_⟩
            rcases List.mem_cons.1 hitem with rfl | hitem
            · exact ⟨⟨masked, hdeck, hverify⟩, masked, hdeck, hS⟩
            · exact hall item hitem

omit [DecidableEq G] in
/-- A source that only draws ones: they are in range, so no draw is skipped. -/
theorem randomNonZeroRistrettoScalar_one (P : Primitives q G) (count : ℕ) :
    randomNonZeroRistrettoScalar q (List.replicate (count + 1) 1)
      = some (1, List.replicate count 1) := by
  rw [List.replicate_succ, randomNonZeroRistrettoScalar, if_pos ⟨one_pos, P.prime.one_lt⟩]
  simp

omit [DecidableEq G] in
/-- With enough draws every position of the deck gets a share. -/
theorem createShares_ok {context : ProofContext} {positions : List ℕ} (hsecret : secretKey ≠ 0)
    (hpositions : ∀ position ∈ positions, position < L.deck.length) : ∃ items,
    L.createShares context secretKey positions (List.replicate positions.length 1)
      = .ok (some items) := by
  induction positions with
  | nil => exact ⟨[], rfl⟩
  | cons position rest ih =>
      have hlt := hpositions position List.mem_cons_self
      obtain ⟨masked, -, hmasked⟩ := cardAt_of_lt hlt
      obtain ⟨items, hitems⟩ := ih fun other hother => hpositions other (List.mem_cons_of_mem _ hother)
      have hposition : position ≤ 127 := by
        have := length_deck_le (L := L)
        omega
      obtain ⟨share, hshare⟩ : ∃ share, P.createProvenDecryptionShare context position secretKey
          masked.A 1 = .ok share := P.createProvenDecryptionShare_ok hposition hsecret
      refine ⟨⟨position, share⟩ :: items, ?_⟩
      rw [RoundReveal.createShares, hmasked, ok_bind, List.length_cons,
        randomNonZeroRistrettoScalar_one P]
      simp only [hshare, Except.mapError, ok_bind, hitems, Option.map_some]
      rfl

/-! ## Private hands -/

/-- What reading a private hand has checked of an entry: the seat's own share opens it. -/
structure Reads (L : RoundReveal P) (s : LedgerState G) (seat : ℕ) (secretKey : ZMod q)
    (entry : ℕ × String) : Prop where
  opens : ∃ masked : MaskedCard G, L.deck[entry.1]? = some masked ∧
    L.openCard s entry.1 seat (secretKey • masked.A) = .ok (some entry.2)
  shown : ∀ card, s.revealed entry.1 = some card → card = entry.2

omit [DecidableEq G] in
theorem decryptionShare_eq_ok {cardA own : G}
    (h : decryptionShare secretKey cardA = .ok own) :
    secretKey ≠ 0 ∧ own = secretKey • cardA := by
  rw [decryptionShare, check_bind_eq_ok, throwIf_eq_ok] at h
  obtain ⟨hsecret, h⟩ := h
  cases h
  exact ⟨hsecret, rfl⟩

theorem openHand_eq_ok {known : List (String × ℕ)} {positions : List ℕ} {hand : RoundPrivateHand}
    (hnodup : positions.Nodup)
    (h : L.openHand s seat secretKey known positions = .ok hand) :
    hand.dealt.map Prod.fst = positions ∧ (hand.dealt.map Prod.snd).Nodup ∧
      hand.remaining = hand.dealt.filter (fun entry => s.revealed entry.1 = none) ∧
      (positions ≠ [] → secretKey ≠ 0) ∧
      ∀ entry ∈ hand.dealt, Reads L s seat secretKey entry ∧
        ∀ other, known.lookup entry.2 = some other → other = entry.1 := by
  induction positions generalizing known hand with
  | nil =>
      cases h
      simp
  | cons position rest ih =>
      rw [RoundReveal.openHand, bind_eq_ok] at h
      obtain ⟨masked, hmasked, h⟩ := h
      obtain ⟨own, hown, h⟩ := bind_eq_ok.1 h
      have hown : decryptionShare secretKey masked.A = .ok own := by
        revert hown
        cases decryptionShare secretKey masked.A <;> simp [Except.mapError]
      obtain ⟨hsecret, rfl⟩ := decryptionShare_eq_ok hown
      obtain ⟨card, hcard, h⟩ := bind_eq_ok.1 h
      split at h
      · cases h
      rename_i card
      obtain ⟨hknown, h⟩ := check_bind_eq_ok.1 h
      obtain ⟨hshown, h⟩ := check_bind_eq_ok.1 h
      obtain ⟨tail, htail, h⟩ := bind_eq_ok.1 h
      cases h
      rw [throwIf_eq_ok] at hknown hshown
      rw [List.nodup_cons] at hnodup
      obtain ⟨hpositions, hcards, hremaining, -, hall⟩ := ih hnodup.2 htail
      -- a later card that repeats this one would name this position
      have hfresh : ∀ entry ∈ tail.dealt, entry.2 ≠ card := by
        rintro entry hentry rfl
        have heq := (hall entry hentry).2 position (by simp [List.lookup])
        exact hnodup.1 (heq ▸ hpositions ▸ List.mem_map_of_mem hentry)
      refine ⟨by simp [hpositions], ?_, ?_, fun _ => hsecret, fun entry hentry => ?_⟩
      · rw [List.map_cons, List.nodup_cons]
        refine ⟨fun hmem => ?_, hcards⟩
        obtain ⟨entry, hentry, heq⟩ := List.mem_map.1 hmem
        exact hfresh entry hentry heq
      · by_cases hhidden : s.revealed position = none
        · simp [hhidden, hremaining]
        · simp [hhidden, hremaining]
      · rcases List.mem_cons.1 hentry with rfl | hentry
        · refine ⟨⟨⟨masked, of_cardAt_eq_ok hmasked, hcard⟩, fun shown hrevealed => ?_⟩,
            fun other hother => ?_⟩
          · by_contra hne
            exact hshown ⟨shown, hrevealed, hne⟩
          · by_contra hne
            exact hknown ⟨other, hother, hne⟩
        · refine ⟨(hall entry hentry).1, fun other hother => (hall entry hentry).2 other ?_⟩
          rw [List.lookup_cons, beq_false_of_ne (hfresh entry hentry)]
          exact hother

omit [DecidableEq G] in
/-- `cardPositions` finds a public card where it is shown. -/
theorem lookup_cardPositions (hinv : ∀ position position' card, s.revealed position = some card →
      s.revealed position' = some card → position = position') {position : ℕ} {card : String}
    (hlt : position < L.deck.length) (h : s.revealed position = some card) :
    (L.cardPositions s).lookup card = some position := by
  have hmem : ∀ entry ∈ L.cardPositions s, s.revealed entry.2 = some entry.1 := by
    intro entry hentry
    rw [RoundReveal.cardPositions, List.mem_reverse, List.mem_filterMap] at hentry
    obtain ⟨other, -, hentry⟩ := hentry
    obtain ⟨shown, hshown, rfl⟩ := Option.map_eq_some_iff.1 hentry
    exact hshown
  cases hlookup : (L.cardPositions s).lookup card with
  | none =>
      have hnone : ∀ entry ∈ L.cardPositions s, card ≠ entry.1 := by
        simpa [List.lookup_eq_none_iff] using hlookup
      refine absurd rfl (hnone (card, position) ?_)
      rw [RoundReveal.cardPositions, List.mem_reverse, List.mem_filterMap]
      exact ⟨position, List.mem_range.2 hlt, by simp [h]⟩
  | some other =>
      obtain ⟨before, after, heq, -⟩ := List.lookup_eq_some_iff.1 hlookup
      have hother : s.revealed other = some card := hmem (card, other) (heq ▸ by simp)
      rw [hinv other position card hother h]

/-- What `readPrivateHand` has checked of the hand it returns. -/
structure ReadHand (L : RoundReveal P) (s : LedgerState G) (seat : ℕ) (secretKey : ZMod q)
    (hand : RoundPrivateHand) : Prop where
  key : LocalKey L seat secretKey
  dealt : L.currentDeal s = none
  positions : hand.dealt.map Prod.fst = L.ownedPositions seat
  distinct : (hand.dealt.map Prod.snd).Nodup
  remaining : hand.remaining = hand.dealt.filter fun entry => s.revealed entry.1 = none
  reads : ∀ entry ∈ hand.dealt, Reads L s seat secretKey entry
  /-- a card that is public elsewhere is not in the hand -/
  unique : ∀ entry ∈ hand.dealt, ∀ position, s.revealed position = some entry.2 → position = entry.1

omit [DecidableEq G] in
theorem mem_ownedPositions {position : ℕ} :
    position ∈ L.ownedPositions seat ↔ L.owner position = some seat := by
  rw [RoundReveal.ownedPositions, List.mem_filter, List.mem_range, decide_eq_true_iff]
  exact ⟨fun h => h.2, fun h => ⟨lt_deck_of_owner h, h⟩⟩

theorem readPrivateHand_eq_ok (hinv : LedgerInv L s) {hand : RoundPrivateHand}
    (h : L.readPrivateHand s seat secretKey = .ok (some hand)) :
    ReadHand L s seat secretKey hand := by
  rw [RoundReveal.readPrivateHand, check_bind_eq_ok] at h
  obtain ⟨hkey, h⟩ := h
  split at h
  · cases h
  rename_i hdealt
  obtain ⟨hand', hhand, h⟩ := bind_eq_ok.1 h
  cases h
  have hnodup : (L.ownedPositions seat).Nodup := List.nodup_range.filter _
  obtain ⟨hpositions, hdistinct, hremaining, -, hall⟩ := openHand_eq_ok hnodup hhand
  refine ⟨requireLocalKey_eq_ok.1 hkey, List.getElem?_eq_none (not_lt.1 hdealt), hpositions,
    hdistinct, hremaining, fun entry hentry => (hall entry hentry).1,
    fun entry hentry position hshown => ?_⟩
  obtain ⟨-, _, -, howner, -⟩ := hinv.opened position entry.2 hshown
  exact (hall entry hentry).2 position
    (lookup_cardPositions hinv.distinct (lt_deck_of_owner howner) hshown)

/-- An entry that remains is hidden, and its card is not public. -/
theorem ReadHand.of_remaining {hand : RoundPrivateHand} (h : ReadHand L s seat secretKey hand)
    {entry : ℕ × String} (hentry : entry ∈ hand.remaining) :
    entry ∈ hand.dealt ∧ L.owner entry.1 = some seat ∧ s.revealed entry.1 = none ∧
      entry.2 ∉ L.revealedCards s := by
  rw [h.remaining, List.mem_filter, decide_eq_true_iff] at hentry
  obtain ⟨hdealt, hhidden⟩ := hentry
  refine ⟨hdealt, mem_ownedPositions.1 (h.positions ▸ List.mem_map_of_mem hdealt), hhidden, ?_⟩
  intro hmem
  obtain ⟨position, -, hshown⟩ := mem_revealedCards.1 hmem
  rw [h.unique entry hdealt position hshown, hhidden] at hshown
  cases hshown

/-- A hand that opens to known cards is read. -/
theorem openHand_ok {known : List (String × ℕ)} {positions : List ℕ} {card : ℕ → String}
    (hsecret : secretKey ≠ 0)
    (hopens : ∀ position ∈ positions, ∃ masked : MaskedCard G, L.deck[position]? = some masked ∧
      L.openCard s position seat (secretKey • masked.A) = .ok (some (card position)))
    (hinj : ∀ p ∈ positions, ∀ p' ∈ positions, card p = card p' → p = p')
    (hknown : ∀ position ∈ positions, ∀ other, known.lookup (card position) = some other →
      other = position)
    (hshown : ∀ position ∈ positions, ∀ shown, s.revealed position = some shown →
      shown = card position) :
    ∃ hand, L.openHand s seat secretKey known positions = .ok hand := by
  induction positions generalizing known with
  | nil => exact ⟨_, rfl⟩
  | cons position rest ih =>
      have tail : ∀ {p}, p ∈ rest → p ∈ position :: rest := List.mem_cons_of_mem _
      obtain ⟨masked, hmasked, hopen⟩ := hopens position List.mem_cons_self
      have hnext : ∀ p ∈ rest, ∀ other,
          ((card position, position) :: known).lookup (card p) = some other → other = p := by
        intro p hp other hother
        by_cases hsame : card p = card position
        · obtain rfl := hinj p (tail hp) position List.mem_cons_self hsame
          simpa [List.lookup, eq_comm] using hother
        · rw [List.lookup_cons, beq_false_of_ne hsame] at hother
          exact hknown p (tail hp) other hother
      obtain ⟨hand, hhand⟩ := ih (fun p hp => hopens p (tail hp))
        (fun p hp p' hp' => hinj p (tail hp) p' (tail hp')) hnext fun p hp => hshown p (tail hp)
      refine ⟨⟨(position, card position) :: hand.dealt,
        if s.revealed position = none then (position, card position) :: hand.remaining
          else hand.remaining⟩, ?_⟩
      have hself := hknown position List.mem_cons_self
      have hseen := hshown position List.mem_cons_self
      rw [RoundReveal.openHand, RoundReveal.cardAt, hmasked, ok_bind, decryptionShare,
        throwIf_neg hsecret]
      simp only [ok_bind, except_pure_eq, Except.mapError, hopen]
      rw [throwIf_neg (by rintro ⟨other, hother, hne⟩; exact hne (hself other hother)), ok_bind,
        throwIf_neg (by rintro ⟨shown, hrevealed, hne⟩; exact hne (hseen shown hrevealed)), ok_bind,
        hhand]
      rfl

end

end Tablefolk
