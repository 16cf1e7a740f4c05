import Tablefolk.Sasku.Round

/-!
# What a round accepts

`#classify` is walked through once here.  `Accepts` lists what it checks of a SHARES, an
ACTION and an AUDIT_DISCLOSE envelope, and `classify_accepts` and `classify_of_accepts`
say that these are exactly the envelopes it accepts.
-/

namespace Tablefolk

/-! ## Facts about the hand -/

/-- A normalised run as a run of candidates. -/
theorem applyAll_of_run {s s' : HandState} {actions : List SaskuHandAction}
    (h : runActions s actions = .ok s') :
    applyAll s (actions.map SaskuHandAction.candidate) = .ok s' := by
  refine applyAll_eq_ok.2 ⟨actions, ?_, h⟩
  rw [List.forall₂_map_left_iff]
  exact List.forall₂_same.2 fun a _ => normalizeAction_candidate a

theorem runActions_snoc {s s' s'' : HandState} {actions : List SaskuHandAction} {a : SaskuHandAction}
    (h : runActions s actions = .ok s') (ha : nextAction s' a = .ok s'') :
    runActions s (actions ++ [a]) = .ok s'' := by
  rw [runActions, List.foldlM_append]
  show runActions s actions >>= _ = _
  rw [h]
  show (nextAction s' a >>= fun s'' => .ok s'') = _
  rw [ha]
  rfl

theorem parseSaskuCard_eq_ok {text : String} {card : SaskuCardId} :
    parseSaskuCard text = .ok card ↔ text = card.text := by
  constructor
  · intro h
    rw [parseSaskuCard] at h
    split at h
    · rename_i found hfound
      cases h
      exact (by simpa using List.find?_some hfound : card.text = text).symm
    · cases h
  · rintro rfl
    exact parseSaskuCard_text card

theorem card_text_injective {a b : SaskuCardId} (h : a.text = b.text) : a = b :=
  Except.ok.inj ((parseSaskuCard_text a).symm.trans (h ▸ parseSaskuCard_text b))

/-- A complete hand has played all 36 cards, and it is nobody's turn. -/
theorem Reached.of_complete {deal : Option SaskuDeal} {s : HandState} (h : Reached deal s)
    (phase : s.phase = .complete) : s.plays.length = 36 ∧ s.turn = none := by
  have hphase := h.inv.phase
  rw [PhaseInv, phase] at hphase
  obtain ⟨nine, bare, turn, -⟩ := hphase
  refine ⟨?_, turn⟩
  rw [h.inv.table.length_plays, nine, bare]
  rfl

section

variable {q : ℕ} {G : Type} [AddCommGroup G] [Module (ZMod q) G]
  {P : Primitives q G} (R : SaskuRound P)

/-! ## Facts about the round -/

theorem owner_mem_lt {owner : ℕ} (h : owner ∈ dealOwners R.ledger.steps) : owner < 4 := by
  obtain ⟨step, hstep, hmem⟩ := List.mem_flatMap.1 h
  rw [List.eq_of_mem_replicate hmem, ← R.four]
  exact R.ledger.steps_ok.seats step hstep

theorem SaskuRound.length_owners : (dealOwners R.ledger.steps).length = 36 := by
  have hsum := Multiset.sum_count_eq_card (s := Finset.range 4)
    (m := (dealOwners R.ledger.steps : Multiset ℕ))
    fun owner howner => Finset.mem_range.2 (owner_mem_lt R (by simpa using howner))
  rw [Multiset.coe_card] at hsum
  rw [← hsum]
  have hnine : ∀ seat ∈ Finset.range 4,
      Multiset.count seat (dealOwners R.ledger.steps : Multiset ℕ) = 9 := by
    intro seat hseat
    rw [Multiset.coe_count]
    exact R.nine ⟨seat, Finset.mem_range.1 hseat⟩
  rw [Finset.sum_congr rfl hnine]
  rfl

theorem SaskuRound.length_deck : R.ledger.deck.length = 36 := by
  rw [R.ledger.deck_length, CardPointTable.size, ← List.length_map (f := Prod.fst), R.cards,
    List.length_map, length_SASKU_CARDS]

/-- Every position of the deck is dealt to a seat. -/
theorem SaskuRound.exists_owner {position : ℕ} (h : position < 36) :
    ∃ seat : SaskuSeat, R.ledger.owner position = some seat.val := by
  have hlt : position < (dealOwners R.ledger.steps).length := R.length_owners ▸ h
  exact ⟨⟨_, owner_mem_lt R (List.getElem_mem hlt)⟩, List.getElem?_eq_getElem hlt⟩

theorem SaskuRound.lt_of_owner {position seat : ℕ} (h : R.ledger.owner position = some seat) :
    position < 36 := R.length_deck ▸ lt_deck_of_owner h

theorem SaskuRound.ownerAt_eq {position : ℕ} (h : position < 36) :
    R.ledger.ownerAt position = .ok (R.ledger.owner position) := by
  rw [RoundReveal.ownerAt, throwIf_neg (by rw [R.length_deck]; omega)]
  rfl

/-- A card that was identified is one of the 36. -/
theorem SaskuRound.exists_card [DecidableEq G] {point : G} {text : String}
    (h : R.ledger.table.identify point = some text) : ∃ card : SaskuCardId, text = card.text := by
  have hmem : text ∈ R.ledger.table.cards.map Prod.fst :=
    List.mem_map.2 ⟨_, CardPointTable.identify_eq_some.1 h, rfl⟩
  rw [R.cards] at hmem
  obtain ⟨card, -, rfl⟩ := List.mem_map.1 hmem
  exact ⟨card, rfl⟩

/-! ## What is accepted -/

variable [DecidableEq G] {R} {c c' : RoundCore G} {e : SignedEnvelope}

/-- The checks on an AUDIT_DISCLOSE envelope. -/
structure AuditAccepted (R : SaskuRound P) (c : RoundCore G) (e : SignedEnvelope) (seat : ℕ)
    (audit : SaskuRoundAuditSnapshot) : Prop where
  type : e.type = .AUDIT_DISCLOSE
  game : e.game = R.ledger.gameId
  sender : R.ledger.roster.seatOf e.from_ = some seat
  round : e.round = R.ledger.round
  opened : c.audit = some audit
  phase : e.phase = audit.phase
  decoded : decodeAuditDiscloseBody P e.body = .ok ⟨[]⟩
  fresh : c.auditHashes seat = none

/-- The checks on an ACTION envelope: those of the ledger, and those of the hand. -/
structure PlayAccepted (R : SaskuRound P) (c : RoundCore G) (e : SignedEnvelope) (seat : ℕ)
    (body : ActionBody q G) (revealed : List (ℕ × String)) (cards : List (ℕ × SaskuCardId))
    (action : SaskuHandAction) (hand : HandState) : Prop where
  ledger : ActionAccepted R.ledger c.ledger e seat body revealed
  turn : c.expectedSeat = some seat
  parsed : SaskuRound.parseRevealed revealed = .ok cards
  decoded : decodeSaskuAction seat body.kind body.data body.reveal cards = .ok action
  next : nextAction c.hand action = .ok hand

open SaskuRound (RoundTransition) in
/-- What `#classify` accepts. -/
inductive Accepts (R : SaskuRound P) (c : RoundCore G) (e : SignedEnvelope) :
    RoundTransition → Prop
  | shares {seat : ℕ} {step : ScheduledDeal} {body : SharesBody q G}
      (accepted : SharesAccepted R.ledger c.ledger e seat step body) :
      Accepts R c e ⟨e, c.expectedSeat, .SHARES, seat, true, none⟩
  | action {seat : ℕ} {body : ActionBody q G} {revealed : List (ℕ × String)}
      {cards : List (ℕ × SaskuCardId)} {action : SaskuHandAction} {hand : HandState}
      (accepted : PlayAccepted R c e seat body revealed cards action hand) :
      Accepts R c e ⟨e, c.expectedSeat, .ACTION, seat, true, some action⟩
  | audit {seat : ℕ} {audit : SaskuRoundAuditSnapshot} (accepted : AuditAccepted R c e seat audit) :
      Accepts R c e ⟨e, c.expectedSeat, .AUDIT_DISCLOSE, seat, true, none⟩

theorem classifyAudit_accepts {t : SaskuRound.RoundTransition} (htype : e.type = .AUDIT_DISCLOSE)
    (h : R.classifyAudit c e = .ok t) (haccepted : t.accepted = true) : Accepts R c e t := by
  rw [SaskuRound.classifyAudit] at h
  obtain ⟨hgame, h⟩ := check_bind_eq_ok.1 h
  split at h
  · cases h
  rename_i seat hseat
  obtain ⟨hround, h⟩ := check_bind_eq_ok.1 h
  split at h
  · cases h
  rename_i audit haudit
  obtain ⟨hphase, h⟩ := check_bind_eq_ok.1 h
  split at h
  · cases h
  rename_i body hbody
  obtain ⟨hitems, h⟩ := check_bind_eq_ok.1 h
  obtain ⟨hprior, h⟩ := check_bind_eq_ok.1 h
  cases h
  simp only [throwIf_eq_ok, not_not, List.length_eq_zero_iff] at hgame hround hphase hitems
  obtain ⟨items⟩ := body
  cases hitems
  have hfresh : c.auditHashes seat = none := by simpa using haccepted
  rw [hfresh]
  exact .audit ⟨htype, hgame, hseat, hround, haudit, hphase, hbody, hfresh⟩

omit [DecidableEq G] in
theorem classifyAction_eq_ok {seat : ℕ} {revealed : List (ℕ × String)} {action : SaskuHandAction} :
    SaskuRound.classifyAction (P := P) c e seat revealed = .ok action ↔
      c.expectedSeat ≠ none ∧ ∃ cards, SaskuRound.parseRevealed revealed = .ok cards ∧
      ∃ body, decodeActionBody P e.body = .ok body ∧
        decodeSaskuAction seat body.kind body.data body.reveal cards = .ok action ∧
        ∃ hand, nextAction c.hand action = .ok hand := by
  rw [SaskuRound.classifyAction, check_bind_eq_ok, throwIf_eq_ok, bind_eq_ok]
  refine and_congr_right fun _ => exists_congr fun cards => and_congr_right fun _ => ?_
  rw [bind_eq_ok]
  refine exists_congr fun body => ?_
  rw [liftError_eq_ok]
  refine and_congr_right fun _ => ?_
  constructor
  · intro h
    obtain ⟨decoded, hdecoded, h⟩ := bind_eq_ok.1 h
    obtain ⟨hand, hnext, h⟩ := bind_eq_ok.1 h
    cases h
    exact ⟨liftError_eq_ok.1 hdecoded, hand, by simpa using hnext⟩
  · rintro ⟨hdecoded, hand, hnext⟩
    rw [liftError_eq_ok.2 hdecoded, ok_bind, nextState_candidate, liftError_eq_ok.2 hnext, ok_bind]
    rfl

theorem classifyReveal_accepts {t : SaskuRound.RoundTransition}
    (h : R.classifyReveal c e = .ok t) (haccepted : t.accepted = true) : Accepts R c e t := by
  rw [SaskuRound.classifyReveal] at h
  split at h
  · split at h
    · cases h
    · split at h
      · split at h <;> cases h
      · cases h
  rename_i transition hclassify
  split at h
  · cases h
  rename_i hmatches
  simp only [not_or, not_not] at hmatches
  obtain ⟨ledger', hprocess⟩ := classify_eq_ok.1 hclassify
  split at h
  · rename_i body hbody
    cases h
    obtain ⟨hstep, -⟩ := process_accepted hprocess haccepted
    cases hstep with
    | shares accepted => exact .shares accepted
    | action accepted => cases hbody
  · rename_i body revealed hbody
    split at h
    · rename_i hok
      obtain ⟨action, haction, h⟩ := bind_eq_ok.1 h
      cases h
      obtain ⟨hstep, hexpected⟩ := process_accepted hprocess hok
      cases hstep with
      | shares accepted => cases hbody
      | @action seat body' revealed' accepted =>
          cases hbody
          obtain ⟨-, cards, hparsed, body', hdecoded, haction, hand, hnext⟩ :=
            classifyAction_eq_ok.1 haction
          cases accepted.decoded.symm.trans hdecoded
          exact .action ⟨accepted, hexpected accepted.type, hparsed, haction, hnext⟩
    · cases h
      cases haccepted

theorem classify_accepts {t : SaskuRound.RoundTransition} (h : R.classify c e = .ok t)
    (haccepted : t.accepted = true) : Accepts R c e t := by
  rw [SaskuRound.classify] at h
  split at h
  · rename_i htype
    exact classifyAudit_accepts htype h haccepted
  · exact classifyReveal_accepts h haccepted

/-- What passes the checks is classified as accepted. -/
theorem classify_of_accepts {t : SaskuRound.RoundTransition} (h : Accepts R c e t) :
    R.classify c e = .ok t := by
  cases h with
  | @shares seat step body accepted =>
      have hprocess : R.ledger.process c.ledger e c.expectedSeat = .ok (⟨true, seat, .shares body⟩, _) :=
        process_of_step (.shares accepted) fun htype => by
          rw [accepted.type] at htype
          cases htype
      rw [SaskuRound.classify, accepted.type]
      simp only [SaskuRound.classifyReveal, classify_eq_ok.2 ⟨_, hprocess⟩]
      rw [if_neg (by simp [RevealBody.type, accepted.type, accepted.scope.seat])]
  | @action seat body revealed cards action hand accepted =>
      have hprocess : R.ledger.process c.ledger e c.expectedSeat
          = .ok (⟨true, seat, .action body revealed⟩, _) :=
        process_of_step (.action accepted.ledger) fun _ => accepted.turn
      have haction : SaskuRound.classifyAction (P := P) c e seat revealed = .ok action :=
        classifyAction_eq_ok.2 ⟨by simp [accepted.turn], cards, accepted.parsed, body,
          accepted.ledger.decoded, accepted.decoded, hand, accepted.next⟩
      rw [SaskuRound.classify, accepted.ledger.type]
      simp only [SaskuRound.classifyReveal, classify_eq_ok.2 ⟨_, hprocess⟩]
      rw [if_neg (by simp [RevealBody.type, accepted.ledger.type, accepted.ledger.scope.seat])]
      simp [haction]
  | @audit seat audit accepted =>
      rw [SaskuRound.classify, accepted.type]
      simp only [SaskuRound.classifyAudit]
      rw [throwIf_neg (not_not.2 accepted.game), ok_bind, accepted.sender]
      show throwIf _ _ >>= _ = _
      rw [throwIf_neg (not_not.2 accepted.round), ok_bind]
      simp only [accepted.opened]
      rw [throwIf_neg (not_not.2 accepted.phase), ok_bind]
      simp only [accepted.decoded]
      rw [throwIf_neg (by simp), ok_bind]
      simp [accepted.fresh, throwIf_neg]

end

end Tablefolk
