import Tablefolk.Engine.Authoring
import Tablefolk.Sasku.Authoring

/-!
# What is authored is admitted

Authoring and admission are two code paths.  Here the first is shown to meet every check
of the second, in every state with the invariant.

* `Created` is what `#authorActionOne` has checked when it hands out a body.
* `Authors` says that an envelope carries what a seat authors in a state.
* `authored_accepts`: such an envelope is accepted, with the action that was intended.
-/

namespace Tablefolk

section

variable {q : ℕ} {G : Type} [AddCommGroup G] [Module (ZMod q) G] [DecidableEq G]
  {P : Primitives q G} {R : SaskuRound P} {c : RoundCore G} {e : SignedEnvelope}
  {seat : SaskuSeat} {secretKey : ZMod q}

/-! ## The size of an envelope -/

omit [DecidableEq G] in
/-- An envelope with a phase of the ledger and a body of its encoders is small enough. -/
theorem byteLength_le_of_phase {L : RoundReveal P} {s : LedgerState G}
    (hindex : L.currentDeal s = none → s.actionIndex < 10 ^ 16) (hphase : e.phase = L.phase s)
    (hbody : e.body.encodedLength ≤ 60000) : e.byteLength ≤ MAX_ROUND_REVEAL_ENVELOPE_BYTES :=
  SignedEnvelope.byteLength_le (hphase ▸ utf8ByteSize_phase hindex) hbody

omit [DecidableEq G] in
theorem encodedLength_of_encodeSharesBody {body : SharesBody q G} {value : CborValue}
    (h : encodeSharesBody P body = .ok value) : value.encodedLength ≤ 60000 := by
  have hok := itemsOk_of_decodeSharesBody P (decodeSharesBody_encode P h)
  have hto : body.to_ ≤ 7 := by
    simp only [encodeSharesBody, check_bind_eq_ok, throwIf_eq_ok, not_lt] at h
    exact h.1
  rw [encodeSharesBody_ok P hto hok] at h
  cases h
  exact (encodedLength_sharesBody P hok).trans (by omega)

omit [DecidableEq G] in
theorem encodedLength_of_encodeActionBody {body : ActionBody q G} {value : CborValue}
    (h : encodeActionBody P body = .ok value) : value.encodedLength ≤ 60000 := by
  have hok := actionOk_of_decodeActionBody P (decodeActionBody_encode P h)
  rw [encodeActionBody_ok P hok] at h
  cases h
  exact (encodedLength_actionBody P hok).trans (by omega)

/-! ## SHARES -/

/-- What `createDealShares` has checked. -/
theorem createDealShares_eq_ok {L : RoundReveal P} {s : LedgerState G} {donor : ℕ}
    {draws : List ℕ} {body : SharesBody q G}
    (h : L.createDealShares s donor secretKey draws = .ok (some body)) :
    LocalKey L donor secretKey ∧ ∃ step, L.currentDeal s = some step ∧
      (L.batchDeal = true ∨ donor ≠ step.to_) ∧ donor ∉ s.contributors ∧
      body.to_ = L.recipient step ∧
      body.items.map PositionShare.pos = L.sharePositions step donor ∧
      ∀ item ∈ body.items, L.Verified ⟨L.gameId, L.round, L.phase s⟩ donor item ∧
        L.Own secretKey item := by
  rw [RoundReveal.createDealShares, check_bind_eq_ok] at h
  obtain ⟨hkey, h⟩ := h
  have hkey := requireLocalKey_eq_ok.1 hkey
  split at h
  · cases h
  rename_i step hdeal
  obtain ⟨hdonor, h⟩ := check_bind_eq_ok.1 h
  obtain ⟨hpending, h⟩ := check_bind_eq_ok.1 h
  obtain ⟨items, hitems, h⟩ := bind_eq_ok.1 h
  rw [throwIf_eq_ok] at hdonor hpending
  cases items with
  | none => cases h
  | some items =>
      cases h
      obtain ⟨hpositions, hall⟩ := createShares_eq_ok hkey hitems
      refine ⟨hkey, step, hdeal, ?_, hpending, rfl, hpositions, hall⟩
      by_cases hbatch : L.batchDeal = true
      · exact .inl hbatch
      · exact .inr fun hto => hdonor ⟨by simpa using hbatch, hto⟩

omit [DecidableEq G] in
/-- Shares that name the positions in order match them. -/
theorem positionsMatch_of_map {L : RoundReveal P} {items : List (PositionShare q G)}
    {positions : List ℕ} (h : items.map PositionShare.pos = positions) :
    L.positionsMatch items positions := by
  refine ⟨by rw [← h, List.length_map], ?_⟩
  split
  · exact h
  · exact fun item hitem => h ▸ List.mem_map_of_mem hitem

/-- **Authored shares are accepted.** -/
theorem authoredShares_accepted {content : EnvelopeContent} {draws : List ℕ}
    (h : R.authoredShares c seat secretKey draws = .ok (some content))
    (hcarries : R.Carries e seat content)
    (hfresh : c.ledger.accepted (P.hashEnvelope e) = none) :
    ∃ step body, R.ledger.createDealShares c.ledger seat.val secretKey draws = .ok (some body) ∧
      SharesAccepted R.ledger c.ledger e seat.val step body ∧
      ∀ item ∈ body.items, R.ledger.Own secretKey item := by
  rw [SaskuRound.authoredShares, bind_eq_ok] at h
  obtain ⟨created, hcreated, h⟩ := h
  rw [liftError_eq_ok] at hcreated
  cases created with
  | none => cases h
  | some body =>
      obtain ⟨value, hvalue, h⟩ := bind_eq_ok.1 h
      rw [liftError_eq_ok] at hvalue
      cases h
      obtain ⟨-, step, hdeal, hdonor, hpending, hto, hpositions, hall⟩ :=
        createDealShares_eq_ok hcreated
      have hphase : e.phase = R.ledger.phase c.ledger := hcarries.phase
      have hbody : e.body = value := hcarries.body
      refine ⟨step, body, hcreated, ⟨⟨?_, hcarries.game, hcarries.sender, hcarries.round⟩,
        hcarries.type, hbody ▸ decodeSharesBody_encode P hvalue, hfresh, hdeal, hphase, hdonor,
        hpending, hto, positionsMatch_of_map hpositions, ?_⟩, fun item hitem => (hall item hitem).2⟩
      · exact byteLength_le_of_phase (fun hnone => by cases hdeal.symm.trans hnone) hphase
          (hbody ▸ encodedLength_of_encodeSharesBody hvalue)
      · rw [hphase]
        exact checkShares_eq_ok.2 fun item hitem => (hall item hitem).1

/-! ## ACTION -/

/-- The private hand of a seat, with its cards parsed. -/
structure SeatHand (R : SaskuRound P) (c : RoundCore G) (seat : SaskuSeat) (secretKey : ZMod q)
    (hand : SaskuPrivateHand) : Prop where
  key : LocalKey R.ledger seat.val secretKey
  dealt : R.ledger.currentDeal c.ledger = none
  positions : hand.dealt.map Prod.fst = R.ledger.ownedPositions seat.val
  distinct : (hand.dealt.map Prod.snd).Nodup
  remaining : hand.remaining = hand.dealt.filter fun entry => c.ledger.revealed entry.1 = none
  reads : ∀ entry ∈ hand.dealt,
    Reads R.ledger c.ledger seat.val secretKey (entry.1, entry.2.text)
  unique : ∀ entry ∈ hand.dealt, ∀ position,
    c.ledger.revealed position = some entry.2.text → position = entry.1

theorem readPrivateHand_seatHand (hinv : RoundInv R c) {hand : SaskuPrivateHand}
    (h : R.readPrivateHand c seat secretKey = .ok (some hand)) :
    SeatHand R c seat secretKey hand := by
  rw [SaskuRound.readPrivateHand] at h
  split at h
  · split at h <;> cases h
  · cases h
  rename_i raw hraw
  obtain ⟨dealt, hdealt, h⟩ := bind_eq_ok.1 h
  obtain ⟨remaining, hremaining, h⟩ := bind_eq_ok.1 h
  cases h
  have hread := readPrivateHand_eq_ok hinv.ledger hraw
  have hdealt := parseRevealed_eq_ok hdealt
  have hremaining := parseRevealed_eq_ok hremaining
  have htext : Function.Injective fun entry : ℕ × SaskuCardId => (entry.1, entry.2.text) := by
    intro a b hsame
    obtain ⟨hposition, htext⟩ := Prod.mk.inj hsame
    exact Prod.ext hposition (card_text_injective htext)
  have hmem : ∀ {entry : ℕ × SaskuCardId}, entry ∈ dealt → (entry.1, entry.2.text) ∈ raw.dealt :=
    fun hentry => hdealt ▸ List.mem_map_of_mem hentry
  have hpositions := hread.positions
  have hdistinct := hread.distinct
  have hfilter := hread.remaining
  rw [hdealt, List.map_map] at hpositions hdistinct
  rw [hdealt, hremaining, List.filter_map] at hfilter
  refine ⟨hread.key, hread.dealt, hpositions, ?_, htext.list_map hfilter, fun entry hentry =>
    hread.reads _ (hmem hentry), fun entry hentry => hread.unique _ (hmem hentry)⟩
  rw [show Prod.snd ∘ (fun entry : ℕ × SaskuCardId => (entry.1, entry.2.text))
    = SaskuCardId.text ∘ Prod.snd from rfl, ← List.map_map] at hdistinct
  exact hdistinct.of_map _

/-- What `#authorActionOne` has checked when it hands out a body. -/
structure Created (R : SaskuRound P) (c : RoundCore G) (seat : SaskuSeat) (secretKey : ZMod q)
    (intent : SaskuActionIntent) (draws : List ℕ) (hand : SaskuPrivateHand)
    (action : SaskuHandAction) (reveal : List ℕ) (shares : List (PositionShare q G)) : Prop where
  held : SeatHand R c seat secretKey hand
  incomplete : c.hand.phase ≠ .complete
  intended : R.intendedAction hand seat intent = .ok action
  next : ∃ next, nextAction c.hand action = .ok next
  checked : SaskuRound.checkPrivate c hand action = .ok ()
  shares : R.actionShares c seat secretKey draws intent = .ok (some (reveal, shares))

theorem createAction_eq_ok (hinv : RoundInv R c) {intent : SaskuActionIntent} {draws : List ℕ}
    {action : SaskuHandAction} {body : ActionBody q G}
    (h : R.createAction c seat secretKey intent draws = .ok (some (action, body))) :
    ∃ hand reveal shares, Created R c seat secretKey intent draws hand action reveal shares ∧
      body = ⟨action.kind, cborMap action.data, reveal, shares⟩ := by
  rw [SaskuRound.createAction, bind_eq_ok] at h
  obtain ⟨read, hread, h⟩ := h
  cases read with
  | none => cases h
  | some hand =>
      obtain ⟨hincomplete, h⟩ := check_bind_eq_ok.1 h
      obtain ⟨intended, hintended, h⟩ := bind_eq_ok.1 h
      obtain ⟨next, hnext, h⟩ := bind_eq_ok.1 h
      obtain ⟨hchecked, h⟩ := check_bind_eq_ok.1 h
      obtain ⟨created, hcreated, h⟩ := bind_eq_ok.1 h
      rw [throwIf_eq_ok] at hincomplete
      rw [liftError_eq_ok, nextState_candidate] at hnext
      cases created with
      | none => cases h
      | some created =>
          cases h
          exact ⟨hand, created.1, created.2, ⟨readPrivateHand_seatHand hinv hread, hincomplete,
            hintended, ⟨next, hnext⟩, hchecked, hcreated⟩, rfl⟩

omit [DecidableEq G] in
/-- An authored action: its seat, and the position it opens if it is a play. -/
theorem intendedAction_cases {hand : SaskuPrivateHand} {intent : SaskuActionIntent}
    {action : SaskuHandAction} (h : R.intendedAction hand seat intent = .ok action) :
    action.seat = seat ∧
    ((∃ (position : Fin 36) (card : SaskuCardId), intent = .play position ∧
        action = .play seat card ∧ (position.val, card) ∈ hand.remaining ∧
        R.ledger.owner position.val = some seat.val) ∨
      action.toPlay = none ∧ ∀ position, intent ≠ .play position) := by
  cases intent with
  | pass | diamonds | bid value | choose_trump suit =>
      cases h
      exact ⟨rfl, .inr ⟨rfl, by simp⟩⟩
  | play position =>
      rw [SaskuRound.intendedAction, bind_eq_ok] at h
      obtain ⟨owner, howner, h⟩ := h
      rw [liftError_eq_ok, R.ownerAt_eq position.isLt] at howner
      cases howner
      rw [check_bind_eq_ok, throwIf_eq_ok, not_not] at h
      obtain ⟨hseat, h⟩ := h
      cases hlookup : hand.remaining.lookup position.val with
      | none =>
          rw [hlookup] at h
          cases h
      | some card =>
          rw [hlookup] at h
          cases h
          obtain ⟨before, after, heq, -⟩ := List.lookup_eq_some_iff.1 hlookup
          exact ⟨rfl, .inl ⟨position, card, rfl, rfl, heq ▸ by simp, hseat⟩⟩

theorem createActionShare_eq_ok {L : RoundReveal P} {s : LedgerState G} {actor position : ℕ}
    {draws : List ℕ} {share : PositionShare q G}
    (h : L.createActionShare s actor secretKey position draws = .ok (some share)) :
    share.pos = position ∧ L.Verified ⟨L.gameId, L.round, L.phase s⟩ actor share ∧
      L.Own secretKey share := by
  rw [RoundReveal.createActionShare, bind_eq_ok] at h
  obtain ⟨read, hread, h⟩ := h
  cases read with
  | none => cases h
  | some hand =>
      obtain ⟨owner, howner, h⟩ := bind_eq_ok.1 h
      obtain ⟨-, h⟩ := check_bind_eq_ok.1 h
      obtain ⟨-, h⟩ := check_bind_eq_ok.1 h
      obtain ⟨-, h⟩ := check_bind_eq_ok.1 h
      obtain ⟨-, h⟩ := check_bind_eq_ok.1 h
      obtain ⟨items, hitems, h⟩ := bind_eq_ok.1 h
      rw [RoundReveal.readPrivateHand, check_bind_eq_ok] at hread
      have hkey := requireLocalKey_eq_ok.1 hread.1
      cases items with
      | none => cases h
      | some items =>
          obtain ⟨hpositions, hall⟩ := createShares_eq_ok hkey hitems
          cases items with
          | nil => cases h
          | cons item rest =>
              cases h
              exact ⟨(List.cons.inj hpositions).1, hall share List.mem_cons_self⟩

/-- The reveals of an authored action, as the ledger opens them. -/
theorem Created.opened {intent : SaskuActionIntent} {draws : List ℕ} {hand : SaskuPrivateHand}
    {action : SaskuHandAction} {reveal : List ℕ} {shares : List (PositionShare q G)}
    (h : Created R c seat secretKey intent draws hand action reveal shares) : ∃ position ≤ 35,
      reveal = action.toPlay.toList.map (fun _ => position) ∧
      R.ledger.checkReveal c.ledger seat.val reveal = .ok () ∧
      R.ledger.openShares c.ledger
          ⟨R.ledger.gameId, R.ledger.round, R.ledger.phase c.ledger⟩ seat.val [] shares
        = .ok (action.toPlay.toList.map fun play => (position, play.card.text)) ∧
      ∀ share ∈ shares, R.ledger.Own secretKey share := by
  obtain ⟨-, hcases⟩ := intendedAction_cases h.intended
  have hshares := h.shares
  rcases hcases with ⟨position, card, rfl, rfl, hmem, howner⟩ | ⟨hplay, hintent⟩
  · rw [SaskuRound.actionShares, bind_eq_ok] at hshares
    obtain ⟨share, hshare, hshares⟩ := hshares
    rw [liftError_eq_ok] at hshare
    cases share with
    | none => cases hshares
    | some share =>
        cases hshares
        obtain ⟨hpos, ⟨masked, hmasked, hverified⟩, hown⟩ := createActionShare_eq_ok hshare
        rw [h.held.remaining, List.mem_filter, decide_eq_true_iff] at hmem
        obtain ⟨hdealt, hhidden⟩ := hmem
        have hfresh : card.text ∉ R.ledger.revealedCards c.ledger := fun hmem => by
          obtain ⟨other, -, hshown⟩ := mem_revealedCards.1 hmem
          rw [h.held.unique _ hdealt other hshown, hhidden] at hshown
          cases hshown
        obtain ⟨masked', hmasked', hopens⟩ := (h.held.reads _ hdealt).opens
        obtain ⟨masked'', hmasked'', hS⟩ := hown
        rw [hpos] at hmasked hmasked'' hverified
        obtain rfl := Option.some.inj (hmasked.symm.trans hmasked')
        obtain rfl := Option.some.inj (hmasked.symm.trans hmasked'')
        refine ⟨position.val, by omega, rfl, checkReveal_eq_ok.2 (by simp [howner, hhidden]), ?_, ?_⟩
        · rw [RoundReveal.openShares, RoundReveal.cardAt, hpos, hmasked, ok_bind,
            throwIf_neg (by simp [hverified]), ok_bind, hS, hopens]
          show throwIf _ _ >>= _ = _
          rw [throwIf_neg (by simpa using hfresh), ok_bind]
          rfl
        · intro other hother
          cases List.mem_singleton.1 hother
          exact ⟨masked, hpos ▸ hmasked, hS⟩
  · have hnone : reveal = [] ∧ shares = [] := by
      cases intent with
      | play position => exact absurd rfl (hintent position)
      | pass | diamonds | bid value | choose_trump suit =>
          cases hshares
          exact ⟨rfl, rfl⟩
    obtain ⟨rfl, rfl⟩ := hnone
    refine ⟨0, by omega, by simp [hplay], rfl, by simp [hplay, RoundReveal.openShares], by simp⟩

/-- What authoring an action leaves to the receivers. -/
theorem authoredAction_eq_ok (hinv : RoundInv R c) {intent : SaskuActionIntent} {draws : List ℕ}
    {action : SaskuHandAction} {content : EnvelopeContent}
    (h : R.authoredAction c seat secretKey intent draws = .ok (some (action, content))) :
    ∃ hand reveal shares value,
      Created R c seat secretKey intent draws hand action reveal shares ∧
      encodeActionBody P ⟨action.kind, cborMap action.data, reveal, shares⟩ = .ok value ∧
      content = ⟨R.ledger.round, R.ledger.phase c.ledger, .ACTION, value⟩ := by
  rw [SaskuRound.authoredAction, bind_eq_ok] at h
  obtain ⟨created, hcreated, h⟩ := h
  cases created with
  | none => cases h
  | some created =>
      obtain ⟨action', body⟩ := created
      obtain ⟨value, hvalue, h⟩ := bind_eq_ok.1 h
      rw [liftError_eq_ok] at hvalue
      cases h
      obtain ⟨hand, reveal, shares, hchecked, rfl⟩ := createAction_eq_ok hinv hcreated
      exact ⟨hand, reveal, shares, value, hchecked, hvalue, rfl⟩

/-- The seat to move is the one the receivers expect. -/
theorem Created.turn {intent : SaskuActionIntent} {draws : List ℕ} {hand : SaskuPrivateHand}
    {action : SaskuHandAction} {reveal : List ℕ} {shares : List (PositionShare q G)}
    (h : Created R c seat secretKey intent draws hand action reveal shares) :
    c.expectedSeat = some seat.val := by
  obtain ⟨next, hnext⟩ := h.next
  have hturn := (nextAction_ok_iff.1 hnext).1.turn
  rw [(intendedAction_cases h.intended).1] at hturn
  simp [RoundCore.expectedSeat, hturn]

omit [DecidableEq G] in
/-- A hand never uses up the budget of the ledger. -/
theorem RoundInv.budget [DecidableEq G] (h : RoundInv R c) :
    c.ledger.actionIndex < R.ledger.maxActions := by
  rw [h.actions, R.budget]
  exact history_in_budget h.reached.inv.table h.reached.auction

/-- **Authored actions are accepted**, and decode to the action that was intended. -/
theorem authoredAction_accepted (hinv : RoundInv R c) {intent : SaskuActionIntent}
    {draws : List ℕ} {action : SaskuHandAction} {content : EnvelopeContent}
    (h : R.authoredAction c seat secretKey intent draws = .ok (some (action, content)))
    (hcarries : R.Carries e seat content)
    (hfresh : c.ledger.accepted (P.hashEnvelope e) = none) :
    ∃ body revealed cards hand, PlayAccepted R c e seat.val body revealed cards action hand ∧
      ∀ share ∈ body.shares, R.ledger.Own secretKey share := by
  obtain ⟨held, reveal, shares, value, hcreated, hvalue, rfl⟩ := authoredAction_eq_ok hinv h
  obtain ⟨position, hposition, hreveal, howned, hopened, hown⟩ := hcreated.opened
  obtain ⟨next, hnext⟩ := hcreated.next
  have hphase : e.phase = R.ledger.phase c.ledger := hcarries.phase
  have hbody : e.body = value := hcarries.body
  have hseat := (intendedAction_cases hcreated.intended).1
  have hsize : e.byteLength ≤ MAX_ROUND_REVEAL_ENVELOPE_BYTES :=
    byteLength_le_of_phase (fun _ => by
      have := hinv.budget
      rw [R.budget, MAX_SASKU_HAND_ACTIONS] at this
      omega) hphase (hbody ▸ encodedLength_of_encodeActionBody hvalue)
  have hparsed : SaskuRound.parseRevealed
      (action.toPlay.toList.map fun play => (position, play.card.text))
        = .ok (action.toPlay.toList.map fun play => (position, play.card)) := by
    cases action.toPlay with
    | none => rfl
    | some play =>
        simp only [Option.toList_some, List.map_cons, List.map_nil, SaskuRound.parseRevealed,
          liftError_eq_ok.2 (parseSaskuCard_text play.card), ok_bind]
        rfl
  refine ⟨⟨action.kind, cborMap action.data, reveal, shares⟩, _, _, next,
    ⟨⟨⟨hsize, hcarries.game, hcarries.sender, hcarries.round⟩, hcarries.type,
      hbody ▸ decodeActionBody_encode P hvalue, hfresh, hcreated.held.dealt, hinv.budget, hphase,
      howned, by rw [hphase]; exact hopened⟩, hcreated.turn, hparsed, ?_, hnext⟩, hown⟩
  rw [← hseat, hreveal]
  exact decodeSaskuAction_kind_data action position hposition

/-! ## AUDIT_DISCLOSE -/

/-- **Authored disclosures are accepted.** -/
theorem authoredAudit_accepted (hinv : RoundInv R c) {content : EnvelopeContent}
    (h : R.authoredAudit c seat = .ok content) (hcarries : R.Carries e seat content) :
    ∃ audit, AuditAccepted R c e seat.val audit := by
  rw [SaskuRound.authoredAudit] at h
  split at h
  · cases h
  rename_i audit haudit
  split at h
  · rename_i hpending
    obtain ⟨value, hvalue, h⟩ := bind_eq_ok.1 h
    cases h
    obtain ⟨hencode, hdecode⟩ := encodeAuditDiscloseBody_nil P
    rw [liftError_eq_ok, hencode] at hvalue
    cases hvalue
    have hcomplete : c.hand.phase = .complete := by
      by_contra hne
      cases (hinv.unaudited hne).1.symm.trans haudit
    obtain ⟨audit', haudit', -, hsenders, -⟩ := hinv.audited hcomplete
    obtain rfl := Option.some.inj (haudit.symm.trans haudit')
    have hfresh : c.auditHashes seat.val = none := by
      rw [hsenders, List.mem_filter] at hpending
      simpa using hpending.2
    refine ⟨audit, hcarries.type, hcarries.game, hcarries.sender, hcarries.round, haudit,
      hcarries.phase, ?_, hfresh⟩
    rw [show e.body = _ from hcarries.body]
    exact hdecode
  · cases h

/-! ## All three -/

/-- `e` carries what `seat` authors in `c`; `intended` is the action it stands for. -/
inductive Authors (R : SaskuRound P) (c : RoundCore G) (seat : SaskuSeat) (secretKey : ZMod q)
    (e : SignedEnvelope) : Option SaskuHandAction → Prop
  | shares {draws : List ℕ} {content : EnvelopeContent}
      (authored : R.authoredShares c seat secretKey draws = .ok (some content))
      (carries : R.Carries e seat content) : Authors R c seat secretKey e none
  | action {intent : SaskuActionIntent} {draws : List ℕ} {action : SaskuHandAction}
      {content : EnvelopeContent}
      (authored : R.authoredAction c seat secretKey intent draws = .ok (some (action, content)))
      (carries : R.Carries e seat content) : Authors R c seat secretKey e (some action)
  | audit {content : EnvelopeContent} (authored : R.authoredAudit c seat = .ok content)
      (carries : R.Carries e seat content) : Authors R c seat secretKey e none

/-- **What is authored is admitted**: it is accepted, from the seat that authored it and
with the action that was intended. -/
theorem authored_accepts (hinv : RoundInv R c) {intended : Option SaskuHandAction}
    (h : Authors R c seat secretKey e intended)
    (hfresh : c.ledger.accepted (P.hashEnvelope e) = none) :
    ∃ t, Accepts R c e t ∧ t.accepted = true ∧ t.seat = seat.val ∧ t.action = intended := by
  cases h with
  | shares authored carries =>
      obtain ⟨step, body, -, accepted, -⟩ := authoredShares_accepted authored carries hfresh
      exact ⟨_, .shares accepted, rfl, rfl, rfl⟩
  | action authored carries =>
      obtain ⟨_, _, _, _, accepted, -⟩ := authoredAction_accepted hinv authored carries hfresh
      exact ⟨_, .action accepted, rfl, rfl, rfl⟩
  | audit authored carries =>
      obtain ⟨audit, accepted⟩ := authoredAudit_accepted hinv authored carries
      exact ⟨_, .audit accepted, rfl, rfl, rfl⟩

end

end Tablefolk
