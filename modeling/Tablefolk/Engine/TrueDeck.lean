import Tablefolk.Engine.Authoring

/-!
# The deck behind the masks

Every seat has one secret, and with all of them each card of the deck can be unmasked.

* `trueCard`: the card at a position once every seat's true share is removed.
* `Truthful`: every share the ledger has recorded is the true share of its donor, and
  every public card is the true card.  Contributions and actions with true shares keep it.
* `openCard_eq_trueCard`: then whoever opens a card with its own true share sees the
  true card.
-/

namespace Tablefolk

section

variable {q : ℕ} {G : Type} [AddCommGroup G] [Module (ZMod q) G] [DecidableEq G]
  {P : Primitives q G} {L : RoundReveal P} {secrets : ℕ → ZMod q} {s : LedgerState G}
  {e : SignedEnvelope}

/-- The card at a position, with the true share of every seat removed. -/
def RoundReveal.trueCard (L : RoundReveal P) (secrets : ℕ → ZMod q) (position : ℕ) :
    Option String :=
  L.deck[position]?.bind fun masked => L.table.identify
    (masked.B - ((List.range L.roster.size).map fun seat => secrets seat • masked.A).sum)

/-- The ledger holds true shares and shows true cards. -/
structure Truthful (L : RoundReveal P) (secrets : ℕ → ZMod q) (s : LedgerState G) : Prop where
  shares : ∀ position donor S, s.shares position donor = some S →
    ∃ masked : MaskedCard G, L.deck[position]? = some masked ∧ S = secrets donor • masked.A
  revealed : ∀ position card, s.revealed position = some card →
    L.trueCard secrets position = some card

/-! ## Opening cards -/

omit [DecidableEq G] in
theorem sharesAt_eq_map {position seat donor count : ℕ} {masked : MaskedCard G} {shares : List G}
    (htrue : ∀ other S, s.shares position other = some S → S = secrets other • masked.A)
    (h : sharesAt s position seat (secrets seat • masked.A) donor count = .ok shares) :
    shares = (List.range' donor count).map fun other => secrets other • masked.A := by
  induction count generalizing donor shares with
  | zero =>
      cases h
      rfl
  | succ count ih =>
      rw [sharesAt] at h
      split at h
      · rename_i share hshare
        obtain ⟨rest, hrest, h⟩ := bind_eq_ok.1 h
        cases h
        rw [List.range'_succ, List.map_cons, ih hrest]
        congr 1
        split at hshare
        · rename_i heq
          cases hshare
          rw [heq]
        · exact htrue donor share hshare
      · cases h

/-- A true share opens the true card. -/
theorem openCard_eq_trueCard (h : Truthful L secrets s) {position seat : ℕ}
    {masked : MaskedCard G} {opened : Option String} (hmasked : L.deck[position]? = some masked)
    (hopen : L.openCard s position seat (secrets seat • masked.A) = .ok opened) :
    opened = L.trueCard secrets position := by
  rw [RoundReveal.openCard, RoundReveal.cardAt, hmasked, ok_bind, bind_eq_ok] at hopen
  obtain ⟨shares, hshares, hopen⟩ := hopen
  cases hopen
  have htrue : ∀ other S, s.shares position other = some S → S = secrets other • masked.A := by
    intro other S hS
    obtain ⟨masked', hmasked', rfl⟩ := h.shares position other S hS
    rw [Option.some.inj (hmasked.symm.trans hmasked')]
  rw [RoundReveal.trueCard, hmasked, Option.bind_some, removeDecryptionShares_eq,
    sharesAt_eq_map htrue hshares, List.range_eq_range']

omit [Module (ZMod q) G] [DecidableEq G] [AddCommGroup G] in
theorem sharesAt_ok {position seat donor count : ℕ} {own : G}
    (h : ∀ other < donor + count, other ≠ seat → (s.shares position other).isSome) :
    ∃ shares, sharesAt s position seat own donor count = .ok shares := by
  induction count generalizing donor with
  | zero => exact ⟨_, rfl⟩
  | succ count ih =>
      have htail : ∀ other < donor + 1 + count, other ≠ seat →
          (s.shares position other).isSome := fun other hlt => h other (by omega)
      obtain ⟨rest, hrest⟩ := ih htail
      by_cases hseat : donor = seat
      · exact ⟨own :: rest, by rw [sharesAt, if_pos hseat]; simp [hrest]⟩
      · obtain ⟨share, hshare⟩ := Option.isSome_iff_exists.1 (h donor (by omega) hseat)
        exact ⟨share :: rest, by rw [sharesAt, if_neg hseat, hshare]; simp [hrest]⟩

/-- Once the deal is over the owner of a position can open it. -/
theorem LedgerInv.openCard_ok (h : LedgerInv L s) (hdealt : L.currentDeal s = none)
    {position seat : ℕ} (howner : L.owner position = some seat) (own : G) :
    ∃ opened, L.openCard s position seat own = .ok opened := by
  obtain ⟨step, hstep, rfl, hposition⟩ := exists_step_of_owner howner
  obtain ⟨i, hi, hget⟩ := List.getElem_of_mem hstep
  have hgave : i < s.dealIndex := by
    have := List.getElem?_eq_none_iff.1 hdealt
    omega
  obtain ⟨masked, -, hmasked⟩ := cardAt_of_lt (lt_deck_of_owner howner)
  have hheld : ∀ other < 0 + L.roster.size, other ≠ step.to_ →
      (s.shares position other).isSome := by
    intro other hlt hne
    refine h.held i step other (by rw [List.getElem?_eq_getElem hi, hget])
      ⟨by omega, .inr hne⟩ (.inl hgave) position ?_
    rw [RoundReveal.sharePositions]
    split
    · rw [List.mem_filter, List.mem_range, decide_eq_true_iff, howner]
      exact ⟨lt_deck_of_owner howner, fun heq => hne (Option.some.inj heq).symm⟩
    · exact hposition
  obtain ⟨shares, hshares⟩ : ∃ shares,
      sharesAt s position step.to_ own 0 L.roster.size = .ok shares := sharesAt_ok hheld
  exact ⟨_, by rw [RoundReveal.openCard, hmasked, ok_bind, hshares]; rfl⟩

/-! ## Steps with true shares -/

theorem Truthful.start : Truthful L secrets (LedgerState.start : LedgerState G) :=
  ⟨by simp [LedgerState.start], by simp [LedgerState.start]⟩

/-- Recording true shares. -/
theorem Truthful.contribute (h : Truthful L secrets s) (hash : Hash256) {seat : ℕ}
    {items : List (PositionShare q G)} (hown : ∀ item ∈ items, L.Own (secrets seat) item) :
    Truthful L secrets (L.contribute s hash seat items) where
  shares := by
    intro position donor S hS
    rcases contribute_shares L s hash seat items position donor with
      ⟨item, hitem, hpos, heq⟩ | ⟨-, heq⟩
    · rw [heq] at hS
      split at hS
      · rename_i hdonor
        cases hS
        subst hpos hdonor
        exact hown item hitem
      · exact h.shares position donor S hS
    · exact h.shares position donor S (heq ▸ hS)
  revealed := h.revealed

/-- Revealing cards with true shares. -/
theorem Truthful.reveal (h : Truthful L secrets s) {seat : ℕ} {body : ActionBody q G}
    {revealed : List (ℕ × String)} (haccepted : ActionAccepted L s e seat body revealed)
    (hown : ∀ item ∈ body.shares, L.Own (secrets seat) item) :
    Truthful L secrets (s.reveal (P.hashEnvelope e) revealed) where
  shares := h.shares
  revealed := by
    intro position card hcard
    have hreveals := haccepted.reveals
    rcases (reveal_revealed hreveals.distinct fun entry hentry =>
      (hreveals.entries entry hentry).2.1).1 hcard with hmem | hold
    · obtain ⟨-, -, -, item, hitem, hpos, -, hopen⟩ := hreveals.entries _ hmem
      obtain ⟨masked, hmasked, hS⟩ := hown item hitem
      rw [hS] at hopen
      have htrue := openCard_eq_trueCard h hmasked hopen
      rw [show position = item.pos from hpos, ← htrue]
    · exact h.revealed position card hold

end

end Tablefolk
