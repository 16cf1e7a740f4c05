import Tablefolk.Deck.Proofs

/-!
# Rosters

Setup, the session registry, the reveal ledger and the action decoder all require
the same of a roster: three to eight seats, valid identity keys, none twice.  A
`Roster` is a list that has passed those checks, so that code handed one by other
code cannot fail them again.
-/

namespace Tablefolk

section

variable {q : ℕ} {G : Type} [AddCommGroup G] [Module (ZMod q) G]

/-- Three to eight different identities with valid keys, in seat order. -/
structure Roster (P : Primitives q G) where
  seats : List IdentityPublicKey
  three_le : 3 ≤ seats.length
  le_eight : seats.length ≤ 8
  distinct : seats.Nodup
  valid : ∀ identity ∈ seats, P.importEd25519PublicKey identity = true

instance {P : Primitives q G} : DecidableEq (Roster P) := fun a b =>
  decidable_of_iff (a.seats = b.seats) ⟨fun h => by
    cases a
    cases b
    cases h
    rfl, fun h => h ▸ rfl⟩

/-- Where a roster fails its checks. -/
inductive RosterError where
  | length (count : ℕ)
  | identity (seat : ℕ)
  | duplicate (seat : ℕ)
  deriving DecidableEq, Repr

/-- The loop over the seats: every key is valid and none was seen before. -/
def checkSeats (P : Primitives q G) (seen : List IdentityPublicKey) :
    List IdentityPublicKey → Except RosterError Unit
  | [] => .ok ()
  | identity :: rest => do
      throwIf (P.importEd25519PublicKey identity = false) (RosterError.identity seen.length)
      throwIf (identity ∈ seen) (RosterError.duplicate seen.length)
      checkSeats P (seen ++ [identity]) rest

variable {P : Primitives q G}

theorem checkSeats_ok {seats seen : List IdentityPublicKey} (h : checkSeats P seen seats = .ok ())
    (hseen : seen.Nodup) : (seen ++ seats).Nodup ∧
      ∀ identity ∈ seats, P.importEd25519PublicKey identity = true := by
  induction seats generalizing seen with
  | nil => simpa using hseen
  | cons identity rest ih =>
      simp only [checkSeats, check_bind_eq_ok, throwIf_eq_ok, Bool.not_eq_false] at h
      obtain ⟨hvalid, hfresh, hrest⟩ := h
      have hsnoc : (seen ++ [identity]).Nodup := List.nodup_append.2
        ⟨hseen, List.nodup_singleton _, fun x hx y hy => by
          rintro rfl
          exact hfresh (List.mem_singleton.1 hy ▸ hx)⟩
      obtain ⟨hnodup, hall⟩ := ih hrest hsnoc
      refine ⟨by simpa [List.append_assoc] using hnodup, fun other hother => ?_⟩
      rcases List.mem_cons.1 hother with rfl | hother
      · exact hvalid
      · exact hall other hother

/-- The checks on a roster. -/
def Roster.parse (P : Primitives q G) (seats : List IdentityPublicKey) :
    Except RosterError (Roster P) :=
  if hlen : 3 ≤ seats.length ∧ seats.length ≤ 8 then
    match h : checkSeats P [] seats with
    | .error e => .error e
    | .ok () => .ok ⟨seats, hlen.1, hlen.2, (checkSeats_ok h List.nodup_nil).1,
        (checkSeats_ok h List.nodup_nil).2⟩
  else .error (.length seats.length)

namespace Roster

variable (roster : Roster P)

/-- The number of seats. -/
def size : ℕ := roster.seats.length

/-- The seat of an identity. -/
def seatOf (identity : IdentityPublicKey) : Option ℕ :=
  if identity ∈ roster.seats then some (roster.seats.idxOf identity) else none

variable {roster}

/-- A seat is the place of its identity in the roster. -/
theorem seatOf_eq_some {identity : IdentityPublicKey} {seat : ℕ} :
    roster.seatOf identity = some seat ↔ roster.seats[seat]? = some identity := by
  rw [seatOf]
  constructor
  · intro h
    split at h
    · rename_i hmem
      cases h
      rw [List.getElem?_eq_getElem (List.idxOf_lt_length_iff.2 hmem), List.getElem_idxOf]
    · cases h
  · intro h
    obtain ⟨hlt, rfl⟩ := List.getElem?_eq_some_iff.1 h
    rw [if_pos (List.getElem_mem hlt), roster.distinct.idxOf_getElem]

theorem lt_size_of_seatOf {identity : IdentityPublicKey} {seat : ℕ}
    (h : roster.seatOf identity = some seat) : seat < roster.size := by
  obtain ⟨hlt, -⟩ := List.getElem?_eq_some_iff.1 (seatOf_eq_some.1 h)
  exact hlt

/-- Every seat belongs to one identity. -/
theorem seatOf_inj {a b : IdentityPublicKey} {seat : ℕ} (ha : roster.seatOf a = some seat)
    (hb : roster.seatOf b = some seat) : a = b :=
  Option.some.inj ((seatOf_eq_some.1 ha).symm.trans (seatOf_eq_some.1 hb))

end Roster

end

end Tablefolk
