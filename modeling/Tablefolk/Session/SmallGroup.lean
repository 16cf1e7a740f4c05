import Tablefolk.Protocol.Codec
import Tablefolk.Session.Roster

/-!
# The primitives over a small group

What `Primitives` asks of the curve and of its encodings can be met: here by the integers
modulo 41, with a residue for every card and a byte for every residue.  The results about
arbitrary primitives are applied here to concrete envelopes.
-/

namespace Tablefolk.SmallGroup

instance primeOrder : Fact (Nat.Prime 41) := ⟨by norm_num⟩

/-- A byte string that starts with these bytes and is filled up with zeros. -/
def padded (size : ℕ) (bytes : List UInt8) : FixedBytes size :=
  ⟨(bytes ++ List.replicate size 0).take size, by simp⟩

/-- A residue is encoded by its first byte. -/
def residueBytes (residue : ZMod 41) : FixedBytes 32 := padded 32 [UInt8.ofNat residue.val]

/-- All residues. -/
def residues : List (ZMod 41) := (List.range 41).map fun n : ℕ => (n : ZMod 41)

theorem mem_residues (residue : ZMod 41) : residue ∈ residues :=
  List.mem_map.2 ⟨residue.val, List.mem_range.2 residue.val_lt, ZMod.natCast_zmod_val residue⟩

/-- The residue with this encoding. -/
def residueOfBytes (bytes : FixedBytes 32) : Option (ZMod 41) :=
  residues.find? fun residue => residueBytes residue = bytes

theorem residueBytes_injective : Function.Injective residueBytes := by
  intro a b h
  have hhead : UInt8.ofNat a.val = UInt8.ofNat b.val := by
    simpa [residueBytes, padded] using congrArg (fun bytes => bytes.val.head?) h
  have hval : a.val % 256 = b.val % 256 := by
    simpa using congrArg UInt8.toNat hhead
  have ha := a.val_lt
  have hb := b.val_lt
  rw [Nat.mod_eq_of_lt (by omega), Nat.mod_eq_of_lt (by omega)] at hval
  exact ZMod.val_injective 41 hval

theorem residueOfBytes_eq (bytes : FixedBytes 32) (residue : ZMod 41) :
    residueOfBytes bytes = some residue ↔ residueBytes residue = bytes := by
  constructor
  · intro h
    simpa using List.find?_some h
  · rintro rfl
    rw [residueOfBytes]
    cases h : residues.find? fun other => residueBytes other = residueBytes residue with
    | none =>
        rw [List.find?_eq_none] at h
        exact absurd (by simp) (h residue (mem_residues residue))
    | some other =>
        have := List.find?_some h
        rw [residueBytes_injective (of_decide_eq_true this)]

/-- The primitives over the integers modulo 41.  An envelope is hashed to its place
and the first bytes of its sender and of its signature. -/
def primitives (card : String → ZMod 41) : Primitives 41 (ZMod 41) where
  base := 1
  pointBytes := residueBytes
  pointOfBytes := residueOfBytes
  scalarBytes := residueBytes
  scalarOfBytes := residueOfBytes
  proofChallengeScalar _ _ _ := 1
  deriveCardPoint _ := card
  hashEnvelope e := padded 32 [1, UInt8.ofNat e.seq, e.from_.val.headD 0, e.sig.val.headD 0]
  beaconCommitment _ _ seat secret := padded 32 [UInt8.ofNat seat, secret.val.headD 0]
  sha256 secrets := padded 32 (secrets.map fun secret => secret.val.headD 0)
  importEd25519PublicKey _ := true
  prime := Fact.out
  base_ne_zero := by decide
  generates point := ⟨point, by simp⟩
  pointOfBytes_eq := residueOfBytes_eq
  scalarOfBytes_eq := residueOfBytes_eq

/-- Three seats. -/
def roster (card : String → ZMod 41) : Roster (primitives card) where
  seats := [padded 32 [1], padded 32 [2], padded 32 [3]]
  three_le := by decide
  le_eight := by decide
  distinct := by decide
  valid _ _ := rfl

/-- A game id. -/
def game : GameId := padded 16 [7]

/-- An envelope of a seat. -/
def envelope (seat seq : ℕ) (prev : Hash256) (type : EnvelopeMessageType) (body : CborValue) :
    SignedEnvelope where
  game := game
  from_ := padded 32 [UInt8.ofNat (seat + 1)]
  seq := seq
  prev := prev
  round := 1
  phase := "play"
  type := type
  body := body
  sig := padded 64 [UInt8.ofNat seq]

/-- Signatures that say nothing. -/
def ed25519 : Ed25519 where
  SecretKey := IdentityPublicKey
  deriveEd25519PublicKey key := key
  signEd25519 _ _ := zeroBytes 64
  verifyEd25519 sig _ _ := sig = zeroBytes 64
  verify_sign _ _ := by simp

/-- Arrays, each in the next. -/
def nestedArrays : ℕ → CborValue
  | 0 => .null
  | depth + 1 => .array [nestedArrays depth]

/-- Maps, each in the next. -/
def nestedMaps : ℕ → CborValue
  | 0 => .null
  | depth + 1 => .map [("deeper", nestedMaps depth)]

theorem readDepth_nestedArrays (depth : ℕ) : (nestedArrays depth).readDepth = 2 * depth := by
  induction depth with
  | zero => rfl
  | succ depth ih =>
      rw [nestedArrays, CborValue.readDepth, itemsReadDepth, itemsReadDepth, ih]
      omega

theorem readDepth_nestedMaps (depth : ℕ) : (nestedMaps depth).readDepth = depth := by
  induction depth with
  | zero => rfl
  | succ depth ih => rw [nestedMaps, CborValue.readDepth, entriesReadDepth, entriesReadDepth, ih,
      max_eq_left (Nat.zero_le _)]

theorem fitsAt_nestedArrays {count depth : ℕ} :
    (nestedArrays count).FitsAt depth ↔ depth + count ≤ MAX_CBOR_NESTING_DEPTH := by
  induction count generalizing depth with
  | zero => rw [nestedArrays, fitsAt_iff_root, validateValue, assertDepth, throwIf_eq_ok, not_lt,
      Nat.add_zero]
  | succ count ih =>
      rw [nestedArrays, fitsAt_array, List.forall_mem_singleton, ih]
      omega

theorem fitsAt_nestedMaps {count depth : ℕ} :
    (nestedMaps count).FitsAt depth ↔ depth + count ≤ MAX_CBOR_NESTING_DEPTH := by
  induction count generalizing depth with
  | zero => rw [nestedMaps, fitsAt_iff_root, validateValue, assertDepth, throwIf_eq_ok, not_lt,
      Nat.add_zero]
  | succ count ih =>
      rw [nestedMaps, fitsAt_map, List.forall_mem_singleton, ih]
      omega

/-- The first two envelopes of the first seat. -/
def firstEnvelope : SignedEnvelope := envelope 0 0 ZERO_HASH .JOIN .null

def secondEnvelope : SignedEnvelope := envelope 0 1 (padded 32 [1, 0, 1, 0]) .READY .null

/-- A WITNESS of the second seat that claims them. -/
def witnessEnvelope : SignedEnvelope := envelope 1 0 ZERO_HASH .WITNESS (.map [("heads", .array
  [.map [("seq", .int 1), ("from", .bytes (padded 32 [1]).val),
    ("hash", .bytes (padded 32 [1, 1, 1, 1]).val)]])])

end Tablefolk.SmallGroup
