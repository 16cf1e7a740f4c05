import Tablefolk.Deck.Wire
import Tablefolk.Protocol.CborOrder
import Tablefolk.Session.SmallGroup

/-!
# The body codecs are exact

The decoders of `deck/wire.ts` and `deck/action-wire.ts` against their encoders, in both
directions.  The shape of a body is stated field by field; a decoder returns a body if and only if
the value has the shape of it, and a value with the shape of a body is what the encoder returns
for it.

The numbers of a value are integers: `assertCborValue` refuses negative zero.  The data of an
action is encoded and read back, and the decoder does not get through all that the encoder writes:
`ActionShape` says what the encoder asks of it, and `decodeActionBody_eq_ok` what the decoder adds.

* `decodePositionShare_eq_ok`, `decodeSharesBody_eq_ok`, `decodeActionBody_eq_ok`,
  `decodeAuditDiscloseBody_eq_ok`: what is accepted.
* `SharesShape.value_eq`, `ActionShape.value_eq`, `AuditShape.value_eq`: what was decoded is what
  was encoded.
-/

namespace Tablefolk

/-! ## What a schema has read -/

theorem expectArray_eq_ok {value : CborValue} {path : String} {items : List CborValue} :
    expectArray value path = .ok items ↔ value = .array items := by
  cases value <;> simp [expectArray]

theorem expectNonEmptyText_eq_ok {value : CborValue} {path text : String} :
    expectNonEmptyText value path = .ok text ↔ value = .text text ∧ text ≠ "" := by
  cases value with
  | text read =>
      rw [expectNonEmptyText]
      by_cases hempty : read = ""
      · simp only [if_pos hempty, reduceCtorEq, CborValue.text.injEq, false_iff, not_and, not_not]
        rintro rfl
        exact hempty
      · simp only [if_neg hempty, Except.ok.injEq, CborValue.text.injEq]
        exact ⟨fun h => ⟨h, h ▸ hempty⟩, And.left⟩
  | _ => simp [expectNonEmptyText]

section

variable {q : ℕ} {G : Type} [AddCommGroup G] [Module (ZMod q) G] {P : Primitives q G}

theorem decodePoint_eq_ok {value : CborValue} {path : String} {point : G} :
    decodePoint P value path = .ok point ↔ value = pointValue P point := by
  constructor
  · intro h
    cases value with
    | bytes bytes =>
        rw [decodePoint, expectByteString, ok_bind] at h
        cases hread : (parseFixedBytes 32 bytes).bind P.pointOfBytes with
        | none =>
            rw [hread] at h
            cases h
        | some read =>
            rw [hread] at h
            cases h
            obtain ⟨fixed, hfixed, hpoint⟩ := Option.bind_eq_some_iff.1 hread
            unfold parseFixedBytes at hfixed
            split at hfixed
            · cases hfixed
              rw [pointValue, (P.pointOfBytes_eq _ _).1 hpoint]
            · cases hfixed
    | _ => cases h
  · rintro rfl
    exact decodePoint_pointValue P point path

theorem decodeScalar_eq_ok {value : CborValue} {path : String} {scalar : ZMod q} :
    decodeScalar P value path = .ok scalar ↔ value = scalarValue P scalar := by
  constructor
  · intro h
    cases value with
    | bytes bytes =>
        rw [decodeScalar, expectByteString, ok_bind] at h
        cases hread : (parseFixedBytes 32 bytes).bind P.scalarOfBytes with
        | none =>
            rw [hread] at h
            cases h
        | some read =>
            rw [hread] at h
            cases h
            obtain ⟨fixed, hfixed, hscalar⟩ := Option.bind_eq_some_iff.1 hread
            unfold parseFixedBytes at hfixed
            split at hfixed
            · cases hfixed
              rw [scalarValue, (P.scalarOfBytes_eq _ _).1 hscalar]
            · cases hfixed
    | _ => cases h
  · rintro rfl
    exact decodeScalar_scalarValue P scalar path

/-! ## Position shares -/

variable (P) in
/-- The value is a map with exactly the fields of this share: a position, three canonical points
and a canonical scalar. -/
structure ShareShape (value : CborValue) (item : PositionShare q G) : Prop where
  pos : item.pos ≤ 127
  fields : ∃ entries, value = .map entries ∧ (entries.map Prod.fst).Perm SHARE_ITEM_KEYS ∧
    field entries "pos" = .int item.pos ∧ field entries "S" = pointValue P item.share.S ∧
    field entries "R1" = pointValue P item.share.proof.R1 ∧
    field entries "R2" = pointValue P item.share.proof.R2 ∧
    field entries "z" = scalarValue P item.share.proof.z

theorem decodePositionShare_eq_ok {value : CborValue} {path : String} {item : PositionShare q G} :
    decodePositionShare P value path = .ok item ↔ ShareShape P value item := by
  have hkeys : SHARE_ITEM_KEYS.Nodup := by decide
  constructor
  · intro h
    obtain ⟨entries, hmap, h⟩ := bind_eq_ok.1 h
    obtain ⟨pos, hpos, h⟩ := bind_eq_ok.1 h
    obtain ⟨S, hS, h⟩ := bind_eq_ok.1 h
    obtain ⟨R1, hR1, h⟩ := bind_eq_ok.1 h
    obtain ⟨R2, hR2, h⟩ := bind_eq_ok.1 h
    obtain ⟨z, hz, h⟩ := bind_eq_ok.1 h
    cases h
    obtain ⟨rfl, hperm⟩ := (expectExactMap_eq_ok hkeys).1 hmap
    obtain ⟨hpos, hle⟩ := expectUnsignedInteger_eq_ok.1 hpos
    exact ⟨hle, entries, rfl, hperm, hpos, decodePoint_eq_ok.1 hS, decodePoint_eq_ok.1 hR1,
      decodePoint_eq_ok.1 hR2, decodeScalar_eq_ok.1 hz⟩
  · rintro ⟨hle, entries, rfl, hperm, hpos, hS, hR1, hR2, hz⟩
    rw [decodePositionShare, (expectExactMap_eq_ok hkeys).2 ⟨rfl, hperm⟩, ok_bind,
      expectUnsignedInteger_eq_ok.2 ⟨hpos, hle⟩, ok_bind, decodePoint_eq_ok.2 hS, ok_bind,
      decodePoint_eq_ok.2 hR1, ok_bind, decodePoint_eq_ok.2 hR2, ok_bind, decodeScalar_eq_ok.2 hz,
      ok_bind]
    rfl

/-- A share that was read is the share that is written. -/
theorem ShareShape.value_eq {value : CborValue} {item : PositionShare q G}
    (h : ShareShape P value item) (hordered : value.Ordered) :
    value = cborMap (positionShareEntries P item) := by
  obtain ⟨-, entries, rfl, hperm, hpos, hS, hR1, hR2, hz⟩ := h
  have hfields := perm_fields (by decide) hperm
  simp only [SHARE_ITEM_KEYS, List.map_cons, List.map_nil, hpos, hS, hR1, hR2, hz] at hfields
  exact map_eq_cborMap hordered hfields

theorem ShareShape.values_eq {values : List CborValue} {items : List (PositionShare q G)}
    (h : List.Forall₂ (ShareShape P) values items) (hordered : OrderedItems values) :
    values = items.map fun item => cborMap (positionShareEntries P item) := by
  induction h with
  | nil => rfl
  | cons hshape _ ih =>
      rw [List.map_cons, hshape.value_eq hordered.1, ← ih hordered.2]

theorem decodeItems_eq_ok {values : List CborValue} {path : String} {index : ℕ}
    {items : List (PositionShare q G)} :
    decodeItems P path index values = .ok items ↔ List.Forall₂ (ShareShape P) values items := by
  induction values generalizing index items with
  | nil =>
      rw [decodeItems, List.forall₂_nil_left_iff]
      exact ⟨fun h => by cases h; rfl, fun h => by rw [h]⟩
  | cons value rest ih =>
      constructor
      · intro h
        obtain ⟨item, hitem, h⟩ := bind_eq_ok.1 h
        obtain ⟨items, hitems, h⟩ := bind_eq_ok.1 h
        cases h
        exact .cons (decodePositionShare_eq_ok.1 hitem) (ih.1 hitems)
      · rintro (_ | ⟨hshape, hrest⟩)
        rw [decodeItems, decodePositionShare_eq_ok.2 hshape, ok_bind, ih.2 hrest, ok_bind]
        rfl

/-! ## SHARES -/

variable (P) in
/-- The value has exactly the fields of this SHARES body. -/
structure SharesShape (value : CborValue) (body : SharesBody q G) : Prop where
  to_ : body.to_ ≤ 7
  items : ItemsOk body.items
  fields : ∃ entries values, value = .map entries ∧ (entries.map Prod.fst).Perm SHARES_KEYS ∧
    field entries "to" = .int body.to_ ∧ field entries "items" = .array values ∧
    List.Forall₂ (ShareShape P) values body.items

theorem decodeSharesBody_eq_ok {value : CborValue} {body : SharesBody q G} :
    decodeSharesBody P value = .ok body ↔ SharesShape P value body := by
  have hkeys : SHARES_KEYS.Nodup := by decide
  constructor
  · intro h
    have hok := itemsOk_of_decodeSharesBody P h
    obtain ⟨entries, hmap, h⟩ := bind_eq_ok.1 h
    obtain ⟨to_, hto, h⟩ := bind_eq_ok.1 h
    obtain ⟨values, hvalues, h⟩ := bind_eq_ok.1 h
    obtain ⟨items, hitems, h⟩ := bind_eq_ok.1 h
    obtain ⟨-, h⟩ := check_bind_eq_ok.1 h
    cases h
    obtain ⟨rfl, hperm⟩ := (expectExactMap_eq_ok hkeys).1 hmap
    obtain ⟨hto, hle⟩ := expectUnsignedInteger_eq_ok.1 hto
    exact ⟨hle, hok, entries, values, rfl, hperm, hto, expectArray_eq_ok.1 hvalues,
      decodeItems_eq_ok.1 hitems⟩
  · rintro ⟨hle, hok, entries, values, rfl, hperm, hto, hvalues, hitems⟩
    rw [decodeSharesBody, (expectExactMap_eq_ok hkeys).2 ⟨rfl, hperm⟩, ok_bind,
      expectUnsignedInteger_eq_ok.2 ⟨hto, hle⟩, ok_bind, expectArray_eq_ok.2 hvalues, ok_bind,
      decodeItems_eq_ok.2 hitems, ok_bind, requireItems_ok hok, ok_bind]
    rfl

theorem SharesShape.value_eq {value : CborValue} {body : SharesBody q G}
    (h : SharesShape P value body) (hordered : value.Ordered) :
    encodeSharesBody P body = .ok value := by
  obtain ⟨hto, hok, entries, values, rfl, hperm, hfieldTo, hfieldItems, hitems⟩ := h
  have hfields := perm_fields (by decide) hperm
  simp only [SHARES_KEYS, List.map_cons, List.map_nil, hfieldTo, hfieldItems] at hfields
  have hvalues : OrderedItems values :=
    orderedEntries_iff.1 hordered.2 ("items", .array values) (hfields.mem_iff.2 (by simp))
  rw [encodeSharesBody_ok P hto hok, map_eq_cborMap hordered hfields,
    ShareShape.values_eq hitems hvalues]

/-! ## ACTION -/

theorem decodeReveal_eq_ok {values : List CborValue} {seen reveal : List ℕ} (hseen : seen.Nodup) :
    decodeReveal seen values = .ok reveal ↔ ∃ positions : List ℕ, reveal = seen ++ positions ∧
      values = (positions.map fun pos : ℕ => CborValue.int pos) ∧ (∀ pos ∈ positions, pos ≤ 127) ∧
      (seen ++ positions).Nodup := by
  constructor
  · intro h
    induction values generalizing seen with
    | nil =>
        cases h
        exact ⟨[], by simp, rfl, by simp, by simpa using hseen⟩
    | cons value rest ih =>
        rw [decodeReveal, bind_eq_ok] at h
        obtain ⟨pos, hpos, h⟩ := h
        obtain ⟨hfresh, h⟩ := check_bind_eq_ok.1 h
        rw [throwIf_eq_ok] at hfresh
        obtain ⟨rfl, hle⟩ := expectUnsignedInteger_eq_ok.1 hpos
        have hsnoc : (seen ++ [pos]).Nodup := by
          rw [List.nodup_append]
          refine ⟨hseen, List.nodup_singleton _, fun x hx y hy => ?_⟩
          rintro rfl
          exact hfresh (List.mem_singleton.1 hy ▸ hx)
        obtain ⟨positions, rfl, rfl, hall, hnodup⟩ := ih hsnoc h
        refine ⟨pos :: positions, by simp, rfl, ?_, by simpa using hnodup⟩
        exact List.forall_mem_cons.2 ⟨hle, hall⟩
  · rintro ⟨positions, rfl, rfl, hall, hnodup⟩
    exact decodeReveal_ok hall hnodup

theorem decodeActionShares_eq_ok {values : List CborValue} {index : ℕ} {reveal : List ℕ}
    {shares : List (PositionShare q G)} (hlength : values.length = reveal.length) :
    decodeActionShares P index values reveal = .ok shares ↔
      List.Forall₂ (ShareShape P) values shares ∧ shares.map PositionShare.pos = reveal := by
  constructor
  · intro h
    have hpositions := of_decodeActionShares P h
    rw [hlength, List.take_length] at hpositions
    refine ⟨?_, hpositions⟩
    clear hlength hpositions
    induction values generalizing index reveal shares with
    | nil =>
        cases h
        exact .nil
    | cons value rest ih =>
        obtain ⟨share, hshare, h⟩ := bind_eq_ok.1 h
        obtain ⟨-, h⟩ := check_bind_eq_ok.1 h
        obtain ⟨shares, hshares, h⟩ := bind_eq_ok.1 h
        cases h
        exact .cons (decodePositionShare_eq_ok.1 hshare) (ih hshares)
  · rintro ⟨hshapes, rfl⟩
    clear hlength
    induction hshapes generalizing index with
    | nil => rfl
    | cons hshape _ ih =>
        rw [decodeActionShares, decodePositionShare_eq_ok.2 hshape, ok_bind, throwIf_neg (by simp),
          ok_bind, List.map_cons, List.tail_cons, ih]
        rfl

variable (P) in
/-- The value has exactly the fields of this ACTION body, and its data can be encoded. -/
structure ActionShape (value : CborValue) (body : ActionBody q G) : Prop where
  ok : ActionFields body
  fields : ∃ entries values, value = .map entries ∧ (entries.map Prod.fst).Perm ACTION_KEYS ∧
    field entries "kind" = .text body.kind ∧ field entries "data" = body.data ∧
    field entries "reveal" = .array (body.reveal.map fun pos : ℕ => CborValue.int pos) ∧
    field entries "shares" = .array values ∧ List.Forall₂ (ShareShape P) values body.shares

theorem decodeActionBody_eq_ok {value : CborValue} {body : ActionBody q G} :
    decodeActionBody P value = .ok body ↔
      ActionShape P value body ∧ body.data.readDepth ≤ MAX_CBOR_NESTING_DEPTH := by
  have hkeys : ACTION_KEYS.Nodup := by decide
  constructor
  · intro h
    have hok := actionOk_of_decodeActionBody P h
    obtain ⟨entries, hmap, h⟩ := bind_eq_ok.1 h
    obtain ⟨kind, hkind, h⟩ := bind_eq_ok.1 h
    obtain ⟨-, h⟩ := check_bind_eq_ok.1 h
    obtain ⟨positions, hpositions, h⟩ := bind_eq_ok.1 h
    obtain ⟨values, hvalues, h⟩ := bind_eq_ok.1 h
    obtain ⟨hlength, h⟩ := check_bind_eq_ok.1 h
    obtain ⟨reveal, hreveal, h⟩ := bind_eq_ok.1 h
    obtain ⟨shares, hshares, h⟩ := bind_eq_ok.1 h
    obtain ⟨data, hdata, h⟩ := bind_eq_ok.1 h
    cases h
    rw [throwIf_eq_ok, not_or, not_not] at hlength
    obtain ⟨rfl, hperm⟩ := (expectExactMap_eq_ok hkeys).1 hmap
    obtain ⟨read, rfl, rfl, -, -⟩ := (decodeReveal_eq_ok List.nodup_nil).1 hreveal
    obtain ⟨hshapes, -⟩ := (decodeActionShares_eq_ok (by simpa using hlength.2)).1 hshares
    exact ⟨⟨hok.toActionFields, entries, values, rfl, hperm, (expectNonEmptyText_eq_ok.1 hkind).1,
      (decodeActionData_eq_ok.1 hdata).1.symm, expectArray_eq_ok.1 hpositions,
      expectArray_eq_ok.1 hvalues, hshapes⟩, hok.reads⟩
  · rintro ⟨⟨hok, entries, values, rfl, hperm, hkind, hdata, hreveal, hvalues, hshapes⟩, hdepth⟩
    have hcount : values.length = body.reveal.length := by
      rw [hshapes.length_eq, ← hok.shares, List.length_map]
    have hread : decodeReveal [] (body.reveal.map fun pos : ℕ => CborValue.int pos)
        = .ok body.reveal :=
      (decodeReveal_eq_ok List.nodup_nil).2
        ⟨body.reveal, rfl, rfl, hok.positions, by simpa using hok.distinct⟩
    have hkindOk : ¬ (MAX_ACTION_KIND_BYTES < body.kind.length ∨ isKind body.kind = false) := by
      simp [hok.kind.1, hok.kind.2]
    have hlength : ¬ (MAX_ACTION_REVEALS <
        (body.reveal.map fun pos : ℕ => CborValue.int pos).length ∨
          values.length ≠ (body.reveal.map fun pos : ℕ => CborValue.int pos).length) := by
      simp [hcount, hok.length_le]
    rw [decodeActionBody, (expectExactMap_eq_ok hkeys).2 ⟨rfl, hperm⟩, ok_bind,
      expectNonEmptyText_eq_ok.2 ⟨hkind, isKind_ne_empty hok.kind.2⟩, ok_bind,
      throwIf_neg hkindOk, ok_bind, expectArray_eq_ok.2 hreveal, ok_bind,
      expectArray_eq_ok.2 hvalues, ok_bind, throwIf_neg hlength, ok_bind, hread, ok_bind,
      (decodeActionShares_eq_ok hcount).2 ⟨hshapes, hok.shares⟩, ok_bind, hdata,
      decodeActionData_eq_ok.2 ⟨rfl, hok.fits, hdepth, hok.data⟩, ok_bind]
    rfl

theorem ActionShape.value_eq {value : CborValue} {body : ActionBody q G}
    (h : ActionShape P value body) (hread : body.data.readDepth ≤ MAX_CBOR_NESTING_DEPTH)
    (hordered : value.Ordered) : encodeActionBody P body = .ok value := by
  obtain ⟨hok, entries, values, rfl, hperm, hkind, hdata, hreveal, hshares, hshapes⟩ := h
  have hfields := perm_fields (by decide) hperm
  simp only [ACTION_KEYS, List.map_cons, List.map_nil, hkind, hdata, hreveal, hshares] at hfields
  have hvalues : OrderedItems values :=
    orderedEntries_iff.1 hordered.2 ("shares", .array values) (hfields.mem_iff.2 (by simp))
  rw [encodeActionBody_ok P ⟨hok, hread⟩, map_eq_cborMap hordered hfields,
    ShareShape.values_eq hshapes hvalues]
  rfl

/-! ## AUDIT_DISCLOSE -/

/-- At most 128 shares, no position twice. -/
structure AuditOk (items : List (PositionShare q G)) : Prop where
  length_le : items.length ≤ MAX_ACTION_REVEALS
  positions : ∀ item ∈ items, item.pos ≤ 127
  distinct : (items.map PositionShare.pos).Nodup

theorem decodeAuditItems_eq_ok {values : List CborValue} {seen : List ℕ} {index : ℕ}
    {items : List (PositionShare q G)} (hseen : seen.Nodup) :
    decodeAuditItems P seen index values = .ok items ↔
      List.Forall₂ (ShareShape P) values items ∧ (seen ++ items.map PositionShare.pos).Nodup := by
  induction values generalizing seen index items with
  | nil =>
      rw [decodeAuditItems, List.forall₂_nil_left_iff]
      constructor
      · intro h
        cases h
        exact ⟨rfl, by simpa using hseen⟩
      · rintro ⟨rfl, -⟩
        rfl
  | cons value rest ih =>
      constructor
      · intro h
        obtain ⟨item, hitem, h⟩ := bind_eq_ok.1 h
        obtain ⟨hfresh, h⟩ := check_bind_eq_ok.1 h
        obtain ⟨items, hitems, h⟩ := bind_eq_ok.1 h
        cases h
        rw [throwIf_eq_ok] at hfresh
        have hsnoc : (seen ++ [item.pos]).Nodup := by
          rw [List.nodup_append]
          refine ⟨hseen, List.nodup_singleton _, fun x hx y hy => ?_⟩
          rintro rfl
          exact hfresh (List.mem_singleton.1 hy ▸ hx)
        obtain ⟨hshapes, hnodup⟩ := (ih hsnoc).1 hitems
        exact ⟨.cons (decodePositionShare_eq_ok.1 hitem) hshapes, by simpa using hnodup⟩
      · rintro ⟨hshapes, hnodup⟩
        cases hshapes with
        | @cons _ item _ items hshape hrest =>
            have hnodup' : ((seen ++ [item.pos]) ++ items.map PositionShare.pos).Nodup := by
              simpa using hnodup
            have hsnoc := (List.nodup_append.1 hnodup').1
            have hfresh : item.pos ∉ seen := fun hmem =>
              (List.nodup_append.1 hsnoc).2.2 _ hmem _ (by simp) rfl
            rw [decodeAuditItems, decodePositionShare_eq_ok.2 hshape, ok_bind,
              throwIf_neg hfresh, ok_bind, (ih hsnoc).2 ⟨hrest, hnodup'⟩, ok_bind]
            rfl

variable (P) in
/-- The value has exactly the field of this AUDIT_DISCLOSE body. -/
structure AuditShape (value : CborValue) (body : AuditDiscloseBody q G) : Prop where
  ok : AuditOk body.items
  fields : ∃ entries values, value = .map entries ∧ (entries.map Prod.fst).Perm ["items"] ∧
    field entries "items" = .array values ∧ List.Forall₂ (ShareShape P) values body.items

theorem ShareShape.positions {values : List CborValue} {items : List (PositionShare q G)}
    (h : List.Forall₂ (ShareShape P) values items) : ∀ item ∈ items, item.pos ≤ 127 := by
  induction h with
  | nil => simp
  | cons hshape _ ih => exact List.forall_mem_cons.2 ⟨hshape.pos, ih⟩

theorem decodeAuditDiscloseBody_eq_ok {value : CborValue} {body : AuditDiscloseBody q G} :
    decodeAuditDiscloseBody P value = .ok body ↔ AuditShape P value body := by
  have hkeys : ["items"].Nodup := by decide
  constructor
  · intro h
    obtain ⟨entries, hmap, h⟩ := bind_eq_ok.1 h
    obtain ⟨values, hvalues, h⟩ := bind_eq_ok.1 h
    obtain ⟨hlength, h⟩ := check_bind_eq_ok.1 h
    obtain ⟨items, hitems, h⟩ := bind_eq_ok.1 h
    cases h
    rw [throwIf_eq_ok, not_lt] at hlength
    obtain ⟨rfl, hperm⟩ := (expectExactMap_eq_ok hkeys).1 hmap
    obtain ⟨hshapes, hnodup⟩ := (decodeAuditItems_eq_ok List.nodup_nil).1 hitems
    exact ⟨⟨hshapes.length_eq ▸ hlength, ShareShape.positions hshapes, by simpa using hnodup⟩,
      entries, values, rfl, hperm, expectArray_eq_ok.1 hvalues, hshapes⟩
  · rintro ⟨hok, entries, values, rfl, hperm, hvalues, hshapes⟩
    have hlength : ¬ MAX_ACTION_REVEALS < values.length :=
      not_lt.2 (hshapes.length_eq ▸ hok.length_le)
    rw [decodeAuditDiscloseBody, (expectExactMap_eq_ok hkeys).2 ⟨rfl, hperm⟩, ok_bind,
      expectArray_eq_ok.2 hvalues, ok_bind, throwIf_neg hlength, ok_bind,
      (decodeAuditItems_eq_ok List.nodup_nil).2 ⟨hshapes, by simpa using hok.distinct⟩, ok_bind]
    rfl

/-- A written share has the shape of the share. -/
theorem shareShape_encode {item : PositionShare q G} (h : item.pos ≤ 127) :
    ShareShape P (cborMap (positionShareEntries P item)) item :=
  decodePositionShare_eq_ok.1 (decodePositionShare_encode P (encodePositionShare_ok P h) "share")

theorem shareShapes_encode {items : List (PositionShare q G)} (h : ∀ item ∈ items, item.pos ≤ 127) :
    List.Forall₂ (ShareShape P) (items.map fun item => cborMap (positionShareEntries P item))
      items := by
  rw [List.forall₂_map_left_iff, List.forall₂_same]
  exact fun item hitem => shareShape_encode (h item hitem)

theorem encodeItemsFrom_eq_ok {path : String} {index : ℕ} {items : List (PositionShare q G)}
    {values : List CborValue} : encodeItemsFrom P path index items = .ok values ↔
      (∀ item ∈ items, item.pos ≤ 127) ∧
        values = items.map fun item => cborMap (positionShareEntries P item) := by
  constructor
  · intro h
    induction items generalizing index values with
    | nil =>
        cases h
        exact ⟨by simp, rfl⟩
    | cons item rest ih =>
        rw [encodeItemsFrom, bind_eq_ok] at h
        obtain ⟨value, hvalue, h⟩ := h
        obtain ⟨values, hvalues, h⟩ := bind_eq_ok.1 h
        cases h
        have hpos := check_bind_eq_ok.1 (mapError_eq_ok.1 hvalue)
        rw [requirePosition, throwIf_eq_ok, not_lt] at hpos
        obtain ⟨hle, hvalue⟩ := hpos
        cases hvalue
        obtain ⟨hall, rfl⟩ := ih hvalues
        exact ⟨List.forall_mem_cons.2 ⟨hle, hall⟩, rfl⟩
  · rintro ⟨hall, rfl⟩
    exact encodeItemsFrom_ok P path index hall

/-- What is written for a disclosure. -/
theorem encodeAuditDiscloseBody_eq_ok {body : AuditDiscloseBody q G} {value : CborValue} :
    encodeAuditDiscloseBody P body = .ok value ↔ AuditOk body.items ∧ value = cborMap
      [("items", .array (body.items.map fun item => cborMap (positionShareEntries P item)))] := by
  have hshape : ∀ {items : List (PositionShare q G)} {values : List CborValue},
      AuditOk items → List.Forall₂ (ShareShape P) values items →
      AuditShape P (cborMap [("items", .array values)]) ⟨items⟩ := by
    intro items values hok hshapes
    exact ⟨hok, _, values, rfl, .of_eq rfl, rfl, hshapes⟩
  constructor
  · intro h
    obtain ⟨values, hvalues, h⟩ := bind_eq_ok.1 h
    obtain ⟨decoded, hdecoded, h⟩ := bind_eq_ok.1 h
    cases h
    obtain ⟨-, hitems⟩ := check_bind_eq_ok.1 hvalues
    obtain ⟨hall, rfl⟩ := encodeItemsFrom_eq_ok.1 hitems
    obtain ⟨hok, entries, values, hentries, -, hfield, hshapes⟩ :=
      decodeAuditDiscloseBody_eq_ok.1 hdecoded
    cases hentries
    cases hfield
    have hitems : decoded.items = body.items := by
      have hread : decodeItems P "AUDIT_DISCLOSE.body.items" 0 _ = .ok decoded.items :=
        decodeItems_eq_ok.2 hshapes
      rw [decodeItems_eq_ok.2 (shareShapes_encode hall), Except.ok.injEq] at hread
      exact hread.symm
    exact ⟨hitems ▸ hok, rfl⟩
  · rintro ⟨hok, rfl⟩
    rw [encodeAuditDiscloseBody, encodeItems, throwIf_neg (not_lt.2 hok.length_le), ok_bind,
      encodeItemsFrom_ok P _ _ hok.positions, ok_bind]
    simp only
    rw [decodeAuditDiscloseBody_eq_ok.2 (hshape hok (shareShapes_encode hok.positions)), ok_bind]
    rfl

/-- A disclosure is read back as it was written. -/
theorem decodeAuditDiscloseBody_encode {body : AuditDiscloseBody q G} {value : CborValue}
    (h : encodeAuditDiscloseBody P body = .ok value) :
    decodeAuditDiscloseBody P value = .ok body := by
  obtain ⟨hok, rfl⟩ := encodeAuditDiscloseBody_eq_ok.1 h
  exact decodeAuditDiscloseBody_eq_ok.2
    ⟨hok, _, _, rfl, .of_eq rfl, rfl, shareShapes_encode hok.positions⟩

theorem AuditShape.value_eq {value : CborValue} {body : AuditDiscloseBody q G}
    (h : AuditShape P value body) (hordered : value.Ordered) :
    encodeAuditDiscloseBody P body = .ok value := by
  obtain ⟨hok, entries, values, rfl, hperm, hitems, hshapes⟩ := h
  have hfields := perm_fields (by decide) hperm
  simp only [List.map_cons, List.map_nil, hitems] at hfields
  have hvalues : OrderedItems values :=
    orderedEntries_iff.1 hordered.2 ("items", .array values) (hfields.mem_iff.2 (by simp))
  rw [encodeAuditDiscloseBody_eq_ok, map_eq_cborMap hordered hfields,
    ShareShape.values_eq hshapes hvalues]
  exact ⟨hok, rfl⟩

variable (P) in
/-- **The body codecs are inverse on the admitted shapes.**  Each decoder returns a body if and only
if the value has the shape of the body; a decoded value is what the encoder returns for the body,
and what an encoder returns is decoded to the same body.  The one exception is an ACTION whose data
can be encoded but is too deep for the decoder. -/
theorem body_codecs_exact :
    ((∀ value (body : SharesBody q G),
        decodeSharesBody P value = .ok body ↔ SharesShape P value body) ∧
      (∀ value (body : SharesBody q G), value.Ordered → decodeSharesBody P value = .ok body →
        encodeSharesBody P body = .ok value) ∧
      ∀ value (body : SharesBody q G), encodeSharesBody P body = .ok value →
        decodeSharesBody P value = .ok body) ∧
    ((∀ value, (∀ body : ActionBody q G,
          decodeActionBody P value = .ok body ↔ ActionShape P value body) ↔
        ∀ body : ActionBody q G, ActionShape P value body →
          body.data.readDepth ≤ MAX_CBOR_NESTING_DEPTH) ∧
      (∀ value (body : ActionBody q G), value.Ordered → decodeActionBody P value = .ok body →
        encodeActionBody P body = .ok value) ∧
      ∀ value (body : ActionBody q G), encodeActionBody P body = .ok value →
        decodeActionBody P value = .ok body) ∧
    (∀ value (body : AuditDiscloseBody q G),
        decodeAuditDiscloseBody P value = .ok body ↔ AuditShape P value body) ∧
      (∀ value (body : AuditDiscloseBody q G), value.Ordered →
        decodeAuditDiscloseBody P value = .ok body → encodeAuditDiscloseBody P body = .ok value) ∧
      ∀ value (body : AuditDiscloseBody q G), encodeAuditDiscloseBody P body = .ok value →
        decodeAuditDiscloseBody P value = .ok body := by
  refine ⟨⟨fun _ _ => decodeSharesBody_eq_ok, fun _ _ hordered h => ?_,
      fun _ _ => decodeSharesBody_encode P⟩,
    ⟨fun value => ⟨fun h body hshape => ?_, fun hread body => ?_⟩, fun _ _ hordered h => ?_,
      fun _ _ => decodeActionBody_encode P⟩,
    fun _ _ => decodeAuditDiscloseBody_eq_ok, fun _ _ hordered h => ?_,
      fun _ _ => decodeAuditDiscloseBody_encode⟩
  · exact (decodeSharesBody_eq_ok.1 h).value_eq hordered
  · exact (decodeActionBody_eq_ok.1 ((h body).2 hshape)).2
  · rw [decodeActionBody_eq_ok]
    exact ⟨And.left, fun hshape => ⟨hshape, hread body hshape⟩⟩
  · obtain ⟨hshape, hread⟩ := decodeActionBody_eq_ok.1 h
    exact hshape.value_eq hread hordered
  · exact (decodeAuditDiscloseBody_eq_ok.1 h).value_eq hordered

end

namespace SmallGroup

/-- An action that reveals nothing and carries seventeen arrays. -/
def deepData : ActionBody 41 (ZMod 41) := ⟨"pass", nestedArrays 17, [], []⟩

/-- The value of this action. -/
def deepDataValue : CborValue :=
  .map [("data", nestedArrays 17), ("kind", .text "pass"), ("reveal", .array []),
    ("shares", .array [])]

end SmallGroup

open SmallGroup in
/-- A value with the shape of an action whose data is encoded in eighteen bytes and refused. -/
theorem deep_data_refused :
    ActionShape (primitives fun _ => 1) deepDataValue deepData ∧ deepDataValue.Ordered ∧
    deepData.data.encodedLength = 18 ∧
    decodeActionBody (primitives fun _ => 1) deepDataValue = .error unsupportedData := by
  have hfields : ActionFields deepData := ⟨by decide, by decide, by decide, by decide, rfl,
    by decide, fitsAt_nestedArrays.2 (by decide)⟩
  refine ⟨⟨hfields, _, [], rfl, by decide, rfl, rfl, rfl, rfl, .nil⟩, ⟨by decide, ?_⟩, by decide, rfl⟩
  simp [OrderedEntries, CborValue.Ordered, OrderedItems, nestedArrays]

end Tablefolk
