import Tablefolk.Protocol.Hex
import Tablefolk.Session.Witness

/-!
# The history barrier

The model of `peer-history-barrier.ts`, and of two endpoints that use it over a channel that keeps
the order of its messages.  A payload is what the receiver reads of it: its length, its first byte
and what `JSON.parse` makes of the rest.

* `decodeMarker_encode`: a marker is read back.
* `receive_prefix`, `receive_ack`: what a message can change.
* `step_inv`: what the two endpoints keep, one direction at a time.
* `history_barrier_sound`: what an acknowledged head and a ready barrier say, and when both barriers
  are ready.
-/

namespace Tablefolk

/-- A JSON value.  A number that is no integer stands as `none`. -/
inductive Json where
  | null
  | bool (value : Bool)
  | num (integer : Option ℤ)
  | str (text : String)
  | arr (items : List Json)
  | obj (entries : List (String × Json))

/-! ## Markers -/

inductive MarkerKind where
  | prefix_ | ack
  deriving DecidableEq, Repr

def MarkerKind.text : MarkerKind → String
  | .prefix_ => "prefix"
  | .ack => "ack"

/-- `Marker`. -/
structure Marker where
  kind : MarkerKind
  token : String
  seq : ℕ
  hash : String
  deriving DecidableEq, Repr

structure Payload where
  length : ℕ
  /-- `payload[0]` -/
  first : Option UInt8
  /-- what comes after the first byte, `none` when the text decoder or `JSON.parse` throws -/
  json : Option Json

/-- `JSON.stringify` of a marker; neither of its texts has a character to escape. -/
def stringify (marker : Marker) : String :=
  "\x7b\"kind\":\"" ++ marker.kind.text ++ "\",\"token\":\"" ++ marker.token ++ "\",\"seq\":" ++
    String.ofList (Nat.toDigits 10 marker.seq) ++ ",\"hash\":\"" ++ marker.hash ++ "\"\x7d"

/-- `encode`. -/
def encode (marker : Marker) : Payload where
  length := (stringify marker).utf8ByteSize + 1
  first := some 0
  json := some (.obj [("kind", .str marker.kind.text), ("token", .str marker.token),
    ("seq", .num (some marker.seq)), ("hash", .str marker.hash)])

/-- The part of `receive` that reads the marker. -/
def decodeMarker (payload : Payload) : Except String Marker := do
  throwIf (512 < payload.length ∨ payload.first ≠ some 0) "Invalid history marker"
  match payload.json with
  | none => throw "Unexpected token"
  | some (.obj entries) => do
      throwIf (",".intercalate ((entries.map Prod.fst).insertionSort (· ≤ ·)) ≠ "hash,kind,seq,token")
        "Invalid history marker"
      match entries.lookup "kind", entries.lookup "seq", entries.lookup "hash",
        entries.lookup "token" with
      | some (.str kind), some (.num (some seq)), some (.str hash), some (.str token) => do
          throwIf ((kind ≠ "prefix" ∧ kind ≠ "ack") ∨ (MAX_SAFE_INTEGER : ℤ) < |seq| ∨ seq < 0 ∨
            isHex64 hash = false ∨ isHex64 token = false) "Invalid history marker"
          return ⟨if kind = "ack" then .ack else .prefix_, token, seq.toNat, hash⟩
      | _, _, _, _ => throw "Invalid history marker"
  -- the keys of an array are its indices
  | some _ => throw "Invalid history marker"

/-- The markers that the barriers send. -/
structure Marker.Valid (marker : Marker) : Prop where
  token : isHex64 marker.token = true
  seq : marker.seq ≤ MAX_SAFE_INTEGER
  hash : isHex64 marker.hash = true

/-! ## The barrier -/

structure PeerHistoryBarrier where
  token : String
  sent : Option Marker
  remote : Option Marker
  acked : Bool
  received : Bool
  deriving DecidableEq, Repr

namespace PeerHistoryBarrier

/-- A new barrier with its random token. -/
def new (token : FixedBytes 32) : PeerHistoryBarrier := ⟨bytesToHex token.val, none, none, false, false⟩

def ready (barrier : PeerHistoryBarrier) : Bool := barrier.acked && barrier.received

section

variable {q : ℕ} {G : Type} [AddCommGroup G] [Module (ZMod q) G] (P : Primitives q G)

/-- The marker for a head of the own log. -/
def mark (barrier : PeerHistoryBarrier) (head : SignedEnvelope) : Marker :=
  ⟨.prefix_, barrier.token, head.seq, bytesToHex (P.hashEnvelope head).val⟩

/-- The last marker that was sent names this head. -/
def Announced (barrier : PeerHistoryBarrier) (head : SignedEnvelope) : Prop :=
  ∃ sent, barrier.sent = some sent ∧ sent.seq = head.seq ∧
    sent.hash = bytesToHex (P.hashEnvelope head).val

instance (barrier : PeerHistoryBarrier) (head : SignedEnvelope) :
    Decidable (barrier.Announced P head) :=
  decidable_of_iff (∃ sent ∈ barrier.sent, sent.seq = head.seq ∧
    sent.hash = bytesToHex (P.hashEnvelope head).val) Iff.rfl

/-- `acknowledged`. -/
def acknowledged (barrier : PeerHistoryBarrier) (head : SignedEnvelope) : Bool :=
  barrier.acked && decide (barrier.Announced P head)

/-- `announce`. -/
def announce (barrier : PeerHistoryBarrier) (head : SignedEnvelope) : PeerHistoryBarrier × Payload :=
  if barrier.Announced P head then
    -- an unchanged head is sent again as it was
    (barrier, encode (barrier.sent.getD (barrier.mark P head)))
  else
    ({ barrier with sent := some (barrier.mark P head), acked := false }, encode (barrier.mark P head))

/-- `receive`. -/
def receive (barrier : PeerHistoryBarrier) (payload : Payload) : Except String PeerHistoryBarrier := do
  let value ← decodeMarker payload
  match value.kind with
  | .ack =>
      match barrier.sent with
      | none => return barrier
      | some sent =>
          if value.token = barrier.token ∧ value.seq = sent.seq ∧ value.hash = sent.hash then
            return { barrier with acked := true }
          else return barrier
  | .prefix_ => return { barrier with remote := some value, received := false }

/-- `acknowledge`; `read` gives the admitted envelopes of the peer. -/
def acknowledge (barrier : PeerHistoryBarrier) (read : ℕ → Option SignedEnvelope) :
    Except String (PeerHistoryBarrier × Option Payload) :=
  match barrier.remote with
  | none => return (barrier, none)
  | some remote =>
      if barrier.received = true then return (barrier, none)
      else match read remote.seq with
        | none => return (barrier, none)
        | some artifact => do
            throwIf (bytesToHex (P.hashEnvelope artifact).val ≠ remote.hash)
              "Peer history watermark conflicts with admitted history"
            return ({ barrier with received := true }, some (encode { remote with kind := .ack }))

end

end PeerHistoryBarrier

/-! ## Markers are read back -/

/-- No marker is too long. -/
theorem length_encode_le {marker : Marker} (h : marker.Valid) : (encode marker).length ≤ 512 := by
  have hkind : marker.kind.text.utf8ByteSize ≤ 6 := by
    cases marker.kind <;> decide
  have hdigits : (Nat.toDigits 10 marker.seq).length ≤ 16 := by
    rw [Nat.length_toDigits_le_iff (by norm_num) (by norm_num)]
    have := h.seq
    unfold MAX_SAFE_INTEGER at this
    omega
  have hseq := utf8ByteSize_ofList_le (Nat.toDigits 10 marker.seq)
  have htexts : "\x7b\"kind\":\"".utf8ByteSize = 9 ∧ "\",\"token\":\"".utf8ByteSize = 11 ∧
      "\",\"seq\":".utf8ByteSize = 8 ∧ ",\"hash\":\"".utf8ByteSize = 9 ∧
      "\"\x7d".utf8ByteSize = 2 := by decide
  obtain ⟨h1, h2, h3, h4, h5⟩ := htexts
  simp only [encode, stringify, String.utf8ByteSize_append, utf8ByteSize_hex h.token,
    utf8ByteSize_hex h.hash, h1, h2, h3, h4, h5]
  omega

theorem decodeMarker_encode {marker : Marker} (h : marker.Valid) :
    decodeMarker (encode marker) = .ok marker := by
  have hlength := length_encode_le h
  have hkeys : ",".intercalate (["kind", "token", "seq", "hash"].insertionSort (· ≤ ·))
      = "hash,kind,seq,token" := by decide +kernel
  have hsafe : ¬ ((MAX_SAFE_INTEGER : ℤ) < |(marker.seq : ℤ)|) := by
    have := h.seq
    rw [Nat.abs_cast]
    omega
  unfold decodeMarker
  have hform : ¬ (512 < (encode marker).length ∨ (encode marker).first ≠ some 0) := by
    rintro (hlong | hfirst)
    · omega
    · exact hfirst rfl
  rw [throwIf_neg hform, ok_bind]
  have hfields : ¬ ((marker.kind.text ≠ "prefix" ∧ marker.kind.text ≠ "ack") ∨
      (MAX_SAFE_INTEGER : ℤ) < |(marker.seq : ℤ)| ∨ (marker.seq : ℤ) < 0 ∨
      isHex64 marker.hash = false ∨ isHex64 marker.token = false) := by
    rw [h.hash, h.token]
    rintro (hkind | hlarge | hnegative | hhash | htoken)
    · cases hkind' : marker.kind <;> simp [hkind', MarkerKind.text] at hkind
    · exact hsafe hlarge
    · omega
    · cases hhash
    · cases htoken
  have hkind : (if marker.kind.text = "ack" then MarkerKind.ack else .prefix_) = marker.kind := by
    cases marker.kind <;> simp [MarkerKind.text]
  simp only [encode, List.map_cons, List.map_nil]
  rw [throwIf_neg (not_not.2 hkeys), ok_bind]
  simp only [List.lookup, String.reduceBEq]
  rw [throwIf_neg hfields, ok_bind, hkind, Int.toNat_natCast]
  rfl

theorem encode_inj {marker marker' : Marker} (h : marker.Valid) (h' : marker'.Valid)
    (heq : encode marker = encode marker') : marker = marker' := by
  have hdecoded := congrArg decodeMarker heq
  rw [decodeMarker_encode h, decodeMarker_encode h'] at hdecoded
  exact Except.ok.inj hdecoded

/-! ## What a message can change -/

namespace PeerHistoryBarrier

variable {q : ℕ} {G : Type} [AddCommGroup G] [Module (ZMod q) G] {P : Primitives q G}
  {barrier barrier' : PeerHistoryBarrier} {payload : Payload} {marker : Marker}

/-- The acknowledgement of what was sent last. -/
def Acks (barrier : PeerHistoryBarrier) (marker : Marker) : Prop :=
  marker.kind = .ack ∧ marker.token = barrier.token ∧
    ∃ sent, barrier.sent = some sent ∧ marker.seq = sent.seq ∧ marker.hash = sent.hash

theorem receive_prefix (h : decodeMarker payload = .ok marker) (hkind : marker.kind = .prefix_) :
    barrier.receive payload = .ok { barrier with remote := some marker, received := false } := by
  unfold receive
  rw [h, ok_bind, hkind]
  rfl

theorem receive_ack (h : decodeMarker payload = .ok marker) (hacks : barrier.Acks marker) :
    barrier.receive payload = .ok { barrier with acked := true } := by
  obtain ⟨hkind, htoken, sent, hsent, hseq, hhash⟩ := hacks
  unfold receive
  rw [h, ok_bind, hkind, hsent]
  simp only
  rw [if_pos ⟨htoken, hseq, hhash⟩]
  rfl

/-- **Any other acknowledgement does not count.** -/
theorem receive_other (h : decodeMarker payload = .ok marker) (hkind : marker.kind = .ack)
    (hacks : ¬ barrier.Acks marker) : barrier.receive payload = .ok barrier := by
  unfold receive
  rw [h, ok_bind, hkind]
  cases hsent : barrier.sent with
  | none => rfl
  | some sent =>
      simp only
      rw [if_neg fun hsame => hacks ⟨hkind, hsame.1, sent, hsent, hsame.2⟩]
      rfl

theorem decode_of_receive (h : barrier.receive payload = .ok barrier') :
    ∃ marker, decodeMarker payload = .ok marker := by
  unfold receive at h
  obtain ⟨marker, hmarker, -⟩ := bind_eq_ok.1 h
  exact ⟨marker, hmarker⟩

theorem announce_same {head : SignedEnvelope} (h : barrier.Announced P head) :
    ∃ sent, barrier.sent = some sent ∧ barrier.announce P head = (barrier, encode sent) := by
  unfold announce
  rw [if_pos h]
  obtain ⟨sent, hsent, -⟩ := h
  exact ⟨sent, hsent, by rw [hsent]; rfl⟩

theorem announce_new {head : SignedEnvelope} (h : ¬ barrier.Announced P head) :
    barrier.announce P head = ({ barrier with sent := some (barrier.mark P head), acked := false },
      encode (barrier.mark P head)) := if_neg h

/-- What `acknowledge` does when it does not throw. -/
theorem acknowledge_eq_ok {read : ℕ → Option SignedEnvelope} {reply : Option Payload}
    (h : barrier.acknowledge P read = .ok (barrier', reply)) :
    (barrier' = barrier ∧ reply = none ∧ (barrier.received = true ∨
      ∀ remote, barrier.remote = some remote → read remote.seq = none)) ∨
    ∃ remote artifact, barrier.remote = some remote ∧ read remote.seq = some artifact ∧
      bytesToHex (P.hashEnvelope artifact).val = remote.hash ∧
      barrier' = { barrier with received := true } ∧
      reply = some (encode { remote with kind := .ack }) := by
  unfold acknowledge at h
  cases hremote : barrier.remote with
  | none =>
      rw [hremote] at h
      cases h
      exact .inl ⟨rfl, rfl, .inr fun remote hremote => by cases hremote⟩
  | some remote =>
      rw [hremote] at h
      simp only at h
      by_cases hreceived : barrier.received = true
      · rw [if_pos hreceived] at h
        cases h
        exact .inl ⟨rfl, rfl, .inl hreceived⟩
      · rw [if_neg hreceived] at h
        cases hread : read remote.seq with
        | none =>
            rw [hread] at h
            cases h
            refine .inl ⟨rfl, rfl, .inr fun other hother => ?_⟩
            rw [← Option.some.inj hother, hread]
        | some artifact =>
            rw [hread] at h
            obtain ⟨hhash, h⟩ := check_bind_eq_ok.1 h
            cases h
            exact .inr ⟨remote, artifact, rfl, hread, not_not.1 (throwIf_eq_ok.1 hhash), rfl, rfl⟩

/-- It throws only when another envelope was admitted. -/
theorem acknowledge_error {read : ℕ → Option SignedEnvelope} {error : String}
    (h : barrier.acknowledge P read = .error error) :
    ∃ remote artifact, barrier.remote = some remote ∧ read remote.seq = some artifact ∧
      bytesToHex (P.hashEnvelope artifact).val ≠ remote.hash := by
  unfold acknowledge at h
  cases hremote : barrier.remote with
  | none =>
      rw [hremote] at h
      cases h
  | some remote =>
      rw [hremote] at h
      simp only at h
      split at h
      next => cases h
      next =>
        cases hread : read remote.seq with
        | none =>
            rw [hread] at h
            cases h
        | some artifact =>
            rw [hread] at h
            refine ⟨remote, artifact, rfl, hread, fun hsame => ?_⟩
            simp only [throwIf_neg (not_not.2 hsame), ok_bind] at h
            cases h

end PeerHistoryBarrier

/-! ## Two endpoints -/

inductive Endpoint where
  | a | b
  deriving DecidableEq, Repr

def Endpoint.other : Endpoint → Endpoint
  | .a => .b
  | .b => .a

@[simp] theorem Endpoint.other_other (x : Endpoint) : x.other.other = x := by cases x <;> rfl

theorem Endpoint.other_ne (x : Endpoint) : x.other ≠ x := by cases x <;> decide

theorem Endpoint.eq_or_eq_other (x y : Endpoint) : x = y ∨ x = y.other := by
  cases x <;> cases y <;> decide

@[simp] theorem update_other {α : Type} (f : Endpoint → α) (x : Endpoint) (v : α) :
    Function.update f x v x.other = f x.other := Function.update_of_ne x.other_ne _ _

@[simp] theorem update_of_other {α : Type} (f : Endpoint → α) (x : Endpoint) (v : α) :
    Function.update f x.other v x = f x := Function.update_of_ne x.other_ne.symm _ _

/-- Two endpoints and the messages between them. -/
structure BarrierState where
  barrier : Endpoint → PeerHistoryBarrier
  /-- what an endpoint has signed -/
  log : Endpoint → List SignedEnvelope
  /-- what it has admitted of the log of the other -/
  copy : Endpoint → List SignedEnvelope
  /-- the messages on their way to it, the next one first -/
  inbox : Endpoint → List Payload
  /-- it has called `acknowledge` since its last message and its last admission -/
  called : Endpoint → Bool

def BarrierState.initial (token : Endpoint → FixedBytes 32) : BarrierState where
  barrier x := .new (token x)
  log _ := []
  copy _ := []
  inbox _ := []
  called _ := false

section

variable {q : ℕ} {G : Type} [AddCommGroup G] [Module (ZMod q) G] (P : Primitives q G)
  (key : Endpoint → IdentityPublicKey)

/-- One step of an endpoint. -/
inductive BarrierStep : BarrierState → BarrierState → Prop
  /-- it signs another envelope -/
  | sign {s : BarrierState} {x : Endpoint} {e : SignedEnvelope}
      (linked : Linked P (key x) (s.log x ++ [e])) (safe : e.seq ≤ MAX_SAFE_INTEGER) :
      BarrierStep s { s with log := Function.update s.log x (s.log x ++ [e]) }
  /-- its chain of the other accepts an envelope, whoever has sent it -/
  | admitted {s : BarrierState} {x : Endpoint} {e : SignedEnvelope}
      (linked : Linked P (key x.other) (s.copy x ++ [e])) :
      BarrierStep s { s with copy := Function.update s.copy x (s.copy x ++ [e])
                             called := Function.update s.called x false }
  /-- it announces an envelope of its log -/
  | announce {s : BarrierState} {x : Endpoint} {head : SignedEnvelope} (held : head ∈ s.log x) :
      BarrierStep s { s with
        barrier := Function.update s.barrier x ((s.barrier x).announce P head).1
        inbox := Function.update s.inbox x.other
          (s.inbox x.other ++ [((s.barrier x).announce P head).2]) }
  /-- its next message arrives -/
  | receive {s : BarrierState} {x : Endpoint} {payload : Payload} {rest : List Payload}
      {barrier : PeerHistoryBarrier} (next : s.inbox x = payload :: rest)
      (received : (s.barrier x).receive payload = .ok barrier) :
      BarrierStep s { s with barrier := Function.update s.barrier x barrier
                             inbox := Function.update s.inbox x rest
                             called := Function.update s.called x false }
  /-- its next message is refused -/
  | refuse {s : BarrierState} {x : Endpoint} {payload : Payload} {rest : List Payload} {error : String}
      (next : s.inbox x = payload :: rest) (refused : (s.barrier x).receive payload = .error error) :
      BarrierStep s { s with inbox := Function.update s.inbox x rest
                             called := Function.update s.called x false }
  /-- it acknowledges, or has nothing to acknowledge -/
  | acknowledge {s : BarrierState} {x : Endpoint} {barrier : PeerHistoryBarrier}
      {reply : Option Payload}
      (replied : (s.barrier x).acknowledge P (fun seq => (s.copy x)[seq]?) = .ok (barrier, reply)) :
      BarrierStep s { s with
        barrier := Function.update s.barrier x barrier
        inbox := Function.update s.inbox x.other (s.inbox x.other ++ reply.toList)
        called := Function.update s.called x true }
  /-- `acknowledge` throws -/
  | conflict {s : BarrierState} {x : Endpoint} {error : String}
      (thrown : (s.barrier x).acknowledge P (fun seq => (s.copy x)[seq]?) = .error error) :
      BarrierStep s { s with called := Function.update s.called x true }

/-- The states of the runs with these tokens. -/
inductive BarrierReachable (token : Endpoint → FixedBytes 32) : BarrierState → Prop
  | initial : BarrierReachable token (.initial token)
  | step {s s' : BarrierState} (before : BarrierReachable token s) (step : BarrierStep P key s s') :
      BarrierReachable token s'

/-! ## One direction -/

/-- What concerns the announcements of one endpoint. -/
structure Direction where
  token : String
  sent : Option Marker
  acked : Bool
  remote : Option Marker
  received : Bool
  log : List SignedEnvelope
  copy : List SignedEnvelope
  inbox : List Payload
  replies : List Payload
  called : Bool

def BarrierState.direction (s : BarrierState) (x : Endpoint) : Direction where
  token := (s.barrier x).token
  sent := (s.barrier x).sent
  acked := (s.barrier x).acked
  remote := (s.barrier x.other).remote
  received := (s.barrier x.other).received
  log := s.log x
  copy := s.copy x.other
  inbox := s.inbox x.other
  replies := s.inbox x
  called := s.called x.other

/-- The marker names an envelope of the log. -/
def HeadOf (log : List SignedEnvelope) (marker : Marker) : Prop :=
  ∃ e, log[marker.seq]? = some e ∧ bytesToHex (P.hashEnvelope e).val = marker.hash

/-- The marker of a payload, if it is an announcement. -/
def announcementOf (payload : Payload) : Option Marker :=
  match decodeMarker payload with
  | .ok marker => if marker.kind = .prefix_ then some marker else none
  | .error _ => none

/-- What one direction keeps. -/
structure Direction.Inv (sender : IdentityPublicKey) (d : Direction) : Prop where
  linked : Linked P sender d.log
  copied : Linked P sender d.copy
  safe : ∀ e ∈ d.log, e.seq ≤ MAX_SAFE_INTEGER
  token : isHex64 d.token = true
  inbox : ∀ payload ∈ d.inbox, ∃ marker : Marker, marker.Valid ∧ payload = encode marker ∧
    (marker.kind = .prefix_ → HeadOf P d.log marker)
  replies : ∀ payload ∈ d.replies, ∃ marker : Marker, marker.Valid ∧ payload = encode marker ∧
    (marker.kind = .ack → HeadOf P d.copy marker)
  sent : ∀ marker, d.sent = some marker →
    marker.Valid ∧ marker.kind = .prefix_ ∧ marker.token = d.token ∧ HeadOf P d.log marker
  remote : ∀ marker, d.remote = some marker →
    marker.Valid ∧ marker.kind = .prefix_ ∧ HeadOf P d.log marker
  /-- the last announcement on its way, or else the last that arrived, is the last that was sent -/
  flight : (d.inbox.filterMap announcementOf).getLast?.or d.remote = d.sent
  acked : d.acked = true → ∃ marker, d.sent = some marker ∧ HeadOf P d.copy marker
  received : d.received = true → ∃ marker, d.remote = some marker ∧ HeadOf P d.copy marker
  /-- an acknowledgement is not lost -/
  counted : d.inbox.filterMap announcementOf = [] → d.received = true →
    d.acked = true ∨ ∃ marker, d.sent = some marker ∧ encode { marker with kind := .ack } ∈ d.replies
  called : d.called = true → d.received = true ∨ ∀ marker e, d.remote = some marker →
    d.copy[marker.seq]? = some e → bytesToHex (P.hashEnvelope e).val ≠ marker.hash

variable {P} {key}

section

variable {sender : IdentityPublicKey} {d : Direction} {marker : Marker} {e : SignedEnvelope}

omit [AddCommGroup G] [Module (ZMod q) G] in
theorem Marker.Valid.ack (h : marker.Valid) : ({ marker with kind := .ack } : Marker).Valid :=
  ⟨h.token, h.seq, h.hash⟩

theorem announcementOf_prefixMarker (h : marker.Valid) (hkind : marker.kind = .prefix_) :
    announcementOf (encode marker) = some marker := by
  unfold announcementOf
  rw [decodeMarker_encode h]
  exact if_pos hkind

theorem announcementOf_ack (h : marker.Valid) (hkind : marker.kind = .ack) :
    announcementOf (encode marker) = none := by
  unfold announcementOf
  rw [decodeMarker_encode h]
  exact if_neg (by rw [hkind]; decide)

theorem HeadOf.snoc {log : List SignedEnvelope} (h : HeadOf P log marker) (e : SignedEnvelope) :
    HeadOf P (log ++ [e]) marker := by
  obtain ⟨held, hheld, hhash⟩ := h
  have hlt := (List.getElem?_eq_some_iff.1 hheld).1
  exact ⟨held, by rw [List.getElem?_append_left hlt]; exact hheld, hhash⟩

/-- A marker of the log is valid. -/
theorem headOf_mark {barrier : PeerHistoryBarrier} {log : List SignedEnvelope}
    (hlinked : Linked P sender log) (hsafe : ∀ e ∈ log, e.seq ≤ MAX_SAFE_INTEGER)
    (htoken : isHex64 barrier.token = true) (he : e ∈ log) :
    (barrier.mark P e).Valid ∧ HeadOf P log (barrier.mark P e) := by
  obtain ⟨index, hindex⟩ := List.mem_iff_getElem?.1 he
  have hseq := (hlinked.getElem? hindex).2.1
  exact ⟨⟨htoken, hsafe e he, isHex64_bytesToHex _⟩, e, by rw [← hindex, ← hseq]; rfl, rfl⟩

namespace Direction.Inv

theorem signed (h : d.Inv P sender) (hlinked : Linked P sender (d.log ++ [e]))
    (hsafe : e.seq ≤ MAX_SAFE_INTEGER) : ({ d with log := d.log ++ [e] } : Direction).Inv P sender :=
  { h with
    linked := hlinked
    safe := by
      intro e' he'
      rcases List.mem_append.1 he' with he' | he'
      · exact h.safe e' he'
      · rwa [List.mem_singleton.1 he']
    inbox := fun payload hpayload =>
      let ⟨marker, hvalid, hencode, hhead⟩ := h.inbox payload hpayload
      ⟨marker, hvalid, hencode, fun hkind => (hhead hkind).snoc e⟩
    sent := fun marker hsent =>
      let ⟨hvalid, hkind, htoken, hhead⟩ := h.sent marker hsent
      ⟨hvalid, hkind, htoken, hhead.snoc e⟩
    remote := fun marker hremote =>
      let ⟨hvalid, hkind, hhead⟩ := h.remote marker hremote
      ⟨hvalid, hkind, hhead.snoc e⟩ }

theorem admitted (h : d.Inv P sender) (hlinked : Linked P sender (d.copy ++ [e])) :
    ({ d with copy := d.copy ++ [e], called := false } : Direction).Inv P sender :=
  { h with
    copied := hlinked
    replies := fun payload hpayload =>
      let ⟨marker, hvalid, hencode, hhead⟩ := h.replies payload hpayload
      ⟨marker, hvalid, hencode, fun hkind => (hhead hkind).snoc e⟩
    acked := fun hacked =>
      let ⟨marker, hsent, hhead⟩ := h.acked hacked
      ⟨marker, hsent, hhead.snoc e⟩
    received := fun hreceived =>
      let ⟨marker, hremote, hhead⟩ := h.received hreceived
      ⟨marker, hremote, hhead.snoc e⟩
    called := fun hcalled => by cases hcalled }

/-- The sender announces. -/
theorem announced (h : d.Inv P sender) (acked : Bool) (hvalid : marker.Valid)
    (hkind : marker.kind = .prefix_) (htoken : marker.token = d.token)
    (hhead : HeadOf P d.log marker) (hacked : acked = true → d.acked = true ∧ d.sent = some marker) :
    ({ d with sent := some marker, acked := acked, inbox := d.inbox ++ [encode marker] } :
      Direction).Inv P sender :=
  { h with
    inbox := by
      intro payload hpayload
      rcases List.mem_append.1 hpayload with hpayload | hpayload
      · exact h.inbox payload hpayload
      · exact ⟨marker, hvalid, List.mem_singleton.1 hpayload, fun _ => hhead⟩
    sent := by
      rintro _ ⟨⟩
      exact ⟨hvalid, hkind, htoken, hhead⟩
    flight := by
      simp [announcementOf_prefixMarker hvalid hkind]
    acked := by
      intro htrue
      obtain ⟨hbefore, hsent⟩ := hacked htrue
      obtain ⟨marker', hsent', hcopy⟩ := h.acked hbefore
      rw [hsent] at hsent'
      exact ⟨marker, rfl, by rwa [Option.some.inj hsent']⟩
    counted := by
      intro hnone
      simp [announcementOf_prefixMarker hvalid hkind] at hnone }

/-- The receiver announces in its own direction. -/
theorem crossed (h : d.Inv P sender) (hvalid : marker.Valid) (hkind : marker.kind = .prefix_) :
    ({ d with replies := d.replies ++ [encode marker] } : Direction).Inv P sender :=
  { h with
    replies := by
      intro payload hpayload
      rcases List.mem_append.1 hpayload with hpayload | hpayload
      · exact h.replies payload hpayload
      · exact ⟨marker, hvalid, List.mem_singleton.1 hpayload, fun hack => by rw [hkind] at hack; cases hack⟩
    counted := by
      intro hnone hreceived
      rcases h.counted hnone hreceived with hacked | ⟨sent, hsent, hreply⟩
      · exact .inl hacked
      · exact .inr ⟨sent, hsent, List.mem_append_left _ hreply⟩ }

/-- The sender acknowledges in the other direction. -/
theorem passed (h : d.Inv P sender) (hvalid : marker.Valid) (hkind : marker.kind = .ack) :
    ({ d with inbox := d.inbox ++ [encode marker] } : Direction).Inv P sender := by
  have hsame : (d.inbox ++ [encode marker]).filterMap announcementOf =
      d.inbox.filterMap announcementOf := by
    simp [announcementOf_ack hvalid hkind]
  exact
  { h with
    inbox := by
      intro payload hpayload
      rcases List.mem_append.1 hpayload with hpayload | hpayload
      · exact h.inbox payload hpayload
      · exact ⟨marker, hvalid, List.mem_singleton.1 hpayload, fun hack => by rw [hkind] at hack; cases hack⟩
    flight := by
      rw [hsame]
      exact h.flight
    counted := by
      rw [hsame]
      exact h.counted }

/-- The receiver acknowledges. -/
theorem replied (h : d.Inv P sender) (hremote : d.remote = some marker)
    (hhead : HeadOf P d.copy marker) :
    ({ d with received := true, replies := d.replies ++ [encode { marker with kind := .ack }],
              called := true } : Direction).Inv P sender := by
  obtain ⟨hvalid, hkind, hlog⟩ := h.remote marker hremote
  exact
  { h with
    replies := by
      intro payload hpayload
      rcases List.mem_append.1 hpayload with hpayload | hpayload
      · exact h.replies payload hpayload
      · exact ⟨_, hvalid.ack, List.mem_singleton.1 hpayload, fun _ => hhead⟩
    received := fun _ => ⟨marker, hremote, hhead⟩
    counted := by
      intro hnone _
      -- no announcement is on its way, so what is acknowledged is what was sent last
      have hsent := h.flight
      simp only at hnone
      rw [hnone, hremote] at hsent
      exact .inr ⟨marker, hsent.symm, List.mem_append_right _ (List.mem_singleton.2 rfl)⟩
    called := fun _ => .inl rfl }

/-- The receiver has nothing to acknowledge. -/
theorem idle (h : d.Inv P sender) (hcalled : d.received = true ∨ ∀ marker e,
    d.remote = some marker → d.copy[marker.seq]? = some e →
      bytesToHex (P.hashEnvelope e).val ≠ marker.hash) :
    ({ d with called := true } : Direction).Inv P sender :=
  { h with called := fun _ => hcalled }

/-- A message to the sender arrives that does not acknowledge what it sent last. -/
theorem ignored (h : d.Inv P sender) {rest : List Payload} (hnext : d.replies = encode marker :: rest)
    (hvalid : marker.Valid) (hother : ¬ (marker.kind = .ack ∧ marker.token = d.token ∧
      ∃ sent, d.sent = some sent ∧ marker.seq = sent.seq ∧ marker.hash = sent.hash)) :
    ({ d with replies := rest } : Direction).Inv P sender :=
  { h with
    replies := fun payload hpayload => h.replies payload (hnext ▸ List.mem_cons_of_mem _ hpayload)
    counted := by
      intro hnone hreceived
      rcases h.counted hnone hreceived with hacked | ⟨sent, hsent, hreply⟩
      · exact .inl hacked
      · rw [hnext] at hreply
        rcases List.mem_cons.1 hreply with hsame | hreply
        · obtain ⟨hsentValid, -, htoken, -⟩ := h.sent sent hsent
          have hmarker : marker = { sent with kind := .ack } :=
            (encode_inj hsentValid.ack hvalid hsame).symm
          exact absurd ⟨by rw [hmarker], by rw [hmarker]; exact htoken, sent, hsent,
            by rw [hmarker], by rw [hmarker]⟩ hother
        · exact .inr ⟨sent, hsent, hreply⟩ }

/-- The acknowledgement of what was sent last arrives. -/
theorem acknowledged (h : d.Inv P sender) {rest : List Payload}
    (hnext : d.replies = encode marker :: rest) (hvalid : marker.Valid) (hkind : marker.kind = .ack)
    {sent : Marker} (hsent : d.sent = some sent) (hseq : marker.seq = sent.seq)
    (hhash : marker.hash = sent.hash) :
    ({ d with acked := true, replies := rest } : Direction).Inv P sender :=
  { h with
    replies := fun payload hpayload => h.replies payload (hnext ▸ List.mem_cons_of_mem _ hpayload)
    acked := by
      intro _
      obtain ⟨marker', hvalid', hencode, hhead⟩ :=
        h.replies (encode marker) (hnext ▸ List.mem_cons_self)
      have hmarker : marker = marker' := encode_inj hvalid hvalid' hencode
      obtain ⟨e, he, hehash⟩ := hhead (hmarker ▸ hkind)
      rw [← hmarker] at he hehash
      exact ⟨sent, hsent, e, hseq ▸ he, hehash.trans hhash⟩
    counted := fun _ _ => .inl rfl }

/-- An announcement arrives. -/
theorem arrived (h : d.Inv P sender) {rest : List Payload} (hnext : d.inbox = encode marker :: rest)
    (hvalid : marker.Valid) (hkind : marker.kind = .prefix_) :
    ({ d with remote := some marker, received := false, inbox := rest, called := false } :
      Direction).Inv P sender :=
  { h with
    inbox := fun payload hpayload => h.inbox payload (hnext ▸ List.mem_cons_of_mem _ hpayload)
    remote := by
      rintro _ ⟨⟩
      obtain ⟨marker', hvalid', hencode, hhead⟩ := h.inbox (encode marker) (hnext ▸ List.mem_cons_self)
      have hmarker : marker = marker' := encode_inj hvalid hvalid' hencode
      exact ⟨hvalid, hkind, hmarker ▸ hhead (hmarker ▸ hkind)⟩
    flight := by
      have hflight := h.flight
      rw [hnext, List.filterMap_cons, announcementOf_prefixMarker hvalid hkind] at hflight
      rw [← hflight]
      cases hrest : (rest.filterMap announcementOf) with
      | nil => simp
      | cons first others => simp [List.getLast?_cons]
    received := fun hreceived => by cases hreceived
    counted := fun _ hreceived => by cases hreceived
    called := fun hcalled => by cases hcalled }

/-- A message to the receiver arrives that belongs to the other direction. -/
theorem skipped (h : d.Inv P sender) {rest : List Payload} (hnext : d.inbox = encode marker :: rest)
    (hvalid : marker.Valid) (hkind : marker.kind = .ack) :
    ({ d with inbox := rest, called := false } : Direction).Inv P sender := by
  have hsame : d.inbox.filterMap announcementOf = rest.filterMap announcementOf := by
    rw [hnext, List.filterMap_cons, announcementOf_ack hvalid hkind]
  exact
  { h with
    inbox := fun payload hpayload => h.inbox payload (hnext ▸ List.mem_cons_of_mem _ hpayload)
    flight := hsame ▸ h.flight
    counted := fun hnone hreceived => h.counted (hsame.trans hnone) hreceived
    called := fun hcalled => by cases hcalled }

end Direction.Inv

end

/-! ## Runs of the two endpoints -/

theorem direction_initial (token : Endpoint → FixedBytes 32) (x : Endpoint) :
    ((BarrierState.initial token).direction x).Inv P (key x) where
  linked := linked_nil
  copied := linked_nil
  safe e he := by cases he
  token := isHex64_bytesToHex _
  inbox payload hpayload := by cases hpayload
  replies payload hpayload := by cases hpayload
  sent marker hsent := by cases hsent
  remote marker hremote := by cases hremote
  flight := rfl
  acked hacked := by cases hacked
  received hreceived := by cases hreceived
  counted _ hreceived := by cases hreceived
  called hcalled := by cases hcalled

/-- A message keeps both directions; the one it belongs to notices it. -/
theorem receive_inv {s : BarrierState} {x : Endpoint} {payload : Payload} {rest : List Payload}
    {barrier : PeerHistoryBarrier} (h : ∀ x, (s.direction x).Inv P (key x))
    (next : s.inbox x = payload :: rest) (received : (s.barrier x).receive payload = .ok barrier)
    (y : Endpoint) : (BarrierState.direction { s with
      barrier := Function.update s.barrier x barrier
      inbox := Function.update s.inbox x rest
      called := Function.update s.called x false } y).Inv P (key y) := by
  have hnext : (s.direction x).replies = payload :: rest := next
  have hnext' : (s.direction x.other).inbox = payload :: rest := by
    simpa [BarrierState.direction] using next
  obtain ⟨marker, hvalid, rfl, -⟩ := (h x).replies payload (hnext ▸ List.mem_cons_self)
  have hdecoded := decodeMarker_encode hvalid
  cases hkind : marker.kind with
  | ack =>
      by_cases hacks : (s.barrier x).Acks marker
      · rw [PeerHistoryBarrier.receive_ack hdecoded hacks] at received
        cases received
        obtain ⟨-, -, sent, hsent, hseq, hhash⟩ := hacks
        obtain rfl | rfl := y.eq_or_eq_other x
        · simpa [BarrierState.direction] using
            (h y).acknowledged hnext hvalid hkind hsent hseq hhash
        · simpa [BarrierState.direction] using (h x.other).skipped hnext' hvalid hkind
      · rw [PeerHistoryBarrier.receive_other hdecoded hkind hacks] at received
        cases received
        obtain rfl | rfl := y.eq_or_eq_other x
        · simpa [BarrierState.direction] using (h y).ignored hnext hvalid hacks
        · simpa [BarrierState.direction] using (h x.other).skipped hnext' hvalid hkind
  | prefix_ =>
      rw [PeerHistoryBarrier.receive_prefix hdecoded hkind] at received
      cases received
      obtain rfl | rfl := y.eq_or_eq_other x
      · have hother : ¬ (s.barrier y).Acks marker := fun hacks => by
          rw [hacks.1] at hkind
          cases hkind
        simpa [BarrierState.direction] using (h y).ignored hnext hvalid hother
      · simpa [BarrierState.direction] using (h x.other).arrived hnext' hvalid hkind

theorem acknowledge_inv {s : BarrierState} {x : Endpoint} {barrier : PeerHistoryBarrier}
    {reply : Option Payload} (h : ∀ x, (s.direction x).Inv P (key x))
    (replied : (s.barrier x).acknowledge P (fun seq => (s.copy x)[seq]?) = .ok (barrier, reply))
    (y : Endpoint) : (BarrierState.direction { s with
      barrier := Function.update s.barrier x barrier
      inbox := Function.update s.inbox x.other (s.inbox x.other ++ reply.toList)
      called := Function.update s.called x true } y).Inv P (key y) := by
  rcases PeerHistoryBarrier.acknowledge_eq_ok replied with
    ⟨rfl, rfl, hidle⟩ | ⟨remote, artifact, hremote, hread, hhash, rfl, rfl⟩
  · obtain rfl | rfl := y.eq_or_eq_other x
    · simpa [BarrierState.direction] using h y
    · have hcalled : (s.direction x.other).received = true ∨ ∀ marker e,
          (s.direction x.other).remote = some marker →
          (s.direction x.other).copy[marker.seq]? = some e →
            bytesToHex (P.hashEnvelope e).val ≠ marker.hash := by
        simp only [BarrierState.direction, Endpoint.other_other]
        refine hidle.imp id fun hnone marker e hmarker he => ?_
        rw [hnone marker hmarker] at he
        cases he
      simpa [BarrierState.direction] using (h x.other).idle hcalled
  · have hremote' : (s.direction x.other).remote = some remote := by
      simpa [BarrierState.direction] using hremote
    have hhead : HeadOf P (s.direction x.other).copy remote := by
      refine ⟨artifact, ?_, hhash⟩
      simpa [BarrierState.direction] using hread
    obtain rfl | rfl := y.eq_or_eq_other x
    · simpa [BarrierState.direction] using
        (h y).passed ((h y.other).remote remote hremote').1.ack rfl
    · simpa [BarrierState.direction] using (h x.other).replied hremote' hhead

theorem announce_inv {s : BarrierState} {x : Endpoint} {head : SignedEnvelope}
    (h : ∀ x, (s.direction x).Inv P (key x)) (held : head ∈ s.log x) (y : Endpoint) :
    (BarrierState.direction { s with
      barrier := Function.update s.barrier x ((s.barrier x).announce P head).1
      inbox := Function.update s.inbox x.other
        (s.inbox x.other ++ [((s.barrier x).announce P head).2]) } y).Inv P (key y) := by
  by_cases hsame : (s.barrier x).Announced P head
  · obtain ⟨sent, hsent, hannounce⟩ := PeerHistoryBarrier.announce_same hsame
    obtain ⟨hvalid, hkind, htoken, hhead⟩ := (h x).sent sent hsent
    rw [hannounce]
    obtain rfl | rfl := y.eq_or_eq_other x
    · have := (h y).announced (s.barrier y).acked hvalid hkind htoken hhead
        fun hacked => ⟨hacked, hsent⟩
      simpa [BarrierState.direction, hsent] using this
    · simpa [BarrierState.direction] using (h x.other).crossed hvalid hkind
  · obtain ⟨hvalid, hhead⟩ := headOf_mark (h x).linked (h x).safe (h x).token held
    rw [PeerHistoryBarrier.announce_new hsame]
    obtain rfl | rfl := y.eq_or_eq_other x
    · have := (h y).announced false hvalid rfl rfl hhead fun hacked => by cases hacked
      simpa [BarrierState.direction] using this
    · simpa [BarrierState.direction] using (h x.other).crossed hvalid rfl

/-- **Every step keeps both directions.** -/
theorem step_inv {s s' : BarrierState} (h : ∀ x, (s.direction x).Inv P (key x))
    (hstep : BarrierStep P key s s') (y : Endpoint) : (s'.direction y).Inv P (key y) := by
  cases hstep with
  | @sign x e linked safe =>
      obtain rfl | rfl := y.eq_or_eq_other x
      · simpa [BarrierState.direction] using (h y).signed linked safe
      · simpa [BarrierState.direction] using h x.other
  | @admitted x e linked =>
      obtain rfl | rfl := y.eq_or_eq_other x
      · simpa [BarrierState.direction] using h y
      · have hlinked : Linked P (key x.other) ((s.direction x.other).copy ++ [e]) := by
          simpa [BarrierState.direction] using linked
        simpa [BarrierState.direction] using (h x.other).admitted hlinked
  | announce held => exact announce_inv h held y
  | receive next received => exact receive_inv h next received y
  | @refuse x payload rest error next refused =>
      -- what is on its way is a marker, and no marker is refused
      obtain ⟨marker, hvalid, rfl, -⟩ := (h x).replies payload
        (show payload ∈ s.inbox x from next ▸ List.mem_cons_self)
      have hdecoded := decodeMarker_encode hvalid
      exfalso
      cases hkind : marker.kind with
      | prefix_ =>
          rw [PeerHistoryBarrier.receive_prefix hdecoded hkind] at refused
          cases refused
      | ack =>
          by_cases hacks : (s.barrier x).Acks marker
          · rw [PeerHistoryBarrier.receive_ack hdecoded hacks] at refused
            cases refused
          · rw [PeerHistoryBarrier.receive_other hdecoded hkind hacks] at refused
            cases refused
  | acknowledge replied => exact acknowledge_inv h replied y
  | @conflict x error thrown =>
      obtain rfl | rfl := y.eq_or_eq_other x
      · simpa [BarrierState.direction] using h y
      · obtain ⟨remote, artifact, hremote, hread, hhash⟩ :=
          PeerHistoryBarrier.acknowledge_error thrown
        have hcalled : (s.direction x.other).received = true ∨ ∀ marker e,
            (s.direction x.other).remote = some marker →
            (s.direction x.other).copy[marker.seq]? = some e →
              bytesToHex (P.hashEnvelope e).val ≠ marker.hash := by
          simp only [BarrierState.direction, Endpoint.other_other]
          refine .inr fun marker e hmarker he => ?_
          rw [hremote] at hmarker
          cases hmarker
          rw [hread] at he
          cases he
          exact hhash
        simpa [BarrierState.direction] using (h x.other).idle hcalled

theorem reachable_inv {token : Endpoint → FixedBytes 32} {s : BarrierState}
    (h : BarrierReachable P key token s) (x : Endpoint) : (s.direction x).Inv P (key x) := by
  induction h generalizing x with
  | initial => exact direction_initial token x
  | step _ hstep ih => exact step_inv ih hstep x

/-- What an acknowledged head and what a received head say. -/
theorem copy_of_headOf {sender : IdentityPublicKey} {d : Direction} {marker : Marker}
    (h : d.Inv P sender) (hlog : HeadOf P d.log marker) (hcopy : HeadOf P d.copy marker) :
    ∃ own admitted, d.log[marker.seq]? = some own ∧ d.copy[marker.seq]? = some admitted ∧
      bytesToHex (P.hashEnvelope own).val = marker.hash ∧
      P.hashEnvelope admitted = P.hashEnvelope own ∧
      (Set.InjOn P.hashEnvelope {e | e ∈ d.copy ∨ e ∈ d.log} →
        d.copy.take (marker.seq + 1) = d.log.take (marker.seq + 1)) := by
  obtain ⟨own, hown, hownHash⟩ := hlog
  obtain ⟨admitted, hadmitted, hadmittedHash⟩ := hcopy
  have hsame : P.hashEnvelope admitted = P.hashEnvelope own :=
    Subtype.ext (bytesToHex_inj (hadmittedHash.trans hownHash.symm))
  exact ⟨own, admitted, hown, hadmitted, hownHash, hsame, fun hhash =>
    h.copied.take_eq_of_hash h.linked hhash hadmitted hown hsame⟩

/-- Nothing is on its way, and both have acknowledged what they could: both are ready. -/
theorem ready_of_quiet {s : BarrierState} (h : ∀ x, (s.direction x).Inv P (key x))
    (hannounced : ∀ x, ∃ head, (s.log x).getLast? = some head ∧ (s.barrier x).Announced P head ∧
      (s.copy x.other)[head.seq]? = some head)
    (hcalled : ∀ x, s.called x = true) (hquiet : ∀ x, s.inbox x = []) (x : Endpoint) :
    (s.barrier x).ready = true := by
  have hreceived : ∀ x : Endpoint, (s.barrier x.other).received = true := by
    intro x
    obtain ⟨head, -, ⟨sent, hsent, hseq, hhash⟩, hadmitted⟩ := hannounced x
    have hflight := (h x).flight
    have hinbox : (s.direction x).inbox = [] := hquiet x.other
    have hsent' : (s.direction x).sent = some sent := hsent
    rw [hinbox, hsent'] at hflight
    rcases (h x).called (hcalled x.other) with hreceived | hnone
    · exact hreceived
    · exact absurd hhash.symm (hnone sent head hflight (by rw [hseq]; exact hadmitted))
  have hacked : (s.barrier x).acked = true := by
    have hnone : (s.direction x).inbox.filterMap announcementOf = [] := by
      rw [show (s.direction x).inbox = [] from hquiet x.other]
      rfl
    rcases (h x).counted hnone (hreceived x) with hacked | ⟨sent, -, hreply⟩
    · exact hacked
    · rw [show (s.direction x).replies = [] from hquiet x] at hreply
      cases hreply
  have hown := hreceived x.other
  rw [Endpoint.other_other] at hown
  rw [PeerHistoryBarrier.ready, hacked, hown]
  rfl

/-- The barrier is sound.  A head that is reported as acknowledged stands in the own log, and the
other has admitted the log up to it.  A ready barrier has its last announcement acknowledged and
has admitted the last one that it received.  Only the acknowledgement of what was sent last, with
the own token, counts; an announcement that arrives, or a new one that is sent, takes readiness back,
an unchanged one does not.  When both have announced their heads, admitted the other's and called
`acknowledge` since, and no message is on its way, both are ready. -/
theorem history_barrier_sound (P : Primitives q G) (key : Endpoint → IdentityPublicKey)
    (token : Endpoint → FixedBytes 32) :
    (∀ s, BarrierReachable P key token s → ∀ x head, (s.barrier x).acknowledged P head = true →
      ∃ own admitted, (s.log x)[head.seq]? = some own ∧ P.hashEnvelope own = P.hashEnvelope head ∧
        (s.copy x.other)[head.seq]? = some admitted ∧
        P.hashEnvelope admitted = P.hashEnvelope head ∧
        (Set.InjOn P.hashEnvelope {e | e ∈ s.copy x.other ∨ e ∈ s.log x} →
          (s.copy x.other).take (head.seq + 1) = (s.log x).take (head.seq + 1))) ∧
    (∀ s, BarrierReachable P key token s → ∀ x, (s.barrier x).ready = true →
      (∃ head, head ∈ s.log x ∧ (s.barrier x).Announced P head ∧
        (s.barrier x).acknowledged P head = true) ∧
      ∃ marker theirs admitted, (s.barrier x).remote = some marker ∧
        (s.log x.other)[marker.seq]? = some theirs ∧
        bytesToHex (P.hashEnvelope theirs).val = marker.hash ∧
        (s.copy x)[marker.seq]? = some admitted ∧
        P.hashEnvelope admitted = P.hashEnvelope theirs ∧
        (Set.InjOn P.hashEnvelope {e | e ∈ s.copy x ∨ e ∈ s.log x.other} →
          (s.copy x).take (marker.seq + 1) = (s.log x.other).take (marker.seq + 1))) ∧
    (∀ barrier payload barrier', PeerHistoryBarrier.receive barrier payload = .ok barrier' →
      ∃ marker, decodeMarker payload = .ok marker ∧
        ((marker.kind = .ack ∧ barrier.Acks marker ∧ barrier' = { barrier with acked := true }) ∨
          (marker.kind = .ack ∧ ¬ barrier.Acks marker ∧ barrier' = barrier) ∨
          (marker.kind = .prefix_ ∧
            barrier' = { barrier with remote := some marker, received := false }))) ∧
    (∀ barrier head, (PeerHistoryBarrier.announce P barrier head).1.Announced P head ∧
      (barrier.Announced P head → (barrier.announce P head).1 = barrier) ∧
      (¬ barrier.Announced P head → (barrier.announce P head).1 =
        { barrier with sent := some (barrier.mark P head), acked := false })) ∧
    ∀ s, BarrierReachable P key token s →
      (∀ x, ∃ head, (s.log x).getLast? = some head ∧ (s.barrier x).Announced P head ∧
        (s.copy x.other)[head.seq]? = some head) →
      (∀ x, s.called x = true) → (∀ x, s.inbox x = []) → ∀ x, (s.barrier x).ready = true := by
  refine ⟨?_, ?_, ?_, ?_, ?_⟩
  · intro s hs x head hacknowledged
    have hinv := reachable_inv hs x
    rw [PeerHistoryBarrier.acknowledged, Bool.and_eq_true, decide_eq_true_eq] at hacknowledged
    obtain ⟨hacked, sent, hsent, hseq, hhash⟩ := hacknowledged
    obtain ⟨marker, hmarker, hcopy⟩ := hinv.acked hacked
    obtain rfl : sent = marker := Option.some.inj (hsent.symm.trans hmarker)
    obtain ⟨own, admitted, hown, hadmitted, hownHash, hsame, htake⟩ :=
      copy_of_headOf hinv (hinv.sent sent hsent).2.2.2 hcopy
    have hhead : P.hashEnvelope own = P.hashEnvelope head :=
      Subtype.ext (bytesToHex_inj (hownHash.trans hhash))
    rw [hseq] at hown hadmitted htake
    exact ⟨own, admitted, hown, hhead, hadmitted, hsame.trans hhead, htake⟩
  · intro s hs x hready
    rw [PeerHistoryBarrier.ready, Bool.and_eq_true] at hready
    obtain ⟨hacked, hreceived⟩ := hready
    have hinv := reachable_inv hs x
    have hinv' := reachable_inv hs x.other
    constructor
    · obtain ⟨sent, hsent, -⟩ := hinv.acked hacked
      obtain ⟨own, hown, hhash⟩ := (hinv.sent sent hsent).2.2.2
      have hseq := (hinv.linked.getElem? hown).2.1
      have hannounced : (s.barrier x).Announced P own := ⟨sent, hsent, hseq.symm, hhash.symm⟩
      refine ⟨own, List.mem_of_getElem? hown, hannounced, ?_⟩
      rw [PeerHistoryBarrier.acknowledged, hacked, decide_eq_true hannounced]
      rfl
    · have hreceived' : (s.direction x.other).received = true := by
        simpa [BarrierState.direction] using hreceived
      obtain ⟨marker, hremote, hcopy⟩ := hinv'.received hreceived'
      obtain ⟨theirs, admitted, htheirs, hadmitted, hhash, hsame, htake⟩ :=
        copy_of_headOf hinv' (hinv'.remote marker hremote).2.2 hcopy
      simp only [BarrierState.direction, Endpoint.other_other] at hremote htheirs hadmitted htake
      exact ⟨marker, theirs, admitted, hremote, htheirs, hhash, hadmitted, hsame, htake⟩
  · intro barrier payload barrier' hreceive
    obtain ⟨marker, hmarker⟩ := PeerHistoryBarrier.decode_of_receive hreceive
    refine ⟨marker, hmarker, ?_⟩
    cases hkind : marker.kind with
    | prefix_ =>
        rw [PeerHistoryBarrier.receive_prefix hmarker hkind] at hreceive
        exact .inr (.inr ⟨rfl, (Except.ok.inj hreceive).symm⟩)
    | ack =>
        by_cases hacks : barrier.Acks marker
        · rw [PeerHistoryBarrier.receive_ack hmarker hacks] at hreceive
          exact .inl ⟨rfl, hacks, (Except.ok.inj hreceive).symm⟩
        · rw [PeerHistoryBarrier.receive_other hmarker hkind hacks] at hreceive
          exact .inr (.inl ⟨rfl, hacks, (Except.ok.inj hreceive).symm⟩)
  · intro barrier head
    by_cases hsame : barrier.Announced P head
    · obtain ⟨sent, -, hannounce⟩ := PeerHistoryBarrier.announce_same hsame
      rw [hannounce]
      exact ⟨hsame, fun _ => rfl, fun hnew => absurd hsame hnew⟩
    · rw [PeerHistoryBarrier.announce_new hsame]
      exact ⟨⟨_, rfl, rfl, rfl⟩, fun hold => absurd hold hsame, fun _ => rfl⟩
  · intro s hs hannounced hcalled hquiet x
    exact ready_of_quiet (reachable_inv hs) hannounced hcalled hquiet x

end

end Tablefolk
