import Tablefolk.Engine.SetupRecovery
import Tablefolk.Sasku.RoundSession
import Tablefolk.Session.CaptureLimits

/-!
# Recovering a round

The model of `game-sasku/src/round-recovery.ts` and of `PersistentSaskuRoundReceiver.recover`: a
round is rebuilt from the chains of its session, with nothing else to go by.

* `captureSaskuRoundHistory`: what a recovery reads, and what it refuses.
* `SaskuRound.recover`: the round that it builds.
* `recovery_agrees`: at any moment of a run, it builds the round that the receiver has.
-/

namespace Tablefolk

def DEFAULT_MAX_SASKU_RECOVERY_ENVELOPES : ℕ := 1024
def DEFAULT_MAX_SASKU_RECOVERY_BYTES : ℕ := 16 * 1024 * 1024

/-- `SaskuRoundRecoveryLimits`. -/
structure SaskuRoundRecoveryLimits where
  maxEnvelopes : ℕ
  maxBytes : ℕ
  allowOtherRounds : Bool

/-- The limits of a caller who gives none. -/
def SaskuRoundRecoveryLimits.default : SaskuRoundRecoveryLimits :=
  ⟨DEFAULT_MAX_SASKU_RECOVERY_ENVELOPES, DEFAULT_MAX_SASKU_RECOVERY_BYTES, false⟩

/-- The limits of the session history. -/
def SaskuRoundRecoveryLimits.session (limits : SaskuRoundRecoveryLimits) :
    SessionHistoryCaptureLimits := ⟨limits.maxEnvelopes, limits.maxBytes⟩

/-- Whether an envelope belongs to the setup. -/
def isSetupArtifact (e : SignedEnvelope) : Bool :=
  e.type = .KEY_SHARE ∨ e.type = .RAND_COMMIT ∨ e.type = .RAND_REVEAL

/-- The message that ends the setup of a seat. -/
def lastSetupType (beaconRequired : Bool) : EnvelopeMessageType :=
  if beaconRequired then .RAND_REVEAL else .KEY_SHARE

/-- The loop over the history of one seat: its setup, and its traffic of the round. -/
def scanHistory (beaconRequired : Bool) (round : ℕ) (allowOtherRounds : Bool) (revealed : Bool) :
    List SignedEnvelope →
      Except SaskuRoundRecoveryError (List SignedEnvelope × List SignedEnvelope)
  | [] => return ([], [])
  | artifact :: rest =>
      match artifact.type with
      | .KEY_SHARE | .RAND_COMMIT | .RAND_REVEAL => do
          let (setup, traffic) ← scanHistory beaconRequired round allowOtherRounds
            (revealed || artifact.type = lastSetupType beaconRequired) rest
          return (artifact :: setup, traffic)
      | .SHARES | .ACTION | .AUDIT_DISCLOSE => do
          throwIf (allowOtherRounds = false ∧ artifact.round ≠ round ∨ revealed = false ∨
              MAX_ROUND_REVEAL_ENVELOPE_BYTES < artifact.byteLength)
            (SaskuRoundRecoveryError.recovery
              "Invalid Sasku recovery round traffic or setup order")
          let (setup, traffic) ← scanHistory beaconRequired round allowOtherRounds revealed rest
          return (setup, if artifact.round = round then artifact :: traffic else traffic)
      | .SHUFFLE => do
          throwIf (allowOtherRounds = false ∧ artifact.round ≠ round ∨ revealed = false)
            (SaskuRoundRecoveryError.recovery
              "Invalid Sasku recovery shuffle traffic or setup order")
          scanHistory beaconRequired round allowOtherRounds revealed rest
      | .JOIN | .ROSTER | .READY | .WITNESS | .SYNC_REQ | .SYNC_RESP | .TIMEOUT_VOTE
      | .VIOLATION => scanHistory beaconRequired round allowOtherRounds revealed rest

/-- What becomes of an error that is not one of the recovery. -/
def captureFailed : SaskuRoundRecoveryError := .recovery "Could not capture Sasku round history"

section

variable {q : ℕ} {G : Type} [AddCommGroup G] [Module (ZMod q) G] [DecidableEq G]
  {P : Primitives q G}

/-- The loop over the seats: the setup of all of them, and the traffic of each. -/
def scanSeats (setup : SetupEnvelopeCoordinator P) (round : ℕ) (allowOtherRounds : Bool)
    (heads : List ChainHead) (bySeat : ℕ → List SignedEnvelope) : List ℕ →
      Except SaskuRoundRecoveryError (List SignedEnvelope × (ℕ → List SignedEnvelope))
  | [] => return ([], fun _ => [])
  | seat :: rest => do
      match heads[seat]?, (bySeat seat).getLast? with
      | some head, some last =>
          throwIf (last.game ≠ setup.gameId ∨
              last.from_ ≠ setup.roster.seats.getD seat (zeroBytes 32) ∨
              last.seq ≠ head.seq ∨ P.hashEnvelope last ≠ head.hash)
            (SaskuRoundRecoveryError.recovery
              "Sasku recovery history does not match its setup or captured heads")
          let (own, traffic) ←
            scanHistory setup.beaconRequired round allowOtherRounds false (bySeat seat)
          let (others, messages) ← scanSeats setup round allowOtherRounds heads bySeat rest
          return (own ++ others, Function.update messages seat traffic)
      | _, _ => throw captureFailed

/-- The checks on the setup that the transcript leads to. -/
def checkRecoveredSetup (setup : SetupEnvelopeCoordinator P) (transcript : List SignedEnvelope) :
    Except SaskuRoundRecoveryError Unit := do
  let recovered ← (recoverSetup P setup.gameId setup.round setup.roster.seats transcript
    setup.beaconRequired).mapError fun _ => captureFailed
  throwIf (setup.state ≠ .complete ∨ recovered.state ≠ .complete ∨
      setup.setup.aggregateKey = none ∨
      recovered.setup.aggregateKey ≠ setup.setup.aggregateKey ∨
      (setup.beaconRequired = true ∧ (setup.setup.seed = none ∨ recovered.setup.seed = none ∨
        setup.setup.seed ≠ recovered.setup.seed)) ∨
      (setup.beaconRequired = false ∧
        (setup.setup.seed ≠ none ∨ recovered.setup.seed ≠ none)))
    (SaskuRoundRecoveryError.recovery "Sasku recovery setup is incomplete or does not match")
  (List.range 4).forM fun seat => do
    let key ← (setup.publicKeyAt seat).mapError fun _ => captureFailed
    let recoveredKey ← (recovered.publicKeyAt seat).mapError fun _ => captureFailed
    throwIf (key = none ∨ recoveredKey ≠ key)
      (SaskuRoundRecoveryError.recovery "Sasku recovery setup public keys do not match")

/-- `assertUnchanged` of a capture. -/
def assertUnchanged (history : CapturedSessionHistory P) (session : SessionChainRegistry P) :
    Except SaskuRoundRecoveryError Unit :=
  throwIf (¬ history.Unchanged session)
    (.recovery "Could not check Sasku recovery history stability")

/-- `captureSaskuRoundHistory`: the traffic of the round, seat by seat, and the history that it
comes from. -/
def captureSaskuRoundHistory (ed : Ed25519) (setup : SetupEnvelopeCoordinator P)
    (session : SessionChainRegistry P) (round : ℕ) (limits : SaskuRoundRecoveryLimits) :
    Except SaskuRoundRecoveryError
      (CapturedSessionHistory P × (ℕ → List SignedEnvelope)) := do
  throwIf (limits.maxEnvelopes < 1 ∨ MAX_SAFE_INTEGER < limits.maxEnvelopes ∨
      limits.maxBytes < 1 ∨ MAX_SAFE_INTEGER < limits.maxBytes)
    (SaskuRoundRecoveryError.range "Sasku recovery limits must be positive safe integers")
  throwIf (setup.roster.size ≠ 4)
    (SaskuRoundRecoveryError.recovery "Sasku recovery requires four setup seats")
  let heads := session.heads
  throwIf (heads.length ≠ 4)
    (SaskuRoundRecoveryError.recovery "Sasku recovery requires every sender chain")
  throwIf (∃ head ∈ heads.zip setup.roster.seats,
      head.1.from_ ≠ head.2 ∨ MAX_SAFE_INTEGER < head.1.seq)
    (SaskuRoundRecoveryError.recovery "Invalid Sasku recovery heads or seat order")
  let history ← (captureSessionHistory ed session limits.session).mapError fun _ => captureFailed
  throwIf (history.roster.size ≠ 4 ∨ ∃ seat ∈ List.range 4, history.bySeat seat = [])
    (SaskuRoundRecoveryError.recovery "Sasku recovery requires every sender chain")
  let (transcript, bySeat) ←
    scanSeats setup round limits.allowOtherRounds heads history.bySeat (List.range 4)
  checkRecoveredSetup setup transcript
  assertUnchanged history session
  return (history, bySeat)

/-- How many messages are left. -/
def countMessages (bySeat : ℕ → List SignedEnvelope) : ℕ :=
  ((List.range 4).map fun seat => (bySeat seat).length).sum

/-- `recover`, on a receiver that is new. -/
def SaskuRound.recover (R : SaskuRound P) (ed : Ed25519) (setup : SetupEnvelopeCoordinator P)
    (session : SessionChainRegistry P) (limits : SaskuRoundRecoveryLimits) :
    Except SaskuRoundRecoveryError (RoundCore G) := do
  let (history, bySeat) ← captureSaskuRoundHistory ed setup session R.ledger.round limits
  let core ← R.replay bySeat (countMessages bySeat) R.init
  assertUnchanged history session
  return core

/-! ## Scanning a history -/

section Scan

variable {beaconRequired allowOtherRounds revealed : Bool} {round : ℕ} {e : SignedEnvelope}
  {l l' : List SignedEnvelope}

/-- Whether an envelope carries a round. -/
def carriesRound (e : SignedEnvelope) : Bool :=
  e.type = .SHARES ∨ e.type = .ACTION ∨ e.type = .AUDIT_DISCLOSE

theorem scanHistory_cons : scanHistory beaconRequired round allowOtherRounds revealed (e :: l) =
    if isSetupArtifact e = true then do
      let (setup, traffic) ← scanHistory beaconRequired round allowOtherRounds
        (revealed || e.type = lastSetupType beaconRequired) l
      return (e :: setup, traffic)
    else if carriesRound e = true then do
      throwIf (allowOtherRounds = false ∧ e.round ≠ round ∨ revealed = false ∨
          MAX_ROUND_REVEAL_ENVELOPE_BYTES < e.byteLength)
        (SaskuRoundRecoveryError.recovery
          "Invalid Sasku recovery round traffic or setup order")
      let (setup, traffic) ← scanHistory beaconRequired round allowOtherRounds revealed l
      return (setup, if e.round = round then e :: traffic else traffic)
    else if e.type = .SHUFFLE then do
      throwIf (allowOtherRounds = false ∧ e.round ≠ round ∨ revealed = false)
        (SaskuRoundRecoveryError.recovery
          "Invalid Sasku recovery shuffle traffic or setup order")
      scanHistory beaconRequired round allowOtherRounds revealed l
    else scanHistory beaconRequired round allowOtherRounds revealed l := by
  rw [scanHistory]
  cases htype : e.type <;> simp [isSetupArtifact, carriesRound, htype]

/-- **A scan that succeeds** has the setup and the traffic of the round, in their order. -/
theorem scanHistory_eq_ok {found : List SignedEnvelope × List SignedEnvelope}
    (h : scanHistory beaconRequired round allowOtherRounds revealed l = .ok found) :
    found = (l.filter isSetupArtifact, l.filter (isRoundTraffic round)) := by
  induction l generalizing revealed found with
  | nil =>
      cases h
      rfl
  | cons e rest ih =>
      rw [scanHistory_cons] at h
      split at h
      · rename_i hsetup
        obtain ⟨⟨setup, traffic⟩, hrest, hreturn⟩ := bind_eq_ok.1 h
        cases hreturn
        obtain ⟨rfl, rfl⟩ := Prod.ext_iff.1 (ih hrest)
        have hnot : isRoundTraffic round e = false := by
          rcases of_decide_eq_true hsetup with htype | htype | htype <;>
            simp [isRoundTraffic, htype]
        simp [List.filter_cons, hsetup, hnot]
      rename_i hsetup
      split at h
      · rename_i hcarries
        obtain ⟨-, h⟩ := check_bind_eq_ok.1 h
        obtain ⟨⟨setup, traffic⟩, hrest, hreturn⟩ := bind_eq_ok.1 h
        cases hreturn
        obtain ⟨rfl, rfl⟩ := Prod.ext_iff.1 (ih hrest)
        have hcarries := of_decide_eq_true hcarries
        simp [List.filter_cons, hsetup, isRoundTraffic, hcarries]
      rename_i hcarries
      have hnot : isRoundTraffic round e = false := by
        refine decide_eq_false fun htraffic => hcarries ?_
        exact decide_eq_true htraffic.1
      have hfound : found = (rest.filter isSetupArtifact, rest.filter (isRoundTraffic round)) := by
        split at h
        · obtain ⟨-, h⟩ := check_bind_eq_ok.1 h
          exact ih h
        · exact ih h
      simp [List.filter_cons, hsetup, hnot, hfound]

/-- What a session gets after the setup, from others than the round: lobby and sync messages, the
shuffle of the round, and the traffic of other rounds where that is allowed. -/
def Unrelated (round : ℕ) (allowOtherRounds : Bool) (e : SignedEnvelope) : Prop :=
  isSetupArtifact e = false ∧
    (carriesRound e = true → allowOtherRounds = true ∧
      e.byteLength ≤ MAX_ROUND_REVEAL_ENVELOPE_BYTES) ∧
    (e.type = .SHUFFLE → allowOtherRounds = true ∨ e.round = round)

/-- After the setup a scan takes the traffic of the round and whatever is unrelated. -/
theorem scanHistory_later (h : ∀ e ∈ l,
      isRoundTraffic round e = true ∧ e.byteLength ≤ MAX_ROUND_REVEAL_ENVELOPE_BYTES ∨
        isRoundTraffic round e = false ∧ Unrelated round allowOtherRounds e) :
    ∃ found, scanHistory beaconRequired round allowOtherRounds true l = .ok found := by
  induction l with
  | nil => exact ⟨_, rfl⟩
  | cons e rest ih =>
      obtain ⟨⟨setup, traffic⟩, hrest⟩ := ih fun e he => h e (List.mem_cons_of_mem _ he)
      have hsetup : isSetupArtifact e = false := by
        rcases h e List.mem_cons_self with ⟨htraffic, -⟩ | ⟨-, hother⟩
        · rcases (of_decide_eq_true htraffic).1 with htype | htype | htype <;>
            simp [isSetupArtifact, htype]
        · exact hother.1
      rw [scanHistory_cons, if_neg (by simp [hsetup])]
      split
      · rename_i hcarries
        rw [throwIf_neg, ok_bind, hrest, ok_bind]
        · exact ⟨_, rfl⟩
        · rcases h e List.mem_cons_self with ⟨htraffic, hsize⟩ | ⟨-, hother⟩
          · have hround := (of_decide_eq_true htraffic).2
            rintro (⟨-, hne⟩ | hnot | hlarge)
            · exact hne hround
            · cases hnot
            · omega
          · obtain ⟨hallow, hsize⟩ := hother.2.1 hcarries
            rintro (⟨hnot, -⟩ | hnot | hlarge)
            · rw [hallow] at hnot
              cases hnot
            · cases hnot
            · omega
      · rename_i hcarries
        split
        · rename_i htype
          rw [throwIf_neg, ok_bind]
          · exact ⟨_, hrest⟩
          · rcases h e List.mem_cons_self with ⟨htraffic, -⟩ | ⟨-, hother⟩
            · exact absurd (decide_eq_true (of_decide_eq_true htraffic).1) hcarries
            · rintro (⟨hnot, hne⟩ | hnot)
              · rcases hother.2.2 htype with hallow | hround
                · rw [hallow] at hnot
                  cases hnot
                · exact hne hround
              · cases hnot
        · exact ⟨_, hrest⟩

/-- A scan of a history that goes on. -/
theorem scanHistory_append {found : List SignedEnvelope × List SignedEnvelope}
    (h : scanHistory beaconRequired round allowOtherRounds revealed l = .ok found)
    (hlater : ∃ later, scanHistory beaconRequired round allowOtherRounds
      (revealed || l.any fun e => e.type = lastSetupType beaconRequired) l' = .ok later) :
    ∃ all, scanHistory beaconRequired round allowOtherRounds revealed (l ++ l') = .ok all := by
  induction l generalizing revealed found with
  | nil => simpa using hlater
  | cons e rest ih =>
      have hlast : isSetupArtifact e = false → decide (e.type = lastSetupType beaconRequired) = false := by
        intro hsetup
        refine decide_eq_false fun htype => ?_
        unfold lastSetupType at htype
        split at htype <;> simp [isSetupArtifact, htype] at hsetup
      rw [List.any_cons, ← Bool.or_assoc] at hlater
      rw [scanHistory_cons] at h
      rw [List.cons_append, scanHistory_cons]
      split at h
      · rename_i hsetup
        obtain ⟨⟨setup, traffic⟩, hrest, -⟩ := bind_eq_ok.1 h
        obtain ⟨⟨setup', traffic'⟩, hall⟩ := ih hrest hlater
        rw [if_pos hsetup, hall]
        exact ⟨_, rfl⟩
      rename_i hsetup
      rw [hlast (Bool.eq_false_iff.2 hsetup), Bool.or_false] at hlater
      rw [if_neg hsetup]
      split at h
      · rename_i hcarries
        obtain ⟨hcheck, h⟩ := check_bind_eq_ok.1 h
        obtain ⟨⟨setup, traffic⟩, hrest, -⟩ := bind_eq_ok.1 h
        obtain ⟨⟨setup', traffic'⟩, hall⟩ := ih hrest hlater
        rw [if_pos hcarries, hcheck, ok_bind, hall]
        exact ⟨_, rfl⟩
      rename_i hcarries
      rw [if_neg hcarries]
      split at h
      · rename_i htype
        obtain ⟨hcheck, hrest⟩ := check_bind_eq_ok.1 h
        rw [if_pos htype, hcheck, ok_bind]
        exact ih hrest hlater
      · rename_i htype
        rw [if_neg htype]
        exact ih h hlater

end Scan

variable {setup : SetupEnvelopeCoordinator P} {session : SessionChainRegistry P} {ed : Ed25519}
  {logs : ℕ → List SignedEnvelope} {round : ℕ} {allowOtherRounds : Bool}
  {limits : SaskuRoundRecoveryLimits} {bySeat messages : ℕ → List SignedEnvelope}
  {heads : List ChainHead} {transcript : List SignedEnvelope}

omit [DecidableEq G] in
/-- The scans of all seats. -/
theorem scanSeats_eq_ok {seats : List ℕ}
    (h : scanSeats setup round allowOtherRounds heads bySeat seats = .ok (transcript, messages)) :
    transcript = seats.flatMap (fun seat => (bySeat seat).filter isSetupArtifact) ∧
      ∀ seat ∈ seats, messages seat = (bySeat seat).filter (isRoundTraffic round) ∧
        ∃ found, scanHistory setup.beaconRequired round allowOtherRounds false (bySeat seat)
          = .ok found := by
  induction seats generalizing transcript messages with
  | nil =>
      cases h
      exact ⟨rfl, by simp⟩
  | cons seat rest ih =>
      rw [scanSeats] at h
      split at h
      · obtain ⟨-, h⟩ := check_bind_eq_ok.1 h
        obtain ⟨⟨own, traffic⟩, hscan, h⟩ := bind_eq_ok.1 h
        obtain ⟨⟨others, messages'⟩, hrest, hreturn⟩ := bind_eq_ok.1 h
        cases hreturn
        obtain ⟨rfl, hmessages⟩ := ih hrest
        obtain ⟨rfl, rfl⟩ := Prod.ext_iff.1 (scanHistory_eq_ok hscan)
        refine ⟨rfl, fun other hother => ?_⟩
        by_cases heq : other = seat
        · subst heq
          exact ⟨Function.update_self .., _, hscan⟩
        · rw [Function.update_of_ne heq]
          exact hmessages other ((List.mem_cons.1 hother).resolve_left heq)
      · cases h

omit [DecidableEq G] in
theorem exists_scanSeats {seats : List ℕ} (h : ∀ seat ∈ seats, ∃ head last found,
      heads[seat]? = some head ∧ (bySeat seat).getLast? = some last ∧
      (last.game = setup.gameId ∧ last.from_ = setup.roster.seats.getD seat (zeroBytes 32) ∧
        last.seq = head.seq ∧ P.hashEnvelope last = head.hash) ∧
      scanHistory setup.beaconRequired round allowOtherRounds false (bySeat seat) = .ok found) :
    ∃ found, scanSeats setup round allowOtherRounds heads bySeat seats = .ok found := by
  induction seats with
  | nil => exact ⟨_, rfl⟩
  | cons seat rest ih =>
      obtain ⟨⟨others, messages⟩, hrest⟩ := ih fun other hother =>
        h other (List.mem_cons_of_mem _ hother)
      obtain ⟨head, last, ⟨own, traffic⟩, hhead, hlast, ⟨hgame, hfrom, hseq, hhash⟩, hscan⟩ :=
        h seat List.mem_cons_self
      rw [scanSeats, hhead, hlast]
      simp only
      rw [throwIf_neg (by simp [hgame, hfrom, hseq, hhash]), ok_bind, hscan, ok_bind, hrest]
      exact ⟨_, rfl⟩

/-! ## Capturing a history -/

omit [DecidableEq G] in
/-- The heads of four chains that have begun. -/
theorem heads_of_four (hsize : session.roster.size = 4)
    (hheads : ∀ seat < 4, ∃ head, (session.chains seat).head = some head) :
    session.heads.length = 4 ∧ ∀ seat < 4, session.heads[seat]? = (session.chains seat).head := by
  obtain ⟨first, hfirst⟩ := hheads 0 (by omega)
  obtain ⟨second, hsecond⟩ := hheads 1 (by omega)
  obtain ⟨third, hthird⟩ := hheads 2 (by omega)
  obtain ⟨fourth, hfourth⟩ := hheads 3 (by omega)
  have hlist : session.heads = [first, second, third, fourth] := by
    rw [SessionChainRegistry.heads, hsize]
    simp [List.range_succ, hfirst, hsecond, hthird, hfourth]
  refine ⟨by rw [hlist]; rfl, fun seat hseat => ?_⟩
  rw [hlist]
  interval_cases seat
  · exact hfirst.symm
  · exact hsecond.symm
  · exact hthird.symm
  · exact hfourth.symm

/-- What the capture of a round needs from its session. -/
structure Capturable (setup : SetupEnvelopeCoordinator P) (round : ℕ) (allowOtherRounds : Bool)
    (logs : ℕ → List SignedEnvelope) : Prop where
  begun : ∀ seat < 4, logs seat ≠ []
  scanned : ∀ seat < 4, ∃ found,
    scanHistory setup.beaconRequired round allowOtherRounds false (logs seat) = .ok found
  setup : checkRecoveredSetup setup
    ((List.range 4).flatMap fun seat => (logs seat).filter isSetupArtifact) = .ok ()

omit [DecidableEq G] in
theorem admitted_iff : limits.session.Admitted ↔
    ¬ (limits.maxEnvelopes < 1 ∨ MAX_SAFE_INTEGER < limits.maxEnvelopes ∨ limits.maxBytes < 1 ∨
      MAX_SAFE_INTEGER < limits.maxBytes) := by
  simp only [SessionHistoryCaptureLimits.Admitted, SaskuRoundRecoveryLimits.session]
  omega

/-- A capture that succeeds. -/
theorem captured_of_ok {history : CapturedSessionHistory P} (hlogs : HoldsLogs session logs)
    (hartifact : ∀ seat, ∀ e ∈ logs seat, e.Artifact ed)
    (h : captureSaskuRoundHistory ed setup session round limits = .ok (history, messages)) :
    history = ⟨session.gameId, session.roster, session.heads, held session logs⟩ ∧
      session.roster.size = 4 ∧ Capturable setup round limits.allowOtherRounds logs ∧
      ∀ seat < 4, messages seat = (logs seat).filter (isRoundTraffic round) := by
  unfold captureSaskuRoundHistory at h
  obtain ⟨hlimits, h⟩ := check_bind_eq_ok.1 h
  obtain ⟨-, h⟩ := check_bind_eq_ok.1 h
  obtain ⟨hcount, h⟩ := check_bind_eq_ok.1 h
  obtain ⟨-, h⟩ := check_bind_eq_ok.1 h
  obtain ⟨captured, hcapture, h⟩ := bind_eq_ok.1 h
  obtain ⟨hchains, h⟩ := check_bind_eq_ok.1 h
  obtain ⟨⟨transcript, bySeat⟩, hscan, h⟩ := bind_eq_ok.1 h
  obtain ⟨hsetup, h⟩ := check_bind_eq_ok.1 h
  obtain ⟨-, h⟩ := check_bind_eq_ok.1 h
  cases h
  have hadmitted := admitted_iff.2 (throwIf_eq_ok.1 hlimits)
  have hcaptured : history
      = ⟨session.gameId, session.roster, session.heads, held session logs⟩ := by
    have hcapture := mapError_eq_ok.1 hcapture
    rw [captureSessionHistory_eq hlogs hadmitted hartifact] at hcapture
    split at hcapture
    · cases hcapture
    split at hcapture
    · cases hcapture
    exact (Except.ok.inj hcapture).symm
  subst hcaptured
  have hbySeat : CapturedSessionHistory.bySeat
      (⟨session.gameId, session.roster, session.heads, held session logs⟩ :
        CapturedSessionHistory P) = logs := funext fun seat => hlogs.filter_held seat
  have hchains := throwIf_eq_ok.1 hchains
  rw [hbySeat] at hchains hscan
  obtain ⟨rfl, hmessages⟩ := scanSeats_eq_ok hscan
  have hmem : ∀ seat < 4, seat ∈ List.range 4 := fun seat hseat => List.mem_range.2 hseat
  refine ⟨rfl, not_not.1 fun hne => hchains (.inl hne), ⟨?_, ?_, hsetup⟩, ?_⟩
  · exact fun seat hseat hnil => hchains (.inr ⟨seat, hmem seat hseat, hnil⟩)
  · exact fun seat hseat => (hmessages seat (hmem seat hseat)).2
  · exact fun seat hseat => (hmessages seat (hmem seat hseat)).1

/-- **A round can be captured whenever its history can**, if the session has what it needs. -/
theorem exists_capture (hlogs : HoldsLogs session logs)
    (hartifact : ∀ seat, ∀ e ∈ logs seat, e.Artifact ed) (hgame : setup.gameId = session.gameId)
    (hroster : setup.roster = session.roster) (hsize : session.roster.size = 4)
    (hcapturable : Capturable setup round limits.allowOtherRounds logs)
    {captured : CapturedSessionHistory P}
    (hcapture : captureSessionHistory ed session limits.session = .ok captured) :
    ∃ messages, captureSaskuRoundHistory ed setup session round limits
        = .ok (captured, messages) ∧
      (∀ seat < 4, messages seat = (logs seat).filter (isRoundTraffic round)) ∧
      captured.Unchanged session := by
  have hadmitted : limits.session.Admitted := by
    have hlimits := hcapture
    unfold captureSessionHistory at hlimits
    obtain ⟨hlimits, -⟩ := check_bind_eq_ok.1 hlimits
    exact admitted_iff.2 (throwIf_eq_ok.1 hlimits)
  have hcaptured : captured
      = ⟨session.gameId, session.roster, session.heads, held session logs⟩ := by
    have hcapture := hcapture
    rw [captureSessionHistory_eq hlogs hadmitted hartifact] at hcapture
    split at hcapture
    · cases hcapture
    split at hcapture
    · cases hcapture
    exact (Except.ok.inj hcapture).symm
  have hseats : ∀ seat, captured.bySeat seat = logs seat := by
    rw [hcaptured]
    exact fun seat => hlogs.filter_held seat
  have hchains : ∀ seat < 4, ∃ last head, (logs seat).getLast? = some last ∧
      (session.chains seat).head = some head ∧ last ∈ logs seat ∧
      head.from_ = (session.chains seat).sender ∧ last.seq = head.seq ∧
      last.from_ = (session.chains seat).sender ∧ P.hashEnvelope last = head.hash := by
    intro seat hseat
    obtain ⟨before, last, hlog⟩ :=
      (List.eq_nil_or_concat (logs seat)).resolve_left (hcapturable.begun seat hseat)
    have hlast : (logs seat).getLast? = some last := by simp [hlog]
    have hplace : (logs seat)[before.length]? = some last := by simp [hlog]
    obtain ⟨hfrom, hseq, -⟩ := (hlogs.chain seat).linked.getElem? hplace
    have hhead := (hlogs.chain seat).head
    rw [hlast, Option.map_some] at hhead
    refine ⟨last, _, hlast, hhead, by simp [hlog], rfl, ?_, hfrom, rfl⟩
    show last.seq = (logs seat).length - 1
    rw [hlog, List.length_concat, hseq]
    rfl
  obtain ⟨hcount, hplaces⟩ := heads_of_four hsize fun seat hseat => by
    obtain ⟨last, head, -, hhead, -⟩ := hchains seat hseat
    exact ⟨head, hhead⟩
  have hsenders : ∀ seat, (session.chains seat).sender
      = setup.roster.seats.getD seat (zeroBytes 32) := by
    intro seat
    rw [hlogs.sender, hroster]
  have hzip : ¬ ∃ head ∈ session.heads.zip setup.roster.seats,
      head.1.from_ ≠ head.2 ∨ MAX_SAFE_INTEGER < head.1.seq := by
    rintro ⟨⟨head, identity⟩, hmem, hbad⟩
    obtain ⟨seat, hplace⟩ := List.mem_iff_getElem?.1 hmem
    rw [List.getElem?_zip_eq_some] at hplace
    obtain ⟨hhead, hidentity⟩ := hplace
    have hseat : seat < 4 := by
      have hlt := (List.getElem?_eq_some_iff.1 hhead).1
      omega
    obtain ⟨last, head', -, hhead', hmem', hfrom, hseq, -⟩ := hchains seat hseat
    rw [hplaces seat hseat, hhead'] at hhead
    cases hhead
    rcases hbad with hbad | hbad
    · refine hbad (hfrom.trans ?_)
      rw [hsenders, List.getD_eq_getElem?_getD, hidentity]
      rfl
    · have hle := (hartifact seat last hmem').seq_le
      rw [hseq] at hle
      exact absurd hbad (not_lt.2 hle)
  have hscanned : ∃ found, scanSeats setup round limits.allowOtherRounds session.heads logs
      (List.range 4) = .ok found :=
    exists_scanSeats fun seat hseat => by
      have hseat := List.mem_range.1 hseat
      obtain ⟨last, head, hlast, hhead, hmem, -, hseq, hfrom, hhash⟩ := hchains seat hseat
      obtain ⟨found, hfound⟩ := hcapturable.scanned seat hseat
      exact ⟨head, last, found, (hplaces seat hseat).trans hhead, hlast,
        ⟨(hlogs.game seat last hmem).trans hgame.symm, hfrom.trans (hsenders seat), hseq, hhash⟩,
        hfound⟩
  obtain ⟨⟨transcript, messages⟩, hscan⟩ := hscanned
  obtain ⟨htranscript, hmessages⟩ := scanSeats_eq_ok hscan
  have hunchanged : captured.Unchanged session := by
    rw [hcaptured, unchanged_iff hlogs hlogs rfl rfl (fun _ => List.prefix_rfl) rfl rfl rfl rfl]
    exact fun _ => rfl
  have hbySeat : captured.bySeat = logs := funext hseats
  refine ⟨messages, ?_, fun seat hseat => (hmessages seat (List.mem_range.2 hseat)).1, hunchanged⟩
  unfold captureSaskuRoundHistory
  rw [throwIf_neg (admitted_iff.1 hadmitted), ok_bind,
    throwIf_neg (by rw [hroster, hsize]; simp), ok_bind]
  simp only
  rw [throwIf_neg (by simp [hcount]), ok_bind, throwIf_neg hzip, ok_bind,
    mapError_eq_ok.2 hcapture, ok_bind, throwIf_neg, ok_bind, hbySeat, hscan, ok_bind]
  · simp only
    rw [htranscript, hcapturable.setup, ok_bind, assertUnchanged,
      throwIf_neg (not_not.2 hunchanged)]
    rfl
  · rw [hbySeat, hcaptured]
    rintro (hne | ⟨seat, hseat, hnil⟩)
    · exact hne hsize
    · exact hcapturable.begun seat (List.mem_range.1 hseat) hnil

/-! ## A setup that is complete -/

section Setup

variable {coordinator last : SetupEnvelopeCoordinator P}

/-- What a replay has recorded comes from the envelopes that it has read. -/
theorem replaySetup_kept {done : List SignedEnvelope} {rest : List SetupArtifact}
    (hsound : coordinator.Sound) (hkept : ∀ seat c, coordinator.setup.recorded seat c = some c →
      ∃ e ∈ done, coordinator.contribution e = some (seat, c))
    (h : replaySetup coordinator rest = .ok last) :
    last.Sound ∧ SetupEnvelopeCoordinator.SameScope coordinator last ∧
      ∀ seat c, last.setup.recorded seat c = some c →
        ∃ e ∈ done ++ rest.map SetupArtifact.artifact, last.contribution e = some (seat, c) := by
  induction rest generalizing coordinator done with
  | nil =>
      cases h
      exact ⟨hsound, .refl _, by simpa using hkept⟩
  | cons a rest ih =>
      rw [replaySetup] at h
      obtain ⟨⟨result, next⟩, hprocess, h⟩ := bind_eq_ok.1 h
      have hprocess := mapError_eq_ok.1 hprocess
      have hrest : result.refused = false ∧ replaySetup next rest = .ok last := by
        cases result with
        | rejected reason state seat => cases h
        | accepted seat state => exact ⟨rfl, h⟩
        | duplicate seat state => exact ⟨rfl, h⟩
        | failed seat => exact ⟨rfl, h⟩
      obtain ⟨hnot, h⟩ := hrest
      rw [List.map_cons, ← List.singleton_append, ← List.append_assoc]
      rcases SetupEnvelopeCoordinator.process_cases hsound a.artifact with
        ⟨other, hother, hrefused, -⟩ | ⟨other, seat, c, hother, -, hc, hrecorded⟩ |
          ⟨other, seat, c, hother, -, hc, hnone, hadm⟩
      · rw [hprocess] at hother
        cases hother
        rw [hrefused] at hnot
        cases hnot
      · rw [hprocess] at hother
        cases hother
        refine ih hsound (fun otherSeat d hd => ?_) h
        obtain ⟨e, he, hcontribution⟩ := hkept otherSeat d hd
        exact ⟨e, List.mem_append_left _ he, hcontribution⟩
      · rw [hprocess] at hother
        cases hother
        have hscope : SetupEnvelopeCoordinator.SameScope coordinator
            { coordinator with setup := coordinator.setup.record P seat c } :=
          SetupEnvelopeCoordinator.record_scope seat c
        have hseat := SetupEnvelopeCoordinator.seat_lt_of_contribution hsound hc
        have hnext : ∀ otherSeat d, (coordinator.setup.record P seat c).recorded otherSeat d = some d →
            ∃ e ∈ done ++ [a.artifact],
              coordinator.contribution e = some (otherSeat, d) := by
          intro otherSeat d hd
          rw [SetupCoordinator.recorded_record hsound.setup hadm] at hd
          split at hd
          · rename_i hplace
            obtain rfl := Option.some.inj hd
            rw [hplace.1]
            exact ⟨a.artifact, by simp, hc⟩
          · obtain ⟨e, he, hcontribution⟩ := hkept otherSeat d hd
            exact ⟨e, List.mem_append_left _ he, hcontribution⟩
        obtain ⟨hlast, hsame, hall⟩ := ih
          (SetupEnvelopeCoordinator.record_sound hsound hseat hadm) hnext h
        exact ⟨hlast, hscope.trans hsame, hall⟩

omit [DecidableEq G] in
theorem mem_of_setupArtifactsFrom {game : GameId} {roster : Roster P} {index : ℕ}
    {tuples : List (IdentityPublicKey × ℕ)} {artifacts : List SetupArtifact}
    (h : setupArtifactsFrom game roster index tuples transcript = .ok artifacts) :
    ∀ a ∈ artifacts, a.artifact ∈ transcript := by
  induction transcript generalizing index tuples artifacts with
  | nil =>
      cases h
      simp
  | cons e rest ih =>
      rw [setupArtifactsFrom] at h
      obtain ⟨-, h⟩ := check_bind_eq_ok.1 h
      obtain ⟨-, h⟩ := check_bind_eq_ok.1 h
      simp only at h
      split at h
      · exact fun a ha => List.mem_cons_of_mem _ (ih h a ha)
      · split at h
        · cases h
        · obtain ⟨others, hothers, hreturn⟩ := bind_eq_ok.1 h
          cases hreturn
          intro a ha
          rcases List.mem_cons.1 ha with rfl | ha
          · exact List.mem_cons_self
          · exact List.mem_cons_of_mem _ (ih hothers a ha)

/-- A setup that is complete has the last contribution of every seat. -/
theorem recorded_of_complete (hinv : SetupInvariant P last.setup)
    (hcomplete : last.setup.state = .complete) {seat : ℕ} (hseat : seat < last.setup.seatCount) :
    ∃ c, last.setup.recorded seat c = some c ∧
      c.rank = if last.setup.beaconRequired then 2 else 0 := by
  cases hinv.phase with
  | keys missing state =>
      rw [state] at hcomplete
      cases hcomplete
  | failed filled aggregate state =>
      rw [state] at hcomplete
      cases hcomplete
  | keyed filled key aggregate required =>
      obtain ⟨share, hshare⟩ := Option.isSome_iff_exists.1 (filled seat hseat)
      refine ⟨.keyShare share, ?_, by simp [required, SetupContribution.rank]⟩
      simp only [SetupCoordinator.recorded, hshare, Option.map_some]
  | beacon filled key aggregate required state =>
      have hfilled : Filled last.setup.seatCount last.setup.reveals := by
        rw [hcomplete, beaconStateOf] at state
        split at state
        · split at state
          · assumption
          · cases state
        · cases state
      obtain ⟨secret, hsecret⟩ := Option.isSome_iff_exists.1 (hfilled seat hseat)
      refine ⟨.reveal secret, ?_, by simp [required, SetupContribution.rank]⟩
      simp only [SetupCoordinator.recorded, hsecret, Option.map_some]

/-- **A transcript of a complete setup** has the last message of every seat. -/
theorem exists_lastSetup (hsize : setup.roster.size = 4)
    (h : checkRecoveredSetup setup transcript = .ok ()) {seat : ℕ} (hseat : seat < 4) :
    ∃ e ∈ transcript, setup.roster.seatOf e.from_ = some seat ∧
      e.type = lastSetupType setup.beaconRequired := by
  unfold checkRecoveredSetup at h
  obtain ⟨recovered, hrecovered, h⟩ := bind_eq_ok.1 h
  obtain ⟨hstates, -⟩ := check_bind_eq_ok.1 h
  have hstates := throwIf_eq_ok.1 hstates
  have hcomplete : recovered.state = .complete := by
    by_contra hne
    exact hstates (.inr (.inl hne))
  have hrecovered := mapError_eq_ok.1 hrecovered
  unfold recoverSetup at hrecovered
  obtain ⟨started, hstarted, hrecovered⟩ := bind_eq_ok.1 hrecovered
  obtain ⟨artifacts, hartifacts, hrecovered⟩ := bind_eq_ok.1 hrecovered
  obtain ⟨-, hreplay⟩ := check_bind_eq_ok.1 hrecovered
  have hstarted := mapError_eq_ok.1 hstarted
  obtain ⟨hsound, -, hempty⟩ := SetupEnvelopeCoordinator.start_sound hstarted
  obtain ⟨hlast, hscope, hkept⟩ := replaySetup_kept hsound hempty.kept hreplay
  -- the coordinator that was started is one for these seats
  have hstart : started.roster.seats = setup.roster.seats ∧
      started.setup.beaconRequired = setup.beaconRequired := by
    unfold SetupEnvelopeCoordinator.start at hstarted
    obtain ⟨-, hstarted⟩ := check_bind_eq_ok.1 hstarted
    obtain ⟨roster, hroster, hstarted⟩ := bind_eq_ok.1 hstarted
    obtain ⟨coordinator, hcoordinator, hreturn⟩ := bind_eq_ok.1 hstarted
    cases hreturn
    have hroster := mapError_eq_ok.1 hroster
    unfold Roster.parse at hroster
    unfold SetupCoordinator.start at hcoordinator
    obtain ⟨-, hcoordinator⟩ := check_bind_eq_ok.1 hcoordinator
    obtain ⟨-, hcoordinator⟩ := check_bind_eq_ok.1 hcoordinator
    cases hcoordinator
    split at hroster
    · split at hroster
      · cases hroster
      · cases hroster
        exact ⟨rfl, rfl⟩
    · cases hroster
  have hcount : recovered.setup.seatCount = 4 := by
    rw [hlast.seatCount, ← hscope.roster, ← hsize]
    exact congrArg List.length hstart.1
  obtain ⟨c, hrecorded, hrank⟩ := recorded_of_complete hlast.setup hcomplete (hcount ▸ hseat)
  obtain ⟨e, he, hcontribution⟩ := hkept seat c hrecorded
  obtain ⟨-, hplace, hbody⟩ := SetupEnvelopeCoordinator.contribution_eq_some.1 hcontribution
  rw [List.nil_append] at he
  obtain ⟨a, ha, rfl⟩ := List.mem_map.1 he
  refine ⟨a.artifact, mem_of_setupArtifactsFrom hartifacts a
    ((List.perm_insertionSort setupArtifactLe artifacts).mem_iff.1 ha), ?_, ?_⟩
  · rw [← hscope.roster, Roster.seatOf_eq_some, hstart.1] at hplace
    exact Roster.seatOf_eq_some.2 hplace
  · have htype := rank_setupBody hbody
    rw [hrank, ← hscope.setupBeacon, hstart.2] at htype
    unfold lastSetupType
    cases hrequired : setup.beaconRequired with
    | true =>
        rw [hrequired] at htype
        cases hkind : a.artifact.type <;> simp [hkind, setupTypeRank] at htype ⊢
    | false =>
        rw [hrequired] at htype
        cases hkind : a.artifact.type <;> simp [hkind, setupTypeRank] at htype ⊢

end Setup

/-! ## Histories that go on -/

/-- What a session needs for the capture of a round it still has when it goes on. -/
theorem Capturable.later {logs' : ℕ → List SignedEnvelope}
    (h : Capturable setup round allowOtherRounds logs) (hsetup : ∀ seat < 4, ∃ e ∈ logs seat,
      e.type = lastSetupType setup.beaconRequired)
    (hlater : ∀ seat, ∃ later, logs' seat = logs seat ++ later ∧ ∀ e ∈ later,
      isRoundTraffic round e = true ∧ e.byteLength ≤ MAX_ROUND_REVEAL_ENVELOPE_BYTES ∨
        isRoundTraffic round e = false ∧ Unrelated round allowOtherRounds e) :
    Capturable setup round allowOtherRounds logs' := by
  refine ⟨fun seat hseat hnil => ?_, fun seat hseat => ?_, ?_⟩
  · obtain ⟨later, heq, -⟩ := hlater seat
    rw [heq, List.append_eq_nil_iff] at hnil
    exact h.begun seat hseat hnil.1
  · obtain ⟨later, heq, hmem⟩ := hlater seat
    obtain ⟨found, hfound⟩ := h.scanned seat hseat
    obtain ⟨e, he, htype⟩ := hsetup seat hseat
    rw [heq]
    refine scanHistory_append hfound ?_
    rw [Bool.false_or, List.any_eq_true.2 ⟨e, he, by simpa using htype⟩]
    exact scanHistory_later hmem
  · have hsame : ∀ seat, (logs' seat).filter isSetupArtifact
        = (logs seat).filter isSetupArtifact := by
      intro seat
      obtain ⟨later, heq, hmem⟩ := hlater seat
      have hnone : later.filter isSetupArtifact = [] := by
        refine List.filter_eq_nil_iff.2 fun e he => ?_
        rcases hmem e he with ⟨htraffic, -⟩ | ⟨-, hother⟩
        · rcases (of_decide_eq_true htraffic).1 with htype | htype | htype <;>
            simp [isSetupArtifact, htype]
        · simp [hother.1]
      rw [heq, List.filter_append, hnone, List.append_nil]
    simp only [hsame]
    exact h.setup

variable {R : SaskuRound P} {c c' : RoundCore G}

theorem countMessages_update {seat : ℕ} (hseat : seat < 4) {e : SignedEnvelope}
    {rest : List SignedEnvelope} (h : bySeat seat = e :: rest) :
    countMessages bySeat = countMessages (Function.update bySeat seat (bySeat seat).tail) + 1 := by
  have hcount : ∀ bySeat : ℕ → List SignedEnvelope, countMessages bySeat = (bySeat 0).length +
      ((bySeat 1).length + ((bySeat 2).length + (bySeat 3).length)) := by
    intro bySeat
    simp [countMessages, List.range_succ, Nat.add_assoc]
  rw [hcount, hcount]
  interval_cases seat <;> simp [h] <;> omega

/-- What a replay has read is a run of the round. -/
theorem run_of_replay {count : ℕ} (hseats : ∀ seat < 4, ∀ e ∈ bySeat seat,
      R.ledger.roster.seatOf e.from_ = some seat) (hcount : countMessages bySeat = count)
    (h : R.replay bySeat count c = .ok c') :
    ∃ l, Replay.run R.step c l = some c' ∧ ∀ seat < 4, R.sentFrom seat l = bySeat seat := by
  induction count generalizing bySeat c with
  | zero =>
      cases h
      refine ⟨[], rfl, fun seat hseat => ?_⟩
      cases hfirst : bySeat seat with
      | nil => rfl
      | cons e rest =>
          rw [countMessages_update hseat hfirst] at hcount
          cases hcount
  | succ count ih =>
      rw [SaskuRound.replay] at h
      split at h
      · cases h
      rename_i seat artifact hnext
      obtain ⟨hseat, ⟨rest, hfirst⟩, -⟩ := nextSeat_eq_some hnext
      obtain ⟨t, hclassify, h⟩ := bind_eq_ok.1 h
      obtain ⟨haccepted, h⟩ := check_bind_eq_ok.1 h
      obtain ⟨next, hcommit, h⟩ := bind_eq_ok.1 h
      have haccepted : t.accepted = true := Bool.eq_true_of_not_eq_false (throwIf_eq_ok.1 haccepted)
      have hstep : R.step c artifact = some next := by
        rw [SaskuRound.step, mapError_eq_ok.1 hclassify]
        simp only [haccepted, if_true, mapError_eq_ok.1 hcommit]
      have hown := hseats seat hseat artifact (by simp [hfirst])
      obtain ⟨l, hrun, hsent⟩ := ih (fun other hother e he => by
        by_cases heq : other = seat
        · subst heq
          rw [Function.update_self] at he
          exact hseats other hother e (List.mem_of_mem_tail he)
        · rw [Function.update_of_ne heq] at he
          exact hseats other hother e he)
        (by rw [countMessages_update hseat hfirst] at hcount; omega) h
      refine ⟨artifact :: l, (Replay.run_cons_eq_some R.step).2 ⟨next, hstep, hrun⟩, ?_⟩
      intro other hother
      have hrest := hsent other hother
      by_cases heq : other = seat
      · subst heq
        rw [Function.update_self, hfirst, List.tail_cons] at hrest
        rw [SaskuRound.sentFrom, List.filter_cons_of_pos (by simp [hown]), hfirst]
        exact congrArg _ hrest
      · rw [Function.update_of_ne heq] at hrest
        rw [SaskuRound.sentFrom, List.filter_cons_of_neg (by simp [hown, Ne.symm heq])]
        exact hrest

/-- A recovery from logs that have the traffic of a run gets to where the run has got. -/
theorem recover_of_run {E : Set SignedEnvelope} (hhash : Set.InjOn P.hashEnvelope E)
    {l : List SignedEnvelope} (hl : ∀ e ∈ l, e ∈ E) (hrun : Replay.run R.step R.init l = some c)
    (hlogs : HoldsLogs session logs) (hartifact : ∀ seat, ∀ e ∈ logs seat, e.Artifact ed)
    (hgame : setup.gameId = session.gameId) (hroster : setup.roster = session.roster)
    (hsize : session.roster.size = 4)
    (hcapturable : Capturable setup R.ledger.round limits.allowOtherRounds logs)
    (hsent : ∀ seat < 4, (logs seat).filter R.isTraffic = R.sentFrom seat l)
    {captured : CapturedSessionHistory P}
    (hcapture : captureSessionHistory ed session limits.session = .ok captured) :
    R.recover ed setup session limits = .ok c := by
  obtain ⟨messages, hmessages, hseats, hunchanged⟩ :=
    exists_capture hlogs hartifact hgame hroster hsize hcapturable hcapture
  obtain ⟨t, hstates, rfl⟩ := roundState_of_run (.init R) hrun
  have hsame : ∀ seat < 4, messages seat = R.sentFrom seat l := fun seat hseat =>
    (hseats seat hseat).trans (hsent seat hseat)
  have hcount : countMessages messages = l.length := by
    have hpartition : ∀ l : List SignedEnvelope, (∀ e ∈ l, ∃ seat < 4,
        R.ledger.roster.seatOf e.from_ = some seat) →
        countMessages (fun seat => R.sentFrom seat l) = l.length := by
      intro l
      induction l with
      | nil => exact fun _ => rfl
      | cons e rest ih =>
          intro hall
          obtain ⟨seat, hseat, hown⟩ := hall e List.mem_cons_self
          have hfirst : R.sentFrom seat (e :: rest) = e :: R.sentFrom seat rest :=
            List.filter_cons_of_pos (by simp [hown])
          rw [countMessages_update hseat hfirst, List.length_cons,
            ← ih fun e he => hall e (List.mem_cons_of_mem _ he)]
          refine congrArg (countMessages · + 1) (funext fun other => ?_)
          by_cases heq : other = seat
          · subst heq
            rw [Function.update_self, hfirst, List.tail_cons]
          · rw [Function.update_of_ne heq]
            exact List.filter_cons_of_neg (by simp [hown, Ne.symm heq])
    have hlength := hpartition l fun e he => (traffic_of_mem hrun he).2
    rw [← hlength, countMessages, countMessages]
    exact congrArg List.sum (List.map_congr_left fun seat hseat => by
      rw [hsame seat (List.mem_range.1 hseat)])
  have hreplay := replay_of_run hhash hl hstates hsame
  unfold SaskuRound.recover
  rw [hmessages, ok_bind]
  simp only [hcount]
  rw [show R.replay messages l.length R.init = _ from hreplay, ok_bind, assertUnchanged,
    throwIf_neg (not_not.2 hunchanged)]
  rfl

/-! ## A recovery at any moment -/

open PersistentSaskuRoundReceiver

/-- **A recovery agrees with the live round.**  A session of verified envelopes, from which a round
was recovered (with no traffic of the round yet, that is a new one), is used by a receiver and by
others.  These bring no setup messages and no traffic of this round; they bring traffic and shuffles
of other rounds only where `allowOtherRounds` says so, and no traffic of a round that is too long for
a scan.  Different envelopes of the round have different hashes.  Whatever happens, and whenever it is
looked at: as long as the receiver has not failed and the history of the session is within the
limits, the session can be recovered, and the recovered round is the one the receiver has; only if
the session has accepted an envelope whose receipt has not arrived, the recovered round has committed
it, as the receiver will do. -/
theorem recovery_agrees (R : SaskuRound P) (ed : Ed25519) (setup : SetupEnvelopeCoordinator P)
    (limits₀ limits : SaskuRoundRecoveryLimits) {E : Set SignedEnvelope}
    (hhash : Set.InjOn P.hashEnvelope E)
    (hsetup : setup.gameId = R.ledger.gameId ∧ setup.roster = R.ledger.roster)
    (known : List (VerifiedEnvelope ed)) {durable : SessionCalls P}
    (hsession : durable.resource
      = (SessionChainRegistry.start R.ledger.gameId R.ledger.roster).ingestAll
          (known.map Subtype.val))
    (hknown : ∀ e ∈ known, R.isTraffic e.val = true → e.val ∈ E)
    (hids : durable.ids = List.range durable.next)
    (hwaiting : ∀ id e, (id, e) ∈ durable.waiting → e.Artifact ed ∧ R.isTraffic e = false ∧
      Unrelated R.ledger.round limits₀.allowOtherRounds e)
    {core : RoundCore G} (hstart : R.recover ed setup durable.resource limits₀ = .ok core)
    (maxPendingEnvelopes maxPendingBytes : ℕ) (events : List RoundEvent)
    (hbrings : ∀ event ∈ events,
      Brings R ed E (Unrelated R.ledger.round limits₀.allowOtherRounds) event)
    {r : PersistentSaskuRoundReceiver P}
    (hrun : Replay.run (fun r event => r.step R ed event)
      (.start maxPendingEnvelopes maxPendingBytes durable core) events = some r)
    (hhealthy : r.failure = none) (hallow : limits.allowOtherRounds = limits₀.allowOtherRounds)
    {captured : CapturedSessionHistory P}
    (hcapture : captureSessionHistory ed r.durable.resource limits.session = .ok captured) :
    (r.inFlight = [] → R.recover ed setup r.durable.resource limits = .ok r.core) ∧
      ∀ e ∈ r.inFlight, r.inFlight = [e] ∧ ∃ t next, R.classify r.core e = .ok t ∧
        t.accepted = true ∧ R.commit r.core t = .ok next ∧
        R.recover ed setup r.durable.resource limits = .ok next := by
  -- the session at the start, and what was recovered from it
  obtain ⟨hgame, hroster, first, hfirst, -, hmem⟩ :=
    (HoldsLogs.start R.ledger.gameId R.ledger.roster).ingestAll (known.map Subtype.val)
  rw [← hsession] at hgame hroster hfirst
  replace hgame : durable.resource.gameId = R.ledger.gameId := hgame
  replace hroster : durable.resource.roster = R.ledger.roster := hroster
  have hartifact : ∀ seat, ∀ e ∈ first seat, e.Artifact ed := by
    intro seat e he
    rcases hmem seat e he with h | h
    · cases h
    · obtain ⟨artifact, -, rfl⟩ := List.mem_map.1 h
      exact artifact.property
  have hrecover := hstart
  unfold SaskuRound.recover at hrecover
  obtain ⟨⟨before, messages⟩, hmessages, hrecover⟩ := bind_eq_ok.1 hrecover
  obtain ⟨replayed, hreplay, hrecover⟩ := bind_eq_ok.1 hrecover
  obtain ⟨-, hreturn⟩ := check_bind_eq_ok.1 hrecover
  cases hreturn
  obtain ⟨-, hsize, hcapturable, hseats⟩ := captured_of_ok hfirst hartifact hmessages
  have hsize' : setup.roster.size = 4 := by rw [hsetup.2, ← hroster, hsize]
  have hown : ∀ seat < 4, ∀ e ∈ messages seat, R.ledger.roster.seatOf e.from_ = some seat := by
    intro seat hseat e he
    rw [hseats seat hseat] at he
    obtain ⟨i, hi⟩ := List.mem_iff_getElem?.1 (List.mem_of_mem_filter he)
    rw [((hfirst.chain seat).linked.getElem? hi).1, ← hroster,
      seatOf_sender hfirst (hsize ▸ hseat)]
  obtain ⟨history, hhistory, hsent⟩ := run_of_replay hown rfl hreplay
  have hhistoryKnown : ∀ e ∈ history, e ∈ E := by
    intro e he
    obtain ⟨htraffic, seat, hseat, hplace⟩ := traffic_of_mem hhistory he
    have hfound : e ∈ R.sentFrom seat history := List.mem_filter.2 ⟨he, by simpa using hplace⟩
    rw [hsent seat hseat, hseats seat hseat] at hfound
    rcases hmem seat e (List.mem_of_mem_filter hfound) with h | h
    · cases h
    · obtain ⟨artifact, hartifact, rfl⟩ := List.mem_map.1 h
      exact hknown artifact hartifact htraffic
  have hlast : ∀ seat < 4, ∃ e ∈ first seat, e.type = lastSetupType setup.beaconRequired := by
    intro seat hseat
    obtain ⟨e, he, hplace, htype⟩ := exists_lastSetup hsize' hcapturable.setup hseat
    obtain ⟨other, hother, he⟩ := List.mem_flatMap.1 he
    have hfound := List.mem_of_mem_filter he
    obtain ⟨i, hi⟩ := List.mem_iff_getElem?.1 hfound
    rw [((hfirst.chain other).linked.getElem? hi).1, hsetup.2, ← hroster,
      seatOf_sender hfirst (hsize ▸ List.mem_range.1 hother)] at hplace
    obtain rfl := Option.some.inj hplace
    exact ⟨e, hfound, htype⟩
  -- the session of the run
  have hsynced : r.Synced R ed E (Unrelated R.ledger.round limits₀.allowOtherRounds) first
      history := synced_of_run hhash hhistory
    (.start ⟨hgame, hroster, first, hfirst, hartifact, fun seat => ⟨[], by simp, by simp⟩,
      fun seat hseat => (hseats seat hseat).symm.trans (hsent seat hseat).symm⟩
      hhistoryKnown hids hwaiting) hbrings hrun hhealthy
  have hinv := inv_of_run (.recovered hhistory) hrun
  have hcore : Replay.run R.step R.init (history ++ r.accepted) = some r.core :=
    (Replay.run_append_eq_some R.step).2 ⟨core, hhistory, hinv.history⟩
  obtain ⟨logs, hlogs, hartifacts, hlater, hfilter⟩ := hsynced.holds.held
  have hnext := hcapturable.later hlast hlater
  rw [← hallow] at hnext
  have hrecovers : ∀ {l : List SignedEnvelope} {c : RoundCore G}, (∀ e ∈ l, e ∈ E) →
      Replay.run R.step R.init l = some c → l = history ++ (r.accepted ++ r.inFlight) →
      R.recover ed setup r.durable.resource limits = .ok c := by
    rintro l c hl hc rfl
    refine recover_of_run hhash hl hc hlogs hartifacts (hsetup.1.trans hsynced.holds.game.symm)
      (hsetup.2.trans hsynced.holds.roster.symm) ?_ hnext hfilter hcapture
    rw [hsynced.holds.roster]
    exact R.four
  refine ⟨fun hidle => hrecovers hsynced.known hcore (by rw [hidle, List.append_nil]), ?_⟩
  intro e he
  obtain ⟨job, authored, t, call, hactive, hflight⟩ := exists_storing he
  have hwaits := hinv.classified job authored t call hactive
  rw [hflight, List.mem_singleton] at he
  subst he
  have hone := (hsynced.storing job authored t call hactive).2.2.1
  have haccepted := accepted_of_inFlight hhash hcore hsynced hflight hone hwaits
  obtain ⟨-, next, hcommit, -, -⟩ := commit_of_classify hinv.round hwaits
  refine ⟨hflight, t, next, hwaits, haccepted, hcommit,
    hrecovers (l := history ++ r.accepted ++ [t.received]) ?_ ?_ ?_⟩
  · intro e he
    rcases List.mem_append.1 he with he | he
    · exact hsynced.known e he
    · rw [List.mem_singleton.1 he]
      exact hone
  · refine (Replay.run_append_eq_some R.step).2 ⟨r.core, hcore, ?_⟩
    rw [Replay.run_singleton, SaskuRound.step, hwaits]
    simp only [haccepted, hcommit, if_true]
  · rw [hflight, List.append_assoc]

end

/-! ## A small round that is recovered -/

namespace SmallGroup

/-- The keys of the four seats. -/
def saskuKeys : List SignedEnvelope := (List.range 4).map fun seat => keyEnvelope seat 0

/-- The setup that they lead to. -/
def saskuSetup : SetupEnvelopeCoordinator (primitives fun _ => 0) where
  gameId := game
  round := 1
  roster := saskuRound.ledger.roster
  beaconRequired := false
  setup := {
    gameId := game
    round := 1
    seatCount := 4
    beaconRequired := false
    keyShares := fun seat => if seat < 4 then some (keyShare seat) else none
    state := .complete
    aggregateKey := some ((List.range 4).map fun seat => (keyShare seat).H).sum
    beacon := none }

theorem saskuKeys_verified : ∀ e ∈ saskuKeys, (verifyArtifact ed25519 e).isOk = true := by
  decide +kernel

theorem saskuKeys_artifact : ∀ e ∈ saskuKeys, e.Artifact ed25519 := by
  intro e he
  have hok := saskuKeys_verified e he
  cases hverify : verifyArtifact ed25519 e with
  | error error =>
      rw [hverify] at hok
      cases hok
  | ok artifact => exact (verifyArtifact_eq_ok.1 hverify).2

/-- The same, as verified envelopes. -/
def verifiedKeys : List (VerifiedEnvelope ed25519) :=
  saskuKeys.attach.map fun e => ⟨e.val, saskuKeys_artifact e.val e.property⟩

/-- The session after the setup. -/
def keyedSession : SessionChainRegistry (primitives fun _ => 0) :=
  (SessionChainRegistry.start saskuRound.ledger.gameId saskuRound.ledger.roster).ingestAll
    (verifiedKeys.map Subtype.val)

/-- Its receiver. -/
def keyedCalls : SessionCalls (primitives fun _ => 0) := Serial.start _ _ _ _ keyedSession

/-- The first shares of a seat, after its key. -/
def laterShares (seat : SaskuSeat) : SignedEnvelope :=
  { openingEnvelope seat with
    seq := 1
    prev := (primitives fun _ => 0).hashEnvelope (keyEnvelope seat.val 0) }

/-- A receiver after these events. -/
def recoveredReplica (core : RoundCore (ZMod 41)) (events : List RoundEvent) :
    Option (PersistentSaskuRoundReceiver (primitives fun _ => 0)) :=
  Replay.run (fun r event => PersistentSaskuRoundReceiver.step r saskuRound ed25519 event)
    (.start 4 1000000 keyedCalls core) events

/-- A receiver on the recovered round, until its session has accepted the shares of a seat. -/
def interruptedReplica : Option (PersistentSaskuRoundReceiver (primitives fun _ => 0)) :=
  match saskuRound.recover ed25519 saskuSetup keyedSession .default with
  | .ok core => recoveredReplica core ((acceptedEvents (laterShares 1)).take 4)
  | .error _ => none

end SmallGroup

open SmallGroup in
/-- The process ends before the receipt arrives. -/
theorem recovery_agrees_small : ∃ r, interruptedReplica = some r ∧ r.inFlight = [laterShares 1] ∧
    ∃ t next, saskuRound.classify r.core (laterShares 1) = .ok t ∧ t.accepted = true ∧
      saskuRound.commit r.core t = .ok next ∧
      saskuRound.recover ed25519 saskuSetup r.durable.resource .default = .ok next := by
  have hcomputes : interruptedReplica.map (fun r => (r.failure, r.inFlight,
      (captureSessionHistory ed25519 r.durable.resource
        SaskuRoundRecoveryLimits.default.session).isOk)) = some (none, [laterShares 1], true) := by
    decide +kernel
  obtain ⟨r, hr, hfields⟩ := Option.map_eq_some_iff.1 hcomputes
  obtain ⟨hhealthy, hflight, hcaptured⟩ := by simpa using hfields
  have hreplica := hr
  unfold interruptedReplica at hreplica
  split at hreplica
  · rename_i core hstart
    cases hcapture : captureSessionHistory ed25519 r.durable.resource
        SaskuRoundRecoveryLimits.default.session with
    | error message =>
        rw [hcapture] at hcaptured
        cases hcaptured
    | ok captured =>
        have hkeys : ∀ e ∈ verifiedKeys, saskuRound.isTraffic e.val = false := by decide +kernel
        obtain ⟨-, hinterrupted⟩ := recovery_agrees saskuRound ed25519 saskuSetup .default .default
          (E := {laterShares 1}) (Set.injOn_singleton _ _) ⟨rfl, rfl⟩ verifiedKeys rfl
          (fun e he htraffic => by
            rw [hkeys e he] at htraffic
            cases htraffic) rfl (by rintro id e hmem; cases hmem) hstart 4 1000000
          ((acceptedEvents (laterShares 1)).take 4) (by
            intro event hevent
            simp only [acceptedEvents, List.take, List.mem_cons, List.not_mem_nil, or_false]
              at hevent
            rcases hevent with rfl | rfl | rfl | rfl <;> trivial) hreplica hhealthy rfl hcapture
        obtain ⟨-, t, next, hrecovered⟩ := hinterrupted (laterShares 1) (by simp [hflight])
        exact ⟨r, hr, hflight, t, next, hrecovered⟩
  · cases hreplica

end Tablefolk
