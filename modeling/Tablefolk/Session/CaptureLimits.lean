import Tablefolk.Session.Capture

/-!
# The limits of a capture

What `captureSessionHistory` returns for a registry of verified envelopes: all of it, unless a
limit would be exceeded.

* `checkHeads_eq`: the heads are refused exactly when their prefixes are more than the limit.
* `captureSessionHistory_eq`: the three ways a capture ends.
* `unchanged_iff`: a capture is unchanged until a chain grows.
-/

namespace Tablefolk

/-- The limits that `captureSessionHistory` does not refuse. -/
def SessionHistoryCaptureLimits.Admitted (limits : SessionHistoryCaptureLimits) : Prop :=
  1 ≤ limits.maxEnvelopes ∧ limits.maxEnvelopes ≤ MAX_SAFE_INTEGER ∧
    1 ≤ limits.maxBytes ∧ limits.maxBytes ≤ MAX_SAFE_INTEGER

/-- The values of `envelopeCount` while the heads are read. -/
def envelopeCounts (maxEnvelopes envelopeCount : ℕ) : List ChainHead → List ℕ
  | [] => [envelopeCount]
  | head :: rest =>
      if maxEnvelopes - envelopeCount ≤ head.seq then [envelopeCount]
      else envelopeCount :: envelopeCounts maxEnvelopes (envelopeCount + (head.seq + 1)) rest

/-- The values of `byteCount` while the envelopes are read. -/
def byteCounts (maxBytes byteCount : ℕ) : List SignedEnvelope → List ℕ
  | [] => [byteCount]
  | e :: rest =>
      if maxBytes - byteCount < e.byteLength then [byteCount]
      else byteCount :: byteCounts maxBytes (byteCount + e.byteLength) rest

/-- A running count never passes its limit. -/
theorem envelopeCounts_le {maxEnvelopes used : ℕ} {heads : List ChainHead}
    (hused : used ≤ maxEnvelopes) : ∀ count ∈ envelopeCounts maxEnvelopes used heads,
      count ≤ maxEnvelopes := by
  induction heads generalizing used with
  | nil => simpa [envelopeCounts] using hused
  | cons head rest ih =>
      rw [envelopeCounts]
      split
      · simpa using hused
      · intro count hcount
        rcases List.mem_cons.1 hcount with rfl | hcount
        · exact hused
        · exact ih (by omega) count hcount

/-- A running sum of bytes never passes its limit. -/
theorem byteCounts_le {maxBytes used : ℕ} {envelopes : List SignedEnvelope}
    (hused : used ≤ maxBytes) : ∀ count ∈ byteCounts maxBytes used envelopes,
      count ≤ maxBytes := by
  induction envelopes generalizing used with
  | nil => simpa [byteCounts] using hused
  | cons e rest ih =>
      rw [byteCounts]
      split
      · simpa using hused
      · intro count hcount
        rcases List.mem_cons.1 hcount with rfl | hcount
        · exact hused
        · exact ih (by omega) count hcount

section

variable {q : ℕ} {G : Type} [AddCommGroup G] [Module (ZMod q) G] {P : Primitives q G}
  {session later : SessionChainRegistry P} {logs logs' : ℕ → List SignedEnvelope}
  {history : CapturedSessionHistory P} {ed : Ed25519} {limits : SessionHistoryCaptureLimits}

/-- `bySeat`: an artifact is pushed to the seat of its head, and that is the seat of its sender. -/
def CapturedSessionHistory.bySeat (history : CapturedSessionHistory P) (seat : ℕ) :
    List SignedEnvelope :=
  history.envelopes.filter fun e => history.roster.seatOf e.from_ = some seat

/-! ## The heads -/

/-- The head of a seat is the end of its log. -/
theorem HoldsLogs.head_eq_some (hlogs : HoldsLogs session logs) {seat : ℕ} {head : ChainHead}
    (hhead : (session.chains seat).head = some head) :
    head.from_ = (session.chains seat).sender ∧ (logs seat).length = head.seq + 1 ∧
      head.hash = prevAfter P (logs seat) := by
  rw [(hlogs.chain seat).head] at hhead
  obtain ⟨last, hlast, rfl⟩ := Option.map_eq_some_iff.1 hhead
  have hpos : 0 < (logs seat).length := by
    rw [List.length_pos_iff]
    rintro hnil
    simp [hnil] at hlast
  refine ⟨rfl, ?_, ?_⟩
  · show (logs seat).length = (logs seat).length - 1 + 1
    omega
  · rw [prevAfter, hlast]
    rfl

theorem HoldsLogs.head_eq_none (hlogs : HoldsLogs session logs) {seat : ℕ}
    (hhead : (session.chains seat).head = none) : logs seat = [] := by
  rw [(hlogs.chain seat).head] at hhead
  exact List.getLast?_eq_none_iff.1 (Option.map_eq_none_iff.1 hhead)

/-- **The heads are refused exactly when their prefixes are more than the limit.** -/
theorem checkHeads_eq (hlogs : HoldsLogs session logs) {maxEnvelopes used : ℕ} {seats : List ℕ}
    {previous : Option ℕ} (hseats : ∀ seat ∈ seats, seat < session.roster.size)
    (hordered : seats.Pairwise (· < ·)) (hprevious : ∀ last, previous = some last →
      ∀ seat ∈ seats, last < seat)
    (hsafe : ∀ seat, (logs seat).length ≤ MAX_SAFE_INTEGER + 1) (hused : used ≤ maxEnvelopes) :
    checkHeads session.roster maxEnvelopes used previous
        (seats.filterMap fun seat => (session.chains seat).head) =
      if used + (seats.flatMap logs).length ≤ maxEnvelopes then .ok ()
      else .error "Session history envelope limit exceeded" := by
  induction seats generalizing used previous with
  | nil =>
      rw [List.flatMap_nil, List.length_nil, if_pos (by omega)]
      rfl
  | cons seat rest ih =>
      obtain ⟨hbelow, hordered⟩ := List.pairwise_cons.1 hordered
      have hrest : ∀ seat ∈ rest, seat < session.roster.size := fun other hother =>
        hseats other (List.mem_cons_of_mem _ hother)
      rw [List.flatMap_cons, List.length_append]
      cases hhead : (session.chains seat).head with
      | none =>
          rw [List.filterMap_cons_none (f := fun seat => (session.chains seat).head) hhead,
            ih hrest hordered (fun last hlast other hother =>
              hprevious last hlast other (List.mem_cons_of_mem _ hother)) hused,
            hlogs.head_eq_none hhead, List.length_nil, Nat.zero_add]
      | some head =>
          obtain ⟨hfrom, hlength, -⟩ := hlogs.head_eq_some hhead
          have hseat := hseats seat List.mem_cons_self
          have hbound := hsafe seat
          have horder : ¬ ((∃ last, previous = some last ∧ seat ≤ last) ∨
              MAX_SAFE_INTEGER < head.seq) := by
            rintro (⟨last, hlast, hle⟩ | hlt)
            · have := hprevious last hlast seat List.mem_cons_self
              omega
            · omega
          rw [List.filterMap_cons_some (f := fun seat => (session.chains seat).head) hhead,
            checkHeads, hfrom, seatOf_sender hlogs hseat]
          simp only
          rw [throwIf_neg horder, ok_bind]
          by_cases hover : maxEnvelopes - used ≤ head.seq
          · rw [throwIf_pos hover, if_neg (by omega)]
            rfl
          · rw [throwIf_neg hover, ok_bind, ih hrest hordered (by
              rintro last ⟨⟩ other hother
              exact hbelow other hother) (by omega), hlength]
            rw [Nat.add_assoc]

/-! ## The prefixes -/

/-- The prefix of a head is the log of its seat. -/
theorem readPrefix_eq (hlogs : HoldsLogs session logs) {seat : ℕ} {head : ChainHead}
    (hseat : seat < session.roster.size) (hhead : (session.chains seat).head = some head)
    (hsafe : (logs seat).length ≤ MAX_SAFE_INTEGER + 1) :
    readPrefix session head = .ok (logs seat) := by
  obtain ⟨hfrom, hlength, -⟩ := hlogs.head_eq_some hhead
  unfold readPrefix
  rw [hfrom, hlogs.readRange (seatOf_sender hlogs hseat) (Nat.zero_le _) (by omega),
    if_pos (by omega)]
  simp only [List.drop_zero, Nat.sub_zero]
  rw [List.take_of_length_le (by omega), throwIf_neg (by omega)]
  rfl

/-- The loop over a prefix passes on the rest of the log of its head. -/
theorem checkPrefix_eq {sender : IdentityPublicKey} {head : ChainHead}
    (before rest : List SignedEnvelope) (hlinked : Linked P sender (before ++ rest))
    (hfrom : head.from_ = sender) (hhash : head.hash = prevAfter P (before ++ rest))
    (hrest : ∀ e ∈ rest, e.Artifact ed ∧ e.game = session.gameId) :
    checkPrefix P ed session.gameId head before.length (prevAfter P before) rest = .ok () := by
  induction rest generalizing before with
  | nil =>
      rw [checkPrefix, throwIf_neg]
      rw [hhash, List.append_nil, not_not]
  | cons e rest ih =>
      obtain ⟨hartifact, hgame⟩ := hrest e List.mem_cons_self
      obtain ⟨hsender, hseq, hprev⟩ := hlinked before e rest rfl
      have hstep : before ++ e :: rest = (before ++ [e]) ++ rest := by simp
      have hnext := ih (before ++ [e]) (hstep ▸ hlinked) (hstep ▸ hhash) fun m hm =>
        hrest m (List.mem_cons_of_mem _ hm)
      have hafter : prevAfter P (before ++ [e]) = P.hashEnvelope e := by
        rw [prevAfter, List.getLast?_concat]
        rfl
      rw [List.length_append, List.length_singleton, hafter] at hnext
      rw [checkPrefix, verifyArtifact_of_artifact hartifact]
      show (throwIf _ _ >>= fun _ => _) = _
      rw [throwIf_neg, ok_bind, hnext]
      rintro (h | h | h | h)
      · exact h hgame
      · exact h (hsender.trans hfrom.symm)
      · exact h hseq
      · exact h hprev

/-- The prefixes of the heads of some seats, and that all of them pass the loop. -/
theorem readPrefixes_eq (hlogs : HoldsLogs session logs) {seats : List ℕ}
    (hseats : ∀ seat ∈ seats, seat < session.roster.size)
    (hsafe : ∀ seat, (logs seat).length ≤ MAX_SAFE_INTEGER + 1)
    (hartifact : ∀ seat, ∀ e ∈ logs seat, e.Artifact ed) :
    ∃ prefixes, (seats.filterMap fun seat => (session.chains seat).head).mapM
        (readPrefix session) = .ok prefixes ∧ prefixes.flatten = seats.flatMap logs ∧
      ((seats.filterMap fun seat => (session.chains seat).head).zip prefixes).forM
        (fun captured => checkPrefix P ed session.gameId captured.1 0 ZERO_HASH captured.2) =
          .ok () := by
  induction seats with
  | nil => exact ⟨[], rfl, rfl, rfl⟩
  | cons seat rest ih =>
      obtain ⟨prefixes, hread, hflat, hcheck⟩ := ih fun other hother =>
        hseats other (List.mem_cons_of_mem _ hother)
      cases hhead : (session.chains seat).head with
      | none =>
          rw [List.filterMap_cons_none (f := fun seat => (session.chains seat).head) hhead]
          refine ⟨prefixes, hread, ?_, hcheck⟩
          rw [hflat, List.flatMap_cons, hlogs.head_eq_none hhead, List.nil_append]
      | some head =>
          obtain ⟨hfrom, -, hhash⟩ := hlogs.head_eq_some hhead
          have hfirst := checkPrefix_eq [] (logs seat)
            (hlogs.chain seat).linked hfrom hhash fun e he =>
              ⟨hartifact seat e he, hlogs.game seat e he⟩
          rw [List.filterMap_cons_some (f := fun seat => (session.chains seat).head) hhead]
          refine ⟨logs seat :: prefixes, ?_, ?_, ?_⟩
          · rw [List.mapM_cons, readPrefix_eq hlogs (hseats seat List.mem_cons_self) hhead
              (hsafe seat), ok_bind, hread]
            rfl
          · rw [List.flatten_cons, hflat, List.flatMap_cons]
          · rw [List.zip_cons_cons]
            show (checkPrefix P ed session.gameId head 0 ZERO_HASH (logs seat) >>= fun _ => _) = _
            rw [show checkPrefix P ed session.gameId head 0 ZERO_HASH (logs seat) = .ok () from
              hfirst, ok_bind]
            exact hcheck

/-! ## A capture -/

/-- A hash that the log of its sender holds is a duplicate. -/
theorem HoldsLogs.isDuplicate (hlogs : HoldsLogs session logs) {seat : ℕ} {e : SignedEnvelope}
    (he : e ∈ logs seat) : (session.classify e).isDuplicate = true := by
  have hseat : seat < session.roster.size := by
    by_contra hle
    rw [hlogs.absent seat (not_lt.1 hle)] at he
    cases he
  obtain ⟨i, hi⟩ := List.getElem?_of_mem he
  obtain ⟨hfrom, hseq, -⟩ := (hlogs.chain seat).linked.getElem? hi
  have hclassify := hlogs.classify_duplicate.2
    ⟨hlogs.game seat e he, seat, by rw [hfrom, seatOf_sender hlogs hseat], hseq ▸ hi, rfl⟩
  rw [hclassify]
  rfl

/-- **A capture is unchanged until a chain grows.** -/
theorem unchanged_iff (hlogs : HoldsLogs session logs) (hlater : HoldsLogs later logs')
    (hgame : later.gameId = session.gameId) (hroster : later.roster = session.roster)
    (hgrow : ∀ seat, logs seat <+: logs' seat) (hheads : history.heads = session.heads)
    (henvelopes : history.envelopes = held session logs) (hown : history.game = session.gameId)
    (hseats : history.roster = session.roster) :
    history.Unchanged later ↔
      ∀ seat, (later.chains seat).expectedSeq = (session.chains seat).expectedSeq := by
  have hchains : (∀ seat, (later.chains seat).expectedSeq = (session.chains seat).expectedSeq) ↔
      logs' = logs := by
    simp only [(hlogs.chain _).expectedSeq, (hlater.chain _).expectedSeq]
    refine ⟨fun h => funext fun seat => ?_, fun h seat => by rw [h]⟩
    exact ((hgrow seat).eq_of_length (h seat).symm).symm
  rw [hchains]
  constructor
  · rintro ⟨-, hsame, -⟩
    rw [hheads] at hsame
    -- the heads of a registry, by the sequence numbers of its logs
    by_contra hne
    obtain ⟨seat, hne⟩ := Function.ne_iff.1 hne
    have hlt : (logs seat).length < (logs' seat).length :=
      lt_of_le_of_ne (hgrow seat).length_le fun h => hne ((hgrow seat).eq_of_length h).symm
    have hseat : seat < later.roster.size := by
      by_contra hle
      rw [hlater.absent seat (not_lt.1 hle)] at hlt
      simp at hlt
    obtain ⟨head, hhead⟩ : ∃ head, (later.chains seat).head = some head := by
      cases hhead : (later.chains seat).head with
      | some head => exact ⟨head, rfl⟩
      | none =>
          rw [hlater.head_eq_none hhead] at hlt
          simp at hlt
    obtain ⟨hfrom, hlength, -⟩ := hlater.head_eq_some hhead
    have hmem : head ∈ later.heads := List.mem_filterMap.2 ⟨seat, List.mem_range.2 hseat, hhead⟩
    rw [hsame] at hmem
    obtain ⟨other, hother, hold⟩ := List.mem_filterMap.1 hmem
    obtain ⟨hfrom', hlength', -⟩ := hlogs.head_eq_some hold
    have hsender := seatOf_sender hlater hseat
    rw [← hfrom, hfrom', hroster, seatOf_sender hlogs (List.mem_range.1 hother)] at hsender
    cases hsender
    omega
  · intro hsame
    rw [hsame] at hlater
    refine ⟨fun e he => ?_, ?_, hgame.trans hown.symm, hroster.trans hseats.symm⟩
    · rw [henvelopes] at he
      obtain ⟨seat, -, he⟩ := List.mem_flatMap.1 he
      exact hlater.isDuplicate he
    · rw [hheads, SessionChainRegistry.heads, SessionChainRegistry.heads, hroster]
      refine List.filterMap_congr fun seat _ => ?_
      rw [(hlater.chain seat).head, (hlogs.chain seat).head, hlater.sender, hlogs.sender, hroster]

/-- The envelopes of a seat among all that a registry holds. -/
theorem HoldsLogs.filter_held (hlogs : HoldsLogs session logs) (seat : ℕ) :
    (held session logs).filter (fun e => session.roster.seatOf e.from_ = some seat) =
      logs seat := by
  have hfilter : ∀ other, other < session.roster.size →
      (logs other).filter (fun e => session.roster.seatOf e.from_ = some seat) =
        if other = seat then logs seat else [] := by
    intro other hother
    have hall : ∀ e ∈ logs other, session.roster.seatOf e.from_ = some other := by
      intro e he
      obtain ⟨i, hi⟩ := List.getElem?_of_mem he
      rw [((hlogs.chain other).linked.getElem? hi).1, seatOf_sender hlogs hother]
    split
    · rename_i heq
      subst heq
      exact List.filter_eq_self.2 fun e he => by simp [hall e he]
    · rename_i hne
      exact List.filter_eq_nil_iff.2 fun e he => by simp [hall e he, hne]
  have hsum : ∀ size, size ≤ session.roster.size →
      ((List.range size).flatMap logs).filter
          (fun e => session.roster.seatOf e.from_ = some seat) =
        if seat < size then logs seat else [] := by
    intro size
    induction size with
    | zero => simp
    | succ size ih =>
        intro hle
        rw [List.range_succ, List.flatMap_append, List.filter_append, ih (by omega),
          List.flatMap_singleton, hfilter size (by omega)]
        by_cases heq : size = seat
        · rw [if_pos heq, if_neg (by omega), if_pos (by omega), List.nil_append]
        · rw [if_neg heq, List.append_nil]
          exact if_congr ⟨fun h => by omega, fun h => by omega⟩ rfl rfl
  rw [held, hsum _ le_rfl]
  split
  · rfl
  · rename_i hle
    exact (hlogs.absent seat (not_lt.1 hle)).symm

/-- **The three ways a capture ends.** -/
theorem captureSessionHistory_eq (hlogs : HoldsLogs session logs) (hlimits : limits.Admitted)
    (hartifact : ∀ seat, ∀ e ∈ logs seat, e.Artifact ed) :
    captureSessionHistory ed session limits =
      if limits.maxEnvelopes < (held session logs).length then
        .error "Session history envelope limit exceeded"
      else if limits.maxBytes < totalBytes (held session logs) then
        .error "Invalid or over-budget session history envelope bytes"
      else .ok ⟨session.gameId, session.roster, session.heads, held session logs⟩ := by
  have hseats : ∀ seat ∈ List.range session.roster.size, seat < session.roster.size :=
    fun seat hseat => List.mem_range.1 hseat
  have hsafe : ∀ seat, (logs seat).length ≤ MAX_SAFE_INTEGER + 1 := by
    intro seat
    rcases List.eq_nil_or_concat (logs seat) with hnil | ⟨before, last, hlog⟩
    · simp [hnil]
    · have hlast : (logs seat)[before.length]? = some last := by simp [hlog]
      have hseq := ((hlogs.chain seat).linked.getElem? hlast).2.1
      have hle := (hartifact seat last (List.mem_of_getElem? hlast)).seq_le
      rw [hlog, List.length_concat]
      omega
  have hfirst : ∀ last, (none : Option ℕ) = some last →
      ∀ seat ∈ List.range session.roster.size, last < seat := by simp
  have hheads := checkHeads_eq hlogs hseats List.pairwise_lt_range hfirst hsafe
    (Nat.zero_le limits.maxEnvelopes)
  obtain ⟨prefixes, hread, hflat, hcheck⟩ := readPrefixes_eq hlogs hseats hsafe hartifact
  unfold captureSessionHistory
  rw [throwIf_neg (by
    rintro (h | h | h | h)
    · exact absurd hlimits.1 (by omega)
    · exact absurd hlimits.2.1 (by omega)
    · exact absurd hlimits.2.2.1 (by omega)
    · exact absurd hlimits.2.2.2 (by omega)), ok_bind]
  simp only
  rw [SessionChainRegistry.heads, hheads, Nat.zero_add]
  by_cases hcount : limits.maxEnvelopes < (held session logs).length
  · rw [if_neg (by rw [held] at hcount; omega), if_pos hcount]
    rfl
  · rw [if_pos (by rw [held] at hcount; omega), if_neg hcount, ok_bind, hread, ok_bind, hflat]
    by_cases hbytes : limits.maxBytes < totalBytes (held session logs)
    · rw [throwIf_pos, if_pos hbytes]
      · rfl
      · rw [← Bool.not_eq_true, withinBytes_iff (Nat.zero_le _)]
        rw [held] at hbytes
        omega
    · rw [throwIf_neg, ok_bind, hcheck, ok_bind, throwIf_neg, if_neg hbytes]
      · rfl
      · rw [not_not, unchanged_iff hlogs hlogs rfl rfl (fun _ => List.prefix_rfl) rfl rfl rfl rfl]
        exact fun _ => rfl
      · rw [← Bool.not_eq_true, not_not, withinBytes_iff (Nat.zero_le _)]
        rw [held] at hbytes
        omega

/-- An artifact: an envelope that has been decoded and verified. -/
abbrev VerifiedEnvelope (ed : Ed25519) := { e : SignedEnvelope // e.Artifact ed }

/-- **A capture is complete, or a limit would be exceeded**: on every registry that has taken in
verified envelopes, and until a chain grows it stays unchanged. -/
theorem captured_history_complete (ed : Ed25519) (gameId : GameId) (roster : Roster P)
    (received : List (VerifiedEnvelope ed)) (limits : SessionHistoryCaptureLimits) :
    let session := (SessionChainRegistry.start gameId roster).ingestAll (received.map Subtype.val)
    (¬ limits.Admitted → captureSessionHistory ed session limits =
      .error "Session history limits must be positive safe integers") ∧
    (limits.Admitted →
      (∀ count ∈ envelopeCounts limits.maxEnvelopes 0 session.heads,
        count ≤ limits.maxEnvelopes ∧ count ≤ MAX_SAFE_INTEGER) ∧
      (∀ envelopes, ∀ count ∈ byteCounts limits.maxBytes 0 envelopes,
        count ≤ limits.maxBytes ∧ count ≤ MAX_SAFE_INTEGER) ∧
      ∃ logs, HoldsLogs session logs ∧
        match captureSessionHistory ed session limits with
        | .error message =>
            message = "Session history envelope limit exceeded" ∧
              limits.maxEnvelopes < (held session logs).length ∨
            message = "Invalid or over-budget session history envelope bytes" ∧
              limits.maxBytes < totalBytes (held session logs)
        | .ok history =>
            (∀ seat, history.bySeat seat = logs seat) ∧
            history.envelopes = held session logs ∧
            (held session logs).length ≤ limits.maxEnvelopes ∧
            totalBytes (held session logs) ≤ limits.maxBytes ∧
            ∀ further : List SignedEnvelope, history.Unchanged (session.ingestAll further) ↔
              ∀ seat, ((session.ingestAll further).chains seat).expectedSeq =
                (session.chains seat).expectedSeq) := by
  intro session
  constructor
  · intro hlimits
    unfold captureSessionHistory
    rw [throwIf_pos]
    · rfl
    · unfold SessionHistoryCaptureLimits.Admitted at hlimits
      omega
  · intro hlimits
    obtain ⟨-, hsafeEnvelopes, -, hsafeBytes⟩ := id hlimits
    refine ⟨fun count hcount => ?_, fun envelopes count hcount => ?_, ?_⟩
    · have hle := envelopeCounts_le (Nat.zero_le _) count hcount
      exact ⟨hle, hle.trans hsafeEnvelopes⟩
    · have hle := byteCounts_le (Nat.zero_le _) count hcount
      exact ⟨hle, hle.trans hsafeBytes⟩
    · obtain ⟨-, -, logs, hlogs, -, hmem⟩ :=
        (HoldsLogs.start gameId roster).ingestAll (received.map Subtype.val)
      have hartifact : ∀ seat, ∀ e ∈ logs seat, e.Artifact ed := by
        intro seat e he
        rcases hmem seat e he with h | h
        · cases h
        · obtain ⟨artifact, -, rfl⟩ := List.mem_map.1 h
          exact artifact.property
      refine ⟨logs, hlogs, ?_⟩
      rw [captureSessionHistory_eq hlogs hlimits hartifact]
      by_cases hcount : limits.maxEnvelopes < (held session logs).length
      · rw [if_pos hcount]
        exact .inl ⟨rfl, hcount⟩
      · rw [if_neg hcount]
        by_cases hbytes : limits.maxBytes < totalBytes (held session logs)
        · rw [if_pos hbytes]
          exact .inr ⟨rfl, hbytes⟩
        · rw [if_neg hbytes]
          refine ⟨hlogs.filter_held, rfl, not_lt.1 hcount, not_lt.1 hbytes, fun further => ?_⟩
          obtain ⟨hgame, hroster, logs', hlater, hgrow, -⟩ := hlogs.ingestAll further
          exact unchanged_iff hlogs hlater hgame hroster hgrow rfl rfl rfl rfl

end

end Tablefolk
