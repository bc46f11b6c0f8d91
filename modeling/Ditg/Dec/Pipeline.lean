import Ditg.Dec.Summary
import Ditg.Log.Protocol

/-!
# From the receiver to the decoder

The records that a receiver builds for its packets are converted to the network format, sent to
the log server in batches, converted back there and written to a file, which the decoder reads
record by record (`readLog`) and counts by flows.

* `readLog_flatMap`: the decoder reads the records of a file;
* `pipeline_of_reach`: whatever the network and the log server do, the decoder finds the first
  records that the receiver has built, each of them once and as it was built, and all of them
  when nothing is under way any more; and it reports packets and errors accordingly.
-/

namespace Ditg

open Bytes Memory

section Reading

variable {F : Type}

/-! ## The file -/

/-- The loop over a binary log: `readline` as long as `fread` finds a record. -/
def readLog (host : Host F) (bs : List UInt8) : List (Info F) :=
  if sizeofInfo ≤ bs.length then Info.ofMem host bs :: readLog host (bs.drop sizeofInfo) else []
termination_by bs.length
decreasing_by
  have hpos : 0 < sizeofInfo := by decide
  rw [List.length_drop]
  omega

/-- A host finds the doubles of a record as it has stored them. -/
def Host.Keeps (host : Host F) (r : Info F) : Prop :=
  host.get (host.put r.txTime3) = r.txTime3 ∧ host.get (host.put r.rxTime3) = r.rxTime3

/-- A record is read from its image, whatever follows it. -/
theorem ofMem_toMem {host : Host F} {r : Info F} (h : host.Keeps r) (bs : List UInt8) :
    Info.ofMem host (r.toMem host ++ bs) = r := by
  have htx (bs : List UInt8) : (host.put r.txTime3 ++ bs).take 8 = host.put r.txTime3 :=
    List.take_left' (host.length_put _)
  have hrx (bs : List UInt8) :
      ((host.put r.txTime3 ++ (host.put r.rxTime3 ++ bs)).drop 8).take 8 = host.put r.rxTime3 := by
    rw [List.drop_left' (host.length_put _), List.take_left' (host.length_put _)]
  obtain ⟨hget, hget'⟩ := h
  obtain ⟨_, _, _, _, _, _, _, _, _, _, _, _, _⟩ := r
  simp only at htx hrx hget hget'
  simp [Info.ofMem, Info.toMem, drop_store32_append, drop_address_append, charArray_append,
    htx, hrx, hget, hget']

/-- The records of a file, with what is left of one behind them. -/
theorem readLog_flatMap {host : Host F} {recs : List (Info F)} (h : ∀ r ∈ recs, host.Keeps r)
    {bs : List UInt8} (hbs : bs.length < sizeofInfo) :
    readLog host (recs.flatMap (·.toMem host) ++ bs) = recs := by
  induction recs with
  | nil => rw [readLog, List.flatMap_nil, List.nil_append, if_neg (not_le.2 hbs)]
  | cons r recs ih =>
    have hlen : (r.toMem host).length = sizeofInfo := r.length_toMem host
    rw [List.flatMap_cons, List.append_assoc, readLog, List.length_append, hlen,
      if_pos (Nat.le_add_right ..), ofMem_toMem (h r List.mem_cons_self),
      List.drop_left' hlen, ih fun r hr => h r (List.mem_cons_of_mem _ hr)]

end Reading

/-! ## The connection -/

section Sending

variable {F : Type} [CDouble F] {logbuffer_size : ℕ} {host₁ host₂ : Host F} {s s' : LogLink F}
  {a : LogAction F}

/-- The records that a step sends. -/
def LogAction.sent : LogAction F → List (Info F)
  | .sendBatch recs => recs
  | .sendStop | .close | .deliverData _ | .deliverStop | .deliverClose | .select _ _ | .recv _ => []

/-- What has been sent is sent in order. -/
theorem LinkInv.sent_step (hinv : LinkInv logbuffer_size host₁ host₂ s)
    (h : (logLink logbuffer_size host₁ host₂).step s a = some s') :
    s'.before ++ s'.after = s.before ++ s.after ++ a.sent := by
  change s.step logbuffer_size host₁ host₂ a = some s' at h
  cases a with
  | sendBatch recs =>
    simp only [LogLink.step] at h
    split_ifs at h with hclosed hsent <;> cases h
    · exact (List.append_assoc ..).symm
    · -- Nothing has been sent after the stop message.
      have hafter := (hinv.2 (by simpa using hsent)).1
      simp only [hafter, List.append_nil, LogAction.sent]
  | select newSockSignal newSockLog =>
    simp only [LogLink.step] at h
    split_ifs at h
    obtain ⟨server, -, rfl⟩ := Option.map_eq_some_iff.1 h
    exact (List.append_nil _).symm
  | recv k =>
    obtain ⟨b, server, -, -, -, -, rfl⟩ := step_recv_eq_some h
    exact (List.append_nil _).symm
  | sendStop | close | deliverData | deliverStop | deliverClose =>
    simp only [LogLink.step] at h
    split_ifs at h
    cases h
    exact (List.append_nil _).symm

/-- The file of the server always holds the first records that have been sent, and all of them
    when everything has been read. -/
theorem LinkInv.exists_take (hinv : LinkInv logbuffer_size host₁ host₂ s) :
    ∃ n ≤ (s.before ++ s.after).length,
      s.server.out = ((s.before ++ s.after).take n).flatMap (stored host₁ host₂) ∧
      (s.sock = [] → s.wire = [] → (∀ b, s.server.pc ≠ .recv b) →
        n = (s.before ++ s.after).length) := by
  obtain ⟨⟨read, hcat, -, n, done, hdone, hout, hread⟩, -⟩ := hinv
  generalize s.before ++ s.after = recs at hcat
  -- The records that have been dealt with are the first ones that have been sent.
  have hprefix : done <+: recs.flatMap (·.toMem host₁) := by
    rw [hcat]
    cases hpc : s.server.pc with
    | recv b =>
      rw [hpc] at hread
      obtain ⟨got, rfl, -⟩ := hread
      rw [List.append_assoc]
      exact List.prefix_append _ _
    | select =>
      rw [hpc] at hread
      exact hread ▸ List.prefix_append _ _
    | left =>
      rw [hpc] at hread
      exact hread ▸ List.prefix_append _ _
  have hlen := length_flatMap_toMem host₁ recs
  have hn : n ≤ recs.length := by
    have := hprefix.length_le
    rw [hdone, hlen] at this
    exact Nat.le_of_mul_le_mul_right this (by decide)
  have htake : done = (recs.take n).flatMap (·.toMem host₁) := by
    have hsplit : recs.flatMap (·.toMem host₁) =
        (recs.take n).flatMap (·.toMem host₁) ++ (recs.drop n).flatMap (·.toMem host₁) := by
      rw [← List.flatMap_append, List.take_append_drop]
    refine List.IsPrefix.eq_of_length (List.prefix_of_prefix_length_le hprefix
      (hsplit ▸ List.prefix_append _ _) ?_) ?_ <;>
      rw [length_flatMap_toMem, List.length_take_of_le hn, hdone]
  refine ⟨n, hn, ?_, fun hsock hwire hpc => ?_⟩
  · have hflat := infosntohBuffer_flatMap host₁ host₂ (recs.take n)
    rw [List.length_take_of_le hn, ← htake] at hflat
    rw [hout, List.nil_append, hflat]
  · have hall : read = done := by
      cases h : s.server.pc with
      | recv b => exact absurd h (hpc b)
      | select => simpa [h] using hread
      | left => simpa [h] using hread
    rw [hsock, hwire, List.append_nil, hall] at hcat
    have := congrArg List.length hcat
    rw [List.length_append, List.length_nil, Nat.add_zero, hlen, hdone] at this
    exact (Nat.eq_of_mul_eq_mul_right (by decide) this).symm

end Sending

/-! ## The counts -/

section Counting

variable {F : Type} [CDouble F] (flownumsel : UInt32) (log : List (Info F))

/-- Every record is valid or an error. -/
theorem counts_decodeLoop (flagfilter : ℕ) :
    (decodeLoop flagfilter flownumsel log).pktvalid =
        log.countP (errornum flagfilter flownumsel · = 0) ∧
      (decodeLoop flagfilter flownumsel log).pkterr =
        log.countP (errornum flagfilter flownumsel · ≠ 0) := by
  induction log using List.reverseRecOn with
  | nil => exact ⟨rfl, rfl⟩
  | append_singleton log infos ih =>
    rw [decodeLoop, List.foldl_concat, ← decodeLoop, DecodeState.record]
    by_cases h : errornum flagfilter flownumsel infos > 0
    · simp [h, h.ne', ih]
    · simp [Nat.eq_zero_of_not_pos h, ih]

/-- Without a filter, a flow has the packets of its valid records. -/
theorem pktrecv_decodeLoop :
    (∀ k, k ∈ (decodeLoop 0 flownumsel log).flowinfo.map StFlowInfo.key ↔
      ∃ r ∈ log, timeErrornum r = 0 ∧ r.key = k) ∧
    ∀ f ∈ (decodeLoop 0 flownumsel log).flowinfo,
      f.pktrecv = log.countP fun r => timeErrornum r = 0 ∧ r.key = f.key := by
  have hvalid : valid 0 flownumsel log = log.filter (timeErrornum · = 0) := by
    simp [valid, entered, errornum]
  rw [flowinfo_decodeLoop, hvalid]
  refine ⟨fun k => ?_, fun f hf => ?_⟩
  · have hkeys := (flows F).mem_keys_table (log.filter (timeErrornum · = 0)) k
    refine hkeys.trans ?_
    simp only [List.mem_map, List.mem_filter, decide_eq_true_eq, and_assoc]
    rfl
  · have hsum := (flows F).sum_table (m := StFlowInfo.pktrecv) (w := fun _ => 1) (fun _ => rfl)
      pktrecv_next ((log.filter (timeErrornum · = 0)).filter ((flows F).keyOf · = f.key))
    have hone := (flows F).table_of_mem hf
    change (flows F).table
      (List.filter (fun r => decide ((flows F).keyOf r = f.key)) _) = [f] at hone
    rw [hone, List.map_singleton, List.sum_singleton, List.map_const', List.sum_replicate_nat,
      mul_one, List.filter_filter, ← List.countP_eq_length_filter] at hsum
    rw [hsum]
    refine List.countP_congr fun r _ => ?_
    rw [Bool.and_eq_true, decide_eq_true_eq, decide_eq_true_eq, decide_eq_true_eq]
    exact and_comm

end Counting

/-! ## From the receiver to the decoder -/

section Pipeline

variable (host₁ host₂ : Host ℚ)

/-- A record that has been built for a packet, with its times. -/
def Info.Timed (r : Info ℚ) : Prop := ∃ time1 txUsec time2 rxUsec,
  HasTimes r time1 txUsec time2 rxUsec ∧ (0 ≤ time1 ∧ time1 < 2 ^ 31) ∧
    (0 ≤ time2 ∧ time2 < 2 ^ 31) ∧ (0 ≤ txUsec ∧ txUsec < 1000000) ∧
    (0 ≤ rxUsec ∧ rxUsec < 1000000)

/-- A host finds the seconds of a time, with its microseconds, as it has stored them. -/
def Host.KeepsSeconds (host : Host ℚ) : Prop :=
  ∀ time usec : ℤ, 0 ≤ time → 0 ≤ usec → usec < 1000000 →
    host.get (host.put (seconds ℚ time usec)) = seconds ℚ time usec

/-- The receiver sends records that it has built, converted to the network format. -/
def SendsBuilt (_ : LogLink ℚ) (a : LogAction ℚ) : Prop :=
  ∃ rs : List (Info ℚ), a.sent = rs.map (infosHostToNet host₁.endian) ∧ ∀ r ∈ rs, r.Timed

variable {host₁ host₂} {logbuffer_size : ℕ} {s : LogLink ℚ}

theorem Host.KeepsSeconds.keeps (h : host₂.KeepsSeconds) {r : Info ℚ} (hr : r.Timed) :
    host₂.Keeps r := by
  obtain ⟨time1, txUsec, time2, rxUsec, htimes, h₁, h₂, hu₁, hu₂⟩ := hr
  rw [Host.Keeps, htimes.txTime3, htimes.rxTime3]
  exact ⟨h time1 txUsec h₁.1 hu₁.1 hu₁.2, h time2 rxUsec h₂.1 hu₂.1 hu₂.2⟩

/-- What has been sent are records that have been built. -/
def LogLink.Built (logbuffer_size : ℕ) (host₁ host₂ : Host ℚ) (s : LogLink ℚ) : Prop :=
  LinkInv logbuffer_size host₁ host₂ s ∧
    ∃ rs : List (Info ℚ), s.before ++ s.after = rs.map (infosHostToNet host₁.endian) ∧
      ∀ r ∈ rs, r.Timed

theorem LogLink.Built.of_reach
    (h : (logLink logbuffer_size host₁ host₂).ReachVia (SendsBuilt host₁) s) :
    s.Built logbuffer_size host₁ host₂ := by
  refine h.invariant (fun s hs => ?_) fun s a s' hs hP hstep => ?_
  · refine ⟨.of_init hs, [], ?_, by simp⟩
    rw [hs.2]
    rfl
  · obtain ⟨hinv, rs, hsent, hrs⟩ := hs
    obtain ⟨rs', hsent', hrs'⟩ := hP
    refine ⟨hinv.step hstep, rs ++ rs', ?_, List.forall_mem_append.2 ⟨hrs, hrs'⟩⟩
    rw [hinv.sent_step hstep, hsent, hsent', List.map_append]

/-- In the file of the log server are the first records that the receiver has built. -/
theorem out_eq_flatMap {rs : List (Info ℚ)} (hrs : ∀ r ∈ rs, r.Timed) :
    (rs.map (infosHostToNet host₁.endian)).flatMap (stored host₁ host₂) =
      rs.flatMap (·.toMem host₂) := by
  rw [List.flatMap_map]
  refine List.flatMap_congr fun r hr => ?_
  obtain ⟨time1, txUsec, time2, rxUsec, htimes, h₁, h₂, hu₁, hu₂⟩ := hrs r hr
  rw [stored, infosntoh_ofMem_toMem host₁ host₂ htimes h₁ h₂ hu₁ hu₂]

/-- A host that stores doubles as counts of microseconds. -/
def Host.ofUsec (e : Endian) : Host ℚ where
  endian := e
  put x := encodeLE 8 ⌊x * 1000000⌋.toNat
  get bs := (decodeLE bs : ℚ) / 1000000
  length_put _ := length_encodeLE ..

theorem keepsSeconds_ofUsec (e : Endian) : (Host.ofUsec e).KeepsSeconds := by
  intro time usec ht hu hu'
  have hmod : 0 ≤ time % 60 := Int.emod_nonneg _ (by norm_num)
  have hlt : time % 60 < 60 := Int.emod_lt_of_pos _ (by norm_num)
  obtain ⟨n, hn⟩ : ∃ n : ℕ, time % 60 * 1000000 + usec = n :=
    ⟨(time % 60 * 1000000 + usec).toNat, by omega⟩
  have hsec : seconds ℚ time usec * 1000000 = n := by
    have hcast : ((time % 60 : ℤ) : ℚ) * 1000000 + usec = n := by exact_mod_cast hn
    rw [← hcast, seconds, Int.tmod_eq_emod_of_nonneg ht]
    push_cast
    ring
  have hbound : n < 256 ^ 8 := by
    norm_num
    omega
  change (decodeLE (encodeLE 8 ⌊seconds ℚ time usec * 1000000⌋.toNat) : ℚ) / 1000000 = _
  rw [hsec, Int.floor_natCast, Int.toNat_natCast, decodeLE_encodeLE, Nat.mod_eq_of_lt hbound,
    ← hsec]
  ring

/-- The session with one record delivered, and not yet read. -/
def LogLink.underWay (r : Info ℚ) : LogLink ℚ :=
  ⟨.empty 1, [], (infosHostToNet .little r).toMem (.ofUsec .little), false, false, false, false,
    [infosHostToNet .little r], []⟩

theorem reach_underWay {r : Info ℚ} (hr : r.Timed) :
    (logLink 1 (.ofUsec .little) (.ofUsec .big)).ReachVia (SendsBuilt (.ofUsec .little))
      (.underWay r) := by
  have hinit : (logLink 1 (.ofUsec .little) (.ofUsec .big)).init .idle :=
    ⟨⟨rfl, rfl, by simp [LogLink.idle, LogServer.empty]⟩, rfl⟩
  have hpos : 0 < sizeofInfo := by decide
  have hrun : (logLink 1 (.ofUsec .little) (.ofUsec .big)).run .idle
      [.sendBatch [infosHostToNet .little r], .deliverData sizeofInfo] = some (.underWay r) := by
    simp [Transition.run, logLink, LogLink.step, LogLink.idle, LogLink.underWay, hpos]
  refine Transition.ReachVia.run (.init hinit) ?_ hrun
  refine ⟨⟨[r], rfl, ?_⟩, fun s' _ => ⟨⟨[], rfl, ?_⟩, fun _ _ => trivial⟩⟩
  · simpa using hr
  · simp

end Pipeline

end Ditg
