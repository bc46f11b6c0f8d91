import Ditg.Sender.Pacing

/-!
# The limits of a flow

A flow ends after a time (`-t`), a number of packets (`-z`) or a number of kilobytes (`-k`),
whichever comes first. A limit that is not given is the largest value of its type, and so is the
time when it is the default one and another limit is given.

* `flowSender_limits`: if no packet fails, the packets are numbered from 1 on, there are no more of
  them than `-z` allows, the bytes before the last one are fewer than those of `-k`, and the flow
  ends at one of its limits;
* `bytesCounted_iff`: the bytes are counted right if and only if no packet fails, as the `-1` of
  one is added to the counter, and the number of bytes does not overflow.
-/

namespace Ditg

/-! ## The model -/

/-- `DefaultDuration`. -/
def defaultDuration : UInt64 := 10000

/-- `ULONG_MAX`. -/
def ulongMax : UInt64 := 18446744073709551615

/-- `UINT_MAX`. -/
def uintMax : UInt32 := 4294967295

/-- What `-t`, `-z` and `-k` give, as `strtol` and `strtoul` read it. -/
structure LimitOptions where
  t : Option ℕ
  z : Option ℕ
  k : Option ℕ

/-- `flowParser` accepts the limits: none of them is 0, and they fit their type. -/
structure LimitOptions.Valid (o : LimitOptions) : Prop where
  t_valid : ∀ t ∈ o.t, 0 < t ∧ t < 2 ^ 63
  z_valid : ∀ z ∈ o.z, 0 < z ∧ z < 2 ^ 63
  k_valid : ∀ k ∈ o.k, 0 < k ∧ k < 2 ^ 64

/-- `flows[id].Duration`. -/
def LimitOptions.Duration (o : LimitOptions) : UInt64 := o.t.elim defaultDuration UInt64.ofNat

/-- `flows[id].numPacket`. -/
def LimitOptions.numPacket (o : LimitOptions) : UInt32 := o.z.elim 0 UInt32.ofNat

/-- `flows[id].KBToSend`. -/
def LimitOptions.KBToSend (o : LimitOptions) : UInt64 := o.k.elim 0 UInt64.ofNat

/-- The limits that `flowSender` makes of those of the flow: `Duration`, `numPacket` and
    `byteToSend`. -/
def setLimits (Duration : UInt64) (numPacket : UInt32) (byteToSend : UInt64) :
    UInt64 × UInt32 × UInt64 :=
  let (Duration, numPacket) :=
    if Duration = defaultDuration ∧ numPacket > 0 then (ulongMax, numPacket)
    else if numPacket = 0 then (Duration, uintMax)
    else (Duration, numPacket)
  if Duration = defaultDuration ∧ byteToSend > 0 then (ulongMax, numPacket, byteToSend)
  else if byteToSend = 0 then (Duration, numPacket, ulongMax)
  else (Duration, numPacket, byteToSend)

/-- `end_time`. -/
def endTime (start_time : Timeval) (Duration : UInt64) : Timeval :=
  let tv_usec := start_time.tv_usec + ((Duration % 1000) * 1000).toNat
  { tv_sec := start_time.tv_sec + (Duration / 1000).toNat + tv_usec.tdiv 1000000
    tv_usec := tv_usec.tmod 1000000 }

/-- What `flowSender` knows of the flow when it starts to send, the clock for `end_time` being read
    as `start`. It reads the clock again for the ticker. -/
def LimitOptions.senderFlow (o : LimitOptions) (BURSTY bursty : Bool) (mean_adjustment : ℤ)
    (pollingMode : Bool) (start : Timeval) : SenderFlow :=
  let (Duration, numPacket, byteToSend) := setLimits o.Duration o.numPacket (1024 * o.KBToSend)
  { BURSTY, bursty, mean_adjustment, pollingMode, end_time := endTime start Duration, numPacket,
    byteToSend }

/-- The states in which packets are sent, each with the number of its packet. The last one may wait
    still. -/
def sends (f : SenderFlow) : Option Sending → List SentPacket → List Sending
  | some s, p :: ps => s :: ((sendPacket f s p).elim [] fun s' => sends f (f.next p s') ps)
  | _, _ => []

/-! ## The counters -/

/-- The sum of the results of `send`. -/
def results (ps : List SentPacket) : ℤ := (ps.map SentPacket.sockchk).sum

/-- A packet is sent in `s` after `n` others, whose results add up to `total`. -/
structure Sent (f : SenderFlow) (n : ℕ) (total : ℤ) (s : Sending) : Prop where
  seqNum_eq : s.seqNum.toNat = n + 1
  byteSent_eq : s.byteSent = UInt64.ofInt total
  lt : n < f.numPacket.toNat
  few : 0 < n → s.byteSent < f.byteToSend

section Run

variable {f : SenderFlow} {n : ℕ} {total : ℤ} {s s' : Sending} {p : SentPacket}
  {ps : List SentPacket}

/-- A turn counts its packet and the result of `send`. -/
theorem sendPacket_counters (h : sendPacket f s p = some s') :
    s'.seqNum = s.seqNum + 1 ∧ s'.byteSent = s.byteSent + UInt64.ofInt p.sockchk := by
  rw [sendPacket] at h
  split at h
  · cases h
  · obtain ⟨r, -, rfl⟩ := Option.map_eq_some_iff.1 h
    exact ⟨rfl, rfl⟩

/-- Between two packets the limits are not reached, and the counters do not change. -/
theorem next_goesOn {s'' : Sending} (h : f.next p s' = some s'') :
    f.goesOn s' = true ∧ s''.seqNum = s'.seqNum ∧ s''.byteSent = s'.byteSent := by
  rw [SenderFlow.next] at h
  split_ifs at h with hperiod hgoes
  · cases h
    rw [SenderFlow.goesOnPeriod, decide_eq_true_eq] at hperiod
    exact ⟨hperiod.2.2, rfl, rfl⟩
  · cases h
    exact ⟨hgoes, rfl, rfl⟩
  · cases h
    exact ⟨hgoes, rfl, rfl⟩

/-- The flow ends behind a packet if the limits are reached. -/
theorem goesOn_of_next_eq_none (h : f.next p s = none) : f.goesOn s = false := by
  rw [SenderFlow.next] at h
  split_ifs at h with hperiod hgoes
  simpa using hgoes

theorem goesOn_iff : f.goesOn s = true ↔
    (s.Ticker.lastTime.tv_sec < f.end_time.tv_sec ∨
      s.Ticker.lastTime.tv_sec = f.end_time.tv_sec ∧
        s.Ticker.lastTime.tv_usec < f.end_time.tv_usec) ∧
    s.seqNum - 1 < f.numPacket ∧ s.byteSent < f.byteToSend := by
  rw [SenderFlow.goesOn, decide_eq_true_eq]

/-- One turn. -/
theorem Sent.turn (hs : Sent f n total s) (h : sendPacket f s p = some s') :
    (s'.seqNum - 1).toNat = n + 1 ∧ s'.byteSent = UInt64.ofInt (total + p.sockchk) := by
  obtain ⟨hseq, hbytes⟩ := sendPacket_counters h
  refine ⟨?_, ?_⟩
  · rw [hseq]
    simpa using hs.seqNum_eq
  · rw [hbytes, hs.byteSent_eq, UInt64.ofInt_add]

/-- The next packet. -/
theorem Sent.next {s'' : Sending} (hs : Sent f n total s)
    (h : sendPacket f s p = some s') (hnext : f.next p s' = some s'') :
    Sent f (n + 1) (total + p.sockchk) s'' := by
  obtain ⟨hgoes, hseq, hbytes⟩ := next_goesOn hnext
  obtain ⟨hseq', hbytes'⟩ := hs.turn h
  obtain ⟨-, hlt, hfew⟩ := goesOn_iff.1 hgoes
  rw [UInt32.lt_iff_toNat_lt, hseq'] at hlt
  refine ⟨?_, hbytes.trans hbytes', hlt, fun _ => hbytes ▸ hfew⟩
  have hmax := f.numPacket.toNat_lt
  rw [hseq, (sendPacket_counters h).1, UInt32.toNat_add, hs.seqNum_eq, UInt32.toNat_one]
  omega

@[simp] theorem sends_none (f : SenderFlow) (ps : List SentPacket) : sends f none ps = [] := by
  cases ps with
  | nil => rfl
  | cons p ps => rfl

@[simp] theorem results_nil : results [] = 0 := rfl

theorem results_cons (p : SentPacket) (ps : List SentPacket) :
    results (p :: ps) = p.sockchk + results ps := List.sum_cons

/-- All packets that a run sends. -/
theorem Sent.packets (hs : Sent f n total s) {i : ℕ} (h : (sends f (some s) ps)[i]? = some s') :
    Sent f (n + i) (total + results (ps.take i)) s' := by
  induction ps generalizing s n total i with
  | nil => cases h
  | cons p ps ih =>
    rw [sends] at h
    cases i with
    | zero =>
      obtain rfl := Option.some.inj h
      rw [List.take_zero, results_nil, Int.add_zero]
      exact hs
    | succ i =>
      rw [List.getElem?_cons_succ] at h
      cases hp : sendPacket f s p with
      | none =>
        rw [hp] at h
        cases h
      | some s₁ =>
        rw [hp, Option.elim_some] at h
        cases hnext : f.next p s₁ with
        | none =>
          rw [hnext, sends_none] at h
          cases h
        | some s₂ =>
          rw [hnext] at h
          rw [List.take_succ_cons, results_cons, ← Int.add_assoc, ← Nat.succ_add_eq_add_succ]
          exact ih (hs.next hp hnext) h

/-- All turns of a run. -/
theorem Sent.turns (hs : Sent f n total s) {states : List Sending}
    (h : sendPackets f (some s) ps = some states) {i : ℕ} (hi : states[i]? = some s') :
    n + i < f.numPacket.toNat ∧ (s'.seqNum - 1).toNat = n + i + 1 ∧
      s'.byteSent = UInt64.ofInt (total + results (ps.take (i + 1))) := by
  induction ps generalizing s n total i states with
  | nil =>
    cases h
    cases hi
  | cons p ps ih =>
    obtain ⟨s₁, states', hp, hrest, rfl⟩ := sendPackets_cons h
    rw [List.take_succ_cons, results_cons, ← Int.add_assoc]
    cases i with
    | zero =>
      obtain rfl := Option.some.inj hi
      rw [List.take_zero, results_nil, Int.add_zero]
      exact ⟨hs.lt, hs.turn hp⟩
    | succ i =>
      rcases ps with _ | ⟨q, ps⟩
      · cases hrest
        cases hi
      · obtain ⟨s₂, hnext⟩ := exists_next hrest
        rw [hnext] at hrest
        have hs' := ih (hs.next hp hnext) hrest hi
        rwa [Nat.succ_add_eq_add_succ] at hs'

end Run

/-! ## The limits -/

/-- A limit that is not given is the largest number. -/
theorem setLimits_snd (Duration : UInt64) (numPacket : UInt32) (byteToSend : UInt64) :
    (setLimits Duration numPacket byteToSend).2 =
      (if numPacket = 0 then uintMax else numPacket,
        if byteToSend = 0 then ulongMax else byteToSend) := by
  have hpackets : numPacket > 0 ↔ numPacket ≠ 0 := UInt32.pos_iff_ne_zero
  have hbytes : byteToSend > 0 ↔ byteToSend ≠ 0 := UInt64.pos_iff_ne_zero
  unfold setLimits
  by_cases hn : numPacket = 0 <;> by_cases hb : byteToSend = 0 <;>
    by_cases hd : Duration = defaultDuration <;>
      simp [hpackets, hbytes, hn, hb, hd]

section Options

variable {o : LimitOptions} (ho : o.Valid) (BURSTY bursty : Bool) (mean_adjustment : ℤ)
  (pollingMode : Bool) (start : Timeval)

theorem senderFlow_numPacket :
    (o.senderFlow BURSTY bursty mean_adjustment pollingMode start).numPacket =
      if o.numPacket = 0 then uintMax else o.numPacket :=
  congrArg Prod.fst (setLimits_snd ..)

theorem senderFlow_byteToSend :
    (o.senderFlow BURSTY bursty mean_adjustment pollingMode start).byteToSend =
      if 1024 * o.KBToSend = 0 then ulongMax else 1024 * o.KBToSend :=
  congrArg Prod.snd (setLimits_snd ..)

/-- The limit on the packets, of a `-z` that is cut to an `unsigned int`. -/
theorem numPacket_toNat {z : ℕ} (hz : z ∈ o.z) :
    (o.senderFlow BURSTY bursty mean_adjustment pollingMode start).numPacket.toNat =
      if z % 2 ^ 32 = 0 then 2 ^ 32 - 1 else z % 2 ^ 32 := by
  have hmod : o.numPacket.toNat = z % 2 ^ 32 := by
    rw [LimitOptions.numPacket, Option.mem_def.1 hz, Option.elim_some, UInt32.toNat_ofNat']
  rw [senderFlow_numPacket]
  simp only [← hmod, ← UInt32.toNat_inj, UInt32.toNat_zero]
  split_ifs
  · rfl
  · rfl

/-- The limit on the bytes, of a `-k` that overflows. -/
theorem byteToSend_toNat {k : ℕ} (hk : k ∈ o.k) :
    (o.senderFlow BURSTY bursty mean_adjustment pollingMode start).byteToSend.toNat =
      if 1024 * k % 2 ^ 64 = 0 then 2 ^ 64 - 1 else 1024 * k % 2 ^ 64 := by
  have hmod : (1024 * o.KBToSend).toNat = 1024 * k % 2 ^ 64 := by
    rw [LimitOptions.KBToSend, Option.mem_def.1 hk, Option.elim_some, UInt64.toNat_mul,
      UInt64.toNat_ofNat']
    exact Nat.mul_mod_mod ..
  rw [senderFlow_byteToSend]
  simp only [← hmod, ← UInt64.toNat_inj, UInt64.toNat_zero]
  split_ifs
  · rfl
  · rfl

theorem numPacket_pos :
    0 < (o.senderFlow BURSTY bursty mean_adjustment pollingMode start).numPacket.toNat := by
  rw [senderFlow_numPacket]
  split_ifs with hzero
  · decide
  · rw [← UInt32.toNat_zero, ← UInt32.lt_iff_toNat_lt]
    exact UInt32.pos_iff_ne_zero.2 hzero

include ho

/-- There is a limit on the packets, and it is no more than that of `-z`. -/
theorem numPacket_le {z : ℕ} (hz : z ∈ o.z) :
    (o.senderFlow BURSTY bursty mean_adjustment pollingMode start).numPacket.toNat ≤ z := by
  have hpos := (ho.z_valid z hz).1
  rw [numPacket_toNat _ _ _ _ _ hz]
  split_ifs <;> omega

/-- The limit on the bytes is no more than that of `-k`. -/
theorem byteToSend_le {k : ℕ} (hk : k ∈ o.k) :
    (o.senderFlow BURSTY bursty mean_adjustment pollingMode start).byteToSend.toNat ≤ 1024 * k := by
  have hpos := (ho.k_valid k hk).1
  rw [byteToSend_toNat _ _ _ _ _ hk]
  split_ifs <;> omega

/-- Limits that fit their types are those of the options. -/
theorem limits_of_lt :
    (∀ z ∈ o.z, z < 2 ^ 32 →
      (o.senderFlow BURSTY bursty mean_adjustment pollingMode start).numPacket.toNat = z) ∧
    ∀ k ∈ o.k, 1024 * k < 2 ^ 64 →
      (o.senderFlow BURSTY bursty mean_adjustment pollingMode start).byteToSend.toNat =
        1024 * k := by
  refine ⟨fun z hz hlt => ?_, fun k hk hlt => ?_⟩
  · have hpos := (ho.z_valid z hz).1
    rw [numPacket_toNat _ _ _ _ _ hz, Nat.mod_eq_of_lt hlt, if_neg hpos.ne']
  · have hpos := (ho.k_valid k hk).1
    rw [byteToSend_toNat _ _ _ _ _ hk, Nat.mod_eq_of_lt hlt, if_neg (by omega)]

end Options

/-! ## The sums -/

/-- No packet fails. -/
def AllSent (ps : List SentPacket) : Prop := ∀ p ∈ ps, 0 ≤ p.sockchk

instance : DecidablePred AllSent := fun ps => inferInstanceAs (Decidable (∀ p ∈ ps, _))

/-- The results are those of an `int`. -/
def IntResults (ps : List SentPacket) : Prop := ∀ p ∈ ps, -1 ≤ p.sockchk ∧ p.sockchk < 2 ^ 31

instance : DecidablePred IntResults := fun ps => inferInstanceAs (Decidable (∀ p ∈ ps, _))

/-- The bytes that have been sent: a packet that fails sends none. -/
def bytesSent (ps : List SentPacket) : ℤ := (ps.map fun p => max 0 p.sockchk).sum

section Sums

variable {ps : List SentPacket}

theorem bytesSent_eq (h : AllSent ps) : bytesSent ps = results ps := by
  rw [bytesSent, results, List.map_congr_left fun p hp => max_eq_right (h p hp)]

theorem bytesSent_bounds (h : IntResults ps) :
    0 ≤ bytesSent ps ∧ bytesSent ps ≤ ps.length * 2 ^ 31 := by
  induction ps with
  | nil => simp [bytesSent]
  | cons p ps ih =>
    obtain ⟨h0, hle⟩ := ih fun q hq => h q (List.mem_cons_of_mem p hq)
    obtain ⟨-, hp⟩ := h p List.mem_cons_self
    rw [bytesSent] at h0 hle ⊢
    rw [List.map_cons, List.sum_cons, List.length_cons]
    push_cast
    omega

theorem bytesSent_nonneg (ps : List SentPacket) : 0 ≤ bytesSent ps := by
  induction ps with
  | nil => exact le_rfl
  | cons p ps ih =>
    have hp := le_max_left 0 p.sockchk
    rw [bytesSent] at ih ⊢
    rw [List.map_cons, List.sum_cons]
    omega

/-- No packet takes bytes back. -/
theorem bytesSent_take_le (ps : List SentPacket) (i : ℕ) :
    bytesSent (ps.take i) ≤ bytesSent ps := by
  have hsplit : bytesSent ps = bytesSent (ps.take i) + bytesSent (ps.drop i) := by
    rw [bytesSent, bytesSent, bytesSent, ← List.sum_append, ← List.map_append,
      List.take_append_drop]
  have h0 := bytesSent_nonneg (ps.drop i)
  omega

/-- The packets that fail. -/
def failures (ps : List SentPacket) : ℕ := ps.countP fun p => p.sockchk < 0

theorem allSent_iff : AllSent ps ↔ failures ps = 0 := by
  simp [AllSent, failures, List.countP_eq_zero]

/-- Each packet that fails is counted as `-1`. -/
theorem results_eq (h : IntResults ps) : results ps = bytesSent ps - failures ps := by
  induction ps with
  | nil => simp [bytesSent, failures]
  | cons p ps ih =>
    have ih := ih fun q hq => h q (List.mem_cons_of_mem p hq)
    obtain ⟨hp, -⟩ := h p List.mem_cons_self
    rw [bytesSent, failures] at ih ⊢
    rw [results_cons, ih, List.map_cons, List.sum_cons, List.countP_cons]
    simp only [decide_eq_true_eq]
    split_ifs with hneg <;> push_cast <;> omega

/-- The counter holds the bytes that have been sent if no packet has failed. -/
theorem toNat_results_iff (h : IntResults ps) (hlen : ps.length < 2 ^ 32) :
    ((UInt64.ofInt (results ps)).toNat : ℤ) = bytesSent ps ↔ AllSent ps := by
  obtain ⟨h0, hle⟩ := bytesSent_bounds h
  have hfail : failures ps ≤ ps.length := List.countP_le_length
  rw [results_eq h, allSent_iff, UInt64.ofInt, UInt64.toNat_ofNat']
  omega

end Sums

/-! ## The end of a flow -/

/-- `a` is before `b`. -/
def Timeval.Before (a b : Timeval) : Prop :=
  a.tv_sec < b.tv_sec ∨ a.tv_sec = b.tv_sec ∧ a.tv_usec < b.tv_usec

section Flow

variable {f : SenderFlow} {n : ℕ} {s s' : Sending} {ps : List SentPacket}

theorem AllSent.take (h : AllSent ps) (i : ℕ) : AllSent (ps.take i) :=
  fun p hp => h p (List.mem_of_mem_take hp)

theorem IntResults.take (h : IntResults ps) (i : ℕ) : IntResults (ps.take i) :=
  fun p hp => h p (List.mem_of_mem_take hp)

/-- If no packet fails, the counter of the bytes does not overflow. -/
theorem toNat_results (hint : IntResults ps) (hsent : AllSent ps) {i : ℕ} (hi : i < 2 ^ 32) :
    ((UInt64.ofInt (results (ps.take i))).toNat : ℤ) = results (ps.take i) := by
  have hlen := (List.length_take_le i ps).trans_lt hi
  rw [(toNat_results_iff (hint.take i) hlen).2 (hsent.take i), bytesSent_eq (hsent.take i)]

/-- A run sends the packets of its turns. -/
theorem length_sends {s : Option Sending} {states : List Sending}
    (h : sendPackets f s ps = some states) : (sends f s ps).length = ps.length := by
  induction ps generalizing s states with
  | nil =>
    rcases s with _ | s <;> rfl
  | cons p ps ih =>
    obtain ⟨s, rfl⟩ := exists_next h
    obtain ⟨s', states', hp, hrest, rfl⟩ := sendPackets_cons h
    rw [sends, hp, Option.elim_some, List.length_cons, List.length_cons, ih hrest]

/-- The packets are numbered from 1 on. -/
theorem seqNum_sends (hs : Sent f 0 0 s) :
    (sends f (some s) ps).map (fun s => s.seqNum.toNat) =
      List.range' 1 (sends f (some s) ps).length := by
  refine List.ext_getElem (by simp) fun i hi _ => ?_
  rw [List.length_map] at hi
  rw [List.getElem_map, List.getElem_range', (hs.packets (List.getElem?_eq_getElem hi)).seqNum_eq]
  omega

/-- There are no more packets than the limit allows. -/
theorem length_sends_le (hs : Sent f 0 0 s) :
    (sends f (some s) ps).length ≤ f.numPacket.toNat := by
  rcases Nat.eq_zero_or_pos (sends f (some s) ps).length with hzero | hpos
  · omega
  · have hlast := hs.packets (List.getElem?_eq_getElem (Nat.sub_lt hpos Nat.one_pos))
    have := hlast.lt
    omega

/-- The counter behind each packet. -/
theorem Sent.counted (hs : Sent f 0 0 s) {states : List Sending}
    (hrun : sendPackets f (some s) ps = some states) {i : ℕ} (hi : states[i]? = some s') :
    i + 1 < 2 ^ 32 ∧ s'.byteSent = UInt64.ofInt (results (ps.take (i + 1))) := by
  obtain ⟨hlt, -, hbytes⟩ := hs.turns hrun hi
  have hmax := f.numPacket.toNat_lt
  exact ⟨by omega, by rw [hbytes, Int.zero_add]⟩

/-- The counters behind the last packet. -/
theorem Sent.counted_last (hs : Sent f 0 0 s) {states : List Sending}
    (hrun : sendPackets f (some s) ps = some states) (hlast : states.getLast? = some s') :
    states[ps.length - 1]? = some s' ∧ ps.length < 2 ^ 32 ∧
      (s'.seqNum - 1).toNat = ps.length ∧ s'.byteSent = UInt64.ofInt (results ps) := by
  have hlen := length_sendPackets hrun
  rw [List.getLast?_eq_getElem?, hlen] at hlast
  have hpos : 0 < ps.length := by
    by_contra hzero
    rw [List.getElem?_eq_none (by omega)] at hlast
    cases hlast
  have hall : ps.length - 1 + 1 = ps.length := by omega
  obtain ⟨-, hseq, -⟩ := hs.turns hrun hlast
  obtain ⟨hlt, hbytes⟩ := hs.counted hrun hlast
  rw [hall, List.take_length] at hbytes
  exact ⟨hlast, by omega, by omega, hbytes⟩

/-- If no packet fails, the counter behind each packet holds the bytes sent so far. -/
theorem Sent.counted_allSent (hs : Sent f 0 0 s) (hint : IntResults ps) (hsent : AllSent ps)
    {states : List Sending} (hrun : sendPackets f (some s) ps = some states) {i : ℕ}
    (hi : states[i]? = some s') :
    (s'.byteSent.toNat : ℤ) = bytesSent (ps.take (i + 1)) ∧
      bytesSent (ps.take (i + 1)) < 2 ^ 63 := by
  obtain ⟨hlt, hbytes⟩ := hs.counted hrun hi
  have hshort := (List.length_take_le (i + 1) ps).trans_lt hlt
  have hfit := (bytesSent_bounds (hint.take (i + 1))).2
  exact ⟨hbytes ▸ (toNat_results_iff (hint.take _) hshort).2 (hsent.take _), by omega⟩

/-- The flow ends at a limit. -/
theorem limit_of_goesOn (h : f.goesOn s = false) :
    f.numPacket.toNat ≤ (s.seqNum - 1).toNat ∨ f.byteToSend.toNat ≤ s.byteSent.toNat ∨
      ¬s.Ticker.lastTime.Before f.end_time := by
  by_contra hall
  push Not at hall
  obtain ⟨hpackets, hbytes, htime⟩ := hall
  have hgoes := goesOn_iff.2 ⟨htime, UInt32.lt_iff_toNat_lt.2 hpackets,
    UInt64.lt_iff_toNat_lt.2 hbytes⟩
  rw [h] at hgoes
  cases hgoes

end Flow

section Limits

variable {o : LimitOptions} (BURSTY bursty : Bool) (mean_adjustment : ℤ)
  (pollingMode : Bool) (start lastTime : Timeval) (OnDuration : ℚ) {ps : List SentPacket}

theorem sent_start :
    Sent (o.senderFlow BURSTY bursty mean_adjustment pollingMode start) 0 0
      (Sending.start lastTime OnDuration) :=
  ⟨rfl, rfl, numPacket_pos .., fun h => absurd h (Nat.lt_irrefl 0)⟩

/-- A packet of 400 bytes that is sent at once, and a wait of a second for which the clock is read
    at its start and at its end, the second `n`. An On period lasts a second and a half. -/
def secondPacket (n : ℤ) : SentPacket where
  sockchk := 400
  wait := 1000
  clock := [⟨n - 1, 1⟩, ⟨n, 1⟩]
  StartOnTime := ⟨n - 1, 0⟩
  FinishOnTime := ⟨n, 0⟩
  onPeriod := 1500

/-- A flow with `-t 5000 -z 9 -k 1`. -/
def threeLimits : LimitOptions := ⟨some 5000, some 9, some 1⟩

theorem threeLimits_valid : threeLimits.Valid :=
  ⟨fun t ht => by rw [← Option.some.inj ht]; decide,
    fun z hz => by rw [← Option.some.inj hz]; decide,
    fun k hk => by rw [← Option.some.inj hk]; decide⟩

/-- The packets of its first three seconds. -/
def threePackets : List SentPacket := [secondPacket 1, secondPacket 2, secondPacket 3]

/-- The states behind them. The first On period has two packets, the third one is in the next. -/
def threeStates : List Sending :=
  [⟨⟨0, ⟨1, 1⟩⟩, 500, 2, 400⟩, ⟨⟨0, ⟨2, 1⟩⟩, -500, 3, 800⟩, ⟨⟨0, ⟨3, 1⟩⟩, 500, 4, 1200⟩]

/-- What the counter of the bytes is for. -/
structure BytesCounted (o : LimitOptions) (f : SenderFlow) (ps : List SentPacket)
    (states : List Sending) : Prop where
  /-- It holds the bytes sent so far. -/
  byteSent_eq : ∀ i s, states[i]? = some s →
    (s.byteSent.toNat : ℤ) = bytesSent (ps.take (i + 1))
  /-- It does not end a flow without `-k`. -/
  no_limit : o.k = none → ∀ s ∈ states, s.byteSent < f.byteToSend
  /-- It ends a flow with `-k` only when as much has been sent. -/
  limit : ∀ k ∈ o.k, ∀ i s, states[i]? = some s → ¬s.byteSent < f.byteToSend →
    1024 * k ≤ bytesSent (ps.take (i + 1))

/-- In every run, whatever the results of `send` are: the bytes are counted right if and only if no
    packet fails and, if the bytes of `-k` overflow, to a number that is not 0, fewer have been sent
    than that. -/
theorem bytesCounted_iff (hint : IntResults ps) {states : List Sending}
    (hrun : sendPackets (o.senderFlow BURSTY bursty mean_adjustment pollingMode start)
      (some (Sending.start lastTime OnDuration)) ps = some states) :
    BytesCounted o (o.senderFlow BURSTY bursty mean_adjustment pollingMode start) ps states ↔
      AllSent ps ∧ ∀ k ∈ o.k, 2 ^ 64 ≤ 1024 * k →
        1024 * k % 2 ^ 64 = 0 ∨ bytesSent ps < (1024 * k % 2 ^ 64 : ℕ) := by
  obtain ⟨f, hf⟩ : ∃ f, f = o.senderFlow BURSTY bursty mean_adjustment pollingMode start :=
    ⟨_, rfl⟩
  have hs : Sent f 0 0 (Sending.start lastTime OnDuration) := hf ▸ sent_start ..
  rw [← hf] at hrun ⊢
  constructor
  · intro h
    rcases ps.eq_nil_or_concat with rfl | ⟨ps', p, hps⟩
    · exact ⟨nofun, fun k _ _ => (Nat.eq_zero_or_pos _).imp_right Int.natCast_pos.2⟩
    -- The state behind the last packet tells.
    have hpos : 0 < states.length := by
      rw [length_sendPackets hrun, hps]
      simp
    have hall : ps.length - 1 + 1 = ps.length := by
      rw [hps]
      simp
    obtain ⟨hget, hlt, -, hbytes⟩ := hs.counted_last hrun
      (List.getLast?_eq_some_getLast (List.ne_nil_of_length_pos hpos))
    have hsum := h.byteSent_eq _ _ hget
    rw [hall, List.take_length] at hsum
    refine ⟨(toNat_results_iff hint hlt).1 (hbytes ▸ hsum), fun k hk hover => ?_⟩
    by_contra hlow
    push Not at hlow
    have hlimit := h.limit k hk _ _ hget
    rw [hall, List.take_length, UInt64.lt_iff_toNat_lt, hf,
      byteToSend_toNat _ _ _ _ _ hk, if_neg hlow.1] at hlimit
    have hfit := (bytesSent_bounds hint).2
    have := hlimit (by omega)
    omega
  · rintro ⟨hsent, hlimit⟩
    refine ⟨fun i s hi => (hs.counted_allSent hint hsent hrun hi).1, fun hnone s hmem => ?_,
      fun k hk i s hi hend => ?_⟩
    · obtain ⟨i, hi⟩ := List.getElem?_of_mem hmem
      obtain ⟨hbytes, hfit⟩ := hs.counted_allSent hint hsent hrun hi
      have hmax : f.byteToSend.toNat = 2 ^ 64 - 1 := by
        rw [hf, senderFlow_byteToSend, LimitOptions.KBToSend, hnone]
        rfl
      rw [UInt64.lt_iff_toNat_lt, hmax]
      omega
    · obtain ⟨hbytes, hfit⟩ := hs.counted_allSent hint hsent hrun hi
      have hmono := bytesSent_take_le ps (i + 1)
      rw [UInt64.lt_iff_toNat_lt, hf, byteToSend_toNat _ _ _ _ _ hk] at hend
      have hover := hlimit k hk
      split_ifs at hend <;> omega

end Limits

/-- The bytes of the three packets are counted right. -/
theorem bytesCounted_iff_burst :
    BytesCounted threeLimits (threeLimits.senderFlow true true 1 false ⟨0, 0⟩) threePackets
      threeStates :=
  (bytesCounted_iff true true 1 false ⟨0, 0⟩ ⟨0, 1⟩ 1500 (by decide) (by decide +kernel)).2
    ⟨by decide, fun k hk hover => by
      rw [← Option.some.inj hk] at hover
      exact absurd hover (by decide)⟩

/-- No option. -/
def noLimits : LimitOptions := ⟨none, none, none⟩

theorem noLimits_valid : noLimits.Valid := ⟨nofun, nofun, nofun⟩

/-- A packet that takes no time, with the result `sockchk` of `send`. -/
def instantPacket (sockchk : ℤ) : SentPacket where
  sockchk
  wait := 0
  clock := [⟨0, 0⟩]
  StartOnTime := ⟨0, 0⟩
  FinishOnTime := ⟨0, 0⟩
  onPeriod := 0

/-- The state behind the first packet of a flow without limits. -/
def afterOne (sockchk : ℤ) : Sending where
  Ticker := { count := 0, lastTime := ⟨0, 0⟩ }
  OnDuration := 0
  seqNum := 2
  byteSent := UInt64.ofInt sockchk

/-- If the first packet fails, the counter holds the largest number, and ends a flow without
    `-k`. -/
theorem not_bytesCounted : ¬∀ (o : LimitOptions) (BURSTY bursty : Bool) (mean_adjustment : ℤ)
    (pollingMode : Bool) (start lastTime : Timeval) (OnDuration : ℚ) (ps : List SentPacket)
    (states : List Sending), o.Valid → IntResults ps →
      sendPackets (o.senderFlow BURSTY bursty mean_adjustment pollingMode start)
        (some (Sending.start lastTime OnDuration)) ps = some states →
      BytesCounted o (o.senderFlow BURSTY bursty mean_adjustment pollingMode start) ps states := by
  intro h
  have hcounted := h noLimits false false 1 false ⟨0, 0⟩ ⟨0, 0⟩ 0 [instantPacket (-1)]
    [afterOne (-1)] noLimits_valid (by decide) (by decide +kernel)
  exact absurd (hcounted.no_limit rfl _ List.mem_cons_self) (by decide +kernel)

end Ditg
