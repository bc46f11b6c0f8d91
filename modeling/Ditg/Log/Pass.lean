import Ditg.Library.Answers
import Ditg.Log.Channel

/-!
# A pass of the log server

When `select` reports the data connection, the log server reads a batch of records, converts
it and appends it to the log file. On TCP, it reads until it has a whole number of records; on
UDP, a batch is a datagram. The results of `recv` are added up, or taken, as they are.

So an error in the middle of a batch is counted as a byte less, and what has been read, cut by
this byte, is written; a connection that is closed in the middle of a record is read for ever;
a datagram is written whatever its length, and an error on UDP is taken for more than three
billion records to convert.

* `logPass_iff`: the results of `recv` with which a pass ends, and appends only whole records.
-/

namespace Ditg

open Socket Memory

variable {F : Type} [CDouble F]

/-! ## The model -/

/-- A pass that has ended: the calls of `recv`, the number of records it has converted, and
    the server. -/
structure LogPass where
  calls : ℕ
  dim_infos : ℕ
  server : LogServer
  deriving DecidableEq, Repr

/-- The number of records to convert, when a batch ends with a result of `recv`. -/
def Batch.dim_infos (b : Batch) (r : Received) : ℕ :=
  let hold := b.hold + r.result
  if hold < 0 then 0 else (hold / sizeofInfo).toNat

/-- The pass of `logPacketTCP`, from a call of `recv` on. -/
def logPassTCP (host : Host F) (a : Answers) : ℕ → ℕ → LogServer → Option LogPass
  | 0, _, _ => none
  | fuel + 1, i, s =>
    match s.pc with
    | .recv b => do
      let r := a i b.dim2.toNat
      let s' ← s.recv host r
      if s'.pc = .select then some ⟨i + 1, b.dim_infos r, s'⟩
      else logPassTCP host a fuel (i + 1) s'
    | _ => none

/-- The pass of `logPacketUDP`, which calls `recv` once. The result is converted to an unsigned
    type to divide it, and a negative number of bytes is not written. -/
def logPassUDP (host : Host F) (r : Received) (s : LogServer) : LogPass :=
  let hold := r.result
  let infos := blit s.infos 0 r.bytes
  let dim_infos := (UInt64.ofInt hold / UInt64.ofNat sizeofInfo).toUInt32.toNat
  let infos := infosntohBuffer host dim_infos infos
  ⟨1, dim_infos, { pc := .select, infos := infos, out := s.out ++ infos.take hold.toNat }⟩

/-- The server when `select` has reported the data connection. -/
def LogServer.reading (logbuffer_size : ℕ) (infos out : List UInt8) : LogServer :=
  ⟨.recv ⟨0, (logbuffer_size * sizeofInfo : ℕ), 0⟩, infos, out⟩

/-- In a pass that has read the bytes `got`, at most `logbuffer_size` records are converted,
    and what is appended to the file is some of the whole records read, each converted once. -/
def LogPass.Whole (logbuffer_size : ℕ) (host : Host F) (out got : List UInt8) (p : LogPass) :
    Prop :=
  p.dim_infos ≤ logbuffer_size ∧ ∃ k, k * sizeofInfo ≤ got.length ∧
    p.server.out = out ++ infosntohBuffer host k (got.take (k * sizeofInfo))

/-- The call of `recv` is followed by another one: it has given something, and a record is
    open. -/
def GoesOn (logbuffer_size : ℕ) (a : Answers) (i : ℕ) : Prop :=
  0 < (a.call (logbuffer_size * sizeofInfo) i).result ∧
    ¬sizeofInfo ∣ (a.received (logbuffer_size * sizeofInfo) (i + 1)).length

/-- The calls of `recv` give something until no record is open; or the first one gives nothing;
    or there is an error, in the first one or when there is one byte more than some records. -/
def EndsWhole (logbuffer_size : ℕ) (a : Answers) : Prop :=
  ∃ i, (∀ j < i, GoesOn logbuffer_size a j) ∧
    let r := a.call (logbuffer_size * sizeofInfo) i
    (0 < r.result ∧ sizeofInfo ∣ (a.received (logbuffer_size * sizeofInfo) (i + 1)).length ∨
      r.result = 0 ∧ i = 0 ∨
      r.result = -1 ∧
        (i = 0 ∨ (a.received (logbuffer_size * sizeofInfo) i).length % sizeofInfo = 1))

/-! ## Whole records -/

/-- What is written of a batch is some of the records read if and only if it is whole records. -/
theorem written_whole_iff (host : Host F) {infos got out : List UInt8} {n : ℕ}
    (hle : n ≤ infos.length) (hn : n ≤ got.length) (htake : infos.take n = got.take n) :
    (∃ k, k * sizeofInfo ≤ got.length ∧
      out ++ (infosntohBuffer host (n / sizeofInfo) infos).take n =
        out ++ infosntohBuffer host k (got.take (k * sizeofInfo))) ↔ sizeofInfo ∣ n := by
  have hdiv : n / sizeofInfo * sizeofInfo ≤ n := Nat.div_mul_le_self ..
  constructor
  · rintro ⟨k, hk, heq⟩
    have hlength := congrArg List.length (List.append_cancel_left heq)
    rw [List.length_take, length_infosntohBuffer host (hdiv.trans hle),
      length_infosntohBuffer host (List.length_take_of_le hk).ge, List.length_take_of_le hk,
      min_eq_left hle] at hlength
    exact hlength ▸ Nat.dvd_mul_left ..
  · intro hdvd
    have hmul := (Nat.div_mul_cancel hdvd).symm
    refine ⟨n / sizeofInfo, hdiv.trans hn, ?_⟩
    rw [take_infosntohBuffer host hmul hle, ← hmul, htake]

/-! ## A pass on TCP -/

section TCP

variable {logbuffer_size : ℕ} {host : Host F} {a : Answers} {infos out read : List UInt8} {i : ℕ}
  {s s' : LogServer} {b : Batch} {r : Received} {p : LogPass}

/-- The batch that is being read is all that has been read. -/
theorem Wrote.batch (hw : Wrote logbuffer_size host out read s) (hpc : s.pc = .recv b)
    (hhold : b.hold = read.length) : s.out = out ∧ b.Holds s.infos read := by
  obtain ⟨-, n, done, hdone, hout, hread⟩ := hw
  rw [hpc] at hread
  obtain ⟨got, rfl, hb⟩ := hread
  have hnil : done.length = 0 := by
    have hgot := hb.hold_eq
    rw [hhold, List.length_append] at hgot
    omega
  have hn : n = 0 := by
    rw [hnil, eq_comm, Nat.mul_eq_zero] at hdone
    exact hdone.resolve_right (by decide)
  rw [hn, infosntohBuffer, List.length_eq_zero_iff.1 hnil, List.append_nil] at hout
  rw [List.length_eq_zero_iff.1 hnil, List.nil_append]
  exact ⟨hout, hb⟩

/-- The batch goes on with what has been read added up. -/
theorem hold_recv {b' : Batch} (hpc : s.pc = .recv b) (h : s.recv host r = some s')
    (hpc' : s'.pc = .recv b') : b'.hold = b.hold + r.result := by
  rw [LogServer.recv, hpc] at h
  simp only at h
  split_ifs at h <;> cases h
  · cases hpc'
    rfl
  · cases hpc'
  · cases hpc'

/-- The pass is at its `i`-th call. -/
structure AtCall (logbuffer_size : ℕ) (host : Host F) (a : Answers) (out : List UInt8) (i : ℕ)
    (s : LogServer) : Prop where
  wrote : Wrote logbuffer_size host out (a.received (logbuffer_size * sizeofInfo) i) s
  exists_batch : ∃ b, s.pc = .recv b ∧
    b.hold = (a.received (logbuffer_size * sizeofInfo) i).length

/-- The call asks for what is left of the buffer. -/
theorem AtCall.call_eq (h : AtCall logbuffer_size host a out i s) (hpc : s.pc = .recv b) :
    b.hold = (a.received (logbuffer_size * sizeofInfo) i).length ∧
      b.dim2 = (logbuffer_size * sizeofInfo : ℕ) - b.hold ∧
      a i b.dim2.toNat = a.call (logbuffer_size * sizeofInfo) i := by
  obtain ⟨b', hpc', hhold⟩ := h.exists_batch
  obtain rfl : b = b' := LogPc.recv.inj (hpc.symm.trans hpc')
  have hroom := (h.wrote.batch hpc hhold).2.room
  rw [h.wrote.1] at hroom
  refine ⟨hhold, by omega, ?_⟩
  rw [Answers.call]
  congr 1
  omega

/-- A result that is the number of bytes read keeps the invariant of the server. -/
theorem AtCall.wrote_recv (h : AtCall logbuffer_size host a out i s) (ha : a.Valid)
    (hpc : s.pc = .recv b) (hr : 0 ≤ (a.call (logbuffer_size * sizeofInfo) i).result)
    (hs' : s.recv host (a.call (logbuffer_size * sizeofInfo) i) = some s') :
    Wrote logbuffer_size host out (a.received (logbuffer_size * sizeofInfo) (i + 1)) s' := by
  obtain ⟨hhold, hdim, -⟩ := h.call_eq hpc
  have hfit := ha.length_received_le (n := logbuffer_size * sizeofInfo) (i + 1)
  rw [Answers.received_succ, List.length_append] at hfit
  rw [Answers.received_succ]
  exact h.wrote.recv hpc (ha.result_eq hr) (by omega) hs'

/-- A call after which the pass goes on. -/
theorem AtCall.goesOn (h : AtCall logbuffer_size host a out i s) (ha : a.Valid)
    (hgo : GoesOn logbuffer_size a i) : ∃ s', AtCall logbuffer_size host a out (i + 1) s' ∧
      ∀ fuel, logPassTCP host a (fuel + 1) i s = logPassTCP host a fuel (i + 1) s' := by
  obtain ⟨b, hpc, -⟩ := h.exists_batch
  obtain ⟨hhold, -, hcall⟩ := h.call_eq hpc
  obtain ⟨s', hs'⟩ := exists_recv host hpc (a.call (logbuffer_size * sizeofInfo) i)
  have hw := h.wrote_recv ha hpc hgo.1.le hs'
  rcases pc_recv hs' with ⟨b', hpc', -⟩ | hpc'
  · refine ⟨s', ⟨hw, b', hpc', ?_⟩, fun fuel => ?_⟩
    · rw [hold_recv hpc hs' hpc', hhold, (ha.bytes_of_pos hgo.1).1, Answers.received_succ,
        List.length_append, Nat.cast_add]
    · rw [logPassTCP, hpc]
      simp [hcall, hs', hpc']
  · -- The pass ends only with whole records.
    obtain ⟨-, n, done, hdone, -, hread⟩ := hw
    rw [hpc'] at hread
    refine absurd ?_ hgo.2
    rw [hread, hdone]
    exact Nat.dvd_mul_left ..

/-- The calls after which the pass goes on, one after the other. -/
theorem atCall_of_goesOn (host : Host F) (out : List UInt8) (ha : a.Valid)
    (hinfos : infos.length = logbuffer_size * sizeofInfo)
    (hgo : ∀ j < i, GoesOn logbuffer_size a j) :
    ∃ s, AtCall logbuffer_size host a out i s ∧ ∀ fuel,
      logPassTCP host a (fuel + i) 0 (.reading logbuffer_size infos out) =
        logPassTCP host a fuel i s := by
  induction i with
  | zero =>
    refine ⟨.reading logbuffer_size infos out, ⟨⟨hinfos, 0, [], rfl, ?_, [], rfl, rfl, rfl, ?_,
      rfl, .inl rfl⟩, _, rfl, rfl⟩, fun fuel => rfl⟩
    · exact (List.append_nil out).symm
    · change (0 : ℤ) + (logbuffer_size * sizeofInfo : ℕ) = infos.length
      omega
  | succ i ih =>
    obtain ⟨s, hs, hrun⟩ := ih fun j hj => hgo j (Nat.lt_succ_of_lt hj)
    obtain ⟨s', hs', hstep⟩ := hs.goesOn ha (hgo i i.lt_succ_self)
    refine ⟨s', hs', fun fuel => ?_⟩
    rw [← hstep, ← hrun, Nat.add_right_comm, Nat.add_assoc]

/-- More calls make no difference to a pass that has ended. -/
theorem logPassTCP_add {fuel : ℕ} (h : logPassTCP host a fuel i s = some p) (n : ℕ) :
    logPassTCP host a (fuel + n) i s = some p := by
  induction fuel generalizing i s with
  | zero => exact absurd h nofun
  | succ fuel ih =>
    rw [Nat.succ_add, logPassTCP]
    rw [logPassTCP] at h
    cases hpc : s.pc with
    | recv b =>
      simp only [hpc, Option.bind_eq_bind, Option.bind_eq_some_iff] at h ⊢
      obtain ⟨s', hs', h⟩ := h
      refine ⟨s', hs', ?_⟩
      split_ifs at h ⊢ with hsel
      · exact h
      · exact ih h
    | select => simp [hpc] at h
    | left => simp [hpc] at h

/-- No more records are converted than have been read. -/
theorem dim_infos_le (h : b.hold + r.result ≤ (logbuffer_size * sizeofInfo : ℕ)) :
    b.dim_infos r ≤ logbuffer_size := by
  rw [Batch.dim_infos]
  split_ifs with hneg
  · exact Nat.zero_le _
  · rw [Int.toNat_le]
    refine Int.ediv_le_of_le_mul (by decide) ?_
    exact_mod_cast h

/-- A call after which the pass ends. -/
theorem logPassTCP_select (h : AtCall logbuffer_size host a out i s) (hpc : s.pc = .recv b)
    (hs' : s.recv host (a.call (logbuffer_size * sizeofInfo) i) = some s')
    (hpc' : s'.pc = .select) (fuel : ℕ) :
    logPassTCP host a (fuel + 1) i s =
      some ⟨i + 1, b.dim_infos (a.call (logbuffer_size * sizeofInfo) i), s'⟩ := by
  rw [logPassTCP, hpc]
  simp [(h.call_eq hpc).2.2, hs', hpc']

/-- A pass that ends without an error has read whole records. -/
theorem AtCall.whole (h : AtCall logbuffer_size host a out i s) (ha : a.Valid)
    (hr : 0 ≤ (a.call (logbuffer_size * sizeofInfo) i).result)
    (hdvd : sizeofInfo ∣ (a.received (logbuffer_size * sizeofInfo) (i + 1)).length) (fuel : ℕ) :
    ∃ p, logPassTCP host a (fuel + 1) i s = some p ∧
      p.Whole logbuffer_size host out (a.received (logbuffer_size * sizeofInfo) p.calls) := by
  obtain ⟨b, hpc, -⟩ := h.exists_batch
  obtain ⟨hhold, -, -⟩ := h.call_eq hpc
  obtain ⟨s', hs'⟩ := exists_recv host hpc (a.call (logbuffer_size * sizeofInfo) i)
  have hw := h.wrote_recv ha hpc hr hs'
  have hsum : b.hold + (a.call (logbuffer_size * sizeofInfo) i).result =
      (a.received (logbuffer_size * sizeofInfo) (i + 1)).length := by
    rw [hhold, ha.result_eq hr, Answers.received_succ, List.length_append, Nat.cast_add]
  have hpc' : s'.pc = .select := by
    rcases pc_recv hs' with ⟨b', hpc', hopen⟩ | hpc'
    · rw [hold_recv hpc hs' hpc', hsum] at hopen
      exact absurd (Int.emod_eq_zero_of_dvd (by exact_mod_cast hdvd)) hopen
    · exact hpc'
  refine ⟨_, logPassTCP_select h hpc hs' hpc' fuel, ?_⟩
  obtain ⟨-, n, done, hdone, hout, hread⟩ := hw
  rw [hpc'] at hread
  refine ⟨?_, n, ?_, ?_⟩
  · -- No more is read than fits in the buffer.
    refine dim_infos_le ?_
    rw [hsum]
    exact_mod_cast ha.length_received_le (n := logbuffer_size * sizeofInfo) (i + 1)
  · rw [hread, hdone]
  · rw [hread, List.take_of_length_le hdone.le]
    exact hout

/-- A connection that is closed while a record is open is read for ever. -/
theorem logPassTCP_closed (hpc : s.pc = .recv b) (hopen : b.hold % sizeofInfo ≠ 0)
    (hclosed : ∀ j, i ≤ j → ∀ m, a j m = ⟨0, []⟩) (fuel : ℕ) :
    logPassTCP host a fuel i s = none := by
  induction fuel generalizing i s b with
  | zero => rfl
  | succ fuel ih =>
    have hs' : s.recv host ⟨0, []⟩ = some ⟨.recv ⟨b.hold + 0, b.dim2 - 0, b.infosOffset + 0⟩,
        blit s.infos b.infosOffset.toNat [], s.out⟩ := by
      rw [LogServer.recv, hpc]
      exact if_pos ⟨(add_zero b.hold).symm ▸ hopen, le_rfl⟩
    rw [logPassTCP, hpc]
    simp only [hclosed i le_rfl, hs', Option.bind_eq_bind, Option.bind_some, reduceCtorEq,
      if_false]
    exact ih rfl ((add_zero b.hold).symm ▸ hopen) fun j hj => hclosed j (Nat.le_of_succ_le hj)

/-- An error ends the pass. What has been read is a byte less: nothing is written if there is
    nothing to take it from. -/
theorem recv_error (host : Host F) (hpc : s.pc = .recv b) : s.recv host ⟨-1, []⟩ =
    if b.hold - 1 < 0 then some { s with pc := .select }
    else
      let infos := infosntohBuffer host ((b.hold - 1) / sizeofInfo).toNat s.infos
      some ⟨.select, infos, s.out ++ infos.take (b.hold - 1).toNat⟩ := by
  rw [LogServer.recv, hpc]
  simp only [blit_nil, ← sub_eq_add_neg]
  rw [if_neg (by simp)]

/-- An error is counted as a byte less: it ends the pass with whole records if it comes first,
    or when there is one byte more than some records. -/
theorem AtCall.whole_error (h : AtCall logbuffer_size host a out i s) (ha : a.Valid)
    (hr : a.call (logbuffer_size * sizeofInfo) i = ⟨-1, []⟩) (fuel : ℕ) :
    ∃ p, logPassTCP host a (fuel + 1) i s = some p ∧
      (p.Whole logbuffer_size host out (a.received (logbuffer_size * sizeofInfo) p.calls) ↔
        (a.received (logbuffer_size * sizeofInfo) i).length = 0 ∨
          (a.received (logbuffer_size * sizeofInfo) i).length % sizeofInfo = 1) := by
  obtain ⟨b, hpc, -⟩ := h.exists_batch
  obtain ⟨hhold, -, -⟩ := h.call_eq hpc
  obtain ⟨hout, hb⟩ := h.wrote.batch hpc hhold
  have hnext : a.received (logbuffer_size * sizeofInfo) (i + 1) =
      a.received (logbuffer_size * sizeofInfo) i := by
    rw [Answers.received_succ, hr, List.append_nil]
  have hfit := ha.length_received_le (n := logbuffer_size * sizeofInfo) i
  have hlen := h.wrote.1
  have htake := hb.take_eq
  generalize a.received (logbuffer_size * sizeofInfo) i = got at *
  have hs' := recv_error host hpc
  rw [hhold] at hs'
  have hdim_le : b.dim_infos (a.call (logbuffer_size * sizeofInfo) i) ≤ logbuffer_size := by
    refine dim_infos_le ?_
    rw [hr, hhold]
    change (got.length : ℤ) + -1 ≤ _
    omega
  by_cases hnil : got.length = 0
  · rw [if_pos (by omega)] at hs'
    refine ⟨_, logPassTCP_select h hpc (hr ▸ hs') rfl fuel, iff_of_true ?_ (.inl hnil)⟩
    exact ⟨hdim_le, 0, Nat.zero_le _, hout.trans (List.append_nil out).symm⟩
  · obtain ⟨n, hn⟩ := Nat.exists_eq_succ_of_ne_zero hnil
    have hhold' : (got.length : ℤ) - 1 = n := by omega
    have hdim : ((n : ℤ) / sizeofInfo).toNat = n / sizeofInfo := by
      exact_mod_cast Int.toNat_natCast (n / sizeofInfo)
    rw [hhold', if_neg (by omega), hdim, Int.toNat_natCast] at hs'
    refine ⟨_, logPassTCP_select h hpc (hr ▸ hs') rfl fuel, ?_⟩
    have htake' := congrArg (List.take n) htake
    rw [List.take_take, min_eq_left (by omega)] at htake'
    -- What is written is all but one of the bytes that have been read.
    have hmod : sizeofInfo ∣ n ↔ got.length % sizeofInfo = 1 := by
      rw [hn]
      change 144 ∣ n ↔ (n + 1) % 144 = 1
      omega
    simp only [LogPass.Whole, hnext, hout, written_whole_iff host (show n ≤ s.infos.length by omega)
      (show n ≤ got.length by omega) htake', hnil, false_or, ← hmod]
    exact and_iff_right hdim_le

/-- With more calls or fewer, it is the same pass that ends. -/
theorem AtCall.whole_error_iff (h : AtCall logbuffer_size host a out i s) (ha : a.Valid)
    (hr : a.call (logbuffer_size * sizeofInfo) i = ⟨-1, []⟩) :
    (∃ fuel p, logPassTCP host a fuel i s = some p ∧
      p.Whole logbuffer_size host out (a.received (logbuffer_size * sizeofInfo) p.calls)) ↔
    (a.received (logbuffer_size * sizeofInfo) i).length = 0 ∨
      (a.received (logbuffer_size * sizeofInfo) i).length % sizeofInfo = 1 := by
  constructor
  · rintro ⟨fuel, p, hp, hwhole⟩
    obtain ⟨p', hp', hiff⟩ := h.whole_error ha hr fuel
    obtain rfl : p = p' := Option.some.inj ((logPassTCP_add hp 1).symm.trans hp')
    exact hiff.1 hwhole
  · intro hor
    obtain ⟨p, hp, hiff⟩ := h.whole_error ha hr 0
    exact ⟨1, p, hp, hiff.2 hor⟩

/-- A connection that is closed while a record is open: the pass does not end. -/
theorem AtCall.not_ends_of_closed (h : AtCall logbuffer_size host a out i s) (ha : a.Valid)
    (hr : a.call (logbuffer_size * sizeofInfo) i = ⟨0, []⟩)
    (hopen : ¬sizeofInfo ∣ (a.received (logbuffer_size * sizeofInfo) i).length) (fuel : ℕ) :
    logPassTCP host a fuel i s = none := by
  -- There is room left for the record that is open.
  have hlt := (ha.length_received_le (n := logbuffer_size * sizeofInfo) i).lt_of_ne
    fun heq => hopen (by rw [heq]; exact Nat.dvd_mul_left ..)
  obtain ⟨b, hpc, hhold⟩ := h.exists_batch
  have hmod : b.hold % sizeofInfo ≠ 0 := by
    rw [hhold]
    exact_mod_cast fun h => hopen (Nat.dvd_of_mod_eq_zero h)
  exact logPassTCP_closed hpc hmod (ha.closed_of_call hr hlt) fuel

/-- A call after which the pass does not go on: it ends with whole records if and only if the
    result is as in `EndsWhole`. -/
theorem AtCall.whole_iff (h : AtCall logbuffer_size host a out i s) (ha : a.Valid)
    (hstop : ¬GoesOn logbuffer_size a i)
    (hopen : i = 0 ∨ ¬sizeofInfo ∣ (a.received (logbuffer_size * sizeofInfo) i).length) :
    (∃ fuel p, logPassTCP host a fuel i s = some p ∧
      p.Whole logbuffer_size host out (a.received (logbuffer_size * sizeofInfo) p.calls)) ↔
    (0 < (a.call (logbuffer_size * sizeofInfo) i).result ∧
        sizeofInfo ∣ (a.received (logbuffer_size * sizeofInfo) (i + 1)).length ∨
      (a.call (logbuffer_size * sizeofInfo) i).result = 0 ∧ i = 0 ∨
      (a.call (logbuffer_size * sizeofInfo) i).result = -1 ∧
        (i = 0 ∨ (a.received (logbuffer_size * sizeofInfo) i).length % sizeofInfo = 1)) := by
  rcases ha.call_cases (n := logbuffer_size * sizeofInfo) i with ⟨hres, hpos, -⟩ | hzero | herr
  · have hpos' : 0 < (a.call (logbuffer_size * sizeofInfo) i).result := by omega
    have hdvd : sizeofInfo ∣ (a.received (logbuffer_size * sizeofInfo) (i + 1)).length :=
      by_contra fun hdvd => hstop ⟨hpos', hdvd⟩
    exact iff_of_true ⟨1, h.whole ha hpos'.le hdvd 0⟩ (.inl ⟨hpos', hdvd⟩)
  · have hnext : a.received (logbuffer_size * sizeofInfo) (i + 1) =
        a.received (logbuffer_size * sizeofInfo) i := by
      rw [Answers.received_succ, hzero, List.append_nil]
    rcases hopen with rfl | hopen
    · refine iff_of_true ⟨1, h.whole ha (by rw [hzero]) ?_ 0⟩ (.inr (.inl ⟨by rw [hzero], rfl⟩))
      rw [hnext]
      exact dvd_zero _
    · refine iff_of_false ?_ ?_
      · rintro ⟨fuel, p, hp, -⟩
        rw [h.not_ends_of_closed ha hzero hopen] at hp
        cases hp
      · rw [hzero]
        rintro (⟨hpos, -⟩ | ⟨-, rfl⟩ | ⟨herr, -⟩)
        · exact absurd hpos (by decide)
        · exact hopen (dvd_zero _)
        · exact absurd herr (by decide)
  · have hlen : (a.received (logbuffer_size * sizeofInfo) i).length = 0 ↔ i = 0 := by
      refine ⟨fun hnil => hopen.resolve_right fun hopen => hopen ?_, fun hi => by rw [hi]; rfl⟩
      rw [hnil]
      exact dvd_zero _
    rw [h.whole_error_iff ha herr, hlen, herr]
    simp

/-- The pass ends with whole records if and only if one of the results that end it is as in
    `EndsWhole`. -/
theorem logPassTCP_iff (host : Host F) (ha : a.Valid)
    (hinfos : infos.length = logbuffer_size * sizeofInfo) :
    (∃ fuel p, logPassTCP host a fuel 0 (.reading logbuffer_size infos out) = some p ∧
      p.Whole logbuffer_size host out (a.received (logbuffer_size * sizeofInfo) p.calls)) ↔
    EndsWhole logbuffer_size a := by
  have hopen {i : ℕ} (hgo : ∀ j < i, GoesOn logbuffer_size a j) :
      i = 0 ∨ ¬sizeofInfo ∣ (a.received (logbuffer_size * sizeofInfo) i).length := by
    rcases i with _ | i
    · exact .inl rfl
    · exact .inr (hgo i i.lt_succ_self).2
  constructor
  · rintro ⟨fuel, p, hp, hwhole⟩
    obtain ⟨i, hgo, hstop⟩ := ha.exists_stop (P := GoesOn logbuffer_size a) fun _ h => h.1
    obtain ⟨s, hs, hrun⟩ := atCall_of_goesOn host out ha hinfos hgo
    exact ⟨i, hgo, (hs.whole_iff ha hstop (hopen hgo)).1
      ⟨fuel, p, (hrun fuel).symm.trans (logPassTCP_add hp i), hwhole⟩⟩
  · rintro ⟨i, hgo, hend⟩
    obtain ⟨s, hs, hrun⟩ := atCall_of_goesOn host out ha hinfos hgo
    have hstop : ¬GoesOn logbuffer_size a i := by
      rintro ⟨hpos, hdvd⟩
      rcases hend with ⟨-, h⟩ | ⟨h, -⟩ | ⟨h, -⟩
      · exact hdvd h
      · omega
      · omega
    obtain ⟨fuel, p, hp, hwhole⟩ := (hs.whole_iff ha hstop (hopen hgo)).2 hend
    exact ⟨fuel + i, p, (hrun fuel).trans hp, hwhole⟩

end TCP

/-! ## A pass on UDP -/

section UDP

variable {logbuffer_size : UInt16} {host : Host F} {infos out : List UInt8} {r : Received}

/-- An error is taken for a number of records that fits in no buffer. -/
theorem lt_dim_infos_error (s : LogServer) :
    logbuffer_size.toNat < (logPassUDP host ⟨-1, []⟩ s).dim_infos := by
  have hdim : (logPassUDP host ⟨-1, []⟩ s).dim_infos = 3340530119 := rfl
  have hlt := logbuffer_size.toNat_lt
  omega

/-- The number of records in a datagram. -/
theorem dim_infos_data {m : ℕ} (h : m ≤ logbuffer_size.toNat * sizeofInfo) :
    (UInt64.ofInt m / UInt64.ofNat sizeofInfo).toUInt32.toNat = m / sizeofInfo := by
  have hlt := logbuffer_size.toNat_lt
  change m ≤ logbuffer_size.toNat * 144 at h
  have hm : (UInt64.ofInt m).toNat = m := by
    have hmod : ((m : ℤ) % 2 ^ 64).toNat = m := by omega
    have hsize : m < UInt64.size := by
      change m < 2 ^ 64
      omega
    rw [UInt64.ofInt, hmod, UInt64.toNat_ofNat_of_lt' hsize]
  rw [UInt64.toNat_toUInt32, UInt64.toNat_div, hm]
  change m / 144 % 2 ^ 32 = m / 144
  omega

/-- The pass ends with whole records if and only if it has read some. -/
theorem logPassUDP_iff (host : Host F) (hr : r.Gives (logbuffer_size.toNat * sizeofInfo))
    (hinfos : infos.length = logbuffer_size.toNat * sizeofInfo) :
    (logPassUDP host r (.reading logbuffer_size.toNat infos out)).Whole logbuffer_size.toNat host
        out r.bytes ↔ 0 ≤ r.result ∧ sizeofInfo ∣ r.bytes.length := by
  by_cases hneg : r.result < 0
  · have herr : r = ⟨-1, []⟩ := by
      rcases hr with ⟨hres, -⟩ | rfl | rfl
      · omega
      · exact absurd hneg (by decide)
      · rfl
    subst herr
    exact iff_of_false (fun h => (lt_dim_infos_error _).not_ge h.1) fun h => absurd h.1 (by decide)
  · have hres : r.result = r.bytes.length ∧
        r.bytes.length ≤ logbuffer_size.toNat * sizeofInfo := by
      rcases hr with ⟨hres, -, hle⟩ | rfl | rfl
      · exact ⟨hres, hle⟩
      · exact ⟨rfl, Nat.zero_le _⟩
      · exact absurd (show (-1 : ℤ) < 0 by decide) hneg
    obtain ⟨hres, hle⟩ := hres
    have hlen : (blit infos 0 r.bytes).length = logbuffer_size.toNat * sizeofInfo := by
      rw [length_blit (by omega), hinfos]
    have hpass : logPassUDP host r (.reading logbuffer_size.toNat infos out) =
        let infos := infosntohBuffer host (r.bytes.length / sizeofInfo) (blit infos 0 r.bytes)
        ⟨1, r.bytes.length / sizeofInfo, .select, infos, out ++ infos.take r.bytes.length⟩ := by
      rw [logPassUDP, hres]
      simp only [LogServer.reading, dim_infos_data hle, Int.toNat_natCast]
    rw [hpass]
    simp only [LogPass.Whole, hres, Int.natCast_nonneg, true_and]
    rw [written_whole_iff host (hlen ▸ hle) le_rfl
      ((take_blit_zero ..).trans List.take_length.symm)]
    refine and_iff_right ?_
    have hle' := Nat.div_le_div_right (c := sizeofInfo) hle
    rwa [Nat.mul_div_cancel _ (by decide)] at hle'

end UDP

/-- Of any results of `recv` that a pass of the data branch may get: on TCP, the pass ends,
    converts at most `logbuffer_size` records and appends only whole records that it has read,
    each converted once, if and only if the results that are added up end with a whole number
    of records, with nothing at all, or with an error in the first call or one byte after a
    whole number of records; on UDP, if and only if the call gives a whole number of records. -/
theorem logPass_iff (host : Host F) (logbuffer_size : UInt16) {infos out : List UInt8}
    (hinfos : infos.length = logbuffer_size.toNat * sizeofInfo) {a : Answers} (ha : a.Valid)
    {r : Received} (hr : r.Gives (logbuffer_size.toNat * sizeofInfo)) :
    ((∃ fuel p, logPassTCP host a fuel 0 (.reading logbuffer_size.toNat infos out) = some p ∧
        p.Whole logbuffer_size.toNat host out
          (a.received (logbuffer_size.toNat * sizeofInfo) p.calls)) ↔
      EndsWhole logbuffer_size.toNat a) ∧
    ((logPassUDP host r (.reading logbuffer_size.toNat infos out)).Whole logbuffer_size.toNat
        host out r.bytes ↔ 0 ≤ r.result ∧ sizeofInfo ∣ r.bytes.length) :=
  ⟨logPassTCP_iff host ha hinfos, logPassUDP_iff host hr hinfos⟩

/-- A peer that closes the connection after 100 bytes. -/
def closedAfter100 : Answers := fun i n =>
  if i = 0 then if 100 ≤ n then ⟨100, List.replicate 100 0⟩ else ⟨-1, []⟩ else ⟨0, []⟩

theorem closedAfter100_valid : closedAfter100.Valid where
  gives i n := by
    rw [closedAfter100]
    split_ifs with hi hn
    · exact .inl ⟨rfl, by decide, hn⟩
    · exact .inr (.inr rfl)
    · exact .inr (.inl rfl)
  closed i n _ hres j hij m := by
    have hi : i ≠ 0 := by
      rintro rfl
      rw [closedAfter100, if_pos rfl] at hres
      split_ifs at hres <;> exact absurd hres (by decide)
    exact if_neg (by omega)

/-- A buffer for 50 records. -/
def infos50 : List UInt8 := List.replicate (50 * sizeofInfo) 0

theorem length_infos50 : infos50.length = (50 : UInt16).toNat * sizeofInfo :=
  List.length_replicate

/-- With such a peer, on TCP, and with an error, on UDP. -/
theorem logPass_iff_closed :
    ((∃ fuel p, logPassTCP (.ofEndian .little : Host ℚ) closedAfter100 fuel 0
          (.reading (50 : UInt16).toNat infos50 []) = some p ∧
        p.Whole (50 : UInt16).toNat (.ofEndian .little : Host ℚ) []
          (closedAfter100.received ((50 : UInt16).toNat * sizeofInfo) p.calls)) ↔
      EndsWhole (50 : UInt16).toNat closedAfter100) ∧
    ((logPassUDP (.ofEndian .little : Host ℚ) ⟨-1, []⟩
        (.reading (50 : UInt16).toNat infos50 [])).Whole (50 : UInt16).toNat
        (.ofEndian .little : Host ℚ) [] [] ↔
      (0 : ℤ) ≤ -1 ∧ sizeofInfo ∣ ([] : List UInt8).length) :=
  logPass_iff (.ofEndian .little) 50 length_infos50 closedAfter100_valid
    (r := ⟨-1, []⟩) (.inr (.inr rfl))

/-- With such a peer a pass does not end. -/
theorem not_logPassTCP : ¬∀ (host : Host ℚ) (logbuffer_size : UInt16) (infos out : List UInt8)
    (a : Answers), infos.length = logbuffer_size.toNat * sizeofInfo → a.Valid →
      ∃ fuel p, logPassTCP host a fuel 0 (.reading logbuffer_size.toNat infos out) = some p ∧
        p.Whole logbuffer_size.toNat host out
          (a.received (logbuffer_size.toNat * sizeofInfo) p.calls) := by
  intro h
  have hends := (logPassTCP_iff _ closedAfter100_valid length_infos50).1
    (h (.ofEndian .little) 50 infos50 [] _ length_infos50 closedAfter100_valid)
  obtain ⟨i, hgo, hend⟩ := hends
  rcases i with _ | _ | i
  · rcases hend with ⟨-, hdvd⟩ | ⟨hzero, -⟩ | ⟨herr, -⟩
    · exact absurd hdvd (by decide +kernel)
    · exact absurd hzero (by decide +kernel)
    · exact absurd herr (by decide +kernel)
  · rcases hend with ⟨hpos, -⟩ | ⟨-, hi⟩ | ⟨herr, -⟩
    · exact absurd hpos (by decide +kernel)
    · exact absurd hi (by decide)
    · exact absurd herr (by decide +kernel)
  · exact absurd (hgo 1 (by omega)).1 (by decide +kernel)

end Ditg
