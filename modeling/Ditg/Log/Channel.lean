import Ditg.Common.Info
import Ditg.Library.Socket
import Ditg.Library.Transition

/-!
# The data channel of the log server

`logPacketTCP` serves one receiver: it waits (`select`) for the stop message on the
signalling connection or for records on the data connection. When there is data it
reads a batch, until what it has read is a whole number of records, converts the
records of the batch to host format and appends them to the log file.

The function is a machine that steps at every `select` and at every `recv`
(`LogServer.select`, `LogServer.recv`), so that it can be put to work on any
connection.

* `Wrote`: the invariant of the machine in terms of the bytes it has read: what is
  in the file, what is in the buffer, and the room left in it;
* `logPacketTCP_data`: records that arrive on the data connection, in whatever
  pieces, are all appended to the file, in order, each converted once, and no
  read can overrun the buffer.
-/

namespace Ditg

open Bytes Socket Memory

/-! ## The model -/

/-- A batch being read: the bytes read, the room left and the offset of the next
    byte in the buffer. -/
structure Batch where
  hold : ℤ
  dim2 : ℤ
  infosOffset : ℤ
  deriving DecidableEq, Repr

/-- Where the function stands. -/
inductive LogPc
  /-- At the call of `select`. -/
  | select
  /-- At the call of `recv` for a batch. -/
  | recv (b : Batch)
  /-- Out of the loop, after the stop message. -/
  | left
  deriving DecidableEq, Repr

/-- The state of `logPacketTCP`: the buffer of records, and the log file. -/
structure LogServer where
  pc : LogPc
  infos : List UInt8
  out : List UInt8
  deriving DecidableEq, Repr

section Model

variable {F : Type} [CDouble F]

/-- `infosntoh`: the conversion of the first `dim` records of a buffer. -/
def infosntohBuffer (host : Host F) : ℕ → List UInt8 → List UInt8
  | 0, infos => infos
  | dim + 1, infos =>
    (infosntoh host.endian (Info.ofMem host (infos.take sizeofInfo))).toMem host ++
      infosntohBuffer host dim (infos.drop sizeofInfo)

/-- The return of `select` with the sockets it reports. The signalling one is looked
    at first; nothing to report is not a return. -/
def LogServer.select (logbuffer_size : ℕ) (s : LogServer) (newSockSignal newSockLog : Bool) :
    Option LogServer :=
  match s.pc with
  | .select =>
    if newSockSignal then some { s with pc := .left }
    else if newSockLog then
      some { s with pc := .recv ⟨0, (logbuffer_size * sizeofInfo : ℕ), 0⟩ }
    else none
  | _ => none

/-- The return of `recv`: the body of the loop, and what follows the loop if that was
    its last round. -/
def LogServer.recv (host : Host F) (s : LogServer) (r : Received) : Option LogServer :=
  match s.pc with
  | .recv b =>
    let hold2 := r.result
    let infos := blit s.infos b.infosOffset.toNat r.bytes
    let hold := b.hold + hold2
    if hold % sizeofInfo ≠ 0 ∧ hold2 ≥ 0 then
      some { s with pc := .recv ⟨hold, b.dim2 - hold2, b.infosOffset + hold2⟩, infos := infos }
    else if hold < 0 then
      -- Only the warning: data lost.
      some { s with pc := .select, infos := infos }
    else
      let dim_infos := hold / sizeofInfo
      let infos := infosntohBuffer host dim_infos.toNat infos
      some { pc := .select, infos := infos, out := s.out ++ infos.take hold.toNat }
  | _ => none

/-- The image that the log server writes for a record that a receiver sends. -/
def stored (host₁ host₂ : Host F) (r : Info F) : List UInt8 :=
  (infosntoh host₂.endian (Info.ofMem host₂ (r.toMem host₁))).toMem host₂

/-! ## The conversion of a buffer -/

/-- Records are converted one by one. -/
theorem infosntohBuffer_append (host : Host F) (m : ℕ) {n : ℕ} {bs : List UInt8}
    (h : bs.length = n * sizeofInfo) (bs' : List UInt8) :
    infosntohBuffer host (n + m) (bs ++ bs') =
      infosntohBuffer host n bs ++ infosntohBuffer host m bs' := by
  induction n generalizing bs with
  | zero =>
    obtain rfl : bs = [] := List.length_eq_zero_iff.1 (by omega)
    rw [Nat.zero_add, List.nil_append, infosntohBuffer.eq_1, List.nil_append]
  | succ n ih =>
    have hle : sizeofInfo ≤ bs.length := by rw [h, Nat.succ_mul]; omega
    have hdrop : (bs.drop sizeofInfo).length = n * sizeofInfo := by
      rw [List.length_drop, h, Nat.succ_mul]; omega
    rw [Nat.succ_add, infosntohBuffer, infosntohBuffer, List.take_append_of_le_length hle,
      List.drop_append_of_le_length hle, ih hdrop, List.append_assoc]

theorem length_infosntohBuffer (host : Host F) {n : ℕ} {bs : List UInt8}
    (h : n * sizeofInfo ≤ bs.length) : (infosntohBuffer host n bs).length = bs.length := by
  induction n generalizing bs with
  | zero => rfl
  | succ n ih =>
    rw [Nat.succ_mul] at h
    rw [infosntohBuffer, List.length_append, Info.length_toMem,
      ih (by rw [List.length_drop]; omega), List.length_drop]
    omega

/-- The converted records are those at the start of the buffer. -/
theorem take_infosntohBuffer (host : Host F) {n k : ℕ} {bs : List UInt8}
    (hk : k = n * sizeofInfo) (h : k ≤ bs.length) :
    (infosntohBuffer host n bs).take k = infosntohBuffer host n (bs.take k) := by
  have hlen : (bs.take k).length = n * sizeofInfo := by rw [List.length_take_of_le h, hk]
  have happ := infosntohBuffer_append host 0 hlen (bs.drop k)
  rw [List.take_append_drop, Nat.add_zero] at happ
  rw [happ, List.take_left' (by rw [length_infosntohBuffer host hlen.ge, hlen, hk])]

/-- The conversion of the images of records, each once. -/
theorem infosntohBuffer_flatMap (host₁ host₂ : Host F) (recs : List (Info F)) :
    infosntohBuffer host₂ recs.length (recs.flatMap (·.toMem host₁)) =
      recs.flatMap (stored host₁ host₂) := by
  induction recs with
  | nil => rfl
  | cons r recs ih =>
    have hlen : (r.toMem host₁).length = sizeofInfo := r.length_toMem host₁
    rw [List.length_cons, List.flatMap_cons, infosntohBuffer, List.take_left' hlen,
      List.drop_left' hlen, ih, List.flatMap_cons, stored]

omit [CDouble F] in
theorem length_flatMap_toMem (host : Host F) (recs : List (Info F)) :
    (recs.flatMap (·.toMem host)).length = recs.length * sizeofInfo := by
  induction recs with
  | nil => simp
  | cons r recs ih =>
    rw [List.flatMap_cons, List.length_append, ih, r.length_toMem, List.length_cons, Nat.succ_mul,
      Nat.add_comm]

/-! ## The invariant of the server -/

/-- The part of the invariant about a batch: the bytes `got` of it are at the start
    of the buffer, where there is room for what a further call asks for. They are no
    whole number of records, unless nothing has been read yet. -/
structure Batch.Holds (b : Batch) (infos got : List UInt8) : Prop where
  hold_eq : b.hold = got.length
  infosOffset_eq : b.infosOffset = b.hold
  room : b.hold + b.dim2 = infos.length
  take_eq : infos.take got.length = got
  open_ : got = [] ∨ ¬sizeofInfo ∣ got.length

/-- The server has read the bytes `read` and no more: the records of the batches
    that are complete (`done`) are in the file, after `out₀`, each converted once;
    the bytes of the batch being read are in the buffer. -/
def Wrote (logbuffer_size : ℕ) (host : Host F) (out₀ read : List UInt8) (s : LogServer) : Prop :=
  s.infos.length = logbuffer_size * sizeofInfo ∧
    ∃ (n : ℕ) (done : List UInt8), done.length = n * sizeofInfo ∧
      s.out = out₀ ++ infosntohBuffer host n done ∧
      match s.pc with
      | .recv b => ∃ got, read = done ++ got ∧ b.Holds s.infos got
      | _ => read = done

variable {logbuffer_size : ℕ} {host : Host F} {out₀ read : List UInt8} {s s' : LogServer}

/-- What the return of `select` does. -/
theorem select_eq_some {signal data : Bool} (h : s.select logbuffer_size signal data = some s') :
    s.pc = .select ∧ s'.infos = s.infos ∧ s'.out = s.out ∧
      (signal = true ∧ s'.pc = .left ∨
        data = true ∧ s'.pc = .recv ⟨0, (logbuffer_size * sizeofInfo : ℕ), 0⟩) := by
  rw [LogServer.select] at h
  cases hpc : s.pc with
  | select =>
    rw [hpc] at h
    simp only at h
    split_ifs at h with h₁ h₂ <;> cases h
    · exact ⟨rfl, rfl, rfl, .inl ⟨h₁, rfl⟩⟩
    · exact ⟨rfl, rfl, rfl, .inr ⟨h₂, rfl⟩⟩
  | recv b => rw [hpc] at h; cases h
  | left => rw [hpc] at h; cases h

/-- Waiting neither reads nor writes. -/
theorem Wrote.select {signal data : Bool} (hw : Wrote logbuffer_size host out₀ read s)
    (h : s.select logbuffer_size signal data = some s') :
    Wrote logbuffer_size host out₀ read s' := by
  obtain ⟨hpc, hinfos, hout, hpc'⟩ := select_eq_some h
  obtain ⟨hlen, n, done, hdone, hs, hread⟩ := hw
  rw [hpc] at hread
  refine ⟨hinfos ▸ hlen, n, done, hdone, hout ▸ hs, ?_⟩
  rcases hpc' with ⟨-, hpc'⟩ | ⟨-, hpc'⟩
  · rw [hpc']
    exact hread
  · rw [hpc']
    refine ⟨[], by rw [List.append_nil, hread], rfl, rfl, ?_, rfl, .inl rfl⟩
    simp [hinfos, hlen]

/-- A call of `recv` that fails in nothing: the bytes it returns are read, and if
    they complete a batch, the records of the batch are converted and written. -/
theorem Wrote.recv {b : Batch} {r : Received} (hw : Wrote logbuffer_size host out₀ read s)
    (hpc : s.pc = .recv b) (hr : r.result = r.bytes.length) (hroom : (r.bytes.length : ℤ) ≤ b.dim2)
    (h : s.recv host r = some s') :
    Wrote logbuffer_size host out₀ (read ++ r.bytes) s' := by
  obtain ⟨hlen, n, done, hdone, hout, hread⟩ := hw
  rw [hpc] at hread
  obtain ⟨got, hread, hb⟩ := hread
  have hhold := hb.hold_eq
  have hoff : b.infosOffset.toNat = got.length := by rw [hb.infosOffset_eq, hhold]; omega
  have hfit : got.length + r.bytes.length ≤ s.infos.length := by have := hb.room; omega
  have hlen' : (blit s.infos got.length r.bytes).length = logbuffer_size * sizeofInfo := by
    rw [length_blit hfit, hlen]
  have htake : (blit s.infos got.length r.bytes).take (got ++ r.bytes).length = got ++ r.bytes := by
    rw [List.length_append, take_blit (by omega), hb.take_eq]
  rw [LogServer.recv, hpc] at h
  simp only [hoff, hr, hhold] at h
  split_ifs at h with hmore hneg
  · -- The batch goes on.
    cases h
    refine ⟨hlen', n, done, hdone, hout, got ++ r.bytes, by rw [hread, List.append_assoc], ?_⟩
    refine ⟨by simp, by rw [hb.infosOffset_eq, hhold], ?_, htake, .inr fun hdvd => hmore.1 ?_⟩
    · have := hb.room
      simp only
      rw [hlen', ← hlen]
      omega
    · rw [List.length_append] at hdvd
      exact Int.emod_eq_zero_of_dvd (by exact_mod_cast hdvd)
  · -- A call that does not fail does not lose data.
    exact absurd hneg (by omega)
  · -- The batch is complete: it is converted and written.
    cases h
    have hdvd : sizeofInfo ∣ (got ++ r.bytes).length := by
      have hz : ((got.length : ℤ) + r.bytes.length) % sizeofInfo = 0 := by
        by_contra hne
        exact hmore ⟨hne, by omega⟩
      rw [List.length_append]
      exact_mod_cast Int.dvd_of_emod_eq_zero hz
    obtain ⟨m, hm⟩ := hdvd
    have hdim : (((got.length : ℤ) + r.bytes.length) / sizeofInfo).toNat = m := by
      rw [← Int.natCast_add, ← List.length_append, hm, Nat.cast_mul,
        Int.mul_ediv_cancel_left _ (by decide), Int.toNat_natCast]
    have hhold' : ((got.length : ℤ) + r.bytes.length).toNat = (got ++ r.bytes).length := by
      rw [List.length_append]; omega
    have hle : (got ++ r.bytes).length ≤ (blit s.infos got.length r.bytes).length := by
      rw [hlen', ← hlen, List.length_append]; exact hfit
    rw [Nat.mul_comm] at hm
    refine ⟨?_, n + m, done ++ (got ++ r.bytes), ?_, ?_, by rw [hread, List.append_assoc]⟩
    · rw [hdim, length_infosntohBuffer host (hm ▸ hle), hlen']
    · rw [List.length_append, hdone, hm, Nat.add_mul]
    · rw [hdim, hhold', take_infosntohBuffer host hm hle, htake,
        infosntohBuffer_append host m hdone, hout, List.append_assoc]

/-- A call of `recv` leaves a record open, or ends the batch. -/
theorem pc_recv {r : Received} (h : s.recv host r = some s') :
    (∃ b, s'.pc = .recv b ∧ b.hold % sizeofInfo ≠ 0) ∨ s'.pc = .select := by
  rw [LogServer.recv] at h
  cases hpc : s.pc with
  | recv b =>
    rw [hpc] at h
    simp only at h
    split_ifs at h with hmore <;> cases h
    · exact .inl ⟨_, rfl, hmore.1⟩
    · exact .inr rfl
    · exact .inr rfl
  | select => rw [hpc] at h; cases h
  | left => rw [hpc] at h; cases h

/-- The return of a call of `recv` is always dealt with. -/
theorem exists_recv (host : Host F) {b : Batch} (hpc : s.pc = .recv b) (r : Received) :
    ∃ s', s.recv host r = some s' := by
  rw [LogServer.recv, hpc]
  simp only
  split_ifs
  · exact ⟨_, rfl⟩
  · exact ⟨_, rfl⟩
  · exact ⟨_, rfl⟩

/-! ## The data branch -/

/-- The function with a data connection and no stop message: `select` returns when
    there is something to read. -/
def dataBranch (logbuffer_size : ℕ) (host : Host F) (s₀ : LogServer × Sock) :
    Transition (LogServer × Sock) Unit where
  init s := s = s₀
  step := fun (s, sock) () =>
    match s.pc with
    | .recv b => do
      let (r, sock) ← recv b.dim2.toNat sock
      return (← s.recv host r, sock)
    | _ => do return (← s.select logbuffer_size false !sock.isEmpty, sock)

/-- The invariant of the data branch on the stream `bs`: what has been read and what
    is left make up the stream, and a batch is being read only with bytes left. -/
def DataInv (logbuffer_size : ℕ) (host : Host F) (out₀ bs : List UInt8) (s : LogServer × Sock) :
    Prop :=
  ∃ read rest, bs = read ++ rest ∧ Wrote logbuffer_size host out₀ read s.1 ∧
    Fragments s.2 rest ∧ s.1.pc ≠ .left ∧ (s.1.pc ≠ .select → rest ≠ [])

/-- In a batch, what has been read fits in the buffer. -/
theorem Batch.Holds.dim2_nonneg {b : Batch} {infos got : List UInt8} (hb : b.Holds infos got) :
    0 ≤ b.dim2 := by
  have hgot := congrArg List.length hb.take_eq
  rw [List.length_take] at hgot
  have hroom := hb.room
  have hhold := hb.hold_eq
  omega

/-- In a batch, the server has room for at least one more byte. -/
theorem Batch.Holds.dim2_pos (hL : 0 < logbuffer_size) {b : Batch} {infos got : List UInt8}
    (hlen : infos.length = logbuffer_size * sizeofInfo) (hb : b.Holds infos got) : 0 < b.dim2 := by
  have hroom := hb.room
  have hhold := hb.hold_eq
  have hdim := hb.dim2_nonneg
  rcases hb.open_ with rfl | hdvd
  · -- Nothing has been read yet, and the buffer has room for a record.
    have : 0 < infos.length := hlen ▸ Nat.mul_pos hL (by decide)
    rw [List.length_nil] at hhold
    omega
  · -- A full buffer would be a whole number of records.
    have : got.length ≠ infos.length := fun he => hdvd (he ▸ hlen ▸ Dvd.intro_left _ rfl)
    omega

/-- What is left to do: bytes to read, and to turn to reading them. -/
def dataMeasure (s : LogServer × Sock) : ℕ :=
  2 * (bytes s.2).length + if s.1.pc = .select then 1 else 0

/-- As long as there is something to read, a step of the data branch is possible,
    keeps the invariant, and reads at least one byte or turns to reading. -/
theorem dataBranch_step (hL : 0 < logbuffer_size) {bs : List UInt8}
    (hbs : sizeofInfo ∣ bs.length) (s₀ : LogServer × Sock) {st : LogServer × Sock}
    (hinv : DataInv logbuffer_size host out₀ bs st) (hf : ¬(st.1.pc = .select ∧ st.2 = [])) :
    ∃ a st', (dataBranch logbuffer_size host s₀).step st a = some st' ∧
      DataInv logbuffer_size host out₀ bs st' ∧ dataMeasure st' < dataMeasure st := by
  obtain ⟨s, sock⟩ := st
  obtain ⟨read, rest, hcat, hw, hfrag, hleft, hrest⟩ := hinv
  simp only at hw hfrag hleft hrest hf
  cases hpc : s.pc with
  | left => exact absurd hpc hleft
  | select =>
    -- Something has arrived: the server turns to reading.
    have hne : sock ≠ [] := fun he => hf ⟨hpc, he⟩
    have hsel : s.select logbuffer_size false (!sock.isEmpty) =
        some { s with pc := .recv ⟨0, (logbuffer_size * sizeofInfo : ℕ), 0⟩ } := by
      simp [LogServer.select, hpc, hne]
    have hstep : (dataBranch logbuffer_size host s₀).step (s, sock) () =
        some ({ s with pc := .recv ⟨0, (logbuffer_size * sizeofInfo : ℕ), 0⟩ }, sock) := by
      simp only [dataBranch, hpc, hsel]
      rfl
    refine ⟨(), _, hstep, ⟨read, rest, hcat, hw.select hsel, hfrag, ?_, fun _ => hfrag.ne_nil hne⟩,
      ?_⟩
    · exact fun h => by cases h
    simp [dataMeasure, hpc]
  | recv b =>
    obtain ⟨hlen, n, done, hdone, -, hread⟩ := id hw
    rw [hpc] at hread
    obtain ⟨got, -, hb⟩ := hread
    -- There is room in the buffer, so that the call reads something.
    have hdim := hb.dim2_pos hL hlen
    obtain ⟨k, sock', hr, hk, hkn, hkl, hfrag'⟩ :=
      recv_of_fragments hfrag (hrest (by simp [hpc])) (n := b.dim2.toNat) (by omega)
    have hklen : (rest.take k).length = k := by simpa using hkl
    obtain ⟨s', hs'⟩ := exists_recv host hpc ⟨k, rest.take k⟩
    have hw' := hw.recv (r := ⟨k, rest.take k⟩) hpc (by rw [hklen]) (by simp only; omega) hs'
    have hstep : (dataBranch logbuffer_size host s₀).step (s, sock) () = some (s', sock') := by
      simp only [dataBranch, hpc, hr, Option.bind_eq_bind, Option.bind_some, hs']
      rfl
    refine ⟨(), (s', sock'), hstep, ⟨read ++ rest.take k, rest.drop k, ?_, hw', hfrag', ?_, ?_⟩, ?_⟩
    · rw [hcat, List.append_assoc, List.take_append_drop]
    · rcases pc_recv hs' with ⟨b', hpc', -⟩ | hpc' <;> rw [hpc'] <;> exact fun h => by cases h
    · -- With a record open there is more to come, as the stream is made of records.
      intro hns hnil
      rcases pc_recv hs' with ⟨b', hpc', hopen⟩ | hpc'
      · obtain ⟨-, n', done', hdone', -, hread'⟩ := hw'
        rw [hpc'] at hread'
        obtain ⟨got', hread', hb'⟩ := hread'
        have htake : rest.take k = rest := by
          rw [← List.append_nil (rest.take k), ← hnil, List.take_append_drop]
        have hall : bs = done' ++ got' := by rw [hcat, ← hread', htake]
        refine hopen (Int.emod_eq_zero_of_dvd ?_)
        rw [hb'.hold_eq]
        rw [hall, List.length_append, hdone'] at hbs
        exact_mod_cast (Nat.dvd_add_right (Dvd.intro_left _ rfl)).1 hbs
      · exact hns hpc'
    · have hb' := hfrag'.bytes_eq
      have hb := hfrag.bytes_eq
      simp only [dataMeasure, hpc, hb, hb', List.length_drop, reduceCtorEq, ↓reduceIte]
      split_ifs <;> omega

/-- At the end of the stream, `select` does not return. -/
theorem dataBranch_blocks (s₀ : LogServer × Sock) (hpc : s.pc = .select) (a : Unit) :
    (dataBranch logbuffer_size host s₀).step (s, []) a = none := by
  simp only [dataBranch, hpc, LogServer.select]
  rfl

/-- The invariant holds in every state reached on a stream of records. -/
theorem dataInv_of_reachable (hL : 0 < logbuffer_size) {bs : List UInt8}
    (hbs : sizeofInfo ∣ bs.length) {s₀ st : LogServer × Sock}
    (h₀ : DataInv logbuffer_size host out₀ bs s₀)
    (h : (dataBranch logbuffer_size host s₀).Reachable st) :
    DataInv logbuffer_size host out₀ bs st := by
  refine h.invariant (fun s hs => hs ▸ h₀) fun s a s' hinv _ hstep => ?_
  -- A step has been possible, so there was something to read.
  have hf : ¬(s.1.pc = .select ∧ s.2 = []) := by
    rintro ⟨hpc, hsock⟩
    obtain ⟨s, sock⟩ := s
    obtain rfl : sock = [] := hsock
    rw [dataBranch_blocks s₀ hpc] at hstep
    cases hstep
  obtain ⟨a', s'', hstep', hinv', -⟩ := dataBranch_step hL hbs s₀ hinv hf
  rw [hstep'] at hstep
  exact Option.some.inj hstep ▸ hinv'

/-- Records in network format that arrive on the data connection, in pieces of any
    size, are all read, until `select` finds nothing any more; then the file holds
    them, each converted once, in their order. During every read, the bytes read and
    the room left are the buffer, so that no byte is stored outside it. -/
theorem logPacketTCP_data (hL : 0 < logbuffer_size) (host₁ host₂ : Host F) (recs : List (Info F))
    (sock : Sock) (hsock : Fragments sock (recs.flatMap (·.toMem host₁)))
    (s₀ : LogServer) (hpc : s₀.pc = .select)
    (hinfos : s₀.infos.length = logbuffer_size * sizeofInfo) :
    (∃ s, (dataBranch logbuffer_size host₂ (s₀, sock)).Reachable (s, []) ∧ s.pc = .select ∧
      (∀ a, (dataBranch logbuffer_size host₂ (s₀, sock)).step (s, []) a = none) ∧
      s.out = s₀.out ++ recs.flatMap (stored host₁ host₂)) ∧
    ∀ s sk b, (dataBranch logbuffer_size host₂ (s₀, sock)).Reachable (s, sk) → s.pc = .recv b →
      b.hold + b.dim2 = (logbuffer_size * sizeofInfo : ℕ) ∧ b.infosOffset = b.hold ∧ 0 ≤ b.hold ∧
        0 ≤ b.dim2 ∧ s.infos.length = logbuffer_size * sizeofInfo := by
  have hlen := length_flatMap_toMem host₁ recs
  have hbs : sizeofInfo ∣ (recs.flatMap (·.toMem host₁)).length := hlen ▸ Dvd.intro_left _ rfl
  have h₀ : DataInv logbuffer_size host₂ s₀.out (recs.flatMap (·.toMem host₁)) (s₀, sock) := by
    refine ⟨[], _, rfl, ⟨hinfos, 0, [], by simp, by simp [infosntohBuffer], ?_⟩, hsock, ?_, ?_⟩
    · rw [hpc]
    · rw [hpc]; exact fun h => by cases h
    · exact fun h => absurd hpc h
  constructor
  · obtain ⟨as, ⟨s, sk⟩, hrun, ⟨read, rest, hcat, ⟨-, n, done, hdone, hout, hread⟩, hfrag, -, -⟩,
      hpc', hsk⟩ := Transition.exists_run_final dataMeasure
        (fun st hinv hf => dataBranch_step hL hbs (s₀, sock) hinv hf) h₀
    simp only at hpc' hsk hfrag hread hout
    subst hsk
    rw [hpc'] at hread
    -- Nothing is left on the connection, so all records have been read.
    have hrest : rest = [] := hfrag.bytes_eq.symm
    rw [hrest, List.append_nil, hread] at hcat
    have hn : recs.length = n := by
      have := hlen.symm.trans ((congrArg List.length hcat).trans hdone)
      exact Nat.eq_of_mul_eq_mul_right (by decide) this
    refine ⟨s, .run (.init rfl) hrun, hpc', dataBranch_blocks _ hpc', ?_⟩
    rw [hout, ← hcat, ← hn, infosntohBuffer_flatMap]
  · intro s sk b hreach hb
    obtain ⟨read, rest, -, ⟨hlen', n, done, -, -, hread⟩, -⟩ :=
      dataInv_of_reachable hL hbs h₀ hreach
    simp only at hlen' hread
    rw [hb] at hread
    obtain ⟨got, -, hholds⟩ := hread
    have hdim := hholds.dim2_pos hL hlen'
    have hhold : 0 ≤ b.hold := by
      rw [hholds.hold_eq]
      exact Int.natCast_nonneg _
    exact ⟨hlen' ▸ hholds.room, hholds.infosOffset_eq, hhold, hdim.le, hlen'⟩

/-- The server before the first record, with a buffer for `logbufferSize` records and an
    empty file. -/
def LogServer.empty (logbufferSize : ℕ) : LogServer :=
  ⟨.select, List.replicate (logbufferSize * sizeofInfo) 0, []⟩

/-- The record of a packet of 512 bytes of the flow `flowId`, a minute past ten. -/
def someRecord (flowId seqNum : UInt32) : Info ℚ :=
  writeInBufferStandard .little default (htonl .little flowId) (htonl .little seqNum)
    (chars "10.0.0.1") (chars "10.0.0.2") (htons .little 32768) (htons .little 8999)
    (36060 + seqNum.toNat) (36061 + seqNum.toNat) 250000 500000 512

/-- The records of three packets of two flows, as a little-endian host sends them. -/
def someRecords : List (Info ℚ) :=
  [someRecord 1 1, someRecord 2 1, someRecord 1 2].map (infosHostToNet .little)

@[inherit_doc someRecords]
def someStream : List UInt8 := someRecords.flatMap (·.toMem (.ofEndian .little))

/-- The bytes of the records in three pieces: the first ends within the first record, and the
    second within the third. -/
def somePieces : Sock :=
  [.data (someStream.take 100), .data ((someStream.drop 100).take 250),
    .data (someStream.drop 350)]

/-- Two batches, the second piece being read in both; the file of a big-endian server has the
    flows, the sequence numbers, the hours and the sizes of the records, in their order. -/
theorem logPacketTCP_data_three :
    ∃ s, (dataBranch 2 (.ofEndian .big : Host ℚ) (.empty 2, somePieces)).Reachable (s, []) ∧
      s.pc = .select ∧ s.out = someRecords.flatMap (stored (.ofEndian .little) (.ofEndian .big)) ∧
      (List.range 3).map (fun k => (load32 .big (s.out.drop (k * sizeofInfo)),
        load32 .big (s.out.drop (k * sizeofInfo + 4)),
        load32 .big (s.out.drop (k * sizeofInfo + 16)),
        load32 .big (s.out.drop (k * sizeofInfo + 32)))) =
          [(1, 1, 10, 512), (2, 1, 10, 512), (1, 2, 10, 512)] := by
  have hlen : someStream.length = 432 := length_flatMap_toMem _ someRecords
  have hdrop (n : ℕ) (hn : n < 432) : someStream.drop n ≠ [] := by
    rw [Ne, List.drop_eq_nil_iff, hlen]
    exact hn.not_ge
  have hsock : Fragments somePieces someStream := by
    refine .cut (by decide) (hdrop 0 (by decide)) (.cut (by decide) (hdrop 100 (by decide)) ?_)
    rw [List.drop_drop]
    exact .single (hdrop 350 (by decide))
  obtain ⟨⟨s, hs, hpc, -, hout⟩, -⟩ := logPacketTCP_data (by decide : 0 < 2) (.ofEndian .little)
    (.ofEndian .big) someRecords somePieces hsock (.empty 2) rfl List.length_replicate
  refine ⟨s, hs, hpc, hout, ?_⟩
  rw [hout]
  decide +kernel

end Model

end Ditg
