import Ditg.Common.AnyStream

/-!
# Receiving packets over SCTP

`SCTPrecvPacket` has been copied from `TCPrecvPacket` and edited: what is left of the preamble is
read over its start, with as many bytes asked for as the first time, and the bytes that are then
copied behind the first ones are those of a buffer nothing has been read into; the calls for what
is left of the packet ask for all of its rest, each time; and no call is taken to find the end of
the stream.

* `agree_iff_whole`: it reads a stream of packets as `TCPrecvPacket` does if and only if
  no preamble is cut, and no call for the rest of a packet that has been cut reaches into the
  next one;
* `SCTPrecvPacket_iff`: moreover, if the stream ends, it returns when the preamble is not cut and
  the packet is complete, and not when the preamble or, behind one that is not cut, the packet is
  incomplete.
-/

namespace Ditg

open Bytes Memory Socket

/-! ## The model -/

/-- The loop that reads the rest of the preamble. It reads to the start of `payload`, and copies
    as many bytes of `buffer`, from the offset `ptr` on, behind the ones it takes to be there. -/
def sctpPreamble (sizePreamble : ℕ) (buffer : List UInt8) :
    ℕ → ℕ → ℕ → List UInt8 → Conn → Option (Except ℤ Unit × List UInt8 × Conn)
  | 0, _, _, _, _ => none
  | fuel + 1, size_prec, ptr, payload, c =>
    if sizePreamble - size_prec > 0 then do
      let (r, c) ← c.recv payload.length sizePreamble
      if r.result < 0 then return (.error 1, payload, c)
      else
        let payload := blit payload 0 r.bytes
        let size_l := r.bytes.length
        sctpPreamble sizePreamble buffer fuel (size_prec + size_l) (ptr + size_l)
          (blit payload size_prec ((buffer.drop ptr).take size_l)) c
    else return (.ok (), payload, c)

/-- The loop that reads the rest of a packet, `size_prec` bytes after the preamble having been
    read. It asks for all of the rest each time. -/
def sctpRest (size : ℤ) (sizePreamble : ℕ) : ℕ → ℕ → Conn → Option (ℤ × Conn)
  | 0, _, _ => none
  | fuel + 1, size_prec, c =>
    if (size_prec : ℤ) < size - sizePreamble then do
      let (r, c) ← c.recv maxPayloadSize (size - sizePreamble).toNat
      if r.result < 0 then return (2, c)
      else sctpRest size sizePreamble fuel (size_prec + r.bytes.length) c
    else return (size, c)

/-- What follows the preamble. The first call is that of `TCPrecvPacket`. -/
def sctpPayload (e : Endian) (fuel : ℕ) (payload : List UInt8) (c : Conn) (sizePreamble : ℕ)
    (payloadLogType : UInt8) : Option (ℤ × List UInt8 × Conn) := do
  let (size, size_p, c) ← recvBody e payload c sizePreamble payloadLogType
  if size_p < 0 then return (2, payload, c)
  else
    let (size, c) ← sctpRest size sizePreamble fuel size_p.toNat c
    return (size, payload, c)

/-- Reading one packet, `buffer` being what the array of that name happens to hold. It is `none`
    if a call of `recv` blocks, or if the fuel is used up: there is at most one call in each loop
    for a unit of it. -/
def SCTPrecvPacket (e : Endian) (buffer : List UInt8) (fuel : ℕ) (payload : List UInt8) (c : Conn)
    (sizePreamble : ℕ) (payloadLogType : UInt8) : Option (ℤ × List UInt8 × Conn) := do
  let (r, c) ← c.recv payload.length sizePreamble
  if r.result < 0 then return (1, payload, c)
  else
    match ← sctpPreamble sizePreamble buffer fuel r.bytes.length 0 (blit payload 0 r.bytes) c with
    | (.error size, payload, c) => return (size, payload, c)
    | (.ok (), payload, c) => sctpPayload e fuel payload c sizePreamble payloadLogType

/-- Successive calls, with what each of them returns. -/
def SCTPrecvPackets (e : Endian) (buffers : ℕ → List UInt8) (fuel sizePreamble : ℕ)
    (payloadLogType : UInt8) :
    ℕ → List UInt8 → Conn → Option (List (ℤ × List UInt8 × Conn))
  | 0, _, _ => some []
  | n + 1, payload, c => do
    let (size, payload, c) ←
      SCTPrecvPacket e (buffers n) fuel payload c sizePreamble payloadLogType
    let rest ← SCTPrecvPackets e buffers fuel sizePreamble payloadLogType n payload c
    return (size, payload, c) :: rest

/-- `f` returns `out` after finitely many steps. -/
def Returns {α : Type*} (f : ℕ → Option α) (out : α) : Prop :=
  ∃ n, ∀ fuel, n ≤ fuel → f fuel = some out

theorem Returns.exists_le {α : Type*} {f : ℕ → Option α} {out : α} (h : Returns f out) (n : ℕ) :
    ∃ fuel, n ≤ fuel ∧ f fuel = some out := by
  obtain ⟨m, hm⟩ := h
  exact ⟨max n m, le_max_left .., hm _ (le_max_right ..)⟩

/-! ## The preamble -/

variable {t u : Sock} {bs payload buffer : List UInt8} {c : Conn}
  {sizePreamble size_prec ptr : ℕ}

/-- A call on a stream, whatever comes after it. -/
theorem conn_recv_append (hc : c.sock = t ++ u) (ht : Fragments t bs) (hbs : bs ≠ [])
    (room : ℕ) {n : ℕ} (hn : 0 < n) :
    ∃ p s k c', t = .data p :: s ∧ p ≠ [] ∧ k = min n p.length ∧ 0 < k ∧ k ≤ bs.length ∧
      c.recv room n = some (⟨k, bs.take k⟩, c') ∧ c'.sock = behind k t ++ u ∧
      Fragments (behind k t) (bs.drop k) := by
  obtain ⟨p, s, k, hs, hp, hk, hpos, hle, hr⟩ := ht.recv_append hbs hn u
  refine ⟨p, s, k, ⟨behind k t ++ u, ⟨room, n⟩ :: c.calls⟩, hs, hp, hk, hpos, hle, ?_, rfl,
    ht.behind hle⟩
  rw [Conn.recv, hc, hr]
  rfl

/-- A call on a stream that ends, before or at its end. -/
theorem conn_recv_closed (hc : c.sock = t ++ [.closed]) (ht : Fragments t bs) (room : ℕ) {n : ℕ}
    (hn : 0 < n) :
    ∃ k c', k ≤ bs.length ∧ c.recv room n = some (⟨k, bs.take k⟩, c') ∧
      c'.sock = behind k t ++ [.closed] ∧ Fragments (behind k t) (bs.drop k) := by
  by_cases hbs : bs = []
  · subst hbs
    obtain rfl := ht.eq_nil
    exact ⟨0, ⟨[.closed], ⟨room, n⟩ :: c.calls⟩, le_rfl, by rw [Conn.recv, hc]; rfl, rfl, .nil⟩
  · obtain ⟨p, s, k, c', -, -, -, -, hkl, hr, hc', ht'⟩ := conn_recv_append hc ht hbs room hn
    exact ⟨k, c', hkl, hr, hc', ht'⟩

theorem sctpPreamble_done (h : sizePreamble ≤ size_prec) (fuel : ℕ) :
    sctpPreamble sizePreamble buffer (fuel + 1) size_prec ptr payload c =
      some (.ok (), payload, c) := by
  rw [sctpPreamble, if_neg (by omega)]
  rfl

/-- What is left to do after a call that has read something, or found the stream closed. -/
theorem sctpPreamble_recv {k : ℕ} {c' : Conn} (hlt : size_prec < sizePreamble)
    (hr : c.recv payload.length sizePreamble = some (⟨k, bs.take k⟩, c')) (hk : k ≤ bs.length)
    (fuel : ℕ) :
    sctpPreamble sizePreamble buffer (fuel + 1) size_prec ptr payload c =
      sctpPreamble sizePreamble buffer fuel (size_prec + k) (ptr + k)
        (blit (blit payload 0 (bs.take k)) size_prec ((buffer.drop ptr).take k)) c' := by
  have hres : ¬((k : ℤ) < 0) := by omega
  rw [sctpPreamble, if_pos (by omega), hr]
  simp only [Option.bind_eq_bind, Option.bind_some, hres, ↓reduceIte, List.length_take_of_le hk]

/-- When the preamble has been cut, its last byte comes out of the buffer nothing has been read
    into. -/
theorem sctpPreamble_of_lt (hlt : size_prec < sizePreamble)
    (hp : 2 * sizePreamble ≤ payload.length) (hptr : ptr ≤ size_prec)
    (hb : 2 * sizePreamble ≤ buffer.length)
    (hle : sizePreamble - size_prec ≤ bs.length) (hc : c.sock = t ++ u) (ht : Fragments t bs) :
    ∃ payload' c', (∀ fuel, sizePreamble - size_prec < fuel →
        sctpPreamble sizePreamble buffer fuel size_prec ptr payload c =
          some (.ok (), payload', c')) ∧
      payload'[sizePreamble - 1]? = buffer[ptr + (sizePreamble - 1 - size_prec)]? := by
  -- Every call returns at least one byte, so that there is less left after it.
  obtain ⟨left, hleft⟩ : ∃ left, left = sizePreamble - size_prec := ⟨_, rfl⟩
  induction left using Nat.strong_induction_on generalizing size_prec ptr payload bs t c with
  | _ left ih =>
    have hne : bs ≠ [] := List.ne_nil_of_length_pos (by omega)
    obtain ⟨p, s, k, c', -, -, hk, hpos, hkl, hr, hc', ht'⟩ :=
      conn_recv_append hc ht hne payload.length (show 0 < sizePreamble by omega)
    have hlen : (bs.take k).length = k := List.length_take_of_le hkl
    have hks : k ≤ sizePreamble := hk.trans_le (min_le_left ..)
    have hcopy : ((buffer.drop ptr).take k).length = k := by
      rw [List.length_take, List.length_drop]
      omega
    have hp₀ : (blit payload 0 (bs.take k)).length = payload.length := length_blit (by omega)
    have hp₁ : (blit (blit payload 0 (bs.take k)) size_prec ((buffer.drop ptr).take k)).length =
        payload.length := by
      rw [length_blit (by omega), hp₀]
    by_cases hmore : size_prec + k < sizePreamble
    · obtain ⟨payload', c'', hfuel, hlast⟩ := ih (sizePreamble - (size_prec + k)) (by omega) hmore
        (hp.trans_eq hp₁.symm) (show ptr + k ≤ size_prec + k by omega)
        (by rw [List.length_drop]; omega) hc' ht' rfl
      refine ⟨payload', c'', fun fuel hf => ?_, ?_⟩
      · obtain ⟨fuel, rfl⟩ := Nat.exists_eq_succ_of_ne_zero (Nat.ne_zero_of_lt hf)
        rw [sctpPreamble_recv hlt hr hkl, hfuel fuel (by omega)]
      · rw [hlast]
        congr 1
        omega
    · refine ⟨blit (blit payload 0 (bs.take k)) size_prec ((buffer.drop ptr).take k), c',
        fun fuel hf => ?_, ?_⟩
      · obtain ⟨fuel, rfl⟩ := Nat.exists_eq_add_of_le' (show 2 ≤ fuel by omega)
        rw [sctpPreamble_recv hlt hr hkl, sctpPreamble_done (not_lt.1 hmore)]
      · have hidx : sizePreamble - 1 = size_prec + (sizePreamble - 1 - size_prec) := by omega
        rw [hidx, getElem?_blit_add (by omega) (by omega), ← hidx,
          List.getElem?_take_of_lt (by omega), List.getElem?_drop]

/-- When the stream ends within the preamble, the loop goes on for ever. -/
theorem sctpPreamble_closed (hlt : bs.length < sizePreamble - size_prec)
    (hc : c.sock = t ++ [.closed]) (ht : Fragments t bs) (fuel : ℕ) :
    sctpPreamble sizePreamble buffer fuel size_prec ptr payload c = none := by
  induction fuel generalizing size_prec ptr payload bs t c with
  | zero => rfl
  | succ fuel ih =>
    obtain ⟨k, c', hkl, hr, hc', ht'⟩ :=
      conn_recv_closed hc ht payload.length (show 0 < sizePreamble by omega)
    rw [sctpPreamble_recv (by omega) hr hkl]
    exact ih (by rw [List.length_drop]; omega) hc' ht'

/-! ## The rest of the packet -/

section Rest

variable {e : Endian} {payloadLogType : UInt8} {size : ℤ} {left off : ℕ}

/-- What is left to do after a call that has read something, or found the stream closed. -/
theorem sctpRest_recv {k : ℕ} {c' : Conn} (hlt : (size_prec : ℤ) < size - sizePreamble)
    (hr : c.recv maxPayloadSize (size - sizePreamble).toNat = some (⟨k, bs.take k⟩, c'))
    (hk : k ≤ bs.length) (fuel : ℕ) :
    sctpRest size sizePreamble (fuel + 1) size_prec c =
      sctpRest size sizePreamble fuel (size_prec + k) c' := by
  have hres : ¬((k : ℤ) < 0) := by omega
  rw [sctpRest, if_pos hlt, hr]
  simp only [Option.bind_eq_bind, Option.bind_some, hres, ↓reduceIte, List.length_take_of_le hk]

/-- The rest of a packet is read, and no more of the stream if and only if a piece ends with it. -/
theorem sctpRest_of_le (hleft : (size - sizePreamble - size_prec).toNat = left)
    (h0 : 0 < size_prec) (hle : left ≤ bs.length) (hc : c.sock = t ++ u) (ht : Fragments t bs) :
    ∃ k c', (∀ fuel, left < fuel → sctpRest size sizePreamble fuel size_prec c = some (size, c')) ∧
      c'.sock = behind k t ++ u ∧ left ≤ k ∧ k ≤ bs.length ∧ (k = left ↔ EndsAt left t) := by
  induction left using Nat.strong_induction_on generalizing size_prec bs t c with
  | _ left ih =>
    rcases Nat.eq_zero_or_pos left with rfl | hpos
    · refine ⟨0, c, fun fuel hf => ?_, ?_, le_rfl, Nat.zero_le _, by simp [endsAt_zero]⟩
      · obtain ⟨fuel, rfl⟩ := Nat.exists_eq_succ_of_ne_zero hf.ne'
        rw [sctpRest, if_neg (by omega)]
        rfl
      · rw [hc, ht.behind_zero]
    · obtain ⟨p, s, k, c', rfl, hp, hk, hkpos, hkl, hr, hc', ht'⟩ :=
        conn_recv_append hc ht (List.ne_nil_of_length_pos (by omega)) maxPayloadSize
          (show 0 < (size - sizePreamble).toNat by omega)
      obtain ⟨k', c'', hfuel, hc'', hlk, hkl', hiff⟩ := @ih (left - k) (by omega) _ _ c'
        (size_prec + k) (by omega) (by omega) (by rw [List.length_drop]; omega) hc' ht'
      rw [List.length_drop] at hkl'
      refine ⟨k + k', c'', fun fuel hf => ?_, ?_, by omega, by omega, ?_⟩
      · obtain ⟨fuel, rfl⟩ := Nat.exists_eq_succ_of_ne_zero (Nat.ne_zero_of_lt hf)
        rw [sctpRest_recv (by omega) hr hkl, hfuel fuel (by omega)]
      · rw [hc'', ht.behind_behind]
      · rw [endsAt_cons_iff hpos]
        by_cases hfit : p.length ≤ left
        · -- The call is given a whole piece, as it asks for more than is left.
          obtain rfl : k = p.length := by omega
          rw [ht.behind_piece] at hiff
          rw [← hiff]
          omega
        · have hmin : left < k := by omega
          simp only [hfit, false_and, iff_false]
          omega

/-- When the stream ends within the packet, the loop goes on for ever. -/
theorem sctpRest_closed (hlt : (bs.length : ℤ) < size - sizePreamble - size_prec)
    (hc : c.sock = t ++ [.closed]) (ht : Fragments t bs) (fuel : ℕ) :
    sctpRest size sizePreamble fuel size_prec c = none := by
  induction fuel generalizing size_prec bs t c with
  | zero => rfl
  | succ fuel ih =>
    obtain ⟨k, c', hkl, hr, hc', ht'⟩ := conn_recv_closed hc ht maxPayloadSize
      (show 0 < (size - sizePreamble).toNat by omega)
    rw [sctpRest_recv (by omega) hr hkl]
    exact ih (by rw [List.length_drop]; omega) hc' ht'

/-- What is left to do after the first call behind the preamble. -/
theorem sctpPayload_recv {k : ℕ} {c' : Conn} (hoff : sizeOffset payloadLogType = some off)
    (hsize : (ntohl e (load32 e (payload.drop off))).toBitVec.toInt = size)
    (hlt : (sizePreamble : ℤ) < size)
    (hr : c.recv maxPayloadSize (size - sizePreamble).toNat = some (⟨k, bs.take k⟩, c'))
    (fuel : ℕ) :
    sctpPayload e fuel payload c sizePreamble payloadLogType =
      (sctpRest size sizePreamble fuel k c').map fun (size, c) => (size, payload, c) := by
  have hres : ¬((k : ℤ) < 0) := by omega
  simp only [sctpPayload, recvBody_sized hoff hsize hlt, hr, Option.map_some, Option.bind_eq_bind,
    Option.bind_some, hres, ↓reduceIte, Int.toNat_natCast]
  exact Option.map_eq_bind.symm

/-- What follows the preamble is read, and no more of the stream if and only if it is in one
    piece, or a piece ends with it. -/
theorem sctpPayload_of_le (hoff : sizeOffset payloadLogType = some off)
    (hsize : (ntohl e (load32 e (payload.drop off))).toBitVec.toInt = size)
    (hleft : size - sizePreamble = left) (hpos : 0 < left)
    (hle : left ≤ bs.length) (hc : c.sock = t ++ u) (ht : Fragments t bs) :
    ∃ k c', (∀ fuel, left < fuel → sctpPayload e fuel payload c sizePreamble payloadLogType =
        some (size, payload, c')) ∧
      c'.sock = behind k t ++ u ∧ left ≤ k ∧ k ≤ bs.length ∧
      (k = left ↔ Uncut left t ∨ EndsAt left t) := by
  obtain ⟨p, s, k, c', rfl, hp, hk, hkpos, hkl, hr, hc', ht'⟩ :=
    conn_recv_append hc ht (List.ne_nil_of_length_pos (by omega)) maxPayloadSize
      (show 0 < (size - sizePreamble).toNat by omega)
  obtain ⟨k', c'', hfuel, hc'', hlk, hkl', hiff⟩ := sctpRest_of_le
    (show (size - sizePreamble - k).toNat = left - k by omega) hkpos
    (by rw [List.length_drop]; omega) hc' ht'
  rw [List.length_drop] at hkl'
  refine ⟨k + k', c'', fun fuel hf => ?_, by rw [hc'', ht.behind_behind], by omega, by omega, ?_⟩
  · rw [sctpPayload_recv hoff hsize (by omega) hr, hfuel fuel (by omega)]
    rfl
  · rw [uncut_cons_iff, endsAt_cons_iff hpos]
    by_cases hfit : left ≤ p.length
    · -- The first call is given all it asks for.
      have hall : left - k = 0 := by omega
      rw [hall] at hiff
      have hk' : k' = 0 := hiff.2 (endsAt_zero _)
      simp only [hfit, true_or, iff_true]
      omega
    · obtain rfl : k = p.length := by omega
      rw [ht.behind_piece] at hiff
      rw [← hiff]
      omega

/-- When the stream ends within the packet, the function does not return. -/
theorem sctpPayload_closed (hoff : sizeOffset payloadLogType = some off)
    (hsize : (ntohl e (load32 e (payload.drop off))).toBitVec.toInt = size)
    (hlt : (bs.length : ℤ) < size - sizePreamble) (hc : c.sock = t ++ [.closed])
    (ht : Fragments t bs) (fuel : ℕ) :
    sctpPayload e fuel payload c sizePreamble payloadLogType = none := by
  obtain ⟨k, c', hkl, hr, hc', ht'⟩ := conn_recv_closed hc ht maxPayloadSize
    (show 0 < (size - sizePreamble).toNat by omega)
  have hrest := @sctpRest_closed _ _ c' sizePreamble k size (by rw [List.length_drop]; omega)
    hc' ht' fuel
  rw [sctpPayload_recv hoff hsize (by omega) hr, hrest]
  rfl

end Rest

/-! ## One packet -/

section Packet

variable {e : Endian} {payloadLogType : UInt8} {pkt rest : List UInt8}

/-- The payload buffer holds the preamble from then on. -/
theorem sctpPayload_payload {fuel : ℕ} {out : ℤ × List UInt8 × Conn}
    (h : sctpPayload e fuel payload c sizePreamble payloadLogType = some out) :
    out.2.1 = payload := by
  obtain ⟨⟨size, size_p, c₁⟩, -, h⟩ := Option.bind_eq_some_iff.1 h
  dsimp only at h
  split_ifs at h
  · cases h
    rfl
  · obtain ⟨⟨x, c₂⟩, -, h⟩ := Option.bind_eq_some_iff.1 h
    cases h
    rfl

/-- What is left to do after the first call. -/
theorem SCTPrecvPacket_recv {k : ℕ} {c' : Conn}
    (hr : c.recv payload.length sizePreamble = some (⟨k, bs.take k⟩, c')) (hk : k ≤ bs.length)
    (fuel : ℕ) :
    SCTPrecvPacket e buffer fuel payload c sizePreamble payloadLogType =
      (sctpPreamble sizePreamble buffer fuel k 0 (blit payload 0 (bs.take k)) c').bind
        fun
        | (.error size, payload, c) => some (size, payload, c)
        | (.ok (), payload, c) => sctpPayload e fuel payload c sizePreamble payloadLogType := by
  have hres : ¬((k : ℤ) < 0) := by omega
  simp only [SCTPrecvPacket, hr, Option.bind_eq_bind, Option.bind_some, hres, ↓reduceIte,
    List.length_take_of_le hk]
  rfl

/-- A preamble that is in one piece is read by the first call. -/
theorem SCTPrecvPacket_uncut (e : Endian) (payload : List UInt8) (payloadLogType : UInt8)
    (h0 : 0 < sizePreamble) (hle : sizePreamble ≤ bs.length) (hcut : Uncut sizePreamble t)
    (hc : c.sock = t ++ u) (ht : Fragments t bs) :
    ∃ c', c'.sock = behind sizePreamble t ++ u ∧ ∀ (buffer : List UInt8) (fuel : ℕ),
      SCTPrecvPacket e buffer (fuel + 1) payload c sizePreamble payloadLogType =
        sctpPayload e (fuel + 1) (blit payload 0 (bs.take sizePreamble)) c' sizePreamble
          payloadLogType := by
  obtain ⟨p, s, k, c', rfl, -, hk, -, -, hr, hc', -⟩ :=
    conn_recv_append hc ht (List.ne_nil_of_length_pos (by omega)) payload.length h0
  rw [uncut_cons_iff] at hcut
  obtain rfl : k = sizePreamble := by omega
  refine ⟨c', hc', fun buffer fuel => ?_⟩
  rw [SCTPrecvPacket_recv hr hle, sctpPreamble_done le_rfl]
  rfl

/-- The size of a packet whose preamble has been read. -/
theorem size_of_blit (e : Endian) (payload : List UInt8) (h : WellSized payloadLogType pkt)
    {off : ℕ} (hoff : sizeOffset payloadLogType = some off)
    (htake : bs.take (preambleSize l4ProtoTCP payloadLogType) =
      pkt.take (preambleSize l4ProtoTCP payloadLogType)) :
    (ntohl e (load32 e ((blit payload 0 (bs.take (preambleSize l4ProtoTCP payloadLogType))).drop
      off))).toBitVec.toInt = pkt.length := by
  obtain ⟨off', hoff', hfield⟩ := h.size_eq
  obtain rfl : off' = off := Option.some.inj (hoff'.symm.trans hoff)
  have hps := (preambleSize_eq hoff).2
  have hlt := h.preamble_lt
  have hpre := take_blit_zero payload (pkt.take (off' + 4))
  rw [List.length_take_of_le (by omega)] at hpre
  rw [htake, hps]
  exact size_of_preamble e hpre (by omega) hfield h.length_le

/-- A packet whose preamble is in one piece is read, and no more of the stream if and only if
    the rest of it is in one piece, or a piece ends with it. -/
theorem SCTPrecvPacket_of_uncut (e : Endian) (payload : List UInt8)
    (h : WellSized payloadLogType pkt) (hcut : Uncut (preambleSize l4ProtoTCP payloadLogType) t)
    (hc : c.sock = t ++ u) (ht : Fragments t (pkt ++ rest)) :
    ∃ k c', (∀ (buffer : List UInt8) (fuel : ℕ), maxPayloadSize ≤ fuel →
        SCTPrecvPacket e buffer fuel payload c (preambleSize l4ProtoTCP payloadLogType)
          payloadLogType = some ((pkt.length : ℤ),
            blit payload 0 (pkt.take (preambleSize l4ProtoTCP payloadLogType)), c')) ∧
      c'.sock = behind k t ++ u ∧ k ≤ (pkt ++ rest).length ∧
      (k = pkt.length ↔
        Uncut (pkt.length - preambleSize l4ProtoTCP payloadLogType)
          (behind (preambleSize l4ProtoTCP payloadLogType) t) ∨
        EndsAt (pkt.length - preambleSize l4ProtoTCP payloadLogType)
          (behind (preambleSize l4ProtoTCP payloadLogType) t)) := by
  obtain ⟨off, hoff, -⟩ := h.size_eq
  have hlt := h.preamble_lt
  have hmax := h.length_le
  have h0 := (preambleSize_pos payloadLogType).1
  have hpre : preambleSize l4ProtoTCP payloadLogType ≤ (pkt ++ rest).length := by
    rw [List.length_append]
    omega
  have htake : (pkt ++ rest).take (preambleSize l4ProtoTCP payloadLogType) =
      pkt.take (preambleSize l4ProtoTCP payloadLogType) :=
    List.take_append_of_le_length hlt.le
  obtain ⟨c₁, hc₁, hfirst⟩ := SCTPrecvPacket_uncut e payload payloadLogType h0 hpre hcut hc ht
  have ht₁ := ht.behind hpre
  obtain ⟨k, c₂, hfuel, hc₂, -, hkl, hiff⟩ := sctpPayload_of_le hoff
    (size_of_blit e payload h hoff htake)
    (show (pkt.length : ℤ) - preambleSize l4ProtoTCP payloadLogType =
      (pkt.length - preambleSize l4ProtoTCP payloadLogType : ℕ) by omega) (by omega)
    (by rw [List.length_drop, List.length_append]; omega) hc₁ ht₁
  rw [List.length_drop] at hkl
  refine ⟨preambleSize l4ProtoTCP payloadLogType + k, c₂, fun buffer fuel hf => ?_,
    by rw [hc₂, ht.behind_behind], by omega, ?_⟩
  · have hpos : 0 < maxPayloadSize := by decide
    obtain ⟨fuel, rfl⟩ := Nat.exists_eq_succ_of_ne_zero (hpos.trans_le hf).ne'
    rw [hfirst, hfuel _ (by omega), htake]
  · rw [← hiff]
    omega

/-- When a preamble has been cut, a byte of it is that of the buffer nothing has been read into. -/
theorem SCTPrecvPacket_cut (e : Endian) (payloadLogType : UInt8) (h20 : sizePreamble ≤ 20)
    (hp : payload.length = maxPayloadSize) (hle : sizePreamble ≤ bs.length)
    (h0 : 0 < sizePreamble)
    (hcut : ¬Uncut sizePreamble t) (hc : c.sock = t ++ u) (ht : Fragments t bs) :
    ∃ i < maxPayloadSize, ∀ (buffer : List UInt8), buffer.length = maxPayloadSize →
      ∀ (fuel : ℕ) (out : ℤ × List UInt8 × Conn), sizePreamble < fuel →
        SCTPrecvPacket e buffer fuel payload c sizePreamble payloadLogType = some out →
          out.2.1[sizePreamble - 1]? = buffer[i]? := by
  obtain ⟨p, s, k, c', rfl, -, hk, hpos, hkl, hr, hc', ht'⟩ :=
    conn_recv_append hc ht (List.ne_nil_of_length_pos (by omega)) payload.length h0
  rw [uncut_cons_iff] at hcut
  rw [maxPayloadSize] at hp ⊢
  have hlen : (bs.take k).length = k := List.length_take_of_le hkl
  have hb : (blit payload 0 (bs.take k)).length = payload.length := length_blit (by omega)
  refine ⟨sizePreamble - 1 - k, by omega, fun buffer hbuf fuel out hf hout => ?_⟩
  obtain ⟨payload', c'', hloop, hlast⟩ := @sctpPreamble_of_lt _ _ _
    (blit payload 0 (bs.take k)) buffer _ sizePreamble k 0 (by omega) (by omega) (Nat.zero_le _)
    (by omega) (by rw [List.length_drop]; omega) hc' ht'
  rw [SCTPrecvPacket_recv hr hkl, hloop fuel (by omega), Option.bind_some] at hout
  rw [sctpPayload_payload hout, hlast, Nat.zero_add]

/-- When the stream ends within the preamble, the function does not return. -/
theorem SCTPrecvPacket_closed (hlt : bs.length < sizePreamble) (hc : c.sock = t ++ [.closed])
    (ht : Fragments t bs) (fuel : ℕ) :
    SCTPrecvPacket e buffer fuel payload c sizePreamble payloadLogType = none := by
  obtain ⟨k, c', hkl, hr, hc', ht'⟩ :=
    conn_recv_closed hc ht payload.length (show 0 < sizePreamble by omega)
  have hloop := @sctpPreamble_closed _ _ (blit payload 0 (bs.take k)) buffer c' sizePreamble k 0
    (by rw [List.length_drop]; omega) hc' ht' fuel
  rw [SCTPrecvPacket_recv hr hkl, hloop]
  rfl

/-- When the stream ends within the packet, behind a preamble in one piece, neither. -/
theorem SCTPrecvPacket_uncut_closed (h : WellSized payloadLogType pkt)
    (hcut : Uncut (preambleSize l4ProtoTCP payloadLogType) t) (hbs : bs <+: pkt ++ rest)
    (hlt : bs.length < pkt.length) (hle : preambleSize l4ProtoTCP payloadLogType ≤ bs.length)
    (hc : c.sock = t ++ [.closed]) (ht : Fragments t bs) (fuel : ℕ) :
    SCTPrecvPacket e buffer (fuel + 1) payload c (preambleSize l4ProtoTCP payloadLogType)
      payloadLogType = none := by
  obtain ⟨off, hoff, -⟩ := h.size_eq
  have htake : bs.take (preambleSize l4ProtoTCP payloadLogType) =
      pkt.take (preambleSize l4ProtoTCP payloadLogType) := by
    obtain ⟨more, hmore⟩ := hbs
    have htake := congrArg (List.take (preambleSize l4ProtoTCP payloadLogType)) hmore
    rwa [List.take_append_of_le_length hle, List.take_append_of_le_length (by omega)] at htake
  obtain ⟨c₁, hc₁, hfirst⟩ := SCTPrecvPacket_uncut e payload payloadLogType
    (preambleSize_pos payloadLogType).1 hle hcut hc ht
  rw [hfirst]
  exact sctpPayload_closed hoff (size_of_blit e payload h hoff htake)
    (by rw [List.length_drop]; omega) hc₁ (ht.behind hle) _

end Packet

/-! ## A stream of packets -/

section Stream

variable {e : Endian} {payloadLogType : UInt8} {pkt rest : List UInt8} {sock : Sock}

/-- Reading a packet leaves what is behind it. -/
theorem TCPrecvPacket_behind (h : WellSized payloadLogType pkt)
    (hp : payload.length = maxPayloadSize) (hc : c.Holds (pkt ++ rest)) :
    ∃ payload' c', TCPrecvPacket e payload c (preambleSize l4ProtoTCP payloadLogType)
        payloadLogType = some ((pkt.length : ℤ), payload', c') ∧
      payload'.length = maxPayloadSize ∧
      payload'.take (preambleSize l4ProtoTCP payloadLogType) =
        pkt.take (preambleSize l4ProtoTCP payloadLogType) ∧
      c'.Holds rest ∧ c'.sock = behind pkt.length c.sock := by
  obtain ⟨payload', c', hout, hp', htake, hc'⟩ := TCPrecvPacket_of_holds e h hp hc
  refine ⟨payload', c', hout, hp', htake, hc', ?_⟩
  -- Every call leaves what is behind some of the bytes.
  have hkept : KeptByRecv fun c₁ => ∃ m ≤ (pkt ++ rest).length, c₁.sock = behind m c.sock := by
    rintro c₁ c₂ room n r ⟨m, hm, hc₁⟩ hr
    have ht : Fragments c₁.sock ((pkt ++ rest).drop m) := hc₁ ▸ Fragments.behind hc hm
    obtain ⟨k, hk, hc₂⟩ := ht.exists_behind (Conn.recv_eq_some hr).1
    rw [List.length_drop] at hk
    exact ⟨m + k, by omega, by rw [hc₂, hc₁, Fragments.behind_behind hc]⟩
  obtain ⟨m, hm, hsock⟩ := TCPrecvPacket_kept hkept ⟨0, Nat.zero_le _, hc.behind_zero.symm⟩ hout
  have hbytes := (hsock ▸ Fragments.behind hc hm).bytes_eq.symm.trans hc'.bytes_eq
  have hlen := congrArg List.length hbytes
  rw [List.length_drop, List.length_append] at hlen
  rw [List.length_append] at hm
  rw [hsock, show m = pkt.length by omega]

/-- A call of `SCTPrecvPacket` returns and leaves what one of `TCPrecvPacket` does. -/
structure SameRead (sizePreamble : ℕ) (out out' : ℤ × List UInt8 × Conn) : Prop where
  size_eq : out'.1 = out.1
  preamble_eq : out'.2.1.take sizePreamble = out.2.1.take sizePreamble
  left_eq : arrivedOn out'.2.2 = arrivedOn out.2.2

/-- Whatever the buffers hold, as many calls of both functions return, with the same results. -/
def Agree (e : Endian) (payloadLogType : UInt8) (n : ℕ) (payload payload' : List UInt8)
    (c c' : Conn) : Prop :=
  ∀ buffers : ℕ → List UInt8, (∀ i, (buffers i).length = maxPayloadSize) →
    ∃ outs outs', TCPrecvPackets e (preambleSize l4ProtoTCP payloadLogType) payloadLogType n payload
        c = some outs ∧
      Returns (fun fuel => SCTPrecvPackets e buffers fuel (preambleSize l4ProtoTCP payloadLogType)
        payloadLogType n payload' c') outs' ∧
      List.Forall₂ (SameRead (preambleSize l4ProtoTCP payloadLogType)) outs outs'

/-- No preamble is cut, and some piece ends with each packet whose rest is cut. -/
def Whole (sizePreamble : ℕ) : List (List UInt8) → Sock → Prop
  | [], _ => True
  | pkt :: pkts, s =>
    Uncut sizePreamble s ∧
    (Uncut (pkt.length - sizePreamble) (behind sizePreamble s) ∨
      EndsAt (pkt.length - sizePreamble) (behind sizePreamble s)) ∧
    Whole sizePreamble pkts (behind pkt.length s)

/-- The calls after the first one of `TCPrecvPacket`. -/
theorem TCPrecvPackets_succ {n : ℕ} {size : ℤ} {payload₁ : List UInt8} {c₁ : Conn}
    (hout : TCPrecvPacket e payload c sizePreamble payloadLogType = some (size, payload₁, c₁)) :
    TCPrecvPackets e sizePreamble payloadLogType (n + 1) payload c =
      (TCPrecvPackets e sizePreamble payloadLogType n payload₁ c₁).map
        ((size, payload₁, c₁) :: ·) := by
  simp only [TCPrecvPackets, hout, Option.bind_eq_bind, Option.bind_some]
  exact Option.map_eq_bind.symm

/-- The calls after the first one of `SCTPrecvPacket`. -/
theorem SCTPrecvPackets_succ {n fuel : ℕ} {buffers : ℕ → List UInt8} {size : ℤ}
    {payload₁ : List UInt8} {c₁ : Conn}
    (hout : SCTPrecvPacket e (buffers n) fuel payload c sizePreamble payloadLogType =
      some (size, payload₁, c₁)) :
    SCTPrecvPackets e buffers fuel sizePreamble payloadLogType (n + 1) payload c =
      (SCTPrecvPackets e buffers fuel sizePreamble payloadLogType n payload₁ c₁).map
        ((size, payload₁, c₁) :: ·) := by
  simp only [SCTPrecvPackets, hout, Option.bind_eq_bind, Option.bind_some]
  exact Option.map_eq_bind.symm

/-- Calls of `SCTPrecvPacket` return if and only if the ones after the first do, when this one
    does. -/
theorem returns_succ_iff {n : ℕ} {buffers : ℕ → List UInt8} {size : ℤ} {payload₁ : List UInt8}
    {c₁ : Conn} {outs : List (ℤ × List UInt8 × Conn)}
    (hout : ∀ fuel, maxPayloadSize ≤ fuel →
      SCTPrecvPacket e (buffers n) fuel payload c sizePreamble payloadLogType =
        some (size, payload₁, c₁)) :
    Returns (fun fuel => SCTPrecvPackets e buffers fuel sizePreamble payloadLogType (n + 1) payload
        c) outs ↔
      ∃ rest, outs = (size, payload₁, c₁) :: rest ∧
        Returns (fun fuel => SCTPrecvPackets e buffers fuel sizePreamble payloadLogType n payload₁
          c₁) rest := by
  constructor
  · rintro ⟨m, hm⟩
    have hrest (fuel : ℕ) (hf : max m maxPayloadSize ≤ fuel) :
        ∃ rest, SCTPrecvPackets e buffers fuel sizePreamble payloadLogType n payload₁ c₁ =
          some rest ∧ (size, payload₁, c₁) :: rest = outs := by
      have hsome := hm fuel (le_of_max_le_left hf)
      dsimp only at hsome
      rwa [SCTPrecvPackets_succ (hout fuel (le_of_max_le_right hf)), Option.map_eq_some_iff]
        at hsome
    obtain ⟨rest, -, rfl⟩ := hrest _ le_rfl
    refine ⟨rest, rfl, max m maxPayloadSize, fun fuel hf => ?_⟩
    obtain ⟨rest', hrest', heq⟩ := hrest fuel hf
    obtain rfl := (List.cons.inj heq).2
    exact hrest'
  · rintro ⟨rest, rfl, m, hm⟩
    refine ⟨max m maxPayloadSize, fun fuel hf => ?_⟩
    dsimp only
    rw [SCTPrecvPackets_succ (hout fuel (le_of_max_le_right hf))]
    exact congrArg _ (hm fuel (le_of_max_le_left hf))

/-- If the first calls return, the functions agree when they return the same and agree from then
    on. -/
theorem agree_succ_iff {n : ℕ} {payload' : List UInt8} {c' : Conn} {size size' : ℤ}
    {p₁ p₂ : List UInt8} {c₁ c₂ : Conn}
    (hout : TCPrecvPacket e payload c (preambleSize l4ProtoTCP payloadLogType) payloadLogType =
      some (size, p₁, c₁))
    (hout' : ∀ (buffer : List UInt8) (fuel : ℕ), maxPayloadSize ≤ fuel →
      SCTPrecvPacket e buffer fuel payload' c' (preambleSize l4ProtoTCP payloadLogType)
        payloadLogType = some (size', p₂, c₂)) :
    Agree e payloadLogType (n + 1) payload payload' c c' ↔
      SameRead (preambleSize l4ProtoTCP payloadLogType) (size, p₁, c₁) (size', p₂, c₂) ∧
        Agree e payloadLogType n p₁ p₂ c₁ c₂ := by
  have hreturns (buffers : ℕ → List UInt8) {outs : List (ℤ × List UInt8 × Conn)} :=
    @returns_succ_iff _ _ _ _ _ n buffers _ _ _ outs (hout' (buffers n))
  constructor
  · intro h
    have hboth (buffers : ℕ → List UInt8) (hb : ∀ i, (buffers i).length = maxPayloadSize) :
        SameRead (preambleSize l4ProtoTCP payloadLogType) (size, p₁, c₁) (size', p₂, c₂) ∧
          ∃ outs outs', TCPrecvPackets e (preambleSize l4ProtoTCP payloadLogType) payloadLogType n
              p₁ c₁ = some outs ∧
            Returns (fun fuel => SCTPrecvPackets e buffers fuel
              (preambleSize l4ProtoTCP payloadLogType) payloadLogType n p₂ c₂) outs' ∧
            List.Forall₂ (SameRead (preambleSize l4ProtoTCP payloadLogType)) outs outs' := by
      obtain ⟨outs, outs', houts, hret, hsame⟩ := h buffers hb
      rw [TCPrecvPackets_succ hout, Option.map_eq_some_iff] at houts
      obtain ⟨outs, houts, rfl⟩ := houts
      obtain ⟨outs', rfl, hret'⟩ := (hreturns buffers).1 hret
      obtain ⟨hfirst, hrest⟩ := List.forall₂_cons.1 hsame
      exact ⟨hfirst, outs, outs', houts, hret', hrest⟩
    exact ⟨(hboth (fun _ => List.replicate maxPayloadSize 0) fun _ => List.length_replicate).1,
      fun buffers hb => (hboth buffers hb).2⟩
  · rintro ⟨hfirst, hrest⟩ buffers hb
    obtain ⟨outs, outs', houts, hret, hsame⟩ := hrest buffers hb
    exact ⟨_, _, by rw [TCPrecvPackets_succ hout, houts]; rfl,
      (hreturns buffers).2 ⟨outs', rfl, hret⟩, .cons hfirst hsame⟩

/-- If the functions agree, the first calls do, whatever the buffer holds. -/
theorem Agree.first {n : ℕ} {payload' : List UInt8} {c' : Conn} {out : ℤ × List UInt8 × Conn}
    (h : Agree e payloadLogType (n + 1) payload payload' c c')
    (hout : TCPrecvPacket e payload c (preambleSize l4ProtoTCP payloadLogType) payloadLogType =
      some out)
    (hb : buffer.length = maxPayloadSize) (m : ℕ) :
    ∃ fuel out', m ≤ fuel ∧
      SCTPrecvPacket e buffer fuel payload' c' (preambleSize l4ProtoTCP payloadLogType)
        payloadLogType = some out' ∧
      SameRead (preambleSize l4ProtoTCP payloadLogType) out out' := by
  obtain ⟨outs, outs', houts, hret, hsame⟩ := h (fun _ => buffer) fun _ => hb
  obtain ⟨fuel, hf, hret⟩ := hret.exists_le m
  rw [TCPrecvPackets_succ hout, Option.map_eq_some_iff] at houts
  obtain ⟨outs, -, rfl⟩ := houts
  obtain ⟨out', hout', hrest⟩ := Option.bind_eq_some_iff.1 hret
  obtain ⟨l, -, hcons⟩ := Option.bind_eq_some_iff.1 hrest
  obtain rfl := Option.some.inj hcons
  exact ⟨fuel, out', hf, hout', (List.forall₂_cons.1 hsame).1⟩

/-- With a cut preamble, the functions do not agree if the buffer holds another byte than the last
    one of the preamble. -/
theorem not_agree_of_cut {n : ℕ} {payload' : List UInt8} {c' : Conn} {out : ℤ × List UInt8 × Conn}
    (h : WellSized payloadLogType pkt)
    (hout : TCPrecvPacket e payload c (preambleSize l4ProtoTCP payloadLogType) payloadLogType =
      some out)
    (htake : out.2.1.take (preambleSize l4ProtoTCP payloadLogType) =
      pkt.take (preambleSize l4ProtoTCP payloadLogType))
    (hp' : payload'.length = maxPayloadSize)
    (hcut : ¬Uncut (preambleSize l4ProtoTCP payloadLogType) t) (hc : c'.sock = t ++ u)
    (ht : Fragments t (pkt ++ rest)) :
    ¬Agree e payloadLogType (n + 1) payload payload' c c' := by
  intro hagree
  obtain ⟨h0, h20⟩ := preambleSize_pos payloadLogType
  have hlt := h.preamble_lt
  obtain ⟨i, hi, hlast⟩ := SCTPrecvPacket_cut e payloadLogType h20 hp'
    (by rw [List.length_append]; omega) h0 hcut hc ht
  have hb : pkt[preambleSize l4ProtoTCP payloadLogType - 1] + 1 ≠
      pkt[preambleSize l4ProtoTCP payloadLogType - 1] := by simp
  obtain ⟨fuel, out', hf, hout', hsame⟩ := hagree.first hout
    (List.length_replicate (a := pkt[preambleSize l4ProtoTCP payloadLogType - 1] + 1))
    (preambleSize l4ProtoTCP payloadLogType + 1)
  have hbyte := congrArg (·[preambleSize l4ProtoTCP payloadLogType - 1]?)
    (hsame.preamble_eq.trans htake)
  simp only [List.getElem?_take_of_lt (Nat.sub_lt h0 Nat.one_pos)] at hbyte
  rw [hlast _ List.length_replicate fuel out' hf hout', List.getElem?_replicate, if_pos hi,
    List.getElem?_eq_getElem (by omega)] at hbyte
  exact hb (Option.some.inj hbyte)

/-- Two calls that return the same size and preamble leave the same bytes if and only if they have
    read as many. -/
theorem sameRead_iff_of_behind {size : ℤ} {k n : ℕ} {p₁ p₂ : List UInt8} {c₁ c₂ : Conn}
    (ht : Fragments sock bs) (hn : n ≤ bs.length) (hk : k ≤ bs.length)
    (hpre : p₂.take sizePreamble = p₁.take sizePreamble) (hc₁ : c₁.sock = behind n sock)
    (hc₂ : c₂.sock = behind k sock) :
    SameRead sizePreamble (size, p₁, c₁) (size, p₂, c₂) ↔ k = n := by
  constructor
  · intro h
    have hleft := congrArg List.length h.left_eq
    rw [arrivedOn, arrivedOn, hc₁, hc₂, (ht.behind hn).arrived_eq, (ht.behind hk).arrived_eq,
      List.length_drop, List.length_drop] at hleft
    omega
  · rintro rfl
    exact ⟨rfl, hpre, by rw [arrivedOn, arrivedOn, hc₁, hc₂]⟩

/-- Both functions read a stream of packets in the same way if and only if the network has cut it
    so. -/
theorem agree_iff_whole {pkts : List (List UInt8)}
    (hpkts : ∀ pkt ∈ pkts, WellSized payloadLogType pkt)
    {payload' : List UInt8} {c' : Conn} (hp : payload.length = maxPayloadSize)
    (hp' : payload'.length = maxPayloadSize) (hc : c.Holds (pkts.flatten ++ rest))
    (hsock : c'.sock = c.sock) :
    Agree e payloadLogType pkts.length payload payload' c c' ↔
      Whole (preambleSize l4ProtoTCP payloadLogType) pkts c.sock := by
  induction pkts generalizing payload payload' c c' with
  | nil => exact ⟨fun _ => trivial, fun _ _ _ => ⟨[], [], rfl, ⟨0, fun _ _ => rfl⟩, .nil⟩⟩
  | cons pkt pkts ih =>
    have hpkt := hpkts pkt List.mem_cons_self
    have hlt := hpkt.preamble_lt
    have hmax := hpkt.length_le
    obtain ⟨h0, h20⟩ := preambleSize_pos payloadLogType
    rw [List.flatten_cons, List.append_assoc] at hc
    have ht : Fragments c.sock (pkt ++ (pkts.flatten ++ rest)) := hc
    have hc₀ : c'.sock = c.sock ++ [] := by rw [hsock, List.append_nil]
    obtain ⟨p₁, c₁, hout, hp₁, htake, hc₁, hsock₁⟩ := TCPrecvPacket_behind (e := e) hpkt hp hc
    by_cases hcut : Uncut (preambleSize l4ProtoTCP payloadLogType) c.sock
    · obtain ⟨k, c₂, hout', hsock₂, hk, hiff⟩ :=
        SCTPrecvPacket_of_uncut e payload' hpkt hcut hc₀ ht
      rw [List.append_nil] at hsock₂
      have hblit := take_blit_zero payload'
        (pkt.take (preambleSize l4ProtoTCP payloadLogType))
      rw [List.length_take_of_le hlt.le] at hblit
      have hp₂ : (blit payload' 0 (pkt.take (preambleSize l4ProtoTCP payloadLogType))).length =
          maxPayloadSize := by
        rw [length_blit (by rw [List.length_take]; omega), hp']
      have hsame := @sameRead_iff_of_behind _ _ _ pkt.length _ _ _ _ _ _ ht
        (by rw [List.length_append]; omega) hk (hblit.trans htake.symm) hsock₁ hsock₂
      -- If they have read as many bytes, they go on from the same place.
      have hnext (hrest : Uncut (pkt.length - preambleSize l4ProtoTCP payloadLogType)
            (behind (preambleSize l4ProtoTCP payloadLogType) c.sock) ∨
          EndsAt (pkt.length - preambleSize l4ProtoTCP payloadLogType)
            (behind (preambleSize l4ProtoTCP payloadLogType) c.sock)) :
          Agree e payloadLogType pkts.length p₁
              (blit payload' 0 (pkt.take (preambleSize l4ProtoTCP payloadLogType))) c₁ c₂ ↔
            Whole (preambleSize l4ProtoTCP payloadLogType) pkts (behind pkt.length c.sock) := by
        rw [hiff.2 hrest, ← hsock₁] at hsock₂
        rw [← hsock₁]
        exact ih (fun p h => hpkts p (List.mem_cons_of_mem _ h)) hp₁ hp₂ hc₁ hsock₂
      rw [List.length_cons, agree_succ_iff hout hout', hsame, hiff, Whole]
      exact ⟨fun ⟨hrest, hagree⟩ => ⟨hcut, hrest, (hnext hrest).1 hagree⟩,
        fun ⟨_, hrest, hwhole⟩ => ⟨hrest, (hnext hrest).2 hwhole⟩⟩
    · -- With a cut preamble, a buffer that holds another byte than the preamble.
      exact ⟨fun hagree => absurd hagree (not_agree_of_cut hpkt hout htake hp' hcut hc₀ ht),
        fun hwhole => absurd hwhole.1 hcut⟩

end Stream

/-! ## The end of the stream -/

/-- Whatever the buffers hold, a call of `SCTPrecvPacket` returns. -/
def Ends (e : Endian) (payloadLogType : UInt8) (sock : Sock) : Prop :=
  ∀ buffer payload : List UInt8, buffer.length = maxPayloadSize →
    payload.length = maxPayloadSize → ∃ out, Returns (fun fuel =>
      SCTPrecvPacket e buffer fuel payload ⟨sock, []⟩ (preambleSize l4ProtoTCP payloadLogType)
        payloadLogType) out

section Ends

variable {e : Endian} {payloadLogType : UInt8} {pkt rest : List UInt8}

theorem not_ends {sock : Sock} (h : ∀ (buffer payload : List UInt8) (fuel : ℕ),
    SCTPrecvPacket e buffer (fuel + 1) payload ⟨sock, []⟩
      (preambleSize l4ProtoTCP payloadLogType) payloadLogType = none) :
    ¬Ends e payloadLogType sock := by
  intro hends
  obtain ⟨out, hret⟩ := hends (List.replicate maxPayloadSize 0) (List.replicate maxPayloadSize 0)
    List.length_replicate List.length_replicate
  obtain ⟨fuel, hf, hout⟩ := hret.exists_le 1
  obtain ⟨fuel, rfl⟩ := Nat.exists_eq_succ_of_ne_zero (Nat.one_le_iff_ne_zero.1 hf)
  rw [h] at hout
  cases hout

/-- Behind a preamble that is not cut, the function returns when the packet is complete. -/
theorem ends_iff_of_uncut (h : WellSized payloadLogType pkt) (ht : Fragments t bs)
    (hbs : bs <+: pkt ++ rest) (hcut : Uncut (preambleSize l4ProtoTCP payloadLogType) t) :
    Ends e payloadLogType (t ++ [.closed]) ↔ pkt.length ≤ bs.length := by
  constructor
  · intro hends
    by_contra hlt
    have hle : preambleSize l4ProtoTCP payloadLogType ≤ bs.length := by
      obtain ⟨p, s, rfl, hle⟩ := hcut
      rw [← ht.bytes_eq, bytes_cons, List.length_append]
      omega
    exact not_ends (fun buffer payload fuel =>
      SCTPrecvPacket_uncut_closed h hcut hbs (not_le.1 hlt) hle rfl ht fuel) hends
  · intro hle buffer payload _ _
    obtain ⟨more, rfl⟩ : pkt <+: bs :=
      List.prefix_of_prefix_length_le (List.prefix_append ..) hbs hle
    obtain ⟨k, c', hfuel, -⟩ := SCTPrecvPacket_of_uncut e payload (c := ⟨t ++ [.closed], []⟩) h hcut
      rfl ht
    exact ⟨_, maxPayloadSize, fun fuel hf => hfuel buffer fuel hf⟩

end Ends

/-- For a payload log type with a size field, whatever the buffers hold. Both functions read a
    stream of packets in the same way if and only if no preamble is cut, and some piece ends with
    each packet whose rest is cut. When the peer closes a stream of packets, `SCTPrecvPacket`
    returns, behind a preamble that is not cut, if and only if the packet is complete, and it does
    not return if the preamble is incomplete. -/
theorem SCTPrecvPacket_iff (e : Endian) (payloadLogType : UInt8) :
    (∀ (pkts : List (List UInt8)) (rest payload : List UInt8) (sock : Sock),
      (∀ pkt ∈ pkts, WellSized payloadLogType pkt) → Fragments sock (pkts.flatten ++ rest) →
      payload.length = maxPayloadSize →
      (Agree e payloadLogType pkts.length payload payload ⟨sock, []⟩ ⟨sock, []⟩ ↔
        Whole (preambleSize l4ProtoTCP payloadLogType) pkts sock)) ∧
    ∀ (pkt rest bs : List UInt8) (sock : Sock), WellSized payloadLogType pkt →
      Fragments sock bs → bs <+: pkt ++ rest →
      (Uncut (preambleSize l4ProtoTCP payloadLogType) sock →
        (Ends e payloadLogType (sock ++ [.closed]) ↔ pkt.length ≤ bs.length)) ∧
      (bs.length < preambleSize l4ProtoTCP payloadLogType →
        ¬Ends e payloadLogType (sock ++ [.closed])) :=
  ⟨fun _ _ _ _ hpkts hsock hp => agree_iff_whole hpkts hp hp hsock rfl,
    fun _ _ _ _ hpkt hsock hbs => ⟨ends_iff_of_uncut hpkt hsock hbs, fun hlt =>
      not_ends fun _ _ _ => SCTPrecvPacket_closed hlt rfl hsock _⟩⟩

/-- Two packets in pieces that each hold a whole preamble, or end with a packet. -/
def wholePieces : Sock :=
  [.data [0, 0, 0, 1, 0, 0, 0, 1, 0, 0, 0, 15, 7], .data [8, 9],
    .data [0, 0, 0, 1, 0, 0, 0, 2, 0, 0, 0, 13], .data [5]]

theorem whole_wholePieces : Whole 12 shortPackets wholePieces :=
  ⟨⟨_, _, rfl, by decide⟩, .inr ⟨2, rfl⟩, ⟨_, _, rfl, by decide⟩, .inl ⟨_, _, rfl, by decide⟩,
    trivial⟩

/-- They are read as by `TCPrecvPacket`. If the peer closes behind the first packet, the function
    returns; in the body of the packet, and in its preamble, it does not. -/
theorem SCTPrecvPacket_iff_pieces :
    Agree .little plShort 2 (List.replicate maxPayloadSize 0) (List.replicate maxPayloadSize 0)
        ⟨wholePieces, []⟩ ⟨wholePieces, []⟩ ∧
      Ends .little plShort (wholePieces.take 2 ++ [.closed]) ∧
      ¬Ends .little plShort (wholePieces.take 1 ++ [.closed]) ∧
      ¬Ends .little plShort ([.data [0, 0, 0, 1, 0]] ++ [.closed]) := by
  obtain ⟨hread, hclosed⟩ := SCTPrecvPacket_iff .little plShort
  obtain ⟨hfirst, -⟩ := List.forall_mem_cons.1 shortPackets_wellSized
  have hone {p : List UInt8} (hp : p ≠ []) : Fragments [.data p] p := .single hp
  have htwo : Fragments (wholePieces.take 2) [0, 0, 0, 1, 0, 0, 0, 1, 0, 0, 0, 15, 7, 8, 9] :=
    .cons (List.cons_ne_nil _ _) (hone (List.cons_ne_nil _ _))
  refine ⟨?_, ?_, ?_, ?_⟩
  · refine (hread shortPackets [] _ wholePieces shortPackets_wellSized ?_
      List.length_replicate).2 whole_wholePieces
    exact .cons (List.cons_ne_nil _ _) (.cons (List.cons_ne_nil _ _)
      (.cons (List.cons_ne_nil _ _) (hone (List.cons_ne_nil _ _))))
  · exact ((hclosed _ [] _ _ hfirst htwo ⟨[], rfl⟩).1 ⟨_, _, rfl, by decide⟩).2 (by decide)
  · exact fun hends => absurd (((hclosed _ [] _ _ hfirst (hone (List.cons_ne_nil _ _))
      ⟨[8, 9], rfl⟩).1 ⟨_, _, rfl, by decide⟩).1 hends) (by decide)
  · exact (hclosed _ [] _ _ hfirst (hone (List.cons_ne_nil _ _))
      ⟨[0, 0, 1, 0, 0, 0, 15, 7, 8, 9], rfl⟩).2 (by decide)

/-- A packet of 13 bytes with the short payload. -/
def pkt13 : List UInt8 := [0, 0, 0, 1, 0, 0, 0, 1, 0, 0, 0, 13, 7]

theorem wellSized_pkt13 : WellSized plShort pkt13 :=
  ⟨⟨8, by decide, by decide⟩, by decide, by decide⟩

/-- Cut in its preamble, a packet is not read as by `TCPrecvPacket`; and when the peer closes
    without having sent anything, the function does not return. -/
theorem not_SCTPrecvPacket :
    (¬∀ (e : Endian) (payloadLogType : UInt8) (pkts : List (List UInt8)) (rest payload : List UInt8)
      (sock : Sock), (∀ pkt ∈ pkts, WellSized payloadLogType pkt) →
        Fragments sock (pkts.flatten ++ rest) → payload.length = maxPayloadSize →
        Agree e payloadLogType pkts.length payload payload ⟨sock, []⟩ ⟨sock, []⟩) ∧
    ¬∀ (e : Endian) (payloadLogType : UInt8) (pkt rest bs : List UInt8) (sock : Sock),
      WellSized payloadLogType pkt → Fragments sock bs → bs <+: pkt ++ rest →
        Ends e payloadLogType (sock ++ [.closed]) := by
  constructor
  · intro h
    have hholds : Conn.Holds ⟨[.data [0, 0, 0, 1, 0], .data [0, 0, 1, 0, 0, 0, 13, 7]], []⟩
        ([pkt13].flatten ++ []) :=
      .cons (List.cons_ne_nil _ _) (.single (List.cons_ne_nil _ _))
    have hpkts : ∀ pkt ∈ [pkt13], WellSized plShort pkt :=
      fun pkt hpkt => List.mem_singleton.1 hpkt ▸ wellSized_pkt13
    have hagree := h .little plShort [pkt13] [] (List.replicate maxPayloadSize 0) _ hpkts hholds
      List.length_replicate
    have hcut := ((agree_iff_whole hpkts List.length_replicate List.length_replicate hholds rfl).1
      hagree).1
    exact absurd (uncut_cons_iff.1 hcut) (by decide)
  · intro h
    exact not_ends (fun _ _ _ => SCTPrecvPacket_closed (by decide) rfl .nil _)
      (h .little plShort pkt13 [] [] [] wellSized_pkt13 .nil (List.nil_prefix))

end Ditg
