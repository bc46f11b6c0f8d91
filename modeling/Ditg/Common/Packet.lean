import Ditg.Library.Bytes
import Ditg.Library.Memory
import Ditg.Library.Socket

/-!
# Receiving packets on a stream

A packet of a flow starts with a preamble, whose fields depend on the payload log
type of the flow: the flow id, the sequence number, the transmit time and, on a
stream, the size of the packet. `TCPrecvPacket` reads one packet from a TCP
connection: the preamble, in as many pieces as it comes, then the rest of the
bytes announced by the size, which are discarded.

* `TCPrecvPackets_flatten`: on a stream of packets as long as their size fields
  say, cut by TCP in any way, successive calls return the sizes and the preambles
  of the packets one after the other, each consuming exactly its packet.
-/

namespace Ditg

open Bytes Memory Socket

/-- The transport protocols. -/
def l4ProtoTCP : UInt8 := 1
@[inherit_doc l4ProtoTCP] def l4ProtoUDP : UInt8 := 2

/-- The payload log types. -/
def plStandard : UInt8 := 0
@[inherit_doc plStandard] def plShort : UInt8 := 1
@[inherit_doc plStandard] def plNone : UInt8 := 2

/-- `MAX_PAYLOAD_SIZE`. -/
def maxPayloadSize : ℕ := 64000

/-- The size of the preamble of a flow: four words (`StandardMinPayloadSize`), two
    (`ShortMinPayloadSize`) or one (`NoneMinPayloadSize`), and one more for the
    size of the packet on TCP, unless there is no preamble. -/
def preambleSize (l4Proto payloadLogType : UInt8) : ℕ :=
  (if payloadLogType = plStandard then 16 else if payloadLogType = plShort then 8 else 4) +
    if l4Proto = l4ProtoTCP ∧ payloadLogType ≠ plNone then 4 else 0

/-- The offset of the size in the preamble (`ptrToSizeInPayload`); `none` is the
    NULL pointer. -/
def sizeOffset (payloadLogType : UInt8) : Option ℕ :=
  if payloadLogType = plStandard then some 16 else if payloadLogType = plShort then some 8 else none

/-! ## The model -/

/-- The loop that reads the rest of the preamble, `size_prec` bytes of it being in
    `payload`. It ends with an error when a call returns no bytes. -/
def recvPreamble (sizePreamble size_prec : ℕ) (payload : List UInt8) (c : Conn) :
    Option (Except ℤ Unit × List UInt8 × Conn) :=
  match _h : c.recv maxPayloadSize (sizePreamble - size_prec) with
  | none => none
  | some (r, c) =>
    if _hr : r.result ≤ 0 then some (.error r.result, payload, c)
    else if sizePreamble - (size_prec + r.bytes.length) > 0 then
      recvPreamble sizePreamble (size_prec + r.bytes.length) (blit payload size_prec r.bytes) c
    else some (.ok (), blit payload size_prec r.bytes, c)
termination_by sizePreamble - size_prec
decreasing_by
  have := Conn.length_pos _h (not_le.1 _hr)
  omega

/-- The loop that reads the rest of a packet, `size_prec` bytes after the preamble
    having been read. It returns the size of the packet, unless a call returns no
    bytes. -/
def recvRest (size : ℤ) (sizePreamble size_prec : ℕ) (c : Conn) : Option (ℤ × Conn) :=
  if _hlt : (size_prec : ℤ) < size - sizePreamble then
    match _h : c.recv maxPayloadSize (size - sizePreamble - size_prec).toNat with
    | none => none
    | some (r, c) =>
      if _hr : r.result ≤ 0 then some (r.result, c)
      else recvRest size sizePreamble (size_prec + r.bytes.length) c
  else some (size, c)
termination_by (size - sizePreamble - size_prec).toNat
decreasing_by
  have := Conn.length_pos _h (not_le.1 _hr)
  omega

/-- The first call for the bytes after the preamble: the size of the packet, and
    the result of the call (`size_p`, which stays 0 if there is nothing to read). -/
def recvBody (e : Endian) (payload : List UInt8) (c : Conn) (sizePreamble : ℕ)
    (payloadLogType : UInt8) : Option (ℤ × ℤ × Conn) :=
  if payloadLogType ≠ plNone then do
    let off ← sizeOffset payloadLogType
    let size : ℤ := (ntohl e (load32 e (payload.drop off))).toBitVec.toInt
    if size > sizePreamble then
      let (r, c) ← c.recv maxPayloadSize (size - sizePreamble).toNat
      return (size, r.result, c)
    else return (size, 0, c)
  else do
    let (r, c) ← c.recv maxPayloadSize maxPayloadSize
    return (r.result, r.result, c)

/-- What follows the preamble. -/
def recvPayload (e : Endian) (payload : List UInt8) (c : Conn) (sizePreamble : ℕ)
    (payloadLogType : UInt8) : Option (ℤ × List UInt8 × Conn) := do
  let (size, size_p, c) ← recvBody e payload c sizePreamble payloadLogType
  if size_p ≤ 0 then return (size_p, payload, c)
  else
    let (size, c) ← recvRest size sizePreamble size_p.toNat c
    return (size, payload, c)

/-- Reading the preamble: the first call, straight into the payload buffer, and
    the loop for what it has left. -/
def recvFirst (payload : List UInt8) (c : Conn) (sizePreamble : ℕ) :
    Option (Except ℤ Unit × List UInt8 × Conn) := do
  let (r, c) ← c.recv payload.length sizePreamble
  if r.result ≤ 0 then return (.error r.result, payload, c)
  else if r.bytes.length < sizePreamble then
    recvPreamble sizePreamble r.bytes.length (blit payload 0 r.bytes) c
  else return (.ok (), blit payload 0 r.bytes, c)

/-- Reading one packet: its size, or the result of the call that returned no bytes,
    with the payload buffer and the connection after it. It is `none` if the
    function does not return, as a call of `recv` blocks (or, for a payload log
    type that does not exist, as it reads the size through NULL). -/
def TCPrecvPacket (e : Endian) (payload : List UInt8) (c : Conn) (sizePreamble : ℕ)
    (payloadLogType : UInt8) : Option (ℤ × List UInt8 × Conn) := do
  match ← recvFirst payload c sizePreamble with
  | (.error size, payload, c) => return (size, payload, c)
  | (.ok (), payload, c) => recvPayload e payload c sizePreamble payloadLogType

/-- Successive calls, with what each of them returns. -/
def TCPrecvPackets (e : Endian) (sizePreamble : ℕ) (payloadLogType : UInt8) :
    ℕ → List UInt8 → Conn → Option (List (ℤ × List UInt8 × Conn))
  | 0, _, _ => some []
  | n + 1, payload, c => do
    let (size, payload, c) ← TCPrecvPacket e payload c sizePreamble payloadLogType
    let rest ← TCPrecvPackets e sizePreamble payloadLogType n payload c
    return (size, payload, c) :: rest

/-! ## Invariants of the connection -/

variable {bs payload : List UInt8} {c : Conn} {sizePreamble size_prec : ℕ}

/-- Every call keeps `P`. -/
def KeptByRecv (P : Conn → Prop) : Prop :=
  ∀ {c c' : Conn} {room n : ℕ} {r : Received}, P c → c.recv room n = some (r, c') → P c'

section Kept

variable {P : Conn → Prop} (hP : KeptByRecv P) (hc : P c)
include hP hc

theorem recvPreamble_kept {out : Except ℤ Unit × List UInt8 × Conn}
    (h : recvPreamble sizePreamble size_prec payload c = some out) : P out.2.2 := by
  obtain ⟨left, hleft⟩ : ∃ left, left = sizePreamble - size_prec := ⟨_, rfl⟩
  induction left using Nat.strong_induction_on generalizing size_prec payload c with
  | _ left ih =>
    rw [recvPreamble] at h
    split at h
    · cases h
    · rename_i r c₁ hr
      have hc₁ := hP hc hr
      split_ifs at h with hres hmore
      · cases h
        exact hc₁
      · have hpos := Conn.length_pos hr (not_le.1 hres)
        exact ih _ (by omega) hc₁ h rfl
      · cases h
        exact hc₁

theorem recvRest_kept {size : ℤ} {out : ℤ × Conn}
    (h : recvRest size sizePreamble size_prec c = some out) : P out.2 := by
  obtain ⟨left, hleft⟩ : ∃ left, left = (size - sizePreamble - size_prec).toNat := ⟨_, rfl⟩
  induction left using Nat.strong_induction_on generalizing size_prec c with
  | _ left ih =>
    rw [recvRest] at h
    split_ifs at h with hlt
    · split at h
      · cases h
      · rename_i r c₁ hr
        have hc₁ := hP hc hr
        split_ifs at h with hres
        · cases h
          exact hc₁
        · have hpos := Conn.length_pos hr (not_le.1 hres)
          exact ih _ (by omega) hc₁ h rfl
    · cases h
      exact hc

theorem recvFirst_kept {out : Except ℤ Unit × List UInt8 × Conn}
    (h : recvFirst payload c sizePreamble = some out) : P out.2.2 := by
  obtain ⟨⟨r, c₁⟩, hr, h⟩ := Option.bind_eq_some_iff.1 h
  have hc₁ := hP hc hr
  dsimp only at h
  split_ifs at h
  · cases h
    exact hc₁
  · exact recvPreamble_kept hP hc₁ h
  · cases h
    exact hc₁

theorem recvBody_kept {e : Endian} {payloadLogType : UInt8} {out : ℤ × ℤ × Conn}
    (h : recvBody e payload c sizePreamble payloadLogType = some out) : P out.2.2 := by
  rw [recvBody] at h
  split_ifs at h
  · obtain ⟨off, -, h⟩ := Option.bind_eq_some_iff.1 h
    dsimp only at h
    split_ifs at h
    · obtain ⟨⟨r, c₁⟩, hr, h⟩ := Option.bind_eq_some_iff.1 h
      cases h
      exact hP hc hr
    · cases h
      exact hc
  · obtain ⟨⟨r, c₁⟩, hr, h⟩ := Option.bind_eq_some_iff.1 h
    cases h
    exact hP hc hr

/-- What every call keeps is kept by reading a packet. -/
theorem TCPrecvPacket_kept {e : Endian} {payloadLogType : UInt8} {out : ℤ × List UInt8 × Conn}
    (h : TCPrecvPacket e payload c sizePreamble payloadLogType = some out) : P out.2.2 := by
  obtain ⟨⟨res, payload', c₁⟩, hfirst, h⟩ := Option.bind_eq_some_iff.1 h
  have hc₁ := recvFirst_kept hP hc hfirst
  rcases res with x | _
  · cases h
    exact hc₁
  · obtain ⟨⟨size, size_p, c₂⟩, hbody, h⟩ := Option.bind_eq_some_iff.1 h
    have hc₂ := recvBody_kept hP hc₁ hbody
    dsimp only at h
    split_ifs at h
    · cases h
      exact hc₂
    · obtain ⟨⟨x, c₃⟩, hrest, h⟩ := Option.bind_eq_some_iff.1 h
      cases h
      exact recvRest_kept hP hc₂ hrest

end Kept

/-! ## Reading a stream of packets -/

/-- The rest of the preamble is read as a whole, in as many pieces as it comes. -/
theorem recvPreamble_of_holds (hlt : size_prec < sizePreamble)
    (hp : sizePreamble ≤ payload.length) (hbs : sizePreamble - size_prec ≤ bs.length)
    (hc : c.Holds bs) :
    ∃ c', recvPreamble sizePreamble size_prec payload c =
        some (.ok (), blit payload size_prec (bs.take (sizePreamble - size_prec)), c') ∧
      c'.Holds (bs.drop (sizePreamble - size_prec)) := by
  -- Every call returns at least one byte, so that there is less left after it.
  obtain ⟨left, hleft⟩ : ∃ left, left = sizePreamble - size_prec := ⟨_, rfl⟩
  induction left using Nat.strong_induction_on generalizing size_prec payload bs c with
  | _ left ih =>
    have hne : bs ≠ [] := List.ne_nil_of_length_pos (by omega)
    obtain ⟨k, c', hr, hk, hkn, hkl, hc'⟩ :=
      hc.recv hne maxPayloadSize (n := sizePreamble - size_prec) (by omega)
    have hlen : (bs.take k).length = k := by simpa using hkl
    have hpos : ¬(k : ℤ) ≤ 0 := by omega
    rw [recvPreamble, hr]
    simp only [hpos, ↓reduceDIte, hlen]
    by_cases hmore : sizePreamble - (size_prec + k) > 0
    · rw [if_pos hmore]
      have hblit : (blit payload size_prec (bs.take k)).length = payload.length :=
        length_blit (by omega)
      obtain ⟨c'', hr', hc''⟩ := ih (sizePreamble - (size_prec + k)) (by omega) (by omega)
        (hp.trans_eq hblit.symm) (by rw [List.length_drop]; omega) hc' rfl
      have hsplit : sizePreamble - size_prec = k + (sizePreamble - (size_prec + k)) := by omega
      refine ⟨c'', ?_, ?_⟩
      · -- The bytes of this call and those of the next ones are adjacent in the buffer.
        have hcat := blit_blit payload size_prec (by omega) (bs.take k)
          ((bs.drop k).take (sizePreamble - (size_prec + k)))
        rw [hlen, ← List.take_add, ← hsplit] at hcat
        rw [hr', hcat]
      · rwa [List.drop_drop, ← hsplit] at hc''
    · have hall : sizePreamble - size_prec = k := by omega
      rw [if_neg hmore, hall]
      exact ⟨c', rfl, hc'⟩

/-- The rest of the packet is read as a whole, in as many pieces as it comes. -/
theorem recvRest_of_holds {size : ℤ} {left : ℕ} (hleft : size - sizePreamble - size_prec = left)
    (hbs : left ≤ bs.length) (hc : c.Holds bs) :
    ∃ c', recvRest size sizePreamble size_prec c = some (size, c') ∧ c'.Holds (bs.drop left) := by
  induction left using Nat.strong_induction_on generalizing size_prec bs c with
  | _ left ih =>
    rw [recvRest]
    by_cases hlt : (size_prec : ℤ) < size - sizePreamble
    · have hne : bs ≠ [] := List.ne_nil_of_length_pos (by omega)
      have hn : (size - sizePreamble - size_prec).toNat = left := by omega
      obtain ⟨k, c', hr, hk, hkn, hkl, hc'⟩ := hc.recv hne maxPayloadSize (n := left) (by omega)
      have hlen : (bs.take k).length = k := by simpa using hkl
      have hpos : ¬(k : ℤ) ≤ 0 := by omega
      rw [dif_pos hlt, hn, hr]
      simp only [hpos, ↓reduceDIte, hlen]
      have hleft' : size - sizePreamble - (size_prec + k : ℕ) = (left - k : ℕ) := by omega
      obtain ⟨c'', hr', hc''⟩ := ih (left - k) (by omega) hleft'
        (by rw [List.length_drop]; omega) hc'
      refine ⟨c'', hr', ?_⟩
      rwa [List.drop_drop, Nat.add_sub_of_le hkn] at hc''
    · have hzero : left = 0 := by omega
      rw [dif_neg hlt, hzero]
      exact ⟨c, rfl, hc⟩

/-- A packet of a payload log type that has a size field is as long as the field
    says, longer than its preamble, and no longer than a payload. -/
structure WellSized (payloadLogType : UInt8) (pkt : List UInt8) : Prop where
  size_eq : ∃ off, sizeOffset payloadLogType = some off ∧
    (load32 .big (pkt.drop off)).toNat = pkt.length
  preamble_lt : preambleSize l4ProtoTCP payloadLogType < pkt.length
  length_le : pkt.length ≤ maxPayloadSize

/-- The size is the last word of the preamble. -/
theorem preambleSize_eq {payloadLogType : UInt8} {off : ℕ}
    (h : sizeOffset payloadLogType = some off) :
    payloadLogType ≠ plNone ∧ preambleSize l4ProtoTCP payloadLogType = off + 4 := by
  rw [sizeOffset] at h
  split_ifs at h with h₁ h₂ <;> cases h
  · subst h₁
    decide
  · subst h₂
    decide

/-- The first bytes of a buffer determine the word there. -/
theorem load32_congr (e : Endian) {bs bs' : List UInt8} (h : bs.take 4 = bs'.take 4) :
    load32 e bs = load32 e bs' := by
  rw [load32, load32, h]

/-- A word is that of the bytes it is in. -/
theorem load32_drop_congr (e : Endian) {bs bs' : List UInt8} {k off : ℕ}
    (h : bs.take k = bs'.take k) (hoff : off + 4 ≤ k) :
    load32 e (bs.drop off) = load32 e (bs'.drop off) := by
  apply load32_congr
  rw [List.take_drop, List.take_drop, ← min_eq_left hoff, ← List.take_take, h, List.take_take]

/-- The size field of a packet whose preamble is in the payload buffer. -/
theorem size_of_preamble (e : Endian) {pkt : List UInt8} {off : ℕ}
    (hpre : payload.take (off + 4) = pkt.take (off + 4)) (hlen : off + 4 ≤ pkt.length)
    (hsize : (load32 .big (pkt.drop off)).toNat = pkt.length)
    (hmax : pkt.length ≤ maxPayloadSize) :
    (ntohl e (load32 e (payload.drop off))).toBitVec.toInt = pkt.length := by
  have htake : (payload.drop off).take 4 = (pkt.drop off).take 4 := by
    rw [List.take_drop, List.take_drop, hpre]
  have hword : ntohl e (load32 e (payload.drop off)) = load32 .big (pkt.drop off) := by
    rw [load32_congr e htake, ntohl_load32 e (by rw [List.length_drop]; omega)]
  rw [maxPayloadSize] at hmax
  rw [hword, BitVec.toInt_eq_toNat_of_lt (by rw [UInt32.toNat_toBitVec, hsize]; omega),
    UInt32.toNat_toBitVec, hsize]

/-- After the preamble of a packet, which may be longer than its fields, the rest of it is
    read. -/
theorem recvPayload_of_holds (e : Endian) {payloadLogType : UInt8} {pkt rest : List UInt8}
    {off : ℕ} (hoff : sizeOffset payloadLogType = some off)
    (hfield : (load32 .big (pkt.drop off)).toNat = pkt.length)
    (hmax : pkt.length ≤ maxPayloadSize) (hps : off + 4 ≤ sizePreamble)
    (hlt : sizePreamble < pkt.length) (hpre : payload.take sizePreamble = pkt.take sizePreamble)
    (hc : c.Holds (pkt.drop sizePreamble ++ rest)) :
    ∃ c', recvPayload e payload c sizePreamble payloadLogType =
        some ((pkt.length : ℤ), payload, c') ∧ c'.Holds rest := by
  have hne := (preambleSize_eq hoff).1
  have hfirst : payload.take (off + 4) = pkt.take (off + 4) := by
    rw [← min_eq_left hps, ← List.take_take, hpre, List.take_take]
  have hsize := size_of_preamble e hfirst (hps.trans hlt.le) hfield hmax
  have hgt : (pkt.length : ℤ) > (sizePreamble : ℕ) := by omega
  have hdrop : (pkt.drop sizePreamble).length = pkt.length - sizePreamble := List.length_drop
  obtain ⟨k, c₁, hr, hk, hkn, -, hc₁⟩ :=
    hc.recv (by rw [ne_eq, List.append_eq_nil_iff, List.drop_eq_nil_iff]; omega) maxPayloadSize
      (n := ((pkt.length : ℤ) - (sizePreamble : ℕ)).toNat) (by omega)
  have hbody : recvBody e payload c sizePreamble payloadLogType =
      some ((pkt.length : ℤ), (k : ℤ), c₁) := by
    rw [recvBody, if_pos hne, hoff]
    simp only [Option.bind_eq_bind, Option.bind_some, hsize, hgt, ↓reduceIte, hr]
    rfl
  -- The loop reads what the first call has left of the packet, and nothing of the next.
  have hleft : (pkt.length : ℤ) - (sizePreamble : ℕ) - k =
      (pkt.length - sizePreamble - k : ℕ) := by omega
  obtain ⟨c₂, hrest, hc₂⟩ := recvRest_of_holds hleft
    (by rw [List.length_drop, List.length_append]; omega) hc₁
  refine ⟨c₂, ?_, ?_⟩
  · simp [recvPayload, hbody, hk.ne', hrest]
  · rw [List.drop_drop, Nat.add_sub_of_le (by omega), List.drop_left' hdrop] at hc₂
    exact hc₂

/-- The preamble is read as a whole, to the start of the payload buffer. -/
theorem recvFirst_of_holds (h0 : 0 < sizePreamble) (hp : sizePreamble ≤ payload.length)
    (hbs : sizePreamble ≤ bs.length) (hc : c.Holds bs) :
    ∃ c', recvFirst payload c sizePreamble =
        some (.ok (), blit payload 0 (bs.take sizePreamble), c') ∧
      c'.Holds (bs.drop sizePreamble) := by
  obtain ⟨k, c₁, hr, hk, hkn, hkl, hc₁⟩ := hc.recv (n := sizePreamble)
    (List.ne_nil_of_length_pos (by omega)) payload.length h0
  have hlen : (bs.take k).length = k := by simpa using hkl
  have hpos : ¬(k : ℤ) ≤ 0 := by omega
  simp only [recvFirst, hr, Option.bind_eq_bind, Option.bind_some, hpos, ↓reduceIte, hlen]
  by_cases hlt : k < sizePreamble
  · -- The preamble has been cut.
    have hb : (blit payload 0 (bs.take k)).length = payload.length := length_blit (by omega)
    obtain ⟨c₂, hr₂, hc₂⟩ := recvPreamble_of_holds hlt (hp.trans_eq hb.symm)
      (by rw [List.length_drop]; omega) hc₁
    have hcat := blit_blit payload 0 (Nat.zero_le _) (bs.take k)
      ((bs.drop k).take (sizePreamble - k))
    rw [hlen, Nat.zero_add, ← List.take_add, Nat.add_sub_of_le hkn] at hcat
    rw [List.drop_drop, Nat.add_sub_of_le hkn] at hc₂
    exact ⟨c₂, by rw [if_pos hlt, hr₂, hcat], hc₂⟩
  · obtain rfl : k = sizePreamble := by omega
    exact ⟨c₁, by rw [if_neg hlt]; rfl, hc₁⟩

/-- One call reads one packet. -/
theorem TCPrecvPacket_of_holds (e : Endian) {payloadLogType : UInt8} {pkt rest : List UInt8}
    (h : WellSized payloadLogType pkt) (hp : payload.length = maxPayloadSize)
    (hc : c.Holds (pkt ++ rest)) :
    ∃ payload' c', TCPrecvPacket e payload c (preambleSize l4ProtoTCP payloadLogType)
        payloadLogType = some ((pkt.length : ℤ), payload', c') ∧
      payload'.length = maxPayloadSize ∧
      payload'.take (preambleSize l4ProtoTCP payloadLogType) =
        pkt.take (preambleSize l4ProtoTCP payloadLogType) ∧ c'.Holds rest := by
  obtain ⟨off, hoff, hfield⟩ := h.size_eq
  have hps := (preambleSize_eq hoff).2
  have hlt := h.preamble_lt
  have hmax := h.length_le
  have hpos : 0 < preambleSize l4ProtoTCP payloadLogType := by omega
  obtain ⟨c₁, hfirst, hc₁⟩ := recvFirst_of_holds hpos (hp ▸ hlt.le.trans hmax)
    (by rw [List.length_append]; omega) hc
  rw [List.take_append_of_le_length hlt.le] at hfirst
  rw [List.drop_append_of_le_length hlt.le] at hc₁
  have hplen := List.length_take_of_le hlt.le
  have hb := take_blit_zero payload (pkt.take (preambleSize l4ProtoTCP payloadLogType))
  rw [hplen] at hb
  obtain ⟨c₂, hpay, hc₂⟩ :=
    recvPayload_of_holds e hoff hfield hmax hps.ge hlt hb hc₁
  refine ⟨_, c₂, ?_, ?_, hb, hc₂⟩
  · simp only [TCPrecvPacket, hfirst, Option.bind_eq_bind, Option.bind_some, hpay]
  · rw [length_blit (by omega), hp]

/-- Successive calls read a stream of packets, cut by TCP in any way, packet by
    packet: the call `i` returns the size of the packet `i`, leaves its preamble at
    the start of the payload buffer, and leaves the stream at the next packet. -/
theorem TCPrecvPackets_flatten :
    (preambleSize l4ProtoTCP plStandard = 20 ∧ sizeOffset plStandard = some 16) ∧
    (preambleSize l4ProtoTCP plShort = 12 ∧ sizeOffset plShort = some 8) ∧
    ∀ (e : Endian) (payloadLogType : UInt8) (pkts : List (List UInt8)) (payload rest : List UInt8)
      (c : Conn), payloadLogType = plStandard ∨ payloadLogType = plShort →
      (∀ pkt ∈ pkts, WellSized payloadLogType pkt) → payload.length = maxPayloadSize →
      c.Holds (pkts.flatten ++ rest) →
      ∃ outs, TCPrecvPackets e (preambleSize l4ProtoTCP payloadLogType) payloadLogType pkts.length
          payload c = some outs ∧ outs.length = pkts.length ∧
        ∀ (i : ℕ) (hi : i < pkts.length) (ho : i < outs.length),
          outs[i].1 = pkts[i].length ∧
          outs[i].2.1.take (preambleSize l4ProtoTCP payloadLogType) =
            pkts[i].take (preambleSize l4ProtoTCP payloadLogType) ∧
          outs[i].2.2.Holds ((pkts.drop (i + 1)).flatten ++ rest) := by
  refine ⟨by decide, by decide, fun e payloadLogType pkts payload rest c _ hpkts hp hc => ?_⟩
  induction pkts generalizing payload c with
  | nil => exact ⟨[], rfl, rfl, fun i hi => absurd hi (Nat.not_lt_zero i)⟩
  | cons pkt pkts ih =>
    rw [List.flatten_cons, List.append_assoc] at hc
    obtain ⟨payload', c', hrecv, hp', hpre, hc'⟩ :=
      TCPrecvPacket_of_holds e (hpkts pkt List.mem_cons_self) hp hc
    obtain ⟨outs, houts, hlen, hspec⟩ :=
      ih payload' c' (fun p h => hpkts p (List.mem_cons_of_mem _ h)) hp' hc'
    refine ⟨((pkt.length : ℤ), payload', c') :: outs, ?_, by simp [hlen], fun i hi ho => ?_⟩
    · simp only [List.length_cons, TCPrecvPackets, hrecv, Option.bind_eq_bind, Option.bind_some,
        houts]
      rfl
    · cases i with
      | zero => exact ⟨rfl, hpre, hc'⟩
      | succ i => exact hspec i (Nat.lt_of_succ_lt_succ hi) (Nat.lt_of_succ_lt_succ ho)

/-- Two packets with the short payload, of 15 and of 13 bytes. -/
def shortPackets : List (List UInt8) :=
  [[0, 0, 0, 1, 0, 0, 0, 1, 0, 0, 0, 15, 7, 8, 9], [0, 0, 0, 1, 0, 0, 0, 2, 0, 0, 0, 13, 5]]

theorem shortPackets_wellSized : ∀ pkt ∈ shortPackets, WellSized plShort pkt := by
  have h {pkt : List UInt8} (hsize : (load32 .big (pkt.drop 8)).toNat = pkt.length)
      (hpre : 12 < pkt.length) (hlen : pkt.length ≤ maxPayloadSize) : WellSized plShort pkt :=
    ⟨⟨8, by decide, hsize⟩, hpre, hlen⟩
  refine List.forall_mem_cons.2 ⟨?_, List.forall_mem_singleton.2 ?_⟩
  · exact h (by decide) (by decide) (by decide)
  · exact h (by decide) (by decide) (by decide)

/-- They come in three pieces, the first of which ends in the preamble of the first packet, and the
    second in its body. The third one has the first byte of another packet. -/
def shortPieces : Sock :=
  [.data [0, 0, 0, 1, 0], .data [0, 0, 1, 0, 0, 0, 15, 7],
    .data [8, 9, 0, 0, 0, 1, 0, 0, 0, 2, 0, 0, 0, 13, 5, 0]]

/-- Two calls read the packets, and leave the byte behind them. -/
theorem TCPrecvPackets_flatten_short :
    ∃ first second, TCPrecvPackets .little 12 plShort 2 (List.replicate 64000 0)
        ⟨shortPieces, []⟩ = some [first, second] ∧
      first.1 = 15 ∧ first.2.1.take 12 = [0, 0, 0, 1, 0, 0, 0, 1, 0, 0, 0, 15] ∧
      second.1 = 13 ∧ second.2.1.take 12 = [0, 0, 0, 1, 0, 0, 0, 2, 0, 0, 0, 13] ∧
      second.2.2.Holds [0] := by
  have hfrag : Conn.Holds ⟨shortPieces, []⟩ (shortPackets.flatten ++ [0]) :=
    .cons (List.cons_ne_nil _ _) (.cons (List.cons_ne_nil _ _) (.single (List.cons_ne_nil _ _)))
  obtain ⟨outs, h, hlen, hspec⟩ := TCPrecvPackets_flatten.2.2 .little plShort shortPackets
    (List.replicate 64000 0) [0] _ (.inr rfl) shortPackets_wellSized List.length_replicate hfrag
  obtain ⟨first, second, rfl⟩ := List.length_eq_two.1 hlen
  obtain ⟨hsize₀, hpre₀, -⟩ := hspec 0 Nat.two_pos Nat.two_pos
  obtain ⟨hsize₁, hpre₁, hrest⟩ := hspec 1 Nat.one_lt_two Nat.one_lt_two
  exact ⟨first, second, h, hsize₀, hpre₀, hsize₁, hpre₁, hrest⟩

end Ditg
