import Ditg.Sender.PayloadSize

/-!
# Payload from a file

With `-Fp`, the bytes of a packet behind its preamble are those of a file, which is read again and
again from a position that goes on from packet to packet. A packet in which the file ends is
filled with zeros, and the next one starts with the file again. The fill is as long as the whole
packet without the bytes of the file, although it starts behind the preamble: it goes beyond the
packet by the length of the preamble.

* `payload_follows`: the packets hold the bytes of the file, one after the other, whatever is
  written behind them;
* `fillsInside_iff`: nothing is written behind a packet, and nothing before the file or behind it
  is read, if and only if no packet is shorter than the preamble and, unless there is none, the
  file does not end within a packet.
-/

namespace Ditg

open Memory

/-! ## The model -/

/-- `ptrToTruePayload - payload`. -/
def ParsedFlow.truePayload (b : Build) (f : ParsedFlow) : ℕ :=
  (if f.payloadLogType = plStandard then 16 else if f.payloadLogType = plShort then 8 else 0) +
    if f.hasSize b then 4 else 0

/-- What a packet copies from the file, from `indexBuffer` on, to its payload, and how many zeros
    it writes behind that. -/
structure FileAccess where
  indexBuffer : ℤ
  byteToCopy : ℤ
  zeros : Option ℤ
  deriving DecidableEq

/-- The block for a file of `dim` bytes, with `off` for `ptrToTruePayload - payload`: the access,
    and the next `indexBuffer`. -/
def fillPayload (dim off : ℕ) (indexBuffer size : ℤ) : FileAccess × ℤ :=
  let byteToCopy := size - off
  if indexBuffer + byteToCopy ≤ dim then
    let next := indexBuffer + byteToCopy
    ({ indexBuffer, byteToCopy, zeros := none }, if next = dim then 0 else next)
  else
    let byteToCopy := dim - indexBuffer
    ({ indexBuffer, byteToCopy, zeros := some (size - byteToCopy) }, 0)

/-- The memory from `payload` on after an access. There is no result if a length is negative. -/
def FileAccess.apply (a : FileAccess) (file : List UInt8) (off : ℕ) (payload : List UInt8) :
    Option (List UInt8) :=
  if a.indexBuffer < 0 ∨ a.byteToCopy < 0 ∨ a.zeros.getD 0 < 0 then none
  else
    let payload := blit payload off ((file.drop a.indexBuffer.toNat).take a.byteToCopy.toNat)
    some (blit payload (off + a.byteToCopy.toNat) (List.replicate (a.zeros.getD 0).toNat 0))

/-- A packet that is sent: the fields of its preamble, as bytes, and its size. -/
structure FilePayload where
  preamble : List UInt8
  size : ℕ

/-- A packet that has been sent, and `indexBuffer` behind it. -/
structure SentPayload where
  bytes : List UInt8
  indexBuffer : ℤ
  deriving DecidableEq

/-- The packets of a flow, one after the other. `payload` is the memory from the array on, with
    what is behind it, and keeps what the packets before have written. -/
def sendPayloads (file : List UInt8) (off : ℕ) :
    List UInt8 → ℤ → List FilePayload → Option (List SentPayload)
  | _, _, [] => some []
  | payload, indexBuffer, p :: ps =>
    let (access, next) := fillPayload file.length off indexBuffer p.size
    (access.apply file off (blit payload 0 p.preamble)).bind fun payload =>
      (sendPayloads file off payload next ps).map
        ({ bytes := payload.take p.size, indexBuffer := next } :: ·)

/-- The accesses of the packets of a flow. -/
def sendAccesses (dim off : ℕ) : ℤ → List ℤ → List (FileAccess × ℤ)
  | _, [] => []
  | indexBuffer, size :: sizes =>
    let (access, next) := fillPayload dim off indexBuffer size
    (access, size) :: sendAccesses dim off next sizes

/-! ## Reading a file again and again -/

/-- The position behind `n` bytes, of which those that the file does not have are zeros. -/
def nextPosition (dim position n : ℕ) : ℕ :=
  let next := position + min n (dim - position)
  if next = dim then 0 else next

/-- The next `n` bytes of a file, and zeros behind its end. -/
def nextBytes (file : List UInt8) (position n : ℕ) : List UInt8 :=
  (file.drop position).take n ++ List.replicate (n - (file.length - position)) 0

/-- What is read for packets of the lengths `ns`, and the positions behind them. -/
def fileBodies (file : List UInt8) : ℕ → List ℕ → List (List UInt8 × ℕ)
  | _, [] => []
  | position, n :: ns =>
    let next := nextPosition file.length position n
    (nextBytes file position n, next) :: fileBodies file next ns

theorem nextPosition_lt {dim : ℕ} (hdim : 0 < dim) {position : ℕ} (h : position ≤ dim) (n : ℕ) :
    nextPosition dim position n < dim := by
  simp only [nextPosition]
  split_ifs <;> omega

/-- The positions are always in the file. -/
theorem fileBodies_position_lt {file : List UInt8} (hfile : file ≠ []) {position : ℕ}
    (h : position ≤ file.length) (ns : List ℕ) :
    ∀ body ∈ fileBodies file position ns, body.2 < file.length := by
  induction ns generalizing position with
  | nil => exact List.forall_mem_nil _
  | cons n ns ih =>
    have hlt := nextPosition_lt (List.length_pos_iff.2 hfile) h n
    exact List.forall_mem_cons.2 ⟨hlt, ih hlt.le⟩

/-! ## One packet -/

section Fill

variable {file payload : List UInt8} {off size position : ℕ}

/-- The position behind a packet. -/
theorem fillPayload_snd {dim : ℕ} (h : position ≤ dim) (hoff : off ≤ size) :
    (fillPayload dim off position size).2 = nextPosition dim position (size - off) := by
  rw [fillPayload, nextPosition]
  split_ifs
  all_goals dsimp only
  all_goals omega

/-- What is copied, with zeros behind it, and cut. -/
theorem take_copied {m n z : ℕ} (hm : m = min n (file.length - position)) (hz : n - m ≤ z) :
    ((file.drop position).take m ++ List.replicate z 0).take n = nextBytes file position n := by
  have hlen : ((file.drop position).take m).length = m := by
    rw [List.length_take, List.length_drop]
    omega
  have htake : (file.drop position).take n = (file.drop position).take m := by
    rw [hm, ← List.length_drop, ← List.take_eq_take_min]
  rw [nextBytes, htake, List.take_append, hlen, List.take_of_length_le (by omega),
    List.take_replicate]
  congr 2
  omega

/-- An access with no negative length. -/
theorem apply_natCast {m z : ℕ} {zeros : Option ℤ} (hz : zeros.getD 0 = z) :
    FileAccess.apply ⟨position, m, zeros⟩ file off payload =
      some (blit (blit payload off ((file.drop position).take m)) (off + m)
        (List.replicate z 0)) := by
  have hnonneg : ¬((position : ℤ) < 0 ∨ (m : ℤ) < 0 ∨ (z : ℤ) < 0) := by omega
  simp only [FileAccess.apply, hz, if_neg hnonneg, Int.toNat_natCast]

/-- The packet holds the next bytes of the file behind its preamble. -/
theorem take_apply_fillPayload (h : position ≤ file.length) (hoff : off ≤ size)
    (hsize : size ≤ payload.length) :
    ∃ payload', (fillPayload file.length off position size).1.apply file off payload =
        some payload' ∧ payload.length ≤ payload'.length ∧
      payload'.take size = payload.take off ++ nextBytes file position (size - off) := by
  set m := min (size - off) (file.length - position) with hm
  -- The number of zeros is not that of the bytes that are missing, but enough.
  obtain ⟨z, hz, happly⟩ : ∃ z, size - off - m ≤ z ∧
      (fillPayload file.length off position size).1.apply file off payload =
        some (blit (blit payload off ((file.drop position).take m)) (off + m)
          (List.replicate z 0)) := by
    rw [fillPayload]
    split_ifs with hfits
    · have hcopy : (size : ℤ) - off = m := by omega
      refine ⟨0, by omega, ?_⟩
      rw [hcopy]
      exact apply_natCast rfl
    · have hcopy : (file.length : ℤ) - position = m := by omega
      refine ⟨size - m, by omega, ?_⟩
      rw [hcopy]
      exact apply_natCast (by rw [Option.getD_some]; omega)
  have hlen : ((file.drop position).take m).length = m := by
    rw [List.length_take, List.length_drop]
    omega
  have hblit := blit_blit payload off (hoff.trans hsize) ((file.drop position).take m)
    (List.replicate z 0)
  rw [hlen] at hblit
  rw [hblit] at happly
  refine ⟨_, happly, length_le_length_blit _ _ _, ?_⟩
  rw [← Nat.add_sub_cancel' hoff, take_blit_le (hoff.trans hsize), Nat.add_sub_cancel_left,
    take_copied hm hz]
  rw [List.length_append, hlen, List.length_replicate]
  omega

end Fill

/-! ## The flow -/

/-- From any position in the file. The memory keeps what has been written before. -/
theorem sendPayloads_eq {file : List UInt8} {off position : ℕ} (h : position ≤ file.length)
    {payload : List UInt8} (hpayload : maxPayloadSize ≤ payload.length) {ps : List FilePayload}
    (hps : ∀ p ∈ ps, p.preamble.length ≤ off ∧ off ≤ p.size ∧ p.size ≤ maxPayloadSize) :
    ∃ sent, sendPayloads file off payload position ps = some sent ∧
      sent.map (fun s => (s.bytes.drop off, s.indexBuffer)) =
        (fileBodies file position (ps.map fun p => p.size - off)).map
          fun body => (body.1, (body.2 : ℤ)) := by
  induction ps generalizing payload position with
  | nil => exact ⟨[], rfl, rfl⟩
  | cons p ps ih =>
    rw [List.forall_mem_cons] at hps
    obtain ⟨⟨-, hoff, hsize⟩, hps⟩ := hps
    have hblit : maxPayloadSize ≤ (blit payload 0 p.preamble).length :=
      hpayload.trans (length_le_length_blit _ _ _)
    obtain ⟨payload', happly, hlen, htake⟩ :=
      take_apply_fillPayload h hoff (hsize.trans hblit)
    have hnext := fillPayload_snd h hoff
    have hle : nextPosition file.length position (p.size - off) ≤ file.length := by
      rw [nextPosition]
      split_ifs <;> omega
    obtain ⟨sent, hsent, hbodies⟩ := ih hle (hblit.trans hlen) hps
    refine ⟨⟨payload'.take p.size, nextPosition file.length position (p.size - off)⟩ :: sent,
      ?_, ?_⟩
    · rw [sendPayloads]
      simp only [happly, hnext, Option.bind_some, hsent, Option.map_some]
    · have hbody : (payload'.take p.size).drop off =
          nextBytes file position (p.size - off) := by
        rw [htake, List.drop_left']
        rw [List.length_take]
        omega
      rw [List.map_cons, List.map_cons, fileBodies, List.map_cons, hbodies, hbody]

/-- All packets of a flow. Their sizes are as `flowSender` limits them; what is behind the array
    `payload` may be written, but is not part of a packet. -/
theorem payload_follows (b : Build) (f : ParsedFlow) {file : List UInt8} (hfile : file ≠ [])
    {payload : List UInt8} (hpayload : maxPayloadSize ≤ payload.length) {ps : List FilePayload}
    (hps : ∀ p ∈ ps, p.preamble.length ≤ f.truePayload b ∧ f.truePayload b ≤ p.size ∧
      p.size ≤ maxPayloadSize) :
    ∃ sent, sendPayloads file (f.truePayload b) payload 0 ps = some sent ∧
      sent.map (fun s => (s.bytes.drop (f.truePayload b), s.indexBuffer)) =
        (fileBodies file 0 (ps.map fun p => p.size - f.truePayload b)).map
          (fun body => (body.1, (body.2 : ℤ))) ∧
      ∀ s ∈ sent, 0 ≤ s.indexBuffer ∧ s.indexBuffer < file.length := by
  obtain ⟨sent, hsent, hbodies⟩ := sendPayloads_eq (Nat.zero_le _) hpayload hps
  refine ⟨sent, hsent, hbodies, fun s hs => ?_⟩
  have hmem :=
    List.mem_map_of_mem (f := fun s => (s.bytes.drop (f.truePayload b), s.indexBuffer)) hs
  rw [hbodies, List.mem_map] at hmem
  obtain ⟨body, hbody, heq⟩ := hmem
  have hlt := fileBodies_position_lt hfile (Nat.zero_le _) _ body hbody
  have hindex : s.indexBuffer = body.2 := (congrArg Prod.snd heq).symm
  omega

/-- A file of three bytes in two UDP packets of 20 bytes. -/
theorem payload_follows_three :
    ∃ sent, sendPayloads [1, 2, 3] 16 (List.replicate maxPayloadSize 0) 0
        [⟨List.replicate 16 7, 18⟩, ⟨List.replicate 16 8, 20⟩] = some sent ∧
      sent.map (fun s => (s.bytes.drop 16, s.indexBuffer)) = [([1, 2], 2), ([3, 0, 0, 0], 0)] := by
  have hfile : ([1, 2, 3] : List UInt8) ≠ [] := by decide
  have hps : ∀ p ∈ ([⟨List.replicate 16 7, 18⟩, ⟨List.replicate 16 8, 20⟩] : List FilePayload),
      p.preamble.length ≤ 16 ∧ 16 ≤ p.size ∧ p.size ≤ maxPayloadSize := by simp [maxPayloadSize]
  obtain ⟨sent, hsent, hbodies, -⟩ := payload_follows ⟨true, true⟩ ParsedFlow.default hfile
    List.length_replicate.ge hps
  exact ⟨sent, hsent, hbodies⟩

/-! ## The accesses -/

/-- A packet of `size` bytes is written only behind its preamble, and only bytes of the file are
    read. -/
structure FileAccess.Inside (dim off : ℕ) (size : ℤ) (a : FileAccess) : Prop where
  off_le : off ≤ size
  size_le : size ≤ maxPayloadSize
  copy_nonneg : 0 ≤ a.byteToCopy
  copy_le : off + a.byteToCopy ≤ size
  zeros_nonneg : ∀ n ∈ a.zeros, 0 ≤ n
  zeros_le : ∀ n ∈ a.zeros, off + a.byteToCopy + n ≤ size
  index_nonneg : 0 ≤ a.indexBuffer
  index_le : a.indexBuffer + a.byteToCopy ≤ dim

/-- The packet is as long as the preamble at least, and, unless there is none, the file does not
    end within it. -/
def FitsFile (dim off position : ℕ) (size : ℤ) : Prop :=
  off ≤ size ∧ (off = 0 ∨ position + (size - off) ≤ dim)

/-- Every packet fits, at the position that those before it have left. -/
def AllFit (dim off : ℕ) : ℕ → List ℤ → Prop
  | _, [] => True
  | position, size :: sizes =>
    FitsFile dim off position size ∧
      AllFit dim off (nextPosition dim position (size - off).toNat) sizes

section Accesses

variable {dim off position : ℕ}

/-- The fill goes beyond the packet by the length of the preamble. -/
theorem inside_fillPayload_iff (hdim : position < dim) {size : ℤ} (hsize : size ≤ maxPayloadSize) :
    (fillPayload dim off position size).1.Inside dim off size ↔ FitsFile dim off position size := by
  rw [fillPayload, FitsFile]
  split_ifs with hfits
  · constructor
    · intro h
      exact ⟨h.off_le, Or.inr hfits⟩
    · rintro ⟨hoff, -⟩
      exact ⟨hoff, hsize, by dsimp only; omega, by dsimp only; omega, by simp, by simp,
        Int.natCast_nonneg _, hfits⟩
  · constructor
    · intro h
      have hzeros := h.zeros_le _ rfl
      dsimp only at hzeros
      exact ⟨h.off_le, Or.inl (by omega)⟩
    · rintro ⟨hoff, h⟩
      obtain rfl := h.resolve_right hfits
      refine ⟨hoff, hsize, by dsimp only; omega, by dsimp only; omega, ?_, ?_,
        Int.natCast_nonneg _, by dsimp only; omega⟩
      · rintro _ ⟨⟩
        omega
      · rintro _ ⟨⟩
        dsimp only
        omega

/-- Behind a packet that does not fit, there is nothing more to say. -/
theorem sendAccesses_iff (hdim : position < dim) {sizes : List ℤ}
    (hsizes : ∀ size ∈ sizes, size ≤ maxPayloadSize) :
    (∀ a ∈ sendAccesses dim off position sizes, a.1.Inside dim off a.2) ↔
      AllFit dim off position sizes := by
  induction sizes generalizing position with
  | nil => exact iff_of_true (List.forall_mem_nil _) trivial
  | cons size sizes ih =>
    rw [List.forall_mem_cons] at hsizes
    rw [sendAccesses, List.forall_mem_cons, inside_fillPayload_iff hdim hsizes.1, AllFit]
    refine and_congr_right fun hfits => ?_
    obtain ⟨n, rfl⟩ := Int.eq_ofNat_of_zero_le (le_trans (Int.natCast_nonneg off) hfits.1)
    have hoff : off ≤ n := Int.ofNat_le.1 hfits.1
    have hlen : ((n : ℤ) - off).toNat = n - off := by omega
    rw [fillPayload_snd hdim.le hoff, hlen]
    exact ih (nextPosition_lt (Nat.zero_lt_of_lt hdim) hdim.le _) hsizes.2

end Accesses

section Options

variable {b : Build} {f f' : ParsedFlow} {opts : List FlowOption}

/-- What an option makes of a smaller size is smaller. -/
theorem FlowOption.minimum_mono {m n : ℤ} (h : m ≤ n) (opt : FlowOption) :
    opt.minimum m ≤ opt.minimum n := by
  rw [FlowOption.minimum, FlowOption.minimum]
  cases opt.sets with
  | none =>
    rw [Option.getD_none, Option.getD_none]
    split_ifs <;> omega
  | some size => exact le_rfl

theorem minimum_le {n : ℤ} (hn : 8 ≤ n) (opt : FlowOption) : opt.minimum n ≤ n + 4 := by
  rw [FlowOption.minimum]
  cases h : opt.sets with
  | none =>
    rw [Option.getD_none]
    split_ifs <;> omega
  | some size =>
    have hsize : size ≤ 8 := by
      rw [FlowOption.sets.eq_def] at h
      split at h <;> cases h <;> decide
    rw [Option.getD_some]
    omega

/-- Each option increases the smallest size by four at most. -/
theorem parse_minPayloadSize_le {n : ℤ} (hn : 8 ≤ n) (hf : f.minPayloadSize ≤ n)
    (h : f.parse b opts = some f') : f'.minPayloadSize ≤ n + 4 * opts.length := by
  induction opts generalizing f n with
  | nil =>
    cases h
    simpa using hf
  | cons opt opts ih =>
    obtain ⟨f₁, hopt, h⟩ := Option.bind_eq_some_iff.1 h
    have hmin : f₁.minPayloadSize ≤ n + 4 := by
      rw [setOption_minPayloadSize hopt]
      refine (FlowOption.minimum_mono hf opt).trans (minimum_le hn opt)
    split_ifs at h with hvoip
    · obtain rfl : f₁ = f' := Option.some.inj h
      rw [List.length_cons]
      omega
    · have := ih (by omega) hmin h
      rw [List.length_cons]
      omega

/-- The sizes of the packets are limited, for an array `argv` of 200 places. -/
theorem packetSize_le (h : flowParser b opts = some f) (hopts : opts.length ≤ 200) (size : ℤ) :
    f.packetSize b size ≤ maxPayloadSize := by
  have hmin := parse_minPayloadSize_le (by decide) le_rfl h
  have hsender : f.senderMinPayloadSize b ≤ f.minPayloadSize + 4 := by
    rw [ParsedFlow.senderMinPayloadSize]
    split_ifs <;> omega
  have hdefault : ParsedFlow.default.minPayloadSize = 16 := rfl
  rw [ParsedFlow.packetSize, maxPayloadSize]
  split_ifs <;> omega

/-- A flow with `-Fp`, whatever sizes are drawn. -/
theorem fillsInside_iff (h : flowParser b opts = some f) (hopts : opts.length ≤ 200) {dim : ℕ}
    (hdim : 0 < dim) (drawn : List ℤ) :
    (∀ a ∈ sendAccesses dim (f.truePayload b) 0 (drawn.map (f.packetSize b)),
        a.1.Inside dim (f.truePayload b) a.2) ↔
      AllFit dim (f.truePayload b) 0 (drawn.map (f.packetSize b)) := by
  refine sendAccesses_iff hdim fun size hsize => ?_
  obtain ⟨d, -, rfl⟩ := List.mem_map.1 hsize
  exact packetSize_le h hopts d

end Options

/-- A file of 1000 bytes in packets of 516 bytes: the second one ends with it. -/
theorem fillsInside_thousand :
    flowParser ⟨true, true⟩ [] = some ParsedFlow.default ∧
      ∀ a ∈ sendAccesses 1000 16 0 [516, 516], a.1.Inside 1000 16 a.2 := by
  have h : flowParser ⟨true, true⟩ [] = some ParsedFlow.default := rfl
  exact ⟨h, (fillsInside_iff h (by decide) (by decide) [516, 516]).2
    ⟨⟨by decide, Or.inr (by decide)⟩, ⟨by decide, Or.inr (by decide)⟩, trivial⟩⟩

/-- A packet of 512 bytes with a file of one byte: 511 zeros are written behind 17 bytes. -/
theorem not_fillsInside : ¬∀ (b : Build) (opts : List FlowOption) (f : ParsedFlow) (dim : ℕ)
    (drawn : List ℤ), flowParser b opts = some f → 0 < dim →
      ∀ a ∈ sendAccesses dim (f.truePayload b) 0 (drawn.map (f.packetSize b)),
        a.1.Inside dim (f.truePayload b) a.2 := by
  intro h
  have hinside := h ⟨true, true⟩ [] ParsedFlow.default 1 [512] rfl (by decide) _
    List.mem_cons_self
  exact absurd (hinside.zeros_le 511 (by decide)) (by decide)

end Ditg
