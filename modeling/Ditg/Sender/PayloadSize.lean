import Ditg.Common.Packet

/-!
# The smallest size of a packet

A TCP packet with a size field has to be longer than its preamble: `TCPrecvPacket` returns 0, as
for a closed connection, for one that is not. The sender sees to this with a smallest size,
`minPayloadSize`, which the options of the flow set (`-p 1` and `-p 2`, each to its own value)
and increase (`-T`, by four, whatever the protocol) in the order in which they come, and which is
increased once more, for TCP, when the flow starts.

* `parse_minPayloadSize`: the smallest size is that of the last `-p 1` or `-p 2`, or 16, with
  four for each `-T` after it;
* `packetsRead_iff`: the packets of a TCP flow are longer than the preamble, and the
  receiver reads all of them, if and only if that is enough, or all sizes that are drawn are.
-/

namespace Ditg

open Bytes Memory Socket

/-! ## The model -/

/-- What the code is built with. -/
structure Build where
  SCTP : Bool
  DCCP : Bool

def l4ProtoSCTP : UInt8 := 4
def l4ProtoDCCP : UInt8 := 5

/-- `LX_ERROR_BYTE`, for a name that is not found. -/
def lxErrorByte : UInt8 := 255

def meterOWDM : UInt8 := 1
def meterRTTM : UInt8 := 2

/-- Where the packet sizes are drawn from: the distributions whose sizes have a bound that matters
    here, and the others. -/
inductive PktSize
  /-- `-c`, and the default. -/
  | constant (n : ℤ)
  /-- `DiscreteGen`, from 0 on, plus 21. -/
  | telnet
  | other
  deriving DecidableEq

/-- An option of a flow, its arguments as the functions that read them have converted them
    (`atoi`, `findL4Proto`, `findL7Proto`, `findMeter`, and `atoi` for each line of a file). -/
inductive FlowOption
  /-- `-p`. -/
  | p (arg : ℤ)
  /-- `-m`. -/
  | m (meter : UInt8)
  /-- `-T`. -/
  | T (l4Proto : UInt8)
  /-- `-c`. -/
  | c (arg : ℤ)
  /-- `-u`, `-e`, `-v`, `-y`, `-n`, `-o`, `-g` and `-w`. -/
  | pktSize
  /-- `-Fs`. -/
  | Fs (lines : List ℤ)
  /-- A keyword without a dash. -/
  | l7 (l7Proto : UInt8)
  /-- An option that sets nothing of this. -/
  | other
  deriving DecidableEq

/-- What the options say of a flow. -/
structure ParsedFlow where
  meter : UInt8
  l4Proto : UInt8
  minPayloadSize : ℤ
  payloadLogType : UInt8
  PktSize : PktSize
  vectSize : List ℤ
  deriving DecidableEq

/-- What `flowParser` starts with. -/
def ParsedFlow.default : ParsedFlow where
  meter := meterOWDM
  l4Proto := l4ProtoUDP
  minPayloadSize := 16
  payloadLogType := plStandard
  PktSize := .constant 512
  vectSize := []

/-- `-p`. A type that does not exist is taken for the default one. -/
def ParsedFlow.setPayloadLogType (f : ParsedFlow) (arg : ℤ) : Option ParsedFlow :=
  let payloadLogType := if arg < 0 ∨ arg > 2 then plStandard else UInt8.ofInt arg
  if payloadLogType ≠ 0 ∧ f.meter = meterRTTM then none
  else
    some { f with
      payloadLogType
      minPayloadSize :=
        if payloadLogType = plShort then 8
        else if payloadLogType = plNone then 4
        else f.minPayloadSize }

/-- `-T`. -/
def ParsedFlow.setL4Proto (b : Build) (f : ParsedFlow) (l4Proto : UInt8) : Option ParsedFlow :=
  if l4Proto = lxErrorByte then none
  else if l4Proto = l4ProtoDCCP ∧ ¬b.DCCP then none
  else if l4Proto = l4ProtoSCTP ∧ ¬b.SCTP then none
  else some { f with l4Proto, minPayloadSize := f.minPayloadSize + 4 }

/-- A keyword. There is no branch for `AoM`, at which the loop stays. -/
def ParsedFlow.setL7Proto (b : Build) (f : ParsedFlow) (l7Proto : UInt8) : Option ParsedFlow :=
  match l7Proto with
  | 1 => some { f with PktSize := .telnet, l4Proto := l4ProtoTCP }
  | 2 =>
    some { f with
      PktSize := .other
      l4Proto :=
        if b.DCCP ∧ ¬(f.l4Proto ≠ l4ProtoUDP ∧ f.l4Proto ≠ l4ProtoDCCP) then f.l4Proto
        else l4ProtoUDP }
  | 3 => some { f with PktSize := .other }
  | 5 => some { f with PktSize := .other, l4Proto := l4ProtoUDP }
  | 6 => some { f with PktSize := .other, l4Proto := l4ProtoUDP }
  | 7 => some { f with PktSize := .other, l4Proto := l4ProtoUDP }
  | _ => none

/-- One option. It is `none` when an error is reported, at which the program exits. -/
def ParsedFlow.setOption (b : Build) (f : ParsedFlow) : FlowOption → Option ParsedFlow
  | .p arg => f.setPayloadLogType arg
  | .m meter =>
    if meter = lxErrorByte then none
    else if meter = meterRTTM ∧ f.minPayloadSize < 16 then none
    else some { f with meter }
  | .T l4Proto => f.setL4Proto b l4Proto
  | .c arg => if arg < 1 then none else some { f with PktSize := .constant arg }
  | .pktSize => some { f with PktSize := .other }
  | .Fs lines =>
    if ∃ n ∈ lines, n ≤ 0 ∨ n > 65536 then none
    else some { f with vectSize := f.vectSize ++ lines }
  | .l7 l7Proto => f.setL7Proto b l7Proto
  | .other => some f

/-- The loop over the options. `voIPParser` reads all those that follow the keyword. -/
def ParsedFlow.parse (b : Build) (f : ParsedFlow) : List FlowOption → Option ParsedFlow
  | [] => some f
  | opt :: opts => do
    let f ← f.setOption b opt
    if opt = .l7 2 then return f
    else f.parse b opts

/-- The flow of a command line. -/
def flowParser (b : Build) (opts : List FlowOption) : Option ParsedFlow :=
  ParsedFlow.default.parse b opts

/-- The sizes a flow may draw, one for each packet: those of the files again and again, if there
    are any. -/
def ParsedFlow.Draws (f : ParsedFlow) (size : ℕ → ℤ) : Prop :=
  if f.vectSize ≠ [] then ∀ i, f.vectSize[i % f.vectSize.length]? = some (size i)
  else
    match f.PktSize with
    | .constant n => ∀ i, size i = n
    | .telnet => ∀ i, 21 ≤ size i
    | .other => True

/-- The protocols that have a size field, unless there is no preamble. -/
def ParsedFlow.hasSize (b : Build) (f : ParsedFlow) : Prop :=
  (f.l4Proto = l4ProtoTCP ∨ b.SCTP ∧ f.l4Proto = l4ProtoSCTP) ∧ f.payloadLogType ≠ plNone

instance (b : Build) (f : ParsedFlow) : Decidable (f.hasSize b) :=
  inferInstanceAs (Decidable (_ ∧ _))

/-- The smallest size when `flowSender` draws the first one. -/
def ParsedFlow.senderMinPayloadSize (b : Build) (f : ParsedFlow) : ℤ :=
  if f.hasSize b then f.minPayloadSize + 4 else f.minPayloadSize

/-- The size of a packet for which `size` has been drawn. -/
def ParsedFlow.packetSize (b : Build) (f : ParsedFlow) (size : ℤ) : ℤ :=
  if size > maxPayloadSize then maxPayloadSize
  else if size < f.senderMinPayloadSize b then f.senderMinPayloadSize b
  else size

/-! ## The smallest size of a flow -/

/-- `-T`. -/
def FlowOption.isT : FlowOption → Bool
  | .T _ => true
  | _ => false

/-- The smallest size that `-p 1` and `-p 2` set. -/
def FlowOption.sets : FlowOption → Option ℤ
  | .p 1 => some 8
  | .p 2 => some 4
  | _ => none

/-- The last option that sets the smallest size, what it sets it to, and the options after it. -/
def lastSet : List FlowOption → Option (ℤ × List FlowOption)
  | [] => none
  | opt :: opts => (lastSet opts).or (opt.sets.map fun size => (size, opts))

/-- The smallest size that `minPayloadSize` becomes: that of the last option that sets it, with
    four for each `-T` after it. -/
def minimumFrom (minPayloadSize : ℤ) (opts : List FlowOption) : ℤ :=
  let (size, opts) := (lastSet opts).getD (minPayloadSize, opts)
  size + 4 * opts.countP FlowOption.isT

/-- What an option makes of the smallest size. -/
def FlowOption.minimum (minPayloadSize : ℤ) (opt : FlowOption) : ℤ :=
  opt.sets.getD (if opt.isT then minPayloadSize + 4 else minPayloadSize)

section Minimum

variable {b : Build} {f f' : ParsedFlow} {opt : FlowOption} {opts : List FlowOption}

theorem setPayloadLogType_minPayloadSize {arg : ℤ} (h : f.setPayloadLogType arg = some f') :
    f'.minPayloadSize = (FlowOption.p arg).minimum f.minPayloadSize := by
  unfold ParsedFlow.setPayloadLogType at h
  dsimp only at h
  rw [Option.ite_none_left_eq_some] at h
  obtain ⟨-, h⟩ := h
  cases h
  by_cases hone : arg = 1
  · subst hone
    rfl
  by_cases htwo : arg = 2
  · subst htwo
    rfl
  -- The type is 0, given or by default.
  have htype : (if arg < 0 ∨ arg > 2 then plStandard else UInt8.ofInt arg) = plStandard := by
    split_ifs
    · rfl
    · obtain rfl : arg = 0 := by omega
      rfl
  have hsets : (FlowOption.p arg).sets = none := by
    simp [FlowOption.sets, hone, htwo]
  dsimp only
  rw [htype, FlowOption.minimum, hsets]
  rfl

/-- Every option does no more than that. -/
theorem setOption_minPayloadSize (h : f.setOption b opt = some f') :
    f'.minPayloadSize = opt.minimum f.minPayloadSize := by
  cases opt with
  | p arg => exact setPayloadLogType_minPayloadSize h
  | m meter =>
    rw [ParsedFlow.setOption] at h
    split_ifs at h
    cases h
    rfl
  | T l4Proto =>
    rw [ParsedFlow.setOption, ParsedFlow.setL4Proto] at h
    split_ifs at h
    cases h
    rfl
  | c arg =>
    rw [ParsedFlow.setOption] at h
    split_ifs at h
    cases h
    rfl
  | pktSize =>
    cases h
    rfl
  | Fs lines =>
    rw [ParsedFlow.setOption] at h
    split_ifs at h
    cases h
    rfl
  | l7 l7Proto =>
    change f.setL7Proto b l7Proto = some f' at h
    unfold ParsedFlow.setL7Proto at h
    split at h <;> cases h <;> rfl
  | other =>
    cases h
    rfl

/-- `VoIP` does not make a TCP flow. -/
theorem l4Proto_of_VoIP (h : f.setOption b (.l7 2) = some f') : f'.l4Proto ≠ l4ProtoTCP := by
  cases h
  dsimp only
  split_ifs with hdccp
  · intro htcp
    refine hdccp.2 ?_
    rw [htcp]
    decide
  · decide

/-- The first option of a command line. -/
theorem minimumFrom_cons (minPayloadSize : ℤ) (opt : FlowOption) (opts : List FlowOption) :
    minimumFrom (opt.minimum minPayloadSize) opts = minimumFrom minPayloadSize (opt :: opts) := by
  rw [minimumFrom, minimumFrom, lastSet]
  cases hlast : lastSet opts with
  | some last => rfl
  | none =>
    cases hsets : opt.sets with
    | some size => simp [FlowOption.minimum, hsets]
    | none =>
      simp only [FlowOption.minimum, hsets, Option.getD_none, Option.map_none, Option.or_none,
        List.countP_cons]
      split_ifs <;> omega

/-- The smallest size of a TCP flow. -/
theorem parse_minPayloadSize (h : f.parse b opts = some f') (htcp : f'.l4Proto = l4ProtoTCP) :
    f'.minPayloadSize = minimumFrom f.minPayloadSize opts := by
  induction opts generalizing f with
  | nil =>
    cases h
    simp [minimumFrom, lastSet]
  | cons opt opts ih =>
    obtain ⟨f₁, hopt, h⟩ := Option.bind_eq_some_iff.1 h
    by_cases hvoip : opt = .l7 2
    · subst hvoip
      rw [if_pos rfl] at h
      obtain rfl : f₁ = f' := Option.some.inj h
      exact absurd htcp (l4Proto_of_VoIP hopt)
    · rw [if_neg hvoip] at h
      rw [ih h, setOption_minPayloadSize hopt, minimumFrom_cons]

end Minimum

/-! ## The packets of a TCP flow -/

/-- All packets of a flow are longer than the preamble the receiver expects, and a call of
    `TCPrecvPacket` for one of them, however it arrives, does not return 0. -/
def PacketsRead (b : Build) (f : ParsedFlow) (drawn : ℕ → ℤ) : Prop :=
  ∀ i, (preambleSize f.l4Proto f.payloadLogType : ℤ) < f.packetSize b (drawn i) ∧
    ∀ (e : Endian) (pkt rest payload : List UInt8) (off : ℕ) (c : Conn),
      (pkt.length : ℤ) = f.packetSize b (drawn i) → pkt.length ≤ maxPayloadSize →
      sizeOffset f.payloadLogType = some off → (load32 .big (pkt.drop off)).toNat = pkt.length →
      payload.length = maxPayloadSize → c.Holds (pkt ++ rest) →
      ∃ size payload' c', TCPrecvPacket e payload c (preambleSize f.l4Proto f.payloadLogType)
        f.payloadLogType = some (size, payload', c') ∧ size ≠ 0

section Packets

variable {b : Build} {f : ParsedFlow} {opts : List FlowOption}

/-- A packet is longer than the preamble if the smallest size is, or the one that is drawn. -/
theorem lt_packetSize_iff {n : ℕ} (hn : n < maxPayloadSize) (size : ℤ) :
    (n : ℤ) < f.packetSize b size ↔ (n : ℤ) < f.senderMinPayloadSize b ∨ (n : ℤ) < size := by
  rw [maxPayloadSize] at hn
  rw [ParsedFlow.packetSize, maxPayloadSize]
  split_ifs <;> omega

/-- The packets of a TCP flow with a size field, for the smallest size its options have made. -/
theorem packetsRead_iff_minPayloadSize (htcp : f.l4Proto = l4ProtoTCP)
    (htype : f.payloadLogType = plStandard ∨ f.payloadLogType = plShort) (drawn : ℕ → ℤ) :
    PacketsRead b f drawn ↔
      (preambleSize f.l4Proto f.payloadLogType : ℤ) < f.minPayloadSize + 4 ∨
        ∀ i, (preambleSize f.l4Proto f.payloadLogType : ℤ) < drawn i := by
  have hsize : f.hasSize b := ⟨.inl htcp, by rcases htype with h | h <;> rw [h] <;> decide⟩
  have hmin : f.senderMinPayloadSize b = f.minPayloadSize + 4 := if_pos hsize
  have hn : preambleSize f.l4Proto f.payloadLogType < maxPayloadSize := by
    rw [htcp]
    rcases htype with h | h <;> rw [h] <;> decide
  have hiff (i : ℕ) := lt_packetSize_iff (b := b) (f := f) hn (drawn i)
  rw [hmin] at hiff
  constructor
  · intro hread
    refine forall_or_left.1 fun i => (hiff i).1 (hread i).1
  · intro hlong i
    have hlt := (hiff i).2 (hlong.imp_right fun h => h i)
    refine ⟨hlt, fun e pkt rest payload off c hlen hmax hoff hfield hp hc => ?_⟩
    rw [htcp] at hlt ⊢
    have hwell : WellSized f.payloadLogType pkt := ⟨⟨off, hoff, hfield⟩, by omega, hmax⟩
    obtain ⟨payload', c', hout, -⟩ := TCPrecvPacket_of_holds e hwell hp hc
    exact ⟨_, payload', c', hout, by omega⟩

/-- For every command line that makes a TCP flow with a size field, and any sizes that are drawn:
    all packets are longer than the preamble, and are read, if and only if 16, or 8 for the last
    `-p 1` or 4 for the last `-p 2`, with four for each `-T` after that and four more, is, or all
    sizes that are drawn are. -/
theorem packetsRead_iff (h : flowParser b opts = some f) (htcp : f.l4Proto = l4ProtoTCP)
    (htype : f.payloadLogType = plStandard ∨ f.payloadLogType = plShort) (drawn : ℕ → ℤ) :
    PacketsRead b f drawn ↔
      (preambleSize f.l4Proto f.payloadLogType : ℤ) < minimumFrom 16 opts + 4 ∨
        ∀ i, (preambleSize f.l4Proto f.payloadLogType : ℤ) < drawn i := by
  have hmin : f.minPayloadSize = minimumFrom 16 opts := parse_minPayloadSize h htcp
  rw [packetsRead_iff_minPayloadSize htcp htype drawn, hmin]

end Packets

/-- `-T TCP` makes the packets long enough. -/
theorem packetsRead_iff_TCP :
    PacketsRead ⟨false, false⟩ ⟨meterOWDM, l4ProtoTCP, 20, plStandard, .constant 512, []⟩
        (fun _ => 512) ↔
      (20 : ℤ) < minimumFrom 16 [.T l4ProtoTCP] + 4 ∨ ∀ _ : ℕ, (20 : ℤ) < 512 :=
  packetsRead_iff rfl rfl (.inl rfl) fun _ => 512

/-- With `-p 1` after it, and packets of one byte, it does not. -/
theorem not_packetsRead : ¬∀ (b : Build) (opts : List FlowOption) (f : ParsedFlow) (drawn : ℕ → ℤ),
    flowParser b opts = some f → f.l4Proto = l4ProtoTCP →
      f.payloadLogType = plStandard ∨ f.payloadLogType = plShort → f.Draws drawn →
      PacketsRead b f drawn := by
  intro h
  have hread := h ⟨false, false⟩ [.T l4ProtoTCP, .p 1, .c 1]
    ⟨meterOWDM, l4ProtoTCP, 8, plShort, .constant 1, []⟩ (fun _ => 1) (by decide) rfl (.inr rfl)
    (fun _ => rfl) 0
  exact absurd hread.1 (by decide)

end Ditg
