import Ditg.Sender.OptionLoop
import Ditg.Sender.PayloadSize

/-!
# What the options make of the sizes

The model of the smallest size of a packet has the options of a flow as a list, with the numbers of
their names. It is what the loop of `flowParser` makes of the arguments: the loop simulates the
model, turn by turn, in the fields that the model has.

* `SizeFields.Matches.turn`: a turn of the loop is an option of the model;
* `flowParserLoop_parsed`: when the loop has read the arguments, the descriptor of the flow is what
  the model makes of the options;
* `flowParserLoop_packetsRead_iff`: so the packets of its flow are longer than the preamble if and
  only if those of the model are.
-/

namespace Ditg

open Memory Text Stdlib

/-! ## The fields for the sizes -/

section Fields

variable {F : Type}

/-- What the model of the sizes has of a descriptor. -/
structure SizeFields (F : Type) where
  meter : UInt8
  l4Proto : UInt8
  minPayloadSize : ℤ
  payloadLogType : ℤ
  PktSize : Distribution F
  vectSize : List UInt32

/-- The fields of a descriptor. -/
def OptionFlow.sizeFields (flow : OptionFlow F) : SizeFields F where
  meter := flow.meter
  l4Proto := flow.l4Proto
  minPayloadSize := flow.minPayloadSize
  payloadLogType := flow.payloadLogType
  PktSize := flow.PktSize
  vectSize := flow.vectSize

variable [CDouble F] [DecidableEq F]

/-- A distribution, as the model has it. -/
def PktSize.Matches (d : Distribution F) : PktSize → Prop
  | .constant n => d = ⟨.pdConstant, scaledConstant (n : F)⟩
  | .telnet => d = telnetParser.PktSize
  | .other => True

/-- A descriptor, as the model has it. -/
structure SizeFields.Matches (fields : SizeFields F) (f : ParsedFlow) : Prop where
  meter : fields.meter = f.meter
  l4Proto : fields.l4Proto = f.l4Proto
  minPayloadSize : fields.minPayloadSize = f.minPayloadSize
  payloadLogType : fields.payloadLogType = f.payloadLogType.toNat
  PktSize : PktSize.Matches fields.PktSize f.PktSize
  vectSize : fields.vectSize = f.vectSize.map UInt32.ofInt

/-- An option with its arguments, as the model has it. -/
def OptionEnv.flowOption (env : OptionEnv F) (args : List Argument) : OptionName → FlowOption
  | .p => .p (atoi (args.headD []))
  | .m => .m (findMeter (args.headD env.stale))
  | .T => .T (findL4Proto (args.headD []))
  | .pktSize .C => .c (atoi (args.headD []))
  | .pktSize _ => .pktSize
  | .Fs =>
    match env.fileLines "the packets sizes" (args.headD []) with
    | .ok sizes => .Fs (sizes.map atoi)
    | .error _ => .Fs []
  | _ => .other

/-- What the loop is at, as the model has it. -/
def OptionEnv.turnOption (env : OptionEnv F) : List Argument → FlowOption
  | [] => .other
  | arg :: args =>
    if arg.char 0 = '-' then
      match env.optionName arg with
      | .ok name => env.flowOption args name
      | .error _ => .other
    else .l7 (findL7Proto arg)

/-- The options of `n` turns. -/
def OptionEnv.flowOptions (env : OptionEnv F) : ℕ → OptionState F → List Argument → List FlowOption
  | 0, _, _ => []
  | n + 1, s, argv =>
    if argv = [] then []
    else
      match env.turn s argv with
      | .ok (s', moved) => env.turnOption argv :: flowOptions env n s' (argv.drop moved)
      | .error _ => []

variable {env : OptionEnv F} {s s' : OptionState F} {args : List Argument} {n : ℕ}

/-! ## Options that leave the fields -/

omit [CDouble F] [DecidableEq F] in
/-- An option with one argument, that of its setter. -/
theorem exists_of_oneArgument {failed : ParserExit}
    {set : Argument → Except ParserExit (OptionState F)}
    (h : oneArgument failed set args = .ok (s', n)) :
    ∃ x, args.head? = some x ∧ set x = .ok s' := by
  cases args with
  | nil => cases h
  | cons x args =>
    obtain ⟨s₁, hset, h⟩ := Loop.map_eq_ok.1 h
    cases h
    exact ⟨x, rfl, hset⟩

omit [CDouble F] [DecidableEq F] in
theorem exists_of_oneName {failed : ParserExit}
    {set : Argument → Except ParserExit (OptionState F)}
    (h : oneName failed set args = .ok (s', n)) :
    ∃ x, args.head? = some x ∧ set x = .ok s' := by
  obtain ⟨x, hx, hset⟩ := exists_of_oneArgument h
  split_ifs at hset
  exact ⟨x, hx, hset⟩

omit [CDouble F] [DecidableEq F] in
theorem sizeFields_share (others : List OtherPayload) (flow : OptionFlow F) :
    (others.foldl OptionFlow.share flow).sizeFields = flow.sizeFields := by
  induction others generalizing flow with
  | nil => rfl
  | cons other others ih =>
    rw [List.foldl_cons, ih, OptionFlow.share]
    split_ifs <;> rfl

omit [CDouble F] [DecidableEq F] in
theorem sizeFields_readPayload {flow flow' : OptionFlow F} {x : Argument}
    (h : flow.readPayload env x = .ok flow') : flow'.sizeFields = flow.sizeFields := by
  rw [OptionFlow.readPayload] at h
  split_ifs at h
  · split at h
    · cases h
    · split_ifs at h
      cases h
      rfl
  · cases h
    rfl

omit [CDouble F] [DecidableEq F] in
/-- `-Fp`. -/
theorem sizeFields_setPayloadFile {x : Argument} (h : s.setPayloadFile env x = .ok s') :
    s'.flow.sizeFields = s.flow.sizeFields := by
  obtain ⟨flow, hread, rfl⟩ := Loop.map_eq_ok.1 h
  refine (sizeFields_readPayload hread).trans ?_
  split_ifs
  · exact sizeFields_share _ _
  · rfl

/-- An option that the model does not have. -/
theorem sizeFields_setOption {name : OptionName} (hother : env.flowOption args name = .other)
    (h : env.setOption s args name = .ok (s', n)) : s'.flow.sizeFields = s.flow.sizeFields := by
  cases name with
  | p | m | T => cases hother
  | pktSize letter => cases letter <;> cases hother
  | Fs =>
    rw [OptionEnv.flowOption] at hother
    split at hother <;> cases hother
  | poll | D | H =>
    cases h
    rfl
  | rp | rk | sp | sk =>
    obtain ⟨x, -, hset⟩ := exists_of_oneArgument h
    cases hset
    rfl
  | i =>
    rw [OptionEnv.setOption] at h
    split_ifs at h
    obtain ⟨x, -, hset⟩ := exists_of_oneArgument h
    cases hset
    rfl
  | Si =>
    obtain ⟨⟨s₁, moved⟩, hone, h⟩ := Loop.map_eq_ok.1 h
    obtain ⟨x, -, hset⟩ := exists_of_oneArgument hone
    cases hset
    cases h
    rfl
  | t | z | k | j | s =>
    obtain ⟨x, -, hset⟩ := exists_of_oneArgument h
    simp only [OptionState.setDuration, OptionState.setNumPacket, OptionState.setKBToSend,
      OptionState.setMeanAdjustment, OptionState.setSeed] at hset
    split_ifs at hset
    cases hset
    rfl
  | f | d | b =>
    obtain ⟨x, -, hset⟩ := exists_of_oneArgument h
    simp only [OptionState.setTTL, OptionState.setDelay, OptionState.setDSByte] at hset
    split at hset
    · cases hset
    · split_ifs at hset
      cases hset
      rfl
  | Ssa | Sda =>
    obtain ⟨x, -, hset⟩ := exists_of_oneArgument h
    simp only [OptionState.setSigSrcHost, OptionState.setSigDestHost] at hset
    split at hset
    · cases hset
    · cases hset
      rfl
  | sa =>
    rw [OptionEnv.setOption] at h
    split_ifs at h
    obtain ⟨x, -, hset⟩ := exists_of_oneArgument h
    rw [OptionState.setSrcHost] at hset
    split at hset
    · cases hset
    · cases hset
      rfl
  | a =>
    obtain ⟨x, -, hset⟩ := exists_of_oneArgument h
    rw [OptionState.setDestHost] at hset
    split at hset
    · cases hset
    · dsimp only at hset
      split_ifs at hset <;> cases hset <;> rfl
  | Ssp | Sdp =>
    obtain ⟨x, -, hset⟩ := exists_of_oneArgument h
    obtain ⟨port, -, hset⟩ := Loop.bind_eq_ok.1 hset
    cases hset
    rfl
  | Ft =>
    obtain ⟨x, -, hset⟩ := exists_of_oneName h
    obtain ⟨times, -, hset⟩ := Loop.bind_eq_ok.1 hset
    split_ifs at hset
    cases hset
    rfl
  | Fp =>
    obtain ⟨x, -, hset⟩ := exists_of_oneName h
    exact sizeFields_setPayloadFile hset
  | L | X =>
    rw [OptionEnv.setOption] at h
    split_ifs at h
    obtain ⟨⟨target, moved⟩, -, h⟩ := Loop.map_eq_ok.1 h
    cases h
    rfl
  | l | x =>
    rw [OptionEnv.setOption] at h
    split_ifs at h
    cases h
    rfl
  | q =>
    rw [OptionEnv.setOption] at h
    split at h <;> cases h <;> rfl
  | intArriv letter =>
    rw [OptionEnv.setOption, setDistribution] at h
    split at h
    · cases h
    · cases h
      rfl
  | B =>
    rw [OptionEnv.setOption] at h
    split_ifs at h
    obtain ⟨⟨OnPeriod, OffPeriod, rest⟩, -, h⟩ := Loop.map_eq_ok.1 h
    cases h
    rfl

/-! ## Options that set the fields -/

variable {f : ParsedFlow}

omit [DecidableEq F] in
/-- The fields stay as they are. -/
theorem SizeFields.Matches.of_eq (hm : s.flow.sizeFields.Matches f)
    (h : s'.flow.sizeFields = s.flow.sizeFields) : s'.flow.sizeFields.Matches f := h ▸ hm

omit [DecidableEq F] in
/-- `-p`. -/
theorem SizeFields.Matches.setPayloadLogType (hm : s.flow.sizeFields.Matches f) {x : Argument}
    (h : s.setPayloadLogType x = .ok s') :
    ∃ f', f.setPayloadLogType (atoi x) = some f' ∧ s'.flow.sizeFields.Matches f' := by
  have hmeter : s.flow.meter = f.meter := hm.meter
  unfold OptionState.setPayloadLogType at h
  unfold ParsedFlow.setPayloadLogType
  generalize atoi x = arg at h ⊢
  dsimp only at h ⊢
  rw [hmeter] at h
  have hcases : (arg < 0 ∨ arg > 2) ∨ arg = 0 ∨ arg = 1 ∨ arg = 2 := by omega
  obtain harg | rfl | rfl | rfl := hcases
  · rw [if_pos harg] at h ⊢
    cases h
    exact ⟨_, rfl, ⟨rfl, hm.l4Proto, hm.minPayloadSize, rfl, hm.PktSize, hm.vectSize⟩⟩
  · cases h
    exact ⟨_, rfl, ⟨rfl, hm.l4Proto, hm.minPayloadSize, rfl, hm.PktSize, hm.vectSize⟩⟩
  -- The two other types are not for the RTT meter.
  · by_cases hrttm : f.meter = meterRTTM
    · rw [if_pos ⟨by decide, hrttm⟩] at h
      cases h
    · rw [if_neg fun hboth => hrttm hboth.2] at h ⊢
      cases h
      exact ⟨_, rfl, ⟨rfl, hm.l4Proto, rfl, rfl, hm.PktSize, hm.vectSize⟩⟩
  · by_cases hrttm : f.meter = meterRTTM
    · rw [if_pos ⟨by decide, hrttm⟩] at h
      cases h
    · rw [if_neg fun hboth => hrttm hboth.2] at h ⊢
      cases h
      exact ⟨_, rfl, ⟨rfl, hm.l4Proto, rfl, rfl, hm.PktSize, hm.vectSize⟩⟩

omit [DecidableEq F] in
/-- `-m`. -/
theorem SizeFields.Matches.setMeter (hm : s.flow.sizeFields.Matches f) {x : Argument}
    (h : s.setMeter x = .ok s') :
    ∃ f', f.setOption env.build (.m (findMeter x)) = some f' ∧ s'.flow.sizeFields.Matches f' := by
  have hmin : s.flow.minPayloadSize = f.minPayloadSize := hm.minPayloadSize
  unfold OptionState.setMeter at h
  dsimp only at h
  rw [hmin] at h
  rw [ParsedFlow.setOption]
  split_ifs at h ⊢
  cases h
  exact ⟨_, rfl, ⟨rfl, hm.l4Proto, rfl, hm.payloadLogType, hm.PktSize, hm.vectSize⟩⟩

omit [CDouble F] [DecidableEq F] in
/-- What `-T` makes of the fields, with any parameters of the protocol. -/
theorem sizeFields_setL4Proto {x : Argument}
    (h : s.setL4Proto env (x :: args) = .ok (s', n)) :
    findL4Proto x ≠ lxErrorByte ∧ ¬(findL4Proto x = l4ProtoDCCP ∧ ¬env.build.DCCP) ∧
      ¬(findL4Proto x = l4ProtoSCTP ∧ ¬env.build.SCTP) ∧
      s'.flow.sizeFields =
        { s.flow.sizeFields with
          l4Proto := findL4Proto x
          minPayloadSize := s.flow.minPayloadSize + 4 } := by
  unfold OptionState.setL4Proto at h
  dsimp only at h
  split_ifs at h with herror hicmp hdccp hsctp hbuilt
  · refine ⟨herror, fun hboth => ?_, fun hboth => ?_, ?_⟩
    · rw [hicmp] at hboth
      exact absurd hboth.1 (by decide)
    · rw [hicmp] at hboth
      exact absurd hboth.1 (by decide)
    · split at h
      · cases h
        rfl
      · split_ifs at h <;> cases h <;> rfl
  · refine ⟨herror, hdccp, fun hboth => hboth.2 hbuilt, ?_⟩
    split at h
    · split_ifs at h
      obtain ⟨s₁, hset, h⟩ := Loop.map_eq_ok.1 h
      cases h
      unfold OptionState.setSctp at hset
      dsimp only at hset
      split_ifs at hset <;> cases hset <;> rfl
    · cases h
  · cases h
    exact ⟨herror, hdccp, fun hboth => hsctp hboth.1, rfl⟩

omit [DecidableEq F] in
/-- `-T`. -/
theorem SizeFields.Matches.setL4Proto (hm : s.flow.sizeFields.Matches f)
    (h : s.setL4Proto env args = .ok (s', n)) :
    ∃ f', f.setL4Proto env.build (findL4Proto (args.headD [])) = some f' ∧
      s'.flow.sizeFields.Matches f' := by
  cases args with
  | nil => cases h
  | cons x args =>
    obtain ⟨herror, hdccp, hsctp, hfields⟩ := sizeFields_setL4Proto h
    refine ⟨{ f with l4Proto := findL4Proto x, minPayloadSize := f.minPayloadSize + 4 }, ?_, ?_⟩
    · rw [List.headD_cons, ParsedFlow.setL4Proto, if_neg herror, if_neg hdccp, if_neg hsctp]
    · rw [hfields]
      exact ⟨hm.meter, rfl, congrArg (· + 4) hm.minPayloadSize, hm.payloadLogType, hm.PktSize,
        hm.vectSize⟩

omit [CDouble F] [DecidableEq F] in
/-- An option with a distribution. -/
theorem exists_of_setDistribution {failed : ParserExit} {reader : DistroReader F}
    {set : Distribution F → OptionState F}
    (h : setDistribution failed reader set args = .ok (s', n)) :
    ∃ distribution, reader.run args = some distribution ∧ set distribution = s' := by
  rw [setDistribution] at h
  split at h
  next => cases h
  next distribution hrun =>
    cases h
    exact ⟨distribution, hrun, rfl⟩

omit [DecidableEq F] in
/-- A flow whose sizes have another distribution. -/
theorem SizeFields.Matches.setPktSize (hm : s.flow.sizeFields.Matches f)
    {distribution : Distribution F} {d : Ditg.PktSize} (hd : PktSize.Matches distribution d) :
    (s.setFlow { s.flow with PktSize := distribution }).flow.sizeFields.Matches
      { f with PktSize := d } :=
  ⟨hm.meter, hm.l4Proto, hm.minPayloadSize, hm.payloadLogType, hd, hm.vectSize⟩

/-- `-c`, and the other letters. -/
theorem SizeFields.Matches.setOption_pktSize (hm : s.flow.sizeFields.Matches f)
    {letter : DistroLetter} (h : env.setOption s args (.pktSize letter) = .ok (s', n)) :
    ∃ f', f.setOption env.build (env.flowOption args (.pktSize letter)) = some f' ∧
      s'.flow.sizeFields.Matches f' := by
  obtain ⟨distribution, hrun, rfl⟩ := exists_of_setDistribution h
  cases letter with
  | C =>
    cases args with
    | nil => cases hrun
    | cons x args =>
      have hread : (if atoi x < 1 then none
          else some (⟨.pdConstant, scaledConstant (atoi x : F)⟩ : Distribution F)) =
        some distribution := hrun
      split_ifs at hread with hsmall
      cases hread
      exact ⟨_, if_neg hsmall, hm.setPktSize rfl⟩
  | U | E | V | Y | N | O | G | W => exact ⟨_, rfl, hm.setPktSize trivial⟩

omit [DecidableEq F] in
/-- `-Fs`. -/
theorem SizeFields.Matches.setPktSizeFile (hm : s.flow.sizeFields.Matches f) {x : Argument}
    (h : s.setPktSizeFile env x = .ok s') :
    ∃ sizes f', env.fileLines "the packets sizes" x = .ok sizes ∧
      f.setOption env.build (.Fs (sizes.map atoi)) = some f' ∧ s'.flow.sizeFields.Matches f' := by
  obtain ⟨sizes, hlines, hset⟩ := Loop.bind_eq_ok.1 h
  split_ifs at hset with hinvalid
  cases hset
  refine ⟨sizes, { f with vectSize := f.vectSize ++ sizes.map atoi }, hlines, ?_, ?_⟩
  · rw [ParsedFlow.setOption, if_neg]
    simpa only [List.mem_map, exists_exists_and_eq_and] using hinvalid
  · refine ⟨hm.meter, hm.l4Proto, hm.minPayloadSize, hm.payloadLogType, hm.PktSize, ?_⟩
    have hvect : s.flow.vectSize = f.vectSize.map UInt32.ofInt := hm.vectSize
    rw [List.map_append, List.map_map, ← hvect]
    rfl

/-! ## A turn -/

omit [DecidableEq F] in
/-- A keyword. -/
theorem SizeFields.Matches.setKeyword (hm : s.flow.sizeFields.Matches f) {arg : Argument}
    (haom : findL7Proto arg ≠ l7ProtoAoM) (h : env.setKeyword s arg args = .ok (s', n)) :
    ∃ f', f.setL7Proto env.build (findL7Proto arg) = some f' ∧ s'.flow.sizeFields.Matches f' := by
  have hl4 : s.flow.l4Proto = f.l4Proto := hm.l4Proto
  obtain hnone | ⟨k, hk, hproto⟩ := findL7Proto_cases arg
  · rw [OptionEnv.setKeyword, hnone] at h
    cases h
  · rw [OptionEnv.setKeyword, hl4] at h
    rw [hproto] at h haom ⊢
    interval_cases k
    · cases h
      exact ⟨_, rfl, ⟨hm.meter, rfl, hm.minPayloadSize, hm.payloadLogType, rfl, hm.vectSize⟩⟩
    · obtain ⟨traffic, -, h⟩ := Loop.map_eq_ok.1 h
      cases h
      exact ⟨_, rfl,
        ⟨hm.meter, rfl, hm.minPayloadSize, hm.payloadLogType, trivial, hm.vectSize⟩⟩
    · cases h
      exact ⟨_, rfl,
        ⟨hm.meter, rfl, hm.minPayloadSize, hm.payloadLogType, trivial, hm.vectSize⟩⟩
    · exact absurd rfl haom
    all_goals
      cases h
      exact ⟨_, rfl,
        ⟨hm.meter, rfl, hm.minPayloadSize, hm.payloadLogType, trivial, hm.vectSize⟩⟩

omit [CDouble F] [DecidableEq F] in
theorem headD_of_head? {x otherwise : Argument} (h : args.head? = some x) :
    args.headD otherwise = x := by
  rw [List.headD_eq_head?_getD, h, Option.getD_some]

/-- An option. -/
theorem SizeFields.Matches.setOption (hm : s.flow.sizeFields.Matches f) {name : OptionName}
    (h : env.setOption s args name = .ok (s', n)) :
    ∃ f', f.setOption env.build (env.flowOption args name) = some f' ∧
      s'.flow.sizeFields.Matches f' := by
  by_cases hother : env.flowOption args name = .other
  · rw [hother]
    exact ⟨f, rfl, hm.of_eq (sizeFields_setOption hother h)⟩
  · cases name with
    | p =>
      obtain ⟨x, hx, hset⟩ := exists_of_oneName h
      rw [OptionEnv.flowOption, headD_of_head? hx]
      exact hm.setPayloadLogType hset
    | m =>
      obtain ⟨s₁, hset, h⟩ := Loop.map_eq_ok.1 h
      cases h
      exact hm.setMeter hset
    | T => exact hm.setL4Proto h
    | pktSize letter => exact hm.setOption_pktSize h
    | Fs =>
      obtain ⟨x, hx, hset⟩ := exists_of_oneName h
      obtain ⟨sizes, f', hlines, hopt, hm'⟩ := hm.setPktSizeFile hset
      rw [OptionEnv.flowOption, headD_of_head? hx, hlines]
      exact ⟨f', hopt, hm'⟩
    | _ => exact absurd rfl hother

/-- A turn, unless it is at `AoM`. -/
theorem SizeFields.Matches.turn (hm : s.flow.sizeFields.Matches f) {argv : List Argument}
    (haom : ¬AtAoM argv) (h : env.turn s argv = .ok (s', n)) :
    ∃ f', f.setOption env.build (env.turnOption argv) = some f' ∧
      s'.flow.sizeFields.Matches f' := by
  cases argv with
  | nil =>
    cases h
    exact ⟨f, rfl, hm⟩
  | cons arg args =>
    rw [OptionEnv.turn] at h
    rw [OptionEnv.turnOption]
    split_ifs at h ⊢ with hdash
    · obtain ⟨name, hname, h⟩ := Loop.bind_eq_ok.1 h
      rw [hname]
      exact hm.setOption h
    · exact hm.setKeyword (fun hproto => haom ⟨hdash, hproto⟩) h

/-- `VoIP` is the last option. -/
theorem drop_of_VoIP {argv : List Argument} (hvoip : env.turnOption argv = .l7 2)
    (h : env.turn s argv = .ok (s', n)) : argv.drop n = [] := by
  cases argv with
  | nil => cases hvoip
  | cons arg args =>
    rw [OptionEnv.turn] at h
    rw [OptionEnv.turnOption] at hvoip
    split_ifs at h hvoip with hdash
    · obtain ⟨name, hname, -⟩ := Loop.bind_eq_ok.1 h
      rw [hname] at hvoip
      cases name with
      | pktSize letter => cases letter <;> cases hvoip
      | Fs =>
        dsimp only [OptionEnv.flowOption] at hvoip
        split at hvoip <;> cases hvoip
      | _ => cases hvoip
    · have hproto : findL7Proto arg = 2 := FlowOption.l7.inj hvoip
      rw [OptionEnv.setKeyword, hproto] at h
      obtain ⟨traffic, -, h⟩ := Loop.map_eq_ok.1 h
      cases h
      exact List.drop_length

/-! ## The loop -/

theorem flowOptions_nil : env.flowOptions n s [] = [] := by
  cases n <;> rfl

/-- When the loop has read all arguments, the descriptor of the flow is what the model of the sizes
    has for the options it has come to. -/
theorem flowParserLoop_parsed {argv rest : List Argument} (hm : s.flow.sizeFields.Matches f)
    (h : env.flowParserLoop.run n (s, argv) = some (.ok (s', rest))) :
    ∃ f', f.parse env.build (env.flowOptions n s argv) = some f' ∧
      s'.flow.sizeFields.Matches f' := by
  induction n generalizing s argv f with
  | zero => cases h
  | succ n ih =>
    rw [OptionEnv.flowOptions]
    by_cases hargv : argv = []
    · subst hargv
      cases h
      exact ⟨f, rfl, hm⟩
    rw [if_neg hargv]
    have hgoes : env.flowParserLoop.goesOn (s, argv) := hargv
    cases hturn : env.turn s argv with
    | error e =>
      rw [Loop.run, if_pos hgoes, OptionEnv.flowParserLoop] at h
      dsimp only at h
      rw [hturn] at h
      cases h
    | ok result =>
      obtain ⟨s₁, moved⟩ := result
      have hbody : env.flowParserLoop.body (s, argv) = .ok (s₁, argv.drop moved) :=
        congrArg (Except.map _) hturn
      have haom : ¬AtAoM argv := by
        intro haom
        exact Loop.not_ends_of_stuck (flowParserLoop_stays env) hgoes haom ⟨_, _, h⟩
      rw [Loop.run_of_body hgoes hbody] at h
      obtain ⟨f₁, hopt, hm₁⟩ := hm.turn haom hturn
      obtain ⟨f', hparse, hm'⟩ := ih hm₁ h
      refine ⟨f', ?_, hm'⟩
      dsimp only
      rw [ParsedFlow.parse, hopt, Option.bind_eq_bind, Option.bind_some]
      by_cases hvoip : env.turnOption argv = .l7 2
      · rw [drop_of_VoIP hvoip hturn, flowOptions_nil] at hparse
        rw [if_pos hvoip]
        exact hparse
      · rw [if_neg hvoip]
        exact hparse

omit [DecidableEq F] in
theorem start_matches (e : Endian) (host : SockAddr) (globals : OptionGlobals) :
    (OptionState.start e host globals : OptionState F).flow.sizeFields.Matches .default :=
  ⟨rfl, rfl, rfl, rfl, rfl, rfl⟩

omit [DecidableEq F] in
theorem SizeFields.Matches.payloadLogType_iff {fields : SizeFields F} (hm : fields.Matches f)
    (payloadLogType : UInt8) :
    fields.payloadLogType = payloadLogType.toNat ↔ f.payloadLogType = payloadLogType := by
  rw [hm.payloadLogType, Int.ofNat_inj, UInt8.toNat_inj]

/-- For all arguments that the loop reads, whatever the system answers: the descriptor is that of
    the options, and if it is a TCP flow with a size field, all its packets are longer than the
    preamble, and are read, if and only if the smallest size of the options is, or all sizes that
    are drawn are. -/
theorem flowParserLoop_packetsRead_iff {e : Endian} {host : SockAddr} {globals : OptionGlobals}
    {argv rest : List Argument}
    (h : env.flowParserLoop.run n (.start e host globals, argv) = some (.ok (s', rest))) :
    ∃ f, flowParser env.build (env.flowOptions n (.start e host globals) argv) = some f ∧
      s'.flow.sizeFields.Matches f ∧
      ∀ drawn : ℕ → ℤ, s'.flow.l4Proto = l4ProtoTCP →
        s'.flow.payloadLogType = plStandard.toNat ∨ s'.flow.payloadLogType = plShort.toNat →
        (PacketsRead env.build f drawn ↔
          (preambleSize f.l4Proto f.payloadLogType : ℤ) <
              minimumFrom 16 (env.flowOptions n (.start e host globals) argv) + 4 ∨
            ∀ i, (preambleSize f.l4Proto f.payloadLogType : ℤ) < drawn i) := by
  obtain ⟨f, hparse, hm⟩ := flowParserLoop_parsed (start_matches e host globals) h
  refine ⟨f, hparse, hm, fun drawn htcp htype => ?_⟩
  have hf : f.l4Proto = l4ProtoTCP := hm.l4Proto.symm.trans htcp
  have hmin : f.minPayloadSize = minimumFrom 16 (env.flowOptions n _ argv) :=
    parse_minPayloadSize hparse hf
  rw [← hmin]
  exact packetsRead_iff_minPayloadSize hf
    (htype.imp (hm.payloadLogType_iff _).1 (hm.payloadLogType_iff _).1) drawn

/-- `-T` again after `-p 1` makes packets of one byte long enough. -/
theorem flowParserLoop_packetsRead_iff_again :
    ∃ s' f, localEnv.flowParserLoop.run 5 (localState, [chars "-T", chars "TCP", chars "-p",
        chars "1", chars "-T", chars "TCP", chars "-c", chars "1"]) = some (.ok (s', [])) ∧
      s'.flow.sizeFields.Matches f ∧ PacketsRead localEnv.build f fun _ => 1 := by
  obtain ⟨s', hrun, htcp, htype, hopts⟩ : ∃ s', localEnv.flowParserLoop.run 5 (localState,
      [chars "-T", chars "TCP", chars "-p", chars "1", chars "-T", chars "TCP", chars "-c",
        chars "1"]) = some (.ok (s', [])) ∧ s'.flow.l4Proto = l4ProtoTCP ∧
      s'.flow.payloadLogType = plShort.toNat ∧
      localEnv.flowOptions 5 localState [chars "-T", chars "TCP", chars "-p", chars "1",
        chars "-T", chars "TCP", chars "-c", chars "1"] =
        [.T l4ProtoTCP, .p 1, .T l4ProtoTCP, .c 1] := ⟨_, rfl, rfl, rfl, by decide +kernel⟩
  obtain ⟨f, -, hm, hiff⟩ := flowParserLoop_packetsRead_iff hrun
  have hf : f.l4Proto = l4ProtoTCP := hm.l4Proto.symm.trans htcp
  have hlog : f.payloadLogType = plShort := (hm.payloadLogType_iff _).1 htype
  refine ⟨s', f, hrun, hm, (hiff _ htcp (.inr htype)).2 (.inl ?_)⟩
  rw [hf, hlog]
  change _ < minimumFrom 16 (localEnv.flowOptions 5 localState _) + 4
  rw [hopts]
  decide

end Fields

end Ditg
