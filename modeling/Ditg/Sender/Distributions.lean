import Ditg.Common.Info
import Ditg.Library.Loop
import Ditg.Library.Memory
import Ditg.Library.Stdlib

/-!
# The distributions of a flow

The times between the packets of a flow and their sizes are drawn from random variables, and so are
the periods of a bursty flow. An option has a letter for the distribution and its parameters; a
keyword, for the application that a flow is to look like, sets both distributions.
-/

namespace Ditg

open Memory Stdlib

/-! ## Errors -/

/-- An argument, without its NUL. -/
abbrev Argument := List UInt8

/-- `arg[i]`, which is the NUL behind the last character. -/
def Argument.char (arg : Argument) (i : ℕ) : Char := Char.ofNat (arg.getD i 0).toNat

/-- The message of an error. -/
inductive ParserMessage
  | text (text : String)
  /-- `What is … ?`. -/
  | whatIs (arg : Argument)
  /-- `Unknown option …`. -/
  | unknownOption (arg : Argument)
  /-- `Option … can not be used as a global option in the multy flow mode !`. -/
  | notGlobal (arg : Argument)
  deriving DecidableEq

/-- How a parser leaves the program. -/
inductive ParserExit
  /-- `ReportErrorAndExit`. -/
  | error (function : String) (msg : ParserMessage) (fid : ℤ)
  /-- `printHelp` and `Terminate`. -/
  | help
  deriving DecidableEq

/-- An error with a fixed text. -/
def reportErrorAndExit (function text : String) (fid : ℤ) : ParserExit :=
  .error function (.text text) fid

/-! ## Random variables -/

/-- The names of the distributions. -/
inductive TDistro
  | pdConstant
  | pdUniform
  | pdExponential
  | pdPareto
  | pdCauchy
  | pdNormal
  | pdPoisson
  | pdGamma
  | pdWeibull
  | pdTelnet
  | pdAoM
  | pdDiscrete
  | pdExtreme_Largest
  | pdQuake
  | pdStudent
  | pdCSa
  | pdCSi
  deriving DecidableEq

/-- Random variables, with their parameters. -/
inductive RandomVar (F : Type)
  | constant (value : F)
  | uniform
  | exponential (mean : F)
  | pareto (shape : F)
  | cauchy
  | normal
  | poisson (mean : F)
  | gamma (shape : F)
  | weibull (scale shape : F)
  | student (mu sigma nu : F)
  /-- The numbers from 0 on, or these values. -/
  | discrete (prob : List F) (val : Option (List F))
  | mixed (prob₁ prob₂ : F) (rv₁ rv₂ : RandomVar F)
  /-- `a * rv`. -/
  | scaled (a : F) (rv : RandomVar F)
  /-- `rv + b`. -/
  | shifted (rv : RandomVar F) (b : F)
  /-- `a / rv`. -/
  | divided (a : F) (rv : RandomVar F)

/-- What is drawn from, with its name (`IntArriv` and `IntArrivDistro`, and so on). -/
structure Distribution (F : Type) where
  distro : TDistro
  random : RandomVar F

/-- The letters for distributions: `C` stands for `-C` and for `-c`. -/
inductive DistroLetter
  | C
  | U
  | E
  | V
  | Y
  | N
  | O
  | G
  | W
  deriving DecidableEq

/-- The parameters of a distribution. There is no distribution for invalid ones. -/
inductive DistroReader (F : Type)
  | one (read : Argument → Option (Distribution F))
  | two (read : Argument → Argument → Option (Distribution F))

/-- Their number. -/
def DistroReader.arity {F : Type} : DistroReader F → ℕ
  | one _ => 1
  | two _ => 2

/-- The distribution for the arguments behind the option. -/
def DistroReader.run {F : Type} : DistroReader F → List Argument → Option (Distribution F)
  | one read, x :: _ => read x
  | two read, x :: y :: _ => read x y
  | _, _ => none

section Options

variable {F : Type} [CDouble F] [DecidableEq F]

/-- `x <= y`. -/
def CDouble.Le (x y : F) : Prop := x < y ∨ x = y

instance (x y : F) : Decidable (CDouble.Le x y) := inferInstanceAs (Decidable (_ ∨ _))

/-- A literal with a point. -/
def literal (n d : ℤ) : F := (n : F) / (d : F)

/-- A constant, as a multiple of 1. -/
def scaledConstant (a : F) : RandomVar F := .scaled a (.constant ((1 : ℤ) : F))

/-- An exponential variable of mean 1. -/
def standardExponential : RandomVar F := .exponential ((1 : ℤ) : F)

variable (strtod : Argument → F)

/-- The options for the times between the packets. They are given in packets per second for `-C`,
    `-U`, `-E` and `-O`. -/
def intArriv : DistroLetter → DistroReader F
  | .C => .one fun x =>
    if CDouble.Le (strtod x) ((0 : ℤ) : F) then none
    else some ⟨.pdConstant, scaledConstant (((1000 : ℤ) : F) / strtod x)⟩
  | .U => .two fun x y =>
    if CDouble.Le (strtod x) ((0 : ℤ) : F) ∨ CDouble.Le (strtod y) (strtod x) then none
    else
      let a := ((1000 : ℤ) : F) / strtod y
      let b := ((1000 : ℤ) : F) / strtod x - a
      some ⟨.pdUniform, .shifted (.scaled b .uniform) a⟩
  | .E => .one fun x =>
    if CDouble.Le (strtod x) ((0 : ℤ) : F) then none
    else some ⟨.pdExponential, .scaled (((1000 : ℤ) : F) / strtod x) standardExponential⟩
  | .V => .two fun x y =>
    if CDouble.Le (strtod x) ((0 : ℤ) : F) ∨ CDouble.Le (strtod y) ((0 : ℤ) : F) then none
    else some ⟨.pdPareto, .scaled (strtod y) (.pareto (strtod x))⟩
  | .Y => .two fun x y =>
    if CDouble.Le (strtod y) ((0 : ℤ) : F) then none
    else some ⟨.pdCauchy, .shifted (.scaled (strtod y) .cauchy) (strtod x)⟩
  -- What is compared with 0 is the pointer to the argument.
  | .N => .two fun x y => some ⟨.pdNormal, .shifted (.scaled (strtod y) .normal) (strtod x)⟩
  | .O => .one fun x =>
    if CDouble.Le (strtod x) ((0 : ℤ) : F) then none
    else some ⟨.pdPoisson, .divided ((1000 : ℤ) : F) (.poisson (strtod x))⟩
  | .G => .two fun x y =>
    if CDouble.Le (strtod x) ((0 : ℤ) : F) ∨ CDouble.Le (strtod y) ((0 : ℤ) : F) then none
    else some ⟨.pdGamma, .scaled (strtod y) (.gamma (strtod x))⟩
  | .W => .two fun x y =>
    if CDouble.Le (strtod x) ((0 : ℤ) : F) ∨ CDouble.Le (strtod y) ((0 : ℤ) : F) then none
    else some ⟨.pdWeibull, .scaled ((1 : ℤ) : F) (.weibull (strtod x) (strtod y))⟩

/-- Their errors. -/
def intArrivError : DistroLetter → String
  | .V => "Invalid Pareto Distribution parameter values"
  | .G => "Invalid Gamma Distribution parameter values"
  | .W => "Invalid Weibull Distribution parameter values"
  | _ => "Invalid pkts per sec"

/-- The options for the sizes of the packets. -/
def pktSize : DistroLetter → DistroReader F
  | .C => .one fun x =>
    if atoi x < 1 then none else some ⟨.pdConstant, scaledConstant (atoi x : F)⟩
  | .U => .two fun x y =>
    if atoi x < 1 ∨ atoi y ≤ atoi x then none
    else
      let b := (atoi x : F)
      let a := (atoi y : F) - b
      some ⟨.pdUniform, .shifted (.scaled a .uniform) b⟩
  | .E => .one fun x =>
    if atoi x < 1 then none
    else some ⟨.pdExponential, .scaled (atoi x : F) standardExponential⟩
  | .V => .two fun x y =>
    if CDouble.Le (strtod y) ((0 : ℤ) : F) then none
    else some ⟨.pdPareto, .scaled (strtod y) (.pareto (strtod x))⟩
  | .Y => .two fun x y =>
    if atoi y ≤ 0 then none
    else some ⟨.pdCauchy, .shifted (.scaled (atoi y : F) .cauchy) (atoi x : F)⟩
  | .N => .two fun x y => some ⟨.pdNormal, .shifted (.scaled (atoi y : F) .normal) (atoi x : F)⟩
  | .O => .one fun x =>
    if atoi x < 0 then none
    else some ⟨.pdPoisson, .scaled ((1 : ℤ) : F) (.poisson (atoi x : F))⟩
  | .G => .two fun x y =>
    if CDouble.Le (strtod y) ((0 : ℤ) : F) then none
    else some ⟨.pdGamma, .scaled (strtod y) (.gamma (strtod x))⟩
  | .W => .two fun x y =>
    if CDouble.Le (strtod x) ((0 : ℤ) : F) ∨ CDouble.Le (strtod y) ((0 : ℤ) : F) then none
    else some ⟨.pdWeibull, .scaled ((1 : ℤ) : F) (.weibull (strtod x) (strtod y))⟩

/-- Their errors. -/
def pktSizeError : DistroLetter → String
  | .V => "Invalid Pareto Distribution parameter values"
  | .Y => "Invalid pkts per sec"
  | .G => "Invalid Gamma Distribution parameter values"
  | .W => "Invalid Weilbull Distribution Parameter values"
  | _ => "Invalid pkt size"

/-- The distributions of the periods of a bursty flow. -/
def period : DistroLetter → DistroReader F
  | .C => .one fun x =>
    if CDouble.Le (strtod x) ((0 : ℤ) : F) then none
    else some ⟨.pdConstant, scaledConstant (atoi x : F)⟩
  | .U => .two fun x y =>
    if CDouble.Le (strtod x) ((0 : ℤ) : F) ∨ CDouble.Le (strtod y) (strtod x) then none
    else
      let a := strtod y
      let b := strtod x - a
      some ⟨.pdUniform, .shifted (.scaled b .uniform) a⟩
  | .E => .one fun x =>
    if CDouble.Le (strtod x) ((0 : ℤ) : F) then none
    else some ⟨.pdExponential, .scaled (strtod x) standardExponential⟩
  | .V => .two fun x y =>
    if CDouble.Le (strtod x) ((0 : ℤ) : F) ∨ CDouble.Le (strtod y) ((0 : ℤ) : F) then none
    else some ⟨.pdPareto, .scaled (strtod y) (.pareto (strtod x))⟩
  | .Y => .two fun x y =>
    if CDouble.Le (strtod y) ((0 : ℤ) : F) then none
    else some ⟨.pdCauchy, .shifted (.scaled (strtod y) .cauchy) (strtod x)⟩
  | .N => .two fun x y => some ⟨.pdNormal, .shifted (.scaled (strtod y) .normal) (strtod x)⟩
  | .O => .one fun x =>
    if CDouble.Le (strtod x) ((0 : ℤ) : F) then none
    else some ⟨.pdPoisson, .scaled ((1 : ℤ) : F) (.poisson (strtod x))⟩
  | .G => .two fun x y =>
    if CDouble.Le (strtod x) ((0 : ℤ) : F) ∨ CDouble.Le (strtod y) ((0 : ℤ) : F) then none
    else some ⟨.pdGamma, .scaled (strtod y) (.gamma (strtod x))⟩
  | .W => .two fun x y =>
    if CDouble.Le (strtod x) ((0 : ℤ) : F) ∨ CDouble.Le (strtod y) ((0 : ℤ) : F) then none
    else some ⟨.pdWeibull, .scaled ((1 : ℤ) : F) (.weibull (strtod x) (strtod y))⟩

/-- The letter of a period. -/
def periodLetter : Char → Option DistroLetter
  | 'C' => some .C
  | 'U' => some .U
  | 'E' => some .E
  | 'V' => some .V
  | 'Y' => some .Y
  | 'N' => some .N
  | 'O' => some .O
  | 'G' => some .G
  | 'W' => some .W
  | _ => none

/-! ## Keywords -/

/-- The distributions of the times and of the sizes. -/
structure Traffic (F : Type) where
  IntArriv : Distribution F
  PktSize : Distribution F

def telnetParser : Traffic F where
  IntArriv := ⟨.pdPareto, .scaled (literal 11 10) (.pareto (literal 95 100))⟩
  PktSize :=
    ⟨.pdTelnet,
      .shifted
        (.discrete
          [literal 65 100, literal 13 100, literal 7 100, literal 5 100, literal 3 100,
            literal 1 100, literal 1 100, literal 1 100, literal 1 100, literal 5 1000,
            literal 5 1000, literal 5 1000, literal 5 1000, literal 5 1000, literal 5 1000]
          none)
        ((21 : ℤ) : F)⟩

def dnsParser : Traffic F where
  IntArriv := ⟨.pdConstant, scaledConstant (((1000 : ℤ) : F) / literal 56 100)⟩
  PktSize := ⟨.pdUniform, .shifted (.scaled ((220 : ℤ) : F) .uniform) ((100 : ℤ) : F)⟩

def CSParsera : Traffic F where
  IntArriv :=
    ⟨.pdStudent,
      .scaled ((1 : ℤ) : F)
        (.student (literal 416994 10000) (literal 104821 1000000) (literal 704073 1000000))⟩
  PktSize :=
    ⟨.pdCSa,
      .scaled ((1 : ℤ) : F)
        (.mixed (literal 3732 10000) (literal 6268 10000)
          (.shifted (.scaled (literal 43915 10000) .normal) (literal 348352 10000))
          (.shifted (.scaled (literal 36186 10000) .normal) (literal 494904 10000)))⟩

def CSParseri : Traffic F where
  IntArriv :=
    ⟨.pdStudent,
      .scaled ((1 : ℤ) : F)
        (.student (literal 416858 10000) (literal 694393 10000000) (literal 108341 100000))⟩
  PktSize :=
    ⟨.pdDiscrete,
      .scaled ((1 : ℤ) : F)
        (.discrete
          [literal 8312 10000, literal 18 10000, literal 453 10000, literal 195 10000,
            literal 879 10000, literal 24 10000, literal 106 10000, literal 13 10000]
          (some
            [((27 : ℤ) : F), ((28 : ℤ) : F), ((29 : ℤ) : F), ((30 : ℤ) : F), ((31 : ℤ) : F),
              ((32 : ℤ) : F), ((33 : ℤ) : F), ((35 : ℤ) : F)]))⟩

def QuakeParser : Traffic F where
  IntArriv :=
    ⟨.pdQuake,
      .scaled ((1 : ℤ) : F)
        (.mixed (literal 6 10) (literal 4 10) (.exponential (literal 429 100))
          (.constant (literal 1075 100)))⟩
  PktSize :=
    ⟨.pdNormal,
      .shifted (.scaled (literal 32035755 10000000) .normal) (literal 64151757 1000000)⟩

/-- The variables of `voIPParser`. -/
structure VoIP (F : Type) where
  samples : F
  framesize : F
  VAD : F
  header : F
  pkts : F

/-- `G.711.1`, without voice activity detection, over RTP. -/
def VoIP.default : VoIP F where
  samples := ((1 : ℤ) : F)
  framesize := ((80 : ℤ) : F)
  VAD := ((1 : ℤ) : F)
  header := ((12 : ℤ) : F)
  pkts := ((100 : ℤ) : F)

/-- `-x`. -/
def VoIP.setCodec (v : VoIP F) (codec : Argument) : Option (VoIP F) :=
  if codec = chars "G.711.1" then
    some { v with framesize := ((80 : ℤ) : F), samples := ((1 : ℤ) : F), pkts := ((100 : ℤ) : F) }
  else if codec = chars "G.711.2" then
    some { v with framesize := ((80 : ℤ) : F), samples := ((2 : ℤ) : F), pkts := ((50 : ℤ) : F) }
  else if codec = chars "G.729.2" then
    some { v with framesize := ((10 : ℤ) : F), samples := ((2 : ℤ) : F), pkts := ((50 : ℤ) : F) }
  else if codec = chars "G.729.3" then
    some { v with framesize := ((10 : ℤ) : F), samples := ((3 : ℤ) : F), pkts := ((33 : ℤ) : F) }
  else if codec = chars "G.723.1" then
    some { v with framesize := ((30 : ℤ) : F), samples := ((1 : ℤ) : F), pkts := ((26 : ℤ) : F) }
  else none

/-- `-h`. -/
def VoIP.setHeader (v : VoIP F) (protocol : Argument) : Option (VoIP F) :=
  if protocol = chars "RTP" then some { v with header := ((12 : ℤ) : F) }
  else if protocol = chars "CRTP" then some { v with header := ((2 : ℤ) : F) }
  else none

/-- The loop of `voIPParser`. The messages name the argument `second`, the second one of the line,
    and not the one that is wrong. -/
def VoIP.parse (second : Argument) (flowId : ℤ) (v : VoIP F) :
    List Argument → Except ParserExit (VoIP F)
  | [] => .ok v
  | [opt] =>
    if opt.char 0 ≠ '-' then .error (.error "VoIP parser" (.whatIs second) flowId)
    else
      match opt.char 1 with
      | 'x' => .error (reportErrorAndExit "VoIP parser" "Invalid Codec Type" flowId)
      | 'h' => .error (reportErrorAndExit "VoIP parser" "Invalid Protocol Type" flowId)
      | 'V' =>
        if opt.char 2 = 'A' ∧ opt.char 3 = 'D' then .ok { v with VAD := literal 65 100 }
        else .error (reportErrorAndExit "VoIP parser" "Invalid Option (VAD)" flowId)
      | _ => .error (.error "VoIP parser" (.unknownOption second) flowId)
  | opt :: arg :: args =>
    if opt.char 0 ≠ '-' then .error (.error "VoIP parser" (.whatIs second) flowId)
    else
      match opt.char 1 with
      | 'x' =>
        match v.setCodec arg with
        | some v => VoIP.parse second flowId v args
        | none => .error (reportErrorAndExit "VoIP parser" "Invalid Codec Type" flowId)
      | 'h' =>
        match v.setHeader arg with
        | some v => VoIP.parse second flowId v args
        | none =>
          .error (reportErrorAndExit "VoIP parser" "Invalid Protocol Type (RTP or CRTP)" flowId)
      | 'V' =>
        if opt.char 2 = 'A' ∧ opt.char 3 = 'D' then
          VoIP.parse second flowId { v with VAD := literal 65 100 } (arg :: args)
        else .error (reportErrorAndExit "VoIP parser" "Invalid Option (VAD)" flowId)
      | _ => .error (.error "VoIP parser" (.unknownOption second) flowId)

/-- What it makes of the variables. -/
def VoIP.traffic (v : VoIP F) : Traffic F where
  IntArriv := ⟨.pdConstant, scaledConstant (((1000 : ℤ) : F) / v.pkts)⟩
  PktSize :=
    ⟨.pdConstant, .shifted (scaledConstant (v.VAD * v.framesize * v.samples)) v.header⟩

/-- The arguments behind the keyword are all for `voIPParser`. -/
def voIPParser (second : Argument) (flowId : ℤ) (args : List Argument) :
    Except ParserExit (Traffic F) :=
  (VoIP.default.parse second flowId args).map VoIP.traffic

/-! ## Bursty flows -/

/-- A letter of `burstyParser`, its parameters and at least `behind` arguments behind them. The rest
    begins at these. -/
def readPeriod (behind : ℕ) (error : DistroLetter → String) (otherwise : String) (flowId : ℤ) :
    List Argument → Except ParserExit (Distribution F × List Argument)
  | [] => .error (reportErrorAndExit "Protocol Parser" otherwise flowId)
  | letter :: args =>
    match periodLetter (letter.char 0) with
    | none => .error (reportErrorAndExit "Protocol Parser" otherwise flowId)
    | some d =>
      let reader := period strtod d
      let failed := reportErrorAndExit "Protocol Parser" (error d) flowId
      if args.length < reader.arity + behind then .error failed
      else
        match reader.run args with
        | some distribution => .ok (distribution, args.drop reader.arity)
        | none => .error failed

/-- `-B`, from the letter for the on periods on. -/
def burstyParser (flowId : ℤ) (args : List Argument) :
    Except ParserExit (Distribution F × Distribution F × List Argument) := do
  let (OnPeriod, args) ← readPeriod strtod 2 (fun _ => "Invalid settings for the On/Off periods")
    "Invalid settings for the On/Off periods" flowId args
  let (OffPeriod, args) ← readPeriod strtod 0
    (fun d =>
      if d = .W then "Invalid settings for the On/Off periods"
      else "Invalid settings for the Off/Off periods")
    "Invalid settings for the On/Off periods" flowId args
  return (OnPeriod, OffPeriod, args)

end Options

end Ditg
