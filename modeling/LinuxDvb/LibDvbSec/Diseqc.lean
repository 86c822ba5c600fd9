import LinuxDvb.LibDvbSec.Cfg

/-!
# Operations on the frontend

`dvbsec_api.c`: the DiSEqC commands as the messages that are sent, and the standard sequence. What a frontend
returns for an operation is not looked at here, so a function is modelled by the operations that it asks for.
-/

namespace LinuxDvb.Sec

/-- `enum dvbfe_sec_voltage` -/
inductive SecVoltage where
  | v13 | v18 | off
  deriving DecidableEq

/-- `enum dvbfe_sec_mini_cmd` -/
inductive SecMini where
  | a | b
  deriving DecidableEq

/-- The calls of the frontend library, and `usleep`. -/
inductive FeOp where
  | set22kTone (on : Bool)
  | setToneDataBurst (minicmd : SecMini)
  | setVoltage (voltage : SecVoltage)
  | setHighLnbVoltage (on : Bool)
  | doDishnetworksLegacyCommand (cmd : UInt32)
  | doDiseqcCommand (data : List UInt8)
  | usleep (usec : UInt32)
  deriving DecidableEq

inductive DiseqcReset where
  | reset | clear
  deriving DecidableEq

inductive DiseqcPower where
  | off | on
  deriving DecidableEq

inductive DiseqcOscillator where
  | unchanged | low | high
  deriving DecidableEq

/-- `invalid` is a value that the enumeration does not have. -/
inductive DiseqcPolarization where
  | unchanged | h | v | l | r | invalid
  deriving DecidableEq

inductive DiseqcSwitch where
  | unchanged | a | b
  deriving DecidableEq

def diseqcFramingMasterNoreply : UInt8 := 0xe0

def diseqcAddressAnyDevice : UInt8 := 0x00

section Messages

variable (address : UInt8)

def diseqcSetReset (state : DiseqcReset) : List FeOp :=
  [.doDiseqcCommand [diseqcFramingMasterNoreply, address, if state = .clear then 0x01 else 0x00]]

def diseqcSetPower (state : DiseqcPower) : List FeOp :=
  [.doDiseqcCommand [diseqcFramingMasterNoreply, address, if state = .on then 0x03 else 0x02]]

def oscillatorBits : DiseqcOscillator → UInt8
  | .low => 0x10
  | .high => 0x11
  | .unchanged => 0

def polarizationBits : DiseqcPolarization → UInt8
  | .v | .r => 0x20
  | .h | .l => 0x22
  | _ => 0

def switchBits (a b : UInt8) : DiseqcSwitch → UInt8
  | .a => a
  | .b => b
  | .unchanged => 0

def sendSwitches (cmd data : UInt8) : List FeOp :=
  if data = 0 then [] else [.doDiseqcCommand [diseqcFramingMasterNoreply, address, cmd, data]]

def diseqcSetCommittedSwitches (oscillator : DiseqcOscillator) (polarization : DiseqcPolarization)
    (satPos switchOption : DiseqcSwitch) : List FeOp :=
  sendSwitches address 0x38 (oscillatorBits oscillator ||| polarizationBits polarization |||
    switchBits 0x40 0x44 satPos ||| switchBits 0x80 0x88 switchOption)

def diseqcSetUncommittedSwitches (s₁ s₂ s₃ s₄ : DiseqcSwitch) : List FeOp :=
  sendSwitches address 0x39 (switchBits 0x10 0x11 s₁ ||| switchBits 0x20 0x22 s₂ |||
    switchBits 0x40 0x44 s₃ ||| switchBits 0x80 0x88 s₄)

/-- The loop of `dvbsec_diseqc_set_frequency` over the digits, from the position of a digit on. -/
def bcdFrom : Nat → UInt32 → UInt32 → UInt32 → UInt32
  | 0, _, _, bcdval => bcdval
  | rounds + 1, i, frequency, bcdval =>
    bcdFrom rounds (i + 4) (frequency / 10) (bcdval ||| ((frequency % 10) <<< i))

def diseqcSetFrequency (frequency : UInt32) : List FeOp :=
  let bcdval := bcdFrom 7 0 frequency 0
  let data := [diseqcFramingMasterNoreply, address, 0x58, (bcdval >>> 16).toUInt8, (bcdval >>> 8).toUInt8]
  [.doDiseqcCommand (if bcdval &&& 0xff ≠ 0 then data ++ [bcdval.toUInt8] else data)]

def diseqcSetChannel (channel : UInt16) : List FeOp :=
  [.doDiseqcCommand [diseqcFramingMasterNoreply, address, 0x59, (channel >>> 8).toUInt8, channel.toUInt8]]

def diseqcGotoSatposPreset (id : UInt8) : List FeOp :=
  [.doDiseqcCommand [diseqcFramingMasterNoreply, address, 0x6b, id]]

end Messages

/-- `dvbsec_std_sequence`: the return value, `none` for `-EINVAL` and 0 otherwise, and the operations. -/
def dvbsecStdSequence (oscillator : DiseqcOscillator) (polarization : DiseqcPolarization)
    (satPos switchOption : DiseqcSwitch) : Option Unit × List FeOp :=
  let voltage : Option SecVoltage :=
    match polarization with
    | .v | .r => some .v13
    | .h | .l => some .v18
    | _ => none
  match voltage with
  | none => (none, [.set22kTone false])
  | some voltage =>
    (some (), [.set22kTone false, .setVoltage voltage] ++
      diseqcSetCommittedSwitches diseqcAddressAnyDevice oscillator polarization satPos switchOption ++
      [.usleep 15000] ++
      (match satPos with
        | .a => [.setToneDataBurst .a]
        | .b => [.setToneDataBurst .b]
        | .unchanged => []) ++
      (if satPos ≠ .unchanged then [.usleep 15000] else []) ++
      (match oscillator with
        | .low => [.set22kTone false]
        | .high => [.set22kTone true]
        | .unchanged => []))

end LinuxDvb.Sec
