import LinuxDvb.LibDvbSec.Diseqc

/-!
# SEC commands

`dvbsec_command` goes through a string of commands, each a name with arguments in parentheses. A pointer into
the string with a place where the scan has to stop, the terminating zero or a given end, is modelled by the
bytes up to this place; at the end of the arguments stands a closing parenthesis or the terminating zero, so
the look at the byte there is inside of the string and does not see a comma.
-/

namespace LinuxDvb.Sec

inductive Fault where
  /-- A byte behind the terminating zero is read. -/
  | overread
  /-- An argument is used whose variable was not written for it. -/
  | unparsed
  /-- The string is written to. -/
  | written
  /-- `sscanf` is given an array without a terminating zero. -/
  | unterminated
  /-- The rounds that were given are not enough. -/
  | endless
  deriving DecidableEq

inductive Stop where
  | failed
  | fault (fault : Fault)
  deriving DecidableEq

section Scanners

/-- `skipwhite`: what is behind the white space, `none` for -1. -/
def skipwhite : List UInt8 → Option (List UInt8)
  | [] => none
  | c :: line => if isspace c then skipwhite line else some (c :: line)

/-- `getstringupto`: the bytes before one of the matches or the end, and what is there. -/
def getstringupto (line targets : List UInt8) : List UInt8 × List UInt8 :=
  line.span (· ∉ targets)

/-- A name with its arguments, and the rest of the string; the rest is `none` where the pointer is behind the
terminating zero. -/
structure SecFunction where
  name : List UInt8
  args : List UInt8
  rest : Option (List UInt8)
  deriving DecidableEq

/-- `parsefunction`, `none` for -1. The tests for the end of the string compare the pointers with zero, not
the bytes, so a missing parenthesis is stepped over as if it was there. -/
def parsefunction (line : Option (List UInt8)) : Except Fault (Option SecFunction) := do
  let some line := line | throw .overread
  let some line := skipwhite line | return none
  let (name, line) := getstringupto line (bytes "(")
  let _ :: line := line | throw .overread
  let (args, line) := getstringupto line (bytes ")")
  match line with
  | [] => return some ⟨name, args, none⟩
  | _ :: line => return some ⟨name, args, some line⟩

/-- The part that the scanners of arguments share: an argument up to the comma, and what is behind the
comma. -/
def getarg (args : List UInt8) : Except Stop (List UInt8 × List UInt8) := do
  let some args := skipwhite args | throw .failed
  let (arg, args) := getstringupto args (bytes ",")
  return (arg, args.tail)

/-- `%i` in `sscanf`, for an `int`: the value is that of `strtol`, stored in fewer bits. -/
def sscanfInt (text : List UInt8) : Option Int32 :=
  (scanInt text).map fun n => Int32.ofInt (max (-0x8000000000000000) (min 0x7fffffffffffffff n))

def parseintarg (args : List UInt8) : Except Stop (Int32 × List UInt8) := do
  let (arg, args) ← getarg args
  let some result := sscanfInt (arg.take 31) | throw .failed
  return (result, args)

/-- An empty argument leaves the variable as it was: `none`. -/
def parsechararg (args : List UInt8) : Except Stop (Option UInt8 × List UInt8) := do
  let (arg, args) ← getarg args
  return (arg.head?, args)

/-- `parsefloatarg` terminates the argument in the string instead of its copy of it. The byte is not changed
only if it is the terminating zero of the string. -/
def parsefloatarg (args : List UInt8) (closed : Bool) : Except Stop (List UInt8) := do
  let (arg, _) ← getarg args
  if closed ∨ ch ',' ∈ args ∨ 31 < arg.length then throw (.fault .written)
  throw (.fault .unterminated)

end Scanners

section Names

/-- `!strncasecmp(s, t, n)` -/
def strncaseeq : List UInt8 → List UInt8 → Nat → Bool
  | _, _, 0 => true
  | s, t, n + 1 =>
    let a := s.headD 0
    let b := t.headD 0
    if tolower a ≠ tolower b then false
    else if a = 0 then true
    else strncaseeq s.tail t.tail n

def toupper (c : UInt8) : UInt8 := if 97 ≤ c ∧ c ≤ 122 then c - 32 else c

/-- The use of a variable that `parsechararg` may have written. -/
def used (arg : Option UInt8) : Except Stop UInt8 :=
  match arg with
  | some c => .ok c
  | none => .error (.fault .unparsed)

def parseSwitch (c : UInt8) : DiseqcSwitch :=
  if toupper c = ch 'A' then .a else if toupper c = ch 'B' then .b else .unchanged

def parseOscillator (c : UInt8) : DiseqcOscillator :=
  if toupper c = ch 'H' then .high else if toupper c = ch 'L' then .low else .unchanged

def parsePolarization (c : UInt8) : DiseqcPolarization :=
  if toupper c = ch 'H' then .h
  else if toupper c = ch 'V' then .v
  else if toupper c = ch 'L' then .l
  else if toupper c = ch 'R' then .r
  else .invalid

/-- The byte of a message that an `int` is stored in. -/
def messageByte (n : Int32) : UInt8 := n.toUInt32.toUInt8

end Names

section Execute

-- what `usleep` is given for a number of milliseconds when the product overflows
variable (overflowed : Int32 → UInt32)

/-- `usleep(iarg * 1000)` -/
def waitMs (iarg : Int32) : List FeOp :=
  if iarg = 0 then []
  else if -2147483648 ≤ iarg.toInt * 1000 ∧ iarg.toInt * 1000 < 2147483648 then
    [.usleep (iarg * 1000).toUInt32]
  else [.usleep (overflowed iarg)]

/-- The body of the loop of `dvbsec_command` for a function: the operations. -/
def execute (f : SecFunction) : Except Stop (List FeOp) :=
  let named (name : String) : Bool := strncaseeq f.name (bytes name) f.name.length
  let args := f.args
  if named "tone" then do
    let (iarg, _) ← parsechararg args
    return [.set22kTone (toupper (← used iarg) = ch 'B')]
  else if named "voltage" then do
    let (iarg, _) ← parseintarg args
    if iarg = 0 then return [.setVoltage .off]
    else if iarg = 13 then return [.setVoltage .v13]
    else if iarg = 18 then return [.setVoltage .v18]
    else throw .failed
  else if named "toneburst" then do
    let (iarg, _) ← parsechararg args
    return [.setToneDataBurst (if toupper (← used iarg) = ch 'B' then .b else .a)]
  else if named "highvoltage" then do
    let (iarg, _) ← parseintarg args
    return [.setHighLnbVoltage (iarg ≠ 0)]
  else if named "dishnetworks" then do
    let (iarg, _) ← parseintarg args
    return [.doDishnetworksLegacyCommand iarg.toUInt32]
  else if named "wait" then do
    let (iarg, _) ← parseintarg args
    return waitMs overflowed iarg
  else if named "Dreset" then do
    let (address, args) ← parseintarg args
    let (iarg, _) ← parseintarg args
    return diseqcSetReset (messageByte address) (if iarg ≠ 0 then .reset else .clear)
  else if named "Dpower" then do
    let (address, args) ← parseintarg args
    let (iarg, _) ← parseintarg args
    return diseqcSetPower (messageByte address) (if iarg ≠ 0 then .on else .off)
  else if named "Dcommitted" then do
    let (address, args) ← parseintarg args
    let (iarg, args) ← parsechararg args
    let (iarg2, args) ← parsechararg args
    let (iarg3, args) ← parsechararg args
    let (iarg4, _) ← parsechararg args
    return diseqcSetCommittedSwitches (messageByte address) (parseOscillator (← used iarg))
      (parsePolarization (← used iarg2)) (parseSwitch (← used iarg3)) (parseSwitch (← used iarg4))
  else if named "Duncommitted" then do
    -- the address is scanned as a character
    let (address, args) ← parsechararg args
    let (iarg, args) ← parsechararg args
    let (iarg2, args) ← parsechararg args
    let (iarg3, args) ← parsechararg args
    let (iarg4, _) ← parsechararg args
    return diseqcSetUncommittedSwitches (← used address) (parseSwitch (← used iarg))
      (parseSwitch (← used iarg2)) (parseSwitch (← used iarg3)) (parseSwitch (← used iarg4))
  else if named "Dfrequency" then do
    let (address, args) ← parseintarg args
    let (iarg, _) ← parseintarg args
    return diseqcSetFrequency (messageByte address) iarg.toUInt32
  else if named "Dchannel" then do
    let (address, args) ← parseintarg args
    let (iarg, _) ← parseintarg args
    return diseqcSetChannel (messageByte address) iarg.toUInt32.toUInt16
  else if named "Dgotopreset" then do
    let (address, args) ← parseintarg args
    let (iarg, _) ← parseintarg args
    return diseqcGotoSatposPreset (messageByte address) (messageByte iarg)
  else if named "Dgotobearing" then do
    let (_, args) ← parseintarg args
    let _ ← parsefloatarg args f.rest.isSome
    return []
  else throw .failed

/-- The loop of `dvbsec_command`: the return value and the operations. -/
def commandLoop : Nat → Option (List UInt8) → Except Fault (Int × List FeOp)
  | 0, _ => .error .endless
  | rounds + 1, line => do
    match ← parsefunction line with
    | none => return (0, [])
    | some f =>
      match execute overflowed f with
      | .error .failed => return (-1, [])
      | .error (.fault fault) => throw fault
      | .ok ops =>
        let (ret, others) ← commandLoop rounds f.rest
        return (ret, ops ++ others)

/-- `dvbsec_command(fe, command)`. A round takes at least one byte of the string. -/
def dvbsecCommand (command : List UInt8) : Except Fault (Int × List FeOp) :=
  commandLoop overflowed (command.length + 2) (some command)

end Execute

end LinuxDvb.Sec
