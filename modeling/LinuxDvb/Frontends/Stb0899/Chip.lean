import LinuxDvb.Framework.Buffer

/-!
# Registers of the STB0899

A register of the DVB-S2 part is reached through a base pointer that is itself written over I2C. The driver writes the
base pointer only if it differs from the one that it sent last, to whatever chip that was.
-/

namespace LinuxDvb.Stb0899

/-! ## The register map -/

inductive ChipMode where
  | subadr8
  | subadr16
  | nosubadr
  | noRSubadr
  deriving DecidableEq

inductive RegSize where
  | reg8
  | reg16
  | reg24
  | reg32
  deriving DecidableEq

def RegSize.bytes : RegSize → Nat
  | .reg8 => 1
  | .reg16 => 2
  | .reg24 => 3
  | .reg32 => 4

inductive RegAccess where
  | wr
  | r
  | w
  | non
  deriving DecidableEq

inductive ChipError where
  | noError
  | invalidRegId
  | invalidFieldId
  | i2cNoAck
  | i2cBurst
  deriving DecidableEq

/-- `STCHIP_Register_t` without the current value. -/
structure Register where
  addr : UInt16
  size : RegSize
  default : UInt32
  access : RegAccess
  pointed : Bool
  pointerRegAddr : UInt16
  baseAdress : UInt32
  deriving DecidableEq

abbrev BasePointer := UInt16 × UInt32

def Register.base (r : Register) : BasePointer := (r.pointerRegAddr, r.baseAdress)

/-- `STCHIP_Field_t` -/
structure Field where
  reg : Nat
  pos : Nat
  bits : Nat
  mask : UInt32
  signed : Bool
  deriving DecidableEq

/-- What `STCHIP_Info_t` holds from the opening of the chip on. A device is an address on an adapter; several handles
may be open for one. -/
structure ChipInfo (H D : Type) where
  device : D
  nbRegs : Int
  nbFields : Int
  regMap : Nat → Register
  fieldMap : Nat → Field
  chipMode : ChipMode
  repeater : Bool
  repeaterHost : Option H
  wrStart : Nat
  wrSize : Nat
  rdStart : Nat
  rdSize : Nat

/-- `FSTB0899_I2CTON` -/
def i2cton : Nat := 137

/-- The handles. The host of a repeater is a demodulator, which has none itself and whose field for the repeater is in
an ordinary register. -/
structure ChipSystem (H D : Type) where
  info : H → ChipInfo H D
  host_repeater : ∀ h g, (info h).repeaterHost = some g → (info g).repeater = false
  host_mode : ∀ h g, (info h).repeaterHost = some g → (info g).chipMode = .subadr16
  host_field : ∀ h g, (info h).repeaterHost = some g →
    ((info g).regMap ((info g).fieldMap i2cton).reg).pointed = false

/-! ## The bus -/

inductive I2cMsg (D : Type) where
  | write (device : D) (buf : List UInt8)
  | read (device : D) (len : Nat)
  deriving DecidableEq

/-- The results of the transfers by their number: whether `i2c_transfer` returns 1, and the bytes of a buffer that is
read into, with what it holds behind them. -/
structure I2cWorld where
  acks : Nat → Bool
  data : Nat → Nat → UInt8

/-- A pointed register is read or written while this is the last base pointer that its chip has acknowledged. -/
structure PointedAccess (D : Type) where
  device : D
  base : BasePointer
  acknowledged : Option BasePointer
  deriving DecidableEq

/-- The values in the register maps, the two static variables, and what the chips have acknowledged. -/
structure Chips (H D : Type) where
  value : H → Nat → UInt32
  chipError : H → ChipError
  lastPointer : UInt16
  lastBaseAdress : UInt32
  pointer : D → Option BasePointer
  transfers : List (I2cMsg D)
  accesses : List (PointedAccess D)

section Chips

variable {H D : Type} [DecidableEq H] [DecidableEq D]

/-- The static variables as they are compiled, and chips that have acknowledged no base pointer yet. -/
def Chips.init (memory : H → Nat → UInt32) (chipError : H → ChipError) : Chips H D where
  value := memory
  chipError := chipError
  lastPointer := 0xffff
  lastBaseAdress := 0xffffffff
  pointer := fun _ => none
  transfers := []
  accesses := []

def Chips.fail (h : H) (e : ChipError) (s : Chips H D) : Chips H D :=
  { s with chipError := fun g => if g = h then e else s.chipError g }

/-- `I2cWrite` or `I2cRead`, and `CHIPERR_I2C_NO_ACK` if it fails. -/
def Chips.transfer (w : I2cWorld) (h : H) (msg : I2cMsg D) (s : Chips H D) : Chips H D :=
  let sent := { s with transfers := s.transfers ++ [msg] }
  if w.acks s.transfers.length then sent else sent.fail h .i2cNoAck

def Chips.setValue (h : H) (i : Nat) (v : UInt32) (s : Chips H D) : Chips H D :=
  { s with value := fun g k => if g = h ∧ k = i then v else s.value g k }

def le32 (v : UInt32) : List UInt8 := (List.range 4).map fun i => (v >>> UInt32.ofNat (8 * i)).toUInt8

/-- What is recorded when `n` registers are read or written at once. -/
def pointedAccesses (c : ChipInfo H D) (first n : Nat) (acknowledged : Option BasePointer) : List (PointedAccess D) :=
  (((List.range n).map fun j => c.regMap (first + j)).filter fun r => r.pointed).map fun r =>
    ⟨c.device, r.base, acknowledged⟩

def Chips.record (c : ChipInfo H D) (first n : Nat) (s : Chips H D) : Chips H D :=
  { s with accesses := s.accesses ++ pointedAccesses c first n (s.pointer c.device) }

def Chips.Misses (r : Register) (s : Chips H D) : Prop :=
  r.pointerRegAddr ≠ s.lastPointer ∨ r.baseAdress ≠ s.lastBaseAdress

instance (r : Register) (s : Chips H D) : Decidable (s.Misses r) := inferInstanceAs (Decidable (_ ∨ _))

/-- The base pointer is sent if it misses. It is taken for the last one also if the chip did not acknowledge it. -/
def writePointer (w : I2cWorld) (h : H) (c : ChipInfo H D) (r : Register) (s : Chips H D) : Chips H D :=
  if s.Misses r then
    { s.transfer w h (.write c.device (be16 r.pointerRegAddr.toNat ++ le32 r.baseAdress)) with
      pointer := fun d => if d = c.device ∧ w.acks s.transfers.length then some r.base else s.pointer d
      lastPointer := r.pointerRegAddr
      lastBaseAdress := r.baseAdress }
  else s

/-- The calls of `RepeaterFn` around a transfer; `rep` is what the function does to its host. -/
def repeating (rep : H → Bool → Chips H D → Chips H D) (c : ChipInfo H D) (state : Bool) (s : Chips H D) : Chips H D :=
  if c.repeater then
    match c.repeaterHost with
    | none => s
    | some g => rep g state s
  else s

def Chips.Accessible (c : ChipInfo H D) (h : H) (first : Int) (n : Nat) (s : Chips H D) : Prop :=
  s.chipError h = .noError ∧ n < 20 ∧ 0 ≤ first ∧ first + n - 1 < c.nbRegs

def Chips.refuse (h : H) (n : Nat) (s : Chips H D) : Chips H D :=
  if s.chipError h ≠ .noError then s else if ¬ n < 20 then s.fail h .i2cBurst else s.fail h .invalidRegId

instance (c : ChipInfo H D) (h : H) (first : Int) (n : Nat) (s : Chips H D) : Decidable (s.Accessible c h first n) :=
  inferInstanceAs (Decidable (_ ∧ _ ∧ _ ∧ _))

def writeSubaddress (mode : ChipMode) (addr : UInt16) : List UInt8 :=
  match mode with
  | .subadr16 => be16 addr.toNat
  | .subadr8 | .noRSubadr => [addr.toUInt8]
  | .nosubadr => []

/-- `ChipSetRegisters` -/
def chipSetRegistersWith (rep : H → Bool → Chips H D → Chips H D) (sys : ChipSystem H D) (w : I2cWorld) (h : H)
    (first : Int) (n : Nat) (s : Chips H D) : Chips H D :=
  let c := sys.info h
  let i := first.toNat
  let r := c.regMap i
  if s.Accessible c h first n then
    if r.pointed then
      let pointed := (writePointer w h c r s).record c i n
      pointed.transfer w h <| .write c.device <|
        be16 r.addr.toNat ++ (List.range n).flatMap fun j => le32 (pointed.value h (i + j))
    else
      let buf := writeSubaddress c.chipMode r.addr ++ (List.range n).map fun j => (s.value h (i + j)).toUInt8
      repeating rep c false <| ((repeating rep c true s).record c i n).transfer w h (.write c.device buf)
  else s.refuse h n

def wordAt (data : Nat → UInt8) (pos : Nat) : Nat → UInt32
  | 0 => 0
  | k + 1 => wordAt data pos k + ((data (pos + k)).toUInt32 <<< UInt32.ofNat (8 * k))

/-- The update of the register map behind a read. Each register takes as many bytes as its size says. -/
def Chips.update (c : ChipInfo H D) (h : H) (first n : Nat) (data : Nat → UInt8) (s : Chips H D) : Chips H D :=
  let pos := fun j => (List.range j).foldl (fun n k => n + (c.regMap (first + k)).size.bytes) 0
  { s with
    value := fun g i =>
      if g = h ∧ first ≤ i ∧ i < first + n then
        if s.chipError h = .noError then wordAt data (pos (i - first)) (c.regMap i).size.bytes else 0xffffffff
      else s.value g i }

def readPointed (w : I2cWorld) (h : H) (c : ChipInfo H D) (addr : UInt16) (n : Nat) (s : Chips H D) : Chips H D :=
  let dum : UInt8 := if addr.toUInt8 &&& 0x08 = 0 then 0x20 else 0
  let dummy := (s.transfer w h (.write c.device [(addr >>> 8).toUInt8, dum])).transfer w h (.read c.device 4)
  (dummy.transfer w h (.write c.device (be16 addr.toNat))).transfer w h (.read c.device (4 * n))

def readBehind (w : I2cWorld) (h : H) (c : ChipInfo H D) (addr : UInt16) (s : Chips H D) : Chips H D :=
  let page := (addr >>> 8).toUInt8
  if page = 0xf6 ∨ page = 0xf2 then
    (s.transfer w h (.write c.device [page, 0xff])).transfer w h (.read c.device 1)
  else s

def sendSubaddress (rep : H → Bool → Chips H D → Chips H D) (w : I2cWorld) (h : H) (c : ChipInfo H D) (addr : UInt16)
    (s : Chips H D) : Chips H D :=
  let send := fun buf => repeating rep c false ((repeating rep c true s).transfer w h (.write c.device buf))
  match c.chipMode with
  | .subadr16 => send (be16 addr.toNat)
  | .subadr8 => send [addr.toUInt8]
  | .nosubadr | .noRSubadr => s

/-- `ChipGetRegisters` -/
def chipGetRegistersWith (rep : H → Bool → Chips H D → Chips H D) (sys : ChipSystem H D) (w : I2cWorld) (h : H)
    (first : Int) (n : Nat) (s : Chips H D) : Chips H D :=
  let c := sys.info h
  let i := first.toNat
  let r := c.regMap i
  if s.Accessible c h first n then
    if r.pointed then
      let pointed := readPointed w h c r.addr n ((writePointer w h c r s).record c i n)
      pointed.update c h i n (w.data (pointed.transfers.length - 1))
    else
      let sent := repeating rep c true (sendSubaddress rep w h c r.addr s)
      let read := repeating rep c false ((sent.record c i n).transfer w h (.read c.device n))
      (readBehind w h c r.addr read).update c h i n (w.data sent.transfers.length)
  else s.refuse h n

/-! ## The repeater -/

def noRepeater : H → Bool → Chips H D → Chips H D := fun _ _ s => s

def chipGetOneRegister (sys : ChipSystem H D) (w : I2cWorld) (h : H) (regId : Nat) (s : Chips H D) : Chips H D :=
  let c := sys.info h
  if c.chipMode ≠ .nosubadr ∧ c.chipMode ≠ .noRSubadr then chipGetRegistersWith noRepeater sys w h regId 1 s
  else chipGetRegistersWith noRepeater sys w h c.rdStart c.rdSize s

def chipSetOneRegister (sys : ChipSystem H D) (w : I2cWorld) (h : H) (regId : Nat) (data : UInt32) (s : Chips H D) :
    Chips H D :=
  let c := sys.info h
  if regId < c.nbRegs then
    if (c.regMap regId).access ≠ .r then
      if c.chipMode ≠ .nosubadr then chipSetRegistersWith noRepeater sys w h regId 1 (s.setValue h regId data)
      else chipSetRegistersWith noRepeater sys w h c.wrStart c.wrSize (s.setValue h regId data)
    else s
  else s.fail h .invalidRegId

/-- The new contents of a register in `ChipSetFieldImage`. -/
def Field.image (f : Field) (v : Int) (old : UInt32) : UInt32 :=
  let value := if f.signed ∧ ¬ v > 0 then v + (1 <<< f.bits : Nat) else v
  (old &&& ~~~f.mask) + (f.mask &&& (UInt32.ofInt value <<< UInt32.ofNat f.pos))

def chipSetFieldImage (sys : ChipSystem H D) (h : H) (fieldId : Nat) (v : Int) (s : Chips H D) : Chips H D :=
  let f := (sys.info h).fieldMap fieldId
  if s.chipError h ≠ .noError then s
  else if fieldId < (sys.info h).nbFields then s.setValue h f.reg (f.image v (s.value h f.reg))
  else s.fail h .invalidFieldId

def chipSetField (sys : ChipSystem H D) (w : I2cWorld) (h : H) (fieldId : Nat) (v : Int) (s : Chips H D) : Chips H D :=
  let f := (sys.info h).fieldMap fieldId
  if s.chipError h ≠ .noError then s
  else if fieldId < (sys.info h).nbFields then
    let image := chipSetFieldImage sys h fieldId v (chipGetOneRegister sys w h f.reg s)
    chipSetOneRegister sys w h f.reg (image.value h f.reg) image
  else s.fail h .invalidFieldId

def stb0899RepeaterFn (sys : ChipSystem H D) (w : I2cWorld) (host : H) (state : Bool) (s : Chips H D) : Chips H D :=
  if state then chipSetField sys w host i2cton 1 s else s

def chipSetRegisters (sys : ChipSystem H D) (w : I2cWorld) : H → Int → Nat → Chips H D → Chips H D :=
  chipSetRegistersWith (stb0899RepeaterFn sys w) sys w

def chipGetRegisters (sys : ChipSystem H D) (w : I2cWorld) : H → Int → Nat → Chips H D → Chips H D :=
  chipGetRegistersWith (stb0899RepeaterFn sys w) sys w

/-! ## Runs -/

inductive ChipOp (H D : Type) where
  /-- The handle is opened, for the first time or again. -/
  | open (h : H)
  | setRegisters (h : H) (first : Int) (n : Nat)
  | getRegisters (h : H) (first : Int) (n : Nat)
  /-- The register map is changed. -/
  | setImage (h : H) (i : Nat) (v : UInt32)
  /-- The chip loses its base pointer. -/
  | powerUp (d : D)

def ChipOp.exec (sys : ChipSystem H D) (w : I2cWorld) (s : Chips H D) : ChipOp H D → Chips H D
  | .open h =>
    { s.fail h .noError with value := fun g i => if g = h then ((sys.info h).regMap i).default else s.value g i }
  | .setRegisters h first n => chipSetRegisters sys w h first n s
  | .getRegisters h first n => chipGetRegisters sys w h first n s
  | .setImage h i v => s.setValue h i v
  | .powerUp d => { s with pointer := fun e => if e = d then none else s.pointer e }

def chipStep (sys : ChipSystem H D) (w : I2cWorld) (s : Chips H D) (op : ChipOp H D) :
    Chips H D × List (PointedAccess D) :=
  let t := op.exec sys w { s with accesses := [] }
  (t, t.accesses)

end Chips

end LinuxDvb.Stb0899
