import LinuxDvb.Framework.Loop
import LinuxDvb.Frontends.Stb0899.Fields

/-!
# Sending a DiSEqC message

Each byte of a message waits until a flag of the chip is clear. A register that could not be read has all bits set, and
an error stays recorded, so the wait behind a failed transfer does not end.
-/

namespace LinuxDvb.Stb0899

/-! ## The code -/

/-- `RSTB0899_TDISCNTRL1` -/
def tdiscntrl1 : Nat := 1

/-- `RSTB0899_DISFIFO` -/
def disfifo : Nat := 6

/-- `RSTB0899_DISSTATUS` -/
def disstatus : Nat := 7

/-- `FSTB0899_DISPRECHARGE` -/
def disprecharge : Nat := 6

/-- `FSTB0899_FIFOPARITYFAIL` -/
def fifoparityfail : Nat := 31

/-- A register that `STB0899_Init` adds for DiSEqC. -/
structure DiseqcRegister (r : Register) (addr : UInt16) : Prop where
  addr : r.addr = addr
  size : r.size = .reg8
  access : r.access = .wr
  pointed : r.pointed = false

/-- The chip as far as `STB0899_Init` opens it for DiSEqC. -/
structure DiseqcChip {H D : Type} (c : ChipInfo H D) : Prop where
  nbRegs : c.nbRegs = 452
  nbFields : c.nbFields = 1264
  mode : c.chipMode = .subadr16
  repeater : c.repeater = false
  control : DiseqcRegister (c.regMap tdiscntrl1) 0xf0a0
  fifo : DiseqcRegister (c.regMap disfifo) 0xf0a7
  status : DiseqcRegister (c.regMap disstatus) 0xf0a8
  precharge : c.fieldMap disprecharge = .added tdiscntrl1 2 1 false
  full : c.fieldMap fifoparityfail = .added disstatus 6 1 false

section Driver

variable {H D : Type} [DecidableEq H] [DecidableEq D] (sys : ChipSystem H D) (w : I2cWorld)

def fifoPass (h : H) (_fuel : Nat) (s : Chips H D) : Flow (Chips H D) :=
  let (full, s) := chipGetField sys w h fifoparityfail s
  if full ≠ 0 then .again s else .leave s

def waitFifo (h : H) (fuel : Nat) (s : Chips H D) : Option (Chips H D) :=
  runLoop (fun _ => True) (fifoPass sys w h) fuel s

/-- The loop of `FE_STB0899_DiseqcSend`. -/
def sendBytes (h : H) (fuel : Nat) : List UInt8 → Chips H D → Option (Chips H D)
  | [], s => some s
  | b :: data, s => (waitFifo sys w h fuel s).bind fun s =>
    sendBytes h fuel data (chipSetOneRegister sys w h disfifo b.toUInt32 s)

/-- `FE_STB0899_DiseqcSend`, with the demodulator of its handle; without a handle it does nothing. -/
def diseqcSend (handle : Option H) (fuel : Nat) (data : List UInt8) (s : Chips H D) : Option (Chips H D) :=
  match handle with
  | none => some s
  | some h => (sendBytes sys w h fuel data (chipSetField sys w h disprecharge 1 s)).map
      (chipSetField sys w h disprecharge 0)

end Driver

/-! ## When it ends -/

def FlagClear (w : I2cWorld) (n : Nat) : Prop := (Field.added disstatus 6 1 false).extract (w.data n 0).toUInt32 = 0

instance (w : I2cWorld) (n : Nat) : Decidable (FlagClear w n) := inferInstanceAs (Decidable (_ = _))

/-- The wait that begins with the transfer `n` finds the flag clear in its reading `k`, on a bus that works. -/
def FirstClear (w : I2cWorld) (n k : Nat) : Prop :=
  FlagClear w (n + 2 * k + 1) ∧ ∀ j < k, ¬ FlagClear w (n + 2 * j + 1)

def ClearsEventually (w : I2cWorld) : Prop := ∀ n, ∃ k, FlagClear w (n + 2 * k + 1)

def AckedUntilSent (w : I2cWorld) : Nat → Nat → Prop
  | 0, _ => True
  | bytes + 1, n => ∀ k, FirstClear w n k → (∀ i < 2 * k + 2, w.acks (n + i) = true) ∧
    (bytes ≠ 0 → w.acks (n + 2 * k + 2) = true ∧ AckedUntilSent w bytes (n + 2 * k + 3))

def AckedUntilEnd {H D : Type} (w : I2cWorld) (h : H) (data : List UInt8) (s : Chips H D) : Prop :=
  data = [] ∨ (s.chipError h = .noError ∧ (∀ i < 3, w.acks (s.transfers.length + i) = true) ∧
    AckedUntilSent w data.length (s.transfers.length + 3))

/-! ## One access -/

section Access

variable {H D : Type} {sys : ChipSystem H D} {w : I2cWorld} {h : H} {s : Chips H D} {reg : Nat} {addr : UInt16}

theorem repeating_of_none {rep : H → Bool → Chips H D → Chips H D} {c : ChipInfo H D} (hc : c.repeater = false)
    (state : Bool) (s : Chips H D) : repeating rep c state s = s := by
  rw [repeating,hc,if_neg Bool.false_ne_true]

theorem DiseqcChip.accessible (hchip : DiseqcChip (sys.info h)) (hlt : reg < 452) (herror : s.chipError h = .noError) :
    s.Accessible (sys.info h) h reg 1 := by
  refine ⟨herror,by decide,by omega,?_⟩
  rw [hchip.nbRegs]
  omega

variable [DecidableEq H]

theorem transfer_length (msg : I2cMsg D) : (s.transfer w h msg).transfers.length = s.transfers.length + 1 := by
  rw [Chips.transfer]
  split
  · exact length_append
  · exact length_append

theorem transfer_noError (msg : I2cMsg D) : (s.transfer w h msg).chipError h = .noError ↔
      s.chipError h = .noError ∧ w.acks s.transfers.length = true := by
  rw [Chips.transfer]
  split
  case isTrue hack => exact ⟨fun herror => ⟨herror,hack⟩,fun hboth => hboth.1⟩
  case isFalse hnak =>
    refine ⟨fun herror => ?_,fun hboth => absurd hboth.2 hnak⟩
    have hfail : (Chips.fail h .i2cNoAck { s with transfers := s.transfers ++ [msg] }).chipError h = .i2cNoAck :=
      if_pos rfl
    rw [hfail] at herror
    cases herror

theorem update_value (c : ChipInfo H D) (data : Nat → UInt8) (s : Chips H D) (hsize : (c.regMap reg).size = .reg8)
    (herror : s.chipError h = .noError) : (s.update c h reg 1 data).value h reg = (data 0).toUInt32 := by
  have hinside : h = h ∧ reg ≤ reg ∧ reg < reg + 1 := ⟨rfl,Nat.le_refl reg,Nat.lt_succ_self reg⟩
  have hvalue : (s.update c h reg 1 data).value h reg = wordAt data 0 (c.regMap reg).size.bytes := by
    rw [Chips.update]
    dsimp only
    rw [if_pos hinside,if_pos herror,Nat.sub_self]
    rfl
  rw [hvalue,hsize]
  exact (UInt32.zero_add _).trans (UInt32.shiftLeft_zero)

variable [DecidableEq D]

theorem getOneRegister_of_error (hmode : (sys.info h).chipMode = .subadr16) (herror : s.chipError h ≠ .noError) :
    chipGetOneRegister sys w h reg s = s := by
  have hmodes : (sys.info h).chipMode ≠ .nosubadr ∧ (sys.info h).chipMode ≠ .noRSubadr := by
    rw [hmode]
    exact ⟨by decide,by decide⟩
  rw [chipGetOneRegister,if_pos hmodes,chipGetRegistersWith,if_neg fun haccess => herror haccess.1,Chips.refuse,
    if_pos herror]

structure ReadBack (w : I2cWorld) (h : H) (reg : Nat) (s t : Chips H D) : Prop where
  length : t.transfers.length = s.transfers.length + 2
  noError : t.chipError h = .noError ↔
    w.acks s.transfers.length = true ∧ w.acks (s.transfers.length + 1) = true
  value : t.chipError h = .noError → t.value h reg = (w.data (s.transfers.length + 1) 0).toUInt32

theorem getOneRegister_readBack (hchip : DiseqcChip (sys.info h)) (hreg : DiseqcRegister ((sys.info h).regMap reg) addr)
    (hpage : (addr >>> 8).toUInt8 = 0xf0) (hlt : reg < 452) (herror : s.chipError h = .noError) :
    ReadBack w h reg s (chipGetOneRegister sys w h reg s) := by
  have hmodes : (sys.info h).chipMode ≠ .nosubadr ∧ (sys.info h).chipMode ≠ .noRSubadr := by
    rw [hchip.mode]
    exact ⟨by decide,by decide⟩
  have hplain : ¬ ((sys.info h).regMap ((reg : Int).toNat)).pointed = true := by
    rw [Int.toNat_natCast,hreg.pointed]
    exact Bool.false_ne_true
  have hpages : ¬ ((addr >>> 8).toUInt8 = 0xf6 ∨ (addr >>> 8).toUInt8 = 0xf2) := by
    rw [hpage]
    decide
  have hread : chipGetOneRegister sys w h reg s =
      (((s.transfer w h (.write (sys.info h).device (be16 addr.toNat))).record (sys.info h) reg 1).transfer w h
        (.read (sys.info h).device 1)).update (sys.info h) h reg 1
          (w.data (s.transfer w h (.write (sys.info h).device (be16 addr.toNat))).transfers.length) := by
    rw [chipGetOneRegister,if_pos hmodes,chipGetRegistersWith,if_pos (hchip.accessible hlt herror),if_neg hplain]
    simp only [repeating_of_none hchip.repeater,sendSubaddress,hchip.mode,Int.toNat_natCast,hreg.addr,readBehind,
      if_neg hpages]
  rw [hread]
  generalize hsent : s.transfer w h (.write (sys.info h).device (be16 addr.toNat)) = sent
  have hlength : sent.transfers.length = s.transfers.length + 1 := by rw [← hsent,transfer_length]
  have hrecord : (sent.record (sys.info h) reg 1).transfers.length = s.transfers.length + 1 := hlength
  have hsentError : (sent.record (sys.info h) reg 1).chipError h = .noError ↔ w.acks s.transfers.length = true := by
    have hiff := transfer_noError (w := w) (h := h) (s := s) (.write (sys.info h).device (be16 addr.toNat))
    rw [hsent,and_iff_right herror] at hiff
    exact hiff
  refine ⟨?_,?_,fun hok => ?_⟩
  · change (Chips.transfer w h _ (sent.record (sys.info h) reg 1)).transfers.length = _
    rw [transfer_length,hrecord]
  · change (Chips.transfer w h _ (sent.record (sys.info h) reg 1)).chipError h = .noError ↔ _
    rw [transfer_noError,hsentError,hrecord]
  · have hreadOk : (Chips.transfer w h (.read (sys.info h).device 1)
        (sent.record (sys.info h) reg 1)).chipError h = .noError := hok
    rw [update_value _ _ _ hreg.size hreadOk,hlength]

/-- An ordinary register is written with one transfer, and not behind an error. -/
structure Written (w : I2cWorld) (h : H) (s t : Chips H D) : Prop where
  length : t.transfers.length = s.transfers.length + 1
  noError : t.chipError h = .noError ↔ w.acks s.transfers.length = true

theorem setOneRegister_written (hchip : DiseqcChip (sys.info h)) (hreg : DiseqcRegister ((sys.info h).regMap reg) addr)
    (hlt : reg < 452) (data : UInt32) (herror : s.chipError h = .noError) :
    Written w h s (chipSetOneRegister sys w h reg data s) := by
  have hregs : (reg : Int) < (sys.info h).nbRegs := by
    rw [hchip.nbRegs]
    omega
  have haccess : ((sys.info h).regMap reg).access ≠ .r := by
    rw [hreg.access]
    decide
  have hmode : (sys.info h).chipMode ≠ .nosubadr := by
    rw [hchip.mode]
    decide
  have hplain : ¬ ((sys.info h).regMap ((reg : Int).toNat)).pointed = true := by
    rw [Int.toNat_natCast,hreg.pointed]
    exact Bool.false_ne_true
  have herror' : (s.setValue h reg data).chipError h = .noError := herror
  rw [chipSetOneRegister,if_pos hregs,if_pos haccess,if_pos hmode,chipSetRegistersWith,
    if_pos (hchip.accessible hlt herror'),if_neg hplain,repeating_of_none hchip.repeater,
    repeating_of_none hchip.repeater]
  constructor
  · rw [transfer_length]
    rfl
  · rw [transfer_noError]
    exact and_iff_right herror

theorem chipError_setOneRegister (hregs : (reg : Int) < (sys.info h).nbRegs) (data : UInt32)
    (herror : s.chipError h ≠ .noError) : (chipSetOneRegister sys w h reg data s).chipError h ≠ .noError := by
  have herror' : (s.setValue h reg data).chipError h ≠ .noError := herror
  have hset (first : Int) (n : Nat) :
      (chipSetRegistersWith noRepeater sys w h first n (s.setValue h reg data)).chipError h ≠ .noError := by
    rw [chipSetRegistersWith,if_neg fun haccess => herror' haccess.1,Chips.refuse,if_pos herror']
    exact herror'
  rw [chipSetOneRegister,if_pos hregs]
  split
  · split
    · exact hset _ _
    · exact hset _ _
  · exact herror

theorem setPrecharge_noError (hchip : DiseqcChip (sys.info h)) (v : Int) (herror : s.chipError h = .noError) :
    ((chipSetField sys w h disprecharge v s).chipError h = .noError ↔ ∀ i < 3, w.acks (s.transfers.length + i) = true) ∧
      ((chipSetField sys w h disprecharge v s).chipError h = .noError →
        (chipSetField sys w h disprecharge v s).transfers.length = s.transfers.length + 3) := by
  have hfields : ((disprecharge : Nat) : Int) < (sys.info h).nbFields := by
    rw [hchip.nbFields]
    decide
  have hreg : ((sys.info h).fieldMap disprecharge).reg = tdiscntrl1 := by
    rw [hchip.precharge]
    rfl
  have hread := getOneRegister_readBack (w := w) hchip hchip.control (by decide) (by decide) herror
  have hthree : (∀ i < 3, w.acks (s.transfers.length + i) = true) ↔
      (w.acks s.transfers.length = true ∧ w.acks (s.transfers.length + 1) = true) ∧
        w.acks (s.transfers.length + 2) = true := by
    constructor
    · exact fun h => ⟨⟨h 0 (by decide),h 1 (by decide)⟩,h 2 (by decide)⟩
    · rintro ⟨⟨h0,h1⟩,h2⟩ i hi
      rcases (by omega : i = 0 ∨ i = 1 ∨ i = 2) with rfl | rfl | rfl
      · exact h0
      · exact h1
      · exact h2
  rw [chipSetField,if_neg (not_not_intro herror),if_pos hfields,hreg]
  generalize chipGetOneRegister sys w h tdiscntrl1 s = t at hread
  by_cases hok : t.chipError h = .noError
  · rw [chipSetFieldImage,if_neg (not_not_intro hok),if_pos hfields]
    generalize himage : t.setValue h _ _ = image
    have hlength : image.transfers.length = s.transfers.length + 2 := by
      rw [← himage]
      exact hread.length
    have himageError : image.chipError h = .noError := by
      rw [← himage]
      exact hok
    have hwritten := setOneRegister_written (w := w) hchip hchip.control (by decide) (image.value h tdiscntrl1)
      himageError
    rw [hwritten.noError,hwritten.length,hlength,hthree]
    exact ⟨(and_iff_right (hread.noError.mp hok)).symm,fun _ => rfl⟩
  · rw [chipSetFieldImage,if_pos hok]
    have hregs : ((tdiscntrl1 : Nat) : Int) < (sys.info h).nbRegs := by
      rw [hchip.nbRegs]
      decide
    have hstays := chipError_setOneRegister (w := w) hregs (t.value h tdiscntrl1) hok
    refine ⟨⟨fun h' => absurd h' hstays,fun hacks => ?_⟩,fun h' => absurd h' hstays⟩
    exact absurd (hread.noError.mpr (hthree.mp hacks).1) hok

end Access

/-! ## The wait -/

theorem FirstClear.next {w : I2cWorld} {n k : Nat} (hclear : FirstClear w n (k + 1)) : FirstClear w (n + 2) k := by
  have hshift (j : Nat) : n + 2 + 2 * j + 1 = n + 2 * (j + 1) + 1 := by omega
  constructor
  · rw [hshift]
    exact hclear.1
  · intro j hj
    rw [hshift]
    exact hclear.2 (j + 1) (Nat.succ_lt_succ hj)

theorem ClearsEventually.firstClear {w : I2cWorld} (hclears : ClearsEventually w) (n : Nat) :
    ∃ k, FirstClear w n k := by
  have hex := hclears n
  exact ⟨Nat.find hex,Nat.find_spec hex,fun j hj => Nat.find_min hex hj⟩

section Wait

variable {H D : Type} [DecidableEq H] [DecidableEq D] {sys : ChipSystem H D} {w : I2cWorld} {h : H} {s t : Chips H D}
  {fuel fuel' n k : Nat}

theorem flag_of_error : (Field.added disstatus 6 1 false).extract 0xffffffff ≠ 0 := by
  have hbit : ((0xffffffff : UInt32) &&& createMask 1 6) >>> UInt32.ofNat 6 = 1 := by decide
  have hlt : (1 : UInt32).toNat < 2147483648 := by decide
  have hmask : (Field.added disstatus 6 1 false).mask = createMask 1 6 := rfl
  have hpos : (Field.added disstatus 6 1 false).pos = 6 := rfl
  rw [Field.extract_unsigned rfl,hmask,hpos,hbit,asInt_of_lt hlt]
  decide

theorem getFlag_of_error (hchip : DiseqcChip (sys.info h)) (herror : s.chipError h ≠ .noError) :
    (chipGetField sys w h fifoparityfail s).1 ≠ 0 ∧ (chipGetField sys w h fifoparityfail s).2 = s := by
  have hfields : ((fifoparityfail : Nat) : Int) < (sys.info h).nbFields := by
    rw [hchip.nbFields]
    decide
  have himage : chipGetField sys w h fifoparityfail s = ((Field.added disstatus 6 1 false).extract 0xffffffff, s) := by
    rw [chipGetField,if_pos hfields,getOneRegister_of_error hchip.mode herror,chipGetFieldImage,if_pos hfields,
      if_neg herror,hchip.full]
  rw [himage]
  dsimp only
  exact ⟨flag_of_error,rfl⟩

theorem getFlag_eq_zero_iff (hchip : DiseqcChip (sys.info h)) (herror : s.chipError h = .noError) :
    ReadBack w h disstatus s (chipGetField sys w h fifoparityfail s).2 ∧
      ((chipGetField sys w h fifoparityfail s).1 = 0 ↔
        (w.acks s.transfers.length = true ∧ w.acks (s.transfers.length + 1) = true) ∧
          FlagClear w (s.transfers.length + 1)) := by
  have hfields : ((fifoparityfail : Nat) : Int) < (sys.info h).nbFields := by
    rw [hchip.nbFields]
    decide
  have hreg : ((sys.info h).fieldMap fifoparityfail).reg = disstatus := by
    rw [hchip.full]
    rfl
  have hread := getOneRegister_readBack (w := w) hchip hchip.status (by decide) (by decide) herror
  rw [chipGetField,if_pos hfields,hreg]
  generalize chipGetOneRegister sys w h disstatus s = t at hread
  rw [chipGetFieldImage,if_pos hfields,hreg,hchip.full]
  refine ⟨hread,?_⟩
  by_cases hok : t.chipError h = .noError
  · rw [if_pos hok,hread.value hok,FlagClear,and_iff_right (hread.noError.mp hok)]
  · rw [if_neg hok]
    dsimp only
    exact ⟨fun hzero => absurd hzero flag_of_error,fun hboth => absurd (hread.noError.mpr hboth.1) hok⟩

theorem waitFifo_succ : waitFifo sys w h (fuel + 1) s =
      if (chipGetField sys w h fifoparityfail s).1 = 0 then some (chipGetField sys w h fifoparityfail s).2
      else waitFifo sys w h fuel (chipGetField sys w h fifoparityfail s).2 := by
  have hpass : fifoPass sys w h fuel s =
      if (chipGetField sys w h fifoparityfail s).1 ≠ 0 then .again (chipGetField sys w h fifoparityfail s).2
      else .leave (chipGetField sys w h fifoparityfail s).2 := by
    rw [fifoPass]
  rw [waitFifo,runLoop,if_pos trivial,hpass]
  by_cases hclear : (chipGetField sys w h fifoparityfail s).1 = 0
  · rw [if_pos hclear,if_neg (not_not_intro hclear)]
  · rw [if_neg hclear,if_pos hclear,waitFifo]

theorem waitFifo_mono (hle : fuel ≤ fuel') (hwait : waitFifo sys w h fuel s = some t) :
    waitFifo sys w h fuel' s = some t :=
  runLoop_mono (fun _ _ _ _ _ => rfl) hle hwait

theorem waitFifo_of_error (hchip : DiseqcChip (sys.info h)) (herror : s.chipError h ≠ .noError) :
    waitFifo sys w h fuel s = none := by
  obtain ⟨hset,hsame⟩ := getFlag_of_error (w := w) hchip herror
  induction fuel with
  | zero => rfl
  | succ fuel ih => rw [waitFifo_succ,if_neg hset,hsame,ih]

theorem waitFifo_ends (hchip : DiseqcChip (sys.info h)) (hclear : FirstClear w s.transfers.length k)
    (hacks : ∀ i < 2 * k + 2, w.acks (s.transfers.length + i) = true) (herror : s.chipError h = .noError) :
    ∃ t, waitFifo sys w h (k + 1) s = some t ∧ t.chipError h = .noError ∧
      t.transfers.length = s.transfers.length + 2 * k + 2 := by
  induction k generalizing s with
  | zero =>
    obtain ⟨hread,hzero⟩ := getFlag_eq_zero_iff (w := w) hchip herror
    have hboth : w.acks s.transfers.length = true ∧ w.acks (s.transfers.length + 1) = true :=
      ⟨hacks 0 (by omega),hacks 1 (by omega)⟩
    rw [waitFifo_succ,if_pos (hzero.mpr ⟨hboth,hclear.1⟩)]
    exact ⟨_,rfl,hread.noError.mpr hboth,hread.length⟩
  | succ k ih =>
    obtain ⟨hread,hzero⟩ := getFlag_eq_zero_iff (w := w) hchip herror
    have hset : ¬ (chipGetField sys w h fifoparityfail s).1 = 0 := fun h0 =>
      hclear.2 0 (Nat.zero_lt_succ k) (hzero.mp h0).2
    have hok := hread.noError.mpr ⟨hacks 0 (by omega),hacks 1 (by omega)⟩
    have hlength := hread.length
    rw [waitFifo_succ,if_neg hset]
    generalize (chipGetField sys w h fifoparityfail s).2 = r at hok hlength
    have hrest : FirstClear w r.transfers.length k := hlength ▸ hclear.next
    have hacks' : ∀ i < 2 * k + 2, w.acks (r.transfers.length + i) = true := by
      intro i hi
      rw [hlength,Nat.add_assoc]
      exact hacks (2 + i) (by omega)
    obtain ⟨t,hwait,herror',hlength'⟩ := ih hrest hacks' hok
    exact ⟨t,hwait,herror',by omega⟩

theorem acks_of_waitFifo (hchip : DiseqcChip (sys.info h)) (hclear : FirstClear w s.transfers.length k)
    (herror : s.chipError h = .noError) (hwait : waitFifo sys w h fuel s = some t) :
    ∀ i < 2 * k + 2, w.acks (s.transfers.length + i) = true := by
  induction k generalizing s fuel with
  | zero =>
    obtain ⟨hread,hzero⟩ := getFlag_eq_zero_iff (w := w) hchip herror
    have hboth : w.acks s.transfers.length = true ∧ w.acks (s.transfers.length + 1) = true := by
      by_contra hfailed
      have herror' : (chipGetField sys w h fifoparityfail s).2.chipError h ≠ .noError :=
        fun hok => hfailed (hread.noError.mp hok)
      cases fuel with
      | zero => cases hwait
      | succ fuel =>
        rw [waitFifo_succ,if_neg fun h0 => hfailed (hzero.mp h0).1,waitFifo_of_error hchip herror'] at hwait
        cases hwait
    intro i hi
    rcases (by omega : i = 0 ∨ i = 1) with rfl | rfl
    · exact hboth.1
    · exact hboth.2
  | succ k ih =>
    obtain ⟨hread,hzero⟩ := getFlag_eq_zero_iff (w := w) hchip herror
    have hset : ¬ (chipGetField sys w h fifoparityfail s).1 = 0 := fun h0 =>
      hclear.2 0 (Nat.zero_lt_succ k) (hzero.mp h0).2
    cases fuel with
    | zero => cases hwait
    | succ fuel =>
      rw [waitFifo_succ,if_neg hset] at hwait
      have hok : (chipGetField sys w h fifoparityfail s).2.chipError h = .noError := by
        by_contra hfailed
        rw [waitFifo_of_error hchip hfailed] at hwait
        cases hwait
      have hboth := hread.noError.mp hok
      have hlength := hread.length
      generalize (chipGetField sys w h fifoparityfail s).2 = r at hok hlength hwait
      have hrest : FirstClear w r.transfers.length k := hlength ▸ hclear.next
      have hlater := ih hrest hok hwait
      rw [hlength] at hlater
      intro i hi
      rcases (by omega : i = 0 ∨ i = 1 ∨ 2 ≤ i) with rfl | rfl | hge
      · exact hboth.1
      · exact hboth.2
      · have hack := hlater (i - 2) (by omega)
        rwa [show s.transfers.length + 2 + (i - 2) = s.transfers.length + i by omega] at hack

theorem waitFifo_end (hchip : DiseqcChip (sys.info h)) (hclear : FirstClear w s.transfers.length k)
    (herror : s.chipError h = .noError) (hwait : waitFifo sys w h fuel s = some t) :
    t.chipError h = .noError ∧ t.transfers.length = s.transfers.length + 2 * k + 2 := by
  have hacks := acks_of_waitFifo hchip hclear herror hwait
  obtain ⟨t',hwait',herror',hlength'⟩ := waitFifo_ends hchip hclear hacks herror
  have hmore := waitFifo_mono (Nat.le_max_left fuel (k + 1)) hwait
  rw [waitFifo_mono (Nat.le_max_right fuel (k + 1)) hwait'] at hmore
  cases hmore
  exact ⟨herror',hlength'⟩

end Wait

/-! ## The message -/

section Message

variable {H D : Type} [DecidableEq H] [DecidableEq D] {sys : ChipSystem H D} {w : I2cWorld} {h : H} {s t : Chips H D}
  {fuel fuel' : Nat} {b : UInt8} {data : List UInt8}

theorem sendBytes_cons : sendBytes sys w h fuel (b :: data) s = (waitFifo sys w h fuel s).bind fun s =>
      sendBytes sys w h fuel data (chipSetOneRegister sys w h disfifo b.toUInt32 s) := rfl

theorem sendBytes_mono (hle : fuel ≤ fuel') (hsend : sendBytes sys w h fuel data s = some t) :
    sendBytes sys w h fuel' data s = some t := by
  induction data generalizing s with
  | nil => exact hsend
  | cons b data ih =>
    rw [sendBytes_cons,bind_eq_some_iff] at hsend ⊢
    obtain ⟨u,hwait,hrest⟩ := hsend
    exact ⟨u,waitFifo_mono hle hwait,ih hrest⟩

theorem sendBytes_of_error (hchip : DiseqcChip (sys.info h)) (herror : s.chipError h ≠ .noError) (hdata : data ≠ []) :
    sendBytes sys w h fuel data s = none := by
  cases data with
  | nil => exact absurd rfl hdata
  | cons b data =>
    rw [sendBytes_cons,waitFifo_of_error hchip herror]
    rfl

theorem sendBytes_ends_iff (hchip : DiseqcChip (sys.info h)) (hclears : ClearsEventually w)
    (herror : s.chipError h = .noError) :
    (∃ fuel t, sendBytes sys w h fuel data s = some t) ↔ AckedUntilSent w data.length s.transfers.length := by
  induction data generalizing s with
  | nil => exact ⟨fun _ => trivial,fun _ => ⟨0,s,rfl⟩⟩
  | cons b data ih =>
    have hwritten (u : Chips H D) (herror' : u.chipError h = .noError) :=
      setOneRegister_written (w := w) (s := u) hchip hchip.fifo (by decide) b.toUInt32 herror'
    have hmore : data.length ≠ 0 ↔ data ≠ [] := not_congr length_eq_zero_iff
    constructor
    · rintro ⟨fuel,t,hsend⟩ k hclear
      rw [sendBytes_cons,bind_eq_some_iff] at hsend
      obtain ⟨u,hwait,hrest⟩ := hsend
      obtain ⟨herror',hlength⟩ := waitFifo_end hchip hclear herror hwait
      refine ⟨acks_of_waitFifo hchip hclear herror hwait,fun hdata => ?_⟩
      have hwrite := hwritten u herror'
      have hok : (chipSetOneRegister sys w h disfifo b.toUInt32 u).chipError h = .noError := by
        by_contra hfailed
        rw [sendBytes_of_error hchip hfailed (hmore.mp hdata)] at hrest
        cases hrest
      have hsent := (ih hok).mp ⟨fuel,t,hrest⟩
      have hack := hwrite.noError.mp hok
      rw [hwrite.length,hlength] at hsent
      rw [hlength] at hack
      exact ⟨hack,hsent⟩
    · intro hacked
      obtain ⟨k,hclear⟩ := hclears.firstClear s.transfers.length
      obtain ⟨hacks,hrest⟩ := hacked k hclear
      obtain ⟨u,hwait,herror',hlength⟩ := waitFifo_ends hchip hclear hacks herror
      by_cases hdata : data = []
      · rw [hdata]
        refine ⟨k + 1,chipSetOneRegister sys w h disfifo b.toUInt32 u,?_⟩
        rw [sendBytes_cons,hwait]
        rfl
      · obtain ⟨hack,hsent⟩ := hrest (hmore.mpr hdata)
        have hwrite := hwritten u herror'
        rw [← hlength] at hack
        have hlength' : s.transfers.length + 2 * k + 3 =
            (chipSetOneRegister sys w h disfifo b.toUInt32 u).transfers.length := by
          rw [hwrite.length,hlength]
        rw [hlength'] at hsent
        obtain ⟨fuel,t,hsend⟩ := (ih (hwrite.noError.mpr hack)).mpr hsent
        refine ⟨max (k + 1) fuel,t,?_⟩
        rw [sendBytes_cons,waitFifo_mono (Nat.le_max_left (k + 1) fuel) hwait]
        exact sendBytes_mono (Nat.le_max_right (k + 1) fuel) hsend

theorem diseqcSend_some : diseqcSend sys w (some h) fuel data s =
      (sendBytes sys w h fuel data (chipSetField sys w h disprecharge 1 s)).map
        (chipSetField sys w h disprecharge 0) := rfl

theorem diseqcSend_ends : (∃ fuel t, diseqcSend sys w (some h) fuel data s = some t) ↔
    ∃ fuel t, sendBytes sys w h fuel data (chipSetField sys w h disprecharge 1 s) = some t := by
  constructor
  · rintro ⟨fuel,t,hsend⟩
    rw [diseqcSend_some,map_eq_some_iff] at hsend
    obtain ⟨u,hsend,-⟩ := hsend
    exact ⟨fuel,u,hsend⟩
  · rintro ⟨fuel,t,hsend⟩
    refine ⟨fuel,chipSetField sys w h disprecharge 0 t,?_⟩
    rw [diseqcSend_some,hsend]
    rfl

theorem setPrecharge_of_error (v : Int) (herror : s.chipError h ≠ .noError) :
    chipSetField sys w h disprecharge v s = s := by
  rw [chipSetField,if_pos herror]

end Message

/-- A message is sent in the end exactly if it is empty, or no access fails up to the last reading of the flag. -/
theorem diseqcSend_ends_iff {H D : Type} [DecidableEq H] [DecidableEq D] (sys : ChipSystem H D) (w : I2cWorld)
    (handle : Option H) (hchip : ∀ h, handle = some h → DiseqcChip (sys.info h)) (hclears : ClearsEventually w)
    (data : List UInt8) (s : Chips H D) :
    (∃ fuel t, diseqcSend sys w handle fuel data s = some t) ↔
      ∀ h, handle = some h → AckedUntilEnd w h data s := by
  cases handle with
  | none => exact ⟨fun _ h hh => absurd hh (Option.some_ne_none h).symm, fun _ => ⟨0, s, rfl⟩⟩
  | some h =>
    have hone : (∀ h', some h = some h' → AckedUntilEnd w h' data s) ↔ AckedUntilEnd w h data s :=
      ⟨fun hall => hall h rfl, fun hacked h' hh => Option.some.inj hh ▸ hacked⟩
    have hc := hchip h rfl
    rw [hone, diseqcSend_ends, AckedUntilEnd]
    by_cases hdata : data = []
    · rw [hdata]
      exact ⟨fun _ => Or.inl rfl, fun _ => ⟨0, _, rfl⟩⟩
    rw [or_iff_right hdata]
    have hnever {u : Chips H D} (herror : u.chipError h ≠ .noError) :
        ¬ ∃ fuel t, sendBytes sys w h fuel data u = some t := by
      rintro ⟨fuel, t, hsend⟩
      rw [sendBytes_of_error hc herror hdata] at hsend
      cases hsend
    by_cases herror : s.chipError h = .noError
    · obtain ⟨hacks, hlength⟩ := setPrecharge_noError (w := w) hc 1 herror
      by_cases hok : (chipSetField sys w h disprecharge 1 s).chipError h = .noError
      · rw [sendBytes_ends_iff hc hclears hok, hlength hok]
        exact ⟨fun hsent => ⟨herror, hacks.mp hok, hsent⟩, fun hboth => hboth.2.2⟩
      · exact ⟨fun hends => absurd hends (hnever hok), fun hboth => absurd (hacks.mpr hboth.2.1) hok⟩
    · rw [setPrecharge_of_error 1 herror]
      exact ⟨fun hends => absurd hends (hnever herror), fun hboth => absurd hboth.1 herror⟩

/-! ## A card -/

section Samples

def diseqcDemod : ChipInfo Unit Unit where
  device := ()
  nbRegs := 452
  nbFields := 1264
  regMap reg :=
    ⟨if reg = tdiscntrl1 then 0xf0a0 else if reg = disfifo then 0xf0a7 else 0xf0a8, .reg8, 0, .wr, false, 0, 0⟩
  fieldMap field :=
    if field = disprecharge then .added tdiscntrl1 2 1 false else .added disstatus 6 1 false
  chipMode := .subadr16
  repeater := false
  repeaterHost := none
  wrStart := 0
  wrSize := 0
  rdStart := 0
  rdSize := 0

theorem diseqcChip_diseqcDemod : DiseqcChip diseqcDemod where
  nbRegs := rfl
  nbFields := rfl
  mode := rfl
  repeater := rfl
  control := ⟨rfl, rfl, rfl, rfl⟩
  fifo := ⟨rfl, rfl, rfl, rfl⟩
  status := ⟨rfl, rfl, rfl, rfl⟩
  precharge := rfl
  full := rfl

def diseqcSystem : ChipSystem Unit Unit where
  info _ := diseqcDemod
  host_repeater _ _ h := absurd h.symm (Option.some_ne_none _)
  host_mode _ _ h := absurd h.symm (Option.some_ne_none _)
  host_field _ _ h := absurd h.symm (Option.some_ne_none _)

def idleFifo (ack : Bool) : I2cWorld := ⟨fun _ => ack, fun _ _ => 0⟩

theorem flagClear_idleFifo (ack : Bool) (n : Nat) : FlagClear (idleFifo ack) n := by
  have hbit : ((0 : UInt32) &&& createMask 1 6) >>> UInt32.ofNat 6 = 0 := by decide
  have hlt : (0 : UInt32).toNat < 2147483648 := by decide
  have hmask : (Field.added disstatus 6 1 false).mask = createMask 1 6 := rfl
  have hpos : (Field.added disstatus 6 1 false).pos = 6 := rfl
  have hdata : ((idleFifo ack).data n 0).toUInt32 = 0 := rfl
  rw [FlagClear,hdata,Field.extract_unsigned rfl,hmask,hpos,hbit,asInt_of_lt hlt]
  rfl

theorem clearsEventually_idleFifo (ack : Bool) : ClearsEventually (idleFifo ack) :=
  fun n => ⟨0, flagClear_idleFifo ack (n + 2 * 0 + 1)⟩

def noTransfers : Chips Unit Unit := .init (fun _ _ => 0) fun _ => .noError

/-- A byte is sent on a bus that works. -/
theorem diseqcSend_ends_idle :
    ∃ fuel t, diseqcSend diseqcSystem (idleFifo true) (some ()) fuel [0xe0] noTransfers = some t := by
  have hchip (h : Unit) (_ : some () = some h) : DiseqcChip (diseqcSystem.info h) := diseqcChip_diseqcDemod
  refine (diseqcSend_ends_iff diseqcSystem (idleFifo true) (some ()) hchip (clearsEventually_idleFifo true) [0xe0]
    noTransfers).mpr fun h _ => Or.inr ⟨rfl, fun _ _ => rfl, fun k _ => ⟨fun _ _ => rfl, fun hmore => ?_⟩⟩
  exact absurd rfl hmore

/-- The chip does not answer: the wait for its FIFO does not end, whatever the flag is. -/
theorem diseqcSend_hangs : ClearsEventually (idleFifo false) ∧
    ∀ fuel, diseqcSend diseqcSystem (idleFifo false) (some ()) fuel [0xe0] noTransfers = none := by
  refine ⟨clearsEventually_idleFifo false, fun fuel => ?_⟩
  have hchip : DiseqcChip (diseqcSystem.info ()) := diseqcChip_diseqcDemod
  have hfails : (chipSetField diseqcSystem (idleFifo false) () disprecharge 1 noTransfers).chipError () ≠ .noError := by
    intro hok
    have hacks := (setPrecharge_noError (w := idleFifo false) (s := noTransfers) hchip 1 rfl).1.mp hok
    cases hacks 0 (by decide)
  rw [diseqcSend_some, sendBytes_of_error hchip hfails (List.cons_ne_nil _ _)]
  rfl

end Samples

end LinuxDvb.Stb0899
