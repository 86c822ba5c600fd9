import LinuxDvb.Framework.MaskedField
import LinuxDvb.Frontends.Stb0899.Chip

/-!
# Fields of the registers

A field is set in the register map by replacing the bits of its mask, and read by extracting them with their sign.
-/

namespace LinuxDvb.Stb0899

open MaskedField

/-! ## Adding and reading fields -/

/-- The loop of `CreateMask`. -/
def maskLoop : Nat → UInt32 → UInt32
  | 0, mask => mask
  | n + 1, mask => maskLoop n (mask <<< 1 + 1)

def createMask (nbBits pos : Nat) : UInt32 := maskLoop nbBits 0 <<< UInt32.ofNat pos

/-- What `ChipAddField` enters in the field map. -/
def Field.added (regId pos nbBits : Nat) (signed : Bool) : Field := ⟨regId, pos, nbBits, createMask nbBits pos, signed⟩

/-- A word as an `int`. -/
def asInt (x : UInt32) : Int := (x.toNat : Int).bmod 4294967296

/-- The value of a field in `ChipGetFieldImage`. -/
def Field.extract (f : Field) (value : UInt32) : Int :=
  let x := (value &&& f.mask) >>> UInt32.ofNat f.pos
  if f.signed ∧ x &&& (1 <<< UInt32.ofNat (f.bits - 1)) ≠ 0 then asInt (x - (1 <<< UInt32.ofNat f.bits)) else asInt x

section Chips

variable {H D : Type} [DecidableEq H] [DecidableEq D]

/-- `ChipGetFieldImage`. Without a value, all bits are set. -/
def chipGetFieldImage (sys : ChipSystem H D) (h : H) (fieldId : Nat) (s : Chips H D) : Int × Chips H D :=
  let f := (sys.info h).fieldMap fieldId
  if fieldId < (sys.info h).nbFields then
    (f.extract (if s.chipError h = .noError then s.value h f.reg else 0xffffffff), s)
  else (-1, s.fail h .invalidFieldId)

/-- `ChipGetOneRegister` without its value, for a chip with any repeater. -/
def chipGetOneRegisterWith (rep : H → Bool → Chips H D → Chips H D) (sys : ChipSystem H D) (w : I2cWorld) (h : H)
    (regId : Nat) (s : Chips H D) : Chips H D :=
  let c := sys.info h
  if c.chipMode ≠ .nosubadr ∧ c.chipMode ≠ .noRSubadr then chipGetRegistersWith rep sys w h regId 1 s
  else chipGetRegistersWith rep sys w h c.rdStart c.rdSize s

/-- `ChipSetOneRegister`, for a chip with any repeater. -/
def chipSetOneRegisterWith (rep : H → Bool → Chips H D → Chips H D) (sys : ChipSystem H D) (w : I2cWorld) (h : H)
    (regId : Nat) (data : UInt32) (s : Chips H D) : Chips H D :=
  let c := sys.info h
  if regId < c.nbRegs then
    if (c.regMap regId).access ≠ .r then
      if c.chipMode ≠ .nosubadr then chipSetRegistersWith rep sys w h regId 1 (s.setValue h regId data)
      else chipSetRegistersWith rep sys w h c.wrStart c.wrSize (s.setValue h regId data)
    else s
  else s.fail h .invalidRegId

/-- `ChipSetField`, for a chip with any repeater. -/
def chipSetFieldWith (rep : H → Bool → Chips H D → Chips H D) (sys : ChipSystem H D) (w : I2cWorld) (h : H)
    (fieldId : Nat) (v : Int) (s : Chips H D) : Chips H D :=
  let f := (sys.info h).fieldMap fieldId
  if s.chipError h ≠ .noError then s
  else if fieldId < (sys.info h).nbFields then
    let image := chipSetFieldImage sys h fieldId v (chipGetOneRegisterWith rep sys w h f.reg s)
    chipSetOneRegisterWith rep sys w h f.reg (image.value h f.reg) image
  else s.fail h .invalidFieldId

def chipGetField (sys : ChipSystem H D) (w : I2cWorld) (h : H) (fieldId : Nat) (s : Chips H D) : Int × Chips H D :=
  if fieldId < (sys.info h).nbFields then
    chipGetFieldImage sys h fieldId (chipGetOneRegister sys w h ((sys.info h).fieldMap fieldId).reg s)
  else (-1, s.fail h .invalidFieldId)

end Chips

/-! ## Masks -/

theorem maskLoop_toNat (n : Nat) (mask : UInt32) :
    (maskLoop n mask).toNat = (mask.toNat * 2 ^ n + (2 ^ n - 1)) % 4294967296 := by
  induction n generalizing mask with
  | zero =>
    have hlt := mask.toNat_lt
    rw [maskLoop]
    omega
  | succ n ih =>
    have hstep : (mask <<< 1 + 1).toNat = (mask.toNat * 2 + 1) % 4294967296 := by
      rw [UInt32.toNat_add,UInt32.toNat_shiftLeft,Nat.shiftLeft_eq]
      change (mask.toNat * 2 % 4294967296 + 1) % 4294967296 = _
      omega
    have hpow : 0 < 2 ^ n := Nat.two_pow_pos n
    have hsum : (mask.toNat * 2 + 1) * 2 ^ n + (2 ^ n - 1) = mask.toNat * 2 ^ (n + 1) + (2 ^ (n + 1) - 1) := by
      rw [Nat.pow_succ,Nat.add_mul,Nat.mul_assoc,Nat.mul_comm 2]
      omega
    rw [maskLoop,ih,hstep,← hsum,Nat.add_mod,Nat.mod_mul_mod,← Nat.add_mod]

theorem isMask_createMask {nbBits pos : Nat} (hfits : pos + nbBits ≤ 32) (hbits : nbBits < 32) :
    IsMask (createMask nbBits pos) nbBits pos := by
  intro i hi
  have hones : (maskLoop nbBits 0).toNat = 2 ^ nbBits - 1 := by
    have hlt : 2 ^ nbBits < 2 ^ 32 := Nat.pow_lt_pow_right (by decide) hbits
    rw [maskLoop_toNat]
    change (0 * 2 ^ nbBits + (2 ^ nbBits - 1)) % 4294967296 = _
    rw [Nat.zero_mul,Nat.zero_add]
    exact Nat.mod_eq_of_lt (by omega)
  rw [createMask,UInt32.toNat_shiftLeft,hones,Nat.testBit_mod_two_pow,decide_eq_true hi,Bool.true_and,
    Nat.testBit_shiftLeft,Nat.testBit_two_pow_sub_one]
  rcases Nat.lt_or_ge pos 32 with hpos | hpos
  · have hshift : (UInt32.ofNat pos).toNat % 32 = pos := by
      rw [UInt32.toNat_ofNat']
      omega
    rw [hshift,← Bool.decide_and]
    exact decide_eq_decide.mpr (by omega)
  · have hzero : nbBits = 0 := by omega
    subst hzero
    simp

/-! ## One register -/

/-- A field as `ChipAddField` enters it, of at most 31 bits that lie in the register. -/
structure Field.Proper (f : Field) : Prop where
  bits_pos : 0 < f.bits
  bits_lt : f.bits < 32
  fits : f.pos + f.bits ≤ 32
  mask : f.mask = createMask f.bits f.pos

def Field.InRange (f : Field) (v : Int) : Prop :=
  if f.signed then -2 ^ (f.bits - 1) ≤ v ∧ v < 2 ^ (f.bits - 1) else 0 ≤ v ∧ v < 2 ^ f.bits

instance (f : Field) (v : Int) : Decidable (f.InRange v) := inferInstanceAs (Decidable (ite _ _ _))

def Field.Disjoint (f g : Field) : Prop := f.pos + f.bits ≤ g.pos ∨ g.pos + g.bits ≤ f.pos

section Register

variable {f g : Field} {v : Int} {old : UInt32}

theorem Field.Proper.isMask (h : f.Proper) : IsMask f.mask f.bits f.pos := by
  rw [h.mask]
  exact isMask_createMask h.fits h.bits_lt

theorem toNat_ofInt (v : Int) : (UInt32.ofInt v).toNat = (v % 4294967296).toNat := by
  have hlt : (v % 4294967296).toNat < 4294967296 := by omega
  exact (UInt32.toNat_ofNat').trans (Nat.mod_eq_of_lt hlt)

theorem toNat_emod_two_pow (v : Int) {bits : Nat} (hbits : bits ≤ 32) :
    (v % 4294967296).toNat % 2 ^ bits = (v % (2 ^ bits : Nat)).toNat := by
  have hdvd : ((2 ^ bits : Nat) : Int) ∣ 4294967296 := Int.natCast_dvd_natCast.mpr (Nat.pow_dvd_pow 2 hbits)
  have hnonneg : 0 ≤ v % 4294967296 := Int.emod_nonneg v (by decide)
  rw [← Int.emod_emod_of_dvd v hdvd]
  obtain ⟨n,hn⟩ := Int.eq_ofNat_of_zero_le hnonneg
  rw [hn]
  rfl

theorem Field.Proper.toNat_image (h : f.Proper) (v : Int) (old : UInt32) :
    (((f.image v old) &&& f.mask) >>> UInt32.ofNat f.pos).toNat = (v % (2 ^ f.bits : Nat)).toNat := by
  have hpos := h.bits_pos
  have hfits := h.fits
  have hone : 1 <<< f.bits = 2 ^ f.bits := Nat.one_shiftLeft f.bits
  rw [Field.image,replaced_and_mask,h.isMask.toNat_extract h.fits (by omega),toNat_ofInt,
    toNat_emod_two_pow _ (by omega),hone]
  split
  · rw [Int.add_emod_right]
  · rfl

theorem signBit_iff {x : UInt32} {bits : Nat} (hbits : 0 < bits) (hlt : bits < 32) (hx : x.toNat < 2 ^ bits) :
    x &&& (1 <<< UInt32.ofNat (bits - 1)) ≠ 0 ↔ 2 ^ (bits - 1) ≤ x.toNat := by
  have hshift : (UInt32.ofNat (bits - 1)).toNat % 32 = bits - 1 := by
    rw [UInt32.toNat_ofNat']
    omega
  have hbit : (1 <<< UInt32.ofNat (bits - 1) : UInt32).toNat = 2 ^ (bits - 1) := by
    have hpow : 2 ^ (bits - 1) < 2 ^ 32 := Nat.pow_lt_pow_right (by decide) (by omega)
    rw [UInt32.toNat_shiftLeft,hshift,Nat.shiftLeft_eq]
    change 1 * 2 ^ (bits - 1) % 2 ^ 32 = _
    rw [Nat.one_mul,Nat.mod_eq_of_lt hpow]
  have hpow : 2 ^ bits = 2 * 2 ^ (bits - 1) := by
    rw [← Nat.pow_succ',Nat.succ_eq_add_one,Nat.sub_add_cancel hbits]
  have htest : x.toNat.testBit (bits - 1) = decide (2 ^ (bits - 1) ≤ x.toNat) := by
    rw [Nat.testBit_eq_decide_div_mod_eq]
    refine decide_eq_decide.mpr ?_
    rw [hpow] at hx
    have hdiv : x.toNat / 2 ^ (bits - 1) < 2 := Nat.div_lt_of_lt_mul (by rwa [Nat.mul_comm])
    rw [Nat.mod_eq_of_lt hdiv,← Nat.one_le_div_iff (Nat.two_pow_pos _)]
    omega
  rw [ne_eq,← UInt32.toNat_inj,UInt32.toNat_and,hbit,Nat.and_two_pow,htest]
  have hpos := Nat.two_pow_pos (bits - 1)
  by_cases hle : 2 ^ (bits - 1) ≤ x.toNat
  · simp [hle]
  · simp [hle]

theorem bmod_word {v : Int} (hlow : -2147483648 ≤ v) (hhigh : v < 2147483648) : v.bmod 4294967296 = v := by
  have hle : -((4294967296 : Nat) : Int) ≤ v * 2 := by omega
  have hlt : v * 2 < ((4294967296 : Nat) : Int) := by omega
  exact Int.bmod_eq_of_le_mul_two hle hlt

theorem asInt_of_lt {x : UInt32} (h : x.toNat < 2147483648) : asInt x = x.toNat :=
  bmod_word (by omega) (by omega)

theorem Field.extract_unsigned (h : f.signed = false) (value : UInt32) :
    f.extract value = asInt ((value &&& f.mask) >>> UInt32.ofNat f.pos) := by
  have hunsigned : ¬ f.signed = true := by
    rw [h]
    exact Bool.false_ne_true
  rw [Field.extract,if_neg fun hboth => hunsigned hboth.1]

theorem Field.Proper.extract_eq (h : f.Proper) (hsigned : f.signed = false) (value : UInt32) :
    f.extract value = (value.toNat / 2 ^ f.pos % 2 ^ f.bits : Nat) := by
  have hbits := h.bits_pos
  have hfits := h.fits
  have hvalue := h.isMask.toNat_masked hfits (by omega) value
  have hpow : 2 ^ f.bits ≤ 2 ^ 31 := Nat.pow_le_pow_right (by decide) (Nat.le_of_lt_succ h.bits_lt)
  have hmod : value.toNat / 2 ^ f.pos % 2 ^ f.bits < 2 ^ f.bits := Nat.mod_lt _ (Nat.two_pow_pos f.bits)
  rw [Field.extract_unsigned hsigned,asInt_of_lt (by omega),hvalue]

theorem asInt_sub {x : UInt32} {bits : Nat} (hlt : bits < 32) (hx : x.toNat < 2 ^ bits)
    (hsign : 2 ^ bits ≤ 2 * x.toNat) :
    asInt (x - (1 <<< UInt32.ofNat bits)) = (x.toNat : Int) - (2 ^ bits : Nat) := by
  have hshift : (UInt32.ofNat bits).toNat % 32 = bits := by
    rw [UInt32.toNat_ofNat']
    omega
  have hpow : 2 ^ bits ≤ 2 ^ 31 := Nat.pow_le_pow_right (by decide) (by omega)
  have hbit : (1 <<< UInt32.ofNat bits : UInt32).toNat = 2 ^ bits := by
    rw [UInt32.toNat_shiftLeft,hshift,Nat.shiftLeft_eq]
    change 1 * 2 ^ bits % 2 ^ 32 = _
    omega
  have hsub : (x - (1 <<< UInt32.ofNat bits)).toNat = 4294967296 - 2 ^ bits + x.toNat := by
    rw [UInt32.toNat_sub,hbit]
    change (4294967296 - 2 ^ bits + x.toNat) % 4294967296 = _
    omega
  have hwrap : ((4294967296 - 2 ^ bits + x.toNat : Nat) : Int) =
      (x.toNat : Int) - (2 ^ bits : Nat) + (4294967296 : Nat) * 1 := by omega
  have hword : asInt (x - (1 <<< UInt32.ofNat bits)) =
      ((4294967296 - 2 ^ bits + x.toNat : Nat) : Int).bmod 4294967296 := by rw [← hsub]; rfl
  rw [hword,hwrap,Int.add_mul_bmod_self_left]
  exact bmod_word (by omega) (by omega)

theorem Field.Proper.extract_image (h : f.Proper) (hv : f.InRange v) (old : UInt32) : f.extract (f.image v old) = v := by
  have hbits := h.bits_pos
  have hlt := h.bits_lt
  have himage := h.toNat_image v old
  have hpos : 0 < 2 ^ f.bits := Nat.two_pow_pos f.bits
  have hhalf : 2 ^ f.bits = 2 * 2 ^ (f.bits - 1) := by
    rw [← Nat.pow_succ',Nat.succ_eq_add_one,Nat.sub_add_cancel hbits]
  have hint (n : Nat) : ((2 ^ n : Nat) : Int) = 2 ^ n := Int.natCast_pow 2 n
  have hpow : 2 ^ f.bits ≤ 2 ^ 31 := Nat.pow_le_pow_right (by decide) (by omega)
  rw [Field.InRange] at hv
  rw [Field.extract]
  generalize hx : (f.image v old &&& f.mask) >>> UInt32.ofNat f.pos = x at himage ⊢
  have hxlt : x.toNat < 2 ^ f.bits := by
    rw [himage]
    omega
  have hsign := signBit_iff hbits hlt hxlt
  cases hsigned : f.signed with
  | true =>
    rw [hsigned,if_pos rfl,← hint] at hv
    rcases (by omega : v < 0 ∨ 0 ≤ v) with hneg | hnonneg
    · -- the sign is in the last bit of the field
      have hn : v % (2 ^ f.bits : Nat) = v + (2 ^ f.bits : Nat) := by
        rw [← Int.add_emod_right,Int.emod_eq_of_lt (by omega) (by omega)]
      rw [hn] at himage
      rw [if_pos ⟨rfl,hsign.mpr (by omega)⟩,asInt_sub hlt hxlt (by omega)]
      omega
    · have hn : v % (2 ^ f.bits : Nat) = v := Int.emod_eq_of_lt (by omega) (by omega)
      rw [hn] at himage
      rw [if_neg fun hset => absurd (hsign.mp hset.2) (by omega),asInt_of_lt (by omega)]
      omega
  | false =>
    rw [hsigned,if_neg Bool.false_ne_true,← hint] at hv
    have hn : v % (2 ^ f.bits : Nat) = v := Int.emod_eq_of_lt hv.1 hv.2
    rw [hn] at himage
    rw [if_neg fun hset => absurd hset.1 Bool.false_ne_true,asInt_of_lt (by omega)]
    omega

theorem Field.Proper.extract_image_of_disjoint (h : f.Proper) (hg : g.Proper) (hdisjoint : f.Disjoint g) (v : Int)
    (old : UInt32) : g.extract (f.image v old) = g.extract old := by
  have hmask : f.mask &&& g.mask = 0 := h.isMask.and_eq_zero hg.isMask hdisjoint
  rw [Field.extract,Field.extract,Field.image,replaced_and_other _ _ hmask]

end Register

/-! ## Runs -/

/-- A chip whose fields have been added, and do not overlap in a register. -/
structure ProperFields {H D : Type} (c : ChipInfo H D) : Prop where
  proper : ∀ i : Nat, i < c.nbFields → (c.fieldMap i).Proper
  disjoint : ∀ i j : Nat, i < c.nbFields → j < c.nbFields → i ≠ j → (c.fieldMap i).reg = (c.fieldMap j).reg →
    (c.fieldMap i).Disjoint (c.fieldMap j)

/-- A call of `ChipSetFieldImage`. -/
structure FieldCall where
  fieldId : Nat
  value : Int
  deriving DecidableEq

def FieldCall.Valid {H D : Type} (c : ChipInfo H D) (call : FieldCall) : Prop :=
  call.fieldId < c.nbFields ∧ (c.fieldMap call.fieldId).InRange call.value

def lastValue (fieldId : Nat) : List FieldCall → Option Int
  | [] => none
  | call :: calls => (lastValue fieldId calls).or (if call.fieldId = fieldId then some call.value else none)

section Runs

variable {H D : Type} [DecidableEq H] {sys : ChipSystem H D} {h : H} {s : Chips H D} {i : Nat} {v : Int}

/-- `ChipSetFieldImage` for a sequence of fields. -/
def setFieldImages (sys : ChipSystem H D) (h : H) (calls : List FieldCall) (s : Chips H D) : Chips H D :=
  calls.foldl (fun s call => chipSetFieldImage sys h call.fieldId call.value s) s

theorem chipSetFieldImage_eq (herror : s.chipError h = .noError) (hi : i < (sys.info h).nbFields) :
    chipSetFieldImage sys h i v s = s.setValue h ((sys.info h).fieldMap i).reg
      (((sys.info h).fieldMap i).image v (s.value h ((sys.info h).fieldMap i).reg)) := by
  rw [chipSetFieldImage,if_neg (not_not_intro herror),if_pos hi]

theorem chipGetFieldImage_eq (herror : s.chipError h = .noError) (hi : i < (sys.info h).nbFields) :
    (chipGetFieldImage sys h i s).1 =
      ((sys.info h).fieldMap i).extract (s.value h ((sys.info h).fieldMap i).reg) := by
  rw [chipGetFieldImage,if_pos hi,if_pos herror]

theorem chipError_setFieldImage (herror : s.chipError h = .noError) (hi : i < (sys.info h).nbFields) :
    (chipSetFieldImage sys h i v s).chipError h = .noError := by
  rw [chipSetFieldImage_eq herror hi]
  exact herror

theorem value_setValue_self (j : Nat) (x : UInt32) : (s.setValue h j x).value h j = x := if_pos ⟨rfl, rfl⟩

theorem value_setValue_of_ne {j k : Nat} (hne : k ≠ j) (x : UInt32) : (s.setValue h j x).value h k = s.value h k :=
  if_neg fun hboth => hne hboth.2

theorem getField_setField_self (hfields : ProperFields (sys.info h)) (herror : s.chipError h = .noError)
    (hi : i < (sys.info h).nbFields) (hv : ((sys.info h).fieldMap i).InRange v) :
    (chipGetFieldImage sys h i (chipSetFieldImage sys h i v s)).1 = v := by
  rw [chipGetFieldImage_eq (chipError_setFieldImage herror hi) hi,chipSetFieldImage_eq herror hi,value_setValue_self]
  exact (hfields.proper i hi).extract_image hv _

theorem getField_setField_of_ne {j : Nat} (hfields : ProperFields (sys.info h)) (herror : s.chipError h = .noError)
    (hi : i < (sys.info h).nbFields) (hj : j < (sys.info h).nbFields) (hne : i ≠ j) :
    (chipGetFieldImage sys h j (chipSetFieldImage sys h i v s)).1 = (chipGetFieldImage sys h j s).1 := by
  rw [chipGetFieldImage_eq (chipError_setFieldImage herror hi) hj,chipGetFieldImage_eq herror hj,
    chipSetFieldImage_eq herror hi]
  by_cases hreg : ((sys.info h).fieldMap j).reg = ((sys.info h).fieldMap i).reg
  · rw [hreg,value_setValue_self]
    exact (hfields.proper i hi).extract_image_of_disjoint (hfields.proper j hj)
      (hfields.disjoint i j hi hj hne hreg.symm) v _
  · rw [value_setValue_of_ne hreg]

theorem getField_setFieldImages (hfields : ProperFields (sys.info h)) (calls : List FieldCall)
    (hvalid : ∀ call ∈ calls, call.Valid (sys.info h)) (herror : s.chipError h = .noError)
    (hi : i < (sys.info h).nbFields) :
    (chipGetFieldImage sys h i (setFieldImages sys h calls s)).1 =
      (lastValue i calls).getD (chipGetFieldImage sys h i s).1 := by
  induction calls generalizing s with
  | nil => rfl
  | cons call calls ih =>
    obtain ⟨hid,hrange⟩ := hvalid call mem_cons_self
    have hrest := ih (fun call' hcall => hvalid call' (mem_cons_of_mem call hcall))
      (chipError_setFieldImage (v := call.value) herror hid)
    have hfirst : (chipGetFieldImage sys h i (chipSetFieldImage sys h call.fieldId call.value s)).1 =
        (if call.fieldId = i then some call.value else none).getD (chipGetFieldImage sys h i s).1 := by
      by_cases hsame : call.fieldId = i
      · rw [if_pos hsame,getD_some,← hsame]
        exact getField_setField_self hfields herror hid hrange
      · rw [if_neg hsame,Option.getD_none]
        exact getField_setField_of_ne hfields herror hid hi hsame
    rw [lastValue]
    cases hlast : lastValue i calls with
    | none =>
      rw [hlast,Option.getD_none,hfirst] at hrest
      exact hrest
    | some x =>
      rw [hlast] at hrest
      exact hrest

variable [DecidableEq D] {w : I2cWorld} {rep : H → Bool → Chips H D → Chips H D}

theorem setRegistersWith_of_error (herror : s.chipError h ≠ .noError) (first : Int) (n : Nat) :
    (chipSetRegistersWith rep sys w h first n s).transfers = s.transfers := by
  rw [chipSetRegistersWith,if_neg fun haccess => herror haccess.1,Chips.refuse,if_pos herror]

theorem setOneRegisterWith_of_error (herror : s.chipError h ≠ .noError) (regId : Nat) (data : UInt32) :
    (chipSetOneRegisterWith rep sys w h regId data s).transfers = s.transfers := by
  have hvalue : (s.setValue h regId data).chipError h ≠ .noError := herror
  rw [chipSetOneRegisterWith]
  split
  · split
    · split
      · exact setRegistersWith_of_error hvalue _ _
      · exact setRegistersWith_of_error hvalue _ _
    · rfl
  · rfl

theorem setFieldWith_of_failed_read (herror : s.chipError h = .noError) (hi : i < (sys.info h).nbFields)
    (hfailed : (chipGetOneRegisterWith rep sys w h ((sys.info h).fieldMap i).reg s).chipError h ≠ .noError) :
    (chipSetFieldWith rep sys w h i v s).transfers =
      (chipGetOneRegisterWith rep sys w h ((sys.info h).fieldMap i).reg s).transfers := by
  rw [chipSetFieldWith,if_neg (not_not_intro herror),if_pos hi,chipSetFieldImage,if_pos hfailed]
  exact setOneRegisterWith_of_error hfailed _ _

/-- Fields are set and read independently, and none is written behind a read that has failed. -/
theorem fields_independent (sys : ChipSystem H D) (h : H) (hfields : ProperFields (sys.info h)) (s : Chips H D)
    (herror : s.chipError h = .noError) :
    (∀ calls : List FieldCall, (∀ call ∈ calls, call.Valid (sys.info h)) → ∀ i : Nat, i < (sys.info h).nbFields →
      (chipGetFieldImage sys h i (setFieldImages sys h calls s)).1 =
        (lastValue i calls).getD (chipGetFieldImage sys h i s).1) ∧
    (∀ i j : Nat, i < (sys.info h).nbFields → j < (sys.info h).nbFields → i ≠ j → ∀ v,
      (chipGetFieldImage sys h j (chipSetFieldImage sys h i v s)).1 = (chipGetFieldImage sys h j s).1) ∧
    ∀ (rep : H → Bool → Chips H D → Chips H D) (w : I2cWorld) (i : Nat) (v : Int), i < (sys.info h).nbFields →
      (chipGetOneRegisterWith rep sys w h ((sys.info h).fieldMap i).reg s).chipError h ≠ .noError →
        (chipSetFieldWith rep sys w h i v s).transfers =
          (chipGetOneRegisterWith rep sys w h ((sys.info h).fieldMap i).reg s).transfers := by
  refine ⟨fun calls hvalid i hi => ?_, fun i j hi hj hne v => ?_, fun rep w i v hi hfailed => ?_⟩
  · exact getField_setFieldImages hfields calls hvalid herror hi
  · exact getField_setField_of_ne hfields herror hi hj hne
  · exact setFieldWith_of_failed_read herror hi hfailed

end Runs

section Samples

/-- A chip with one register of 32 bits; the first field is signed and ends at its last bit. -/
def twoFields : ChipInfo Unit Unit where
  device := ()
  nbRegs := 1
  nbFields := 2
  regMap _ := ⟨0xf300, .reg32, 0, .wr, true, 0, 0⟩
  fieldMap i := if i = 0 then .added 0 20 12 true else .added 0 0 20 false
  chipMode := .subadr16
  repeater := false
  repeaterHost := none
  wrStart := 0
  wrSize := 0
  rdStart := 0
  rdSize := 0

theorem properFields_twoFields : ProperFields twoFields where
  proper i hi := by
    have hlt : (i : Int) < 2 := hi
    rcases (by omega : i = 0 ∨ i = 1) with rfl | rfl
    · exact ⟨by decide,by decide,by decide,rfl⟩
    · exact ⟨by decide,by decide,by decide,rfl⟩
  disjoint i j hi hj hne _ := by
    have hlt : (i : Int) < 2 := hi
    have hlt' : (j : Int) < 2 := hj
    rcases (by omega : (i = 0 ∧ j = 1) ∨ (i = 1 ∧ j = 0)) with ⟨rfl,rfl⟩ | ⟨rfl,rfl⟩
    · exact Or.inr (by decide)
    · exact Or.inl (by decide)

def twoFieldSystem : ChipSystem Unit Unit where
  info _ := twoFields
  host_repeater _ _ h := absurd h.symm (Option.some_ne_none _)
  host_mode _ _ h := absurd h.symm (Option.some_ne_none _)
  host_field _ _ h := absurd h.symm (Option.some_ne_none _)

/-- A negative value stands beside an unsigned one. -/
theorem fields_independent_two : (chipGetFieldImage twoFieldSystem () 0
        (setFieldImages twoFieldSystem () [⟨0, -5⟩, ⟨1, 0xfffff⟩] (.init (fun _ _ => 0) fun _ => .noError))).1 = -5 ∧
      (chipGetFieldImage twoFieldSystem () 1
        (setFieldImages twoFieldSystem () [⟨0, -5⟩, ⟨1, 0xfffff⟩] (.init (fun _ _ => 0) fun _ => .noError))).1 =
        0xfffff := by
  obtain ⟨hruns, -, -⟩ := fields_independent twoFieldSystem () properFields_twoFields
    (.init (fun _ _ => 0) fun _ => .noError) rfl
  have hvalid : ∀ call ∈ [(⟨0, -5⟩ : FieldCall), ⟨1, 0xfffff⟩], call.Valid (twoFieldSystem.info ()) := by
    intro call hcall
    rcases List.mem_cons.mp hcall with rfl | hcall
    · exact ⟨by decide, by decide⟩
    · rw [List.mem_singleton.mp hcall]
      exact ⟨by decide, by decide⟩
  exact ⟨hruns _ hvalid 0 (by decide), hruns _ hvalid 1 (by decide)⟩

end Samples

end LinuxDvb.Stb0899
