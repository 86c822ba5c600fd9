import LinuxDvb.Framework.Rebase

/-!
# Durations in packed decimal digits

Integers are converted to eight decimal digits of four bits each and back, and a duration is three such bytes: hours,
minutes and seconds.
-/

namespace LinuxDvb.Ucsi

/-! ## The code -/

/-- `integer_to_bcd`, from the shift `i` on. -/
def integerToBcdLoop : Nat → Nat → UInt32 → UInt32 → UInt32
  | 0, _, _, val => val
  | passes + 1, i, intval, val =>
    integerToBcdLoop passes (i + 4) (intval / 10) (val ||| ((intval % 10) <<< UInt32.ofNat i))

def integerToBcd (intval : UInt32) : UInt32 := integerToBcdLoop 8 0 intval 0

/-- `bcd_to_integer`, with the shift at `4 * j` behind the first of `j + 1` passes. -/
def bcdToIntegerLoop (bcdval : UInt32) : Nat → UInt32 → UInt32
  | 0, val => val
  | j + 1, val =>
    let val := val + ((bcdval >>> UInt32.ofNat (4 * j)) &&& 0x0f)
    bcdToIntegerLoop bcdval j (if 4 * j ≠ 0 then val * 10 else val)

def bcdToInteger (bcdval : UInt32) : UInt32 := bcdToIntegerLoop bcdval 8 0

/-- `dvbduration_t` -/
structure Dvbduration where
  hours : UInt8
  mins : UInt8
  secs : UInt8
  deriving DecidableEq

/-- `dvbhhmm_t` -/
structure Dvbhhmm where
  hours : UInt8
  mins : UInt8
  deriving DecidableEq

/-- An `int` to which a word is added. -/
def addUnsigned (seconds : Int) (x : UInt32) : Int := ((UInt32.ofInt seconds + x).toNat : Int).bmod 4294967296

def dvbdurationToSeconds (dvbduration : Dvbduration) : Int :=
  let seconds := addUnsigned 0 (bcdToInteger dvbduration.hours.toUInt32 * 60 * 60)
  let seconds := addUnsigned seconds (bcdToInteger dvbduration.mins.toUInt32 * 60)
  addUnsigned seconds (bcdToInteger dvbduration.secs.toUInt32)

def secondsToDvbduration (seconds : Int) : Dvbduration :=
  let hours := seconds.tdiv (60 * 60)
  let seconds := seconds - hours * 60 * 60
  let mins := seconds.tdiv 60
  let seconds := seconds - mins * 60
  { hours := (integerToBcd (UInt32.ofInt hours)).toUInt8
    mins := (integerToBcd (UInt32.ofInt mins)).toUInt8
    secs := (integerToBcd (UInt32.ofInt seconds)).toUInt8 }

def dvbhhmmToSeconds (dvbhhmm : Dvbhhmm) : Int :=
  let seconds := addUnsigned 0 (bcdToInteger dvbhhmm.hours.toUInt32 * 60 * 60)
  addUnsigned seconds (bcdToInteger dvbhhmm.mins.toUInt32 * 60)

def secondsToDvbhhmm (seconds : Int) : Dvbhhmm :=
  let hours := seconds.tdiv (60 * 60)
  let seconds := seconds - hours * 60 * 60
  let mins := seconds.tdiv 60
  { hours := (integerToBcd (UInt32.ofInt hours)).toUInt8
    mins := (integerToBcd (UInt32.ofInt mins)).toUInt8 }

/-! ## Packed digits -/

def PackedDecimal (bcdval : UInt32) : Prop := ∀ i < 8, (bcdval >>> UInt32.ofNat (4 * i)) &&& 0x0f ≤ 9

def PackedByte (x : UInt8) : Prop := x >>> 4 ≤ 9 ∧ x &&& 0x0f ≤ 9

section Packed

variable {intval val bcdval : UInt32} {i k j : Nat}

theorem toNat_shift (h : i < 32) : (UInt32.ofNat i).toNat = i := by
  rw [UInt32.toNat_ofNat']
  omega

theorem toNat_group (h : j < 8) : ((bcdval >>> UInt32.ofNat (4 * j)) &&& 0x0f).toNat = bcdval.toNat / 16 ^ j % 16 := by
  have hpow : (16 : Nat) ^ j = 2 ^ (4 * j) := by rw [Nat.pow_mul]
  have hmask : (0x0f : UInt32).toNat = 2 ^ 4 - 1 := rfl
  rw [UInt32.toNat_and,UInt32.toNat_shiftRight,toNat_shift (by omega),hmask,Nat.and_two_pow_sub_one_eq_mod,
    Nat.mod_eq_of_lt (by omega : 4 * j < 32),Nat.shiftRight_eq_div_pow,hpow]

theorem toNat_integerToBcdLoop (hval : val.toNat < 2 ^ i) (hfits : i + 4 * k ≤ 32) :
    (integerToBcdLoop k i intval val).toNat = val.toNat + 2 ^ i * rebase 10 16 k intval.toNat := by
  induction k generalizing i intval val with
  | zero => rw [rebase,Nat.mul_zero,Nat.add_zero,integerToBcdLoop]
  | succ k ih =>
    have hten : (10 : UInt32).toNat = 10 := rfl
    have hdigit : intval.toNat % 10 < 10 := Nat.mod_lt _ (by decide)
    have hpow : 2 ^ (i + 4) = 2 ^ i * 16 := Nat.pow_add 2 i 4
    have hword : 2 ^ (i + 4) ≤ 2 ^ 32 := Nat.pow_le_pow_right (by decide) (by omega)
    have hsmall : 2 ^ i * (intval.toNat % 10) ≤ 2 ^ i * 9 := Nat.mul_le_mul_left _ (by omega)
    have hshifted : ((intval % 10) <<< UInt32.ofNat i).toNat = 2 ^ i * (intval.toNat % 10) := by
      rw [UInt32.toNat_shiftLeft,toNat_shift (by omega),Nat.mod_eq_of_lt (by omega : i < 32),Nat.shiftLeft_eq,
        UInt32.toNat_mod,hten,Nat.mul_comm]
      exact Nat.mod_eq_of_lt (by omega)
    have hor : (val ||| ((intval % 10) <<< UInt32.ofNat i)).toNat = val.toNat + 2 ^ i * (intval.toNat % 10) := by
      rw [UInt32.toNat_or,hshifted,Nat.or_comm,← Nat.two_pow_add_eq_or_of_lt hval,Nat.add_comm]
    rw [integerToBcdLoop,ih (by rw [hor]; omega) (by omega),hor,UInt32.toNat_div,hpow,rebase]
    ring_nf
    rfl

theorem toNat_integerToBcd (intval : UInt32) : (integerToBcd intval).toNat = rebase 10 16 8 intval.toNat := by
  rw [integerToBcd,toNat_integerToBcdLoop (by decide) (by decide)]
  exact (Nat.zero_add _).trans (Nat.one_mul _)

theorem toNat_bcdToIntegerLoop (hj : j < 8) : (bcdToIntegerLoop bcdval (j + 1) val).toNat =
      (val.toNat * 10 ^ j + rebase 16 10 (j + 1) bcdval.toNat) % 2 ^ 32 := by
  induction j generalizing val with
  | zero =>
    rw [bcdToIntegerLoop,if_neg (not_not_intro rfl),bcdToIntegerLoop,UInt32.toNat_add,toNat_group hj,rebase,rebase,
      Nat.pow_zero,Nat.pow_zero,Nat.div_one,Nat.mul_one]
    rfl
  | succ j ih =>
    have hdigit : ((bcdval >>> UInt32.ofNat (4 * (j + 1))) &&& 0x0f).toNat = bcdval.toNat / 16 ^ (j + 1) % 16 :=
      toNat_group hj
    have hten : (10 : UInt32).toNat = 10 := rfl
    have hlast := rebase_succ_last (b := 16) (c := 10) (k := j + 1) (n := bcdval.toNat)
    generalize bcdval.toNat / 16 ^ (j + 1) % 16 = digit at hdigit hlast
    have hstep : (val.toNat + digit) % 2 ^ 32 * 10 % 2 ^ 32 ≡ (val.toNat + digit) * 10 [MOD 2 ^ 32] :=
      (Nat.mod_modEq _ _).trans ((Nat.mod_modEq _ _).mul_right 10)
    have hnext := (hstep.mul_right (10 ^ j)).add_right (rebase 16 10 (j + 1) bcdval.toNat)
    have hsame : (val.toNat + digit) * 10 * 10 ^ j + rebase 16 10 (j + 1) bcdval.toNat =
        val.toNat * 10 ^ (j + 1) + rebase 16 10 (j + 1 + 1) bcdval.toNat := by
      rw [hlast]
      ring
    rw [bcdToIntegerLoop,if_pos (by omega),ih (by omega),UInt32.toNat_mul,UInt32.toNat_add,hdigit,hten,← hsame]
    exact hnext

theorem toNat_bcdToInteger (bcdval : UInt32) : (bcdToInteger bcdval).toNat = rebase 16 10 8 bcdval.toNat := by
  have hsmall (n : Nat) : rebase 16 10 8 n < 2 ^ 32 := by
    simp only [rebase]
    omega
  rw [bcdToInteger,toNat_bcdToIntegerLoop (by decide)]
  exact (congrArg (· % 2 ^ 32) (Nat.zero_add _)).trans (Nat.mod_eq_of_lt (hsmall _))

theorem packedDecimal_iff : PackedDecimal bcdval ↔ DigitsBelow 16 10 8 bcdval.toNat := by
  have hgroup (i : Nat) (hi : i < 8) : (bcdval >>> UInt32.ofNat (4 * i)) &&& 0x0f ≤ 9 ↔
      bcdval.toNat / 16 ^ i % 16 < 10 := by
    have hnine : (9 : UInt32).toNat = 9 := rfl
    rw [UInt32.le_iff_toNat_le,toNat_group hi,hnine,Nat.lt_succ_iff]
  exact forall₂_congr hgroup

theorem bcdToInteger_integerToBcd (h : intval.toNat < 10 ^ 8) : bcdToInteger (integerToBcd intval) = intval := by
  apply UInt32.toNat_inj.mp
  rw [toNat_bcdToInteger,toNat_integerToBcd,rebase_rebase (digitsBelow_of_le (by decide) (by decide)),rebase_self h]

theorem integerToBcd_bcdToInteger (h : PackedDecimal bcdval) : integerToBcd (bcdToInteger bcdval) = bcdval := by
  apply UInt32.toNat_inj.mp
  rw [toNat_integerToBcd,toNat_bcdToInteger,rebase_rebase (packedDecimal_iff.mp h)]
  exact rebase_self (Nat.lt_of_lt_of_eq bcdval.toNat_lt (by decide))

end Packed

/-! ## Durations -/

section Durations

variable {n : Nat} {s : Int}

theorem toNat_ofInt_natCast (h : n < 2 ^ 32) : (UInt32.ofInt (n : Int)).toNat = n := by
  have hlt : ((n : Int) % 4294967296).toNat = n := by omega
  exact (UInt32.toNat_ofNat').trans ((congrArg (· % 2 ^ 32) hlt).trans (Nat.mod_eq_of_lt h))

theorem integerToBcd_toUInt8 (h : n < 100) : (integerToBcd (UInt32.ofInt n)).toUInt8.toNat = n / 10 * 16 + n % 10 := by
  have htwo : rebase 10 16 2 n = n % 10 + 16 * (n / 10 % 10 + 16 * 0) := rfl
  have hten : n / 10 % 10 = n / 10 := Nat.mod_eq_of_lt (by omega)
  rw [UInt32.toNat_toUInt8,toNat_integerToBcd,toNat_ofInt_natCast (by omega),
    rebase_of_lt (j := 2) (by omega) (by decide),htwo,hten]
  omega

theorem packedByte_integerToBcd (h : n < 100) : PackedByte (integerToBcd (UInt32.ofInt n)).toUInt8 := by
  have hbyte := integerToBcd_toUInt8 h
  generalize (integerToBcd (UInt32.ofInt n)).toUInt8 = x at hbyte
  have hnine : (9 : UInt8).toNat = 9 := rfl
  have hmask : (0x0f : UInt8).toNat = 2 ^ 4 - 1 := rfl
  have hshift : (4 : UInt8).toNat % 8 = 4 := rfl
  have hsixteen : 2 ^ 4 = 16 := rfl
  constructor
  · rw [UInt8.le_iff_toNat_le,UInt8.toNat_shiftRight,hshift,Nat.shiftRight_eq_div_pow,hsixteen,hbyte,hnine]
    omega
  · rw [UInt8.le_iff_toNat_le,UInt8.toNat_and,hmask,Nat.and_two_pow_sub_one_eq_mod,hsixteen,hbyte,hnine]
    omega

theorem bcdToInteger_byte (h : n < 100) :
    (bcdToInteger (integerToBcd (UInt32.ofInt n)).toUInt8.toUInt32).toNat = n := by
  have htwo (m : Nat) : rebase 16 10 2 m = m % 16 + 10 * (m / 16 % 16 + 10 * 0) := rfl
  have hbyte := integerToBcd_toUInt8 h
  rw [toNat_bcdToInteger,UInt8.toNat_toUInt32,hbyte,rebase_of_lt (j := 2) (by omega) (by decide),htwo]
  omega

theorem addUnsigned_eq {x : UInt32} (h0 : 0 ≤ s) (h : s + x.toNat < 2147483648) : addUnsigned s x = s + x.toNat := by
  obtain ⟨k,rfl⟩ := Int.eq_ofNat_of_zero_le h0
  have hword : (UInt32.ofInt (k : Int)).toNat = k := toNat_ofInt_natCast (by omega)
  have hsum : (UInt32.ofInt (k : Int) + x).toNat = k + x.toNat := by
    rw [UInt32.toNat_add,hword]
    omega
  have hlow : -((4294967296 : Nat) : Int) ≤ (k + x.toNat : Int) * 2 := by omega
  have hhigh : (k + x.toNat : Int) * 2 < ((4294967296 : Nat) : Int) := by omega
  -- `rw` would compute the wrapped sum
  unfold addUnsigned
  rw [hsum,Int.natCast_add,Int.bmod_eq_of_le_mul_two hlow hhigh]

theorem secondsToDvbduration_eq (h0 : 0 ≤ s) (h : s < 360000) :
    ∃ hours mins secs : Nat, hours < 100 ∧ mins < 60 ∧ secs < 60 ∧ s = hours * 3600 + mins * 60 + secs ∧
      secondsToDvbduration s =
        { hours := (integerToBcd (UInt32.ofInt hours)).toUInt8
          mins := (integerToBcd (UInt32.ofInt mins)).toUInt8
          secs := (integerToBcd (UInt32.ofInt secs)).toUInt8 } := by
  obtain ⟨n,rfl⟩ := Int.eq_ofNat_of_zero_le h0
  refine ⟨n / 3600,n % 3600 / 60,n % 60,by omega,by omega,by omega,by omega,?_⟩
  have hhours : (n : Int).tdiv (60 * 60) = (n / 3600 : Nat) := rfl
  have hrest : (n : Int) - (n / 3600 : Nat) * 60 * 60 = (n % 3600 : Nat) := by omega
  have hmins : ((n % 3600 : Nat) : Int).tdiv 60 = (n % 3600 / 60 : Nat) := rfl
  have hsecs : ((n % 3600 : Nat) : Int) - (n % 3600 / 60 : Nat) * 60 = (n % 60 : Nat) := by omega
  rw [secondsToDvbduration,hhours,hrest,hmins,hsecs]

theorem toNat_mul_sixty {x : UInt32} (h : x.toNat < 100) :
    (x * 60).toNat = x.toNat * 60 ∧ (x * 60 * 60).toNat = x.toNat * 3600 := by
  have hsixty : (60 : UInt32).toNat = 60 := rfl
  have hmul : (x * 60).toNat = x.toNat * 60 := by
    rw [UInt32.toNat_mul,hsixty]
    omega
  refine ⟨hmul,?_⟩
  rw [UInt32.toNat_mul,hmul,hsixty]
  omega

theorem dvbdurationToSeconds_eq {x y z : Nat} {d : Dvbduration} (hx : (bcdToInteger d.hours.toUInt32).toNat = x)
    (hy : (bcdToInteger d.mins.toUInt32).toNat = y) (hz : (bcdToInteger d.secs.toUInt32).toNat = z) (hx' : x < 100)
    (hy' : y < 100) (hz' : z < 100) : dvbdurationToSeconds d = x * 3600 + y * 60 + z := by
  obtain ⟨-,hhours⟩ := toNat_mul_sixty (hx ▸ hx')
  obtain ⟨hmins,-⟩ := toNat_mul_sixty (hy ▸ hy')
  rw [hx] at hhours
  rw [hy] at hmins
  have hfirst := addUnsigned_eq (s := 0) (x := bcdToInteger d.hours.toUInt32 * 60 * 60) (Int.le_refl 0) (by omega)
  rw [hhours] at hfirst
  have hsecond := addUnsigned_eq (s := 0 + (x * 3600 : Nat)) (x := bcdToInteger d.mins.toUInt32 * 60) (by omega)
    (by omega)
  rw [hmins] at hsecond
  have hthird := addUnsigned_eq (s := 0 + (x * 3600 : Nat) + (y * 60 : Nat)) (x := bcdToInteger d.secs.toUInt32)
    (by omega) (by omega)
  rw [hz] at hthird
  rw [dvbdurationToSeconds,hfirst,hsecond,hthird]
  omega

theorem dvbduration_round_trip (h0 : 0 ≤ s) (h : s < 360000) : dvbdurationToSeconds (secondsToDvbduration s) = s := by
  obtain ⟨hours,mins,secs,hhours,hmins,hsecs,hs,hwritten⟩ := secondsToDvbduration_eq h0 h
  have hreadHours : (bcdToInteger (secondsToDvbduration s).hours.toUInt32).toNat = hours := by
    rw [hwritten]
    exact bcdToInteger_byte hhours
  have hreadMins : (bcdToInteger (secondsToDvbduration s).mins.toUInt32).toNat = mins := by
    rw [hwritten]
    exact bcdToInteger_byte (by omega)
  have hreadSecs : (bcdToInteger (secondsToDvbduration s).secs.toUInt32).toNat = secs := by
    rw [hwritten]
    exact bcdToInteger_byte (by omega)
  rw [dvbdurationToSeconds_eq hreadHours hreadMins hreadSecs hhours (by omega) (by omega)]
  exact hs.symm

theorem dvbhhmm_round_trip (h0 : 0 ≤ s) (h : s < 360000) : dvbhhmmToSeconds (secondsToDvbhhmm s) = s - s % 60 := by
  obtain ⟨hours,mins,secs,hhours,hmins,hsecs,hs,hwritten⟩ := secondsToDvbduration_eq h0 h
  have hhours' : (secondsToDvbhhmm s).hours = (integerToBcd (UInt32.ofInt hours)).toUInt8 :=
    congrArg Dvbduration.hours hwritten
  have hmins' : (secondsToDvbhhmm s).mins = (integerToBcd (UInt32.ofInt mins)).toUInt8 :=
    congrArg Dvbduration.mins hwritten
  have hreadHours := bcdToInteger_byte hhours
  have hreadMins := bcdToInteger_byte (n := mins) (by omega)
  obtain ⟨-,hmulHours⟩ := toNat_mul_sixty (hreadHours.symm ▸ hhours)
  obtain ⟨hmulMins,-⟩ := toNat_mul_sixty (x := bcdToInteger (integerToBcd (UInt32.ofInt mins)).toUInt8.toUInt32)
    (by omega)
  rw [dvbhhmmToSeconds,hhours',hmins',addUnsigned_eq (le_refl 0) (by omega),addUnsigned_eq (by omega) (by omega)]
  omega

theorem dvbhhmm_round_trip_hour : dvbhhmmToSeconds (secondsToDvbhhmm 3661) = 3660 :=
  dvbhhmm_round_trip (by decide) (by decide)

end Durations

/-- Durations come back as they were written, in valid digits, and so do packed numbers. -/
theorem dvbduration_bcd_round_trip : (∀ s : Int, 0 ≤ s → s < 360000 →
      dvbdurationToSeconds (secondsToDvbduration s) = s ∧
      PackedByte (secondsToDvbduration s).hours ∧ PackedByte (secondsToDvbduration s).mins ∧
      PackedByte (secondsToDvbduration s).secs ∧
      (bcdToInteger (secondsToDvbduration s).mins.toUInt32).toNat < 60 ∧
      (bcdToInteger (secondsToDvbduration s).secs.toUInt32).toNat < 60) ∧
    (∀ n : UInt32, n.toNat < 10 ^ 8 → bcdToInteger (integerToBcd n) = n) ∧
    ∀ b : UInt32, PackedDecimal b → integerToBcd (bcdToInteger b) = b := by
  refine ⟨fun s h0 h => ?_, fun n h => bcdToInteger_integerToBcd h, fun b h => integerToBcd_bcdToInteger h⟩
  have hround := dvbduration_round_trip h0 h
  obtain ⟨hours, mins, secs, hhours, hmins, hsecs, -, hwritten⟩ := secondsToDvbduration_eq h0 h
  have hreadMins := bcdToInteger_byte (n := mins) (by omega)
  have hreadSecs := bcdToInteger_byte (n := secs) (by omega)
  refine ⟨hround, ?_⟩
  rw [hwritten]
  exact ⟨packedByte_integerToBcd hhours, packedByte_integerToBcd (by omega), packedByte_integerToBcd (by omega),
    hreadMins.symm ▸ hmins, hreadSecs.symm ▸ hsecs⟩

/-- The last second. -/
theorem dvbduration_bcd_round_trip_last : dvbdurationToSeconds (secondsToDvbduration 359999) = 359999 ∧
    bcdToInteger (integerToBcd 99999999) = 99999999 :=
  ⟨(dvbduration_bcd_round_trip.1 359999 (by decide) (by decide)).1,
    dvbduration_bcd_round_trip.2.1 99999999 (by decide)⟩

end LinuxDvb.Ucsi
