import LinuxDvb.Framework.Lists
import Mathlib.Tactic.Ring

/-!
# Frequencies of the MB86A16

A frequency is programmed in steps of one or two MHz, and the rest as an offset of the frequency control in 8192ths of
the clock, which depends on the symbol rate.
-/

namespace LinuxDvb.Mb86a16

/-! ## Registers -/

/-- Whether a transfer succeeds, by its number, and what a read finds. -/
structure Bus where
  acks : Nat → Bool
  data : Nat → UInt8 → UInt8

/-- What has been written to each register, and the number of transfers. -/
structure Chip where
  written : UInt8 → UInt8
  transfers : Nat

structure Driven (α : Type) where
  run : Chip → Except Int α × Chip

namespace Driven

instance : Monad Driven where
  pure a := ⟨fun s => (.ok a, s)⟩
  bind m rest := ⟨fun s =>
    match m.run s with
    | (.ok a, t) => (rest a).run t
    | (.error e, t) => (.error e, t)⟩

variable {α β : Type} {m : Driven α} {a : α} {s t : Chip}

theorem run_pure (a : α) (s : Chip) : (pure a : Driven α).run s = (.ok a, s) := rfl

theorem run_bind (h : m.run s = (.ok a, t)) (rest : α → Driven β) : (m >>= rest).run s = (rest a).run t := by
  change (match m.run s with
    | (.ok a, t) => (rest a).run t
    | (.error e, t) => (.error e, t)) = _
  rw [h]

end Driven

def eremoteio : Int := 121

def Chip.tick (s : Chip) : Chip := { s with transfers := s.transfers + 1 }

def Chip.write (reg val : UInt8) (s : Chip) : Chip :=
  { written := Function.update s.written reg val, transfers := s.transfers + 1 }

/-- `mb86a16_write`, whether it returns 1. -/
def mb86a16Write (bus : Bus) (reg val : UInt8) : Driven Bool :=
  ⟨fun s => (.ok (bus.acks s.transfers), if bus.acks s.transfers then s.write reg val else s.tick)⟩

/-- `mb86a16_read`, with a value if it returns 2. -/
def mb86a16Read (bus : Bus) (reg : UInt8) : Driven (Option UInt8) :=
  ⟨fun s => (.ok (if bus.acks s.transfers then some (bus.data s.transfers reg) else none), s.tick)⟩

def require (e : Int) (ok : Bool) : Driven Unit := ⟨fun s => (if ok then .ok () else .error (-e), s)⟩

def writeOr (bus : Bus) (e : Int) (reg val : UInt8) : Driven Unit := do
  let ok ← mb86a16Write bus reg val
  require e ok

def readOr (bus : Bus) (e : Int) (reg : UInt8) : Driven UInt8 := do
  let val ← mb86a16Read bus reg
  require e val.isSome
  pure (val.getD 0)

/-- A call in `mb86a16_set_fe`, which returns -1 if the function fails. -/
def called (m : Driven Unit) : Driven Unit :=
  ⟨fun s =>
    match m.run s with
    | (.ok (), t) => (.ok (), t)
    | (.error _, t) => (.error (-1), t)⟩

/-! ## The symbol rate -/

/-- What `smrt_info_get` returns. -/
structure SmrtInfo where
  deci : Nat
  csel : Nat
  rsel : Nat
  deriving DecidableEq

def SmrtInfo.clkmst (info : SmrtInfo) : Int := if info.csel = 0 then 92000 else 61333

/-- The branches of `smrt_info_get`: from which symbol rate on, and `DECI`, `CSEL` and `RSEL`. -/
def smrtTable : List (Int × SmrtInfo) :=
  [(37501, ⟨0, 0, 0⟩), (30001, ⟨0, 0, 1⟩), (26251, ⟨0, 1, 0⟩), (22501, ⟨0, 1, 1⟩),
    (18751, ⟨1, 0, 0⟩), (15001, ⟨1, 0, 1⟩), (13126, ⟨1, 1, 0⟩), (11251, ⟨1, 1, 1⟩),
    (9376, ⟨2, 0, 0⟩), (7501, ⟨2, 0, 1⟩), (6563, ⟨2, 1, 0⟩), (5626, ⟨2, 1, 1⟩),
    (4688, ⟨3, 0, 0⟩), (3751, ⟨3, 0, 1⟩), (3282, ⟨3, 1, 0⟩), (2814, ⟨3, 1, 1⟩),
    (2344, ⟨4, 0, 0⟩), (1876, ⟨4, 0, 1⟩), (1641, ⟨4, 1, 0⟩), (1407, ⟨4, 1, 1⟩),
    (1172, ⟨5, 0, 0⟩), (939, ⟨5, 0, 1⟩), (821, ⟨5, 1, 0⟩)]

def branchFor (sr : Int) : List (Int × SmrtInfo) → SmrtInfo
  | [] => ⟨5, 1, 1⟩
  | (low, info) :: rows => if sr ≥ low then info else branchFor sr rows

def smrtInfoGet (sr : Int) : SmrtInfo := branchFor sr smrtTable

/-- The timing offset of `smrt_set`, which is `tmp` there. -/
def timingOffset (sr : Int) (info : SmrtInfo) : Int :=
  (8192 * info.clkmst - 2 * 2 ^ info.deci * sr * 8192 + info.clkmst.tdiv 2).tdiv info.clkmst

def smrtSet (bus : Bus) (sr : Int) (info : SmrtInfo) : Driven Unit := do
  let tmp := timingOffset sr info
  let stofs0 := UInt8.ofInt (tmp % 256)
  let stofs1 := UInt8.ofInt (tmp / 256 % 16)
  let ack ← mb86a16Write bus 0x03 (UInt8.ofNat (info.deci <<< 2 ||| info.csel <<< 1 ||| info.rsel))
  let ack0 ← mb86a16Write bus 0x04 stofs0
  let ack1 ← mb86a16Write bus 0x05 stofs1
  require 1 (ack && ack0 && ack1)

/-- The symbol rate of the fine search in `mb86a16_set_fe`. -/
def smrtD (smrt : Int) : Int := if smrt ≥ 1500 then smrt.tdiv 3 else smrt.tdiv 2

/-- The symbol rates that a search passes to `smrt_set`: its own, those of `signal_det`, and that of the fine search. -/
def searchRates (smrt : Int) : List Int := [smrt, (smrt * 98).tdiv 100, (smrt * 102).tdiv 100, smrtD smrt]

/-! ## The frequency -/

def enSet (bus : Bus) (cren afcen : UInt8) : Driven Unit :=
  writeOr bus eremoteio 0x49 ((0x7a : UInt8) ||| (cren <<< 7) ||| (afcen <<< 2))

def afcexenSet (bus : Bus) (afcexen : UInt8) (smrt : Int) : Driven Unit :=
  let afca : UInt8 := if smrt > 18875 then 4 else if smrt > 9375 then 3 else if smrt > 2250 then 2 else 1
  writeOr bus eremoteio 0x2a ((0x02 : UInt8) ||| (afcexen <<< 5) ||| (afca <<< 2))

def afcexDataSet (bus : Bus) (afcexL afcexH : UInt8) : Driven Unit := do
  writeOr bus 1 0x2b afcexL
  writeOr bus 1 0x2c afcexH

def vcoDevGet (smrt : Int) : Nat := if smrt > 9375 then 0 else 1

/-- The first register of `rf_val_set`, with `C` and `F`. -/
def rfFilter (smrt : Int) : UInt8 :=
  let c : UInt8 := if smrt > 37750 then 1 else if smrt > 18875 then 2 else if smrt > 5500 then 3 else 4
  let f : UInt8 := if smrt > 30500 then 3 else if smrt > 9375 then 1 else if smrt > 4625 then 0 else 2
  (0x01 : UInt8) ||| (c <<< 3) ||| (f <<< 1)

/-- The band in `rf_val_set`, which is `B` there. -/
def rfBand (f : Int) : UInt8 :=
  if f < 1060 then 0
  else if f < 1175 then 1
  else if f < 1305 then 2
  else if f < 1435 then 3
  else if f < 1570 then 4
  else if f < 1715 then 5
  else if f < 1845 then 6
  else if f < 1980 then 7
  else if f < 2080 then 8
  else 9

def rfValSet (bus : Bus) (f smrt : Int) (r : Nat) : Driven Unit := do
  let m := (f * 2 ^ r).tdiv 2
  let ack0 ← mb86a16Write bus 0x21 (rfFilter smrt)
  let ack1 ← mb86a16Write bus 0x22 (UInt8.ofNat (r <<< 5) ||| UInt8.ofInt (m / 4096 % 32))
  let ack2 ← mb86a16Write bus 0x23 (UInt8.ofInt (m / 16 % 256))
  let ack3 ← mb86a16Write bus 0x24 (UInt8.ofInt (m % 16 * 16) ||| rfBand f)
  let ack4 ← mb86a16Write bus 0x25 0x01
  require eremoteio (ack0 && ack1 && ack2 && ack3 && ack4)

/-- What is programmed for a frequency: MHz for the tuner, and an offset in kHz with its two bytes. -/
structure SwpInfo where
  fOSC : Int
  afcexFreq : Int
  afcexL : UInt8
  afcexH : UInt8
  deriving DecidableEq

def swpInfoGet2 (r : Nat) (swpFreq clkmst : Int) : SwpInfo :=
  let fOSC := if r = 0 then (swpFreq + 1000).tdiv 2000 * 2 else (swpFreq + 500).tdiv 1000
  let afcexFreq := if fOSC ≥ swpFreq then fOSC * 1000 - swpFreq else swpFreq - fOSC * 1000
  let afcex := (afcexFreq * 8192).tdiv clkmst
  ⟨fOSC, afcexFreq, UInt8.ofInt (afcex % 256), UInt8.ofInt (afcex / 256 % 16)⟩

/-- How `mb86a16_set_fe` programs a frequency. -/
def programFrequency (bus : Bus) (smrt : Int) (r : Nat) (swp : SwpInfo) : Driven Unit := do
  called (rfValSet bus swp.fOSC smrt r)
  called (afcexDataSet bus swp.afcexL swp.afcexH)

/-- The registers of the final lock in `mb86a16_set_fe`. -/
def finalLock (bus : Bus) (smrt swpFreq : Int) : Driven Unit := do
  let r := vcoDevGet smrt
  let info := smrtInfoGet smrt
  called (smrtSet bus smrt info)
  called (enSet bus 1 0)
  called (afcexenSet bus 1 smrt)
  programFrequency bus smrt r (swpInfoGet2 r swpFreq info.clkmst)

/-- The offset in `freqerr_chk`, from two bytes. -/
def afcmOf (afcml afcmh : UInt8) : Int :=
  let afcm : Int := (afcmh &&& 0x01).toNat * 256 + afcml.toNat
  if afcm > 255 then afcm - 512 else afcm

/-- Whether the offset is used, in `freqerr_chk`. -/
def afcexenChk (bus : Bus) (afcen : UInt8) : Driven UInt8 := do
  if afcen = 0 then
    let afc ← readOr bus eremoteio 0x2a
    pure ((afc &&& 0x20) >>> 5)
  else pure 0

/-- The reads of the offset in `freqerr_chk`, and what it is in kHz. -/
def afcerrChk (bus : Bus) (smrt : Int) (afcen afcexen : UInt8) : Driven Int := do
  if afcen = 1 ∨ afcexen = 1 then
    let afcml ← readOr bus eremoteio (if afcen = 1 then 0x0e else 0x2b)
    let afcmh ← readOr bus eremoteio (if afcen = 1 then 0x0f else 0x2c)
    pure ((afcmOf afcml afcmh * (smrtInfoGet smrt).clkmst).tdiv 8192)
  else pure 0

/-- The frequency in `freqerr_chk`, from three registers. -/
def readOsc (temp1 temp2 temp3 : UInt8) : Int :=
  let m : Int := (temp1 &&& 0x1f).toNat * 4096 + temp2.toNat * 16 + (temp3 >>> 4).toNat
  if (temp1 &&& 0xe0) >>> 5 = 0 then 2 * m else m

def freqerrChk (bus : Bus) (fTP smrt unit : Int) : Driven Int := do
  let crmByte ← readOr bus eremoteio 0x43
  let crm : Int := if crmByte.toNat > 127 then crmByte.toNat - 256 else crmByte.toNat
  let crrerr := (smrt * crm).tdiv 256
  let en ← readOr bus eremoteio 0x49
  let afcen := (en &&& 0x04) >>> 2
  let afcexen ← afcexenChk bus afcen
  let afcerr ← afcerrChk bus smrt afcen afcexen
  let temp1 ← readOr bus eremoteio 0x22
  let temp2 ← readOr bus eremoteio 0x23
  let temp3 ← readOr bus eremoteio 0x24
  let khz := crrerr + afcerr + (readOsc temp1 temp2 temp3 - fTP) * 1000
  pure (if unit = 0 then (if khz ≥ 0 then (khz + 500).tdiv 1000 else (khz - 500).tdiv 1000) else khz)

/-! ## Rounding towards zero -/

section Rounding

variable {x c : Int}

theorem tdiv_near (hc : 0 < c) : (0 ≤ x → 0 ≤ x.tdiv c ∧ x.tdiv c * c ≤ x ∧ x < x.tdiv c * c + c) ∧
      (x ≤ 0 → x.tdiv c ≤ 0 ∧ x ≤ x.tdiv c * c ∧ x.tdiv c * c - c < x) := by
  have hsplit : x.tdiv c * c + x.tmod c = x := Int.tdiv_mul_add_tmod x c
  have hlt := Int.tmod_lt_of_pos x hc
  have hgt := Int.lt_tmod_of_pos x hc
  constructor
  · intro hx
    have hmod := Int.tmod_nonneg c hx
    exact ⟨Int.tdiv_nonneg hx (Int.le_of_lt hc),by omega,by omega⟩
  · intro hx
    have hmod : x.tmod c ≤ 0 := by
      have hneg := Int.tmod_nonneg c (Int.neg_nonneg.mpr hx)
      rw [Int.neg_tmod] at hneg
      omega
    have hquotient : x.tdiv c ≤ 0 := by
      have hneg := Int.tdiv_nonneg (Int.neg_nonneg.mpr hx) (Int.le_of_lt hc)
      rw [Int.neg_tdiv] at hneg
      omega
    exact ⟨hquotient,by omega,by omega⟩

theorem tdiv_round_trip (a : Int) {n : Int} (hn : 0 < n) (hc : 0 < c) :
    -(c + n) < n * (((a * n).tdiv c * c).tdiv n - a) ∧ n * (((a * n).tdiv c * c).tdiv n - a) < c + n := by
  obtain ⟨hdownPos,hdownNeg⟩ := tdiv_near (x := a * n) hc
  obtain ⟨hupPos,hupNeg⟩ := tdiv_near (x := (a * n).tdiv c * c) hn
  have hexpand : n * (((a * n).tdiv c * c).tdiv n - a) = ((a * n).tdiv c * c).tdiv n * n - a * n := by
    rw [Int.mul_sub,Int.mul_comm n,Int.mul_comm n]
  have hkeeps : (0 ≤ (a * n).tdiv c → 0 ≤ (a * n).tdiv c * c) ∧ ((a * n).tdiv c ≤ 0 → (a * n).tdiv c * c ≤ 0) :=
    ⟨fun h => Int.mul_nonneg h (Int.le_of_lt hc),fun h => Int.mul_nonpos_of_nonpos_of_nonneg h (Int.le_of_lt hc)⟩
  rw [hexpand]
  generalize (a * n).tdiv c * c = scaled at *
  generalize scaled.tdiv n * n = back at *
  generalize a * n = whole at *
  rcases Int.le_total 0 whole with hpos | hneg
  · obtain ⟨hquotient,hle,hlt⟩ := hdownPos hpos
    obtain ⟨-,hle',hlt'⟩ := hupPos (hkeeps.1 hquotient)
    omega
  · obtain ⟨hquotient,hle,hlt⟩ := hdownNeg hneg
    obtain ⟨-,hle',hlt'⟩ := hupNeg (hkeeps.2 hquotient)
    omega

end Rounding

/-! ## The offset -/

theorem toNat_ofInt (x : Int) : (UInt8.ofInt x).toNat = (x % 256).toNat := by
  have hlt : (x % 256).toNat < 2 ^ 8 := by omega
  exact UInt8.toNat_ofNat'.trans (Nat.mod_eq_of_lt hlt)

theorem afcmOf_eq {afcex : Int} (hlow : -256 ≤ afcex) (hhigh : afcex < 256) :
    afcmOf (UInt8.ofInt (afcex % 256)) (UInt8.ofInt (afcex / 256 % 16)) = afcex := by
  have hbit : (UInt8.ofInt (afcex / 256 % 16) &&& 0x01).toNat = (UInt8.ofInt (afcex / 256 % 16)).toNat % 2 := by
    rw [UInt8.toNat_and]
    exact Nat.and_one_is_mod _
  rw [afcmOf,hbit,toNat_ofInt,toNat_ofInt]
  split
  · omega
  · omega

theorem clkmst_cases (info : SmrtInfo) : info.clkmst = 92000 ∨ info.clkmst = 61333 := by
  rw [SmrtInfo.clkmst]
  split
  · exact Or.inl rfl
  · exact Or.inr rfl

def nearestOsc (r : Nat) (swpFreq : Int) : Int :=
  if r = 0 then (swpFreq + 1000).tdiv 2000 * 2 else (swpFreq + 500).tdiv 1000

theorem nearestOsc_spec (r : Nat) {swpFreq : Int} (hlow : 950000 ≤ swpFreq) (hhigh : swpFreq ≤ 2150000) :
    0 ≤ nearestOsc r swpFreq ∧ nearestOsc r swpFreq ≤ 2150 ∧ (r = 0 → nearestOsc r swpFreq % 2 = 0) ∧
      -1000 ≤ swpFreq - nearestOsc r swpFreq * 1000 ∧ swpFreq - nearestOsc r swpFreq * 1000 ≤ 1000 := by
  rw [nearestOsc]
  split
  · rw [Int.tdiv_eq_ediv_of_nonneg (by omega)]
    omega
  case isFalse hr =>
    rw [Int.tdiv_eq_ediv_of_nonneg (by omega)]
    exact ⟨by omega,by omega,fun h => absurd h hr,by omega,by omega⟩

def afcexOf (r : Nat) (swpFreq clkmst : Int) : Int := ((swpFreq - nearestOsc r swpFreq * 1000) * 8192).tdiv clkmst

theorem swpInfoGet2_eq (r : Nat) {swpFreq : Int} (clkmst : Int) (hlow : 950000 ≤ swpFreq) (hhigh : swpFreq ≤ 2150000) :
    swpInfoGet2 r swpFreq clkmst =
      ⟨nearestOsc r swpFreq, swpFreq - nearestOsc r swpFreq * 1000,
        UInt8.ofInt (afcexOf r swpFreq clkmst % 256), UInt8.ofInt (afcexOf r swpFreq clkmst / 256 % 16)⟩ := by
  obtain ⟨-,hle,-⟩ := nearestOsc_spec r hlow hhigh
  have hfOSC : (if r = 0 then (swpFreq + 1000).tdiv 2000 * 2 else (swpFreq + 500).tdiv 1000) =
      nearestOsc r swpFreq := rfl
  rw [swpInfoGet2,hfOSC,if_neg (by omega),afcexOf]

theorem vcoDevGet_cases (smrt : Int) : vcoDevGet smrt = 0 ∨ vcoDevGet smrt = 1 := by
  rw [vcoDevGet]
  split
  · exact Or.inl rfl
  · exact Or.inr rfl

theorem afcexOf_bounds (r : Nat) {swpFreq : Int} (info : SmrtInfo) (hlow : 950000 ≤ swpFreq)
    (hhigh : swpFreq ≤ 2150000) :
    -256 ≤ afcexOf r swpFreq info.clkmst ∧ afcexOf r swpFreq info.clkmst < 256 := by
  obtain ⟨-,-,-,hbelow,habove⟩ := nearestOsc_spec r hlow hhigh
  have hclock : 61333 ≤ info.clkmst := by
    rcases clkmst_cases info with h | h <;> omega
  obtain ⟨hpos,hneg⟩ := tdiv_near (x := (swpFreq - nearestOsc r swpFreq * 1000) * 8192) (by omega : 0 < info.clkmst)
  rw [afcexOf]
  generalize swpFreq - nearestOsc r swpFreq * 1000 = rest at *
  rcases clkmst_cases info with h | h
  · rw [h] at hpos hneg ⊢
    omega
  · rw [h] at hpos hneg ⊢
    omega

/-! ## The timing offset -/

section Timing

variable {sr smrt : Int}

/-- Between two symbol rates, the decimation brings them between a quarter and a half of the clock. -/
def Decimates (info : SmrtInfo) (low high : Int) : Prop :=
  info.clkmst * 4097 ≤ 2 ^ info.deci * low * 16384 ∧ 2 ^ info.deci * high * 2 ≤ info.clkmst

instance (info : SmrtInfo) (low high : Int) : Decidable (Decimates info low high) :=
  inferInstanceAs (Decidable (_ ∧ _))

theorem Decimates.mono {info : SmrtInfo} {low high low' high' : Int} (h : Decimates info low high) (hlow : low ≤ low')
    (hhigh : high' ≤ high) : Decimates info low' high' := by
  obtain ⟨hquarter,hhalf⟩ := h
  have hpow : (0 : Int) ≤ 2 ^ info.deci := Int.le_of_lt (Int.pow_pos (by decide))
  have hle := Int.mul_le_mul_of_nonneg_left hlow hpow
  have hle' := Int.mul_le_mul_of_nonneg_left hhigh hpow
  exact ⟨by omega,by omega⟩

/-- Each branch decimates from its symbol rate to that of the branch before, and the last one from 500 on. -/
def BranchesDecimate (top : Int) : List (Int × SmrtInfo) → Prop
  | [] => Decimates ⟨5, 1, 1⟩ 500 (top - 1)
  | (low, info) :: rows => Decimates info low (top - 1) ∧ BranchesDecimate low rows

theorem branchesDecimate_smrtTable : BranchesDecimate 45901 smrtTable := by
  simp only [smrtTable,BranchesDecimate]
  decide

theorem branchFor_decimates {top : Int} {rows : List (Int × SmrtInfo)} (h : BranchesDecimate top rows)
    (hlow : 500 ≤ sr) (htop : sr < top) : Decimates (branchFor sr rows) sr sr := by
  induction rows generalizing top with
  | nil => exact Decimates.mono h hlow (by omega)
  | cons row rows ih =>
    obtain ⟨low,info⟩ := row
    rw [branchFor]
    split
    case isTrue hle => exact h.1.mono hle (by omega)
    case isFalse hlt => exact ih h.2 (by omega)

theorem timingOffset_bounds (hlow : 500 ≤ sr) (hhigh : sr ≤ 45900) :
    0 ≤ timingOffset sr (smrtInfoGet sr) ∧ timingOffset sr (smrtInfoGet sr) ≤ 4095 := by
  obtain ⟨hquarter,hhalf⟩ : Decimates (smrtInfoGet sr) sr sr :=
    branchFor_decimates branchesDecimate_smrtTable hlow (by omega)
  have hclock : 0 < (smrtInfoGet sr).clkmst := by
    rcases clkmst_cases (smrtInfoGet sr) with h | h <;> omega
  have hproduct : 2 * 2 ^ (smrtInfoGet sr).deci * sr * 8192 = 2 ^ (smrtInfoGet sr).deci * sr * 16384 := by ring
  rw [timingOffset,hproduct,Int.tdiv_eq_ediv_of_nonneg (Int.le_of_lt hclock)]
  generalize 2 ^ (smrtInfoGet sr).deci * sr = decimated at hquarter hhalf ⊢
  rw [Int.tdiv_eq_ediv_of_nonneg (by omega)]
  rcases clkmst_cases (smrtInfoGet sr) with h | h
  · rw [h] at hquarter hhalf ⊢
    omega
  · rw [h] at hquarter hhalf ⊢
    omega

theorem searchRates_bounds (hlow : 1000 ≤ smrt) (hhigh : smrt ≤ 45000) : ∀ sr ∈ searchRates smrt, 500 ≤ sr ∧ sr ≤ 45900 := by
  rw [searchRates,smrtD,Int.tdiv_eq_ediv_of_nonneg (by omega),Int.tdiv_eq_ediv_of_nonneg (by omega),
    Int.tdiv_eq_ediv_of_nonneg (by omega),Int.tdiv_eq_ediv_of_nonneg (by omega)]
  simp only [forall_mem_cons,not_mem_nil,false_implies,implies_true,and_true]
  refine ⟨by omega,by omega,by omega,?_⟩
  split
  · omega
  · omega

end Timing

/-! ## Writing and reading back -/

section Transfers

variable {bus : Bus} {s : Chip} {e : Int} {reg val : UInt8}

theorem mb86a16Write_apply (hacks : ∀ n, bus.acks n = true) :
    (mb86a16Write bus reg val).run s = (.ok true, s.write reg val) := by
  simp [mb86a16Write,hacks]

theorem writeOr_apply (hacks : ∀ n, bus.acks n = true) : (writeOr bus e reg val).run s = (.ok (), s.write reg val) := by
  rw [writeOr,Driven.run_bind (mb86a16Write_apply hacks)]
  rfl

theorem readOr_apply (hacks : ∀ n, bus.acks n = true) :
    (readOr bus e reg).run s = (.ok (bus.data s.transfers reg), s.tick) := by
  have hread : (mb86a16Read bus reg).run s = (.ok (some (bus.data s.transfers reg)), s.tick) := by
    simp [mb86a16Read,hacks]
  rw [readOr,Driven.run_bind hread]
  rfl

theorem called_of_ok {m : Driven Unit} {t : Chip} (h : m.run s = (.ok (), t)) : (called m).run s = (.ok (), t) := by
  simp only [called,h]

theorem written_write (reg' : UInt8) : (s.write reg val).written reg' = if reg' = reg then val else s.written reg' := by
  simp only [Chip.write,Function.update_apply]

theorem smrtSet_apply (hacks : ∀ n, bus.acks n = true) (sr : Int) (info : SmrtInfo) :
    (smrtSet bus sr info).run s = (.ok (),
      ((s.write 0x03 (UInt8.ofNat (info.deci <<< 2 ||| info.csel <<< 1 ||| info.rsel))).write 0x04
        (UInt8.ofInt (timingOffset sr info % 256))).write 0x05 (UInt8.ofInt (timingOffset sr info / 256 % 16))) := by
  rw [smrtSet,Driven.run_bind (mb86a16Write_apply hacks),Driven.run_bind (mb86a16Write_apply hacks),
    Driven.run_bind (mb86a16Write_apply hacks)]
  rfl

theorem rfBand_lt (f : Int) : (rfBand f).toNat < 16 := by
  rw [rfBand]
  split_ifs <;> decide

theorem rfValSet_apply (hacks : ∀ n, bus.acks n = true) (f smrt : Int) (r : Nat) :
    (rfValSet bus f smrt r).run s = (.ok (), ((((s.write 0x21 (rfFilter smrt)).write
        0x22 (UInt8.ofNat (r <<< 5) ||| UInt8.ofInt ((f * 2 ^ r).tdiv 2 / 4096 % 32))).write
          0x23 (UInt8.ofInt ((f * 2 ^ r).tdiv 2 / 16 % 256))).write
            0x24 (UInt8.ofInt ((f * 2 ^ r).tdiv 2 % 16 * 16) ||| rfBand f)).write 0x25 0x01) := by
  rw [rfValSet,Driven.run_bind (mb86a16Write_apply hacks),Driven.run_bind (mb86a16Write_apply hacks),
    Driven.run_bind (mb86a16Write_apply hacks),Driven.run_bind (mb86a16Write_apply hacks),
    Driven.run_bind (mb86a16Write_apply hacks)]
  rfl

structure Programmed (r : Nat) (swp : SwpInfo) (t : Chip) : Prop where
  high : t.written 0x22 = UInt8.ofNat (r <<< 5) ||| UInt8.ofInt ((swp.fOSC * 2 ^ r).tdiv 2 / 4096 % 32)
  middle : t.written 0x23 = UInt8.ofInt ((swp.fOSC * 2 ^ r).tdiv 2 / 16 % 256)
  low : t.written 0x24 = UInt8.ofInt ((swp.fOSC * 2 ^ r).tdiv 2 % 16 * 16) ||| rfBand swp.fOSC
  afcexL : t.written 0x2b = swp.afcexL
  afcexH : t.written 0x2c = swp.afcexH

theorem programFrequency_apply (hacks : ∀ n, bus.acks n = true) (smrt : Int) (r : Nat) (swp : SwpInfo) :
    ∃ t : Chip, (programFrequency bus smrt r swp).run s = (.ok (), t) ∧ Programmed r swp t ∧
      t.written 0x49 = s.written 0x49 ∧ t.written 0x2a = s.written 0x2a := by
  have hafcex : ∀ t : Chip, (afcexDataSet bus swp.afcexL swp.afcexH).run t =
      (.ok (), (t.write 0x2b swp.afcexL).write 0x2c swp.afcexH) := by
    intro t
    rw [afcexDataSet,Driven.run_bind (writeOr_apply hacks),writeOr_apply hacks]
  have hrun := Driven.run_bind (called_of_ok (rfValSet_apply (s := s) hacks swp.fOSC smrt r))
    fun _ => called (afcexDataSet bus swp.afcexL swp.afcexH)
  rw [called_of_ok (hafcex _)] at hrun
  refine ⟨_,hrun,⟨?_,?_,?_,?_,?_⟩,?_,?_⟩
  all_goals simp [written_write]

theorem finalLock_apply (hacks : ∀ n, bus.acks n = true) (smrt swpFreq : Int) (s : Chip) :
    ∃ t : Chip, (finalLock bus smrt swpFreq).run s = (.ok (), t) ∧
      Programmed (vcoDevGet smrt) (swpInfoGet2 (vcoDevGet smrt) swpFreq (smrtInfoGet smrt).clkmst) t ∧
      t.written 0x49 = 0xfa ∧ t.written 0x2a &&& 0x20 = 0x20 := by
  have hen : ∀ t : Chip, (enSet bus 1 0).run t = (.ok (), t.write 0x49 0xfa) := fun t => writeOr_apply hacks
  obtain ⟨val,hval,hafcexen⟩ : ∃ val : UInt8, val &&& 0x20 = 0x20 ∧
      ∀ t : Chip, (afcexenSet bus 1 smrt).run t = (.ok (), t.write 0x2a val) := by
    refine ⟨_,?_,fun t => writeOr_apply hacks⟩
    split_ifs <;> decide
  obtain ⟨t,hrun,hprogrammed,hkept,hkept'⟩ := programFrequency_apply
    (s := (((((s.write 0x03 _).write 0x04 _).write 0x05 _).write 0x49 0xfa).write 0x2a val)) hacks smrt (vcoDevGet smrt)
    (swpInfoGet2 (vcoDevGet smrt) swpFreq (smrtInfoGet smrt).clkmst)
  refine ⟨t,?_,hprogrammed,?_,?_⟩
  · rw [finalLock,Driven.run_bind (called_of_ok (smrtSet_apply hacks smrt _)),Driven.run_bind (called_of_ok (hen _)),
      Driven.run_bind (called_of_ok (hafcexen _)),hrun]
  · rw [hkept]
    simp [written_write]
  · rw [hkept']
    simp [written_write,hval]

end Transfers

/-! ## The round trip -/

section RoundTrip

variable {bus : Bus} {s : Chip} {r : Nat} {swp : SwpInfo}

/-- The carrier recovery reports no offset, and what has been programmed is read back from now on. -/
structure ReadsBack (bus : Bus) (s : Chip) : Prop where
  acks : ∀ n, bus.acks n = true
  carrier : ∀ n ≥ s.transfers, bus.data n 0x43 = 0
  programmed : ∀ reg ∈ ([0x49, 0x2a, 0x2b, 0x2c, 0x22, 0x23, 0x24] : List UInt8), ∀ n ≥ s.transfers,
    bus.data n reg = s.written reg

theorem highDigit_or {x : Int} (hlow : 0 ≤ x) (hhigh : x < 16) {b : UInt8} (hb : b.toNat < 16) :
    ((UInt8.ofInt (x * 16) ||| b) >>> 4).toNat = x.toNat := by
  have hdigit : (UInt8.ofInt (x * 16)).toNat = x.toNat * 16 := by
    rw [toNat_ofInt]
    omega
  have hshift : ((UInt8.ofInt (x * 16) ||| b) >>> 4).toNat = (x.toNat * 16 ||| b.toNat) >>> 4 := by
    rw [UInt8.toNat_shiftRight,UInt8.toNat_or,hdigit]
    rfl
  have hup : (x.toNat * 16) >>> 4 = x.toNat := by
    rw [Nat.shiftRight_eq_div_pow]
    omega
  have hdown : b.toNat >>> 4 = 0 := by
    rw [Nat.shiftRight_eq_div_pow]
    omega
  rw [hshift,Nat.shiftRight_or_distrib,hup,hdown,Nat.or_zero]

theorem readOsc_programmed (h : Programmed r swp s) (hr : r = 0 ∨ r = 1) (hlow : 0 ≤ swp.fOSC) (hhigh : swp.fOSC ≤ 2150)
    (heven : r = 0 → swp.fOSC % 2 = 0) :
    readOsc (s.written 0x22) (s.written 0x23) (s.written 0x24) = swp.fOSC := by
  obtain ⟨m,hm,hlow',hhigh',hback⟩ : ∃ m : Int, (swp.fOSC * 2 ^ r).tdiv 2 = m ∧ 0 ≤ m ∧ m ≤ 2150 ∧
      swp.fOSC = if r = 0 then 2 * m else m := by
    refine ⟨_,rfl,?_⟩
    rcases hr with rfl | rfl
    · have := heven rfl
      rw [Int.pow_zero,Int.mul_one,Int.tdiv_eq_ediv_of_nonneg hlow,if_pos rfl]
      omega
    · rw [Int.pow_one,Int.mul_tdiv_cancel _ (by decide),if_neg (by decide)]
      omega
  have hhighByte : UInt8.ofInt (m / 4096 % 32) = 0 := by
    have hzero : m / 4096 % 32 = 0 := by omega
    rw [hzero]
    rfl
  rw [readOsc,h.high,h.middle,h.low,hm,hhighByte,toNat_ofInt,
    highDigit_or (by omega) (by omega) (rfBand_lt swp.fOSC),hback]
  rcases hr with rfl | rfl
  · have hselect : (UInt8.ofNat (0 <<< 5) ||| 0) &&& 0x1f = 0 ∧ ((UInt8.ofNat (0 <<< 5) ||| 0) &&& 0xe0) >>> 5 = 0 := by
      decide
    rw [hselect.1,if_pos hselect.2,if_pos rfl,UInt8.toNat_zero]
    omega
  · have hselect : (UInt8.ofNat (1 <<< 5) ||| 0) &&& 0x1f = 0 ∧ ((UInt8.ofNat (1 <<< 5) ||| 0) &&& 0xe0) >>> 5 ≠ 0 := by
      decide
    rw [hselect.1,if_neg hselect.2,if_neg (by decide),UInt8.toNat_zero]
    omega

theorem ReadsBack.run (h : ReadsBack bus s) {e : Int} {reg : UInt8}
    (hreg : reg ∈ ([0x49, 0x2a, 0x2b, 0x2c, 0x22, 0x23, 0x24] : List UInt8)) {u : Chip} (hu : s.transfers ≤ u.transfers) :
    (readOr bus e reg).run u = (.ok (s.written reg), u.tick) := by
  rw [readOr_apply h.acks,h.programmed reg hreg _ hu]

theorem afcerrChk_apply (h : ReadsBack bus s) (smrt : Int) {u : Chip} (hu : s.transfers ≤ u.transfers) :
    (afcerrChk bus smrt 0 1).run u =
      (.ok ((afcmOf (s.written 0x2b) (s.written 0x2c) * (smrtInfoGet smrt).clkmst).tdiv 8192), u.tick.tick) := by
  rw [afcerrChk,if_pos (Or.inr rfl),if_neg (by decide),if_neg (by decide),
    Driven.run_bind (h.run (by decide) hu),Driven.run_bind (h.run (by decide) (Nat.le_succ_of_le hu)),Driven.run_pure]

theorem freqerrChk_apply (h : ReadsBack bus s) (hen : s.written 0x49 = 0xfa) (hafcexen : s.written 0x2a &&& 0x20 = 0x20)
    (fTP smrt : Int) :
    ((freqerrChk bus fTP smrt 1).run s).1 =
      .ok ((afcmOf (s.written 0x2b) (s.written 0x2c) * (smrtInfoGet smrt).clkmst).tdiv 8192 +
        (readOsc (s.written 0x22) (s.written 0x23) (s.written 0x24) - fTP) * 1000) := by
  have hafcen : ((0xfa : UInt8) &&& 0x04) >>> 2 = 0 := by decide
  have hone : (0x20 : UInt8) >>> 5 = 1 := by decide
  have hcarrier : (readOr bus eremoteio 0x43).run s = (.ok 0, s.tick) := by
    rw [readOr_apply h.acks,h.carrier _ (Nat.le_refl _)]
  have hexternal : ∀ u : Chip, s.transfers ≤ u.transfers → (afcexenChk bus 0).run u = (.ok 1, u.tick) := by
    intro u hu
    rw [afcexenChk,if_pos rfl,Driven.run_bind (h.run (by decide) hu),Driven.run_pure,hafcexen,hone]
  have htick : ∀ u : Chip, s.transfers ≤ u.transfers → s.transfers ≤ u.tick.transfers := fun _ => Nat.le_succ_of_le
  have h1 := htick s (Nat.le_refl _)
  have h2 := htick _ h1
  have h3 := htick _ h2
  have h5 := htick _ (htick _ h3)
  have h6 := htick _ h5
  have h7 := htick _ h6
  rw [freqerrChk,Driven.run_bind hcarrier,Driven.run_bind (h.run (by decide) h1),hen,hafcen,
    Driven.run_bind (hexternal _ h2),Driven.run_bind (afcerrChk_apply h smrt h3),Driven.run_bind (h.run (by decide) h5),
    Driven.run_bind (h.run (by decide) h6),Driven.run_bind (h.run (by decide) h7),Driven.run_pure]
  simp

end RoundTrip

/-- The frequency and the offset are read back as they are programmed, up to the rounding of the offset; and the timing
offsets of a search have 12 bits. -/
theorem frequency_round_trip (bus : Bus) (smrt swpFreq fTP : Int) (s : Chip) (hsmrt : 1000 ≤ smrt) (hsmrt' : smrt ≤ 45000)
    (hlow : 950000 ≤ swpFreq) (hhigh : swpFreq ≤ 2150000) :
    (ReadsBack bus ((finalLock bus smrt swpFreq).run s).2 →
      ∃ khz : Int, ((freqerrChk bus fTP smrt 1).run ((finalLock bus smrt swpFreq).run s).2).1 = .ok khz ∧
        8192 * (khz - (swpFreq - fTP * 1000)).natAbs < (smrtInfoGet smrt).clkmst + 8192) ∧
      ∀ sr ∈ searchRates smrt, 0 ≤ timingOffset sr (smrtInfoGet sr) ∧ timingOffset sr (smrtInfoGet sr) ≤ 4095 ∧
        ((∀ n, bus.acks n = true) → ((((smrtSet bus sr (smrtInfoGet sr)).run s).2.written 0x05).toNat * 256 +
              (((smrtSet bus sr (smrtInfoGet sr)).run s).2.written 0x04).toNat : Int) =
            timingOffset sr (smrtInfoGet sr)) := by
  refine ⟨fun h => ?_, fun sr hsr => ?_⟩
  · obtain ⟨t, hrun, hprogrammed, hen, hafcexen⟩ := finalLock_apply h.acks smrt swpFreq s
    obtain ⟨hlow', hhigh', heven, -, -⟩ := nearestOsc_spec (vcoDevGet smrt) hlow hhigh
    obtain ⟨hnine, hnine'⟩ := afcexOf_bounds (vcoDevGet smrt) (smrtInfoGet smrt) hlow hhigh
    have hclock : 0 < (smrtInfoGet smrt).clkmst := by
      rcases clkmst_cases (smrtInfoGet smrt) with hclk | hclk <;> omega
    rw [swpInfoGet2_eq (vcoDevGet smrt) _ hlow hhigh] at hprogrammed
    have hosc := readOsc_programmed hprogrammed (vcoDevGet_cases smrt) hlow' hhigh' heven
    have hoffset : afcmOf (t.written 0x2b) (t.written 0x2c) =
        afcexOf (vcoDevGet smrt) swpFreq (smrtInfoGet smrt).clkmst := by
      rw [hprogrammed.afcexL, hprogrammed.afcexH]
      exact afcmOf_eq hnine hnine'
    rw [hrun] at h ⊢
    refine ⟨_, freqerrChk_apply h hen hafcexen fTP smrt, ?_⟩
    rw [hosc, hoffset, afcexOf]
    dsimp only
    obtain ⟨hfrom, hto⟩ := tdiv_round_trip (swpFreq - nearestOsc (vcoDevGet smrt) swpFreq * 1000) (n := 8192)
      (by decide) hclock
    omega
  · obtain ⟨hle, hle'⟩ := searchRates_bounds hsmrt hsmrt' sr hsr
    obtain ⟨hnonneg, hbits⟩ := timingOffset_bounds hle hle'
    refine ⟨hnonneg, hbits, fun hacks => ?_⟩
    rw [smrtSet_apply hacks]
    simp only [written_write, if_true, if_neg (by decide : ¬ (0x04 : UInt8) = 0x05), toNat_ofInt]
    omega

section Samples

/-- A bus on which everything succeeds and reads as behind a lock to 1100.4 MHz at 27.5 MBaud. -/
def lockedBus : Bus where
  acks _ := true
  data _ reg :=
    if reg = 0x43 then 0
    else ((finalLock ⟨fun _ => true, fun _ _ => 0⟩ 27500 1100400).run ⟨fun _ => 0, 0⟩).2.written reg

theorem readsBack_lockedBus : ReadsBack lockedBus ((finalLock lockedBus 27500 1100400).run ⟨fun _ => 0, 0⟩).2 where
  acks _ := rfl
  carrier _ _ := rfl
  programmed reg hreg n _ := by
    have hcarrier : reg ≠ 0x43 := by
      rintro rfl
      exact absurd hreg (by decide)
    exact if_neg hcarrier

/-- 1100.4 MHz. -/
theorem frequency_round_trip_1100400 :
    ∃ khz : Int, ((freqerrChk lockedBus 1100 27500 1).run ((finalLock lockedBus 27500 1100400).run ⟨fun _ => 0, 0⟩).2).1 =
        .ok khz ∧ 8192 * (khz - (1100400 - 1100 * 1000)).natAbs < (smrtInfoGet 27500).clkmst + 8192 :=
  (frequency_round_trip lockedBus 27500 1100400 1100 ⟨fun _ => 0, 0⟩ (by decide) (by decide) (by decide) (by decide)).1
    readsBack_lockedBus

end Samples

end LinuxDvb.Mb86a16
