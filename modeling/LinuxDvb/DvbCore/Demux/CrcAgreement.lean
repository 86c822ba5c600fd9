import LinuxDvb.DvbCore.Dmxdev.CheckCrc
import LinuxDvb.LibUcsi.SectionCrc

/-!
# One CRC in the kernel and in the library

The kernel computes the CRC of a section bit by bit, libucsi with a table of bytes. A feed that checks CRCs hands on
just the sections that the library takes.
-/

namespace LinuxDvb.Demux

open CrcRegister
open Ucsi (crcPoly byteBits crc32Byte crc32Byte_run topByte topBits_topByte)

theorem toBitVec_crc32BeBit (crc : UInt32) : (crc32BeBit crc).toBitVec = feed crcPoly crc.toBitVec false := by
  have hmsb : crc &&& 0x80000000 = 0 ↔ crc.toBitVec.msb = false := by
    have hbit : crc.toBitVec.msb = crc.toNat.testBit 31 := BitVec.msb_eq_getLsbD_last _
    rw [hbit,← UInt32.toNat_inj,UInt32.toNat_and]
    change crc.toNat &&& 2 ^ 31 = 0 ↔ _
    rw [Nat.and_two_pow]
    cases crc.toNat.testBit 31 <;> decide
  unfold crc32BeBit
  rw [feed,Bool.xor_false,reduction]
  split
  · next h =>
    rw [hmsb.mp h,if_neg Bool.false_ne_true]
    simp
  · next h =>
    rw [Bool.eq_true_of_not_eq_false fun hzero => h (hmsb.mpr hzero),if_pos rfl]
    rfl

theorem crc32BeByte_eq (crc : UInt32) (b : UInt8) : crc32BeByte crc b = crc32Byte crc b := by
  have hbits : (crc32BeByte crc b).toBitVec =
      run crcPoly (crc.toBitVec ^^^ (b.toUInt32 <<< 24).toBitVec) (List.replicate 8 false) := by
    simp only [crc32BeByte,Nat.repeat,toBitVec_crc32BeBit,UInt32.toBitVec_xor]
    rfl
  have hsame : xorBits (byteBits b) (byteBits b) = List.replicate 8 false := by
    rw [xorBits,List.zipWith_self]
    simp [byteBits,topBits]
  have htop : (b.toUInt32 <<< 24).toBitVec = b.toBitVec.setWidth 32 <<< 24 := rfl
  have hbyte : topByte (b.toUInt32 <<< 24).toBitVec = b.toBitVec := by
    rw [htop]
    generalize b.toBitVec = x
    revert x
    decide +kernel
  have hout : run crcPoly (b.toUInt32 <<< 24).toBitVec (byteBits b) = 0#32 := by
    rw [byteBits,← hbyte,topBits_topByte,run_topBits crcPoly _ (by decide),htop]
    generalize b.toBitVec = x
    revert x
    decide +kernel
  apply UInt32.toBitVec_inj.mp
  rw [hbits,← hsame,run_xor crcPoly rfl,hout,BitVec.xor_zero,crc32Byte_run]

theorem crc32Be_eq (crc : UInt32) (bytes : List UInt8) : crc32Be crc bytes = bytes.foldl crc32Byte crc := by
  induction bytes generalizing crc with
  | nil => rfl
  | cons b bytes ih => rw [crc32Be,foldl_cons,foldl_cons,crc32BeByte_eq,← ih,crc32Be]

/-- A section of the long form is handed to the filters that accept it just when `section_check_crc` takes it. -/
theorem checkedSection_iff {feed : DvbDemuxFeed} (hcb : feed.cbSec = fun _ _ => 0) (hcheck : feed.sec.checkCrc = true)
    {tableId high low : UInt8} {rest : List UInt8} (hlong : high &&& 0x80 ≠ 0)
    (hlen : high.toNat % 16 * 256 + low.toNat = rest.length)
    (hwire : feed.sec.secbufBase.slice feed.sec.secbuf (rest.length + 3) = tableId :: high :: low :: rest)
    (x : Nat) (sec : List UInt8) :
    .cbSec x sec ∈ (dvbDmxSwfilterSectionFeed (feed.openSection (rest.length + 3))).2 ↔
      feed.sec.isFiltering = true ∧ (Ucsi.sectionCheckCrc (tableId :: low :: high :: rest)).map Prod.fst = some 0 ∧
        sec = tableId :: high :: low :: rest ∧
        ∃ f ∈ feed.filter, f.accepts (feed.sec.secbufBase.shift feed.sec.secbuf) = true ∧ f.index = x := by
  have hhigh : feed.sec.secbufBase (feed.sec.secbuf + 1) = high :=
    (some_inj.mp (Mem.apply_of_slice_eq hwire (by omega : 1 < rest.length + 3))).symm
  have hkernel : (sectionCheckCrc (feed.openSection (rest.length + 3)) (tableId :: high :: low :: rest)).1 = false ↔
      (Ucsi.sectionCheckCrc (tableId :: low :: high :: rest)).map Prod.fst = some 0 := by
    have hall : (tableId :: high :: low :: rest).take (high.toNat % 16 * 256 + low.toNat + 3) =
      tableId :: high :: low :: rest := take_of_length_le (by simp [hlen])
    rw [Ucsi.sectionCheckCrc_eq (Nat.le_of_eq hlen),hall,← crc32Be_eq]
    unfold sectionCheckCrc
    simp only [DvbDemuxFeed.openSection,hcheck,hhigh,dvbDmxCrc32]
    rw [if_pos ⟨trivial,hlong⟩,Option.map_some,some_inj,show Ucsi.crc32Init = 0xffffffff from rfl]
    by_cases hzero : crc32Be 0xffffffff (tableId :: high :: low :: rest) = 0 <;> simp [hzero]
  rw [@Dmxdev.swfilterSectionFeed_callbacks (feed.openSection (rest.length + 3)) hcb]
  simp only [DvbDemuxFeed.openSection,hwire] at hkernel ⊢
  rw [hkernel]

/-- A section that a burst of at most 32 bits has changed goes to no filter, if the burst leaves its syntax indicator
set. -/
theorem burst_not_delivered {feed : DvbDemuxFeed} (hcb : feed.cbSec = fun _ _ => 0) (hcheck : feed.sec.checkCrc = true)
    {sent received : List UInt8} (hsent : crc32Be 0xffffffff sent = 0) (hburst : Ucsi.BurstApart sent received)
    (hwire : feed.sec.secbufBase.slice feed.sec.secbuf received.length = received)
    (hlong : feed.sec.secbufBase (feed.sec.secbuf + 1) &&& 0x80 ≠ 0) (x : Nat) (sec : List UInt8) :
    .cbSec x sec ∉ (dvbDmxSwfilterSectionFeed (feed.openSection received.length)).2 := by
  have hcrc : crc32Be 0xffffffff received ≠ 0 := by
    rw [← hsent,crc32Be_eq,crc32Be_eq]
    exact (hburst.crc_ne _).symm
  rw [@Dmxdev.swfilterSectionFeed_callbacks (feed.openSection received.length) hcb]
  simp only [DvbDemuxFeed.openSection,hwire,sectionCheckCrc,hcheck,dvbDmxCrc32]
  rw [if_pos ⟨trivial,hlong⟩]
  simp [hcrc]

def checkingFeed (wire : List UInt8) : DvbDemuxFeed :=
  { zeroFeed with
    filter := [⟨fun _ => 0, fun _ => 0, fun _ => 0, fun _ => 0, fun _ => 0, false, 0⟩]
    sec := { zeroFeed.sec with isFiltering := true, checkCrc := true, secbufBase := .ofList wire } }

theorem checkedSection_delivered : .cbSec 0 [0, 0x80, 4, 0x26, 0xec, 0xd3, 0x44] ∈ (dvbDmxSwfilterSectionFeed
    ((checkingFeed [0, 0x80, 4, 0x26, 0xec, 0xd3, 0x44]).openSection 7)).2 := by
  refine (@checkedSection_iff (checkingFeed [0, 0x80, 4, 0x26, 0xec, 0xd3, 0x44]) rfl rfl 0 0x80 4
    [0x26, 0xec, 0xd3, 0x44] (by decide) rfl rfl 0 _).mpr ⟨rfl,by decide +kernel,rfl,_,mem_singleton_self _,?_,rfl⟩
  decide

theorem burst_not_delivered_small : .cbSec 0 [0, 0x80, 4, 0x26, 0xec, 0xd3, 0x45] ∉ (dvbDmxSwfilterSectionFeed
    ((checkingFeed [0, 0x80, 4, 0x26, 0xec, 0xd3, 0x45]).openSection 7)).2 := by
  refine @burst_not_delivered (checkingFeed [0, 0x80, 4, 0x26, 0xec, 0xd3, 0x45]) rfl rfl
    [0, 0x80, 4, 0x26, 0xec, 0xd3, 0x44] [0, 0x80, 4, 0x26, 0xec, 0xd3, 0x45] (by decide +kernel)
    ⟨rfl,by decide,24,fun i => ?_⟩ rfl (by decide) 0 _
  by_cases hi : i < 56
  · revert i
    decide +kernel
  · have hle : 56 ≤ i := Nat.not_lt.mp hi
    exact fun hne => absurd ((getElem?_eq_none hle).trans (getElem?_eq_none hle).symm) hne

end LinuxDvb.Demux
