import LinuxDvb.Framework.BitCodes
import LinuxDvb.Framework.MachineWord

/-!
# The header of an AC-3 stream

`dvb_filter_get_ac3info`: the search for the sync word, and the rates and the frame size which the header after it
selects from three tables.
-/

namespace LinuxDvb.DvbFilter

/-- `struct dvb_audio_info`, the fields that AC-3 sets. -/
structure AudioInfo where
  layer : Nat
  bit_rate : Nat
  frequency : Nat
  framesize : Nat
  off : Nat
deriving DecidableEq, Repr

def freq : List Nat := [480, 441, 320, 0]

def ac3_bitrates : List Nat :=
  [32, 40, 48, 56, 64, 80, 96, 112, 128, 160, 192, 224, 256, 320, 384, 448, 512, 576, 640,
    0, 0, 0, 0, 0, 0, 0, 0, 0, 0, 0, 0, 0]

def ac3_frames : List (List Nat) :=
  [[64, 80, 96, 112, 128, 160, 192, 224, 256, 320, 384, 448, 512, 640, 768, 896, 1024,
      1152, 1280, 0, 0, 0, 0, 0, 0, 0, 0, 0, 0, 0, 0, 0],
    [69, 87, 104, 121, 139, 174, 208, 243, 278, 348, 417, 487, 557, 696, 835, 975, 1114,
      1253, 1393, 0, 0, 0, 0, 0, 0, 0, 0, 0, 0, 0, 0, 0],
    [96, 120, 144, 168, 192, 240, 288, 336, 384, 480, 576, 672, 768, 960, 1152, 1344,
      1536, 1728, 1920, 0, 0, 0, 0, 0, 0, 0, 0, 0, 0, 0, 0, 0]]

section Definitions

variable (mbuf : Nat → UInt8) (count : Int32)

def byteAt (i : Nat) : Except WordFault UInt8 :=
  if i < count.toNatClampNeg then .ok (mbuf i) else .error .outOfBounds

/-- The loop `while (!found && c < count)`, with the number of bytes left in front of `count`. -/
def findSync : Nat → Nat → Except WordFault (Option Nat)
  | 0, _ => .ok none
  | left + 1, c => do
    let b0 ← byteAt mbuf count c
    if b0 = 0x0b then
      -- `&&` reads the second byte only now
      let b1 ← byteAt mbuf count (c + 1)
      if b1 = 0x77 then pure (some c) else findSync left (c + 1)
    else findSync left (c + 1)

/-- The size of a frame in bytes, from the number of the rate and the code of the sampling frequency. -/
def framesize (frame : UInt8) (fr : Nat) : Except WordFault Nat :=
  match ac3_frames[fr]? with
  | none => .error .outOfBounds
  | some sizes => do
    let size ← entry sizes (frame >>> 1).toNat
    pure ((if frame &&& 1 ≠ 0 ∧ fr = 1 then size + 1 else size) <<< 1)

/-- The fields which `headr[2]` selects. -/
def readHeader (headr2 : UInt8) (ai : AudioInfo) : Except WordFault AudioInfo := do
  let frame := headr2 &&& 0x3f
  let bit_rate ← entry ac3_bitrates (frame >>> 1).toNat
  let fr := ((headr2 &&& 0xc0) >>> 6).toNat
  let frequency ← entry freq fr
  let size ← framesize frame fr
  pure { ai with layer := 0, bit_rate := bit_rate * 1000, frequency := frequency * 100, framesize := size }

/-- What is returned, and `*ai`. The sum `c + 5` is one of type `int`. -/
def dvb_filter_get_ac3info (ai : AudioInfo) : Except WordFault (Int × AudioInfo) := do
  match ← findSync mbuf count count.toNatClampNeg 0 with
  | none => pure (-1, ai)
  | some c =>
    let ai := { ai with off := c }
    if Int32.ofNat c + 5 ≥ count then pure (-1, ai)
    else
      let headr2 ← byteAt mbuf count (c + 2 + 2)
      let ai ← readHeader headr2 ai
      pure (0, ai)

/-- The sync word stands at `c`. -/
def SyncAt (c : Nat) : Prop := mbuf c = 0x0b ∧ mbuf (c + 1) = 0x77

def FirstSync (c : Nat) : Prop := SyncAt mbuf c ∧ ∀ d < c, ¬ SyncAt mbuf d

/-- Nothing outside of the buffer and the tables is read, and a header that is reported lies inside the buffer. -/
def Ac3InBounds (ai : AudioInfo) : Prop :=
  ∃ ret info, dvb_filter_get_ac3info mbuf count ai = .ok (ret, info) ∧
    (ret = 0 → SyncAt mbuf info.off ∧ info.off + 5 < count.toNatClampNeg)

/-- The sync word that is found leaves room for the sum `c + 5` in an `int`, and the header after it does not have the
reserved sampling frequency; where none is found, the buffer does not end with the first byte of one. -/
def Ac3Readable : Prop :=
  (∀ c, c + 1 < count.toNatClampNeg → FirstSync mbuf c →
    c < 2147483643 ∧ (c + 5 < count.toNatClampNeg → mbuf (c + 4) >>> 6 ≠ 3)) ∧
  ((∀ c, c + 1 < count.toNatClampNeg → ¬ SyncAt mbuf c) → 0 < count.toNatClampNeg →
    mbuf (count.toNatClampNeg - 1) ≠ 0x0b)

end Definitions

variable {mbuf : Nat → UInt8} {count : Int32} {c s left : Nat} {ai : AudioInfo}

section Search

theorem byteAt_inside (h : c < count.toNatClampNeg) : byteAt mbuf count c = .ok (mbuf c) := if_pos h

theorem byteAt_outside (h : count.toNatClampNeg ≤ c) : byteAt mbuf count c = .error .outOfBounds :=
  if_neg (Nat.not_lt.mpr h)

theorem findSync_pass (hc : c < count.toNatClampNeg) (hnext : mbuf c = 0x0b → c + 1 < count.toNatClampNeg)
    (hsync : ¬ SyncAt mbuf c) : findSync mbuf count (left + 1) c = findSync mbuf count left (c + 1) := by
  rw [findSync,byteAt_inside hc]
  by_cases hfirst : mbuf c = 0x0b
  · have hsecond : mbuf (c + 1) ≠ 0x77 := fun h => hsync ⟨hfirst,h⟩
    simp only [bind,Except.bind,if_pos hfirst,byteAt_inside (hnext hfirst),if_neg hsecond]
  · simp only [bind,Except.bind,if_neg hfirst]

theorem findSync_found (hs : FirstSync mbuf s) (hinside : s + 1 < count.toNatClampNeg) (hcs : c ≤ s)
    (hleft : s < c + left) : findSync mbuf count left c = .ok (some s) := by
  induction left generalizing c with
  | zero => omega
  | succ left ih =>
    rcases Nat.eq_or_lt_of_le hcs with rfl | hlt
    · rw [findSync,byteAt_inside (by omega)]
      simp only [bind,Except.bind,if_pos hs.1.1,byteAt_inside hinside,if_pos hs.1.2]
      rfl
    · rw [findSync_pass (by omega) (fun _ => by omega) (hs.2 c hlt)]
      exact ih hlt (by omega)

theorem findSync_none (hnone : ∀ c, c + 1 < count.toNatClampNeg → ¬ SyncAt mbuf c)
    (hlast : mbuf (count.toNatClampNeg - 1) ≠ 0x0b) (hleft : c + left = count.toNatClampNeg) :
    findSync mbuf count left c = .ok none := by
  induction left generalizing c with
  | zero => rfl
  | succ left ih =>
    rcases Nat.eq_zero_or_pos left with rfl | hpos
    · have hc : count.toNatClampNeg - 1 = c := by omega
      rw [hc] at hlast
      rw [findSync_pass (by omega) (fun h => absurd h hlast) (fun h => hlast h.1)]
      rfl
    · rw [findSync_pass (by omega) (fun _ => by omega) (hnone c (by omega))]
      exact ih (by omega)

theorem findSync_fault (hnone : ∀ c, c + 1 < count.toNatClampNeg → ¬ SyncAt mbuf c)
    (hlast : mbuf (count.toNatClampNeg - 1) = 0x0b) (hpos : 0 < left) (hleft : c + left = count.toNatClampNeg) :
    findSync mbuf count left c = .error .outOfBounds := by
  induction left generalizing c with
  | zero => omega
  | succ left ih =>
    rcases Nat.eq_zero_or_pos left with rfl | hpos'
    · have hc : count.toNatClampNeg - 1 = c := by omega
      rw [hc] at hlast
      rw [findSync,byteAt_inside (by omega)]
      simp only [bind,Except.bind,if_pos hlast,byteAt_outside (show count.toNatClampNeg ≤ c + 1 by omega)]
    · rw [findSync_pass (by omega) (fun _ => by omega) (hnone c (by omega))]
      exact ih hpos' (by omega)

end Search

section Header

theorem rate_lt (headr2 : UInt8) : ((headr2 &&& 0x3f) >>> 1).toNat < 32 := by
  have hand : (headr2 &&& 0x3f).toNat ≤ 63 := Nat.and_le_right
  have hhalf : ((headr2 &&& 0x3f) >>> 1).toNat = (headr2 &&& 0x3f).toNat / 2 := by
    rw [UInt8.toNat_shiftRight,Nat.shiftRight_eq_div_pow]
    rfl
  omega

theorem exists_entry (table : List Nat) {i : Nat} (h : i < table.length) : ∃ value, entry table i = .ok value := by
  refine ⟨table[i],?_⟩
  rw [entry,getElem?_eq_getElem h]

theorem exists_framesize {frame : UInt8} {fr : Nat} (hrate : (frame >>> 1).toNat < 32) (hfr : fr < 3) :
    ∃ size, framesize frame fr = .ok size := by
  have hrows : ∀ sizes ∈ ac3_frames, sizes.length = 32 := by decide
  have hrow : ac3_frames[fr]? = some ac3_frames[fr] := getElem?_eq_getElem hfr
  obtain ⟨size,hsize⟩ := exists_entry ac3_frames[fr] (by rwa [hrows _ (List.getElem_mem hfr)])
  refine ⟨(if frame &&& 1 ≠ 0 ∧ fr = 1 then size + 1 else size) <<< 1,?_⟩
  simp only [framesize,hrow,hsize]
  rfl

theorem code_eq (headr2 : UInt8) : (headr2 &&& 0xc0) >>> 6 = headr2 >>> 6 := by
  revert headr2
  exact BitCodes.forall_byte (by decide +kernel)

theorem code_lt (headr2 : UInt8) : (headr2 >>> 6).toNat < 4 := by
  have hbyte := headr2.toNat_lt
  rw [UInt8.toNat_shiftRight,Nat.shiftRight_eq_div_pow]
  change headr2.toNat / 64 < 4
  omega

theorem readHeader_ok (ai : AudioInfo) {headr2 : UInt8} (h : headr2 >>> 6 ≠ 3) :
    ∃ info, readHeader headr2 ai = .ok info ∧ info.off = ai.off := by
  have hthree : (headr2 >>> 6).toNat ≠ 3 := fun hcode => h (UInt8.toNat_inj.mp hcode)
  have hcode : (headr2 >>> 6).toNat < 3 := by
    have := code_lt headr2
    omega
  obtain ⟨bit_rate,hbit_rate⟩ := exists_entry ac3_bitrates (rate_lt headr2)
  obtain ⟨frequency,hfrequency⟩ := exists_entry freq (code_lt headr2)
  obtain ⟨size,hsize⟩ := exists_framesize (rate_lt headr2) hcode
  refine ⟨⟨0,bit_rate * 1000,frequency * 100,size,ai.off⟩,?_,rfl⟩
  simp only [readHeader,code_eq,hbit_rate,hfrequency,hsize]
  rfl

theorem readHeader_fault {headr2 : UInt8} (h : headr2 >>> 6 = 3) : readHeader headr2 ai = .error .outOfBounds := by
  obtain ⟨bit_rate,hbit_rate⟩ := exists_entry ac3_bitrates (rate_lt headr2)
  -- there is no fourth row of frame sizes
  have hrow : framesize (headr2 &&& 0x3f) (3 : UInt8).toNat = .error .outOfBounds := rfl
  have hfrequency : entry freq (3 : UInt8).toNat = .ok 0 := rfl
  simp only [readHeader,code_eq,h,hbit_rate,hfrequency,hrow]
  rfl

end Header

section Check

theorem count_lt : count.toNatClampNeg < 2147483648 := by
  have := count.toInt_lt
  rw [Int32.toNatClampNeg]
  omega

theorem toInt_sum (hc : c < 2147483648) :
    (Int32.ofNat c + 5).toInt = if c < 2147483643 then (c : Int) + 5 else (c : Int) + 5 - 4294967296 := by
  have hsum : (Int32.ofNat c + 5).toInt = ((c : Int) + 5).bmod 4294967296 := by
    rw [Int32.toInt_add,Int32.toInt_ofNat']
    exact Int.bmod_add_bmod
  rw [hsum,Int.bmod_def]
  split <;> split <;> omega

theorem check_iff (hc : c < 2147483643) (hinside : c < count.toNatClampNeg) :
    Int32.ofNat c + 5 ≥ count ↔ count.toNatClampNeg ≤ c + 5 := by
  rw [ge_iff_le,Int32.le_iff_toInt_le,toInt_sum (by omega),if_pos hc]
  rw [Int32.toNatClampNeg] at *
  omega

theorem check_wraps (hc : 2147483643 ≤ c) (hinside : c < count.toNatClampNeg) : ¬ Int32.ofNat c + 5 ≥ count := by
  have hcount : count.toNatClampNeg < 2147483648 := count_lt
  rw [ge_iff_le,Int32.le_iff_toInt_le,toInt_sum (by omega),if_neg (by omega)]
  rw [Int32.toNatClampNeg] at *
  omega

end Check

section Calls

theorem get_ac3info_none (h : findSync mbuf count count.toNatClampNeg 0 = .ok none) :
    dvb_filter_get_ac3info mbuf count ai = .ok (-1, ai) := by
  rw [dvb_filter_get_ac3info,h]
  rfl

theorem get_ac3info_fault (ai : AudioInfo) (h : findSync mbuf count count.toNatClampNeg 0 = .error .outOfBounds) :
    dvb_filter_get_ac3info mbuf count ai = .error .outOfBounds := by
  rw [dvb_filter_get_ac3info,h]
  rfl

theorem get_ac3info_short (h : findSync mbuf count count.toNatClampNeg 0 = .ok (some c))
    (hcheck : Int32.ofNat c + 5 ≥ count) :
    dvb_filter_get_ac3info mbuf count ai = .ok (-1, { ai with off := c }) := by
  rw [dvb_filter_get_ac3info,h]
  exact if_pos hcheck

theorem get_ac3info_header (ai : AudioInfo) (h : findSync mbuf count count.toNatClampNeg 0 = .ok (some c))
    (hcheck : ¬ Int32.ofNat c + 5 ≥ count) :
    dvb_filter_get_ac3info mbuf count ai = (do
      let headr2 ← byteAt mbuf count (c + 4)
      let info ← readHeader headr2 { ai with off := c }
      pure (0, info)) := by
  rw [dvb_filter_get_ac3info,h]
  exact if_neg hcheck

theorem inBounds_at (hfirst : FirstSync mbuf c) (hinside : c + 1 < count.toNatClampNeg) : Ac3InBounds mbuf count ai ↔
      c < 2147483643 ∧ (c + 5 < count.toNatClampNeg → mbuf (c + 4) >>> 6 ≠ 3) := by
  have hfound : findSync mbuf count count.toNatClampNeg 0 = .ok (some c) :=
    findSync_found hfirst hinside (Nat.zero_le c) (by omega)
  rcases Nat.lt_or_ge c 2147483643 with hc | hc
  · by_cases hroom : c + 5 < count.toNatClampNeg
    · have hcheck : ¬ Int32.ofNat c + 5 ≥ count := by
        rw [check_iff hc (by omega)]
        omega
      have hread := get_ac3info_header ai hfound hcheck
      rw [byteAt_inside (by omega)] at hread
      by_cases hcode : mbuf (c + 4) >>> 6 = 3
      · have hfault : dvb_filter_get_ac3info mbuf count ai = .error .outOfBounds := by
          rw [hread]
          change (readHeader (mbuf (c + 4)) { ai with off := c } >>= fun info => pure (0, info)) = _
          rw [readHeader_fault hcode]
          rfl
        constructor
        · rintro ⟨ret,info,hcall,-⟩
          rw [hfault] at hcall
          cases hcall
        · rintro ⟨-,h⟩
          exact absurd hcode (h hroom)
      · obtain ⟨info,hinfo,hoff⟩ := readHeader_ok { ai with off := c } hcode
        refine ⟨fun _ => ⟨hc,fun _ => hcode⟩,fun _ => ⟨0,info,?_,fun _ => ?_⟩⟩
        · rw [hread]
          change (readHeader (mbuf (c + 4)) { ai with off := c } >>= fun info => pure (0, info)) = _
          rw [hinfo]
          rfl
        · rw [hoff]
          exact ⟨hfirst.1,hroom⟩
    · have hcheck : Int32.ofNat c + 5 ≥ count := (check_iff hc (by omega)).mpr (by omega)
      refine ⟨fun _ => ⟨hc,fun h => absurd h hroom⟩,fun _ => ?_⟩
      exact ⟨-1,_,get_ac3info_short hfound hcheck,fun h => absurd h (by decide)⟩
  · -- the sum wraps, and the byte read stands behind every buffer
    have hfault : dvb_filter_get_ac3info mbuf count ai = .error .outOfBounds := by
      have hcount : count.toNatClampNeg < 2147483648 := count_lt
      rw [get_ac3info_header ai hfound (check_wraps hc (by omega)),byteAt_outside (by omega)]
      rfl
    constructor
    · rintro ⟨ret,info,hcall,-⟩
      rw [hfault] at hcall
      cases hcall
    · rintro ⟨h,-⟩
      omega

theorem inBounds_without (hnone : ∀ c, c + 1 < count.toNatClampNeg → ¬ SyncAt mbuf c) :
    Ac3InBounds mbuf count ai ↔ (0 < count.toNatClampNeg → mbuf (count.toNatClampNeg - 1) ≠ 0x0b) := by
  have hreturns (h : findSync mbuf count count.toNatClampNeg 0 = .ok none) : Ac3InBounds mbuf count ai :=
    ⟨-1,ai,get_ac3info_none h,fun h => absurd h (by decide)⟩
  rcases Nat.eq_zero_or_pos count.toNatClampNeg with hzero | hpos
  · refine ⟨fun _ h => absurd h (by omega),fun _ => hreturns ?_⟩
    rw [hzero]
    rfl
  · by_cases hlast : mbuf (count.toNatClampNeg - 1) = 0x0b
    · have hfault := get_ac3info_fault ai (findSync_fault hnone hlast hpos (Nat.zero_add _))
      constructor
      · rintro ⟨ret,info,hcall,-⟩
        rw [hfault] at hcall
        cases hcall
      · exact fun h => absurd hlast (h hpos)
    · exact ⟨fun _ _ => hlast,fun _ => hreturns (findSync_none hnone hlast (Nat.zero_add _))⟩

end Calls

theorem exists_firstSync (h : SyncAt mbuf s) : ∃ c, c ≤ s ∧ FirstSync mbuf c := by
  induction s using Nat.strongRecOn with
  | ind s ih =>
    by_cases hbefore : ∃ d < s, SyncAt mbuf d
    · obtain ⟨d,hd,hsync⟩ := hbefore
      obtain ⟨c,hc,hfirst⟩ := ih d hd hsync
      exact ⟨c,by omega,hfirst⟩
    · exact ⟨s,Nat.le_refl s,h,fun d hd hsync => hbefore ⟨d,hd,hsync⟩⟩

theorem FirstSync.eq (hc : FirstSync mbuf c) (hs : FirstSync mbuf s) : c = s := by
  rcases Nat.lt_trichotomy c s with h | h | h
  · exact absurd hc.1 (hs.2 c h)
  · exact h
  · exact absurd hs.1 (hc.2 s h)

/-- The parser keeps inside the buffer and the tables just for the buffers it can read. -/
theorem get_ac3info_inBounds_iff (mbuf : Nat → UInt8) (count : Int32) (ai : AudioInfo) :
    Ac3InBounds mbuf count ai ↔ Ac3Readable mbuf count := by
  by_cases hsome : ∃ s, s + 1 < count.toNatClampNeg ∧ SyncAt mbuf s
  · obtain ⟨s, hs, hsync⟩ := hsome
    obtain ⟨c, hcs, hfirst⟩ := exists_firstSync hsync
    have hinside : c + 1 < count.toNatClampNeg := by omega
    rw [inBounds_at hfirst hinside]
    constructor
    · intro h
      refine ⟨fun d _ hd => ?_, fun hnone => absurd hfirst.1 (hnone c hinside)⟩
      rw [hd.eq hfirst]
      exact h
    · exact fun h => h.1 c hinside hfirst
  · have hnone : ∀ c, c + 1 < count.toNatClampNeg → ¬ SyncAt mbuf c := fun c hc h => hsome ⟨c, hc, h⟩
    rw [inBounds_without hnone]
    exact ⟨fun h => ⟨fun c hc hfirst => absurd hfirst.1 (hnone c hc), fun _ => h⟩, fun h => h.2 hnone⟩

/-- A header with the reserved sampling frequency selects a row behind the table of frame sizes. -/
theorem get_ac3info_reserved :
    ¬ Ac3InBounds (fun i => [0x0b, 0x77, 0, 0, 0xc0, 0, 0, 0].getD i 0) 8 ⟨0, 0, 0, 0, 0⟩ := by
  rintro ⟨ret, info, hcall, -⟩
  have hfault : dvb_filter_get_ac3info (fun i => [0x0b, 0x77, 0, 0, 0xc0, 0, 0, 0].getD i 0) 8 ⟨0, 0, 0, 0, 0⟩ =
      .error .outOfBounds := by decide
  rw [hfault] at hcall
  cases hcall

end LinuxDvb.DvbFilter
