import LinuxDvb.LibUcsi.TransportValues

/-!
# Extraction follows the layout

Each step of the walk stands where the layout has its field. What is extracted from the fields of the adaptation field
and its extension is what they hold, as far as they are checked against the end they have.
-/

namespace LinuxDvb.Ucsi

namespace TransportPacket

variable (pkt : TransportPacket)

theorem read_eq {pos : Nat} (h : pos < transportPacketLength) : pkt.read pos = .ok (pkt.byte pos) := by
  have hlt : pos < pkt.bytes.length := pkt.length_eq.symm ▸ h
  rw [read,byte,getElem?_eq_getElem hlt,getD_eq_getElem _ _ hlt]

theorem or_eq_add {x y : Nat} (k : Nat) (hx : x % 2 ^ k = 0) (hy : y < 2 ^ k) : x ||| y = x + y := by
  obtain ⟨a,rfl⟩ := Nat.dvd_of_mod_eq_zero hx
  rw [Nat.mul_comm,← Nat.shiftLeft_eq,Nat.shiftLeft_add_eq_or_of_lt hy]

theorem clock_base {b0 b1 b2 b3 b4 : Nat} (h1 : b1 < 256) (h2 : b2 < 256) (h3 : b3 < 256) (h4 : b4 < 256) :
    b0 * 2 ^ 25 ||| b1 * 2 ^ 17 ||| b2 * 2 ^ 9 ||| b3 * 2 ^ 1 ||| b4 / 2 ^ 7 =
      b0 * 2 ^ 25 + b1 * 2 ^ 17 + b2 * 2 ^ 9 + b3 * 2 ^ 1 + b4 / 2 ^ 7 := by
  rw [or_eq_add (x := b0 * 2 ^ 25) 25 (by omega) (by omega),
    or_eq_add (x := b0 * 2 ^ 25 + b1 * 2 ^ 17) 17 (by omega) (by omega),
    or_eq_add (x := b0 * 2 ^ 25 + b1 * 2 ^ 17 + b2 * 2 ^ 9) 9 (by omega) (by omega),
    or_eq_add (x := b0 * 2 ^ 25 + b1 * 2 ^ 17 + b2 * 2 ^ 9 + b3 * 2 ^ 1) 1 (by omega) (by omega)]

theorem clockAt_eq {pos : Nat} (h : pos + 6 ≤ transportPacketLength) : clockAt pkt pos = .ok (pkt.clock pos) := by
  have hread : ∀ i < 6, pkt.read (pos + i) = .ok (pkt.byte (pos + i)) := fun i hi => pkt.read_eq (by omega)
  have h0 := (pkt.byte pos).toNat_lt
  have h1 := (pkt.byte (pos + 1)).toNat_lt
  have h2 := (pkt.byte (pos + 2)).toNat_lt
  have h3 := (pkt.byte (pos + 3)).toNat_lt
  have h4 := (pkt.byte (pos + 4)).toNat_lt
  have h5 := (pkt.byte (pos + 5)).toNat_lt
  have hlow : ((pkt.byte (pos + 4)) &&& 1).toNat = (pkt.byte (pos + 4)).toNat % 2 := by
    rw [UInt8.toNat_and]
    exact Nat.and_one_is_mod _
  have hread0 := hread 0 (by decide)
  rw [Nat.add_zero] at hread0
  simp only [clockAt,hread0,hread 1 (by decide),hread 2 (by decide),hread 3 (by decide),hread 4 (by decide),
    hread 5 (by decide),bind,Except.bind,pure,Except.pure,hlow,Nat.shiftLeft_eq,Nat.shiftRight_eq_div_pow]
  rw [clock_base h1 h2 h3 h4,or_eq_add 8 (by omega) (by omega),clock]
  simp only [word,Nat.add_zero]
  refine congrArg Except.ok ?_
  omega

theorem ltwOffset_eq (pos : Nat) :
    ((pkt.byte pos &&& 0x7f).toNat <<< 8) ||| (pkt.byte (pos + 1)).toNat = pkt.word pos 2 % 2 ^ 15 := by
  have h1 := (pkt.byte (pos + 1)).toNat_lt
  have hlow : (pkt.byte pos &&& 0x7f).toNat = (pkt.byte pos).toNat % 2 ^ 7 := by
    rw [UInt8.toNat_and]
    exact Nat.and_two_pow_sub_one_eq_mod _ 7
  rw [hlow,Nat.shiftLeft_eq,or_eq_add 8 (by omega) (by omega)]
  simp only [word,Nat.add_zero]
  omega

theorem piecewiseRate_eq (pos : Nat) :
    ((pkt.byte pos &&& 0x3f).toNat <<< 16) ||| ((pkt.byte (pos + 1)).toNat <<< 8) ||| (pkt.byte (pos + 2)).toNat =
      pkt.word pos 3 % 2 ^ 22 := by
  have h1 := (pkt.byte (pos + 1)).toNat_lt
  have h2 := (pkt.byte (pos + 2)).toNat_lt
  have hlow : (pkt.byte pos &&& 0x3f).toNat = (pkt.byte pos).toNat % 2 ^ 6 := by
    rw [UInt8.toNat_and]
    exact Nat.and_two_pow_sub_one_eq_mod _ 6
  rw [hlow,Nat.shiftLeft_eq,Nat.shiftLeft_eq,
    or_eq_add (x := (pkt.byte pos).toNat % 2 ^ 6 * 2 ^ 16) 16 (by omega) (by omega),
    or_eq_add 8 (by omega) (by omega)]
  simp only [word,Nat.add_zero]
  omega

theorem dts_parts {b0 b1 b2 b3 b4 : Nat} (h1 : b1 < 256) (h2 : b2 < 256) (h3 : b3 < 256) (h4 : b4 < 256) :
    2 * (b0 / 2 % 8) % 4294967296 * 536870912 % 4294967296 ||| b1 % 4294967296 * 4194304 % 4294967296 |||
      2 * (b2 / 2) % 4294967296 * 16384 % 4294967296 ||| b3 % 4294967296 * 128 % 4294967296 |||
      2 * (b4 / 2) % 4294967296 / 2 =
      b0 / 2 % 4 * 2 ^ 30 + b1 * 2 ^ 22 + b2 / 2 * 2 ^ 15 + b3 * 2 ^ 7 + b4 / 2 := by
  have hshift : ∀ {x : Nat} (k : Nat), x * k < 4294967296 → 0 < k → x % 4294967296 * k % 4294967296 = x * k := by
    intro x k hlt hk
    rw [Nat.mod_eq_of_lt (Nat.lt_of_le_of_lt (Nat.le_mul_of_pos_right x hk) hlt),Nat.mod_eq_of_lt hlt]
  have htop : 2 * (b0 / 2 % 8) % 4294967296 * 536870912 % 4294967296 = b0 / 2 % 4 * 2 ^ 30 := by omega
  rw [htop,hshift 4194304 (by omega) (by decide),hshift 16384 (by omega) (by decide),
    hshift 128 (by omega) (by decide),show 2 * (b4 / 2) % 4294967296 / 2 = b4 / 2 by omega]
  clear htop hshift
  rw [or_eq_add (x := b0 / 2 % 4 * 2 ^ 30) 30 (by omega) (by omega),
    or_eq_add (x := b0 / 2 % 4 * 2 ^ 30 + b1 * 4194304) 22 (by omega) (by omega),
    or_eq_add (x := b0 / 2 % 4 * 2 ^ 30 + b1 * 4194304 + 2 * (b2 / 2) * 16384) 15 (by omega) (by omega),
    or_eq_add 7 (by omega) (by omega)]
  omega

/-- What the `int` of a time stamp is worth. -/
def dtsWord (b0 b1 b2 b3 b4 : UInt8) : BitVec 32 :=
  ((b0 &&& 0x0e).toBitVec.setWidth 32 <<< 29) ||| (b1.toBitVec.setWidth 32 <<< 22) |||
    ((b2 &&& 0xfe).toBitVec.setWidth 32 <<< 14) ||| (b3.toBitVec.setWidth 32 <<< 7) |||
    ((b4 &&& 0xfe).toBitVec.setWidth 32 >>> 1)

theorem toNat_dtsWord (b0 b1 b2 b3 b4 : UInt8) : (dtsWord b0 b1 b2 b3 b4).toNat =
      b0.toNat / 2 % 4 * 2 ^ 30 + b1.toNat * 2 ^ 22 + b2.toNat / 2 * 2 ^ 15 + b3.toNat * 2 ^ 7 + b4.toNat / 2 := by
  have hmask : ∀ n < 256, n &&& 0x0e = 2 * (n / 2 % 8) ∧ n &&& 0xfe = 2 * (n / 2) := by decide +kernel
  have h0 : (b0 &&& 0x0e).toNat = 2 * (b0.toNat / 2 % 8) := (hmask b0.toNat b0.toNat_lt).1
  have h2 : (b2 &&& 0xfe).toNat = 2 * (b2.toNat / 2) := (hmask b2.toNat b2.toNat_lt).2
  have h4 : (b4 &&& 0xfe).toNat = 2 * (b4.toNat / 2) := (hmask b4.toNat b4.toNat_lt).2
  simp only [dtsWord,BitVec.toNat_or,BitVec.toNat_shiftLeft,BitVec.toNat_ushiftRight,BitVec.toNat_setWidth,
    UInt8.toNat_toBitVec,h0,h2,h4,Nat.shiftLeft_eq,Nat.shiftRight_eq_div_pow,Nat.reducePow]
  exact dts_parts b1.toNat_lt b2.toNat_lt b3.toNat_lt b4.toNat_lt

theorem dtsValue_eq (b0 b1 b2 b3 b4 : UInt8) : dtsValue b0 b1 b2 b3 b4 = (dtsWord b0 b1 b2 b3 b4).toNat +
      if 2 ^ 31 ≤ (dtsWord b0 b1 b2 b3 b4).toNat then 2 ^ 64 - 2 ^ 32 else 0 := by
  have hvalue : dtsValue b0 b1 b2 b3 b4 = ((dtsWord b0 b1 b2 b3 b4).signExtend 64).toNat := rfl
  have hlt := (dtsWord b0 b1 b2 b3 b4).isLt
  have hwide : ((dtsWord b0 b1 b2 b3 b4).setWidth 64).toNat = (dtsWord b0 b1 b2 b3 b4).toNat := by
    rw [BitVec.toNat_setWidth]
    omega
  rw [hvalue,BitVec.toNat_signExtend,hwide,BitVec.msb_eq_decide]
  simp only [decide_eq_true_eq]

theorem dtsValue_eq_iff (pos : Nat) :
    dtsValue (pkt.byte pos) (pkt.byte (pos + 1)) (pkt.byte (pos + 2)) (pkt.byte (pos + 3)) (pkt.byte (pos + 4)) =
      pkt.timeStamp pos ↔ pkt.timeStamp pos < 2 ^ 31 := by
  have hstamp : pkt.timeStamp pos = (pkt.byte pos).toNat / 2 % 8 * 2 ^ 30 + (pkt.byte (pos + 1)).toNat * 2 ^ 22 +
      (pkt.byte (pos + 2)).toNat / 2 * 2 ^ 15 + (pkt.byte (pos + 3)).toNat * 2 ^ 7 + (pkt.byte (pos + 4)).toNat / 2 := by
    simp only [timeStamp,word,Nat.add_zero,Nat.add_assoc,Nat.reduceAdd]
    omega
  have h1 := (pkt.byte (pos + 1)).toNat_lt
  have h2 := (pkt.byte (pos + 2)).toNat_lt
  have h3 := (pkt.byte (pos + 3)).toNat_lt
  have h4 := (pkt.byte (pos + 4)).toNat_lt
  rw [dtsValue_eq,toNat_dtsWord,hstamp]
  split
  · omega
  · omega

end TransportPacket

/-! ### Sets of values -/

section Masks

theorem and_mask (m : Nat) (v : TransportValue) : m &&& v.mask = if hasValue m v then v.mask else 0 := by
  have hbit : ∃ i, v.mask = 2 ^ i := by
    cases v
    exacts [⟨0,rfl⟩, ⟨1,rfl⟩, ⟨2,rfl⟩, ⟨3,rfl⟩, ⟨8,rfl⟩, ⟨9,rfl⟩, ⟨10,rfl⟩]
  obtain ⟨i,hi⟩ := hbit
  rw [hasValue,hi,Nat.and_two_pow]
  cases m.testBit i with
  | false => simp
  | true => simp

theorem mask_and_mask (v u : TransportValue) : v.mask &&& u.mask = if u = v then v.mask else 0 := by
  cases v <;> cases u <;> rfl

theorem mask_ne_zero (v : TransportValue) : v.mask ≠ 0 := by cases v <;> decide

theorem hasValue_or (m : Nat) (v u : TransportValue) : hasValue (m ||| v.mask) u = (hasValue m u || u = v) := by
  rw [hasValue,Nat.and_or_distrib_right,mask_and_mask]
  by_cases huv : u = v
  · simp [huv,hasValue,mask_ne_zero]
  · simp [huv,hasValue]

theorem hasValue_zero (v : TransportValue) : hasValue 0 v = false := by
  rw [hasValue,Nat.zero_and]
  rfl

theorem subset_or {m extract : Nat} {v : TransportValue} (hm : m &&& extract = m) (hv : hasValue extract v = true) :
    (m ||| v.mask) &&& extract = m ||| v.mask := by
  rw [Nat.and_or_distrib_right,hm,Nat.and_comm v.mask,and_mask,if_pos hv]

end Masks

/-! ### The walk -/

def TransportPacket.Announced (pkt : TransportPacket) : TransportValue → Bool
  | .pcr => pkt.announces transportAdaptationFlagPcr
  | .opcr => pkt.announces transportAdaptationFlagOpcr
  | .spliceCountdown => pkt.announces transportAdaptationFlagSplicingPoint
  | .privateData => pkt.announces transportAdaptationFlagPrivateData
  | .ltw => pkt.extensionAnnounces transportAdaptationExtensionFlagLtw && 128 ≤ (pkt.byte pkt.ltwAt).toNat
  | .piecewiseRate => pkt.extensionAnnounces transportAdaptationExtensionFlagPiecewiseRate
  | .seamlessSplice => pkt.extensionAnnounces transportAdaptationExtensionFlagSeamlessSplice

/-- The walk stands at `stop` behind these fields: of them, those are extracted that are requested and announced. -/
structure Collected (pkt : TransportPacket) (extract : Nat) (processed : List TransportValue) (stop : Nat)
    (walk : Walk) : Prop where
  pos : walk.pos = stop
  subset : walk.extracted &&& extract = walk.extracted
  values : ∀ v, hasValue walk.extracted v = true ↔
    v ∈ processed ∧ hasValue extract v = true ∧ pkt.Announced v = true
  stores : ∀ v, hasValue walk.extracted v = true → pkt.Stores walk.out v

/-- A field that ends at `stop` is an error if it does not fit, and else the walk goes on behind it. -/
def Goes (pkt : TransportPacket) (extract adapend : Nat) (processed : List TransportValue) (stop : Nat)
    (r : Except Halt Walk) : Prop :=
  (stop ≤ adapend ∧ ∃ walk, r = .ok walk ∧ Collected pkt extract processed stop walk) ∨
    (adapend < stop ∧ r = .error .malformed)

theorem high_bit {b : UInt8} : b &&& 0x80 ≠ 0 ↔ 128 ≤ b.toNat := by
  have h : ∀ n < 256, (UInt8.ofNat n &&& 0x80 ≠ 0 ↔ 128 ≤ n) := by decide +kernel
  have hb := h b.toNat b.toNat_lt
  rwa [UInt8.ofNat_toNat] at hb

section Fields

variable {pkt : TransportPacket} {extract adapend pos : Nat} {processed : List TransportValue} {walk : Walk}

theorem Collected.pass {v : TransportValue} (h : Collected pkt extract processed pos walk)
    (hv : ¬ (hasValue extract v = true ∧ pkt.Announced v = true)) (stop : Nat) :
    Collected pkt extract (v :: processed) stop { walk with pos := stop } := by
  refine ⟨rfl,h.subset,fun u => (h.values u).trans ?_,h.stores⟩
  rw [mem_cons]
  constructor
  · exact fun hu => ⟨Or.inr hu.1,hu.2⟩
  · rintro ⟨rfl | hu,hrequested⟩
    · exact absurd hrequested hv
    · exact ⟨hu,hrequested⟩

theorem Collected.take {v : TransportValue} (h : Collected pkt extract processed pos walk)
    (hwanted : hasValue extract v = true) (hannounced : pkt.Announced v = true) {out : TransportValues}
    (hstores : pkt.Stores out v) (hothers : ∀ u, u ≠ v → pkt.Stores walk.out u → pkt.Stores out u) (stop : Nat) :
    Collected pkt extract (v :: processed) stop ⟨stop, out, walk.extracted ||| v.mask⟩ := by
  refine ⟨rfl,subset_or h.subset hwanted,fun u => ?_,fun u hu => ?_⟩
  · rw [hasValue_or,Bool.or_eq_true,h.values u,decide_eq_true_eq,mem_cons]
    constructor
    · rintro (hu | rfl)
      · exact ⟨Or.inr hu.1,hu.2⟩
      · exact ⟨Or.inl rfl,hwanted,hannounced⟩
    · rintro ⟨rfl | hu,hrequested⟩
      · exact Or.inr rfl
      · exact Or.inl ⟨hu,hrequested⟩
  · rw [hasValue_or,Bool.or_eq_true,decide_eq_true_eq] at hu
    by_cases huv : u = v
    · exact huv ▸ hstores
    · exact hothers u huv (h.stores u (hu.resolve_right huv))

theorem optionalField_goes (v : TransportValue) (size : Nat) {store : TransportValues → Except Halt TransportValues}
    (h : Collected pkt extract processed pos walk) (hpos : pos ≤ adapend)
    (hstore : pos + size ≤ adapend → ∃ out, store walk.out = .ok out ∧ pkt.Stores out v ∧
      ∀ u, u ≠ v → pkt.Stores walk.out u → pkt.Stores out u) :
    Goes pkt extract adapend (v :: processed) (pos + if pkt.Announced v then size else 0)
      (optionalField (pkt.Announced v) (hasValue extract v) size v.mask adapend store walk) := by
  rw [optionalField,h.pos]
  cases hannounced : pkt.Announced v with
  | false =>
    refine Or.inl ⟨hpos,walk,rfl,?_⟩
    have hpass := h.pass (v := v) (fun hv => by rw [hannounced] at hv; cases hv.2) pos
    have hsame : { walk with pos := pos } = walk := by rw [← h.pos]
    rwa [hsame] at hpass
  | true =>
    simp only [Bool.not_true,Bool.false_eq_true,if_false,if_true]
    by_cases hfits : adapend < pos + size
    · exact Or.inr ⟨hfits,if_pos hfits⟩
    · refine Or.inl ⟨Nat.not_lt.mp hfits,?_⟩
      rw [if_neg hfits]
      cases hwanted : hasValue extract v with
      | false => exact ⟨_,rfl,h.pass (fun hv => by rw [hwanted] at hv; cases hv.1) _⟩
      | true =>
        obtain ⟨out,hout,hstores,hothers⟩ := hstore (Nat.not_lt.mp hfits)
        refine ⟨⟨pos + size,out,walk.extracted ||| v.mask⟩,?_,h.take hwanted hannounced hstores hothers _⟩
        simp only [if_true,hout,bind,Except.bind,pure,Except.pure]

variable (hend : adapend ≤ transportPacketLength)

include hend

theorem pcrField_goes (h : Collected pkt extract processed 6 walk) (hpos : 6 ≤ adapend) :
    Goes pkt extract adapend (.pcr :: processed) pkt.opcrAt (pcrField pkt extract (pkt.byte 5) adapend walk) := by
  refine optionalField_goes .pcr 6 h hpos fun hfits => ⟨{ walk.out with pcr := pkt.clock 6 },?_,rfl,?_⟩
  · rw [h.pos,pkt.clockAt_eq (by omega)]
    rfl
  · intro u hu hs
    cases u <;> first | exact absurd rfl hu | exact hs

theorem opcrField_goes (h : Collected pkt extract processed pkt.opcrAt walk) (hpos : pkt.opcrAt ≤ adapend) :
    Goes pkt extract adapend (.opcr :: processed) pkt.spliceCountdownAt
      (opcrField pkt extract (pkt.byte 5) adapend walk) := by
  refine optionalField_goes .opcr 6 h hpos fun hfits => ⟨{ walk.out with opcr := pkt.clock pkt.opcrAt },?_,rfl,?_⟩
  · rw [h.pos,pkt.clockAt_eq (by omega)]
    rfl
  · intro u hu hs
    cases u <;> first | exact absurd rfl hu | exact hs

theorem spliceCountdownField_goes (h : Collected pkt extract processed pkt.spliceCountdownAt walk)
    (hpos : pkt.spliceCountdownAt ≤ adapend) :
    Goes pkt extract adapend (.spliceCountdown :: processed) pkt.privateDataAt
      (spliceCountdownField pkt extract (pkt.byte 5) adapend walk) := by
  refine optionalField_goes .spliceCountdown 1 h hpos fun hfits =>
    ⟨{ walk.out with spliceCountdown := pkt.byte pkt.spliceCountdownAt },?_,rfl,?_⟩
  · rw [h.pos,pkt.read_eq (by omega)]
    rfl
  · intro u hu hs
    cases u <;> first | exact absurd rfl hu | exact hs

theorem privateDataField_goes (h : Collected pkt extract processed pkt.privateDataAt walk)
    (hpos : pkt.privateDataAt ≤ adapend) :
    Goes pkt extract adapend (.privateData :: processed) pkt.extensionAt
      (privateDataField pkt extract (pkt.byte 5) adapend walk) := by
  rw [privateDataField,h.pos,TransportPacket.extensionAt]
  cases hannounced : pkt.announces transportAdaptationFlagPrivateData with
  | false =>
    have hflag : pkt.byte 5 &&& transportAdaptationFlagPrivateData = 0 := by
      simpa [TransportPacket.announces] using hannounced
    have hsame : { walk with pos := pkt.privateDataAt } = walk := by rw [← h.pos]
    have hpass := h.pass (v := .privateData) (fun hv => by rw [TransportPacket.Announced,hannounced] at hv; cases hv.2)
      pkt.privateDataAt
    rw [hsame] at hpass
    exact Or.inl ⟨hpos,walk,if_pos hflag,hpass⟩
  | true =>
    have hflag : ¬ pkt.byte 5 &&& transportAdaptationFlagPrivateData = 0 := by
      simpa [TransportPacket.announces] using hannounced
    have hstop : pkt.privateDataEnd = pkt.privateDataAt + (1 + (pkt.byte pkt.privateDataAt).toNat) := rfl
    rw [if_neg hflag,if_pos rfl]
    by_cases hlength : adapend < pkt.privateDataAt + 1
    · exact Or.inr ⟨by omega,if_pos hlength⟩
    rw [if_neg hlength,pkt.read_eq (by omega)]
    simp only [bind,Except.bind]
    by_cases hfits : adapend < pkt.privateDataAt + 1 + (pkt.byte pkt.privateDataAt).toNat
    · exact Or.inr ⟨by omega,if_pos hfits⟩
    rw [if_neg hfits]
    refine Or.inl ⟨by omega,?_⟩
    cases hwanted : hasValue extract .privateData with
    | false => exact ⟨_,rfl,h.pass (fun hv => by rw [hwanted] at hv; cases hv.1) _⟩
    | true =>
      refine ⟨_,rfl,h.take hwanted hannounced ⟨rfl,rfl⟩ ?_ _⟩
      intro u hu hs
      cases u <;> first | exact absurd rfl hu | exact hs

theorem ltwField_goes (h : Collected pkt extract processed pkt.ltwAt walk) (hpos : pkt.ltwAt ≤ adapend) :
    Goes pkt extract adapend (.ltw :: processed) pkt.piecewiseRateAt
      (ltwField pkt extract (pkt.byte (pkt.extensionAt + 1)) adapend walk) := by
  rw [ltwField,h.pos,TransportPacket.piecewiseRateAt]
  cases hflagged : pkt.extensionAnnounces transportAdaptationExtensionFlagLtw with
  | false =>
    have hflag : pkt.byte (pkt.extensionAt + 1) &&& transportAdaptationExtensionFlagLtw = 0 := by
      simpa [TransportPacket.extensionAnnounces] using hflagged
    have hsame : { walk with pos := pkt.ltwAt } = walk := by rw [← h.pos]
    have hpass := h.pass (v := .ltw) (fun hv => by rw [TransportPacket.Announced,hflagged] at hv; cases hv.2) pkt.ltwAt
    rw [hsame] at hpass
    exact Or.inl ⟨hpos,walk,if_pos hflag,hpass⟩
  | true =>
    have hflag : ¬ pkt.byte (pkt.extensionAt + 1) &&& transportAdaptationExtensionFlagLtw = 0 := by
      simpa [TransportPacket.extensionAnnounces] using hflagged
    rw [if_neg hflag,if_pos rfl]
    by_cases hfits : adapend < pkt.ltwAt + 2
    · exact Or.inr ⟨hfits,if_pos hfits⟩
    rw [if_neg hfits,pkt.read_eq (by omega),pkt.read_eq (by omega)]
    refine Or.inl ⟨Nat.not_lt.mp hfits,?_⟩
    cases hwanted : hasValue extract .ltw with
    | false => exact ⟨_,rfl,h.pass (fun hv => by rw [hwanted] at hv; cases hv.1) _⟩
    | true =>
      simp only [if_true,bind,Except.bind]
      by_cases hvalid : 128 ≤ (pkt.byte pkt.ltwAt).toNat
      · have hannounced : pkt.Announced .ltw = true := by
          rw [TransportPacket.Announced,hflagged,decide_eq_true hvalid]
          rfl
        rw [if_pos (high_bit.mpr hvalid)]
        refine ⟨_,rfl,h.take hwanted hannounced ?_ ?_ _⟩
        · exact pkt.ltwOffset_eq pkt.ltwAt
        · intro u hu hs
          cases u <;> first | exact absurd rfl hu | exact hs
      · rw [if_neg (fun hbit => hvalid (high_bit.mp hbit))]
        refine ⟨_,rfl,h.pass (fun hv => ?_) _⟩
        rw [TransportPacket.Announced,hflagged,decide_eq_false hvalid] at hv
        cases hv.2

theorem piecewiseRateField_goes (h : Collected pkt extract processed pkt.piecewiseRateAt walk)
    (hpos : pkt.piecewiseRateAt ≤ adapend) :
    Goes pkt extract adapend (.piecewiseRate :: processed) pkt.seamlessSpliceAt
      (piecewiseRateField pkt extract (pkt.byte (pkt.extensionAt + 1)) adapend walk) := by
  refine optionalField_goes .piecewiseRate 3 h hpos fun hfits =>
    ⟨{ walk.out with piecewiseRate := pkt.word pkt.piecewiseRateAt 3 % 2 ^ 22 },?_,rfl,?_⟩
  · simp only [h.pos,pkt.read_eq (show pkt.piecewiseRateAt < transportPacketLength by omega),
      pkt.read_eq (show pkt.piecewiseRateAt + 1 < transportPacketLength by omega),
      pkt.read_eq (show pkt.piecewiseRateAt + 2 < transportPacketLength by omega),bind,Except.bind,pure,Except.pure,
      pkt.piecewiseRate_eq]
  · intro u hu hs
    cases u <;> first | exact absurd rfl hu | exact hs

def spliced (pkt : TransportPacket) (extract : Nat) (walk : Walk) : Walk where
  pos := pkt.extensionFieldsEnd
  out :=
    if pkt.Announced .seamlessSplice = true ∧ hasValue extract .piecewiseRate = true then
      { walk.out with
        spliceType := pkt.byte pkt.seamlessSpliceAt >>> 4
        dtsNextAu := dtsValue (pkt.byte pkt.seamlessSpliceAt) (pkt.byte (pkt.seamlessSpliceAt + 1))
          (pkt.byte (pkt.seamlessSpliceAt + 2)) (pkt.byte (pkt.seamlessSpliceAt + 3))
          (pkt.byte (pkt.seamlessSpliceAt + 4)) }
    else walk.out
  extracted :=
    if pkt.Announced .seamlessSplice = true ∧ hasValue extract .piecewiseRate = true then
      walk.extracted ||| TransportValue.seamlessSplice.mask
    else walk.extracted

theorem seamlessSpliceField_eq (h : Collected pkt extract processed pkt.seamlessSpliceAt walk)
    (hpos : pkt.seamlessSpliceAt ≤ adapend) :
    seamlessSpliceField pkt extract (pkt.byte (pkt.extensionAt + 1)) adapend walk =
      if adapend < pkt.extensionFieldsEnd then .error .malformed else .ok (spliced pkt extract walk) := by
  have hflag : (pkt.byte (pkt.extensionAt + 1) &&& transportAdaptationExtensionFlagSeamlessSplice ≠ 0 : Bool) =
      pkt.extensionAnnounces transportAdaptationExtensionFlagSeamlessSplice := rfl
  rw [seamlessSpliceField,optionalField,h.pos,hflag,TransportPacket.extensionFieldsEnd]
  cases hannounced : pkt.extensionAnnounces transportAdaptationExtensionFlagSeamlessSplice with
  | false =>
    simp only [Bool.not_false,if_true,Bool.false_eq_true,if_false,Nat.add_zero,if_neg (Nat.not_lt.mpr hpos)]
    have hannounced' : pkt.Announced .seamlessSplice = false := hannounced
    have hsame : spliced pkt extract walk = walk := by
      simp only [spliced,hannounced',TransportPacket.extensionFieldsEnd,hannounced,Bool.false_eq_true,false_and,
        if_false,Nat.add_zero,← h.pos]
    rw [hsame]
    rfl
  | true =>
    simp only [Bool.not_true,Bool.false_eq_true,if_false,if_true]
    by_cases hfits : adapend < pkt.seamlessSpliceAt + 5
    · rw [if_pos hfits,if_pos hfits]
      rfl
    · have hannounced' : pkt.Announced .seamlessSplice = true := hannounced
      rw [if_neg hfits,if_neg hfits]
      simp only [spliced,hannounced',TransportPacket.extensionFieldsEnd,hannounced,true_and,if_true]
      cases hasValue extract .piecewiseRate with
      | false => rfl
      | true =>
        simp only [if_true,pkt.read_eq (show pkt.seamlessSpliceAt < transportPacketLength by omega),
          pkt.read_eq (show pkt.seamlessSpliceAt + 1 < transportPacketLength by omega),
          pkt.read_eq (show pkt.seamlessSpliceAt + 2 < transportPacketLength by omega),
          pkt.read_eq (show pkt.seamlessSpliceAt + 3 < transportPacketLength by omega),
          pkt.read_eq (show pkt.seamlessSpliceAt + 4 < transportPacketLength by omega),bind,Except.bind,pure,
          Except.pure]

omit hend in
theorem Goes.bind {stop stop' : Nat} {processed' : List TransportValue} {r : Except Halt Walk}
    {next : Walk → Except Halt Walk} (h : Goes pkt extract adapend processed stop r) (hle : stop ≤ stop')
    (hnext : ∀ walk, Collected pkt extract processed stop walk → stop ≤ adapend →
      Goes pkt extract adapend processed' stop' (next walk)) :
    Goes pkt extract adapend processed' stop' (r >>= next) := by
  obtain ⟨hfits, walk, rfl, hwalk⟩ | ⟨hover, rfl⟩ := h
  · exact hnext walk hwalk hfits
  · exact Or.inr ⟨Nat.lt_of_lt_of_le hover hle, rfl⟩

def normalFields (pkt : TransportPacket) (extract : Nat) (adapflags : UInt8) (adapend : Nat) (walk : Walk) :
    Except Halt Walk := do
  let walk ← pcrField pkt extract adapflags adapend walk
  let walk ← opcrField pkt extract adapflags adapend walk
  let walk ← spliceCountdownField pkt extract adapflags adapend walk
  privateDataField pkt extract adapflags adapend walk

theorem normalFields_go (h : Collected pkt extract [] 6 walk) (hpos : 6 ≤ adapend) :
    Goes pkt extract adapend [.privateData, .spliceCountdown, .opcr, .pcr] pkt.extensionAt
      (normalFields pkt extract (pkt.byte 5) adapend walk) := by
  have hprivate : pkt.privateDataAt ≤ pkt.extensionAt := by
    rw [TransportPacket.extensionAt]
    split
    · exact Nat.le_add_right _ _
    · exact Nat.le_refl _
  have hsplice : pkt.spliceCountdownAt ≤ pkt.privateDataAt := Nat.le_add_right _ _
  have hopcr : pkt.opcrAt ≤ pkt.spliceCountdownAt := Nat.le_add_right _ _
  refine (pcrField_goes hend h hpos).bind (by omega) fun walk h hpos => ?_
  refine (opcrField_goes hend h hpos).bind (by omega) fun walk h hpos => ?_
  refine (spliceCountdownField_goes hend h hpos).bind hprivate fun walk h hpos => ?_
  exact privateDataField_goes hend h hpos

def windowFields (pkt : TransportPacket) (extract : Nat) (adapextflags : UInt8) (adapend : Nat) (walk : Walk) :
    Except Halt Walk := do
  let walk ← ltwField pkt extract adapextflags adapend walk
  piecewiseRateField pkt extract adapextflags adapend walk

theorem windowFields_go (h : Collected pkt extract processed pkt.ltwAt walk) (hpos : pkt.ltwAt ≤ adapend) :
    Goes pkt extract adapend (.piecewiseRate :: .ltw :: processed) pkt.seamlessSpliceAt
      (windowFields pkt extract (pkt.byte (pkt.extensionAt + 1)) adapend walk) := by
  refine (ltwField_goes hend h hpos).bind (Nat.le_add_right _ _) fun walk h hpos => ?_
  exact piecewiseRateField_goes hend h hpos

def extensionPart (pkt : TransportPacket) (extract : Nat) (adapflags : UInt8) (adapend : Nat) (walk : Walk) :
    Except Halt Walk := do
  if adapflags &&& transportAdaptationFlagExtension = 0 then return walk
  if adapend ≤ walk.pos then throw .malformed
  let adapextlength ← pkt.read walk.pos
  if adapend < walk.pos + 1 + adapextlength.toNat then throw .malformed
  extensionFields pkt extract adapend { walk with pos := walk.pos + 1 } adapextlength.toNat

omit hend in
theorem adaptationFields_eq (adapflags : UInt8) (walk : Walk) : adaptationFields pkt extract adapflags adapend walk =
      (normalFields pkt extract adapflags adapend walk >>= extensionPart pkt extract adapflags adapend) := by
  simp only [normalFields,bind_assoc]
  rfl

omit hend in
theorem extensionFields_eq {flags : UInt8} {adapextlength : Nat} (hextract : extract &&& 0xff00 ≠ 0)
    (hlength : adapextlength ≠ 0) (hread : pkt.read walk.pos = .ok flags) :
    extensionFields pkt extract adapend walk adapextlength =
      (windowFields pkt extract flags adapend { walk with pos := walk.pos + 1 } >>=
        seamlessSpliceField pkt extract flags adapend) := by
  rw [extensionFields,if_neg (not_or.mpr ⟨hextract, hlength⟩),hread]
  simp only [windowFields,bind_assoc]
  rfl

end Fields

end LinuxDvb.Ucsi
