import LinuxDvb.LibUcsi.LengthLoop

/-!
# IP/MAC notification tables

`dvb_int_section_codec` goes through the platform descriptors and, in pairs, the target and the operational descriptor
loops.
-/

namespace LinuxDvb.Ucsi

open InPlace

/-- `sizeof(struct dvb_int_section)` -/
def sizeofIntSection : Nat := 14

/-- `sizeof(struct dvb_int_target)`, and of `struct dvb_int_operational_loop` -/
def sizeofIntLoop : Nat := 2

def intLengthModulus : Nat := 4096

/-- The difference of two sizes in `size_t`. -/
def wrappingSub (a b : Nat) : Option Nat := some (UInt64.ofNat a - UInt64.ofNat b).toNat

/-- The difference of two sizes, with none where `size_t` wraps. -/
def exactSub (a b : Nat) : Option Nat := if b ≤ a then some (a - b) else none

section Codec

variable (sub : Nat → Nat → Option Nat) (len : Nat)

/-- The checks of the target loop or of the operational loop at `pos`. -/
def intLoop (pos : Nat) : InPlace Nat := do
  change (bswap16 · pos)
  let size ← look (lengthBits intLengthModulus · pos)
  let room ← look fun _ => sub len pos
  refuseIf (room < size)
  let status ← look (verifyDescriptors · (pos + sizeofIntLoop) size)
  refuseIf (status ≠ 0)
  return pos + sizeofIntLoop + size

/-- The loop `while (pos < len)`, with fuel. -/
def intTargets : Nat → Nat → InPlace Unit
  | 0, _ => look fun _ => none
  | fuel + 1, pos =>
    if pos < len then do
      let pos ← intLoop sub len pos
      let pos ← intLoop sub len pos
      intTargets fuel pos
    else pure ()

/-- The codec, with the subtraction it uses. A pass takes at least four bytes, so that the fuel is enough. -/
def dvbIntSectionCodecWith : InPlace Unit := do
  let len ← look sectionExtLength
  refuseIf (len < sizeofIntSection)
  change (bswap32 · 8)
  change (bswap16 · 12)
  let pos := 8 + 9
  let size ← look (lengthBits intLengthModulus · 12)
  let room ← look fun _ => sub len pos
  refuseIf (room < size)
  let status ← look (verifyDescriptors · pos size)
  refuseIf (status ≠ 0)
  intTargets sub len (len + 1) (pos + size)

/-- `dvb_int_section_codec(ext)` -/
def dvbIntSectionCodec : InPlace Unit := dvbIntSectionCodecWith wrappingSub

end Codec

structure IntTarget where
  target : LengthLoop intLengthModulus
  operational : LengthLoop intLengthModulus

def IntTarget.bytes (order : ByteOrder) (t : IntTarget) : List UInt8 := t.target.bytes order ++ t.operational.bytes order

/-- What an IP/MAC notification table holds between the extended header and the CRC. The platform and the order of its
processing are one word. -/
structure IntBody where
  platformId : Field 4
  platform : LengthLoop intLengthModulus
  targets : List IntTarget

def IntBody.bytes (order : ByteOrder) (body : IntBody) : List UInt8 :=
  order.field body.platformId.val ++ (body.platform.bytes order ++ body.targets.flatMap (IntTarget.bytes order))

section Frame

theorem lengthBits_append_of_some {m n pos : Nat} {buf : List UInt8} (h : lengthBits m buf pos = some n)
    (tail : List UInt8) : lengthBits m (buf ++ tail) pos = some n := by
  obtain ⟨word,hword,rfl⟩ := map_eq_some_iff.mp h
  rw [lengthBits,word16_append_of_some hword tail]
  rfl

theorem sectionExtLength_append_of_some {n : Nat} {buf : List UInt8} (h : sectionExtLength buf = some n)
    (tail : List UInt8) : sectionExtLength (buf ++ tail) = some n := by
  obtain ⟨length,hlength,rfl⟩ := map_eq_some_iff.mp h
  obtain ⟨word,hword,rfl⟩ := map_eq_some_iff.mp hlength
  rw [sectionExtLength,sectionLengthField,lengthField,word16_append_of_some hword tail]
  rfl

theorem verifyDescriptorsFrom_append_of_some {buf : List UInt8} {off len pos : Nat} {status : Int}
    (h : verifyDescriptorsFrom buf off len pos = some status) (tail : List UInt8) :
    verifyDescriptorsFrom (buf ++ tail) off len pos = some status := by
  fun_induction verifyDescriptorsFrom buf off len pos with
  | case1 pos hpos hshort => rw [verifyDescriptorsFrom,if_pos hpos,if_pos hshort,h]
  | case2 pos hpos hroom hnone => cases h
  | case3 pos hpos hroom size hsize ih =>
    rw [verifyDescriptorsFrom,if_pos hpos,if_neg hroom,getElem?_append_of_some hsize tail]
    exact ih h
  | case4 pos hpos hend => rw [verifyDescriptorsFrom,if_neg hpos,if_pos hend,h]
  | case5 pos hpos hend => rw [verifyDescriptorsFrom,if_neg hpos,if_neg hend,h]

theorem wrappingSub_of_exactSub {a b room : Nat} (ha : a < 2 ^ 64) (h : exactSub a b = some room) :
    wrappingSub a b = some room := by
  by_cases hle : b ≤ a
  · rw [exactSub,if_pos hle] at h
    cases h
    have hb : b < 2 ^ 64 := Nat.lt_of_le_of_lt hle ha
    have hsub : (UInt64.ofNat b).toNat ≤ (UInt64.ofNat a).toNat := by
      rwa [UInt64.toNat_ofNat_of_lt' ha,UInt64.toNat_ofNat_of_lt' hb]
    rw [wrappingSub,UInt64.toNat_sub_of_le _ _ hsub,UInt64.toNat_ofNat_of_lt' ha,UInt64.toNat_ofNat_of_lt' hb]
  · rw [exactSub,if_neg hle] at h
    cases h

theorem extends_intLoop {len pos : Nat} (hlen : len < 2 ^ 64) :
    Extends (intLoop exactSub len pos) (intLoop wrappingSub len pos) := by
  refine extends_bind (extends_change fun _ _ h => bswap16_append_of_some h) fun _ _ => ?_
  refine extends_bind (extends_look fun _ _ h => lengthBits_append_of_some h) fun size _ => ?_
  refine extends_bind (extends_look fun _ _ h _ => wrappingSub_of_exactSub hlen h) fun room _ => ?_
  refine extends_bind (extends_refuseIf _) fun _ _ => ?_
  refine extends_bind (extends_look fun _ _ h => verifyDescriptorsFrom_append_of_some h) fun status _ => ?_
  exact extends_bind (extends_refuseIf _) fun _ _ => extends_pure _

theorem extends_intTargets {len : Nat} (hlen : len < 2 ^ 64) (fuel pos : Nat) :
    Extends (intTargets exactSub len fuel pos) (intTargets wrappingSub len fuel pos) := by
  induction fuel generalizing pos with
  | zero =>
    intro buf r buf' h
    cases h
  | succ fuel ih =>
    rw [intTargets,intTargets]
    split
    · refine extends_bind (extends_intLoop hlen) fun pos' _ => ?_
      exact extends_bind (extends_intLoop hlen) fun pos'' _ => ih pos''
    · exact extends_pure ()

theorem extends_dvbIntSectionCodec : Extends (dvbIntSectionCodecWith exactSub) dvbIntSectionCodec := by
  refine extends_bind (extends_look fun _ _ h => sectionExtLength_append_of_some h) fun len hlen => ?_
  have hsmall : len < 2 ^ 64 := by
    obtain ⟨buf,buf',h⟩ := hlen
    obtain ⟨len',hlen',heq⟩ := map_eq_some_iff.mp h
    cases heq
    obtain ⟨length,-,rfl⟩ := map_eq_some_iff.mp hlen'
    exact UInt64.toNat_lt _
  refine extends_bind (extends_refuseIf _) fun _ _ => ?_
  refine extends_bind (extends_change fun _ _ h => swapBytes_append_of_some h) fun _ _ => ?_
  refine extends_bind (extends_change fun _ _ h => bswap16_append_of_some h) fun _ _ => ?_
  refine extends_bind (extends_look fun _ _ h => lengthBits_append_of_some h) fun size _ => ?_
  refine extends_bind (extends_look fun _ _ h _ => wrappingSub_of_exactSub hsmall h) fun room _ => ?_
  refine extends_bind (extends_refuseIf _) fun _ _ => ?_
  refine extends_bind (extends_look fun _ _ h => verifyDescriptorsFrom_append_of_some h) fun status _ => ?_
  exact extends_bind (extends_refuseIf _) fun _ _ => extends_intTargets hsmall _ _

end Frame

end LinuxDvb.Ucsi
