import LinuxDvb.LibDvbEn50221.AppApdus
import LinuxDvb.LibDvbEn50221.Mmi

/-!
# Display replies

`en50221_app_mmi_display_reply` answers a display control of the module. What the reply is to tell is read from a union;
the details here have all its members, and each kind of reply reads the one it has.
-/

namespace LinuxDvb.En50221

/-- `struct en50221_app_mmi_pixel_depth` -/
structure MmiPixelDepth where
  displayDepth : UInt8
  pixelsPerByte : UInt8
  regionOverhead : UInt8

/-- The graphics characteristics, with the memory that `pixel_depths` points to. -/
structure MmiGfx where
  width : UInt16
  height : UInt16
  aspectRatio : UInt8
  gfxRelationToVideo : UInt8
  multipleDepths : UInt8
  displayBytes : UInt16
  compositionBufferBytes : UInt8
  objectCacheBytes : UInt8
  numPixelDepths : UInt8
  pixelDepths : List MmiPixelDepth
  fits : numPixelDepths.toNat ≤ pixelDepths.length

/-- `struct en502221_app_mmi_display_reply_details` -/
structure MmiDisplayReplyDetails where
  mmiMode : UInt8
  charTable : AppBuffer
  gfx : MmiGfx

/-- The array of 32 bytes on the stack, not initialised, and what `alloca` returns for a size. -/
structure DisplayReplyStack where
  data : { bytes : List UInt8 // bytes.length = 32 }
  alloca : (size : Nat) → Option { bytes : List UInt8 // bytes.length = size }

def renderPixelDepths : List MmiPixelDepth → List UInt8 → Nat → Option (List UInt8 × Nat)
  | [], array, pixdepths => some (array, pixdepths)
  | d :: depths, array, pixdepths => do
    let array ← writeAt array pixdepths
      [UInt8.ofNat (((d.displayDepth.toNat &&& 0x07) <<< 5) ||| ((d.pixelsPerByte.toNat &&& 0x07) <<< 2)),
        d.regionOverhead]
    renderPixelDepths depths array (pixdepths + 2)

def MmiGfx.fixed (replyId : UInt8) (gfx : MmiGfx) : List UInt8 :=
  [replyId, UInt8.ofNat (gfx.width.toNat >>> 8), UInt8.ofNat gfx.width.toNat, UInt8.ofNat (gfx.height.toNat >>> 8),
    UInt8.ofNat gfx.height.toNat,
    UInt8.ofNat (((gfx.aspectRatio.toNat &&& 0x0f) <<< 4) ||| ((gfx.gfxRelationToVideo.toNat &&& 0x07) <<< 1) |||
      (gfx.multipleDepths.toNat &&& 1)),
    UInt8.ofNat (gfx.displayBytes.toNat >>> 4),
    UInt8.ofNat (((gfx.displayBytes.toNat &&& 0x0f) <<< 4) ||| ((gfx.compositionBufferBytes.toNat &&& 0xf0) >>> 4)),
    UInt8.ofNat (((gfx.compositionBufferBytes.toNat &&& 0x0f) <<< 4) ||| ((gfx.objectCacheBytes.toNat &&& 0xf0) >>> 4)),
    UInt8.ofNat (((gfx.objectCacheBytes.toNat &&& 0x0f) <<< 4) ||| (gfx.numPixelDepths.toNat &&& 0x0f))]

section Function

variable (stack : DisplayReplyStack) (sessionNumber : UInt16) (replyId : UInt8) (details : MmiDisplayReplyDetails)

def displayReplyShort (bytes : List UInt8) : Option SendOutcome := do
  let data ← writeAt stack.data.val 0 (tagBytes tagDisplayReply)
  let data ← writeAt data 3 bytes
  return .sent sessionNumber [data.take (3 + bytes.length)] details.charTable.memory

def displayReplyCharTables : Option SendOutcome := do
  let data ← writeAt stack.data.val 0 (tagBytes tagDisplayReply)
  match asn1Encode (details.charTable.length + 1).toUInt16 3 with
  | none => return .failed details.charTable.memory
  | some field =>
    let data ← writeAt data 3 field
    let data ← writeAt data (3 + field.length) [replyId]
    return .sent sessionNumber [data.take (3 + field.length + 1), details.charTable.payload] details.charTable.memory

/-- The second `iovec` has the pointer as it is after the loop. -/
def displayReplyGfx : Option SendOutcome := do
  let size := details.gfx.numPixelDepths.toNat * 2
  let data ← writeAt stack.data.val 0 (tagBytes tagDisplayReply)
  match asn1Encode (UInt16.ofNat (1 + 9 + size)) 3 with
  | none => return .failed details.charTable.memory
  | some field =>
    let data ← writeAt data 3 field
    let data ← writeAt data (3 + field.length) (details.gfx.fixed replyId)
    match stack.alloca size with
    | none => return .failed details.charTable.memory
    | some array =>
      let depths := details.gfx.pixelDepths.take details.gfx.numPixelDepths.toNat
      let (array, pixdepths) ← renderPixelDepths depths array.val 0
      let rendered ← bytesAt array pixdepths size
      return .sent sessionNumber [data.take (3 + field.length + 10), rendered] details.charTable.memory

/-- `en50221_app_mmi_display_reply` -/
def mmiDisplayReply : Option SendOutcome :=
  if replyId = mmiDisplayReplyIdMmiModeAck then
    displayReplyShort stack sessionNumber details [2, replyId, details.mmiMode]
  else if replyId = mmiDisplayReplyIdListDisplayCharTables ∨ replyId = mmiDisplayReplyIdListInputCharTables then
    displayReplyCharTables stack sessionNumber replyId details
  else if replyId = mmiDisplayReplyIdListOverlayGfxCharacteristics ∨
      replyId = mmiDisplayReplyIdListFullscreenGfxCharacteristics then
    displayReplyGfx stack sessionNumber replyId details
  else displayReplyShort stack sessionNumber details [1, replyId]

end Function

/-- What a display reply tells: the mode, the character tables, the graphics characteristics with their pixel depths,
or nothing else. -/
inductive DisplayReply where
  | modeAck (mmiMode : Nat)
  | charTables (tables : List UInt8)
  | gfx (width height aspectRatio gfxRelationToVideo multipleDepths displayBytes compositionBufferBytes
      objectCacheBytes : Nat) (pixelDepths : List (Nat × Nat × Nat))
  | error
  deriving DecidableEq

def decodePixelDepths : List UInt8 → Option (List (Nat × Nat × Nat))
  | [] => some []
  | a :: b :: rest => (decodePixelDepths rest).map ((a.toNat / 32, a.toNat / 4 % 8, b.toNat) :: ·)
  | _ => none

/-- The graphics characteristics: fields of 16, 16, 4, 3, 1, 12, 8 and 8 bits, the number of pixel depths in 4 bits, and
as many pixel depths. -/
def decodeGfx : List UInt8 → Option DisplayReply
  | w₁ :: w₀ :: h₁ :: h₀ :: a :: d :: c :: o :: n :: rest => do
    let depths ← decodePixelDepths rest
    if depths.length = n.toNat % 16 then
      some (.gfx (w₁.toNat * 256 + w₀.toNat) (h₁.toNat * 256 + h₀.toNat) (a.toNat / 16) (a.toNat / 2 % 8) (a.toNat % 2)
        (d.toNat * 16 + c.toNat / 16) (c.toNat % 16 * 16 + o.toNat / 16) (o.toNat % 16 * 16 + n.toNat / 16) depths)
    else none
  | _ => none

def decodeDisplayReply : List UInt8 → Option (UInt8 × DisplayReply)
  | [] => none
  | id :: rest =>
    if id = mmiDisplayReplyIdMmiModeAck then
      match rest with
      | [mode] => some (id, .modeAck mode.toNat)
      | _ => none
    else if id = mmiDisplayReplyIdListDisplayCharTables ∨ id = mmiDisplayReplyIdListInputCharTables then
      some (id, .charTables rest)
    else if id = mmiDisplayReplyIdListOverlayGfxCharacteristics ∨
        id = mmiDisplayReplyIdListFullscreenGfxCharacteristics then
      (decodeGfx rest).map (id, ·)
    else if rest = [] then some (id, .error)
    else none

def MmiGfx.content (gfx : MmiGfx) : DisplayReply :=
  .gfx gfx.width.toNat gfx.height.toNat gfx.aspectRatio.toNat gfx.gfxRelationToVideo.toNat gfx.multipleDepths.toNat
    gfx.displayBytes.toNat gfx.compositionBufferBytes.toNat gfx.objectCacheBytes.toNat
    ((gfx.pixelDepths.take gfx.numPixelDepths.toNat).map fun d =>
      (d.displayDepth.toNat, d.pixelsPerByte.toNat, d.regionOverhead.toNat))

def MmiDisplayReplyDetails.content (details : MmiDisplayReplyDetails) (replyId : UInt8) : DisplayReply :=
  if replyId = mmiDisplayReplyIdMmiModeAck then .modeAck details.mmiMode.toNat
  else if replyId = mmiDisplayReplyIdListDisplayCharTables ∨ replyId = mmiDisplayReplyIdListInputCharTables then
    .charTables details.charTable.payload
  else if replyId = mmiDisplayReplyIdListOverlayGfxCharacteristics ∨
      replyId = mmiDisplayReplyIdListFullscreenGfxCharacteristics then details.gfx.content
  else .error

def DisplayReplySent (sessionNumber : UInt16) (replyId : UInt8) (content : DisplayReply) : Option SendOutcome → Prop
  | none => False
  | some (.failed _) => True
  | some (.sent number iovs _) => number = sessionNumber ∧
      ∃ body, IsApdu tagDisplayReply body iovs.flatten ∧ decodeDisplayReply body = some (replyId, content)

/-- The graphics characteristics have no pixel depths, and each has the bits for its value. -/
structure MmiGfx.Encodes (gfx : MmiGfx) : Prop where
  numPixelDepths : gfx.numPixelDepths = 0
  aspectRatio : gfx.aspectRatio.toNat < 16
  gfxRelationToVideo : gfx.gfxRelationToVideo.toNat < 8
  multipleDepths : gfx.multipleDepths.toNat < 2
  displayBytes : gfx.displayBytes.toNat < 4096

/-! ## APDUs of the display replies

What is sent tells what the reply is to tell if the length fits and each value has its bits. The pixel depths are not
sent at all: the pointer to them is behind the array when it is put into the `iovec`. -/

section Sent

variable {stack : DisplayReplyStack} {sessionNumber : UInt16} {replyId : UInt8} {details : MmiDisplayReplyDetails}

theorem displayReplyShort_eq {bytes : List UInt8} (h : bytes.length ≤ 29) :
    displayReplyShort stack sessionNumber details bytes =
      some (.sent sessionNumber [tagBytes tagDisplayReply ++ bytes] details.charTable.memory) := by
  have hstack : stack.data.val.length = 32 := stack.data.property
  have htag : (tagBytes tagDisplayReply).length = 3 := rfl
  obtain ⟨buf₁,hwrite₁,hlength₁,htake₁⟩ :=
    writeAt_spec stack.data.val 0 (tagBytes tagDisplayReply) (by omega)
  obtain ⟨buf₂,hwrite₂,-,htake₂⟩ := writeAt_spec buf₁ 3 bytes (by omega)
  have htake₁' : buf₁.take 3 = tagBytes tagDisplayReply := by
    rw [htag,Nat.zero_add,List.take_zero,nil_append] at htake₁
    exact htake₁
  unfold displayReplyShort
  simp only [hwrite₁,hwrite₂,bind_eq_bind,bind_some]
  rw [htake₂,htake₁']
  rfl

theorem isApdu_two (tag : Nat) (a b : UInt8) : IsApdu tag [a, b] (tagBytes tag ++ [2, a, b]) :=
  ⟨[2], rfl, by simp [decodeLength,asn1Decode]⟩

theorem isApdu_one (tag : Nat) (a : UInt8) : IsApdu tag [a] (tagBytes tag ++ [1, a]) :=
  ⟨[1], rfl, by simp [decodeLength,asn1Decode]⟩

theorem displayReplyCharTables_eq {field : List UInt8}
    (h : asn1Encode (details.charTable.length + 1).toUInt16 3 = some field) :
    displayReplyCharTables stack sessionNumber replyId details =
      some (.sent sessionNumber [tagBytes tagDisplayReply ++ (field ++ [replyId]), details.charTable.payload]
        details.charTable.memory) := by
  obtain ⟨field',hfield',-,hthree⟩ := asn1Encode_isSome (details.charTable.length + 1).toUInt16
  obtain rfl : field = field' := Option.some.inj (h.symm.trans hfield')
  have hstack : stack.data.val.length = 32 := stack.data.property
  have hone : [replyId].length = 1 := rfl
  obtain ⟨buf₁,buf₂,buf₃,hwrite₁,hwrite₂,hwrite₃,htake⟩ :=
    writeAt_header (show 3 + field.length + [replyId].length ≤ stack.data.val.length by omega) tagDisplayReply
  unfold displayReplyCharTables
  simp only [hwrite₁,h,hwrite₂,hwrite₃,bind_eq_bind,bind_some]
  rw [← hone,htake]
  rfl

end Sent

section PixelDepths

theorem renderPixelDepths_spec (depths : List MmiPixelDepth) {array : List UInt8} {pixdepths : Nat}
    (h : pixdepths + 2 * depths.length ≤ array.length) :
    ∃ array', renderPixelDepths depths array pixdepths = some (array', pixdepths + 2 * depths.length) ∧
      array'.length = array.length := by
  induction depths generalizing array pixdepths with
  | nil => exact ⟨array,rfl,rfl⟩
  | cons d depths ih =>
    rw [length_cons] at h ⊢
    obtain ⟨array₁,hwrite,hlength,-⟩ := writeAt_spec array pixdepths
      [UInt8.ofNat (((d.displayDepth.toNat &&& 0x07) <<< 5) ||| ((d.pixelsPerByte.toNat &&& 0x07) <<< 2)),
        d.regionOverhead] (by rw [length_cons,length_singleton]; omega)
    have hroom : pixdepths + 2 + 2 * depths.length ≤ array₁.length := by omega
    obtain ⟨array',hrender,hlength'⟩ := ih hroom
    refine ⟨array',?_,hlength'.trans hlength⟩
    rw [renderPixelDepths,hwrite,bind_eq_bind,bind_some,hrender]
    refine congrArg (fun n => some (array', n)) ?_
    omega

variable {stack : DisplayReplyStack} {sessionNumber : UInt16} {replyId : UInt8} {details : MmiDisplayReplyDetails}

theorem displayReplyGfx_eq {field : List UInt8}
    (h : asn1Encode (UInt16.ofNat (1 + 9 + details.gfx.numPixelDepths.toNat * 2)) 3 = some field) :
    displayReplyGfx stack sessionNumber replyId details =
      match stack.alloca (details.gfx.numPixelDepths.toNat * 2) with
      | none => some (.failed details.charTable.memory)
      | some _ =>
        if details.gfx.numPixelDepths = 0 then
          some (.sent sessionNumber [tagBytes tagDisplayReply ++ (field ++ details.gfx.fixed replyId), []]
            details.charTable.memory)
        else none := by
  obtain ⟨field',hfield',-,hthree⟩ :=
    asn1Encode_isSome (UInt16.ofNat (1 + 9 + details.gfx.numPixelDepths.toNat * 2))
  obtain rfl : field = field' := Option.some.inj (h.symm.trans hfield')
  have hstack : stack.data.val.length = 32 := stack.data.property
  have hten : (details.gfx.fixed replyId).length = 10 := rfl
  obtain ⟨buf₁,buf₂,buf₃,hwrite₁,hwrite₂,hwrite₃,htake⟩ :=
    writeAt_header (show 3 + field.length + (details.gfx.fixed replyId).length ≤ stack.data.val.length by omega)
      tagDisplayReply
  unfold displayReplyGfx
  simp only [hwrite₁,h,hwrite₂,hwrite₃,bind_eq_bind,bind_some]
  cases halloca : stack.alloca (details.gfx.numPixelDepths.toNat * 2) with
  | none => rfl
  | some array =>
    have hdepths : (details.gfx.pixelDepths.take details.gfx.numPixelDepths.toNat).length =
        details.gfx.numPixelDepths.toNat := length_take_of_le details.gfx.fits
    have harray : array.val.length = details.gfx.numPixelDepths.toNat * 2 := array.property
    have hroom : 0 + 2 * (details.gfx.pixelDepths.take details.gfx.numPixelDepths.toNat).length ≤ array.val.length := by
      omega
    obtain ⟨array',hrender,hlength⟩ := renderPixelDepths_spec _ hroom
    rw [hdepths,Nat.zero_add] at hrender
    simp only [hrender,bind_some]
    rw [← hten,htake,bytesAt]
    by_cases hnone : details.gfx.numPixelDepths = 0
    · have hzero : details.gfx.numPixelDepths.toNat = 0 := by rw [hnone]; rfl
      rw [if_pos hnone,hzero,if_pos (Nat.zero_le _)]
      rfl
    · have hpos : details.gfx.numPixelDepths.toNat ≠ 0 := fun hzero => hnone (UInt8.toNat_inj.mp hzero)
      rw [if_neg hnone,if_neg (by omega)]
      rfl

end PixelDepths

section Characteristics

theorem packed_byte {a r m : Nat} (ha : a < 16) (hr : r < 8) (hm : m < 2) :
    (UInt8.ofNat ((a <<< 4) ||| (r <<< 1) ||| m)).toNat = a * 16 + r * 2 + m := by
  have h : ∀ a < 16, ∀ r < 8, ∀ m < 2, (UInt8.ofNat ((a <<< 4) ||| (r <<< 1) ||| m)).toNat = a * 16 + r * 2 + m := by
    decide +kernel
  exact h a ha r hr m hm

theorem packed_nibbles {a b : Nat} (ha : a < 16) (hb : b < 16) :
    (UInt8.ofNat ((a <<< 4) ||| b)).toNat = a * 16 + b := by
  have h : ∀ a < 16, ∀ b < 16, (UInt8.ofNat ((a <<< 4) ||| b)).toNat = a * 16 + b := by decide +kernel
  exact h a ha b hb

theorem high_nibble {x : Nat} (h : x < 256) : (x &&& 0xf0) >>> 4 = x / 16 := by
  have hx : ∀ x < 256, (x &&& 0xf0) >>> 4 = x / 16 := by decide +kernel
  exact hx x h

theorem decodeGfx_fixed {replyId : UInt8} {gfx : MmiGfx} (h : gfx.numPixelDepths = 0) :
    decodeGfx (gfx.fixed replyId).tail = some (.gfx gfx.width.toNat gfx.height.toNat (gfx.aspectRatio.toNat % 16)
      (gfx.gfxRelationToVideo.toNat % 8) (gfx.multipleDepths.toNat % 2) (gfx.displayBytes.toNat % 4096)
      gfx.compositionBufferBytes.toNat gfx.objectCacheBytes.toNat []) := by
  have hzero : gfx.numPixelDepths.toNat = 0 := by rw [h]; rfl
  have hmask : ∀ x k : Nat, x &&& (2 ^ k - 1) = x % 2 ^ k := fun x k => Nat.and_two_pow_sub_one_eq_mod x k
  have hfour : ∀ x : Nat, x &&& 0x0f = x % 16 := fun x => hmask x 4
  have hthree : ∀ x : Nat, x &&& 0x07 = x % 8 := fun x => hmask x 3
  have hone : ∀ x : Nat, x &&& 1 = x % 2 := fun x => hmask x 1
  have hcomposition := gfx.compositionBufferBytes.toNat_lt
  have hcache := gfx.objectCacheBytes.toNat_lt
  have hwidth := gfx.width.toNat_lt
  have hheight := gfx.height.toNat_lt
  simp only [MmiGfx.fixed,List.tail_cons,decodeGfx,decodePixelDepths,hfour,hthree,hone,hzero]
  rw [packed_byte (by omega) (by omega) (by omega),high_nibble hcomposition,high_nibble hcache,
    packed_nibbles (by omega) (by omega),packed_nibbles (by omega) (by omega),packed_nibbles (by omega) (by omega)]
  simp only [UInt8.toNat_ofNat',Nat.shiftRight_eq_div_pow]
  rw [bind_eq_bind,bind_some,if_pos (by rw [length_nil]; omega),Option.some.injEq,
    DisplayReply.gfx.injEq]
  exact ⟨by omega,by omega,by omega,by omega,by omega,by omega,by omega,by omega,rfl⟩

end Characteristics

def MmiDisplayReplyDetails.Encodes (details : MmiDisplayReplyDetails) (replyId : UInt8) : Prop :=
  (replyId = mmiDisplayReplyIdListDisplayCharTables ∨ replyId = mmiDisplayReplyIdListInputCharTables →
    details.charTable.length.toNat < 65535) ∧
  (replyId = mmiDisplayReplyIdListOverlayGfxCharacteristics ∨
      replyId = mmiDisplayReplyIdListFullscreenGfxCharacteristics → details.gfx.Encodes)

def zeroStack : DisplayReplyStack :=
  ⟨⟨List.replicate 32 0, rfl⟩, fun size => some ⟨List.replicate size 0, List.length_replicate⟩⟩

section Kinds

variable {stack : DisplayReplyStack} {sessionNumber : UInt16} {replyId : UInt8} {details : MmiDisplayReplyDetails}

theorem displayReplySent_iff {length : UInt16} {field body memory : List UInt8} {iovs : List (List UInt8)}
    {content : DisplayReply} (h : asn1Encode length 3 = some field)
    (hiovs : iovs.flatten = tagBytes tagDisplayReply ++ (field ++ body)) :
    DisplayReplySent sessionNumber replyId content (some (.sent sessionNumber iovs memory)) ↔
      length.toNat = body.length ∧ decodeDisplayReply body = some (replyId, content) := by
  rw [DisplayReplySent,hiovs]
  constructor
  · rintro ⟨-,body',hapdu,hdecode⟩
    obtain rfl := IsApdu.body_eq h hapdu
    exact ⟨(isApdu_iff h _ _).mp hapdu,hdecode⟩
  · intro ⟨hlength,hdecode⟩
    exact ⟨rfl,body,(isApdu_iff h _ _).mpr hlength,hdecode⟩

theorem charTables_sent_iff
    (hkind : replyId = mmiDisplayReplyIdListDisplayCharTables ∨ replyId = mmiDisplayReplyIdListInputCharTables) :
    DisplayReplySent sessionNumber replyId (.charTables details.charTable.payload)
        (displayReplyCharTables stack sessionNumber replyId details) ↔ details.charTable.length.toNat < 65535 := by
  have hack : replyId ≠ mmiDisplayReplyIdMmiModeAck := by
    rintro rfl
    exact absurd hkind (by decide)
  obtain ⟨field,hfield,-,-⟩ := asn1Encode_isSome (details.charTable.length + 1).toUInt16
  have hiovs : [tagBytes tagDisplayReply ++ (field ++ [replyId]), details.charTable.payload].flatten =
      tagBytes tagDisplayReply ++ (field ++ (replyId :: details.charTable.payload)) := by
    simp
  have hdecode : decodeDisplayReply (replyId :: details.charTable.payload) =
      some (replyId, .charTables details.charTable.payload) := by
    simp [decodeDisplayReply,hack,hkind]
  rw [displayReplyCharTables_eq hfield,displayReplySent_iff hfield hiovs,and_iff_left hdecode,length_cons,
    length_payload,UInt32.toNat_toUInt16,UInt32.toNat_add]
  simp only [UInt32.reduceToNat]
  omega

theorem gfx_sent_iff (hkind : replyId = mmiDisplayReplyIdListOverlayGfxCharacteristics ∨
      replyId = mmiDisplayReplyIdListFullscreenGfxCharacteristics) :
    (∀ stack, DisplayReplySent sessionNumber replyId details.gfx.content
        (displayReplyGfx stack sessionNumber replyId details)) ↔ details.gfx.Encodes := by
  have hack : replyId ≠ mmiDisplayReplyIdMmiModeAck := by
    rintro rfl
    exact absurd hkind (by decide)
  have hcharTables : ¬ (replyId = mmiDisplayReplyIdListDisplayCharTables ∨
      replyId = mmiDisplayReplyIdListInputCharTables) := by
    rintro (rfl | rfl) <;> exact absurd hkind (by decide)
  obtain ⟨field,hfield,-,-⟩ :=
    asn1Encode_isSome (UInt16.ofNat (1 + 9 + details.gfx.numPixelDepths.toNat * 2))
  have hiovs : [tagBytes tagDisplayReply ++ (field ++ details.gfx.fixed replyId), []].flatten =
      tagBytes tagDisplayReply ++ (field ++ details.gfx.fixed replyId) := by
    simp
  have hdecode : details.gfx.numPixelDepths = 0 → decodeDisplayReply (details.gfx.fixed replyId) =
      some (replyId, .gfx details.gfx.width.toNat details.gfx.height.toNat (details.gfx.aspectRatio.toNat % 16)
        (details.gfx.gfxRelationToVideo.toNat % 8) (details.gfx.multipleDepths.toNat % 2)
        (details.gfx.displayBytes.toNat % 4096) details.gfx.compositionBufferBytes.toNat
        details.gfx.objectCacheBytes.toNat []) := by
    intro hzero
    have hcons : details.gfx.fixed replyId = replyId :: (details.gfx.fixed replyId).tail := rfl
    rw [hcons]
    simp [decodeDisplayReply,hack,hcharTables,hkind,decodeGfx_fixed hzero]
  constructor
  · intro h
    have hsent := h zeroStack
    rw [displayReplyGfx_eq hfield] at hsent
    by_cases hzero : details.gfx.numPixelDepths = 0
    · simp only [if_pos hzero] at hsent
      have hcontent := ((displayReplySent_iff hfield hiovs).mp hsent).2
      rw [hdecode hzero,Option.some.injEq,Prod.mk.injEq,MmiGfx.content,DisplayReply.gfx.injEq] at hcontent
      exact ⟨hzero,by omega,by omega,by omega,by omega⟩
    · simp only [if_neg hzero] at hsent
      exact hsent.elim
  · intro h stack
    have hzero : details.gfx.numPixelDepths.toNat = 0 := by rw [h.numPixelDepths]; rfl
    rw [displayReplyGfx_eq hfield]
    cases stack.alloca (details.gfx.numPixelDepths.toNat * 2) with
    | none => trivial
    | some array =>
      simp only [if_pos h.numPixelDepths]
      apply (displayReplySent_iff hfield hiovs).mpr
      constructor
      · rw [hzero]
        rfl
      · rw [hdecode h.numPixelDepths,MmiGfx.content,hzero,Nat.mod_eq_of_lt h.aspectRatio,
          Nat.mod_eq_of_lt h.gfxRelationToVideo,Nat.mod_eq_of_lt h.multipleDepths,Nat.mod_eq_of_lt h.displayBytes]
        rfl

end Kinds

/-- For every kind of reply, whatever the array on the stack has in it: an error with nothing sent, or one APDU that
tells exactly what the reply is to tell, if and only if the length of the character tables has 16 bits, and graphics
characteristics have no pixel depths and no value with more bits than its field. -/
theorem mmiDisplayReply_sent_iff (sessionNumber : UInt16) (replyId : UInt8) (details : MmiDisplayReplyDetails) :
    (∀ stack, DisplayReplySent sessionNumber replyId (details.content replyId)
      (mmiDisplayReply stack sessionNumber replyId details)) ↔ details.Encodes replyId := by
  unfold mmiDisplayReply MmiDisplayReplyDetails.content MmiDisplayReplyDetails.Encodes
  by_cases hack : replyId = mmiDisplayReplyIdMmiModeAck
  · subst hack
    refine iff_of_true (fun stack => ?_) ⟨fun hkind => absurd hkind (by decide), fun hkind => absurd hkind (by decide)⟩
    rw [if_pos rfl, if_pos rfl, displayReplyShort_eq (by simp)]
    exact ⟨rfl, [_, details.mmiMode], by simpa using isApdu_two tagDisplayReply _ details.mmiMode, rfl⟩
  simp only [if_neg hack]
  by_cases hcharTables : replyId = mmiDisplayReplyIdListDisplayCharTables ∨
      replyId = mmiDisplayReplyIdListInputCharTables
  · have hgfx : ¬ (replyId = mmiDisplayReplyIdListOverlayGfxCharacteristics ∨
        replyId = mmiDisplayReplyIdListFullscreenGfxCharacteristics) := by
      obtain rfl | rfl := hcharTables <;> decide
    simp only [if_pos hcharTables]
    constructor
    · intro h
      exact ⟨fun _ => (charTables_sent_iff hcharTables).mp (h zeroStack), fun hkind => absurd hkind hgfx⟩
    · intro h stack
      exact (charTables_sent_iff hcharTables).mpr (h.1 hcharTables)
  simp only [if_neg hcharTables]
  by_cases hgfx : replyId = mmiDisplayReplyIdListOverlayGfxCharacteristics ∨
      replyId = mmiDisplayReplyIdListFullscreenGfxCharacteristics
  · simp only [if_pos hgfx]
    rw [gfx_sent_iff hgfx]
    exact ⟨fun h => ⟨fun hkind => absurd hkind hcharTables, fun _ => h⟩, fun h => h.2 hgfx⟩
  · simp only [if_neg hgfx]
    refine iff_of_true (fun stack => ?_) ⟨fun hkind => absurd hkind hcharTables, fun hkind => absurd hkind hgfx⟩
    rw [displayReplyShort_eq (by simp)]
    exact ⟨rfl, [replyId], by simpa using isApdu_one tagDisplayReply replyId,
      by simp [decodeDisplayReply, hack, hcharTables, hgfx]⟩

def oneDepth : MmiDisplayReplyDetails where
  mmiMode := 0
  charTable := ⟨[], 0, by decide⟩
  gfx := ⟨720, 576, 3, 0, 0, 8, 4, 4, 1, [⟨1, 3, 0⟩], by decide⟩

/-- What is behind the array of the pixel depths is sent instead of them. -/
theorem displayReply_oneDepth_not_sent : ¬ ∀ stack, DisplayReplySent 1 mmiDisplayReplyIdListOverlayGfxCharacteristics
      (oneDepth.content mmiDisplayReplyIdListOverlayGfxCharacteristics)
      (mmiDisplayReply stack 1 mmiDisplayReplyIdListOverlayGfxCharacteristics oneDepth) := by
  intro h
  exact h zeroStack

end LinuxDvb.En50221
