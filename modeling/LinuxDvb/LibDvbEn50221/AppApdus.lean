import LinuxDvb.LibDvbEn50221.CaPmt
import LinuxDvb.LibDvbEn50221.Lowspeed
import LinuxDvb.LibDvbEn50221.ApduSplitting

/-!
# Senders of variable length

The functions of the resources that send an APDU with data of the application: the header is put together in an array
of ten bytes, and the parts are given to `send_datav` as an array of `iovec`.
-/

namespace LinuxDvb.En50221

def tagProfile : Nat := 0x9f8011
def tagAuthResp : Nat := 0x9f8201
def tagSmartcardReply : Nat := 0x9f8e01
def tagSmartcardRcv : Nat := 0x9f8e03

def smartcardReplyIdAnswToReset : UInt8 := 0x04

def writeAt (buf : List UInt8) (pos : Nat) (bytes : List UInt8) : Option (List UInt8) :=
  if pos + bytes.length ≤ buf.length then some (buf.take pos ++ (bytes ++ buf.drop (pos + bytes.length)))
  else none

abbrev StackArray := { bytes : List UInt8 // bytes.length = 10 }

/-- A pointer and a length that the application gives: the memory at the pointer, which may be more. -/
structure AppBuffer where
  memory : List UInt8
  length : UInt32
  fits : length.toNat ≤ memory.length

def AppBuffer.payload (data : AppBuffer) : List UInt8 := data.memory.take data.length.toNat

/-- How a call ends, with the memory of the application after it: nothing is sent and -1 returned, or what
the `iovec`s point to when `send_datav` is called. -/
inductive SendOutcome where
  | failed (memory : List UInt8)
  | sent (sessionNumber : UInt16) (iovs : List (List UInt8)) (memory : List UInt8)

section Functions

variable (stack : StackArray) (sessionNumber : UInt16)

/-- The part that most senders share: the tag, the length field and fixed fields, in front of other parts. -/
def sendEncoded (tag : Nat) (length : UInt32) (fixed : List UInt8) (parts : List (List UInt8))
    (memory : List UInt8) : Option SendOutcome := do
  let buf ← writeAt stack.val 0 (tagBytes tag)
  match asn1Encode length.toUInt16 3 with
  | none => return .failed memory
  | some field =>
    let buf ← writeAt buf 3 field
    let buf ← writeAt buf (3 + field.length) fixed
    return .sent sessionNumber (buf.take (3 + field.length + fixed.length) :: parts) memory

/-- `en50221_app_smartcard_command_reply`. The length field is written to the data instead of the header, and
without an answer to reset the data are sent instead of the header. -/
def smartcardCommandReply (replyId status : UInt8) (data : AppBuffer) : Option SendOutcome := do
  let hdr ← writeAt stack.val 0 (tagBytes tagSmartcardReply)
  if replyId = smartcardReplyIdAnswToReset then
    match asn1Encode (data.length + 2).toUInt16 3 with
    | none => return .failed data.memory
    | some field =>
      let memory ← writeAt data.memory 3 field
      let hdr ← writeAt hdr (3 + field.length) [replyId, status]
      return .sent sessionNumber [hdr.take (3 + field.length + 2), memory.take data.length.toNat] memory
  else
    let _ ← writeAt hdr 3 [2, replyId, status]
    let sent ← bytesAt data.memory 0 6
    return .sent sessionNumber [sent] data.memory

/-- `en50221_app_smartcard_receive` -/
def smartcardReceive (data : AppBuffer) (sw1 sw2 : UInt8) : Option SendOutcome :=
  sendEncoded stack sessionNumber tagSmartcardRcv (data.length + 2) [] [data.payload, [sw1, sw2]] data.memory

/-- `en50221_app_auth_send` -/
def authSend (authProtocolId : UInt16) (authData : AppBuffer) : Option SendOutcome :=
  sendEncoded stack sessionNumber tagAuthResp (authData.length + 2)
    [(authProtocolId >>> 8).toUInt8, authProtocolId.toUInt8] [authData.payload] authData.memory

/-- `en50221_app_lowspeed_send_comms_data` -/
def lowspeedSendCommsData (phaseId : UInt8) (txData : AppBuffer) : Option SendOutcome :=
  if txData.length > 254 then some (.failed txData.memory)
  else sendEncoded stack sessionNumber tagCommsRecvLast (txData.length + 1) [phaseId] [txData.payload] txData.memory

/-- The loop of `en50221_app_rm_reply`: `bswap32` of one word after the other. -/
def bswapWords : Nat → Nat → List UInt8 → Option (List UInt8)
  | 0, _, copy => some copy
  | rounds + 1, pos, copy => do
    let word ← bytesAt copy pos 4
    let copy ← writeAt copy pos word.reverse
    bswapWords rounds (pos + 4) copy

def hostBytes (resourceIds : List UInt32) : List UInt8 :=
  resourceIds.flatMap fun id => (resourceIdBytes id).reverse

structure ResourceIds where
  memory : List UInt32
  count : UInt32
  fits : count.toNat ≤ memory.length

/-- `en50221_app_rm_reply`. The size of the copy has 32 bits; `alloca` does not fail. -/
def rmReply (resourceIds : ResourceIds) : Option SendOutcome := do
  let size := 4 * resourceIds.count
  let memory := hostBytes resourceIds.memory
  let data ← bytesAt memory 0 size.toNat
  let copy ← bswapWords resourceIds.count.toNat 0 data
  sendEncoded stack sessionNumber tagProfile size [] [copy.take size.toNat] memory

end Functions

inductive SendCall where
  | smartcardCommandReply (replyId status : UInt8) (data : AppBuffer)
  | smartcardReceive (data : AppBuffer) (sw1 sw2 : UInt8)
  | authSend (authProtocolId : UInt16) (authData : AppBuffer)
  | rmReply (resourceIds : ResourceIds)
  | lowspeedSendCommsData (phaseId : UInt8) (txData : AppBuffer)

namespace SendCall

def run (stack : StackArray) (sessionNumber : UInt16) : SendCall → Option SendOutcome
  | smartcardCommandReply replyId status data =>
    En50221.smartcardCommandReply stack sessionNumber replyId status data
  | smartcardReceive data sw1 sw2 => En50221.smartcardReceive stack sessionNumber data sw1 sw2
  | authSend authProtocolId authData => En50221.authSend stack sessionNumber authProtocolId authData
  | rmReply resourceIds => En50221.rmReply stack sessionNumber resourceIds
  | lowspeedSendCommsData phaseId txData => En50221.lowspeedSendCommsData stack sessionNumber phaseId txData

def tag : SendCall → Nat
  | smartcardCommandReply .. => tagSmartcardReply
  | smartcardReceive .. => tagSmartcardRcv
  | authSend .. => tagAuthResp
  | rmReply .. => tagProfile
  | lowspeedSendCommsData .. => tagCommsRecvLast

/-- What is to follow the length field: the fixed fields and the data; the resource ids in the order of
transmission. A reply of the smartcard resource has data for an answer to reset. -/
def body : SendCall → List UInt8
  | smartcardCommandReply replyId status data =>
    replyId :: status :: if replyId = smartcardReplyIdAnswToReset then data.payload else []
  | smartcardReceive data sw1 sw2 => data.payload ++ [sw1, sw2]
  | authSend authProtocolId authData =>
    (authProtocolId >>> 8).toUInt8 :: authProtocolId.toUInt8 :: authData.payload
  | rmReply resourceIds => (resourceIds.memory.take resourceIds.count.toNat).flatMap resourceIdBytes
  | lowspeedSendCommsData phaseId txData => phaseId :: txData.payload

def memory : SendCall → List UInt8
  | smartcardCommandReply _ _ data | smartcardReceive data _ _ | authSend _ data
  | lowspeedSendCommsData _ data => data.memory
  | rmReply resourceIds => hostBytes resourceIds.memory

end SendCall

/-- The tag, a length that is decoded to exactly the number of bytes behind it, and these bytes. -/
def IsApdu (tag : Nat) (body bytes : List UInt8) : Prop :=
  ∃ field, bytes = tagBytes tag ++ (field ++ body) ∧
    decodeLength (field ++ body) = some (field.length, body.length)

def SendCall.WellSent (call : SendCall) (sessionNumber : UInt16) : Option SendOutcome → Prop
  | none => False
  | some (.failed memory) => memory = call.memory
  | some (.sent number iovs memory) =>
    number = sessionNumber ∧ IsApdu call.tag call.body iovs.flatten ∧ memory = call.memory

/-- The length fits into 16 bits; a reply of the smartcard resource has its header in the data already. -/
def SendCall.Encodes : SendCall → Prop
  | smartcardCommandReply replyId status data =>
    replyId ≠ smartcardReplyIdAnswToReset ∧
      data.memory.take 6 = tagBytes tagSmartcardReply ++ [2, replyId, status]
  | smartcardReceive data _ _ => data.length.toNat < 65534
  | authSend _ authData => authData.length.toNat < 65534
  | rmReply resourceIds => resourceIds.count.toNat < 16384
  | lowspeedSendCommsData .. => True

/-! ## APDUs of the senders

What `send_datav` is given is one APDU exactly if the length field has the length of what follows it. -/

section Memory

theorem writeAt_spec (buf : List UInt8) (pos : Nat) (bytes : List UInt8) (h : pos + bytes.length ≤ buf.length) :
    ∃ buf', writeAt buf pos bytes = some buf' ∧ buf'.length = buf.length ∧
      buf'.take (pos + bytes.length) = buf.take pos ++ bytes := by
  have hpos : (buf.take pos).length = pos := length_take_of_le (by omega)
  refine ⟨_,if_pos h,?_,?_⟩
  · rw [length_append,length_append,hpos,length_drop]
    omega
  · have hlength : pos + bytes.length = (buf.take pos ++ bytes).length := by
      rw [length_append,hpos]
    rw [← append_assoc,hlength,take_left]

end Memory

section Header

variable (stack : StackArray) (sessionNumber : UInt16)

theorem writeAt_header {buf field fixed : List UInt8} (h : 3 + field.length + fixed.length ≤ buf.length) (tag : Nat) :
    ∃ buf₁ buf₂ buf₃, writeAt buf 0 (tagBytes tag) = some buf₁ ∧ writeAt buf₁ 3 field = some buf₂ ∧
      writeAt buf₂ (3 + field.length) fixed = some buf₃ ∧
      buf₃.take (3 + field.length + fixed.length) = tagBytes tag ++ (field ++ fixed) := by
  have htag : (tagBytes tag).length = 3 := rfl
  obtain ⟨buf₁,hwrite₁,hlength₁,htake₁⟩ :=
    writeAt_spec buf 0 (tagBytes tag) (by omega)
  obtain ⟨buf₂,hwrite₂,hlength₂,htake₂⟩ :=
    writeAt_spec buf₁ 3 field (by omega)
  obtain ⟨buf₃,hwrite₃,-,htake₃⟩ :=
    writeAt_spec buf₂ (3 + field.length) fixed (by omega)
  have htake₁' : buf₁.take 3 = tagBytes tag := by
    rw [htag,Nat.zero_add,List.take_zero,nil_append] at htake₁
    exact htake₁
  refine ⟨buf₁,buf₂,buf₃,hwrite₁,hwrite₂,hwrite₃,?_⟩
  rw [htake₃,htake₂,htake₁',append_assoc]

theorem sendEncoded_eq {length : UInt32} {field : List UInt8} (h : asn1Encode length.toUInt16 3 = some field)
    (tag : Nat) {fixed : List UInt8} (hfixed : fixed.length ≤ 4) (parts : List (List UInt8))
    (memory : List UInt8) :
    sendEncoded stack sessionNumber tag length fixed parts memory =
      some (.sent sessionNumber ((tagBytes tag ++ (field ++ fixed)) :: parts) memory) := by
  obtain ⟨field',hfield',-,hthree⟩ := asn1Encode_isSome length.toUInt16
  obtain rfl : field = field' := Option.some.inj (h.symm.trans hfield')
  have hstack : stack.val.length = 10 := stack.property
  obtain ⟨buf₁,buf₂,buf₃,hwrite₁,hwrite₂,hwrite₃,htake⟩ :=
    writeAt_header (show 3 + field.length + fixed.length ≤ stack.val.length by omega) tag
  unfold sendEncoded
  simp only [hwrite₁,h,hwrite₂,hwrite₃,bind_eq_bind,bind_some]
  rw [htake]
  rfl

theorem isApdu_iff {length : UInt16} {field : List UInt8} (h : asn1Encode length 3 = some field) (tag : Nat)
    (body : List UInt8) :
    IsApdu tag body (tagBytes tag ++ (field ++ body)) ↔ length.toNat = body.length := by
  have hdecode : decodeLength (field ++ body) = some (field.length, length.toNat) := by
    rw [decodeLength,asn1Decode_encode h body]
    rfl
  constructor
  · rintro ⟨field',hbytes,hdecode'⟩
    obtain rfl := List.append_cancel_right (append_cancel_left hbytes)
    rw [hdecode] at hdecode'
    exact (Prod.mk.inj (Option.some.inj hdecode')).2
  · intro hlength
    exact ⟨field,rfl,by rw [hdecode,hlength]⟩

theorem IsApdu.body_eq {length : UInt16} {field body body' : List UInt8} {tag : Nat}
    (h : asn1Encode length 3 = some field) (hapdu : IsApdu tag body' (tagBytes tag ++ (field ++ body))) :
    body' = body := by
  obtain ⟨field',hbytes,hdecode⟩ := hapdu
  have hsame := append_cancel_left hbytes
  rw [← hsame,decodeLength,asn1Decode_encode h body] at hdecode
  have hlength := (Prod.mk.inj (Option.some.inj hdecode)).1
  exact (append_inj hsame hlength).2.symm

theorem wellSent_sendEncoded {call : SendCall} {length : UInt32} {fixed : List UInt8}
    {parts : List (List UInt8)} (hfixed : fixed.length ≤ 4)
    (hrun : call.run stack sessionNumber = sendEncoded stack sessionNumber call.tag length fixed parts call.memory)
    (hbody : call.body = fixed ++ parts.flatten) :
    call.WellSent sessionNumber (call.run stack sessionNumber) ↔
      length.toUInt16.toNat = call.body.length := by
  obtain ⟨field,hfield,-,-⟩ := asn1Encode_isSome length.toUInt16
  rw [hrun,sendEncoded_eq stack sessionNumber hfield call.tag hfixed,← isApdu_iff hfield call.tag]
  have hflatten : ((tagBytes call.tag ++ (field ++ fixed)) :: parts).flatten =
      tagBytes call.tag ++ (field ++ call.body) := by
    rw [flatten_cons,hbody,append_assoc,append_assoc]
  unfold SendCall.WellSent
  dsimp only
  rw [hflatten]
  exact ⟨fun h => h.2.1,fun h => ⟨rfl,h,rfl⟩⟩

end Header

section Lengths

theorem length_payload (data : AppBuffer) : data.payload.length = data.length.toNat :=
  length_take_of_le data.fits

theorem toNat_add_two (length : UInt32) : (length + 2).toUInt16.toNat = (length.toNat + 2) % 65536 := by
  rw [UInt32.toNat_toUInt16,UInt32.toNat_add]
  simp only [UInt32.reduceToNat]
  omega

variable (stack : StackArray) (sessionNumber : UInt16)

theorem smartcardReceive_iff (data : AppBuffer) (sw1 sw2 : UInt8) :
    (SendCall.smartcardReceive data sw1 sw2).WellSent sessionNumber
        ((SendCall.smartcardReceive data sw1 sw2).run stack sessionNumber) ↔
      (SendCall.smartcardReceive data sw1 sw2).Encodes := by
  have hrun : (SendCall.smartcardReceive data sw1 sw2).run stack sessionNumber =
      sendEncoded stack sessionNumber tagSmartcardRcv (data.length + 2) [] [data.payload, [sw1, sw2]]
        data.memory := rfl
  have hbody : (SendCall.smartcardReceive data sw1 sw2).body = [] ++ [data.payload, [sw1, sw2]].flatten := by
    simp [SendCall.body]
  have hlength : (SendCall.smartcardReceive data sw1 sw2).body.length = data.length.toNat + 2 := by
    rw [SendCall.body,length_append,length_payload]
    rfl
  rw [wellSent_sendEncoded stack sessionNumber (by decide) hrun hbody,hlength,toNat_add_two]
  change _ ↔ data.length.toNat < 65534
  omega

theorem authSend_iff (authProtocolId : UInt16) (authData : AppBuffer) :
    (SendCall.authSend authProtocolId authData).WellSent sessionNumber
        ((SendCall.authSend authProtocolId authData).run stack sessionNumber) ↔
      (SendCall.authSend authProtocolId authData).Encodes := by
  have hrun : (SendCall.authSend authProtocolId authData).run stack sessionNumber =
      sendEncoded stack sessionNumber tagAuthResp (authData.length + 2)
        [(authProtocolId >>> 8).toUInt8, authProtocolId.toUInt8] [authData.payload] authData.memory := rfl
  have hbody : (SendCall.authSend authProtocolId authData).body =
      [(authProtocolId >>> 8).toUInt8, authProtocolId.toUInt8] ++ [authData.payload].flatten := by
    simp [SendCall.body]
  have hlength : (SendCall.authSend authProtocolId authData).body.length = authData.length.toNat + 2 := by
    rw [SendCall.body,length_cons,length_cons,length_payload]
  rw [wellSent_sendEncoded stack sessionNumber (by simp) hrun hbody,hlength,toNat_add_two]
  change _ ↔ authData.length.toNat < 65534
  omega

theorem lowspeedSendCommsData_wellSent (phaseId : UInt8) (txData : AppBuffer) :
    (SendCall.lowspeedSendCommsData phaseId txData).WellSent sessionNumber
      ((SendCall.lowspeedSendCommsData phaseId txData).run stack sessionNumber) := by
  by_cases hlimit : txData.length > 254
  · have hfailed : (SendCall.lowspeedSendCommsData phaseId txData).run stack sessionNumber =
        some (.failed txData.memory) := if_pos hlimit
    rw [hfailed]
    rfl
  · have hrun : (SendCall.lowspeedSendCommsData phaseId txData).run stack sessionNumber =
        sendEncoded stack sessionNumber tagCommsRecvLast (txData.length + 1) [phaseId] [txData.payload]
          txData.memory := if_neg hlimit
    have hbody : (SendCall.lowspeedSendCommsData phaseId txData).body =
        [phaseId] ++ [txData.payload].flatten := by
      simp [SendCall.body]
    have hlength : (SendCall.lowspeedSendCommsData phaseId txData).body.length = txData.length.toNat + 1 := by
      rw [SendCall.body,length_cons,length_payload]
    have hsmall : ¬254 < txData.length.toNat := fun h => hlimit (UInt32.lt_iff_toNat_lt.mpr h)
    rw [wellSent_sendEncoded stack sessionNumber (by simp) hrun hbody,hlength,UInt32.toNat_toUInt16,
      UInt32.toNat_add]
    simp only [UInt32.reduceToNat]
    omega

end Lengths

section Words

theorem length_hostBytes (ids : List UInt32) : (hostBytes ids).length = 4 * ids.length := by
  induction ids with
  | nil => rfl
  | cons id ids ih =>
    have hcons : hostBytes (id :: ids) = (resourceIdBytes id).reverse ++ hostBytes ids := rfl
    rw [hcons,length_append,ih,length_cons,length_reverse]
    change 4 + 4 * ids.length = 4 * (ids.length + 1)
    omega

theorem length_resourceIds (ids : List UInt32) : (ids.flatMap resourceIdBytes).length = 4 * ids.length := by
  induction ids with
  | nil => rfl
  | cons id ids ih =>
    rw [flatMap_cons,length_append,ih,length_cons]
    change 4 + 4 * ids.length = 4 * (ids.length + 1)
    omega

theorem take_hostBytes (ids : List UInt32) (n : Nat) : (hostBytes ids).take (4 * n) = hostBytes (ids.take n) := by
  induction ids generalizing n with
  | nil =>
    rw [List.take_nil]
    exact List.take_nil
  | cons id ids ih =>
    cases n with
    | zero => rfl
    | succ n =>
      have hcons (rest : List UInt32) : hostBytes (id :: rest) = (resourceIdBytes id).reverse ++ hostBytes rest :=
        rfl
      have hfour : (resourceIdBytes id).reverse.length = 4 := rfl
      rw [hcons,List.take_succ_cons,hcons,← ih,Nat.mul_succ,Nat.add_comm,← hfour,List.take_length_add_append]

theorem bswapWords_hostBytes (done : List UInt8) (ids : List UInt32) :
    bswapWords ids.length done.length (done ++ hostBytes ids) = some (done ++ ids.flatMap resourceIdBytes) := by
  induction ids generalizing done with
  | nil => rfl
  | cons id ids ih =>
    have hcons : hostBytes (id :: ids) = (resourceIdBytes id).reverse ++ hostBytes ids := rfl
    have hfour : (resourceIdBytes id).reverse.length = 4 := rfl
    have hread : bytesAt (done ++ ((resourceIdBytes id).reverse ++ hostBytes ids)) done.length 4 =
        some (resourceIdBytes id).reverse := by
      rw [bytesAt,if_pos (by simp only [length_append, hfour]; omega),drop_left,← hfour,
        take_left]
    have hwrite : writeAt (done ++ ((resourceIdBytes id).reverse ++ hostBytes ids)) done.length
        (resourceIdBytes id) = some (done ++ (resourceIdBytes id ++ hostBytes ids)) := by
      have hlength : (resourceIdBytes id).length = (resourceIdBytes id).reverse.length := rfl
      rw [writeAt,if_pos (by simp only [length_append, hlength]; omega),take_left,
        List.drop_length_add_append,hlength,drop_left]
    have hnext := ih (done ++ resourceIdBytes id)
    rw [length_cons,bswapWords,hcons,hread,bind_eq_bind,bind_some,
      List.reverse_reverse,hwrite,bind_some,flatMap_cons]
    rw [length_append,append_assoc,append_assoc] at hnext
    exact hnext

theorem bswapWords_none (rounds : Nat) {pos : Nat} {copy : List UInt8}
    (h : copy.length < pos + 4 * rounds) (hpos : pos ≤ copy.length) : bswapWords rounds pos copy = none := by
  induction rounds generalizing pos copy with
  | zero => omega
  | succ rounds ih =>
    rw [bswapWords]
    by_cases hinside : pos + 4 ≤ copy.length
    · have hread : bytesAt copy pos 4 = some ((copy.drop pos).take 4) := if_pos hinside
      have hword : ((copy.drop pos).take 4).reverse.length = 4 := by
        rw [length_reverse,length_take,length_drop]
        omega
      obtain ⟨copy',hwrite,hlength,-⟩ :=
        writeAt_spec copy pos ((copy.drop pos).take 4).reverse (by omega)
      rw [hread,bind_eq_bind,bind_some,hwrite,bind_some]
      exact ih (by omega) (by omega)
    · rw [bytesAt,if_neg hinside]
      rfl

end Words

section Replies

variable (stack : StackArray) (sessionNumber : UInt16)

theorem rmReply_iff (resourceIds : ResourceIds) : (SendCall.rmReply resourceIds).WellSent sessionNumber
        ((SendCall.rmReply resourceIds).run stack sessionNumber) ↔
      (SendCall.rmReply resourceIds).Encodes := by
  have hfits := resourceIds.fits
  have hmemory := length_hostBytes resourceIds.memory
  have hsize : (4 * resourceIds.count).toNat = 4 * resourceIds.count.toNat % 2 ^ 32 := UInt32.toNat_mul ..
  have hcount := resourceIds.count.toNat_lt
  have hread : bytesAt (hostBytes resourceIds.memory) 0 (4 * resourceIds.count).toNat =
      some ((hostBytes resourceIds.memory).take (4 * resourceIds.count).toNat) := if_pos (by omega)
  change _ ↔ resourceIds.count.toNat < 16384
  by_cases hwrap : resourceIds.count.toNat < 0x40000000
  · let ids := resourceIds.memory.take resourceIds.count.toNat
    have hids : ids.length = resourceIds.count.toNat := length_take_of_le hfits
    have hexact : (4 * resourceIds.count).toNat = 4 * resourceIds.count.toNat := by omega
    have hswap : bswapWords resourceIds.count.toNat 0 (hostBytes ids) = some (ids.flatMap resourceIdBytes) := by
      have hspec := bswapWords_hostBytes [] ids
      rwa [hids] at hspec
    have hlength : (ids.flatMap resourceIdBytes).length = 4 * resourceIds.count.toNat := by
      rw [length_resourceIds,hids]
    have hrun : (SendCall.rmReply resourceIds).run stack sessionNumber =
        sendEncoded stack sessionNumber tagProfile (4 * resourceIds.count) [] [ids.flatMap resourceIdBytes]
          (hostBytes resourceIds.memory) := by
      dsimp only [SendCall.run,rmReply]
      rw [hread,hexact,take_hostBytes]
      change (bswapWords resourceIds.count.toNat 0 (hostBytes ids)).bind _ = _
      rw [hswap,bind_some,take_of_length_le (Nat.le_of_eq hlength)]
    have hbody : (SendCall.rmReply resourceIds).body = [] ++ [ids.flatMap resourceIdBytes].flatten := by
      simp [SendCall.body,ids]
    have hbodyLength : (SendCall.rmReply resourceIds).body.length = 4 * resourceIds.count.toNat := hlength
    rw [wellSent_sendEncoded stack sessionNumber (by decide) hrun hbody,hbodyLength,UInt32.toNat_toUInt16,
      hexact]
    omega
  · have hnone : (SendCall.rmReply resourceIds).run stack sessionNumber = none := by
      dsimp only [SendCall.run,rmReply]
      rw [hread,bind_eq_bind,bind_some,
        bswapWords_none _ (by rw [length_take]; omega) (Nat.zero_le _)]
      rfl
    rw [hnone]
    exact iff_of_false id (by omega)

theorem not_isApdu {tag : Nat} {body rest : List UInt8} : ¬IsApdu tag body (tagBytes tag ++ 0xff :: rest) := by
  rintro ⟨field,hbytes,hdecode⟩
  rw [← append_cancel_left hbytes] at hdecode
  simp [decodeLength,asn1Decode] at hdecode

theorem smartcardReset_garbage (status : UInt8) (data : AppBuffer) :
    ¬∀ stack, (SendCall.smartcardCommandReply smartcardReplyIdAnswToReset status data).WellSent sessionNumber
      ((SendCall.smartcardCommandReply smartcardReplyIdAnswToReset status data).run stack sessionNumber) := by
  intro h
  have hwell := h ⟨List.replicate 10 0xff,rfl⟩
  obtain ⟨field,hfield,hone,hthree⟩ := asn1Encode_isSome (data.length + 2).toUInt16
  have htag : writeAt (List.replicate 10 0xff) 0 (tagBytes tagSmartcardReply) =
      some (tagBytes tagSmartcardReply ++ List.replicate 7 0xff) := by decide
  obtain ⟨k,hk⟩ : ∃ k, field.length = k + 1 := ⟨field.length - 1,by omega⟩
  obtain ⟨hdr,hwrite,-,htake⟩ := writeAt_spec (tagBytes tagSmartcardReply ++ List.replicate 7 0xff)
    (3 + field.length) [smartcardReplyIdAnswToReset, status] (by
      rw [length_append,length_replicate]
      change _ ≤ 3 + 7
      simp only [length_cons,length_nil]
      omega)
  have hgarbage : (tagBytes tagSmartcardReply ++ List.replicate 7 0xff).take (3 + field.length) =
      tagBytes tagSmartcardReply ++ 0xff :: (List.replicate 6 0xff).take k := by
    have hthree' : (tagBytes tagSmartcardReply).length = 3 := rfl
    rw [hk,← hthree',List.take_length_add_append]
    rfl
  rw [hgarbage] at htake
  dsimp only [SendCall.run,smartcardCommandReply] at hwell
  simp only [htag,if_true,hfield,bind_eq_bind,bind_some] at hwell
  cases hmemory : writeAt data.memory 3 field with
  | none =>
    rw [hmemory] at hwell
    exact hwell
  | some memory =>
    rw [hmemory] at hwell
    simp only [bind_some,hwrite] at hwell
    have hapdu := hwell.2.1
    have htwo : ([smartcardReplyIdAnswToReset, status] : List UInt8).length = 2 := rfl
    rw [htwo] at htake
    rw [htake,flatten_cons,append_assoc,append_assoc,cons_append] at hapdu
    exact not_isApdu hapdu

theorem toNat_of_decodeLength {x : UInt8} {rest : List UInt8} {length : Nat}
    (h : decodeLength (x :: rest) = some (1, length)) : x.toNat = length := by
  obtain ⟨field,behind,happend,hone,hfield⟩ := lengthField_of_decode (Option.join_eq_some_iff.mp h)
  cases hfield with
  | short b _ =>
    obtain rfl := (List.cons.inj happend).1
    rfl
  | oneByte low => cases hone
  | twoBytes high low => cases hone

theorem smartcardReply_iff {replyId : UInt8} (h : replyId ≠ smartcardReplyIdAnswToReset) (status : UInt8)
    (data : AppBuffer) :
    (SendCall.smartcardCommandReply replyId status data).WellSent sessionNumber
        ((SendCall.smartcardCommandReply replyId status data).run stack sessionNumber) ↔
      data.memory.take 6 = tagBytes tagSmartcardReply ++ [2, replyId, status] := by
  have hstack : stack.val.length = 10 := stack.property
  obtain ⟨hdr,hwrite,hlength,-⟩ :=
    writeAt_spec stack.val 0 (tagBytes tagSmartcardReply) (by rw [hstack]; decide)
  obtain ⟨hdr',hwrite',-,-⟩ := writeAt_spec hdr 3 [2, replyId, status] (by
    simp only [length_cons,length_nil]
    omega)
  have hrun : (SendCall.smartcardCommandReply replyId status data).run stack sessionNumber =
      (bytesAt data.memory 0 6).bind fun sent => some (.sent sessionNumber [sent] data.memory) := by
    dsimp only [SendCall.run,smartcardCommandReply]
    rw [hwrite,bind_eq_bind,bind_some,if_neg h,hwrite']
    rfl
  have hbody : (SendCall.smartcardCommandReply replyId status data).body = [replyId, status] := by
    rw [SendCall.body,if_neg h]
  rw [hrun]
  by_cases hsix : 0 + 6 ≤ data.memory.length
  · rw [bytesAt,if_pos hsix,bind_some]
    constructor
    · rintro ⟨-,⟨field,hbytes,hdecode⟩,-⟩
      rw [hbody] at hbytes hdecode
      change [data.memory.take 6].flatten = _ at hbytes
      rw [List.flatten_singleton] at hbytes
      have hfield : field.length = 1 := by
        have hcount := congrArg List.length hbytes
        rw [length_take_of_le hsix,length_append,length_append] at hcount
        change 6 = 3 + (field.length + 2) at hcount
        omega
      obtain ⟨x,rfl⟩ := List.length_eq_one_iff.mp hfield
      rw [hbytes]
      obtain rfl : x = 2 := UInt8.toNat_inj.mp (toNat_of_decodeLength hdecode)
      rfl
    · intro hheader
      refine ⟨rfl,?_,rfl⟩
      change IsApdu tagSmartcardReply _ [data.memory.take 6].flatten
      rw [List.flatten_singleton,hheader,hbody]
      exact ⟨[2],rfl,by simp [decodeLength,asn1Decode]⟩
  · rw [bytesAt,if_neg hsix]
    refine iff_of_false id fun hheader => hsix ?_
    have hcount := congrArg List.length hheader
    rw [length_take,length_append] at hcount
    change min 6 data.memory.length = 3 + 3 at hcount
    omega

/-- For every call, whatever the array on the stack has in it: an error with nothing sent or one well-formed
APDU, and the memory of the application is not modified, exactly if the length fits and, for a reply of the
smartcard resource, no answer to reset is sent and the data start with the header already. -/
theorem sendCall_wellSent_iff (call : SendCall) :
    (∀ stack, call.WellSent sessionNumber (call.run stack sessionNumber)) ↔ call.Encodes := by
  let empty : StackArray := ⟨List.replicate 10 0, rfl⟩
  cases call with
  | smartcardCommandReply replyId status data =>
    by_cases hreset : replyId = smartcardReplyIdAnswToReset
    · subst hreset
      exact iff_of_false (smartcardReset_garbage sessionNumber status data) fun h => h.1 rfl
    · constructor
      · intro h
        exact ⟨hreset, (smartcardReply_iff empty sessionNumber hreset status data).mp (h empty)⟩
      · intro h stack
        exact (smartcardReply_iff stack sessionNumber hreset status data).mpr h.2
  | smartcardReceive data sw1 sw2 =>
    exact ⟨fun h => (smartcardReceive_iff empty sessionNumber data sw1 sw2).mp (h empty),
      fun h stack => (smartcardReceive_iff stack sessionNumber data sw1 sw2).mpr h⟩
  | authSend authProtocolId authData =>
    exact ⟨fun h => (authSend_iff empty sessionNumber authProtocolId authData).mp (h empty),
      fun h stack => (authSend_iff stack sessionNumber authProtocolId authData).mpr h⟩
  | rmReply resourceIds =>
    exact ⟨fun h => (rmReply_iff empty sessionNumber resourceIds).mp (h empty),
      fun h stack => (rmReply_iff stack sessionNumber resourceIds).mpr h⟩
  | lowspeedSendCommsData phaseId txData =>
    exact ⟨fun _ => trivial, fun _ stack => lowspeedSendCommsData_wellSent stack sessionNumber phaseId txData⟩

/-- A reply that a card is connected has no data, and the header is not sent. -/
theorem smartcardReply_not_wellSent : ¬∀ stack, (SendCall.smartcardCommandReply 0x01 0x00 ⟨[], 0, by decide⟩).WellSent 5
      ((SendCall.smartcardCommandReply 0x01 0x00 ⟨[], 0, by decide⟩).run stack 5) := by
  intro h
  exact h ⟨List.replicate 10 0, rfl⟩

end Replies

end LinuxDvb.En50221
