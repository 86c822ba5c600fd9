import LinuxDvb.Framework.Buffer
import LinuxDvb.LibDvbEn50221.App

/-!
# Received CA objects

`en50221_app_ca.c`: the module tells the CA system ids it supports, and replies to a CA PMT. The numbers in both
objects are brought into the order of the host in the buffer itself, which may hold further APDUs behind the object.
-/

namespace LinuxDvb.En50221

def tagCaInfo : Nat := 0x9f8031
def tagCaPmtReply : Nat := 0x9f8033

/-- The buffer with the APDU, and where `bswap16` was called on it. -/
structure CaBuffer where
  bytes : List UInt8
  swaps : List Nat
  deriving DecidableEq

/-- What the callbacks get: a count and a pointer to the ids, or a pointer to the reply and its size. -/
inductive CaArgs where
  | info (caIdCount caIds : Nat)
  | pmtReply (reply replySize : Nat)
  deriving DecidableEq

/-- The callbacks of `struct en50221_app_ca`. -/
structure Ca where
  caInfoCallback : Option Nat
  caPmtReplyCallback : Option Nat

abbrev CaOutcome := AppOutcome CaBuffer CaArgs

namespace CaBuffer

/-- `bswap16(data)` -/
def bswap16 (buffer : CaBuffer) (data : Nat) : Option CaBuffer :=
  (LinuxDvb.bswap16 buffer.bytes data).map fun bytes => ⟨bytes, buffer.swaps ++ [data]⟩

def swapIds (data : Nat) : Nat → CaBuffer → Option CaBuffer
  | 0, buffer => some buffer
  | count + 1, buffer => do swapIds (data + 2) count (← buffer.bswap16 data)

def swapPids (data pos asnDataLength : Nat) (buffer : CaBuffer) : Option CaBuffer :=
  if pos < asnDataLength then do swapPids data (pos + 3) asnDataLength (← buffer.bswap16 (data + pos))
  else some buffer
termination_by asnDataLength - pos

end CaBuffer

section Parsing

variable (ca : Ca) (slotId : UInt8) (sessionNumber : UInt16) (buffer : List UInt8) (status : Int)

/-- `en50221_app_ca_parse_info`; `data` is a position in the buffer. -/
def caParseInfo (data : Nat) : CaOutcome :=
  match decodeLength (buffer.drop data) with
  | none => .refuse ⟨buffer, []⟩ asn1DecodeError
  | some (lengthFieldLen, asnDataLength) =>
    if asnDataLength > (buffer.drop data).length - lengthFieldLen then .refuse ⟨buffer, []⟩ receivedShortData
    else
      let ids := data + lengthFieldLen
      match CaBuffer.swapIds ids (asnDataLength / 2) ⟨buffer, []⟩ with
      | none => .undefined
      | some swapped => .tell swapped ca.caInfoCallback slotId sessionNumber (.info (asnDataLength / 2) ids) status

/-- `en50221_app_ca_parse_reply`. -/
def caParseReply (data : Nat) : CaOutcome :=
  match decodeLength (buffer.drop data) with
  | none => .refuse ⟨buffer, []⟩ asn1DecodeError
  | some (lengthFieldLen, asnDataLength) =>
    if asnDataLength < 4 then .refuse ⟨buffer, []⟩ receivedShortData
    else if asnDataLength > (buffer.drop data).length - lengthFieldLen then .refuse ⟨buffer, []⟩ receivedShortData
    else
      let reply := data + lengthFieldLen
      match (CaBuffer.bswap16 ⟨buffer, []⟩ reply).bind (CaBuffer.swapPids reply 4 asnDataLength) with
      | none => .undefined
      | some swapped => .tell swapped ca.caPmtReplyCallback slotId sessionNumber (.pmtReply reply asnDataLength) status

/-- `en50221_app_ca_message`: `data` is the whole buffer, `status` what the callback returns. -/
def caMessage : CaOutcome :=
  match takeTag buffer with
  | none => .refuse ⟨buffer, []⟩ receivedShortData
  | some (tag, _) =>
    if tag = tagCaInfo then caParseInfo ca slotId sessionNumber buffer status 3
    else if tag = tagCaPmtReply then caParseReply ca slotId sessionNumber buffer status 3
    else .refuse ⟨buffer, []⟩ ("Received unexpected tag %x\n", [tag])

end Parsing

/-- `sizeof(struct en50221_app_pmt_reply)` -/
def sizeofPmtReply : Nat := 4

/-- `sizeof(struct en50221_app_pmt_stream)` -/
def sizeofPmtReplyStream : Nat := 3

/-- `en50221_app_pmt_reply_streams_first`, as a position in the buffer. -/
def pmtReplyStreamsFirst (reply replySize : Nat) : Option Nat :=
  if sizeofPmtReply ≥ replySize then none else some (reply + sizeofPmtReply)

/-- `en50221_app_pmt_reply_streams_next` -/
def pmtReplyStreamsNext (reply replySize pos : Nat) : Option Nat :=
  let next := pos + sizeofPmtReplyStream
  if next ≥ reply + replySize then none else some next

end LinuxDvb.En50221
