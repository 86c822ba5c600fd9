import LinuxDvb.LibDvbEn50221.App

/-!
# Low-speed communication

`en50221_app_lowspeed.c`: the module sends commands for a communication channel, and blocks of data that may come in
several fragments.
-/

namespace LinuxDvb.En50221

def tagCommsCommand : Nat := 0x9f8c00
def tagConnectionDescriptor : Nat := 0x9f8c01
def tagCommsReply : Nat := 0x9f8c02
def tagCommsSendLast : Nat := 0x9f8c03
def tagCommsSendMore : Nat := 0x9f8c04
def tagCommsRecvLast : Nat := 0x9f8c05

def commsCommandIdConnectOnChannel : UInt8 := 0x01
def commsCommandIdDisconnectOnChannel : UInt8 := 0x02
def commsCommandIdSetParams : UInt8 := 0x03
def commsCommandIdEnquireStatus : UInt8 := 0x04
def commsCommandIdGetNextBuffer : UInt8 := 0x05

def connectionDescriptorTypeTelephone : UInt8 := 0x01
def connectionDescriptorTypeCable : UInt8 := 0x02

def dtagDvbTelephone : UInt8 := 0x57

inductive ConnectionDescriptor where
  | telephone (descriptor : List UInt8)
  | cable (channelId : UInt8)
  deriving DecidableEq

/-- `struct en50221_app_lowspeed_command`. -/
inductive LowspeedCommand where
  | connectOnChannel (descriptor : ConnectionDescriptor) (retryCount timeout : UInt8)
  | setParams (bufferSize timeout : UInt8)
  | getNextBuffer (phaseId : UInt8)
  /-- Nothing is stored for the other commands. -/
  | untouched
  deriving DecidableEq

inductive LowspeedArgs where
  | command (commandId : UInt8) (command : LowspeedCommand)
  | send (phaseId : UInt8) (data : List UInt8)
  deriving DecidableEq

abbrev LowspeedEvent := AppEvent LowspeedArgs

/-- `struct en50221_app_lowspeed`. -/
structure Lowspeed where
  commandCallback : Option Nat
  sendCallback : Option Nat
  sessions : ChainTable UInt16 Unit
  locked : Bool

abbrev LowspeedOutcome := AppOutcome Lowspeed LowspeedArgs

/-- `en50221_app_lowspeed_create`. -/
def lowspeedCreate : Lowspeed := ⟨none, none, ChainTable.empty, false⟩

/-- `dvb_telephone_descriptor_codec`, for a descriptor with the bytes that its length field says. -/
def dvbTelephoneDescriptorCodec : List UInt8 → Bool
  | _ :: len :: _ :: lengths₁ :: lengths₂ :: _ =>
    -- country prefix, international area code, operator code, national area code, core number
    3 + ((lengths₁ >>> 5) &&& 0x03).toNat + ((lengths₁ >>> 2) &&& 0x07).toNat + (lengths₁ &&& 0x03).toNat +
      ((lengths₂ >>> 4) &&& 0x07).toNat + (lengths₂ &&& 0x0f).toNat = len.toNat
  | _ => false

def receivedInvalidTelephoneDescriptor : Refusal := ("Received invalid telephone descriptor\n", [])

def parseConnectionDescriptor (descriptorType : UInt8) (descriptor : List UInt8) :
    Except Refusal ConnectionDescriptor :=
  if descriptorType = connectionDescriptorTypeTelephone then
    match descriptor with
    | tag :: len :: _ =>
      if descriptor.length ≠ 2 + len.toNat then .error receivedShortData
      else if tag ≠ dtagDvbTelephone then .error receivedInvalidTelephoneDescriptor
      else if dvbTelephoneDescriptorCodec descriptor then .ok (.telephone descriptor)
      else .error receivedInvalidTelephoneDescriptor
    | _ => .error receivedShortData
  else if descriptorType = connectionDescriptorTypeCable then
    match descriptor with
    | [channelId] => .ok (.cable channelId)
    | _ => .error receivedShortData
  else .error ("Received unknown connection descriptor %02x\n", [descriptorType.toNat])

/-- `en50221_app_lowspeed_parse_connect_on_channel`. -/
def parseConnectOnChannel (data : List UInt8) : Except Refusal LowspeedCommand :=
  match takeTag data with
  | none => .error receivedShortData
  | some (tag, data) =>
    if tag ≠ tagConnectionDescriptor then .error ("Received bad CONNECT_ON_CHANNEL\n", [])
    else do
      match ← splitBody data with
      | ([], _) => .error receivedShortData
      | (descriptorType :: descriptor, rest) =>
        let descriptor ← parseConnectionDescriptor descriptorType descriptor
        match rest with
        | [retryCount, timeout] => .ok (.connectOnChannel descriptor retryCount timeout)
        | _ => .error receivedShortData

def parseCommandId (commandId : UInt8) (data : List UInt8) : Except Refusal LowspeedCommand :=
  if commandId = commsCommandIdConnectOnChannel then parseConnectOnChannel data
  else if commandId = commsCommandIdSetParams then
    match data with
    | [bufferSize, timeout] => .ok (.setParams bufferSize timeout)
    | _ => .error receivedShortData
  else if commandId = commsCommandIdGetNextBuffer then
    match data with
    | [phaseId] => .ok (.getNextBuffer phaseId)
    | _ => .error receivedShortData
  else if commandId = commsCommandIdDisconnectOnChannel ∨ commandId = commsCommandIdEnquireStatus then
    .ok .untouched
  else .error ("Received unexpected command_id %02x\n", [commandId.toNat])

/-- What `en50221_app_lowspeed_parse_command` parses. -/
def parsedCommand (data : List UInt8) : Except Refusal (UInt8 × LowspeedCommand) := do
  match ← splitBody data with
  | ([], _) => .error receivedShortData
  | (commandId :: rest, _) =>
    let command ← parseCommandId commandId rest
    .ok (commandId, command)

namespace Lowspeed

/-- `en50221_app_lowspeed_parse_command`. -/
def parseCommand (lowspeed : Lowspeed) (slotId : UInt8) (sessionNumber : UInt16) (data : List UInt8)
    (io : AppIo) : LowspeedOutcome :=
  .parsed lowspeed (parsedCommand data) fun (commandId, command) =>
    .withLock lowspeed.locked
      (.tell lowspeed lowspeed.commandCallback slotId sessionNumber (.command commandId command) io.callback)

/-- The end of `en50221_app_lowspeed_parse_send`, with the data in `data` and its length in
`asn_data_length`. -/
def sendBlock (lowspeed : Lowspeed) (slotId : UInt8) (sessionNumber : UInt16) (data : List UInt8)
    (asnDataLength : Nat) (io : AppIo) : LowspeedOutcome :=
  match data.take asnDataLength with
  | [] => .refuse lowspeed receivedShortData
  | phaseId :: data => .tell lowspeed lowspeed.sendCallback slotId sessionNumber (.send phaseId data) io.callback

/-- What `en50221_app_lowspeed_parse_send` does with a fragment while it holds the lock, and the callback. -/
def takeFragment (lowspeed : Lowspeed) (slotId : UInt8) (sessionNumber : UInt16) (last : Bool)
    (fragment : List UInt8) (io : AppIo) : LowspeedOutcome :=
  match lowspeed.sessions.defragment sessionNumber () last fragment io.alloc with
  | .undefined => .undefined
  | .noMemory sessions => .refuse { lowspeed with sessions := sessions } ranOutOfMemory
  | .kept sessions => .returned { lowspeed with sessions := sessions } 0 []
  | .single data => lowspeed.sendBlock slotId sessionNumber data data.length io
  | .joined sessions data =>
    -- the sum of the lengths is stored in a `uint16_t`
    { lowspeed with sessions := sessions }.sendBlock slotId sessionNumber data (data.length % 2 ^ 16) io

/-- `en50221_app_lowspeed_parse_send`. -/
def parseSend (lowspeed : Lowspeed) (slotId : UInt8) (sessionNumber : UInt16) (last : Bool) (data : List UInt8)
    (io : AppIo) : LowspeedOutcome :=
  .parsed lowspeed (splitBody data) fun (fragment, _) =>
    .withLock lowspeed.locked (lowspeed.takeFragment slotId sessionNumber last fragment io)

/-- `en50221_app_lowspeed_message`. -/
def message (lowspeed : Lowspeed) (slotId : UInt8) (sessionNumber : UInt16) (data : List UInt8) (io : AppIo) :
    LowspeedOutcome :=
  match takeTag data with
  | none => .refuse lowspeed receivedShortData
  | some (tag, data) =>
    if tag = tagCommsCommand then lowspeed.parseCommand slotId sessionNumber data io
    else if tag = tagCommsSendLast then lowspeed.parseSend slotId sessionNumber true data io
    else if tag = tagCommsSendMore then lowspeed.parseSend slotId sessionNumber false data io
    else .refuse lowspeed ("Received unexpected tag %x\n", [tag])

/-- `en50221_app_lowspeed_clear_session`. -/
def clearSession (lowspeed : Lowspeed) (sessionNumber : UInt16) : LowspeedOutcome :=
  .withLock lowspeed.locked <|
    match lowspeed.sessions.find sessionNumber with
    | none => .returned lowspeed 0 []
    | some e =>
      if e.chains () = .dangling then .undefined
      else
        -- returns with the lock held
        .returned { lowspeed with sessions := lowspeed.sessions.clear sessionNumber, locked := true } 0 []

/-- `en50221_app_lowspeed_register_command_callback`. -/
def registerCommandCallback (lowspeed : Lowspeed) (callback : Option Nat) : LowspeedOutcome :=
  .withLock lowspeed.locked (.returned { lowspeed with commandCallback := callback } 0 [])

/-- `en50221_app_lowspeed_register_send_callback`. -/
def registerSendCallback (lowspeed : Lowspeed) (callback : Option Nat) : LowspeedOutcome :=
  .withLock lowspeed.locked (.returned { lowspeed with sendCallback := callback } 0 [])

/-- `en50221_app_lowspeed_send_comms_reply`. -/
def sendCommsReply (lowspeed : Lowspeed) (sessionNumber : UInt16) (commsReplyId returnValue : UInt8) (io : AppIo) :
    LowspeedOutcome :=
  .returned lowspeed io.send [.send sessionNumber (tagBytes tagCommsReply ++ [2, commsReplyId, returnValue])]

/-- `en50221_app_lowspeed_send_comms_data`. -/
def sendCommsData (lowspeed : Lowspeed) (sessionNumber : UInt16) (phaseId : UInt8) (txData : List UInt8)
    (io : AppIo) : LowspeedOutcome :=
  if txData.length > 254 then .returned lowspeed (-1) []
  else
    match asn1Encode (UInt16.ofNat (txData.length + 1)) 3 with
    | none => .returned lowspeed (-1) []
    | some field =>
      .returned lowspeed io.send [.send sessionNumber (tagBytes tagCommsRecvLast ++ field ++ phaseId :: txData)]

end Lowspeed

inductive LowspeedApdu where
  | command (commandId : UInt8) (command : LowspeedCommand)
  | fragment (last : Bool) (fragment : List UInt8)

def lowspeedApdu (data : List UInt8) : Except Refusal LowspeedApdu :=
  match takeTag data with
  | none => .error receivedShortData
  | some (tag, data) =>
    if tag = tagCommsCommand then (parsedCommand data).map fun c => .command c.1 c.2
    else if tag = tagCommsSendLast then (splitBody data).map fun b => .fragment true b.1
    else if tag = tagCommsSendMore then (splitBody data).map fun b => .fragment false b.1
    else .error ("Received unexpected tag %x\n", [tag])

namespace Lowspeed

def takeApdu (lowspeed : Lowspeed) (slotId : UInt8) (sessionNumber : UInt16) (io : AppIo) :
    LowspeedApdu → LowspeedOutcome
  | .command commandId command =>
    .tell lowspeed lowspeed.commandCallback slotId sessionNumber (.command commandId command) io.callback
  | .fragment last fragment => lowspeed.takeFragment slotId sessionNumber last fragment io

theorem message_eq (lowspeed : Lowspeed) (slotId : UInt8) (sessionNumber : UInt16) (data : List UInt8) (io : AppIo) :
    lowspeed.message slotId sessionNumber data io =
      .parsed lowspeed (lowspeedApdu data) fun apdu =>
        .withLock lowspeed.locked (lowspeed.takeApdu slotId sessionNumber io apdu) := by
  unfold message lowspeedApdu
  cases takeTag data with
  | none => rfl
  | some t =>
    obtain ⟨tag,rest⟩ := t
    dsimp only
    split
    · unfold parseCommand
      cases parsedCommand rest <;> rfl
    split
    · unfold parseSend
      cases splitBody rest <;> rfl
    split
    · unfold parseSend
      cases splitBody rest <;> rfl
    · rfl

end Lowspeed

inductive LowspeedCall where
  | message (slotId : UInt8) (sessionNumber : UInt16) (data : List UInt8)
  | clearSession (sessionNumber : UInt16)
  | registerCommandCallback (callback : Option Nat)
  | registerSendCallback (callback : Option Nat)
  | sendCommsReply (sessionNumber : UInt16) (commsReplyId returnValue : UInt8)
  | sendCommsData (sessionNumber : UInt16) (phaseId : UInt8) (txData : List UInt8)

def Lowspeed.call (lowspeed : Lowspeed) (io : AppIo) : LowspeedCall → LowspeedOutcome
  | .message slotId sessionNumber data => lowspeed.message slotId sessionNumber data io
  | .clearSession sessionNumber => lowspeed.clearSession sessionNumber
  | .registerCommandCallback callback => lowspeed.registerCommandCallback callback
  | .registerSendCallback callback => lowspeed.registerSendCallback callback
  | .sendCommsReply sessionNumber commsReplyId returnValue =>
    lowspeed.sendCommsReply sessionNumber commsReplyId returnValue io
  | .sendCommsData sessionNumber phaseId txData => lowspeed.sendCommsData sessionNumber phaseId txData io

end LinuxDvb.En50221
