import LinuxDvb.LibDvbEn50221.App

/-!
# Man-machine interface

`en50221_app_mmi.c`: the module shows menus, lists and subtitles, which may come in several fragments, and asks for
input.
-/

namespace LinuxDvb.En50221

def tagCloseMmi : Nat := 0x9f8800
def tagDisplayControl : Nat := 0x9f8801
def tagDisplayReply : Nat := 0x9f8802
def tagTextLast : Nat := 0x9f8803
def tagTextMore : Nat := 0x9f8804
def tagKeypadControl : Nat := 0x9f8805
def tagKeypress : Nat := 0x9f8806
def tagEnquiry : Nat := 0x9f8807
def tagAnswer : Nat := 0x9f8808
def tagMenuLast : Nat := 0x9f8809
def tagMenuMore : Nat := 0x9f880a
def tagMenuAnswer : Nat := 0x9f880b
def tagListLast : Nat := 0x9f880c
def tagListMore : Nat := 0x9f880d
def tagSubtitleSegmentLast : Nat := 0x9f880e
def tagSubtitleSegmentMore : Nat := 0x9f880f
def tagDisplayMessage : Nat := 0x9f8810
def tagSceneEndMark : Nat := 0x9f8811
def tagSceneDone : Nat := 0x9f8812
def tagSceneControl : Nat := 0x9f8813
def tagSubtitleDownloadLast : Nat := 0x9f8814
def tagSubtitleDownloadMore : Nat := 0x9f8815
def tagFlushDownload : Nat := 0x9f8816
def tagDownloadReply : Nat := 0x9f8817

def mmiCloseMmiCmdIdDelay : UInt8 := 0x01
def mmiDisplayControlCmdIdSetMmiMode : UInt8 := 0x01
def mmiDisplayReplyIdMmiModeAck : UInt8 := 0x01
def mmiDisplayReplyIdListDisplayCharTables : UInt8 := 0x02
def mmiDisplayReplyIdListInputCharTables : UInt8 := 0x03
def mmiDisplayReplyIdListOverlayGfxCharacteristics : UInt8 := 0x04
def mmiDisplayReplyIdListFullscreenGfxCharacteristics : UInt8 := 0x05
def mmiAnswIdAnswer : UInt8 := 0x01

inductive MmiObject where
  | menu | list | subtitleSegment | subtitleDownload
  deriving DecidableEq, Repr

inductive MmiCallback where
  | close | displayControl | keypadControl | subtitleSegment | sceneEndMark | sceneControl | subtitleDownload
  | flushDownload | enq | menu | list
  deriving DecidableEq, Repr

/-- `struct en50221_app_mmi_text`: the length, and the bytes of the object that the pointer shows of it. -/
structure MmiText where
  text : List UInt8
  textLength : Nat
  deriving DecidableEq

/-- What the callbacks for menus and lists get. The first texts are `none` if the pointers are behind the
array, the items and the raw items are `none` for NULL. -/
structure MmiMenu where
  title : Option MmiText
  subTitle : Option MmiText
  bottom : Option MmiText
  itemCount : Nat
  items : Option (List MmiText)
  itemRawLength : Nat
  itemsRaw : Option (List UInt8)
  deriving DecidableEq

inductive MmiArgs where
  | close (cmdId delay : UInt8)
  | displayControl (cmdId mmiMode : UInt8)
  | keypadControl (cmdId : UInt8) (keyCodes : List UInt8)
  | enq (blindAnswer : Bool) (expectedAnswerLength : UInt8) (text : List UInt8)
  | menu (menu : MmiMenu)
  | segment (segment : List UInt8)
  | sceneEndMark (decoderContinueFlag sceneRevealFlag sendSceneDone : Bool) (sceneTag : UInt8)
  | sceneControl (decoderContinueFlag sceneRevealFlag : Bool) (sceneTag : UInt8)
  | flushDownload
  deriving DecidableEq

/-- What a call meets, with the memory for the `realloc` of a text by the number of bytes left of its object,
and whether the calls of `alloca` return a pointer. -/
structure MmiIo extends AppIo where
  text : Nat → Bool
  textFlags : Bool
  textData : Bool
  textDataForUser : Bool

/-- `struct en50221_app_mmi`. -/
structure Mmi where
  callbacks : MmiCallback → Option Nat
  sessions : ChainTable UInt16 MmiObject
  locked : Bool

abbrev MmiEvent := AppEvent MmiArgs

abbrev MmiOutcome := AppOutcome Mmi MmiArgs

/-- `en50221_app_mmi_create`. -/
def mmiCreate : Mmi := ⟨fun _ => none, ChainTable.empty, false⟩

/-! ### Messages of one fragment -/

def parsedCommandByte (withByte : UInt8) : List UInt8 → Except Refusal (UInt8 × UInt8)
  | length :: cmdId :: rest =>
    if length.toNat > rest.length + 1 then .error receivedShortData
    else if cmdId ≠ withByte then .ok (cmdId, 0)
    else
      match length, rest with
      | 2, byte :: _ => .ok (cmdId, byte)
      | _, _ => .error receivedShortData
  | _ => .error receivedShortData

def parsedClose (data : List UInt8) : Except Refusal MmiArgs :=
  (parsedCommandByte mmiCloseMmiCmdIdDelay data).map fun c => .close c.1 c.2

def parsedDisplayControl (data : List UInt8) : Except Refusal MmiArgs :=
  (parsedCommandByte mmiDisplayControlCmdIdSetMmiMode data).map fun c => .displayControl c.1 c.2

def parsedKeypadControl (data : List UInt8) : Except Refusal MmiArgs := do
  match ← splitBody data with
  | (cmdId :: keycodes, _) => .ok (.keypadControl cmdId keycodes)
  | _ => .error receivedShortData

def parsedEnq (data : List UInt8) : Except Refusal MmiArgs := do
  match ← splitBody data with
  | (flags :: answerLength :: text, _) => .ok (.enq (flags &&& 0x01 ≠ 0) answerLength text)
  | _ => .error receivedShortData

def parsedSceneEndMark : List UInt8 → Except Refusal MmiArgs
  | [1, flags] =>
    .ok (.sceneEndMark (flags &&& 0x80 ≠ 0) (flags &&& 0x40 ≠ 0) (flags &&& 0x20 ≠ 0) (flags &&& 0x0f))
  | _ => .error receivedShortData

def parsedSceneControl : List UInt8 → Except Refusal MmiArgs
  | [1, flags] => .ok (.sceneControl (flags &&& 0x80 ≠ 0) (flags &&& 0x40 ≠ 0) (flags &&& 0x0f))
  | _ => .error receivedShortData

def parsedFlushDownload : List UInt8 → Except Refusal MmiArgs
  | [0] => .ok .flushDownload
  | _ => .error receivedShortData

/-! ### Texts -/

/-- The end of `en50221_app_mmi_defragment_text`. -/
inductive DefragmentedText where
  | undefined
  | failed (r : Refusal)
  | text (text : MmiText) (consumed : Nat)
  deriving DecidableEq

/-- A text grows by `realloc` and a copy; the block is freed if `realloc` returns NULL. -/
def growText (text : HeapBlock) (fragment : List UInt8) (asnDataLength : Nat) (fits : Bool)
    (next : List UInt8 → DefragmentedText) : DefragmentedText :=
  if fragment.length < asnDataLength then .undefined
  else
    match text.grow fragment fits with
    | .undefined => .undefined
    | .refused .dangling => .undefined
    | .refused _ => .failed ranOutOfMemory
    | .grown bytes => next bytes

/-- The loop of `en50221_app_mmi_defragment_text`. The bytes left of the object are `data`; `dataLength` says
more than there are once a length has left the object. -/
def defragmentText (fits : Nat → Bool) (data : List UInt8) (dataLength : Nat) (text : HeapBlock)
    (consumed : Nat) : DefragmentedText :=
  if dataLength < 3 then .failed ("Short data\n", [])
  else
    match data with
    | b₁ :: b₂ :: b₃ :: data =>
      let tag := b₁.toNat <<< 16 ||| b₂.toNat <<< 8 ||| b₃.toNat
      match asn1Decode data (dataLength - 3) with
      | none => .undefined
      | some none => .failed asn1DecodeError
      | some (some (lengthFieldLen, asnDataLength)) =>
        let fragment := (data.drop lengthFieldLen).take asnDataLength
        let used := consumed + 3 + lengthFieldLen + asnDataLength
        if tag = tagTextLast then
          if text = .null then .text ⟨fragment, asnDataLength⟩ used
          else
            growText text fragment asnDataLength (fits data.length) fun bytes =>
              .text ⟨bytes, bytes.length⟩ used
        else if tag = tagTextMore then
          growText text fragment asnDataLength (fits data.length) fun bytes =>
            defragmentText fits (data.drop (lengthFieldLen + asnDataLength))
              (subU32 dataLength (3 + lengthFieldLen + asnDataLength)) (.block bytes) used
        else .failed ("Unknown MMI text tag\n", [])
    | _ => .undefined
termination_by data.length

inductive ExtractedTexts where
  | undefined
  | failed (r : Refusal)
  | texts (texts : List MmiText) (data : List UInt8) (dataLength : Nat)
  deriving DecidableEq

/-- The loop over the texts in `en50221_app_mmi_parse_list_menu`. -/
def extractTexts (fits : Nat → Bool) : Nat → List UInt8 → Nat → ExtractedTexts
  | 0, data, dataLength => .texts [] data dataLength
  | count + 1, data, dataLength =>
    match defragmentText fits data dataLength .null 0 with
    | .undefined => .undefined
    | .failed r => .failed r
    | .text text consumed =>
      match extractTexts fits count (data.drop consumed)
          (subU32 dataLength consumed) with
      | .undefined => .undefined
      | .failed r => .failed r
      | .texts texts data dataLength => .texts (text :: texts) data dataLength

/-! ### Objects -/

/-- The end of the handling of an object: whether the lock is still held, the return value and the events. -/
structure ObjectEnd where
  locked : Bool
  result : Int
  events : List MmiEvent
  deriving DecidableEq

/-- The number of texts of a menu or list, in a `uint8_t`. -/
def textCount (choiceNb : UInt8) : UInt8 := if choiceNb = 0xff then 3 else choiceNb + 3

/-- The arguments of the callback for the texts that were extracted and the data that is left. -/
def menuArgs (choiceNb : UInt8) (texts : List MmiText) (data : List UInt8) (dataLength : Nat) : MmiMenu where
  title := texts[0]?
  subTitle := texts[1]?
  bottom := texts[2]?
  itemCount := subU32 (textCount choiceNb).toNat 3
  items := if textCount choiceNb > 3 then some (texts.drop 3) else none
  itemRawLength := if choiceNb = 0xff then dataLength else 0
  itemsRaw := if choiceNb = 0xff then some data else none

namespace Mmi

def tellObject (mmi : Mmi) (callback : MmiCallback) (slotId : UInt8) (sessionNumber : UInt16) (args : MmiArgs)
    (io : MmiIo) : ObjectEnd :=
  match mmi.callbacks callback with
  | none => ⟨false, 0, []⟩
  | some cb => ⟨false, io.callback, [.callback cb slotId sessionNumber args]⟩

/-- What `en50221_app_mmi_parse_list_menu` does with the data that is defragmented, `none` if it is
undefined. -/
def listMenu (mmi : Mmi) (callback : MmiCallback) (slotId : UInt8) (sessionNumber : UInt16)
    (data : List UInt8) (io : MmiIo) : Option ObjectEnd :=
  match data with
  | [] => some ⟨false, -1, [.print receivedShortData.1 receivedShortData.2]⟩
  | choiceNb :: data =>
    if !io.textFlags || !io.textData then some ⟨false, -1, []⟩
    else
      match extractTexts io.text (textCount choiceNb).toNat data data.length with
      | .undefined => none
      | .failed r => some ⟨false, -1, [.print r.1 r.2]⟩
      | .texts texts data dataLength =>
        -- the lock is not released on this way out
        if !io.textDataForUser then some ⟨true, -1, []⟩
        else
          some (mmi.tellObject callback slotId sessionNumber (.menu (menuArgs choiceNb texts data dataLength)) io)

def object (mmi : Mmi) (kind : MmiObject) (slotId : UInt8) (sessionNumber : UInt16) (data : List UInt8)
    (io : MmiIo) : Option ObjectEnd :=
  match kind with
  | .menu => mmi.listMenu .menu slotId sessionNumber data io
  | .list => mmi.listMenu .list slotId sessionNumber data io
  | .subtitleSegment => some (mmi.tellObject .subtitleSegment slotId sessionNumber (.segment data) io)
  | .subtitleDownload => some (mmi.tellObject .subtitleDownload slotId sessionNumber (.segment data) io)

def finish (mmi : Mmi) : Option ObjectEnd → MmiOutcome
  | none => .undefined
  | some e => .returned { mmi with locked := e.locked } e.result e.events

/-- `en50221_app_mmi_defragment`, for the kind of object that the tag is of. -/
def defragment (mmi : Mmi) (sessionNumber : UInt16) (kind : MmiObject) (last : Bool) (data : List UInt8)
    (alloc : Allocation) : Defragmented UInt16 MmiObject :=
  mmi.sessions.defragment sessionNumber kind last data alloc

def takeFragment (mmi : Mmi) (slotId : UInt8) (sessionNumber : UInt16) (kind : MmiObject) (last : Bool)
    (fragment : List UInt8) (io : MmiIo) : MmiOutcome :=
  match mmi.defragment sessionNumber kind last fragment io.alloc with
  | .undefined => .undefined
  | .noMemory sessions => .refuse { mmi with sessions := sessions } ranOutOfMemory
  | .kept sessions => .returned { mmi with sessions := sessions } 0 []
  | .single data => mmi.finish (mmi.object kind slotId sessionNumber data io)
  | .joined sessions data =>
    { mmi with sessions := sessions }.finish (mmi.object kind slotId sessionNumber data io)

/-- `en50221_app_mmi_parse_list_menu` and `en50221_app_mmi_parse_subtitle`. -/
def parseObject (mmi : Mmi) (slotId : UInt8) (sessionNumber : UInt16) (kind : MmiObject) (last : Bool)
    (data : List UInt8) (io : MmiIo) : MmiOutcome :=
  .parsed mmi (splitBody data) fun (fragment, _) =>
    .withLock mmi.locked (mmi.takeFragment slotId sessionNumber kind last fragment io)

def tellParsed (mmi : Mmi) (slotId : UInt8) (sessionNumber : UInt16) (callback : MmiCallback)
    (p : Except Refusal MmiArgs) (io : MmiIo) : MmiOutcome :=
  .parsed mmi p fun args =>
    .withLock mmi.locked (.tell mmi (mmi.callbacks callback) slotId sessionNumber args io.callback)

/-- `en50221_app_mmi_message`. -/
def message (mmi : Mmi) (slotId : UInt8) (sessionNumber : UInt16) (data : List UInt8) (io : MmiIo) :
    MmiOutcome :=
  match takeTag data with
  | none => .refuse mmi receivedShortData
  | some (tag, data) =>
    if tag = tagCloseMmi then mmi.tellParsed slotId sessionNumber .close (parsedClose data) io
    else if tag = tagDisplayControl then
      mmi.tellParsed slotId sessionNumber .displayControl (parsedDisplayControl data) io
    else if tag = tagKeypadControl then
      mmi.tellParsed slotId sessionNumber .keypadControl (parsedKeypadControl data) io
    else if tag = tagEnquiry then mmi.tellParsed slotId sessionNumber .enq (parsedEnq data) io
    else if tag = tagMenuLast then mmi.parseObject slotId sessionNumber .menu true data io
    else if tag = tagMenuMore then mmi.parseObject slotId sessionNumber .menu false data io
    else if tag = tagListLast then mmi.parseObject slotId sessionNumber .list true data io
    else if tag = tagListMore then mmi.parseObject slotId sessionNumber .list false data io
    else if tag = tagSubtitleSegmentLast then
      mmi.parseObject slotId sessionNumber .subtitleSegment true data io
    else if tag = tagSubtitleSegmentMore then
      mmi.parseObject slotId sessionNumber .subtitleSegment false data io
    else if tag = tagSceneEndMark then
      mmi.tellParsed slotId sessionNumber .sceneEndMark (parsedSceneEndMark data) io
    else if tag = tagSceneControl then
      mmi.tellParsed slotId sessionNumber .sceneControl (parsedSceneControl data) io
    else if tag = tagSubtitleDownloadLast then
      mmi.parseObject slotId sessionNumber .subtitleDownload true data io
    else if tag = tagSubtitleDownloadMore then
      mmi.parseObject slotId sessionNumber .subtitleDownload false data io
    else if tag = tagFlushDownload then
      mmi.tellParsed slotId sessionNumber .flushDownload (parsedFlushDownload data) io
    else .refuse mmi ("Received unexpected tag %x\n", [tag])

/-- `en50221_app_mmi_clear_session`. -/
def clearSession (mmi : Mmi) (sessionNumber : UInt16) : MmiOutcome :=
  .withLock mmi.locked <|
    match mmi.sessions.find sessionNumber with
    | none => .returned mmi 0 []
    | some e =>
      if e.chains .menu = .dangling ∨ e.chains .list = .dangling ∨ e.chains .subtitleSegment = .dangling ∨
          e.chains .subtitleDownload = .dangling then .undefined
      else
        -- returns with the lock held
        .returned { mmi with sessions := mmi.sessions.clear sessionNumber, locked := true } 0 []

def register (mmi : Mmi) (kind : MmiCallback) (callback : Option Nat) : MmiOutcome :=
  .withLock mmi.locked (.returned { mmi with callbacks := Function.update mmi.callbacks kind callback } 0 [])

end Mmi

/-! ### Messages to the module -/

/-- `struct en50221_app_mmi_pixel_depth`. -/
structure PixelDepth where
  displayDepth : UInt8
  pixelsPerByte : UInt8
  regionOverhead : UInt8

/-- The characteristics of a graphics mode in `struct en502221_app_mmi_display_reply_details`. -/
structure GfxDetails where
  width : UInt16
  height : UInt16
  aspectRatio : UInt8
  gfxRelationToVideo : UInt8
  multipleDepths : UInt8
  displayBytes : UInt16
  compositionBufferBytes : UInt8
  objectCacheBytes : UInt8
  numPixelDepths : UInt8
  pixelDepths : List PixelDepth

structure DisplayReplyDetails where
  mmiMode : UInt8
  table : List UInt8
  gfx : GfxDetails

def gfxBytes (gfx : GfxDetails) : List UInt8 :=
  [(gfx.width >>> 8).toUInt8, gfx.width.toUInt8, (gfx.height >>> 8).toUInt8, gfx.height.toUInt8,
    (gfx.aspectRatio &&& 0x0f) <<< 4 ||| (gfx.gfxRelationToVideo &&& 0x07) <<< 1 ||| gfx.multipleDepths &&& 1,
    (gfx.displayBytes >>> 4).toUInt8,
    (gfx.displayBytes.toUInt8 &&& 0x0f) <<< 4 ||| (gfx.compositionBufferBytes &&& 0xf0) >>> 4,
    (gfx.compositionBufferBytes &&& 0x0f) <<< 4 ||| (gfx.objectCacheBytes &&& 0xf0) >>> 4,
    (gfx.objectCacheBytes &&& 0x0f) <<< 4 ||| gfx.numPixelDepths &&& 0x0f]

namespace Mmi

def sendData (mmi : Mmi) (sessionNumber : UInt16) (tag : Nat) (data : List UInt8) (io : MmiIo) : MmiOutcome :=
  .returned mmi io.send [.send sessionNumber (tagBytes tag ++ data)]

def sendSized (mmi : Mmi) (sessionNumber : UInt16) (tag : Nat) (length : Nat) (data : List UInt8) (io : MmiIo) :
    MmiOutcome :=
  match asn1Encode (UInt16.ofNat length) 3 with
  | none => .returned mmi (-1) []
  | some field => mmi.sendData sessionNumber tag (field ++ data) io

/-- `en50221_app_mmi_close`. -/
def close (mmi : Mmi) (sessionNumber : UInt16) (cmdId delay : UInt8) (io : MmiIo) : MmiOutcome :=
  if cmdId = mmiCloseMmiCmdIdDelay then mmi.sendData sessionNumber tagCloseMmi [2, cmdId, delay] io
  else mmi.sendData sessionNumber tagCloseMmi [1, cmdId] io

/-- `en50221_app_mmi_display_reply`. The pointer to the pixel depths has been moved behind them when it is
given to the send function. -/
def displayReply (mmi : Mmi) (sessionNumber : UInt16) (replyId : UInt8) (details : DisplayReplyDetails)
    (io : MmiIo) : MmiOutcome :=
  if replyId = mmiDisplayReplyIdMmiModeAck then
    mmi.sendData sessionNumber tagDisplayReply [2, replyId, details.mmiMode] io
  else if replyId = mmiDisplayReplyIdListDisplayCharTables ∨ replyId = mmiDisplayReplyIdListInputCharTables then
    mmi.sendSized sessionNumber tagDisplayReply (details.table.length + 1) (replyId :: details.table) io
  else if replyId = mmiDisplayReplyIdListOverlayGfxCharacteristics ∨
      replyId = mmiDisplayReplyIdListFullscreenGfxCharacteristics then
    if details.gfx.numPixelDepths = 0 then
      mmi.sendSized sessionNumber tagDisplayReply 10 (replyId :: gfxBytes details.gfx) io
    else .undefined
  else mmi.sendData sessionNumber tagDisplayReply [1, replyId] io

/-- `en50221_app_mmi_keypress`. -/
def keypress (mmi : Mmi) (sessionNumber : UInt16) (keycode : UInt8) (io : MmiIo) : MmiOutcome :=
  mmi.sendData sessionNumber tagKeypress [1, keycode] io

/-- `en50221_app_mmi_display_message`. -/
def displayMessage (mmi : Mmi) (sessionNumber : UInt16) (displayMessageId : UInt8) (io : MmiIo) : MmiOutcome :=
  mmi.sendData sessionNumber tagDisplayMessage [1, displayMessageId] io

/-- `en50221_app_mmi_scene_done`. -/
def sceneDone (mmi : Mmi) (sessionNumber : UInt16) (decoderContinue sceneReveal sceneTag : UInt8) (io : MmiIo) :
    MmiOutcome :=
  mmi.sendData sessionNumber tagSceneDone
    [1, (if decoderContinue ≠ 0 then 0x80 else 0) ||| (if sceneReveal ≠ 0 then 0x40 else 0) ||| sceneTag &&& 0x0f]
    io

/-- `en50221_app_mmi_download_reply`. -/
def downloadReply (mmi : Mmi) (sessionNumber objectId : UInt16) (downloadReplyId : UInt8) (io : MmiIo) :
    MmiOutcome :=
  mmi.sendData sessionNumber tagDownloadReply
    [3, (objectId >>> 8).toUInt8, objectId.toUInt8, downloadReplyId] io

/-- `en50221_app_mmi_answ`. -/
def answ (mmi : Mmi) (sessionNumber : UInt16) (answId : UInt8) (text : List UInt8) (io : MmiIo) : MmiOutcome :=
  if answId = mmiAnswIdAnswer then
    mmi.sendSized sessionNumber tagAnswer (text.length + 1) (answId :: text) io
  else mmi.sendData sessionNumber tagAnswer [1, answId] io

/-- `en50221_app_mmi_menu_answ`. -/
def menuAnsw (mmi : Mmi) (sessionNumber : UInt16) (choiceRef : UInt8) (io : MmiIo) : MmiOutcome :=
  mmi.sendData sessionNumber tagMenuAnswer [1, choiceRef] io

end Mmi

inductive MmiCall where
  | message (slotId : UInt8) (sessionNumber : UInt16) (data : List UInt8)
  | clearSession (sessionNumber : UInt16)
  | register (kind : MmiCallback) (callback : Option Nat)
  | close (sessionNumber : UInt16) (cmdId delay : UInt8)
  | displayReply (sessionNumber : UInt16) (replyId : UInt8) (details : DisplayReplyDetails)
  | keypress (sessionNumber : UInt16) (keycode : UInt8)
  | displayMessage (sessionNumber : UInt16) (displayMessageId : UInt8)
  | sceneDone (sessionNumber : UInt16) (decoderContinue sceneReveal sceneTag : UInt8)
  | downloadReply (sessionNumber objectId : UInt16) (downloadReplyId : UInt8)
  | answ (sessionNumber : UInt16) (answId : UInt8) (text : List UInt8)
  | menuAnsw (sessionNumber : UInt16) (choiceRef : UInt8)

def Mmi.call (mmi : Mmi) (io : MmiIo) : MmiCall → MmiOutcome
  | .message slotId sessionNumber data => mmi.message slotId sessionNumber data io
  | .clearSession sessionNumber => mmi.clearSession sessionNumber
  | .register kind callback => mmi.register kind callback
  | .close sessionNumber cmdId delay => mmi.close sessionNumber cmdId delay io
  | .displayReply sessionNumber replyId details => mmi.displayReply sessionNumber replyId details io
  | .keypress sessionNumber keycode => mmi.keypress sessionNumber keycode io
  | .displayMessage sessionNumber displayMessageId => mmi.displayMessage sessionNumber displayMessageId io
  | .sceneDone sessionNumber decoderContinue sceneReveal sceneTag =>
    mmi.sceneDone sessionNumber decoderContinue sceneReveal sceneTag io
  | .downloadReply sessionNumber objectId downloadReplyId =>
    mmi.downloadReply sessionNumber objectId downloadReplyId io
  | .answ sessionNumber answId text => mmi.answ sessionNumber answId text io
  | .menuAnsw sessionNumber choiceRef => mmi.menuAnsw sessionNumber choiceRef io

def MmiCall.sends : MmiCall → Bool
  | .message .. => false
  | .clearSession _ => false
  | .register .. => false
  | _ => true

theorem Mmi.sendSized_returned (mmi : Mmi) (sessionNumber : UInt16) (tag length : Nat) (data : List UInt8)
    (io : MmiIo) : ∃ result events, mmi.sendSized sessionNumber tag length data io = .returned mmi result events := by
  unfold sendSized
  split
  · exact ⟨_,_,rfl⟩
  · exact ⟨_,_,rfl⟩

theorem Mmi.call_of_sends (mmi : Mmi) (io : MmiIo) {call : MmiCall} (h : call.sends = true) :
    mmi.call io call = .undefined ∨ ∃ result events, mmi.call io call = .returned mmi result events := by
  cases call with
  | message slotId sessionNumber data => cases h
  | clearSession sessionNumber => cases h
  | register kind callback => cases h
  | close sessionNumber cmdId delay =>
    unfold Mmi.call close
    dsimp only
    split
    · exact .inr ⟨_,_,rfl⟩
    · exact .inr ⟨_,_,rfl⟩
  | displayReply sessionNumber replyId details =>
    unfold Mmi.call displayReply
    dsimp only
    split
    · exact .inr ⟨_,_,rfl⟩
    split
    · exact .inr (mmi.sendSized_returned ..)
    split
    · split
      · exact .inr (mmi.sendSized_returned ..)
      · exact .inl rfl
    · exact .inr ⟨_,_,rfl⟩
  | keypress sessionNumber keycode => exact .inr ⟨_,_,rfl⟩
  | displayMessage sessionNumber displayMessageId => exact .inr ⟨_,_,rfl⟩
  | sceneDone sessionNumber decoderContinue sceneReveal sceneTag => exact .inr ⟨_,_,rfl⟩
  | downloadReply sessionNumber objectId downloadReplyId => exact .inr ⟨_,_,rfl⟩
  | answ sessionNumber answId text =>
    unfold Mmi.call answ
    dsimp only
    split
    · exact .inr (mmi.sendSized_returned ..)
    · exact .inr ⟨_,_,rfl⟩
  | menuAnsw sessionNumber choiceRef => exact .inr ⟨_,_,rfl⟩

/-! ### What a message is about -/

inductive MmiApdu where
  | told (callback : MmiCallback) (args : MmiArgs)
  | fragment (kind : MmiObject) (last : Bool) (fragment : List UInt8)

def objectApdu (kind : MmiObject) (last : Bool) (data : List UInt8) : Except Refusal MmiApdu :=
  (splitBody data).map fun b => .fragment kind last b.1

def mmiApdu (data : List UInt8) : Except Refusal MmiApdu :=
  match takeTag data with
  | none => .error receivedShortData
  | some (tag, data) =>
    if tag = tagCloseMmi then (parsedClose data).map (.told .close)
    else if tag = tagDisplayControl then (parsedDisplayControl data).map (.told .displayControl)
    else if tag = tagKeypadControl then (parsedKeypadControl data).map (.told .keypadControl)
    else if tag = tagEnquiry then (parsedEnq data).map (.told .enq)
    else if tag = tagMenuLast then objectApdu .menu true data
    else if tag = tagMenuMore then objectApdu .menu false data
    else if tag = tagListLast then objectApdu .list true data
    else if tag = tagListMore then objectApdu .list false data
    else if tag = tagSubtitleSegmentLast then objectApdu .subtitleSegment true data
    else if tag = tagSubtitleSegmentMore then objectApdu .subtitleSegment false data
    else if tag = tagSceneEndMark then (parsedSceneEndMark data).map (.told .sceneEndMark)
    else if tag = tagSceneControl then (parsedSceneControl data).map (.told .sceneControl)
    else if tag = tagSubtitleDownloadLast then objectApdu .subtitleDownload true data
    else if tag = tagSubtitleDownloadMore then objectApdu .subtitleDownload false data
    else if tag = tagFlushDownload then (parsedFlushDownload data).map (.told .flushDownload)
    else .error ("Received unexpected tag %x\n", [tag])

namespace Mmi

def takeApdu (mmi : Mmi) (slotId : UInt8) (sessionNumber : UInt16) (io : MmiIo) : MmiApdu → MmiOutcome
  | .told callback args => .tell mmi (mmi.callbacks callback) slotId sessionNumber args io.callback
  | .fragment kind last fragment => mmi.takeFragment slotId sessionNumber kind last fragment io

private theorem tellParsed_eq (mmi : Mmi) (slotId : UInt8) (sessionNumber : UInt16) (callback : MmiCallback)
    (p : Except Refusal MmiArgs) (io : MmiIo) :
    mmi.tellParsed slotId sessionNumber callback p io =
      .parsed mmi (p.map (MmiApdu.told callback)) fun apdu =>
        .withLock mmi.locked (mmi.takeApdu slotId sessionNumber io apdu) := by
  cases p <;> rfl

private theorem parseObject_eq (mmi : Mmi) (slotId : UInt8) (sessionNumber : UInt16) (kind : MmiObject)
    (last : Bool) (data : List UInt8) (io : MmiIo) :
    mmi.parseObject slotId sessionNumber kind last data io =
      .parsed mmi (objectApdu kind last data) fun apdu =>
        .withLock mmi.locked (mmi.takeApdu slotId sessionNumber io apdu) := by
  unfold parseObject objectApdu
  cases splitBody data <;> rfl

theorem message_eq (mmi : Mmi) (slotId : UInt8) (sessionNumber : UInt16) (data : List UInt8) (io : MmiIo) :
    mmi.message slotId sessionNumber data io =
      .parsed mmi (mmiApdu data) fun apdu =>
        .withLock mmi.locked (mmi.takeApdu slotId sessionNumber io apdu) := by
  unfold message mmiApdu
  cases takeTag data with
  | none => rfl
  | some t =>
    simp only [tellParsed_eq,parseObject_eq,AppOutcome.parsed_ite]
    rfl

end Mmi

end LinuxDvb.En50221
