import LinuxDvb.Framework.Buffer
import LinuxDvb.Scan.Descriptors

/-!
# The channels of a virtual channel table

`parse_psip_vct` and the parsers of its descriptors, and the tables as a broadcaster writes them.
-/

namespace LinuxDvb.Scan.Tables

/-! ## Fields -/

/-- The bytes that `getBits` collects, the first one on top. -/
def collect (buf : Mem UInt8) (pos n : Nat) : Nat := (buf.slice pos n).foldl (fun acc b => acc <<< 8 ||| b.toNat) 0

/-- `getBits`, for fields that end in the last byte that it collects. -/
def getBits (buf : Mem UInt8) (pos startbit bitlen : Nat) : Nat :=
  let bytes := ((bitlen - 1) >>> 3) + 1
  (collect buf (pos + startbit / 8) bytes >>> (8 * bytes - startbit % 8 - bitlen)) &&& (1 <<< bitlen - 1)

/-- `struct tvct_channel`, the fields that are used. -/
structure TvctChannel where
  shortName : List Nat
  majorChannelNumber : Nat
  minorChannelNumber : Nat
  programNumber : Nat
  hidden : Nat
  serviceType : Nat
  descriptorsLength : Nat

def readTvctChannel (buf : Mem UInt8) (pos : Nat) : TvctChannel where
  shortName := (List.range 7).map fun i => getBits buf pos (16 * i) 16
  majorChannelNumber := getBits buf pos 116 10
  minorChannelNumber := getBits buf pos 126 10
  programNumber := getBits buf pos 192 16
  hidden := getBits buf pos 211 1
  serviceType := getBits buf pos 218 6
  descriptorsLength := getBits buf pos 246 10

/-! ## Descriptors -/

def addElement (streamType pid : Nat) (lang : List UInt8) (s : Service) : Service :=
  if streamType = 0x02 then { s with videoPid := pid }
  else if streamType = 0x81 ∧ s.audioNum < TableArray.audioPid.size then
    { s with
      audioPid := s.audioPid.write s.audioNum [pid]
      audioLang := s.audioLang.write (4 * s.audioNum) lang
      audioNum := s.audioNum + 1 }
  else s

/-- The loop of `parse_atsc_service_loc_desc`, with the elements left. -/
def locationElements (buf : Mem UInt8) : Nat → Nat → Service → Service
  | 0, _, s => s
  | left + 1, b, s =>
    let language := getBits buf b 24 24
    let lang := [UInt8.ofNat (language >>> 16), UInt8.ofNat (language >>> 8), UInt8.ofNat language]
    locationElements buf left (b + 6) (addElement (getBits buf b 0 8) (getBits buf b 11 13) lang s)

def parseAtscServiceLocDesc (buf : Mem UInt8) (pos : Nat) (s : Service) : Service :=
  locationElements buf (getBits buf pos 32 8) (pos + 5) { s with pcrPid := getBits buf pos 19 13 }

def addSegment (compType : UInt8) (bytes : List UInt8) (s : Service) : Service :=
  if compType = 0 then { s with serviceName := some (bytes ++ [0]) } else s

def nameSegments (buf : Mem UInt8) : Nat → Nat → Service → Nat × Service
  | 0, b, s => (b, s)
  | left + 1, b, s =>
    let numBytes := (buf (b + 2)).toNat
    nameSegments buf left (b + (3 + numBytes)) (addSegment (buf b) (buf.slice (b + 3) numBytes) s)

def nameStrings (buf : Mem UInt8) : Nat → Nat → Service → Service
  | 0, _, s => s
  | left + 1, b, s =>
    let segments := nameSegments buf (buf (b + 3)).toNat (b + 4) s
    nameStrings buf left segments.1 segments.2

def parseAtscExtChanNameDesc (buf : Mem UInt8) (pos : Nat) (s : Service) : Service :=
  nameStrings buf (buf (pos + 2)).toNat (pos + 3) s

def parsePsipDescriptors (buf : Mem UInt8) (pos len : Nat) (s : Service) : Service :=
  if 0 < len then
    let descLen := (buf (pos + 1)).toNat
    let s :=
      if buf pos = 0xa1 then parseAtscServiceLocDesc buf pos s
      else if buf pos = 0xa0 then parseAtscExtChanNameDesc buf pos s
      else s
    parsePsipDescriptors buf (pos + (2 + descLen)) (len - (2 + descLen)) s
  else s
termination_by len

/-! ## The table -/

def rmNotRunning : Nat := 1

def rmRunning : Nat := 4

/-- What the loop of `parse_psip_vct` does to the service of a channel. -/
def fillService (buf : Mem UInt8) (b : Nat) (ch : TvctChannel) (s : Service) : Service :=
  let s := { s with serviceName := some (ch.shortName.map UInt8.ofNat) }
  let s := parsePsipDescriptors buf (b + 32) ch.descriptorsLength s
  { s with
    channelNum := ch.majorChannelNumber <<< 10 ||| ch.minorChannelNumber
    running := if ch.hidden ≠ 0 then rmNotRunning else rmRunning }

/-- The program number of a channel, and `pseudo_id` behind it. -/
def takeNumber (programNumber pseudoId : Nat) : Nat × Nat :=
  if programNumber = 0 then (pseudoId - 1, pseudoId - 1) else (programNumber, pseudoId)

def vctLoop (buf : Mem UInt8) : Nat → Nat → Nat → Services → Services
  | 0, _, _, tp => tp
  | left + 1, b, pseudoId, tp =>
    let ch := readTvctChannel buf b
    -- analog channels, television and radio; any other leaves `b` where it is
    if ch.serviceType = 1 ∨ ch.serviceType = 2 ∨ ch.serviceType = 3 then
      let number := takeNumber ch.programNumber pseudoId
      let s := fillService buf b ch (tp.findOrAlloc number.1)
      vctLoop buf left (b + (32 + ch.descriptorsLength)) number.2 (tp.put s)
    else vctLoop buf left b pseudoId tp

def parsePsipVct (buf : Mem UInt8) (pos : Nat) (tp : Services) : Services :=
  vctLoop buf (buf (pos + 1)).toNat (pos + 2) 0xffff tp

/-! ## Well-formed tables -/

structure LocationElement where
  streamType : UInt8
  reserved : Nat
  reserved_lt : reserved < 8
  pid : Nat
  pid_lt : pid < 8192
  lang : List UInt8
  length_lang : lang.length = 3

def LocationElement.bytes (e : LocationElement) : List UInt8 :=
  [e.streamType, UInt8.ofNat (e.reserved * 32 + e.pid / 256), UInt8.ofNat e.pid] ++ e.lang

structure NameSegment where
  compType : UInt8
  mode : UInt8
  text : List UInt8
  fits : text.length < 256

def NameSegment.bytes (g : NameSegment) : List UInt8 := [g.compType, g.mode, UInt8.ofNat g.text.length] ++ g.text

structure NameString where
  lang : List UInt8
  length_lang : lang.length = 3
  segments : List NameSegment
  fits : segments.length < 256

def NameString.bytes (t : NameString) : List UInt8 :=
  t.lang ++ [UInt8.ofNat t.segments.length] ++ t.segments.flatMap NameSegment.bytes

inductive VctContent where
  | location (reserved pcrPid : Nat) (elements : List LocationElement) (hreserved : reserved < 8)
    (hpid : pcrPid < 8192)
  | extendedName (strings : List NameString)
  | other (tag : UInt8) (data : List UInt8) (hlocation : tag ≠ 0xa1) (hname : tag ≠ 0xa0)

def VctContent.tag : VctContent → UInt8
  | location .. => 0xa1
  | extendedName _ => 0xa0
  | other tag .. => tag

def VctContent.data : VctContent → List UInt8
  | location reserved pcrPid elements _ _ =>
    [UInt8.ofNat (reserved * 32 + pcrPid / 256), UInt8.ofNat pcrPid, UInt8.ofNat elements.length] ++
      elements.flatMap LocationElement.bytes
  | extendedName strings => UInt8.ofNat strings.length :: strings.flatMap NameString.bytes
  | other _ data _ _ => data

structure VctDescriptor where
  content : VctContent
  fits : content.data.length < 256

def VctDescriptor.bytes (d : VctDescriptor) : List UInt8 :=
  [d.content.tag, UInt8.ofNat d.content.data.length] ++ d.content.data

/-- A channel. `tuning` are the modulation, the carrier and the transport stream, `access` the bits in front of
`hidden`, and `guide` those behind it. -/
structure VctChannel where
  shortName : List UInt16
  length_shortName : shortName.length = 7
  reserved : Nat
  reserved_lt : reserved < 16
  major : Nat
  major_lt : major < 1024
  minor : Nat
  minor_lt : minor < 1024
  tuning : List UInt8
  length_tuning : tuning.length = 7
  programNumber : UInt16
  access : Nat
  access_lt : access < 8
  hidden : Bool
  guide : Nat
  guide_lt : guide < 64
  serviceType : Nat
  serviceType_lt : serviceType < 64
  sourceId : UInt16
  reserved' : Nat
  reserved'_lt : reserved' < 64
  descriptors : List VctDescriptor
  fits : (descriptors.flatMap VctDescriptor.bytes).length < 1024

namespace VctChannel

def numbers (c : VctChannel) : Nat := c.reserved * 1048576 + c.major * 1024 + c.minor

def flags (c : VctChannel) : Nat := c.access * 8192 + c.hidden.toNat * 4096 + c.guide * 64 + c.serviceType

def descriptorBytes (c : VctChannel) : List UInt8 := c.descriptors.flatMap VctDescriptor.bytes

def bytes (c : VctChannel) : List UInt8 :=
  c.shortName.flatMap (fun u => be16 u.toNat) ++
    [UInt8.ofNat (c.numbers / 65536), UInt8.ofNat (c.numbers / 256), UInt8.ofNat c.numbers] ++ c.tuning ++
    be16 c.programNumber.toNat ++ be16 c.flags ++ be16 c.sourceId.toNat ++
    be16 (c.reserved' * 1024 + c.descriptorBytes.length) ++ c.descriptorBytes

end VctChannel

def vctBody (protocolVersion : UInt8) (channels : List VctChannel) : List UInt8 :=
  [protocolVersion, UInt8.ofNat channels.length] ++ channels.flatMap VctChannel.bytes

end LinuxDvb.Scan.Tables
