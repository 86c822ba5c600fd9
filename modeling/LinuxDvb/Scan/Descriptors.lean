import LinuxDvb.Framework.Logged
import LinuxDvb.Scan.Transponder

/-!
# The descriptors that scan reads

The loops of descriptors in the program map, the network information and the service description tables, and the
parsers of the descriptors.
-/

namespace LinuxDvb.Scan.Tables

/-! ## The data -/

/-- The arrays of `struct service`, and `other_f` of `struct transponder` with the entries it was allocated for. -/
inductive TableArray where
  | audioPid
  | audioLang
  | caId
  | otherF (n : Nat)
deriving DecidableEq, Repr

/-- The bytes of `ca_id` and of `audio_lang`, the entries of the others. -/
def TableArray.size : TableArray → Nat
  | audioPid => 32
  | audioLang => 32 * 4
  | caId => 16 * 2
  | otherF n => n

inductive Access where
  | visit (pos : Nat)
  | read (pos : Nat)
  | write (array : TableArray) (i : Nat)
deriving DecidableEq, Repr

/-- `struct service`, without what these tables leave alone. A name is the bytes of its memory, up to a final zero that
has been put there. -/
structure Service where
  transportStreamId : Nat
  serviceId : Nat
  providerName : Option (List UInt8)
  serviceName : Option (List UInt8)
  pcrPid : Nat
  videoPid : Nat
  audioPid : Mem Nat
  audioLang : Mem UInt8
  audioNum : Nat
  caId : Mem UInt8
  teletextPid : Nat
  subtitlingPid : Nat
  ac3Pid : Nat
  type : UInt8
  scrambled : Bool
  running : Nat
  channelNum : Nat

/-- As `alloc_service` leaves it. -/
def Service.allocated (transportStreamId serviceId : Nat) : Service where
  transportStreamId := transportStreamId
  serviceId := serviceId
  providerName := none
  serviceName := none
  pcrPid := 0
  videoPid := 0
  audioPid := fun _ => 0
  audioLang := fun _ => 0
  audioNum := 0
  caId := fun _ => 0
  teletextPid := 0
  subtitlingPid := 0
  ac3Pid := 0
  type := 0
  scrambled := false
  running := 0
  channelNum := 0

/-- `current_tp`, as far as its services go. -/
structure Services where
  transportStreamId : Nat
  services : List Service

/-- `find_service` -/
def Services.find (tp : Services) (serviceId : Nat) : Option Service :=
  tp.services.find? fun s => s.serviceId = serviceId

/-- The service that `find_service` finds, else the one that `alloc_service` appends. -/
def Services.findOrAlloc (tp : Services) (serviceId : Nat) : Service :=
  (tp.find serviceId).getD (.allocated tp.transportStreamId serviceId)

def putService (s : Service) : List Service → List Service
  | [] => [s]
  | v :: vs => if v.serviceId = s.serviceId then s :: vs else v :: putService s vs

def Services.put (tp : Services) (s : Service) : Services := { tp with services := putService s tp.services }

/-- The options, and `verbosity`. -/
structure Options extends Config where
  vdrDumpChannum : Bool
  verbosity : Nat

/-! ## Reading -/

def readByte (buf : Mem UInt8) (pos : Nat) : Logged Access UInt8 := .one (.read pos) (buf pos)

/-- `memcpy` from the section. -/
def copyBytes (buf : Mem UInt8) (pos len : Nat) : Logged Access (List UInt8) :=
  ⟨buf.slice pos len, (List.range len).map fun i => .read (pos + i)⟩

/-- Bytes at some places behind `pos`. -/
def readAll (pos : Nat) (places : List Nat) : Logged Access Unit := ⟨(), places.map fun i => .read (pos + i)⟩

def writeAll (array : TableArray) (first n : Nat) : Logged Access Unit :=
  ⟨(), (List.range n).map fun i => .write array (first + i)⟩

/-- The format `%.*s`: at most `len` bytes, and none behind a zero. -/
def printString (buf : Mem UInt8) : Nat → Nat → Logged Access Unit
  | _, 0 => pure ()
  | pos, len + 1 => do
    let b ← readByte buf pos
    if b = 0 then pure () else printString buf (pos + 1) len

def word12 (high low : UInt8) : Nat := (high &&& 0x0f).toNat <<< 8 ||| low.toNat

def word13 (high low : UInt8) : Nat := (high &&& 0x1f).toNat <<< 8 ||| low.toNat

def word16 (high low : UInt8) : Nat := high.toNat <<< 8 ||| low.toNat

/-! ## Descriptors of a service -/

def parseCaIdentifierDescriptor (buf : Mem UInt8) (pos : Nat) (s : Service) : Logged Access Service := do
  let len ← readByte buf (pos + 1)
  let n := if len.toNat > TableArray.caId.size then TableArray.caId.size else len.toNat
  let ids ← copyBytes buf (pos + 2) n
  writeAll .caId 0 n
  pure { s with caId := s.caId.write 0 ids }

/-- The arguments of a message: bytes at some places behind `pos`, read only if it is printed. -/
def message (o : Options) (level pos : Nat) (places : List Nat) : Logged Access Unit :=
  if o.verbosity ≥ level then readAll pos places else pure ()

def parseIso639LanguageDescriptor (o : Options) (buf : Mem UInt8) (pos : Nat) (s : Service) :
    Logged Access Service := do
  let len ← readByte buf (pos + 1)
  if len ≥ 4 then
    -- the message reads one byte more than the copy
    message o 5 pos [5]
    let lang ← copyBytes buf (pos + 2) 3
    writeAll .audioLang (4 * s.audioNum) 3
    pure { s with audioLang := s.audioLang.write (4 * s.audioNum) lang }
  else pure s

/-- A name up to its end, without control characters, and terminated; an empty one is none. -/
def cleanName (bytes : List UInt8) : Option (List UInt8) :=
  let name := (bytes.takeWhile (· ≠ 0)).filter fun b => b ≥ 0x20 ∧ (b < 0x80 ∨ b > 0x9f)
  if name = [] then none else some (name ++ [0])

def parseServiceDescriptor (buf : Mem UInt8) (pos : Nat) (s : Service) : Logged Access Service := do
  let type ← readByte buf (pos + 2)
  let len ← readByte buf (pos + 3)
  let provider ← copyBytes buf (pos + 4) len.toNat
  let len' ← readByte buf (pos + 4 + len.toNat)
  let name ← copyBytes buf (pos + 5 + len.toNat) len'.toNat
  pure { s with type := type, providerName := cleanName provider, serviceName := cleanName name }

/-! ## Descriptors of a network -/

/-- The transponder that a table lists, `none` for the descriptors in front of them, and the channel numbers that
services have been given. -/
structure NitState where
  transponder : Option Transponder
  channelNums : List (Nat × Nat)

def parseNetworkNameDescriptor (o : Options) (buf : Mem UInt8) (pos : Nat) : Logged Access Unit := do
  let len ← readByte buf (pos + 1)
  if o.verbosity ≥ 2 then printString buf (pos + 2) len.toNat else pure ()

/-- A parser that leaves without a transponder and else reads the bytes at `places`. -/
def withTransponder (places : List Nat) (parse : Mem UInt8 → Transponder → Transponder) (buf : Mem UInt8) (pos : Nat)
    (s : NitState) : Logged Access NitState :=
  match s.transponder with
  | none => pure s
  | some t => do
    readAll pos places
    pure { s with transponder := some (parse (buf.shift pos) t) }

/-- `parse_cable_delivery_system_descriptor` -/
def cableDescriptor (o : Options) : Mem UInt8 → Nat → NitState → Logged Access NitState :=
  withTransponder [2, 3, 4, 5, 12, 9, 10, 11, 12, 8, 8] (parseCableDeliverySystemDescriptor o.toConfig)

/-- `parse_satellite_delivery_system_descriptor` -/
def satelliteDescriptor (o : Options) : Mem UInt8 → Nat → NitState → Logged Access NitState :=
  withTransponder [2, 3, 4, 5, 12, 9, 10, 11, 12, 8, 6, 7, 8] (parseSatelliteDeliverySystemDescriptor o.toConfig)

/-- `parse_terrestrial_delivery_system_descriptor` -/
def terrestrialDescriptor (o : Options) : Mem UInt8 → Nat → NitState → Logged Access NitState :=
  withTransponder [2, 3, 4, 5, 6, 7, 7, 7, 8, 8, 8, 8] (parseTerrestrialDeliverySystemDescriptor o.toConfig)

/-- `parse_frequency_list_descriptor` -/
def frequencyListDescriptor (buf : Mem UInt8) (pos : Nat) (s : NitState) : Logged Access NitState :=
  match s.transponder with
  | none => pure s
  | some t =>
    if t.otherF ≠ [] then pure s
    else do
      let len ← readByte buf (pos + 1)
      let n := (len.toNat - 1) / 4
      if n < 1 then pure s
      else do
        let kind ← readByte buf (pos + 2)
        if kind &&& 0x03 ≠ 3 then pure s
        else do
          let _ ← copyBytes buf (pos + 3) (4 * n)
          writeAll (.otherF n) 0 n
          pure { s with transponder := some (parseFrequencyListDescriptor (buf.shift pos) t) }

def parseTerrestrialUkChannelNumber (buf : Mem UInt8) (pos : Nat) (s : NitState) : Logged Access NitState := do
  let len ← readByte buf (pos + 1)
  let n := len.toNat / 4
  let _ ← copyBytes buf (pos + 2) (4 * n)
  let nums := (List.range n).map fun i =>
    (word16 (buf (pos + 2 + 4 * i)) (buf (pos + 2 + 4 * i + 1)),
      (buf (pos + 2 + 4 * i + 2) &&& 0x03).toNat <<< 8 ||| (buf (pos + 2 + 4 * i + 3)).toNat)
  pure { s with channelNums := s.channelNums ++ nums }

/-! ## The loops -/

section Loop

variable {σ : Type}

/-- `parse_descriptors`, with the cases of the `switch` for one kind of table. `descriptor_len` is an
`unsigned char`. -/
def parseDescriptors (switch : UInt8 → Nat → σ → Logged Access σ) (buf : Mem UInt8) (pos loopLen : Nat) (s : σ) :
    Logged Access σ :=
  if 0 < loopLen then do
    let tag ← readByte buf pos
    let length ← readByte buf (pos + 1)
    let descriptorLen := length + 2
    if descriptorLen = 0 then pure s
    else do
      Logged.one (.visit pos) ()
      let s ← switch tag pos s
      parseDescriptors switch buf (pos + descriptorLen.toNat) (loopLen - descriptorLen.toNat) s
  else pure s
termination_by loopLen
decreasing_by
  have hne : ¬ length + 2 = 0 := by assumption
  have : (length + 2).toNat ≠ 0 := fun hzero => hne (UInt8.toNat_inj.mp hzero)
  omega

/-- `find_descriptor`, without the results that no caller asks for. -/
def findDescriptor (tag : UInt8) (buf : Mem UInt8) (pos loopLen : Nat) : Logged Access Bool :=
  if 0 < loopLen then do
    let descriptorTag ← readByte buf pos
    let length ← readByte buf (pos + 1)
    let descriptorLen := length + 2
    if descriptorLen = 0 then pure false
    else do
      Logged.one (.visit pos) ()
      if tag = descriptorTag then pure true
      else findDescriptor tag buf (pos + descriptorLen.toNat) (loopLen - descriptorLen.toNat)
  else pure false
termination_by loopLen
decreasing_by
  have hne : ¬ length + 2 = 0 := by assumption
  have : (length + 2).toNat ≠ 0 := fun hzero => hne (UInt8.toNat_inj.mp hzero)
  omega

end Loop

/-- The `switch` of `parse_descriptors` for a program map table. -/
def pmtSwitch (o : Options) (buf : Mem UInt8) (tag : UInt8) (pos : Nat) (s : Service) : Logged Access Service :=
  if tag = 0x0a then parseIso639LanguageDescriptor o buf pos s else pure s

def sdtSwitch (buf : Mem UInt8) (tag : UInt8) (pos : Nat) (s : Service) : Logged Access Service :=
  if tag = 0x48 then parseServiceDescriptor buf pos s
  else if tag = 0x53 then parseCaIdentifierDescriptor buf pos s
  else pure s

def nitSwitch (o : Options) (buf : Mem UInt8) (tag : UInt8) (pos : Nat) (s : NitState) : Logged Access NitState :=
  if tag = 0x40 then do
    parseNetworkNameDescriptor o buf pos
    pure s
  else if tag = 0x43 then satelliteDescriptor o buf pos s
  else if tag = 0x44 then cableDescriptor o buf pos s
  else if tag = 0x5a then terrestrialDescriptor o buf pos s
  else if tag = 0x62 then frequencyListDescriptor buf pos s
  else if tag = 0x83 ∧ o.vdrDumpChannum then parseTerrestrialUkChannelNumber buf pos s
  else pure s

/-! ## The tables -/

/-- The loop of `parse_sdt`. -/
def sdtLoop (buf : Mem UInt8) (pos : Nat) (sectionLength : Int) (tp : Services) : Logged Access Services :=
  if 5 ≤ sectionLength then do
    let b0 ← readByte buf pos
    let b1 ← readByte buf (pos + 1)
    let b3 ← readByte buf (pos + 3)
    let b4 ← readByte buf (pos + 4)
    let loopLen := word12 b3 b4
    if sectionLength < loopLen ∨ loopLen = 0 then pure tp
    else do
      let s := tp.findOrAlloc (word16 b0 b1)
      let s := { s with running := ((b3 >>> 5) &&& 0x7).toNat, scrambled := (b3 >>> 4) &&& 1 ≠ 0 }
      let s ← parseDescriptors (sdtSwitch buf) buf (pos + 5) loopLen s
      sdtLoop buf (pos + (loopLen + 5)) (sectionLength - (loopLen + 5 : Nat)) (tp.put s)
  else pure tp
termination_by sectionLength.toNat

/-- `parse_sdt`. The three bytes that it skips stay in `section_length`. -/
def parseSdt (buf : Mem UInt8) (pos : Nat) (sectionLength : Int) (tp : Services) : Logged Access Services :=
  sdtLoop buf (pos + 3) sectionLength tp

def parseStream (o : Options) (buf : Mem UInt8) (pos esInfoLen elementaryPid : Nat) (s : Service) :
    Logged Access Service := do
  let streamType ← readByte buf pos
  if streamType = 0x01 ∨ streamType = 0x02 then
    pure (if s.videoPid = 0 then { s with videoPid := elementaryPid } else s)
  else if streamType = 0x03 ∨ streamType = 0x81 ∨ streamType = 0x04 then
    if s.audioNum < TableArray.audioPid.size then do
      writeAll .audioPid s.audioNum 1
      let s := { s with audioPid := s.audioPid.write s.audioNum [elementaryPid] }
      let s ← parseDescriptors (pmtSwitch o buf) buf (pos + 5) esInfoLen s
      pure { s with audioNum := s.audioNum + 1 }
    else pure s
  else if streamType = 0x06 then do
    if ← findDescriptor 0x56 buf (pos + 5) esInfoLen then pure { s with teletextPid := elementaryPid }
    else if ← findDescriptor 0x59 buf (pos + 5) esInfoLen then pure { s with subtitlingPid := elementaryPid }
    else if ← findDescriptor 0x6a buf (pos + 5) esInfoLen then pure { s with ac3Pid := elementaryPid }
    else pure s
  else pure s

/-- The loop of `parse_pmt`. -/
def pmtLoop (o : Options) (buf : Mem UInt8) (pos : Nat) (sectionLength : Int) (s : Service) : Logged Access Service :=
  if 5 ≤ sectionLength then do
    let b3 ← readByte buf (pos + 3)
    let b4 ← readByte buf (pos + 4)
    let b1 ← readByte buf (pos + 1)
    let b2 ← readByte buf (pos + 2)
    let esInfoLen := word12 b3 b4
    let s ← parseStream o buf pos esInfoLen (word13 b1 b2) s
    pmtLoop o buf (pos + (esInfoLen + 5)) (sectionLength - (esInfoLen + 5 : Nat)) s
  else pure s
termination_by sectionLength.toNat

def parsePmt (o : Options) (buf : Mem UInt8) (pos : Nat) (sectionLength : Int) (serviceId : Nat) (tp : Services) :
    Logged Access Services :=
  match tp.find serviceId with
  | none => pure tp
  | some s => do
    let b0 ← readByte buf pos
    let b1 ← readByte buf (pos + 1)
    let b2 ← readByte buf (pos + 2)
    let b3 ← readByte buf (pos + 3)
    let programInfoLen := word12 b2 b3
    let s ← pmtLoop o buf (pos + (programInfoLen + 4)) (sectionLength - (programInfoLen + 4 : Nat))
      { s with pcrPid := word13 b0 b1 }
    pure (tp.put s)

/-- The loop of `parse_nit`. `s` has the channel numbers; the transponders of the table are appended to `listed`. -/
def nitTable (o : Options) (networkId : UInt16) (buf : Mem UInt8) (pos : Nat) (sectionLength : Int) (s : NitState)
    (listed : List Transponder) : Logged Access (NitState × List Transponder) :=
  if 6 < sectionLength then do
    let b0 ← readByte buf pos
    let b1 ← readByte buf (pos + 1)
    let b4 ← readByte buf (pos + 4)
    let b5 ← readByte buf (pos + 5)
    let loopLen := word12 b4 b5
    if sectionLength < loopLen + 4 then pure (s, listed)
    else do
      let tn := { Transponder.zero with
        type := none, networkId := networkId, transportStreamId := b0.toUInt16 <<< 8 ||| b1.toUInt16 }
      let s ← parseDescriptors (nitSwitch o buf) buf (pos + 6) loopLen { s with transponder := some tn }
      nitTable o networkId buf (pos + (loopLen + 6)) (sectionLength - (loopLen + 6 : Nat)) s
        (listed ++ s.transponder.toList)
  else pure (s, listed)
termination_by sectionLength.toNat
decreasing_by omega

/-- `parse_nit`, up to what is done with the transponders that it lists. -/
def parseNit (o : Options) (buf : Mem UInt8) (pos : Nat) (sectionLength : Int) (networkId : UInt16) :
    Logged Access (NitState × List Transponder) := do
  let b0 ← readByte buf pos
  let b1 ← readByte buf (pos + 1)
  let loopLen := word12 b0 b1
  if sectionLength < loopLen + 4 then pure (⟨none, []⟩, [])
  else do
    let s ← parseDescriptors (nitSwitch o buf) buf (pos + 2) loopLen ⟨none, []⟩
    nitTable o networkId buf (pos + (loopLen + 4)) (sectionLength - (loopLen + 4 : Nat)) s []

end LinuxDvb.Scan.Tables
