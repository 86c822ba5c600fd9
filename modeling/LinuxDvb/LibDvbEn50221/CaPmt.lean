import LinuxDvb.LibUcsi.PmtIterators

/-!
# Formatting of CA PMT objects

`en50221_app_ca.c`: the CA descriptors of a program map section and of its streams are put into lists, whose entries
point into the section.
-/

namespace LinuxDvb.En50221

open Ucsi

def dtagMpegCa : UInt8 := 0x09

/-- `struct ca_pmt_descriptor`, with the position of the descriptor in the section. -/
structure CaPmtDescriptor where
  descriptor : Nat
  length : UInt16
  deriving DecidableEq

structure CaPmtStream where
  streamType : UInt8
  pid : UInt16
  descriptors : List CaPmtDescriptor
  descriptorsLength : UInt32
  descriptorsCount : UInt32
  deriving DecidableEq

/-- The loops over what the iterators visit: each item is extracted and appended to the list. The result has
the number of calls of `malloc` that can still succeed, and is `none` inside if `malloc` has failed. -/
def extractEach {α : Type} (extract : Nat → Nat → Option (Option (List α × Nat))) :
    List Nat → Nat → Option (Option (List α × Nat))
  | [], mallocs => some (some ([], mallocs))
  | pos :: positions, mallocs => do
    match ← extract pos mallocs with
    | none => return none
    | some (items, mallocs) =>
      let others ← extractEach extract positions mallocs
      return others.map fun (others, mallocs) => (items ++ others, mallocs)

def extractDescriptor (buf : List UInt8) (pos mallocs : Nat) :
    Option (Option (List CaPmtDescriptor × Nat)) := do
  let tag ← buf[pos]?
  if tag ≠ dtagMpegCa then return some ([], mallocs)
  match mallocs with
  | 0 => return none
  | mallocs + 1 =>
    let len ← buf[pos + 1]?
    return some ([⟨pos, len.toUInt16 + 2⟩], mallocs)

def extractPmtDescriptors (buf : List UInt8) (mallocs : Nat) :
    Option (Option (List CaPmtDescriptor × Nat)) := do
  let first ← mpegPmtSectionDescriptorsFirst buf
  let positions ← forEach (mpegPmtSectionDescriptorsNext buf) buf.length first
  extractEach (extractDescriptor buf) positions mallocs

def extractStream (buf : List UInt8) (pos mallocs : Nat) :
    Option (Option (List CaPmtStream × Nat)) := do
  match mallocs with
  | 0 => return none
  | mallocs + 1 =>
    let streamType ← buf[pos]?
    let pid ← word16 buf (pos + 1)
    let first ← mpegPmtStreamDescriptorsFirst buf pos
    let positions ← forEach (mpegPmtStreamDescriptorsNext buf pos) buf.length first
    let descriptors ← extractEach (extractDescriptor buf) positions mallocs
    return descriptors.map fun (descriptors, mallocs) =>
      ([⟨streamType, UInt16.ofNat (pid % 8192), descriptors, 0, UInt32.ofNat descriptors.length⟩], mallocs)

def extractStreams (buf : List UInt8) (mallocs : Nat) :
    Option (Option (List CaPmtStream × Nat)) := do
  let first ← mpegPmtSectionStreamsFirst buf
  let positions ← forEach (mpegPmtSectionStreamsNext buf) buf.length first
  extractEach (extractStream buf) positions mallocs

/-- The bytes that `memcmp` and `memcpy` read. -/
def bytesAt (buf : List UInt8) (pos length : Nat) : Option (List UInt8) :=
  if pos + length ≤ buf.length then some ((buf.drop pos).take length) else none

/-- The comparison of the descriptors of a stream with those of the first one. The entries of the first one
are followed as far as there are entries of the other, and `none` is also the use of a `NULL` entry. -/
def sameDescriptors (buf : List UInt8) : List CaPmtDescriptor → List CaPmtDescriptor → Option Bool
  | [], _ => some true
  | _ :: _, [] => none
  | cur :: curs, first :: firsts =>
    if cur.length ≠ first.length then some false
    else do
      let bytes ← bytesAt buf cur.descriptor cur.length.toNat
      let firstBytes ← bytesAt buf first.descriptor cur.length.toNat
      if bytes ≠ firstBytes then return false else sameDescriptors buf curs firsts

def allSame (buf : List UInt8) (first : CaPmtStream) : List CaPmtStream → Option Bool
  | [] => some true
  | cur :: streams =>
    if cur.descriptorsCount ≠ first.descriptorsCount then some false
    else do
      if ← sameDescriptors buf cur.descriptors first.descriptors then allSame buf first streams
      else return false

/-- `en50221_ca_try_move_pmt_descriptors` -/
def tryMovePmtDescriptors (buf : List UInt8) (pmtDescriptors : List CaPmtDescriptor)
    (pmtStreams : List CaPmtStream) : Option (List CaPmtDescriptor × List CaPmtStream) :=
  match pmtStreams with
  | [] => some (pmtDescriptors, [])
  | first :: streams => do
    if ← allSame buf first streams then
      return (first.descriptors, (first :: streams).map fun s =>
        { s with descriptors := [], descriptorsCount := 0 })
    else return (pmtDescriptors, first :: streams)

/-- The length of descriptors, with a byte for the `ca_pmt_cmd_id` if there are some. -/
def calculateDescriptorsLength (descriptors : List CaPmtDescriptor) : UInt32 :=
  let length := descriptors.foldl (fun length d => length + d.length.toUInt32) 0
  if length ≠ 0 then length + 1 else length

/-- `en50221_ca_calculate_length`: the total, the length of the program descriptors, and the streams with
their lengths. -/
def calculateLength (pmtDescriptors : List CaPmtDescriptor) (pmtStreams : List CaPmtStream) :
    UInt32 × UInt32 × List CaPmtStream :=
  let pmtDescriptorsLength := calculateDescriptorsLength pmtDescriptors
  let pmtStreams := pmtStreams.map fun s =>
    { s with descriptorsLength := calculateDescriptorsLength s.descriptors }
  (pmtStreams.foldl (fun total s => total + (5 + s.descriptorsLength)) (6 + pmtDescriptorsLength),
    pmtDescriptorsLength, pmtStreams)

/-- The output buffer and `data_pos`. -/
structure Writer where
  data : List UInt8
  dataPos : Nat

def Writer.put (w : Writer) (b : UInt8) : Option Writer :=
  if w.dataPos < w.data.length then some ⟨w.data.set w.dataPos b, w.dataPos + 1⟩ else none

def Writer.putBytes (w : Writer) (bytes : List UInt8) : Option Writer := bytes.foldlM Writer.put w

/-- The length of the descriptors, and the descriptors behind the `ca_pmt_cmd_id`. -/
def Writer.putDescriptors (w : Writer) (buf : List UInt8) (caPmtCmdId : UInt8) (length : UInt32)
    (descriptors : List CaPmtDescriptor) : Option Writer := do
  let w ← w.put ((length >>> 8) &&& 0x0f).toUInt8
  let w ← w.put length.toUInt8
  if length = 0 then return w
  let w ← w.put caPmtCmdId
  descriptors.foldlM (fun w d => do w.putBytes (← bytesAt buf d.descriptor d.length.toNat)) w

def Writer.putStream (w : Writer) (buf : List UInt8) (caPmtCmdId : UInt8) (s : CaPmtStream) :
    Option Writer := do
  let w ← w.put s.streamType
  let w ← w.put ((s.pid >>> 8) &&& 0x1f).toUInt8
  let w ← w.put s.pid.toUInt8
  w.putDescriptors buf caPmtCmdId s.descriptorsLength s.descriptors

/-- `pmt->head.table_id_ext` -/
def mpegPmtSectionProgramNumber (buf : List UInt8) : Option UInt16 := (word16 buf 3).map UInt16.ofNat

/-- `pmt->head.version_number` -/
def versionNumber (buf : List UInt8) : Option UInt8 := buf[5]?.map fun b : UInt8 => (b >>> 1) &&& 0x1f

/-- `pmt->head.current_next_indicator` -/
def currentNextIndicator (buf : List UInt8) : Option UInt8 := buf[5]?.map fun b : UInt8 => b &&& 1

/-- The writing part of `en50221_ca_format_pmt`. -/
def writePmt (buf data : List UInt8) (caPmtListManagement caPmtCmdId : UInt8)
    (pmtDescriptors : List CaPmtDescriptor) (pmtDescriptorsLength : UInt32)
    (pmtStreams : List CaPmtStream) : Option Writer := do
  let w : Writer := ⟨data, 0⟩
  let w ← w.put caPmtListManagement
  let programNumber ← mpegPmtSectionProgramNumber buf
  let w ← w.put (programNumber >>> 8).toUInt8
  let w ← w.put programNumber.toUInt8
  let w ← w.put (((← versionNumber buf) <<< 1) ||| (← currentNextIndicator buf))
  let w ← w.putDescriptors buf caPmtCmdId pmtDescriptorsLength pmtDescriptors
  pmtStreams.foldlM (fun w s => w.putStream buf caPmtCmdId s) w

/-- `en50221_ca_format_pmt`, with the output buffer as it is left. -/
def caFormatPmt (buf data : List UInt8) (dataLength : UInt32) (moveCaDescriptors : Int)
    (caPmtListManagement caPmtCmdId : UInt8) (mallocs : Nat) : Option (Int × List UInt8) := do
  match ← extractPmtDescriptors buf mallocs with
  | none => return (-1, data)
  | some (pmtDescriptors, mallocs) =>
    match ← extractStreams buf mallocs with
    | none => return (-1, data)
    | some (pmtStreams, _) =>
      let (pmtDescriptors, pmtStreams) ←
        if pmtDescriptors = [] ∧ moveCaDescriptors ≠ 0 then
          tryMovePmtDescriptors buf pmtDescriptors pmtStreams
        else pure (pmtDescriptors, pmtStreams)
      let (totalRequiredLength, pmtDescriptorsLength, pmtStreams) :=
        calculateLength pmtDescriptors pmtStreams
      if totalRequiredLength > dataLength then return (-1, data)
      let w ← writePmt buf data caPmtListManagement caPmtCmdId pmtDescriptors pmtDescriptorsLength pmtStreams
      return (w.dataPos, w.data)

/-! ## CA PMT objects

What a CA PMT object says, with a decoder that follows the layout of the object alone. A loop of descriptors
comes behind its length, and starts with a command if the length is not zero. -/

structure CaInfo where
  cmdId : Option UInt8
  descriptors : List Descriptor

structure CaStream where
  streamType : UInt8
  pid : UInt16
  info : CaInfo

structure CaPmt where
  listManagement : UInt8
  programNumber : UInt16
  version : UInt8
  currentNext : UInt8
  info : CaInfo
  streams : List CaStream

def CaInfo.of (cmdId : UInt8) (descriptors : List Descriptor) : CaInfo :=
  ⟨if descriptors = [] then none else some cmdId, descriptors⟩

section Decode

theorem length_take_lt (len : UInt8) (rest : List UInt8) : (rest.take len.toNat).length < 256 := by
  have hlen := len.toNat_lt
  rw [length_take]
  omega

def decodeDescriptors : List UInt8 → Option (List Descriptor)
  | [] => some []
  | [_] => none
  | tag :: len :: rest =>
    if rest.length < len.toNat then none
    else (decodeDescriptors (rest.drop len.toNat)).map
      (⟨tag, rest.take len.toNat, length_take_lt len rest⟩ :: ·)
  termination_by bytes => bytes.length
  decreasing_by
    rw [List.length_drop,List.length_cons,List.length_cons]
    omega

def decodeInfo (high low : UInt8) (rest : List UInt8) : Option (CaInfo × List UInt8) :=
  let length := high.toNat % 16 * 256 + low.toNat
  if rest.length < length then none
  else
    match rest.take length with
    | [] => some (⟨none, []⟩, rest)
    | cmdId :: loop => (decodeDescriptors loop).map fun ds => (⟨some cmdId, ds⟩, rest.drop length)

def decodeStreams : Nat → List UInt8 → Option (List CaStream)
  | _, [] => some []
  | fuel + 1, streamType :: pid₁ :: pid₂ :: high :: low :: rest => do
    let (info, rest) ← decodeInfo high low rest
    let streams ← decodeStreams fuel rest
    return ⟨streamType, UInt16.ofNat (pid₁.toNat % 32 * 256 + pid₂.toNat), info⟩ :: streams
  | _, _ => none

def CaPmt.decode : List UInt8 → Option CaPmt
  | listManagement :: number₁ :: number₂ :: version :: high :: low :: rest => do
    let (info, rest) ← decodeInfo high low rest
    let streams ← decodeStreams rest.length rest
    return ⟨listManagement, UInt16.ofNat (number₁.toNat * 256 + number₂.toNat),
      (version >>> 1) &&& 0x1f, version &&& 1, info, streams⟩
  | _ => none

end Decode

section Encode

def infoBytes (cmdId : UInt8) (ds : List Descriptor) : List UInt8 :=
  let loop := if ds = [] then [] else cmdId :: descriptorLoop ds
  be16 loop.length ++ loop

def streamBytes (cmdId : UInt8) (s : CaStream) : List UInt8 :=
  s.streamType :: (be16 s.pid.toNat ++ infoBytes cmdId s.info.descriptors)

def CaPmt.bytes (cmdId : UInt8) (ca : CaPmt) : List UInt8 :=
  ca.listManagement :: (be16 ca.programNumber.toNat ++ (ca.version <<< 1 ||| ca.currentNext) ::
    (infoBytes cmdId ca.info.descriptors ++ ca.streams.flatMap (streamBytes cmdId)))

def LoopFits (ds : List Descriptor) : Prop := (descriptorLoop ds).length + 1 < 4096

/-- The parts of the object are in the range of their fields, and a command is there where it has to be. -/
structure CaPmt.Fits (cmdId : UInt8) (ca : CaPmt) : Prop where
  version : ca.version < 0x20
  currentNext : ca.currentNext < 2
  info : ca.info = .of cmdId ca.info.descriptors
  infoFits : LoopFits ca.info.descriptors
  streams : ∀ s ∈ ca.streams, s.pid < 0x2000 ∧ s.info = .of cmdId s.info.descriptors ∧
    LoopFits s.info.descriptors

end Encode

section RoundTrip

theorem decodeDescriptors_loop (ds : List Descriptor) : decodeDescriptors (descriptorLoop ds) = some ds := by
  induction ds with
  | nil =>
    unfold descriptorLoop
    rw [map_nil,flatten_nil,decodeDescriptors]
  | cons d ds ih =>
    have hloop : descriptorLoop (d :: ds) =
        d.tag :: UInt8.ofNat d.data.length :: (d.data ++ descriptorLoop ds) := rfl
    have hlength : ¬(d.data ++ descriptorLoop ds).length < d.data.length := by
      rw [length_append]
      omega
    rw [hloop,decodeDescriptors]
    simp only [d.toNat_length,take_left,drop_left]
    rw [if_neg hlength,ih]
    rfl

theorem decodeInfo_infoBytes (cmdId : UInt8) {ds : List Descriptor} (hfits : LoopFits ds) (rest : List UInt8) :
    ∃ high low behind, infoBytes cmdId ds ++ rest = high :: low :: behind ∧
      decodeInfo high low behind = some (.of cmdId ds, rest) := by
  unfold LoopFits at hfits
  let loop := if ds = [] then [] else cmdId :: descriptorLoop ds
  have hloop : loop.length < 4096 := by
    dsimp only [loop]
    split
    · exact Nat.zero_lt_succ _
    · exact hfits
  refine ⟨UInt8.ofNat (loop.length / 256),UInt8.ofNat loop.length,loop ++ rest,rfl,?_⟩
  have hlength : (UInt8.ofNat (loop.length / 256)).toNat % 16 * 256 + (UInt8.ofNat loop.length).toNat =
      loop.length := by
    rw [UInt8.toNat_ofNat',UInt8.toNat_ofNat']
    omega
  unfold decodeInfo
  dsimp only
  rw [hlength,if_neg (by rw [length_append]; omega),take_left,drop_left]
  dsimp only [loop]
  by_cases hempty : ds = []
  · subst hempty
    rfl
  · rw [if_neg hempty]
    dsimp only
    rw [decodeDescriptors_loop,map_some]
    unfold CaInfo.of
    rw [if_neg hempty]

theorem decodeStreams_bytes (cmdId : UInt8) (streams : List CaStream)
    (hfits : ∀ s ∈ streams, s.pid < 0x2000 ∧ s.info = .of cmdId s.info.descriptors ∧
      LoopFits s.info.descriptors) (fuel : Nat) (hfuel : streams.length ≤ fuel) :
    decodeStreams fuel (streams.flatMap (streamBytes cmdId)) = some streams := by
  induction streams generalizing fuel with
  | nil =>
    rw [List.flatMap_nil,decodeStreams]
  | cons s streams ih =>
    obtain ⟨⟨hpid,hinfo,hloop⟩,hrest⟩ := forall_mem_cons.mp hfits
    obtain ⟨fuel,rfl⟩ : ∃ less, fuel = less + 1 := ⟨fuel - 1,by rw [length_cons] at hfuel; omega⟩
    obtain ⟨high,low,behind,hbytes,hdecode⟩ :=
      decodeInfo_infoBytes cmdId hloop (streams.flatMap (streamBytes cmdId))
    have hcons : (s :: streams).flatMap (streamBytes cmdId) =
        s.streamType :: UInt8.ofNat (s.pid.toNat / 256) :: UInt8.ofNat s.pid.toNat :: high :: low ::
          behind := by
      rw [flatMap_cons,← hbytes]
      rfl
    have hpid' : UInt16.ofNat ((UInt8.ofNat (s.pid.toNat / 256)).toNat % 32 * 256 +
        (UInt8.ofNat s.pid.toNat).toNat) = s.pid := by
      have hlt : s.pid.toNat < 0x2000 := UInt16.lt_iff_toNat_lt.mp hpid
      apply UInt16.toNat_inj.mp
      rw [UInt8.toNat_ofNat',UInt8.toNat_ofNat',UInt16.toNat_ofNat']
      omega
    rw [hcons,decodeStreams,hdecode]
    simp only [bind_eq_bind,bind_some,pure_def]
    rw [ih hrest fuel (Nat.le_of_succ_le_succ hfuel),bind_some,hpid',← hinfo]

theorem version_byte {version currentNext : UInt8} (hversion : version < 0x20) (hcurrent : currentNext < 2) :
    (version <<< 1 ||| currentNext) >>> 1 &&& 0x1f = version ∧
      (version <<< 1 ||| currentNext) &&& 1 = currentNext := by
  have hall : ∀ (v : Fin 32) (c : Fin 2),
      (UInt8.ofNat v <<< 1 ||| UInt8.ofNat c) >>> 1 &&& 0x1f = UInt8.ofNat v ∧
        (UInt8.ofNat v <<< 1 ||| UInt8.ofNat c) &&& 1 = UInt8.ofNat c := by
    decide
  have h := hall ⟨version.toNat,UInt8.lt_iff_toNat_lt.mp hversion⟩
    ⟨currentNext.toNat,UInt8.lt_iff_toNat_lt.mp hcurrent⟩
  simpa only [UInt8.ofNat_toNat] using h

theorem CaPmt.decode_bytes {cmdId : UInt8} {ca : CaPmt} (hfits : ca.Fits cmdId) :
    CaPmt.decode (ca.bytes cmdId) = some ca := by
  obtain ⟨high,low,behind,hbytes,hdecode⟩ := decodeInfo_infoBytes cmdId hfits.infoFits
    (ca.streams.flatMap (streamBytes cmdId))
  have hcons : ca.bytes cmdId = ca.listManagement :: UInt8.ofNat (ca.programNumber.toNat / 256) ::
      UInt8.ofNat ca.programNumber.toNat :: (ca.version <<< 1 ||| ca.currentNext) :: high :: low ::
        behind := by
    rw [← hbytes]
    rfl
  have hnumber : UInt16.ofNat ((UInt8.ofNat (ca.programNumber.toNat / 256)).toNat * 256 +
      (UInt8.ofNat ca.programNumber.toNat).toNat) = ca.programNumber := by
    have hlt := ca.programNumber.toNat_lt
    apply UInt16.toNat_inj.mp
    rw [UInt8.toNat_ofNat',UInt8.toNat_ofNat',UInt16.toNat_ofNat']
    omega
  have hstreams : ca.streams.length ≤ (ca.streams.flatMap (streamBytes cmdId)).length := by
    induction ca.streams with
    | nil => exact Nat.le_refl _
    | cons s streams ih =>
      rw [flatMap_cons,length_append,streamBytes,length_cons,length_cons]
      omega
  obtain ⟨hversion,hcurrent⟩ := version_byte hfits.version hfits.currentNext
  rw [hcons,CaPmt.decode,hdecode]
  simp only [bind_eq_bind,bind_some,pure_def]
  rw [decodeStreams_bytes cmdId ca.streams hfits.streams _ hstreams,bind_some,hnumber,
    hversion,hcurrent,← hfits.info]

end RoundTrip

end LinuxDvb.En50221
