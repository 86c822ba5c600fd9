import LinuxDvb.Framework.Text

/-!
# Zap channel files

A channel is a line of fields with colons between them. The reader finds out the type of the frontend from the
words that the line has behind the frequency.
-/

namespace LinuxDvb.Cfg

inductive Inversion where
  | off | on | auto
  deriving DecidableEq

/-- `enum dvbfe_code_rate` -/
inductive CodeRate where
  | none | fec_1_2 | fec_2_3 | fec_3_4 | fec_4_5 | fec_5_6 | fec_6_7 | fec_7_8 | fec_8_9 | auto
  deriving DecidableEq

inductive DvbcMod where
  | qam_16 | qam_32 | qam_64 | qam_128 | qam_256 | auto
  deriving DecidableEq

inductive Bandwidth where
  | mhz_8 | mhz_7 | mhz_6 | auto
  deriving DecidableEq

inductive DvbtConst where
  | qpsk | qam_16 | qam_32 | qam_64 | qam_128 | qam_256 | auto
  deriving DecidableEq

inductive TransmitMode where
  | mode_2k | mode_8k | auto
  deriving DecidableEq

inductive GuardInterval where
  | guard_1_32 | guard_1_16 | guard_1_8 | guard_1_4 | auto
  deriving DecidableEq

inductive Hierarchy where
  | none | hierarchy_1 | hierarchy_2 | hierarchy_4 | auto
  deriving DecidableEq

inductive AtscMod where
  | qam_64 | qam_256 | vsb_8 | vsb_16 | auto
  deriving DecidableEq

/-- `struct dvbcfg_setting` -/
structure Setting (α : Type) where
  name : List UInt8
  value : α

def inversionList : List (Setting Inversion) :=
  [⟨bytes "INVERSION_ON", .on⟩, ⟨bytes "INVERSION_OFF", .off⟩, ⟨bytes "INVERSION_AUTO", .auto⟩]

def fecList : List (Setting CodeRate) :=
  [⟨bytes "FEC_1_2", .fec_1_2⟩, ⟨bytes "FEC_2_3", .fec_2_3⟩, ⟨bytes "FEC_3_4", .fec_3_4⟩,
    ⟨bytes "FEC_4_5", .fec_4_5⟩, ⟨bytes "FEC_5_6", .fec_5_6⟩, ⟨bytes "FEC_6_7", .fec_6_7⟩,
    ⟨bytes "FEC_7_8", .fec_7_8⟩, ⟨bytes "FEC_8_9", .fec_8_9⟩, ⟨bytes "FEC_AUTO", .auto⟩,
    ⟨bytes "FEC_NONE", .none⟩]

def dvbcModulationList : List (Setting DvbcMod) :=
  [⟨bytes "QAM_16", .qam_16⟩, ⟨bytes "QAM_32", .qam_32⟩, ⟨bytes "QAM_64", .qam_64⟩,
    ⟨bytes "QAM_128", .qam_128⟩, ⟨bytes "QAM_256", .qam_256⟩, ⟨bytes "QAM_AUTO", .auto⟩]

def bandwidthList : List (Setting Bandwidth) :=
  [⟨bytes "BANDWIDTH_6_MHZ", .mhz_6⟩, ⟨bytes "BANDWIDTH_7_MHZ", .mhz_7⟩,
    ⟨bytes "BANDWIDTH_8_MHZ", .mhz_8⟩, ⟨bytes "BANDWIDTH_AUTO", .auto⟩]

def constellationList : List (Setting DvbtConst) :=
  [⟨bytes "QAM_16", .qam_16⟩, ⟨bytes "QAM_32", .qam_32⟩, ⟨bytes "QAM_64", .qam_64⟩,
    ⟨bytes "QAM_128", .qam_128⟩, ⟨bytes "QAM_256", .qam_256⟩, ⟨bytes "QPSK", .qpsk⟩]

def transmissionModeList : List (Setting TransmitMode) :=
  [⟨bytes "TRANSMISSION_MODE_2K", .mode_2k⟩, ⟨bytes "TRANSMISSION_MODE_8K", .mode_8k⟩,
    ⟨bytes "TRANSMISSION_MODE_AUTO", .auto⟩]

def guardIntervalList : List (Setting GuardInterval) :=
  [⟨bytes "GUARD_INTERVAL_1_32", .guard_1_32⟩, ⟨bytes "GUARD_INTERVAL_1_16", .guard_1_16⟩,
    ⟨bytes "GUARD_INTERVAL_1_8", .guard_1_8⟩, ⟨bytes "GUARD_INTERVAL_1_4", .guard_1_4⟩,
    ⟨bytes "GUARD_INTERVAL_AUTO", .auto⟩]

def hierarchyList : List (Setting Hierarchy) :=
  [⟨bytes "HIERARCHY_1", .hierarchy_1⟩, ⟨bytes "HIERARCHY_2", .hierarchy_2⟩,
    ⟨bytes "HIERARCHY_4", .hierarchy_4⟩, ⟨bytes "HIERARCHY_AUTO", .auto⟩, ⟨bytes "HIERARCHY_NONE", .none⟩]

def atscModulationList : List (Setting AtscMod) :=
  [⟨bytes "8VSB", .vsb_8⟩, ⟨bytes "16VSB", .vsb_16⟩, ⟨bytes "QAM_64", .qam_64⟩, ⟨bytes "QAM_256", .qam_256⟩]

/-- The part of `struct dvbfe_parameters` for each type of frontend, with the fields of the channel that only
DVB-S has. -/
inductive FeParams where
  | dvbs (symbolRate : UInt32) (fecInner : CodeRate) (polarization : UInt8) (diseqcSwitch : Int32)
  | dvbc (symbolRate : UInt32) (fecInner : CodeRate) (modulation : DvbcMod)
  | dvbt (bandwidth : Bandwidth) (codeRateHp codeRateLp : CodeRate) (constellation : DvbtConst)
      (transmissionMode : TransmitMode) (guardInterval : GuardInterval) (hierarchy : Hierarchy)
  | atsc (modulation : AtscMod)
  deriving DecidableEq

/-- `struct dvbcfg_zapchannel` -/
structure Zapchannel where
  name : List UInt8
  videoPid : Int32
  audioPid : Int32
  serviceId : Int32
  frequency : UInt32
  inversion : Inversion
  params : FeParams
  deriving DecidableEq

section Parse

def splitField (text : List UInt8) : List UInt8 × List UInt8 :=
  (text.takeWhile fun c => decide (c ≠ ch ':'), (text.dropWhile fun c => decide (c ≠ ch ':')).drop 1)

/-- `dvbcfg_parse_int`; a number outside `int` is undefined, and taken modulo 2^32 here. -/
def parseInt (text : List UInt8) : Option (Int32 × List UInt8) :=
  (scanInt (splitField text).1).map fun value => (Int32.ofInt value, (splitField text).2)

/-- `dvbcfg_parse_char` -/
def parseChar (text : List UInt8) : Option (UInt8 × List UInt8) :=
  (splitField text).1.head?.map fun value => (value, (splitField text).2)

/-- `dvbcfg_parse_setting` -/
def parseSetting {α : Type} (settings : List (Setting α)) (text : List UInt8) : Option (α × List UInt8) :=
  (settings.find? fun setting => decide ((splitField text).1 = setting.name)).map fun setting =>
    (setting.value, (splitField text).2)

/-- `dvbcfg_parse_string` -/
def parseString (text : List UInt8) (size : Nat) : Option (List UInt8 × List UInt8) :=
  if (splitField text).1.length + 1 ≤ size then some (splitField text) else none

/-- `enum dvbfe_type` -/
inductive FeType where
  | dvbs | dvbc | dvbt | atsc
  deriving DecidableEq

def feType (text : List UInt8) : FeType :=
  if strstr text (bytes ":FEC_") then
    if strstr text (bytes ":HIERARCHY_") then .dvbt else .dvbc
  else if strstr text (bytes "VSB:") || strstr text (bytes ":QAM_") then .atsc
  else .dvbs

/-- The settings of the frontend: the frequency, the inversion, the other settings, and the text left. -/
def parseParams (frequency : UInt32) (text : List UInt8) :
    Option (UInt32 × Inversion × FeParams × List UInt8) :=
  match feType text with
  | .atsc => do
    let (modulation, text) ← parseSetting atscModulationList text
    return (frequency, .auto, .atsc modulation, text)
  | .dvbc => do
    let (inversion, text) ← parseSetting inversionList text
    let (symbolRate, text) ← parseInt text
    let (fecInner, text) ← parseSetting fecList text
    let (modulation, text) ← parseSetting dvbcModulationList text
    return (frequency, inversion, .dvbc symbolRate.toUInt32 fecInner modulation, text)
  | .dvbs => do
    let (polarization, text) ← parseChar text
    let polarization := tolower polarization
    guard (polarization = ch 'h' ∨ polarization = ch 'v' ∨ polarization = ch 'l' ∨ polarization = ch 'r')
    let (diseqcSwitch, text) ← parseInt text
    let (symbolRate, text) ← parseInt text
    return (frequency * 1000, .auto, .dvbs (symbolRate * 1000).toUInt32 .auto polarization diseqcSwitch, text)
  | .dvbt => do
    let (inversion, text) ← parseSetting inversionList text
    let (bandwidth, text) ← parseSetting bandwidthList text
    let (codeRateHp, text) ← parseSetting fecList text
    let (codeRateLp, text) ← parseSetting fecList text
    let (constellation, text) ← parseSetting constellationList text
    let (transmissionMode, text) ← parseSetting transmissionModeList text
    let (guardInterval, text) ← parseSetting guardIntervalList text
    let (hierarchy, text) ← parseSetting hierarchyList text
    return (frequency, inversion, .dvbt bandwidth codeRateHp codeRateLp constellation transmissionMode
      guardInterval hierarchy, text)

def cutLine (line : List UInt8) : List UInt8 :=
  line.takeWhile fun c => decide (c ≠ 0 ∧ c ≠ ch '\n' ∧ c ≠ ch '#')

def parseLine (line : List UInt8) : Option Zapchannel := do
  let (name, text) ← parseString (cutLine line) 128
  let (frequency, text) ← parseInt text
  let (frequency, inversion, params, text) ← parseParams frequency.toUInt32 text
  let (videoPid, text) ← parseInt text
  let (audioPid, text) ← parseInt text
  -- old files have no service id
  let serviceId := ((parseInt text).map Prod.fst).getD 0
  return ⟨name, videoPid, audioPid, serviceId, frequency, inversion, params⟩

/-- The callback of the reader with its private data: whether to continue, and the new data. -/
abbrev Callback (σ : Type) := σ → Zapchannel → Int × σ

/-- The loop of `dvbcfg_zapchannel_parse` over the lines. -/
def parseLines {σ : Type} (callback : Callback σ) : List (List UInt8) → σ → Int × σ
  | [], s => (0, s)
  | line :: lines, s =>
    match parseLine line with
    | none => parseLines callback lines s
    | some channel =>
      let (status, s') := callback s channel
      if status ≠ 0 then (if status < 0 then 0 else status, s') else parseLines callback lines s'

/-- `dvbcfg_zapchannel_parse` -/
def zapchannelParse {σ : Type} (file : List UInt8) (callback : Callback σ) (s : σ) : Int × σ :=
  parseLines callback (getlines file) s

end Parse

section Save

/-- `dvbcfg_lookup_setting`, as `%s` prints it. -/
def lookupSetting {α : Type} [DecidableEq α] (value : α) (settings : List (Setting α)) : List UInt8 :=
  match settings.find? fun setting => decide (value = setting.value) with
  | some setting => setting.name
  | none => bytes "(null)"

def fields (texts : List (List UInt8)) : List UInt8 := (texts.map (· ++ [ch ':'])).flatten

def formatInt32 (n : Int32) : List UInt8 := formatInt n.toInt

/-- `%i` for a number without sign. -/
def formatUInt (n : UInt32) : List UInt8 := formatInt32 n.toInt32

def saveParams (channel : Zapchannel) : List (List UInt8) :=
  match channel.params with
  | .atsc modulation => [formatUInt channel.frequency, lookupSetting modulation atscModulationList]
  | .dvbc symbolRate fecInner modulation =>
    [formatUInt channel.frequency, lookupSetting channel.inversion inversionList, formatUInt symbolRate,
      lookupSetting fecInner fecList, lookupSetting modulation dvbcModulationList]
  | .dvbs symbolRate _ polarization diseqcSwitch =>
    [formatUInt (channel.frequency / 1000), [tolower polarization], formatInt32 diseqcSwitch,
      formatUInt (symbolRate / 1000)]
  | .dvbt bandwidth codeRateHp codeRateLp constellation transmissionMode guardInterval hierarchy =>
    [formatUInt channel.frequency, lookupSetting channel.inversion inversionList,
      lookupSetting bandwidth bandwidthList, lookupSetting codeRateHp fecList,
      lookupSetting codeRateLp fecList, lookupSetting constellation constellationList,
      lookupSetting transmissionMode transmissionModeList, lookupSetting guardInterval guardIntervalList,
      lookupSetting hierarchy hierarchyList]

def saveLine (channel : Zapchannel) : List UInt8 :=
  fields [channel.name] ++ fields (saveParams channel) ++
    (fields [formatInt32 channel.videoPid, formatInt32 channel.audioPid] ++ formatInt32 channel.serviceId ++ [ch '\n'])

/-- `dvbcfg_zapchannel_save`, with the channels that its callback gives. -/
def zapchannelSave (channels : List Zapchannel) : List UInt8 := (channels.map saveLine).flatten

end Save

end LinuxDvb.Cfg
