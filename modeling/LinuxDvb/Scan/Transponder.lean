import LinuxDvb.Framework.Memory

/-!
# The transponders of scan

scan keeps the transponders that it has tuned to and those that it has heard of in two lists. A network
information table lists transponders, and `find_transponder` identifies one by its frequency within a bandwidth; it
also gives the transponder that it finds the new frequency.
-/

namespace LinuxDvb.Scan

/-! ## Transponders -/

inductive FeType where
  | qpsk
  | qam
  | ofdm
  | atsc
  deriving DecidableEq

/-- `struct dvb_frontend_parameters`; the union `u` as its words. -/
structure FrontendParameters where
  frequency : UInt32
  inversion : UInt32
  u0 : UInt32
  u1 : UInt32
  u2 : UInt32
  u3 : UInt32
  u4 : UInt32
  u5 : UInt32
  u6 : UInt32
  deriving DecidableEq

/-- `u.qpsk` -/
def FrontendParameters.setQpsk (p : FrontendParameters) (symbolRate fecInner : UInt32) : FrontendParameters :=
  { p with u0 := symbolRate, u1 := fecInner }

/-- `u.qam` -/
def FrontendParameters.setQam (p : FrontendParameters) (symbolRate fecInner modulation : UInt32) :
    FrontendParameters :=
  { p with u0 := symbolRate, u1 := fecInner, u2 := modulation }

/-- `u.ofdm` -/
def FrontendParameters.setOfdm (p : FrontendParameters) (bandwidth codeRateHP codeRateLP constellation
    transmissionMode guardInterval hierarchyInformation : UInt32) : FrontendParameters :=
  { p with u0 := bandwidth, u1 := codeRateHP, u2 := codeRateLP, u3 := constellation, u4 := transmissionMode,
           u5 := guardInterval, u6 := hierarchyInformation }

def FrontendParameters.zero : FrontendParameters := ⟨0, 0, 0, 0, 0, 0, 0, 0, 0⟩

/-- `struct transponder` without its services. The type is `none` for -1; `otherF` are the first `n_other_f` of the
other frequencies. -/
structure Transponder where
  networkId : UInt16
  transportStreamId : UInt16
  type : Option FeType
  param : FrontendParameters
  polarisation : UInt8
  orbitalPos : Nat
  weFlag : Bool
  scanDone : Bool
  lastTuningFailed : Bool
  otherFrequencyFlag : Bool
  wrongFrequency : Bool
  otherF : List UInt32
  deriving DecidableEq

/-- A transponder as `calloc` leaves it. -/
def Transponder.zero : Transponder :=
  ⟨0, 0, some .qpsk, .zero, 0, 0, false, false, false, false, false, []⟩

def Transponder.frequency (t : Transponder) : UInt32 := t.param.frequency

def Transponder.setFrequency (t : Transponder) (frequency : UInt32) : Transponder :=
  { t with param := { t.param with frequency := frequency } }

@[simp] theorem Transponder.frequency_setFrequency (t : Transponder) (f : UInt32) :
    (t.setFrequency f).frequency = f := rfl

def IsSameTransponder (f1 f2 : UInt32) : Prop :=
  f1 = f2 ∨ (if f1 > f2 then f1 - f2 else f2 - f1) < 2000

instance (f1 f2 : UInt32) : Decidable (IsSameTransponder f1 f2) := inferInstanceAs (Decidable (_ ∨ _))

def copyTransponder (d s : Transponder) : Transponder :=
  { d with networkId := s.networkId, transportStreamId := s.transportStreamId, type := s.type, param := s.param,
           polarisation := s.polarisation, orbitalPos := s.orbitalPos, weFlag := s.weFlag, scanDone := s.scanDone,
           lastTuningFailed := s.lastTuningFailed, otherFrequencyFlag := s.otherFrequencyFlag, otherF := s.otherF }

@[simp] theorem frequency_copyTransponder (d s : Transponder) : (copyTransponder d s).frequency = s.frequency := rfl

/-! ## Lists and events -/

inductive ScanEvent where
  /-- A line of the initial file. -/
  | initial (f : UInt32)
  /-- `find_transponder` is called. -/
  | looked (f : UInt32)
  /-- A received table lists a transponder of the type of the frontend. -/
  | listed (f : UInt32)
  /-- `tune_to_transponder` sets the frontend, and a lock follows or not. -/
  | tuned (f : UInt32) (lock : Bool)
  /-- `tune_to_transponder` returns without this: the type is another one, or the parameters are all zero. -/
  | skipped (f : UInt32)
  deriving DecidableEq

/-- `scanned_transponders` and `new_transponders`, the number of attempts to tune, and the events so far. -/
structure ScanState where
  scanned : List Transponder
  new : List Transponder
  attempts : Nat
  events : List ScanEvent
  deriving DecidableEq

def ScanState.record (s : ScanState) (e : ScanEvent) : ScanState := { s with events := s.events ++ [e] }

/-- The first transponder of the list that is the same gets the frequency; `found` is what the caller then does with
it. -/
def overwrite (f : UInt32) (found : Transponder → Transponder) : List Transponder → Option (List Transponder)
  | [] => none
  | t :: ts =>
    if IsSameTransponder t.frequency f then some (found (t.setFrequency f) :: ts)
    else (overwrite f found ts).map (t :: ·)

/-- `find_transponder`, when scan is not limited to the current transponder. -/
def findTransponder (f : UInt32) (found : Transponder → Transponder) (s : ScanState) : Option ScanState :=
  match overwrite f found s.scanned with
  | some scanned => some { s with scanned := scanned }
  | none =>
    match overwrite f found s.new with
    | some new => some { s with new := new }
    | none => none

/-- `alloc_transponder`; `filled` is what the caller does with the transponder. -/
def allocTransponder (f : UInt32) (filled : Transponder → Transponder) (s : ScanState) : ScanState :=
  { s with new := s.new ++ [filled (Transponder.zero.setFrequency f)] }

/-! ## Tables -/

/-- The type of the frontend, and `spectral_inversion`. -/
structure Config where
  feType : FeType
  spectralInversion : UInt32
  deriving DecidableEq

def bcd32ToCpu (b0 b1 b2 b3 : UInt8) : Nat :=
  ((b0 >>> 4) &&& 0x0f).toNat * 10000000 + (b0 &&& 0x0f).toNat * 1000000 +
  ((b1 >>> 4) &&& 0x0f).toNat * 100000 + (b1 &&& 0x0f).toNat * 10000 +
  ((b2 >>> 4) &&& 0x0f).toNat * 1000 + (b2 &&& 0x0f).toNat * 100 +
  ((b3 >>> 4) &&& 0x0f).toNat * 10 + (b3 &&& 0x0f).toNat

def fecNone : UInt32 := 0

def fecAuto : UInt32 := 9

/-- `fec_tab`: 1/2, 2/3, 3/4, 5/6 and 7/8 behind AUTO, then NONE. -/
def fecTab (i : UInt8) : UInt32 := [fecAuto, 1, 2, 3, 5, 7, fecNone, fecNone].getD i.toNat fecNone

/-- `ofec_tab` with the test in front of it. -/
def ofecTab (i : UInt8) : UInt32 := if i > 4 then fecAuto else [1, 2, 3, 5, 7].getD i.toNat fecNone

def qamAuto : UInt32 := 6

/-- `qam_tab` with the test in front of it. -/
def qamTab (i : UInt8) : UInt32 := if i > 5 then qamAuto else [qamAuto, 1, 2, 3, 4, 5].getD i.toNat qamAuto

def mTab (i : UInt8) : UInt32 := [0, 1, 3, qamAuto].getD i.toNat qamAuto

def parseCableDeliverySystemDescriptor (c : Config) (buf : Mem UInt8) (t : Transponder) : Transponder :=
  let param := t.param.setQam (10 * UInt32.ofNat (bcd32ToCpu (buf 9) (buf 10) (buf 11) (buf 12 &&& 0xf0)))
    (fecTab (buf 12 &&& 0x07)) (qamTab (buf 8 &&& 0x0f))
  { t with
    type := some .qam
    param := { param with
      frequency := UInt32.ofNat (bcd32ToCpu (buf 2) (buf 3) (buf 4) (buf 5)) * 100
      inversion := c.spectralInversion } }

def parseSatelliteDeliverySystemDescriptor (c : Config) (buf : Mem UInt8) (t : Transponder) : Transponder :=
  let param := t.param.setQpsk (10 * UInt32.ofNat (bcd32ToCpu (buf 9) (buf 10) (buf 11) (buf 12 &&& 0xf0)))
    (fecTab (buf 12 &&& 0x07))
  { t with
    type := some .qpsk
    param := { param with
      frequency := 10 * UInt32.ofNat (bcd32ToCpu (buf 2) (buf 3) (buf 4) (buf 5))
      inversion := c.spectralInversion }
    polarisation := (buf 8 >>> 5) &&& 0x03
    orbitalPos := bcd32ToCpu 0x00 0x00 (buf 6) (buf 7)
    weFlag := buf 8 >>> 7 ≠ 0 }

def word32 (buf : Mem UInt8) (i : Nat) : UInt32 :=
  (buf i).toUInt32 <<< 24 ||| (buf (i + 1)).toUInt32 <<< 16 ||| (buf (i + 2)).toUInt32 <<< 8 |||
    (buf (i + 3)).toUInt32

def parseTerrestrialDeliverySystemDescriptor (c : Config) (buf : Mem UInt8) (t : Transponder) : Transponder :=
  let param := t.param.setOfdm ((buf 6 >>> 5) &&& 0x3).toUInt32 (ofecTab (buf 7 &&& 0x7))
    (ofecTab ((buf 8 >>> 5) &&& 0x7)) (mTab ((buf 7 >>> 6) &&& 0x3)) (if buf 8 &&& 0x2 ≠ 0 then 1 else 0)
    ((buf 8 >>> 3) &&& 0x3).toUInt32 ((buf 7 >>> 3) &&& 0x3).toUInt32
  { t with
    type := some .ofdm
    param := { param with frequency := word32 buf 2 * 10, inversion := c.spectralInversion }
    otherFrequencyFlag := buf 8 &&& 0x01 ≠ 0 }

def parseFrequencyListDescriptor (buf : Mem UInt8) (t : Transponder) : Transponder :=
  let n := ((buf 1).toNat - 1) / 4
  if t.otherF ≠ [] then t
  else if n < 1 ∨ buf 2 &&& 0x03 ≠ 3 then t
  else { t with otherF := (List.range n).map fun i => word32 buf (3 + 4 * i) * 10 }

/-- The cases of `parse_descriptors` that change a transponder. -/
def parseNitDescriptor (c : Config) (buf : Mem UInt8) (t : Transponder) : Transponder :=
  if buf 0 = 0x43 then parseSatelliteDeliverySystemDescriptor c buf t
  else if buf 0 = 0x44 then parseCableDeliverySystemDescriptor c buf t
  else if buf 0 = 0x5a then parseTerrestrialDeliverySystemDescriptor c buf t
  else if buf 0 = 0x62 then parseFrequencyListDescriptor buf t
  else t

/-- `parse_descriptors` for a transponder of a table; the length is enough fuel. -/
def parseDescriptors (c : Config) : Nat → Mem UInt8 → Nat → Transponder → Transponder
  | 0, _, _, t => t
  | fuel + 1, buf, len, t =>
    if len = 0 then t
    else
      let descriptorLen := (buf 1 + 2).toNat
      if descriptorLen = 0 then t
      else parseDescriptors c fuel (buf.shift descriptorLen) (len - descriptorLen) (parseNitDescriptor c buf t)

/-- Twelve bits from byte `i` on. -/
def loopLen (buf : Mem UInt8) (i : Nat) : Nat := (buf i &&& 0x0f).toNat * 256 + (buf (i + 1)).toNat

/-- The transponder `tn` that a table lists at `buf`. -/
def nitTransponder (c : Config) (networkId : UInt16) (buf : Mem UInt8) : Transponder :=
  let len := loopLen buf 4
  parseDescriptors c len (buf.shift 6) len
    { Transponder.zero with
      type := none
      networkId := networkId
      transportStreamId := (buf 0).toUInt16 <<< 8 ||| (buf 1).toUInt16 }

/-- A listed transponder of the type of the frontend is looked up, and allocated if it is not found. -/
def addListed (c : Config) (tn : Transponder) (s : ScanState) : ScanState :=
  if tn.type = some c.feType then
    let s := (s.record (.listed tn.frequency)).record (.looked tn.frequency)
    match findTransponder tn.frequency (copyTransponder · tn) s with
    | some s => s
    | none => allocTransponder tn.frequency (copyTransponder · tn) s
  else s

/-- The loop of `parse_nit`; the length is enough fuel. -/
def nitLoop (c : Config) (networkId : UInt16) : Nat → Mem UInt8 → Nat → ScanState → ScanState
  | 0, _, _, s => s
  | fuel + 1, buf, len, s =>
    if len > 6 then
      if len < loopLen buf 4 + 4 then s
      else
        nitLoop c networkId fuel (buf.shift (loopLen buf 4 + 6)) (len - (loopLen buf 4 + 6))
          (addListed c (nitTransponder c networkId buf) s)
    else s

/-- A section that `parse_section` hands to `parse_nit`. -/
structure NitSection where
  buf : Mem UInt8
  sectionLength : Nat
  networkId : UInt16

/-- `parse_nit`. The descriptors in front of the transponders change none. -/
def parseNit (c : Config) (nit : NitSection) (s : ScanState) : ScanState :=
  let len := loopLen nit.buf 0 + 4
  if nit.sectionLength < len then s
  else nitLoop c nit.networkId nit.sectionLength (nit.buf.shift len) (nit.sectionLength - len) s

/-! ## Tuning -/

/-- What the frontend does in one call of `__tune_to_transponder`. -/
inductive TuneResult where
  | ioctlFails
  | lock
  | noLock
  deriving DecidableEq

/-- The results of the attempts to tune, and the tables that are received after each `tune_to_next_transponder`. -/
structure World where
  results : Nat → TuneResult
  nits : Nat → List NitSection

/-- `__tune_to_transponder` for a transponder that is in neither list of `s`: whether it returns 0, and the
transponder behind it. -/
def tuneAttempt (w : World) (t : Transponder) (s : ScanState) : Bool × Transponder × ScanState :=
  if t.param = .zero then (false, t, s.record (.skipped t.frequency))
  else
    let next := { s with attempts := s.attempts + 1 }
    match w.results s.attempts with
    | .ioctlFails => (false, t, next.record (.tuned t.frequency false))
    | .noLock => (false, { t with lastTuningFailed := true }, next.record (.tuned t.frequency false))
    | .lock => (true, { t with lastTuningFailed := false }, next.record (.tuned t.frequency true))

def ScanState.addScanned (s : ScanState) (t : Transponder) : ScanState := { s with scanned := s.scanned ++ [t] }

/-- `tune_to_transponder` for a transponder that has been taken out of its list: it goes to the tail of the scanned
ones. -/
def tuneToTransponder (c : Config) (w : World) (t : Transponder) (s : ScanState) : Bool × ScanState :=
  let t := { t with scanDone := true }
  if t.type ≠ some c.feType then
    (false, (s.record (.skipped t.frequency)).addScanned { t with lastTuningFailed := true })
  else
    let r := tuneAttempt w t s
    if r.1 then (true, r.2.2.addScanned r.2.1)
    else
      let r := tuneAttempt w r.2.1 r.2.2
      (r.1, r.2.2.addScanned r.2.1)

/-- The transponder that goes to the list when another frequency is tried for `t`: it keeps the frequency that
failed. -/
def wrongTransponder (t : Transponder) : Transponder :=
  copyTransponder { Transponder.zero.setFrequency t.frequency with wrongFrequency := true } t

/-- `n_other_f--` -/
def Transponder.takeOther (t : Transponder) : Transponder := { t with otherF := t.otherF.dropLast }

def ScanState.dropScanned (s : ScanState) : ScanState := { s with scanned := s.scanned.dropLast }

/-- What `tune_to_next_transponder` does from `next:` on with the transponder at the tail of the scanned ones; the number
of other frequencies is enough fuel. -/
def tryOthers (c : Config) (w : World) : Nat → ScanState → Bool × ScanState
  | 0, s => (false, s)
  | fuel + 1, s =>
    match s.scanned.getLast? with
    | none => (false, s)
    | some t =>
      if t.otherFrequencyFlag = false ∨ t.otherF = [] then (false, s)
      else
        let freq := t.otherF.getLastD 0
        let looked := s.dropScanned.record (.looked freq)
        match findTransponder freq id (looked.addScanned t.takeOther) with
        | some s => tryOthers c w fuel s
        | none =>
          -- `to` keeps the frequency that failed, and goes in front of the transponder that is retried.
          let r := tuneToTransponder c w (t.takeOther.setFrequency freq)
            (looked.addScanned (wrongTransponder t.takeOther))
          if r.1 then r else tryOthers c w fuel r.2

/-- The loop of `tune_to_next_transponder`; the number of new transponders is enough fuel. The result is whether it
returns 0. -/
def tuneLoop (c : Config) (w : World) : Nat → ScanState → Bool × ScanState
  | 0, s => (false, s)
  | fuel + 1, s =>
    match s.new with
    | [] => (false, s)
    | t :: new =>
      let r := tuneToTransponder c w t { s with new := new }
      if r.1 then r
      else
        let r := tryOthers c w t.otherF.length r.2
        if r.1 then r else tuneLoop c w fuel r.2

def tuneToNextTransponder (c : Config) (w : World) (s : ScanState) : Bool × ScanState :=
  tuneLoop c w s.new.length s

/-! ## The run -/

structure InitialLine where
  type : FeType
  param : FrontendParameters
  polarisation : UInt8
  deriving DecidableEq

def InitialLine.fill (line : InitialLine) (t : Transponder) : Transponder :=
  { t with type := some line.type, param := line.param, polarisation := line.polarisation }

/-- What `tune_initial` does with a line. -/
def readLine (s : ScanState) (line : InitialLine) : ScanState :=
  allocTransponder line.param.frequency line.fill (s.record (.initial line.param.frequency))

/-- What `tune_initial` has read from the file. -/
def readInitial (lines : List InitialLine) : ScanState := lines.foldl readLine ⟨[], [], 0, []⟩

/-- `scan_network` after `n` passes of its loop: whether the last `tune_to_next_transponder` returned 0. -/
def scanNetwork (c : Config) (w : World) (lines : List InitialLine) : Nat → Bool × ScanState
  | 0 => tuneToNextTransponder c w (readInitial lines)
  | n + 1 =>
    let r := scanNetwork c w lines n
    if r.1 then tuneToNextTransponder c w ((w.nits n).foldl (fun s nit => parseNit c nit s) r.2) else r

end LinuxDvb.Scan
