import LinuxDvb.Framework.Lists

/-!
# Software zigzag

A frontend that has no algorithm of its own is tuned by the core: around the requested frequency, with growing offsets
to both sides and with both inversions, until it has a lock.
-/

namespace LinuxDvb.Frontend

inductive FeType where
  | qpsk
  | qam
  | ofdm
  | atsc
deriving DecidableEq, Repr

inductive Inversion where
  | off
  | on
  | auto
deriving DecidableEq, Repr

/-- The fields of the parameters that are looked at, of the types of frontends that have them. -/
structure FrontendParameters where
  frequency : UInt32
  inversion : Inversion
  symbolRate : UInt32
  hierarchyInformation : UInt32
  codeRateLp : UInt32
deriving DecidableEq, Repr

structure TuneSettings where
  minDelayMs : Int32
  stepSize : Int32
  maxDrift : Int32
deriving DecidableEq, Repr

/-- What the core knows of a frontend. `getTuneSettings` is `none` where there is no such operation or it fails, and
`setFrontend` is what is in the parameters when the operation returns, which is what was there where there is none. -/
structure DvbFrontend where
  type : FeType
  frequencyStepsize : UInt32
  canInversionAuto : Bool
  canRecover : Bool
  getTuneSettings : FrontendParameters → Option TuneSettings
  setFrontend : FrontendParameters → FrontendParameters

structure CoreOptions where
  forceAutoInversion : Bool
  overrideTuneDelay : Int32
  hz : Int32
deriving DecidableEq, Repr

def festateIdle : UInt32 := 1

def festateRetune : UInt32 := 2

def festateTuningFast : UInt32 := 4

def festateTuningSlow : UInt32 := 8

def festateTuned : UInt32 := 16

def festateZigzagFast : UInt32 := 32

def festateZigzagSlow : UInt32 := 64

def festateDiseqc : UInt32 := 128

def festateSearchingFast : UInt32 := festateTuningFast ||| festateZigzagFast

def festateSearchingSlow : UInt32 := festateTuningSlow ||| festateZigzagSlow

def festateLostlock : UInt32 := festateZigzagFast ||| festateZigzagSlow

def festateWaitforlock : UInt32 := festateSearchingFast ||| festateSearchingSlow ||| festateDiseqc

def feHasLock : UInt32 := 0x10

def feTuneModeOneshot : UInt32 := 0x01

def hierarchyNone : UInt32 := 0

def fecNone : UInt32 := 0

def fecAuto : UInt32 := 9

abbrev TriedInversion := { i : Inversion // i ≠ .auto }

structure FrontendPrivate where
  parameters : FrontendParameters
  status : UInt32
  tuneModeFlags : UInt32
  delay : UInt32
  state : UInt32
  lnbDrift : Int32
  inversion : TriedInversion
  autoStep : UInt32
  autoSubStep : UInt32
  startedAutoStep : UInt32
  minDelay : UInt32
  maxDrift : UInt32
  stepSize : UInt32
  quality : Int32
  checkWrapped : Bool

section Code

theorem TriedInversion.off_ne_auto : Inversion.off ≠ .auto := by decide

/-- `(inversion == INVERSION_OFF) ? INVERSION_ON : INVERSION_OFF` -/
def TriedInversion.toggle (i : TriedInversion) : TriedInversion :=
  if i.val = .off then ⟨.on, by decide⟩ else ⟨.off, by decide⟩

/-- How far and in which steps a frontend is tuned: what it asks for, or the defaults for its type. -/
def tuneSettings (fe : DvbFrontend) (hz : Int32) (parameters : FrontendParameters) (p : FrontendPrivate) :
    FrontendPrivate :=
  match fe.getTuneSettings parameters with
  | some settings =>
    { p with
      minDelay := (settings.minDelayMs * hz / 1000).toUInt32
      maxDrift := settings.maxDrift.toUInt32
      stepSize := settings.stepSize.toUInt32 }
  | none =>
    match fe.type with
    | .qpsk =>
      { p with
        minDelay := (hz / 20).toUInt32
        stepSize := parameters.symbolRate / 16000
        maxDrift := parameters.symbolRate / 2000 }
    | .qam => { p with minDelay := (hz / 20).toUInt32, stepSize := 0, maxDrift := 0 }
    | .ofdm =>
      { p with
        minDelay := (hz / 20).toUInt32
        stepSize := fe.frequencyStepsize * 2
        maxDrift := fe.frequencyStepsize * 2 + 1 }
    | .atsc => { p with minDelay := (hz / 20).toUInt32, stepSize := 0, maxDrift := 0 }

def forcedParameters (options : CoreOptions) (parg : FrontendParameters) : FrontendParameters :=
  if options.forceAutoInversion then { parg with inversion := .auto } else parg

/-- `FE_SET_FRONTEND`, but for the event that is added. -/
def feSetFrontend (fe : DvbFrontend) (options : CoreOptions) (parg : FrontendParameters) (p : FrontendPrivate) :
    FrontendPrivate :=
  let parameters := forcedParameters options parg
  let tolerated :=
    if fe.type = .ofdm ∧ parameters.hierarchyInformation = hierarchyNone ∧ parameters.codeRateLp = fecNone then
      { parameters with codeRateLp := fecAuto }
    else parameters
  let p := tuneSettings fe options.hz parameters { p with parameters := tolerated }
  let p :=
    if options.overrideTuneDelay > 0 then
      { p with minDelay := (options.overrideTuneDelay * options.hz / 1000).toUInt32 }
    else p
  { p with state := festateRetune, status := 0 }

def autoinversion (fe : DvbFrontend) (p : FrontendPrivate) : Bool :=
  !fe.canInversionAuto && p.parameters.inversion == .auto

/-- The drift, with which the search begins again if it is too large; it is compared as an unsigned number. -/
def zigzagDrift (p : FrontendPrivate) : FrontendPrivate :=
  let p := { p with lnbDrift := (p.autoStep * p.stepSize).toInt32 }
  if p.lnbDrift.toUInt32 > p.maxDrift then { p with autoStep := 0, autoSubStep := 0, lnbDrift := 0 } else p

/-- The `switch` for the inversion and the direction: whether an attempt is ready. -/
def zigzagSwitch (auto : Bool) (p : FrontendPrivate) : Bool × FrontendPrivate :=
  if p.autoSubStep = 0 then (true, p)
  else if p.autoSubStep = 1 then
    if auto then (true, { p with inversion := p.inversion.toggle }) else (false, p)
  else if p.autoSubStep = 2 then
    if p.lnbDrift = 0 then (false, p) else (true, { p with lnbDrift := -p.lnbDrift })
  else if p.autoSubStep = 3 then
    if p.lnbDrift = 0 then (false, p)
    else if auto then (true, { p with inversion := p.inversion.toggle, lnbDrift := -p.lnbDrift })
    else (false, p)
  else (false, { p with autoStep := p.autoStep + 1, autoSubStep := -1 })

def zigzagSetup (auto : Bool) : Nat → FrontendPrivate → Option FrontendPrivate
  | 0, _ => none
  | fuel + 1, p =>
    let r := zigzagSwitch auto (zigzagDrift p)
    if r.1 then some r.2 else zigzagSetup auto fuel { r.2 with autoSubStep := r.2.autoSubStep + 1 }

def attemptParameters (auto : Bool) (p : FrontendPrivate) : FrontendParameters :=
  { p.parameters with
    frequency := p.parameters.frequency + p.lnbDrift.toUInt32
    inversion := if auto then p.inversion.val else p.parameters.inversion }

/-- `dvb_frontend_swzigzag_autotune`: the parameters that are set, or `none` inside for a complete iteration. Five passes
are allowed for the loop. -/
def swzigzagAutotune (fe : DvbFrontend) (checkWrapped : Bool) (p : FrontendPrivate) :
    Option (Option FrontendParameters × FrontendPrivate) :=
  let auto := autoinversion fe p
  match zigzagSetup auto 5 p with
  | none => none
  | some q =>
    if q.autoStep = q.startedAutoStep ∧ q.autoSubStep = 0 ∧ checkWrapped = true then some (none, q)
    else
      let attempt := attemptParameters auto q
      some
        (some attempt, { q with
            parameters :=
              { fe.setFrontend attempt with frequency := p.parameters.frequency, inversion := p.parameters.inversion }
            autoSubStep := q.autoSubStep + 1 })

/-- `dvb_frontend_swzigzag_update_delay` -/
def swzigzagUpdateDelay (hz : Int32) (locked : Bool) (p : FrontendPrivate) : FrontendPrivate :=
  let quality := if locked then (p.quality * 220 + 36 * 256) / 256 else p.quality * 220 / 256
  let q2 := (quality - 128) * (quality - 128)
  { p with quality := quality, delay := p.minDelay + (q2 * hz / (128 * 128)).toUInt32 }

inductive FeEffect where
  | event (status : UInt32)
  | tune (parameters : FrontendParameters)
deriving DecidableEq, Repr

def swzigzagSlow (fe : DvbFrontend) (hz : Int32) (locked : Bool) (p : FrontendPrivate) :
    Option (List FeEffect × FrontendPrivate) :=
  if p.state &&& festateSearchingSlow ≠ 0 then
    match swzigzagAutotune fe false (swzigzagUpdateDelay hz locked p) with
    | none => none
    | some (none, p) => some ([], p)
    | some (some attempt, p) => some ([.tune attempt], p)
  else some ([], p)

def swzigzagFast (fe : DvbFrontend) (hz : Int32) (locked retune : Bool) (p : FrontendPrivate) :
    Option (List FeEffect × FrontendPrivate) :=
  match swzigzagAutotune fe p.checkWrapped { p with delay := p.minDelay } with
  | none => none
  | some (none, p) => some ([], { p with state := festateSearchingSlow, startedAutoStep := p.autoStep })
  | some (some attempt, p) =>
    (swzigzagSlow fe hz locked
      { p with checkWrapped := true, state := if retune then festateTuningFast else p.state }).map fun r =>
        (.tune attempt :: r.1, r.2)

def swzigzagSearch (fe : DvbFrontend) (hz : Int32) (locked : Bool) (p : FrontendPrivate) :
    Option (List FeEffect × FrontendPrivate) :=
  let retune : Bool := p.state &&& festateRetune ≠ 0
  let p :=
    if retune then
      { p with lnbDrift := 0, autoStep := 0, autoSubStep := 0, startedAutoStep := 0, checkWrapped := false }
    else p
  if p.state &&& festateSearchingFast ≠ 0 ∨ retune = true then swzigzagFast fe hz locked retune p
  else swzigzagSlow fe hz locked p

def swzigzagStatus (fe : DvbFrontend) (hz : Int32) (s : UInt32) (p : FrontendPrivate) :
    Option (List FeEffect × FrontendPrivate) :=
  let locked : Bool := s &&& feHasLock ≠ 0
  if p.state &&& festateWaitforlock ≠ 0 ∧ locked = true then
    let p := { swzigzagUpdateDelay hz locked p with state := festateTuned }
    if autoinversion fe p then some ([], { p with parameters := { p.parameters with inversion := p.inversion.val } })
    else some ([], p)
  else
    let tuned : Bool := p.state &&& festateTuned ≠ 0
    let p := if tuned then swzigzagUpdateDelay hz locked p else p
    if tuned = true ∧ locked = true then some ([], p)
    else
      let p :=
        if tuned then { p with state := festateZigzagFast, startedAutoStep := p.autoStep, checkWrapped := false } else p
      if p.state &&& festateLostlock ≠ 0 ∧ fe.canRecover = true ∧ p.maxDrift = 0 then
        some ([], swzigzagUpdateDelay hz locked p)
      else if p.state &&& festateDiseqc ≠ 0 then some ([], swzigzagUpdateDelay hz locked p)
      else swzigzagSearch fe hz locked p

/-- `dvb_frontend_swzigzag`, where the frontend says that its status is `status`. -/
def swzigzag (fe : DvbFrontend) (hz : Int32) (status : UInt32) (p : FrontendPrivate) :
    Option (List FeEffect × FrontendPrivate) :=
  if p.state &&& festateIdle ≠ 0 then some ([], { p with delay := (3 * hz).toUInt32, quality := 0 })
  else if p.tuneModeFlags &&& feTuneModeOneshot ≠ 0 then
    if p.state &&& festateRetune ≠ 0 then
      some
        ([.tune p.parameters], { p with
            parameters := fe.setFrontend p.parameters
            state := festateTuned
            delay := (3 * hz).toUInt32
            quality := 0 })
    else some ([], { p with delay := (3 * hz).toUInt32, quality := 0 })
  else if p.state &&& festateRetune ≠ 0 then swzigzagStatus fe hz 0 p
  else
    let changed : Bool := status ≠ p.status
    (swzigzagStatus fe hz status { p with status := status }).map fun r =>
      ((if changed then [.event status] else []) ++ r.1, r.2)

end Code

end LinuxDvb.Frontend
