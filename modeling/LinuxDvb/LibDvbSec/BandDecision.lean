import LinuxDvb.LibDvbSec.Diseqc

/-!
# Band decision

`dvbsec_set` drives the dish for a band and a polarization, and then subtracts the frequency of the local oscillator
of the band.
-/

namespace LinuxDvb.Sec

inductive Band where
  | low | high
  deriving DecidableEq

structure DvbfeParameters (α : Type) where
  frequency : UInt32
  others : α
  deriving DecidableEq

/-- What `dvbsec_set` calls; the string that is passed to `dvbsec_command` is known by its array. -/
inductive SetCall (α : Type) where
  | fe (op : FeOp)
  | command (band : Band) (polarization : DiseqcPolarization)
  | dvbfeSet (params : DvbfeParameters α)
  deriving DecidableEq

/-- `adv_cmd_*` -/
def advCmd (sec : DvbsecConfig) (band : Band) : DiseqcPolarization → Option (List UInt8)
  | .h => some (match band with | .low => sec.advCmdLoH | .high => sec.advCmdHiH)
  | .v => some (match band with | .low => sec.advCmdLoV | .high => sec.advCmdHiV)
  | .l => some (match band with | .low => sec.advCmdLoL | .high => sec.advCmdHiL)
  | .r => some (match band with | .low => sec.advCmdLoR | .high => sec.advCmdHiR)
  | _ => none

/-- `lof_*` -/
def lofOf (sec : DvbsecConfig) (band : Band) : DiseqcPolarization → UInt32
  | .h => match band with | .low => sec.lofLoH | .high => sec.lofHiH
  | .v => match band with | .low => sec.lofLoV | .high => sec.lofHiV
  | .l => match band with | .low => sec.lofLoL | .high => sec.lofHiL
  | .r => match band with | .low => sec.lofLoR | .high => sec.lofHiR
  | _ => 0

section Set

variable {α : Type} (sec : DvbsecConfig) (polarization : DiseqcPolarization) (satPos switchOption : DiseqcSwitch)
  (params : DvbfeParameters α) (command : List UInt8 → Int)

def drivenBand : Band :=
  if sec.switchFrequency ≠ 0 ∧ sec.switchFrequency < params.frequency then .high else .low

def convertedBand : Band :=
  if sec.switchFrequency = 0 ∨ params.frequency < sec.switchFrequency then .low else .high

def Band.oscillator : Band → DiseqcOscillator
  | .low => .low
  | .high => .high

/-- The switch over the type of the configuration: the value to return at once, if there is one, and the
calls. What `dvbsec_command` returns for a string is given. -/
def driveDish : Option Int × List (SetCall α) :=
  match sec.configType with
  | .none => (none, [])
  | .power => (none, [.fe (.setVoltage .v13)])
  | .standard =>
    let (status, ops) :=
      dvbsecStdSequence (drivenBand sec params).oscillator polarization satPos switchOption
    (if status = none then some (-22) else none, ops.map .fe)
  | .advanced =>
    match advCmd sec (drivenBand sec params) polarization with
    | none => (some (-22), [])
    | some cmd =>
      (if command cmd < 0 then some (command cmd) else none, [.command (drivenBand sec params) polarization])

/-- The parameters for the frontend, `none` if the negation overflows. -/
def adjustFrequency (lof : UInt32) : Option (DvbfeParameters α) :=
  if lof = 0 then some params
  else
    let tmpfreq : Int := (params.frequency - lof).toInt32.toInt
    if tmpfreq < 0 then
      if tmpfreq = Int32.minValue.toInt then none
      else some { params with frequency := UInt32.ofNat (-tmpfreq).toNat }
    else some { params with frequency := UInt32.ofNat tmpfreq.toNat }

/-- `dvbsec_set` with a configuration: the calls, the value that is returned unless it is that of `dvbfe_set`,
and the parameters of the caller. The result is `none` if its behaviour is undefined. -/
def dvbsecSet : Option (List (SetCall α) × Option Int × DvbfeParameters α) :=
  match driveDish sec polarization satPos switchOption params command with
  | (some ret, calls) => some (calls, some ret, params)
  | (none, calls) => do
    let topass ← adjustFrequency params (lofOf sec (convertedBand sec params) polarization)
    return (calls ++ [.dvbfeSet topass], none, params)

end Set

section Agreement

variable {α : Type}

def SetCall.oscillatorOf : SetCall α → Option UInt8
  | .fe (.doDiseqcCommand [_, _, cmd, data]) => if cmd = 0x38 then some (data &&& 0x11) else none
  | _ => none

def SetCall.toneOf : SetCall α → Option Bool
  | .fe (.set22kTone on) => some on
  | _ => none

def SetCall.commandOf : SetCall α → Option (Band × DiseqcPolarization)
  | .command band polarization => some (band, polarization)
  | _ => none

def SetCall.paramsOf : SetCall α → Option (DvbfeParameters α)
  | .dvbfeSet params => some params
  | _ => none

/-- The dish is driven for this band: by the oscillator bits and the tone that is left on or off, or by the
string of the band and the polarization. -/
def Drives (configType : ConfigType) (polarization : DiseqcPolarization) (band : Band)
    (calls : List (SetCall α)) : Prop :=
  match configType with
  | .standard =>
    calls.filterMap SetCall.oscillatorOf = [match band with | .low => 0x10 | .high => 0x11] ∧
      (calls.filterMap SetCall.toneOf).getLast? = some (decide (band = .high))
  | .advanced => calls.filterMap SetCall.commandOf = [(band, polarization)]
  | _ => True

/-- The band that is documented: low if there is only one, or if the frequency is less than the switching
frequency. -/
def documentedBand (sec : DvbsecConfig) (params : DvbfeParameters α) : Band :=
  if sec.switchFrequency = 0 ∨ params.frequency.toNat < sec.switchFrequency.toNat then .low else .high

/-- The distance to the frequency of the local oscillator, or the frequency itself if there is none. -/
def convertedFrequency (frequency lof : UInt32) : Nat :=
  if lof = 0 then frequency.toNat else ((frequency.toNat : Int) - lof.toNat).natAbs

def Proceeds (sec : DvbsecConfig) (polarization : DiseqcPolarization) (params : DvbfeParameters α)
    (command : List UInt8 → Int) : Prop :=
  sec.configType = .advanced →
    ∀ cmd, advCmd sec (documentedBand sec params) polarization = some cmd → 0 ≤ command cmd

/-- The band is the documented one, for the dish and for the frequency, and the parameters of the caller are
kept. The frontend is set unless the SEC command fails. -/
def BandAgrees (sec : DvbsecConfig) (polarization : DiseqcPolarization) (satPos switchOption : DiseqcSwitch)
    (params : DvbfeParameters α) (command : List UInt8 → Int) : Prop :=
  ∃ calls ret, dvbsecSet sec polarization satPos switchOption params command = some (calls, ret, params) ∧
    Drives sec.configType polarization (documentedBand sec params) calls ∧
    (Proceeds sec polarization params command → ∃ frequency : UInt32,
      calls.filterMap SetCall.paramsOf = [{ params with frequency := frequency }] ∧ frequency.toNat =
        convertedFrequency params.frequency (lofOf sec (documentedBand sec params) polarization)) ∧
    (¬Proceeds sec polarization params command → calls.filterMap SetCall.paramsOf = [])

end Agreement

section Bands

variable {α : Type} (sec : DvbsecConfig) (params : DvbfeParameters α)

theorem convertedBand_eq : convertedBand sec params = documentedBand sec params := by
  unfold convertedBand documentedBand
  simp only [UInt32.lt_iff_toNat_lt]

theorem drivenBand_eq_iff : drivenBand sec params = documentedBand sec params ↔
      sec.switchFrequency = 0 ∨ params.frequency ≠ sec.switchFrequency := by
  unfold drivenBand documentedBand
  by_cases hone : sec.switchFrequency = 0
  · simp [hone]
  have hne : params.frequency ≠ sec.switchFrequency ↔
      params.frequency.toNat ≠ sec.switchFrequency.toNat := not_congr UInt32.toNat_inj.symm
  simp only [hone,false_or,ne_eq,not_false_eq_true,true_and,UInt32.lt_iff_toNat_lt]
  rw [← ne_eq,hne]
  rcases Nat.lt_trichotomy params.frequency.toNat sec.switchFrequency.toNat with hlow | hsame | hhigh
  · rw [if_neg (by omega),if_pos hlow]
    exact iff_of_true rfl (by omega)
  · rw [if_neg (by omega),if_neg (by omega)]
    exact iff_of_false (fun h => nomatch h) (by omega)
  · rw [if_pos hhigh,if_neg (by omega)]
    exact iff_of_true rfl (by omega)

end Bands

section Frequency

variable {α : Type} (params : DvbfeParameters α) (lof : UInt32)

theorem toInt_sub (hfrequency : params.frequency.toNat < 0x80000000) : (params.frequency - lof).toInt32.toInt =
      if lof.toNat ≤ params.frequency.toNat + 0x80000000 then
        (params.frequency.toNat : Int) - lof.toNat
      else (params.frequency.toNat : Int) - lof.toNat + 0x100000000 := by
  have hlof := lof.toNat_lt
  have hsub : (params.frequency - lof).toNat =
      (4294967296 - lof.toNat + params.frequency.toNat) % 4294967296 := UInt32.toNat_sub ..
  have hcond : (params.frequency - lof).toInt32.toInt =
      if 2 * (params.frequency - lof).toNat < 4294967296 then ((params.frequency - lof).toNat : Int)
      else (params.frequency - lof).toNat - 4294967296 :=
    BitVec.toInt_eq_toNat_cond (params.frequency - lof).toBitVec
  rw [hcond,hsub]
  split
  · split
    · omega
    · omega
  · split
    · omega
    · omega

theorem frequency_eq {frequency frequency' : UInt32} (h : some { params with frequency := frequency' } =
    some { params with frequency := frequency }) : frequency' = frequency :=
  congrArg DvbfeParameters.frequency (Option.some.inj h)

theorem adjustFrequency_iff (hfrequency : params.frequency.toNat < 0x80000000) :
    (∃ frequency : UInt32, adjustFrequency params lof = some { params with frequency := frequency } ∧
      frequency.toNat = convertedFrequency params.frequency lof) ↔
      lof.toNat < params.frequency.toNat + 0x80000000 := by
  have hlof := lof.toNat_lt
  have hmin : Int32.minValue.toInt = -0x80000000 := by decide
  unfold adjustFrequency convertedFrequency
  by_cases hzero : lof = 0
  · have hnat : lof.toNat = 0 := congrArg UInt32.toNat hzero
    rw [if_pos hzero,if_pos hzero]
    exact iff_of_true ⟨params.frequency,rfl,rfl⟩ (by omega)
  rw [if_neg hzero,if_neg hzero]
  dsimp only
  rw [toInt_sub params lof hfrequency,hmin]
  by_cases hfar : lof.toNat ≤ params.frequency.toNat + 0x80000000
  · rw [if_pos hfar]
    by_cases hbelow : params.frequency.toNat < lof.toNat
    · rw [if_pos (by omega)]
      by_cases hedge : lof.toNat = params.frequency.toNat + 0x80000000
      · -- the negation of the least number
        rw [if_pos (by omega)]
        exact iff_of_false (fun ⟨_,h,_⟩ => nomatch h) (by omega)
      · rw [if_neg (by omega)]
        refine iff_of_true ⟨_,rfl,?_⟩ (by omega)
        rw [UInt32.toNat_ofNat_of_lt' (by simp only [UInt32.size]; omega)]
        omega
    · rw [if_neg (by omega)]
      refine iff_of_true ⟨_,rfl,?_⟩ (by omega)
      rw [UInt32.toNat_ofNat_of_lt' (by simp only [UInt32.size]; omega)]
      omega
  · -- the difference has become positive
    rw [if_neg hfar,if_neg (by omega)]
    refine iff_of_false ?_ (by omega)
    rintro ⟨frequency,h,hdistance⟩
    have heq := frequency_eq params h
    rw [← heq,UInt32.toNat_ofNat_of_lt' (by simp only [UInt32.size]; omega)] at hdistance
    omega

end Frequency

section Decision

variable {α : Type} {sec : DvbsecConfig} {polarization : DiseqcPolarization} {params : DvbfeParameters α}

def Polarized (polarization : DiseqcPolarization) : Prop :=
  polarization = .h ∨ polarization = .v ∨ polarization = .l ∨ polarization = .r

theorem stdSequence_shows (hpolarization : Polarized polarization) (band : Band) (satPos switchOption : DiseqcSwitch) :
    ∃ ops, dvbsecStdSequence band.oscillator polarization satPos switchOption = (some (), ops) ∧
      (ops.map SetCall.fe).filterMap (SetCall.oscillatorOf (α := α)) =
        [match band with | .low => 0x10 | .high => 0x11] ∧
      ((ops.map SetCall.fe).filterMap (SetCall.toneOf (α := α))).getLast? = some (decide (band = .high)) ∧
      (ops.map SetCall.fe).filterMap (SetCall.paramsOf (α := α)) = [] := by
  rcases hpolarization with rfl | rfl | rfl | rfl <;> cases band <;> cases satPos <;> cases switchOption <;>
    exact ⟨_,rfl,rfl,rfl,rfl⟩

theorem advCmd_isSome (hpolarization : Polarized polarization) (band : Band) :
    ∃ cmd, advCmd sec band polarization = some cmd := by
  rcases hpolarization with rfl | rfl | rfl | rfl <;> exact ⟨_,rfl⟩

variable {satPos switchOption : DiseqcSwitch} {command : List UInt8 → Int}

/-- The dish is driven for the band of the first comparison, and the call proceeds unless the SEC command for
this band fails. -/
theorem driveDish_spec (htype : sec.configType = .standard ∨ sec.configType = .advanced)
    (hpolarization : Polarized polarization) :
    ∃ ret calls, driveDish sec polarization satPos switchOption params command = (ret, calls) ∧
      (∀ band, Drives sec.configType polarization band calls ↔ band = drivenBand sec params) ∧
      calls.filterMap SetCall.paramsOf = [] ∧
      (ret = none ↔ (sec.configType = .advanced →
        ∀ cmd, advCmd sec (drivenBand sec params) polarization = some cmd → 0 ≤ command cmd)) := by
  unfold driveDish Drives
  rcases htype with hstandard | hadvanced
  · obtain ⟨ops,hops,hoscillator,htone,hparams⟩ :=
      stdSequence_shows (α := α) hpolarization (drivenBand sec params) satPos switchOption
    rw [hstandard]
    dsimp only
    rw [hops]
    refine ⟨none,ops.map .fe,rfl,?_,hparams,iff_of_true rfl fun h => nomatch h⟩
    intro band
    rw [hoscillator,htone]
    cases band <;> cases drivenBand sec params <;> decide
  · obtain ⟨cmd,hcmd⟩ : ∃ cmd, advCmd sec _ _ = some cmd :=
      advCmd_isSome hpolarization (drivenBand sec params)
    rw [hadvanced]
    dsimp only
    rw [hcmd]
    refine ⟨_,_,rfl,?_,rfl,?_⟩
    · intro band
      constructor
      · intro h
        exact (congrArg Prod.fst (List.cons.inj h).1).symm
      · rintro rfl
        rfl
    · constructor
      · intro h _ cmd' hcmd'
        obtain rfl := Option.some.inj hcmd'
        by_contra hfail
        rw [if_pos (by omega)] at h
        cases h
      · intro h
        exact if_neg (Int.not_lt.mpr (h rfl cmd rfl))

theorem drives_append (configType : ConfigType) (polarization : DiseqcPolarization) (band : Band)
    (calls : List (SetCall α)) (topass : DvbfeParameters α) :
    Drives configType polarization band (calls ++ [.dvbfeSet topass]) ↔
      Drives configType polarization band calls := by
  have hoscillator : [SetCall.dvbfeSet topass].filterMap SetCall.oscillatorOf = [] := rfl
  have htone : [SetCall.dvbfeSet topass].filterMap SetCall.toneOf = [] := rfl
  have hcommand : [SetCall.dvbfeSet topass].filterMap SetCall.commandOf = [] := rfl
  unfold Drives
  simp only [filterMap_append,hoscillator,htone,hcommand,append_nil]

/-- For both types and all polarizations and frequencies, the band is the documented one for the dish and for
the frequency exactly if the frequency is not the switching frequency itself and, where the frontend is set,
the frequency of the local oscillator is not 2^31 or more above the frequency. -/
theorem dvbsecSet_bandAgrees_iff (htype : sec.configType = .standard ∨ sec.configType = .advanced)
    (hpolarization : Polarized polarization) (satPos switchOption : DiseqcSwitch)
    (hfrequency : params.frequency.toNat < 0x80000000) (command : List UInt8 → Int) :
    BandAgrees sec polarization satPos switchOption params command ↔
      (sec.switchFrequency = 0 ∨ params.frequency ≠ sec.switchFrequency) ∧
        (Proceeds sec polarization params command → (lofOf sec (documentedBand sec params) polarization).toNat <
            params.frequency.toNat + 0x80000000) := by
  obtain ⟨early, driving, hdrive, hdrives, hnone, hearly⟩ :=
    @driveDish_spec α sec polarization params satPos switchOption command htype hpolarization
  rw [← drivenBand_eq_iff]
  unfold BandAgrees dvbsecSet
  rw [hdrive, convertedBand_eq]
  by_cases hband : drivenBand sec params = documentedBand sec params
  · rw [hband] at hearly hdrives
    have hdriven := (hdrives (documentedBand sec params)).mpr rfl
    cases early with
    | some ret =>
      have hfails : ¬Proceeds sec polarization params command := fun h => nomatch hearly.mpr h
      exact iff_of_true ⟨driving, some ret, rfl, hdriven, fun h => absurd h hfails, fun _ => hnone⟩
        ⟨hband, fun h => absurd h hfails⟩
    | none =>
      have hproceeds : Proceeds sec polarization params command := hearly.mp rfl
      rw [← adjustFrequency_iff params _ hfrequency]
      simp only [hband, hproceeds, true_and, forall_const, not_true_eq_false, false_implies, and_true]
      constructor
      · rintro ⟨calls, ret, hcalls, -, frequency, hset, hdistance⟩
        obtain ⟨topass, htopass, heq⟩ := Option.bind_eq_some_iff.mp hcalls
        obtain rfl : driving ++ [.dvbfeSet topass] = calls := congrArg Prod.fst (Option.some.inj heq)
        rw [List.filterMap_append, hnone] at hset
        obtain rfl := (List.cons.inj hset).1
        exact ⟨frequency, htopass, hdistance⟩
      · rintro ⟨frequency, hadjust, hdistance⟩
        rw [hadjust]
        refine ⟨_, none, rfl, (drives_append ..).mpr hdriven, frequency, ?_, hdistance⟩
        rw [List.filterMap_append, hnone]
        rfl
  · -- the dish is driven for the other band
    refine iff_of_false ?_ (fun h => hband h.1)
    rintro ⟨calls, ret, hcalls, hdriven, -⟩
    have hother (h : Drives sec.configType polarization (documentedBand sec params) driving) : False :=
      hband ((hdrives _).mp h).symm
    cases early with
    | some ret' =>
      obtain rfl : driving = calls := congrArg Prod.fst (Option.some.inj hcalls)
      exact hother hdriven
    | none =>
      obtain ⟨topass, -, heq⟩ := Option.bind_eq_some_iff.mp hcalls
      obtain rfl : driving ++ [.dvbfeSet topass] = calls := congrArg Prod.fst (Option.some.inj heq)
      exact hother ((drives_append ..).mp hdriven)

def universal : DvbsecConfig :=
  { DvbsecConfig.zero with
    switchFrequency := 11700000
    lofLoV := 9750000
    lofLoH := 9750000
    lofHiV := 10600000
    lofHiH := 10600000
    configType := .standard }

/-- A frequency in the high band. -/
theorem dvbsecSet_bandAgrees_high :
    BandAgrees universal .v .a .a (⟨12000000, ()⟩ : DvbfeParameters Unit) (fun _ => 0) :=
  (dvbsecSet_bandAgrees_iff (.inl rfl) (.inr (.inl rfl)) .a .a (by decide) (fun _ => 0)).mpr
    ⟨.inr (by decide), fun _ => by decide⟩

/-- At the switching frequency the dish is driven for the low band. -/
theorem dvbsecSet_bandDisagrees :
    ¬BandAgrees universal .v .a .a (⟨11700000, ()⟩ : DvbfeParameters Unit) (fun _ => 0) := by
  rintro ⟨calls, ret, hcalls, hdrives, -⟩
  have hrun : (dvbsecSet universal .v .a .a (⟨11700000, ()⟩ : DvbfeParameters Unit) (fun _ => 0)).map
      (fun run => run.1.filterMap SetCall.oscillatorOf) = some [0x10] := by decide
  rw [hcalls, Option.map_some, Option.some.injEq] at hrun
  exact absurd (hdrives.1.symm.trans hrun) (by decide)

end Decision

end LinuxDvb.Sec
