import LinuxDvb.Framework.Logged
import LinuxDvb.Frontends.Stb0899.Search

/-!
# Tuning the STB0899

The driver copies the handle of the frontend, initialises it again where there is none or an error is recorded,
searches, and looks at the errors through its copy.
-/

namespace LinuxDvb.Stb0899

/-- A parameter block. The number tells it from those that an earlier initialisation has left behind. -/
structure Block where
  number : Nat
  params : InternalParams

/-- `stb0899_state`: what is behind `m_Handle`, and `g_DvbsMode`. -/
structure Frontend where
  handle : Option Block
  dvbsMode : Nat

/-- The parameters of `stb0899_set_frontend` that are used. -/
structure TuneParams where
  frequency : UInt32
  symbolRate : UInt32
  deriving DecidableEq

/-- A use of the parameter block behind a pointer, and the block of the handle. -/
structure Deref where
  through : Option Nat
  current : Option Nat
  deriving DecidableEq

/-- What the chips and the memory do in a call: the readings, the memory of a new parameter block, if the
initialisation gets one, and the DVB-S2 search. -/
structure Outside where
  w : Readings
  alloc : Option InternalParams
  dvbs2 : SearchParams → InternalParams → Option (SearchResult × InternalParams)

/-- What comes back, and what the search has found, if there was one. -/
structure Tuned where
  ret : Int
  searched : Option SearchResult
  deriving DecidableEq

section Driver

variable (o : Outside)

def chipFails (p : InternalParams) : Bool := o.w.tunerError p.reads || o.w.demodError p.reads

def use (pointer : Option Block) (fe : Frontend) : Logged Deref Unit :=
  .one ⟨pointer.map Block.number, fe.handle.map Block.number⟩ ()

/-- `st0899_initialize`. A block that is replaced stays allocated. -/
def st0899Initialize (fe : Frontend) : Frontend :=
  { fe with
    handle := o.alloc.map fun memory =>
      ⟨fe.handle.elim 0 fun b => b.number + 1, feStb0899Init o.w memory⟩ }

/-- The standard of `g_DvbsMode`. -/
def standardOf (dvbsMode : Nat) : CodingStandard :=
  if dvbsMode = 1 then .dvbs2 else if dvbsMode = 2 then .dss else .dvbs1

def requestOf (dvbsMode : Nat) (t : TuneParams) : SearchParams where
  frequency := t.frequency.toNat
  symbolRate := t.symbolRate.toNat
  searchRange := 40000000
  standard := standardOf dvbsMode

/-- `FE_STB0899_Search` of a handle, for all standards. -/
def searchAny (fuel : Nat) (q : SearchParams) (p : InternalParams) : Option (SearchResult × InternalParams) :=
  if q.Accepted ∧ q.standard = .dvbs2 then o.dvbs2 q (searchStartDvbs2 o.w q p) else search o.w fuel q p

/-- The passes of `FE_DVBS2_GetState` from the reading `k` on. -/
def dvbs2DataOk (w : Readings) : Nat → Nat → Bool
  | 0, _ => false
  | n + 1, k =>
    if w.read k % 2 ≠ 1 then dvbs2DataOk w n (k + 1)
    else if w.read (k + 1) % 2 ≠ 1 then dvbs2DataOk w n (k + 2)
    else if w.read (k + 2) % 2 ≠ 1 then dvbs2DataOk w n (k + 3)
    else true

/-- `Locked` of `FE_STB0899_GetSignalInfo`. -/
def signalLocked (standard : CodingStandard) (p : InternalParams) : Bool :=
  if standard = .dvbs2 then dvbs2DataOk o.w 10 p.reads else decide (o.w.read p.reads % 2 = 1)

/-- What `STB0899_Lock_Channel` makes of a search that has ended. -/
def lockResult (standard : CodingStandard) (p : InternalParams) : Int :=
  if chipFails o p then -1 else if signalLocked o standard p then 0 else -1

/-- `STB0899_Lock_Channel`, called with a handle; no result if the search does not end. -/
def lockChannel (fuel : Nat) (fe : Frontend) (b : Block) (t : TuneParams) : Logged Deref (Option Tuned) :=
  let q := requestOf fe.dvbsMode t
  match searchAny o fuel q b.params with
  | none => pure none
  | some (result, p) => do
    use (some b) fe
    pure (some ⟨lockResult o q.standard p, some result⟩)

/-- The call of `STB0899_Lock_Channel`, if there are parameters. -/
def tune (fuel : Nat) (fe : Frontend) (b : Block) : Option TuneParams → Logged Deref (Option Tuned)
  | none => pure (some ⟨-1, none⟩)
  | some t => lockChannel o fuel fe b t

/-- What follows it in `stb0899_set_frontend`; `pInlParams` is the copy of the handle from the top of the loop. The
first pass returns or breaks. -/
def afterTuning (pInlParams : Option Block) (fe : Frontend) : Option Tuned → Logged Deref (Option Tuned)
  | none => pure none
  | some r =>
    if r.ret = 0 then pure (some r)
    else do
      use pInlParams fe
      pure (some { r with ret := -1 })

def needsInit (fe : Frontend) : Logged Deref Bool :=
  match fe.handle with
  | none => pure true
  | some b => do
    use (some b) fe
    pure (chipFails o b.params)

def stb0899SetFrontend (fuel : Nat) (fe : Frontend) (params : Option TuneParams) : Logged Deref (Option Tuned) := do
  let pInlParams := fe.handle
  let fresh ← needsInit o fe
  let fe := if fresh then st0899Initialize o fe else fe
  match fe.handle with
  | none => pure (some ⟨-1, none⟩)
  | some b => do
    let tuned ← tune o fuel fe b params
    afterTuning pInlParams fe tuned

end Driver

def Deref.Current (d : Deref) : Prop := d.through = d.current ∧ d.current ≠ none

/-- No initialisation is needed, or it gets no block, or the search that follows it ends in a lock (or not at all). -/
def KeepsHandle (o : Outside) (fuel : Nat) (fe : Frontend) (params : Option TuneParams) : Prop :=
  (∃ b, fe.handle = some b ∧ chipFails o b.params = false) ∨ o.alloc = none ∨
    ∃ t, params = some t ∧ ∀ memory, o.alloc = some memory → ∀ result p,
      searchAny o fuel (requestOf fe.dvbsMode t) (feStb0899Init o.w memory) = some (result, p) →
        chipFails o p = false ∧ signalLocked o (standardOf fe.dvbsMode) p = true

section Derefs

variable {o : Outside} {fuel : Nat} {fe : Frontend} {b : Block} {params : Option TuneParams} {pointer : Option Block}

theorem all_use : Logged.All Deref.Current (use pointer fe) ↔
    pointer.map Block.number = fe.handle.map Block.number ∧ fe.handle.map Block.number ≠ none := Logged.all_one _ _

theorem all_use_self (h : fe.handle = some b) : Logged.All Deref.Current (use (some b) fe) := by
  rw [all_use,h]
  exact ⟨rfl,some_ne_none _⟩

theorem all_needsInit : Logged.All Deref.Current (needsInit o fe) := by
  rw [needsInit]
  split
  · exact Logged.all_pure _
  case h_2 b hhandle =>
    rw [Logged.all_bind]
    exact ⟨all_use_self hhandle,Logged.all_pure _⟩

theorem all_lockChannel (h : fe.handle = some b) (t : TuneParams) :
    Logged.All Deref.Current (lockChannel o fuel fe b t) := by
  rw [lockChannel]
  split
  · exact Logged.all_pure _
  · rw [Logged.all_bind]
    exact ⟨all_use_self h,Logged.all_pure _⟩

theorem all_tune (h : fe.handle = some b) : Logged.All Deref.Current (tune o fuel fe b params) := by
  cases params with
  | none => exact Logged.all_pure _
  | some t => exact all_lockChannel h t

theorem lockChannel_value (t : TuneParams) :
    (lockChannel o fuel fe b t).value = (searchAny o fuel (requestOf fe.dvbsMode t) b.params).map fun r =>
      ⟨lockResult o (standardOf fe.dvbsMode) r.2, some r.1⟩ := by
  rw [lockChannel]
  cases searchAny o fuel (requestOf fe.dvbsMode t) b.params with
  | none => rfl
  | some r => rfl

theorem all_afterTuning (h : fe.handle = some b) (tuned : Option Tuned) :
    Logged.All Deref.Current (afterTuning pointer fe tuned) ↔
      ∀ r, tuned = some r → r.ret = 0 ∨ pointer.map Block.number = some b.number := by
  cases tuned with
  | none => exact ⟨fun _ r hr => absurd hr.symm (some_ne_none r),fun _ => Logged.all_pure _⟩
  | some r =>
    rw [afterTuning]
    simp only [Option.some.injEq,forall_eq']
    by_cases hret : r.ret = 0
    · rw [if_pos hret]
      exact ⟨fun _ => Or.inl hret,fun _ => Logged.all_pure _⟩
    · rw [if_neg hret,Logged.all_bind,all_use,h]
      exact ⟨fun hpointer => Or.inr hpointer.1.1,fun hor =>
        ⟨⟨hor.resolve_left hret,some_ne_none _⟩,Logged.all_pure _⟩⟩

theorem lockResult_eq_zero_iff (standard : CodingStandard) (p : InternalParams) :
    lockResult o standard p = 0 ↔ chipFails o p = false ∧ signalLocked o standard p = true := by
  rw [lockResult]
  cases chipFails o p with
  | true => simp
  | false => cases signalLocked o standard p <;> simp

theorem initialize_number {b' : Block} (h : (st0899Initialize o fe).handle = some b') :
    fe.handle.map Block.number ≠ some b'.number := by
  obtain ⟨memory,-,rfl⟩ := map_eq_some_iff.mp h
  cases hhandle : fe.handle with
  | none => exact (some_ne_none _).symm
  | some b =>
    intro hsame
    have hnumber : b.number = b.number + 1 := Option.some.inj hsame
    omega

end Derefs

theorem needsInit_value : (needsInit o fe).value = fe.handle.elim true fun b => chipFails o b.params := by
  rw [needsInit]
  cases fe.handle with
  | none => rfl
  | some b => rfl

/-- Every use is through the current handle just when the handle is kept, or the copy of it is not needed. -/
theorem set_frontend_handle_iff (o : Outside) (fuel : Nat) (fe : Frontend) (params : Option TuneParams) :
    (∀ d ∈ (stb0899SetFrontend o fuel fe params).log, d.Current) ↔ KeepsHandle o fuel fe params := by
  change Logged.All Deref.Current _ ↔ _
  rw [stb0899SetFrontend, Logged.all_bind, and_iff_right all_needsInit, needsInit_value]
  by_cases hkept : ∃ b, fe.handle = some b ∧ chipFails o b.params = false
  · -- the copy is the handle
    refine ⟨fun _ => Or.inl hkept, fun _ => ?_⟩
    obtain ⟨b, hhandle, hfails⟩ := hkept
    simp only [hhandle, Option.elim_some, hfails, Bool.false_eq_true, if_false]
    rw [Logged.all_bind, all_afterTuning hhandle]
    exact ⟨all_tune hhandle, fun r _ => Or.inr rfl⟩
  · have hfresh : (fe.handle.elim true fun b => chipFails o b.params) = true := by
      cases hhandle : fe.handle with
      | none => rfl
      | some b => exact eq_true_of_ne_false fun hfails => hkept ⟨b, hhandle, hfails⟩
    simp only [hfresh, if_true]
    cases halloc : o.alloc with
    | none =>
      have hnone : (st0899Initialize o fe).handle = none := by rw [st0899Initialize, halloc, Option.map_none]
      rw [hnone]
      exact ⟨fun _ => Or.inr (Or.inl halloc), fun _ => Logged.all_pure _⟩
    | some memory =>
      obtain ⟨b, hhandle, hparams⟩ : ∃ b, (st0899Initialize o fe).handle = some b ∧
          b.params = feStb0899Init o.w memory := by
        rw [st0899Initialize, halloc]
        exact ⟨_, rfl, rfl⟩
      have hnumber := initialize_number hhandle
      rw [hhandle]
      dsimp only
      rw [Logged.all_bind, and_iff_right (all_tune hhandle), all_afterTuning hhandle, KeepsHandle, halloc]
      simp only [hkept, hnumber, or_false, false_or, Option.some.injEq, forall_eq', reduceCtorEq]
      cases params with
      | none => simp [tune]
      | some t =>
        simp only [tune, lockChannel_value, hparams, Option.some.injEq, exists_eq_left', Option.map_eq_some_iff]
        constructor
        · intro h result p hsearch
          exact (lockResult_eq_zero_iff _ p).mp (h _ ⟨(result, p), hsearch, rfl⟩)
        · rintro h r ⟨⟨result, p⟩, hsearch, rfl⟩
          exact (lockResult_eq_zero_iff _ p).mpr (h result p hsearch)

section Samples

/-- What `kmalloc` returns, as zeros. -/
def zeroMemory : InternalParams :=
  { quartz := 0, frequency := 0, baseFreq := 0, subRange := 0, tunerOffset := 0, tunerBw := 0, state := .noAgc1,
    symbolRate := 0, masterClock := 0, mclk := 0, searchRange := 0, rollOff := 0, derotFreq := 0, derotPercent := 0,
    derotStep := 0, direction := 0, subDir := 0, results := ⟨0, .noAgc1, 0, 0⟩, mdiv := 0, derotator := [], reads := 0 }

def setBits : Outside := ⟨⟨fun _ => 1, fun _ mdiv => mdiv, fun _ => false, fun _ => false⟩, some zeroMemory, fun _ _ => none⟩

def clearBits : Outside := ⟨⟨fun _ => 0, fun _ mdiv => mdiv, fun _ => false, fun _ => false⟩, some zeroMemory, fun _ _ => none⟩

/-- The first tuning, with a symbol rate that is not accepted: the copy of the handle is still zero. -/
theorem set_frontend_null :
    (stb0899SetFrontend clearBits 0 ⟨none, 0⟩ (some ⟨1000000, 0⟩)).log = [⟨some 0, some 0⟩, ⟨none, some 0⟩] ∧
      ¬ ∀ d ∈ (stb0899SetFrontend clearBits 0 ⟨none, 0⟩ (some ⟨1000000, 0⟩)).log, d.Current := by
  have hlog : (stb0899SetFrontend clearBits 0 ⟨none, 0⟩ (some ⟨1000000, 0⟩)).log =
      [⟨some 0, some 0⟩, ⟨none, some 0⟩] := by decide
  refine ⟨hlog, fun h => ?_⟩
  rw [hlog] at h
  exact absurd (h ⟨none, some 0⟩ (List.mem_cons_of_mem _ (List.mem_singleton_self _))).1 (by decide)

end Samples

end LinuxDvb.Stb0899
