import LinuxDvb.Frontends.Mb86a16.Frequency
import Mathlib.Data.List.Perm.Subperm

/-!
# The sweep of the MB86A16

Around the frequency that is asked for, the driver measures at offsets in both directions by turns. A direction is given
up when an offset behind its end has been programmed.
-/

namespace LinuxDvb.Mb86a16

/-! ## The range -/

structure SweepRange where
  fTP : Int
  smrt : Int
  foscStart : Int
  vmax : Int
  vmin : Int
  deriving DecidableEq

namespace SweepRange

def r (p : SweepRange) : Nat := vcoDevGet p.smrt

def clkmst (p : SweepRange) : Int := (smrtInfoGet p.smrt).clkmst

def swpOfs (p : SweepRange) : Int := p.smrt.tdiv 4

def frequencyAt (p : SweepRange) (v : Int) : Int := p.foscStart * 1000 + v * p.swpOfs

end SweepRange

def fcp : Int := 3000

def foscStart (fTP smrt : Int) : Int :=
  if vcoDevGet smrt = 1 then fTP
  else if fTP % 2 = 0 then fTP
  else if fTP + 1 > 2150 then fTP - 1
  else fTP + 1

/-- The loops that compute `vmax`, with `sign` 1 and the upper bound, and `vmin`, with -1 and the lower bound. -/
def boundLoop (fTP smrt sign bound : Int) : Nat → Int → Int → Option Int
  | 0, _, _ => none
  | fuel + 1, ftemp, v =>
    let ftemp := ftemp + sign * smrt.tdiv 4
    let v := v + sign
    if sign * (ftemp - bound) > 0 then some (v - sign)
    else if ftemp = bound ∨ sign * (ftemp - fTP * 1000) ≥ fcp + smrt.tdiv 4 then some v
    else boundLoop fTP smrt sign bound fuel ftemp v

def sweepRange (fuel : Nat) (freq symb : Int) : Option SweepRange := do
  let fTP := freq.tdiv 1000
  let smrt := symb.tdiv 1000
  let vmax ← boundLoop fTP smrt 1 2150000 fuel (foscStart fTP smrt * 1000) 0
  let vmin ← boundLoop fTP smrt (-1) 950000 fuel (foscStart fTP smrt * 1000) 0
  pure ⟨fTP, smrt, foscStart fTP smrt, vmax, vmin⟩

/-! ## The sweep -/

/-- The variables of the sweep; `readings` is `V` without its offset, and `programmed` are the offsets that the tuner
has been programmed for. -/
structure Sweep where
  i : Nat
  v : Int
  readings : Int → Int
  vmaxHis : Bool
  vminHis : Bool
  prevSwpFreq : List Int
  signal : Bool
  loop : Bool
  programmed : List Int

def Sweep.start : Sweep := ⟨0, 0, fun _ => -1, false, false, [], false, true, []⟩

def Sweep.record (s : Sweep) (sig1 : UInt8) : Sweep :=
  { s with readings := Function.update s.readings s.v sig1.toNat, programmed := s.programmed ++ [s.v] }

def swpFreqCalcuation (p : SweepRange) (s : Sweep) (sigmin : Int) (swp : SwpInfo) (sig1 : UInt8) : Int × UInt8 :=
  let V := fun k => s.readings (s.v + k)
  let found := fun k l => (swp.fOSC * 1000 + swp.afcexFreq + k * p.swpOfs, UInt8.ofInt (V l))
  if s.i % 2 = 1 ∧ s.v ≤ p.vmax then
    if s.v - 1 = p.vmin ∧ V 0 ≥ 0 ∧ V (-1) ≥ 0 ∧ V (-1) > V 0 ∧ V (-1) > sigmin then found (-1) (-1)
    else if s.v = p.vmax ∧ V 0 ≥ 0 ∧ V (-1) ≥ 0 ∧ V 0 > V (-1) ∧ V 0 > sigmin then found 0 0
    else if V 0 > 0 ∧ V (-1) > 0 ∧ V (-2) > 0 ∧ V (-3) > 0 ∧ V (-1) > V 0 ∧ V (-2) > V (-3) ∧
        (V (-1) > sigmin ∨ V (-2) > sigmin) then
      if V (-1) ≥ V (-2) then found (-1) (-1) else found (-2) (-2)
    else if s.v = p.vmax ∧ V 0 ≥ 0 ∧ V (-1) ≥ 0 ∧ V (-2) ≥ 0 ∧ V 0 > V (-2) ∧ V (-1) > V (-2) ∧
        (V 0 > sigmin ∨ V (-1) > sigmin) then
      if V 0 ≥ V (-1) then found 0 0 else found (-1) (-1)
    else (-1, sig1)
  else if s.i % 2 = 0 ∧ s.v ≥ p.vmin then
    if V 0 > 0 ∧ V 1 > 0 ∧ V 2 > 0 ∧ V 1 > V 0 ∧ V 1 > V 2 ∧ V 1 > sigmin then found 1 1
    -- here `SIG1` is taken from the offset itself
    else if s.v + 1 = p.vmax ∧ V 0 ≥ 0 ∧ V 1 ≥ 0 ∧ V 1 > V 0 ∧ V 1 > sigmin then found 1 0
    else if s.v = p.vmin ∧ V 0 > 0 ∧ V 1 > 0 ∧ V 2 > 0 ∧ V 0 > V 1 ∧ V 0 > V 2 ∧ V 0 > sigmin then found 0 0
    else if V 0 ≥ 0 ∧ V 1 ≥ 0 ∧ V 2 ≥ 0 ∧ V 3 ≥ 0 ∧ V 1 > V 0 ∧ V 2 > V 3 ∧ (V 1 > sigmin ∨ V 2 > sigmin) then
      if V 1 ≥ V 2 then found 1 1 else found 2 2
    else if V 0 ≥ 0 ∧ V 1 ≥ 0 ∧ V 2 ≥ 0 ∧ V 3 ≥ 0 ∧ V 0 > V 2 ∧ V 1 > V 2 ∧ V 0 > V 3 ∧ V 1 > V 3 ∧
        (V 0 > sigmin ∨ V 1 > sigmin) then
      if V 0 ≥ V 1 then found 0 0 else found 1 1
    else if s.v + 2 = p.vmin ∧ V 0 ≥ 0 ∧ V 1 ≥ 0 ∧ V 2 ≥ 0 ∧ V 1 > V 0 ∧ V 2 > V 0 ∧
        (V 1 > sigmin ∨ V 2 > sigmin) then
      if V 1 ≥ V 2 then found 1 1 else found 2 2
    else if p.vmax = 0 ∧ p.vmin = 0 ∧ V 0 > sigmin then (swp.fOSC * 1000, UInt8.ofInt (V 0))
    else (-1, sig1)
  else (-1, sig1)

/-- `m`, with `a` if it fails. -/
def orElse {α : Type} (m : Driven α) (a : α) : Driven α :=
  ⟨fun s =>
    match m.run s with
    | (.ok b, t) => (.ok b, t)
    | (.error _, t) => (.ok a, t)⟩

def srst (bus : Bus) : Driven Unit := writeOr bus eremoteio 0x0c 0x04

def cntmSet (bus : Bus) (timint1 timint2 cnext : UInt8) : Driven Unit :=
  writeOr bus eremoteio 0x36 ((timint1 <<< 4) ||| (timint2 <<< 2) ||| cnext)

/-- A pass of the loop in `signal_det`. -/
def signalProbe (bus : Bus) (smrtd : Int) : Driven UInt8 := do
  orElse (smrtSet bus smrtd (smrtInfoGet smrtd)) ()
  orElse (srst bus) ()
  readOr bus eremoteio 0x37

/-- `signal_det`, whether it returns 1. -/
def signalDet (bus : Bus) (smrt : Int) (sig : UInt8) : Driven Bool := do
  cntmSet bus (if sig > 45 then 2 else 3) 1 2
  let s0 ← signalProbe bus ((smrt * 98).tdiv 100)
  let s1 ← signalProbe bus smrt
  let s2 ← signalProbe bus ((smrt * 102).tdiv 100)
  cntmSet bus 0 1 2
  pure (decide (s1.toNat > s0.toNat * 112 / 100 ∧ s1.toNat > s2.toNat * 112 / 100))

section Pass

variable (bus : Bus) (p : SweepRange)

def sweepMeasure (s : Sweep) : Driven (SwpInfo × UInt8) := do
  let swp := swpInfoGet2 p.r (p.frequencyAt s.v) p.clkmst
  programFrequency bus p.smrt p.r swp
  called (srst bus)
  let sig1 ← readOr bus 1 0x37
  pure (swp, sig1)

/-- `signal_dupl` is 0, and the frequency is near the one that is asked for. -/
def Candidate (s : Sweep) (swpFreq : Int) : Prop :=
  (∀ prev ∈ s.prevSwpFreq, ¬ (prev - swpFreq).natAbs < (p.swpOfs * 3).tdiv 2) ∧ swpFreq > 0 ∧
    (swpFreq - p.fTP * 1000).natAbs < fcp + p.smrt.tdiv 6

instance (s : Sweep) (swpFreq : Int) : Decidable (Candidate p s swpFreq) := inferInstanceAs (Decidable (_ ∧ _))

def tryCandidate (s : Sweep) (swpFreq : Int) (sig1 : UInt8) : Driven Sweep := do
  programFrequency bus p.smrt p.r (swpInfoGet2 p.r swpFreq p.clkmst)
  let signal ← orElse (signalDet bus p.smrt sig1) false
  if signal then
    pure { s with prevSwpFreq := s.prevSwpFreq ++ [swpFreq], signal := true, loop := false }
  else
    called (smrtSet bus p.smrt (smrtInfoGet p.smrt))
    pure { s with prevSwpFreq := s.prevSwpFreq ++ [swpFreq], signal := false }

def offsetAt (i : Nat) : Int := if i % 2 = 1 then ((i : Int) + 1) / 2 else -(i : Int) / 2

def sweepNext (s : Sweep) : Sweep :=
  let vmaxHis := s.vmaxHis || decide (s.v > p.vmax)
  let vminHis := s.vminHis || decide (s.v < p.vmin)
  let i := s.i + 1
  let i := if i % 2 = 1 ∧ vmaxHis then i + 1 else i
  let i := if i % 2 = 0 ∧ vminHis then i + 1 else i
  { s with vmaxHis, vminHis, i, v := offsetAt i, loop := s.loop && !(vmaxHis && vminHis) }

def sweepPass (s : Sweep) : Driven Sweep := do
  let (swp, sig1) ← sweepMeasure bus p s
  let s := s.record sig1
  let (swpFreq, sig1) := swpFreqCalcuation p s 25 swp sig1
  let s ← if Candidate p s swpFreq then tryCandidate bus p s swpFreq sig1 else pure s
  pure (sweepNext p s)

def sweepLoop : Nat → Sweep → Driven Sweep
  | 0, s => pure s
  | passes + 1, s => do
    if s.loop then
      let s ← sweepPass bus p s
      sweepLoop passes s
    else pure s

/-- What `swp_freq_calcuation` returns in a pass, or -1 if the pass does not come to it. -/
def swpFreqIn (s : Sweep) (t : Chip) : Int :=
  match (sweepMeasure bus p s).run t with
  | (.ok (swp, sig1), _) => (swpFreqCalcuation p (s.record sig1) 25 swp sig1).1
  | (.error _, _) => -1

/-- In the first passes, `swp_freq_calcuation` returns -1. -/
def NoCandidate : Nat → Sweep → Chip → Prop
  | 0, _, _ => True
  | passes + 1, s, t =>
    s.loop = true → swpFreqIn bus p s t = -1 ∧
      ∀ s' t', (sweepPass bus p s).run t = (.ok s', t') → NoCandidate passes s' t'

/-- The sweep ends, and until then it programs each offset of the range once and no other one, and no frequency out of
the band. -/
def SweepCovers (t : Chip) : Prop :=
  ∃ passes s t', (sweepLoop bus p passes .start).run t = (.ok s, t') ∧ s.loop = false ∧ s.programmed.Nodup ∧
    (∀ v, v ∈ s.programmed ↔ p.vmin ≤ v ∧ v ≤ p.vmax) ∧
    ∀ v ∈ s.programmed, 950000 ≤ p.frequencyAt v ∧ p.frequencyAt v ≤ 2150000

end Pass

section Passes

variable {bus : Bus} {p : SweepRange} {s : Sweep} {t : Chip}

theorem sweepMeasure_apply (hacks : ∀ n, bus.acks n = true) (p : SweepRange) (s : Sweep) (t : Chip) :
    ∃ swp n t', (sweepMeasure bus p s).run t = (.ok (swp, bus.data n 0x37), t') := by
  obtain ⟨u,hrun,-⟩ := programFrequency_apply (s := t) hacks p.smrt p.r
    (swpInfoGet2 p.r (p.frequencyAt s.v) p.clkmst)
  have hsrst : (called (srst bus)).run u = (.ok (), u.write 0x0c 0x04) := called_of_ok (writeOr_apply hacks)
  refine ⟨swpInfoGet2 p.r (p.frequencyAt s.v) p.clkmst,(u.write 0x0c 0x04).transfers,(u.write 0x0c 0x04).tick,?_⟩
  rw [sweepMeasure,Driven.run_bind hrun,Driven.run_bind hsrst,Driven.run_bind (readOr_apply hacks),Driven.run_pure]

theorem sweepPass_apply (hacks : ∀ n, bus.acks n = true) (hno : swpFreqIn bus p s t = -1) :
    ∃ n t', (sweepPass bus p s).run t = (.ok (sweepNext p (s.record (bus.data n 0x37))), t') := by
  obtain ⟨swp,n,t',hrun⟩ := sweepMeasure_apply hacks p s t
  rw [swpFreqIn,hrun] at hno
  have hnone : ∀ u : Sweep, ¬ Candidate p u (-1) := fun u h => absurd h.2.1 (by decide)
  refine ⟨n,t',?_⟩
  rw [sweepPass,Driven.run_bind hrun]
  dsimp only at hno ⊢
  rw [hno,if_neg (hnone _),Driven.run_bind (Driven.run_pure _ _),Driven.run_pure]

theorem swpFreqCalcuation_weak {sigmin : Int} (h : ∀ v, s.readings v ≤ sigmin) (swp : SwpInfo) (sig1 : UInt8) :
    (swpFreqCalcuation p s sigmin swp sig1).1 = -1 := by
  have hV : ∀ k, ¬ s.readings (s.v + k) > sigmin := fun k => Int.not_lt.mpr (h _)
  simp only [swpFreqCalcuation,hV,and_false,or_self,if_false,ite_self]

theorem noCandidate_of_weak (hacks : ∀ n, bus.acks n = true) (hweak : ∀ n, (bus.data n 0x37).toNat ≤ 25)
    (h : ∀ v, s.readings v ≤ 25) (passes : Nat) : NoCandidate bus p passes s t := by
  have hrecord : ∀ (u : Sweep) (n : Nat), (∀ v, u.readings v ≤ 25) →
      ∀ v, (u.record (bus.data n 0x37)).readings v ≤ 25 := by
    intro u n hu v
    simp only [Sweep.record,Function.update_apply]
    split
    · exact_mod_cast hweak n
    · exact hu v
  induction passes generalizing s t with
  | zero => trivial
  | succ passes ih =>
    intro hloop
    have hfreq : swpFreqIn bus p s t = -1 := by
      obtain ⟨swp,n,t',hrun⟩ := sweepMeasure_apply hacks p s t
      rw [swpFreqIn,hrun]
      exact swpFreqCalcuation_weak (hrecord s n h) swp _
    obtain ⟨n,t',hpass⟩ := sweepPass_apply hacks hfreq
    refine ⟨hfreq,fun s' u hs' => ?_⟩
    rw [hpass] at hs'
    obtain ⟨hs',-⟩ := Prod.mk.inj hs'
    rw [← Except.ok.inj hs']
    exact ih (hrecord s n h)

end Passes

/-! ## The order of the offsets -/

section Order

variable {p : SweepRange} {s : Sweep} {i : Nat} {v : Int}

/-- The offsets behind the first values of the counter, up to one behind each end of the range. -/
def swept (p : SweepRange) (i : Nat) : List Int :=
  ((List.range i).map offsetAt).filter fun v => p.vmin - 1 ≤ v ∧ v ≤ p.vmax + 1

theorem offsetAt_injective : Function.Injective offsetAt := by
  intro i k h
  simp only [offsetAt] at h
  split_ifs at h <;> omega

theorem nodup_swept : (swept p i).Nodup := (List.nodup_range.map offsetAt_injective).filter _

theorem swept_succ_of_in (h : p.vmin - 1 ≤ offsetAt i ∧ offsetAt i ≤ p.vmax + 1) :
    swept p (i + 1) = swept p i ++ [offsetAt i] := by
  simp only [swept,List.range_succ,map_append,filter_append,map_cons,map_nil]
  rw [List.filter_cons,if_pos (decide_eq_true h),List.filter_nil]

theorem swept_succ_of_out (h : ¬ (p.vmin - 1 ≤ offsetAt i ∧ offsetAt i ≤ p.vmax + 1)) :
    swept p (i + 1) = swept p i := by
  simp only [swept,List.range_succ,map_append,filter_append,map_cons,map_nil]
  rw [List.filter_cons,if_neg (mt of_decide_eq_true h),List.filter_nil,append_nil]

def Swept (p : SweepRange) (i : Nat) : Prop := 2 * p.vmax + 1 < i ∧ 2 - 2 * p.vmin < i

theorem mem_swept (h : Swept p i) : v ∈ swept p i ↔ p.vmin - 1 ≤ v ∧ v ≤ p.vmax + 1 := by
  rw [swept,mem_filter,decide_eq_true_eq,and_iff_right_of_imp]
  intro hv
  obtain ⟨hmax,hmin⟩ := h
  rw [mem_map]
  rcases Int.lt_or_le 0 v with hpos | hneg
  · refine ⟨(2 * v - 1).toNat,mem_range.mpr (by omega),?_⟩
    rw [offsetAt,if_pos (by omega)]
    omega
  · refine ⟨(-2 * v).toNat,mem_range.mpr (by omega),?_⟩
    rw [offsetAt,if_neg (by omega)]
    omega

/-- Before a pass, the offsets of the counter so far have been programmed. -/
structure Sweeping (p : SweepRange) (s : Sweep) : Prop where
  programmed : s.programmed = swept p s.i
  vmaxHis : s.vmaxHis = decide (2 * p.vmax + 1 < s.i)
  vminHis : s.vminHis = decide (2 - 2 * p.vmin < s.i)
  loop : s.loop = true ↔ ¬ Swept p s.i ∧ s.signal = false
  offset : s.loop = true → s.v = offsetAt s.i ∧ p.vmin - 1 ≤ offsetAt s.i ∧ offsetAt s.i ≤ p.vmax + 1

theorem Sweeping.start (hmin : p.vmin ≤ 0) (hmax : 0 ≤ p.vmax) : Sweeping p .start := by
  refine ⟨rfl,?_,?_,?_,fun _ => ⟨rfl,?_⟩⟩
  · exact (decide_eq_false (by simp only [Sweep.start]; omega)).symm
  · exact (decide_eq_false (by simp only [Sweep.start]; omega)).symm
  · simp only [Sweep.start,Swept,true_iff,and_true]
    omega
  · simp only [Sweep.start,offsetAt]
    omega

/-- What a pass does up to its end: the offset is programmed, and a signal ends the loop. -/
structure Tried (s u : Sweep) : Prop where
  i : u.i = s.i
  v : u.v = s.v
  vmaxHis : u.vmaxHis = s.vmaxHis
  vminHis : u.vminHis = s.vminHis
  programmed : u.programmed = s.programmed ++ [s.v]
  loop : u.loop = true ↔ u.signal = false

theorem Sweeping.record (h : Sweeping p s) (hloop : s.loop = true) (sig1 : UInt8) : Tried s (s.record sig1) :=
  ⟨rfl, rfl, rfl, rfl, rfl, iff_of_true hloop (h.loop.mp hloop).2⟩

theorem sweepNext_eq (h : Sweeping p s) (hloop : s.loop = true) {u : Sweep} (hu : Tried s u) : sweepNext p u =
      let upper := 2 * p.vmax < s.i
      let lower := 1 - 2 * p.vmin < s.i
      let i := if (s.i + 1) % 2 = 1 ∧ upper then s.i + 2 else s.i + 1
      let i := if i % 2 = 0 ∧ lower then i + 1 else i
      { u with
        vmaxHis := decide upper
        vminHis := decide lower
        i
        v := offsetAt i
        loop := u.loop && !(decide upper && decide lower) } := by
  obtain ⟨hv,hin⟩ := h.offset hloop
  have hupper : (s.vmaxHis || decide (s.v > p.vmax)) = decide (2 * p.vmax < s.i) := by
    rw [h.vmaxHis,hv,← Bool.decide_or,decide_eq_decide]
    simp only [offsetAt] at hin ⊢
    split at hin <;> omega
  have hlower : (s.vminHis || decide (s.v < p.vmin)) = decide (1 - 2 * p.vmin < s.i) := by
    rw [h.vminHis,hv,← Bool.decide_or,decide_eq_decide]
    simp only [offsetAt] at hin ⊢
    split at hin <;> omega
  simp only [sweepNext,hu.i,hu.v,hu.vmaxHis,hu.vminHis,hupper,hlower,decide_eq_true_eq]

theorem Sweeping.next (h : Sweeping p s) (hmin : p.vmin ≤ 0) (hmax : 0 ≤ p.vmax) (hloop : s.loop = true) {u : Sweep}
    (hu : Tried s u) : Sweeping p (sweepNext p u) ∧ s.i < (sweepNext p u).i := by
  obtain ⟨hv,hin⟩ := h.offset hloop
  have hprogrammed : u.programmed = swept p (s.i + 1) := by
    rw [hu.programmed,swept_succ_of_in hin,h.programmed,hv]
  have hskip : ∀ k, s.i < k → (k % 2 = 1 ∧ 2 * p.vmax < s.i ∨ k % 2 = 0 ∧ 1 - 2 * p.vmin < s.i) →
      swept p (k + 1) = swept p k := by
    intro k hk hflag
    refine swept_succ_of_out ?_
    simp only [offsetAt]
    split <;> omega
  rw [sweepNext_eq h hloop hu]
  dsimp only
  generalize hi : (if (s.i + 1) % 2 = 1 ∧ 2 * p.vmax < (s.i : Int) then s.i + 2 else s.i + 1) = i
  generalize hk : (if i % 2 = 0 ∧ 1 - 2 * p.vmin < (s.i : Int) then i + 1 else i) = k
  have hswept : swept p k = swept p (s.i + 1) := by
    have hfirst : swept p i = swept p (s.i + 1) := by
      split at hi
      case isTrue hflag =>
        rw [← hi]
        exact hskip (s.i + 1) (by omega) (Or.inl hflag)
      case isFalse => rw [← hi]
    split at hk
    case isTrue hflag =>
      rw [← hk,hskip i (by split at hi <;> omega) (Or.inr hflag),hfirst]
    case isFalse => rw [← hk,hfirst]
  have hle : s.i + 1 ≤ i ∧ i ≤ s.i + 2 := by split at hi <;> omega
  have hle' : i ≤ k ∧ k ≤ i + 1 := by split at hk <;> omega
  refine ⟨⟨by rw [hswept]; exact hprogrammed,?_,?_,?_,?_⟩,by omega⟩
  · dsimp only
    rw [decide_eq_decide]
    split at hi <;> split at hk <;> omega
  · dsimp only
    rw [decide_eq_decide]
    split at hi <;> split at hk <;> omega
  · dsimp only
    rw [Bool.and_eq_true,hu.loop,and_comm]
    refine and_congr_left' ?_
    simp only [Swept,Bool.not_eq_true',Bool.and_eq_false_iff,decide_eq_false_iff_not]
    split at hi <;> split at hk <;> omega
  · intro hagain
    dsimp only at hagain ⊢
    simp only [Bool.and_eq_true,Bool.not_eq_true',Bool.and_eq_false_iff,decide_eq_false_iff_not] at hagain
    refine ⟨rfl,?_⟩
    simp only [offsetAt]
    split at hi <;> split at hk <;> split <;> omega

end Order

/-! ## The whole sweep -/

section Range

variable {fTP smrt sign bound : Int}

theorem boundLoop_spec (hsign : sign = 1 ∨ sign = -1) (hofs : 1 ≤ smrt.tdiv 4) {fuel : Nat} {ftemp v : Int}
    (hroom : 0 ≤ sign * (bound - ftemp)) (hfuel : sign * (bound - ftemp) < fuel) :
    ∃ n : Nat, boundLoop fTP smrt sign bound fuel ftemp v = some (v + sign * n) ∧
      n * smrt.tdiv 4 ≤ sign * (bound - ftemp) ∧
      (n ≤ 1 ∨ (n - 1) * smrt.tdiv 4 + sign * (ftemp - fTP * 1000) < fcp + smrt.tdiv 4) := by
  induction fuel generalizing ftemp v with
  | zero => omega
  | succ fuel ih =>
    have hstep : sign * (bound - (ftemp + sign * smrt.tdiv 4)) = sign * (bound - ftemp) - smrt.tdiv 4 := by
      rcases hsign with rfl | rfl <;> ring
    have hbehind : sign * (ftemp + sign * smrt.tdiv 4 - bound) = smrt.tdiv 4 - sign * (bound - ftemp) := by
      rcases hsign with rfl | rfl <;> ring
    have hfar : sign * (ftemp + sign * smrt.tdiv 4 - fTP * 1000) = smrt.tdiv 4 + sign * (ftemp - fTP * 1000) := by
      rcases hsign with rfl | rfl <;> ring
    simp only [boundLoop]
    split
    · refine ⟨0,congrArg some ?_,?_,Or.inl (Nat.zero_le 1)⟩
      · simp
      · simpa using hroom
    · split
      · refine ⟨1,congrArg some ?_,?_,Or.inl (Nat.le_refl 1)⟩
        · simp
        · rw [Nat.cast_one,one_mul]
          omega
      case isFalse hnear =>
        obtain ⟨n,hn,hle,hlast⟩ := ih (by omega : 0 ≤ sign * (bound - (ftemp + sign * smrt.tdiv 4))) (by omega)
        refine ⟨n + 1,hn.trans (congrArg some ?_),?_,?_⟩
        · rw [Nat.cast_succ]
          ring
        · rw [Nat.cast_succ,add_mul,one_mul]
          omega
        · have hone : ((n : Int) - 1) * smrt.tdiv 4 = n * smrt.tdiv 4 - smrt.tdiv 4 := by ring
          rw [Nat.cast_succ,Int.add_sub_cancel]
          rcases Nat.lt_or_ge 1 n with hmore | hfew
          · rcases hlast with hlast | hlast
            · omega
            · omega
          · obtain rfl | rfl : n = 0 ∨ n = 1 := by omega
            · exact Or.inl (Nat.le_refl 1)
            · refine Or.inr ?_
              rw [Nat.cast_one,one_mul]
              omega

theorem steps_le {n : Nat} {ofs start : Int} (h : n ≤ 1 ∨ (n - 1) * ofs + start < fcp + ofs)
    (hofs : 250 ≤ ofs ∧ 0 ≤ start ∨ 2343 ≤ ofs ∧ -1000 ≤ start) : n ≤ 13 := by
  by_contra hmany
  have hle : 13 * ofs ≤ (n - 1) * ofs := Int.mul_le_mul_of_nonneg_right (by omega) (by omega)
  rw [fcp] at h
  omega

theorem sweepRange_spec {freq symb : Int} (hfreq : 950000 ≤ freq ∧ freq ≤ 2150000) (hsymb : 1000000 ≤ symb) {fuel : Nat}
    (hfuel : 1200000 < fuel) :
    ∃ p, sweepRange fuel freq symb = some p ∧ p.vmin ≤ 0 ∧ 0 ≤ p.vmax ∧
      (950000 ≤ p.frequencyAt p.vmin ∧ p.frequencyAt p.vmax ≤ 2150000) ∧
      p.smrt = symb.tdiv 1000 ∧ -13 ≤ p.vmin ∧ p.vmax ≤ 13 := by
  have hfTP : 950 ≤ freq.tdiv 1000 ∧ freq.tdiv 1000 ≤ 2150 := by
    rw [Int.tdiv_eq_ediv_of_nonneg (by omega)]
    omega
  have hsmrt : 1000 ≤ symb.tdiv 1000 := by
    rw [Int.tdiv_eq_ediv_of_nonneg (by omega)]
    omega
  rw [sweepRange]
  generalize symb.tdiv 1000 = smrt at hsmrt
  generalize freq.tdiv 1000 = fTP at hfTP
  have hofs : 250 ≤ smrt.tdiv 4 ∧ (9375 < smrt → 2343 ≤ smrt.tdiv 4) := by
    rw [Int.tdiv_eq_ediv_of_nonneg (by omega)]
    omega
  have hstart : (950 ≤ foscStart fTP smrt ∧ foscStart fTP smrt ≤ 2150) ∧
      (foscStart fTP smrt = fTP ∨ 9375 < smrt ∧ fTP - 1 ≤ foscStart fTP smrt ∧ foscStart fTP smrt ≤ fTP + 1) := by
    rw [foscStart,vcoDevGet]
    split_ifs <;> omega
  generalize hfosc : foscStart fTP smrt = start at hstart
  obtain ⟨n,hn,hupper,hcount⟩ : ∃ n : Nat, boundLoop fTP smrt 1 2150000 fuel (start * 1000) 0 =
      some (0 + 1 * (n : Int)) ∧ _ := boundLoop_spec (Or.inl rfl) (by omega) (by omega) (by omega)
  obtain ⟨m,hm,hlower,hcount'⟩ : ∃ m : Nat, boundLoop fTP smrt (-1) 950000 fuel (start * 1000) 0 =
      some (0 + -1 * (m : Int)) ∧ _ := boundLoop_spec (Or.inr rfl) (by omega) (by omega) (by omega)
  have hmax := steps_le hcount (by omega)
  have hmin := steps_le hcount' (by omega)
  refine ⟨⟨fTP,smrt,start,0 + 1 * (n : Int),0 + -1 * (m : Int)⟩,?_,by dsimp only; omega,by dsimp only; omega,
    ⟨?_,?_⟩,rfl,by dsimp only; omega,by dsimp only; omega⟩
  · simp only [hn,hm,bind_eq_bind,bind_some,pure_def]
  · simp only [SweepRange.frequencyAt,SweepRange.swpOfs,zero_add,neg_mul,one_mul]
    omega
  · simp only [SweepRange.frequencyAt,SweepRange.swpOfs,zero_add,one_mul]
    omega

end Range

section Run

variable {bus : Bus} {p : SweepRange} {s : Sweep} {t : Chip}

theorem sweepLoop_apply (hacks : ∀ n, bus.acks n = true) (hmin : p.vmin ≤ 0) (hmax : 0 ≤ p.vmax) (passes : Nat)
    (h : Sweeping p s) (hsignal : s.signal = false) (hno : NoCandidate bus p passes s t) :
    ∃ s' t', (sweepLoop bus p passes s).run t = (.ok s', t') ∧ Sweeping p s' ∧ s'.signal = false ∧
      (Swept p (s.i + passes) → s'.loop = false) := by
  induction passes generalizing s t with
  | zero =>
    refine ⟨s,t,rfl,h,hsignal,fun hswept => ?_⟩
    rw [← Bool.not_eq_true,h.loop]
    exact fun hagain => hagain.1 hswept
  | succ passes ih =>
    rw [sweepLoop]
    split
    case isTrue hloop =>
      obtain ⟨hfreq,hrest⟩ := hno hloop
      obtain ⟨n,t',hpass⟩ := sweepPass_apply hacks hfreq
      obtain ⟨hnext,hlt⟩ := h.next hmin hmax hloop (h.record hloop (bus.data n 0x37))
      obtain ⟨s',u,hrun,hs',hsignal',hend⟩ := ih hnext hsignal (hrest _ _ hpass)
      refine ⟨s',u,?_,hs',hsignal',fun hswept => hend ?_⟩
      · rw [Driven.run_bind hpass,hrun]
      · obtain ⟨hupper,hlower⟩ := hswept
        exact ⟨by omega,by omega⟩
    case isFalse hloop => exact ⟨s,t,rfl,h,hsignal,fun _ => Bool.not_eq_true _ ▸ hloop⟩

theorem sweep_programs (hacks : ∀ n, bus.acks n = true) (hmin : p.vmin ≤ 0) (hmax : 0 ≤ p.vmax)
    (hno : ∀ passes, NoCandidate bus p passes .start t) :
    (∃ passes s t', (sweepLoop bus p passes .start).run t = (.ok s, t') ∧ s.loop = false) ∧
      ∀ passes s t', (sweepLoop bus p passes .start).run t = (.ok s, t') → s.loop = false →
        s.programmed.Nodup ∧ ∀ v, v ∈ s.programmed ↔ p.vmin - 1 ≤ v ∧ v ≤ p.vmax + 1 := by
  constructor
  · obtain ⟨s,t',hrun,-,-,hend⟩ := sweepLoop_apply hacks hmin hmax
      ((2 * p.vmax + 1).toNat + (2 - 2 * p.vmin).toNat + 1) (.start hmin hmax) rfl (hno _)
    refine ⟨_,s,t',hrun,hend ⟨?_,?_⟩⟩
    · simp only [Sweep.start]
      omega
    · simp only [Sweep.start]
      omega
  · intro passes s t' hrun hend
    obtain ⟨s',u,hrun',hs',hsignal,-⟩ := sweepLoop_apply hacks hmin hmax passes (.start hmin hmax) rfl (hno passes)
    rw [hrun'] at hrun
    obtain ⟨hs,-⟩ := Prod.mk.inj hrun
    obtain rfl := Except.ok.inj hs
    have hswept : Swept p s'.i := by
      by_contra hagain
      rw [hs'.loop.mpr ⟨hagain,hsignal⟩] at hend
      exact Bool.noConfusion hend
    rw [hs'.programmed]
    exact ⟨nodup_swept,fun v => mem_swept hswept⟩

theorem not_sweepCovers (hacks : ∀ n, bus.acks n = true) (hmin : p.vmin ≤ 0) (hmax : 0 ≤ p.vmax)
    (hno : ∀ passes, NoCandidate bus p passes .start t) : ¬ SweepCovers bus p t := by
  rintro ⟨passes,s,t',hrun,hend,-,hrange,-⟩
  obtain ⟨-,hprogrammed⟩ := (sweep_programs hacks hmin hmax hno).2 passes s t' hrun hend
  have hbehind := (hrange (p.vmax + 1)).mp ((hprogrammed _).mpr ⟨by omega,Int.le_refl _⟩)
  omega

theorem Driven.exists_of_bind {α β : Type} {m : Driven α} {rest : α → Driven β} {b : β} {t' : Chip}
    (h : (m >>= rest).run t = (.ok b, t')) : ∃ a u, m.run t = (.ok a, u) ∧ (rest a).run u = (.ok b, t') := by
  change (match m.run t with
    | (.ok a, u) => (rest a).run u
    | (.error e, u) => (.error e, u)) = _ at h
  split at h
  case h_1 a u hm => exact ⟨a,u,hm,h⟩
  case h_2 => cases h

theorem tryCandidate_ok {u : Sweep} {f : Int} {sig1 : UInt8} {t' : Chip} (hloop : s.loop = true)
    (h : (tryCandidate bus p s f sig1).run t = (.ok u, t')) :
    ∃ signal loop, u = { s with prevSwpFreq := s.prevSwpFreq ++ [f], signal, loop } ∧ (loop = true ↔ signal = false) := by
  obtain ⟨-,t₁,-,h⟩ := Driven.exists_of_bind h
  obtain ⟨signal,t₂,-,h⟩ := Driven.exists_of_bind h
  split at h
  · cases h
    exact ⟨true,false,rfl,iff_of_false Bool.false_ne_true Bool.false_ne_true.symm⟩
  · obtain ⟨-,t₃,-,h⟩ := Driven.exists_of_bind h
    cases h
    exact ⟨false,s.loop,rfl,iff_of_true hloop rfl⟩

/-- A pass of any sweep, also with candidates. -/
theorem Sweeping.pass_ok (h : Sweeping p s) (hloop : s.loop = true) {s' : Sweep} {t' : Chip}
    (hrun : (sweepPass bus p s).run t = (.ok s', t')) :
    ∃ u, s' = sweepNext p u ∧ Tried s u ∧
      (u.prevSwpFreq = s.prevSwpFreq ∨ ∃ f, Candidate p s f ∧ u.prevSwpFreq = s.prevSwpFreq ++ [f]) := by
  obtain ⟨⟨swp,sig1⟩,t₁,-,hrun⟩ := Driven.exists_of_bind hrun
  have hrecord := h.record hloop sig1
  dsimp only at hrun
  split at hrun
  case isTrue hcandidate =>
    obtain ⟨u,t₂,htry,hrun⟩ := Driven.exists_of_bind hrun
    cases hrun
    obtain ⟨signal,loop,rfl,hends⟩ := tryCandidate_ok (s := s.record sig1) hloop htry
    exact ⟨_,rfl,{ hrecord with loop := hends },Or.inr ⟨_,hcandidate,rfl⟩⟩
  case isFalse =>
    cases hrun
    exact ⟨_,rfl,hrecord,Or.inl rfl⟩

/-- The candidates so far are near the frequency that is asked for, and apart from each other. -/
structure Spaced (p : SweepRange) (prev : List Int) : Prop where
  near : ∀ f ∈ prev, (f - p.fTP * 1000).natAbs < fcp + p.smrt.tdiv 6
  apart : prev.Pairwise fun f g => ¬ (f - g).natAbs < (p.swpOfs * 3).tdiv 2

theorem Spaced.snoc {f : Int} (h : Spaced p s.prevSwpFreq) (hf : Candidate p s f) : Spaced p (s.prevSwpFreq ++ [f]) := by
  constructor
  · intro g hg
    rcases mem_append.mp hg with hg | hg
    · exact h.near g hg
    · rw [mem_singleton.mp hg]
      exact hf.2.2
  · refine List.pairwise_append.mpr ⟨h.apart,List.pairwise_singleton _ _,fun g hg f' hf' => ?_⟩
    rw [mem_singleton.mp hf']
    exact hf.1 g hg

/-- Candidates that are apart lie in different pieces of the window, and there are twenty pieces. -/
theorem Spaced.length_le {prev : List Int} (h : Spaced p prev) (hsmrt : 1000 ≤ p.smrt) : prev.length ≤ 20 := by
  have hd : 2 * (fcp + p.smrt.tdiv 6) ≤ 20 * (p.swpOfs * 3).tdiv 2 ∧ 0 < (p.swpOfs * 3).tdiv 2 := by
    have hofs : p.smrt.tdiv 4 = p.smrt / 4 := Int.tdiv_eq_ediv_of_nonneg (by omega)
    rw [SweepRange.swpOfs,fcp,hofs,Int.tdiv_eq_ediv_of_nonneg (by omega : 0 ≤ p.smrt),
      Int.tdiv_eq_ediv_of_nonneg (by omega)]
    omega
  obtain ⟨hnear,hapart⟩ := h
  generalize fcp + p.smrt.tdiv 6 = w at hd hnear
  generalize (p.swpOfs * 3).tdiv 2 = d at hd hapart
  let piece : Int → Nat := fun f => ((f - p.fTP * 1000 + w) / d).toNat
  have hpiece : ∀ f ∈ prev, 0 ≤ (f - p.fTP * 1000 + w) / d ∧ (f - p.fTP * 1000 + w) / d < 20 := by
    intro f hf
    have hin := hnear f hf
    exact ⟨Int.ediv_nonneg (by omega) (by omega),Int.ediv_lt_of_lt_mul hd.2 (by omega)⟩
  have hnodup : (prev.map piece).Nodup := by
    refine List.pairwise_map.mpr (hapart.imp_of_mem fun {f g} hf hg hfar heq => hfar ?_)
    have hsame : (f - p.fTP * 1000 + w) / d = (g - p.fTP * 1000 + w) / d := by
      have := hpiece f hf
      have := hpiece g hg
      dsimp only [piece] at heq
      omega
    have hfirst := Int.mul_ediv_add_emod (f - p.fTP * 1000 + w) d
    have hsecond := Int.mul_ediv_add_emod (g - p.fTP * 1000 + w) d
    have := Int.emod_nonneg (f - p.fTP * 1000 + w) (Int.ne_of_gt hd.2)
    have := Int.emod_lt_of_pos (f - p.fTP * 1000 + w) hd.2
    have := Int.emod_nonneg (g - p.fTP * 1000 + w) (Int.ne_of_gt hd.2)
    have := Int.emod_lt_of_pos (g - p.fTP * 1000 + w) hd.2
    rw [hsame] at hfirst
    omega
  have hsub : prev.map piece ⊆ List.range 20 := by
    intro k hk
    obtain ⟨f,hf,rfl⟩ := mem_map.mp hk
    have := hpiece f hf
    exact mem_range.mpr (by dsimp only [piece]; omega)
  have hle := (hnodup.subperm hsub).length_le
  rwa [length_map,length_range] at hle

theorem sweepLoop_bounded (hmin : p.vmin ≤ 0) (hmax : 0 ≤ p.vmax) {passes : Nat} {s' : Sweep} {t' : Chip}
    (h : Sweeping p s) (hspaced : Spaced p s.prevSwpFreq) (hrun : (sweepLoop bus p passes s).run t = (.ok s', t')) :
    Sweeping p s' ∧ Spaced p s'.prevSwpFreq ∧ (s'.loop = true → s.i + passes ≤ s'.i) := by
  induction passes generalizing s t with
  | zero =>
    cases hrun
    exact ⟨h,hspaced,fun _ => Nat.le_refl _⟩
  | succ passes ih =>
    rw [sweepLoop] at hrun
    split at hrun
    case isTrue hloop =>
      obtain ⟨_,t₁,hpass,hrun⟩ := Driven.exists_of_bind hrun
      obtain ⟨u,rfl,htried,hprev⟩ := h.pass_ok hloop hpass
      obtain ⟨hnext,hlt⟩ := h.next hmin hmax hloop htried
      have hspaced' : Spaced p u.prevSwpFreq := by
        rcases hprev with hprev | ⟨f,hf,hprev⟩
        · exact hprev ▸ hspaced
        · exact hprev ▸ hspaced.snoc hf
      obtain ⟨hs',hprev',hcount⟩ := ih hnext hspaced' hrun
      refine ⟨hs',hprev',fun hloop' => ?_⟩
      have := hcount hloop'
      omega
    case isFalse hloop =>
      cases hrun
      exact ⟨h,hspaced,fun hloop' => absurd hloop' hloop⟩

end Run

/-- A sweep without candidates ends, but it programs the offsets next to both ends of the range, too. -/
theorem sweep_leaves_range (freq symb : Int) (hfreq : 950000 ≤ freq ∧ freq ≤ 2150000)
    (hsymb : 1000000 ≤ symb ∧ symb ≤ 45000000) (fuel : Nat) (hfuel : 1200000 < fuel) :
    ∃ p, sweepRange fuel freq symb = some p ∧ 950000 ≤ p.frequencyAt p.vmin ∧ p.frequencyAt p.vmax ≤ 2150000 ∧
      ∀ bus t, (∀ n, bus.acks n = true) → (∀ passes, NoCandidate bus p passes .start t) →
        (∃ passes s t', (sweepLoop bus p passes .start).run t = (.ok s, t') ∧ s.loop = false ∧ s.programmed.Nodup ∧
          ∀ v, v ∈ s.programmed ↔ p.vmin - 1 ≤ v ∧ v ≤ p.vmax + 1) ∧ ¬ SweepCovers bus p t := by
  obtain ⟨p, hrange, hmin, hmax, hband, -⟩ := sweepRange_spec hfreq hsymb.1 hfuel
  refine ⟨p, hrange, hband.1, hband.2, fun bus t hacks hno => ⟨?_, not_sweepCovers hacks hmin hmax hno⟩⟩
  obtain ⟨⟨passes, s, t', hrun, hend⟩, hall⟩ := sweep_programs hacks hmin hmax hno
  exact ⟨passes, s, t', hrun, hend, hall passes s t' hrun hend⟩

/-- While the sweep goes on, the cells of `V` that are next to the offset are in the array, as is the cell of
`prev_swp_freq` for the next candidate, and no offset is programmed twice. -/
def SweepFits (p : SweepRange) : Prop :=
  ∀ bus passes t s t', (sweepLoop bus p passes .start).run t = (.ok s, t') →
    (s.loop = true → passes ≤ 28 ∧ ∀ k, -3 ≤ k → k ≤ 3 → 0 ≤ 30 + (s.v + k) ∧ 30 + (s.v + k) < 60) ∧
      (∀ f, Candidate p s f → s.prevSwpFreq.length < 20) ∧ s.programmed.Nodup

def silentBus : Bus := ⟨fun _ => true, fun _ _ => 0⟩

def clearChip : Chip := ⟨fun _ => 0, 0⟩

theorem noCandidate_silentBus (p : SweepRange) (passes : Nat) : NoCandidate silentBus p passes .start clearChip :=
  noCandidate_of_weak (fun _ => rfl) (fun _ => by exact Nat.zero_le 25) (fun _ => show (-1 : Int) ≤ 25 by decide) passes

theorem sweep_leaves_range_950 : ∃ fuel p, sweepRange fuel 950000 45000000 = some p ∧
    ¬ SweepCovers silentBus p clearChip := by
  obtain ⟨p, hrange, -, -, hall⟩ := sweep_leaves_range 950000 45000000 (by decide) (by decide) 1200001 (by decide)
  exact ⟨1200001, p, hrange, (hall silentBus clearChip (fun _ => rfl) (noCandidate_silentBus p)).2⟩

/-- At the lower end of the band, the range starts at 950000 kHz, and 938750 kHz are programmed. -/
theorem sweep_below_band : ∃ p, sweepRange 5 950000 45000000 = some p ∧ p.vmin = 0 ∧ p.frequencyAt (-1) = 938750 ∧
      (∀ passes, NoCandidate silentBus p passes .start clearChip) ∧ ¬ SweepCovers silentBus p clearChip :=
  ⟨⟨950, 45000, 950, 2, 0⟩, by decide, rfl, by decide, noCandidate_silentBus _,
    not_sweepCovers (fun _ => rfl) (Int.le_refl 0) (by decide) (noCandidate_silentBus _)⟩

end LinuxDvb.Mb86a16
