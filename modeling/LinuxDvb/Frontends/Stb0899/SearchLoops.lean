import LinuxDvb.Framework.Zigzag
import LinuxDvb.Frontends.Stb0899.Search
import Mathlib.Tactic.Ring

/-!
# The zigzag loops of the STB0899

The positions of a search are its start plus all multiples of its step, in 16 bits. If one of them is out of range,
then it comes again and again, and the loop ends whatever the chip reports.
-/

namespace LinuxDvb.Stb0899

/-! ## What a search leaves alone -/

structure Settings where
  quartz : Int
  symbolRate : Int
  masterClock : Int
  mclk : Int
  searchRange : Int
  subRange : Int
  rollOff : Int
  derotStep : Int
  mdiv : Nat

def InternalParams.settings (p : InternalParams) : Settings :=
  ⟨p.quartz, p.symbolRate, p.masterClock, p.mclk, p.searchRange, p.subRange, p.rollOff, p.derotStep, p.mdiv⟩

def InternalParams.Facing (p : InternalParams) : Prop := p.direction = 1 ∨ p.direction = -1

/-- What stays the same in a loop; the range is checked only behind them. -/
structure Stays (c : Settings) (p : InternalParams) : Prop where
  settings : p.settings = c
  facing : p.Facing
  searching : p.state ≠ .rangeOk

variable {w : Readings} {p : InternalParams} {s : Zigzag} {c : Settings} {step limit : Int}

theorem Stays.setState (h : Stays c p) {state : SignalType} (hstate : state ≠ .rangeOk) (reads : Nat) :
    Stays c { p with state := state, reads := reads } := ⟨h.settings, h.facing, hstate⟩

theorem Stays.checkTiming (h : Stays c p) : Stays c (checkTiming w p) :=
  h.setState (by split_ifs <;> decide) _

theorem Stays.checkCarrier (h : Stays c p) : Stays c (checkCarrier w p) :=
  h.setState (by split_ifs <;> decide) _

theorem Stays.dataFound (h : Stays c p) : Stays c (dataFound w p) := by
  rw [Stb0899.dataFound]
  split_ifs
  · exact h
  · exact h.setState (by split_ifs <;> decide) _

theorem Stays.setDerotFreq (h : Stays c p) (derotFreq : Int) (reads : Nat) :
    Stays c { p with derotFreq := derotFreq, reads := reads } := ⟨h.settings, h.facing, h.searching⟩

theorem Stays.getDerotator (h : Stays c p) : Stays c (getDerotator w p) := by
  rw [Stb0899.getDerotator]
  exact h.setDerotFreq _ _

@[simp] theorem state_getDerotator (w : Readings) (p : InternalParams) : (getDerotator w p).state = p.state := by
  rw [Stb0899.getDerotator]

@[simp] theorem reads_getDerotator (w : Readings) (p : InternalParams) : (getDerotator w p).reads = p.reads + 2 := by
  rw [Stb0899.getDerotator]

theorem derotFreq_getDerotator (w : Readings) (p : InternalParams) :
    (getDerotator w p).derotFreq = short (w.read p.reads % 256 * 256 + w.read (p.reads + 1) % 256) := by
  rw [Stb0899.getDerotator]
  exact Int.one_mul _

theorem Stays.turn (h : Stays c s.p) : Stays c s.turn.p := by
  refine ⟨h.settings,?_,h.searching⟩
  obtain hd | hd := h.facing
  · exact .inr (congrArg Neg.neg hd)
  · exact .inl (congrArg Neg.neg hd)

/-! ## The positions -/

def CanLeave (start step limit : Int) : Prop := ∃ m : Int, headerAbs (short (start + m * step)) > limit

/-- The position after `k` moves that begin in direction `d`. -/
def positionAt (start step d : Int) (k : Nat) : Int := short (start + d * zigzag k * step)

/-- The search stands at the start of its pass number `k`, with `n` tries left. -/
structure Zigzag.At (start step d : Int) (k n : Nat) (s : Zigzag) : Prop where
  direction : s.p.direction = d * (-1) ^ k
  position : s.derotFreq = positionAt start step d k
  nextLoop : s.nextLoop = n

/-- Pass number `k` leads out of the range. -/
def Leaves (start step limit d : Int) (k : Nat) : Prop := headerAbs (positionAt start step d (k + 1)) > limit

instance (start step limit d : Int) (k : Nat) : Decidable (Leaves start step limit d k) :=
  inferInstanceAs (Decidable (_ > _))

theorem short_short_add (x y : Int) : short (short x + y) = short (x + y) := Int.bmod_add_bmod

theorem short_add_mul (x y : Int) : short (x + 65536 * y) = short x := Int.add_mul_bmod_self_left x 65536 y

theorem CanLeave.recurrent {start d : Int} (h : CanLeave start step limit) (hd : d = 1 ∨ d = -1) (N : Nat) :
    ∃ k ≥ N, Leaves start step limit d k := by
  have hsquare : d * d = 1 := by
    obtain rfl | rfl := hd
    · rfl
    · rfl
  have hrepeats : ∀ m : Int, headerAbs (short (start + d * m * step)) > limit →
      headerAbs (short (start + d * (m + 65536) * step)) > limit := by
    intro m hm
    rwa [show start + d * (m + 65536) * step = start + d * m * step + 65536 * (d * step) by ring,short_add_mul]
  have honce : ∃ m : Int, headerAbs (short (start + d * m * step)) > limit := by
    obtain ⟨m,hm⟩ := h
    refine ⟨d * m,?_⟩
    rwa [← mul_assoc,hsquare,one_mul]
  obtain ⟨k,hk,hleaves⟩ := zigzag_recurrent (by decide) hrepeats honce (N + 1)
  obtain ⟨k,rfl⟩ : ∃ j, k = j + 1 := ⟨k - 1,by omega⟩
  exact ⟨k,by omega,hleaves⟩

theorem CanLeave.of_leaves {start d : Int} {k : Nat} (h : Leaves start step limit d k) :
    CanLeave start step limit := ⟨d * zigzag (k + 1), h⟩

theorem Zigzag.At.move {start d : Int} {k n : Nat} (h : s.At start step d k n) (limit : Int) (hindex : s.index = k + 1) :
    (s.move step limit).derotFreq = positionAt start step d (k + 1) ∧
      (s.move step limit).nextLoop = if Leaves start step limit d k then n - 1 else n := by
  have hposition : short (s.derotFreq + s.index * s.p.direction * step) = positionAt start step d (k + 1) := by
    rw [h.position,hindex,h.direction,positionAt,short_short_add,positionAt,zigzag]
    congr 1
    ring
  refine ⟨hposition,?_⟩
  simp only [Leaves,← hposition,← h.nextLoop]
  rfl

/-- What follows a move: the position is perhaps written, and the direction changes. -/
structure Zigzag.Moved (step limit : Int) (s s' : Zigzag) : Prop where
  direction : s'.p.direction = -s.p.direction
  position : s'.derotFreq = (s.move step limit).derotFreq
  nextLoop : s'.nextLoop = (s.move step limit).nextLoop

theorem Zigzag.At.moved {start d : Int} {k n : Nat} (h : s.At start step d k n) (hindex : s.index = k + 1)
    {s' : Zigzag} (hs' : Moved step limit s s') :
    s'.At start step d (k + 1) (if Leaves start step limit d k then n - 1 else n) := by
  obtain ⟨hposition,hnext⟩ := h.move limit hindex
  refine ⟨?_,hs'.position.trans hposition,hs'.nextLoop.trans hnext⟩
  rw [hs'.direction,h.direction,pow_succ]
  ring

theorem Zigzag.moved_advance (step limit : Int) (s : Zigzag) : Moved step limit s (s.advance step limit).turn := by
  rw [Zigzag.advance]
  split_ifs
  · exact ⟨rfl,rfl,rfl⟩
  · exact ⟨rfl,rfl,rfl⟩

@[simp] theorem Zigzag.index_advance (step limit : Int) (s : Zigzag) : (s.advance step limit).index = s.index := by
  rw [Zigzag.advance]
  split_ifs
  · rfl
  · rfl

@[simp] theorem Zigzag.reads_advance (step limit : Int) (s : Zigzag) : (s.advance step limit).p.reads = s.p.reads := by
  rw [Zigzag.advance]
  split_ifs
  · rfl
  · rfl

@[simp] theorem Zigzag.state_advance (step limit : Int) (s : Zigzag) : (s.advance step limit).p.state = s.p.state := by
  rw [Zigzag.advance]
  split_ifs
  · rfl
  · rfl

theorem Stays.advance (h : Stays c s.p) (step limit : Int) : Stays c (s.advance step limit).p := by
  rw [Zigzag.advance]
  split_ifs
  · exact ⟨h.settings,h.facing,h.searching⟩
  · exact ⟨h.settings,h.facing,h.searching⟩

/-! ## Timing -/

section Timing

variable {start d : Int} {k n : Nat}

theorem timingPass_again (limit : Int) (h : s.At start step d k (n + 1)) (hindex : s.index = k)
    (hmiss : (checkTiming w s.p).state ≠ .timingOk) (fuel : Nat) :
    ∃ s', timingPass w step limit fuel s = .again s' ∧ s'.index = (k + 1 : Nat) ∧ s'.p.reads = s.p.reads + 3 ∧
      s'.At start step d (k + 1) (if Leaves start step limit d k then n else n + 1) := by
  have hn : s.nextLoop ≠ 0 := by
    rw [h.nextLoop]
    exact Nat.succ_ne_zero n
  have hat := Zigzag.At.moved (s := { s with p := checkTiming w s.p, index := s.index + 1 })
    ⟨h.direction,h.position,h.nextLoop⟩ (congrArg (· + 1) hindex) (Zigzag.moved_advance step limit _)
  rw [timingPass]
  dsimp only
  rw [if_neg (not_or.mpr ⟨hmiss,hn⟩)]
  exact ⟨_,rfl,(Zigzag.index_advance _ _ _).trans (congrArg (· + 1) hindex),Zigzag.reads_advance _ _ _,hat⟩

theorem timingPass_leave (step limit : Int) (hend : (checkTiming w s.p).state = .timingOk ∨ s.nextLoop = 0) (fuel : Nat) :
    timingPass w step limit fuel s = .leave { s with p := checkTiming w s.p } := by
  rw [timingPass]
  exact if_pos hend

theorem timingLoop_ends (hleave : CanLeave start step limit) (hd : d = 1 ∨ d = -1) (h : s.At start step d k n)
    (hindex : s.index = k) : ∃ r, LoopEnds (fun _ => True) (timingPass w step limit) s r := by
  refine LoopEnds.of_recurrent (fun _ _ _ _ _ => rfl) (Leaves start step limit d)
    (fun k n s => s.At start step d k n ∧ s.index = (k : Int)) ?_ ?_ (hleave.recurrent hd) ⟨h,hindex⟩
  · rintro k n s ⟨hs,hindex⟩
    by_cases hfound : (checkTiming w s.p).state = .timingOk
    · exact .inl ⟨_,.of_leave_unguarded 0 (timingPass_leave step limit (.inl hfound) 0)⟩
    · obtain ⟨s',hpass,hindex',-,hat⟩ := timingPass_again limit hs hindex hfound 0
      refine .inr ⟨trivial,0,s',hpass,?_⟩
      split_ifs at hat with hleaves
      · exact .inl ⟨hleaves,hat,hindex'⟩
      · exact .inr ⟨hleaves,hat,hindex'⟩
  · rintro k s ⟨hs,-⟩
    exact ⟨_,.of_leave_unguarded 0 (timingPass_leave step limit (.inr hs.nextLoop) 0)⟩

theorem timingPass_stays (fuel : Nat) {s' : Zigzag} (h : Stays c s.p)
    (hpass : timingPass w step limit fuel s = .again s' ∨ timingPass w step limit fuel s = .leave s') :
    Stays c s'.p := by
  rw [timingPass] at hpass
  dsimp only at hpass
  split_ifs at hpass
  · simp only [Flow.leave.injEq,false_or] at hpass
    exact hpass ▸ h.checkTiming
  · simp only [Flow.again.injEq,or_false] at hpass
    rw [← hpass]
    exact (Stays.advance (s := { s with p := checkTiming w s.p, index := s.index + 1 }) h.checkTiming step limit).turn

theorem timingLoop_diverges (hstay : ¬ CanLeave start step limit) (h : s.At start step d k 3) (hindex : s.index = k)
    (hzero : ∀ j ≥ s.p.reads, w.read j = 0) (r : Zigzag) :
    ¬ LoopEnds (fun _ => True) (timingPass w step limit) s r := by
  apply LoopEnds.not_of_stuck
    (fun s => (∃ k : Nat, s.At start step d k 3 ∧ s.index = (k : Int)) ∧ ∀ j ≥ s.p.reads, w.read j = 0)
  · exact fun _ _ => trivial
  · rintro s fuel ⟨⟨k,hs,hindex⟩,hzero⟩
    have hmiss : (checkTiming w s.p).state ≠ .timingOk := by
      simp [checkTiming,hzero s.p.reads (Nat.le_refl _)]
    obtain ⟨s',hpass,hindex',hreads,hat⟩ := timingPass_again limit hs hindex hmiss fuel
    rw [if_neg fun hleaves => hstay (.of_leaves hleaves)] at hat
    refine ⟨s',hpass,⟨k + 1,hat,hindex'⟩,fun j hj => hzero j ?_⟩
    omega
  · exact ⟨⟨k,h,hindex⟩,hzero⟩

end Timing

/-! ## Carrier -/

section Carrier

variable {start d : Int} {k n : Nat}

theorem carrierPass_leave (step limit : Int) (hfound : (checkCarrier w s.p).state = .carrierOk) (fuel : Nat) :
    ∃ r, carrierPass w step limit fuel s = .leave r ∧ r.p.state = .carrierOk ∧ r.p.reads = s.p.reads + 1 := by
  have hno : ¬ (checkCarrier w s.p).state = .noCarrier := by simp [hfound]
  rw [carrierPass]
  dsimp only
  rw [if_neg hno,if_neg fun h => h.1 hfound]
  exact ⟨_,rfl,hfound,rfl⟩

theorem carrierPass_miss (limit : Int) (h : s.At start step d k (n + 1)) (hindex : s.index = k)
    (hmiss : (checkCarrier w s.p).state = .noCarrier) (fuel : Nat) :
    ∃ s' : Zigzag, s'.index = (k + 1 : Nat) ∧ s'.p.reads = s.p.reads + 1 ∧
      s'.At start step d (k + 1) (if Leaves start step limit d k then n else n + 1) ∧
      carrierPass w step limit fuel s = if s'.nextLoop ≠ 0 then .again s' else .leave s' := by
  have hat := Zigzag.At.moved
    (s := { s with p := checkCarrier w s.p, index := s.index + 1, lastDerotFreq := s.derotFreq })
    ⟨h.direction,h.position,h.nextLoop⟩ (congrArg (· + 1) hindex) (Zigzag.moved_advance step limit _)
  refine ⟨(Zigzag.advance step limit
    { s with p := checkCarrier w s.p, index := s.index + 1, lastDerotFreq := s.derotFreq }).turn,?_,?_,hat,?_⟩
  · exact (Zigzag.index_advance _ _ _).trans (congrArg (· + 1) hindex)
  · exact Zigzag.reads_advance _ _ _
  · simp [carrierPass,hmiss,Zigzag.turn]

theorem carrierLoop_ends (hleave : CanLeave start step limit) (hd : d = 1 ∨ d = -1) (h : s.At start step d k (n + 1))
    (hindex : s.index = k) : ∃ r, LoopEnds (fun _ => True) (carrierPass w step limit) s r := by
  refine LoopEnds.of_recurrent (fun _ _ _ _ _ => rfl) (Leaves start step limit d)
    (fun k n s => n ≠ 0 ∧ s.At start step d k n ∧ s.index = (k : Int)) ?_ ?_ (hleave.recurrent hd)
    ⟨Nat.succ_ne_zero n,h,hindex⟩
  · rintro k n s ⟨-,hs,hindex⟩
    by_cases hfound : (checkCarrier w s.p).state = .carrierOk
    · obtain ⟨r,hr,-⟩ := carrierPass_leave step limit hfound 0
      exact .inl ⟨r,.of_leave_unguarded 0 hr⟩
    · have hmiss : (checkCarrier w s.p).state = .noCarrier := by
        revert hfound
        simp [checkCarrier]
      obtain ⟨s',hindex',-,hat,hpass⟩ := carrierPass_miss limit hs hindex hmiss 0
      rw [hat.nextLoop] at hpass
      split_ifs at hat hpass with hleaves hn
      · exact .inr ⟨trivial,0,s',hpass,.inl ⟨hleaves,hn,hat,hindex'⟩⟩
      · exact .inl ⟨s',.of_leave_unguarded 0 hpass⟩
      · exact .inr ⟨trivial,0,s',hpass,.inr ⟨hleaves,Nat.succ_ne_zero n,hat,hindex'⟩⟩
      · exact .inl ⟨s',.of_leave_unguarded 0 hpass⟩
  · rintro k s ⟨hn,-⟩
    exact absurd rfl hn

theorem carrierPass_stays (fuel : Nat) {s' : Zigzag} (h : Stays c s.p)
    (hpass : carrierPass w step limit fuel s = .again s' ∨ carrierPass w step limit fuel s = .leave s') :
    Stays c s'.p := by
  have hcheck : Stays c (checkCarrier w s.p) := h.checkCarrier
  have hadvance := Stays.advance
    (s := { s with p := checkCarrier w s.p, index := s.index + 1, lastDerotFreq := s.derotFreq }) hcheck step limit
  rw [carrierPass] at hpass
  dsimp only at hpass
  split_ifs at hpass
  all_goals
    simp only [Flow.leave.injEq,Flow.again.injEq,false_or,or_false] at hpass
    rw [← hpass]
  · exact hadvance.turn
  · exact hadvance.turn
  · exact Stays.turn ⟨hcheck.settings,hcheck.facing,hcheck.searching⟩
  · exact Stays.turn ⟨hcheck.settings,hcheck.facing,hcheck.searching⟩

theorem carrierLoop_diverges (hstay : ¬ CanLeave start step limit) (h : s.At start step d k 3) (hindex : s.index = k)
    (hzero : ∀ j ≥ s.p.reads, w.read j = 0) (r : Zigzag) :
    ¬ LoopEnds (fun _ => True) (carrierPass w step limit) s r := by
  apply LoopEnds.not_of_stuck
    (fun s => (∃ k : Nat, s.At start step d k 3 ∧ s.index = (k : Int)) ∧ ∀ j ≥ s.p.reads, w.read j = 0)
  · exact fun _ _ => trivial
  · rintro s fuel ⟨⟨k,hs,hindex⟩,hzero⟩
    have hmiss : (checkCarrier w s.p).state = .noCarrier := by
      simp [checkCarrier,hzero s.p.reads (Nat.le_refl _)]
    obtain ⟨s',hindex',hreads,hat,hpass⟩ := carrierPass_miss limit hs hindex hmiss fuel
    rw [if_neg fun hleaves => hstay (.of_leaves hleaves)] at hat
    rw [hat.nextLoop,if_pos (Nat.succ_ne_zero 2)] at hpass
    refine ⟨s',hpass,⟨k + 1,hat,hindex'⟩,fun j hj => hzero j ?_⟩
    omega
  · exact ⟨⟨k,h,hindex⟩,hzero⟩

end Carrier

/-! ## Data -/

section Data

variable {start d : Int} {k n : Nat}

theorem le_viterbiLoop (w : Readings) (n k : Nat) : k ≤ (viterbiLoop w n k).2 := by
  induction n generalizing k with
  | zero =>
    rw [viterbiLoop]
    split_ifs <;> simp
  | succ n ih =>
    rw [viterbiLoop]
    split_ifs
    · simp
    · simp
    · exact (Nat.le_add_right k 2).trans (ih (k + 2))

theorem viterbiLoop_zero {w : Readings} (n : Nat) {k : Nat} (hzero : ∀ j ≥ k, w.read j = 0) :
    (viterbiLoop w n k).1 = false := by
  induction n generalizing k with
  | zero => simp [viterbiLoop,hzero k (Nat.le_refl k)]
  | succ n ih =>
    simp only [viterbiLoop,hzero k (Nat.le_refl k),hzero (k + 1) (Nat.le_succ k)]
    exact ih fun j hj => hzero j (by omega)

theorem reads_dataFound (w : Readings) (p : InternalParams) : p.reads ≤ (dataFound w p).reads := by
  rw [dataFound]
  split_ifs
  · exact Nat.le_refl _
  · exact le_viterbiLoop w _ _

theorem state_dataFound_zero (hzero : ∀ j ≥ p.reads, w.read j = 0) (hstate : p.state ≠ .dataOk) :
    (dataFound w p).state ≠ .dataOk := by
  rw [dataFound]
  split_ifs
  · exact hstate
  · simp [checkData,viterbiLoop_zero _ hzero]

theorem direction_dataFound (w : Readings) (p : InternalParams) : (dataFound w p).direction = p.direction := by
  rw [dataFound]
  split_ifs
  · rfl
  · rfl

theorem dataPass_leave (step limit : Int) (hfound : (dataFound w s.p).state = .dataOk) (fuel : Nat) :
    ∃ r, dataPass w step limit fuel s = .leave r := by
  simp [dataPass,hfound]

def dataMiss (w : Readings) (step limit : Int) (s : Zigzag) : Zigzag :=
  let moved := s.move step limit
  if moved.nextLoop ≠ 0 then
    { moved.setDerotator with p := checkCarrier w moved.setDerotator.p, index := moved.index + 1 }
  else moved

theorem moved_dataMiss (w : Readings) (step limit : Int) (s : Zigzag) :
    Zigzag.Moved step limit s (dataMiss w step limit s).turn := by
  rw [dataMiss]
  split_ifs
  · exact ⟨rfl,rfl,rfl⟩
  · exact ⟨rfl,rfl,rfl⟩

theorem nextLoop_dataMiss (w : Readings) (step limit : Int) (s : Zigzag) :
    (dataMiss w step limit s).nextLoop = (s.move step limit).nextLoop := (moved_dataMiss w step limit s).nextLoop

theorem stays_dataMiss (w : Readings) (step limit : Int) (h : Stays c s.p) : Stays c (dataMiss w step limit s).p := by
  rw [dataMiss]
  split_ifs
  · exact Stays.checkCarrier (p := ((s.move step limit).setDerotator).p) ⟨h.settings,h.facing,h.searching⟩
  · exact ⟨h.settings,h.facing,h.searching⟩

theorem dataMiss_of_nextLoop (hnext : (s.move step limit).nextLoop ≠ 0) :
    (dataMiss w step limit s).index = s.index + 1 ∧ (dataMiss w step limit s).p.reads = s.p.reads + 1 ∧
      (dataMiss w step limit s).p.state = if w.read s.p.reads % 2 = 1 then .carrierOk else .noCarrier := by
  rw [dataMiss]
  dsimp only
  rw [if_pos hnext]
  exact ⟨rfl,rfl,rfl⟩

theorem state_dataMiss (hstate : s.p.state ≠ .dataOk) : (dataMiss w step limit s).p.state ≠ .dataOk := by
  by_cases hnext : (s.move step limit).nextLoop = 0
  · rw [dataMiss]
    dsimp only
    rw [if_neg (not_not.mpr hnext)]
    exact hstate
  · rw [(dataMiss_of_nextLoop hnext).2.2]
    split_ifs <;> simp

theorem dataPass_miss (step limit : Int) (hmiss : (dataFound w s.p).state ≠ .dataOk) (fuel : Nat) :
    dataPass w step limit fuel s =
      if (dataMiss w step limit { s with p := dataFound w s.p }).nextLoop ≠ 0 then
        .again (dataMiss w step limit { s with p := dataFound w s.p }).turn
      else .leave (dataMiss w step limit { s with p := dataFound w s.p }).turn := by
  have hstate : (dataMiss w step limit { s with p := dataFound w s.p }).p.state ≠ .dataOk := state_dataMiss hmiss
  have hpass : dataPass w step limit fuel s =
      if (dataMiss w step limit { s with p := dataFound w s.p }).p.state ≠ .dataOk ∧
          (dataMiss w step limit { s with p := dataFound w s.p }).nextLoop ≠ 0 then
        .again (dataMiss w step limit { s with p := dataFound w s.p }).turn
      else .leave (dataMiss w step limit { s with p := dataFound w s.p }).turn := by
    rw [dataPass]
    dsimp only
    rw [if_pos hmiss]
    rfl
  rw [hpass]
  simp only [hstate,ne_eq,not_false_eq_true,true_and]

theorem dataMiss_at (w : Readings) (limit : Int) (h : s.At start step d k (n + 1)) (hindex : s.index = (k : Int) + 1) :
    (dataMiss w step limit { s with p := dataFound w s.p }).turn.At start step d (k + 1)
      (if Leaves start step limit d k then n else n + 1) :=
  Zigzag.At.moved (s := { s with p := dataFound w s.p })
    ⟨(direction_dataFound w s.p).trans h.direction, h.position, h.nextLoop⟩ hindex (moved_dataMiss w step limit _)

theorem index_dataMiss {p : InternalParams} (hnext : (dataMiss w step limit { s with p := p }).nextLoop ≠ 0)
    (hindex : s.index = (k : Int) + 1) :
    (dataMiss w step limit { s with p := p }).turn.index = ((k + 1 : Nat) : Int) + 1 := by
  rw [nextLoop_dataMiss] at hnext
  have hcount : (dataMiss w step limit { s with p := p }).index = s.index + 1 := (dataMiss_of_nextLoop hnext).1
  exact hcount.trans (congrArg (· + 1) hindex)

theorem dataLoop_ends (hleave : CanLeave start step limit) (hd : d = 1 ∨ d = -1) (h : s.At start step d k (n + 1))
    (hindex : s.index = (k : Int) + 1) : ∃ r, LoopEnds (fun _ => True) (dataPass w step limit) s r := by
  refine LoopEnds.of_recurrent (fun _ _ _ _ _ => rfl) (Leaves start step limit d)
    (fun k n s => n ≠ 0 ∧ s.At start step d k n ∧ s.index = (k : Int) + 1) ?_ ?_ (hleave.recurrent hd)
    ⟨Nat.succ_ne_zero n,h,hindex⟩
  · rintro k n s ⟨-,hs,hindex⟩
    by_cases hfound : (dataFound w s.p).state = .dataOk
    · obtain ⟨r,hr⟩ := dataPass_leave step limit hfound 0
      exact .inl ⟨r,.of_leave_unguarded 0 hr⟩
    · have hat := dataMiss_at w limit hs hindex
      have hpass := dataPass_miss step limit hfound 0
      by_cases hnext : (dataMiss w step limit { s with p := dataFound w s.p }).nextLoop = 0
      · rw [if_neg (not_not.mpr hnext)] at hpass
        exact .inl ⟨_,.of_leave_unguarded 0 hpass⟩
      · rw [if_pos hnext] at hpass
        have hindex' := index_dataMiss hnext hindex
        refine .inr ⟨trivial,0,_,hpass,?_⟩
        have hn := hat.nextLoop
        split_ifs at hat hn with hleaves
        · exact .inl ⟨hleaves,hn ▸ hnext,hat,hindex'⟩
        · exact .inr ⟨hleaves,Nat.succ_ne_zero n,hat,hindex'⟩
  · rintro k s ⟨hn,-⟩
    exact absurd rfl hn

theorem dataPass_stays (fuel : Nat) {s' : Zigzag} (h : Stays c s.p)
    (hpass : dataPass w step limit fuel s = .again s' ∨ dataPass w step limit fuel s = .leave s') :
    Stays c s'.p := by
  have hmiss := stays_dataMiss w step limit (s := { s with p := dataFound w s.p })
    h.dataFound
  by_cases hfound : (dataFound w s.p).state = .dataOk
  · rw [dataPass] at hpass
    simp only [hfound,ne_eq,not_true_eq_false,if_false,false_and,reduceCtorEq,Flow.leave.injEq,false_or] at hpass
    rw [← hpass]
    exact Stays.turn h.dataFound
  · rw [dataPass_miss step limit hfound] at hpass
    split_ifs at hpass
    · simp only [Flow.again.injEq,or_false] at hpass
      exact hpass ▸ hmiss.turn
    · simp only [Flow.leave.injEq,false_or] at hpass
      exact hpass ▸ hmiss.turn

theorem dataLoop_diverges (hstay : ¬ CanLeave start step limit) (h : s.At start step d k 3)
    (hindex : s.index = (k : Int) + 1) (hstate : s.p.state ≠ .dataOk) (hzero : ∀ j ≥ s.p.reads, w.read j = 0)
    (r : Zigzag) : ¬ LoopEnds (fun _ => True) (dataPass w step limit) s r := by
  apply LoopEnds.not_of_stuck
    (fun s => (∃ k : Nat, s.At start step d k 3 ∧ s.index = (k : Int) + 1) ∧ s.p.state ≠ .dataOk ∧
      ∀ j ≥ s.p.reads, w.read j = 0)
  · exact fun _ _ => trivial
  · rintro s fuel ⟨⟨k,hs,hindex⟩,hstate,hzero⟩
    have hat := dataMiss_at w limit hs hindex
    rw [if_neg fun hleaves => hstay (.of_leaves hleaves)] at hat
    have hnext : (dataMiss w step limit { s with p := dataFound w s.p }).nextLoop ≠ 0 := by
      rw [show (dataMiss w step limit { s with p := dataFound w s.p }).nextLoop = 3 from hat.nextLoop]
      exact Nat.succ_ne_zero 2
    have hfound := state_dataFound_zero hzero hstate
    have hpass := dataPass_miss step limit hfound fuel
    rw [if_pos hnext] at hpass
    have hreads : (dataMiss w step limit { s with p := dataFound w s.p }).p.reads = (dataFound w s.p).reads + 1 := by
      rw [nextLoop_dataMiss] at hnext
      exact (dataMiss_of_nextLoop hnext).2.1
    refine ⟨_,hpass,⟨k + 1,hat,index_dataMiss hnext hindex⟩,state_dataMiss hfound,fun j hj => ?_⟩
    have hle := reads_dataFound w s.p
    have hj' : (dataFound w s.p).reads + 1 ≤ j := hreads ▸ hj
    exact hzero j (by omega)
  · exact ⟨⟨k,h,hindex⟩,hstate,hzero⟩

end Data

end LinuxDvb.Stb0899
