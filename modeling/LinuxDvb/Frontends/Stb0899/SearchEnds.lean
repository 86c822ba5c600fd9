import LinuxDvb.Frontends.Stb0899.SearchLoops

/-!
# The DVB-S search of the STB0899 ends

A search ends whatever the chip reports exactly if no loop that it may come to can stay in its range for ever.
-/

namespace LinuxDvb.Stb0899

/-! ## The condition -/

/-- With this limit no loop can stay in its range: timing is searched only if a tuner can have twice the bandwidth, and
only checked if it can have less. The carrier then begins at the position where timing was found, or at zero, and the
data where the carrier was found. -/
structure LoopsLeave (symbolRate mclk limit : Int) : Prop where
  timing : symbolRate ≤ 36000000 → CanLeave 0 (short ((symbolRate.tdiv 2).tdiv mclk)) limit
  carrier : symbolRate ≤ 36000000 → ∀ start, CanLeave start (10 * (symbolRate.tdiv 1000).tdiv mclk) limit
  carrierFast : symbolRate > 5000000 → CanLeave 0 (10 * (symbolRate.tdiv 1000).tdiv mclk) limit
  data : ∀ start, CanLeave start (short ((symbolRate.tdiv 4).tdiv mclk)) limit

def limitFor (q : SearchParams) (mclk rollOff : Int) (field : Nat) : Int :=
  short (((subRangeFor q.searchRange q.symbolRate rollOff (bandwidthOf field)).tdiv 2).tdiv mclk)

def Settings.limit (c : Settings) : Int := short ((c.subRange.tdiv 2).tdiv c.mclk)

def AlwaysLeaves (q : SearchParams) (p : InternalParams) : Prop :=
  ∀ field, LoopsLeave q.symbolRate p.mclk (limitFor q p.mclk p.rollOff field)

def SearchEnds (w : Readings) (q : SearchParams) (p : InternalParams) : Prop := ∃ fuel r, search w fuel q p = some r

/-! ## The three searches -/

section Searches

variable {w : Readings} {p : InternalParams} {c : Settings}

theorem positionAt_zero (start step d : Int) : positionAt start step d 0 = short start := by
  simp [positionAt,zigzag]

theorem runLoop_eq_none {body : Nat → Zigzag → Flow Zigzag} {s : Zigzag}
    (h : ∀ r, ¬ LoopEnds (fun _ => True) body s r) (fuel : Nat) : runLoop (fun _ => True) body fuel s = none := by
  cases hrun : runLoop (fun _ => True) body fuel s with
  | none => rfl
  | some r => exact absurd ⟨fuel,hrun⟩ (h r)

theorem zigzag_start (p : InternalParams) (start step last index : Int) :
    Zigzag.At start step p.direction 0 3 ⟨p, short start, last, 3, index⟩ :=
  ⟨by simp, (positionAt_zero start step p.direction).symm, rfl⟩

theorem searchTiming_stays (h : Stays c p) {fuel : Nat} {p' : InternalParams}
    (hrun : searchTiming w fuel p = some p') : Stays c p' := by
  obtain ⟨s,hs,rfl⟩ := map_eq_some_iff.mp hrun
  have hstays : Stays c s.p :=
    LoopEnds.invariant (fun s => Stays c s.p) (fun _ _ fuel hs hpass => timingPass_stays fuel hs hpass)
      (h.setState (by decide) p.reads) ⟨fuel,hs⟩
  split_ifs
  · exact Stays.getDerotator ⟨hstays.settings,hstays.facing,hstays.searching⟩
  · exact hstays

theorem searchCarrier_stays (h : Stays c p) {fuel : Nat} {p' : InternalParams}
    (hrun : searchCarrier w fuel p = some p') : Stays c p' := by
  obtain ⟨s,hs,rfl⟩ := map_eq_some_iff.mp hrun
  have hstays : Stays c s.p :=
    LoopEnds.invariant (fun s => Stays c s.p) (fun _ _ fuel hs hpass => carrierPass_stays fuel hs hpass)
      (h.setState (by decide) p.reads) ⟨fuel,hs⟩
  split_ifs
  · exact hstays.getDerotator
  · exact ⟨hstays.settings,hstays.facing,hstays.searching⟩

theorem searchData_stays (h : Stays c p) {fuel : Nat} {p' : InternalParams}
    (hrun : searchData w fuel p = some p') : Stays c p' := by
  obtain ⟨s,hs,rfl⟩ := map_eq_some_iff.mp hrun
  have hstays : Stays c s.p :=
    LoopEnds.invariant (fun s => Stays c s.p) (fun _ _ fuel hs hpass => dataPass_stays fuel hs hpass)
      ⟨h.settings,h.facing,h.searching⟩ ⟨fuel,hs⟩
  split_ifs
  · exact hstays.getDerotator
  · exact hstays

theorem searchTiming_gives (h : Stays c p) (hleave : CanLeave 0 (short ((c.symbolRate.tdiv 2).tdiv c.mclk)) c.limit) :
    ∃ p', Gives (fun fuel => searchTiming w fuel p) p' ∧ Stays c p' := by
  obtain ⟨rfl,hfacing,hsearching⟩ := h
  obtain ⟨r,hr⟩ := timingLoop_ends (w := w) hleave hfacing
    (zigzag_start { p with state := .noTiming } 0 (short ((p.symbolRate.tdiv 2).tdiv p.mclk)) 0 0) rfl
  have hgives : Gives (fun fuel => searchTiming w fuel p) _ := (Gives.of_loopEnds (fun _ _ _ _ _ => rfl) hr).map _
  obtain ⟨fuel,hfuel⟩ := hgives.enough
  exact ⟨_,hgives,searchTiming_stays ⟨rfl,hfacing,hsearching⟩ (hfuel fuel (Nat.le_refl fuel))⟩

theorem searchCarrier_gives (h : Stays c p) (hleave : CanLeave p.derotFreq c.derotStep c.limit) :
    ∃ p', Gives (fun fuel => searchCarrier w fuel p) p' ∧ Stays c p' := by
  obtain ⟨rfl,hfacing,hsearching⟩ := h
  obtain ⟨r,hr⟩ := carrierLoop_ends (w := w) hleave hfacing
    (zigzag_start { p with state := .noCarrier } p.derotFreq p.derotStep 0 0) rfl
  have hgives : Gives (fun fuel => searchCarrier w fuel p) _ := (Gives.of_loopEnds (fun _ _ _ _ _ => rfl) hr).map _
  obtain ⟨fuel,hfuel⟩ := hgives.enough
  exact ⟨_,hgives,searchCarrier_stays ⟨rfl,hfacing,hsearching⟩ (hfuel fuel (Nat.le_refl fuel))⟩

theorem searchData_gives (h : Stays c p)
    (hleave : CanLeave p.derotFreq (short ((c.symbolRate.tdiv 4).tdiv c.mclk)) c.limit) :
    ∃ p', Gives (fun fuel => searchData w fuel p) p' ∧ Stays c p' := by
  obtain ⟨rfl,hfacing,hsearching⟩ := h
  obtain ⟨r,hr⟩ := dataLoop_ends (w := w) hleave hfacing
    (zigzag_start p p.derotFreq (short ((p.symbolRate.tdiv 4).tdiv p.mclk)) 0 1) rfl
  have hgives : Gives (fun fuel => searchData w fuel p) _ := (Gives.of_loopEnds (fun _ _ _ _ _ => rfl) hr).map _
  obtain ⟨fuel,hfuel⟩ := hgives.enough
  exact ⟨_,hgives,searchData_stays ⟨rfl,hfacing,hsearching⟩ (hfuel fuel (Nat.le_refl fuel))⟩

theorem searchTiming_diverges (h : Stays c p) (hzero : ∀ j ≥ p.reads, w.read j = 0)
    (hstay : ¬ CanLeave 0 (short ((c.symbolRate.tdiv 2).tdiv c.mclk)) c.limit) (fuel : Nat) :
    searchTiming w fuel p = none := by
  obtain ⟨rfl,-⟩ := h
  have hloop := timingLoop_diverges (w := w) hstay
    (zigzag_start { p with state := .noTiming } 0 (short ((p.symbolRate.tdiv 2).tdiv p.mclk)) 0 0) rfl hzero
  rw [searchTiming]
  exact Option.map_eq_none_iff.mpr (runLoop_eq_none hloop fuel)

theorem searchCarrier_diverges (h : Stays c p) (hzero : ∀ j ≥ p.reads, w.read j = 0)
    (hstay : ¬ CanLeave p.derotFreq c.derotStep c.limit) (fuel : Nat) : searchCarrier w fuel p = none := by
  obtain ⟨rfl,-⟩ := h
  have hloop := carrierLoop_diverges (w := w) hstay
    (zigzag_start { p with state := .noCarrier } p.derotFreq p.derotStep 0 0) rfl hzero
  rw [searchCarrier]
  exact Option.map_eq_none_iff.mpr (runLoop_eq_none hloop fuel)

theorem searchData_diverges (h : Stays c p) (hzero : ∀ j ≥ p.reads, w.read j = 0) (hstate : p.state ≠ .dataOk)
    (hstay : ¬ CanLeave p.derotFreq (short ((c.symbolRate.tdiv 4).tdiv c.mclk)) c.limit) (fuel : Nat) :
    searchData w fuel p = none := by
  obtain ⟨rfl,-⟩ := h
  have hloop := dataLoop_diverges (w := w) hstay
    (zigzag_start p p.derotFreq (short ((p.symbolRate.tdiv 4).tdiv p.mclk)) 0 1) rfl hstate hzero
  rw [searchData]
  exact Option.map_eq_none_iff.mpr (runLoop_eq_none hloop fuel)

end Searches

/-! ## The search that ends -/

section Ends

variable {w : Readings} {p : InternalParams} {c : Settings} {q : SearchParams}

theorem half_bandwidthOf (field : Nat) :
    5000000 ≤ (bandwidthOf field).tdiv 2 ∧ (bandwidthOf field).tdiv 2 ≤ 36000000 := by
  have hlt := Nat.mod_lt field (show 0 < 32 by omega)
  rw [bandwidthOf,Int.tdiv_eq_ediv_of_nonneg (by omega)]
  omega

theorem findTiming_of_le (h : p.symbolRate ≤ (bandwidthOf (w.read p.reads)).tdiv 2) (fuel : Nat) :
    findTiming w fuel p = searchTiming w fuel { p with state := .agc1Ok, reads := p.reads + 1 } :=
  if_pos h

theorem findTiming_of_gt (h : (bandwidthOf (w.read p.reads)).tdiv 2 < p.symbolRate) (fuel : Nat) :
    findTiming w fuel p = some (checkTiming w { p with state := .agc1Ok, reads := p.reads + 1 }) :=
  if_neg (not_le.mpr h)

theorem findTiming_gives (h : Stays c p) (hzero : p.derotFreq = 0)
    (hstep : c.derotStep = 10 * (c.symbolRate.tdiv 1000).tdiv c.mclk)
    (hleave : LoopsLeave c.symbolRate c.mclk c.limit) :
    ∃ p', Gives (fun fuel => findTiming w fuel p) p' ∧ Stays c p' ∧ CanLeave p'.derotFreq c.derotStep c.limit := by
  have hwidth := half_bandwidthOf (w.read p.reads)
  have hrate : p.symbolRate = c.symbolRate := congrArg Settings.symbolRate h.settings
  by_cases hlow : p.symbolRate ≤ (bandwidthOf (w.read p.reads)).tdiv 2
  · have hlow' : c.symbolRate ≤ 36000000 := by omega
    obtain ⟨p',hp',hstays⟩ := searchTiming_gives (w := w)
      (p := { p with state := .agc1Ok, reads := p.reads + 1 }) (h.setState (by decide) _)
      (hleave.timing hlow')
    exact ⟨p',hp'.congr (findTiming_of_le hlow),hstays,hstep ▸ hleave.carrier hlow' _⟩
  · have hhigh : c.symbolRate > 5000000 := by omega
    have hcarrier : CanLeave p.derotFreq c.derotStep c.limit := by
      rw [hzero,hstep]
      exact hleave.carrierFast hhigh
    exact ⟨_,.congr (findTiming_of_gt (not_le.mp hlow)) (.pure _),
      Stays.checkTiming (h.setState (by decide) _),hcarrier⟩

/-- What follows in `FE_STB0899_Algo` when a carrier has been found or not. -/
def fromCarrier (w : Readings) (fuel : Nat) (p : InternalParams) : Option InternalParams :=
  if p.state ≠ .carrierOk then some p
  else
    (searchData w fuel p).map fun p =>
      if p.state ≠ .dataOk then p
      else
        let p := checkRange p
        if p.state ≠ .rangeOk then p else setResults w p

theorem findData_of_timing (h : p.state = .timingOk) (fuel : Nat) :
    findData w fuel p = (searchCarrier w fuel p).bind (fromCarrier w fuel) :=
  if_neg (not_not.mpr h)

theorem fromCarrier_gives (h : Stays c p) (hleave : LoopsLeave c.symbolRate c.mclk c.limit) :
    ∃ p', Gives (fun fuel => fromCarrier w fuel p) p' := by
  by_cases hstate : p.state = .carrierOk
  · obtain ⟨p',hp',-⟩ := searchData_gives (w := w) h (hleave.data _)
    exact ⟨_,.congr (fun _ => if_neg (not_not.mpr hstate)) (hp'.map _)⟩
  · exact ⟨p,.congr (fun _ => if_pos hstate) (.pure p)⟩

theorem findData_gives (h : Stays c p) (hcarrier : CanLeave p.derotFreq c.derotStep c.limit)
    (hleave : LoopsLeave c.symbolRate c.mclk c.limit) : ∃ p', Gives (fun fuel => findData w fuel p) p' := by
  by_cases hstate : p.state = .timingOk
  · obtain ⟨p',hp',hstays⟩ := searchCarrier_gives (w := w) h hcarrier
    obtain ⟨p'',hp''⟩ := fromCarrier_gives (w := w) hstays hleave
    exact ⟨p'',.congr (findData_of_timing hstate) (hp'.bind hp'')⟩
  · exact ⟨p,.congr (fun _ => if_pos hstate) (.pure p)⟩

/-- The parameters with which the search of `q` begins. -/
def searchParams (w : Readings) (q : SearchParams) (p : InternalParams) : InternalParams :=
  algoStart w (searchStart w q p)

/-- The first bandwidth that the tuner reports decides the sub range. -/
structure Begins (q : SearchParams) (p : InternalParams) (field : Nat) (c : Settings) (p' : InternalParams) : Prop where
  stays : Stays c p'
  symbolRate : c.symbolRate = q.symbolRate
  mclk : c.mclk = p.mclk
  derotStep : c.derotStep = 10 * (c.symbolRate.tdiv 1000).tdiv c.mclk
  limit : c.limit = limitFor q p.mclk p.rollOff field
  derotFreq : p'.derotFreq = 0

theorem begins_searchParams (w : Readings) (q : SearchParams) (p : InternalParams) :
    Begins q p (w.read (p.reads + 2)) (searchParams w q p).settings (searchParams w q p) :=
  ⟨⟨rfl, .inl rfl, SignalType.noConfusion⟩, rfl, rfl, rfl, rfl, rfl⟩

theorem algo_gives (hleave : AlwaysLeaves q p) : ∃ r, Gives (fun fuel => algo w fuel (searchStart w q p)) r := by
  have hbegins := begins_searchParams w q p
  have hloops := hleave (w.read (p.reads + 2))
  rw [← hbegins.limit,← hbegins.symbolRate,← hbegins.mclk] at hloops
  obtain ⟨p',hp',hstays,hcarrier⟩ :=
    findTiming_gives (w := w) hbegins.stays hbegins.derotFreq hbegins.derotStep hloops
  obtain ⟨p'',hp''⟩ := findData_gives (w := w) hstays hcarrier hloops
  by_cases herror : w.tunerError (searchParams w q p).reads = true
  · exact ⟨_,.congr (fun _ => if_pos herror) (.pure (SignalType.noCarrier, searchParams w q p))⟩
  · exact ⟨_,.congr (fun _ => if_neg herror) ((hp'.bind hp'').map _)⟩

theorem searchEnds_iff_algo (haccepted : q.Accepted) (hstandard : q.standard ≠ .dvbs2) :
    SearchEnds w q p ↔ ∃ fuel r, algo w fuel (searchStart w q p) = some r := by
  simp only [SearchEnds,search,if_neg (not_not.mpr haccepted),if_neg hstandard,map_eq_some_iff]
  constructor
  · rintro ⟨fuel,-,r,hr,-⟩
    exact ⟨fuel,r,hr⟩
  · rintro ⟨fuel,r,hr⟩
    exact ⟨fuel,_,r,hr,rfl⟩

theorem searchEnds_of_alwaysLeaves (h : q.Accepted ∧ q.standard ≠ .dvbs2 → AlwaysLeaves q p) : SearchEnds w q p := by
  by_cases haccepted : q.Accepted
  · by_cases hstandard : q.standard = .dvbs2
    · exact ⟨0,_,(if_neg (not_not.mpr haccepted)).trans (if_pos hstandard)⟩
    · rw [searchEnds_iff_algo haccepted hstandard]
      obtain ⟨r,hr⟩ := algo_gives (w := w) (h ⟨haccepted,hstandard⟩)
      obtain ⟨fuel,hfuel⟩ := hr.enough
      exact ⟨fuel,r,hfuel fuel (Nat.le_refl fuel)⟩
  · exact ⟨0,_,if_pos haccepted⟩

end Ends

/-! ## The search that does not end -/

section Diverges

variable {w : Readings} {p : InternalParams} {c : Settings} {q : SearchParams} {state : SignalType} {derotFreq : Int}
  {values : List Nat}

/-- From the reading `n` on, the chip returns these values, and then zeros. -/
def ReadsFrom (w : Readings) (n : Nat) (values : List Nat) : Prop := ∀ i, w.read (n + i) = values.getD i 0

theorem ReadsFrom.head {n v : Nat} (h : ReadsFrom w n (v :: values)) : w.read n = v := h 0

theorem ReadsFrom.tail {n v : Nat} (h : ReadsFrom w n (v :: values)) : ReadsFrom w (n + 1) values := by
  intro i
  rw [Nat.add_assoc,Nat.add_comm 1 i,h (i + 1),List.getD_cons_succ]

theorem ReadsFrom.zero {n : Nat} (h : ReadsFrom w n []) (j : Nat) (hj : j ≥ n) : w.read j = 0 := by
  obtain ⟨i,rfl⟩ := Nat.exists_eq_add_of_le hj
  exact h i

/-- What a step of the search finds, and what the chip returns from then on. -/
structure Found (w : Readings) (c : Settings) (state : SignalType) (derotFreq : Int) (values : List Nat)
    (p : InternalParams) : Prop where
  stays : Stays c p
  state : p.state = state
  derotFreq : p.derotFreq = derotFreq
  reads : ReadsFrom w p.reads values

theorem Found.of_getDerotator {msb lsb : Nat} (h : Stays c p) (hstate : p.state = state)
    (hreads : ReadsFrom w p.reads (msb :: lsb :: values)) :
    Found w c state (short (msb % 256 * 256 + lsb % 256)) values (getDerotator w p) := by
  refine ⟨h.getDerotator,(state_getDerotator w p).trans hstate,?_,?_⟩
  · rw [derotFreq_getDerotator,hreads.head,hreads.tail.head]
  · rw [reads_getDerotator]
    exact hreads.tail.tail

theorem state_checkTiming (hreads : ReadsFrom w p.reads (42 :: values)) : (checkTiming w p).state = .timingOk := by
  simp [checkTiming,hreads.head]

theorem searchTiming_found {a b msb lsb : Nat} (h : Stays c p)
    (hreads : ReadsFrom w p.reads (42 :: a :: b :: msb :: lsb :: values)) :
    ∃ p', Gives (fun fuel => searchTiming w fuel p) p' ∧
      Found w c .timingOk (short (msb % 256 * 256 + lsb % 256)) values p' := by
  have hstate : (checkTiming w { p with state := .noTiming }).state = .timingOk := state_checkTiming hreads
  have hpass := timingPass_leave (w := w) (s := ⟨{ p with state := .noTiming },0,0,3,0⟩)
    (short ((p.symbolRate.tdiv 2).tdiv p.mclk)) (short ((p.subRange.tdiv 2).tdiv p.mclk)) (.inl hstate) 0
  have hgives := (Gives.of_loopEnds (fun _ _ _ _ _ => rfl) (.of_leave_unguarded 0 hpass)).map fun s =>
    if s.p.state = .timingOk then
      getDerotator w { s.p with results := { s.p.results with symbolRate := s.p.symbolRate } }
    else s.p
  rw [if_pos hstate] at hgives
  have hstays := Stays.checkTiming (w := w) (p := { p with state := .noTiming }) (h.setState (by decide) _)
  exact ⟨_,hgives,.of_getDerotator ⟨hstays.settings,hstays.facing,hstays.searching⟩ hstate hreads.tail.tail.tail⟩

theorem searchCarrier_found {msb lsb : Nat} (h : Stays c p) (hreads : ReadsFrom w p.reads (1 :: msb :: lsb :: values)) :
    ∃ p', Gives (fun fuel => searchCarrier w fuel p) p' ∧
      Found w c .carrierOk (short (msb % 256 * 256 + lsb % 256)) values p' := by
  have hstate : (checkCarrier w { p with state := .noCarrier }).state = .carrierOk := by
    simp [checkCarrier,hreads.head]
  obtain ⟨s,hpass,hfound,hnext⟩ := carrierPass_leave
    (s := ⟨{ p with state := .noCarrier },short p.derotFreq,0,3,0⟩) p.derotStep
    (short ((p.subRange.tdiv 2).tdiv p.mclk)) hstate 0
  have hstays : Stays c s.p := carrierPass_stays 0 (h.setState (by decide) _) (.inr hpass)
  have hgives := (Gives.of_loopEnds (fun _ _ _ _ _ => rfl) (.of_leave_unguarded 0 hpass)).map fun s =>
    if s.p.state = .carrierOk then getDerotator w s.p else { s.p with derotFreq := s.lastDerotFreq }
  rw [if_pos hfound] at hgives
  exact ⟨_,hgives,.of_getDerotator hstays hfound (hnext ▸ hreads.tail)⟩

theorem findTiming_found_low {a b msb lsb : Nat} (h : Stays c p) (hlow : c.symbolRate ≤ 36000000)
    (hreads : ReadsFrom w p.reads (31 :: 42 :: a :: b :: msb :: lsb :: values)) :
    ∃ p', Gives (fun fuel => findTiming w fuel p) p' ∧
      Found w c .timingOk (short (msb % 256 * 256 + lsb % 256)) values p' := by
  have hrate : p.symbolRate ≤ (bandwidthOf (w.read p.reads)).tdiv 2 := by
    rw [hreads.head,show p.symbolRate = c.symbolRate from congrArg Settings.symbolRate h.settings]
    exact hlow
  obtain ⟨p',hp',hfound⟩ := searchTiming_found (p := { p with state := .agc1Ok, reads := p.reads + 1 })
    (h.setState (by decide) _) hreads.tail
  exact ⟨p',hp'.congr (findTiming_of_le hrate),hfound⟩

theorem findTiming_found_high {a b : Nat} (h : Stays c p) (hhigh : c.symbolRate > 5000000)
    (hreads : ReadsFrom w p.reads (0 :: 42 :: a :: b :: values)) :
    ∃ p', Gives (fun fuel => findTiming w fuel p) p' ∧ Found w c .timingOk p.derotFreq values p' := by
  have hrate : (bandwidthOf (w.read p.reads)).tdiv 2 < p.symbolRate := by
    rw [hreads.head,show p.symbolRate = c.symbolRate from congrArg Settings.symbolRate h.settings]
    exact hhigh
  exact ⟨_,.congr (findTiming_of_gt hrate) (.pure _),Stays.checkTiming (h.setState (by decide) _),
    state_checkTiming hreads.tail,rfl,
    hreads.tail.tail.tail.tail⟩

theorem findTiming_diverges (h : Stays c p) (hlow : c.symbolRate ≤ 36000000) (hreads : ReadsFrom w p.reads [31])
    (hstay : ¬ CanLeave 0 (short ((c.symbolRate.tdiv 2).tdiv c.mclk)) c.limit) (fuel : Nat) :
    findTiming w fuel p = none := by
  have hrate : p.symbolRate ≤ (bandwidthOf (w.read p.reads)).tdiv 2 := by
    rw [hreads.head,show p.symbolRate = c.symbolRate from congrArg Settings.symbolRate h.settings]
    exact hlow
  rw [findTiming_of_le hrate]
  exact searchTiming_diverges (p := { p with state := .agc1Ok, reads := p.reads + 1 })
    (h.setState (by decide) _)
    hreads.tail.zero hstay fuel

theorem Found.findData_diverges_carrier (h : Found w c .timingOk derotFreq [] p)
    (hstay : ¬ CanLeave derotFreq c.derotStep c.limit) (fuel : Nat) : findData w fuel p = none := by
  rw [← h.derotFreq] at hstay
  rw [findData_of_timing h.state,searchCarrier_diverges h.stays h.reads.zero hstay,Option.bind_none]

theorem Found.findData_diverges_data {msb lsb : Nat} (h : Found w c .timingOk derotFreq [1, msb, lsb] p)
    (hstay : ¬ CanLeave (short (msb % 256 * 256 + lsb % 256)) (short ((c.symbolRate.tdiv 4).tdiv c.mclk)) c.limit)
    (fuel : Nat) : findData w fuel p = none := by
  obtain ⟨p',hp',hfound⟩ := searchCarrier_found h.stays h.reads
  rw [findData_of_timing h.state]
  refine hp'.bind_eq_none (fun fuel => ?_) fuel
  have hstate : p'.state ≠ .dataOk := by simp [hfound.state]
  rw [← hfound.derotFreq] at hstay
  rw [fromCarrier,if_neg (not_not.mpr hfound.state),searchData_diverges hfound.stays hfound.reads.zero hstate hstay,
    Option.map_none]

theorem exists_bytes (start : Int) :
    ∃ msb lsb : Nat, short ((msb % 256 : Nat) * 256 + (lsb % 256 : Nat)) = short start := by
  refine ⟨(start % 65536).toNat / 256,(start % 65536).toNat % 256,?_⟩
  have hbytes : (((start % 65536).toNat / 256 % 256 : Nat) : Int) * 256 +
      (((start % 65536).toNat % 256 % 256 : Nat) : Int) = start % 65536 := by omega
  rw [hbytes]
  exact Int.emod_bmod (x := start) (n := 65536)

theorem canLeave_short {start step limit : Int} : CanLeave (short start) step limit ↔ CanLeave start step limit := by
  simp only [CanLeave,short_short_add]

/-- The chip returns these values from the reading `base` on, and then zeros. -/
def readings (base : Nat) (values : List Nat) : Readings :=
  ⟨fun j => values.getD (j - base) 0, fun _ v => v, fun _ => false, fun _ => false⟩

theorem readsFrom_readings (base : Nat) (values : List Nat) : ReadsFrom (readings base values) base values := by
  intro i
  simp [readings]

theorem not_searchEnds_readings (haccepted : q.Accepted) (hstandard : q.standard ≠ .dvbs2) (field : Nat)
    (values : List Nat)
    (h : ∀ w c p', Begins q p field c p' → ReadsFrom w p'.reads values →
      ∀ fuel, (findTiming w fuel p').bind (findData w fuel) = none) :
    ¬ SearchEnds (readings (p.reads + 2) (field :: 0 :: values)) q p := by
  have hreads := readsFrom_readings (p.reads + 2) (field :: 0 :: values)
  generalize hw : readings (p.reads + 2) (field :: 0 :: values) = w at hreads ⊢
  have hbegins := begins_searchParams w q p
  rw [hreads.head] at hbegins
  intro hends
  obtain ⟨fuel,r,hr⟩ := (searchEnds_iff_algo haccepted hstandard).mp hends
  have herror : w.tunerError (searchParams w q p).reads ≠ true := by
    rw [← hw]
    exact Bool.false_ne_true
  have hnone := h w _ _ hbegins hreads.tail.tail fuel
  rw [show algo w fuel (searchStart w q p) = _ from if_neg herror] at hr
  obtain ⟨p',hp',-⟩ := map_eq_some_iff.mp hr
  cases hnone.symm.trans hp'

theorem loopsLeave_of_searchEnds (haccepted : q.Accepted) (hstandard : q.standard ≠ .dvbs2)
    (h : ∀ w, SearchEnds w q p) (field : Nat) : LoopsLeave q.symbolRate p.mclk (limitFor q p.mclk p.rollOff field) := by
  have hends : ∀ values, (∀ w c p', Begins q p field c p' → ReadsFrom w p'.reads values →
      ∀ fuel, (findTiming w fuel p').bind (findData w fuel) = none) → False := by
    exact fun values hnone => not_searchEnds_readings haccepted hstandard field values hnone (h _)
  constructor
  case timing =>
    intro hlow
    by_contra hstay
    refine hends [31] fun w c p' hbegins hreads fuel => ?_
    rw [← hbegins.limit,← hbegins.symbolRate,← hbegins.mclk] at hstay
    rw [← hbegins.symbolRate] at hlow
    rw [findTiming_diverges hbegins.stays hlow hreads hstay,Option.bind_none]
  case carrier =>
    intro hlow start
    by_contra hstay
    obtain ⟨msb,lsb,hbytes⟩ := exists_bytes start
    rw [← canLeave_short,← hbytes] at hstay
    refine hends [31, 42, 0, 0, msb, lsb] fun w c p' hbegins hreads fuel => ?_
    rw [← hbegins.limit,← hbegins.symbolRate,← hbegins.mclk,← hbegins.derotStep] at hstay
    rw [← hbegins.symbolRate] at hlow
    obtain ⟨p'',hp'',hfound⟩ := findTiming_found_low hbegins.stays hlow hreads
    exact hp''.bind_eq_none (hfound.findData_diverges_carrier hstay) fuel
  case carrierFast =>
    intro hhigh
    by_contra hstay
    refine hends [0, 42, 0, 0] fun w c p' hbegins hreads fuel => ?_
    rw [← hbegins.limit,← hbegins.symbolRate,← hbegins.mclk,← hbegins.derotStep,← hbegins.derotFreq] at hstay
    rw [← hbegins.symbolRate] at hhigh
    obtain ⟨p'',hp'',hfound⟩ := findTiming_found_high hbegins.stays hhigh hreads
    exact hp''.bind_eq_none (hfound.findData_diverges_carrier hstay) fuel
  case data =>
    intro start
    by_contra hstay
    obtain ⟨msb,lsb,hbytes⟩ := exists_bytes start
    rw [← canLeave_short,← hbytes] at hstay
    by_cases hlow : (q.symbolRate : Int) ≤ 36000000
    · refine hends [31, 42, 0, 0, 0, 0, 1, msb, lsb] fun w c p' hbegins hreads fuel => ?_
      rw [← hbegins.limit,← hbegins.symbolRate,← hbegins.mclk] at hstay
      rw [← hbegins.symbolRate] at hlow
      obtain ⟨p'',hp'',hfound⟩ := findTiming_found_low hbegins.stays hlow hreads
      exact hp''.bind_eq_none (hfound.findData_diverges_data hstay) fuel
    · refine hends [0, 42, 0, 0, 1, msb, lsb] fun w c p' hbegins hreads fuel => ?_
      rw [← hbegins.limit,← hbegins.symbolRate,← hbegins.mclk] at hstay
      rw [← hbegins.symbolRate] at hlow
      obtain ⟨p'',hp'',hfound⟩ := findTiming_found_high hbegins.stays (by omega) hreads
      exact hp''.bind_eq_none (hfound.findData_diverges_data hstay) fuel

end Diverges

/-! ## The default clock -/

section DefaultClock

variable {q : SearchParams} {p : InternalParams}

theorem short_of_le {x : Int} (hx : 0 ≤ x) (hle : x ≤ 32767) : short x = x := by
  simp only [short,Int.bmod_def]
  omega

theorem subRangeFor_bounds (searchRange symbolRate rollOff bandwidth : Int) (hrange : 0 ≤ searchRange)
    (hrate : 0 ≤ symbolRate) (hroll : 0 ≤ rollOff) (hle : searchRange ≤ 50000000) (hwidth : bandwidth ≤ 72000000) :
    0 ≤ subRangeFor searchRange symbolRate rollOff bandwidth ∧
      subRangeFor searchRange symbolRate rollOff bandwidth ≤ 72000000 := by
  have hproduct : 0 ≤ symbolRate * rollOff := mul_nonneg hrate hroll
  have hcarrier : 0 ≤ (carrierWidth symbolRate rollOff).tdiv 2 := by
    rw [carrierWidth,Int.tdiv_eq_ediv_of_nonneg hproduct,Int.tdiv_eq_ediv_of_nonneg (by omega)]
    omega
  simp only [subRangeFor,headerMin]
  split_ifs
  · omega
  · omega
  · omega

theorem limitFor_bounds (haccepted : q.Accepted) (hroll : 0 ≤ p.rollOff) (field : Nat) :
    0 ≤ limitFor q 1647 p.rollOff field ∧ limitFor q 1647 p.rollOff field ≤ 21857 := by
  obtain ⟨hrate,hrange⟩ := haccepted
  have hwidth : bandwidthOf field ≤ 72000000 := by
    have hlt := Nat.mod_lt field (show 0 < 32 by omega)
    rw [bandwidthOf]
    omega
  have hsub := subRangeFor_bounds q.searchRange q.symbolRate p.rollOff (bandwidthOf field) (by omega) (by omega) hroll
    (by omega) hwidth
  rw [limitFor,Int.tdiv_eq_ediv_of_nonneg hsub.1,Int.tdiv_eq_ediv_of_nonneg (by omega),
    short_of_le (by omega) (by omega)]
  omega

theorem not_canLeave_zero {limit : Int} (hlimit : 0 ≤ limit) : ¬ CanLeave 0 0 limit := by
  rintro ⟨m,hm⟩
  rw [mul_zero,add_zero] at hm
  exact absurd hm (not_lt.mpr hlimit)

theorem mclk_feStb0899Init_default {w : Readings} {memory : InternalParams}
    (hmdiv : w.mdiv memory.reads ncoarseDefault = ncoarseDefault) : (feStb0899Init w memory).mclk = 1647 := by
  have hmclk : (feStb0899Init w memory).mclk =
      (mclkFreq (w.mdiv memory.reads ncoarseDefault % 256) 27000000).tdiv 65536 := rfl
  rw [hmclk,hmdiv]
  decide

end DefaultClock

/-- Exactly where no loop can stay in its range do all searches of these parameters end: the carrier loop can where the
symbol rate is below a thousand times the divider of the master clock, since then its step is zero. -/
theorem search_always_ends_iff (q : SearchParams) (p : InternalParams) :
    (∀ w, SearchEnds w q p) ↔ (q.Accepted ∧ q.standard ≠ .dvbs2 → AlwaysLeaves q p) := by
  constructor
  · rintro h ⟨haccepted, hstandard⟩
    exact loopsLeave_of_searchEnds haccepted hstandard h
  · exact fun h w => searchEnds_of_alwaysLeaves h

/-! ## A slow search -/

/-- A structure that `kmalloc` may return. -/
def blankParams : InternalParams where
  quartz := 0
  frequency := 0
  baseFreq := 0
  subRange := 0
  tunerOffset := 0
  tunerBw := 0
  state := .noAgc1
  symbolRate := 0
  masterClock := 0
  mclk := 0
  searchRange := 0
  rollOff := 0
  derotFreq := 0
  derotPercent := 0
  derotStep := 0
  direction := 0
  subDir := 0
  results := ⟨0, .noAgc1, 0, 0⟩
  mdiv := 0
  derotator := []
  reads := 0

def slowSearch : SearchParams := ⟨1000000, 1000000, 40000000, .dvbs1⟩

def noCarrierReadings : Readings := readings 4 [0, 0, 31, 42, 0, 0, 0, 0]

/-- The first search after an initialisation does not end. -/
theorem slow_search_endless : slowSearch.Accepted ∧
      ¬ SearchEnds noCarrierReadings slowSearch (feStb0899Init noCarrierReadings blankParams) := by
  have haccepted : slowSearch.Accepted := by decide
  refine ⟨haccepted, not_searchEnds_readings (p := feStb0899Init noCarrierReadings blankParams) haccepted (by decide) 0
    [31, 42, 0, 0, 0, 0] fun w c p' hbegins hreads fuel => ?_⟩
  have hmclk : (feStb0899Init noCarrierReadings blankParams).mclk = 1647 := mclk_feStb0899Init_default rfl
  have hlimit := (limitFor_bounds (p := feStb0899Init noCarrierReadings blankParams) haccepted (by decide) 0).1
  rw [← hmclk, ← hbegins.limit] at hlimit
  have hstep : c.derotStep = 0 := by
    rw [hbegins.derotStep, hbegins.symbolRate, hbegins.mclk, hmclk]
    decide
  obtain ⟨p'', hp'', hfound⟩ :=
    findTiming_found_low hbegins.stays (by rw [hbegins.symbolRate]; decide) hreads
  refine hp''.bind_eq_none (hfound.findData_diverges_carrier ?_) fuel
  rw [hstep]
  exact not_canLeave_zero hlimit

end LinuxDvb.Stb0899
