import LinuxDvb.DvbCore.Frontend.ZigzagSweep

/-!
# The zigzag over the passes of the frontend thread

Between two requests of an application the thread calls the zigzag again and again, with whatever status the frontend
has then.
-/

namespace LinuxDvb.Frontend

/-- The calls of `dvb_frontend_swzigzag` in which the frontend has these statuses. -/
def swzigzagRun (fe : DvbFrontend) (hz : Int32) :
    List UInt32 → FrontendPrivate → Option (List FeEffect × FrontendPrivate)
  | [], p => some ([], p)
  | status :: statuses, p => do
    let r ← swzigzag fe hz status p
    let rest ← swzigzagRun fe hz statuses r.2
    return (r.1 ++ rest.1, rest.2)

/-- The states between a request and the next one. -/
def activeStates : List UInt32 :=
  [festateTuningFast, festateTuned, festateZigzagFast, festateSearchingSlow, festateDiseqc]

structure Active (p : FrontendPrivate) : Prop where
  state : p.state ∈ activeStates
  mode : p.tuneModeFlags &&& feTuneModeOneshot = 0

/-- The search goes on in an active state, tells of no status and leaves alone what it must not change. -/
def Searched (p : FrontendPrivate) (r : Option (List FeEffect × FrontendPrivate)) : Prop :=
  ∃ effects q, r = some (effects, q) ∧ q.state ∈ activeStates ∧ q.status = p.status ∧
    q.tuneModeFlags = p.tuneModeFlags ∧ ∀ e ∈ effects, ∃ attempt, e = .tune attempt

def eventStatus : FeEffect → Option UInt32
  | .event status => some status
  | .tune _ => none

/-- The statuses that differ from the one before. -/
def changes : UInt32 → List UInt32 → List UInt32
  | _, [] => []
  | old, status :: statuses => (if status ≠ old then [status] else []) ++ changes status statuses

variable (fe : DvbFrontend) (hz : Int32) {status : UInt32} {p q : FrontendPrivate}

theorem status_zigzagSetup {auto : Bool} (fuel : Nat) (h : zigzagSetup auto fuel p = some q) :
    q.status = p.status ∧ q.tuneModeFlags = p.tuneModeFlags := by
  induction fuel generalizing p with
  | zero => cases h
  | succ fuel ih =>
    have hdrift : (zigzagDrift p).status = p.status ∧ (zigzagDrift p).tuneModeFlags = p.tuneModeFlags := by
      unfold zigzagDrift
      dsimp only
      split <;> exact ⟨rfl,rfl⟩
    have hswitch : (zigzagSwitch auto (zigzagDrift p)).2.status = p.status ∧
        (zigzagSwitch auto (zigzagDrift p)).2.tuneModeFlags = p.tuneModeFlags := by
      unfold zigzagSwitch
      repeat' split
      all_goals exact hdrift
    rw [zigzagSetup] at h
    dsimp only at h
    split at h
    · cases h
      exact hswitch
    · obtain ⟨hstatus,hmode⟩ := ih h
      exact ⟨hstatus.trans hswitch.1,hmode.trans hswitch.2⟩

/-- A call of the autotuning ends. Without the check it makes an attempt. -/
theorem autotune_spec (checkWrapped : Bool) (p : FrontendPrivate) :
    ∃ attempt q, swzigzagAutotune fe checkWrapped p = some (attempt, q) ∧ q.state = p.state ∧
      q.status = p.status ∧ q.tuneModeFlags = p.tuneModeFlags ∧ (checkWrapped = false → attempt ≠ none) := by
  obtain ⟨⟨attempt,q⟩,hcall,-⟩ := callRestores fe checkWrapped p
  refine ⟨attempt,q,hcall,?_⟩
  unfold swzigzagAutotune at hcall
  dsimp only at hcall
  split at hcall
  · cases hcall
  · next q' hsetup =>
    obtain ⟨hstatus,hmode⟩ := status_zigzagSetup 5 hsetup
    have hstate := (sameRequest_zigzagSetup 5 hsetup).state
    split at hcall
    · next hcomplete =>
      cases hcall
      exact ⟨hstate,hstatus,hmode,fun h => absurd (h.symm.trans hcomplete.2.2) Bool.false_ne_true⟩
    · cases hcall
      exact ⟨hstate,hstatus,hmode,fun _ => some_ne_none _⟩

theorem slow_spec (locked : Bool) (h : p.state ∈ activeStates) : Searched p (swzigzagSlow fe hz locked p) := by
  unfold swzigzagSlow
  split
  · obtain ⟨attempt,q,hcall,hstate,hstatus,hmode,-⟩ :=
      autotune_spec fe false (swzigzagUpdateDelay hz locked p)
    rw [hcall]
    cases attempt with
    | none => exact ⟨_,_,rfl,hstate ▸ h,hstatus,hmode,by simp⟩
    | some attempt => exact ⟨_,_,rfl,hstate ▸ h,hstatus,hmode,by simp⟩
  · exact ⟨_,_,rfl,h,rfl,rfl,by simp⟩

/-- The fast search, begun without the check for a complete iteration, makes an attempt. -/
theorem fast_spec (locked : Bool) (h : p.state ∈ activeStates) :
    Searched p (swzigzagFast fe hz locked false p) ∧
      (p.checkWrapped = false → ∃ attempt effects q,
        swzigzagFast fe hz locked false p = some (.tune attempt :: effects, q)) := by
  unfold swzigzagFast
  obtain ⟨attempt,q,hcall,hstate,hstatus,hmode,hgoes⟩ :=
    autotune_spec fe p.checkWrapped { p with delay := p.minDelay }
  rw [hcall]
  cases attempt with
  | none => exact ⟨⟨_,_,rfl,by simp [activeStates],hstatus,hmode,by simp⟩,fun h => absurd rfl (hgoes h)⟩
  | some attempt =>
    obtain ⟨effects,r,hslow,hstate',hstatus',hmode',heffects⟩ :=
      slow_spec fe hz (p := { q with checkWrapped := true, state := q.state }) locked (hstate ▸ h)
    simp only [Bool.false_eq_true,if_false,hslow,map_some]
    exact ⟨⟨_,_,rfl,hstate',hstatus'.trans hstatus,hmode'.trans hmode,by simpa using heffects⟩,
      fun _ => ⟨attempt,effects,r,rfl⟩⟩

theorem active_bits : ∀ state ∈ activeStates, state &&& festateIdle = 0 ∧ state &&& festateRetune = 0 := by
  simp only [activeStates,forall_mem_cons,not_mem_nil,false_implies,implies_true,and_true]
  decide

theorem search_spec (locked : Bool) (h : p.state ∈ activeStates) : Searched p (swzigzagSearch fe hz locked p) := by
  have hretune : ¬ p.state &&& festateRetune ≠ 0 := not_not_intro (active_bits _ h).2
  unfold swzigzagSearch
  dsimp only
  rw [decide_eq_false hretune,if_neg Bool.false_ne_true]
  split
  · exact (fast_spec fe hz locked h).1
  · exact slow_spec fe hz locked h

theorem status_spec (status : UInt32) (h : p.state ∈ activeStates) : Searched p (swzigzagStatus fe hz status p) := by
  have hfast : festateZigzagFast ∈ activeStates := by decide
  have htuned : festateTuned ∈ activeStates := by decide
  unfold swzigzagStatus
  dsimp only
  split
  · split <;> exact ⟨_,_,rfl,htuned,rfl,rfl,by simp⟩
  · by_cases hstate : p.state &&& festateTuned ≠ 0
    · simp only [hstate,decide_true,if_true,ne_eq,not_false_eq_true,true_and]
      split
      · exact ⟨_,_,rfl,h,rfl,rfl,by simp⟩
      · split
        · exact ⟨_,_,rfl,hfast,rfl,rfl,by simp⟩
        · split
          · exact ⟨_,_,rfl,hfast,rfl,rfl,by simp⟩
          · exact search_spec fe hz _ hfast
    · simp only [hstate,decide_false,if_false,Bool.false_eq_true,false_and]
      split
      · exact ⟨_,_,rfl,h,rfl,rfl,by simp⟩
      · split
        · exact ⟨_,_,rfl,h,rfl,rfl,by simp⟩
        · exact search_spec fe hz _ h

theorem swzigzag_eq (status : UInt32) (h : Active p) : swzigzag fe hz status p =
    (swzigzagStatus fe hz status { p with status := status }).map fun r =>
      ((if status ≠ p.status then [.event status] else []) ++ r.1, r.2) := by
  obtain ⟨hidle,hretune⟩ := active_bits _ h.state
  rw [swzigzag,if_neg (not_not_intro hidle),if_neg (not_not_intro h.mode),if_neg (not_not_intro hretune)]
  simp only [decide_eq_true_eq]

theorem filterMap_tunes {effects : List FeEffect} (h : ∀ e ∈ effects, ∃ attempt, e = .tune attempt) :
    effects.filterMap eventStatus = [] := by
  refine List.filterMap_eq_nil_iff.mpr fun e he => ?_
  obtain ⟨attempt,rfl⟩ := h e he
  rfl

theorem swzigzag_active (status : UInt32) (h : Active p) : ∃ effects q,
    swzigzag fe hz status p = some (effects, q) ∧ Active q ∧ q.status = status ∧
      effects.filterMap eventStatus = if status ≠ p.status then [status] else [] := by
  obtain ⟨effects,q,hcall,hstate,hstatus,hmode,heffects⟩ :=
    status_spec fe hz status (p := { p with status := status }) h.state
  rw [swzigzag_eq fe hz status h,hcall]
  refine ⟨_,q,rfl,⟨hstate,hmode ▸ h.mode⟩,hstatus,?_⟩
  rw [filterMap_append,filterMap_tunes heffects]
  split <;> rfl

theorem swzigzagRun_cons {effects effects' : List FeEffect} {q' : FrontendPrivate} {statuses : List UInt32}
    (hcall : swzigzag fe hz status p = some (effects, q))
    (hrun : swzigzagRun fe hz statuses q = some (effects', q')) :
    swzigzagRun fe hz (status :: statuses) p = some (effects ++ effects', q') := by
  simp [swzigzagRun,hcall,hrun]

/-- Whatever the search does, each change of the status is reported once, and the thread never waits forever. -/
theorem swzigzagRun_reports (h : Active p) (statuses : List UInt32) :
    ∃ effects q, swzigzagRun fe hz statuses p = some (effects, q) ∧ Active q ∧
      effects.filterMap eventStatus = changes p.status statuses := by
  induction statuses generalizing p with
  | nil => exact ⟨[],p,rfl,h,rfl⟩
  | cons status statuses ih =>
    obtain ⟨effects,q,hcall,hactive,hstatus,hevents⟩ := swzigzag_active fe hz status h
    obtain ⟨effects',q',hrun,hactive',hevents'⟩ := ih hactive
    refine ⟨_,q',swzigzagRun_cons fe hz hcall hrun,hactive',?_⟩
    rw [List.filterMap_append,hevents,hevents',hstatus,changes]

def tunedState : FrontendPrivate := { registered with state := festateTuned }

theorem swzigzagRun_reports_twice : ∃ effects q,
    swzigzagRun cableFrontend 1000 [31, 31, 0] tunedState = some (effects, q) ∧ Active q ∧
      effects.filterMap eventStatus = [31, 0] :=
  swzigzagRun_reports cableFrontend 1000 (p := tunedState) ⟨by decide, rfl⟩ [31, 31, 0]

section Tuned

def Recovers (p : FrontendPrivate) : Prop := fe.canRecover = true ∧ p.maxDrift = 0

structure Quiet (p : FrontendPrivate) : Prop extends Active p where
  tuned : p.state = festateTuned ∨ p.state = festateZigzagFast ∧ Recovers fe p

theorem swzigzag_quiet (h : Quiet fe p) (hstays : status &&& feHasLock ≠ 0 ∨ Recovers fe p) :
    ∃ effects q, swzigzag fe hz status p = some (effects, q) ∧ Quiet fe q ∧ q.maxDrift = p.maxDrift ∧
      ∀ attempt, .tune attempt ∉ effects := by
  have hstatus : ∃ q, swzigzagStatus fe hz status { p with status := status } = some ([], q) ∧
      q.maxDrift = p.maxDrift ∧ q.tuneModeFlags = p.tuneModeFlags ∧
      (q.state = festateTuned ∨ q.state = festateZigzagFast ∧ Recovers fe p) := by
    have hwait : festateTuned &&& festateWaitforlock = 0 ∧ festateTuned ≠ 0 := by decide
    have hlost : festateZigzagFast &&& festateWaitforlock ≠ 0 ∧ festateZigzagFast &&& festateTuned = 0 ∧
      festateZigzagFast &&& festateLostlock ≠ 0 := by decide
    unfold swzigzagStatus
    rcases h.tuned with hstate | ⟨hstate,hrecovers⟩
    · by_cases hlock : status &&& feHasLock ≠ 0
      · simp [hstate,hwait,hlock,swzigzagUpdateDelay]
      · have hrecovers : Recovers fe p := hstays.resolve_left hlock
        simp [hstate,hwait,hlost,not_not.mp hlock,hrecovers,hrecovers.1,hrecovers.2,swzigzagUpdateDelay]
    · by_cases hlock : status &&& feHasLock ≠ 0
      · simp only [hstate,hlost.1,hlock,ne_eq,not_false_eq_true,decide_true,true_and,if_true]
        split <;> exact ⟨_,rfl,rfl,rfl,.inl rfl⟩
      · simp [hstate,hlost,not_not.mp hlock,hrecovers,hrecovers.1,hrecovers.2,swzigzagUpdateDelay]
  obtain ⟨q,hcall,hdrift,hmode,htuned⟩ := hstatus
  rw [swzigzag_eq fe hz status h.toActive,hcall]
  refine ⟨_,q,rfl,⟨⟨?_,hmode ▸ h.mode⟩,?_⟩,hdrift,?_⟩
  · rcases htuned with hstate | ⟨hstate,-⟩ <;> rw [hstate] <;> decide
  · rwa [Recovers,hdrift]
  · intro attempt
    split <;> simp

theorem swzigzag_lost (h : Quiet fe p) (hlost : status &&& feHasLock = 0) (hnot : ¬ Recovers fe p) :
    ∃ attempt effects q, swzigzag fe hz status p = some (effects, q) ∧ .tune attempt ∈ effects := by
  have hstate : p.state = festateTuned := h.tuned.resolve_right fun hlost => hnot hlost.2
  have hsearch : ∃ p', p'.state = festateZigzagFast ∧ p'.checkWrapped = false ∧
      swzigzagStatus fe hz status { p with status := status } = swzigzagFast fe hz false false p' := by
    have hbits : festateTuned ≠ 0 ∧ festateZigzagFast &&& festateDiseqc = 0 ∧
      festateZigzagFast &&& festateRetune = 0 ∧ festateZigzagFast &&& festateSearchingFast ≠ 0 := by decide
    have hnot' : ¬ (fe.canRecover = true ∧ p.maxDrift = 0) := hnot
    refine ⟨{ swzigzagUpdateDelay hz false { p with status := status } with
      state := festateZigzagFast, startedAutoStep := p.autoStep, checkWrapped := false },rfl,rfl,?_⟩
    simp [swzigzagStatus,swzigzagSearch,hstate,hlost,hbits,hnot',swzigzagUpdateDelay]
  obtain ⟨p',hstate',hwrapped,hcall⟩ := hsearch
  have hfast : p'.state ∈ activeStates := by rw [hstate']; decide
  obtain ⟨attempt,effects,q,hgoes⟩ := (fast_spec fe hz false hfast).2 hwrapped
  rw [swzigzag_eq fe hz status h.toActive,hcall,hgoes]
  exact ⟨attempt,_,q,rfl,by simp⟩

/-- A tuned frontend is tuned again only if its lock is lost and it cannot recover by itself. -/
theorem swzigzagRun_tunes_iff (h : Quiet fe p) (statuses : List UInt32) :
    ∃ effects q, swzigzagRun fe hz statuses p = some (effects, q) ∧
      ((∃ attempt, .tune attempt ∈ effects) ↔ ¬ Recovers fe p ∧ ∃ status ∈ statuses, status &&& feHasLock = 0) := by
  induction statuses generalizing p with
  | nil => exact ⟨[],p,rfl,by simp⟩
  | cons status statuses ih =>
    by_cases hstays : status &&& feHasLock ≠ 0 ∨ Recovers fe p
    · obtain ⟨effects,q,hcall,hquiet,hdrift,hnone⟩ := swzigzag_quiet fe hz h hstays
      obtain ⟨effects',q',hrun,htunes⟩ := ih hquiet
      refine ⟨_,q',swzigzagRun_cons fe hz hcall hrun,?_⟩
      rw [Recovers,hdrift] at htunes
      simp only [List.mem_append,hnone,false_or,htunes,List.exists_mem_cons_iff]
      refine and_congr_right fun hnot => ⟨.inr,?_⟩
      rintro (hlost | hlater)
      · exact absurd hlost (hstays.resolve_right hnot)
      · exact hlater
    · obtain ⟨hlost,hnot⟩ := not_or.mp hstays
      rw [not_not] at hlost
      obtain ⟨attempt,effects,q,hcall,htune⟩ := swzigzag_lost fe hz h hlost hnot
      obtain ⟨_,_,hcall',hactive,-⟩ := swzigzag_active fe hz status h.toActive
      rw [hcall,Option.some_inj] at hcall'
      cases hcall'
      obtain ⟨effects',q',hrun,-⟩ := swzigzagRun_reports fe hz hactive statuses
      refine ⟨_,q',swzigzagRun_cons fe hz hcall hrun,?_⟩
      exact ⟨fun _ => ⟨hnot,status,List.mem_cons_self,hlost⟩,fun _ => ⟨attempt,List.mem_append_left _ htune⟩⟩

theorem swzigzagRun_tunes_lost : ∃ effects q, swzigzagRun cableFrontend 1000 [31, 0] tunedState = some (effects, q) ∧
    ((∃ attempt, .tune attempt ∈ effects) ↔
      ¬ Recovers cableFrontend tunedState ∧ ∃ status ∈ [31, 0], status &&& feHasLock = 0) :=
  swzigzagRun_tunes_iff cableFrontend 1000 ⟨⟨by decide, rfl⟩, .inl rfl⟩ [31, 0]

end Tuned

section Sweep

def FrontendPrivate.during (p : FrontendPrivate) (status state delay : UInt32) : FrontendPrivate :=
  { p with status := status, state := state, delay := delay }

def tunedTo : FeEffect → Option (UInt32 × Inversion)
  | .event _ => none
  | .tune attempt => some (attempt.frequency, attempt.inversion)

theorem zigzagSetup_during (auto : Bool) (fuel : Nat) (p : FrontendPrivate) (status state delay : UInt32) :
    zigzagSetup auto fuel (p.during status state delay) =
      (zigzagSetup auto fuel p).map (·.during status state delay) := by
  induction fuel generalizing p with
  | zero => rfl
  | succ fuel ih =>
    have hdrift : zigzagDrift (p.during status state delay) = (zigzagDrift p).during status state delay := by
      unfold zigzagDrift FrontendPrivate.during
      dsimp only
      split <;> rfl
    have hswitch : zigzagSwitch auto ((zigzagDrift p).during status state delay) =
        ((zigzagSwitch auto (zigzagDrift p)).1, (zigzagSwitch auto (zigzagDrift p)).2.during status state delay) := by
      unfold zigzagSwitch FrontendPrivate.during
      dsimp only
      repeat' split
      all_goals rfl
    rw [zigzagSetup,zigzagSetup,hdrift,hswitch]
    dsimp only
    split
    · rfl
    · exact ih { (zigzagSwitch auto (zigzagDrift p)).2 with
        autoSubStep := (zigzagSwitch auto (zigzagDrift p)).2.autoSubStep + 1 }

/-- The autotuning does not look at the status, the state and the delay. -/
theorem autotune_during (checkWrapped : Bool) (p : FrontendPrivate) (status state delay : UInt32) :
    swzigzagAutotune fe checkWrapped (p.during status state delay) =
      (swzigzagAutotune fe checkWrapped p).map fun r => (r.1, r.2.during status state delay) := by
  have hauto : autoinversion fe (p.during status state delay) = autoinversion fe p := rfl
  unfold swzigzagAutotune
  dsimp only
  rw [hauto,zigzagSetup_during]
  cases zigzagSetup (autoinversion fe p) 5 p with
  | none => rfl
  | some q =>
    rw [map_some]
    dsimp only [FrontendPrivate.during]
    split <;> rfl

theorem swzigzag_during (hmode : p.tuneModeFlags &&& feTuneModeOneshot = 0) {status' : UInt32}
    (hlock : status' &&& feHasLock = 0) (status delay : UInt32) :
    swzigzag fe hz status' (p.during status festateTuningFast delay) =
      (swzigzagFast fe hz false false (p.during status' festateTuningFast delay)).map fun r =>
        ((if status' ≠ status then [.event status'] else []) ++ r.1, r.2) := swzigzag_tuningFast rfl hmode hlock

/-- Without a lock the passes after the first attempt make those of the sweep and then turn to the slow search. -/
theorem swzigzagRun_sweep {n : Nat} {tunings : List Tuning} (hsweep : sweep fe n p = some (tunings, q))
    {q' : FrontendPrivate} (hcomplete : swzigzagAutotune fe q.checkWrapped q = some (none, q'))
    (hmode : p.tuneModeFlags &&& feTuneModeOneshot = 0) {statuses : List UInt32} (hlength : statuses.length = n + 1)
    (hlock : ∀ status ∈ statuses, status &&& feHasLock = 0) (status delay : UInt32) : ∃ effects r,
      swzigzagRun fe hz statuses (p.during status festateTuningFast delay) = some (effects, r) ∧
      r.state = festateSearchingSlow ∧ effects.filterMap tunedTo = tunings.map fun t => (t.frequency, t.inversion) := by
  induction n generalizing p tunings statuses status delay with
  | zero =>
    cases hsweep
    obtain ⟨status',rfl⟩ := List.length_eq_one_iff.mp hlength
    have htune : swzigzagAutotune fe q.checkWrapped (q.during status' festateTuningFast q.minDelay) =
        some (none, q'.during status' festateTuningFast q.minDelay) := by
      rw [autotune_during,hcomplete]
      rfl
    have hcall := swzigzag_during fe hz hmode (hlock status' mem_cons_self) status delay
    rw [@swzigzagFast_complete fe hz (q.during status' festateTuningFast delay) false _ htune] at hcall
    refine ⟨_,_,swzigzagRun_cons fe hz hcall rfl,rfl,?_⟩
    rw [append_nil,append_nil]
    split <;> rfl
  | succ n ih =>
    obtain ⟨status',statuses,rfl⟩ := exists_cons_of_ne_nil (List.ne_nil_of_length_eq_add_one hlength)
    rw [forall_mem_cons] at hlock
    obtain ⟨attempt,p',hattempt,-,-,hmode',-⟩ := autotune_spec fe p.checkWrapped p
    rw [sweep,hattempt] at hsweep
    cases attempt with
    | none => cases hsweep
    | some attempt =>
      obtain ⟨r,hrest,heq⟩ := map_eq_some_iff.mp hsweep
      cases heq
      have htune : swzigzagAutotune fe p.checkWrapped (p.during status' festateTuningFast p.minDelay) =
          some (some attempt, p'.during status' festateTuningFast p.minDelay) := by
        rw [autotune_during,hattempt]
        rfl
      have hcall := swzigzag_during fe hz hmode hlock.1 status delay
      rw [@swzigzagFast_attempt fe hz (p.during status' festateTuningFast delay) false _ _ htune rfl] at hcall
      obtain ⟨effects,r',hrun,hslow,htuned⟩ :=
        ih hrest (hmode' ▸ hmode) (Nat.succ.inj hlength) hlock.2 status' p.minDelay
      refine ⟨_,r',swzigzagRun_cons fe hz hcall hrun,hslow,?_⟩
      rw [filterMap_append,htuned,filterMap_append]
      split <;> rfl

/-- After a request the thread, as long as there is no lock, tunes to each frequency of the range with each inversion
once, and then searches slowly. -/
theorem swzigzagRun_covers (hstate : p.state = festateRetune) (hmode : p.tuneModeFlags &&& feTuneModeOneshot = 0)
    (hrange : RangeFits p) {statuses : List UInt32} (hlength : statuses.length = (allTunings fe p).length + 1)
    (hlock : ∀ status ∈ statuses, status &&& feHasLock = 0) : ∃ effects q,
      swzigzagRun fe hz statuses p = some (effects, q) ∧ q.state = festateSearchingSlow ∧
      (effects.filterMap tunedTo).Perm ((allTunings fe p).map fun t => (t.frequency, t.inversion)) := by
  obtain ⟨n,tunings,q,q',hsweep,hperm,hcomplete⟩ := ((sweepsRange_iff fe p).mpr hrange).covers
  rw [show (allTunings fe p).length = n from hperm.length_eq.symm.trans (sweep_length hsweep)] at hlength
  obtain ⟨status,statuses,rfl⟩ := exists_cons_of_ne_nil (List.ne_nil_of_length_eq_add_one hlength)
  obtain ⟨attempt,p',hattempt,-,-,hmode',hgoes⟩ := autotune_spec fe false (retuned p)
  obtain ⟨attempt,rfl⟩ := Option.ne_none_iff_exists'.mp (hgoes rfl)
  cases n with
  | zero =>
    cases hsweep
    rw [show (retuned p).checkWrapped = false from rfl,hattempt] at hcomplete
    cases hcomplete
  | succ n =>
    rw [sweep,show (retuned p).checkWrapped = false from rfl,hattempt] at hsweep
    obtain ⟨r,hrest,heq⟩ := map_eq_some_iff.mp hsweep
    cases heq
    have hcall := @swzigzag_retune fe hz status p hstate hmode
    rw [@swzigzagFast_attempt fe hz { retuned p with delay := p.delay } true _ _ hattempt rfl] at hcall
    obtain ⟨effects,r',hrun,hslow,htuned⟩ := swzigzagRun_sweep fe hz hrest hcomplete (hmode' ▸ hmode)
      (Nat.succ.inj hlength) (forall_mem_cons.mp hlock).2 p'.status p'.delay
    refine ⟨_,r',swzigzagRun_cons fe hz hcall hrun,hslow,?_⟩
    rw [filterMap_append,htuned]
    exact hperm.map fun t => (t.frequency, t.inversion)

def requestedState : FrontendPrivate := { registered with state := festateRetune, stepSize := 5, maxDrift := 5 }

theorem swzigzagRun_covers_three : ∃ effects q,
    swzigzagRun cableFrontend 1000 (List.replicate 4 0) requestedState = some (effects, q) ∧ q.state = festateSearchingSlow ∧
      (effects.filterMap tunedTo).Perm [(0, .off), (5, .off), (-5, .off)] :=
  swzigzagRun_covers cableFrontend 1000 (p := requestedState) rfl rfl ⟨by decide, by decide⟩ rfl
    fun _ h => by rw [eq_of_mem_replicate h]; rfl

end Sweep

end LinuxDvb.Frontend
