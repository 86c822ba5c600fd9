import LinuxDvb.Scan.FiltersRun

/-!
# Filters that wait for ever

`remove_filter` is the only place where a waiting filter is started, and it gives up at the first failure. While a
filter runs, its removal will start the waiting ones; once none runs, nothing does.
-/

namespace LinuxDvb.Scan

def Scheduler.Drains (s : Scheduler) : Prop := s.running = [] → s.waiting = []

theorem Scheduler.Drains.of_mem {s : Scheduler} {p : Nat} (hp : p ∈ s.running) : s.Drains :=
  fun hempty => absurd hp (hempty ▸ not_mem_nil)

/-! ## The condition -/

/-- `open` and `DMX_SET_FILTER` succeed in the `start_filter` whose first system call has this number. -/
def FilterWorld.Admits (w : FilterWorld) (calls : Nat) : Prop :=
  0 ≤ w.openFd calls ∧ w.setFilter (calls + 1) = true

/-- If the last running filter is removed while others wait, then the first of these can be started. `time` is called
in between. -/
def RemoveServes (w : FilterWorld) (p : Nat) (s : Scheduler) : Prop :=
  s.running = [p] → s.waiting ≠ [] → w.Admits (s.calls + 1)

/-- The condition at the end of a pass of `read_filters`. -/
def FinishServes (w : FilterWorld) (p : Nat) (done : Bool) (s : Scheduler) : Prop :=
  let timed := if done then s else s.call
  done = true ∨ w.clock s.calls > (s.bufs p).startTime + (s.bufs p).timeout → (s.bufs p).runOnce = true →
    RemoveServes w p timed

def PassServes (longTimeout : Bool) (w : FilterWorld) (i : Nat) (s : Scheduler) : Prop :=
  ∀ p, s.pollSectionBufs i = some p →
    if (s.pollFds i).revents then
      ∀ r, readSections longTimeout w p s = .ok r → FinishServes w p (r.1 = 1) r.2
    else FinishServes w p false s

/-- The condition in all passes of `read_filters` from place `i` on. -/
def LoopServes (longTimeout : Bool) (w : FilterWorld) : Nat → Nat → Scheduler → Prop
  | 0, _, _ => True
  | fuel + 1, i, s =>
    (i : Int) < s.nRunning →
      PassServes longTimeout w i s ∧
        ∀ t, readPass longTimeout w i s = .ok t → LoopServes longTimeout w fuel (i + 1) t

def Scheduler.Serves (longTimeout : Bool) (w : FilterWorld) (s : Scheduler) : FilterOp → Prop
  | .add _ => s.running = [] → w.Admits s.calls
  | .remove k => ∀ p, s.running[k]? = some p → RemoveServes w p s
  | .read => LoopServes longTimeout w maxRunning 0 (s.polled w)
  | .retune _ => True

def Scheduler.RunServes (longTimeout : Bool) (w : FilterWorld) (s : Scheduler) : List FilterOp → Prop
  | [] => True
  | op :: ops => s.Serves longTimeout w op ∧ ∀ t, s.step longTimeout w op = .ok t → t.RunServes longTimeout w ops

/-! ## One operation -/

section Steps

variable {α : Type} {longTimeout : Bool} {w : FilterWorld} {p : Nat} {s : Scheduler}

theorem Succeeds.and {x : Except Exit α} {P Q : α → Prop} (hp : Succeeds x P) (hq : Succeeds x Q) :
    Succeeds x fun a => P a ∧ Q a := by
  obtain ⟨a,rfl,ha⟩ := hp
  obtain ⟨b,hb,hqb⟩ := hq
  cases hb
  exact ⟨a,rfl,ha,hqb⟩

theorem startFilter_ok_iff {r : Bool × Scheduler} (h : startFilter w p s = .ok r) :
    r.1 = true ↔ s.nRunning < maxRunning ∧ w.Admits s.calls := by
  rw [startFilter] at h
  dsimp only at h
  split_ifs at h with hfull hopen hset
  · cases h
    exact iff_of_false Bool.false_ne_true fun hok => absurd hok.1 (Int.not_lt.mpr hfull)
  · cases h
    exact iff_of_false Bool.false_ne_true fun hok => absurd hok.2.1 (Int.not_le.mpr hopen)
  · cases h
    exact iff_of_false Bool.false_ne_true fun hok => Bool.false_ne_true (hset.symm.trans hok.2.2)
  · refine iff_of_true ?_ ⟨Int.not_le.mp hfull,Int.not_lt.mp hopen,Bool.not_eq_false _ ▸ hset⟩
    generalize updatePollFds _ = started at h
    cases started with
    | error => cases h
    | ok t => cases h; rfl

theorem Scheduler.Inv.free (h : s.Inv) (hempty : s.running = []) : s.nRunning < maxRunning := by
  rw [h.listed.count,hempty]
  decide

theorem addFilter_drains (h : s.Inv) (hp : s.Startable p) :
    Succeeds (addFilter w p s) fun t => t.Drains ↔ (s.running = [] → w.Admits s.calls) := by
  obtain ⟨⟨ok,s'⟩,hstart,-,-,-,hlists⟩ := startFilter_spec (w := w) h hp
  have hok := startFilter_ok_iff hstart
  rw [addFilter,hstart]
  refine ⟨_,rfl,?_⟩
  cases hlists with
  | started running waiting =>
    refine iff_of_true (.of_mem (p := p) ?_) fun _ => (hok.mp rfl).2
    exact running ▸ mem_cons_self
  | failed running waiting =>
    have hfails : s.running = [] → ¬ w.Admits s.calls :=
      fun hempty hadmits => Bool.false_ne_true (hok.mpr ⟨h.free hempty,hadmits⟩)
    constructor
    · intro hdrains hempty
      have hnil : s'.waiting ++ [p] = [] := hdrains (running.trans hempty)
      exact absurd hnil (List.append_ne_nil_of_right_ne_nil _ (cons_ne_nil _ _))
    · intro hserves hempty
      have hempty' : s.running = [] := running.symm.trans hempty
      exact absurd (hserves hempty') (hfails hempty')

theorem newFilter_drains (longTimeout : Bool) (f : FilterSetup) (h : s.Inv) :
    Succeeds (newFilter longTimeout w f s) fun t => t.Drains ↔ (s.running = [] → w.Admits s.calls) := by
  obtain ⟨hinv,hstartable⟩ := h.allocate longTimeout f
  exact addFilter_drains hinv hstartable

theorem startWaiting_drains (h : s.Inv) : Succeeds (startWaiting w s.waiting.length s) fun t =>
      t.Drains ↔ (s.running = [] → s.waiting ≠ [] → w.Admits s.calls) := by
  generalize hfuel : s.waiting.length = fuel
  cases fuel with
  | zero =>
    have hnil : s.waiting = [] := eq_nil_of_length_eq_zero hfuel
    rw [startWaiting,if_pos hnil]
    exact .ok (iff_of_true (fun _ => hnil) fun _ hne => absurd hnil hne)
  | succ fuel =>
    rw [startWaiting]
    split
    next hnil =>
      rw [hnil] at hfuel
      cases hfuel
    next p waiting hwaiting =>
      obtain ⟨⟨ok,s'⟩,hstart,hinv,-,-,hlists⟩ := startFilter_spec (w := w) h (h.startable_head hwaiting)
      have hok := startFilter_ok_iff hstart
      rw [hstart]
      cases hlists with
      | started running waiting' =>
        dsimp only at running waiting'
        have hlength : s'.waiting.length ≤ fuel := by
          rw [waiting',hwaiting,List.erase_cons_head]
          rw [hwaiting,length_cons] at hfuel
          omega
        refine (startWaiting_spec fuel hinv hlength).imp fun t ht => ?_
        exact iff_of_true (.of_mem (ht.running p (running ▸ mem_cons_self))) fun _ _ => (hok.mp rfl).2
      | failed running waiting' =>
        dsimp only at running waiting'
        have hne : s.waiting ≠ [] := hwaiting ▸ cons_ne_nil p waiting
        refine .ok ⟨fun hdrains hempty => ?_,fun hserves hempty => ?_⟩
        · exact absurd (waiting'.symm.trans (hdrains (running.trans hempty))) hne
        · have hempty' : s.running = [] := running.symm.trans hempty
          exact absurd (hok.mpr ⟨h.free hempty',hserves hempty' hne⟩) Bool.false_ne_true

theorem removeFilter_drains (h : s.Inv) (hp : p ∈ s.running) :
    Succeeds (removeFilter w p s) fun t => t.Inv ∧ (t.Drains ↔ RemoveServes w p s) := by
  refine (removeFilter_spec h hp).and ?_
  refine (stopFilter_spec h hp).bind ?_
  rintro s' ⟨hinv,hrunning,hwaiting,hcalls⟩
  refine (startWaiting_drains hinv).imp fun t ht => ht.trans ?_
  have hlast : s.running.erase p = [] ↔ s.running = [p] := by
    constructor
    · intro hnil
      have hlength := List.length_erase_of_mem hp
      rw [hnil,length_nil] at hlength
      obtain ⟨q,hq⟩ := List.length_eq_one_iff.mp
        (Nat.le_antisymm (Nat.sub_eq_zero_iff_le.mp hlength.symm) (List.length_pos_of_mem hp))
      rw [hq] at hp ⊢
      rw [mem_singleton.mp hp]
    · intro hone
      rw [hone,List.erase_cons_head]
  rw [RemoveServes,hrunning,hwaiting,hcalls,hlast]

/-! ## Reading -/

theorem finishPass_drains (done : Bool) (h : s.Inv) (hp : p ∈ s.running) :
    Succeeds (finishPass w p done s) fun t => t.Inv ∧ (t.Drains ↔ FinishServes w p done s) := by
  obtain ⟨htimed,hp'⟩ :
      (if done = true then s else s.call).Inv ∧ p ∈ (if done = true then s else s.call).running := by
    split_ifs
    · exact ⟨h,hp⟩
    · exact ⟨h.call,hp⟩
  rw [finishPass,FinishServes]
  generalize (if done = true then s else s.call) = timed at htimed hp' ⊢
  split_ifs with hdone honce
  · refine (removeFilter_drains htimed hp').imp fun t ht => ⟨ht.1,ht.2.trans ?_⟩
    exact ⟨fun hserves _ _ => hserves,fun hserves => hserves hdone honce⟩
  · exact .ok ⟨htimed,iff_of_true (.of_mem hp') fun _ hcon => absurd hcon honce⟩
  · exact .ok ⟨htimed,iff_of_true (.of_mem hp') fun hcon => absurd hcon hdone⟩

theorem readPass_drains (w : FilterWorld) (longTimeout : Bool) {i : Nat} (h : s.Inv) (hi : (i : Int) < s.nRunning) :
    Succeeds (readPass longTimeout w i s) fun t => t.Inv ∧ (t.Drains ↔ PassServes longTimeout w i s) := by
  have hlt : i < s.running.length := by
    rw [h.listed.count] at hi
    exact Int.ofNat_lt.mp hi
  have hbuf : s.pollSectionBufs i = some (s.running[i]) := (h.polled.bufs i).trans (getElem?_eq_getElem hlt)
  have hp : s.running[i] ∈ s.running := List.getElem_mem hlt
  simp only [readPass,PassServes,hbuf,Option.some.injEq,forall_eq']
  split_ifs
  · obtain ⟨r,hread,hext⟩ := readSections_spec w longTimeout h hp
    rw [hread]
    refine (finishPass_drains _ hext.inv (hext.running _ hp)).imp fun t ht => ⟨ht.1,ht.2.trans ?_⟩
    simp
  · exact finishPass_drains false h hp

theorem readLoop_drains (fuel i : Nat) (hfuel : maxRunning ≤ i + fuel) (h : s.Inv) (hdrains : s.Drains) :
    Succeeds (readLoop longTimeout w fuel i s) fun t => t.Drains ↔ LoopServes longTimeout w fuel i s := by
  induction fuel generalizing i s with
  | zero =>
    have hcount := h.listed.count
    have hbound := h.listed.bound
    rw [readLoop,if_neg (by omega)]
    exact .ok (iff_of_true hdrains trivial)
  | succ fuel ih =>
    rw [readLoop,LoopServes]
    split_ifs with hi
    · obtain ⟨t,hpass,hinv,hiff⟩ := readPass_drains w longTimeout h hi
      rw [hpass]
      by_cases ht : t.Drains
      · refine (ih (i + 1) (by omega) hinv ht).imp fun t' ht' => ht'.trans ?_
        simp [hi,hiff.mp ht]
      · have hempty : t.running = [] := Classical.not_imp.mp ht |>.1
        have hlast : ¬ ((i + 1 : Nat) : Int) < t.nRunning := by
          rw [hinv.listed.count,hempty,length_nil]
          omega
        have hend : readLoop longTimeout w fuel (i + 1) t = .ok t := by
          cases fuel with
          | zero => rw [readLoop,if_neg hlast]
          | succ fuel => rw [readLoop,if_neg hlast]
        exact ⟨t,hend,iff_of_false ht fun hserves => ht (hiff.mpr (hserves hi).1)⟩
    · exact .ok (iff_of_true hdrains fun hcon => absurd hcon hi)

theorem Scheduler.step_drains (longTimeout : Bool) (w : FilterWorld) (h : s.Inv) (hdrains : s.Drains) (op : FilterOp) :
    Succeeds (s.step longTimeout w op) fun t => t.Inv ∧ (t.Drains ↔ s.Serves longTimeout w op) := by
  refine (Scheduler.step_spec longTimeout w h op).and ?_
  cases op with
  | add f => exact newFilter_drains longTimeout f h
  | remove k =>
    rw [Scheduler.step,Scheduler.Serves]
    split
    next hnone => exact .ok (iff_of_true hdrains fun p hp => absurd (hnone.symm.trans hp) (by simp))
    next p hp =>
      refine (removeFilter_drains h (mem_of_getElem? hp)).imp fun t ht => ht.2.trans ?_
      simp [hp]
  | read =>
    have hdrains' : (s.polled w).Drains := by
      rw [Scheduler.Drains,(s.polled_lists w).1,(s.polled_lists w).2]
      exact hdrains
    exact readLoop_drains maxRunning 0 (by omega) h.poll hdrains'
  | retune services => exact .ok (iff_of_true hdrains trivial)

end Steps

/-! ## Runs -/

theorem Scheduler.run_drains_iff (longTimeout : Bool) (w : FilterWorld) {s : Scheduler} (h : s.Inv)
    (hdrains : s.Drains) (ops : List FilterOp) :
    (∀ pre t, pre <+: ops → s.run longTimeout w pre = .ok t → t.Drains) ↔ s.RunServes longTimeout w ops := by
  induction ops generalizing s with
  | nil =>
    refine iff_of_true ?_ trivial
    rintro pre t hpre hrun
    rw [List.prefix_nil.mp hpre] at hrun
    cases hrun
    exact hdrains
  | cons op ops ih =>
    obtain ⟨s',hstep,hinv,hiff⟩ := Scheduler.step_drains longTimeout w h hdrains op
    have hrun : ∀ pre, s.run longTimeout w (op :: pre) = s'.run longTimeout w pre := by
      intro pre
      rw [Scheduler.run,hstep]
      rfl
    constructor
    · intro hall
      have hdrains' : s'.Drains := hall [op] s' ⟨ops,rfl⟩ (hrun [])
      refine ⟨hiff.mp hdrains',fun t ht => ?_⟩
      cases hstep.symm.trans ht
      refine (ih hinv hdrains').mp fun pre t hpre ht => ?_
      exact hall (op :: pre) t (List.cons_prefix_cons.mpr ⟨rfl,hpre⟩) ((hrun pre).trans ht)
    · rintro ⟨hserves,hrest⟩ pre t hpre ht
      cases pre with
      | nil => cases ht; exact hdrains
      | cons op' pre =>
        obtain ⟨rfl,htail⟩ := List.cons_prefix_cons.mp hpre
        exact (ih hinv (hiff.mpr hserves)).mpr (hrest s' hstep) pre t htail ((hrun pre).symm.trans ht)

/-- No filter is left behind exactly if no start fails while no filter runs. -/
theorem filters_drain_iff (longTimeout : Bool) (w : FilterWorld) (memory : Nat → SectionBuf) (ops : List FilterOp) :
    (∀ pre t, pre <+: ops → (Scheduler.init memory).run longTimeout w pre = .ok t → t.Drains) ↔
      (Scheduler.init memory).RunServes longTimeout w ops :=
  Scheduler.run_drains_iff longTimeout w (Scheduler.init_inv memory) (fun _ => rfl) ops

/-- Only one `open` succeeds before the first filter is done; later ones fail once more, then they succeed. -/
def scarceWorld : FilterWorld where
  openFd c := if c = 0 ∨ c ≥ 7 then 5 else -1
  setFilter _ := true
  clock _ := 0
  poll _ := none
  read _ := ⟨.services [], false, 0⟩

def patSetup : FilterSetup := ⟨0, 0, -1, true, false, 5⟩

def sdtSetup : FilterSetup := ⟨0x11, 0x42, -1, true, false, 5⟩

def nitSetup : FilterSetup := ⟨0x10, 0x40, -1, true, false, 15⟩

/-- Two filters wait when the only running one is removed. The first cannot be started, so the second is not tried. -/
theorem filters_stranded : ¬ ∀ pre t, pre <+: [.add patSetup, .add sdtSetup, .add nitSetup, .remove 0] →
      (Scheduler.init fun _ => setupFilter false patSetup).run false scarceWorld pre = .ok t → t.Drains := by
  intro h
  obtain ⟨t, hrun, -⟩ := Scheduler.run_spec false scarceWorld (Scheduler.init_inv fun _ => setupFilter false patSetup)
    [.add patSetup, .add sdtSetup, .add nitSetup, .remove 0]
  have hlists : t.running = [] ∧ t.waiting = [1, 2] := by
    cases hrun
    exact ⟨rfl, rfl⟩
  have hdrained : t.waiting = [] := h _ t (List.prefix_refl _) hrun hlists.1
  rw [hlists.2] at hdrained
  cases hdrained

theorem stranded_hangs (longTimeout : Bool) (w : FilterWorld) {s : Scheduler} (h : s.Inv)
    (hempty : s.running = []) (n : Nat) :
    Succeeds (s.run longTimeout w (List.replicate n .read)) fun t => t.running = [] ∧ t.waiting = s.waiting := by
  induction n generalizing s with
  | zero => exact .ok ⟨hempty,rfl⟩
  | succ n ih =>
    obtain ⟨hrunning,hwaiting⟩ := s.polled_lists w
    have hpoll : (s.polled w).Inv := h.poll
    have hstep : s.step longTimeout w .read = .ok (s.polled w) := by
      refine (readFilters_eq longTimeout w s).trans ?_
      rw [maxRunning,readLoop,if_neg]
      rw [hpoll.listed.count,hrunning,hempty]
      decide
    rw [List.replicate_succ,Scheduler.run,hstep]
    exact (ih hpoll (hrunning.trans hempty)).imp fun t ht => ⟨ht.1,ht.2.trans hwaiting⟩

end LinuxDvb.Scan
