import LinuxDvb.DvbCore.Dmxdev.Restart

/-!
# One-shot filters

A section filter with `DMX_ONESHOT` is in state DONE after its section. `dvb_dmxdev_feed_restart` is called
when another filter leaves the PID; it does not look at that state and puts the filter into state GO again.
-/

namespace LinuxDvb.Dmxdev

open Ringbuffer Demux Device

variable {filters feeds : Nat}

/-- A start or a stop of filter `i`. -/
def isBoundary (i : Fin filters) : Fin filters × FilterEvent → Bool
  | (j, .started _) => i = j
  | (j, .stopped) => i = j
  | _ => false

/-- A section is written to the buffer of filter `i`. -/
def isWrite (i : Fin filters) : Fin filters × FilterEvent → Bool
  | (j, .written _) => i = j
  | _ => false

/-- Between a start of a one-shot filter and its next stop or start at most one section is written to its
buffer. -/
def OneShotOnce (events : List (Fin filters × FilterEvent)) : Prop :=
  ∀ i pre mid post, events = pre ++ (i, .started true) :: (mid ++ post) →
    (∀ e ∈ mid, isBoundary i e = false) → mid.countP (isWrite i) ≤ 1

/-- The filter that a restart on behalf of filter `i` rearms has not delivered its only section. -/
def RearmsWaiting (d : Device filters feeds) (i : Fin filters) : Prop :=
  ∀ j, d.nextRunning i = some j → ¬((d.filter j).params.oneshot = true ∧ (d.filter j).state = .done)

instance (d : Device filters feeds) (i : Fin filters) : Decidable (RearmsWaiting d i) :=
  inferInstanceAs (Decidable (∀ _, _))

/-- When a stop of filter `i` restarts the feed. -/
def StopRestarts (d : Device filters feeds) (i : Fin filters) : Prop :=
  (d.filter i).type = .sec ∧ (d.filter i).state.running = true

instance (d : Device filters feeds) (i : Fin filters) : Decidable (StopRestarts d i) :=
  inferInstanceAs (Decidable (_ ∧ _))

def NoDoneRearmed (d : Device filters feeds) : DmxdevInput filters feeds → Prop
  | .setFilter i _ _ => StopRestarts d i → RearmsWaiting d i
  | .setPesFilter i _ _ => StopRestarts d i → RearmsWaiting d i
  | .start i io => StartRestarts d i io → RearmsWaiting d i
  | .stop i _ => StopRestarts d i → RearmsWaiting d i
  | .close i _ => StopRestarts d i → RearmsWaiting d i
  | _ => True

instance (d : Device filters feeds) : DecidablePred (NoDoneRearmed d)
  | .setFilter i _ _ => inferInstanceAs (Decidable (StopRestarts d i → RearmsWaiting d i))
  | .setPesFilter i _ _ => inferInstanceAs (Decidable (StopRestarts d i → RearmsWaiting d i))
  | .start i io => inferInstanceAs (Decidable (StartRestarts d i io → RearmsWaiting d i))
  | .stop i _ => inferInstanceAs (Decidable (StopRestarts d i → RearmsWaiting d i))
  | .close i _ => inferInstanceAs (Decidable (StopRestarts d i → RearmsWaiting d i))
  | .open => isTrue trivial
  | .setBufferSize _ _ _ => isTrue trivial
  | .section _ _ _ => isTrue trivial
  | .timeout _ => isTrue trivial
  | .read _ _ => isTrue trivial
  | .resume _ => isTrue trivial

/-- The number of sections that filter `i` has got since its start as a one-shot filter. -/
def sinceStart (i : Fin filters) (m : Option Nat) (e : Fin filters × FilterEvent) : Option Nat :=
  if e.1 ≠ i then m
  else
    match e.2 with
    | .started oneshot => if oneshot then some 0 else none
    | .stopped => none
    | .received _ => m
    | .written _ => m.map (· + 1)

def FirstWrite (i : Fin filters) (m : Option Nat) (e : Fin filters × FilterEvent) : Prop :=
  isWrite i e = true → ∀ c, m = some c → c = 0

theorem accepts_of_ne {i : Fin filters} {e : Fin filters × FilterEvent} (h : e.1 ≠ i) (m : Option Nat) :
    FirstWrite i m e ∧ sinceStart i m e = m := by
  refine ⟨?_,if_pos h⟩
  intro hwrite
  obtain ⟨j,ev⟩ := e
  cases ev with
  | written sec => exact absurd (of_decide_eq_true hwrite).symm h
  | _ => cases hwrite

theorem countP_of_accepts {i : Fin filters} {mid : List (Fin filters × FilterEvent)} {c : Nat}
    (hacc : Accepts (sinceStart i) (FirstWrite i) (some c) mid)
    (hmid : ∀ e ∈ mid, isBoundary i e = false) : mid.countP (isWrite i) = 0 ∨ c + mid.countP (isWrite i) ≤ 1 := by
  induction mid generalizing c with
  | nil => exact .inl rfl
  | cons e mid ih =>
    have hrest := fun e he => hmid e (mem_cons_of_mem _ he)
    have hhead := hmid e mem_cons_self
    obtain ⟨hfirst,hacc⟩ := hacc
    rw [List.countP_cons]
    cases hwrite : isWrite i e with
    | false =>
      have hnext : sinceStart i (some c) e = some c := by
        obtain ⟨j,ev⟩ := e
        unfold sinceStart
        by_cases hj : j = i
        · rw [if_neg (by simpa using hj)]
          cases ev with
          | received sec => rfl
          | written sec => simp [isWrite,hj] at hwrite
          | started oneshot => simp [isBoundary,hj] at hhead
          | stopped => simp [isBoundary,hj] at hhead
        · rw [if_pos hj]
      rw [hnext] at hacc
      simpa using ih hacc hrest
    | true =>
      have hnext : sinceStart i (some c) e = some (c + 1) := by
        obtain ⟨j,ev⟩ := e
        cases ev with
        | written sec =>
          have hj : i = j := of_decide_eq_true hwrite
          simp [sinceStart,hj]
        | _ => cases hwrite
      have hzero : c = 0 := hfirst hwrite c rfl
      rw [hnext] at hacc
      have hcount := ih hacc hrest
      simp only [if_true]
      omega

theorem oneShotOnce_of_accepts {events : List (Fin filters × FilterEvent)}
    (h : ∀ i, Accepts (sinceStart i) (FirstWrite i) none events) : OneShotOnce events := by
  intro i pre mid post heq hmid
  have hacc := h i
  rw [heq,accepts_append,accepts_cons,accepts_append] at hacc
  have hstart : sinceStart i (pre.foldl (sinceStart i) none) (i, .started true) = some 0 := by
    simp [sinceStart]
  have hcount := countP_of_accepts (hstart ▸ hacc.2.2.1) hmid
  omega

/-- What links a filter and the monitor: once a one-shot filter has got its section, it does not wait for
another one. -/
def Watched (d : Device filters feeds) (i : Fin filters) (m : Option Nat) : Prop :=
  ∀ c, m = some c → (d.filter i).params.oneshot = true ∧
    (c = 0 ∨ (d.filter i).state ≠ .go ∧ (d.filter i).state ≠ .timedout)

variable {d d' : Device filters feeds} {i l : Fin filters} {m : Option Nat}

def StepWatched (i : Fin filters) (m : Option Nat)
    (r : Device filters feeds × List (Fin filters × FilterEvent)) : Prop :=
  Accepts (sinceStart i) (FirstWrite i) m r.2 ∧ Watched r.1 i (r.2.foldl (sinceStart i) m)

theorem Watched.quiet (h : Watched d i m) : StepWatched i m (d, []) := ⟨trivial, h⟩

theorem Watched.updFilter (h : Watched d i m) {g : DmxdevFilter feeds → DmxdevFilter feeds}
    (hself : l = i → ∀ c, m = some c → (g (d.filter i)).params.oneshot = true ∧
      (c = 0 ∨ (g (d.filter i)).state ≠ .go ∧ (g (d.filter i)).state ≠ .timedout)) :
    StepWatched i m (d.updFilter l g, []) := by
  refine ⟨trivial,?_⟩
  intro c hc
  by_cases hl : l = i
  · subst hl
    rw [updFilter_self]
    exact hself rfl c hc
  · rw [updFilter_of_ne _ (Ne.symm hl)]
    exact h c hc

theorem Watched.call (h : Watched d i m) {restarts : Prop} (hspares : Spares d d' l restarts)
    (hok : restarts → RearmsWaiting d l) {ev : FilterEvent}
    (hev : ev = .stopped ∨ ∃ oneshot, ev = .started oneshot ∧ (oneshot = true → (d'.filter l).params.oneshot = true)) :
    StepWatched i m (d', [(l, ev)]) := by
  by_cases hl : l = i
  · subst hl
    rcases hev with rfl | ⟨oneshot,rfl,hparams⟩
    · refine ⟨⟨(fun hw => nomatch hw),trivial⟩,?_⟩
      intro c hc
      simp [sinceStart] at hc
    · refine ⟨⟨(fun hw => nomatch hw),trivial⟩,?_⟩
      intro c hc
      cases oneshot with
      | false => simp [sinceStart] at hc
      | true =>
        have hzero : c = 0 := by simpa [sinceStart,eq_comm] using hc
        exact ⟨hparams rfl,.inl hzero⟩
  · obtain ⟨hfirst,hnext⟩ := accepts_of_ne (e := (l, ev)) hl m
    refine ⟨⟨hfirst,trivial⟩,?_⟩
    intro c hc
    rw [foldl_cons,foldl_nil,hnext] at hc
    obtain ⟨hshot,hstate⟩ := h c hc
    rcases hspares i (Ne.symm hl) with heq | ⟨hre,hnextRunning,heq⟩
    · rw [heq]
      exact ⟨hshot,hstate⟩
    · -- the filter is rearmed, so that it was waiting or had timed out
      rw [heq]
      refine ⟨hshot,.inl ?_⟩
      have hdone : (d.filter i).state ≠ .done := fun hdone => hok hre i hnextRunning ⟨hshot,hdone⟩
      have hrun := (running_of_runsOn (runsOn_of_nextRunning hnextRunning).2).1
      apply hstate.resolve_right
      intro hne
      cases hs : (d.filter i).state <;> simp_all [DmxdevState.running]

theorem StepWatched.whenReady (h : Watched d i m) (l : Fin filters)
    {r : Device filters feeds × List (Fin filters × FilterEvent)} (hr : StepWatched i m r) :
    StepWatched i m (d.whenReady l r) := by
  unfold Device.whenReady
  split
  · exact hr
  · exact h.quiet

theorem Watched.callback (h : Watched d i m) (l : Fin filters) (bytes : List UInt8) :
    StepWatched i m (d.dvbDmxdevSectionCallback l bytes) := by
  unfold dvbDmxdevSectionCallback
  dsimp only
  split
  · exact h.quiet
  split
  · exact h.quiet
  rename_i _ hgo
  rw [ne_eq,not_not] at hgo
  generalize hevents : (if (SecReader.store (d.filter l).reader bytes).2 = [] then []
    else [(l, FilterEvent.written bytes)]) = written
  have hwritten : written = [] ∨ written = [(l, .written bytes)] := by
    rw [← hevents]
    split
    · exact .inl rfl
    · exact .inr rfl
  by_cases hl : l = i
  · subst hl
    have hzero : ∀ c, m = some c → (d.filter l).params.oneshot = true ∧ c = 0 := by
      intro c hc
      obtain ⟨hshot,hstate⟩ := h c hc
      exact ⟨hshot,hstate.resolve_right fun hne => hne.1 hgo⟩
    have hreceived : sinceStart l m (l, .received bytes) = m := by simp [sinceStart]
    refine ⟨⟨fun hw => (by cases hw),?_⟩,?_⟩
    · rw [hreceived]
      rcases hwritten with rfl | rfl
      · trivial
      · exact ⟨fun _ c hc => (hzero c hc).2,trivial⟩
    · intro c hc
      have hm : ∃ c, m = some c := by
        rw [foldl_cons,hreceived] at hc
        rcases hwritten with rfl | rfl
        · exact ⟨c,hc⟩
        · simp only [foldl_cons,foldl_nil,sinceStart] at hc
          cases m with
          | none => simp at hc
          | some c => exact ⟨c,rfl⟩
      obtain ⟨c',hc'⟩ := hm
      have hshot := (hzero c' hc').1
      rw [updFilter_self]
      refine ⟨hshot,.inr ?_⟩
      simp [hshot]
  · have hskip : ∀ ev, FirstWrite i m (l, ev) ∧ sinceStart i m (l, ev) = m :=
      fun ev => accepts_of_ne (e := (l, ev)) hl m
    have hfold : ((l, FilterEvent.received bytes) :: written).foldl (sinceStart i) m = m := by
      rcases hwritten with rfl | rfl <;> simp [(hskip _).2]
    refine ⟨⟨(hskip _).1,?_⟩,?_⟩
    · rw [(hskip _).2]
      rcases hwritten with rfl | rfl
      · trivial
      · exact ⟨(hskip _).1,trivial⟩
    · dsimp only
      rw [hfold,Watched,updFilter_of_ne _ (Ne.symm hl)]
      exact h

theorem Watched.callbacks (h : Watched d i m) (es : List DemuxEvent) : StepWatched i m (d.callbacks es) := by
  induction es generalizing d m with
  | nil => exact h.quiet
  | cons e es ih =>
    cases e with
    | cbSec x bytes =>
      unfold Device.callbacks
      cases (d.secfilter x).priv with
      | none => exact ih h
      | some l =>
        obtain ⟨hacc,hwatched⟩ := h.callback l bytes
        obtain ⟨hacc',hwatched'⟩ := ih hwatched
        refine ⟨(accepts_append _ _ _).mpr ⟨hacc,hacc'⟩,?_⟩
        rw [foldl_append]
        exact hwatched'
    | sectionFeed bytes => exact ih h
    | cbTs feed bytes => exact ih h
    | writeToDecoder feed bytes => exact ih h

theorem Watched.step (h : Watched d i m) (hall : ∀ j, (d.filter j).Consistent)
    (op : DmxdevInput filters feeds) (hok : NoDoneRearmed d op) : StepWatched i m (dmxdevStep d op) := by
  cases op with
  | «open» =>
    dsimp only [dmxdevStep]
    cases (List.finRange filters).find? fun l => !d.isOpen l with
    | none => exact h.quiet
    | some l =>
      apply h.updFilter
      intro hl c hc
      subst hl
      exact ⟨(h c hc).1,.inr ⟨(fun hs => nomatch hs),(fun hs => nomatch hs)⟩⟩
  | setFilter l params io =>
    apply StepWatched.whenReady h
    exact h.call ((filterStop_spares d l io).updFilter _) hok (.inl rfl)
  | setPesFilter l params io =>
    apply StepWatched.whenReady h
    exact h.call ((filterStop_spares d l io).updFilter _) hok (.inl rfl)
  | setBufferSize l size vmalloc =>
    apply StepWatched.whenReady h
    unfold dvbDmxdevSetBufferSize
    split
    · exact h.quiet
    split
    · exact h.quiet
    · exact h.updFilter fun _ => h
  | start l io =>
    apply StepWatched.whenReady h
    split
    · obtain ⟨hspares,hparams,-⟩ := filterStart_spares hall l io
      apply h.call hspares hok
      refine .inr ⟨_,rfl,?_⟩
      intro hshot
      rw [Bool.and_eq_true] at hshot
      rw [hparams]
      exact hshot.2
    · exact h.quiet
  | stop l io =>
    apply StepWatched.whenReady h
    exact h.call (filterStop_spares d l io) hok (.inl rfl)
  | close l io =>
    apply StepWatched.whenReady h
    exact h.call ((filterStop_spares d l io).updFilter _) hok (.inl rfl)
  | «section» k secbufBase secbuf =>
    dsimp only [dmxdevStep]
    unfold sectionArrives
    split
    · exact h.quiet
    · exact Watched.callbacks (d := d.setFeed k _) h _
  | timeout l =>
    dsimp only [dmxdevStep]
    split
    · rename_i htimer
      apply h.updFilter
      intro hl c hc
      subst hl
      obtain ⟨hshot,hstate⟩ := h c hc
      exact ⟨hshot,.inl (hstate.resolve_right fun hne => hne.1 ((hall l).timer htimer).2)⟩
    · exact h.quiet
  | read l count => exact h.updFilter fun _ => h
  | resume l => exact h.updFilter fun _ => h

/-- One-shot filters deliver at most once in every run in which no call restarts the feed for a one-shot
filter that has delivered. -/
theorem oneshot_delivers_once (ops : List (DmxdevInput filters feeds))
    (hok : StepsMeet dmxdevStep NoDoneRearmed (dmxdevInit filters feeds) ops) :
    OneShotOnce (runTrace dmxdevStep (dmxdevInit filters feeds) ops).2 := by
  apply oneShotOnce_of_accepts
  intro i
  have hstart : Watched (dmxdevInit filters feeds) i none := fun _ hc => nomatch hc
  refine (runTrace_accepted (fun d m => (∀ j, (d.filter j).Consistent) ∧ Watched d i m) ?_
    ⟨consistent_dmxdevInit, hstart⟩ hok).1
  intro d m op h hop
  obtain ⟨hacc, hwatched⟩ := h.2.step h.1 op hop
  exact ⟨hacc, dmxdevStep_consistent h.1 op, hwatched⟩

def twoFilters : List (DmxdevInput 2 1) :=
  [.open, .setFilter 0 (anySection false true) smoothStop, .open, .setFilter 1 (anySection false false) smoothStop]

/-- The other filter leaves the PID while the one-shot filter waits, which then gets one of two sections. -/
theorem oneshot_delivers_once_waiting : StepsMeet dmxdevStep NoDoneRearmed (dmxdevInit 2 1)
        (twoFilters ++ [.start 0 (smoothStart 0), .start 1 (smoothStart 1), .stop 1 smoothStop,
          .section 0 (fun _ => 0) 0, .section 0 (fun _ => 0) 0]) ∧
      OneShotOnce (runTrace dmxdevStep (dmxdevInit 2 1)
        (twoFilters ++ [.start 0 (smoothStart 0), .start 1 (smoothStart 1), .stop 1 smoothStop,
          .section 0 (fun _ => 0) 0, .section 0 (fun _ => 0) 0])).2 := by
  have hok : StepsMeet dmxdevStep NoDoneRearmed (dmxdevInit 2 1)
      (twoFilters ++ [.start 0 (smoothStart 0), .start 1 (smoothStart 1), .stop 1 smoothStop,
        .section 0 (fun _ => 0) 0, .section 0 (fun _ => 0) 0]) := by
    decide +kernel
  exact ⟨hok, oneshot_delivers_once _ hok⟩

/-- The other filter comes and goes after the one-shot filter has got its section, which then gets the
next one too. -/
theorem oneshot_delivers_twice : ¬∀ ops, OneShotOnce (runTrace dmxdevStep (dmxdevInit 2 1) ops).2 := by
  intro h
  have hevents : (runTrace dmxdevStep (dmxdevInit 2 1)
      (twoFilters ++ [.start 0 (smoothStart 0), .section 0 (fun _ => 0) 0, .start 1 (smoothStart 1),
        .stop 1 smoothStop, .section 0 (fun _ => 0) 0])).2 =
      [(0, .stopped), (1, .stopped)] ++ (0, .started true) ::
        ([(0, .received [0, 0, 0]), (0, .written [0, 0, 0]), (1, .started false), (1, .stopped),
          (0, .received [0, 0, 0]), (0, .written [0, 0, 0])] ++ []) := by
    decide +kernel
  exact absurd (h _ 0 _ _ _ hevents (by decide)) (by decide)

end LinuxDvb.Dmxdev
