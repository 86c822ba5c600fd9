import LinuxDvb.Scan.Filters

/-!
# The filter scheduler is consistent

Every operation keeps the count, the lists and the poll arrays in step, whatever the system calls return. The
invariant holds at each pass of `read_filters`, in front of and behind the filters that a section adds.
-/

namespace LinuxDvb.Scan

def Succeeds {α : Type} (x : Except Exit α) (P : α → Prop) : Prop := ∃ a, x = .ok a ∧ P a

section Succeeds

variable {α β : Type} {x : Except Exit α} {P Q : α → Prop} {R : β → Prop}

theorem Succeeds.ok {a : α} (h : P a) : Succeeds (.ok a) P := ⟨a, rfl, h⟩

theorem Succeeds.imp (h : Succeeds x P) (himp : ∀ a, P a → Q a) : Succeeds x Q := by
  obtain ⟨a,ha,hp⟩ := h
  exact ⟨a,ha,himp a hp⟩

theorem Succeeds.bind (h : Succeeds x P) {f : α → Except Exit β} (hf : ∀ a, P a → Succeeds (f a) R) :
    Succeeds (x.bind f) R := by
  obtain ⟨a,rfl,hp⟩ := h
  exact hf a hp

theorem Succeeds.map {f : α → β} (h : Succeeds x fun a => R (f a)) : Succeeds (x.map f) R := by
  obtain ⟨a,rfl,hp⟩ := h
  exact ⟨f a,rfl,hp⟩

end Succeeds

@[simp] theorem Scheduler.bufs_setBuf_self (s : Scheduler) (p : Nat) (f : SectionBuf → SectionBuf) :
    (s.setBuf p f).bufs p = f (s.bufs p) := if_pos rfl

theorem Scheduler.bufs_setBuf_of_ne (s : Scheduler) {p q : Nat} (h : q ≠ p) (f : SectionBuf → SectionBuf) :
    (s.setBuf p f).bufs q = s.bufs q := if_neg h

theorem StaysStopped.record {events : List FilterEvent} (h : StaysStopped events) {e : FilterEvent}
    (he : ∀ p fd fd', .stopped p fd ∈ events → e ≠ .stopped p fd' ∧ e ≠ .read p fd') :
    StaysStopped (events ++ [e]) := by
  refine List.pairwise_append.mpr ⟨h,List.pairwise_singleton _ _,?_⟩
  rintro a ha b hb p fd fd' rfl
  rw [mem_singleton.mp hb]
  exact he p fd fd' ha

/-! ## The invariant -/

/-- The invariant without the poll arrays. A stopped filter is on no list; the filters on the lists and the stopped
ones have been set up. -/
structure Scheduler.Listed (s : Scheduler) : Prop where
  count : s.nRunning = s.running.length
  bound : s.running.length ≤ maxRunning
  nodup : (s.running ++ s.waiting).Nodup
  opened : ∀ p ∈ s.running, (s.bufs p).fd ≠ -1
  stopped : StaysStopped s.events
  allocated : ∀ p ∈ s.running ++ s.waiting, p < s.next
  gone : ∀ p fd, .stopped p fd ∈ s.events → p < s.next ∧ p ∉ s.running ++ s.waiting

structure Scheduler.Polled (s : Scheduler) : Prop where
  bufs : ∀ i, s.pollSectionBufs i = s.running[i]?
  fds : ∀ i p, s.running[i]? = some p → (s.pollFds i).fd = (s.bufs p).fd

structure Scheduler.Inv (s : Scheduler) : Prop where
  listed : s.Listed
  polled : s.Polled

theorem Scheduler.Inv.consistent {s : Scheduler} (h : s.Inv) : s.Consistent where
  count := h.listed.count
  bound := h.listed.bound
  nodup := h.listed.nodup
  bufs := h.polled.bufs
  fds i p hp := ⟨h.polled.fds i p hp, h.listed.opened p (mem_of_getElem? hp)⟩
  stopped := h.listed.stopped

theorem Scheduler.init_inv (memory : Nat → SectionBuf) : (Scheduler.init memory).Inv where
  listed :=
    { count := rfl
      bound := Nat.zero_le _
      nodup := List.nodup_nil
      opened := fun p hp => absurd hp not_mem_nil
      stopped := List.Pairwise.nil
      allocated := fun p hp => absurd hp not_mem_nil
      gone := fun p fd hp => absurd hp not_mem_nil }
  polled := ⟨fun _ => rfl, fun _ _ hp => absurd hp (by simp [Scheduler.init])⟩

/-! ## The poll arrays -/

theorem fillPollFds_spec (i : Nat) (ps : List Nat) {s : Scheduler} (hcount : s.nRunning = (i + ps.length : Nat))
    (hbound : i + ps.length ≤ maxRunning) (hfd : ∀ p ∈ ps, (s.bufs p).fd ≠ -1)
    (hnull : ∀ j, i ≤ j → s.pollSectionBufs j = none) :
    ∃ fds bufs, fillPollFds i ps s = .ok { s with pollFds := fds, pollSectionBufs := bufs } ∧
      (∀ j < i, fds j = s.pollFds j ∧ bufs j = s.pollSectionBufs j) ∧ (∀ j, bufs (i + j) = ps[j]?) ∧
      ∀ j p, ps[j]? = some p → (fds (i + j)).fd = (s.bufs p).fd := by
  induction ps generalizing i s with
  | nil =>
    refine ⟨s.pollFds,s.pollSectionBufs,?_,fun j _ => ⟨rfl,rfl⟩,fun j => hnull _ (Nat.le_add_right i j),?_⟩
    · rw [length_nil,Nat.add_zero] at hcount
      rw [fillPollFds,if_neg (not_not.mpr hcount.symm)]
    · intro j p hp
      simp at hp
  | cons p ps ih =>
    rw [length_cons] at hcount hbound
    rw [forall_mem_cons] at hfd
    rw [fillPollFds,if_neg (by omega),if_neg hfd.1]
    obtain ⟨fds,bufs,hfill,hbefore,hbufs,hfds⟩ := ih
      (s := { s with
        pollFds := fun j => if j = i then ⟨(s.bufs p).fd,true,false⟩ else s.pollFds j
        pollSectionBufs := fun j => if j = i then some p else s.pollSectionBufs j })
      (i := i + 1) (by rw [hcount]; congr 1; omega) (by omega) hfd.2 (by
        intro j hj
        exact (if_neg (by omega)).trans (hnull j (by omega)))
    refine ⟨fds,bufs,hfill,?_,?_,?_⟩
    · intro j hj
      obtain ⟨hf,hb⟩ := hbefore j (by omega)
      exact ⟨hf.trans (if_neg (by omega)),hb.trans (if_neg (by omega))⟩
    · intro j
      cases j with
      | zero =>
        exact (hbefore i (Nat.lt_succ_self i)).2.trans (if_pos rfl)
      | succ j =>
        rw [getElem?_cons_succ,← hbufs j]
        congr 1
        omega
    · intro j q hq
      cases j with
      | zero =>
        rw [getElem?_cons_zero,Option.some.injEq] at hq
        rw [Nat.add_zero,(hbefore i (Nat.lt_succ_self i)).1,← hq]
        simp
      | succ j =>
        rw [getElem?_cons_succ] at hq
        rw [← hfds j q hq]
        congr 2
        omega

theorem updatePollFds_spec {s : Scheduler} (h : s.Listed) :
    ∃ fds bufs, updatePollFds s = .ok { s with pollFds := fds, pollSectionBufs := bufs } ∧
      Scheduler.Inv { s with pollFds := fds, pollSectionBufs := bufs } := by
  obtain ⟨fds,bufs,hfill,-,hbufs,hfds⟩ := fillPollFds_spec 0 s.running
    (s := { s with pollSectionBufs := fun _ => none, pollFds := fun i => { s.pollFds i with fd := -1 } })
    (by rw [Nat.zero_add]; exact h.count) (by rw [Nat.zero_add]; exact h.bound) h.opened (fun _ _ => rfl)
  simp only [Nat.zero_add] at hbufs hfds
  exact ⟨fds,bufs,hfill,⟨h.count,h.bound,h.nodup,h.opened,h.stopped,h.allocated,h.gone⟩,⟨hbufs,hfds⟩⟩

/-! ## Starting and stopping -/

section Filters

variable {w : FilterWorld} {p : Nat} {s : Scheduler}

theorem Scheduler.Inv.setBuf (h : s.Inv) {f : SectionBuf → SectionBuf}
    (hf : p ∈ s.running → (f (s.bufs p)).fd = (s.bufs p).fd) : (s.setBuf p f).Inv := by
  have hfd : ∀ q ∈ s.running, ((s.setBuf p f).bufs q).fd = (s.bufs q).fd := by
    intro q hq
    by_cases heq : q = p
    · rw [heq,Scheduler.bufs_setBuf_self]
      exact hf (heq ▸ hq)
    · rw [Scheduler.bufs_setBuf_of_ne s heq]
  refine ⟨⟨h.listed.count,h.listed.bound,h.listed.nodup,?_,h.listed.stopped,h.listed.allocated,h.listed.gone⟩,
    ⟨h.polled.bufs,?_⟩⟩
  · intro q hq
    rw [hfd q hq]
    exact h.listed.opened q hq
  · intro i q hq
    rw [hfd q (mem_of_getElem? hq)]
    exact h.polled.fds i q hq

theorem Scheduler.Inv.call (h : s.Inv) : s.call.Inv :=
  ⟨⟨h.listed.count, h.listed.bound, h.listed.nodup, h.listed.opened, h.listed.stopped, h.listed.allocated,
    h.listed.gone⟩, ⟨h.polled.bufs, h.polled.fds⟩⟩

/-- A filter has been set up, and has neither been started nor stopped. -/
structure Scheduler.Startable (s : Scheduler) (p : Nat) : Prop where
  allocated : p < s.next
  idle : p ∉ s.running
  fresh : ∀ fd, .stopped p fd ∉ s.events

/-- What a start does to the lists: nothing, or the filter is the first one that runs. -/
inductive Starts (p : Nat) (s s' : Scheduler) : Bool → Prop
  | failed (running : s'.running = s.running) (waiting : s'.waiting = s.waiting) : Starts p s s' false
  | started (running : s'.running = p :: s.running) (waiting : s'.waiting = s.waiting.erase p) : Starts p s s' true

theorem startFilter_started (h : s.Inv) (hp : s.Startable p) (hfull : ¬ s.nRunning ≥ maxRunning) {t : Scheduler}
    (hrunning : t.running = p :: s.running.erase p) (hwaiting : t.waiting = s.waiting.erase p)
    (hcount : t.nRunning = s.nRunning + 1) (hnext : t.next = s.next) {fd : Int} {params : SctFilterParams}
    (hevents : t.events = s.events ++ [.started p fd params]) (hfd : (t.bufs p).fd ≠ -1)
    (hother : ∀ q ∈ s.running, t.bufs q = s.bufs q) :
    ∃ r, (updatePollFds t).map (fun s => (true, s)) = .ok r ∧ r.2.Inv ∧ r.2.next = s.next ∧
      (∀ q fd, .stopped q fd ∈ r.2.events ↔ .stopped q fd ∈ s.events) ∧ Starts p s r.2 r.1 := by
  rw [List.erase_of_not_mem hp.idle] at hrunning
  have hmem : ∀ q ∈ t.running ++ t.waiting, q = p ∨ q ∈ s.running ++ s.waiting := by
    intro q hq
    rw [hrunning,hwaiting,cons_append,mem_cons,mem_append] at hq
    obtain hq | hq | hq := hq
    · exact .inl hq
    · exact .inr (mem_append_left _ hq)
    · exact .inr (mem_append_right _ (List.mem_of_mem_erase hq))
  have hstopped : ∀ q fd, .stopped q fd ∈ t.events ↔ .stopped q fd ∈ s.events := by simp [hevents]
  have hlisted : t.Listed := by
    constructor
    · rw [hcount,h.listed.count,hrunning,length_cons]
      rfl
    · have := h.listed.count
      rw [hrunning,length_cons]
      omega
    · have hrest := h.listed.nodup.sublist (List.Sublist.append_left (List.erase_sublist (a := p)) s.running)
      rw [hrunning,hwaiting,cons_append,nodup_cons,mem_append,not_or]
      exact ⟨⟨hp.idle,h.listed.nodup.of_append_right.not_mem_erase⟩,hrest⟩
    · intro q hq
      obtain rfl | hq := mem_cons.mp (hrunning ▸ hq)
      · exact hfd
      · rw [hother q hq]
        exact h.listed.opened q hq
    · rw [hevents]
      exact h.listed.stopped.record (by simp)
    · intro q hq
      rw [hnext]
      obtain rfl | hq := hmem q hq
      · exact hp.allocated
      · exact h.listed.allocated q hq
    · intro q fd hq
      obtain ⟨hlt,hoff⟩ := h.listed.gone q fd ((hstopped q fd).mp hq)
      refine ⟨hnext ▸ hlt,fun hq' => ?_⟩
      obtain rfl | hq' := hmem q hq'
      · exact hp.fresh fd ((hstopped q fd).mp hq)
      · exact hoff hq'
  obtain ⟨fds,bufs,hupdate,hinv⟩ := updatePollFds_spec hlisted
  rw [hupdate]
  exact ⟨_,rfl,hinv,hnext,hstopped,.started hrunning hwaiting⟩

theorem startFilter_spec (h : s.Inv) (hp : s.Startable p) :
    ∃ r, startFilter w p s = .ok r ∧ r.2.Inv ∧ r.2.next = s.next ∧
      (∀ q fd, .stopped q fd ∈ r.2.events ↔ .stopped q fd ∈ s.events) ∧ Starts p s r.2 r.1 := by
  rw [startFilter]
  dsimp only
  split_ifs with hfull hopen hset
  · exact ⟨_,rfl,h,rfl,fun _ _ => Iff.rfl,.failed rfl rfl⟩
  · refine ⟨_,rfl,?_,rfl,fun _ _ => Iff.rfl,.failed rfl rfl⟩
    dsimp only
    exact Scheduler.Inv.setBuf (s := s.call) h.call fun hp' => absurd hp' hp.idle
  · refine ⟨_,rfl,?_,rfl,fun _ _ => Iff.rfl,.failed rfl rfl⟩
    exact (Scheduler.Inv.setBuf (s := s.call) h.call fun hp' => absurd hp' hp.idle).call
  · apply startFilter_started h hp hfull
    · rfl
    · rfl
    · rfl
    · rfl
    · rfl
    · simp only [Scheduler.record,Scheduler.call,Scheduler.setBuf,if_true]
      omega
    · intro q hq
      have hne : q ≠ p := by
        rintro rfl
        exact hp.idle hq
      simp only [Scheduler.record,Scheduler.call,Scheduler.setBuf,if_neg hne]

structure Scheduler.Extends (s s' : Scheduler) : Prop where
  inv : s'.Inv
  running : ∀ q ∈ s.running, q ∈ s'.running

theorem Scheduler.Extends.trans {s' s'' : Scheduler} (h : s.Extends s') (h' : s'.Extends s'') : s.Extends s'' :=
  ⟨h'.inv, fun q hq => h'.running q (h.running q hq)⟩

theorem addFilter_spec (h : s.Inv) (hp : s.Startable p) (hwaiting : p ∉ s.waiting) :
    Succeeds (addFilter w p s) s.Extends := by
  obtain ⟨⟨ok,s'⟩,hstart,hinv,hnext,hstopped,hlists⟩ := startFilter_spec (w := w) h hp
  rw [addFilter,hstart]
  refine ⟨_,rfl,?_⟩
  cases hlists with
  | started running waiting => exact ⟨hinv,fun q hq => running ▸ mem_cons_of_mem p hq⟩
  | failed running waiting =>
    dsimp only at running waiting hnext hinv hstopped
    have hoff : p ∉ s'.running ++ s'.waiting := by
      rw [running,waiting,mem_append,not_or]
      exact ⟨hp.idle,hwaiting⟩
    have hmem : ∀ q ∈ s'.running ++ (s'.waiting ++ [p]), q = p ∨ q ∈ s'.running ++ s'.waiting := by
      intro q hq
      rw [← append_assoc,mem_append,mem_singleton] at hq
      exact hq.symm
    have hlisted := hinv.listed
    refine ⟨⟨⟨hlisted.count,hlisted.bound,?_,hlisted.opened,hlisted.stopped,?_,?_⟩,⟨hinv.polled.bufs,
      hinv.polled.fds⟩⟩,fun q hq => running ▸ hq⟩
    · dsimp only
      rw [if_neg Bool.false_ne_true,← append_assoc]
      exact hlisted.nodup.append (List.nodup_singleton p) (List.disjoint_singleton.mpr hoff)
    · intro q hq
      obtain rfl | hq := hmem q hq
      · exact hnext ▸ hp.allocated
      · exact hlisted.allocated q hq
    · intro q fd hq
      obtain ⟨hlt,hout⟩ := hlisted.gone q fd hq
      refine ⟨hlt,fun hq' => ?_⟩
      obtain rfl | hq' := hmem q hq'
      · exact hp.fresh fd ((hstopped q fd).mp hq)
      · exact hout hq'

/-- The state in which `setup_filter` leaves the filter that is added. -/
def Scheduler.allocate (s : Scheduler) (longTimeout : Bool) (f : FilterSetup) : Scheduler :=
  { s with
    bufs := fun q => if q = s.next then setupFilter longTimeout f else s.bufs q
    next := s.next + 1 }

theorem Scheduler.Inv.next_idle (h : s.Inv) : s.next ∉ s.running ∧ s.next ∉ s.waiting := by
  have hnew : s.next ∉ s.running ++ s.waiting := fun hmem => Nat.lt_irrefl _ (h.listed.allocated _ hmem)
  rwa [mem_append,not_or] at hnew

theorem Scheduler.Inv.allocate (longTimeout : Bool) (f : FilterSetup) (h : s.Inv) :
    (s.allocate longTimeout f).Inv ∧ (s.allocate longTimeout f).Startable s.next := by
  have hset : (s.setBuf s.next fun _ => setupFilter longTimeout f).Inv := h.setBuf fun hp => absurd hp h.next_idle.1
  refine ⟨⟨⟨h.listed.count,h.listed.bound,h.listed.nodup,hset.listed.opened,h.listed.stopped,?_,?_⟩,
    ⟨h.polled.bufs,hset.polled.fds⟩⟩,Nat.lt_succ_self _,h.next_idle.1,fun fd hfd => ?_⟩
  · exact fun q hq => Nat.lt_succ_of_lt (h.listed.allocated q hq)
  · exact fun q fd hq => ⟨Nat.lt_succ_of_lt (h.listed.gone q fd hq).1,(h.listed.gone q fd hq).2⟩
  · exact Nat.lt_irrefl _ (h.listed.gone _ fd hfd).1

theorem newFilter_spec (longTimeout : Bool) (f : FilterSetup) (h : s.Inv) :
    Succeeds (newFilter longTimeout w f s) s.Extends := by
  obtain ⟨hinv,hstartable⟩ := h.allocate longTimeout f
  have hadd : Succeeds (addFilter w s.next (s.allocate longTimeout f)) (s.allocate longTimeout f).Extends :=
    addFilter_spec hinv hstartable h.next_idle.2
  exact hadd.imp fun s' h' => ⟨h'.inv,h'.running⟩

theorem stopFilter_spec (h : s.Inv) (hp : p ∈ s.running) : Succeeds (stopFilter w p s) fun t =>
      t.Inv ∧ t.running = s.running.erase p ∧ t.waiting = s.waiting ∧ t.calls = s.calls + 1 := by
  obtain ⟨hrunning,hwaiting,hdisjoint⟩ := nodup_append.mp h.listed.nodup
  have hsub : (s.running.erase p ++ s.waiting.erase p).Sublist (s.running ++ s.waiting) :=
    List.erase_sublist.append List.erase_sublist
  have hlisted : Scheduler.Listed
      { (s.call.record (.stopped p (s.bufs p).fd)).setBuf p
          (fun b => { b with fd := -1, runningTime := b.runningTime + (w.clock s.calls - b.startTime) }) with
        running := s.running.erase p
        waiting := s.waiting.erase p
        nRunning := s.nRunning - 1 } := by
    constructor
    · have hpos := List.length_pos_of_mem hp
      have hcount := h.listed.count
      simp only [List.length_erase_of_mem hp]
      omega
    · exact Nat.le_trans List.length_erase_le h.listed.bound
    · exact h.listed.nodup.sublist hsub
    · intro q hq
      obtain ⟨hne,hq⟩ := hrunning.mem_erase_iff.mp hq
      simp only [Scheduler.record,Scheduler.call,Scheduler.setBuf,if_neg hne]
      exact h.listed.opened q hq
    · apply h.listed.stopped.record
      intro q fd fd' hq
      refine ⟨?_,FilterEvent.noConfusion⟩
      rintro heq
      cases heq
      exact (h.listed.gone p fd hq).2 (mem_append_left _ hp)
    · exact fun q hq => h.listed.allocated q (hsub.subset hq)
    · intro q fd hq
      obtain hq | hq := mem_append.mp hq
      · obtain ⟨hlt,hoff⟩ := h.listed.gone q fd hq
        exact ⟨hlt,fun hq' => hoff (hsub.subset hq')⟩
      · cases mem_singleton.mp hq
        refine ⟨h.listed.allocated p (mem_append_left _ hp),fun hq' => ?_⟩
        obtain hq' | hq' := mem_append.mp hq'
        · exact hrunning.not_mem_erase hq'
        · exact hdisjoint p hp p (List.mem_of_mem_erase hq') rfl
  obtain ⟨fds,bufs,hupdate,hinv⟩ := updatePollFds_spec hlisted
  have hidle : p ∉ s.waiting := fun hq => hdisjoint p hp p hq rfl
  exact ⟨_,hupdate,hinv,rfl,List.erase_of_not_mem hidle,rfl⟩

theorem Scheduler.Inv.startable_head (h : s.Inv) {waiting : List Nat} (hwaiting : s.waiting = p :: waiting) :
    s.Startable p := by
  have hmem : p ∈ s.running ++ s.waiting := mem_append_right _ (hwaiting ▸ mem_cons_self)
  refine ⟨h.listed.allocated p hmem,?_,fun fd hfd => (h.listed.gone p fd hfd).2 hmem⟩
  intro hrun
  exact (nodup_append.mp h.listed.nodup).2.2 p hrun p (hwaiting ▸ mem_cons_self) rfl

theorem startWaiting_spec (fuel : Nat) (h : s.Inv) (hfuel : s.waiting.length ≤ fuel) :
    Succeeds (startWaiting w fuel s) s.Extends := by
  induction fuel generalizing s with
  | zero =>
    rw [startWaiting,if_pos (eq_nil_of_length_eq_zero (Nat.le_zero.mp hfuel))]
    exact .ok ⟨h,fun _ hq => hq⟩
  | succ fuel ih =>
    rw [startWaiting]
    split
    next => exact .ok ⟨h,fun _ hq => hq⟩
    next p waiting hwaiting =>
      refine Succeeds.bind (startFilter_spec h (h.startable_head hwaiting)) ?_
      rintro ⟨ok,s'⟩ ⟨hinv,-,-,hlists⟩
      cases hlists with
      | failed running waiting => exact .ok ⟨hinv,fun q hq => running ▸ hq⟩
      | started running waiting' =>
        dsimp only at running waiting'
        have hlength : s'.waiting.length ≤ fuel := by
          rw [waiting',hwaiting,List.erase_cons_head]
          rw [hwaiting,length_cons] at hfuel
          omega
        exact (ih hinv hlength).imp fun t ht => ⟨ht.inv,fun q hq =>
          ht.running q (running ▸ mem_cons_of_mem p hq)⟩

theorem removeFilter_spec (h : s.Inv) (hp : p ∈ s.running) : Succeeds (removeFilter w p s) Scheduler.Inv :=
  (stopFilter_spec h hp).bind fun s' h' =>
    (startWaiting_spec s'.waiting.length h'.1 (Nat.le_refl _)).imp fun _ ht => ht.inv

end Filters

/-! ## Reading -/

section Reading

variable {longTimeout : Bool} {w : FilterWorld} {p : Nat} {s : Scheduler}

theorem Scheduler.Inv.setServices (h : s.Inv) (services : List Service) : s.Extends { s with services := services } :=
  ⟨⟨⟨h.listed.count, h.listed.bound, h.listed.nodup, h.listed.opened, h.listed.stopped, h.listed.allocated,
    h.listed.gone⟩, ⟨h.polled.bufs, h.polled.fds⟩⟩, fun _ hq => hq⟩

theorem patEntry_spec (serviceId pmtPid : Nat) (h : s.Inv) :
    Succeeds (patEntry longTimeout w serviceId pmtPid s) s.Extends := by
  rw [patEntry]
  split_ifs
  · exact (newFilter_spec longTimeout _ (h.setServices _).inv).imp fun _ h' => (h.setServices _).trans h'
  · exact .ok (h.setServices _)

theorem parsePat_spec (fuel : Nat) (buf : Mem UInt8) {len : Nat} (hfuel : len ≤ fuel) (h : s.Inv) :
    Succeeds (parsePat longTimeout w fuel buf len s) s.Extends := by
  induction fuel generalizing buf len s with
  | zero =>
    rw [parsePat,if_pos (Nat.le_zero.mp hfuel)]
    exact .ok ⟨h,fun _ hq => hq⟩
  | succ fuel ih =>
    rw [parsePat]
    dsimp only
    by_cases hlen : len = 0
    · rw [if_pos hlen]
      exact .ok ⟨h,fun _ hq => hq⟩
    · rw [if_neg hlen]
      apply Succeeds.bind (P := s.Extends)
      · split_ifs
        · exact .ok ⟨h,fun _ hq => hq⟩
        · exact patEntry_spec _ _ h
      · intro s' h'
        exact (ih _ (by omega) h'.inv).imp fun s'' h'' => h'.trans h''

theorem parseSection_spec (parsed : Parsed) (h : s.Inv) : Succeeds (parseSection longTimeout w parsed s) s.Extends := by
  cases parsed with
  | pat buf len => exact parsePat_spec len buf (Nat.le_refl len) h
  | services ids => exact .ok (h.setServices _)

theorem Scheduler.Inv.record_read (h : s.Inv) (hp : p ∈ s.running) (fd : Int) : (s.record (.read p fd)).Inv := by
  refine ⟨⟨h.listed.count,h.listed.bound,h.listed.nodup,h.listed.opened,?_,h.listed.allocated,?_⟩,
    ⟨h.polled.bufs,h.polled.fds⟩⟩
  · apply h.listed.stopped.record
    intro q fd' _ hq
    refine ⟨FilterEvent.noConfusion,?_⟩
    rintro heq
    cases heq
    exact (h.listed.gone p fd' hq).2 (mem_append_left _ hp)
  · intro q fd' hq
    exact h.listed.gone q fd' (by simpa [Scheduler.record] using hq)

theorem readSections_spec (w : FilterWorld) (longTimeout : Bool) (h : s.Inv) (hp : p ∈ s.running) :
    Succeeds (readSections longTimeout w p s) fun r => s.Extends r.2 := by
  rw [readSections]
  dsimp only
  split_ifs
  · exact .ok ⟨h,fun _ hq => hq⟩
  · apply Succeeds.map
    refine (parseSection_spec _ (Scheduler.Inv.record_read (s := s.call) h.call hp _)).imp fun s' h' => ⟨?_,h'.running⟩
    dsimp only
    exact h'.inv.setBuf fun _ => rfl

theorem finishPass_spec (done : Bool) (h : s.Inv) (hp : p ∈ s.running) :
    Succeeds (finishPass w p done s) Scheduler.Inv := by
  obtain ⟨htimed,hp'⟩ :
      (if done = true then s else s.call).Inv ∧ p ∈ (if done = true then s else s.call).running := by
    split_ifs
    · exact ⟨h,hp⟩
    · exact ⟨h.call,hp⟩
  rw [finishPass]
  generalize (if done = true then s else s.call) = timed at htimed hp' ⊢
  split_ifs
  · exact removeFilter_spec htimed hp'
  · exact .ok htimed
  · exact .ok htimed

theorem readPass_spec {i : Nat} (h : s.Inv) (hi : (i : Int) < s.nRunning) :
    Succeeds (readPass longTimeout w i s) Scheduler.Inv := by
  have hlt : i < s.running.length := by
    rw [h.listed.count] at hi
    exact Int.ofNat_lt.mp hi
  have hbuf : s.pollSectionBufs i = some (s.running[i]) := (h.polled.bufs i).trans (getElem?_eq_getElem hlt)
  have hp : s.running[i] ∈ s.running := List.getElem_mem hlt
  rw [readPass,hbuf]
  dsimp only
  split_ifs
  · refine (readSections_spec w longTimeout h hp).bind fun r h' => ?_
    exact finishPass_spec _ h'.inv (h'.running _ hp)
  · exact finishPass_spec false h hp

theorem readLoop_spec (fuel i : Nat) (hfuel : maxRunning ≤ i + fuel) (h : s.Inv) :
    Succeeds (readLoop longTimeout w fuel i s) Scheduler.Inv := by
  induction fuel generalizing i s with
  | zero =>
    have hcount := h.listed.count
    have hbound := h.listed.bound
    rw [readLoop,if_neg (by omega)]
    exact .ok h
  | succ fuel ih =>
    rw [readLoop]
    split_ifs with hi
    · exact (readPass_spec h hi).bind fun s' h' => ih (i + 1) (by omega) h'
    · exact .ok h

/-- The state in which `read_filters` begins its loop. -/
def Scheduler.polled (w : FilterWorld) (s : Scheduler) : Scheduler :=
  match w.poll s.calls with
  | none => s.call
  | some revents =>
    { s.call with
      pollFds := fun i => if (i : Int) < s.nRunning then { s.pollFds i with revents := revents i } else s.pollFds i }

theorem Scheduler.polled_lists (w : FilterWorld) (s : Scheduler) :
    (s.polled w).running = s.running ∧ (s.polled w).waiting = s.waiting := by
  rw [Scheduler.polled]
  split
  · exact ⟨rfl,rfl⟩
  · exact ⟨rfl,rfl⟩

theorem Scheduler.Inv.poll (h : s.Inv) : (s.polled w).Inv := by
  rw [Scheduler.polled]
  split
  · exact h.call
  · refine ⟨⟨h.listed.count,h.listed.bound,h.listed.nodup,h.listed.opened,h.listed.stopped,h.listed.allocated,
      h.listed.gone⟩,⟨h.polled.bufs,fun i p hp => ?_⟩⟩
    dsimp only
    split_ifs
    · exact h.polled.fds i p hp
    · exact h.polled.fds i p hp

theorem readFilters_eq (longTimeout : Bool) (w : FilterWorld) (s : Scheduler) :
    readFilters longTimeout w s = readLoop longTimeout w maxRunning 0 (s.polled w) := rfl

theorem readFilters_spec (h : s.Inv) : Succeeds (readFilters longTimeout w s) Scheduler.Inv := by
  rw [readFilters_eq]
  exact readLoop_spec maxRunning 0 (by omega) h.poll

end Reading

/-! ## Runs -/

theorem Scheduler.step_spec (longTimeout : Bool) (w : FilterWorld) {s : Scheduler} (h : s.Inv) (op : FilterOp) :
    Succeeds (s.step longTimeout w op) Scheduler.Inv := by
  cases op with
  | add f => exact (newFilter_spec longTimeout f h).imp fun _ h' => h'.inv
  | remove k =>
    rw [Scheduler.step]
    split
    next => exact .ok h
    next p hp => exact removeFilter_spec h (mem_of_getElem? hp)
  | read => exact readFilters_spec h
  | retune services => exact .ok (h.setServices services).inv

theorem Scheduler.run_spec (longTimeout : Bool) (w : FilterWorld) {s : Scheduler} (h : s.Inv) (ops : List FilterOp) :
    Succeeds (s.run longTimeout w ops) Scheduler.Inv := by
  induction ops generalizing s with
  | nil => exact .ok h
  | cons op ops ih => exact (Scheduler.step_spec longTimeout w h op).bind fun _ h' => ih h'

/-- Whatever the system calls return, the scheduler reaches no `fatal` and is consistent. -/
theorem scheduler_consistent (longTimeout : Bool) (w : FilterWorld) (memory : Nat → SectionBuf) (ops : List FilterOp) :
    ∃ s, (Scheduler.init memory).run longTimeout w ops = .ok s ∧ s.Consistent :=
  (Scheduler.run_spec longTimeout w (Scheduler.init_inv memory) ops).imp fun _ h => h.consistent

end LinuxDvb.Scan
