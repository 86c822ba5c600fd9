import LinuxDvb.DvbCore.Dmxdev.Filter

/-!
# What a call does to the filters

A start or a stop of one filter leaves the other filters alone, except that `dvb_dmxdev_feed_restart` puts the next
filter that runs on the same PID into state GO.
-/

namespace LinuxDvb.Dmxdev

open Ringbuffer Demux

variable {filters feeds : Nat}

def DmxdevFilter.Parked (f : DmxdevFilter feeds) : Prop := f.state.running = false ∧ f.timer = false

/-- The effect of `dvb_dmxdev_feed_start` on a filter. -/
def DmxdevFilter.rearm (f : DmxdevFilter feeds) : DmxdevFilter feeds := { f with state := .go }

/-- A timer is pending only while a section filter waits, and a started section filter has a feed. -/
structure DmxdevFilter.Consistent (f : DmxdevFilter feeds) : Prop where
  timer : f.timer = true → f.type = .sec ∧ f.state = .go
  feed : f.type = .sec → f.state.running = true → f.feedSec.isSome

theorem DmxdevFilter.Parked.consistent {f : DmxdevFilter feeds} (h : f.Parked) : f.Consistent where
  timer := fun ht => absurd ht (by simp [h.2])
  feed := fun _ hr => absurd hr (by simp [h.1])

theorem DmxdevFilter.Consistent.of_not_running {f : DmxdevFilter feeds} (h : f.Consistent)
    (hr : f.state.running = false) : f.Parked := by
  refine ⟨hr,?_⟩
  rw [Bool.eq_false_iff]
  intro ht
  rw [(h.timer ht).2] at hr
  cases hr

theorem DmxdevFilter.Consistent.rearm {f : DmxdevFilter feeds} (h : f.Consistent)
    (hrun : f.state.running = true) : f.rearm.Consistent where
  timer := fun ht => ⟨(h.timer ht).1, rfl⟩
  feed := fun htype _ => h.feed htype hrun

namespace Device

@[simp] theorem updFilter_self (d : Device filters feeds) (i : Fin filters)
    (g : DmxdevFilter feeds → DmxdevFilter feeds) : (d.updFilter i g).filter i = g (d.filter i) :=
  Function.update_self ..

theorem updFilter_of_ne (d : Device filters feeds) {i j : Fin filters} (h : j ≠ i)
    (g : DmxdevFilter feeds → DmxdevFilter feeds) : (d.updFilter i g).filter j = d.filter j :=
  Function.update_of_ne h ..

@[simp] theorem updFilter_feed (d : Device filters feeds) (i : Fin filters)
    (g : DmxdevFilter feeds → DmxdevFilter feeds) : (d.updFilter i g).feed = d.feed := rfl

@[simp] theorem updFilter_secfilter (d : Device filters feeds) (i : Fin filters)
    (g : DmxdevFilter feeds → DmxdevFilter feeds) : (d.updFilter i g).secfilter = d.secfilter := rfl

@[simp] theorem setFeed_filter (d : Device filters feeds) (k : Fin feeds) (feed : DvbDemuxFeed) :
    (d.setFeed k feed).filter = d.filter := rfl

@[simp] theorem setFeed_secfilter (d : Device filters feeds) (k : Fin feeds) (feed : DvbDemuxFeed) :
    (d.setFeed k feed).secfilter = d.secfilter := rfl

@[simp] theorem setFeed_self (d : Device filters feeds) (k : Fin feeds) (feed : DvbDemuxFeed) :
    (d.setFeed k feed).feed k = feed := Function.update_self ..

theorem setFeed_of_ne (d : Device filters feeds) {k l : Fin feeds} (h : l ≠ k) (feed : DvbDemuxFeed) :
    (d.setFeed k feed).feed l = d.feed l := Function.update_of_ne h ..

@[simp] theorem releaseFilter_filter (d : Device filters feeds) (k : Fin feeds) (x : Nat)
    (interrupted : Bool) : (d.releaseFilter k x interrupted).filter = d.filter := by
  unfold releaseFilter
  split
  · rfl
  · split <;> rfl

@[simp] theorem detachSec_filter (d : Device filters feeds) (i : Fin filters) (k : Fin feeds)
    (interrupted : Bool) : (d.detachSec i k interrupted).filter = d.filter := by
  unfold detachSec
  split
  · rfl
  · exact releaseFilter_filter ..

def nextRunning (d : Device filters feeds) (i : Fin filters) : Option (Fin filters) :=
  (List.finRange filters).find? fun j => decide (j ≠ i) && d.runsOn (d.filter i).params.pid j

/-- What a call for filter `i` does to the others; the next one that runs on its PID may be rearmed if the
call restarts the feed. -/
def Spares (d d' : Device filters feeds) (i : Fin filters) (restarts : Prop) : Prop :=
  ∀ j, j ≠ i → d'.filter j = d.filter j ∨
    restarts ∧ d.nextRunning i = some j ∧ d'.filter j = (d.filter j).rearm

variable {d d' d'' : Device filters feeds} {i j : Fin filters} {restarts restarts' : Prop}

theorem runsOn_of_nextRunning (h : d.nextRunning i = some j) : j ≠ i ∧ d.runsOn (d.filter i).params.pid j = true := by
  have hj := find?_some h
  rw [Bool.and_eq_true,decide_eq_true_eq] at hj
  exact hj

theorem running_of_runsOn {pid : Nat} (h : d.runsOn pid j = true) :
    (d.filter j).state.running = true ∧ (d.filter j).type = .sec ∧ (d.filter j).params.pid = pid := by
  rw [runsOn,decide_eq_true_eq] at h
  exact h

theorem findRunning_eq (h : (d.filter i).state.running = false) :
    d.findRunning (d.filter i).params.pid = d.nextRunning i := by
  unfold findRunning nextRunning
  congr 1
  funext j
  by_cases hj : j = i
  · subst hj
    simp [runsOn,h]
  · simp [hj]

theorem Spares.of_eq (h : ∀ j, j ≠ i → d'.filter j = d.filter j) : Spares d d' i restarts :=
  fun j hj => .inl (h j hj)

theorem Spares.updFilter (h : Spares d d' i restarts) (g : DmxdevFilter feeds → DmxdevFilter feeds) :
    Spares d (d'.updFilter i g) i restarts := by
  intro j hj
  rw [updFilter_of_ne _ hj]
  exact h j hj

theorem Spares.mono (h : Spares d d' i restarts) (himp : restarts → restarts') : Spares d d' i restarts' := by
  intro j hj
  apply (h j hj).imp id
  intro hre
  exact ⟨himp hre.1,hre.2⟩

theorem Spares.runsOn (h : Spares d d' i restarts) (hj : j ≠ i) (pid : Nat) : d'.runsOn pid j = d.runsOn pid j := by
  cases h j hj with
  | inl heq => rw [Device.runsOn,Device.runsOn,heq]
  | inr hre =>
    have hrun := (running_of_runsOn (runsOn_of_nextRunning hre.2.1).2).1
    rw [Device.runsOn,Device.runsOn,hre.2.2,hrun]
    rfl

theorem Spares.nextRunning (h : Spares d d' i restarts) (hpid : (d'.filter i).params.pid = (d.filter i).params.pid) :
    d'.nextRunning i = d.nextRunning i := by
  unfold Device.nextRunning
  congr 1
  funext j
  by_cases hj : j = i
  · simp [hj]
  · rw [hpid,h.runsOn hj]

theorem Spares.trans (h : Spares d d' i restarts)
    (hpid : (d'.filter i).params.pid = (d.filter i).params.pid) (h' : Spares d' d'' i restarts') :
    Spares d d'' i (restarts ∨ restarts') := by
  intro j hj
  have hnext := h.nextRunning hpid
  rcases h j hj with heq | hre
  · rcases h' j hj with heq' | hre'
    · exact .inl (heq'.trans heq)
    · exact .inr ⟨.inr hre'.1,hnext ▸ hre'.2.1,by rw [hre'.2.2,heq]⟩
  · refine .inr ⟨.inl hre.1,hre.2.1,?_⟩
    rcases h' j hj with heq' | hre'
    · rw [heq',hre.2.2]
    · rw [hre'.2.2,hre.2.2]
      rfl

theorem feedStart_filter (d : Device filters feeds) (i : Fin filters) (io : FeedIo) :
    (d.dvbDmxdevFeedStart i io).filter = (d.updFilter i DmxdevFilter.rearm).filter := by
  unfold dvbDmxdevFeedStart
  dsimp only
  split <;> rfl

@[simp] theorem feedStop_filter (d : Device filters feeds) (i : Fin filters) (k : Fin feeds) (io : FeedIo) :
    (d.dvbDmxdevFeedStop i k io).filter =
      (d.updFilter i fun f => { f with state := .set, timer := false }).filter := rfl

theorem feedRestart_spares (hrun : (d.filter i).state.running = false) (k : Fin feeds) (restart : FeedIo)
    (releaseFeed : Bool) :
    Spares d (d.dvbDmxdevFeedRestart i k restart releaseFeed) i True ∧
      (d.dvbDmxdevFeedRestart i k restart releaseFeed).filter i = d.filter i := by
  unfold dvbDmxdevFeedRestart
  rw [findRunning_eq hrun]
  cases hnext : d.nextRunning i with
  | none =>
    dsimp only
    refine ⟨Spares.of_eq fun j _ => ?_,?_⟩ <;> split <;> rfl
  | some l =>
    have hl : l ≠ i := (runsOn_of_nextRunning hnext).1
    dsimp only
    rw [Spares,feedStart_filter,updFilter_of_ne _ hl.symm]
    refine ⟨?_,rfl⟩
    intro j hj
    by_cases hjl : j = l
    · subst hjl
      rw [updFilter_self]
      exact .inr ⟨trivial,hnext,rfl⟩
    · exact .inl (updFilter_of_ne _ hjl _)

def stopped (f : DmxdevFilter feeds) : DmxdevFilter feeds :=
  { f with state := .set, timer := false, feedSec := none }

theorem stopSec_spares (d : Device filters feeds) (i : Fin filters) (k : Fin feeds) (io : StopIo) :
    Spares d (d.stopSec i k io) i True ∧ (d.stopSec i k io).filter i = stopped (d.filter i) := by
  unfold stopSec
  dsimp only
  generalize hd' : (d.dvbDmxdevFeedStop i k io.stopFeed).detachSec i k io.releaseFilter = d'
  have hfilter : d'.filter = (d.updFilter i fun f => { f with state := .set, timer := false }).filter := by
    rw [← hd',detachSec_filter,feedStop_filter]
  have hself : d'.filter i = { d.filter i with state := .set, timer := false } := by
    rw [hfilter,updFilter_self]
  have hothers : Spares d d' i False := Spares.of_eq fun j hj => by rw [hfilter,updFilter_of_ne _ hj]
  have hrun : (d'.filter i).state.running = false := by
    rw [hself]
    rfl
  obtain ⟨hspares,heq⟩ := feedRestart_spares hrun k io.restart io.releaseFeed
  refine ⟨((hothers.trans (by rw [hself]) hspares).mono fun _ => trivial).updFilter _,?_⟩
  rw [updFilter_self,heq,hself]
  rfl

theorem filterStop_spares (d : Device filters feeds) (i : Fin filters) (io : StopIo) :
    Spares d (d.dvbDmxdevFilterStop i io) i
      ((d.filter i).type = .sec ∧ (d.filter i).state.running = true) := by
  unfold dvbDmxdevFilterStop
  cases hrun : (d.filter i).state.running with
  | false => exact Spares.of_eq fun _ _ => rfl
  | true =>
    rw [if_neg (by decide)]
    cases htype : (d.filter i).type with
    | none => exact Spares.of_eq fun _ _ => rfl
    | pes => exact Spares.of_eq fun j hj => updFilter_of_ne _ hj _
    | sec =>
      dsimp only
      cases (d.filter i).feedSec with
      | none => exact Spares.of_eq fun j hj => updFilter_of_ne _ hj _
      | some k =>
        apply Spares.updFilter
        apply (stopSec_spares d i k io).1.mono
        intro _
        exact ⟨rfl,rfl⟩

theorem filterStop_self (d : Device filters feeds) (i : Fin filters) (io : StopIo)
    (h : (d.filter i).type = .sec → (d.filter i).state.running = true → (d.filter i).feedSec.isSome) :
    ((d.dvbDmxdevFilterStop i io).filter i).type = (d.filter i).type ∧
      ((d.dvbDmxdevFilterStop i io).filter i).params = (d.filter i).params ∧
      ((d.filter i).type ≠ .none → ((d.dvbDmxdevFilterStop i io).filter i).state.running = false) := by
  unfold dvbDmxdevFilterStop
  cases hrun : (d.filter i).state.running with
  | false => exact ⟨rfl,rfl,fun _ => hrun⟩
  | true =>
    rw [if_neg (by decide)]
    cases htype : (d.filter i).type with
    | none => exact ⟨htype,rfl,fun hne => absurd rfl hne⟩
    | pes =>
      dsimp only
      rw [updFilter_self]
      exact ⟨htype,rfl,fun _ => rfl⟩
    | sec =>
      obtain ⟨k,hk⟩ := isSome_iff_exists.mp (h htype hrun)
      simp only [hk]
      rw [updFilter_self,(stopSec_spares d i k io).2]
      exact ⟨htype,rfl,fun _ => rfl⟩

theorem filterStop_timer (h : (d.filter i).Consistent) (io : StopIo) :
    ((d.dvbDmxdevFilterStop i io).filter i).timer = false := by
  unfold dvbDmxdevFilterStop
  cases hrun : (d.filter i).state.running with
  | false => exact (h.of_not_running hrun).2
  | true =>
    have htimer : (d.filter i).type ≠ .sec → (d.filter i).timer = false := by
      intro htype
      rw [Bool.eq_false_iff]
      intro ht
      exact htype (h.timer ht).1
    rw [if_neg (by decide)]
    cases htype : (d.filter i).type with
    | none => exact htimer (by simp [htype])
    | pes =>
      dsimp only
      rw [updFilter_self]
      exact htimer (by simp [htype])
    | sec =>
      obtain ⟨k,hk⟩ := isSome_iff_exists.mp (h.feed htype hrun)
      simp only [hk]
      rw [updFilter_self,(stopSec_spares d i k io).2]
      rfl

/-- What a start makes of its own filter: it keeps its parameters, and it waits for the sections of the feed
or has remained parked. -/
structure Started (f f' : DmxdevFilter feeds) : Prop where
  type : f'.type = f.type
  params : f'.params = f.params
  state : f'.Parked ∨ f'.state = .go ∧ (f.type = .sec → f'.feedSec.isSome) ∧
    (f'.timer = true → f.type = .sec)

theorem Started.of_parked {f : DmxdevFilter feeds} (h : f.Parked) : Started f f := ⟨rfl, rfl, .inl h⟩

theorem Started.consistent {f f' : DmxdevFilter feeds} (h : Started f f') : f'.Consistent := by
  rcases h.state with hparked | ⟨hgo,hfeed,htimer⟩
  · exact hparked.consistent
  · exact ⟨fun ht => ⟨h.type.trans (htimer ht),hgo⟩,fun htype _ => hfeed (h.type.symm.trans htype)⟩

theorem attachSec_spares {k : Fin feeds} (io : StartIo feeds) (hparked : (d.filter i).Parked)
    (hfeed : (d.filter i).feedSec = some k) (htype : (d.filter i).type = .sec) :
    Spares d (d.attachSec i k io) i (d.takeFilter io.allocFilter = none) ∧
      Started (d.filter i) ((d.attachSec i k io).filter i) := by
  unfold attachSec
  cases d.takeFilter io.allocFilter with
  | none =>
    obtain ⟨hspares,heq⟩ := feedRestart_spares hparked.1 k io.restart io.releaseFeed
    refine ⟨hspares.mono fun _ => rfl,?_⟩
    dsimp only
    rw [setFeed_filter,heq]
    exact Started.of_parked hparked
  | some secfilter =>
    dsimp only
    split
    · refine ⟨Spares.of_eq fun j hj => updFilter_of_ne _ hj _,?_⟩
      rw [updFilter_self]
      exact ⟨rfl,rfl,.inl hparked⟩
    · refine ⟨Spares.of_eq fun j hj => ?_,?_⟩
      · rw [updFilter_of_ne _ hj,updFilter_of_ne _ hj]
        rfl
      · rw [updFilter_self,updFilter_self]
        exact ⟨rfl,rfl,.inr ⟨rfl,fun _ => by simp [hfeed],fun _ => htype⟩⟩

/-- The feed that a start on the PID of filter `i` joins. -/
def joinedFeed (d : Device filters feeds) (i : Fin filters) : Option (Fin feeds) :=
  (d.nextRunning i).bind fun j => (d.filter j).feedSec

theorem Spares.joinedFeed (h : Spares d d' i restarts)
    (hpid : (d'.filter i).params.pid = (d.filter i).params.pid) : d'.joinedFeed i = d.joinedFeed i := by
  unfold Device.joinedFeed
  rw [h.nextRunning hpid]
  cases hnext : d.nextRunning i with
  | none => rfl
  | some j =>
    simp only [bind_some]
    rcases h j (runsOn_of_nextRunning hnext).1 with heq | ⟨-,-,heq⟩ <;> rw [heq]
    rfl

theorem nextRunning_of_joinedFeed
    (hall : ∀ j, (d.filter j).type = .sec → (d.filter j).state.running = true → (d.filter j).feedSec.isSome)
    (h : d.joinedFeed i = none) : d.nextRunning i = none := by
  cases hnext : d.nextRunning i with
  | none => rfl
  | some j =>
    obtain ⟨hrun,htype,-⟩ := running_of_runsOn (runsOn_of_nextRunning hnext).2
    obtain ⟨k,hk⟩ := isSome_iff_exists.mp (hall j htype hrun)
    rw [joinedFeed,hnext,bind_some,hk] at h
    cases h

theorem feedRestart_of_alone (hrun : (d.filter i).state.running = false) (halone : d.nextRunning i = none)
    (k : Fin feeds) (restart : FeedIo) (releaseFeed : Bool) :
    d.dvbDmxdevFeedRestart i k restart releaseFeed =
      if releaseFeed then d else d.setFeed k (dvbdmxReleaseSectionFeed (d.feed k)).1 := by
  unfold dvbDmxdevFeedRestart
  rw [findRunning_eq hrun,halone]

theorem clearSec_spares (d : Device filters feeds) (i : Fin filters) : Spares d (d.clearSec i) i False :=
  Spares.of_eq fun _ hj => updFilter_of_ne _ hj _

theorem clearSec_self (d : Device filters feeds) (i : Fin filters) :
    (d.clearSec i).filter i = { d.filter i with filterSec := none, feedSec := none } := updFilter_self ..

theorem joinedFeed_clearSec (d : Device filters feeds) (i : Fin filters) :
    (d.clearSec i).joinedFeed i = d.joinedFeed i :=
  (clearSec_spares d i).joinedFeed (by rw [clearSec_self])

theorem startSec_cases (hrun : (d.filter i).state.running = false) (io : StartIo feeds) :
    (∃ k, d.joinedFeed i = some k ∧ d.startSec i io = (d.clearSec i).joinSec i k io) ∨
      d.startSec i io = d.clearSec i ∨
      d.joinedFeed i = none ∧ ∃ k, (d.feed k).state = .free ∧
        d.startSec i io =
          (d.clearSec i).ownSec i k (dvbdmxAllocateSectionFeed (d.feed k) fun _ _ => 0).1 io := by
  have hrun' : ((d.clearSec i).filter i).state.running = false := by
    rw [clearSec_self]
    exact hrun
  have hjoin : ((d.clearSec i).findRunning ((d.clearSec i).filter i).params.pid).bind
      (fun j => ((d.clearSec i).filter j).feedSec) = d.joinedFeed i := by
    rw [findRunning_eq hrun',← joinedFeed_clearSec]
    rfl
  unfold startSec
  dsimp only
  rw [hjoin]
  cases hk : d.joinedFeed i with
  | some k => exact .inl ⟨k,rfl,rfl⟩
  | none =>
    dsimp only
    cases io.allocFeed with
    | none => exact .inr (.inl rfl)
    | some k =>
      dsimp only
      by_cases hfree : (d.feed k).state = .free
      · rw [if_neg (by simp [dvbdmxAllocateSectionFeed, clearSec, hfree])]
        exact .inr (.inr ⟨rfl,k,hfree,rfl⟩)
      · rw [if_pos (by simp [dvbdmxAllocateSectionFeed, clearSec, hfree, errBusy])]
        exact .inr (.inl rfl)

theorem joinSec_spares {k : Fin feeds} (io : StartIo feeds) (htype : (d.filter i).type = .sec) :
    Spares d (d.joinSec i k io) i (d.takeFilter io.allocFilter = none) ∧
      Started (d.filter i) ((d.joinSec i k io).filter i) := by
  generalize hd' : (d.updFilter i fun f => { f with feedSec := some k }).dvbDmxdevFeedStop i k io.joinStop = d'
  have hself : d'.filter i = { d.filter i with feedSec := some k, state := .set, timer := false } := by
    rw [← hd',feedStop_filter,updFilter_self,updFilter_self]
  have hothers : Spares d d' i False := Spares.of_eq fun j hj => by
    rw [← hd',feedStop_filter,updFilter_of_ne _ hj,updFilter_of_ne _ hj]
  have hpool : d'.takeFilter io.allocFilter = d.takeFilter io.allocFilter := by
    rw [← hd']
    rfl
  obtain ⟨hspares,hstarted⟩ := attachSec_spares (d := d') (i := i) (k := k) io
    (by rw [hself]; exact ⟨rfl,rfl⟩) (by rw [hself]) (by rw [hself]; exact htype)
  have heq : d.joinSec i k io = d'.attachSec i k io := by rw [← hd']; rfl
  rw [hself] at hstarted
  rw [heq,← hpool]
  refine ⟨(hothers.trans (by rw [hself]) hspares).mono (by simp),?_⟩
  exact ⟨hstarted.type,hstarted.params,hstarted.state⟩

theorem ownSec_spares {k : Fin feeds} (feed : DvbDemuxFeed) (io : StartIo feeds)
    (hparked : (d.filter i).Parked) (htype : (d.filter i).type = .sec) (halone : d.nextRunning i = none) :
    Spares d (d.ownSec i k feed io) i (d.takeFilter io.allocFilter = none) ∧
      Started (d.filter i) ((d.ownSec i k feed io).filter i) := by
  unfold ownSec
  dsimp only
  generalize (if io.setInterrupted then (feed, errRestartsys)
    else dmxSectionFeedSet feed (d.filter i).params.pid (d.filter i).params.checkCrc) = set
  generalize hd' : (d.updFilter i fun f => { f with feedSec := some k }).setFeed k set.1 = d'
  have hself : d'.filter i = { d.filter i with feedSec := some k } := by
    rw [← hd',setFeed_filter,updFilter_self]
  have hothers : Spares d d' i False := Spares.of_eq fun j hj => by
    rw [← hd',setFeed_filter,updFilter_of_ne _ hj]
  have hpool : d'.takeFilter io.allocFilter = d.takeFilter io.allocFilter := by
    rw [← hd']
    rfl
  have hparked' : (d'.filter i).Parked := by
    rw [hself]
    exact hparked
  split
  · have hnext : d'.nextRunning i = none := (hothers.nextRunning (by rw [hself])).trans halone
    rw [feedRestart_of_alone hparked'.1 hnext]
    have hfilter : (if io.releaseFeed then d'
        else d'.setFeed k (dvbdmxReleaseSectionFeed (d'.feed k)).1).filter = d'.filter := by
      split <;> rfl
    rw [hfilter,hself]
    refine ⟨?_,rfl,rfl,.inl hparked⟩
    intro j hj
    rw [hfilter]
    exact (hothers j hj).imp id fun hre => hre.1.elim
  · obtain ⟨hspares,hstarted⟩ := attachSec_spares (d := d') (i := i) (k := k) io hparked' (by rw [hself])
      (by rw [hself]; exact htype)
    rw [hself] at hstarted
    rw [← hpool]
    exact ⟨(hothers.trans (by rw [hself]) hspares).mono (by simp),
      hstarted.type,hstarted.params,hstarted.state⟩

theorem startSec_spares (hall : ∀ j, (d.filter j).Consistent) (io : StartIo feeds)
    (hrun : (d.filter i).state.running = false) (htype : (d.filter i).type = .sec) :
    Spares d (d.startSec i io) i (d.takeFilter io.allocFilter = none) ∧
      Started (d.filter i) ((d.startSec i io).filter i) := by
  have hparked : (d.filter i).Parked := (hall i).of_not_running hrun
  have hself := clearSec_self d i
  have hclear := clearSec_spares d i
  have htype' : ((d.clearSec i).filter i).type = .sec := by
    rw [hself]
    exact htype
  have hlift : ∀ d' : Device filters feeds,
      Spares (d.clearSec i) d' i (d.takeFilter io.allocFilter = none) ∧
        Started ((d.clearSec i).filter i) (d'.filter i) →
      Spares d d' i (d.takeFilter io.allocFilter = none) ∧ Started (d.filter i) (d'.filter i) := by
    intro d' h
    rw [hself] at h
    exact ⟨(hclear.trans (by rw [hself]) h.1).mono (by simp),h.2.type,h.2.params,h.2.state⟩
  rcases startSec_cases hrun io with ⟨k,-,heq⟩ | heq | ⟨hjoin,k,-,heq⟩
  · rw [heq]
    exact hlift _ (joinSec_spares io htype')
  · rw [heq]
    refine ⟨hclear.mono False.elim,?_⟩
    rw [hself]
    exact ⟨rfl,rfl,.inl hparked⟩
  · rw [heq]
    apply hlift
    have halone := (hclear.nextRunning (by rw [hself])).trans (nextRunning_of_joinedFeed (fun j => (hall j).feed) hjoin)
    exact ownSec_spares _ io (by rw [hself]; exact hparked) htype' halone

theorem stopRunning_spares (d : Device filters feeds) (i : Fin filters) (io : StopIo) :
    Spares d (d.stopRunning i io) i ((d.filter i).type = .sec ∧ (d.filter i).state.running = true) := by
  unfold stopRunning
  split
  · exact filterStop_spares d i io
  · exact Spares.of_eq fun _ _ => rfl

theorem stopRunning_self (d : Device filters feeds) (i : Fin filters) (io : StopIo)
    (h : (d.filter i).type = .sec → (d.filter i).state.running = true → (d.filter i).feedSec.isSome) :
    ((d.stopRunning i io).filter i).type = (d.filter i).type ∧
      ((d.stopRunning i io).filter i).params = (d.filter i).params ∧
      ((d.filter i).type ≠ .none → ((d.stopRunning i io).filter i).state.running = false) := by
  unfold stopRunning
  cases hrun : (d.filter i).state.running with
  | true => exact filterStop_self d i io h
  | false => exact ⟨rfl,rfl,fun _ => hrun⟩

theorem stopRunning_timer (h : (d.filter i).Consistent) (io : StopIo) :
    ((d.stopRunning i io).filter i).timer = false := by
  unfold stopRunning
  cases hrun : (d.filter i).state.running with
  | true => exact filterStop_timer h io
  | false => exact (h.of_not_running hrun).2

theorem Spares.consistent (h : Spares d d' i restarts) (hall : ∀ j, (d.filter j).Consistent)
    (hself : (d'.filter i).Consistent) (j : Fin filters) : (d'.filter j).Consistent := by
  by_cases hj : j = i
  · rw [hj]
    exact hself
  · rcases h j hj with heq | ⟨-,hnext,heq⟩
    · rw [heq]
      exact hall j
    · rw [heq]
      exact (hall j).rearm (running_of_runsOn (runsOn_of_nextRunning hnext).2).1

theorem filterStop_consistent (hall : ∀ j, (d.filter j).Consistent) (i : Fin filters) (io : StopIo) :
    ∀ j, ((d.dvbDmxdevFilterStop i io).filter j).Consistent := by
  obtain ⟨htype,-,hrun⟩ := filterStop_self d i io (hall i).feed
  have htimer := filterStop_timer (hall i) io
  apply (filterStop_spares d i io).consistent hall
  refine ⟨fun ht => absurd ht (by simp [htimer]),?_⟩
  intro hsec hrunning
  rw [hrun (by rw [← htype, hsec]; decide)] at hrunning
  cases hrunning

theorem stopRunning_consistent (hall : ∀ j, (d.filter j).Consistent) (i : Fin filters) (io : StopIo) :
    ∀ j, ((d.stopRunning i io).filter j).Consistent := by
  unfold stopRunning
  split
  · exact filterStop_consistent hall i io
  · exact hall

theorem takeBuffer_spares (d : Device filters feeds) (i : Fin filters) : Spares d (d.takeBuffer i) i False :=
  Spares.of_eq fun _ hj => updFilter_of_ne _ hj _

theorem takeBuffer_self (d : Device filters feeds) (i : Fin filters) : (d.takeBuffer i).filter i =
      { d.filter i with reader := { (d.filter i).reader with hasData := true } }.flush := updFilter_self ..

theorem takeBuffer_consistent (hall : ∀ j, (d.filter j).Consistent) (i : Fin filters) :
    ∀ j, ((d.takeBuffer i).filter j).Consistent := by
  apply (takeBuffer_spares d i).consistent hall
  rw [takeBuffer_self]
  exact ⟨(hall i).timer,(hall i).feed⟩

theorem filterStart_cases (d : Device filters feeds) (i : Fin filters) (io : StartIo feeds) :
    d.dvbDmxdevFilterStart i io = d ∨
      d.dvbDmxdevFilterStart i io = d.stopRunning i io.stop ∨
      d.dvbDmxdevFilterStart i io = (d.stopRunning i io.stop).takeBuffer i ∨
      (((d.stopRunning i io.stop).takeBuffer i).filter i).type = .pes ∧
        d.dvbDmxdevFilterStart i io =
          ((d.stopRunning i io.stop).takeBuffer i).updFilter i DmxdevFilter.rearm ∨
      (((d.stopRunning i io.stop).takeBuffer i).filter i).type = .sec ∧
        d.dvbDmxdevFilterStart i io = ((d.stopRunning i io.stop).takeBuffer i).startSec i io := by
  unfold dvbDmxdevFilterStart
  split
  · exact .inl rfl
  dsimp only
  split
  · exact .inr (.inl rfl)
  cases (((d.stopRunning i io.stop).takeBuffer i).filter i).type with
  | none => exact .inr (.inr (.inl rfl))
  | sec => exact .inr (.inr (.inr (.inr ⟨rfl,rfl⟩)))
  | pes =>
    dsimp only
    split
    · exact .inr (.inr (.inl rfl))
    · exact .inr (.inr (.inr (.inl ⟨rfl,rfl⟩)))

/-- When a start of filter `i` restarts the feed: it stops a section filter first, or it finds no free
section filter. -/
def StartRestarts (d : Device filters feeds) (i : Fin filters) (io : StartIo feeds) : Prop :=
  (d.filter i).type = .sec ∧ ((d.filter i).state.running = true ∨ d.takeFilter io.allocFilter = none)

instance (d : Device filters feeds) (i : Fin filters) (io : StartIo feeds) :
    Decidable (StartRestarts d i io) :=
  @instDecidableAnd _ _ _ (@instDecidableOr _ _ _ (decidable_of_iff _ Option.isNone_iff_eq_none))

theorem filterStart_spares (hall : ∀ j, (d.filter j).Consistent) (i : Fin filters) (io : StartIo feeds) :
    Spares d (d.dvbDmxdevFilterStart i io) i (StartRestarts d i io) ∧
      ((d.dvbDmxdevFilterStart i io).filter i).params = (d.filter i).params ∧
      ((d.dvbDmxdevFilterStart i io).filter i).Consistent := by
  obtain ⟨htype,hparams,hrun⟩ := stopRunning_self d i io.stop (hall i).feed
  have htimer := stopRunning_timer (hall i) io.stop
  have hall₁ := stopRunning_consistent hall i io.stop
  have hall₂ := takeBuffer_consistent hall₁ i
  have hself := takeBuffer_self (d.stopRunning i io.stop) i
  have hstop : Spares d (d.stopRunning i io.stop) i (StartRestarts d i io) :=
    (stopRunning_spares d i io.stop).mono fun h => ⟨h.1,.inl h.2⟩
  have hbuf : Spares d ((d.stopRunning i io.stop).takeBuffer i) i (StartRestarts d i io) := hstop.updFilter _
  rcases filterStart_cases d i io with heq | heq | heq | ⟨hpes,heq⟩ | ⟨hsec,heq⟩ <;> rw [heq]
  · exact ⟨Spares.of_eq fun _ _ => rfl,rfl,hall i⟩
  · exact ⟨hstop,hparams,hall₁ i⟩
  · refine ⟨hbuf,?_,hall₂ i⟩
    rw [hself]
    exact hparams
  · refine ⟨hbuf.updFilter _,?_,?_⟩ <;> rw [updFilter_self]
    · rw [hself]
      exact hparams
    · refine ⟨fun ht => ?_,fun hs => absurd (hpes.symm.trans hs) (by decide)⟩
      rw [hself] at ht
      exact absurd ht (by simp [DmxdevFilter.flush,DmxdevFilter.rearm,htimer])
  · have htype' : (d.filter i).type = .sec := by
      rw [← htype,← hsec,hself]
      rfl
    have hidle : (((d.stopRunning i io.stop).takeBuffer i).filter i).state.running = false := by
      rw [hself]
      exact hrun (by rw [htype']; decide)
    have hpid : (((d.stopRunning i io.stop).takeBuffer i).filter i).params = (d.filter i).params := by
      rw [hself]
      exact hparams
    obtain ⟨hspares,hstarted⟩ := startSec_spares hall₂ io hidle hsec
    refine ⟨?_,hstarted.params.trans hpid,hstarted.consistent⟩
    apply (hbuf.trans (by rw [hpid]) hspares).mono
    intro h
    cases h with
    | inl h => exact h
    | inr hnone =>
      refine ⟨htype',?_⟩
      cases hrunning : (d.filter i).state.running with
      | true => exact .inl rfl
      | false =>
        -- nothing was stopped, so the pool is the one before the call
        rw [stopRunning,hrunning] at hnone
        exact .inr hnone

theorem updFilter_consistent (hall : ∀ j, (d.filter j).Consistent)
    {g : DmxdevFilter feeds → DmxdevFilter feeds} (hself : (g (d.filter i)).Consistent) :
    ∀ j, ((d.updFilter i g).filter j).Consistent := by
  intro j
  by_cases hj : j = i
  · subst hj
    rw [updFilter_self]
    exact hself
  · rw [updFilter_of_ne _ hj]
    exact hall j

theorem sectionCallback_consistent (hall : ∀ j, (d.filter j).Consistent) (i : Fin filters)
    (bytes : List UInt8) : ∀ j, ((d.dvbDmxdevSectionCallback i bytes).1.filter j).Consistent := by
  unfold dvbDmxdevSectionCallback
  dsimp only
  split
  · exact hall
  split
  · exact hall
  · rename_i hgo
    rw [ne_eq,not_not] at hgo
    dsimp only
    apply updFilter_consistent hall
    refine ⟨fun ht => (by cases ht),fun hsec _ => ?_⟩
    exact (hall i).feed hsec (by rw [hgo]; rfl)

theorem callbacks_consistent (hall : ∀ j, (d.filter j).Consistent) (es : List DemuxEvent) :
    ∀ j, ((d.callbacks es).1.filter j).Consistent := by
  induction es generalizing d with
  | nil => exact hall
  | cons e es ih =>
    cases e with
    | cbSec x bytes =>
      apply ih
      cases (d.secfilter x).priv with
      | none => exact hall
      | some i => exact sectionCallback_consistent hall i bytes
    | sectionFeed bytes => exact ih hall
    | cbTs feed bytes => exact ih hall
    | writeToDecoder feed bytes => exact ih hall

theorem whenReady_consistent (hall : ∀ j, (d.filter j).Consistent) (i : Fin filters)
    {r : Device filters feeds × List (Fin filters × FilterEvent)} (hr : ∀ j, (r.1.filter j).Consistent) :
    ∀ j, ((d.whenReady i r).1.filter j).Consistent := by
  unfold Device.whenReady
  split
  · exact hr
  · exact hall

theorem stopUpdate_consistent (hall : ∀ j, (d.filter j).Consistent) (i : Fin filters) (io : StopIo)
    {g : DmxdevFilter feeds → DmxdevFilter feeds} (hstate : ∀ f, (g f).state.running = false)
    (htimer : ∀ f, (g f).timer = f.timer) :
    ∀ j, (((d.dvbDmxdevFilterStop i io).updFilter i g).filter j).Consistent := by
  apply updFilter_consistent (filterStop_consistent hall i io)
  apply DmxdevFilter.Parked.consistent
  exact ⟨hstate _,(htimer _).trans (filterStop_timer (hall i) io)⟩

end Device

open Device in
theorem dmxdevStep_consistent {d : Device filters feeds} (hall : ∀ j, (d.filter j).Consistent)
    (op : DmxdevInput filters feeds) : ∀ j, ((dmxdevStep d op).1.filter j).Consistent := by
  cases op with
  | «open» =>
    dsimp only [dmxdevStep]
    cases (List.finRange filters).find? fun l => !d.isOpen l with
    | none => exact hall
    | some l => exact updFilter_consistent hall (DmxdevFilter.Parked.consistent ⟨rfl, rfl⟩)
  | setFilter l params io =>
    apply whenReady_consistent hall
    dsimp only
    apply stopUpdate_consistent hall l io
    · exact fun _ => rfl
    · exact fun _ => rfl
  | setPesFilter l params io =>
    apply whenReady_consistent hall
    dsimp only
    apply stopUpdate_consistent hall l io
    · exact fun _ => rfl
    · exact fun _ => rfl
  | setBufferSize l size vmalloc =>
    apply whenReady_consistent hall
    unfold dvbDmxdevSetBufferSize
    split
    · exact hall
    split
    · exact hall
    · dsimp only
      apply updFilter_consistent hall
      exact ⟨(hall l).timer, (hall l).feed⟩
  | start l io =>
    apply whenReady_consistent hall
    split
    · obtain ⟨hspares, -, hcons⟩ := filterStart_spares hall l io
      exact hspares.consistent hall hcons
    · exact hall
  | stop l io =>
    apply whenReady_consistent hall
    exact filterStop_consistent hall l io
  | close l io =>
    apply whenReady_consistent hall
    dsimp only
    apply stopUpdate_consistent hall l io
    · exact fun _ => rfl
    · exact fun _ => rfl
  | «section» k secbufBase secbuf =>
    dsimp only [dmxdevStep]
    unfold sectionArrives
    split
    · exact hall
    · exact callbacks_consistent (d := d.setFeed k _) hall _
  | timeout l =>
    dsimp only [dmxdevStep]
    split
    · rename_i htimer
      dsimp only
      apply updFilter_consistent hall
      refine ⟨fun ht => (by cases ht), fun hs _ => ?_⟩
      exact (hall l).feed hs (by rw [((hall l).timer htimer).2]; rfl)
    · exact hall
  | read l count =>
    dsimp only [dmxdevStep]
    apply updFilter_consistent hall
    exact ⟨(hall l).timer, (hall l).feed⟩
  | resume l =>
    dsimp only [dmxdevStep]
    apply updFilter_consistent hall
    exact ⟨(hall l).timer, (hall l).feed⟩

theorem consistent_dmxdevInit (j : Fin filters) : ((dmxdevInit filters feeds).filter j).Consistent :=
  DmxdevFilter.Parked.consistent ⟨rfl, rfl⟩

end LinuxDvb.Dmxdev
