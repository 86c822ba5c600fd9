import LinuxDvb.DvbCore.Demux.FeedApi

/-!
# Lock discipline of the feed API

Every operation gives the mutex back on every way out and takes it only while it is free, with one exception:
the release of a section filter stops the feed first if it is filtering, through a function that takes the
mutex itself.
-/

namespace LinuxDvb.FeedApi

variable {σ : Type} {n m : Nat} {hooks : Hooks σ} {demux : DvbDemux σ n m}

/-- The call does not try to take a mutex that it holds, and the mutex is free when it returns. -/
def Outcome.Disciplined : Outcome σ n m → Prop
  | .returned demux _ => demux.mutex = false
  | .relocks => False
  | .undefined => True

instance (outcome : Outcome σ n m) : Decidable outcome.Disciplined := by
  cases outcome <;> unfold Outcome.Disciplined <;> infer_instance

def ReleasesWhileFiltering (demux : DvbDemux σ n m) (i : Call n m × Bool) : Prop :=
  match i.1 with
  | .releaseFilter feed filter =>
    i.2 = false ∧ (demux.filter filter).feed = some feed ∧ (demux.feed feed).isFiltering = true
  | _ => False

instance (demux : DvbDemux σ n m) (i : Call n m × Bool) : Decidable (ReleasesWhileFiltering demux i) := by
  unfold ReleasesWhileFiltering
  split <;> infer_instance

@[simp] theorem disciplined_unlock (demux : DvbDemux σ n m) (ret : Int) : (demux.unlock ret).Disciplined := rfl

theorem disciplined_lock (h : demux.mutex = false) (signal : Bool) (rest : DvbDemux σ n m → Outcome σ n m) :
    (demux.lock signal rest).Disciplined ↔ (signal = false → (rest { demux with mutex := true }).Disciplined) := by
  unfold DvbDemux.lock
  rw [h,if_neg Bool.false_ne_true]
  cases signal with
  | true => exact iff_of_true h (fun hs => absurd hs Bool.noConfusion)
  | false => simp

theorem lock_of_held (h : demux.mutex = true) (signal : Bool) (rest : DvbDemux σ n m → Outcome σ n m) :
    demux.lock signal rest = .relocks := if_pos h

theorem stopFiltering_of_held (h : demux.mutex = true) (feed : Fin n) (signal : Bool) :
    DvbDemux.stopFiltering hooks demux feed signal = .relocks := by
  unfold DvbDemux.stopFiltering
  cases (demux.feed feed).type with
  | ts => exact lock_of_held h signal _
  | sec => exact lock_of_held h signal _
  | pes => exact lock_of_held h signal _

theorem disciplined_unchainFilter (demux : DvbDemux σ n m) (feed : Fin n) (filter : Fin m) :
    (demux.unchainFilter feed filter).Disciplined := by
  unfold DvbDemux.unchainFilter
  split
  · exact disciplined_unlock _ _
  · trivial

/-! ### TS feeds -/

theorem disciplined_tsFeedSet (h : demux.mutex = false) (feed : Fin n) (pid : Nat) (tsType : Demux.TsType)
    (pesType : Nat) (signal : Bool) : (demux.dmxTsFeedSet feed pid tsType pesType signal).Disciplined := by
  unfold DvbDemux.dmxTsFeedSet
  dsimp only
  split
  · exact h
  · refine (disciplined_lock h signal _).mpr fun _ => ?_
    split
    · split
      · exact disciplined_unlock _ _
      · split
        · exact disciplined_unlock _ _
        · exact disciplined_unlock _ _
    · exact disciplined_unlock _ _

theorem disciplined_startFeed (demux : DvbDemux σ n m) (feed : Fin n) :
    (DvbDemux.startFeed hooks demux feed).Disciplined := by
  unfold DvbDemux.startFeed
  cases hooks.startFeed with
  | none => exact disciplined_unlock _ _
  | some startFeed =>
    dsimp only
    split
    · exact disciplined_unlock _ _
    · exact disciplined_unlock _ _

theorem disciplined_stopFeed (demux : DvbDemux σ n m) (feed : Fin n) (state : Demux.DmxState) :
    (DvbDemux.stopFeed hooks demux feed state).Disciplined := by
  unfold DvbDemux.stopFeed
  cases hooks.stopFeed with
  | none => exact disciplined_unlock _ _
  | some stopFeed => exact disciplined_unlock _ _

theorem disciplined_tsFeedStart (h : demux.mutex = false) (feed : Fin n) (signal : Bool) :
    (DvbDemux.dmxTsFeedStartFiltering hooks demux feed signal).Disciplined := by
  refine (disciplined_lock h signal _).mpr fun _ => ?_
  split
  · exact disciplined_unlock _ _
  · exact disciplined_startFeed _ feed

theorem disciplined_tsFeedStop (h : demux.mutex = false) (feed : Fin n) (signal : Bool) :
    (DvbDemux.dmxTsFeedStopFiltering hooks demux feed signal).Disciplined := by
  refine (disciplined_lock h signal _).mpr fun _ => ?_
  split
  · exact disciplined_unlock _ _
  · exact disciplined_stopFeed _ feed .allocated

theorem disciplined_allocateTsFeed (h : demux.mutex = false) (signal : Bool) :
    (demux.dvbdmxAllocateTsFeed signal).Disciplined := by
  refine (disciplined_lock h signal _).mpr fun _ => ?_
  split
  · exact disciplined_unlock _ _
  · dsimp only
    split
    · exact disciplined_unlock _ _
    · exact disciplined_unlock _ _

theorem disciplined_releaseTsFeed (h : demux.mutex = false) (feed : Fin n) (signal : Bool) :
    (demux.dvbdmxReleaseTsFeed feed signal).Disciplined := by
  refine (disciplined_lock h signal _).mpr fun _ => ?_
  dsimp only
  split
  · exact disciplined_unlock _ _
  · split
    · trivial
    · split
      · exact disciplined_unlock _ _
      · exact disciplined_unlock _ _

/-! ### Section feeds -/

theorem disciplined_allocateFilter (h : demux.mutex = false) (feed : Fin n) (signal : Bool) :
    (demux.dmxSectionFeedAllocateFilter feed signal).Disciplined := by
  refine (disciplined_lock h signal _).mpr fun _ => ?_
  split
  · exact disciplined_unlock _ _
  · exact disciplined_unlock _ _

theorem disciplined_sectionFeedSet (h : demux.mutex = false) (feed : Fin n) (pid : Nat) (checkCrc signal : Bool) :
    (demux.dmxSectionFeedSet feed pid checkCrc signal).Disciplined := by
  unfold DvbDemux.dmxSectionFeedSet
  split
  · exact h
  · exact (disciplined_lock h signal _).mpr fun _ => disciplined_unlock _ _

theorem disciplined_sectionFeedStart (h : demux.mutex = false) (feed : Fin n) (signal : Bool) :
    (DvbDemux.dmxSectionFeedStartFiltering hooks demux feed signal).Disciplined := by
  refine (disciplined_lock h signal _).mpr fun _ => ?_
  split
  · exact disciplined_unlock _ _
  · split
    · exact disciplined_unlock _ _
    · exact disciplined_startFeed _ feed

theorem disciplined_sectionFeedStop (h : demux.mutex = false) (feed : Fin n) (signal : Bool) :
    (DvbDemux.dmxSectionFeedStopFiltering hooks demux feed signal).Disciplined :=
  (disciplined_lock h signal _).mpr fun _ => disciplined_stopFeed _ feed .ready

theorem disciplined_allocateSectionFeed (h : demux.mutex = false) (signal : Bool) :
    (demux.dvbdmxAllocateSectionFeed signal).Disciplined := by
  refine (disciplined_lock h signal _).mpr fun _ => ?_
  split
  · exact disciplined_unlock _ _
  · exact disciplined_unlock _ _

theorem disciplined_releaseSectionFeed (h : demux.mutex = false) (feed : Fin n) (signal : Bool) :
    (demux.dvbdmxReleaseSectionFeed feed signal).Disciplined := by
  refine (disciplined_lock h signal _).mpr fun _ => ?_
  split
  · exact disciplined_unlock _ _
  · exact disciplined_unlock _ _

theorem disciplined_releaseFilter_iff (h : demux.mutex = false) (feed : Fin n) (filter : Fin m) (signal : Bool) :
    (DvbDemux.dmxSectionFeedReleaseFilter hooks demux feed filter signal).Disciplined ↔
      ¬ ReleasesWhileFiltering demux (.releaseFilter feed filter, signal) := by
  refine (disciplined_lock h signal _).trans ?_
  cases signal with
  | true => exact iff_of_true (fun hs => absurd hs Bool.noConfusion) (fun hr => absurd hr.1 Bool.noConfusion)
  | false =>
    by_cases hfeed : (demux.filter filter).feed = some feed
    · by_cases hfiltering : (demux.feed feed).isFiltering = true
      · -- the nested stop meets the mutex that this call holds
        refine iff_of_false (fun hd => ?_) (fun hr => hr ⟨rfl,hfeed,hfiltering⟩)
        have hbody := hd rfl
        rw [if_neg (not_not.mpr hfeed),if_pos hfiltering,stopFiltering_of_held rfl] at hbody
        exact hbody
      · refine iff_of_true (fun _ => ?_) (fun hr => hfiltering hr.2.2)
        rw [if_neg (not_not.mpr hfeed),if_neg hfiltering]
        exact disciplined_unchainFilter _ feed filter
    · refine iff_of_true (fun _ => ?_) (fun hr => hfeed hr.2.1)
      rw [if_pos hfeed]
      exact disciplined_unlock _ _

/-! ### All operations -/

theorem disciplined_connectFrontend (h : demux.mutex = false) (signal : Bool) :
    (demux.dvbdmxConnectFrontend signal).Disciplined := by
  unfold DvbDemux.dvbdmxConnectFrontend
  split
  · exact h
  · exact (disciplined_lock h signal _).mpr fun _ => disciplined_unlock _ _

theorem disciplined_disconnectFrontend (h : demux.mutex = false) (signal : Bool) :
    (demux.dvbdmxDisconnectFrontend signal).Disciplined :=
  (disciplined_lock h signal _).mpr fun _ => disciplined_unlock _ _

theorem disciplined_call_iff (h : demux.mutex = false) (i : Call n m × Bool) :
    (demux.call hooks i.2 i.1).Disciplined ↔ ¬ ReleasesWhileFiltering demux i := by
  obtain ⟨call,signal⟩ := i
  cases call with
  | allocateTsFeed => exact iff_of_true (disciplined_allocateTsFeed h signal) id
  | tsFeedSet feed pid tsType pesType =>
    exact iff_of_true (disciplined_tsFeedSet h feed pid tsType pesType signal) id
  | tsFeedStart feed => exact iff_of_true (disciplined_tsFeedStart h feed signal) id
  | tsFeedStop feed => exact iff_of_true (disciplined_tsFeedStop h feed signal) id
  | releaseTsFeed feed => exact iff_of_true (disciplined_releaseTsFeed h feed signal) id
  | allocateSectionFeed => exact iff_of_true (disciplined_allocateSectionFeed h signal) id
  | sectionFeedSet feed pid checkCrc =>
    exact iff_of_true (disciplined_sectionFeedSet h feed pid checkCrc signal) id
  | sectionFeedStart feed => exact iff_of_true (disciplined_sectionFeedStart h feed signal) id
  | sectionFeedStop feed => exact iff_of_true (disciplined_sectionFeedStop h feed signal) id
  | allocateFilter feed => exact iff_of_true (disciplined_allocateFilter h feed signal) id
  | releaseFilter feed filter => exact disciplined_releaseFilter_iff h feed filter signal
  | releaseSectionFeed feed => exact iff_of_true (disciplined_releaseSectionFeed h feed signal) id
  | connectFrontend => exact iff_of_true (disciplined_connectFrontend h signal) id
  | disconnectFrontend => exact iff_of_true (disciplined_disconnectFrontend h signal) id

theorem mutex_step (h : demux.mutex = false) {i : Call n m × Bool}
    (hd : (demux.call hooks i.2 i.1).Disciplined) : (demux.step hooks i).1.mutex = false := by
  unfold DvbDemux.step
  cases hcall : demux.call hooks i.2 i.1 with
  | returned demux' ret =>
    rw [hcall] at hd
    exact hd
  | relocks => exact h
  | undefined => exact h

/-- In a run from a state with a free mutex, all calls keep the lock discipline exactly if none releases a
filter of a feed that is filtering. -/
theorem demux_lock_discipline_iff (h : demux.mutex = false) (is : List (Call n m × Bool)) :
    StepsMeet (DvbDemux.step hooks) (fun demux i => (demux.call hooks i.2 i.1).Disciplined) demux is ↔
      StepsMeet (DvbDemux.step hooks) (fun demux i => ¬ ReleasesWhileFiltering demux i) demux is :=
  stepsMeet_iff_of_invariant (fun demux => demux.mutex = false) (fun _ i hfree => disciplined_call_iff hfree i)
    (fun _ i hfree hok => mutex_step hfree ((disciplined_call_iff hfree i).mpr hok)) h is

def oneFeedDemux : DvbDemux Unit 1 1 where
  driver := ()
  mutex := false
  frontend := true
  feed _ := ⟨.sec, .free, 0xffff, ⟨false, false, false⟩, 0, false, false, []⟩
  filter _ := ⟨.sec, .free, none⟩
  pesfilter _ := none
  pids _ := 0xffff
  feedList := []

def willingHooks : Hooks Unit := ⟨some fun s _ => (s, 0), some fun s _ => (s, 0)⟩

theorem demux_lock_discipline_stopped :
    StepsMeet (DvbDemux.step willingHooks) (fun demux i => (demux.call willingHooks i.2 i.1).Disciplined)
      oneFeedDemux
      [(.allocateSectionFeed, false), (.sectionFeedSet 0 18 true, false), (.allocateFilter 0, false),
        (.sectionFeedStart 0, false), (.sectionFeedStop 0, false), (.releaseFilter 0 0, false)] :=
  (demux_lock_discipline_iff rfl _).mpr (by decide)

theorem demux_lock_not_disciplined :
    ¬ StepsMeet (DvbDemux.step willingHooks) (fun demux i => (demux.call willingHooks i.2 i.1).Disciplined)
      oneFeedDemux
      [(.allocateSectionFeed, false), (.sectionFeedSet 0 18 true, false), (.allocateFilter 0, false),
        (.sectionFeedStart 0, false), (.releaseFilter 0 0, false)] := by
  decide

end LinuxDvb.FeedApi
