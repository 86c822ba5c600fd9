import LinuxDvb.DvbCore.Dmxdev.Restart

/-!
# Section filters on shared feeds

The section filters of a feed in use belong to it, and each leads to the filter in its `priv`. A started filter has
one on a feed of its PID that carries its parameters.
-/

namespace LinuxDvb.Dmxdev

open Demux Device

variable {filters feeds : Nat}

def Live (feed : DvbDemuxFeed) : Prop := feed.state ≠ .free

instance (feed : DvbDemuxFeed) : Decidable (Live feed) := inferInstanceAs (Decidable (_ ≠ _))

def SecRuns (f : DmxdevFilter feeds) : Prop := f.type = .sec ∧ f.state.running = true

/-- All section filters that lead to filter `i` hang on feeds with `check_crc = c`. -/
def Attached (d : Device filters feeds) (i : Fin filters) (c : Bool) : Prop :=
  ∀ k, Live (d.feed k) → ∀ f ∈ (d.feed k).filter, (d.secfilter f.index).priv = some i →
    (d.feed k).sec.checkCrc = c

instance (d : Device filters feeds) (i : Fin filters) (c : Bool) : Decidable (Attached d i c) :=
  inferInstanceAs (Decidable (∀ _, _))

/-- Section filter `x` of feed `k` carries the parameters of filter `i`. -/
structure ServedBy (d : Device filters feeds) (i : Fin filters) (k : Fin feeds) (x : Nat)
    (f : DvbDemuxFilter) : Prop where
  feed : (d.filter i).feedSec = some k
  filter : (d.filter i).filterSec = some x
  live : Live (d.feed k)
  pid : (d.feed k).pid = (d.filter i).params.pid
  mem : f ∈ (d.feed k).filter
  index : f.index = x
  priv : (d.secfilter x).priv = some i
  carries : ∃ f₀, f = prepareSecfilter ((d.filter i).params.copyTo f₀)

structure SharedFeeds (d : Device filters feeds) : Prop where
  attached : ∀ i, SecRuns (d.filter i) → Attached d i (d.filter i).params.checkCrc
  owned : ∀ k, Live (d.feed k) → ∀ f ∈ (d.feed k).filter,
    (d.secfilter f.index).inUse = true ∧ (d.secfilter f.index).feed = some k
  served : ∀ i, SecRuns (d.filter i) → ∃ k x f, ServedBy d i k x f
  callback : ∀ k, Live (d.feed k) → (d.feed k).cbSec = fun _ _ => 0

structure SameFeed (feed feed' : DvbDemuxFeed) : Prop where
  live : Live feed' ↔ Live feed
  pid : feed'.pid = feed.pid
  checkCrc : feed'.sec.checkCrc = feed.sec.checkCrc
  cbSec : feed'.cbSec = feed.cbSec
  index : ∀ f' ∈ feed'.filter, ∃ f ∈ feed.filter, f'.index = f.index
  prepared : ∀ f ∈ feed.filter, prepareSecfilter f = f → f ∈ feed'.filter

theorem SameFeed.refl (feed : DvbDemuxFeed) : SameFeed feed feed :=
  ⟨Iff.rfl, rfl, rfl, rfl, fun f hf => ⟨f, hf, rfl⟩, fun _ hf _ => hf⟩

theorem prepareSecfilter_idem (f : DvbDemuxFilter) : prepareSecfilter (prepareSecfilter f) = prepareSecfilter f := rfl

theorem prepareSecfilters_same (feed : DvbDemuxFeed) : SameFeed feed (prepareSecfilters feed) := by
  refine ⟨Iff.rfl,rfl,rfl,rfl,?_,?_⟩
  · intro f' hf'
    obtain ⟨f,hf,rfl⟩ := mem_map.mp hf'
    exact ⟨f,hf,rfl⟩
  · intro f hf heq
    exact mem_map.mpr ⟨f,hf,heq⟩

variable {feed : DvbDemuxFeed}

theorem startFiltering_same (io : FeedIo) (h : Live feed ∨ feed.filter = []) :
    SameFeed feed (startFiltering feed io).1 := by
  unfold startFiltering
  split
  · exact SameFeed.refl feed
  rcases startFiltering_cases feed io.hook with ⟨-,heq⟩ | ⟨-,-,heq | heq⟩ | ⟨-,heq⟩
  · rw [heq]
    exact SameFeed.refl feed
  · rw [heq]
    exact ⟨Iff.rfl,rfl,rfl,rfl,fun f hf => ⟨f,hf,rfl⟩,fun _ hf _ => hf⟩
  · rw [heq]
    have hprep := prepareSecfilters_same feed
    exact ⟨Iff.rfl,rfl,rfl,rfl,hprep.index,hprep.prepared⟩
  · have hlive : Live feed := by
      apply h.resolve_right
      intro hempty
      have hret := congrArg Prod.snd heq
      unfold dmxSectionFeedStartFiltering at hret
      rw [hempty] at hret
      split at hret
      · exact absurd hret (by simp [errBusy])
      · exact absurd hret (by simp [errInval])
    rw [heq]
    have hprep := prepareSecfilters_same feed
    exact ⟨⟨fun _ => hlive,by rintro - ⟨⟩⟩,rfl,rfl,rfl,hprep.index,hprep.prepared⟩

theorem stopFiltering_same (io : FeedIo) (h : Live feed) : SameFeed feed (stopFiltering feed io).1 := by
  unfold stopFiltering
  split
  · exact SameFeed.refl feed
  unfold dmxSectionFeedStopFiltering
  split
  · exact SameFeed.refl feed
  · exact ⟨⟨fun _ => h,fun _ hs => nomatch hs⟩,rfl,rfl,rfl,fun f hf => ⟨f,hf,rfl⟩,fun _ hf _ => hf⟩

structure Shrinks (d d' : Device filters feeds) : Prop where
  live : ∀ k, Live (d'.feed k) → Live (d.feed k)
  checkCrc : ∀ k, Live (d'.feed k) → (d'.feed k).sec.checkCrc = (d.feed k).sec.checkCrc
  cbSec : ∀ k, Live (d'.feed k) → (d'.feed k).cbSec = (d.feed k).cbSec
  index : ∀ k, Live (d'.feed k) → ∀ f' ∈ (d'.feed k).filter, ∃ f ∈ (d.feed k).filter, f'.index = f.index
  priv : ∀ x, (d'.secfilter x).priv = (d.secfilter x).priv

variable {d d' d'' : Device filters feeds} {i j : Fin filters} {k : Fin feeds} {c : Bool}

theorem Shrinks.trans (h : Shrinks d d') (h' : Shrinks d' d'') : Shrinks d d'' where
  live := fun k hk => h.live k (h'.live k hk)
  checkCrc := fun k hk => (h'.checkCrc k hk).trans (h.checkCrc k (h'.live k hk))
  cbSec := fun k hk => (h'.cbSec k hk).trans (h.cbSec k (h'.live k hk))
  index := by
    intro k hk f'' hf''
    obtain ⟨f',hf',heq'⟩ := h'.index k hk f'' hf''
    obtain ⟨f,hf,heq⟩ := h.index k (h'.live k hk) f' hf'
    exact ⟨f,hf,heq'.trans heq⟩
  priv := fun x => (h'.priv x).trans (h.priv x)

theorem Shrinks.of_eq (hfeed : d'.feed = d.feed) (hpool : d'.secfilter = d.secfilter) : Shrinks d d' := by
  refine ⟨?_,?_,?_,?_,?_⟩
  · intro k
    rw [hfeed]
    exact id
  · intro k _
    rw [hfeed]
  · intro k _
    rw [hfeed]
  · intro k _ f hf
    rw [hfeed] at hf
    exact ⟨f,hf,rfl⟩
  · intro x
    rw [hpool]

variable {feed' : DvbDemuxFeed}

theorem Shrinks.setFeed (hlive : Live feed' → Live (d.feed k))
    (hcrc : feed'.sec.checkCrc = (d.feed k).sec.checkCrc) (hcb : feed'.cbSec = (d.feed k).cbSec)
    (hindex : ∀ f' ∈ feed'.filter, ∃ f ∈ (d.feed k).filter, f'.index = f.index) :
    Shrinks d (d.setFeed k feed') := by
  have hcases : ∀ l, l = k ∧ (d.setFeed k feed').feed l = feed' ∨ (d.setFeed k feed').feed l = d.feed l := by
    intro l
    by_cases hl : l = k
    · subst hl
      exact .inl ⟨rfl,setFeed_self ..⟩
    · exact .inr (setFeed_of_ne _ hl _)
  refine ⟨?_,?_,?_,?_,fun _ => rfl⟩
  · intro l
    rcases hcases l with ⟨rfl,heq⟩ | heq
    · rw [heq]
      exact hlive
    · rw [heq]
      exact id
  · intro l _
    rcases hcases l with ⟨rfl,heq⟩ | heq
    · rw [heq,hcrc]
    · rw [heq]
  · intro l _
    rcases hcases l with ⟨rfl,heq⟩ | heq
    · rw [heq,hcb]
    · rw [heq]
  · intro l _ f hf
    rcases hcases l with ⟨rfl,heq⟩ | heq
    · rw [heq] at hf
      exact hindex f hf
    · rw [heq] at hf
      exact ⟨f,hf,rfl⟩

theorem Attached.of_shrinks (h : Attached d i c) (hs : Shrinks d d') : Attached d' i c := by
  intro k hk f' hf' hpriv
  obtain ⟨f,hf,heq⟩ := hs.index k hk f' hf'
  rw [hs.checkCrc k hk]
  apply h k (hs.live k hk) f hf
  rw [← hs.priv,← heq]
  exact hpriv

theorem SharedFeeds.of_shrinks (h : SharedFeeds d) (hs : Shrinks d d')
    (hruns : ∀ i, SecRuns (d'.filter i) → SecRuns (d.filter i) ∧ (d'.filter i).params = (d.filter i).params)
    (howned : ∀ k, Live (d'.feed k) → ∀ f ∈ (d'.feed k).filter,
      (d'.secfilter f.index).inUse = true ∧ (d'.secfilter f.index).feed = some k)
    (hserved : ∀ i, SecRuns (d'.filter i) → ∃ k x f, ServedBy d' i k x f) : SharedFeeds d' where
  attached := by
    intro i hi
    obtain ⟨hrun,hparams⟩ := hruns i hi
    rw [hparams]
    exact (h.attached i hrun).of_shrinks hs
  owned := howned
  served := hserved
  callback := fun k hk => (hs.cbSec k hk).trans (h.callback k (hs.live k hk))

variable {x : Nat} {f : DvbDemuxFilter} {l : Fin feeds}

theorem ServedBy.setFeed
    (h : ServedBy d i l x f) (hs : SameFeed (d.feed k) feed') : ServedBy (d.setFeed k feed') i l x f := by
  have hprep : prepareSecfilter f = f := by
    obtain ⟨f₀,rfl⟩ := h.carries
    exact prepareSecfilter_idem _
  by_cases hl : l = k
  · subst hl
    have heq : (d.setFeed l feed').feed l = feed' := setFeed_self ..
    refine ⟨h.feed,h.filter,?_,?_,?_,h.index,h.priv,h.carries⟩
    · rw [heq,hs.live]
      exact h.live
    · rw [heq,hs.pid]
      exact h.pid
    · rw [heq]
      exact hs.prepared f h.mem hprep
  · have heq := setFeed_of_ne d hl feed'
    exact ⟨h.feed,h.filter,heq ▸ h.live,heq ▸ h.pid,heq ▸ h.mem,h.index,h.priv,h.carries⟩

theorem SharedFeeds.setFeed (h : SharedFeeds d) (hs : SameFeed (d.feed k) feed') :
    SharedFeeds (d.setFeed k feed') ∧ Shrinks d (d.setFeed k feed') := by
  have hshrinks := Shrinks.setFeed (d := d) (k := k) hs.live.mp hs.checkCrc hs.cbSec hs.index
  refine ⟨h.of_shrinks hshrinks (fun i hi => ⟨hi,rfl⟩) ?_ ?_,hshrinks⟩
  · intro l hl f' hf'
    obtain ⟨f,hf,heq⟩ := hshrinks.index l hl f' hf'
    rw [heq]
    exact h.owned l (hshrinks.live l hl) f hf
  · intro i hi
    obtain ⟨l,x,f,hserved⟩ := h.served i hi
    exact ⟨l,x,f,hserved.setFeed hs⟩

variable {g : DmxdevFilter feeds → DmxdevFilter feeds}

theorem SharedFeeds.updFilter (h : SharedFeeds d)
    (hg : SecRuns (g (d.filter i)) → SecRuns (d.filter i) ∧ (g (d.filter i)).params = (d.filter i).params ∧
      (g (d.filter i)).feedSec = (d.filter i).feedSec ∧ (g (d.filter i)).filterSec = (d.filter i).filterSec) :
    SharedFeeds (d.updFilter i g) ∧ Shrinks d (d.updFilter i g) := by
  have hshrinks : Shrinks d (d.updFilter i g) := Shrinks.of_eq rfl rfl
  have hsame : ∀ j, SecRuns ((d.updFilter i g).filter j) → SecRuns (d.filter j) ∧
      ((d.updFilter i g).filter j).params = (d.filter j).params ∧
      ((d.updFilter i g).filter j).feedSec = (d.filter j).feedSec ∧
      ((d.updFilter i g).filter j).filterSec = (d.filter j).filterSec := by
    intro j
    by_cases hj : j = i
    · subst hj
      rw [updFilter_self]
      exact hg
    · rw [updFilter_of_ne _ hj]
      exact fun hrun => ⟨hrun,rfl,rfl,rfl⟩
  refine ⟨h.of_shrinks hshrinks (fun j hj => ⟨(hsame j hj).1,(hsame j hj).2.1⟩) h.owned ?_,hshrinks⟩
  intro j hj
  obtain ⟨hrun,hparams,hfeed,hfilter⟩ := hsame j hj
  obtain ⟨l,x,f,hserved⟩ := h.served j hrun
  exact ⟨l,x,f,hfeed.trans hserved.feed,hfilter.trans hserved.filter,hserved.live,
    hparams ▸ hserved.pid,hserved.mem,hserved.index,hserved.priv,hparams ▸ hserved.carries⟩

theorem SharedFeeds.updFilter_parked (h : SharedFeeds d)
    (hg : ¬SecRuns (g (d.filter i))) : SharedFeeds (d.updFilter i g) ∧ Shrinks d (d.updFilter i g) :=
  h.updFilter fun hrun => absurd hrun hg

theorem SharedFeeds.feedStart (h : SharedFeeds d) (hj : SecRuns (d.filter j)) (io : FeedIo) :
    SharedFeeds (d.dvbDmxdevFeedStart j io) ∧ Shrinks d (d.dvbDmxdevFeedStart j io) := by
  obtain ⟨k,x,f,hserved⟩ := h.served j hj
  have hrearm := h.updFilter (i := j) (g := fun f => { f with state := .go }) fun _ => ⟨hj,rfl,rfl,rfl⟩
  unfold dvbDmxdevFeedStart
  dsimp only
  rw [updFilter_self]
  dsimp only
  rw [hserved.feed]
  obtain ⟨hinv,hshrinks⟩ := hrearm.1.setFeed (startFiltering_same io (.inl hserved.live))
  exact ⟨hinv,hrearm.2.trans hshrinks⟩

theorem SharedFeeds.releaseFeed (h : SharedFeeds d)
    (hunused : ∀ j, SecRuns (d.filter j) → (d.filter j).feedSec ≠ some k) :
    SharedFeeds (d.setFeed k (dvbdmxReleaseSectionFeed (d.feed k)).1) ∧
      Shrinks d (d.setFeed k (dvbdmxReleaseSectionFeed (d.feed k)).1) := by
  have hdead : ¬Live (dvbdmxReleaseSectionFeed (d.feed k)).1 := by
    unfold dvbdmxReleaseSectionFeed
    split
    · rename_i hfree
      exact fun hlive => hlive hfree
    · exact fun hlive => hlive rfl
  have hfilter : (dvbdmxReleaseSectionFeed (d.feed k)).1.filter = (d.feed k).filter := by
    unfold dvbdmxReleaseSectionFeed
    split <;> rfl
  have hcrc : (dvbdmxReleaseSectionFeed (d.feed k)).1.sec.checkCrc = (d.feed k).sec.checkCrc := by
    unfold dvbdmxReleaseSectionFeed
    split <;> rfl
  have hcb : (dvbdmxReleaseSectionFeed (d.feed k)).1.cbSec = (d.feed k).cbSec := by
    unfold dvbdmxReleaseSectionFeed
    split <;> rfl
  have hshrinks := Shrinks.setFeed (d := d) (k := k) (fun hlive => absurd hlive hdead) hcrc hcb
    (fun f hf => ⟨f,hfilter ▸ hf,rfl⟩)
  refine ⟨h.of_shrinks hshrinks (fun i hi => ⟨hi,rfl⟩) ?_ ?_,hshrinks⟩
  · intro l hl f' hf'
    obtain ⟨f,hf,heq⟩ := hshrinks.index l hl f' hf'
    rw [heq]
    exact h.owned l (hshrinks.live l hl) f hf
  · intro j hj
    obtain ⟨l,x,f,hserved⟩ := h.served j hj
    have hl : l ≠ k := by
      intro hl
      exact hunused j hj (hl ▸ hserved.feed)
    have heq := setFeed_of_ne d hl (dvbdmxReleaseSectionFeed (d.feed k)).1
    exact ⟨l,x,f,hserved.feed,hserved.filter,heq ▸ hserved.live,heq ▸ hserved.pid,heq ▸ hserved.mem,
      hserved.index,hserved.priv,hserved.carries⟩

/-- A restart for a filter that does not run: the feed it is given is used by no started filter if none
runs on the PID. -/
theorem SharedFeeds.feedRestart (h : SharedFeeds d) (hrun : (d.filter i).state.running = false)
    (hunused : d.nextRunning i = none → ∀ j, SecRuns (d.filter j) → (d.filter j).feedSec ≠ some k)
    (restart : FeedIo) (releaseFeed : Bool) :
    SharedFeeds (d.dvbDmxdevFeedRestart i k restart releaseFeed) ∧
      Shrinks d (d.dvbDmxdevFeedRestart i k restart releaseFeed) := by
  unfold dvbDmxdevFeedRestart
  rw [findRunning_eq hrun]
  cases hnext : d.nextRunning i with
  | some l =>
    obtain ⟨hrunning,htype,-⟩ := running_of_runsOn (runsOn_of_nextRunning hnext).2
    exact h.feedStart ⟨htype,hrunning⟩ restart
  | none =>
    dsimp only
    split
    · exact ⟨h,Shrinks.of_eq rfl rfl⟩
    · exact h.releaseFeed (hunused hnext)

theorem SharedFeeds.releaseFilter (h : SharedFeeds d) (hpriv : (d.secfilter x).priv = some i)
    (hrun : (d.filter i).state.running = false) (interrupted : Bool) :
    SharedFeeds (d.releaseFilter k x interrupted) ∧ Shrinks d (d.releaseFilter k x interrupted) := by
  unfold Device.releaseFilter
  split
  · exact ⟨h,Shrinks.of_eq rfl rfl⟩
  split
  · exact ⟨h,Shrinks.of_eq rfl rfl⟩
  rename_i _ howner
  rw [ne_eq,not_not] at howner
  generalize hfeed' : ({ d.feed k with filter := (d.feed k).filter.filter fun f => f.index ≠ x } : DvbDemuxFeed) = feed'
  have hfilter : ∀ f, f ∈ feed'.filter ↔ f ∈ (d.feed k).filter ∧ f.index ≠ x := by
    intro f
    rw [← hfeed',mem_filter,decide_eq_true_eq]
  have hset : Shrinks d (d.setFeed k feed') := by
    apply Shrinks.setFeed
    · rw [← hfeed']
      exact id
    · rw [← hfeed']
    · rw [← hfeed']
    · intro f hf
      exact ⟨f,((hfilter f).mp hf).1,rfl⟩
  have hshrinks : Shrinks d { d.setFeed k feed' with
      secfilter := Function.update d.secfilter x { d.secfilter x with inUse := false } } := by
    refine ⟨hset.live,hset.checkCrc,hset.cbSec,hset.index,?_⟩
    intro y
    by_cases hy : y = x
    · subst hy
      dsimp only
      rw [Function.update_self]
    · dsimp only
      rw [Function.update_of_ne hy]
  have hmem : ∀ l, ∀ f ∈ ((d.setFeed k feed').feed l).filter, Live ((d.setFeed k feed').feed l) →
      f ∈ (d.feed l).filter ∧ f.index ≠ x := by
    intro l f hf hlive
    by_cases hl : l = k
    · subst hl
      rw [setFeed_self] at hf
      exact (hfilter f).mp hf
    · rw [setFeed_of_ne _ hl] at hf hlive
      refine ⟨hf,?_⟩
      intro hx
      have hown := (h.owned l hlive f hf).2
      rw [hx,howner,Option.some.injEq] at hown
      exact hl hown.symm
  refine ⟨h.of_shrinks hshrinks (fun i hi => ⟨hi,rfl⟩) ?_ ?_,hshrinks⟩
  · intro l hl f hf
    obtain ⟨hf',hne⟩ := hmem l f hf hl
    dsimp only
    rw [Function.update_of_ne hne]
    exact h.owned l (hset.live l hl) f hf'
  · intro j hj
    obtain ⟨l,y,f,hserved⟩ := h.served j hj
    -- the section filter of a started filter leads to that filter
    have hne : y ≠ x := by
      intro hyx
      have hij : i = j := by
        rw [← Option.some.injEq,← hpriv,← hserved.priv,hyx]
      rw [← hij] at hj
      exact absurd hj.2 (by simp [hrun])
    have hpriv' : (Function.update d.secfilter x { d.secfilter x with inUse := false } y).priv = some j := by
      rw [Function.update_of_ne hne]
      exact hserved.priv
    by_cases hl : l = k
    · subst hl
      have heq : (d.setFeed l feed').feed l = feed' := setFeed_self ..
      refine ⟨l,y,f,hserved.feed,hserved.filter,?_,?_,?_,hserved.index,hpriv',hserved.carries⟩
      · dsimp only
        rw [heq,← hfeed']
        exact hserved.live
      · dsimp only
        rw [heq,← hfeed']
        exact hserved.pid
      · dsimp only
        rw [heq,hfilter]
        exact ⟨hserved.mem,hserved.index ▸ hne⟩
    · have heq := setFeed_of_ne d hl feed'
      exact ⟨l,y,f,hserved.feed,hserved.filter,heq ▸ hserved.live,heq ▸ hserved.pid,heq ▸ hserved.mem,
        hserved.index,hpriv',hserved.carries⟩

def Quiet (d d' : Device filters feeds) : Prop := SharedFeeds d' ∧ Shrinks d d'

theorem Quiet.refl (h : SharedFeeds d) : Quiet d d := ⟨h, Shrinks.of_eq rfl rfl⟩

theorem Quiet.trans (h : Quiet d d') (h' : Quiet d' d'') : Quiet d d'' := ⟨h'.1, h.2.trans h'.2⟩

theorem SharedFeeds.stopSec (h : SharedFeeds d) (hserved : ServedBy d i k x f)
    (io : StopIo) : Quiet d (d.stopSec i k io) := by
  have hpark : Quiet d (d.updFilter i fun f => { f with state := .set, timer := false }) :=
    h.updFilter_parked fun hrun => nomatch hrun.2
  have hstop : Quiet d (d.dvbDmxdevFeedStop i k io.stopFeed) :=
    hpark.trans (hpark.1.setFeed (stopFiltering_same io.stopFeed hserved.live))
  have hself : (d.dvbDmxdevFeedStop i k io.stopFeed).filter i =
      { d.filter i with state := .set, timer := false } := by
    rw [feedStop_filter,updFilter_self]
  have hdetach : Quiet d ((d.dvbDmxdevFeedStop i k io.stopFeed).detachSec i k io.releaseFilter) := by
    apply hstop.trans
    unfold detachSec
    rw [hself]
    dsimp only
    rw [hserved.filter]
    exact hstop.1.releaseFilter (i := i) hserved.priv (by rw [hself]; rfl) io.releaseFilter
  generalize hd' : (d.dvbDmxdevFeedStop i k io.stopFeed).detachSec i k io.releaseFilter = d' at hdetach
  have hself' : d'.filter i = { d.filter i with state := .set, timer := false } := by
    rw [← hd',detachSec_filter,hself]
  have hothers : ∀ j, j ≠ i → d'.filter j = d.filter j := by
    intro j hj
    rw [← hd',detachSec_filter,feedStop_filter,updFilter_of_ne _ hj]
  have hrestart : Quiet d' (d'.dvbDmxdevFeedRestart i k io.restart io.releaseFeed) := by
    apply hdetach.1.feedRestart (by rw [hself']; rfl)
    intro hnone j hj hfeed
    have hji : j ≠ i := by
      intro hji
      rw [hji,hself'] at hj
      exact nomatch hj.2
    rw [hothers j hji] at hj hfeed
    obtain ⟨l,y,g,hserved'⟩ := h.served j hj
    have hlk : l = k := by
      rw [← Option.some.injEq,← hserved'.feed,hfeed]
    have hpid : (d.filter j).params.pid = (d.filter i).params.pid := by
      rw [← hserved'.pid,← hserved.pid,hlk]
    -- so the filter runs on the PID, where none was found
    have hfound : d.runsOn (d.filter i).params.pid j = true := by
      rw [Device.runsOn,decide_eq_true_eq]
      exact ⟨hj.2,hj.1,hpid⟩
    have hspares : Spares d d' i False := Spares.of_eq hothers
    rw [hspares.nextRunning (by rw [hself'])] at hnone
    have := find?_eq_none.mp hnone j (List.mem_finRange j)
    simp [hji,hfound] at this
  have hend : Quiet (d'.dvbDmxdevFeedRestart i k io.restart io.releaseFeed)
      ((d'.dvbDmxdevFeedRestart i k io.restart io.releaseFeed).updFilter i fun f =>
        { f with feedSec := none }) := by
    apply hrestart.1.updFilter_parked
    intro hrun
    have hstate : (d'.filter i).state.running = false := by
      rw [hself']
      rfl
    have heq := (feedRestart_spares hstate k io.restart io.releaseFeed).2
    rw [heq] at hrun
    exact absurd hrun.2 (by simp [hstate])
  unfold Device.stopSec
  dsimp only
  rw [hd']
  exact hdetach.trans (hrestart.trans hend)

theorem SharedFeeds.filterStop (h : SharedFeeds d) (i : Fin filters) (io : StopIo) :
    Quiet d (d.dvbDmxdevFilterStop i io) := by
  unfold dvbDmxdevFilterStop
  cases hrun : (d.filter i).state.running with
  | false => exact Quiet.refl h
  | true =>
    rw [if_neg (by decide)]
    cases htype : (d.filter i).type with
    | none => exact Quiet.refl h
    | pes => exact h.updFilter_parked fun hsec => nomatch hsec.2
    | sec =>
      obtain ⟨k,x,f,hserved⟩ := h.served i ⟨htype,hrun⟩
      dsimp only
      rw [hserved.feed]
      have hstop := h.stopSec hserved io
      apply hstop.trans
      apply hstop.1.updFilter_parked
      rw [(stopSec_spares d i k io).2]
      exact fun hsec => nomatch hsec.2

theorem SharedFeeds.feedSec (h : SharedFeeds d) (j : Fin filters) (htype : (d.filter j).type = .sec)
    (hrun : (d.filter j).state.running = true) : (d.filter j).feedSec.isSome := by
  obtain ⟨k,x,f,hserved⟩ := h.served j ⟨htype,hrun⟩
  rw [hserved.feed]
  rfl

theorem SharedFeeds.stopRunning (h : SharedFeeds d) (i : Fin filters) (io : StopIo) : Quiet d (d.stopRunning i io) := by
  unfold Device.stopRunning
  split
  · exact h.filterStop i io
  · exact Quiet.refl h

/-- A free section filter becomes the head of the list of feed `k` and leads to filter `i`. -/
def Device.linkFilter (d : Device filters feeds) (i : Fin filters) (k : Fin feeds) (f : DvbDemuxFilter) :
    Device filters feeds :=
  { d.setFeed k (dmxSectionFeedAllocateFilter (d.feed k) (some f)).1 with
    secfilter := Function.update d.secfilter f.index { inUse := true, feed := some k, priv := some i } }

theorem linkFilter_feed_self (d : Device filters feeds) (i : Fin filters) (k : Fin feeds) (f : DvbDemuxFilter) :
    (d.linkFilter i k f).feed k = { d.feed k with filter := f :: (d.feed k).filter } := setFeed_self ..

theorem linkFilter_secfilter_self (d : Device filters feeds) (i : Fin filters) (k : Fin feeds) (f : DvbDemuxFilter) :
    (d.linkFilter i k f).secfilter f.index = { inUse := true, feed := some k, priv := some i } :=
  Function.update_self ..

theorem linkFilter_feed_of_ne (d : Device filters feeds) (i : Fin filters) {k : Fin feeds} (h : l ≠ k)
    (f : DvbDemuxFilter) : (d.linkFilter i k f).feed l = d.feed l := setFeed_of_ne _ h _

theorem linkFilter_cases (h : SharedFeeds d) (hlive : Live (d.feed k))
    (hfree : (d.secfilter f.index).inUse = false) (hl : Live ((d.linkFilter i k f).feed l)) :
    Live (d.feed l) ∧ ((d.linkFilter i k f).feed l).sec.checkCrc = (d.feed l).sec.checkCrc ∧
      ((d.linkFilter i k f).feed l).cbSec = (d.feed l).cbSec ∧
      ∀ g ∈ ((d.linkFilter i k f).feed l).filter,
        g = f ∧ l = k ∨ g ∈ (d.feed l).filter ∧
          (d.linkFilter i k f).secfilter g.index = d.secfilter g.index := by
  have hold : ∀ l, Live (d.feed l) → ∀ g ∈ (d.feed l).filter,
      (d.linkFilter i k f).secfilter g.index = d.secfilter g.index := by
    intro l hl g hg
    apply Function.update_of_ne
    intro heq
    have := (h.owned l hl g hg).1
    rw [heq,hfree] at this
    cases this
  by_cases hlk : l = k
  · subst hlk
    rw [linkFilter_feed_self]
    refine ⟨hlive,rfl,rfl,?_⟩
    intro g hg
    cases mem_cons.mp hg with
    | inl heq => exact .inl ⟨heq,rfl⟩
    | inr hmem => exact .inr ⟨hmem,hold l hlive g hmem⟩
  · rw [linkFilter_feed_of_ne d i hlk] at hl ⊢
    exact ⟨hl,rfl,rfl,fun g hg => .inr ⟨hg,hold l hl g hg⟩⟩

theorem Attached.linkFilter (hatt : Attached d j c) (h : SharedFeeds d)
    (hlive : Live (d.feed k)) (hfree : (d.secfilter f.index).inUse = false)
    (hcrc : j = i → (d.feed k).sec.checkCrc = c) : Attached (d.linkFilter i k f) j c := by
  intro l hl g hg hpriv
  obtain ⟨hlive',hcheck,-,hcases⟩ := linkFilter_cases h hlive hfree hl
  rw [hcheck]
  rcases hcases g hg with ⟨rfl,rfl⟩ | ⟨hmem,heq⟩
  · rw [linkFilter_secfilter_self] at hpriv
    exact hcrc (Option.some.inj hpriv).symm
  · rw [heq] at hpriv
    exact hatt l hlive' g hmem hpriv

theorem SharedFeeds.linkFilter (h : SharedFeeds d) (hlive : Live (d.feed k))
    (hfree : (d.secfilter f.index).inUse = false) (hrun : (d.filter i).state.running = false) :
    SharedFeeds (d.linkFilter i k f) where
  attached := by
    intro j hj
    have hji : j ≠ i := by
      intro hji
      rw [hji] at hj
      exact absurd (hrun.symm.trans hj.2) (by decide)
    exact (h.attached j hj).linkFilter h hlive hfree fun heq => absurd heq hji
  owned := by
    intro l hl g hg
    obtain ⟨hlive',-,-,hcases⟩ := linkFilter_cases h hlive hfree hl
    rcases hcases g hg with ⟨rfl,rfl⟩ | ⟨hmem,heq⟩
    · rw [linkFilter_secfilter_self]
      exact ⟨rfl,rfl⟩
    · rw [heq]
      exact h.owned l hlive' g hmem
  served := by
    intro j hj
    obtain ⟨l,x,g,hserved⟩ := h.served j hj
    have hpriv : ((d.linkFilter i k f).secfilter x).priv = some j := by
      have hne : x ≠ f.index := by
        intro hx
        have := (h.owned l hserved.live g hserved.mem).1
        rw [hserved.index,hx,hfree] at this
        cases this
      rw [show (d.linkFilter i k f).secfilter x = d.secfilter x from Function.update_of_ne hne ..]
      exact hserved.priv
    by_cases hl : l = k
    · subst hl
      have heq := linkFilter_feed_self d i l f
      refine ⟨l,x,g,hserved.feed,hserved.filter,?_,?_,?_,hserved.index,hpriv,hserved.carries⟩
      · rw [heq]
        exact hserved.live
      · rw [heq]
        exact hserved.pid
      · rw [heq]
        exact mem_cons_of_mem _ hserved.mem
    · have heq := linkFilter_feed_of_ne d i hl f
      exact ⟨l,x,g,hserved.feed,hserved.filter,heq ▸ hserved.live,heq ▸ hserved.pid,heq ▸ hserved.mem,
        hserved.index,hpriv,hserved.carries⟩
  callback := by
    intro l hl
    obtain ⟨hlive',-,hcb,-⟩ := linkFilter_cases h hlive hfree hl
    rw [hcb]
    exact h.callback l hlive'

theorem SharedFeeds.start (h : SharedFeeds d) (hatt : Attached d i (d.filter i).params.checkCrc) (hserved : ServedBy d i k x f)
    (hparams : (g (d.filter i)).params = (d.filter i).params)
    (hfeed : (g (d.filter i)).feedSec = (d.filter i).feedSec)
    (hfilter : (g (d.filter i)).filterSec = (d.filter i).filterSec) : SharedFeeds (d.updFilter i g) where
  attached := by
    intro j hj
    by_cases hji : j = i
    · subst hji
      rw [updFilter_self,hparams]
      exact hatt
    · rw [updFilter_of_ne _ hji] at hj ⊢
      exact h.attached j hj
  owned := h.owned
  served := by
    intro j hj
    by_cases hji : j = i
    · subst hji
      have hself := updFilter_self d j g
      refine ⟨k,x,f,?_,?_,hserved.live,?_,hserved.mem,hserved.index,hserved.priv,?_⟩
      · rw [hself,hfeed]
        exact hserved.feed
      · rw [hself,hfilter]
        exact hserved.filter
      · rw [hself,hparams]
        exact hserved.pid
      · rw [hself,hparams]
        exact hserved.carries
    · have hother := updFilter_of_ne d hji g
      rw [hother] at hj
      obtain ⟨l,y,f',hserved'⟩ := h.served j hj
      exact ⟨l,y,f',hother ▸ hserved'.feed,hother ▸ hserved'.filter,hserved'.live,
        hother ▸ hserved'.pid,hserved'.mem,hserved'.index,hserved'.priv,hother ▸ hserved'.carries⟩
  callback := h.callback

theorem startFiltering_filter {io : FeedIo} (h : ¬(startFiltering feed io).2 < 0) :
    (startFiltering feed io).1.filter = feed.filter.map prepareSecfilter := by
  unfold startFiltering dmxSectionFeedStartFiltering at h ⊢
  split at h
  · exact absurd (show errRestartsys < 0 by decide) h
  rename_i hint
  rw [if_neg hint]
  split at h
  · exact absurd (show errBusy < 0 by decide) h
  rename_i hfiltering
  rw [if_neg hfiltering]
  split at h
  · exact absurd (show errInval < 0 by decide) h
  rename_i hempty
  rw [if_neg hempty]
  dsimp only at h ⊢
  split at h
  · exact absurd (show errNodev < 0 by decide) h
  · split at h
    · rename_i hret
      exact absurd hret h
    · rename_i hret
      rw [if_neg hret]
      rfl

/-- What `dvb_dmxdev_filter_start` brings along when it comes to `allocate_filter`. -/
structure ReadyToAttach (d : Device filters feeds) (i : Fin filters) (k : Fin feeds) : Prop where
  run : (d.filter i).state.running = false
  feed : (d.filter i).feedSec = some k
  live : Live (d.feed k)
  pid : (d.feed k).pid = (d.filter i).params.pid
  checkCrc : (d.feed k).sec.checkCrc = (d.filter i).params.checkCrc
  attached : Attached d i (d.filter i).params.checkCrc
  unused : d.nextRunning i = none → ∀ j, SecRuns (d.filter j) → (d.filter j).feedSec ≠ some k
  empty : d.nextRunning i = none → (d.feed k).filter = []

theorem feedRestart_feed (h : SharedFeeds d) (hrun : (d.filter i).state.running = false)
    (hlive : Live (d.feed k)) (restart : FeedIo) (releaseFeed : Bool) :
    Live ((d.dvbDmxdevFeedRestart i k restart releaseFeed).feed k) ∨
      d.nextRunning i = none ∧
        ((d.dvbDmxdevFeedRestart i k restart releaseFeed).feed k).filter = (d.feed k).filter := by
  unfold dvbDmxdevFeedRestart
  rw [findRunning_eq hrun]
  cases hnext : d.nextRunning i with
  | some j =>
    obtain ⟨hrunning,htype,-⟩ := running_of_runsOn (runsOn_of_nextRunning hnext).2
    obtain ⟨l,x,f,hserved⟩ := h.served j ⟨htype,hrunning⟩
    refine .inl ?_
    dsimp only [dvbDmxdevFeedStart]
    rw [updFilter_self]
    dsimp only
    rw [hserved.feed]
    dsimp only
    by_cases hl : k = l
    · subst hl
      rw [setFeed_self]
      exact (startFiltering_same restart (.inl hlive)).live.mpr hlive
    · rw [setFeed_of_ne _ hl]
      exact hlive
  | none =>
    refine .inr ⟨rfl,?_⟩
    dsimp only
    split
    · rfl
    · rw [setFeed_self,dvbdmxReleaseSectionFeed]
      split <;> rfl

theorem SharedFeeds.attachSec (h : SharedFeeds d) (hready : ReadyToAttach d i k) (io : StartIo feeds) :
    SharedFeeds (d.attachSec i k io) := by
  unfold Device.attachSec
  cases htake : d.takeFilter io.allocFilter with
  | none =>
    have hrestart := h.feedRestart hready.run hready.unused io.restart io.releaseFeed
    apply (hrestart.1.setFeed (startFiltering_same io.startFeed ?_)).1
    rcases feedRestart_feed h hready.run hready.live io.restart io.releaseFeed with hlive | ⟨hnone,hfilter⟩
    · exact .inl hlive
    · exact .inr (hfilter.trans (hready.empty hnone))
  | some secfilter =>
    have hfree : (d.secfilter secfilter.index).inUse = false := by
      have := (Option.filter_eq_some_iff.mp htake).2
      simpa using this
    generalize hf : (d.filter i).params.copyTo secfilter = f
    have hindex : f.index = secfilter.index := by
      rw [← hf]
      rfl
    have hfree' : (d.secfilter f.index).inUse = false := hindex ▸ hfree
    have hattach := h.linkFilter (i := i) hready.live hfree' hready.run
    have hatt := hready.attached.linkFilter (i := i) h hready.live hfree' fun _ => hready.checkCrc
    have hlive : Live ((d.linkFilter i k f).feed k) := by
      rw [linkFilter_feed_self]
      exact hready.live
    have hsame := startFiltering_same io.startFeed (.inl hlive)
    have hstart := hattach.setFeed hsame
    have hatt' := hatt.of_shrinks hstart.2
    -- the state of the source is reached in the same two steps
    have heq : { d.setFeed k (startFiltering (dmxSectionFeedAllocateFilter (d.feed k) (some f)).1 io.startFeed).1
        with secfilter := Function.update d.secfilter f.index { inUse := true, feed := some k, priv := some i } } =
        (d.linkFilter i k f).setFeed k (startFiltering ((d.linkFilter i k f).feed k) io.startFeed).1 := by
      rw [linkFilter_feed_self]
      unfold Device.linkFilter Device.setFeed
      dsimp only
      rw [Function.update_idem]
      rfl
    dsimp only
    rw [hf,heq]
    generalize hd' : (d.linkFilter i k f).setFeed k
      (startFiltering ((d.linkFilter i k f).feed k) io.startFeed).1 = d' at hstart hatt'
    have hfilter' : d'.filter = d.filter := by
      rw [← hd']
      rfl
    have hpark := hstart.1.updFilter_parked (i := i)
      (g := fun f => { f with filterSec := some secfilter.index, reader := { f.reader with todo := 0 } })
      (by rw [hfilter']; exact fun hsec => absurd (hready.run.symm.trans hsec.2) (by decide))
    split
    · exact hpark.1
    · rename_i hret
      rw [show (dmxSectionFeedAllocateFilter (d.feed k) (some f)).1 = (d.linkFilter i k f).feed k from
        (linkFilter_feed_self d i k f).symm] at hret
      have hself := updFilter_self d' i
        fun f => { f with filterSec := some secfilter.index, reader := { f.reader with todo := 0 } }
      rw [hfilter'] at hself
      have hfeed' : d'.feed k = (startFiltering ((d.linkFilter i k f).feed k) io.startFeed).1 := by
        rw [← hd',setFeed_self]
      refine hpark.1.start (k := k) (x := f.index) (f := prepareSecfilter f) ?_ ?_ rfl rfl rfl
      · rw [hself]
        exact hatt'
      · refine ⟨?_,?_,?_,?_,?_,rfl,?_,?_⟩
        · rw [hself]
          exact hready.feed
        · rw [hself,hindex]
        · rw [updFilter_feed,hfeed',hsame.live]
          exact hlive
        · rw [updFilter_feed,hfeed',hsame.pid,hself,linkFilter_feed_self]
          exact hready.pid
        · rw [updFilter_feed,hfeed',startFiltering_filter hret,linkFilter_feed_self]
          exact mem_map.mpr ⟨f,mem_cons_self,rfl⟩
        · rw [updFilter_secfilter,← hd',setFeed_secfilter]
          exact congrArg SecFilter.priv (linkFilter_secfilter_self d i k f)
        · rw [hself,← hf]
          exact ⟨secfilter,rfl⟩

theorem SharedFeeds.clearSec (h : SharedFeeds d) (hrun : (d.filter i).state.running = false) : Quiet d (d.clearSec i) :=
  h.updFilter_parked fun hsec => absurd (hrun.symm.trans hsec.2) (by decide)

theorem SharedFeeds.joinedFeed (h : SharedFeeds d) (hk : d.joinedFeed i = some k) :
    (d.nextRunning i).isSome ∧ Live (d.feed k) ∧ (d.feed k).pid = (d.filter i).params.pid := by
  unfold Device.joinedFeed at hk
  cases hnext : d.nextRunning i with
  | none =>
    rw [hnext] at hk
    cases hk
  | some j =>
    obtain ⟨hrun,htype,hpid⟩ := running_of_runsOn (runsOn_of_nextRunning hnext).2
    obtain ⟨l,x,f,hserved⟩ := h.served j ⟨htype,hrun⟩
    rw [hnext,bind_some,hserved.feed,Option.some.injEq] at hk
    subst hk
    exact ⟨rfl,hserved.live,hserved.pid.trans hpid⟩

theorem SharedFeeds.joinSec (h : SharedFeeds d) (hrun : (d.filter i).state.running = false)
    (hk : d.joinedFeed i = some k) (hcrc : (d.feed k).sec.checkCrc = (d.filter i).params.checkCrc)
    (hatt : Attached d i (d.filter i).params.checkCrc) (io : StartIo feeds) :
    SharedFeeds (d.joinSec i k io) := by
  obtain ⟨hnext,hlive,hpid⟩ := h.joinedFeed hk
  have hset : Quiet d (d.updFilter i fun f => { f with feedSec := some k }) :=
    h.updFilter_parked fun hsec => absurd (hrun.symm.trans hsec.2) (by decide)
  have hpark := hset.trans (hset.1.updFilter_parked (i := i)
    (g := fun f => { f with state := .set, timer := false }) fun hsec => nomatch hsec.2)
  have hsame := stopFiltering_same io.joinStop hlive
  have hstop : Quiet d ((d.updFilter i fun f => { f with feedSec := some k }).dvbDmxdevFeedStop i k io.joinStop) :=
    hpark.trans (hpark.1.setFeed hsame)
  unfold Device.joinSec
  dsimp only
  generalize hd' : (d.updFilter i fun f => { f with feedSec := some k }).dvbDmxdevFeedStop i k io.joinStop = d'
    at hstop
  have hself : d'.filter i = { d.filter i with feedSec := some k, state := .set, timer := false } := by
    rw [← hd',feedStop_filter,updFilter_self,updFilter_self]
  have hothers : Spares d d' i False := Spares.of_eq fun j hj => by
    rw [← hd',feedStop_filter,updFilter_of_ne _ hj,updFilter_of_ne _ hj]
  have hfeed : d'.feed k = (stopFiltering (d.feed k) io.joinStop).1 := by
    rw [← hd']
    exact setFeed_self ..
  have hsome : d'.nextRunning i ≠ none := by
    rw [hothers.nextRunning (by rw [hself]),← Option.isSome_iff_ne_none]
    exact hnext
  apply hstop.1.attachSec
  refine ⟨?_,?_,?_,?_,?_,?_,fun hnone => absurd hnone hsome,fun hnone => absurd hnone hsome⟩
  · rw [hself]
    rfl
  · rw [hself]
  · rw [hfeed,hsame.live]
    exact hlive
  · rw [hfeed,hsame.pid,hself]
    exact hpid
  · rw [hfeed,hsame.checkCrc,hself]
    exact hcrc
  · rw [hself]
    exact hatt.of_shrinks hstop.2

theorem SharedFeeds.allocFeed (h : SharedFeeds d) (feed' : DvbDemuxFeed) (hfree : ¬Live (d.feed k))
    (hempty : feed'.filter = []) (hcb : feed'.cbSec = fun _ _ => 0) :
    SharedFeeds (d.setFeed k feed') ∧ ∀ j c, Attached d j c → Attached (d.setFeed k feed') j c := by
  have hatt : ∀ j c, Attached d j c → Attached (d.setFeed k feed') j c := by
    intro j c hatt l hl f hf hpriv
    by_cases hlk : l = k
    · subst hlk
      rw [setFeed_self,hempty] at hf
      cases hf
    · rw [setFeed_of_ne _ hlk] at hl hf ⊢
      exact hatt l hl f hf hpriv
  refine ⟨⟨?_,?_,?_,?_⟩,hatt⟩
  · intro j hj
    exact hatt j _ (h.attached j hj)
  · intro l hl f hf
    by_cases hlk : l = k
    · subst hlk
      rw [setFeed_self,hempty] at hf
      cases hf
    · rw [setFeed_of_ne _ hlk] at hl hf
      exact h.owned l hl f hf
  · intro j hj
    obtain ⟨l,x,f,hserved⟩ := h.served j hj
    have hlk : l ≠ k := by
      intro hlk
      exact hfree (hlk ▸ hserved.live)
    have heq := setFeed_of_ne d hlk feed'
    exact ⟨l,x,f,hserved.feed,hserved.filter,heq ▸ hserved.live,heq ▸ hserved.pid,heq ▸ hserved.mem,
      hserved.index,hserved.priv,hserved.carries⟩
  · intro l hl
    by_cases hlk : l = k
    · subst hlk
      rw [setFeed_self]
      exact hcb
    · rw [setFeed_of_ne _ hlk] at hl ⊢
      exact h.callback l hl

theorem SharedFeeds.ownSec (h : SharedFeeds d) (hrun : (d.filter i).state.running = false) (hfree : ¬Live (d.feed k))
    (hempty : feed.filter = []) (hcb : feed.cbSec = fun _ _ => 0)
    (hatt : Attached d i (d.filter i).params.checkCrc) (io : StartIo feeds) :
    SharedFeeds (d.ownSec i k feed io) := by
  have hunused : ∀ j, SecRuns (d.filter j) → (d.filter j).feedSec ≠ some k := by
    intro j hj hfeed
    obtain ⟨l,x,f,hserved⟩ := h.served j hj
    rw [hserved.feed,Option.some.injEq] at hfeed
    exact hfree (hfeed ▸ hserved.live)
  generalize hset : (if io.setInterrupted then (feed, errRestartsys)
    else dmxSectionFeedSet feed (d.filter i).params.pid (d.filter i).params.checkCrc) = set
  have hset' : set.1.filter = [] ∧ set.1.cbSec = (fun _ _ => 0) ∧ (¬set.2 < 0 → Live set.1 ∧
      set.1.pid = (d.filter i).params.pid ∧ set.1.sec.checkCrc = (d.filter i).params.checkCrc) := by
    rw [← hset]
    split
    · exact ⟨hempty,hcb,fun hret => absurd (show errRestartsys < 0 by decide) hret⟩
    · unfold dmxSectionFeedSet
      split
      · exact ⟨hempty,hcb,fun hret => absurd (show errInval < 0 by decide) hret⟩
      · exact ⟨hempty,hcb,fun _ => ⟨fun hs => (by cases hs),rfl,rfl⟩⟩
  have hpark : Quiet d (d.updFilter i fun f => { f with feedSec := some k }) :=
    h.updFilter_parked fun hsec => absurd (hrun.symm.trans hsec.2) (by decide)
  obtain ⟨hinv,hattached⟩ := hpark.1.allocFeed (k := k) set.1 hfree hset'.1 hset'.2.1
  unfold Device.ownSec
  dsimp only
  rw [hset]
  generalize hd' : (d.updFilter i fun f => { f with feedSec := some k }).setFeed k set.1 = d' at hinv hattached
  have hself : d'.filter i = { d.filter i with feedSec := some k } := by
    rw [← hd',setFeed_filter,updFilter_self]
  have hothers : ∀ j, j ≠ i → d'.filter j = d.filter j := by
    intro j hj
    rw [← hd',setFeed_filter,updFilter_of_ne _ hj]
  have hfeed : d'.feed k = set.1 := by
    rw [← hd',setFeed_self]
  have hrun' : (d'.filter i).state.running = false := by
    rw [hself]
    exact hrun
  have hunused' : ∀ j, SecRuns (d'.filter j) → (d'.filter j).feedSec ≠ some k := by
    intro j hj
    by_cases hji : j = i
    · rw [hji] at hj
      exact absurd (hrun'.symm.trans hj.2) (by decide)
    · rw [hothers j hji] at hj ⊢
      exact hunused j hj
  split
  · exact (hinv.feedRestart hrun' (fun _ => hunused') io.restart io.releaseFeed).1
  · rename_i hret
    obtain ⟨hlive,hpid,hcrc⟩ := hset'.2.2 hret
    apply hinv.attachSec
    refine ⟨hrun',?_,?_,?_,?_,?_,fun _ => hunused',fun _ => ?_⟩
    · rw [hself]
    · rw [hfeed]
      exact hlive
    · rw [hfeed,hpid,hself]
    · rw [hfeed,hcrc,hself]
    · rw [hself]
      exact hattached i _ (hatt.of_shrinks hpark.2)
    · rw [hfeed]
      exact hset'.1

theorem SharedFeeds.startSec (h : SharedFeeds d) (hrun : (d.filter i).state.running = false)
    (hcrc : ∀ k, d.joinedFeed i = some k → (d.feed k).sec.checkCrc = (d.filter i).params.checkCrc)
    (hatt : Attached d i (d.filter i).params.checkCrc) (io : StartIo feeds) :
    SharedFeeds (d.startSec i io) := by
  have hclear := h.clearSec hrun
  have hself := clearSec_self d i
  have hrun' : ((d.clearSec i).filter i).state.running = false := by
    rw [hself]
    exact hrun
  have hatt' : Attached (d.clearSec i) i ((d.clearSec i).filter i).params.checkCrc := by
    rw [hself]
    exact hatt.of_shrinks hclear.2
  rcases startSec_cases hrun io with ⟨k,hk,heq⟩ | heq | ⟨-,k,hfree,heq⟩ <;> rw [heq]
  · apply hclear.1.joinSec hrun' ((joinedFeed_clearSec d i).trans hk) ?_ hatt'
    rw [hself]
    exact hcrc k hk
  · exact hclear.1
  · apply hclear.1.ownSec hrun' ?_ ?_ ?_ hatt'
    · exact fun hlive => hlive hfree
    · rw [dvbdmxAllocateSectionFeed,if_neg (by simp [hfree])]
    · rw [dvbdmxAllocateSectionFeed,if_neg (by simp [hfree])]

theorem SharedFeeds.takeBuffer (h : SharedFeeds d) (i : Fin filters) : Quiet d (d.takeBuffer i) :=
  h.updFilter fun hsec => ⟨hsec, rfl, rfl, rfl⟩

theorem SharedFeeds.filterStart (h : SharedFeeds d) (hok : (d.filter i).type = .sec →
      (∀ k, d.joinedFeed i = some k → (d.feed k).sec.checkCrc = (d.filter i).params.checkCrc) ∧
        Attached d i (d.filter i).params.checkCrc) (io : StartIo feeds) :
    SharedFeeds (d.dvbDmxdevFilterStart i io) := by
  have hstop := h.stopRunning i io.stop
  have hbuf := hstop.trans (hstop.1.takeBuffer i)
  obtain ⟨htype,hparams,hrun⟩ := stopRunning_self d i io.stop (h.feedSec i)
  have hself := takeBuffer_self (d.stopRunning i io.stop) i
  have hparams' : (((d.stopRunning i io.stop).takeBuffer i).filter i).params = (d.filter i).params := by
    rw [hself]
    exact hparams
  rcases filterStart_cases d i io with heq | heq | heq | ⟨hpes,heq⟩ | ⟨hsec,heq⟩ <;> rw [heq]
  · exact h
  · exact hstop.1
  · exact hbuf.1
  · exact (hbuf.1.updFilter_parked fun hsec => absurd (hpes.symm.trans hsec.1) (by decide)).1
  · have htype' : (d.filter i).type = .sec := by
      rw [← htype,← hsec,hself]
      rfl
    apply hbuf.1.startSec
    · rw [hself]
      exact hrun (by rw [htype']; decide)
    · intro k hk
      have hspares := ((stopRunning_spares d i io.stop).trans (by rw [hparams]) (takeBuffer_spares _ i)).joinedFeed
        (by rw [hparams'])
      rw [hparams',hbuf.2.checkCrc k (hbuf.1.joinedFeed hk).2.1]
      exact (hok htype').1 k (hspares.symm.trans hk)
    · rw [hparams']
      exact (hok htype').2.of_shrinks hbuf.2

theorem sharedFeeds_dmxdevInit : SharedFeeds (dmxdevInit filters feeds) where
  attached := fun _ h => nomatch h.2
  owned := fun _ h => absurd rfl h
  served := fun _ h => nomatch h.2
  callback := fun _ h => absurd rfl h

end LinuxDvb.Dmxdev
