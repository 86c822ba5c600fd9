import Mathlib.Data.Finset.Card
import Mathlib.Data.Fintype.Basic
import LinuxDvb.DvbCore.Demux.FeedMutex
import LinuxDvb.Mantis.Dma

/-!
# Feeds of the Mantis bridge

The driver counts the feeds that filter: the first one starts the DMA engine, the end of the last one stops it.
-/

namespace LinuxDvb.Mantis

open FeedApi

/-- The part of `struct mantis_pci` that the hooks use. -/
structure MantisDvb where
  feeds : UInt8
  dma : MantisPci

def mantisDvbStartFeed (mantis : MantisDvb) (frontend : Bool) : MantisDvb × Int :=
  if !frontend then (mantis, errInval)
  else
    let feeds := mantis.feeds + 1
    (⟨feeds, if feeds = 1 then (mantisDmaStart mantis.dma).1 else mantis.dma⟩, feeds.toNat)

def mantisDvbStopFeed (mantis : MantisDvb) (frontend : Bool) : MantisDvb × Int :=
  if !frontend then (mantis, errInval)
  else
    let feeds := mantis.feeds - 1
    (⟨feeds, if feeds = 0 then (mantisDmaStop mantis.dma).1 else mantis.dma⟩, 0)

def mantisHooks : Hooks MantisDvb := ⟨some mantisDvbStartFeed, some mantisDvbStopFeed⟩

inductive FilteringCall (n : Nat) where
  | tsFeedStart (feed : Fin n)
  | tsFeedStop (feed : Fin n)
  | sectionFeedStart (feed : Fin n)
  | sectionFeedStop (feed : Fin n)
  | connectFrontend
  | disconnectFrontend
  deriving DecidableEq

variable {n m : Nat}

def FilteringCall.call : FilteringCall n → Call n m
  | .tsFeedStart feed => .tsFeedStart feed
  | .tsFeedStop feed => .tsFeedStop feed
  | .sectionFeedStart feed => .sectionFeedStart feed
  | .sectionFeedStop feed => .sectionFeedStop feed
  | .connectFrontend => .connectFrontend
  | .disconnectFrontend => .disconnectFrontend

abbrev MantisDemux (n m : Nat) := DvbDemux MantisDvb n m

def filteringStep (s : MantisDemux n m) (i : FilteringCall n × Bool) : MantisDemux n m × List Int :=
  s.step mantisHooks (i.1.call, i.2)

/-- The feeds in state `DMX_STATE_GO`. -/
def going (s : MantisDemux n m) : Finset (Fin n) := Finset.univ.filter fun i => (s.feed i).state = .go

/-- The driver counts the feeds that filter, and the DMA engine was last started exactly if there are any. -/
def Counted (mantis : MantisDvb) (k : Nat) : Prop :=
  mantis.feeds.toNat = k ∧ (mantis.dma.enabled = true ↔ 0 < k)

/-- Besides, the mutex is free and the feeds know whether they filter. -/
structure Balanced (s : MantisDemux n m) : Prop where
  counted : Counted s.driver (going s).card
  free : s.mutex = false
  filtering : ∀ i, (s.feed i).isFiltering = true ↔ (s.feed i).state = .go

/-- A feed that is started is not the 256th, a TS feed that filters is stopped while a frontend is connected, and
a section feed is stopped that filters if and only if a frontend is connected. -/
def KeepsCount (s : MantisDemux n m) (i : FilteringCall n × Bool) : Prop :=
  i.2 = false →
    match i.1 with
    | .tsFeedStart feed =>
      (s.feed feed).state = .ready → (s.feed feed).type = .ts → s.frontend = true → (going s).card + 1 < 256
    | .tsFeedStop feed => (s.feed feed).state = .go → s.frontend = true
    | .sectionFeedStart feed =>
      (s.feed feed).isFiltering = false → (s.feed feed).filter ≠ [] → s.frontend = true → (going s).card + 1 < 256
    | .sectionFeedStop feed => (s.feed feed).state = .go ↔ s.frontend = true
    | .connectFrontend | .disconnectFrontend => True

instance (s : MantisDemux n m) (i : FilteringCall n × Bool) : Decidable (KeepsCount s i) := by
  unfold KeepsCount
  obtain ⟨call, signal⟩ := i
  cases call <;> infer_instance

/-! ## The hooks -/

theorem counted_start_iff {mantis : MantisDvb} {k : Nat} (h : Counted mantis k) :
    Counted (mantisDvbStartFeed mantis true).1 (k + 1) ↔ k + 1 < 256 := by
  obtain ⟨hfeeds,hdma⟩ := h
  have hlt : k < 256 := hfeeds ▸ mantis.feeds.toNat_lt
  have hnext : (mantis.feeds + 1).toNat = (k + 1) % 256 := by
    rw [UInt8.toNat_add,hfeeds]
    rfl
  constructor
  · rintro ⟨hcount,-⟩
    change (mantis.feeds + 1).toNat = k + 1 at hcount
    omega
  · intro hbound
    have hcount : (mantis.feeds + 1).toNat = k + 1 := by
      rw [hnext,Nat.mod_eq_of_lt hbound]
    refine ⟨hcount,iff_of_true ?_ (Nat.succ_pos k)⟩
    change (if mantis.feeds + 1 = 1 then _ else _ : MantisPci).enabled = true
    split
    · rfl
    · rename_i hmore
      apply hdma.mpr
      by_contra hzero
      have hk : k = 0 := by omega
      subst hk
      exact hmore (UInt8.toNat_inj.mp hcount)

theorem counted_stop {mantis : MantisDvb} {k : Nat} (h : Counted mantis (k + 1)) :
    Counted (mantisDvbStopFeed mantis true).1 k := by
  obtain ⟨hfeeds,hdma⟩ := h
  have hlt : mantis.feeds.toNat < 256 := mantis.feeds.toNat_lt
  have hcount : (mantis.feeds - 1).toNat = k := by
    rw [UInt8.toNat_sub]
    simp only [UInt8.toNat_one]
    omega
  refine ⟨hcount,?_⟩
  change (if mantis.feeds - 1 = 0 then _ else _ : MantisPci).enabled = true ↔ _
  split
  · rename_i hzero
    have hk : k = 0 := by
      rw [← hcount,hzero]
      rfl
    rw [hk]
    exact iff_of_false Bool.false_ne_true (Nat.lt_irrefl 0)
  · rename_i hmore
    have hk : 0 < k := by
      apply Nat.pos_of_ne_zero
      intro hk
      exact hmore (UInt8.toNat_inj.mp (hcount.trans hk))
    exact iff_of_true (hdma.mpr (Nat.succ_pos k)) hk

theorem not_counted_stop {mantis : MantisDvb} {k : Nat} (h : Counted mantis k) :
    ¬ Counted (mantisDvbStopFeed mantis true).1 k := by
  obtain ⟨hfeeds,-⟩ := h
  rintro ⟨hcount,-⟩
  change (mantis.feeds - 1).toNat = k at hcount
  have hlt : mantis.feeds.toNat < 256 := mantis.feeds.toNat_lt
  rw [UInt8.toNat_sub] at hcount
  simp only [UInt8.toNat_one] at hcount
  omega

theorem Counted.unique {mantis : MantisDvb} {k l : Nat} (h : Counted mantis k) (h' : Counted mantis l) : k = l :=
  h.1.symm.trans h'.1

/-! ## The feeds that filter -/

section Going

variable {s : MantisDemux n m} {feed : Fin n} {f : FeedApi.DvbDemuxFeed m → FeedApi.DvbDemuxFeed m}

theorem mem_going (s : MantisDemux n m) (i : Fin n) : i ∈ going s ↔ (s.feed i).state = .go := by
  simp [going]

theorem state_updateFeed (i : Fin n) :
    ((s.updateFeed feed f).feed i).state = if i = feed then (f (s.feed feed)).state else (s.feed i).state := by
  by_cases hi : i = feed
  · subst hi
    simp [DvbDemux.updateFeed]
  · simp [DvbDemux.updateFeed,hi]

theorem card_going_start (hidle : (s.feed feed).state ≠ .go) (hgo : (f (s.feed feed)).state = .go) :
    (going (s.updateFeed feed f)).card = (going s).card + 1 := by
  have hinsert : going (s.updateFeed feed f) = insert feed (going s) := by
    ext i
    rw [mem_going,Finset.mem_insert,mem_going,state_updateFeed]
    by_cases hi : i = feed
    · simp [hi,hgo]
    · simp [hi]
  rw [hinsert,Finset.card_insert_of_notMem fun hmem => hidle ((mem_going s feed).mp hmem)]

theorem card_going_stop (hgo : (s.feed feed).state = .go) (hidle : (f (s.feed feed)).state ≠ .go) :
    (going s).card = (going (s.updateFeed feed f)).card + 1 := by
  have herase : going (s.updateFeed feed f) = (going s).erase feed := by
    ext i
    rw [mem_going,Finset.mem_erase,mem_going,state_updateFeed]
    by_cases hi : i = feed
    · simp [hi,hidle]
    · simp [hi]
  have hmem : feed ∈ going s := (mem_going s feed).mpr hgo
  rw [herase,Finset.card_erase_of_mem hmem,Nat.sub_add_cancel (Finset.card_pos.mpr ⟨feed,hmem⟩)]

theorem going_idle (hidle : (s.feed feed).state ≠ .go) (hidle' : (f (s.feed feed)).state ≠ .go) :
    going (s.updateFeed feed f) = going s := by
  ext i
  rw [mem_going,mem_going,state_updateFeed]
  by_cases hi : i = feed
  · simp [hi,hidle,hidle']
  · simp [hi]

end Going

/-! ## Calls -/

section Calls

variable {s : MantisDemux n m}

theorem Balanced.filtering_update (h : Balanced s) (feed : Fin n) {f : FeedApi.DvbDemuxFeed m → FeedApi.DvbDemuxFeed m}
    (hf : (f (s.feed feed)).isFiltering = true ↔ (f (s.feed feed)).state = .go) (i : Fin n) :
    ((s.updateFeed feed f).feed i).isFiltering = true ↔ ((s.updateFeed feed f).feed i).state = .go := by
  by_cases hi : i = feed
  · subst hi
    simpa [DvbDemux.updateFeed] using hf
  · simpa [DvbDemux.updateFeed,hi] using h.filtering i

/-- The call returns with a free mutex, the feeds know whether they filter, and the count holds if and only if
`P` does. -/
def Settles (outcome : Outcome MantisDvb n m) (P : Prop) : Prop :=
  ∃ d ret, outcome = .returned d ret ∧ d.mutex = false ∧
    (∀ i, (d.feed i).isFiltering = true ↔ (d.feed i).state = .go) ∧ (Counted d.driver (going d).card ↔ P)

theorem Balanced.settles (h : Balanced s) (ret : Int) {P : Prop} (hP : P) :
    Settles (.returned s ret : Outcome MantisDvb n m) P :=
  ⟨s, ret, rfl, h.free, h.filtering, iff_of_true h.counted hP⟩

theorem Balanced.settles_unlock (h : Balanced s) (ret : Int) {P : Prop} (hP : P) :
    Settles (({ s with mutex := true } : MantisDemux n m).unlock ret) P :=
  ⟨{ s with mutex := false }, ret, rfl, rfl, h.filtering, iff_of_true h.counted hP⟩

theorem Balanced.settles_lock (h : Balanced s) (signal : Bool) {rest : MantisDemux n m → Outcome MantisDvb n m}
    {P : Prop} (hrest : Settles (rest { s with mutex := true }) P) :
    Settles (s.lock signal rest) (signal = false → P) := by
  unfold DvbDemux.lock
  rw [h.free,if_neg Bool.false_ne_true]
  cases signal with
  | true => exact h.settles errRestartsys fun hs => absurd hs Bool.noConfusion
  | false => simpa using hrest

theorem Balanced.settles_startFeed (h : Balanced s) {feed : Fin n} (hidle : (s.feed feed).state ≠ .go) :
    Settles (DvbDemux.startFeed mantisHooks { s with mutex := true } feed)
      (s.frontend = true → (going s).card + 1 < 256) := by
  unfold DvbDemux.startFeed mantisHooks
  by_cases hfrontend : s.frontend = true
  · have hnonneg : ¬ (mantisDvbStartFeed s.driver true).2 < 0 := by
      change ¬ (((s.driver.feeds + 1).toNat : Nat) : Int) < 0
      omega
    simp only [hfrontend,if_neg hnonneg]
    have hcard := card_going_start (f := FeedApi.DvbDemuxFeed.go) hidle rfl
    have hcounted := counted_start_iff h.counted
    rw [← hcard] at hcounted
    refine ⟨_,0,rfl,rfl,h.filtering_update feed (f := FeedApi.DvbDemuxFeed.go) ?_,hcounted.trans ?_⟩
    · exact iff_of_true rfl rfl
    · rw [hcard]
      simp
  · have hnone : s.frontend = false := Bool.eq_false_iff.mpr hfrontend
    have hhook : mantisDvbStartFeed s.driver s.frontend = (s.driver, errInval) := by
      rw [hnone]
      rfl
    have hneg : errInval < 0 := by decide
    simp only [hhook,if_pos hneg]
    exact h.settles_unlock _ fun hs => absurd hs hfrontend

theorem Balanced.settles_stopFeed (h : Balanced s) (feed : Fin n) {state : Demux.DmxState} (hstate : state ≠ .go) :
    Settles (DvbDemux.stopFeed mantisHooks { s with mutex := true } feed state)
      ((s.feed feed).state = .go ↔ s.frontend = true) := by
  unfold DvbDemux.stopFeed mantisHooks
  refine ⟨_,_,rfl,rfl,h.filtering_update feed (f := FeedApi.DvbDemuxFeed.stop state) ?_,?_⟩
  · exact iff_of_false Bool.false_ne_true hstate
  change Counted (mantisDvbStopFeed s.driver s.frontend).1
    (going (s.updateFeed feed (FeedApi.DvbDemuxFeed.stop state))).card ↔ _
  have hcounted := h.counted
  by_cases hgo : (s.feed feed).state = .go
  · have hcard := card_going_stop (f := FeedApi.DvbDemuxFeed.stop state) hgo hstate
    rw [hcard] at hcounted
    cases hfrontend : s.frontend with
    | true => exact iff_of_true (counted_stop hcounted) (iff_of_true hgo rfl)
    | false =>
      refine iff_of_false (fun hkept => ?_) (fun hiff => Bool.false_ne_true (hiff.mp hgo))
      have hsame := hcounted.unique hkept
      omega
  · rw [going_idle (f := FeedApi.DvbDemuxFeed.stop state) hgo hstate]
    cases hfrontend : s.frontend with
    | true => exact iff_of_false (not_counted_stop hcounted) (fun hiff => hgo (hiff.mpr rfl))
    | false => exact iff_of_true hcounted (iff_of_false hgo Bool.false_ne_true)

theorem Balanced.settles_tsFeedStart (h : Balanced s) (feed : Fin n) (signal : Bool) :
    Settles (DvbDemux.dmxTsFeedStartFiltering mantisHooks s feed signal) (signal = false →
      (s.feed feed).state = .ready → (s.feed feed).type = .ts → s.frontend = true → (going s).card + 1 < 256) := by
  refine h.settles_lock signal ?_
  by_cases hrefused : (s.feed feed).state ≠ .ready ∨ (s.feed feed).type ≠ .ts
  · rw [if_pos hrefused]
    apply h.settles_unlock
    intro hready hts
    exact absurd hrefused (by simp [hready,hts])
  · rw [if_neg hrefused]
    obtain ⟨hready,hts⟩ : (s.feed feed).state = .ready ∧ (s.feed feed).type = .ts := by
      simpa only [not_or,not_not] using hrefused
    have hidle : (s.feed feed).state ≠ .go := by
      rw [hready]
      decide
    obtain ⟨d,ret,hd,hfree,hfilt,hiff⟩ := h.settles_startFeed hidle
    exact ⟨d,ret,hd,hfree,hfilt,hiff.trans ⟨fun hb _ _ => hb,fun hb => hb hready hts⟩⟩

theorem Balanced.settles_tsFeedStop (h : Balanced s) (feed : Fin n) (signal : Bool) :
    Settles (DvbDemux.dmxTsFeedStopFiltering mantisHooks s feed signal)
      (signal = false → (s.feed feed).state = .go → s.frontend = true) := by
  refine h.settles_lock signal ?_
  by_cases hgo : (s.feed feed).state = .go
  · rw [if_neg (not_not.mpr hgo)]
    have hstate : Demux.DmxState.allocated ≠ .go := by decide
    obtain ⟨d,ret,hd,hfree,hfilt,hiff⟩ := h.settles_stopFeed feed hstate
    exact ⟨d,ret,hd,hfree,hfilt,hiff.trans ⟨fun hb _ => hb.mp hgo,fun hb => iff_of_true hgo (hb hgo)⟩⟩
  · rw [if_pos hgo]
    exact h.settles_unlock _ fun hcon => absurd hcon hgo

theorem Balanced.settles_sectionFeedStart (h : Balanced s) (feed : Fin n) (signal : Bool) :
    Settles (DvbDemux.dmxSectionFeedStartFiltering mantisHooks s feed signal) (signal = false →
      (s.feed feed).isFiltering = false → (s.feed feed).filter ≠ [] → s.frontend = true →
        (going s).card + 1 < 256) := by
  refine h.settles_lock signal ?_
  by_cases hfiltering : (s.feed feed).isFiltering = true
  · rw [if_pos hfiltering]
    apply h.settles_unlock
    intro hnot
    exact absurd (hfiltering.symm.trans hnot) Bool.noConfusion
  by_cases hfilter : (s.feed feed).filter = []
  · rw [if_neg hfiltering,if_pos hfilter]
    exact h.settles_unlock _ fun _ hne => absurd hfilter hne
  · rw [if_neg hfiltering,if_neg hfilter]
    have hidle : (s.feed feed).state ≠ .go := fun hgo => hfiltering ((h.filtering feed).mpr hgo)
    obtain ⟨d,ret,hd,hfree,hfilt,hiff⟩ := h.settles_startFeed hidle
    refine ⟨d,ret,hd,hfree,hfilt,hiff.trans ⟨fun hb _ _ => hb,fun hb => hb ?_ hfilter⟩⟩
    exact Bool.eq_false_iff.mpr hfiltering

theorem Balanced.settles_sectionFeedStop (h : Balanced s) (feed : Fin n) (signal : Bool) :
    Settles (DvbDemux.dmxSectionFeedStopFiltering mantisHooks s feed signal)
      (signal = false → ((s.feed feed).state = .go ↔ s.frontend = true)) :=
  h.settles_lock signal (h.settles_stopFeed feed (by decide))

theorem Balanced.settles_connectFrontend (h : Balanced s) (signal : Bool) :
    Settles (s.dvbdmxConnectFrontend signal) (signal = false → True) := by
  unfold DvbDemux.dvbdmxConnectFrontend
  split
  · exact h.settles errInval fun _ => trivial
  · exact h.settles_lock signal ⟨_,0,rfl,rfl,h.filtering,iff_of_true h.counted trivial⟩

theorem Balanced.settles_disconnectFrontend (h : Balanced s) (signal : Bool) :
    Settles (s.dvbdmxDisconnectFrontend signal) (signal = false → True) :=
  h.settles_lock signal ⟨_, 0, rfl, rfl, h.filtering, iff_of_true h.counted trivial⟩

theorem Balanced.settles_call (h : Balanced s) (i : FilteringCall n × Bool) :
    Settles (s.call mantisHooks i.2 i.1.call) (KeepsCount s i) := by
  obtain ⟨call,signal⟩ := i
  cases call with
  | tsFeedStart feed => exact h.settles_tsFeedStart feed signal
  | tsFeedStop feed => exact h.settles_tsFeedStop feed signal
  | sectionFeedStart feed => exact h.settles_sectionFeedStart feed signal
  | sectionFeedStop feed => exact h.settles_sectionFeedStop feed signal
  | connectFrontend => exact h.settles_connectFrontend signal
  | disconnectFrontend => exact h.settles_disconnectFrontend signal

theorem Balanced.step_iff (h : Balanced s) (i : FilteringCall n × Bool) :
    (KeepsCount s i → Balanced (filteringStep s i).1) ∧
      (Counted (filteringStep s i).1.driver (going (filteringStep s i).1).card → KeepsCount s i) := by
  obtain ⟨d,ret,hd,hfree,hfilt,hiff⟩ := h.settles_call i
  have hstep : (filteringStep s i).1 = d := by
    unfold filteringStep DvbDemux.step
    rw [hd]
  rw [hstep]
  exact ⟨fun hkeeps => ⟨hiff.mpr hkeeps,hfree,hfilt⟩,hiff.mp⟩

end Calls

/-- After every call of a run the driver counts the feeds that filter, and the DMA engine was last started if
and only if there are any, exactly in runs whose calls all keep the count. -/
theorem feeds_counted_iff {s : MantisDemux n m} (h : Balanced s) (is : List (FilteringCall n × Bool)) :
    (∀ pre, pre <+: is → Counted (runTrace filteringStep s pre).1.driver
        (going (runTrace filteringStep s pre).1).card) ↔
      StepsMeet filteringStep KeepsCount s is := by
  have htrue : StepsMeet filteringStep (fun _ _ => True) s is := StepsMeet.of_forall (fun _ _ => trivial) s is
  refine forall_prefix_iff_stepsMeet_of Balanced (fun _ hb => hb.counted) ?_ ?_ h htrue
  · exact fun _ i hb _ hkeeps => (hb.step_iff i).1 hkeeps
  · exact fun _ i hb _ hgood => (hb.step_iff i).2 hgood

def twoFeedDemux : MantisDemux 2 2 where
  driver := ⟨0, .init 0 0x10000⟩
  mutex := false
  frontend := true
  feed i := ⟨.sec, .ready, 18, ⟨false, false, false⟩, 0, true, false, [i]⟩
  filter i := ⟨.sec, .ready, some i⟩
  pesfilter _ := none
  pids _ := 0xffff
  feedList := [0, 1]

theorem balanced_twoFeedDemux : Balanced twoFeedDemux := by
  refine ⟨?_,rfl,?_⟩
  · unfold Counted
    decide
  · decide

def oneStopped : List (FilteringCall 2 × Bool) :=
  [(.sectionFeedStart 0, false), (.sectionFeedStart 1, false), (.sectionFeedStop 0, false)]

theorem feeds_counted_started : Counted (runTrace filteringStep twoFeedDemux oneStopped).1.driver
      (going (runTrace filteringStep twoFeedDemux oneStopped).1).card :=
  (feeds_counted_iff balanced_twoFeedDemux oneStopped).mpr (by decide) _ (List.prefix_refl _)

/-- The second stop of one feed stops the engine while the other one filters. -/
theorem feeds_not_counted :
    ¬ ∀ pre, pre <+: [(.sectionFeedStart 0, false), (.sectionFeedStart 1, false), (.sectionFeedStop 0, false),
        (.sectionFeedStop 0, false)] →
      Counted (runTrace filteringStep twoFeedDemux pre).1.driver
        (going (runTrace filteringStep twoFeedDemux pre).1).card := by
  intro h
  obtain ⟨-, hdma⟩ := h _ (List.prefix_refl _)
  revert hdma
  decide

end LinuxDvb.Mantis
