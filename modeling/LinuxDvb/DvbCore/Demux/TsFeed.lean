import LinuxDvb.Framework.Trace
import LinuxDvb.DvbCore.Demux.SectionFeed

/-!
# TS feeds and the decoder slots

The `dmx_ts_feed` API of `dvb_demux.c`. A feed that is sent to the built-in decoder occupies the entry of its PES type
in `pesfilter`.
-/

namespace LinuxDvb.Demux

def dmxTsPesOther : Nat := 20

def dmxMaxPid : Nat := 0x2000

/-- `struct dvb_demux_feed` as the TS feed API uses it; `filter` is an entry of the filter pool. -/
structure TsPoolFeed (m : Nat) where
  type : DmxType
  state : DmxState
  pid : Nat
  tsType : TsType
  pesType : Nat
  isFiltering : Bool
  filter : Option (Fin m)

/-- `struct dvb_demux` with `n` feeds and `m` filters. -/
structure TsDemux (n m : Nat) where
  feed : Fin n → TsPoolFeed m
  filter : Fin m → DmxState
  pesfilter : Fin dmxTsPesOther → Option (Fin n)
  pids : Fin dmxTsPesOther → Nat
  feedList : List (Fin n)

def pesSlot (pesType : Nat) : Option (Fin dmxTsPesOther) :=
  if h : pesType < dmxTsPesOther then some ⟨pesType, h⟩ else none

def decoderSlot (tsType : TsType) (pesType : Nat) : Option (Fin dmxTsPesOther) :=
  if tsType.decoder then pesSlot pesType else none

variable {n m : Nat}

/-- `dvb_dmx_feed_alloc` and `dvb_dmx_filter_alloc` take the first free entry. -/
def firstFree {k : Nat} (state : Fin k → DmxState) : Option (Fin k) :=
  (List.finRange k).find? fun i => state i = .free

def TsDemux.updateFeed (demux : TsDemux n m) (feed : Fin n) (f : TsPoolFeed m → TsPoolFeed m) : TsDemux n m :=
  { demux with feed := Function.update demux.feed feed (f (demux.feed feed)) }

/-- `dvb_demux_feed_add` -/
def TsDemux.feedAdd (demux : TsDemux n m) (feed : Fin n) : TsDemux n m :=
  if feed ∈ demux.feedList then demux else { demux with feedList := feed :: demux.feedList }

/-- `dvb_demux_feed_del` -/
def TsDemux.feedDel (demux : TsDemux n m) (feed : Fin n) : TsDemux n m :=
  { demux with feedList := demux.feedList.erase feed }

/-- The part of `dmx_ts_feed_set` behind the checks. There is no buffer (`NOBUFS`), so that nothing can
fail any more. -/
def TsDemux.setFeed (demux : TsDemux n m) (feed : Fin n) (pid : Nat) (tsType : TsType) (pesType : Nat) :
    TsDemux n m :=
  (demux.feedAdd feed).updateFeed feed fun f =>
    { f with pid := pid, tsType := tsType, pesType := pesType, state := .ready }

/-- `interrupted` says whether a signal arrives while the call waits for the mutex. -/
def dmxTsFeedSet (demux : TsDemux n m) (feed : Fin n) (pid : Nat) (tsType : TsType) (pesType : Nat)
    (interrupted : Bool) : TsDemux n m × Int :=
  if pid > dmxMaxPid then (demux, errInval)
  else if interrupted then (demux, errRestartsys)
  else if tsType.decoder then
    match pesSlot pesType with
    | none => (demux, errInval)
    | some t =>
      if (demux.pesfilter t).any (· ≠ feed) then (demux, errInval)
      else
        let demux := { demux with
          pesfilter := Function.update demux.pesfilter t (some feed)
          pids := Function.update demux.pids t pid }
        (demux.setFeed feed pid tsType pesType, 0)
  else (demux.setFeed feed pid tsType pesType, 0)

def dmxTsFeedStartFiltering (demux : TsDemux n m) (feed : Fin n) (startFeed : Option Int)
    (interrupted : Bool) : TsDemux n m × Int :=
  if interrupted then (demux, errRestartsys)
  else if (demux.feed feed).state ≠ .ready ∨ (demux.feed feed).type ≠ .ts then (demux, errInval)
  else
    match startFeed with
    | none => (demux, errNodev)
    | some ret =>
      if ret < 0 then (demux, ret)
      else (demux.updateFeed feed fun f => { f with isFiltering := true, state := .go }, 0)

def dmxTsFeedStopFiltering (demux : TsDemux n m) (feed : Fin n) (stopFeed : Option Int)
    (interrupted : Bool) : TsDemux n m × Int :=
  if interrupted then (demux, errRestartsys)
  else if (demux.feed feed).state ≠ .go then (demux, errInval)
  else
    match stopFeed with
    | none => (demux, errNodev)
    | some ret => (demux.updateFeed feed fun f => { f with isFiltering := false, state := .allocated }, ret)

def dvbdmxAllocateTsFeed (demux : TsDemux n m) (interrupted : Bool) : TsDemux n m × Int :=
  if interrupted then (demux, errRestartsys)
  else
    match firstFree fun i => (demux.feed i).state with
    | none => (demux, errBusy)
    | some feed =>
      let demux := demux.updateFeed feed fun f =>
        { f with type := .ts, state := .allocated, pid := 0xffff, isFiltering := false }
      match firstFree demux.filter with
      | none => (demux.updateFeed feed fun f => { f with state := .free, filter := none }, errBusy)
      | some filter =>
        let demux := demux.updateFeed feed fun f => { f with filter := some filter }
        ({ demux with filter := Function.update demux.filter filter .ready }, 0)

def dvbdmxReleaseTsFeed (demux : TsDemux n m) (feed : Fin n) (interrupted : Bool) : TsDemux n m × Int :=
  if interrupted then (demux, errRestartsys)
  else if (demux.feed feed).state = .free then (demux, errInval)
  else
    let f := demux.feed feed
    let demux := (demux.updateFeed feed fun f => { f with state := .free, pid := 0xffff }).feedDel feed
    let demux := { demux with
      filter := (f.filter.map fun filter => Function.update demux.filter filter .free).getD demux.filter }
    match decoderSlot f.tsType f.pesType with
    | none => (demux, 0)
    | some t => ({ demux with pesfilter := Function.update demux.pesfilter t none }, 0)

/-- The feeds of a run, with the slot that the last successful set of each feed asked for, if it was not
released since. -/
structure TsRun (n m : Nat) where
  demux : TsDemux n m
  asked : Fin n → Option (Fin dmxTsPesOther)

inductive TsCall (n : Nat) where
  | allocate (interrupted : Bool)
  | set (feed : Fin n) (pid : Nat) (tsType : TsType) (pesType : Nat) (interrupted : Bool)
  | start (feed : Fin n) (startFeed : Option Int) (interrupted : Bool)
  | stop (feed : Fin n) (stopFeed : Option Int) (interrupted : Bool)
  | release (feed : Fin n) (interrupted : Bool)

def TsCall.run (demux : TsDemux n m) : TsCall n → TsDemux n m × Int
  | .allocate interrupted => dvbdmxAllocateTsFeed demux interrupted
  | .set feed pid tsType pesType interrupted => dmxTsFeedSet demux feed pid tsType pesType interrupted
  | .start feed startFeed interrupted => dmxTsFeedStartFiltering demux feed startFeed interrupted
  | .stop feed stopFeed interrupted => dmxTsFeedStopFiltering demux feed stopFeed interrupted
  | .release feed interrupted => dvbdmxReleaseTsFeed demux feed interrupted

/-- How a call that returned `ret` changes what the feeds have asked for. -/
def TsCall.asked (asked : Fin n → Option (Fin dmxTsPesOther)) (ret : Int) :
    TsCall n → Fin n → Option (Fin dmxTsPesOther)
  | .set feed _ tsType pesType _ =>
    if ret = 0 then Function.update asked feed (decoderSlot tsType pesType) else asked
  | .release feed _ => if ret = 0 then Function.update asked feed none else asked
  | _ => asked

def tsRunStep (s : TsRun n m) (call : TsCall n) : TsRun n m × List Int :=
  let r := call.run s.demux
  ({ demux := r.1, asked := call.asked s.asked r.2 }, [r.2])

/-- The run after `dvb_dmx_init`; the memory of the feeds is not cleared. -/
def TsRun.init (feed : Fin n → TsPoolFeed m) : TsRun n m where
  demux :=
    { feed := fun i => { feed i with state := .free }
      filter := fun _ => .free
      pesfilter := fun _ => none
      pids := fun _ => 0xffff
      feedList := [] }
  asked := fun _ => none

structure Exclusive (s : TsRun n m) : Prop where
  owned : ∀ g t, s.asked g = some t → s.demux.pesfilter t = some g
  refused : ∀ g t, s.asked g = some t → ∀ f, f ≠ g → ∀ pid tsType, tsType.decoder = true →
    (dmxTsFeedSet s.demux f pid tsType t false).2 = errInval
  inUse : ∀ t f, s.demux.pesfilter t = some f → (s.demux.feed f).state ≠ .free

/-- A feed is released only if the slot that its fields name was not asked for by another feed, and no
other slot refers to it. -/
def ReleaseClean (s : TsRun n m) : TsCall n → Prop
  | .release f interrupted => interrupted = false → (s.demux.feed f).state ≠ .free →
      (∀ t, decoderSlot (s.demux.feed f).tsType (s.demux.feed f).pesType = some t → ∀ g, g ≠ f → s.asked g ≠ some t) ∧
      ∀ t, s.demux.pesfilter t = some f →
        decoderSlot (s.demux.feed f).tsType (s.demux.feed f).pesType = some t
  | _ => True

/-! ## Single calls -/

variable {demux : TsDemux n m} {s : TsRun n m}

structure KeepsSlots (demux demux' : TsDemux n m) : Prop where
  pesfilter : demux'.pesfilter = demux.pesfilter
  state : ∀ f, (demux.feed f).state ≠ .free → (demux'.feed f).state ≠ .free

theorem KeepsSlots.refl (demux : TsDemux n m) : KeepsSlots demux demux := ⟨rfl, fun _ h => h⟩

@[simp] theorem TsDemux.updateFeed_self (demux : TsDemux n m) (feed : Fin n)
    (f : TsPoolFeed m → TsPoolFeed m) : (demux.updateFeed feed f).feed feed = f (demux.feed feed) :=
  Function.update_self _ _ _

theorem TsDemux.updateFeed_of_ne (demux : TsDemux n m) {feed g : Fin n} (h : g ≠ feed)
    (f : TsPoolFeed m → TsPoolFeed m) : (demux.updateFeed feed f).feed g = demux.feed g :=
  Function.update_of_ne h _ _

theorem KeepsSlots.updateFeed (demux : TsDemux n m) (feed : Fin n) (f : TsPoolFeed m → TsPoolFeed m)
    (h : (f (demux.feed feed)).state ≠ .free) : KeepsSlots demux (demux.updateFeed feed f) := by
  refine ⟨rfl,?_⟩
  intro g hg
  by_cases he : g = feed
  · rw [he,TsDemux.updateFeed_self]
    exact h
  · rwa [TsDemux.updateFeed_of_ne demux he]

theorem firstFree_state {k : Nat} {state : Fin k → DmxState} {i : Fin k} (h : firstFree state = some i) :
    state i = .free := by
  simpa using find?_some h

theorem allocateTsFeed_keeps (interrupted : Bool) : KeepsSlots demux (dvbdmxAllocateTsFeed demux interrupted).1 := by
  unfold dvbdmxAllocateTsFeed
  split
  · exact .refl demux
  · cases hfree : firstFree fun i => (demux.feed i).state with
    | none => exact .refl demux
    | some feed =>
      -- the entry was free before, so it does not matter whether it is free afterwards
      have hfeed : ∀ g, (demux.feed g).state ≠ .free → g ≠ feed := by
        intro g hg he
        exact hg (he ▸ firstFree_state hfree)
      dsimp only
      split
      · refine ⟨rfl,?_⟩
        intro g hg
        simpa [TsDemux.updateFeed,hfeed g hg] using hg
      · refine ⟨rfl,?_⟩
        intro g hg
        simpa [TsDemux.updateFeed,hfeed g hg] using hg

theorem tsFeedStart_keeps (feed : Fin n) (startFeed : Option Int) (interrupted : Bool) :
    KeepsSlots demux (dmxTsFeedStartFiltering demux feed startFeed interrupted).1 := by
  unfold dmxTsFeedStartFiltering
  split
  · exact .refl demux
  split
  · exact .refl demux
  cases startFeed with
  | none => exact .refl demux
  | some ret =>
    dsimp only
    split
    · exact .refl demux
    · dsimp only
      apply KeepsSlots.updateFeed
      exact fun h => nomatch h

theorem tsFeedStop_keeps (feed : Fin n) (stopFeed : Option Int) (interrupted : Bool) :
    KeepsSlots demux (dmxTsFeedStopFiltering demux feed stopFeed interrupted).1 := by
  unfold dmxTsFeedStopFiltering
  split
  · exact .refl demux
  split
  · exact .refl demux
  cases stopFeed with
  | none => exact .refl demux
  | some ret =>
    dsimp only
    apply KeepsSlots.updateFeed
    exact fun h => nomatch h

theorem setFeed_keeps (demux : TsDemux n m) (feed : Fin n) (pid : Nat) (tsType : TsType) (pesType : Nat) :
    KeepsSlots demux (demux.setFeed feed pid tsType pesType) := by
  have hadd : KeepsSlots demux (demux.feedAdd feed) := by
    unfold TsDemux.feedAdd
    split <;> exact ⟨rfl,fun _ h => h⟩
  have hset := KeepsSlots.updateFeed (demux.feedAdd feed) feed
    (fun f => { f with pid := pid, tsType := tsType, pesType := pesType, state := .ready })
    fun h => nomatch h
  exact ⟨hset.pesfilter.trans hadd.pesfilter,fun f hf => hset.state f (hadd.state f hf)⟩

theorem setFeed_state (demux : TsDemux n m) (feed : Fin n) (pid : Nat) (tsType : TsType) (pesType : Nat) :
    ((demux.setFeed feed pid tsType pesType).feed feed).state = .ready := by
  simp [TsDemux.setFeed]

theorem tsFeedSet_cases (demux : TsDemux n m) (feed : Fin n) (pid : Nat) (tsType : TsType) (pesType : Nat)
    (interrupted : Bool) :
    (∃ ret, dmxTsFeedSet demux feed pid tsType pesType interrupted = (demux, ret) ∧ ret ≠ 0) ∨
    (∃ demux' : TsDemux n m, dmxTsFeedSet demux feed pid tsType pesType interrupted =
        (demux'.setFeed feed pid tsType pesType, 0) ∧ demux'.feed = demux.feed ∧
      match decoderSlot tsType pesType with
      | none => demux'.pesfilter = demux.pesfilter
      | some t => (∀ g, demux.pesfilter t = some g → g = feed) ∧
          demux'.pesfilter = Function.update demux.pesfilter t (some feed)) := by
  unfold dmxTsFeedSet decoderSlot
  split
  · exact .inl ⟨_,rfl,by decide⟩
  split
  · exact .inl ⟨_,rfl,by decide⟩
  split
  swap
  · exact .inr ⟨demux,rfl,rfl,rfl⟩
  cases pesSlot pesType with
  | none => exact .inl ⟨_,rfl,by decide⟩
  | some t =>
    dsimp only
    split
    · exact .inl ⟨_,rfl,by decide⟩
    · rename_i hfree
      refine .inr ⟨_,rfl,rfl,?_,rfl⟩
      intro g hg
      simpa [hg] using hfree

theorem tsFeedSet_refused {g f : Fin n} {t : Fin dmxTsPesOther} (h : demux.pesfilter t = some g) (hf : f ≠ g)
    (pid : Nat) {tsType : TsType} (hdecoder : tsType.decoder = true) :
    (dmxTsFeedSet demux f pid tsType t false).2 = errInval := by
  have hslot : pesSlot t = some t := dif_pos t.isLt
  unfold dmxTsFeedSet
  rw [hdecoder,hslot]
  split
  · rfl
  · simp [h,Ne.symm hf]

theorem Exclusive.of_owned (howned : ∀ g t, s.asked g = some t → s.demux.pesfilter t = some g)
    (hinUse : ∀ t f, s.demux.pesfilter t = some f → (s.demux.feed f).state ≠ .free) : Exclusive s where
  owned := howned
  refused := fun g t hg _ hf pid _ hdecoder => tsFeedSet_refused (howned g t hg) hf pid hdecoder
  inUse := hinUse

theorem Exclusive.keeps {demux' : TsDemux n m} (h : Exclusive s) (hkeeps : KeepsSlots s.demux demux') :
    Exclusive { demux := demux', asked := s.asked } := by
  refine .of_owned ?_ ?_
  · intro g t hg
    dsimp only
    rw [hkeeps.pesfilter]
    exact h.owned g t hg
  · intro t f hf
    dsimp only at hf ⊢
    rw [hkeeps.pesfilter] at hf
    exact hkeeps.state f (h.inUse t f hf)

theorem tsRunStep_eq (call : TsCall n) {demux' : TsDemux n m} {ret : Int} (h : call.run s.demux = (demux', ret)) :
    (tsRunStep s call).1 = { demux := demux', asked := call.asked s.asked ret } := by
  simp only [tsRunStep,h]

theorem Exclusive.set (h : Exclusive s) (feed : Fin n) (pid : Nat) (tsType : TsType) (pesType : Nat)
    (interrupted : Bool) : Exclusive (tsRunStep s (.set feed pid tsType pesType interrupted)).1 := by
  obtain ⟨ret,heq,hret⟩ | ⟨demux',heq,hfeed,hslot⟩ :=
    tsFeedSet_cases s.demux feed pid tsType pesType interrupted
  · rw [tsRunStep_eq (.set feed pid tsType pesType interrupted) heq,TsCall.asked,if_neg hret]
    exact h
  rw [tsRunStep_eq (.set feed pid tsType pesType interrupted) heq,TsCall.asked,if_pos rfl]
  obtain ⟨hpes,hkeep⟩ := setFeed_keeps demux' feed pid tsType pesType
  have hready := setFeed_state demux' feed pid tsType pesType
  have hinUse : ∀ f t, s.demux.pesfilter t = some f →
      ((demux'.setFeed feed pid tsType pesType).feed f).state ≠ .free := by
    intro f t hf
    apply hkeep
    rw [hfeed]
    exact h.inUse t f hf
  cases hd : decoderSlot tsType pesType with
  | none =>
    rw [hd] at hslot
    refine .of_owned ?_ ?_
    · intro g t hg
      dsimp only at hg ⊢
      rw [hpes,hslot]
      by_cases he : g = feed
      · rw [he,Function.update_self] at hg
        cases hg
      · rw [Function.update_of_ne he] at hg
        exact h.owned g t hg
    · intro t f hf
      dsimp only at hf
      rw [hpes,hslot] at hf
      exact hinUse f t hf
  | some t =>
    rw [hd] at hslot
    obtain ⟨hfree,hupdate⟩ := hslot
    refine .of_owned ?_ ?_
    · intro g t' hg
      dsimp only at hg ⊢
      rw [hpes,hupdate]
      by_cases he : g = feed
      · rw [he,Function.update_self] at hg
        rw [← Option.some.inj hg,Function.update_self,he]
      · rw [Function.update_of_ne he] at hg
        have hne : t' ≠ t := by
          intro ht
          exact he (hfree g (ht ▸ h.owned g t' hg))
        rw [Function.update_of_ne hne]
        exact h.owned g t' hg
    · intro t' f hf
      dsimp only at hf ⊢
      rw [hpes,hupdate] at hf
      by_cases ht : t' = t
      · rw [ht,Function.update_self] at hf
        rw [← Option.some.inj hf,hready]
        exact fun h => nomatch h
      · rw [Function.update_of_ne ht] at hf
        exact hinUse f t' hf

theorem releaseTsFeed_spec {feed : Fin n} (hstate : (demux.feed feed).state ≠ .free) :
    ∃ demux' : TsDemux n m, dvbdmxReleaseTsFeed demux feed false = (demux', 0) ∧
      (demux'.feed feed).state = .free ∧ (∀ g, g ≠ feed → demux'.feed g = demux.feed g) ∧
      ∀ t, demux'.pesfilter t =
        if decoderSlot (demux.feed feed).tsType (demux.feed feed).pesType = some t then none
        else demux.pesfilter t := by
  unfold dvbdmxReleaseTsFeed
  rw [if_neg Bool.false_ne_true,if_neg hstate]
  dsimp only
  split
  · rename_i hd
    refine ⟨_,rfl,by simp [TsDemux.feedDel],?_,by simp [hd,TsDemux.feedDel,TsDemux.updateFeed]⟩
    intro g hg
    simp [TsDemux.feedDel,TsDemux.updateFeed_of_ne _ hg]
  · rename_i t hd
    refine ⟨_,rfl,by simp [TsDemux.feedDel],?_,?_⟩
    · intro g hg
      simp [TsDemux.feedDel,TsDemux.updateFeed_of_ne _ hg]
    · intro t'
      rw [hd]
      by_cases ht : t' = t
      · simp [ht]
      · simp [ht,Ne.symm ht,TsDemux.feedDel,TsDemux.updateFeed]

theorem Exclusive.release_iff (h : Exclusive s) (feed : Fin n) (interrupted : Bool) :
    Exclusive (tsRunStep s (.release feed interrupted)).1 ↔ ReleaseClean s (.release feed interrupted) := by
  cases interrupted with
  | true => exact iff_of_true h (fun hf => nomatch hf)
  | false =>
    by_cases hstate : (s.demux.feed feed).state = .free
    · have heq : TsCall.run s.demux (.release feed false) = (s.demux, errInval) := by
        simp [TsCall.run,dvbdmxReleaseTsFeed,hstate]
      rw [tsRunStep_eq (.release feed false) heq]
      exact iff_of_true h fun _ hf => absurd hstate hf
    obtain ⟨demux',heq,hfree,hother,hpes⟩ := releaseTsFeed_spec hstate
    rw [tsRunStep_eq (.release feed false) heq,TsCall.asked,if_pos rfl]
    constructor
    · intro hafter _ _
      refine ⟨?_,?_⟩
      · intro t ht g hg hasked
        have := hafter.owned g t (by dsimp only; rwa [Function.update_of_ne hg])
        dsimp only at this
        rw [hpes,if_pos ht] at this
        cases this
      · intro t ht
        by_contra hne
        refine hafter.inUse t feed ?_ hfree
        dsimp only
        rw [hpes,if_neg hne]
        exact ht
    · intro hclean
      obtain ⟨hnamed,hrefers⟩ := hclean rfl hstate
      refine .of_owned ?_ ?_
      · intro g t hg
        dsimp only at hg ⊢
        by_cases he : g = feed
        · rw [he,Function.update_self] at hg
          cases hg
        · rw [Function.update_of_ne he] at hg
          rw [hpes,if_neg fun ht => hnamed t ht g he hg]
          exact h.owned g t hg
      · intro t f hf
        dsimp only at hf ⊢
        rw [hpes] at hf
        split at hf
        · cases hf
        · rename_i hne
          have hfeed : f ≠ feed := fun he => hne (hrefers t (he ▸ hf))
          rw [hother f hfeed]
          exact h.inUse t f hf

/-- The decoder slots are owned exclusively in every state of a run exactly if all its releases are
clean. -/
theorem decoder_slots_exclusive_iff (feed : Fin n → TsPoolFeed m) (calls : List (TsCall n)) :
    (∀ pre, pre <+: calls → Exclusive (runTrace tsRunStep (.init feed) pre).1) ↔
      StepsMeet tsRunStep ReleaseClean (.init feed) calls := by
  apply forall_prefix_iff_stepsMeet
  · intro s call h
    cases call with
    | allocate interrupted => exact iff_of_true (h.keeps (allocateTsFeed_keeps interrupted)) trivial
    | set feed pid tsType pesType interrupted =>
      exact iff_of_true (h.set feed pid tsType pesType interrupted) trivial
    | start feed startFeed interrupted =>
      exact iff_of_true (h.keeps (tsFeedStart_keeps feed startFeed interrupted)) trivial
    | stop feed stopFeed interrupted =>
      exact iff_of_true (h.keeps (tsFeedStop_keeps feed stopFeed interrupted)) trivial
    | release feed interrupted => exact h.release_iff feed interrupted
  · refine .of_owned ?_ ?_
    · intro g t hg
      cases hg
    · intro t f hf
      cases hf

def unusedFeed : TsPoolFeed 2 where
  type := .ts
  state := .free
  pid := 0
  tsType := ⟨false, false, false⟩
  pesType := 0
  isFiltering := false
  filter := none

/-- Feed 0 gives its slot up and feed 1 takes it; then feed 0 is allocated again, a set of it is refused,
and its release takes the slot away from feed 1. -/
theorem decoder_slots_not_exclusive : ¬ ∀ (n m : Nat) (feed : Fin n → TsPoolFeed m) (calls : List (TsCall n)),
      Exclusive (runTrace tsRunStep (.init feed) calls).1 := by
  intro h
  let decoder : TsType := ⟨true, false, true⟩
  have hrun := h 2 2 (fun _ => unusedFeed)
    [.allocate false, .allocate false, .set 0 100 decoder 0 false, .release 0 false,
      .set 1 100 decoder 0 false, .allocate false, .set 0 100 decoder 0 false, .release 0 false]
  have howned := hrun.owned 1 ⟨0, by decide⟩ (by decide)
  revert howned
  decide

end LinuxDvb.Demux
