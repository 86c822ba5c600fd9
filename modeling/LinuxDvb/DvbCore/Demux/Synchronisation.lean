import LinuxDvb.Framework.Trace
import LinuxDvb.DvbCore.Demux.SectionFeed
import LinuxDvb.DvbCore.Demux.SectionPacket

/-!
# Synchronisation of a section feed

Whole histories of a feed: parameters, filters, starts, stops and packets in any order. An observer that sees only the
calls and the packets keeps the bytes that followed the last pointer target of the current run; a delivered section is
synchronised if it starts in these bytes at the target or behind whole sections.
-/

namespace LinuxDvb.Demux

/-- What an observer knows in a run since the last announced section start. -/
structure Observer where
  cc : Nat
  stream : List UInt8

/-- A feed together with its observer; `none` as long as no section start has been announced. -/
structure FeedRun where
  feed : DvbDemuxFeed
  observer : Option Observer

inductive FeedOp where
  | set (pid : Nat) (checkCrc : Bool)
  | allocateFilter (filter : Option DvbDemuxFilter)
  | startFiltering (startFeed : Option Int)
  | stopFiltering (stopFeed : Option Int)
  | packet (tsp : TsPacket)

def feedOp (wtd : Bool) (feed : DvbDemuxFeed) : FeedOp → DvbDemuxFeed × List DemuxEvent
  | .set pid checkCrc => ((dmxSectionFeedSet feed pid checkCrc).1, [])
  | .allocateFilter filter => ((dmxSectionFeedAllocateFilter feed filter).1, [])
  | .startFiltering startFeed => ((dmxSectionFeedStartFiltering feed startFeed).1, [])
  | .stopFiltering stopFeed => ((dmxSectionFeedStopFiltering feed stopFeed).1, [])
  | .packet tsp => dvbDmxSwfilterPacketType wtd feed tsp

/-- The observed bytes go on with those in front of the pointer target, unless packets are lost. -/
def Observer.continue (o : Observer) (buf : Mem UInt8) : Option Observer :=
  if (o.cc + 1) % 16 = (buf 3 &&& 0x0f).toNat ∧ discontinuityIndicator buf = false then
    some ⟨(buf 3 &&& 0x0f).toNat, o.stream ++ (continuedData buf).slice 0 (continued buf)⟩
  else none

def announced (buf : Mem UInt8) : Option Observer :=
  if announces buf then
    some ⟨(buf 3 &&& 0x0f).toNat, (announcedData buf).slice 0 (payload buf - 1 - continued buf)⟩
  else none

def observe (s : FeedRun) : FeedOp → Option Observer
  | .startFiltering _ => if s.feed.sec.isFiltering then s.observer else none
  | .packet tsp =>
    if s.feed.sec.isFiltering ∧ payload tsp.mem ≠ 0 then
      (announced tsp.mem).or (s.observer.bind fun o => o.continue tsp.mem)
    else s.observer
  | _ => s.observer

def feedRunStep (wtd : Bool) (s : FeedRun) (op : FeedOp) : FeedRun × List DemuxEvent :=
  (⟨(feedOp wtd s.feed op).1, observe s op⟩, (feedOp wtd s.feed op).2)

def StartsIn (stream b : List UInt8) : Prop :=
  ∃ (before : List (List UInt8)) (after : List UInt8), (∀ s ∈ before, IsSection s) ∧ IsSection b ∧
    stream = before.flatten ++ (b ++ after)

/-- What the step delivers starts at, or behind sections that start at, an announced position. -/
def Synchronised (wtd : Bool) (s : FeedRun) (op : FeedOp) : Prop :=
  ∀ b ∈ delivered (feedOp wtd s.feed op).2, ∃ tsp, op = .packet tsp ∧
    ∃ o, (o ∈ s.observer.bind (fun o => o.continue tsp.mem) ∨ o ∈ announced tsp.mem) ∧
      StartsIn o.stream b

/-- A running feed with a `pusi_seen` of an earlier run is not given data that continues its buffer. -/
def NoStaleSync (s : FeedRun) (op : FeedOp) : Prop :=
  s.feed.sec.isFiltering = true → s.observer = none → s.feed.pusiSeen = true →
    ∀ tsp, op = .packet tsp → continuesBuffer s.feed tsp.mem = false

structure Holds (feed : DvbDemuxFeed) (stream : List UInt8) : Prop where
  synced : feed.pusiSeen = true
  fill : feed.sec.tsfeedp = min stream.length dmxMaxSecfeedSize
  bytes : feed.sec.secbufBase.slice 0 feed.sec.tsfeedp = stream.take feed.sec.tsfeedp

structure FeedRun.Inv (s : FeedRun) : Prop where
  section_type : s.feed.type = .sec
  buffered : ∃ done, Buffered s.feed done
  holds : ∀ o ∈ s.observer, Holds s.feed o.stream ∧ s.feed.cc = (o.cc : Int)

private theorem holds_startSection (feed : DvbDemuxFeed) : Holds feed.startSection [] :=
  ⟨rfl, rfl, rfl⟩

private theorem room_le (feed : DvbDemuxFeed) (len : Nat) : feed.room len ≤ len := Nat.min_le_left _ _

variable {feed : DvbDemuxFeed}

private theorem copyDump_holds {done : List (List UInt8)} {stream : List UInt8}
    (hd : Buffered feed done) (h : Holds feed stream) (hf : Filtering feed) (buf : Mem UInt8) (len : Nat) :
    let r := dvbDmxSwfilterSectionCopyDump feed buf len
    Filtering r.1 ∧ (∃ done', Buffered r.1 done') ∧ Holds r.1 (stream ++ buf.slice 0 len) ∧
      r.1.cc = feed.cc ∧ ∀ b ∈ delivered r.2, StartsIn (stream ++ buf.slice 0 len) b := by
  have hfill := h.fill
  by_cases hroom : feed.room len = 0
  · dsimp only
    rw [copyDump_of_room_eq_zero feed buf len hroom]
    refine ⟨hf,⟨done,hd⟩,⟨h.synced,?_,?_⟩,rfl,by simp⟩
    · simp only [DvbDemuxFeed.room,length_append,Mem.length_slice] at *
      omega
    · have hle : feed.sec.tsfeedp ≤ stream.length := by omega
      dsimp only
      rw [h.bytes,take_append_of_le_length hle]
  · obtain ⟨full,tail,hw,hfull,htail,hcore,-,hdel,hbuf⟩ :=
      copyDump_buffered hd buf len (by omega)
    intro r
    have ht : r.1.sec.tsfeedp = feed.sec.tsfeedp + (buf.slice 0 (feed.room len)).length :=
      DvbDemuxFeed.core_congr hcore (fun f => f.sec.tsfeedp) fun _ => rfl
    have hb : r.1.sec.secbufBase =
        feed.sec.secbufBase.write feed.sec.tsfeedp (buf.slice 0 (feed.room len)) :=
      DvbDemuxFeed.core_congr hcore (fun f => f.sec.secbufBase) fun _ => rfl
    have hp : r.1.pusiSeen = feed.pusiSeen := DvbDemuxFeed.core_congr hcore (fun f => f.pusiSeen) fun _ => rfl
    have hcc : r.1.cc = feed.cc := DvbDemuxFeed.core_congr hcore (fun f => f.cc) fun _ => rfl
    rw [Mem.length_slice] at ht
    have hle := room_le feed len
    have hshort : stream.length = feed.sec.tsfeedp := by
      simp only [DvbDemuxFeed.room] at hroom
      omega
    have hstream : feed.sec.secbufBase.slice 0 feed.sec.tsfeedp = stream := by
      rw [h.bytes,← hshort,take_length]
    -- the buffer is the observed bytes, cut where the buffer ends
    have hcut : (stream ++ buf.slice 0 len).take (feed.sec.tsfeedp + feed.room len) =
        stream ++ buf.slice 0 (feed.room len) := by
      rw [← hshort,List.take_length_add_append,Mem.take_slice _ _ _ _ hle]
    refine ⟨hf.of_core hcore,⟨_,hbuf⟩,⟨hp.trans h.synced,?_,?_⟩,hcc,?_⟩
    · simp only [DvbDemuxFeed.room,length_append,Mem.length_slice] at *
      omega
    · have happend := Mem.slice_write_append feed.sec.secbufBase 0 feed.sec.tsfeedp
        (buf.slice 0 (feed.room len))
      rw [Nat.zero_add,Mem.length_slice] at happend
      rw [ht,hb,happend,hstream,hcut]
    · intro b hmem
      obtain ⟨pre,post,rfl⟩ := append_of_mem (hdel b hmem).1
      have hbytes : stream = done.flatten ++
          feed.sec.secbufBase.slice feed.sec.secbufp (feed.sec.tsfeedp - feed.sec.secbufp) := by
        have hsplit := Mem.slice_add feed.sec.secbufBase 0 feed.sec.secbufp
          (feed.sec.tsfeedp - feed.sec.secbufp)
        rw [Nat.add_sub_cancel' hd.cursor,Nat.zero_add,hstream,hd.bytes] at hsplit
        exact hsplit
      refine ⟨done ++ pre,post.flatten ++ tail ++ (stream ++ buf.slice 0 len).drop
        (feed.sec.tsfeedp + feed.room len),?_,hfull b (by simp),?_⟩
      · intro s hs
        exact (mem_append.mp hs).elim (hd.sections s) fun hs => hfull s (by simp [hs])
      · have hsplit := take_append_drop (feed.sec.tsfeedp + feed.room len)
          (stream ++ buf.slice 0 len)
        have hall : stream ++ buf.slice 0 (feed.room len) =
            done.flatten ++ ((pre ++ b :: post).flatten ++ tail) := by
          rw [← hw,← append_assoc,← hbytes]
        conv_lhs => rw [← hsplit,hcut,hall]
        simp

private theorem copyDump_silent {done : List (List UInt8)} (hd : Buffered feed done)
    (hf : Filtering feed) (buf : Mem UInt8) (len : Nat)
    (h : feed.pusiSeen = true → feed.room len = 0) :
    let r := dvbDmxSwfilterSectionCopyDump feed buf len
    Filtering r.1 ∧ (∃ done', Buffered r.1 done') ∧ r.1.cc = feed.cc ∧ delivered r.2 = [] := by
  by_cases hroom : feed.room len = 0
  · dsimp only
    rw [copyDump_of_room_eq_zero feed buf len hroom]
    exact ⟨hf,⟨done,hd⟩,rfl,rfl⟩
  · obtain ⟨full,tail,-,-,-,hcore,-,hdel,hbuf⟩ := copyDump_buffered hd buf len (by omega)
    refine ⟨hf.of_core hcore,⟨_,hbuf⟩,DvbDemuxFeed.core_congr hcore (fun f => f.cc) fun _ => rfl,?_⟩
    exact List.eq_nil_iff_forall_not_mem.mpr fun b hb => hroom (h (hdel b hb).2)

private theorem filtering_sync (h : Filtering feed) (buf : Mem UInt8) : Filtering (sectionPacketSync feed buf) := by
  simp only [sectionPacketSync,dvbDmxSwfilterSectionNew]
  split <;> exact ⟨h.section_type,h.is_filtering⟩

private theorem continue_eq_some_iff {o : Observer} (hcc : feed.cc = (o.cc : Int))
    (buf : Mem UInt8) : (o.continue buf).isSome = undisturbed feed buf := by
  have hok : ccok feed buf = decide ((o.cc + 1) % 16 = (buf 3 &&& 0x0f).toNat) := by
    simp only [ccok,hcc]
    exact decide_eq_decide.mpr (by omega)
  unfold Observer.continue
  rw [undisturbed,hok]
  split <;> simp_all

variable {s : FeedRun}

private theorem continue_phase (h : s.Inv) (hf : Filtering s.feed) {tsp : TsPacket}
    (hok : NoStaleSync s (.packet tsp)) :
    let r := dvbDmxSwfilterSectionCopyDump (sectionPacketSync s.feed tsp.mem) (continuedData tsp.mem)
      (continued tsp.mem)
    let o' := s.observer.bind fun o => o.continue tsp.mem
    FeedRun.Inv ⟨r.1, o'⟩ ∧ Filtering r.1 ∧ r.1.cc = ((tsp.mem 3 &&& 0x0f).toNat : Int) ∧
      ∀ b ∈ delivered r.2, ∃ o ∈ o', StartsIn o.stream b := by
  intro r o'
  obtain ⟨done,hdone⟩ := h.buffered
  have hbuf := buffered_sync hdone tsp.mem
  have hfil := filtering_sync hf tsp.mem
  by_cases hgo : ∃ o ∈ s.observer, undisturbed s.feed tsp.mem = true
  · obtain ⟨o,ho,hu⟩ := hgo
    obtain ⟨hholds,hcc⟩ := h.holds o ho
    have hsome := (continue_eq_some_iff hcc tsp.mem).trans hu
    have ho' : o' = some ⟨(tsp.mem 3 &&& 0x0f).toNat,
        o.stream ++ (continuedData tsp.mem).slice 0 (continued tsp.mem)⟩ := by
      simp only [o',mem_def.mp ho,bind_some,Observer.continue] at hsome ⊢
      split at hsome
      · rw [if_pos ‹_›]
      · simp at hsome
    have hholds' : Holds (sectionPacketSync s.feed tsp.mem) o.stream := by
      rw [sync_of_undisturbed hu]
      exact ⟨hholds.synced,hholds.fill,hholds.bytes⟩
    obtain ⟨h1,h2,h3,h4,h5⟩ := copyDump_holds hbuf hholds' hfil (continuedData tsp.mem)
      (continued tsp.mem)
    rw [sectionPacketSync_cc] at h4
    refine ⟨⟨h1.section_type,h2,?_⟩,h1,h4,?_⟩
    · simp only [ho',mem_def,Option.some.injEq]
      rintro _ rfl
      exact ⟨h3,h4⟩
    · intro b hb
      exact ⟨_,ho',h5 b hb⟩
  · -- unsynchronised: nothing may be delivered
    have hsilent : (sectionPacketSync s.feed tsp.mem).pusiSeen = true →
        (sectionPacketSync s.feed tsp.mem).room (continued tsp.mem) = 0 := by
      by_cases hu : undisturbed s.feed tsp.mem = true
      · rw [sync_of_undisturbed hu]
        intro hp
        have hnone : s.observer = none := by
          by_contra hne
          obtain ⟨o,ho⟩ := Option.ne_none_iff_exists'.mp hne
          exact hgo ⟨o,ho,hu⟩
        have hcont := hok hf.is_filtering hnone hp tsp rfl
        change s.feed.room (continued tsp.mem) = 0
        simpa [continuesBuffer,hu] using hcont
      · rw [sync_of_disturbed (by simpa using hu)]
        intro hp
        exact absurd hp (by simp [dvbDmxSwfilterSectionNew])
    obtain ⟨h1,h2,h3,h4⟩ := copyDump_silent hbuf hfil (continuedData tsp.mem) (continued tsp.mem)
      hsilent
    rw [sectionPacketSync_cc] at h3
    have ho' : o' = none := by
      simp only [o',Option.bind_eq_none_iff]
      intro o ho
      by_contra hne
      have hsome := continue_eq_some_iff (h.holds o ho).2 tsp.mem
      rw [Option.isSome_iff_ne_none.mpr hne] at hsome
      exact hgo ⟨o,ho,hsome.symm⟩
    refine ⟨⟨h1.section_type,h2,by simp [ho']⟩,h1,h3,?_⟩
    intro b hb
    rw [show delivered r.2 = [] from h4] at hb
    simp at hb

private theorem announced_phase (hf : Filtering feed) {buf : Mem UInt8}
    (hcc : feed.cc = ((buf 3 &&& 0x0f).toNat : Int)) (ha : announces buf = true) :
    let r := dvbDmxSwfilterSectionCopyDump feed.startSection (announcedData buf)
      (payload buf - 1 - continued buf)
    FeedRun.Inv ⟨r.1, announced buf⟩ ∧ ∀ b ∈ delivered r.2, ∃ o ∈ announced buf, StartsIn o.stream b := by
  intro r
  have hann : announced buf = some ⟨(buf 3 &&& 0x0f).toNat,
      (announcedData buf).slice 0 (payload buf - 1 - continued buf)⟩ := by
    rw [announced,if_pos ha]
  obtain ⟨h1,h2,h3,h4,h5⟩ := copyDump_holds (buffered_startSection feed) (holds_startSection feed)
    ⟨hf.section_type,hf.is_filtering⟩ (announcedData buf) (payload buf - 1 - continued buf)
  rw [nil_append] at h3 h5
  refine ⟨⟨h1.section_type,h2,?_⟩,fun b hb => ⟨_,hann,h5 b hb⟩⟩
  simp only [hann,mem_def,Option.some.injEq]
  rintro _ rfl
  exact ⟨h3,h4.trans hcc⟩

private theorem packet_step (wtd : Bool) (h : s.Inv) {tsp : TsPacket} (hok : NoStaleSync s (.packet tsp)) :
    (feedRunStep wtd s (.packet tsp)).1.Inv ∧ Synchronised wtd s (.packet tsp) := by
  simp only [feedRunStep,Synchronised,feedOp,observe]
  by_cases hrun : s.feed.sec.isFiltering = true
  · have hf : Filtering s.feed := ⟨h.section_type,hrun⟩
    by_cases hpay : payload tsp.mem = 0
    · rw [packetType_of_payload_eq_zero hf wtd hpay,if_neg (by simp [hpay])]
      refine ⟨⟨h.section_type,⟨[],by simp,rfl,Nat.zero_le _⟩,?_⟩,by simp⟩
      intro o ho
      obtain ⟨hholds,hcc⟩ := h.holds o ho
      exact ⟨⟨hholds.synced,hholds.fill,hholds.bytes⟩,hcc⟩
    · have hseen : s.feed.sec.isFiltering = true ∧ payload tsp.mem ≠ 0 := ⟨hrun,hpay⟩
      rw [packetType_eq hf wtd hpay,if_pos hseen]
      obtain ⟨hinv,hfil,hcc,hdel⟩ := continue_phase h hf hok
      by_cases ha : announces tsp.mem = true
      · obtain ⟨hinv',hdel'⟩ := announced_phase hfil hcc ha
        rw [if_pos ha]
        refine ⟨?_,?_⟩
        · have hor : (announced tsp.mem).or (s.observer.bind fun o => o.continue tsp.mem) =
              announced tsp.mem := by
            simp [announced,ha]
          rw [hor]
          exact hinv'
        · intro b hb
          rw [delivered_append,mem_append] at hb
          refine ⟨tsp,rfl,?_⟩
          rcases hb with hb | hb
          · obtain ⟨o,ho,hs⟩ := hdel b hb
            exact ⟨o,.inl ho,hs⟩
          · obtain ⟨o,ho,hs⟩ := hdel' b hb
            exact ⟨o,.inr ho,hs⟩
      · rw [if_neg ha]
        have hnone : announced tsp.mem = none := by simp [announced,ha]
        rw [hnone,Option.none_or]
        refine ⟨hinv,?_⟩
        intro b hb
        obtain ⟨o,ho,hs⟩ := hdel b hb
        exact ⟨tsp,rfl,o,.inl ho,hs⟩
  · rw [if_neg (by simp [hrun])]
    simp only [dvbDmxSwfilterPacketType,h.section_type]
    simp [hrun,h]

private def bufferState (feed : DvbDemuxFeed) : DmxType × Mem UInt8 × Nat × Nat × Bool × Int :=
  (feed.type, feed.sec.secbufBase, feed.sec.secbufp, feed.sec.tsfeedp, feed.pusiSeen, feed.cc)

private theorem inv_of_bufferState {feed' : DvbDemuxFeed} {o : Option Observer}
    (h : FeedRun.Inv ⟨feed, o⟩) (heq : bufferState feed' = bufferState feed) :
    FeedRun.Inv ⟨feed', o⟩ := by
  simp only [bufferState,Prod.mk.injEq] at heq
  obtain ⟨htype,hbase,hp,ht,hpusi,hcc⟩ := heq
  obtain ⟨done,hd⟩ := h.buffered
  refine ⟨htype.trans h.section_type,⟨done,hd.sections,?_,?_⟩,?_⟩
  · rw [hbase,hp]
    exact hd.bytes
  · rw [hp,ht]
    exact hd.cursor
  · intro o ho
    obtain ⟨hholds,hc⟩ := h.holds o ho
    refine ⟨⟨hpusi.trans hholds.synced,ht.trans hholds.fill,?_⟩,hcc.trans hc⟩
    rw [hbase,ht]
    exact hholds.bytes

private theorem inv_sectionNew (hsec : feed.type = .sec) : FeedRun.Inv ⟨dvbDmxSwfilterSectionNew feed, none⟩ :=
  ⟨hsec, ⟨[], by simp, rfl, Nat.le_refl _⟩, by simp⟩

private theorem FeedRun.Inv.forget (h : s.Inv) : FeedRun.Inv ⟨s.feed, none⟩ :=
  ⟨h.section_type, h.buffered, by simp⟩

private theorem startFiltering_step (h : s.Inv) (startFeed : Option Int) :
    FeedRun.Inv ⟨(dmxSectionFeedStartFiltering s.feed startFeed).1,
      if s.feed.sec.isFiltering then s.observer else none⟩ := by
  rcases startFiltering_cases s.feed startFeed with ⟨-,heq⟩ | ⟨-,hidle,hnew⟩ | ⟨hidle,hgo⟩
  · rw [heq]
    split
    · exact h
    · exact h.forget
  · rw [if_neg (by simp [hidle])]
    rcases hnew with heq | heq
    · rw [heq]
      exact inv_sectionNew h.section_type
    · rw [heq]
      exact inv_of_bufferState (inv_sectionNew h.section_type) rfl
  · rw [if_neg (by simp [hidle]),hgo]
    exact inv_of_bufferState (inv_sectionNew h.section_type) rfl

private theorem feedRun_step (wtd : Bool) (s : FeedRun) (op : FeedOp) (h : s.Inv)
    (hok : NoStaleSync s op) : (feedRunStep wtd s op).1.Inv ∧ Synchronised wtd s op := by
  cases op with
  | packet tsp => exact packet_step wtd h hok
  | set pid checkCrc =>
    refine ⟨inv_of_bufferState h ?_,by simp [Synchronised,feedOp]⟩
    simp only [feedOp,dmxSectionFeedSet]
    split <;> rfl
  | allocateFilter filter =>
    refine ⟨inv_of_bufferState h ?_,by simp [Synchronised,feedOp]⟩
    cases filter <;> rfl
  | startFiltering startFeed => exact ⟨startFiltering_step h startFeed,by simp [Synchronised,feedOp]⟩
  | stopFiltering stopFeed =>
    refine ⟨inv_of_bufferState h ?_,by simp [Synchronised,feedOp]⟩
    cases stopFeed <;> rfl

def allocatedRun (old : DvbDemuxFeed) (callback : Nat → List UInt8 → Int) : FeedRun :=
  ⟨(dvbdmxAllocateSectionFeed old callback).1, none⟩

/-- In every history in which no restarted feed takes up data with a stale `pusi_seen`, each
delivered section starts at a position that the current run has announced. -/
theorem delivered_synchronised (wtd : Bool) (old : DvbDemuxFeed) (callback : Nat → List UInt8 → Int)
    (hfree : old.state = .free) (ops : List FeedOp)
    (hok : StepsMeet (feedRunStep wtd) NoStaleSync (allocatedRun old callback) ops) :
    StepsMeet (feedRunStep wtd) (Synchronised wtd) (allocatedRun old callback) ops := by
  have hinit : (allocatedRun old callback).Inv := by
    simp only [allocatedRun, dvbdmxAllocateSectionFeed, hfree]
    exact ⟨rfl, ⟨[], by simp, rfl, Nat.le_refl _⟩, by simp⟩
  exact stepsMeet_of_invariant FeedRun.Inv (feedRun_step wtd) hinit hok

/-- A feed is synchronised in the middle of a section, stopped and started again, and the first
packet after the restart has the given counter byte and payload. -/
def restartedWith (b3 : UInt8) (pl : List UInt8) (h : pl.length ≤ 182) : List FeedOp :=
  [.set 0x12 false, .allocateFilter (some ⟨fun _ => 0, fun _ => 0, fun _ => 0, fun _ => 0, fun _ => 0, false, 0⟩),
    .startFiltering (some 0), .packet (stuffedPacket 0x40 0x31 0 [0, 0, 0] three_zeros_fit),
    .stopFiltering (some 0), .startFiltering (some 0), .packet (stuffedPacket 0 b3 0 pl h)]

theorem delivered_synchronised_restart : StepsMeet (feedRunStep false) NoStaleSync (allocatedRun zeroFeed fun _ _ => 0)
        (restartedWith 0x35 [0, 0, 1, 7] (by decide)) ∧
      StepsMeet (feedRunStep false) (Synchronised false) (allocatedRun zeroFeed fun _ _ => 0)
        (restartedWith 0x35 [0, 0, 1, 7] (by decide)) := by
  have hok : StepsMeet (feedRunStep false) NoStaleSync (allocatedRun zeroFeed fun _ _ => 0)
      (restartedWith 0x35 [0, 0, 1, 7] (by decide)) := by
    refine ⟨?_, ?_, ?_, ?_, ?_, ?_, ?_, trivial⟩ <;> rintro - - hp tsp ⟨⟩
    · exact absurd hp (by decide +kernel)
    · decide +kernel
  exact ⟨hok, delivered_synchronised false zeroFeed (fun _ _ => 0) rfl _ hok⟩

/-- With a consecutive counter the packet after the restart, in which no section starts, is delivered
as a section. -/
theorem delivered_unsynchronised :
    ¬ ∀ (wtd : Bool) (old : DvbDemuxFeed) (callback : Nat → List UInt8 → Int), old.state = .free →
      ∀ ops : List FeedOp,
        StepsMeet (feedRunStep wtd) (Synchronised wtd) (allocatedRun old callback) ops := by
  intro h
  obtain ⟨-, -, -, -, -, -, hlast, -⟩ := h false zeroFeed (fun _ _ => 0) rfl
    (restartedWith 0x32 [0, 0, 1, 7] (by decide))
  obtain ⟨tsp, heq, o, ho, -⟩ := hlast [0, 0, 1, 7] (by decide +kernel)
  obtain rfl := FeedOp.packet.inj heq
  -- neither phase of the packet has an observer
  rcases ho with ho | ho
  · exact absurd (Option.isSome_iff_exists.mpr ⟨o, ho⟩) (by decide +kernel)
  · exact absurd (Option.isSome_iff_exists.mpr ⟨o, ho⟩) (by decide +kernel)

end LinuxDvb.Demux
