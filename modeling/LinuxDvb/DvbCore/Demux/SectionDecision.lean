import LinuxDvb.Framework.BitMask
import LinuxDvb.DvbCore.Demux.Synchronisation

/-!
# What the decision of a section filter depends on

`dvb_dmx_swfilter_sectionfilter` compares 18 bytes, however long the section is. Two runs that come to
the same section with different bytes behind it decide alike if and only if the bytes of the section
settle the matter.
-/

namespace LinuxDvb.Demux

/-! ## The calls of `dvb_dmx_swfilter_section_feed` -/

/-- The `seclen` bytes at `secbuf`. -/
def DvbDemuxFeed.currentSection (feed : DvbDemuxFeed) : List UInt8 :=
  feed.sec.secbufBase.slice feed.sec.secbuf feed.sec.seclen

/-- The feeds for which the dump loop calls `dvb_dmx_swfilter_section_feed`. -/
def dumpCalls (limit : Nat) : Nat → DvbDemuxFeed → List DvbDemuxFeed
  | 0, _ => []
  | fuel + 1, feed =>
    if feed.sec.secbufp + 2 < limit then
      let seclen := sectionLength (feed.sec.secbufBase.shift feed.sec.secbuf)
      if seclen ≤ 0 ∨ seclen > dmxMaxSectionSize ∨ seclen + feed.sec.secbufp > limit then []
      else
        (if feed.pusiSeen then [feed.openSection seclen] else []) ++
          dumpCalls limit fuel (dumpSection feed seclen).1
    else []

/-- Those of `dvb_dmx_swfilter_section_copy_dump`. -/
def copyDumpCalls (feed : DvbDemuxFeed) (buf : Mem UInt8) (len : Nat) : List DvbDemuxFeed :=
  if feed.sec.tsfeedp ≥ dmxMaxSecfeedSize then []
  else
    let len := if feed.sec.tsfeedp + len > dmxMaxSecfeedSize
      then dmxMaxSecfeedSize - feed.sec.tsfeedp else len
    if len ≤ 0 then []
    else
      let feed := feed.store (buf.slice 0 len)
      let limit := feed.sec.tsfeedp
      if limit > dmxMaxSecfeedSize then []
      else dumpCalls limit limit (feed.cursorAt feed.sec.secbufp)

def sectionBoundaryCalls (feed : DvbDemuxFeed) (before : Mem UInt8) (beforeLen : Nat)
    (after : Mem UInt8) (afterLen : Nat) : List DvbDemuxFeed :=
  copyDumpCalls feed before beforeLen ++
    copyDumpCalls (dvbDmxSwfilterSectionCopyDump feed before beforeLen).1.startSection after afterLen

/-- Those of `dvb_dmx_swfilter_section_packet`. -/
def sectionPacketCalls (feed : DvbDemuxFeed) (buf : Mem UInt8) : List DvbDemuxFeed :=
  let count := payload buf
  if count = 0 then []
  else
    let p := 188 - count
    let feed := sectionPacketSync feed buf
    if payloadUnitStart buf then
      if count > 1 ∧ (buf p).toNat < count then
        let before := buf.shift (p + 1)
        let beforeLen := (buf p).toNat
        sectionBoundaryCalls feed before beforeLen (before.shift beforeLen) (count - 1 - beforeLen)
      else []
    else copyDumpCalls feed (buf.shift p) count

def opCalls (feed : DvbDemuxFeed) : FeedOp → List DvbDemuxFeed
  | .packet tsp =>
    if feed.type = .sec ∧ feed.sec.isFiltering = true then sectionPacketCalls feed tsp.mem else []
  | _ => []

/-! ## The decision -/

/-- `dvb_dmx_swfilter_section_feed` is called with this feed in some run of a section feed. -/
def SectionFeedCalled (feed : DvbDemuxFeed) : Prop :=
  ∃ (wtd : Bool) (old : DvbDemuxFeed) (callback : Nat → List UInt8 → Int) (ops : List FeedOp)
      (op : FeedOp), old.state = .free ∧
      feed ∈ opCalls (runTrace (feedOp wtd) (dvbdmxAllocateSectionFeed old callback).1 ops).1 op

/-- `dvb_dmx_swfilter_sectionfilter` passes the section at `secbuf` to the callback of the filter. -/
def DvbDemuxFeed.passes (feed : DvbDemuxFeed) (f : DvbDemuxFilter) : Prop :=
  (dvbDmxSwfilterSectionfilter feed f).2 ≠ []

def SameDecision (f : DvbDemuxFilter) (sec : List UInt8) : Prop :=
  ∀ a b, SectionFeedCalled a → SectionFeedCalled b → a.currentSection = sec →
    b.currentSection = sec → f ∈ a.filter → f ∈ b.filter → (a.passes f ↔ b.passes f)

def DvbDemuxFilter.Clashes (f : DvbDemuxFilter) (sec : List UInt8) : Prop :=
  ∃ n < dvbDemuxMaskMax,
    n < sec.length ∧ f.maskandmode n &&& (f.filterValue n ^^^ sec.getD n 0) ≠ 0

def DvbDemuxFilter.Satisfied (f : DvbDemuxFilter) (sec : List UInt8) : Prop :=
  f.doneq = false ∨
    ∃ n < dvbDemuxMaskMax,
      n < sec.length ∧ f.maskandnotmode n &&& (f.filterValue n ^^^ sec.getD n 0) ≠ 0

/-- The bytes of the section settle the matter: one of them clashes; the filter is satisfied and compares
no bit behind them; or it is not and no bit behind them can satisfy it. -/
def DvbDemuxFilter.Settled (f : DvbDemuxFilter) (sec : List UInt8) : Prop :=
  f.Clashes sec ∨
    (f.Satisfied sec ∧ ∀ n < dvbDemuxMaskMax, sec.length ≤ n → f.maskandmode n = 0) ∨
    (¬ f.Satisfied sec ∧ ∀ n < dvbDemuxMaskMax, sec.length ≤ n → f.maskandnotmode n &&& ~~~f.maskandmode n = 0)

section Decision

variable {f : DvbDemuxFilter} {sec : List UInt8} {m : Mem UInt8}

theorem passes_iff (feed : DvbDemuxFeed) (f : DvbDemuxFilter) :
    feed.passes f ↔ f.accepts (feed.sec.secbufBase.shift feed.sec.secbuf) = true := by
  unfold DvbDemuxFeed.passes dvbDmxSwfilterSectionfilter
  split <;> simp [*]

theorem exists_difference_iff (hm : m.slice 0 sec.length = sec) (mask value : Nat → UInt8) :
    (∃ n < dvbDemuxMaskMax, mask n &&& (value n ^^^ m n) ≠ 0) ↔
      (∃ n < dvbDemuxMaskMax, n < sec.length ∧ mask n &&& (value n ^^^ sec.getD n 0) ≠ 0) ∨
        ∃ n < dvbDemuxMaskMax, sec.length ≤ n ∧ mask n &&& (value n ^^^ m n) ≠ 0 := by
  have hbyte {n : Nat} (hn : n < sec.length) : m n = sec.getD n 0 := by
    rw [getD_eq_getElem?_getD,Mem.apply_of_slice_eq hm hn,Nat.zero_add]
    rfl
  constructor
  · rintro ⟨n,hn,hne⟩
    rcases Nat.lt_or_ge n sec.length with hin | hout
    · exact .inl ⟨n,hn,hin,hbyte hin ▸ hne⟩
    · exact .inr ⟨n,hn,hout,hne⟩
  · rintro (⟨n,hn,hin,hne⟩ | ⟨n,hn,-,hne⟩)
    · exact ⟨n,hn,(hbyte hin).symm ▸ hne⟩
    · exact ⟨n,hn,hne⟩

theorem accepts_split (hm : m.slice 0 sec.length = sec) : f.accepts m = true ↔ ¬ f.Clashes sec ∧
        (∀ n < dvbDemuxMaskMax, sec.length ≤ n → f.maskandmode n &&& (f.filterValue n ^^^ m n) = 0) ∧
        (f.Satisfied sec ∨ ∃ n < dvbDemuxMaskMax,
            sec.length ≤ n ∧ f.maskandnotmode n &&& (f.filterValue n ^^^ m n) ≠ 0) := by
  rw [accepts_iff,exists_difference_iff hm,exists_difference_iff hm,not_or,and_assoc,← or_assoc]
  simp only [DvbDemuxFilter.Clashes,DvbDemuxFilter.Satisfied,not_exists,not_and,not_not]

theorem accepts_of_settled (h : f.Settled sec) (hm : m.slice 0 sec.length = sec) :
    f.accepts m = true ↔ ¬ f.Clashes sec ∧ f.Satisfied sec := by
  rw [accepts_split hm]
  rcases h with hclash | ⟨hsat,hbehind⟩ | ⟨hsat,hbehind⟩
  · simp [hclash]
  · simp only [hsat,true_or,and_true,and_iff_left_iff_imp]
    intro _ n hn hout
    rw [hbehind n hn hout,UInt8.zero_and]
  · simp only [hsat,false_or,and_false,iff_false,not_and,not_exists]
    intro _ hequal n hn hout
    -- where nothing clashes, a difference is a bit outside of `maskandmode`
    rw [not_not]
    exact masked_eq_zero_of_subset (hbehind n hn hout) (hequal n hn hout)

/-- Bytes behind the section that differ in the bits `d n` and no others. -/
def DvbDemuxFilter.followed (f : DvbDemuxFilter) (d : Nat → UInt8) (sec : List UInt8) : List UInt8 :=
  (List.range (dvbDemuxMaskMax - sec.length)).map fun i =>
    f.filterValue (sec.length + i) ^^^ d (sec.length + i)

theorem difference_followed {d : Nat → UInt8}
    (hm : m.slice 0 (sec ++ f.followed d sec).length = sec ++ f.followed d sec) {n : Nat}
    (hn : n < dvbDemuxMaskMax) (hout : sec.length ≤ n) : f.filterValue n ^^^ m n = d n := by
  obtain ⟨i,rfl⟩ := Nat.exists_eq_add_of_le hout
  have hi : i < (f.followed d sec).length := by
    simp only [DvbDemuxFilter.followed,length_map,length_range]
    omega
  have hbyte := Mem.apply_of_slice_eq ((Mem.slice_append_iff m 0 _ _).mp hm).2 hi
  have hentry : (f.followed d sec)[i]? =
      some (f.filterValue (sec.length + i) ^^^ d (sec.length + i)) := by
    rw [getElem?_eq_getElem hi]
    simp [DvbDemuxFilter.followed]
  rw [hentry,Nat.zero_add,Option.some.injEq] at hbyte
  rw [← hbyte,xor_xor_cancel]

theorem accepts_of_not_settled {m' : Mem UInt8} (h : ¬ f.Settled sec)
    (hm : m.slice 0 (sec ++ f.followed (fun n => f.maskandnotmode n &&& ~~~f.maskandmode n) sec).length =
      sec ++ f.followed (fun n => f.maskandnotmode n &&& ~~~f.maskandmode n) sec)
    (hm' : m'.slice 0 (sec ++ f.followed f.maskandmode sec).length = sec ++ f.followed f.maskandmode sec) :
    f.accepts m = true ∧ ¬ f.accepts m' = true := by
  simp only [DvbDemuxFilter.Settled,not_or,not_and] at h
  obtain ⟨hown,hsat,hunsat⟩ := h
  rw [accepts_split ((Mem.slice_append_iff m 0 _ _).mp hm).1,accepts_split ((Mem.slice_append_iff m' 0 _ _).mp hm').1]
  constructor
  · refine ⟨hown,?_,?_⟩
    · intro n hn hout
      rw [difference_followed hm hn hout,masked_outside]
    · by_cases hs : f.Satisfied sec
      · exact .inl hs
      · have hopen := hunsat hs
        push Not at hopen
        obtain ⟨n,hn,hout,hne⟩ := hopen
        refine .inr ⟨n,hn,hout,?_⟩
        rw [difference_followed hm hn hout,masked_within]
        exact hne
  · rintro ⟨-,hequal,hneq⟩
    have hnone : ∀ n < dvbDemuxMaskMax, sec.length ≤ n → f.maskandmode n = 0 := by
      intro n hn hout
      have heq := hequal n hn hout
      rwa [difference_followed hm' hn hout,UInt8.and_self] at heq
    rcases hneq with hs | ⟨n,hn,hout,hne⟩
    · exact hsat hs hnone
    · rw [difference_followed hm' hn hout,hnone n hn hout,UInt8.and_zero] at hne
      exact hne rfl

end Decision

/-! ## Short sections in runs -/

theorem copyDumpCalls_first {feed : DvbDemuxFeed} {buf : Mem UInt8} {sec behind : List UInt8}
    (hsec : IsSection sec) (hfit : (sec ++ behind).length ≤ dmxMaxSecfeedSize)
    (hseen : feed.pusiSeen = true) (hp : feed.sec.secbufp = 0) (ht : feed.sec.tsfeedp = 0)
    (hbuf : buf.slice 0 (sec ++ behind).length = sec ++ behind) :
    ∃ a ∈ copyDumpCalls feed buf (sec ++ behind).length,
      a.currentSection = sec ∧ a.filter = feed.filter ∧
      (a.sec.secbufBase.shift a.sec.secbuf).slice 0 (sec ++ behind).length = sec ++ behind := by
  obtain ⟨hthree,hmax,hann⟩ := hsec
  have hlen : (sec ++ behind).length = sec.length + behind.length := length_append
  obtain ⟨fuel,hfuel⟩ := Nat.exists_eq_succ_of_ne_zero (by omega : (sec ++ behind).length ≠ 0)
  have hstored := Mem.slice_write_self feed.sec.secbufBase 0 (sec ++ behind)
  have hseclen : sectionLength ((feed.sec.secbufBase.write 0 (sec ++ behind)).shift 0) = sec.length := by
    rw [sectionLength_shift _ _ _ (Nat.le_trans hthree (by omega : sec.length ≤ (sec ++ behind).length)),
      hstored,announcedLength_append _ _ hthree,hann]
  refine ⟨((feed.store (sec ++ behind)).cursorAt 0).openSection sec.length,?_,?_,rfl,?_⟩
  · unfold copyDumpCalls
    dsimp only
    rw [ht,Nat.zero_add,if_neg (Nat.not_lt.mpr hfit),if_neg (by decide),if_neg (by omega),hbuf]
    have hlimit : (feed.store (sec ++ behind)).sec.tsfeedp = (sec ++ behind).length := by
      simp only [DvbDemuxFeed.store,ht,Nat.zero_add]
    have hcursor : (feed.store (sec ++ behind)).sec.secbufp = 0 := hp
    rw [hlimit,if_neg (by omega),hcursor,hfuel,dumpCalls,← hfuel]
    have hlength : sectionLength (((feed.store (sec ++ behind)).cursorAt 0).sec.secbufBase.shift
        ((feed.store (sec ++ behind)).cursorAt 0).sec.secbuf) = sec.length := by
      simp only [DvbDemuxFeed.store,DvbDemuxFeed.cursorAt,ht]
      exact hseclen
    have hsynced : ((feed.store (sec ++ behind)).cursorAt 0).pusiSeen = true := hseen
    dsimp only
    rw [hlength,if_pos (by simp only [DvbDemuxFeed.cursorAt]; omega),
      if_neg (by simp only [DvbDemuxFeed.cursorAt]; omega),if_pos hsynced]
    exact mem_append_left _ mem_cons_self
  · simp only [DvbDemuxFeed.currentSection,DvbDemuxFeed.openSection,DvbDemuxFeed.cursorAt,DvbDemuxFeed.store,ht]
    exact ((Mem.slice_append_iff _ 0 _ _).mp hstored).1
  · simp only [DvbDemuxFeed.openSection,DvbDemuxFeed.cursorAt,DvbDemuxFeed.store,ht]
    rw [Mem.slice_shift]
    exact hstored

theorem exists_called {wtd : Bool} {old : DvbDemuxFeed} {callback : Nat → List UInt8 → Int}
    {ops : List FeedOp} {feed : DvbDemuxFeed} (hold : old.state = .free)
    (hrun : (runTrace (feedOp wtd) (dvbdmxAllocateSectionFeed old callback).1 ops).1 = feed)
    (hfiltering : Filtering feed) {sec behind : List UInt8} (hsec : IsSection sec)
    (hfit : (0 :: (sec ++ behind)).length ≤ 182) :
    ∃ a, SectionFeedCalled a ∧ a.currentSection = sec ∧ a.filter = feed.filter ∧
      (a.sec.secbufBase.shift a.sec.secbuf).slice 0 (sec ++ behind).length = sec ++ behind := by
  have hcarries := stuffedPacket_carries 0x40 0x30 0 (0 :: (sec ++ behind)) hfit (by simp) (by decide)
  generalize htsp : stuffedPacket 0x40 0x30 0 (0 :: (sec ++ behind)) hfit = tsp at hcarries
  have hpayload : payload tsp.mem = (sec ++ behind).length + 1 := hcarries.payload_eq
  have hpusi : payloadUnitStart tsp.mem = true := hcarries.payloadUnitStart_eq
  have hpointer : tsp.mem (188 - ((sec ++ behind).length + 1)) = 0 := hcarries.mem_eq 0 (by simp)
  have hbytes : ((tsp.mem.shift (188 - ((sec ++ behind).length + 1) + 1)).shift 0).slice 0
      (sec ++ behind).length = sec ++ behind := by
    rw [Mem.slice_shift,Mem.slice_shift]
    simpa using Carries.slice_eq [0] (sec ++ behind) [] (by simpa using hcarries)
  have hpos : 0 < (sec ++ behind).length := by
    rw [length_append]
    have := hsec.1
    omega
  simp only [length_cons] at hfit
  have hempty (before : Mem UInt8) :
      (dvbDmxSwfilterSectionCopyDump (sectionPacketSync feed tsp.mem) before 0).1 =
        sectionPacketSync feed tsp.mem := by
    rw [copyDump_of_room_eq_zero _ _ _ (Nat.min_eq_left (Nat.zero_le _))]
  have hfilters : (sectionPacketSync feed tsp.mem).startSection.filter = feed.filter := by
    unfold sectionPacketSync
    dsimp only
    split <;> rfl
  obtain ⟨a,hmem,hcur,hfilter,hbehind⟩ :=
    @copyDumpCalls_first (sectionPacketSync feed tsp.mem).startSection _ sec behind hsec
      (Nat.le_trans (by omega) (by decide : 182 ≤ dmxMaxSecfeedSize)) rfl rfl rfl hbytes
  refine ⟨a,⟨wtd,old,callback,ops,.packet tsp,hold,?_⟩,hcur,?_,hbehind⟩
  · rw [hrun,opCalls,if_pos ⟨hfiltering.section_type,hfiltering.is_filtering⟩]
    unfold sectionPacketCalls
    dsimp only
    rw [hpayload,if_neg (by omega),if_pos hpusi,hpointer,if_pos ⟨by omega,by simp⟩,
      sectionBoundaryCalls]
    apply mem_append_right
    rw [UInt8.toNat_zero,hempty,Nat.add_sub_cancel,Nat.sub_zero]
    exact hmem
  · rw [hfilter,hfilters]

theorem not_sameDecision_of_not_settled {wtd : Bool} {old : DvbDemuxFeed}
    {callback : Nat → List UInt8 → Int} {ops : List FeedOp} {feed : DvbDemuxFeed}
    (hold : old.state = .free)
    (hrun : (runTrace (feedOp wtd) (dvbdmxAllocateSectionFeed old callback).1 ops).1 = feed)
    (hfiltering : Filtering feed) {f : DvbDemuxFilter} (hf : f ∈ feed.filter) {sec : List UInt8}
    (hsec : IsSection sec) (hopen : ¬ f.Settled sec) : ¬ SameDecision f sec := by
  intro hsame
  have hshort : sec.length < dvbDemuxMaskMax := by
    by_contra hlong
    apply hopen
    by_cases hs : f.Satisfied sec
    · exact .inr (.inl ⟨hs,fun n hn hout => absurd hout (by omega)⟩)
    · exact .inr (.inr ⟨hs,fun n hn hout => absurd hout (by omega)⟩)
  have hfit (d : Nat → UInt8) : (0 :: (sec ++ f.followed d sec)).length ≤ 182 := by
    simp only [length_cons,length_append,DvbDemuxFilter.followed,length_map,length_range]
    unfold dvbDemuxMaskMax at *
    omega
  obtain ⟨a,ha,hcur,hfilter,hbytes⟩ := exists_called hold hrun hfiltering hsec
    (hfit fun n => f.maskandnotmode n &&& ~~~f.maskandmode n)
  obtain ⟨b,hb,hcur',hfilter',hbytes'⟩ := exists_called hold hrun hfiltering hsec (hfit f.maskandmode)
  obtain ⟨haccept,hreject⟩ := accepts_of_not_settled hopen hbytes hbytes'
  have hboth := hsame a b ha hb hcur hcur' (hfilter ▸ hf) (hfilter' ▸ hf)
  rw [passes_iff,passes_iff] at hboth
  exact hreject (hboth.mp haccept)

def startedWith (f : DvbDemuxFilter) : List FeedOp :=
  [.set 0x12 false, .allocateFilter (some f), .startFiltering (some 0), .allocateFilter (some f)]

/-- All runs that come to a section decide alike about it if and only if the bytes of the section settle the
matter. -/
theorem sameDecision_iff_settled (f : DvbDemuxFilter) (sec : List UInt8) (hsec : IsSection sec) :
    SameDecision f sec ↔ f.Settled sec := by
  constructor
  · intro hsame
    by_contra hopen
    have hf : f ∈ (runTrace (feedOp false) (dvbdmxAllocateSectionFeed zeroFeed fun _ _ => 0).1
        (startedWith f)).1.filter := List.mem_cons_self
    exact not_sameDecision_of_not_settled rfl rfl ⟨rfl, rfl⟩ hf hsec hopen hsame
  · intro hsettled a b _ _ hcur hcur' _ _
    have hview {feed : DvbDemuxFeed} (h : feed.currentSection = sec) :
        (feed.sec.secbufBase.shift feed.sec.secbuf).slice 0 sec.length = sec := by
      have hlen : sec.length = feed.sec.seclen := by
        rw [← h, DvbDemuxFeed.currentSection, Mem.length_slice]
      rw [Mem.slice_shift, Nat.add_zero, hlen]
      exact h
    rw [passes_iff, passes_iff, accepts_of_settled hsettled (hview hcur), accepts_of_settled hsettled (hview hcur')]

/-- A filter that wants byte `n` to be zero, as a start prepares it. -/
def byteFilter (n : Nat) : DvbDemuxFilter :=
  prepareSecfilter
    ⟨fun _ => 0, fun i => if i = n then 0xff else 0, fun _ => 0xff, fun _ => 0, fun _ => 0, false, 0⟩

/-- A filter for the table id decides about a section of three bytes in the same way in all runs. -/
theorem sameDecision_iff_settled_tableId : IsSection [0, 0, 0] ∧ SameDecision (byteFilter 0) [0, 0, 0] := by
  have hsec : IsSection [0, 0, 0] := by decide
  refine ⟨hsec, (sameDecision_iff_settled (byteFilter 0) [0, 0, 0] hsec).mpr ?_⟩
  exact .inr (.inl ⟨.inl rfl, by decide⟩)

/-- A filter for the byte behind the length field compares the first byte behind the section. -/
theorem decision_of_following_byte : ¬ SameDecision (byteFilter 3) [0, 0, 0] := by
  have hopen : ¬ (byteFilter 3).Settled [0, 0, 0] := by
    unfold DvbDemuxFilter.Settled DvbDemuxFilter.Satisfied DvbDemuxFilter.Clashes
    decide
  have hf : byteFilter 3 ∈ (runTrace (feedOp false) (dvbdmxAllocateSectionFeed zeroFeed fun _ _ => 0).1
      [.set 0x12 false, .allocateFilter (some (byteFilter 3)), .startFiltering (some 0)]).1.filter :=
    List.mem_cons_self
  exact not_sameDecision_of_not_settled rfl rfl ⟨rfl, rfl⟩ hf (by decide) hopen

end LinuxDvb.Demux
