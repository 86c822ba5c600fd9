import LinuxDvb.Framework.Trace
import LinuxDvb.DvbCore.Demux.SectionFeed
import LinuxDvb.DvbCore.Demux.SectionPacket

/-!
# Packets without payload

`dvb_dmx_swfilter_packet_type` sets `secbufp` to 0 at a packet without payload but leaves `tsfeedp` and the buffered
bytes.
-/

namespace LinuxDvb.Demux

/-- A packet of a stream: one of the original stream, or one inserted into it. -/
inductive StreamItem where
  | original (tsp : TsPacket)
  | inserted (tsp : TsPacket)

def StreamItem.tsp : StreamItem → TsPacket
  | original tsp => tsp
  | inserted tsp => tsp

def StreamItem.original? : StreamItem → Option TsPacket
  | original tsp => some tsp
  | inserted _ => none

/-- adaptation_field_control is `10`: an adaptation field and no payload. -/
def AdaptationOnly (tsp : TsPacket) : Prop := tsp.mem 3 &&& 0x30 = 0x20

/-- Inserted packets are adaptation-only and repeat the counter of the packet in front of them. -/
def InsertedConform : Option UInt8 → List StreamItem → Prop
  | _, [] => True
  | _, .original tsp :: items => InsertedConform (some (tsp.mem 3 &&& 0x0f)) items
  | prev, .inserted tsp :: items =>
    AdaptationOnly tsp ∧ (∀ cc ∈ prev, tsp.mem 3 &&& 0x0f = cc) ∧
      InsertedConform (some (tsp.mem 3 &&& 0x0f)) items

/-- No inserted packet is followed by data for a buffer that has already been dumped in part.
`stale` says that a packet was inserted while the cursor of the synchronised `feed` stood behind a
section, and that the buffer has been left alone since. -/
def NoRedelivery (wtd : Bool) : Bool → DvbDemuxFeed → List StreamItem → Prop
  | _, _, [] => True
  | stale, feed, .inserted _ :: items =>
    NoRedelivery wtd (stale || feed.pusiSeen && decide (0 < feed.sec.secbufp)) feed items
  | stale, feed, .original tsp :: items =>
    ¬ (stale = true ∧ continuesBuffer feed tsp.mem = true) ∧
      NoRedelivery wtd (stale && leavesBuffer feed tsp.mem) (dvbDmxSwfilterPacketType wtd feed tsp).1 items

/-- The feeds differ at most in their dump cursors, `seclen` and `crc_val`. -/
def Agree (a b : DvbDemuxFeed) : Prop := (a.cursorAt 0).core = (b.cursorAt 0).core

variable {a b : DvbDemuxFeed}

private theorem Agree.congr {β : Type} (h : Agree a b) (g : DvbDemuxFeed → β)
    (hg : ∀ f : DvbDemuxFeed, g (f.cursorAt 0).core = g f) : g a = g b := by
  rw [← hg a,← hg b]
  exact congrArg g h

private theorem Agree.map (h : Agree a b) (g : DvbDemuxFeed → DvbDemuxFeed)
    (hg : ∀ f : DvbDemuxFeed, ((g (f.cursorAt 0).core).cursorAt 0).core = ((g f).cursorAt 0).core) :
    Agree (g a) (g b) :=
  h.congr (fun f => ((g f).cursorAt 0).core) hg

/-- The feed `b` of the run with insertions follows the feed `a` of the run without them. -/
structure Lags (stale : Bool) (a b : DvbDemuxFeed) : Prop where
  agree : Agree a b
  filtering : Filtering a
  buffered : ∃ done, Buffered a done
  cursor : b.sec.secbufp = a.sec.secbufp ∨ b.sec.secbufp = 0
  stale_iff : stale = true ↔ a.pusiSeen = true ∧ b.sec.secbufp ≠ a.sec.secbufp

private theorem AdaptationOnly.payload_eq_zero {tsp : TsPacket} (h : AdaptationOnly tsp) : payload tsp.mem = 0 := by
  have hbit : tsp.mem 3 &&& 0x10 = 0 := by
    calc tsp.mem 3 &&& 0x10 = (tsp.mem 3 &&& 0x30) &&& 0x10 := by rw [UInt8.and_assoc]; rfl
      _ = 0 := by rw [h]; rfl
  simp [payload,hbit]

variable {stale : Bool}

private theorem Lags.filtering_of_agree (h : Lags stale a b) : Filtering b :=
  ⟨(h.agree.congr (fun f => f.type) fun _ => rfl).symm.trans h.filtering.section_type,
    (h.agree.congr (fun f => f.sec.isFiltering) fun _ => rfl).symm.trans h.filtering.is_filtering⟩

private theorem Lags.undisturbed_eq (h : Lags stale a b) (buf : Mem UInt8) : undisturbed b buf = undisturbed a buf :=
  (h.agree.congr (fun f => undisturbed f buf) fun _ => rfl).symm

private theorem Lags.sync (h : Lags stale a b) (buf : Mem UInt8) :
    Lags (stale && undisturbed a buf) (sectionPacketSync a buf) (sectionPacketSync b buf) := by
  obtain ⟨done,hdone⟩ := h.buffered
  have hbuf := buffered_sync hdone buf
  by_cases hu : undisturbed a buf = true
  · rw [sync_of_undisturbed hu] at hbuf ⊢
    rw [sync_of_undisturbed ((h.undisturbed_eq buf).trans hu),hu,Bool.and_true]
    exact ⟨h.agree.map (fun f => { f with cc := _ }) fun _ => rfl,
      ⟨h.filtering.section_type,h.filtering.is_filtering⟩,⟨_,hbuf⟩,h.cursor,h.stale_iff⟩
  · rw [Bool.not_eq_true] at hu
    rw [sync_of_disturbed hu] at hbuf ⊢
    rw [sync_of_disturbed ((h.undisturbed_eq buf).trans hu),hu,Bool.and_false]
    exact ⟨h.agree.map (fun f => dvbDmxSwfilterSectionNew { f with cc := _, pusiSeen := _ })
      fun _ => rfl,⟨h.filtering.section_type,h.filtering.is_filtering⟩,⟨_,hbuf⟩,.inl rfl,
      by simp [dvbDmxSwfilterSectionNew]⟩

private theorem Lags.startSection (h : Lags stale a b) : Lags false a.startSection b.startSection :=
  ⟨h.agree.map DvbDemuxFeed.startSection fun _ => rfl,
    ⟨h.filtering.section_type, h.filtering.is_filtering⟩, ⟨_, buffered_startSection a⟩, .inl rfl,
    by simp [DvbDemuxFeed.startSection,dvbDmxSwfilterSectionNew]⟩

private theorem window_of_zero {done : List (List UInt8)} {n : Nat}
    (hbytes : b.sec.secbufBase.slice 0 n = done.flatten) (hn : n ≤ b.sec.tsfeedp) :
    b.sec.secbufBase.slice 0 b.sec.tsfeedp =
      done.flatten ++ b.sec.secbufBase.slice n (b.sec.tsfeedp - n) := by
  have hsplit := Mem.slice_add b.sec.secbufBase 0 n (b.sec.tsfeedp - n)
  rw [Nat.add_sub_cancel' hn,Nat.zero_add,hbytes] at hsplit
  exact hsplit

private theorem agree_of_core {a' b' : DvbDemuxFeed} {bytes : List UInt8} {p q : Nat}
    (h : Agree a b) (ha : a'.core = ((a.store bytes).cursorAt p).core)
    (hb : b'.core = ((b.store bytes).cursorAt q).core) : Agree a' b' := by
  have ha' : (a'.cursorAt 0).core = ((a.store bytes).cursorAt 0).core :=
    DvbDemuxFeed.core_congr ha (fun f => (f.cursorAt 0).core) fun _ => rfl
  have hb' : (b'.cursorAt 0).core = ((b.store bytes).cursorAt 0).core :=
    DvbDemuxFeed.core_congr hb (fun f => (f.cursorAt 0).core) fun _ => rfl
  have hstore : Agree (a.store bytes) (b.store bytes) :=
    h.map (fun f => f.store bytes) fun _ => rfl
  exact ha'.trans (hstore.trans hb'.symm)

private theorem Lags.copyDump (h : Lags stale a b) (buf : Mem UInt8) (len : Nat) :
    let ra := dvbDmxSwfilterSectionCopyDump a buf len
    let rb := dvbDmxSwfilterSectionCopyDump b buf len
    ∃ extra, handed rb.2 = extra ++ handed ra.2 ∧
      (extra = [] ↔ ¬ (stale = true ∧ 0 < a.room len)) ∧
      Lags (stale && decide (a.room len = 0)) ra.1 rb.1 := by
  have hroomeq : b.room len = a.room len := (h.agree.congr (fun f => f.room len) fun _ => rfl).symm
  by_cases hroom : a.room len = 0
  · dsimp only
    rw [copyDump_of_room_eq_zero a buf len hroom,copyDump_of_room_eq_zero b buf len (hroomeq.trans hroom)]
    exact ⟨[],rfl,by simp [hroom],by simpa [hroom] using h⟩
  · have hpos : 0 < a.room len := by omega
    obtain ⟨done,hdone⟩ := h.buffered
    obtain ⟨full,tail,hw,hfull,htail,hcore,hhand,-,hbuf⟩ := copyDump_buffered hdone buf len hpos
    have hbase : b.sec.secbufBase = a.sec.secbufBase :=
      (h.agree.congr (fun f => f.sec.secbufBase) fun _ => rfl).symm
    have htsf : b.sec.tsfeedp = a.sec.tsfeedp := (h.agree.congr (fun f => f.sec.tsfeedp) fun _ => rfl).symm
    have hpusi : b.pusiSeen = a.pusiSeen := (h.agree.congr (fun f => f.pusiSeen) fun _ => rfl).symm
    have hcur := hdone.cursor
    -- the sections that `b` finds in front of the cursor of `a`
    obtain ⟨again,hagain,hsections,hlen,hwin⟩ : ∃ again : List (List UInt8),
        (again = [] ↔ b.sec.secbufp = a.sec.secbufp) ∧ (∀ s ∈ again, IsSection s) ∧
        b.sec.secbufp + again.flatten.length = a.sec.secbufp ∧
        b.sec.secbufBase.slice b.sec.secbufp (b.sec.tsfeedp - b.sec.secbufp) =
          again.flatten ++ a.sec.secbufBase.slice a.sec.secbufp (a.sec.tsfeedp - a.sec.secbufp) := by
      by_cases hsame : b.sec.secbufp = a.sec.secbufp
      · exact ⟨[],by simp [hsame],by simp,by simp [hsame],by simp [hsame,hbase,htsf]⟩
      · have hzero : b.sec.secbufp = 0 := h.cursor.resolve_left hsame
        refine ⟨done,⟨?_,fun heq => absurd heq hsame⟩,hdone.sections,?_,?_⟩
        · rintro rfl
          have := hdone.length_flatten
          simp only [flatten_nil,length_nil] at this
          exact absurd (hzero.trans this) hsame
        · rw [hzero,hdone.length_flatten,Nat.zero_add]
        · rw [hzero,hbase,htsf,Nat.sub_zero]
          exact window_of_zero hdone.bytes hcur
    obtain ⟨hcore',hhand',-⟩ := copyDump_spec b buf len (again ++ full) tail (by omega)
      (by omega) (by rw [hwin,hroomeq,append_assoc,hw,List.flatten_append,append_assoc])
      (fun s hs => (mem_append.mp hs).elim (hsections s) (hfull s)) htail
    rw [hroomeq] at hcore'
    rw [hpusi] at hhand'
    refine ⟨if a.pusiSeen then again else [],?_,?_,?_⟩
    · rw [hhand,hhand']
      cases a.pusiSeen <;> simp
    · rw [h.stale_iff,Ne,← hagain]
      cases a.pusiSeen <;> simp [hpos]
    · have hp : (dvbDmxSwfilterSectionCopyDump a buf len).1.sec.secbufp =
          a.sec.secbufp + full.flatten.length :=
        DvbDemuxFeed.core_congr hcore (fun f => f.sec.secbufp) fun _ => rfl
      have hp' : (dvbDmxSwfilterSectionCopyDump b buf len).1.sec.secbufp =
          b.sec.secbufp + (again ++ full).flatten.length :=
        DvbDemuxFeed.core_congr hcore' (fun f => f.sec.secbufp) fun _ => rfl
      have heq : (dvbDmxSwfilterSectionCopyDump b buf len).1.sec.secbufp =
          (dvbDmxSwfilterSectionCopyDump a buf len).1.sec.secbufp := by
        rw [hp,hp',List.flatten_append,length_append]
        omega
      exact ⟨agree_of_core h.agree hcore hcore',h.filtering.of_core hcore,⟨_,hbuf⟩,.inl heq,by simp [heq,hroom]⟩

private theorem Lags.packet (h : Lags stale a b) (wtd : Bool) (tsp : TsPacket) :
    let ra := dvbDmxSwfilterPacketType wtd a tsp
    let rb := dvbDmxSwfilterPacketType wtd b tsp
    ∃ extra, handed rb.2 = extra ++ handed ra.2 ∧
      (extra = [] ↔ ¬ (stale = true ∧ continuesBuffer a tsp.mem = true)) ∧
      Lags (stale && leavesBuffer a tsp.mem) ra.1 rb.1 := by
  dsimp only
  by_cases hpay : payload tsp.mem = 0
  · rw [packetType_of_payload_eq_zero h.filtering wtd hpay,packetType_of_payload_eq_zero h.filtering_of_agree wtd hpay]
    have hroom : a.room (continued tsp.mem) = 0 := by
      simp [DvbDemuxFeed.room,continued_of_payload_eq_zero hpay]
    refine ⟨[],rfl,by simp [continuesBuffer,hroom],?_⟩
    rw [show leavesBuffer a tsp.mem = false by simp [leavesBuffer, hpay],Bool.and_false]
    exact ⟨h.agree.map DvbDemuxFeed.rewind fun _ => rfl,
      ⟨h.filtering.section_type,h.filtering.is_filtering⟩,⟨[],by simp,rfl,Nat.zero_le _⟩,.inl rfl,
      by simp [DvbDemuxFeed.rewind]⟩
  · rw [packetType_eq h.filtering wtd hpay,packetType_eq h.filtering_of_agree wtd hpay]
    have hroom : undisturbed a tsp.mem = true →
        (sectionPacketSync a tsp.mem).room (continued tsp.mem) = a.room (continued tsp.mem) := by
      intro hu
      rw [sync_of_undisturbed hu]
      rfl
    obtain ⟨extra,hhand,hextra,hlag⟩ := (h.sync tsp.mem).copyDump (continuedData tsp.mem)
      (continued tsp.mem)
    have hextra' : extra = [] ↔ ¬ (stale = true ∧ continuesBuffer a tsp.mem = true) := by
      rw [hextra,continuesBuffer]
      by_cases hu : undisturbed a tsp.mem = true
      · simp [hu,hroom hu]
      · simp [hu]
    by_cases hann : announces tsp.mem = true
    · rw [if_pos hann,if_pos hann]
      obtain ⟨extra',hhand',hnone,hlag'⟩ := hlag.startSection.copyDump (announcedData tsp.mem)
        (payload tsp.mem - 1 - continued tsp.mem)
      have hnil : extra' = [] := hnone.mpr (by simp)
      refine ⟨extra,?_,hextra',?_⟩
      · simp only [handed_append,hhand,hhand',hnil,nil_append,append_assoc]
      · rw [show leavesBuffer a tsp.mem = false by simp [leavesBuffer, hann],Bool.and_false]
        exact hlag'
    · rw [if_neg hann,if_neg hann]
      refine ⟨extra,hhand,hextra',?_⟩
      have hleaves : (stale && leavesBuffer a tsp.mem) = (stale && undisturbed a tsp.mem &&
          decide ((sectionPacketSync a tsp.mem).room (continued tsp.mem) = 0)) := by
        by_cases hu : undisturbed a tsp.mem = true
        · simp [leavesBuffer,hpay,hann,hu,hroom hu]
        · simp [leavesBuffer,hu]
      rw [hleaves]
      exact hlag

private theorem Lags.insert (h : Lags stale a b) (wtd : Bool) {tsp : TsPacket} (had : AdaptationOnly tsp) :
    handed (dvbDmxSwfilterPacketType wtd b tsp).2 = [] ∧
      Lags (stale || a.pusiSeen && decide (0 < a.sec.secbufp)) a (dvbDmxSwfilterPacketType wtd b tsp).1 := by
  rw [packetType_of_payload_eq_zero h.filtering_of_agree wtd had.payload_eq_zero]
  refine ⟨rfl,h.agree.trans rfl,h.filtering,h.buffered,.inr rfl,?_⟩
  have hpos : b.rewind.sec.secbufp ≠ a.sec.secbufp ↔ 0 < a.sec.secbufp := by
    change 0 ≠ a.sec.secbufp ↔ _
    omega
  rw [hpos,Bool.or_eq_true,h.stale_iff,Bool.and_eq_true,decide_eq_true_eq]
  constructor
  · rintro (⟨hp,hne⟩ | hp)
    · have := h.cursor.resolve_left hne
      exact ⟨hp,by omega⟩
    · exact hp
  · exact .inr

private theorem lags_run (wtd : Bool) (items : List StreamItem) :
    ∀ (prev : Option UInt8) (stale : Bool) (a b : DvbDemuxFeed), Lags stale a b →
      InsertedConform prev items →
      let without := handed (runTrace (dvbDmxSwfilterPacketType wtd) a (items.filterMap StreamItem.original?)).2
      let with_ := handed (runTrace (dvbDmxSwfilterPacketType wtd) b (items.map StreamItem.tsp)).2
      without.length ≤ with_.length ∧ (with_ = without ↔ NoRedelivery wtd stale a items) := by
  induction items with
  | nil =>
    intro prev stale a b _ _
    simp [NoRedelivery]
  | cons item items ih =>
    intro prev stale a b hlag hins
    cases item with
    | inserted tsp =>
      obtain ⟨had,-,hins⟩ := hins
      obtain ⟨hnone,hlag'⟩ := hlag.insert wtd had
      have hrun := ih _ _ a _ hlag' hins
      simpa only [List.filterMap_cons,StreamItem.original?,map_cons,StreamItem.tsp,
        runTrace_cons,handed_append,hnone,nil_append,NoRedelivery] using hrun
    | original tsp =>
      obtain ⟨extra,hhand,hextra,hlag'⟩ := hlag.packet wtd tsp
      obtain ⟨hle,hiff⟩ := ih _ _ _ _ hlag' hins
      simp only [List.filterMap_cons,StreamItem.original?,map_cons,StreamItem.tsp,
        runTrace_cons,handed_append,hhand,NoRedelivery,length_append]
      refine ⟨by omega,?_⟩
      rw [← hextra,← hiff,append_assoc]
      constructor
      · intro heq
        have hlen := congrArg List.length heq
        simp only [length_append] at hlen
        have hnil : extra = [] := length_eq_zero_iff.mp (by omega)
        rw [hnil,nil_append] at heq
        exact ⟨hnil,append_cancel_left heq⟩
      · rintro ⟨rfl,heq⟩
        rw [heq,nil_append]

/-- Payload-less packets are transparent exactly as long as none of them is inserted while the
buffer is dumped in part and goes on to be filled. -/
theorem payloadLess_transparent_iff (wtd : Bool) (old : DvbDemuxFeed) (startFeed : Option Int)
    (hsec : old.type = .sec) (hstart : (dmxSectionFeedStartFiltering old startFeed).2 = 0)
    (items : List StreamItem) (hins : InsertedConform none items) :
    let feed := (dmxSectionFeedStartFiltering old startFeed).1
    handed (runTrace (dvbDmxSwfilterPacketType wtd) feed (items.map StreamItem.tsp)).2 =
        handed (runTrace (dvbDmxSwfilterPacketType wtd) feed (items.filterMap StreamItem.original?)).2 ↔
      NoRedelivery wtd false feed items := by
  rw [startFiltering_of_success hstart]
  intro feed
  have hlag : Lags false feed feed :=
    ⟨rfl, ⟨hsec, rfl⟩, ⟨[], by simp, rfl, Nat.le_refl _⟩, .inl rfl, by simp⟩
  exact (lags_run wtd items none false feed feed hlag hins).2

/-- A packet with payload `first`, an adaptation-only packet, and a packet that goes on with `rest`. -/
def interrupted (first rest : List UInt8) (hfirst : first.length ≤ 182) (hrest : rest.length ≤ 182) :
    List StreamItem :=
  [.original (stuffedPacket 0x40 0x31 0 first hfirst), .inserted (stuffedPacket 0 0x21 0 [] (by decide)),
    .original (stuffedPacket 0 0x32 0 rest hrest)]

private theorem interrupted_conform {first rest : List UInt8} (hfirst : first.length ≤ 182)
    (hrest : rest.length ≤ 182) : InsertedConform none (interrupted first rest hfirst hrest) := by
  refine ⟨rfl,?_,trivial⟩
  rintro cc ⟨⟩
  change (0x21 : UInt8) &&& 0x0f = 0x31 &&& 0x0f
  decide

theorem payloadLess_transparent_cut : (dmxSectionFeedStartFiltering readyFeed (some 0)).2 = 0 ∧
      InsertedConform none (interrupted [0, 0, 0] [1, 7] (by decide) (by decide)) ∧
      handed (runTrace (dvbDmxSwfilterPacketType false) (dmxSectionFeedStartFiltering readyFeed (some 0)).1
          ((interrupted [0, 0, 0] [1, 7] (by decide) (by decide)).map StreamItem.tsp)).2 =
        handed (runTrace (dvbDmxSwfilterPacketType false) (dmxSectionFeedStartFiltering readyFeed (some 0)).1
          ((interrupted [0, 0, 0] [1, 7] (by decide) (by decide)).filterMap StreamItem.original?)).2 := by
  refine ⟨rfl, interrupted_conform _ _, ?_⟩
  refine (payloadLess_transparent_iff false readyFeed (some 0) rfl rfl _ (interrupted_conform _ _)).mpr ?_
  exact ⟨by decide +kernel, by decide +kernel, trivial⟩

/-- The section `00 00 01 07` is handed on twice if an adaptation-only packet follows the packet in
which it ends and in which the next section starts. -/
theorem payloadLess_not_transparent : ¬ ∀ (wtd : Bool) (old : DvbDemuxFeed) (startFeed : Option Int), old.type = .sec →
      (dmxSectionFeedStartFiltering old startFeed).2 = 0 →
      ∀ items : List StreamItem, InsertedConform none items →
        handed (runTrace (dvbDmxSwfilterPacketType wtd) (dmxSectionFeedStartFiltering old startFeed).1
            (items.map StreamItem.tsp)).2 =
          handed (runTrace (dvbDmxSwfilterPacketType wtd) (dmxSectionFeedStartFiltering old startFeed).1
            (items.filterMap StreamItem.original?)).2 := by
  intro h
  have hrun := h false readyFeed (some 0) rfl rfl
    (interrupted [0, 0, 0, 1, 7, 0, 0] [1, 9] (by decide) (by decide)) (interrupted_conform _ _)
  have hwith : handed (runTrace (dvbDmxSwfilterPacketType false) (dmxSectionFeedStartFiltering readyFeed (some 0)).1
      ((interrupted [0, 0, 0, 1, 7, 0, 0] [1, 9] (by decide) (by decide)).map StreamItem.tsp)).2 =
        [[0, 0, 1, 7], [0, 0, 1, 7], [0, 0, 1, 9]] := by
    decide +kernel
  have hwithout : handed (runTrace (dvbDmxSwfilterPacketType false) (dmxSectionFeedStartFiltering readyFeed (some 0)).1
      ((interrupted [0, 0, 0, 1, 7, 0, 0] [1, 9] (by decide) (by decide)).filterMap
        StreamItem.original?)).2 = [[0, 0, 1, 7], [0, 0, 1, 9]] := by
    decide +kernel
  rw [hwith, hwithout] at hrun
  exact absurd hrun (by decide)

end LinuxDvb.Demux
