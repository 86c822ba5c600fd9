import LinuxDvb.Framework.Trace
import LinuxDvb.DvbCore.Demux.SectionPacket
import LinuxDvb.DvbCore.Demux.SectionFeed

/-!
# Section reassembly

`dvb_dmx_swfilter_section_packet` undoes the packetisation of sections. Between packets the buffer
holds, behind the dump cursor, exactly the part of the current section that has arrived; the cursor
lies inside the packet in which the section started, so the section always fits.
-/

namespace LinuxDvb.Demux

/-- `dvb_dmx_swfilter_section_packet` as a machine on packets. -/
def sectionPacketStep (feed : DvbDemuxFeed) (tsp : TsPacket) : DvbDemuxFeed × List DemuxEvent :=
  let r := dvbDmxSwfilterSectionPacket feed tsp.mem
  (r.1, r.2.1)

/-- The first part `pre` of a section has arrived and `rest` is missing. -/
structure InSection (feed : DvbDemuxFeed) (pre rest : List UInt8) : Prop where
  isSection : IsSection (pre ++ rest)
  synced : feed.pusiSeen = true
  cursor : feed.sec.secbufp ≤ 183
  stored : feed.sec.tsfeedp = feed.sec.secbufp + pre.length
  bytes : feed.sec.secbufBase.slice feed.sec.secbufp pre.length = pre

private theorem stalled_stuffing (k : Nat) : Stalled (List.replicate k 0xff) := by
  by_cases hk : k < 3
  · exact .inl (by simpa using hk)
  · right; left
    have h1 : (List.replicate k (0xff : UInt8)).getD 1 0 = 0xff := by
      rw [getD_eq_getElem _ _ (by simp; omega),List.getElem_replicate]
    have h2 : (List.replicate k (0xff : UInt8)).getD 2 0 = 0xff := by
      rw [getD_eq_getElem _ _ (by simp; omega),List.getElem_replicate]
    simp only [announcedLength,sectionLength,h1,h2]
    decide

variable {pre rest : List UInt8}

private theorem stalled_of_missing (h : IsSection (pre ++ rest)) (hrest : rest ≠ []) : Stalled pre := by
  by_cases h3 : pre.length < 3
  · exact .inl h3
  · right; right
    have hann := h.2.2
    rw [announcedLength_append _ _ (by omega),length_append] at hann
    have := length_pos_iff.mpr hrest
    omega

variable {feed : DvbDemuxFeed} {chunk : List UInt8}

private theorem InSection.room_eq (rest : List UInt8) (h : InSection feed pre (chunk ++ rest)) (extra : Nat) :
    chunk.length ≤ feed.room (chunk.length + extra) ∧
      feed.room (chunk.length + extra) ≤ chunk.length + extra := by
  have hmax := h.isSection.2.1
  have hcur := h.cursor
  have hst := h.stored
  simp only [length_append] at hmax
  simp only [DvbDemuxFeed.room,dmxMaxSecfeedSize,dmxMaxSectionSize] at *
  omega

variable {buf : Mem UInt8}

private theorem copyDump_middle (h : InSection feed pre (chunk ++ rest)) (hchunk : chunk ≠ []) (hrest : rest ≠ [])
    (hbuf : buf.slice 0 chunk.length = chunk) :
    handed (dvbDmxSwfilterSectionCopyDump feed buf chunk.length).2 = [] ∧
      InSection (dvbDmxSwfilterSectionCopyDump feed buf chunk.length).1 (pre ++ chunk) rest ∧
      (dvbDmxSwfilterSectionCopyDump feed buf chunk.length).1.cc = feed.cc := by
  have hroom : feed.room chunk.length = chunk.length := by
    have := h.room_eq rest 0
    rw [Nat.add_zero] at this
    omega
  have hpos := length_pos_iff.mpr hchunk
  have hsec : IsSection ((pre ++ chunk) ++ rest) := by simpa using h.isSection
  have hst := h.stored
  obtain ⟨hcore,hhand,-⟩ := copyDump_spec feed buf chunk.length [] (pre ++ chunk) (by omega)
    (by omega) (by
      rw [hroom,hbuf,hst,Nat.add_sub_cancel_left,h.bytes]
      simp) (by simp) (stalled_of_missing hsec hrest)
  rw [hroom,hbuf] at hcore
  simp only [flatten_nil,length_nil,Nat.add_zero] at hcore
  generalize dvbDmxSwfilterSectionCopyDump feed buf chunk.length = r at hcore hhand ⊢
  have hp : r.1.sec.secbufp = feed.sec.secbufp :=
    DvbDemuxFeed.core_congr hcore (fun f => f.sec.secbufp) fun _ => rfl
  have ht : r.1.sec.tsfeedp = feed.sec.tsfeedp + chunk.length :=
    DvbDemuxFeed.core_congr hcore (fun f => f.sec.tsfeedp) fun _ => rfl
  have hb : r.1.sec.secbufBase = feed.sec.secbufBase.write feed.sec.tsfeedp chunk :=
    DvbDemuxFeed.core_congr hcore (fun f => f.sec.secbufBase) fun _ => rfl
  refine ⟨by simpa using hhand,⟨hsec,?_,by rw [hp]; exact h.cursor,?_,?_⟩,?_⟩
  · exact (DvbDemuxFeed.core_congr hcore (fun f => f.pusiSeen) fun _ => rfl).trans h.synced
  · rw [ht,hp,hst,length_append,Nat.add_assoc]
  · rw [hb,hp,hst,length_append,Mem.slice_write_append,h.bytes]
  · exact DvbDemuxFeed.core_congr hcore (fun f => f.cc) fun _ => rfl

private theorem copyDump_last (h : InSection feed pre chunk) (hchunk : chunk ≠ []) (k : Nat)
    (hbuf : buf.slice 0 (chunk.length + k) = chunk ++ List.replicate k 0xff) :
    handed (dvbDmxSwfilterSectionCopyDump feed buf (chunk.length + k)).2 = [pre ++ chunk] ∧
      (dvbDmxSwfilterSectionCopyDump feed buf (chunk.length + k)).1.cc = feed.cc := by
  have hroom := InSection.room_eq [] (by simpa using h) k
  have hpos := length_pos_iff.mpr hchunk
  have hst := h.stored
  obtain ⟨j,hj⟩ : ∃ j, feed.room (chunk.length + k) = chunk.length + j :=
    ⟨feed.room (chunk.length + k) - chunk.length,by omega⟩
  -- only stuffing can be cut off by the end of the buffer
  have hslice : buf.slice 0 (chunk.length + j) = chunk ++ List.replicate j 0xff := by
    rw [← Mem.take_slice _ _ (chunk.length + k) _ (by omega),hbuf,take_append,
      take_of_length_le (by omega),Nat.add_sub_cancel_left,List.take_replicate,
      Nat.min_eq_left (by omega)]
  obtain ⟨hcore,hhand,-⟩ := copyDump_spec feed buf (chunk.length + k) [pre ++ chunk]
    (List.replicate j 0xff) (by omega) (by omega) (by
      rw [hj,hslice,hst,Nat.add_sub_cancel_left,h.bytes]
      simp) (by simpa using h.isSection) (stalled_stuffing j)
  rw [h.synced] at hhand
  exact ⟨by simpa using hhand,DvbDemuxFeed.core_congr hcore (fun f => f.cc) fun _ => rfl⟩

private theorem copyDump_start (feed : DvbDemuxFeed) {full : List (List UInt8)}
    {tail : List UInt8} (hsync : feed.pusiSeen = true)
    (hp : feed.sec.secbufp = 0) (ht : feed.sec.tsfeedp = 0)
    (hfull : ∀ s ∈ full, IsSection s) (htail : Stalled tail)
    (hlen : (full.flatten ++ tail).length ≤ 183)
    (hpos : 0 < (full.flatten ++ tail).length)
    (hbuf : buf.slice 0 (full.flatten ++ tail).length = full.flatten ++ tail) :
    let r := dvbDmxSwfilterSectionCopyDump feed buf (full.flatten ++ tail).length
    handed r.2 = full ∧ r.1.cc = feed.cc ∧
      ∀ rest, IsSection (tail ++ rest) → InSection r.1 tail rest := by
  have hroom : feed.room (full.flatten ++ tail).length = (full.flatten ++ tail).length := by
    simp only [DvbDemuxFeed.room,ht,dmxMaxSecfeedSize,dmxMaxSectionSize]
    omega
  obtain ⟨hcore,hhand,-⟩ := copyDump_spec feed buf (full.flatten ++ tail).length full tail
    (by omega) (by omega) (by rw [hroom,hbuf,hp,ht]; simp) hfull htail
  rw [hroom,hbuf,hp,Nat.zero_add] at hcore
  rw [hsync,if_pos rfl] at hhand
  intro r
  change r.1.core = _ at hcore
  have hp' : r.1.sec.secbufp = full.flatten.length :=
    DvbDemuxFeed.core_congr hcore (fun f => f.sec.secbufp) fun _ => rfl
  have ht' : r.1.sec.tsfeedp = feed.sec.tsfeedp + (full.flatten ++ tail).length :=
    DvbDemuxFeed.core_congr hcore (fun f => f.sec.tsfeedp) fun _ => rfl
  have hb' : r.1.sec.secbufBase = feed.sec.secbufBase.write feed.sec.tsfeedp (full.flatten ++ tail) :=
    DvbDemuxFeed.core_congr hcore (fun f => f.sec.secbufBase) fun _ => rfl
  refine ⟨hhand,DvbDemuxFeed.core_congr hcore (fun f => f.cc) fun _ => rfl,?_⟩
  intro rest hrest
  simp only [length_append] at hlen
  refine ⟨hrest,?_,by omega,by rw [ht',hp',ht,length_append,Nat.zero_add],?_⟩
  · exact (DvbDemuxFeed.core_congr hcore (fun f => f.pusiSeen) fun _ => rfl).trans hsync
  · have hself := Mem.slice_write_self feed.sec.secbufBase 0 (full.flatten ++ tail)
    rw [length_append,Mem.slice_add] at hself
    rw [hb',hp',ht]
    simpa using List.append_inj_right hself (by simp)

def Undisturbed (rest : List UInt8) (tsp : TsPacket) : Prop :=
  rest ≠ [] → discontinuityIndicator tsp.mem = false

private def inProgress (pre rest : List UInt8) : List (List UInt8) :=
  if rest = [] then [] else [pre ++ rest]

private def Follows (feed : DvbDemuxFeed) (pre rest : List UInt8) (cc : Nat) : Prop :=
  rest ≠ [] → InSection feed pre rest ∧ feed.cc = (cc : Int)

variable {cc : Nat} {tsp : TsPacket}

private theorem Follows.sync (h : Follows feed pre rest cc) {pusi : Bool} {pl : List UInt8}
    (hc : Carries tsp pusi ((cc + 1) % 16) pl) (hd : Undisturbed rest tsp) :
    Follows (sectionPacketSync feed tsp.mem) pre rest ((cc + 1) % 16) := by
  intro hrest
  obtain ⟨hin,hcc⟩ := h hrest
  have hok : ccok feed tsp.mem = true := by
    simp only [ccok,hcc,hc.cc_eq,decide_eq_true_eq]
    omega
  simp only [sectionPacketSync,hok,hd hrest,hc.cc_eq]
  exact ⟨⟨hin.isSection,hin.synced,hin.cursor,hin.stored,hin.bytes⟩,rfl⟩

private theorem sectionPacketStep_middle (feed : DvbDemuxFeed) {pl : List UInt8} (hc : Carries tsp false cc pl) :
    sectionPacketStep feed tsp = dvbDmxSwfilterSectionCopyDump (sectionPacketSync feed tsp.mem)
      (tsp.mem.shift (188 - pl.length)) pl.length := by
  have hpos := hc.length_pos
  simp only [sectionPacketStep,dvbDmxSwfilterSectionPacket,hc.payload_eq,hc.payloadUnitStart_eq]
  rw [if_neg (by omega),if_neg (by simp)]

private theorem sectionPacketStep_start (feed : DvbDemuxFeed) {after : List UInt8} (hafter : after ≠ [])
    (hc : Carries tsp true cc (UInt8.ofNat rest.length :: (rest ++ after))) :
    ∃ before target : Mem UInt8, before.slice 0 rest.length = rest ∧
      target.slice 0 after.length = after ∧
      sectionPacketStep feed tsp =
        sectionBoundary (sectionPacketSync feed tsp.mem) before rest.length target after.length := by
  have hlen := hc.length_le
  have hpos := length_pos_iff.mpr hafter
  have hpl : (UInt8.ofNat rest.length :: (rest ++ after)).length = rest.length + after.length + 1 := by
    simp
  have hfit : (UInt8.ofNat rest.length).toNat = rest.length := by
    rw [UInt8.toNat_ofNat',Nat.mod_eq_of_lt (by omega)]
  have hptr : tsp.mem (188 - (rest.length + after.length + 1)) = UInt8.ofNat rest.length := by
    simpa using hc.mem_eq 0 (by simp)
  refine ⟨tsp.mem.shift (188 - (rest.length + after.length + 1) + 1),
    (tsp.mem.shift (188 - (rest.length + after.length + 1) + 1)).shift rest.length,?_,?_,?_⟩
  · have := Carries.slice_eq [UInt8.ofNat rest.length] rest after (by simpa using hc)
    rw [Mem.slice_shift]
    simpa [hpl] using this
  · have := Carries.slice_eq (UInt8.ofNat rest.length :: rest) after [] (by simpa using hc)
    rw [Mem.slice_shift,Mem.slice_shift]
    simpa [hpl,Nat.add_assoc,Nat.add_comm 1] using this
  · simp only [sectionPacketStep,dvbDmxSwfilterSectionPacket,hc.payload_eq,hpl,hc.payloadUnitStart_eq,hptr,hfit]
    rw [if_neg (by omega),if_pos trivial,if_pos (by omega),
      show rest.length + after.length + 1 - 1 - rest.length = after.length by omega]

private theorem copyDump_before
    {before : Mem UInt8} (h : Follows feed pre rest cc) (hbuf : before.slice 0 rest.length = rest) :
    handed (dvbDmxSwfilterSectionCopyDump feed before rest.length).2 = inProgress pre rest ∧
      (dvbDmxSwfilterSectionCopyDump feed before rest.length).1.cc = feed.cc := by
  by_cases hrest : rest = []
  · subst hrest
    rw [copyDump_of_room_eq_zero _ _ _ (by simp [DvbDemuxFeed.room])]
    exact ⟨rfl,rfl⟩
  · have hlast := copyDump_last (h hrest).1 hrest 0 (by simpa using hbuf)
    simpa [inProgress,hrest] using hlast

/-- One packet with a section start: the pending section and the whole ones are handed on, and the
bytes behind them are what the buffer holds next. -/
private theorem start_step {tail : List UInt8} {full : List (List UInt8)} (h : Follows feed pre rest cc)
    (hd : Undisturbed rest tsp) (hfull : ∀ s ∈ full, IsSection s) (htail : Stalled tail)
    (hne : full.flatten ++ tail ≠ [])
    (hc : Carries tsp true ((cc + 1) % 16) (UInt8.ofNat rest.length :: (rest ++ (full.flatten ++ tail)))) :
    handed (sectionPacketStep feed tsp).2 = inProgress pre rest ++ full ∧
      (sectionPacketStep feed tsp).1.cc = (((cc + 1) % 16 : Nat) : Int) ∧
      ∀ rest', IsSection (tail ++ rest') → InSection (sectionPacketStep feed tsp).1 tail rest' := by
  obtain ⟨before,target,hbefore,htarget,hstep⟩ := sectionPacketStep_start feed hne hc
  obtain ⟨hhand,hcc⟩ := copyDump_before (h.sync hc hd) hbefore
  have hlen := hc.length_le
  simp only [length_cons,length_append] at hlen
  generalize hr : dvbDmxSwfilterSectionCopyDump (sectionPacketSync feed tsp.mem) before
    rest.length = r at hhand hcc
  obtain ⟨hhand',hcc',hin⟩ := copyDump_start r.1.startSection rfl rfl rfl hfull htail
    (by simp only [length_append]; omega) (length_pos_iff.mpr hne) htarget
  rw [hstep]
  simp only [sectionBoundary,hr,handed_append,hhand,hhand']
  refine ⟨trivial,hcc'.trans ?_,hin⟩
  change r.1.cc = _
  rw [hcc,sectionPacketSync_cc,hc.cc_eq]

private theorem reassembly_run {secs : List (List UInt8)}
    {tsps : List TsPacket} (hp : Packetisation Undisturbed rest secs cc tsps) :
    ∀ (feed : DvbDemuxFeed) (pre : List UInt8), (∀ s ∈ secs, IsSection s) →
      Follows feed pre rest cc →
      handed (runTrace sectionPacketStep feed tsps).2 = inProgress pre rest ++ secs := by
  induction hp with
  | done cc =>
    intro feed pre _ _
    rfl
  | @middle chunk rest secs cc tsp tsps k hc hne hends hd _ ih =>
    intro feed pre hsecs hf
    obtain ⟨hin,hcc⟩ := (hf.sync hc hd) (by simp [hne])
    rw [runTrace_cons,handed_append,sectionPacketStep_middle feed hc]
    have hbuf : (tsp.mem.shift (188 - (chunk ++ List.replicate k 0xff).length)).slice 0
        (chunk ++ List.replicate k 0xff).length = chunk ++ List.replicate k 0xff := by
      rw [Mem.slice_shift]
      exact hc.slice_payload
    by_cases hrest : rest = []
    · -- the section ends in this packet
      subst hrest
      simp only [length_append,length_replicate] at hbuf ⊢
      rw [append_nil] at hin ⊢
      obtain ⟨hhand,-⟩ := copyDump_last hin hne k hbuf
      rw [hhand,ih _ [] hsecs (by simp [Follows])]
      simp [inProgress,hne]
    · have hk : k = 0 := by
        by_contra hk
        exact hrest (hends hk)
      subst hk
      simp only [List.replicate_zero,append_nil] at hbuf ⊢
      obtain ⟨hhand,hin',hcc'⟩ := copyDump_middle hin hne hrest hbuf
      rw [hhand,ih _ (pre ++ chunk) hsecs fun _ => ⟨hin',hcc'.trans hcc⟩]
      simp [inProgress,hne,hrest]
  | @startWhole rest full secs cc tsp tsps k hc hne hd _ ih =>
    intro feed pre hsecs hf
    have hfull : ∀ s ∈ full, IsSection s := fun s hs => hsecs s (by simp [hs])
    have hflat : full.flatten ++ List.replicate k 0xff ≠ [] := by
      obtain ⟨s,hs⟩ := List.exists_mem_of_ne_nil _ hne
      have hpos := (hfull s hs).length_pos
      intro hnil
      have hs' := List.flatten_eq_nil_iff.mp (append_eq_nil_iff.mp hnil).1 s hs
      simp [hs'] at hpos
    obtain ⟨hhand,-,-⟩ := start_step hf hd hfull (stalled_stuffing k) hflat hc
    rw [runTrace_cons,handed_append,hhand,ih _ [] (fun s hs => hsecs s (by simp [hs]))
      (by simp [Follows])]
    simp [inProgress]
  | @startCut rest head rest' full secs cc tsp tsps hc hhead hrest' hd _ ih =>
    intro feed pre hsecs hf
    have hcut : IsSection (head ++ rest') := hsecs _ (by simp)
    obtain ⟨hhand,hcc,hin⟩ := start_step hf hd (fun s hs => hsecs s (by simp [hs]))
      (stalled_of_missing hcut hrest') (by simp [hhead]) hc
    rw [runTrace_cons,handed_append,hhand,
      ih _ head (fun s hs => hsecs s (by simp [hs])) fun _ => ⟨hin rest' hcut,hcc⟩]
    simp [inProgress,hrest']

/-- Section reassembly undoes packetisation: from a freshly allocated feed, the sections are handed
to `dvb_dmx_swfilter_section_feed` once each, in order and byte-identical, provided no packet that
continues a section carries a set discontinuity_indicator. -/
theorem sectionReassembly_roundTrip (old : DvbDemuxFeed) (callback : Nat → List UInt8 → Int)
    (secs : List (List UInt8)) (hsecs : ∀ s ∈ secs, IsSection s) (cc : Nat) (tsps : List TsPacket)
    (hp : Packetisation Undisturbed [] secs cc tsps) :
    handed (runTrace sectionPacketStep (dvbdmxAllocateSectionFeed old callback).1 tsps).2 = secs := by
  simpa [inProgress] using reassembly_run hp (dvbdmxAllocateSectionFeed old callback).1 [] hsecs
    (by simp [Follows])

/-- First packet of the section `00 00 01 07`, cut after its second byte. -/
def cutHead : TsPacket := stuffedPacket 0x40 0x31 0 [0, 0, 0] three_zeros_fit

def cutTail (flags : UInt8) : TsPacket := stuffedPacket 0 0x32 flags [1, 7] (by decide)

private theorem cut_packetisation (ok : List UInt8 → TsPacket → Prop) (flags : UInt8)
    (hhead : ok [] cutHead) (htail : ok [1, 7] (cutTail flags)) :
    Packetisation ok [] [[0, 0, 1, 7]] 0 [cutHead, cutTail flags] :=
  @Packetisation.startCut ok [] [0, 0] [1, 7] [] [] 0 _ _
    (stuffedPacket_carries 0x40 0x31 0 [0, 0, 0] (by decide) (by decide) (by decide)) (by decide)
    (by decide) hhead
    (@Packetisation.middle ok [1, 7] [] [] 1 _ _ 0
      (stuffedPacket_carries 0 0x32 flags [1, 7] (by decide) (by decide) (by decide)) (by decide)
      (by decide) htail (.done _))

theorem sectionReassembly_roundTrip_cut : (∀ s ∈ [[0, 0, 1, 7]], IsSection s) ∧
      Packetisation Undisturbed [] [[0, 0, 1, 7]] 0 [cutHead, cutTail 0] ∧
      handed (runTrace sectionPacketStep (dvbdmxAllocateSectionFeed zeroFeed fun _ _ => 0).1
        [cutHead, cutTail 0]).2 = [[0, 0, 1, 7]] := by
  have hsecs : ∀ s ∈ [[0, 0, 1, 7]], IsSection s := by decide
  have hp : Packetisation Undisturbed [] [[0, 0, 1, 7]] 0 [cutHead, cutTail 0] :=
    cut_packetisation Undisturbed 0 (fun h => absurd rfl h) fun _ => by decide +kernel
  exact ⟨hsecs, hp, sectionReassembly_roundTrip zeroFeed _ _ hsecs 0 _ hp⟩

/-- With the discontinuity_indicator of the second packet set, nothing is handed on. -/
theorem sectionReassembly_discontinuity :
    ¬ ∀ (old : DvbDemuxFeed) (callback : Nat → List UInt8 → Int) (secs : List (List UInt8)),
      (∀ s ∈ secs, IsSection s) → ∀ (cc : Nat) (tsps : List TsPacket),
        Packetisation (fun _ _ => True) [] secs cc tsps →
          handed (runTrace sectionPacketStep (dvbdmxAllocateSectionFeed old callback).1 tsps).2 =
            secs := by
  intro h
  have hcut := h zeroFeed (fun _ _ => 0) [[0, 0, 1, 7]] (by decide) 0 [cutHead, cutTail 0x80]
    (cut_packetisation _ 0x80 trivial trivial)
  have hnone : handed (runTrace sectionPacketStep
      (dvbdmxAllocateSectionFeed zeroFeed fun _ _ => 0).1 [cutHead, cutTail 0x80]).2 = [] := by
    decide +kernel
  rw [hnone] at hcut
  exact absurd hcut (by decide)

end LinuxDvb.Demux
