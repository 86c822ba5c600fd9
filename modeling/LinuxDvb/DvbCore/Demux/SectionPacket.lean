import LinuxDvb.DvbCore.Demux.SectionStream

/-!
# Transport packets that carry sections

How MPEG-2 systems lay out a packet (header, optional adaptation field, payload) and how sections are cut into the
payloads of one PID.
-/

namespace LinuxDvb.Demux

/-- The packet has the given payload unit start flag, continuity counter and non-empty payload,
after an adaptation field of any length and contents. -/
def Carries (tsp : TsPacket) (pusi : Bool) (cc : Nat) (pl : List UInt8) : Prop :=
  ∃ b0 b1 b2 b3 adaptation, tsp.bytes = b0 :: b1 :: b2 :: b3 :: (adaptation ++ pl) ∧ pl ≠ [] ∧
    b3 &&& 0x10 ≠ 0 ∧ (b3 &&& 0x0f).toNat = cc ∧ pusi = decide (b1 &&& 0x40 ≠ 0) ∧
    (b3 &&& 0x20 = 0 ∧ adaptation = [] ∨ b3 &&& 0x20 ≠ 0 ∧ ∃ body, adaptation = UInt8.ofNat body.length :: body)

/-- Packetisation of sections in progress: `Packetisation ok rest secs cc tsps` says that `tsps`
follow a packet with counter `cc`, carry first the missing bytes `rest` of a section and then the
sections `secs`. `ok rest tsp` is an extra demand on a packet sent while `rest` is missing. -/
inductive Packetisation (ok : List UInt8 → TsPacket → Prop) :
    List UInt8 → List (List UInt8) → Nat → List TsPacket → Prop
  | done (cc : Nat) : Packetisation ok [] [] cc []
  /-- No section starts: the current one goes on, and stuffing follows it if it ends. -/
  | middle {chunk rest : List UInt8} {secs : List (List UInt8)} {cc : Nat} {tsp : TsPacket}
      {tsps : List TsPacket} (stuffing : Nat)
      (carries : Carries tsp false ((cc + 1) % 16) (chunk ++ List.replicate stuffing 0xff))
      (nonempty : chunk ≠ []) (ends : stuffing ≠ 0 → rest = []) (demand : ok (chunk ++ rest) tsp)
      (next : Packetisation ok rest secs ((cc + 1) % 16) tsps) :
      Packetisation ok (chunk ++ rest) secs cc (tsp :: tsps)
  /-- Sections start and all end in the packet, stuffing may follow. -/
  | startWhole {rest : List UInt8} {full secs : List (List UInt8)} {cc : Nat} {tsp : TsPacket}
      {tsps : List TsPacket} (stuffing : Nat)
      (carries : Carries tsp true ((cc + 1) % 16)
        (UInt8.ofNat rest.length :: (rest ++ (full.flatten ++ List.replicate stuffing 0xff))))
      (nonempty : full ≠ []) (demand : ok rest tsp)
      (next : Packetisation ok [] secs ((cc + 1) % 16) tsps) :
      Packetisation ok rest (full ++ secs) cc (tsp :: tsps)
  /-- Sections start and the last of them is cut by the end of the packet. -/
  | startCut {rest head rest' : List UInt8} {full secs : List (List UInt8)} {cc : Nat}
      {tsp : TsPacket} {tsps : List TsPacket}
      (carries : Carries tsp true ((cc + 1) % 16) (UInt8.ofNat rest.length :: (rest ++ (full.flatten ++ head))))
      (headNonempty : head ≠ []) (restNonempty : rest' ≠ []) (demand : ok rest tsp)
      (next : Packetisation ok rest' secs ((cc + 1) % 16) tsps) :
      Packetisation ok rest (full ++ (head ++ rest') :: secs) cc (tsp :: tsps)

private theorem getD_payload (xs pl : List UInt8) (i : Nat) (hi : i < pl.length) :
    (xs ++ pl).getD (xs.length + i) 0 = pl[i] := by
  rw [List.getD_append_right _ _ _ _ (by omega),Nat.add_sub_cancel_left,
    getD_eq_getElem _ _ hi]

variable {tsp : TsPacket} {pusi : Bool} {cc : Nat} {pl : List UInt8}

theorem Carries.length_pos (h : Carries tsp pusi cc pl) : 0 < pl.length := by
  obtain ⟨-,-,-,-,-,-,hne,-⟩ := h
  exact length_pos_iff.mpr hne

theorem Carries.length_le (h : Carries tsp pusi cc pl) : pl.length ≤ 184 := by
  obtain ⟨b0,b1,b2,b3,ad,hb,-⟩ := h
  have := congrArg List.length hb
  simp only [tsp.length_bytes,length_cons,length_append] at this
  omega

theorem Carries.payload_eq (h : Carries tsp pusi cc pl) : payload tsp.mem = pl.length := by
  obtain ⟨b0,b1,b2,b3,ad,hb,-,h10,-,-,had⟩ := h
  have hlen := congrArg List.length hb
  simp only [tsp.length_bytes,length_cons,length_append] at hlen
  have h3 : tsp.mem 3 = b3 := by simp [TsPacket.mem,hb]
  rcases had with ⟨h20,rfl⟩ | ⟨h20,body,rfl⟩
  · simp only [length_nil] at hlen
    simp only [payload,h3,h10,h20]
    simp
    omega
  · have h4 : tsp.mem 4 = UInt8.ofNat body.length := by simp [TsPacket.mem,hb]
    simp only [length_cons] at hlen
    have hbody : (UInt8.ofNat body.length).toNat = body.length := by
      rw [UInt8.toNat_ofNat',Nat.mod_eq_of_lt (by omega)]
    simp only [payload,h3,h4,hbody]
    rw [if_neg h10,if_pos h20,if_neg (by omega)]
    omega

theorem Carries.mem_eq (h : Carries tsp pusi cc pl) (i : Nat) (hi : i < pl.length) :
    tsp.mem (188 - pl.length + i) = pl[i] := by
  obtain ⟨b0,b1,b2,b3,ad,hb,-⟩ := h
  have hlen := congrArg List.length hb
  simp only [tsp.length_bytes,length_cons,length_append] at hlen
  have hsplit : tsp.bytes = (b0 :: b1 :: b2 :: b3 :: ad) ++ pl := by simp [hb]
  rw [show 188 - pl.length + i = (b0 :: b1 :: b2 :: b3 :: ad).length + i by
    simp only [length_cons]; omega]
  rw [TsPacket.mem,hsplit,getD_payload _ _ _ hi]

theorem Carries.slice_eq (xs ys zs : List UInt8) (h : Carries tsp pusi cc (xs ++ (ys ++ zs))) :
    tsp.mem.slice (188 - (xs ++ (ys ++ zs)).length + xs.length) ys.length = ys := by
  apply List.ext_getElem
  · simp
  · intro i hi hi'
    have hlt : xs.length + i < (xs ++ (ys ++ zs)).length := by
      simp only [length_append]
      omega
    have hget := Mem.getElem?_slice tsp.mem
      (188 - (xs ++ (ys ++ zs)).length + xs.length) ys.length i hi'
    rw [Nat.add_assoc,h.mem_eq _ hlt] at hget
    rw [List.getElem_eq_iff,hget,List.getElem_append_right (by omega)]
    simp [List.getElem_append_left hi']

theorem Carries.slice_payload (h : Carries tsp pusi cc pl) : tsp.mem.slice (188 - pl.length) pl.length = pl := by
  simpa using Carries.slice_eq [] pl [] (by simpa using h)

theorem Carries.payloadUnitStart_eq (h : Carries tsp pusi cc pl) : payloadUnitStart tsp.mem = pusi := by
  obtain ⟨b0,b1,b2,b3,ad,hb,-,-,-,hp,-⟩ := h
  simp [payloadUnitStart,TsPacket.mem,hb,hp]

theorem Carries.cc_eq (h : Carries tsp pusi cc pl) : (tsp.mem 3 &&& 0x0f).toNat = cc := by
  obtain ⟨b0,b1,b2,b3,ad,hb,-,-,hcc,-⟩ := h
  simp [TsPacket.mem,hb,hcc]

/-- A packet with header bytes `b1` and `b3` whose adaptation field, with the given flags, leaves room
for the payload `pl`. -/
def stuffedPacket (b1 b3 flags : UInt8) (pl : List UInt8) (h : pl.length ≤ 182) : TsPacket where
  bytes := 0x47 :: b1 :: 0 :: b3 ::
    ((UInt8.ofNat (183 - pl.length) :: flags :: List.replicate (182 - pl.length) 0) ++ pl)
  length_bytes := by
    simp only [List.length_cons,List.length_append,List.length_replicate]
    omega

theorem three_zeros_fit : [(0 : UInt8), 0, 0].length ≤ 182 := by decide

theorem stuffedPacket_carries (b1 b3 flags : UInt8) (pl : List UInt8) (h : pl.length ≤ 182)
    (hpl : pl ≠ []) (h3 : b3 &&& 0x30 = 0x30) :
    Carries (stuffedPacket b1 b3 flags pl h) (decide (b1 &&& 0x40 ≠ 0)) (b3 &&& 0x0f).toNat pl := by
  have h10 : b3 &&& 0x10 = 0x10 := by
    calc b3 &&& 0x10 = (b3 &&& 0x30) &&& 0x10 := by rw [UInt8.and_assoc]; rfl
      _ = 0x10 := by rw [h3]; rfl
  have h20 : b3 &&& 0x20 = 0x20 := by
    calc b3 &&& 0x20 = (b3 &&& 0x30) &&& 0x20 := by rw [UInt8.and_assoc]; rfl
      _ = 0x20 := by rw [h3]; rfl
  refine ⟨0x47,b1,0,b3,_,rfl,hpl,by rw [h10]; decide,rfl,rfl,
    .inr ⟨by rw [h20]; decide,flags :: List.replicate (182 - pl.length) 0,?_⟩⟩
  rw [length_cons,length_replicate,show 182 - pl.length + 1 = 183 - pl.length by omega]

/-! ## What a packet does to the section buffer

A packet with a payload is handled in two phases: its first bytes are appended to the buffered data,
and behind an in-range pointer field the buffer is started anew. Both phases are one
`dvb_dmx_swfilter_section_copy_dump`, which keeps the dump cursor behind whole sections. -/

/-- The pointer field of a packet with PUSI lies inside its payload and announces a section. -/
def announces (buf : Mem UInt8) : Bool :=
  payloadUnitStart buf ∧ payload buf > 1 ∧ (buf (188 - payload buf)).toNat < payload buf

def continued (buf : Mem UInt8) : Nat :=
  if payloadUnitStart buf then
    if announces buf then (buf (188 - payload buf)).toNat else 0
  else payload buf

def continuedData (buf : Mem UInt8) : Mem UInt8 :=
  buf.shift (188 - payload buf + if payloadUnitStart buf then 1 else 0)

def announcedData (buf : Mem UInt8) : Mem UInt8 := (continuedData buf).shift (continued buf)

def undisturbed (feed : DvbDemuxFeed) (buf : Mem UInt8) : Bool :=
  ccok feed buf && !discontinuityIndicator buf

def continuesBuffer (feed : DvbDemuxFeed) (buf : Mem UInt8) : Bool :=
  undisturbed feed buf && decide (0 < feed.room (continued buf))

def leavesBuffer (feed : DvbDemuxFeed) (buf : Mem UInt8) : Bool :=
  payload buf ≠ 0 && undisturbed feed buf && feed.room (continued buf) = 0 && !announces buf

variable {buf : Mem UInt8}

theorem continued_of_payload_eq_zero (h : payload buf = 0) : continued buf = 0 := by
  simp [continued,announces,h]

variable {feed : DvbDemuxFeed}

theorem sync_of_undisturbed (h : undisturbed feed buf = true) :
    sectionPacketSync feed buf = { feed with cc := ((buf 3 &&& 0x0f).toNat : Int) } := by
  have h' : ¬ ((!ccok feed buf) = true ∨ discontinuityIndicator buf = true) := by
    simpa [undisturbed] using h
  rw [sectionPacketSync,if_neg h']

theorem sync_of_disturbed (h : undisturbed feed buf = false) : sectionPacketSync feed buf = dvbDmxSwfilterSectionNew
      { feed with cc := ((buf 3 &&& 0x0f).toNat : Int), pusiSeen := false } := by
  have h' : (!ccok feed buf) = true ∨ discontinuityIndicator buf = true := by
    by_contra hn
    exact absurd (by simpa [undisturbed] using hn) (ne_true_of_eq_false h)
  rw [sectionPacketSync,if_pos h']

@[simp] theorem sectionPacketSync_cc (feed : DvbDemuxFeed) (buf : Mem UInt8) :
    (sectionPacketSync feed buf).cc = ((buf 3 &&& 0x0f).toNat : Int) := by
  simp only [sectionPacketSync,dvbDmxSwfilterSectionNew]
  split <;> rfl

theorem sectionPacket_eq (feed : DvbDemuxFeed) (h : payload buf ≠ 0) : dvbDmxSwfilterSectionPacket feed buf =
      let r := dvbDmxSwfilterSectionCopyDump (sectionPacketSync feed buf) (continuedData buf)
        (continued buf)
      if announces buf then
        let r' := dvbDmxSwfilterSectionCopyDump r.1.startSection (announcedData buf)
          (payload buf - 1 - continued buf)
        (r'.1, r.2 ++ r'.2, 0)
      else (r.1, r.2, 0) := by
  simp only [dvbDmxSwfilterSectionPacket,if_neg h]
  by_cases hp : payloadUnitStart buf = true
  · by_cases hv : payload buf > 1 ∧ (buf (188 - payload buf)).toNat < payload buf
    · have ha : announces buf = true := by simp [announces,hp,hv]
      simp only [hp,hv,ha,continued,continuedData,announcedData,sectionBoundary,and_self,if_true]
    · have ha : announces buf = false := by simpa [announces,hp] using hv
      have hc : continued buf = 0 := by simp [continued,hp,ha]
      have hnone := copyDump_of_room_eq_zero (sectionPacketSync feed buf) (continuedData buf) 0
        (by simp [DvbDemuxFeed.room])
      simp [hp,hv,ha,hc,hnone]
  · have ha : announces buf = false := by simp [announces,hp]
    rw [if_neg hp,ha]
    simp [continued,continuedData,hp]

structure Filtering (feed : DvbDemuxFeed) : Prop where
  section_type : feed.type = .sec
  is_filtering : feed.sec.isFiltering = true

theorem Filtering.of_core {a b : DvbDemuxFeed} {bytes : List UInt8} {p : Nat} (h : Filtering a)
    (hcore : b.core = ((a.store bytes).cursorAt p).core) : Filtering b :=
  ⟨(DvbDemuxFeed.core_congr hcore (fun f => f.type) fun _ => rfl).trans h.section_type,
    (DvbDemuxFeed.core_congr hcore (fun f => f.sec.isFiltering) fun _ => rfl).trans h.is_filtering⟩

/-- `dvb_dmx_swfilter_packet_type` rewinds the dump cursor at a packet without payload. -/
def DvbDemuxFeed.rewind (feed : DvbDemuxFeed) : DvbDemuxFeed :=
  { feed with sec := { feed.sec with seclen := 0, secbufp := 0 } }

theorem packetType_of_payload_eq_zero (hf : Filtering feed) (wtd : Bool) (h : payload tsp.mem = 0) :
    dvbDmxSwfilterPacketType wtd feed tsp = (feed.rewind, []) := by
  simp [dvbDmxSwfilterPacketType,dvbDmxSwfilterSectionPacket,hf.section_type,hf.is_filtering,h,DvbDemuxFeed.rewind]

theorem packetType_eq (hf : Filtering feed) (wtd : Bool) (h : payload tsp.mem ≠ 0) :
    dvbDmxSwfilterPacketType wtd feed tsp =
      let r := dvbDmxSwfilterSectionCopyDump (sectionPacketSync feed tsp.mem)
        (continuedData tsp.mem) (continued tsp.mem)
      if announces tsp.mem then
        let r' := dvbDmxSwfilterSectionCopyDump r.1.startSection (announcedData tsp.mem)
          (payload tsp.mem - 1 - continued tsp.mem)
        (r'.1, r.2 ++ r'.2)
      else r := by
  simp only [dvbDmxSwfilterPacketType,hf.section_type,hf.is_filtering,sectionPacket_eq feed h]
  by_cases ha : announces tsp.mem = true
  · simp [ha]
  · simp [ha]

/-- The dump cursor stands behind the whole sections `done` at the start of the buffer. -/
structure Buffered (feed : DvbDemuxFeed) (done : List (List UInt8)) : Prop where
  sections : ∀ s ∈ done, IsSection s
  bytes : feed.sec.secbufBase.slice 0 feed.sec.secbufp = done.flatten
  cursor : feed.sec.secbufp ≤ feed.sec.tsfeedp

variable {done : List (List UInt8)}

theorem Buffered.length_flatten (h : Buffered feed done) : done.flatten.length = feed.sec.secbufp := by
  rw [← h.bytes,Mem.length_slice]

theorem buffered_startSection (feed : DvbDemuxFeed) : Buffered feed.startSection [] :=
  ⟨by simp, rfl, Nat.le_refl _⟩

theorem buffered_sync (h : Buffered feed done) (buf : Mem UInt8) :
    Buffered (sectionPacketSync feed buf) (if undisturbed feed buf then done else []) := by
  by_cases hu : undisturbed feed buf = true
  · rw [if_pos hu,sync_of_undisturbed hu]
    exact ⟨h.sections,h.bytes,h.cursor⟩
  · rw [if_neg hu,sync_of_disturbed (by simpa using hu)]
    exact ⟨by simp,rfl,Nat.le_refl _⟩

theorem copyDump_buffered (h : Buffered feed done) (buf : Mem UInt8) (len : Nat) (hroom : 0 < feed.room len) :
    ∃ full tail, feed.sec.secbufBase.slice feed.sec.secbufp (feed.sec.tsfeedp - feed.sec.secbufp) ++
        buf.slice 0 (feed.room len) = full.flatten ++ tail ∧ (∀ s ∈ full, IsSection s) ∧ Stalled tail ∧
      (dvbDmxSwfilterSectionCopyDump feed buf len).1.core =
        ((feed.store (buf.slice 0 (feed.room len))).cursorAt (feed.sec.secbufp + full.flatten.length)).core ∧
      handed (dvbDmxSwfilterSectionCopyDump feed buf len).2 = (if feed.pusiSeen then full else []) ∧
      (∀ b ∈ delivered (dvbDmxSwfilterSectionCopyDump feed buf len).2, b ∈ full ∧ feed.pusiSeen = true) ∧
      Buffered (dvbDmxSwfilterSectionCopyDump feed buf len).1 (done ++ full) := by
  obtain ⟨full,tail,hw,hfull,htail⟩ := exists_sections
    (feed.sec.secbufBase.slice feed.sec.secbufp (feed.sec.tsfeedp - feed.sec.secbufp) ++ buf.slice 0 (feed.room len))
  obtain ⟨hcore,hhand,hdel⟩ := copyDump_spec feed buf len full tail h.cursor hroom hw hfull htail
  refine ⟨full,tail,hw,hfull,htail,hcore,hhand,hdel,?_⟩
  generalize dvbDmxSwfilterSectionCopyDump feed buf len = r at hcore
  have hcur := h.cursor
  have hlen := congrArg List.length hw
  simp only [length_append,Mem.length_slice] at hlen
  have hp : r.1.sec.secbufp = feed.sec.secbufp + full.flatten.length :=
    DvbDemuxFeed.core_congr hcore (fun f => f.sec.secbufp) fun _ => rfl
  have ht : r.1.sec.tsfeedp = feed.sec.tsfeedp + (buf.slice 0 (feed.room len)).length :=
    DvbDemuxFeed.core_congr hcore (fun f => f.sec.tsfeedp) fun _ => rfl
  have hb : r.1.sec.secbufBase =
      feed.sec.secbufBase.write feed.sec.tsfeedp (buf.slice 0 (feed.room len)) :=
    DvbDemuxFeed.core_congr hcore (fun f => f.sec.secbufBase) fun _ => rfl
  rw [Mem.length_slice] at ht
  refine ⟨?_,?_,by omega⟩
  · intro s hs
    exact (mem_append.mp hs).elim (h.sections s) (hfull s)
  · -- the sections that the cursor passes are read from the window behind it
    have hall : r.1.sec.secbufBase.slice 0 (feed.sec.tsfeedp + feed.room len) =
        done.flatten ++ (full.flatten ++ tail) := by
      have happend := Mem.slice_write_append feed.sec.secbufBase 0 feed.sec.tsfeedp
        (buf.slice 0 (feed.room len))
      rw [Nat.zero_add,Mem.length_slice] at happend
      have hstored := Mem.slice_add feed.sec.secbufBase 0 feed.sec.secbufp
        (feed.sec.tsfeedp - feed.sec.secbufp)
      rw [Nat.add_sub_cancel' hcur,Nat.zero_add] at hstored
      rw [hb,happend,← hw,← h.bytes,← append_assoc,← hstored]
    rw [hp,← Mem.take_slice _ _ (feed.sec.tsfeedp + feed.room len) _ (by omega),hall,
      List.flatten_append,← append_assoc,take_left']
    rw [length_append,h.length_flatten]

end LinuxDvb.Demux
