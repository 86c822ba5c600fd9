import LinuxDvb.DvbCore.Demux.SectionDecision

/-!
# The section buffer under arbitrary packets

Every access of `dvb_dmx_swfilter_section_packet` to the packet and to `secbuf_base` as an event. A monitor
keeps the bytes copied since the buffer was last emptied and checks each event against them.
-/

namespace LinuxDvb.Demux

/-- What a call on a section feed does to the packet and to the section buffer. -/
inductive BufferEvent where
  /-- `len` bytes of the packet are read. -/
  | readPacket (off len : Nat)
  /-- `dvb_dmx_swfilter_section_new` -/
  | empty
  /-- Bytes are copied to `secbuf_base + off`. -/
  | copy (off : Nat) (bytes : List UInt8)
  /-- `dvb_dmx_swfilter_section_feed` is called. -/
  | sectionFeed (feed : DvbDemuxFeed)
  /-- The call returns. -/
  | returned (feed : DvbDemuxFeed)

/-! ## The accesses of the source -/

def payloadEvents (tsp : Mem UInt8) : List BufferEvent :=
  .readPacket 3 1 ::
    if tsp 3 &&& 0x10 = 0 then []
    else .readPacket 3 1 :: if tsp 3 &&& 0x20 ≠ 0 then [.readPacket 4 1] else []

/-- Those of `dvb_dmx_swfilter_section_copy_dump` for the `len` bytes at offset `off` of the packet. -/
def copyDumpEvents (feed : DvbDemuxFeed) (tsp : Mem UInt8) (off len : Nat) : List BufferEvent :=
  if feed.sec.tsfeedp ≥ dmxMaxSecfeedSize then []
  else
    let len' := if feed.sec.tsfeedp + len > dmxMaxSecfeedSize
      then dmxMaxSecfeedSize - feed.sec.tsfeedp else len
    if len' ≤ 0 then []
    else
      .readPacket off len' :: .copy feed.sec.tsfeedp ((tsp.shift off).slice 0 len') ::
        (copyDumpCalls feed (tsp.shift off) len).map .sectionFeed

def counterEvents (buf : Mem UInt8) : List BufferEvent :=
  .readPacket 3 1 :: .readPacket 3 1 ::
    if buf 3 &&& 0x20 ≠ 0 then
      .readPacket 4 1 :: if (buf 4).toNat > 0 then [.readPacket 5 1] else []
    else []

def sectionSyncEvents (feed : DvbDemuxFeed) (buf : Mem UInt8) : List BufferEvent :=
  counterEvents buf ++ if !ccok feed buf ∨ discontinuityIndicator buf then [.empty] else []

/-- Those at a section boundary whose pointer field is at offset `p`. -/
def sectionBoundaryEvents (feed : DvbDemuxFeed) (buf : Mem UInt8) (p beforeLen afterLen : Nat) :
    List BufferEvent :=
  .readPacket p 1 ::
    (copyDumpEvents feed buf (p + 1) beforeLen ++ .empty :: copyDumpEvents
          (dvbDmxSwfilterSectionCopyDump feed (buf.shift (p + 1)) beforeLen).1.startSection buf
          (p + 1 + beforeLen) afterLen)

/-- Those of `dvb_dmx_swfilter_section_packet`. -/
def sectionPacketEvents (feed : DvbDemuxFeed) (buf : Mem UInt8) : List BufferEvent :=
  let count := payload buf
  payloadEvents buf ++
    if count = 0 then []
    else
      let p := 188 - count
      let synced := sectionPacketSync feed buf
      sectionSyncEvents feed buf ++
        .readPacket 1 1 ::
          if payloadUnitStart buf then
            (if count > 1 then [.readPacket p 1] else []) ++
              if count > 1 ∧ (buf p).toNat < count then
                sectionBoundaryEvents synced buf p (buf p).toNat (count - 1 - (buf p).toNat)
              else []
          else copyDumpEvents synced buf p count

def opEvents (feed : DvbDemuxFeed) : FeedOp → List BufferEvent
  | .packet tsp =>
    if feed.type = .sec ∧ feed.sec.isFiltering = true then sectionPacketEvents feed tsp.mem else []
  | .startFiltering _ =>
    if feed.sec.isFiltering ∨ feed.filter.isEmpty then [] else [.empty]
  | _ => []

def bufferStep (wtd : Bool) (feed : DvbDemuxFeed) (op : FeedOp) : DvbDemuxFeed × List BufferEvent :=
  ((feedOp wtd feed op).1, opEvents feed op ++ [.returned (feedOp wtd feed op).1])

/-! ## What is demanded of them -/

def copiedNext (copied : List UInt8) : BufferEvent → List UInt8
  | .empty => []
  | .copy _ bytes => copied ++ bytes
  | _ => copied

/-- Reads are inside the packet; copies append to the bytes copied so far, inside the buffer; a section that
is handed on is a slice of them as long as its header says; and the cursors are in order at the end. -/
def BufferEvent.Sound (copied : List UInt8) : BufferEvent → Prop
  | .readPacket off len => off + len ≤ 188
  | .empty => True
  | .copy off bytes => off = copied.length ∧ off + bytes.length ≤ dmxMaxSecfeedSize
  | .sectionFeed feed =>
    feed.sec.secbuf = feed.sec.secbufp ∧ feed.sec.secbufp + feed.sec.seclen ≤ feed.sec.tsfeedp ∧
      feed.sec.tsfeedp = copied.length ∧
      feed.currentSection = (copied.drop feed.sec.secbufp).take feed.sec.seclen ∧
      feed.sec.seclen = announcedLength feed.currentSection
  | .returned feed =>
    feed.sec.secbufp ≤ feed.sec.tsfeedp ∧ feed.sec.tsfeedp ≤ dmxMaxSecfeedSize ∧
      feed.sec.secbuf = feed.sec.secbufp

def NoRewind (feed : DvbDemuxFeed) (op : FeedOp) : Prop :=
  ∀ tsp, op = .packet tsp → feed.sec.isFiltering = true → payload tsp.mem = 0 → feed.sec.secbufp = 0

/-! ## The buffer and the copied bytes -/

/-- The buffer holds the copied bytes, and the cursors are in order. -/
structure HoldsCopied (feed : DvbDemuxFeed) (copied : List UInt8) : Prop where
  section_type : feed.type = .sec
  cursor : feed.sec.secbufp ≤ feed.sec.tsfeedp
  size : feed.sec.tsfeedp ≤ dmxMaxSecfeedSize
  pointer : feed.sec.secbuf = feed.sec.secbufp
  bytes : feed.sec.secbufBase.slice 0 feed.sec.tsfeedp = copied

section Holds

variable {feed feed' : DvbDemuxFeed} {copied : List UInt8}

theorem HoldsCopied.length_eq (h : HoldsCopied feed copied) : feed.sec.tsfeedp = copied.length := by
  rw [← h.bytes,Mem.length_slice]

theorem HoldsCopied.returned (h : HoldsCopied feed copied) : (BufferEvent.returned feed).Sound copied :=
  ⟨h.cursor, h.size, h.pointer⟩

theorem HoldsCopied.of_core (h : HoldsCopied feed copied) (hcore : feed'.core = feed.core) :
    HoldsCopied feed' copied := by
  have hp := DvbDemuxFeed.core_congr hcore (fun f => f.sec.secbufp) fun _ => rfl
  have ht := DvbDemuxFeed.core_congr hcore (fun f => f.sec.tsfeedp) fun _ => rfl
  have hb := DvbDemuxFeed.core_congr hcore (fun f => f.sec.secbuf) fun _ => rfl
  have hbase := DvbDemuxFeed.core_congr hcore (fun f => f.sec.secbufBase) fun _ => rfl
  refine ⟨(DvbDemuxFeed.core_congr hcore (fun f => f.type) fun _ => rfl).trans h.section_type,?_,?_,?_,?_⟩
  · rw [hp,ht]
    exact h.cursor
  · rw [ht]
    exact h.size
  · rw [hp,hb]
    exact h.pointer
  · rw [hbase,ht]
    exact h.bytes

theorem HoldsCopied.cursorAt (h : HoldsCopied feed copied) {p : Nat} (hp : p ≤ feed.sec.tsfeedp) :
    HoldsCopied (feed.cursorAt p) copied :=
  ⟨h.section_type, hp, h.size, rfl, h.bytes⟩

theorem holdsCopied_sectionNew (hsec : feed.type = .sec) : HoldsCopied (dvbDmxSwfilterSectionNew feed) [] :=
  ⟨hsec, Nat.le_refl _, Nat.zero_le _, rfl, rfl⟩

theorem HoldsCopied.startSection (h : HoldsCopied feed copied) : HoldsCopied feed.startSection [] :=
  ⟨h.section_type, Nat.le_refl _, Nat.zero_le _, rfl, rfl⟩

theorem HoldsCopied.openSection (h : HoldsCopied feed copied)
    (hfit : sectionLength (feed.sec.secbufBase.shift feed.sec.secbuf) + feed.sec.secbufp ≤ feed.sec.tsfeedp) :
    (BufferEvent.sectionFeed (feed.openSection (sectionLength
      (feed.sec.secbufBase.shift feed.sec.secbuf)))).Sound copied := by
  have hthree := three_le_sectionLength (feed.sec.secbufBase.shift feed.sec.secbuf)
  have hann := sectionLength_shift feed.sec.secbufBase feed.sec.secbuf
    (sectionLength (feed.sec.secbufBase.shift feed.sec.secbuf)) hthree
  generalize sectionLength (feed.sec.secbufBase.shift feed.sec.secbuf) = seclen at *
  refine ⟨h.pointer,?_,h.length_eq,?_,hann⟩
  · change feed.sec.secbufp + seclen ≤ feed.sec.tsfeedp
    omega
  · change feed.sec.secbufBase.slice feed.sec.secbuf seclen = (copied.drop feed.sec.secbufp).take seclen
    rw [← h.bytes,Mem.drop_slice _ _ _ _ h.cursor,Mem.take_slice _ _ _ _ (by omega),Nat.zero_add,
      h.pointer]

theorem HoldsCopied.dump (h : HoldsCopied feed copied) (fuel : Nat) :
    (∀ c ∈ dumpCalls feed.sec.tsfeedp fuel feed, (BufferEvent.sectionFeed c).Sound copied) ∧
      HoldsCopied (dumpSections feed.sec.tsfeedp fuel feed).1 copied := by
  induction fuel generalizing feed with
  | zero => exact ⟨by simp [dumpCalls],h⟩
  | succ fuel ih =>
    rw [dumpCalls,dumpSections]
    split
    · dsimp only
      split
      · exact ⟨by simp,h⟩
      · next hok =>
        simp only [not_or,Nat.not_lt,Nat.not_le] at hok
        obtain ⟨-,-,hfit⟩ := hok
        have hcall := h.openSection hfit
        generalize sectionLength (feed.sec.secbufBase.shift feed.sec.secbuf) = seclen at hfit hcall ⊢
        have hround := dumpSection_spec feed (feed.sec.secbufBase.slice feed.sec.secbufp seclen) h.pointer
          (by rw [Mem.length_slice])
        rw [Mem.length_slice] at hround
        have hnext : HoldsCopied (dumpSection feed seclen).1 copied :=
          (h.cursorAt (by omega)).of_core hround.1
        have hlimit : (dumpSection feed seclen).1.sec.tsfeedp = feed.sec.tsfeedp := by
          rw [hnext.length_eq,h.length_eq]
        obtain ⟨hcalls,hholds⟩ := ih hnext
        rw [hlimit] at hcalls hholds
        refine ⟨?_,hholds⟩
        intro c hc
        rcases mem_append.mp hc with hfirst | hrest
        · split at hfirst
          · rw [mem_singleton.mp hfirst]
            exact hcall
          · exact absurd hfirst not_mem_nil
        · exact hcalls c hrest
    · exact ⟨by simp,h⟩

theorem foldl_calls (copied : List UInt8) (calls : List DvbDemuxFeed) :
    (calls.map BufferEvent.sectionFeed).foldl copiedNext copied = copied := by
  induction calls with
  | nil => rfl
  | cons c calls ih => exact ih

theorem accepts_calls {calls : List DvbDemuxFeed} (hsound : ∀ c ∈ calls, (BufferEvent.sectionFeed c).Sound copied) :
    Accepts copiedNext BufferEvent.Sound copied (calls.map .sectionFeed) := by
  induction calls with
  | nil => trivial
  | cons c calls ih =>
    exact ⟨hsound c mem_cons_self,ih fun d hd => hsound d (mem_cons_of_mem _ hd)⟩

theorem HoldsCopied.store (h : HoldsCopied feed copied) (bytes : List UInt8)
    (hfit : feed.sec.tsfeedp + bytes.length ≤ dmxMaxSecfeedSize) :
    HoldsCopied ((feed.store bytes).cursorAt feed.sec.secbufp) (copied ++ bytes) := by
  refine ⟨h.section_type,Nat.le_trans h.cursor (Nat.le_add_right _ _),hfit,rfl,?_⟩
  have happend := Mem.slice_write_append feed.sec.secbufBase 0 feed.sec.tsfeedp bytes
  rw [Nat.zero_add,h.bytes] at happend
  exact happend

theorem HoldsCopied.copyDump (h : HoldsCopied feed copied) (tsp : Mem UInt8) (off len : Nat) (hoff : off + len ≤ 188) :
    Accepts copiedNext BufferEvent.Sound copied (copyDumpEvents feed tsp off len) ∧
      HoldsCopied (dvbDmxSwfilterSectionCopyDump feed (tsp.shift off) len).1
        ((copyDumpEvents feed tsp off len).foldl copiedNext copied) := by
  unfold copyDumpEvents dvbDmxSwfilterSectionCopyDump copyDumpCalls
  dsimp only
  split
  · exact ⟨trivial,h⟩
  next hroom =>
  have hlen : (if feed.sec.tsfeedp + len > dmxMaxSecfeedSize then dmxMaxSecfeedSize - feed.sec.tsfeedp
      else len) ≤ len ∧ feed.sec.tsfeedp + (if feed.sec.tsfeedp + len > dmxMaxSecfeedSize
        then dmxMaxSecfeedSize - feed.sec.tsfeedp else len) ≤ dmxMaxSecfeedSize := by
    split
    · omega
    · omega
  generalize (if feed.sec.tsfeedp + len > dmxMaxSecfeedSize then dmxMaxSecfeedSize - feed.sec.tsfeedp
    else len) = len' at hlen ⊢
  split
  · exact ⟨trivial,h⟩
  have hbytes : ((tsp.shift off).slice 0 len').length = len' := Mem.length_slice _ _ _
  generalize (tsp.shift off).slice 0 len' = bytes at hbytes ⊢
  have hstored := h.store bytes (by omega)
  have hsize : ¬ (feed.store bytes).sec.tsfeedp > dmxMaxSecfeedSize := Nat.not_lt.mpr hstored.size
  rw [if_neg hsize,if_neg hsize]
  obtain ⟨hcalls,hholds⟩ := hstored.dump (feed.store bytes).sec.tsfeedp
  refine ⟨⟨?_,⟨h.length_eq,?_⟩,accepts_calls hcalls⟩,?_⟩
  · change off + len' ≤ 188
    omega
  · omega
  · change HoldsCopied _ ((List.map _ _).foldl copiedNext (copied ++ bytes))
    rw [foldl_calls]
    exact hholds

theorem accepts_reads {reads : List BufferEvent}
    (hreads : ∀ e ∈ reads, ∃ off, off < 188 ∧ e = .readPacket off 1) (copied : List UInt8) :
    Accepts copiedNext BufferEvent.Sound copied reads ∧ reads.foldl copiedNext copied = copied := by
  induction reads with
  | nil => exact ⟨trivial,rfl⟩
  | cons e reads ih =>
    obtain ⟨off,hoff,rfl⟩ := hreads e mem_cons_self
    obtain ⟨haccept,hfold⟩ := ih fun d hd => hreads d (mem_cons_of_mem _ hd)
    exact ⟨⟨hoff,haccept⟩,hfold⟩

theorem payloadEvents_reads (tsp : Mem UInt8) : ∀ e ∈ payloadEvents tsp, ∃ off, off < 188 ∧ e = .readPacket off 1 := by
  unfold payloadEvents
  split
  · simp
  split
  · simp
  · simp

theorem counterEvents_reads (buf : Mem UInt8) : ∀ e ∈ counterEvents buf, ∃ off, off < 188 ∧ e = .readPacket off 1 := by
  unfold counterEvents
  split
  · split
    · simp
    · simp
  · simp

theorem HoldsCopied.sync (h : HoldsCopied feed copied) (buf : Mem UInt8) :
    Accepts copiedNext BufferEvent.Sound copied (sectionSyncEvents feed buf) ∧
      HoldsCopied (sectionPacketSync feed buf) ((sectionSyncEvents feed buf).foldl copiedNext copied) := by
  obtain ⟨hreads,hfold⟩ := accepts_reads (counterEvents_reads buf) copied
  unfold sectionSyncEvents sectionPacketSync
  dsimp only
  rw [accepts_append,foldl_append,hfold]
  split
  · exact ⟨⟨hreads,trivial,trivial⟩,holdsCopied_sectionNew h.section_type⟩
  · exact ⟨⟨hreads,trivial⟩,h.section_type,h.cursor,h.size,h.pointer,h.bytes⟩

theorem HoldsCopied.boundary (h : HoldsCopied feed copied) (buf : Mem UInt8) (p beforeLen afterLen : Nat)
    (hfit : p + 1 + beforeLen + afterLen ≤ 188) :
    Accepts copiedNext BufferEvent.Sound copied (sectionBoundaryEvents feed buf p beforeLen afterLen) ∧
      HoldsCopied (sectionBoundary feed (buf.shift (p + 1)) beforeLen (buf.shift (p + 1 + beforeLen))
        afterLen).1 ((sectionBoundaryEvents feed buf p beforeLen afterLen).foldl copiedNext copied) := by
  unfold sectionBoundaryEvents sectionBoundary
  obtain ⟨hbefore,hmid⟩ := h.copyDump buf (p + 1) beforeLen (by omega)
  obtain ⟨hafter,hend⟩ := hmid.startSection.copyDump buf (p + 1 + beforeLen) afterLen hfit
  constructor
  · refine ⟨?_,(accepts_append _ _ _).mpr ⟨hbefore,trivial,hafter⟩⟩
    change p + 1 ≤ 188
    omega
  · rw [foldl_cons,foldl_append,foldl_cons]
    exact hend

theorem payload_le (buf : Mem UInt8) : payload buf ≤ 184 := by
  unfold payload
  split
  · omega
  split
  · split
    · omega
    · omega
  · omega

theorem HoldsCopied.packet (h : HoldsCopied feed copied) (buf : Mem UInt8) :
    Accepts copiedNext BufferEvent.Sound copied (sectionPacketEvents feed buf) ∧
      HoldsCopied (dvbDmxSwfilterSectionPacket feed buf).1
        ((sectionPacketEvents feed buf).foldl copiedNext copied) := by
  obtain ⟨hpayload,hfold⟩ := accepts_reads (payloadEvents_reads buf) copied
  obtain ⟨hsync,hsynced⟩ := h.sync buf
  have hcount := payload_le buf
  unfold sectionPacketEvents dvbDmxSwfilterSectionPacket
  dsimp only
  rw [accepts_append,foldl_append,hfold]
  split
  · exact ⟨⟨hpayload,trivial⟩,h⟩
  next hpos =>
  rw [accepts_append,foldl_append]
  generalize (sectionSyncEvents feed buf).foldl copiedNext copied = copied' at hsynced ⊢
  have hhead : (BufferEvent.readPacket 1 1).Sound copied' := (by decide : 1 + 1 ≤ 188)
  split
  · have hpointer : ∀ e ∈ (if payload buf > 1 then [BufferEvent.readPacket (188 - payload buf) 1] else []),
        ∃ off, off < 188 ∧ e = .readPacket off 1 := by
      split
      · intro e he
        exact ⟨_,by omega,mem_singleton.mp he⟩
      · simp
    obtain ⟨hread,hfold'⟩ := accepts_reads hpointer copied'
    rw [accepts_cons,foldl_cons,accepts_append,foldl_append]
    rw [show copiedNext copied' (.readPacket 1 1) = copied' from rfl,hfold']
    generalize (if payload buf > 1 then [BufferEvent.readPacket (188 - payload buf) 1] else []) = reads
      at hread ⊢
    split
    · next hin =>
      have hshift : (buf.shift (188 - payload buf + 1)).shift (buf (188 - payload buf)).toNat =
          buf.shift (188 - payload buf + 1 + (buf (188 - payload buf)).toNat) := by
        funext i
        simp [Mem.shift,Nat.add_assoc]
      obtain ⟨hboundary,hend⟩ := hsynced.boundary buf (188 - payload buf)
        (buf (188 - payload buf)).toNat (payload buf - 1 - (buf (188 - payload buf)).toNat) (by omega)
      rw [hshift]
      exact ⟨⟨hpayload,hsync,hhead,hread,hboundary⟩,hend⟩
    · exact ⟨⟨hpayload,hsync,hhead,hread,trivial⟩,hsynced⟩
  · obtain ⟨hcopy,hend⟩ := hsynced.copyDump buf (188 - payload buf) (payload buf) (by omega)
    exact ⟨⟨hpayload,hsync,hhead,hcopy⟩,hend⟩

end Holds

/-! ## Runs -/

theorem packetType_of_payload {feed : DvbDemuxFeed} (hf : Filtering feed) (wtd : Bool) {tsp : TsPacket}
    (hpayload : payload tsp.mem ≠ 0) :
    (dvbDmxSwfilterPacketType wtd feed tsp).1 = (dvbDmxSwfilterSectionPacket feed tsp.mem).1 := by
  rw [packetType_eq hf wtd hpayload,sectionPacket_eq feed hpayload]
  dsimp only
  split
  · rfl
  · rfl

theorem packet_kept (wtd : Bool) {feed : DvbDemuxFeed} {copied : List UInt8} (h : HoldsCopied feed copied)
    {tsp : TsPacket} (hok : NoRewind feed (.packet tsp)) :
    Accepts copiedNext BufferEvent.Sound copied (opEvents feed (.packet tsp)) ∧
      HoldsCopied (feedOp wtd feed (.packet tsp)).1 ((opEvents feed (.packet tsp)).foldl copiedNext copied) := by
  unfold feedOp opEvents
  dsimp only
  by_cases hfil : feed.sec.isFiltering = true
  · rw [if_pos ⟨h.section_type,hfil⟩]
    obtain ⟨haccept,hholds⟩ := h.packet tsp.mem
    by_cases hpayload : payload tsp.mem = 0
    · rw [packetType_of_payload_eq_zero ⟨h.section_type,hfil⟩ wtd hpayload]
      have hnone : dvbDmxSwfilterSectionPacket feed tsp.mem = (feed, [], -1) := by
        simp [dvbDmxSwfilterSectionPacket,hpayload]
      have hzero : feed.sec.secbufp = 0 := hok tsp rfl hfil hpayload
      rw [hnone] at hholds
      exact ⟨haccept,hholds.section_type,Nat.zero_le _,hholds.size,hholds.pointer.trans hzero,hholds.bytes⟩
    · rw [packetType_of_payload ⟨h.section_type,hfil⟩ wtd hpayload]
      exact ⟨haccept,hholds⟩
  · rw [if_neg (fun hon => hfil hon.2)]
    have hidle : dvbDmxSwfilterPacketType wtd feed tsp = (feed, []) := by
      simp [dvbDmxSwfilterPacketType,h.section_type,hfil]
    rw [hidle]
    exact ⟨trivial,h⟩

theorem start_kept {feed : DvbDemuxFeed} {copied : List UInt8} (h : HoldsCopied feed copied) (startFeed : Option Int) :
    Accepts copiedNext BufferEvent.Sound copied (opEvents feed (.startFiltering startFeed)) ∧
      HoldsCopied (dmxSectionFeedStartFiltering feed startFeed).1
        ((opEvents feed (.startFiltering startFeed)).foldl copiedNext copied) := by
  have hnew := holdsCopied_sectionNew h.section_type
  unfold opEvents dmxSectionFeedStartFiltering
  dsimp only
  by_cases hidle : feed.sec.isFiltering = true
  · rw [if_pos (.inl hidle),if_pos hidle]
    exact ⟨trivial,h⟩
  rw [if_neg hidle]
  by_cases hempty : feed.filter.isEmpty = true
  · rw [if_pos (.inr hempty),if_pos hempty]
    exact ⟨trivial,h⟩
  rw [if_neg hempty,if_neg (not_or.mpr ⟨hidle,hempty⟩)]
  refine ⟨⟨trivial,trivial⟩,?_⟩
  cases startFeed with
  | none => exact hnew
  | some ret =>
    dsimp only
    split
    · exact ⟨hnew.section_type,hnew.cursor,hnew.size,hnew.pointer,hnew.bytes⟩
    · exact ⟨hnew.section_type,hnew.cursor,hnew.size,hnew.pointer,hnew.bytes⟩

theorem bufferStep_kept (wtd : Bool) (feed : DvbDemuxFeed) (copied : List UInt8) (op : FeedOp)
    (h : HoldsCopied feed copied) (hok : NoRewind feed op) :
    Accepts copiedNext BufferEvent.Sound copied (bufferStep wtd feed op).2 ∧
      HoldsCopied (bufferStep wtd feed op).1 ((bufferStep wtd feed op).2.foldl copiedNext copied) := by
  have hop : Accepts copiedNext BufferEvent.Sound copied (opEvents feed op) ∧
      HoldsCopied (feedOp wtd feed op).1 ((opEvents feed op).foldl copiedNext copied) := by
    cases op with
    | packet tsp => exact packet_kept wtd h hok
    | startFiltering startFeed => exact start_kept h startFeed
    | set pid checkCrc =>
      refine ⟨trivial,?_⟩
      change HoldsCopied (dmxSectionFeedSet feed pid checkCrc).1 copied
      unfold dmxSectionFeedSet
      split
      · exact h
      · exact ⟨h.section_type,h.cursor,h.size,h.pointer,h.bytes⟩
    | allocateFilter filter =>
      refine ⟨trivial,?_⟩
      cases filter with
      | none => exact h
      | some f => exact ⟨h.section_type,h.cursor,h.size,h.pointer,h.bytes⟩
    | stopFiltering stopFeed =>
      refine ⟨trivial,?_⟩
      cases stopFeed with
      | none => exact h
      | some ret => exact ⟨h.section_type,h.cursor,h.size,h.pointer,h.bytes⟩
  unfold bufferStep
  rw [accepts_append,foldl_append]
  exact ⟨⟨hop.1,hop.2.returned,trivial⟩,hop.2⟩

theorem noRewind_of_accepts (wtd : Bool) (feed : DvbDemuxFeed) (copied : List UInt8) (op : FeedOp)
    (h : HoldsCopied feed copied)
    (haccept : Accepts copiedNext BufferEvent.Sound copied (bufferStep wtd feed op).2) :
    NoRewind feed op := by
  rintro tsp rfl hfil hpayload
  unfold bufferStep at haccept
  rw [accepts_append] at haccept
  obtain ⟨-,⟨-,-,hpointer⟩,-⟩ := haccept
  have hrewind : (feedOp wtd feed (.packet tsp)).1 = feed.rewind :=
    congrArg Prod.fst (packetType_of_payload_eq_zero ⟨h.section_type,hfil⟩ wtd hpayload)
  rw [hrewind] at hpointer
  exact h.pointer.symm.trans hpointer

theorem holdsCopied_allocated {old : DvbDemuxFeed} (hfree : old.state = .free)
    (callback : Nat → List UInt8 → Int) : HoldsCopied (dvbdmxAllocateSectionFeed old callback).1 [] := by
  simp only [dvbdmxAllocateSectionFeed,hfree]
  exact ⟨rfl,Nat.le_refl _,Nat.zero_le _,rfl,rfl⟩

/-- In every history of a section feed all accesses are in bounds, sections are slices of the copied bytes and
the cursors are in order after every call, if and only if no packet without payload comes when the dump cursor
has passed a section. -/
theorem sectionBuffer_sound_iff (wtd : Bool) (old : DvbDemuxFeed) (callback : Nat → List UInt8 → Int)
    (hfree : old.state = .free) (ops : List FeedOp) :
    Accepts copiedNext BufferEvent.Sound []
        (runTrace (bufferStep wtd) (dvbdmxAllocateSectionFeed old callback).1 ops).2 ↔
      StepsMeet (bufferStep wtd) NoRewind (dvbdmxAllocateSectionFeed old callback).1 ops :=
  runTrace_accepts_iff HoldsCopied (bufferStep_kept wtd) (noRewind_of_accepts wtd)
    (holdsCopied_allocated hfree callback) ops

/-- A feed is started and gets a section of three bytes and then a packet with the given flags and no section
start. -/
def sectionThen (b3 : UInt8) : List FeedOp :=
  [.set 0x12 false, .allocateFilter (some ⟨fun _ => 0, fun _ => 0, fun _ => 0, fun _ => 0, fun _ => 0, false, 0⟩),
    .startFiltering (some 0), .packet (stuffedPacket 0x40 0x30 0 [0, 0, 0, 0] (by decide)),
    .packet (stuffedPacket 0 b3 0 [0xff] (by decide))]

theorem sectionBuffer_sound_stuffing : zeroFeed.state = .free ∧ Accepts copiedNext BufferEvent.Sound []
      (runTrace (bufferStep false) (dvbdmxAllocateSectionFeed zeroFeed fun _ _ => 0).1 (sectionThen 0x31)).2 := by
  refine ⟨rfl, (sectionBuffer_sound_iff false zeroFeed (fun _ _ => 0) rfl (sectionThen 0x31)).mpr ?_⟩
  refine ⟨?_, ?_, ?_, ?_, ?_, trivial⟩ <;> rintro tsp heq hfil hpayload
  · cases heq
  · cases heq
  · cases heq
  · cases heq
    exact absurd hpayload (by decide)
  · cases heq
    exact absurd hpayload (by decide)

/-- A packet without payload behind the section leaves `secbufp` at 0 and `secbuf` at 3. -/
theorem sectionBuffer_unsound : ¬ Accepts copiedNext BufferEvent.Sound []
      (runTrace (bufferStep false) (dvbdmxAllocateSectionFeed zeroFeed fun _ _ => 0).1 (sectionThen 0x20)).2 := by
  intro haccept
  have hmeet := (runTrace_accepts_iff HoldsCopied (bufferStep_kept false) (noRewind_of_accepts false)
    (holdsCopied_allocated rfl fun _ _ => 0) (sectionThen 0x20)).mp haccept
  obtain ⟨-, -, -, -, hlast, -⟩ := hmeet
  exact absurd (hlast _ rfl (by decide +kernel) (by decide)) (by decide +kernel)

end LinuxDvb.Demux
