import LinuxDvb.DvbCore.Demux.Swfilter

/-!
# Sections in the feed buffer

A buffer that holds whole sections followed by an incomplete or padded rest determines what the dump loop of
`dvb_dmx_swfilter_section_copy_dump` hands on.
-/

namespace LinuxDvb.Demux

def announcedLength (bs : List UInt8) : Nat := sectionLength fun i => bs.getD i 0

def IsSection (s : List UInt8) : Prop :=
  3 ≤ s.length ∧ s.length ≤ dmxMaxSectionSize ∧ announcedLength s = s.length

instance (s : List UInt8) : Decidable (IsSection s) := inferInstanceAs (Decidable (_ ∧ _ ∧ _))

/-- Bytes at which the dump loop stops: no header, an impossible length, or a missing end. -/
def Stalled (w : List UInt8) : Prop :=
  w.length < 3 ∨ announcedLength w > dmxMaxSectionSize ∨ announcedLength w > w.length

/-- The sections handed to `dvb_dmx_swfilter_section_feed`. -/
def handed (events : List DemuxEvent) : List (List UInt8) :=
  events.filterMap fun
    | .sectionFeed bytes => some bytes
    | _ => none

def delivered (events : List DemuxEvent) : List (List UInt8) :=
  events.filterMap fun
    | .cbSec _ bytes => some bytes
    | _ => none

@[simp] theorem handed_nil : handed [] = [] := rfl

@[simp] theorem handed_append (xs ys : List DemuxEvent) : handed (xs ++ ys) = handed xs ++ handed ys := by
  simp [handed]

@[simp] theorem delivered_nil : delivered [] = [] := rfl

@[simp] theorem delivered_append (xs ys : List DemuxEvent) : delivered (xs ++ ys) = delivered xs ++ delivered ys := by
  simp [delivered]

/-- A feed without the fields `seclen` and `crc_val`, which only `section_feed` reads. -/
def DvbDemuxFeed.core (feed : DvbDemuxFeed) : DvbDemuxFeed :=
  { feed with sec := { feed.sec with seclen := 0, crcVal := 0 } }

theorem three_le_sectionLength (buf : Mem UInt8) : 3 ≤ sectionLength buf := by
  unfold sectionLength
  omega

theorem announcedLength_append (xs ys : List UInt8) (h : 3 ≤ xs.length) :
    announcedLength (xs ++ ys) = announcedLength xs := by
  simp only [announcedLength,sectionLength]
  rw [List.getD_append _ _ _ _ (by omega),List.getD_append _ _ _ _ (by omega)]

theorem sectionLength_shift (m : Mem UInt8) (off len : Nat) (h : 3 ≤ len) :
    sectionLength (m.shift off) = announcedLength (m.slice off len) := by
  simp only [announcedLength,sectionLength,Mem.shift_apply,getD_eq_getElem?_getD]
  rw [Mem.getElem?_slice _ _ _ _ (by omega),Mem.getElem?_slice _ _ _ _ (by omega)]
  rfl

theorem IsSection.length_pos {s : List UInt8} (h : IsSection s) : 0 < s.length := by
  have := h.1
  omega

theorem exists_sections (w : List UInt8) : ∃ (full : List (List UInt8)) (tail : List UInt8), w = full.flatten ++ tail ∧
      (∀ s ∈ full, IsSection s) ∧ Stalled tail := by
  induction hn : w.length using Nat.strongRecOn generalizing w with
  | ind n ih =>
    by_cases hw : Stalled w
    · exact ⟨[],w,rfl,by simp,hw⟩
    · simp only [Stalled,not_or,Nat.not_lt] at hw
      obtain ⟨h3,hmax,hlen⟩ := hw
      have hpos := three_le_sectionLength fun i => w.getD i 0
      change 3 ≤ announcedLength w at hpos
      obtain ⟨full,tail,heq,hfull,htail⟩ := ih (w.drop (announcedLength w)).length
        (by simp only [length_drop]; omega) _ rfl
      refine ⟨w.take (announcedLength w) :: full,tail,?_,?_,htail⟩
      · rw [flatten_cons,append_assoc,← heq,take_append_drop]
      · intro s hs
        rcases mem_cons.mp hs with rfl | hs
        · have hlen' : (w.take (announcedLength w)).length = announcedLength w := by
            simp only [length_take]
            omega
          refine ⟨by omega,by omega,?_⟩
          rw [hlen',← announcedLength_append _ (w.drop (announcedLength w)) (by omega),
            take_append_drop]
        · exact hfull s hs

@[simp] theorem handed_sectionFeed (b : List UInt8) (es : List DemuxEvent) :
    handed (.sectionFeed b :: es) = b :: handed es := rfl

@[simp] theorem handed_cbSec (k : Nat) (b : List UInt8) (es : List DemuxEvent) :
    handed (.cbSec k b :: es) = handed es := rfl

@[simp] theorem delivered_sectionFeed (b : List UInt8) (es : List DemuxEvent) :
    delivered (.sectionFeed b :: es) = delivered es := rfl

@[simp] theorem delivered_cbSec (k : Nat) (b : List UInt8) (es : List DemuxEvent) :
    delivered (.cbSec k b :: es) = b :: delivered es := rfl

theorem sectionfilterLoop_events (feed : DvbDemuxFeed) (fs : List DvbDemuxFilter) :
    handed (sectionfilterLoop feed fs).2 = [] ∧
      ∀ b ∈ delivered (sectionfilterLoop feed fs).2,
        b = feed.sec.secbufBase.slice feed.sec.secbuf feed.sec.seclen := by
  induction fs with
  | nil => simp [sectionfilterLoop]
  | cons f fs ih =>
    have hone : handed (dvbDmxSwfilterSectionfilter feed f).2 = [] ∧
        ∀ b ∈ delivered (dvbDmxSwfilterSectionfilter feed f).2,
          b = feed.sec.secbufBase.slice feed.sec.secbuf feed.sec.seclen := by
      unfold dvbDmxSwfilterSectionfilter
      split <;> simp
    simp only [sectionfilterLoop]
    split
    · exact hone
    · simp only [handed_append,delivered_append,mem_append,hone.1,ih.1,append_nil,true_and]
      exact fun b hb => hb.elim (hone.2 b) (ih.2 b)

private theorem sectionCheckCrc_core (feed : DvbDemuxFeed) (bytes : List UInt8) :
    (sectionCheckCrc feed bytes).2.core = feed.core ∧
      (sectionCheckCrc feed bytes).2.sec.seclen = feed.sec.seclen := by
  simp only [sectionCheckCrc,dvbDmxCrc32]
  split <;> exact ⟨rfl,rfl⟩

theorem sectionFeed_spec (feed : DvbDemuxFeed) : (dvbDmxSwfilterSectionFeed feed).1.core = feed.core ∧
      handed (dvbDmxSwfilterSectionFeed feed).2 =
        [feed.sec.secbufBase.slice feed.sec.secbuf feed.sec.seclen] ∧
      ∀ b ∈ delivered (dvbDmxSwfilterSectionFeed feed).2,
        b = feed.sec.secbufBase.slice feed.sec.secbuf feed.sec.seclen := by
  unfold dvbDmxSwfilterSectionFeed
  dsimp only
  split
  · simp
  split
  · simp
  generalize hbytes : feed.sec.secbufBase.slice feed.sec.secbuf feed.sec.seclen = bytes
  obtain ⟨hcore,hlen⟩ := sectionCheckCrc_core feed bytes
  split
  · simp [hcore]
  generalize hcrc : (sectionCheckCrc feed bytes).2 = feed' at hcore hlen ⊢
  obtain ⟨hnone,hall⟩ := sectionfilterLoop_events feed' feed'.filter
  have hslice : feed'.sec.secbufBase.slice feed'.sec.secbuf feed'.sec.seclen = bytes := by
    have h1 := congrArg (fun f => f.sec.secbufBase) hcore
    have h2 := congrArg (fun f => f.sec.secbuf) hcore
    simp only [DvbDemuxFeed.core] at h1 h2
    rw [h1,h2,hlen,hbytes]
  rw [hslice] at hall
  refine ⟨?_,by simp [hnone],by simpa using hall⟩
  split
  · rw [← hcore]
    rfl
  · exact hcore

theorem DvbDemuxFeed.core_congr {β : Type} {a b : DvbDemuxFeed} (h : a.core = b.core)
    (g : DvbDemuxFeed → β) (hg : ∀ f : DvbDemuxFeed, g f.core = g f) : g a = g b := by
  rw [← hg a,h,hg]

private theorem core_skipSection {a b : DvbDemuxFeed} (h : a.core = b.core)
    (hsec : b.sec.secbuf = b.sec.secbufp) (n : Nat) :
    (a.skipSection n).core = (b.cursorAt (b.sec.secbufp + n)).core := by
  have hcore := congrArg (fun f => f.cursorAt (b.sec.secbufp + n)) h
  have hp := DvbDemuxFeed.core_congr h (fun f => f.sec.secbufp) fun _ => rfl
  have hb := DvbDemuxFeed.core_congr h (fun f => f.sec.secbuf) fun _ => rfl
  unfold DvbDemuxFeed.skipSection
  rw [hp,hb,hsec]
  exact hcore

theorem dumpSection_spec (feed : DvbDemuxFeed) (s : List UInt8) (hsec : feed.sec.secbuf = feed.sec.secbufp)
    (hbytes : feed.sec.secbufBase.slice feed.sec.secbufp s.length = s) :
    (dumpSection feed s.length).1.core = (feed.cursorAt (feed.sec.secbufp + s.length)).core ∧
      handed (dumpSection feed s.length).2 = (if feed.pusiSeen then [s] else []) ∧
      ∀ b ∈ delivered (dumpSection feed s.length).2, b = s ∧ feed.pusiSeen = true := by
  have hopen : (feed.openSection s.length).core = feed.core := rfl
  have hpusi : (feed.openSection s.length).pusiSeen = feed.pusiSeen := rfl
  have hslice : (feed.openSection s.length).sec.secbufBase.slice
      (feed.openSection s.length).sec.secbuf (feed.openSection s.length).sec.seclen = s := by
    change feed.sec.secbufBase.slice feed.sec.secbuf s.length = s
    rw [hsec,hbytes]
  simp only [dumpSection,hpusi]
  by_cases hp : feed.pusiSeen = true
  · obtain ⟨hcore,hhand,hdel⟩ := sectionFeed_spec (feed.openSection s.length)
    rw [hslice] at hhand hdel
    rw [if_pos hp,if_pos hp]
    exact ⟨core_skipSection (hcore.trans hopen) hsec _,hhand,fun b hb => ⟨hdel b hb,hp⟩⟩
  · rw [if_neg hp,if_neg hp]
    exact ⟨core_skipSection hopen hsec _,rfl,by simp⟩

private theorem stalled_stop {feed : DvbDemuxFeed} {limit : Nat} {tail : List UInt8}
    (hsec : feed.sec.secbuf = feed.sec.secbufp)
    (hw : feed.sec.secbufBase.slice feed.sec.secbufp (limit - feed.sec.secbufp) = tail)
    (htail : Stalled tail) (fuel : Nat) : dumpSections limit fuel feed = (feed, []) := by
  cases fuel with
  | zero => rfl
  | succ fuel =>
    have hlen : limit - feed.sec.secbufp = tail.length := by
      rw [← hw,Mem.length_slice]
    simp only [dumpSections]
    by_cases hroom : feed.sec.secbufp + 2 < limit
    · rw [if_pos hroom,if_pos]
      rw [hsec,sectionLength_shift _ _ (limit - feed.sec.secbufp) (by omega),hw]
      rcases htail with h | h | h <;> omega
    · rw [if_neg hroom]

/-- The dump loop hands on exactly the whole sections in front of the cursor, if the feed is
synchronised, and leaves the cursor behind them. -/
theorem dumpSections_spec (limit fuel : Nat) (feed : DvbDemuxFeed) (full : List (List UInt8))
    (tail : List UInt8) (hsec : feed.sec.secbuf = feed.sec.secbufp) (hle : feed.sec.secbufp ≤ limit)
    (hw : feed.sec.secbufBase.slice feed.sec.secbufp (limit - feed.sec.secbufp) = full.flatten ++ tail)
    (hfull : ∀ s ∈ full, IsSection s) (htail : Stalled tail) (hfuel : full.length ≤ fuel) :
    (dumpSections limit fuel feed).1.core =
        (feed.cursorAt (feed.sec.secbufp + full.flatten.length)).core ∧
      handed (dumpSections limit fuel feed).2 = (if feed.pusiSeen then full else []) ∧
      ∀ b ∈ delivered (dumpSections limit fuel feed).2, b ∈ full ∧ feed.pusiSeen = true := by
  induction full generalizing fuel feed with
  | nil =>
    rw [stalled_stop hsec (by simpa using hw) htail]
    refine ⟨?_,by simp,by simp⟩
    simp [DvbDemuxFeed.cursorAt,DvbDemuxFeed.core,← hsec]
  | cons s full ih =>
    obtain ⟨fuel,rfl⟩ : ∃ k, fuel = k + 1 := ⟨fuel - 1,by simp at hfuel; omega⟩
    have hs := hfull s (by simp)
    have hlen := congrArg List.length hw
    simp only [Mem.length_slice,flatten_cons,length_append] at hlen
    have h3 := hs.1
    -- the header read through `secbuf` announces `s`
    have hann : sectionLength (feed.sec.secbufBase.shift feed.sec.secbuf) = s.length := by
      rw [hsec,sectionLength_shift _ _ (limit - feed.sec.secbufp) (by omega),hw,flatten_cons,
        append_assoc,announcedLength_append _ _ h3,hs.2.2]
    have hbytes : feed.sec.secbufBase.slice feed.sec.secbufp s.length = s := by
      rw [← Mem.take_slice _ _ (limit - feed.sec.secbufp) _ (by omega),hw,flatten_cons,
        append_assoc,take_left]
    simp only [dumpSections,hann]
    rw [if_pos (by omega),if_neg (by have := hs.2.1; omega)]
    obtain ⟨hcore3,hrhand,hrdel⟩ := dumpSection_spec feed s hsec hbytes
    generalize dumpSection feed s.length = r at hcore3 hrhand hrdel ⊢
    have hp3 : r.1.sec.secbufp = feed.sec.secbufp + s.length :=
      DvbDemuxFeed.core_congr hcore3 (fun f => f.sec.secbufp) fun _ => rfl
    have hb3 : r.1.sec.secbuf = feed.sec.secbufp + s.length :=
      DvbDemuxFeed.core_congr hcore3 (fun f => f.sec.secbuf) fun _ => rfl
    have hbase3 : r.1.sec.secbufBase = feed.sec.secbufBase :=
      DvbDemuxFeed.core_congr hcore3 (fun f => f.sec.secbufBase) fun _ => rfl
    have hpusi3 : r.1.pusiSeen = feed.pusiSeen :=
      DvbDemuxFeed.core_congr hcore3 (fun f => f.pusiSeen) fun _ => rfl
    obtain ⟨ih1,ih2,ih3⟩ := ih fuel r.1 (hb3.trans hp3.symm) (by omega) (by
        rw [hbase3,hp3,Nat.sub_add_eq,← Mem.drop_slice _ _ _ _ (by omega),hw,flatten_cons,
          append_assoc,drop_left])
      (fun t ht => hfull t (by simp [ht])) (by simpa using hfuel)
    refine ⟨?_,?_,?_⟩
    · rw [ih1,hp3,flatten_cons,length_append,Nat.add_assoc]
      exact congrArg (fun f => f.cursorAt (feed.sec.secbufp + (s.length + full.flatten.length))) hcore3
    · rw [handed_append,hrhand,ih2,hpusi3]
      cases feed.pusiSeen <;> simp
    · intro b hb
      rw [delivered_append,mem_append] at hb
      rcases hb with hb | hb
      · exact ⟨by simp [(hrdel b hb).1],(hrdel b hb).2⟩
      · exact ⟨mem_cons_of_mem _ (ih3 b hb).1,hpusi3 ▸ (ih3 b hb).2⟩

def DvbDemuxFeed.room (feed : DvbDemuxFeed) (len : Nat) : Nat :=
  min len (dmxMaxSecfeedSize - feed.sec.tsfeedp)

theorem copyDump_of_room_eq_zero (feed : DvbDemuxFeed) (buf : Mem UInt8) (len : Nat)
    (h : feed.room len = 0) : dvbDmxSwfilterSectionCopyDump feed buf len = (feed, []) := by
  unfold DvbDemuxFeed.room at h
  simp only [dvbDmxSwfilterSectionCopyDump]
  by_cases hfull : feed.sec.tsfeedp ≥ dmxMaxSecfeedSize
  · rw [if_pos hfull]
  · have hlen : len = 0 := by omega
    rw [if_neg hfull,if_pos (by split <;> omega)]

private theorem length_flatten_le (full : List (List UInt8)) (hfull : ∀ s ∈ full, IsSection s) :
    full.length ≤ full.flatten.length := by
  induction full with
  | nil => simp
  | cons s full ih =>
    have hs := (hfull s (by simp)).length_pos
    have hrest := ih fun t ht => hfull t (by simp [ht])
    simp only [flatten_cons,length_append,length_cons]
    omega

/-- `dvb_dmx_swfilter_section_copy_dump` stores what fits of a chunk and hands on the whole sections
between the dump cursor and the new end of the data. -/
theorem copyDump_spec (feed : DvbDemuxFeed) (buf : Mem UInt8) (len : Nat)
    (full : List (List UInt8)) (tail : List UInt8) (hcur : feed.sec.secbufp ≤ feed.sec.tsfeedp)
    (hroom : 0 < feed.room len)
    (hw : feed.sec.secbufBase.slice feed.sec.secbufp (feed.sec.tsfeedp - feed.sec.secbufp) ++
      buf.slice 0 (feed.room len) = full.flatten ++ tail)
    (hfull : ∀ s ∈ full, IsSection s) (htail : Stalled tail) :
    (dvbDmxSwfilterSectionCopyDump feed buf len).1.core =
        ((feed.store (buf.slice 0 (feed.room len))).cursorAt (feed.sec.secbufp + full.flatten.length)).core ∧
      handed (dvbDmxSwfilterSectionCopyDump feed buf len).2 = (if feed.pusiSeen then full else []) ∧
      ∀ b ∈ delivered (dvbDmxSwfilterSectionCopyDump feed buf len).2,
        b ∈ full ∧ feed.pusiSeen = true := by
  have hn : (if feed.sec.tsfeedp + len > dmxMaxSecfeedSize
      then dmxMaxSecfeedSize - feed.sec.tsfeedp else len) = feed.room len := by
    unfold DvbDemuxFeed.room at hroom ⊢
    split <;> omega
  have hmax : feed.sec.tsfeedp + feed.room len ≤ dmxMaxSecfeedSize := by
    unfold DvbDemuxFeed.room at hroom ⊢
    omega
  have hlimit : (feed.store (buf.slice 0 (feed.room len))).sec.tsfeedp =
      feed.sec.tsfeedp + feed.room len := by
    simp [DvbDemuxFeed.store]
  simp only [dvbDmxSwfilterSectionCopyDump,hn]
  rw [if_neg (by omega),if_neg (by omega),hlimit,if_neg (by omega)]
  generalize hfeed' : (feed.store (buf.slice 0 (feed.room len))).cursorAt
    (feed.store (buf.slice 0 (feed.room len))).sec.secbufp = feed'
  have hp : feed'.sec.secbufp = feed.sec.secbufp := by rw [← hfeed']; rfl
  have hb : feed'.sec.secbuf = feed.sec.secbufp := by rw [← hfeed']; rfl
  have hpusi : feed'.pusiSeen = feed.pusiSeen := by rw [← hfeed']; rfl
  have hbase : feed'.sec.secbufBase =
      feed.sec.secbufBase.write feed.sec.tsfeedp (buf.slice 0 (feed.room len)) := by
    rw [← hfeed']
    rfl
  -- the window behind the cursor is the old one followed by the chunk
  have hwin : feed'.sec.secbufBase.slice feed'.sec.secbufp
      (feed.sec.tsfeedp + feed.room len - feed'.sec.secbufp) = full.flatten ++ tail := by
    have happend := Mem.slice_write_append feed.sec.secbufBase feed.sec.secbufp
      (feed.sec.tsfeedp - feed.sec.secbufp) (buf.slice 0 (feed.room len))
    rw [hbase,hp,← hw,← happend,Mem.length_slice]
    congr 1
    · congr 1
      omega
    · omega
  have hlen := congrArg List.length hwin
  simp only [Mem.length_slice,length_append] at hlen
  obtain ⟨h1,h2,h3⟩ := dumpSections_spec _ (feed.sec.tsfeedp + feed.room len) feed' full tail
    (hb.trans hp.symm) (by omega) hwin hfull htail
    (by have := length_flatten_le full hfull; omega)
  rw [hpusi] at h2 h3
  refine ⟨?_,h2,h3⟩
  rw [h1,hp,← hfeed']
  rfl

end LinuxDvb.Demux
