import LinuxDvb.DvbCore.Dmxdev.SharedFeed

/-!
# CRC checks on shared feeds

`DMX_CHECK_CRC` is a flag of a filter, `check_crc` one of a feed, set when the feed is allocated. A filter
that joins a feed gets its sections with the check that was asked for by the filter that came first.
-/

namespace LinuxDvb.Dmxdev

open Demux Device

variable {filters feeds : Nat}

/-- Whether the parameters match the bytes at `secbuf`. -/
def DmxSctFilterParams.accepts (para : DmxSctFilterParams) (secbuf : Mem UInt8) : Bool :=
  (prepareSecfilter (para.copyTo ⟨fun _ => 0, fun _ => 0, fun _ => 0, fun _ => 0, fun _ => 0, false, 0⟩)).accepts secbuf

def WrongCrc (bytes : List UInt8) : Prop := bytes.getD 1 0 &&& 0x80 ≠ 0 ∧ crc32Be 0xffffffff bytes ≠ 0

/-- What `DMX_CHECK_CRC` means for the sections that arrive at a feed: a filter with it receives no section
with a wrong CRC, and a filter without it that waits on the feed receives the sections that match. -/
def CrcHonoured (d : Device filters feeds) : DmxdevInput filters feeds → Prop
  | .section k secbufBase secbuf =>
    let events := (d.sectionArrives k secbufBase secbuf).2
    let bytes := secbufBase.slice secbuf (sectionLength (secbufBase.shift secbuf))
    (∀ i sec, (i, .received sec) ∈ events → (d.filter i).type = .sec → (d.filter i).params.checkCrc = true →
      ¬WrongCrc sec) ∧
    ∀ i, (d.filter i).type = .sec → (d.filter i).state = .go → (d.filter i).params.checkCrc = false →
      (d.filter i).feedSec = some k → (d.feed k).sec.isFiltering = true →
      (d.filter i).reader.buffer.error = 0 → (d.filter i).params.accepts (secbufBase.shift secbuf) = true →
      (i, .received bytes) ∈ events
  | _ => True

/-- A start joins only a feed with the `check_crc` it asks for, and no section filter that an earlier start
of the filter has left hangs on a feed with another one. -/
def FeedsAgree (d : Device filters feeds) : DmxdevInput filters feeds → Prop
  | .start i _ => (d.filter i).type = .sec →
    (∀ k, d.joinedFeed i = some k → (d.feed k).sec.checkCrc = (d.filter i).params.checkCrc) ∧
      Attached d i (d.filter i).params.checkCrc
  | _ => True

instance (d : Device filters feeds) : DecidablePred (FeedsAgree d)
  | .start _ _ => inferInstanceAs (Decidable (_ → (∀ _, _) ∧ _))
  | .open => isTrue trivial
  | .setFilter _ _ _ => isTrue trivial
  | .setPesFilter _ _ _ => isTrue trivial
  | .setBufferSize _ _ _ => isTrue trivial
  | .stop _ _ => isTrue trivial
  | .close _ _ => isTrue trivial
  | .section _ _ _ => isTrue trivial
  | .timeout _ => isTrue trivial
  | .read _ _ => isTrue trivial
  | .resume _ => isTrue trivial

variable {d : Device filters feeds} {i : Fin filters} {k : Fin feeds}

theorem accepts_copyTo (para : DmxSctFilterParams) (f₀ : DvbDemuxFilter) (secbuf : Mem UInt8) :
    (prepareSecfilter (para.copyTo f₀)).accepts secbuf = para.accepts secbuf := by
  have hmask : ∀ (f f' : DvbDemuxFilter) (n : Nat),
      (prepareSecfilter (para.copyTo f)).maskandmode n &&& ((para.copyTo f).filterValue n ^^^ secbuf n) =
          (prepareSecfilter (para.copyTo f')).maskandmode n &&& ((para.copyTo f').filterValue n ^^^ secbuf n) ∧
        (prepareSecfilter (para.copyTo f)).maskandnotmode n =
          (prepareSecfilter (para.copyTo f')).maskandnotmode n ∧
        (prepareSecfilter (para.copyTo f)).maskandnotmode n &&& ((para.copyTo f).filterValue n ^^^ secbuf n) =
          (prepareSecfilter (para.copyTo f')).maskandnotmode n &&& ((para.copyTo f').filterValue n ^^^ secbuf n) := by
    intro f f' n
    by_cases h0 : n = 0
    · simp [prepareSecfilter,DmxSctFilterParams.copyTo,h0]
    · by_cases h3 : n < 3
      · simp [prepareSecfilter,DmxSctFilterParams.copyTo,h0,h3]
      · simp [prepareSecfilter,DmxSctFilterParams.copyTo,h0,h3]
  unfold DmxSctFilterParams.accepts DvbDemuxFilter.accepts
  dsimp only
  congr 2
  · congr 1
    funext n
    exact congrArg (fun b => decide (b ≠ 0)) (hmask _ _ n).1
  · congr 1
    · unfold prepareSecfilter
      dsimp only
      congr 1
      funext n
      exact congrArg (fun b => decide (b ≠ 0)) (hmask f₀ _ n).2.1
    · congr 2
      funext n
      exact congrArg (fun b => decide (b ≠ 0)) (hmask _ _ n).2.2

theorem sectionCheckCrc_snd (feed : DvbDemuxFeed) (bytes : List UInt8) :
    ∃ crc, (sectionCheckCrc feed bytes).2 = { feed with sec := { feed.sec with crcVal := crc } } := by
  unfold sectionCheckCrc
  dsimp only
  split
  · exact ⟨crc32Be feed.sec.crcVal bytes,rfl⟩
  · exact ⟨feed.sec.crcVal,rfl⟩

theorem swfilterSectionFeed_same (feed : DvbDemuxFeed) : SameFeed feed (dvbDmxSwfilterSectionFeed feed).1 := by
  unfold dvbDmxSwfilterSectionFeed
  dsimp only
  split
  · exact SameFeed.refl feed
  split
  · exact SameFeed.refl feed
  obtain ⟨crc,hcrc⟩ :=
    sectionCheckCrc_snd feed (feed.sec.secbufBase.slice feed.sec.secbuf feed.sec.seclen)
  rw [hcrc]
  have hrefl := SameFeed.refl feed
  split
  · exact ⟨Iff.rfl,rfl,rfl,rfl,hrefl.index,hrefl.prepared⟩
  · dsimp only
    split <;> exact ⟨Iff.rfl,rfl,rfl,rfl,hrefl.index,hrefl.prepared⟩

theorem sectionfilterLoop_events (feed : DvbDemuxFeed) (hcb : feed.cbSec = fun _ _ => 0) (fs : List DvbDemuxFilter) :
    (sectionfilterLoop feed fs).2 =
      (fs.filter fun f => f.accepts (feed.sec.secbufBase.shift feed.sec.secbuf)).map fun f =>
        .cbSec f.index (feed.sec.secbufBase.slice feed.sec.secbuf feed.sec.seclen) := by
  induction fs with
  | nil => rfl
  | cons f fs ih =>
    have hret : ¬(dvbDmxSwfilterSectionfilter feed f).1 < 0 := by
      unfold dvbDmxSwfilterSectionfilter
      split
      · simp [hcb]
      · simp
    unfold sectionfilterLoop
    dsimp only
    rw [if_neg hret]
    dsimp only
    rw [ih,List.filter_cons]
    unfold dvbDmxSwfilterSectionfilter
    split
    · rfl
    · rfl

/-- The callbacks of a section: one for every section filter that accepts it, unless the section is dropped
for its CRC. -/
theorem swfilterSectionFeed_callbacks {feed : DvbDemuxFeed} (hcb : feed.cbSec = fun _ _ => 0) (x : Nat)
    (sec : List UInt8) :
    .cbSec x sec ∈ (dvbDmxSwfilterSectionFeed feed).2 ↔
      feed.sec.isFiltering = true ∧
      (sectionCheckCrc feed (feed.sec.secbufBase.slice feed.sec.secbuf feed.sec.seclen)).1 = false ∧
      sec = feed.sec.secbufBase.slice feed.sec.secbuf feed.sec.seclen ∧
      ∃ f ∈ feed.filter, f.accepts (feed.sec.secbufBase.shift feed.sec.secbuf) = true ∧ f.index = x := by
  generalize hbytes : feed.sec.secbufBase.slice feed.sec.secbuf feed.sec.seclen = bytes
  obtain ⟨crc,hcrc⟩ := sectionCheckCrc_snd feed bytes
  unfold dvbDmxSwfilterSectionFeed
  dsimp only
  rw [hbytes]
  cases hfiltering : feed.sec.isFiltering with
  | false => simp
  | true =>
    rw [if_neg (by decide)]
    cases hempty : feed.filter with
    | nil => simp
    | cons g gs =>
      rw [if_neg (by simp),← hempty]
      cases hdrop : (sectionCheckCrc feed bytes).1 with
      | true => simp
      | false =>
        rw [if_neg (by decide),sectionfilterLoop_events _ (by rw [hcrc]; exact hcb),hcrc]
        dsimp only
        rw [hbytes]
        simp only [mem_cons,reduceCtorEq,false_or,mem_map,mem_filter,DemuxEvent.cbSec.injEq]
        constructor
        · intro h
          obtain ⟨f,⟨hf,hacc⟩,hx,hsec⟩ := h
          exact ⟨trivial,trivial,hsec.symm,f,hf,hacc,hx⟩
        · intro h
          obtain ⟨-,-,hsec,f,hf,hacc,hx⟩ := h
          exact ⟨f,⟨hf,hacc⟩,hx,hsec.symm⟩

theorem sectionCheckCrc_fst (d : Device filters feeds) (k : Fin feeds) (secbufBase : Mem UInt8) (secbuf : Nat) :
    (sectionCheckCrc (d.sectionFeed k secbufBase secbuf)
        (secbufBase.slice secbuf (sectionLength (secbufBase.shift secbuf)))).1 = true ↔
      (d.feed k).sec.checkCrc = true ∧
        WrongCrc (secbufBase.slice secbuf (sectionLength (secbufBase.shift secbuf))) := by
  have hbyte : (secbufBase.slice secbuf (sectionLength (secbufBase.shift secbuf))).getD 1 0 =
      secbufBase (secbuf + 1) := by
    have hlen := three_le_sectionLength (secbufBase.shift secbuf)
    rw [getD_eq_getElem?_getD,Mem.getElem?_slice _ _ _ _ (by omega)]
    rfl
  unfold WrongCrc
  rw [hbyte]
  unfold sectionCheckCrc
  dsimp only [Device.sectionFeed,DvbDemuxFeed.openSection]
  by_cases hcheck : (d.feed k).sec.checkCrc = true
  · by_cases hssi : secbufBase (secbuf + 1) &&& 0x80 = 0
    · simp [hcheck,hssi]
    · simp [hcheck,hssi,dvbDmxCrc32]
  · simp [hcheck]

theorem SharedFeeds.sectionCallback (h : SharedFeeds d) (i : Fin filters) (bytes : List UInt8) :
    SharedFeeds (d.dvbDmxdevSectionCallback i bytes).1 := by
  unfold dvbDmxdevSectionCallback
  dsimp only
  split
  · exact h
  split
  · exact h
  · rename_i hgo
    rw [ne_eq,not_not] at hgo
    have hupd := h.updFilter (i := i) (g := fun _ => { d.filter i with
      timer := false
      reader := ((d.filter i).reader.store bytes).1
      state := if (d.filter i).params.oneshot then .done else (d.filter i).state })
      fun hsec => ⟨⟨hsec.1,by rw [hgo]; rfl⟩,rfl,rfl,rfl⟩
    exact hupd.1

theorem SharedFeeds.callbacks (h : SharedFeeds d) (es : List DemuxEvent) : SharedFeeds (d.callbacks es).1 := by
  induction es generalizing d with
  | nil => exact h
  | cons e es ih =>
    cases e with
    | cbSec x bytes =>
      apply ih
      cases (d.secfilter x).priv with
      | none => exact h
      | some i => exact h.sectionCallback i bytes
    | sectionFeed bytes => exact ih h
    | cbTs feed bytes => exact ih h
    | writeToDecoder feed bytes => exact ih h

theorem sectionCallback_events (d : Device filters feeds) (i j : Fin filters) (bytes : List UInt8) :
    (d.dvbDmxdevSectionCallback i bytes).1.secfilter = d.secfilter ∧
      (((d.dvbDmxdevSectionCallback i bytes).1.filter j).state = .go → (d.filter j).state = .go) ∧
      (j ≠ i → (d.dvbDmxdevSectionCallback i bytes).1.filter j = d.filter j) ∧
      ∀ sec, (j, .received sec) ∈ (d.dvbDmxdevSectionCallback i bytes).2 ↔
        j = i ∧ sec = bytes ∧ (d.filter i).state = .go ∧ (d.filter i).reader.buffer.error = 0 := by
  unfold dvbDmxdevSectionCallback
  dsimp only
  split
  · rename_i herror
    exact ⟨rfl,id,fun _ => rfl,fun sec => by simp [herror]⟩
  rename_i herror
  rw [ne_eq,not_not] at herror
  split
  · rename_i hgo
    exact ⟨rfl,id,fun _ => rfl,fun sec => by simp [hgo]⟩
  · rename_i hgo
    rw [ne_eq,not_not] at hgo
    refine ⟨rfl,?_,fun hj => Function.update_of_ne hj _ _,?_⟩
    · intro hstate
      by_cases hj : j = i
      · rw [hj]
        exact hgo
      · rw [updFilter_of_ne _ hj] at hstate
        exact hstate
    · intro sec
      split <;> simp [hgo,herror]

theorem callback_of_received {es : List DemuxEvent} {sec : List UInt8} (h : (i, .received sec) ∈ (d.callbacks es).2) :
    (d.filter i).state = .go ∧ ∃ x, .cbSec x sec ∈ es ∧ (d.secfilter x).priv = some i := by
  induction es generalizing d with
  | nil => cases h
  | cons e es ih =>
    cases e with
    | cbSec x bytes =>
      unfold Device.callbacks at h
      dsimp only at h
      rw [mem_append] at h
      cases hpriv : (d.secfilter x).priv with
      | none =>
        rw [hpriv] at h
        obtain ⟨hgo,y,hy,hlead⟩ := ih (h.resolve_left (by simp))
        exact ⟨hgo,y,mem_cons_of_mem _ hy,hlead⟩
      | some j =>
        rw [hpriv] at h
        obtain ⟨hpool,hstate,-,hevents⟩ := sectionCallback_events d j i bytes
        cases h with
        | inl hmem =>
          obtain ⟨hij,hsec,hgo,-⟩ := (hevents sec).mp hmem
          rw [hij,hsec]
          exact ⟨hgo,x,mem_cons_self,hpriv⟩
        | inr hmem =>
          obtain ⟨hgo,y,hy,hlead⟩ := ih hmem
          rw [hpool] at hlead
          exact ⟨hstate hgo,y,mem_cons_of_mem _ hy,hlead⟩
    | sectionFeed bytes =>
      obtain ⟨hgo,y,hy,hlead⟩ := ih h
      exact ⟨hgo,y,mem_cons_of_mem _ hy,hlead⟩
    | cbTs feed bytes =>
      obtain ⟨hgo,y,hy,hlead⟩ := ih h
      exact ⟨hgo,y,mem_cons_of_mem _ hy,hlead⟩
    | writeToDecoder feed bytes =>
      obtain ⟨hgo,y,hy,hlead⟩ := ih h
      exact ⟨hgo,y,mem_cons_of_mem _ hy,hlead⟩

theorem received_of_callback {es : List DemuxEvent} {sec : List UInt8} {x : Nat}
    (hbytes : ∀ y bytes, .cbSec y bytes ∈ es → bytes = sec) (hmem : .cbSec x sec ∈ es)
    (hpriv : (d.secfilter x).priv = some i) (hgo : (d.filter i).state = .go)
    (herror : (d.filter i).reader.buffer.error = 0) : (i, .received sec) ∈ (d.callbacks es).2 := by
  induction es generalizing d with
  | nil => cases hmem
  | cons e es ih =>
    have hrest := fun y bytes hy => hbytes y bytes (mem_cons_of_mem _ hy)
    cases e with
    | cbSec y bytes =>
      have hsec : bytes = sec := hbytes y bytes mem_cons_self
      unfold Device.callbacks
      dsimp only
      rw [mem_append]
      by_cases hlead : (d.secfilter y).priv = some i
      · rw [hlead]
        exact .inl (((sectionCallback_events d i i bytes).2.2.2 sec).mpr ⟨rfl,hsec.symm,hgo,herror⟩)
      · have hne : y ≠ x := fun hyx => hlead (hyx ▸ hpriv)
        have hmem' : .cbSec x sec ∈ es := by
          cases hmem with
          | head => exact absurd rfl hne
          | tail _ h => exact h
        refine .inr ?_
        cases hother : (d.secfilter y).priv with
        | none => exact ih hrest hmem' hpriv hgo herror
        | some j =>
          have hij : i ≠ j := by
            intro hij
            rw [hij] at hlead
            exact hlead hother
          obtain ⟨hpool,-,hkeep,-⟩ := sectionCallback_events d j i bytes
          apply ih hrest hmem'
          · rw [hpool]
            exact hpriv
          · rw [hkeep hij]
            exact hgo
          · rw [hkeep hij]
            exact herror
    | sectionFeed bytes =>
      apply ih hrest ?_ hpriv hgo herror
      cases hmem with
      | tail _ h => exact h
    | cbTs feed bytes =>
      apply ih hrest ?_ hpriv hgo herror
      cases hmem with
      | tail _ h => exact h
    | writeToDecoder feed bytes =>
      apply ih hrest ?_ hpriv hgo herror
      cases hmem with
      | tail _ h => exact h

theorem SharedFeeds.sectionFeed (h : SharedFeeds d) (k : Fin feeds) (secbufBase : Mem UInt8) (secbuf : Nat) :
    SharedFeeds (d.setFeed k (dvbDmxSwfilterSectionFeed (d.sectionFeed k secbufBase secbuf)).1) := by
  have hsame := swfilterSectionFeed_same (d.sectionFeed k secbufBase secbuf)
  exact (h.setFeed ⟨hsame.live,hsame.pid,hsame.checkCrc,hsame.cbSec,hsame.index,hsame.prepared⟩).1

theorem SharedFeeds.sectionArrives (h : SharedFeeds d) (k : Fin feeds) (secbufBase : Mem UInt8) (secbuf : Nat) :
    SharedFeeds (d.sectionArrives k secbufBase secbuf).1 ∧ CrcHonoured d (.section k secbufBase secbuf) := by
  unfold CrcHonoured
  dsimp only
  generalize hbytes : secbufBase.slice secbuf (sectionLength (secbufBase.shift secbuf)) = bytes
  by_cases hfree : (d.feed k).state = .free
  · rw [Device.sectionArrives,if_pos hfree]
    refine ⟨h,(fun i sec hmem => nomatch hmem),?_⟩
    intro i htype hgo _ hfeed
    obtain ⟨l,x,f,hserved⟩ := h.served i ⟨htype,by rw [hgo]; rfl⟩
    rw [hserved.feed,Option.some.injEq] at hfeed
    exact absurd hfree (hfeed ▸ hserved.live)
  · have hcb : (d.sectionFeed k secbufBase secbuf).cbSec = fun _ _ => 0 := h.callback k hfree
    have hcalls := swfilterSectionFeed_callbacks hcb
    have hdrop := sectionCheckCrc_fst d k secbufBase secbuf
    rw [Device.sectionArrives,if_neg hfree]
    dsimp only
    refine ⟨(h.sectionFeed k secbufBase secbuf).callbacks _,?_,?_⟩
    · intro i sec hmem htype hcrc hwrong
      obtain ⟨hgo,x,hcall,hpriv⟩ := callback_of_received hmem
      rw [setFeed_filter] at hgo
      obtain ⟨-,hpass,hsec,f,hf,-,hx⟩ := (hcalls x sec).mp hcall
      have hcheck : (d.feed k).sec.checkCrc = true := by
        rw [h.attached i ⟨htype,by rw [hgo]; rfl⟩ k hfree f hf (hx ▸ hpriv)]
        exact hcrc
      rw [hsec] at hwrong
      have hdropped := hdrop.mpr ⟨hcheck,hwrong⟩
      exact absurd (hdropped.symm.trans hpass) (by decide)
    · intro i htype hgo hcrc hfeed hfiltering herror haccepts
      obtain ⟨l,x,f,hserved⟩ := h.served i ⟨htype,by rw [hgo]; rfl⟩
      have hlk : l = k := by
        rw [← Option.some.injEq,← hserved.feed,hfeed]
      subst hlk
      have hcheck : (d.feed l).sec.checkCrc = false := by
        rw [h.attached i ⟨htype,by rw [hgo]; rfl⟩ l hfree f hserved.mem (hserved.index ▸ hserved.priv)]
        exact hcrc
      have hpass : (sectionCheckCrc (d.sectionFeed l secbufBase secbuf)
          (secbufBase.slice secbuf (sectionLength (secbufBase.shift secbuf)))).1 = false := by
        rw [Bool.eq_false_iff]
        intro hdropped
        exact absurd ((hdrop.mp hdropped).1) (by simp [hcheck])
      have hmatch : f.accepts (secbufBase.shift secbuf) = true := by
        obtain ⟨f₀,hf⟩ := hserved.carries
        rw [hf,accepts_copyTo]
        exact haccepts
      have hcall := (hcalls x bytes).mpr
        ⟨hfiltering,hpass,hbytes.symm,f,hserved.mem,hmatch,hserved.index⟩
      apply received_of_callback (d := d.setFeed l _) (x := x) ?_ hcall hserved.priv hgo herror
      intro y sec hy
      exact ((hcalls y sec).mp hy).2.2.1.trans hbytes

theorem SharedFeeds.whenReady (h : SharedFeeds d) (i : Fin filters)
    {r : Device filters feeds × List (Fin filters × FilterEvent)} (hr : SharedFeeds r.1) :
    SharedFeeds (d.whenReady i r).1 := by
  unfold Device.whenReady
  split
  · exact hr
  · exact h

theorem SharedFeeds.step (h : SharedFeeds d) (hall : ∀ j, (d.filter j).Consistent) (op : DmxdevInput filters feeds)
    (hok : FeedsAgree d op) : SharedFeeds (dmxdevStep d op).1 ∧ CrcHonoured d op := by
  cases op with
  | «section» k secbufBase secbuf => exact h.sectionArrives k secbufBase secbuf
  | «open» =>
    refine ⟨?_,trivial⟩
    dsimp only [dmxdevStep]
    cases (List.finRange filters).find? fun l => !d.isOpen l with
    | none => exact h
    | some l =>
      refine (h.updFilter_parked ?_).1
      exact fun hsec => nomatch hsec.2
  | setFilter l params io =>
    refine ⟨h.whenReady l ?_,trivial⟩
    dsimp only
    refine ((h.filterStop l io).1.updFilter_parked ?_).1
    exact fun hsec => nomatch hsec.2
  | setPesFilter l params io =>
    refine ⟨h.whenReady l ?_,trivial⟩
    dsimp only
    refine ((h.filterStop l io).1.updFilter_parked ?_).1
    exact fun hsec => nomatch hsec.2
  | setBufferSize l size vmalloc =>
    refine ⟨h.whenReady l ?_,trivial⟩
    unfold dvbDmxdevSetBufferSize
    split
    · exact h
    split
    · exact h
    · dsimp only
      refine (h.updFilter ?_).1
      exact fun hsec => ⟨hsec,rfl,rfl,rfl⟩
  | start l io =>
    refine ⟨h.whenReady l ?_,trivial⟩
    split
    · exact h.filterStart hok io
    · exact h
  | stop l io =>
    refine ⟨h.whenReady l ?_,trivial⟩
    exact (h.filterStop l io).1
  | close l io =>
    refine ⟨h.whenReady l ?_,trivial⟩
    dsimp only
    refine ((h.filterStop l io).1.updFilter_parked ?_).1
    exact fun hsec => nomatch hsec.2
  | timeout l =>
    refine ⟨?_,trivial⟩
    dsimp only [dmxdevStep]
    split
    · rename_i htimer
      dsimp only
      refine (h.updFilter ?_).1
      exact fun hsec => ⟨⟨hsec.1,by rw [((hall l).timer htimer).2]; rfl⟩,rfl,rfl,rfl⟩
    · exact h
  | read l count =>
    refine ⟨?_,trivial⟩
    dsimp only [dmxdevStep]
    refine (h.updFilter ?_).1
    exact fun hsec => ⟨hsec,rfl,rfl,rfl⟩
  | resume l =>
    refine ⟨?_,trivial⟩
    dsimp only [dmxdevStep]
    refine (h.updFilter ?_).1
    exact fun hsec => ⟨hsec,rfl,rfl,rfl⟩

/-- `DMX_CHECK_CRC` is honoured in every run in which the starts only meet feeds with the `check_crc` they
ask for. -/
theorem check_crc_honoured (ops : List (DmxdevInput filters feeds))
    (hok : StepsMeet dmxdevStep FeedsAgree (dmxdevInit filters feeds) ops) :
    StepsMeet dmxdevStep CrcHonoured (dmxdevInit filters feeds) ops := by
  refine stepsMeet_of_invariant (fun d => (∀ j, (d.filter j).Consistent) ∧ SharedFeeds d) ?_
    ⟨consistent_dmxdevInit, sharedFeeds_dmxdevInit⟩ hok
  intro d op h hop
  obtain ⟨hinv, hgood⟩ := h.2.step h.1 op hop
  exact ⟨⟨dmxdevStep_consistent h.1 op, hinv⟩, hgood⟩

/-- Two filters are opened and started on one PID, the second with `DMX_CHECK_CRC`, and a section with a
wrong CRC arrives. -/
def wrongCrcArrives (checkCrc : Bool) : List (DmxdevInput 2 1) :=
  [.open, .setFilter 0 (anySection checkCrc false) smoothStop, .open,
    .setFilter 1 (anySection true false) smoothStop, .start 0 (smoothStart 0), .start 1 (smoothStart 1),
    .section 0 (Mem.ofList [0, 0x80, 0]) 0]

/-- Both filters ask for the check. -/
theorem check_crc_honoured_both : StepsMeet dmxdevStep FeedsAgree (dmxdevInit 2 1) (wrongCrcArrives true) ∧
      StepsMeet dmxdevStep CrcHonoured (dmxdevInit 2 1) (wrongCrcArrives true) := by
  have hok : StepsMeet dmxdevStep FeedsAgree (dmxdevInit 2 1) (wrongCrcArrives true) := by
    decide +kernel
  exact ⟨hok, check_crc_honoured _ hok⟩

/-- The filter that comes first does not ask for the check, so the second one receives the section. -/
theorem check_crc_not_honoured : ¬∀ ops, StepsMeet dmxdevStep CrcHonoured (dmxdevInit 2 1) ops := by
  intro h
  obtain ⟨-, -, -, -, -, -, hsection, -⟩ := h (wrongCrcArrives false)
  apply hsection.1 1 [0, 0x80, 0]
  · decide +kernel
  · decide +kernel
  · decide +kernel
  · exact ⟨by decide, by decide +kernel⟩

end LinuxDvb.Dmxdev
