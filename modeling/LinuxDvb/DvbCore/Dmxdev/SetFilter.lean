import LinuxDvb.Framework.BitMask
import LinuxDvb.DvbCore.Dmxdev.SharedFeed

/-!
# What a section filter selects

From the parameters of `DMX_SET_FILTER` to the decision of the software filter: the mode is inverted, the
bytes are copied around the length field of a section, two masks are prepared, and the filter compares.
-/

namespace LinuxDvb.Dmxdev

open Demux Device

variable {filters feeds : Nat}

def dmxFilterSize : Nat := 16

/-- The byte of a section that byte `i` of the parameters refers to; bytes 1 and 2 hold the length. -/
def sectionPos (i : Nat) : Nat := if i = 0 then 0 else i + 2

/-- A section is selected if all bits that are masked in with mode 0 are equal to those of the filter, and,
if bits are masked in with mode 1, one of them is not. -/
def DmxSctFilterParams.Selects (params : DmxSctFilterParams) (sec : List UInt8) : Prop :=
  (∀ i < dmxFilterSize, ∀ b < 8, bit (params.mask i) b = true → bit (params.mode i) b = false →
      bit (sec.getD (sectionPos i) 0) b = bit (params.filter i) b) ∧
    ((∀ i < dmxFilterSize, ∀ b < 8, ¬ (bit (params.mask i) b = true ∧ bit (params.mode i) b = true)) ∨
      ∃ i < dmxFilterSize, ∃ b < 8, bit (params.mask i) b = true ∧ bit (params.mode i) b = true ∧
        bit (sec.getD (sectionPos i) 0) b ≠ bit (params.filter i) b)

/-! ## The prepared masks -/

section Masks

variable (params : DmxSctFilterParams) (f₀ : DvbDemuxFilter)

/-- The section filter that a start makes of the parameters of `DMX_SET_FILTER` and a pool entry. -/
def installed : DvbDemuxFilter := prepareSecfilter (params.invertMode.copyTo f₀)

theorem sectionPos_cases {n : Nat} (hn : n < dvbDemuxMaskMax) :
    n = 1 ∨ n = 2 ∨ ∃ i < dmxFilterSize, n = sectionPos i := by
  unfold dvbDemuxMaskMax at hn
  rcases Nat.eq_zero_or_pos n with hzero | hpos
  · exact .inr (.inr ⟨0,by decide,hzero⟩)
  by_cases hlen : n < 3
  · omega
  · refine .inr (.inr ⟨n - 2,?_,?_⟩)
    · unfold dmxFilterSize
      omega
    · rw [sectionPos,if_neg (by omega)]
      omega

theorem sectionPos_lt {i : Nat} (hi : i < dmxFilterSize) : sectionPos i < dvbDemuxMaskMax := by
  unfold dmxFilterSize at hi
  unfold sectionPos dvbDemuxMaskMax
  split
  · omega
  · omega

theorem installed_mask_sectionPos (i : Nat) : (installed params f₀).filterMask (sectionPos i) = params.mask i ∧
      (installed params f₀).filterMode (sectionPos i) = params.mode i ^^^ 0xff ∧
      (installed params f₀).filterValue (sectionPos i) = params.filter i := by
  unfold sectionPos
  split
  next hzero =>
    subst hzero
    exact ⟨rfl,rfl,rfl⟩
  next hpos =>
    have hthree : ¬ i + 2 < 3 := by omega
    simp [installed,prepareSecfilter,DmxSctFilterParams.copyTo,DmxSctFilterParams.invertMode,hthree]

theorem installed_mask_length {n : Nat} (hn : n = 1 ∨ n = 2) : (installed params f₀).filterMask n = 0 := by
  rcases hn with rfl | rfl
  · rfl
  · rfl

theorem exists_position_iff {p : Nat → Prop} (hlength : ∀ n, n = 1 ∨ n = 2 → ¬ p n) :
    (∃ n < dvbDemuxMaskMax, p n) ↔ ∃ i < dmxFilterSize, p (sectionPos i) := by
  constructor
  · rintro ⟨n,hn,hp⟩
    rcases sectionPos_cases hn with h | h | ⟨i,hi,rfl⟩
    · exact absurd hp (hlength n (.inl h))
    · exact absurd hp (hlength n (.inr h))
    · exact ⟨i,hi,hp⟩
  · rintro ⟨i,hi,hp⟩
    exact ⟨sectionPos i,sectionPos_lt hi,hp⟩

theorem installed_mask_bits (i : Nat) {b : Nat} (hb : b < 8) :
    bit ((installed params f₀).maskandmode (sectionPos i)) b =
        (bit (params.mask i) b && !bit (params.mode i) b) ∧
      bit ((installed params f₀).maskandnotmode (sectionPos i)) b =
        (bit (params.mask i) b && bit (params.mode i) b) := by
  obtain ⟨hmask,hmode,-⟩ := installed_mask_sectionPos params f₀ i
  have hprep : (installed params f₀).maskandmode (sectionPos i) =
      (installed params f₀).filterMask (sectionPos i) &&& (installed params f₀).filterMode (sectionPos i) :=
    rfl
  have hprep' : (installed params f₀).maskandnotmode (sectionPos i) =
      (installed params f₀).filterMask (sectionPos i) &&&
        ~~~(installed params f₀).filterMode (sectionPos i) := rfl
  rw [hprep,hprep',hmask,hmode,bit_and,bit_and,bit_not _ hb,bit_xor,bit_ones hb]
  simp

theorem installed_masks_length {n : Nat} (hn : n = 1 ∨ n = 2) (x : UInt8) :
    (installed params f₀).maskandmode n &&& x = 0 ∧ (installed params f₀).maskandnotmode n &&& x = 0 ∧
      (installed params f₀).maskandnotmode n = 0 := by
  have hmask := installed_mask_length params f₀ hn
  have hprep : (installed params f₀).maskandmode n =
      (installed params f₀).filterMask n &&& (installed params f₀).filterMode n := rfl
  have hprep' : (installed params f₀).maskandnotmode n =
      (installed params f₀).filterMask n &&& ~~~(installed params f₀).filterMode n := rfl
  rw [hprep,hprep',hmask]
  simp

theorem installed_clash_iff (secbuf : Mem UInt8) : (∃ n < dvbDemuxMaskMax, (installed params f₀).maskandmode n &&&
        ((installed params f₀).filterValue n ^^^ secbuf n) ≠ 0) ↔
      ∃ i < dmxFilterSize, ∃ b < 8, bit (params.mask i) b = true ∧ bit (params.mode i) b = false ∧
        bit (secbuf (sectionPos i)) b ≠ bit (params.filter i) b := by
  rw [exists_position_iff]
  · apply exists_congr
    intro i
    apply and_congr_right
    intro _
    rw [masked_ne_zero_iff,(installed_mask_sectionPos params f₀ i).2.2]
    apply exists_congr
    intro b
    apply and_congr_right
    intro hb
    rw [(installed_mask_bits params f₀ i hb).1]
    simp [and_assoc]
  · exact fun n hn => not_not_intro (installed_masks_length params f₀ hn _).1

theorem installed_neq_iff (secbuf : Mem UInt8) : (∃ n < dvbDemuxMaskMax, (installed params f₀).maskandnotmode n &&&
        ((installed params f₀).filterValue n ^^^ secbuf n) ≠ 0) ↔
      ∃ i < dmxFilterSize, ∃ b < 8, bit (params.mask i) b = true ∧ bit (params.mode i) b = true ∧
        bit (secbuf (sectionPos i)) b ≠ bit (params.filter i) b := by
  rw [exists_position_iff]
  · apply exists_congr
    intro i
    apply and_congr_right
    intro _
    rw [masked_ne_zero_iff,(installed_mask_sectionPos params f₀ i).2.2]
    apply exists_congr
    intro b
    apply and_congr_right
    intro hb
    rw [(installed_mask_bits params f₀ i hb).2]
    simp [and_assoc]
  · exact fun n hn => not_not_intro (installed_masks_length params f₀ hn _).2.1

theorem installed_doneq_iff : (installed params f₀).doneq = true ↔
      ∃ i < dmxFilterSize, ∃ b < 8, bit (params.mask i) b = true ∧ bit (params.mode i) b = true := by
  have hdoneq : (installed params f₀).doneq = true ↔
      ∃ n < dvbDemuxMaskMax, (installed params f₀).maskandnotmode n ≠ 0 :=
    prepareSecfilter_doneq_iff _
  rw [hdoneq,exists_position_iff]
  · apply exists_congr
    intro i
    apply and_congr_right
    intro _
    rw [byte_ne_zero_iff]
    apply exists_congr
    intro b
    apply and_congr_right
    intro hb
    rw [(installed_mask_bits params f₀ i hb).2]
    simp
  · exact fun n hn => not_not_intro (installed_masks_length params f₀ hn 0).2.2

theorem installed_accepts_iff {secbuf : Mem UInt8} {sec : List UInt8}
    (hsec : secbuf.slice 0 sec.length = sec) (hlen : dvbDemuxMaskMax ≤ sec.length) :
    (installed params f₀).accepts secbuf = true ↔ params.Selects sec := by
  have hbyte {i : Nat} (hi : i < dmxFilterSize) : secbuf (sectionPos i) = sec.getD (sectionPos i) 0 := by
    have hpos := Nat.lt_of_lt_of_le (sectionPos_lt hi) hlen
    rw [getD_eq_getElem?_getD,Mem.apply_of_slice_eq hsec hpos,Nat.zero_add]
    rfl
  have hdoneq := installed_doneq_iff params f₀
  rw [accepts_iff,installed_clash_iff,installed_neq_iff,Bool.eq_false_iff,ne_eq,hdoneq]
  unfold DmxSctFilterParams.Selects
  constructor
  · rintro ⟨hclash,hneq⟩
    refine ⟨fun i hi b hb hmask hmode => ?_,?_⟩
    · by_contra hne
      rw [← hbyte hi] at hne
      exact hclash ⟨i,hi,b,hb,hmask,hmode,hne⟩
    · rcases hneq with hnone | ⟨i,hi,b,hb,hmask,hmode,hne⟩
      · exact .inl fun i hi b hb hbits => hnone ⟨i,hi,b,hb,hbits⟩
      · exact .inr ⟨i,hi,b,hb,hmask,hmode,hbyte hi ▸ hne⟩
  · rintro ⟨heq,hneq⟩
    refine ⟨?_,?_⟩
    · rintro ⟨i,hi,b,hb,hmask,hmode,hne⟩
      rw [hbyte hi] at hne
      exact hne (heq i hi b hb hmask hmode)
    · rcases hneq with hnone | ⟨i,hi,b,hb,hmask,hmode,hne⟩
      · exact .inl fun ⟨i,hi,b,hb,hbits⟩ => hnone i hi b hb hbits
      · exact .inr ⟨i,hi,b,hb,hmask,hmode,hbyte hi ▸ hne⟩

end Masks

/-! ## The installation -/

/-- Filter `i` has a section filter on feed `k` that was made of `para`. -/
structure Installed (d : Device filters feeds) (i : Fin filters) (para : DmxSctFilterParams)
    (k : Fin feeds) (f₀ : DvbDemuxFilter) : Prop where
  feed : (d.filter i).feedSec = some k
  filter : (d.filter i).filterSec = some f₀.index
  mem : prepareSecfilter (para.copyTo f₀) ∈ (d.feed k).filter
  priv : (d.secfilter f₀.index).priv = some i

section Start

variable {d : Device filters feeds} {i : Fin filters} {k : Fin feeds} {para : DmxSctFilterParams}

theorem attachSec_installed (io : StartIo feeds) (hrun : (d.filter i).state.running = false)
    (hfeed : (d.filter i).feedSec = some k) (hpara : (d.filter i).params = para)
    (hgo : ((d.attachSec i k io).filter i).state = .go) :
    ∃ f₀, Installed (d.attachSec i k io) i para k f₀ := by
  have hnot : (d.filter i).state ≠ .go := by
    intro h
    rw [h] at hrun
    cases hrun
  unfold Device.attachSec at hgo ⊢
  cases htake : d.takeFilter io.allocFilter with
  | none =>
    rw [htake] at hgo
    dsimp only at hgo
    rw [setFeed_filter,(feedRestart_spares hrun k io.restart io.releaseFeed).2] at hgo
    exact absurd hgo hnot
  | some secfilter =>
    rw [htake] at hgo
    dsimp only at hgo ⊢
    split at hgo
    · rw [updFilter_self] at hgo
      exact absurd hgo hnot
    · next hret =>
      refine ⟨secfilter,?_⟩
      rw [if_neg hret]
      constructor
      · rw [updFilter_self,updFilter_self]
        exact hfeed
      · rw [updFilter_self,updFilter_self]
      · rw [updFilter_feed,updFilter_feed,← hpara]
        dsimp only
        rw [setFeed_self,startFiltering_filter hret]
        exact mem_map.mpr ⟨_,mem_cons_self,rfl⟩
      · have hindex : ((d.filter i).params.copyTo secfilter).index = secfilter.index := rfl
        rw [updFilter_secfilter,updFilter_secfilter]
        dsimp only
        rw [hindex,Function.update_self]

theorem joinSec_installed (io : StartIo feeds) (hpara : (d.filter i).params = para)
    (hgo : ((d.joinSec i k io).filter i).state = .go) :
    ∃ f₀, Installed (d.joinSec i k io) i para k f₀ := by
  have hself : ((d.updFilter i fun f => { f with feedSec := some k }).dvbDmxdevFeedStop i k
      io.joinStop).filter i = { d.filter i with feedSec := some k, state := .set, timer := false } := by
    rw [feedStop_filter,updFilter_self,updFilter_self]
  apply attachSec_installed io _ _ _ hgo
  · rw [hself]
    rfl
  · rw [hself]
  · rw [hself]
    exact hpara

theorem ownSec_installed (feed : DvbDemuxFeed) (io : StartIo feeds)
    (hrun : (d.filter i).state.running = false) (hpara : (d.filter i).params = para)
    (hgo : ((d.ownSec i k feed io).filter i).state = .go) :
    ∃ f₀, Installed (d.ownSec i k feed io) i para k f₀ := by
  unfold ownSec at hgo ⊢
  dsimp only at hgo ⊢
  generalize (if io.setInterrupted then (feed, errRestartsys)
    else dmxSectionFeedSet feed (d.filter i).params.pid (d.filter i).params.checkCrc) = set at hgo ⊢
  have hself : ((d.updFilter i fun f => { f with feedSec := some k }).setFeed k set.1).filter i =
      { d.filter i with feedSec := some k } := by
    rw [setFeed_filter,updFilter_self]
  have hrun' : (((d.updFilter i fun f => { f with feedSec := some k }).setFeed k set.1).filter
      i).state.running = false := by
    rw [hself]
    exact hrun
  split at hgo
  · rw [(feedRestart_spares hrun' k io.restart io.releaseFeed).2,hself] at hgo
    dsimp only at hgo
    rw [hgo] at hrun
    cases hrun
  · next hset =>
    rw [if_neg hset]
    apply attachSec_installed io hrun' _ _ hgo
    · rw [hself]
    · rw [hself]
      exact hpara

theorem startSec_installed (io : StartIo feeds) (hrun : (d.filter i).state.running = false)
    (hpara : (d.filter i).params = para) (hgo : ((d.startSec i io).filter i).state = .go) :
    ∃ k f₀, Installed (d.startSec i io) i para k f₀ := by
  have hself := clearSec_self d i
  have hpara' : ((d.clearSec i).filter i).params = para := by
    rw [hself]
    exact hpara
  have hrun' : ((d.clearSec i).filter i).state.running = false := by
    rw [hself]
    exact hrun
  rcases startSec_cases hrun io with ⟨k,-,heq⟩ | heq | ⟨-,k,-,heq⟩ <;> rw [heq] at hgo ⊢
  · exact ⟨k,joinSec_installed io hpara' hgo⟩
  · rw [hgo] at hrun'
    cases hrun'
  · exact ⟨k,ownSec_installed _ io hrun' hpara' hgo⟩

theorem filterStart_installed (io : StartIo feeds) (hcons : (d.filter i).Consistent)
    (htype : (d.filter i).type = .sec) (hpara : (d.filter i).params = para)
    (hconf : (d.filter i).state.configured = true)
    (hgo : ((d.dvbDmxdevFilterStart i io).filter i).state = .go) :
    ∃ k f₀, Installed (d.dvbDmxdevFilterStart i io) i para k f₀ := by
  obtain ⟨htype',hpara',hrun'⟩ := stopRunning_self d i io.stop hcons.feed
  have hrun := hrun' (by rw [htype]; decide)
  have hself := takeBuffer_self (d.stopRunning i io.stop) i
  have hstopped {f : DmxdevFilter feeds} (h : f.state.running = false) : f.state ≠ .go := by
    intro hf
    rw [hf] at h
    cases h
  unfold dvbDmxdevFilterStart at hgo ⊢
  rw [if_neg (by simp [hconf])] at hgo ⊢
  dsimp only at hgo ⊢
  split at hgo
  · exact absurd hgo (hstopped hrun)
  · next hbuf =>
    rw [if_neg hbuf]
    have hsec : (((d.stopRunning i io.stop).takeBuffer i).filter i).type = .sec := by
      rw [hself]
      exact htype'.trans htype
    rw [hsec] at hgo ⊢
    apply startSec_installed io _ _ hgo
    · rw [hself]
      exact hrun
    · rw [hself]
      exact hpara'.trans hpara

theorem consistent_run (ops : List (DmxdevInput filters feeds)) (j : Fin filters) :
    ((runTrace dmxdevStep (dmxdevInit filters feeds) ops).1.filter j).Consistent := by
  have htrue : StepsMeet dmxdevStep (fun _ _ => True) (dmxdevInit filters feeds) ops :=
    StepsMeet.of_forall (fun _ _ => trivial) _ ops
  exact runTrace_invariant (fun d : Device filters feeds => ∀ j, (d.filter j).Consistent)
    (fun d op h _ => dmxdevStep_consistent h op) consistent_dmxdevInit htrue j

theorem setFilter_stores (d : Device filters feeds) (i : Fin filters) (params : DmxSctFilterParams)
    (io : StopIo) (hready : d.isOpen i ∧ (d.filter i).reader.pos = .idle) :
    ((dmxdevStep d (.setFilter i params io)).1.filter i).params = params.invertMode := by
  dsimp only [dmxdevStep,whenReady]
  rw [if_pos hready,updFilter_self]

end Start

/-- In a run that came to `d`, `DMX_SET_FILTER` was called for filter `i`, which has these parameters still. -/
structure SetTo (d : Device filters feeds) (i : Fin filters) (params : DmxSctFilterParams)
    (ops : List (DmxdevInput filters feeds)) (io : StopIo) (ops' : List (DmxdevInput filters feeds)) :
    Prop where
  ready : (runTrace dmxdevStep (dmxdevInit filters feeds) ops).1.isOpen i ∧
    ((runTrace dmxdevStep (dmxdevInit filters feeds) ops).1.filter i).reader.pos = .idle
  run : d = (runTrace dmxdevStep (dmxdevInit filters feeds) (ops ++ .setFilter i params io :: ops')).1
  type : (d.filter i).type = .sec
  params : (d.filter i).params =
    ((runTrace dmxdevStep (dmxdevInit filters feeds) (ops ++ [.setFilter i params io])).1.filter i).params

section Semantics

variable {d : Device filters feeds} {i : Fin filters} {params : DmxSctFilterParams} {io : StopIo}
  {ops ops' : List (DmxdevInput filters feeds)}

theorem SetTo.params_eq (h : SetTo d i params ops io ops') : (d.filter i).params = params.invertMode := by
  rw [h.params,runTrace_append,runTrace_cons,runTrace_nil]
  exact setFilter_stores _ i params io h.ready

theorem sectionfilter_selects_iff (params : DmxSctFilterParams) (f₀ : DvbDemuxFilter)
    {feed : DvbDemuxFeed} (hlen : dvbDemuxMaskMax ≤ feed.sec.seclen) :
    .cbSec f₀.index (feed.sec.secbufBase.slice feed.sec.secbuf feed.sec.seclen) ∈
        (dvbDmxSwfilterSectionfilter feed (installed params f₀)).2 ↔
      params.Selects (feed.sec.secbufBase.slice feed.sec.secbuf feed.sec.seclen) := by
  generalize hsec : feed.sec.secbufBase.slice feed.sec.secbuf feed.sec.seclen = sec
  have hlength : sec.length = feed.sec.seclen := by rw [← hsec,Mem.length_slice]
  have hslice : (feed.sec.secbufBase.shift feed.sec.secbuf).slice 0 sec.length = sec := by
    rw [Mem.slice_shift,Nat.add_zero,hlength,hsec]
  have hindex : (installed params f₀).index = f₀.index := rfl
  rw [← installed_accepts_iff params f₀ hslice (hlength ▸ hlen)]
  unfold dvbDmxSwfilterSectionfilter
  dsimp only
  rw [hsec,hindex]
  split
  next hacc => simp [hacc]
  next hrej => simp [hrej]

/-- A filter is started while it has the parameters of `DMX_SET_FILTER`. The section filter that is then
installed passes a section of at least 18 bytes on to it if and only if the parameters select it. -/
theorem setFilter_semantics (h : SetTo d i params ops io ops') (io' : StartIo feeds)
    (hconf : (d.filter i).state.configured = true)
    (hgo : ((d.dvbDmxdevFilterStart i io').filter i).state = .go) :
    ∃ k x f, ((d.dvbDmxdevFilterStart i io').filter i).feedSec = some k ∧
      ((d.dvbDmxdevFilterStart i io').filter i).filterSec = some x ∧
      f ∈ ((d.dvbDmxdevFilterStart i io').feed k).filter ∧
      ((d.dvbDmxdevFilterStart i io').secfilter x).priv = some i ∧
      ∀ feed : DvbDemuxFeed, dvbDemuxMaskMax ≤ feed.sec.seclen →
        (.cbSec x (feed.sec.secbufBase.slice feed.sec.secbuf feed.sec.seclen) ∈ (dvbDmxSwfilterSectionfilter feed f).2 ↔
          params.Selects (feed.sec.secbufBase.slice feed.sec.secbuf feed.sec.seclen)) := by
  have hcons : (d.filter i).Consistent := by
    rw [h.run]
    exact consistent_run _ i
  obtain ⟨k, f₀, hinst⟩ := filterStart_installed io' hcons h.type h.params_eq hconf hgo
  exact ⟨k, f₀.index, installed params f₀, hinst.feed, hinst.filter, hinst.mem, hinst.priv,
    fun _ hlen => sectionfilter_selects_iff params f₀ hlen⟩

def setDevice (params : DmxSctFilterParams) : Device 1 1 :=
  (runTrace dmxdevStep (dmxdevInit 1 1) [.open, .setFilter 0 params smoothStop]).1

theorem setFilter_semantics_any :
    ∃ k x f, (((setDevice (anySection false false)).dvbDmxdevFilterStart 0 (smoothStart 0)).filter 0).feedSec = some k ∧
      (((setDevice (anySection false false)).dvbDmxdevFilterStart 0 (smoothStart 0)).filter 0).filterSec = some x ∧
      f ∈ (((setDevice (anySection false false)).dvbDmxdevFilterStart 0 (smoothStart 0)).feed k).filter ∧
      (((setDevice (anySection false false)).dvbDmxdevFilterStart 0 (smoothStart 0)).secfilter x).priv = some 0 ∧
      ∀ feed : DvbDemuxFeed, dvbDemuxMaskMax ≤ feed.sec.seclen →
        (.cbSec x (feed.sec.secbufBase.slice feed.sec.secbuf feed.sec.seclen) ∈ (dvbDmxSwfilterSectionfilter feed f).2 ↔
          (anySection false false).Selects
            (feed.sec.secbufBase.slice feed.sec.secbuf feed.sec.seclen)) := by
  have hset : SetTo (setDevice (anySection false false)) 0 (anySection false false) [.open] smoothStop [] :=
    ⟨⟨by decide, by decide⟩, rfl, by decide, rfl⟩
  exact setFilter_semantics hset (smoothStart 0) (by decide) (by decide +kernel)

end Semantics

end LinuxDvb.Dmxdev
