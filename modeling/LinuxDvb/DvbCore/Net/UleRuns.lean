import LinuxDvb.DvbCore.Net.UlePass

/-!
# Runs of the decapsulator

Calls of `dvb_net_ule` follow each other on the private data of one interface. In every run the passes
stay inside their cells as long as no pointer field says 184, and the loop ends unless it synchronises on
a cell with less than two bytes behind the pointer field or an SNDU has extension headers without end.
-/

namespace LinuxDvb.Net

/-- Private data that calls with buffers of whole cells lead to. Between the calls the address filter
and the device may change. -/
inductive UleReachable : DvbNetPriv → Prop
  | addIf : UleReachable dvbNetAddIf
  | setMulticastList {p : DvbNetPriv} (rxMode : RxMode) (multiMacs : List (List UInt8))
      (before : UleReachable p) : UleReachable { p with rxMode := rxMode, multiMacs := multiMacs }
  | call {p : DvbNetPriv} {s : UleLoop} (dev : NetDevice) (c : UleCall) (before : UleReachable p)
      (whole : c.bufLen % tsSz = 0) (ends : LoopEnds c.inBuffer (ulePass dev c) (.start p) s) :
      UleReachable s.priv

theorem start_ok {p : DvbNetPriv} (hp : p.Ok) : (UleLoop.start p).Ok where
  aligned := rfl
  priv := hp
  goesOn := by simp [UleLoop.start]

section Call

variable {dev : NetDevice} {c : UleCall} {p : DvbNetPriv} {s : UleLoop}

theorem reaches_ok (hwhole : c.bufLen % tsSz = 0) (hp : p.Ok)
    (h : LoopReaches c.inBuffer (ulePass dev c) (.start p) s) : s.Ok := by
  apply h.invariant UleLoop.Ok _ (start_ok hp)
  intro s s' fuel hs hin hagain
  exact (ulePass_spec hwhole hin hs).ok s' hagain

theorem UleReachable.ok (hp : UleReachable p) : p.Ok := by
  induction hp with
  | addIf => exact ⟨fun _ => rfl,fun _ => rfl⟩
  | setMulticastList _ _ _ ih => exact ⟨ih.idle,ih.sync⟩
  | call dev c _ whole ends ih =>
    obtain ⟨t,hreach,⟨-,rfl⟩ | ⟨hin,fuel,hleave⟩⟩ := ends.exit
    · exact (reaches_ok whole ih hreach).priv
    · exact (ulePass_spec whole hin (reaches_ok whole ih hreach)).leaves _ hleave

/-- The passes of a call stay inside their cells, and no counter wraps. -/
theorem ulePass_bounds {fuel : Nat} (hp : UleReachable p) (hwhole : c.bufLen % tsSz = 0) (hpointers : c.PointersInRange)
    (hs : LoopReaches c.inBuffer (ulePass dev c) (.start p) s) (hin : c.inBuffer s) :
    (ulePass dev c fuel s).state.OpsInBounds := by
  have hinv : s.Ok ∧ InRange c s := by
    apply hs.invariant (fun s => s.Ok ∧ InRange c s)
    · intro s s' fuel hs hin hagain
      have hspec := @ulePass_spec c s fuel dev hwhole hin hs.1
      have hops := hspec.ops hs.2
      rw [hagain] at hops
      exact ⟨hspec.ok s' hagain, hpointers, hops, hspec.cell s' hagain hs.2⟩
    · refine ⟨start_ok hp.ok, hpointers, ?_, ?_⟩
      · intro op hop
        simp [UleLoop.start] at hop
      · intro hnew
        simp [UleLoop.start] at hnew
  exact (ulePass_spec hwhole hin hinv.1).ops hinv.2

def pointerCall (pointer : UInt8) : UleCall where
  buf := Mem.ofList [0x47, 0x40, 0, 0x10, pointer]
  bufLen := 188
  alloc := fun _ => none

def someDevice : NetDevice where
  devAddr := [2, 0, 0, 0, 0, 1]
  broadcast := List.replicate 6 0xff

theorem ulePass_bounds_start : (ulePass someDevice (pointerCall 0) 1 (.start dvbNetAddIf)).state.OpsInBounds := by
  apply ulePass_bounds .addIf (by decide) _ .refl (by decide)
  intro ts hlt haligned _ _
  unfold tsSz at haligned
  have hzero : ts = 0 := by
    simp only [pointerCall] at hlt
    omega
  subst hzero
  decide

/-- A pointer field of 184 passes the range check, and `ts_remain` wraps. -/
theorem ulePass_out_of_bounds : ¬ ∀ (dev : NetDevice) (c : UleCall) (p : DvbNetPriv) (s : UleLoop) (fuel : Nat),
      UleReachable p → c.bufLen % tsSz = 0 →
      LoopReaches c.inBuffer (ulePass dev c) (.start p) s → c.inBuffer s →
      (ulePass dev c fuel s).state.OpsInBounds := by
  intro h
  have hops := h someDevice (pointerCall 184) dvbNetAddIf (.start dvbNetAddIf) 1 .addIf (by decide)
    .refl (by decide)
  have hwraps : UleOp.tsRemainSub 184 185 ∈
      (ulePass someDevice (pointerCall 184) 1 (.start dvbNetAddIf)).state.ops := by decide
  have hle : 185 ≤ 184 := hops _ hwraps
  omega

/-- The walk over the extension headers from `p` on comes to a header that has the SNDU discarded, or
to the type of a payload. -/
inductive ExtensionsEnd (skb : SkBuff) : DvbNetPriv → Prop
  | discard {p : DvbNetPriv} (h : (handleOneUleExtension p skb).2 < 0) : ExtensionsEnd skb p
  | payload {p : DvbNetPriv} (h : 1536 ≤ (handleOneUleExtension p skb).1.uleSnduType) :
      ExtensionsEnd skb p
  | next {p : DvbNetPriv} (h : ExtensionsEnd skb (handleOneUleExtension p skb).1) :
      ExtensionsEnd skb p

def SnduEnds (dev : NetDevice) (p : DvbNetPriv) (skb : SkBuff) : Prop :=
  ∀ skb', passedSkb dev p skb = some skb' → p.uleSnduType < 1536 →
    ExtensionsEnd skb' { p with uleNextHdr := skb'.data }

theorem extensionLoop_ends {skb : SkBuff} (h : ExtensionsEnd skb p) (total : Int) :
    ∃ fuel r, uleExtensionLoop skb fuel p total = some r := by
  induction h generalizing total with
  | discard h => exact ⟨1,_,by rw [uleExtensionLoop,if_pos h]⟩
  | @payload p h =>
    by_cases hneg : (handleOneUleExtension p skb).2 < 0
    · exact ⟨1,_,by rw [uleExtensionLoop,if_pos hneg]⟩
    · exact ⟨1,_,by rw [uleExtensionLoop,if_neg hneg,if_neg (by omega)]⟩
  | @next p h ih =>
    by_cases hneg : (handleOneUleExtension p skb).2 < 0
    · exact ⟨1,_,by rw [uleExtensionLoop,if_pos hneg]⟩
    by_cases hlast : (handleOneUleExtension p skb).1.uleSnduType < 1536
    · obtain ⟨fuel,r,hr⟩ := ih (total + (handleOneUleExtension p skb).2)
      exact ⟨fuel + 1,r,by rw [uleExtensionLoop,if_neg hneg,if_pos hlast,hr]⟩
    · exact ⟨1,_,by rw [uleExtensionLoop,if_neg hneg,if_neg hlast]⟩

theorem extensionsEnd_of_loop {skb : SkBuff} {fuel : Nat} {total : Int} {r : DvbNetPriv × Int}
    (h : uleExtensionLoop skb fuel p total = some r) : ExtensionsEnd skb p := by
  induction fuel generalizing p total with
  | zero => cases h
  | succ fuel ih =>
    rw [uleExtensionLoop] at h
    split at h
    next hneg => exact .discard hneg
    next =>
      split at h
      next => exact .next (ih h)
      next hlast => exact .payload (Nat.not_lt.mp hlast)

theorem extensionLoop_mono {skb : SkBuff} {fuel fuel' : Nat} {total : Int} {r : DvbNetPriv × Int}
    (hle : fuel ≤ fuel') (h : uleExtensionLoop skb fuel p total = some r) :
    uleExtensionLoop skb fuel' p total = some r := by
  induction fuel generalizing fuel' p total with
  | zero => cases h
  | succ fuel ih =>
    cases fuel' with
    | zero => omega
    | succ fuel' =>
      rw [uleExtensionLoop] at h ⊢
      split at h
      next hneg => rwa [if_pos hneg]
      next hneg =>
        rw [if_neg hneg]
        split at h
        next hmore =>
          rw [if_pos hmore]
          exact ih (by omega) h
        next hmore => rwa [if_neg hmore]

theorem extensions_mono {skb : SkBuff} {dest : List UInt8} {fuel fuel' : Nat}
    {r : DvbNetPriv × List NetPacket} (hle : fuel ≤ fuel')
    (h : uleExtensions fuel dev p skb dest = some r) :
    uleExtensions fuel' dev p skb dest = some r := by
  unfold uleExtensions handleUleExtensions at h ⊢
  split at h
  next hext =>
    rw [if_pos hext]
    split at h
    next => cases h
    next q hloop => rwa [extensionLoop_mono hle hloop]
  next hext => rwa [if_neg hext]

theorem complete_mono {skb : SkBuff} {fuel fuel' : Nat} {r : DvbNetPriv × List NetPacket}
    (hle : fuel ≤ fuel') (h : uleComplete fuel dev p skb = some r) :
    uleComplete fuel' dev p skb = some r := by
  unfold uleComplete at h ⊢
  split at h
  next => exact h
  next => exact extensions_mono hle h

theorem complete_ends_iff {skb : SkBuff} : (∃ fuel r, uleComplete fuel dev p skb = some r) ↔ SnduEnds dev p skb := by
  unfold SnduEnds uleComplete
  cases hpassed : passedSkb dev p skb with
  | none => simp
  | some skb' =>
    unfold uleExtensions handleUleExtensions
    constructor
    · rintro ⟨fuel,r,h⟩ skb'' hsome hext
      cases hsome
      simp only [if_pos hext] at h
      split at h
      next => cases h
      next q hloop => exact extensionsEnd_of_loop hloop
    · intro h
      by_cases hext : p.uleSnduType < 1536
      · obtain ⟨fuel,r,hloop⟩ := extensionLoop_ends (h skb' rfl hext) 0
        exact ⟨fuel,_,(if_pos hext).trans (by rw [hloop])⟩
      · exact ⟨0,_,if_neg hext⟩

theorem ulePass_fuelMonotone : FuelMonotone (ulePass dev c) := by
  intro fuel fuel' s hle hnot
  unfold ulePass at hnot ⊢
  cases hreceive : uleReceive c s with
  | error f => rfl
  | ok s' =>
    rw [hreceive] at hnot
    have hfinish : uleFinish fuel' dev s' = uleFinish fuel dev s' := by
      unfold uleFinish at hnot ⊢
      cases hskb : s'.priv.uleSkb with
      | none => rfl
      | some skb =>
        dsimp only
        split
        next hzero =>
          cases hcomplete : uleComplete fuel dev s'.priv skb with
          | none => simp [hskb,hzero,hcomplete,Pass.andThen,Flow.Hangs] at hnot
          | some r => rw [complete_mono hle hcomplete]
        next => rfl
    simp only [Pass.andThen_ok,hfinish]

/-- If the pass from `s` completes an SNDU, the extension headers of the SNDU end. -/
def PassSnduEnds (dev : NetDevice) (c : UleCall) (s : UleLoop) : Prop :=
  ∀ s' skb, uleReceive c s = .ok s' → s'.priv.uleSkb = some skb → s'.priv.uleSnduRemain = 0 →
    SnduEnds dev s'.priv skb

theorem receive_not_hangs (s : UleLoop) : (uleReceive c s).Meets (fun _ => True) (fun f => ¬ f.Hangs) := by
  have hlength (s : UleLoop) : (uleLength c s).Meets (fun _ => True) (fun f => ¬ f.Hangs) := by
    unfold uleLength
    dsimp only
    repeat' split
    all_goals simp [Pass.Meets,Flow.Hangs]
  have htype (s : UleLoop) : (uleType c s).Meets (fun _ => True) (fun f => ¬ f.Hangs) := by
    unfold uleType
    repeat' split
    all_goals simp [Pass.Meets,Flow.Hangs]
  have halloc (s : UleLoop) : (uleAlloc c s).Meets (fun _ => True) (fun f => ¬ f.Hangs) := by
    unfold uleAlloc
    split <;> simp [Pass.Meets,Flow.Hangs]
  have hheader (s : UleLoop) : (uleHeader c s).Meets (fun _ => True) (fun f => ¬ f.Hangs) := by
    unfold uleHeader
    split
    next =>
      exact ((hlength s).andThen fun s _ => htype s).andThen fun s _ => halloc s
    next => trivial
  have hnewCell : (uleNewCell c s).Meets (fun _ => True) (fun f => ¬ f.Hangs) := by
    unfold uleNewCell
    repeat' split
    all_goals simp [Pass.Meets,Flow.Hangs]
  have hsync (s : UleLoop) : (uleSynchronise c s).Meets (fun _ => True) (fun f => ¬ f.Hangs) := by
    unfold uleSynchronise
    dsimp only
    repeat' split
    all_goals simp [Pass.Meets,Flow.Hangs]
  have hpointer (s : UleLoop) : (ulePointer c s).Meets (fun _ => True) (fun f => ¬ f.Hangs) := by
    unfold ulePointer
    dsimp only
    repeat' split
    all_goals simp [Pass.Meets,Flow.Hangs]
  have hcontinuity (s : UleLoop) :
      (uleContinuity c s).Meets (fun _ => True) (fun f => ¬ f.Hangs) := by
    unfold uleContinuity
    dsimp only
    split
    next =>
      split
      next =>
        split
        next => exact (hpointer _).andThen fun _ _ => trivial
        next => trivial
      next => simp [Pass.Meets,Flow.Hangs]
    next => trivial
  exact ((hnewCell.andThen fun s _ => hsync s).andThen fun s _ => hcontinuity s).andThen
    fun s _ => (hheader _).andThen fun _ _ => trivial

theorem passEnds_iff : PassEnds (ulePass dev c) s ↔ PassSnduEnds dev c s := by
  unfold PassEnds PassSnduEnds ulePass
  have hreceive := @receive_not_hangs c s
  cases heq : uleReceive c s with
  | error f =>
    rw [heq] at hreceive
    have hnot : ¬ f.Hangs := hreceive
    simp [Pass.andThen,hnot]
  | ok s' =>
    have hfinish (fuel : Nat) : (Pass.flow ((uleFinish fuel dev s').andThen
        fun s => .ok (uleNext c s))).Hangs ↔ ∃ skb, s'.priv.uleSkb = some skb ∧
          s'.priv.uleSnduRemain = 0 ∧ uleComplete fuel dev s'.priv skb = none := by
      unfold uleFinish
      cases hskb : s'.priv.uleSkb with
      | none => simp [Flow.Hangs]
      | some skb =>
        by_cases hzero : s'.priv.uleSnduRemain = 0
        · cases hcomplete : uleComplete fuel dev s'.priv skb <;>
            simp [hzero,hcomplete,Flow.Hangs]
        · simp [hzero,Flow.Hangs]
    simp only [Pass.andThen_ok,hfinish,Except.ok.injEq]
    constructor
    · rintro ⟨fuel,hnot⟩ s'' skb rfl hskb hzero
      rw [← complete_ends_iff]
      cases hcomplete : uleComplete fuel dev s'.priv skb with
      | none => exact absurd ⟨skb,hskb,hzero,hcomplete⟩ hnot
      | some r => exact ⟨fuel,r,hcomplete⟩
    · intro h
      cases hskb : s'.priv.uleSkb with
      | none => exact ⟨0,by simp⟩
      | some skb =>
        by_cases hzero : s'.priv.uleSnduRemain = 0
        · obtain ⟨fuel,r,hr⟩ := complete_ends_iff.mpr (h s' skb rfl hskb hzero)
          exact ⟨fuel,by simp [hr]⟩
        · exact ⟨0,by simp [hzero]⟩

theorem syncsAtEnd_again {fuel : Nat} (hok : s.Ok) (h : SyncsAtEnd c s) :
    ∃ s', ulePass dev c fuel s = .again s' ∧ SyncsAtEnd c s' ∧ s'.ts = s.ts := by
  obtain ⟨hnew,hneed,hvalid,hpusi,hpointer⟩ := h
  have hskb := hok.priv.sync hneed
  have hidle := hok.priv.idle hskb
  have hle : ¬ c.pointerField s.ts > 184 := by omega
  have hshort : subU8 184 (1 + c.pointerField s.ts) < 2 := by
    unfold subU8
    omega
  have hpass : ∃ s', ulePass dev c fuel s = .again s' ∧ s'.ts = s.ts ∧ s'.newTs = s.newTs ∧
      s'.priv.needPusi = true := by
    simp [ulePass,uleReceive,uleNewCell,uleSynchronise,uleContinuity,ulePointer,uleFlush,
      ulePayload,uleHeader,uleLength,UleLoop.reads,UleLoop.consume,hnew,hneed,hvalid,hpusi,
      hle,hskb,hidle,hshort]
  obtain ⟨s',hagain,hts,hnew',hneed'⟩ := hpass
  refine ⟨s',hagain,?_,hts⟩
  unfold SyncsAtEnd
  rw [hts,hnew']
  exact ⟨hnew,hneed',hvalid,hpusi,hpointer⟩

theorem not_ends_of_syncsAtEnd {r : UleLoop} (hwhole : c.bufLen % tsSz = 0) (hok : s.Ok)
    (h : SyncsAtEnd c s) (hin : c.inBuffer s) : ¬ LoopEnds c.inBuffer (ulePass dev c) s r := by
  apply LoopEnds.not_of_stuck (fun s => s.Ok ∧ SyncsAtEnd c s ∧ c.inBuffer s) _ _ ⟨hok,h,hin⟩
  · intro s hs
    exact hs.2.2
  · rintro s fuel ⟨hok,hsyncs,hin⟩
    obtain ⟨s',hagain,hsyncs',hts⟩ := @syncsAtEnd_again dev c s fuel hok hsyncs
    refine ⟨s',hagain,(ulePass_spec hwhole hin hok).ok s' hagain,hsyncs',?_⟩
    unfold UleCall.inBuffer at hin ⊢
    rwa [hts]

theorem dvbNetUle_isSome_iff : (∃ fuel r, dvbNetUle fuel dev p c = some r) ↔
      ∃ s, LoopEnds c.inBuffer (ulePass dev c) (.start p) s := by
  unfold dvbNetUle LoopEnds
  simp only [map_eq_some_iff]
  constructor
  · rintro ⟨fuel,r,s,hs,-⟩
    exact ⟨s,fuel,hs⟩
  · rintro ⟨s,fuel,hs⟩
    exact ⟨fuel,_,s,hs,rfl⟩

end Call

end LinuxDvb.Net
