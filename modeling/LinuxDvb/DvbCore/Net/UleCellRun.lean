import LinuxDvb.DvbCore.Net.UleReceive
import LinuxDvb.DvbCore.Net.UleRuns

/-!
# Receiving a cell

The receiver follows the sender from cell to cell: before a cell it holds what earlier cells carried of the SNDU that
the cell continues, and after the cell it has passed on the SNDUs that end in it.
-/

namespace LinuxDvb.Net

/-- The first `k` bytes of `u` are there. -/
def Started (u : Sndu) (k : Nat) (p : DvbNetPriv) : Prop :=
  k = 0 ∧ Clear p ∨ HeaderSplit u k p ∨ ∃ j skb, k = 4 + j ∧ Filling u j skb p

/-- What the receiver holds before a cell with counter `cc` that continues `pending`. -/
def Holds (cc : Nat) (p : DvbNetPriv) : Option (Sndu × Nat) → Prop
  | none => p.needPusi = true ∧ Clear p
  | some (u, k) =>
    p.needPusi = false ∧ p.tscc = cc ∧ 0 < k ∧ k < u.wire.length ∧ Started u k p

theorem Started.of_tscc {u : Sndu} {k : Nat} {p : DvbNetPriv} (h : Started u k p) (cc : Nat) :
    Started u k { p with tscc := cc } := by
  rcases h with ⟨hk,hclear⟩ | hsplit | ⟨j,skb,hk,hfilling⟩
  · exact .inl ⟨hk,{ hclear with }⟩
  · exact .inr (.inl { hsplit with })
  · exact .inr (.inr ⟨j,skb,hk,{ hfilling with }⟩)

/-- The end of a cell in which `us` were received. -/
structure AfterCell (dev : NetDevice) (cc : Nat) (pending : Option (Sndu × Nat)) (us : List Sndu)
    (s s' : UleLoop) : Prop where
  ts : s'.ts = s.ts + tsSz
  newTs : s'.newTs = true
  holds : Holds cc s'.priv pending
  received : Received dev us s s'

theorem AfterCell.of_received {dev : NetDevice} {cc : Nat} {pending : Option (Sndu × Nat)}
    {us : List Sndu} {s s₀ s' : UleLoop} (hafter : AfterCell dev cc pending us s₀ s')
    (hts : s₀.ts = s.ts) (hreceived : Received dev [] s s₀) : AfterCell dev cc pending us s s' where
  ts := by rw [hafter.ts,hts]
  newTs := hafter.newTs
  holds := hafter.holds
  received := hreceived.trans hafter.received

def AllReadable (dev : NetDevice) (p : DvbNetPriv) (us : List Sndu) : Prop :=
  ∀ u ∈ us, u.addressed dev p = true → u.Readable

theorem AllReadable.of_filter {dev : NetDevice} {p q : DvbNetPriv} {us : List Sndu}
    (h : AllReadable dev p us) (hmode : q.rxMode = p.rxMode) (hmacs : q.multiMacs = p.multiMacs) :
    AllReadable dev q us := by
  intro u hu
  rw [addressed_congr hmode hmacs]
  exact h u hu

theorem AllReadable.subset {dev : NetDevice} {p : DvbNetPriv} {us vs : List Sndu}
    (h : AllReadable dev p us) (hsub : vs ⊆ us) : AllReadable dev p vs :=
  fun u hu => h u (hsub hu)

def uleWork (dev : NetDevice) (c : UleCall) (fuel : Nat) (s : UleLoop) : Flow UleLoop :=
  Pass.flow ((ulePayload c s).andThen (uleFinish fuel dev) |>.andThen fun s => .ok (uleNext c s))

section Cell

variable {dev : NetDevice} {c : UleCall} {s : UleLoop} {u : Sndu} {k : Nat}

theorem inBuffer_of_ts {s₀ : UleLoop} (hin : c.inBuffer s) (hts : s₀.ts = s.ts) : c.inBuffer s₀ := by
  unfold UleCall.inBuffer at *
  rwa [hts]

theorem Sndu.drop_wire (u : Sndu) (k : Nat) : u.wire.drop k = u.header.drop k ++ u.rest.drop (k - 4) := by
  rw [SnduFields.wire,List.drop_append,u.length_header]

theorem uleHeader_started {bytes : List UInt8} (halloc : ∀ n, (c.alloc n).isSome)
    (hstarted : Started u k s.priv) (hat : At c s (u.header.drop k ++ bytes))
    (hbytes : k ≠ 0 → bytes ≠ []) :
    ∃ s' skb, uleHeader c s = .ok s' ∧ At c s' bytes ∧ Filling u (k - 4) skb s'.priv ∧
      SameCell s s' ∧ SameLink s.priv s'.priv := by
  rcases hstarted with ⟨rfl,hclear⟩ | hsplit | ⟨j,skb,rfl,hfilling⟩
  · exact uleHeader_whole halloc hclear hat
  · have hk : k ≠ 0 ∧ k - 4 = 0 := by
      have := hsplit.split
      omega
    rw [hk.2]
    exact uleHeader_rest halloc hsplit hat (hbytes hk.1)
  · have hnil : u.header.drop (4 + j) = [] := drop_eq_nil_of_le (by rw [u.length_header]; omega)
    rw [hnil,nil_append] at hat
    rw [Nat.add_sub_cancel_left]
    refine ⟨s,skb,?_,hat,hfilling,⟨rfl,rfl,rfl⟩,.refl _⟩
    simp [uleHeader,hfilling.uleSkb]

theorem work_of_header {fuel : Nat} {s' : UleLoop}
    (h : uleHeader c { s with ops := s.ops ++ [.work s.ts s.fromWhere s.tsRemain] } = .ok s') :
    uleWork dev c fuel s =
      Pass.flow ((uleFinish fuel dev (uleCopy c s')).andThen fun s => .ok (uleNext c s)) := by
  simp only [uleWork,ulePayload,h,Pass.andThen_ok]

theorem work_part {fuel cc n : Nat} (halloc : ∀ n, (c.alloc n).isSome)
    (hstarted : Started u k s.priv) (hneed : s.priv.needPusi = false) (hcc : s.priv.tscc = cc)
    (hat : At c s ((u.wire.drop k).take n)) (hn : 4 ≤ k + n) (hn' : k ≠ 0 → 4 ≤ n)
    (hlt : k + n < u.wire.length) :
    ∃ s', uleWork dev c fuel s = .again s' ∧ AfterCell dev cc (some (u, k + n)) [] s s' := by
  have hwire := u.length_wire
  have hlen : ((u.rest.drop (k - 4)).take (n - (4 - k))).length = n - (4 - k) := by
    rw [length_take,length_drop,u.length_rest]
    omega
  have hsplit : (u.wire.drop k).take n =
      u.header.drop k ++ (u.rest.drop (k - 4)).take (n - (4 - k)) := by
    rw [u.drop_wire,take_append,length_drop,u.length_header,
      take_of_length_le (by rw [length_drop, u.length_header]; omega)]
  rw [hsplit] at hat
  have hbytes : k ≠ 0 → (u.rest.drop (k - 4)).take (n - (4 - k)) ≠ [] := by
    intro hk
    rw [← length_pos_iff,hlen]
    have := hn' hk
    omega
  obtain ⟨s₁,skb,hheader,hat₁,hfilling,hcell,hlink⟩ :=
    @uleHeader_started c { s with ops := s.ops ++ [.work s.ts s.fromWhere s.tsRemain] } u k _ halloc
      hstarted (hat.of_eq rfl rfl) hbytes
  obtain ⟨s₂,skb',hflow,hfilling',hts,hnew,hrx,hlink'⟩ :=
    @uleCopy_part dev c s₁ u fuel (k - 4) skb _ hfilling hat₁ (by rw [hlen]) (by rw [hlen]; omega)
  refine ⟨s₂,(work_of_header hheader).trans hflow,?_,hnew,?_,?_⟩
  · rw [hts,hcell.ts]
  · refine ⟨?_,?_,by omega,hlt,.inr (.inr ⟨_,skb',?_,hfilling'⟩)⟩
    · rw [hlink'.needPusi,hlink.needPusi,hneed]
    · rw [hlink'.tscc,hlink.tscc,hcc]
    · rw [hlen]
      omega
  · have hreceived := (hlink.received hcell.rx).trans (@SameLink.received dev _ _ hlink' hrx)
    exact ⟨hreceived.rx,hreceived.errors,hreceived.rxMode,hreceived.multiMacs⟩

def NextRun (dev : NetDevice) (c : UleCall) (us : List Sndu) : Prop :=
  ∀ (cc room : Nat) (s : UleLoop), c.inBuffer s → Clear s.priv → s.priv.needPusi = false →
    s.priv.tscc = cc → At c s (padded room (wires us)) → Fits room us → AllReadable dev s.priv us →
    ∃ s', LoopReaches c.inBuffer (ulePass dev c) (uleNext c s) s' ∧
      AfterCell dev cc (cutSndu room us) (wholeSndus room us) s s'

theorem work_whole {us : List Sndu} {cc room : Nat} (hnext : NextRun dev c us)
    (halloc : ∀ n, (c.alloc n).isSome) (hin : c.inBuffer s) (hstarted : Started u k s.priv)
    (hneed : s.priv.needPusi = false) (hcc : s.priv.tscc = cc) (hk : k < u.wire.length)
    (hat : At c s (u.wire.drop k ++ padded room (wires us))) (hfits : Fits room us)
    (hread : AllReadable dev s.priv (u :: us)) :
    ∃ fuel s₁ s', uleWork dev c fuel s = .again s₁ ∧
      LoopReaches c.inBuffer (ulePass dev c) s₁ s' ∧
      AfterCell dev cc (cutSndu room us) (u :: wholeSndus room us) s s' := by
  have hwire := u.length_wire
  rw [u.drop_wire,append_assoc] at hat
  have hbytes : k ≠ 0 → u.rest.drop (k - 4) ++ padded room (wires us) ≠ [] := by
    intro _ hnil
    have := congrArg List.length hnil
    have hge := u.length_ge
    simp only [length_append,length_drop,u.length_rest,length_nil] at this
    omega
  obtain ⟨s₁,skb,hheader,hat₁,hfilling,hcell,hlink⟩ :=
    @uleHeader_started c { s with ops := s.ops ++ [.work s.ts s.fromWhere s.tsRemain] } u k _ halloc
      hstarted (hat.of_eq rfl rfl) hbytes
  obtain ⟨s₂,hfinish,hat₂,hclear,hts,hreceived,hneed₂,htscc⟩ :=
    @uleCopy_whole dev c s₁ u (k - 4) skb _ hfilling hat₁
      (hread.of_filter hlink.rxMode hlink.multiMacs u mem_cons_self)
  have hts₂ : s₂.ts = s.ts := hts.trans hcell.ts
  have hread₂ : AllReadable dev s₂.priv us :=
    (hread.subset (List.subset_cons_self u us)).of_filter (hreceived.rxMode.trans hlink.rxMode)
      (hreceived.multiMacs.trans hlink.multiMacs)
  obtain ⟨s',hreaches,hafter⟩ := hnext cc room s₂ (inBuffer_of_ts hin hts₂) hclear
    (by rw [hneed₂,hlink.needPusi,hneed]) (by rw [htscc,hlink.tscc,hcc]) hat₂ hfits hread₂
  refine ⟨u.headers.length + 1,uleNext c s₂,s',?_,hreaches,?_,hafter.newTs,hafter.holds,?_⟩
  · rw [work_of_header hheader,hfinish]
    rfl
  · rw [hafter.ts,hts₂]
  · have hall := ((hlink.received hcell.rx).trans hreceived).trans hafter.received
    exact ⟨hall.rx,hall.errors,hall.rxMode,hall.multiMacs⟩

theorem wires_cons (u : Sndu) (us : List Sndu) : wires (u :: us) = u.wire ++ wires us := rfl

theorem work_first {us : List Sndu} {cc room : Nat} (hnext : NextRun dev c us)
    (halloc : ∀ n, (c.alloc n).isSome) (hin : c.inBuffer s) (hclear : Clear s.priv)
    (hneed : s.priv.needPusi = false) (hcc : s.priv.tscc = cc)
    (hat : At c s (padded room (wires (u :: us)))) (hfits : Fits room (u :: us))
    (hread : AllReadable dev s.priv (u :: us)) :
    ∃ fuel s₁ s', uleWork dev c fuel s = .again s₁ ∧
      LoopReaches c.inBuffer (ulePass dev c) s₁ s' ∧
      AfterCell dev cc (cutSndu room (u :: us)) (wholeSndus room (u :: us)) s s' := by
  have hwire := u.length_wire
  have hge := hfits.1
  have hstarted : Started u 0 s.priv := .inl ⟨rfl,hclear⟩
  rw [cutSndu,wholeSndus]
  rw [wires_cons] at hat
  by_cases hcut : room < u.wire.length
  · rw [if_pos hcut,if_pos hcut]
    rw [padded_of_le (by rw [length_append]; omega),
      take_append_of_le_length (by omega)] at hat
    by_cases hsplit : room < 4
    · have hheader : u.wire.take room = u.header.take room := by
        rw [SnduFields.wire,take_append_of_le_length (by rw [u.length_header]; omega)]
      rw [hheader] at hat
      obtain ⟨s',hagain,hsplit',hts,hnew,hrx,hlink⟩ :=
        @uleHeader_cut c { s with ops := s.ops ++ [.work s.ts s.fromWhere s.tsRemain] } u room hclear
          (by omega) (hat.of_eq rfl rfl)
      have hreceived := @SameLink.received dev _ _ hlink hrx
      refine ⟨0,s',s',?_,.refl,hts,hnew,?_,
        ⟨hreceived.rx,hreceived.errors,hreceived.rxMode,hreceived.multiMacs⟩⟩
      · simp only [uleWork,ulePayload,hagain,Pass.andThen_error,Pass.flow_error]
      · exact ⟨hlink.needPusi.trans hneed,hlink.tscc.trans hcc,by omega,hcut,.inr (.inl hsplit')⟩
    · obtain ⟨s',hagain,hafter⟩ := @work_part dev c s u 0 0 cc room halloc hstarted hneed hcc
        (by simpa using hat) (by omega) (by simp) (by omega)
      rw [Nat.zero_add] at hafter
      exact ⟨0,s',s',hagain,.refl,hafter⟩
  · rw [if_neg hcut,if_neg hcut]
    rw [padded_append (by omega)] at hat
    exact work_whole hnext halloc hin hstarted hneed hcc (by omega) (by simpa using hat) hfits.2 hread

theorem ulePass_goesOn {fuel : Nat} (hnew : s.newTs = false) (hneed : s.priv.needPusi = false) :
    ulePass dev c fuel s = uleWork dev c fuel s := by
  simp [ulePass,uleReceive,uleWork,uleNewCell,uleSynchronise,uleContinuity,hnew,hneed]

theorem next_run (halloc : ∀ n, (c.alloc n).isSome) (us : List Sndu) : NextRun dev c us := by
  induction us with
  | nil =>
    intro cc room s hin hclear hneed hcc hat _ _
    have hpadding : padded room (wires []) = List.replicate room 0xff := by
      simp [padded,wires]
    rw [hpadding] at hat
    obtain ⟨hnew,hts,hclear',hneed',hreceived⟩ := @uleNext_padding dev c s room hclear hat
    exact ⟨_,.refl,hts,hnew,⟨hneed',hclear'⟩,hreceived⟩
  | cons v vs ih =>
    intro cc room s hin hclear hneed hcc hat hfits hread
    -- the next SNDU starts with its length field
    have hwires : wires (v :: vs) = htons v.lengthField ++ (htons v.type ++ (v.rest ++ wires vs)) := by
      rw [wires_cons,SnduFields.wire,v.header_eq,append_assoc,append_assoc]
    have hlen : (htons v.lengthField).length ≤ room := hfits.1
    obtain ⟨more,hmore⟩ : ∃ more, padded room (wires (v :: vs)) = htons v.lengthField ++ more :=
      ⟨_,by rw [hwires,padded_append hlen]⟩
    rw [hmore] at hat
    obtain ⟨hnew,hts,hrx,hat',hclear',hlink⟩ := uleNext_more hclear hat
    rw [← hmore] at hat'
    have hin' : c.inBuffer (uleNext c s) := inBuffer_of_ts hin hts
    obtain ⟨fuel,s₁,s',hagain,hreaches,hafter⟩ := work_first ih halloc hin' hclear'
      (hlink.needPusi.trans hneed) (hlink.tscc.trans hcc) hat' hfits
      (hread.of_filter hlink.rxMode hlink.multiMacs)
    rw [← ulePass_goesOn hnew (hlink.needPusi.trans hneed)] at hagain
    refine ⟨s',(LoopReaches.pass fuel .refl hin' hagain).trans hreaches,?_,hafter.newTs,
      hafter.holds,(hlink.received hrx).trans hafter.received⟩
    rw [hafter.ts,hts]

def uleEnter (c : UleCall) (s : UleLoop) : Pass UleLoop :=
  (uleNewCell c s).andThen (uleSynchronise c) |>.andThen (uleContinuity c)

theorem ulePass_of_enter {fuel : Nat} {s' : UleLoop} (h : uleEnter c s = .ok s') :
    ulePass dev c fuel s = uleWork dev c fuel s' := by
  unfold uleEnter at h
  simp only [ulePass,uleReceive,h,uleWork,Pass.andThen_ok]

theorem ulePass_of_enter_error {fuel : Nat} {f : Flow UleLoop} (h : uleEnter c s = .error f) :
    ulePass dev c fuel s = f := by
  unfold uleEnter at h
  simp only [ulePass,uleReceive,h,Pass.andThen_error,Pass.flow_error]

/-- The buffer holds the cell at `t`. -/
structure CellAt (c : UleCall) (t : Nat) (cell : UleCell) (cc : Nat) : Prop where
  valid : c.validCell t = true
  pusi : c.pusi t = cell.pusi
  cc : c.cc t = cc
  payload : c.buf.slice (t + 4) 184 = cell.payload

variable {cell : UleCell} {cc : Nat}

def cellSeen (s : UleLoop) : UleLoop :=
  { s.reads s.ts 4 with tsRemain := 184, fromWhere := s.ts + 4 }

def cellStart (s : UleLoop) (cc : Nat) : UleLoop :=
  { (cellSeen s).reads (s.ts + 1) 3 with priv := { s.priv with tscc := (cc + 1) % 16 } }

theorem uleNewCell_eq (hcell : CellAt c s.ts cell cc) (hnew : s.newTs = true) : uleNewCell c s = .ok (cellSeen s) := by
  rw [uleNewCell,if_pos hnew,if_pos hcell.valid]
  rfl

theorem enter_eq (hcell : CellAt c s.ts cell cc) (hnew : s.newTs = true)
    (hneed : s.priv.needPusi = false) (hcc : s.priv.tscc = cc) :
    uleEnter c s =
      if cell.pusi then (ulePointer c (cellStart s cc)).andThen fun s => .ok (uleFlush c s)
      else .ok (cellStart s cc) := by
  have hsync : uleSynchronise c (cellSeen s) = .ok (cellSeen s) := by
    rw [uleSynchronise,if_neg (by simp [cellSeen, UleLoop.reads, hneed])]
  have hcounter : c.cc (cellSeen s).ts = (cellSeen s).priv.tscc := hcell.cc.trans hcc.symm
  have hpusi : c.pusi (cellSeen s).ts = cell.pusi := hcell.pusi
  unfold uleEnter
  rw [uleNewCell_eq hcell hnew,Pass.andThen_ok,hsync,Pass.andThen_ok,uleContinuity,
    if_pos (show (cellSeen s).newTs = true from hnew),if_pos hcounter,hpusi,← hcounter]
  change _ = if cell.pusi then (ulePointer c (cellStart s cc)).andThen _ else _
  rw [← hcell.cc]
  rfl

theorem CellAt.cellStart_at (hcell : CellAt c s.ts cell cc) : At c (cellStart s cc) cell.payload where
  tsRemain := (length_payload cell).symm
  slice := by
    rw [length_payload]
    exact hcell.payload
  small := by
    rw [length_payload]
    decide

theorem enter_continued (hcell : CellAt c s.ts cell cc) (hpusi : cell.pusi = false)
    (hnew : s.newTs = true) (hneed : s.priv.needPusi = false) (hcc : s.priv.tscc = cc) :
    ∃ s', uleEnter c s = .ok s' ∧ At c s' cell.payload ∧ SameCell s s' ∧
      s'.priv = { s.priv with tscc := (cc + 1) % 16 } := by
  refine ⟨cellStart s cc,?_,hcell.cellStart_at,⟨rfl,rfl,rfl⟩,rfl⟩
  rw [enter_eq hcell hnew hneed hcc,hpusi]
  rfl

section Pointer

variable {pointer : UInt8} {bytes : List UInt8}

theorem CellAt.slice_pointer (hcell : CellAt c s.ts cell cc) (hpayload : cell.payload = pointer :: bytes) :
    c.buf (s.ts + 4) = pointer ∧ c.buf.slice (s.ts + 5) 183 = bytes := by
  have hslice := hcell.payload
  rw [hpayload,Mem.slice_succ,List.cons.injEq] at hslice
  exact hslice

theorem uleFlush_of_le (h : s.priv.uleSnduRemain ≤ 183) : uleFlush c s = s := by
  rw [uleFlush,if_neg (by omega)]

theorem enter_pointer (hcell : CellAt c s.ts cell cc)
    (hpayload : cell.payload = pointer :: bytes) (hpusi : cell.pusi = true)
    (hnew : s.newTs = true) (hneed : s.priv.needPusi = false) (hcc : s.priv.tscc = cc)
    (hpointer : pointer.toNat = s.priv.uleSnduRemain) (hlt : pointer.toNat < 183) :
    ∃ s', uleEnter c s = .ok s' ∧ At c s' bytes ∧ SameCell s s' ∧
      s'.priv = { s.priv with tscc := (cc + 1) % 16 } := by
  obtain ⟨hbyte,hslice⟩ := hcell.slice_pointer hpayload
  have hlen : bytes.length = 183 := by
    rw [← hslice,Mem.length_slice]
  have hok : ulePointer c (cellStart s cc) =
      .ok (((cellStart s cc).reads (s.ts + 4) 1).consume 1) := by
    have hbyte' : c.buf (cellStart s cc).fromWhere = pointer := hbyte
    have hremain : (cellStart s cc).tsRemain = 184 := rfl
    simp only [ulePointer,hbyte',hremain]
    rw [if_neg (by simp [cellStart, hneed]),if_pos ⟨by omega,hpointer⟩]
    rfl
  have hremain : (((cellStart s cc).reads (s.ts + 4) 1).consume 1).priv.uleSnduRemain ≤ 183 := by
    change s.priv.uleSnduRemain ≤ 183
    omega
  have hat : At c (cellStart s cc) ([pointer] ++ bytes) := by
    rw [singleton_append,← hpayload]
    exact hcell.cellStart_at
  refine ⟨((cellStart s cc).reads (s.ts + 4) 1).consume 1,?_,hat.consume _ rfl rfl,⟨rfl,rfl,rfl⟩,rfl⟩
  rw [enter_eq hcell hnew hneed hcc,hpusi,if_pos rfl,hok,Pass.andThen_ok,uleFlush_of_le hremain]

theorem enter_retry (hcell : CellAt c s.ts cell cc)
    (hpayload : cell.payload = pointer :: bytes) (hpusi : cell.pusi = true)
    (hnew : s.newTs = true) (hneed : s.priv.needPusi = false) (hcc : s.priv.tscc = cc)
    (hpointer : pointer.toNat ≠ s.priv.uleSnduRemain) :
    ∃ s', uleEnter c s = .error (.again s') ∧ s'.ts = s.ts ∧ s'.newTs = true ∧ s'.rx = s.rx ∧
      s'.priv = dropSndu { s.priv with tscc := (cc + 1) % 16 } := by
  obtain ⟨hbyte,-⟩ := hcell.slice_pointer hpayload
  have herror : ulePointer c (cellStart s cc) = .error (.again
      { (cellStart s cc).reads (s.ts + 4) 1 with priv := dropSndu (cellStart s cc).priv }) := by
    have hbyte' : c.buf (cellStart s cc).fromWhere = pointer := hbyte
    simp only [ulePointer,hbyte']
    rw [if_neg (by simp [cellStart, hneed]),if_neg]
    · rfl
    · rintro ⟨-,heq⟩
      exact hpointer heq
  refine ⟨{ (cellStart s cc).reads (s.ts + 4) 1 with priv := dropSndu (cellStart s cc).priv },?_,rfl,hnew,rfl,rfl⟩
  rw [enter_eq hcell hnew hneed hcc,hpusi,if_pos rfl,herror]
  rfl

theorem enter_sync (hcell : CellAt c s.ts cell cc)
    (hpayload : cell.payload = pointer :: bytes) (hpusi : cell.pusi = true)
    (hnew : s.newTs = true) (hneed : s.priv.needPusi = true) (hclear : Clear s.priv)
    (hle : pointer.toNat ≤ 183) :
    ∃ s', uleEnter c s = .ok s' ∧ At c s' (bytes.drop pointer.toNat) ∧ SameCell s s' ∧
      s'.priv = { s.priv with needPusi := false, tscc := (cc + 1) % 16 } := by
  obtain ⟨hbyte,hslice⟩ := hcell.slice_pointer hpayload
  have hfield : c.pointerField s.ts = pointer.toNat := congrArg UInt8.toNat hbyte
  have hlen : bytes.length = 183 := by
    rw [← hslice,Mem.length_slice]
  have hcut : (pointer :: bytes.take pointer.toNat).length = 1 + pointer.toNat := by
    rw [length_cons,length_take,hlen]
    omega
  -- the state behind the pointer field
  let synced := { UleLoop.consume { (cellSeen s).reads (s.ts + 1) 4 with
    priv := { s.priv with tscc := cc } } (1 + pointer.toNat) with fromWhere := s.ts + 5 + pointer.toNat }
  have hsync : uleSynchronise c (cellSeen s) = .ok synced := by
    have hneed' : (cellSeen s).priv.needPusi = true := hneed
    have hpusi' : c.pusi (cellSeen s).ts = true := hcell.pusi.trans hpusi
    have hcc' : c.cc (cellSeen s).ts = cc := hcell.cc
    have hfield' : c.pointerField (cellSeen s).ts = pointer.toNat := hfield
    have hremain : (cellSeen s).tsRemain = 184 := rfl
    rw [uleSynchronise,if_pos hneed',if_pos hpusi']
    simp only [hcc',hfield',hremain]
    rw [if_neg (by omega)]
    rfl
  let priv := { s.priv with needPusi := false, tscc := (cc + 1) % 16 }
  have hcontinuity : uleContinuity c synced =
      .ok { synced.reads (s.ts + 1) 3 with priv := priv } := by
    have hnew' : synced.newTs = true := hnew
    have hcc' : c.cc synced.ts = synced.priv.tscc := hcell.cc
    have hpusi' : c.pusi synced.ts = true := hcell.pusi.trans hpusi
    let counted := { synced.reads (s.ts + 1) 3 with priv := { s.priv with tscc := (cc + 1) % 16 } }
    have hpointer : ulePointer c counted = .ok { counted with priv := priv } := by
      rw [ulePointer,if_pos (show counted.priv.needPusi = true from hneed)]
    have hremain : ({ counted with priv := priv } : UleLoop).priv.uleSnduRemain ≤ 183 := by
      change s.priv.uleSnduRemain ≤ 183
      rw [hclear.uleSnduRemain]
      decide
    rw [uleContinuity,if_pos hnew',if_pos hcc']
    simp only [hpusi',if_true]
    change (ulePointer c counted).andThen _ = _
    rw [hpointer,Pass.andThen_ok,uleFlush_of_le hremain]
  refine ⟨{ synced.reads (s.ts + 1) 3 with priv := priv },?_,?_,⟨rfl,rfl,rfl⟩,rfl⟩
  · rw [uleEnter,uleNewCell_eq hcell hnew,Pass.andThen_ok,hsync,Pass.andThen_ok,hcontinuity]
  · have hat : At c (cellStart s cc) ((pointer :: bytes.take pointer.toNat) ++ bytes.drop pointer.toNat) := by
      rw [cons_append,take_append_drop,← hpayload]
      exact hcell.cellStart_at
    have hat' := hat.consume (cellStart s cc) rfl rfl
    rw [hcut] at hat'
    apply hat'.of_eq
    · rfl
    · change s.ts + 5 + pointer.toNat = s.ts + 4 + (1 + pointer.toNat)
      omega

end Pointer

theorem enter_skip (hcell : CellAt c s.ts cell cc) (hpusi : cell.pusi = false)
    (hnew : s.newTs = true) (hneed : s.priv.needPusi = true) :
    ∃ s', uleEnter c s = .error (.again s') ∧ s'.ts = s.ts + tsSz ∧ s'.newTs = true ∧
      s'.rx = s.rx ∧ s'.priv = s.priv := by
  refine ⟨({ s.reads s.ts 4 with tsRemain := 184, fromWhere := s.ts + 4 }.reads (s.ts + 1) 1).nextCell,
    ?_,rfl,hnew,rfl,rfl⟩
  simp only [uleEnter,uleNewCell,hnew,hcell.valid,if_true,Pass.andThen_ok,uleSynchronise,
    UleLoop.reads,hneed,hcell.pusi,hpusi,Bool.false_eq_true,if_false,Pass.andThen_error]

theorem counted {s₀ : UleLoop} (hsame : SameCell s s₀)
    (hpriv : s₀.priv = { s.priv with tscc := (cc + 1) % 16 }) (hstarted : Started u k s.priv) :
    Received dev [] s s₀ ∧ Started u k s₀.priv ∧ s₀.priv.needPusi = s.priv.needPusi ∧
      s₀.priv.tscc = (cc + 1) % 16 := by
  rw [hpriv]
  refine ⟨⟨by simp [hsame.rx],?_,?_,?_⟩,hstarted.of_tscc _,rfl,rfl⟩
  · rw [hpriv]
    exact .refl _
  · rw [hpriv]
  · rw [hpriv]

theorem run_of_enter {s₀ : UleLoop} {pending : Option (Sndu × Nat)} {us : List Sndu}
    (hin : c.inBuffer s) (henter : uleEnter c s = .ok s₀) (hcell : SameCell s s₀)
    (hreceived : Received dev [] s s₀)
    (hwork : ∃ fuel s₁ s', uleWork dev c fuel s₀ = .again s₁ ∧
      LoopReaches c.inBuffer (ulePass dev c) s₁ s' ∧ AfterCell dev cc pending us s₀ s') :
    ∃ s', LoopReaches c.inBuffer (ulePass dev c) s s' ∧ AfterCell dev cc pending us s s' := by
  obtain ⟨fuel,s₁,s',hagain,hreaches,hafter⟩ := hwork
  rw [← ulePass_of_enter henter] at hagain
  exact ⟨s',(LoopReaches.pass fuel .refl hin hagain).trans hreaches,hafter.of_received hcell.ts hreceived⟩

theorem UleCell.tail_of_continued (hcont : cell.continued = some (u, k)) : cell.tail = u.wire.drop k := by
  rw [UleCell.tail,hcont]

theorem UleCell.length_tail (hcont : cell.continued = some (u, k)) : cell.tail.length = u.wire.length - k := by
  rw [UleCell.tail_of_continued hcont,length_drop]

theorem payload_of_pusi (hpusi : cell.pusi = true) (hle : cell.tail.length ≤ 183) :
    cell.payload = UInt8.ofNat cell.tail.length ::
      (cell.tail ++ padded (183 - cell.tail.length) (wires cell.started)) := by
  rw [UleCell.payload,if_pos hpusi,padded_append hle]

theorem UleCell.toNat_pointer (cell : UleCell) (hle : cell.tail.length ≤ 183) :
    (UInt8.ofNat cell.tail.length).toNat = cell.tail.length := by
  rw [UInt8.toNat_ofNat',Nat.mod_eq_of_lt (by omega)]

theorem UleCell.started_ne_nil (hpusi : cell.pusi = true) : cell.started ≠ [] := by
  intro hnil
  simp [UleCell.pusi,hnil] at hpusi

theorem fits_of_pusi (hpusi : cell.pusi = true) (hfits : Fits (183 - cell.tail.length) cell.started) :
    cell.tail.length ≤ 181 := by
  obtain ⟨u,us,hstarted⟩ := exists_cons_of_ne_nil (UleCell.started_ne_nil hpusi)
  rw [hstarted] at hfits
  have := hfits.1
  omega

theorem sync_run (halloc : ∀ n, (c.alloc n).isSome) (hin : c.inBuffer s)
    (hcell : CellAt c s.ts cell cc) (hpusi : cell.pusi = true) (hnew : s.newTs = true)
    (hneed : s.priv.needPusi = true) (hclear : Clear s.priv)
    (hfits : Fits (183 - cell.tail.length) cell.started)
    (hread : AllReadable dev s.priv cell.started) :
    ∃ s', LoopReaches c.inBuffer (ulePass dev c) s s' ∧
      AfterCell dev ((cc + 1) % 16) cell.leaves
        (wholeSndus (183 - cell.tail.length) cell.started) s s' := by
  have hleaves : cell.leaves = cutSndu (183 - cell.tail.length) cell.started := by
    rw [UleCell.leaves,if_pos hpusi]
  have hroom := fits_of_pusi hpusi hfits
  have hpointer := cell.toNat_pointer (by omega)
  obtain ⟨u,us,hstarted⟩ := exists_cons_of_ne_nil (UleCell.started_ne_nil hpusi)
  rw [hstarted] at hfits
  obtain ⟨s₀,henter,hat,hsame,hpriv⟩ := enter_sync hcell (payload_of_pusi hpusi (by omega)) hpusi hnew
    hneed hclear (by omega)
  rw [hpointer,drop_left,hstarted] at hat
  have hreceived : Received dev [] s s₀ :=
    ⟨by simp [hsame.rx],by rw [hpriv]; exact .refl _,by rw [hpriv],by rw [hpriv]⟩
  rw [hleaves,hstarted]
  apply run_of_enter hin henter hsame hreceived
  apply work_first (next_run halloc us) halloc (inBuffer_of_ts hin hsame.ts) _ _ _ hat hfits
    ((hstarted ▸ hread).of_filter hreceived.rxMode hreceived.multiMacs)
  · rw [hpriv]
    exact ⟨hclear.uleSkb,hclear.uleSnduLen,hclear.uleSnduType1,hclear.uleSnduRemain,hclear.uleBridged⟩
  · rw [hpriv]
  · rw [hpriv]

theorem continued_run (halloc : ∀ n, (c.alloc n).isSome) (hin : c.inBuffer s)
    (hcell : CellAt c s.ts cell cc) (hpusi : cell.pusi = false) (hcont : cell.continued = some (u, k))
    (hnew : s.newTs = true) (hholds : Holds cc s.priv (some (u, k)))
    (hread : AllReadable dev s.priv [u]) :
    ∃ s', LoopReaches c.inBuffer (ulePass dev c) s s' ∧
      AfterCell dev ((cc + 1) % 16) cell.leaves cell.ended s s' := by
  obtain ⟨hneed,hcc,hpos,hk,hstarted⟩ := hholds
  have htail := UleCell.tail_of_continued hcont
  have hlen := UleCell.length_tail hcont
  have hnil : cell.started = [] := by simpa [UleCell.pusi] using hpusi
  have hpayload : cell.payload = padded 184 (u.wire.drop k) := by simp [UleCell.payload,hpusi,htail]
  have hleaves : cell.leaves = if 184 < u.wire.length - k then some (u, k + 184) else none := by
    simp [UleCell.leaves,hpusi,hcont]
  have hended : cell.ended = if u.wire.length - k ≤ 184 then [u] else [] := by
    simp [UleCell.ended,hpusi,hcont,hnil,wholeSndus,hlen,apply_ite]
  obtain ⟨s₀,henter,hat,hsame,hpriv⟩ := enter_continued hcell hpusi hnew hneed hcc
  obtain ⟨hreceived,hstarted₀,hneed₀,hcc₀⟩ := @counted dev s u k cc s₀ hsame hpriv hstarted
  have hin₀ : c.inBuffer s₀ := inBuffer_of_ts hin hsame.ts
  apply run_of_enter hin henter hsame hreceived
  rw [hpayload] at hat
  rw [hleaves,hended]
  by_cases hlong : 184 < u.wire.length - k
  · rw [if_pos hlong,if_neg (by omega)]
    rw [padded_of_le (by rw [length_drop]; omega)] at hat
    obtain ⟨s',hagain,hafter⟩ := @work_part dev c s₀ u k 0 ((cc + 1) % 16) 184 halloc hstarted₀
      (hneed₀.trans hneed) hcc₀ hat (by omega) (by omega) (by omega)
    exact ⟨0,s',s',hagain,.refl,hafter⟩
  · rw [if_neg hlong,if_pos (by omega)]
    rw [← append_nil (u.wire.drop k),padded_append (by rw [length_drop]; omega)] at hat
    exact work_whole (next_run halloc []) halloc hin₀ hstarted₀ (hneed₀.trans hneed) hcc₀ hk hat trivial
      (hread.of_filter hreceived.rxMode hreceived.multiMacs)

theorem pointer_run (halloc : ∀ n, (c.alloc n).isSome) (hin : c.inBuffer s)
    (hcell : CellAt c s.ts cell cc) (hpusi : cell.pusi = true) (hcont : cell.continued = some (u, k))
    (hfour : 4 ≤ k) (hnew : s.newTs = true) (hholds : Holds cc s.priv (some (u, k)))
    (hfits : Fits (183 - cell.tail.length) cell.started)
    (hread : AllReadable dev s.priv (u :: cell.started)) :
    ∃ s', LoopReaches c.inBuffer (ulePass dev c) s s' ∧
      AfterCell dev ((cc + 1) % 16) cell.leaves cell.ended s s' := by
  obtain ⟨hneed,hcc,hpos,hk,hstarted⟩ := hholds
  have hwire := u.length_wire
  have htail := UleCell.tail_of_continued hcont
  have hlen := UleCell.length_tail hcont
  have hroom := fits_of_pusi hpusi hfits
  have hremain : s.priv.uleSnduRemain = cell.tail.length := by
    rcases hstarted with ⟨rfl,-⟩ | hsplit | ⟨j,skb,rfl,hfilling⟩
    · omega
    · have := hsplit.split
      omega
    · rw [hfilling.uleSnduRemain]
      omega
  have hpointer := cell.toNat_pointer (by omega)
  have hleaves : cell.leaves = cutSndu (183 - cell.tail.length) cell.started := by
    rw [UleCell.leaves,if_pos hpusi]
  have hended : cell.ended = u :: wholeSndus (183 - cell.tail.length) cell.started := by
    simp [UleCell.ended,hpusi,hcont]
  obtain ⟨s₀,henter,hat,hsame,hpriv⟩ := enter_pointer hcell (payload_of_pusi hpusi (by omega)) hpusi
    hnew hneed hcc (by omega) (by omega)
  obtain ⟨hreceived,hstarted₀,hneed₀,hcc₀⟩ := @counted dev s u k cc s₀ hsame hpriv hstarted
  have hin₀ : c.inBuffer s₀ := inBuffer_of_ts hin hsame.ts
  rw [hleaves,hended]
  apply run_of_enter hin henter hsame hreceived
  exact work_whole (next_run halloc cell.started) halloc hin₀ hstarted₀ (hneed₀.trans hneed) hcc₀ hk
    (htail ▸ hat) hfits (hread.of_filter hreceived.rxMode hreceived.multiMacs)

/-- A cell with PUSI that continues `u`, of which only a part of the header was received before: the
pointer field does not fit `ule_sndu_remain`, and `u` is lost. -/
theorem retry_run (halloc : ∀ n, (c.alloc n).isSome) (hin : c.inBuffer s)
    (hcell : CellAt c s.ts cell cc) (hpusi : cell.pusi = true) (hcont : cell.continued = some (u, k))
    (hfour : k < 4) (hnew : s.newTs = true) (hholds : Holds cc s.priv (some (u, k)))
    (hfits : Fits (183 - cell.tail.length) cell.started)
    (hread : AllReadable dev s.priv cell.started) :
    ∃ s', LoopReaches c.inBuffer (ulePass dev c) s s' ∧
      AfterCell dev ((cc + 1) % 16) cell.leaves
        (wholeSndus (183 - cell.tail.length) cell.started) s s' := by
  obtain ⟨hneed,hcc,hpos,hk,hstarted⟩ := hholds
  have hlen := UleCell.length_tail hcont
  have hroom := fits_of_pusi hpusi hfits
  have hsplit : HeaderSplit u k s.priv := by
    rcases hstarted with ⟨rfl,-⟩ | hsplit | ⟨j,skb,rfl,-⟩
    · omega
    · exact hsplit
    · omega
  have hpointer := cell.toNat_pointer (by omega)
  obtain ⟨s₀,henter,hts,hnew₀,hrx,hpriv⟩ := enter_retry hcell (payload_of_pusi hpusi (by omega)) hpusi
    hnew hneed hcc (by rw [hsplit.uleSnduRemain]; omega)
  -- nothing is counted: there is no skb yet
  have hdrop : s₀.priv = { resetUle { s.priv with tscc := (cc + 1) % 16 } with needPusi := true } := by
    rw [hpriv]
    simp only [dropSndu,hsplit.uleSkb]
    rfl
  have hreceived : Received dev [] s s₀ :=
    ⟨by simp [hrx],by rw [hdrop]; exact .refl _,by rw [hdrop]; rfl,by rw [hdrop]; rfl⟩
  have hagain : ulePass dev c 0 s = .again s₀ := ulePass_of_enter_error henter
  obtain ⟨s',hreaches,hafter⟩ := sync_run halloc (inBuffer_of_ts hin hts) (hts ▸ hcell) hpusi hnew₀ (by rw [hdrop])
    (by rw [hdrop]; exact ⟨rfl,rfl,rfl,rfl,rfl⟩) hfits
    (hread.of_filter hreceived.rxMode hreceived.multiMacs)
  exact ⟨s',(LoopReaches.pass 0 .refl hin hagain).trans hreaches,hafter.of_received hts hreceived⟩

def UleCell.received (cell : UleCell) : List Sndu :=
  if cell.splitsHeader then wholeSndus (183 - cell.tail.length) cell.started else cell.ended

theorem cell_run (halloc : ∀ n, (c.alloc n).isSome) (hin : c.inBuffer s)
    (hcell : CellAt c s.ts cell cc) (hnew : s.newTs = true) (hholds : Holds cc s.priv cell.continued)
    (hfits : Fits (183 - cell.tail.length) cell.started)
    (hread : AllReadable dev s.priv ((cell.continued.map Prod.fst).toList ++ cell.started)) :
    ∃ s', LoopReaches c.inBuffer (ulePass dev c) s s' ∧
      AfterCell dev ((cc + 1) % 16) cell.leaves cell.received s s' := by
  cases hcont : cell.continued with
  | none =>
    rw [hcont] at hholds
    obtain ⟨hneed,hclear⟩ := hholds
    have hsplits : cell.splitsHeader = false := by simp [UleCell.splitsHeader,hcont]
    have hended : cell.ended = wholeSndus (183 - cell.tail.length) cell.started := by
      simp [UleCell.ended,hcont]
    rw [UleCell.received,hsplits,if_neg Bool.false_ne_true,hended]
    cases hpusi : cell.pusi with
    | true =>
      exact sync_run halloc hin hcell hpusi hnew hneed hclear hfits
        (hread.subset (List.subset_append_right _ _))
    | false =>
      have hnil : cell.started = [] := by simpa [UleCell.pusi] using hpusi
      have hleaves : cell.leaves = none := by simp [UleCell.leaves,hpusi,hcont]
      obtain ⟨s',henter,hts,hnew',hrx,hpriv⟩ := enter_skip hcell hpusi hnew hneed
      have hagain : ulePass dev c 0 s = .again s' := ulePass_of_enter_error henter
      rw [hleaves,hnil]
      refine ⟨s',.pass 0 .refl hin hagain,hts,hnew',?_,?_⟩
      · rw [hpriv]
        exact ⟨hneed,hclear⟩
      · exact SameLink.received (hpriv ▸ .refl _) hrx
  | some v =>
    obtain ⟨u,k⟩ := v
    rw [hcont] at hholds hread
    cases hpusi : cell.pusi with
    | true =>
      by_cases hfour : k < 4
      · have hsplits : cell.splitsHeader = true := by simp [UleCell.splitsHeader,hpusi,hcont,hfour]
        rw [UleCell.received,if_pos hsplits]
        exact retry_run halloc hin hcell hpusi hcont hfour hnew hholds hfits
          (hread.subset (List.subset_append_right _ _))
      · have hsplits : cell.splitsHeader = false := by simpa [UleCell.splitsHeader,hcont] using fun _ => hfour
        rw [UleCell.received,hsplits,if_neg Bool.false_ne_true]
        exact pointer_run halloc hin hcell hpusi hcont (by omega) hnew hholds hfits hread
    | false =>
      have hsplits : cell.splitsHeader = false := by simp [UleCell.splitsHeader,hpusi]
      rw [UleCell.received,hsplits,if_neg Bool.false_ne_true]
      exact continued_run halloc hin hcell hpusi hcont hnew hholds
        (hread.subset (List.subset_append_left _ _))

end Cell

end LinuxDvb.Net
