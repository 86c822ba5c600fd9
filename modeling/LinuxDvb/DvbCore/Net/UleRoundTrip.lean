import LinuxDvb.DvbCore.Net.UleCellRun

/-!
# ULE round trip

SNDUs that a sender has cut into cells, fed to `dvb_net_ule` in buffers of whole cells. The receiver passes
on the SNDUs that are addressed to the interface, in order and once each, unless the header of one of them
is split between two cells and another SNDU starts in the second one.
-/

namespace LinuxDvb.Net

/-- Calls of `dvb_net_ule` one after another, with the packets of all of them. -/
def uleCalls (fuel : Nat) (dev : NetDevice) : DvbNetPriv → List UleCall →
    Option (DvbNetPriv × List NetPacket)
  | p, [] => some (p, [])
  | p, c :: calls =>
    match dvbNetUle fuel dev p c with
    | none => none
    | some r => (uleCalls fuel dev r.1 calls).map fun t => (t.1, r.2 ++ t.2)

/-- The buffer of the call holds the cells `group`, and `dev_alloc_skb` succeeds. -/
structure Feeds (c : UleCall) (group : List (List UInt8)) : Prop where
  bufLen : c.bufLen = group.flatten.length
  buf : c.buf.slice 0 c.bufLen = group.flatten
  alloc : ∀ n, (c.alloc n).isSome

/-- The receiver is ready for the cells, which arrive as `packets`. -/
def Awaits (dev : NetDevice) (p : DvbNetPriv) (cells : List UleCell) (packets : List (List UInt8)) :
    Prop :=
  ∃ cc pending, CarriesAll cc cells packets ∧ Encapsulation pending cells ∧ Holds cc p pending ∧
    AllReadable dev p ((pending.map Prod.fst).toList ++ cells.flatMap UleCell.started)

section Fuel

variable {dev : NetDevice} {c : UleCall} {p : DvbNetPriv} {fuel fuel' : Nat}

theorem dvbNetUle_mono {r : DvbNetPriv × List NetPacket} (hle : fuel ≤ fuel')
    (h : dvbNetUle fuel dev p c = some r) : dvbNetUle fuel' dev p c = some r := by
  rw [dvbNetUle,map_eq_some_iff] at h ⊢
  obtain ⟨s,hs,hr⟩ := h
  exact ⟨s,runLoop_mono ulePass_fuelMonotone hle hs,hr⟩

theorem uleCalls_cons {calls : List UleCall} {r t : DvbNetPriv × List NetPacket}
    (hcall : dvbNetUle fuel dev p c = some r) (hcalls : uleCalls fuel dev r.1 calls = some t) :
    uleCalls fuel dev p (c :: calls) = some (t.1, r.2 ++ t.2) := by
  rw [uleCalls,hcall]
  simp only [hcalls,map_some]

theorem uleCalls_mono {calls : List UleCall} {r : DvbNetPriv × List NetPacket} (hle : fuel ≤ fuel')
    (h : uleCalls fuel dev p calls = some r) : uleCalls fuel' dev p calls = some r := by
  induction calls generalizing p r with
  | nil => exact h
  | cons c calls ih =>
    rw [uleCalls] at h
    cases hcall : dvbNetUle fuel dev p c with
    | none => simp [hcall] at h
    | some q =>
      simp only [hcall,map_eq_some_iff] at h
      obtain ⟨t,ht,rfl⟩ := h
      exact uleCalls_cons (dvbNetUle_mono hle hcall) (ih ht)

theorem uleCalls_unique {calls : List UleCall} {r r' : DvbNetPriv × List NetPacket}
    (h : uleCalls fuel dev p calls = some r) (h' : uleCalls fuel' dev p calls = some r') : r = r' := by
  have hmax := uleCalls_mono (Nat.le_max_left fuel fuel') h
  rw [uleCalls_mono (Nat.le_max_right fuel fuel') h'] at hmax
  exact (Option.some.inj hmax).symm

end Fuel

section Buffer

variable {dev : NetDevice} {c : UleCall}

theorem Carries.cellAt {bytes : List UInt8} {cell : UleCell} {cc t : Nat} (h : Carries bytes cell cc)
    (hbuf : c.buf.slice t bytes.length = bytes) : CellAt c t cell cc := by
  obtain ⟨b1,b2,b3,rfl,herror,hpusi,hcontrol,hcc⟩ := h
  simp only [length_cons,length_payload] at hbuf
  rw [Mem.slice_succ,Mem.slice_succ,Mem.slice_succ,Mem.slice_succ] at hbuf
  simp only [List.cons.injEq] at hbuf
  obtain ⟨h0,h1,h2,h3,hpayload⟩ := hbuf
  have hscrambling : b3 &&& 0xc0 = 0 := by
    have hmask : b3 &&& 0xc0 = (b3 &&& 0xf0) &&& 0xc0 := by
      rw [UInt8.and_assoc]
      rfl
    rw [hmask,hcontrol]
    rfl
  refine ⟨?_,?_,?_,hpayload⟩
  · simp [UleCall.validCell,h0,h1,h3,herror,hscrambling]
  · rw [UleCall.pusi,h1,hpusi]
  · rw [UleCall.cc,h3,hcc]

theorem Carries.length_eq {bytes : List UInt8} {cell : UleCell} {cc : Nat} (h : Carries bytes cell cc) :
    bytes.length = tsSz := by
  obtain ⟨b1,b2,b3,rfl,-⟩ := h
  simp [length_payload,tsSz]

theorem buffer_run (halloc : ∀ n, (c.alloc n).isSome) {group more : List (List UInt8)}
    {cells : List UleCell} {s : UleLoop} (hawaits : Awaits dev s.priv cells (group ++ more))
    (hnew : s.newTs = true) (hbuf : c.buf.slice s.ts group.flatten.length = group.flatten)
    (hlen : c.bufLen = s.ts + group.flatten.length) :
    ∃ done rest s', cells = done ++ rest ∧ LoopReaches c.inBuffer (ulePass dev c) s s' ∧
      s'.ts = c.bufLen ∧ Awaits dev s'.priv rest more ∧
      Received dev (done.flatMap UleCell.received) s s' := by
  induction group generalizing s cells with
  | nil => exact ⟨[],cells,s,rfl,.refl,hlen.symm,hawaits,by simp,.refl _,rfl,rfl⟩
  | cons bytes group ih =>
    obtain ⟨cc,pending,hcarries,hencaps,hholds,hread⟩ := hawaits
    cases cells with
    | nil => cases hcarries
    | cons cell cells =>
      obtain ⟨hcell,hcarries⟩ := hcarries
      obtain ⟨rfl,hfits,hencaps⟩ := hencaps
      have hbytes := hcell.length_eq
      rw [flatMap_cons,← append_assoc] at hread
      rw [flatten_cons] at hbuf hlen
      obtain ⟨hhead,htail⟩ := (Mem.slice_append_iff _ _ _ _).mp hbuf
      rw [length_append,hbytes] at hlen
      have hin : c.inBuffer s := by
        have : 0 < tsSz := by decide
        unfold UleCall.inBuffer
        omega
      obtain ⟨s₁,hreaches,hafter⟩ :=
        @cell_run dev c s cell cc halloc hin (hcell.cellAt hhead) hnew hholds hfits
          (hread.subset (List.subset_append_left _ _))
      have hts := hafter.ts
      rw [UleCell.ended_append_leaves hfits,append_assoc] at hread
      have hread₁ := (hread.subset (List.subset_append_right _ _)).of_filter hafter.received.rxMode
        hafter.received.multiMacs
      obtain ⟨done,rest,s',rfl,hreaches',hts',hawaits',hreceived⟩ :=
        ih ⟨_,_,hcarries,hencaps,hafter.holds,hread₁⟩ hafter.newTs
          (by rw [hts,← hbytes]; exact htail) (by omega)
      refine ⟨cell :: done,rest,s',rfl,hreaches.trans hreaches',hts',hawaits',?_⟩
      rw [flatMap_cons]
      exact hafter.received.trans hreceived

def packets (dev : NetDevice) (p : DvbNetPriv) (us : List Sndu) : List NetPacket :=
  (us.filter (Sndu.passed dev p)).map (Sndu.packet dev)

theorem call_run {group more : List (List UInt8)} {cells : List UleCell} {p : DvbNetPriv}
    (hfeeds : Feeds c group) (hawaits : Awaits dev p cells (group ++ more)) :
    ∃ done rest fuel p', cells = done ++ rest ∧
      dvbNetUle fuel dev p c = some (p', packets dev p (done.flatMap UleCell.received)) ∧
      Awaits dev p' rest more ∧ SameErrors p.stats p'.stats ∧ p'.rxMode = p.rxMode ∧
      p'.multiMacs = p.multiMacs := by
  have hbuf := hfeeds.buf
  rw [hfeeds.bufLen] at hbuf
  obtain ⟨done,rest,s',rfl,hreaches,hts,hawaits',hreceived⟩ :=
    @buffer_run dev c hfeeds.alloc group more cells (.start p) hawaits rfl hbuf
      (by rw [hfeeds.bufLen]; exact (Nat.zero_add _).symm)
  have hout : ¬ c.inBuffer s' := by
    unfold UleCall.inBuffer
    omega
  obtain ⟨fuel,hfuel⟩ := hreaches.ends ulePass_fuelMonotone (.of_not_guard hout)
  refine ⟨done,rest,fuel,s'.priv,rfl,?_,hawaits',hreceived.errors,hreceived.rxMode,hreceived.multiMacs⟩
  rw [dvbNetUle,hfuel,map_some,hreceived.rx]
  rfl

theorem calls_run {groups : List (List (List UInt8))} {calls : List UleCall} {cells : List UleCell}
    {p : DvbNetPriv} (hfeeds : List.Forall₂ Feeds calls groups) (hawaits : Awaits dev p cells groups.flatten) :
    ∃ fuel p', uleCalls fuel dev p calls =
        some (p', packets dev p (cells.flatMap UleCell.received)) ∧
      SameErrors p.stats p'.stats := by
  induction hfeeds generalizing p cells with
  | nil =>
    obtain ⟨cc,pending,hcarries,-⟩ := hawaits
    cases cells with
    | nil => exact ⟨0,p,rfl,.refl _⟩
    | cons cell cells => cases hcarries
  | cons hcall _ ih =>
    rw [flatten_cons] at hawaits
    obtain ⟨done,rest,fuel,q,rfl,hrun,hawaits',herrors,hmode,hmacs⟩ := call_run hcall hawaits
    obtain ⟨fuel',p',hruns,herrors'⟩ := ih hawaits'
    refine ⟨max fuel fuel',p',?_,herrors.trans herrors'⟩
    rw [uleCalls_cons (dvbNetUle_mono (Nat.le_max_left _ _) hrun) (uleCalls_mono (Nat.le_max_right _ _) hruns)]
    simp only [packets,passed_congr hmode hmacs,List.flatMap_append,filter_append,map_append]

end Buffer

def UleCell.lost (cell : UleCell) : List Sndu :=
  if cell.splitsHeader then (cell.continued.map Prod.fst).toList else []

theorem UleCell.ended_eq (cell : UleCell) : cell.ended = cell.lost ++ cell.received := by
  unfold lost received
  cases hsplits : cell.splitsHeader with
  | true =>
    have hpusi : cell.pusi = true := by
      unfold splitsHeader at hsplits
      exact (Bool.and_eq_true_iff.mp hsplits).1
    simp [ended,hpusi]
  | false => rfl

theorem UleCell.mem_lost {cell : UleCell} {u : Sndu} :
    u ∈ cell.lost ↔ cell.splitsHeader = true ∧ ∃ k, cell.continued = some (u, k) := by
  unfold lost
  cases hsplits : cell.splitsHeader <;> simp

theorem countP_ended (q : Sndu → Bool) (cells : List UleCell) : (cells.flatMap UleCell.ended).countP q =
      (cells.flatMap UleCell.lost).countP q + (cells.flatMap UleCell.received).countP q := by
  induction cells with
  | nil => rfl
  | cons cell cells ih =>
    simp only [flatMap_cons,List.countP_append,cell.ended_eq,ih]
    omega

/-- Each SNDU of `us` that is addressed to the interface gives one packet with its payload, in order, and
no error is counted. -/
def RoundTrip (dev : NetDevice) (p : DvbNetPriv) (calls : List UleCall) (us : List Sndu) : Prop :=
  ∃ fuel p', uleCalls fuel dev p calls =
      some (p', (us.filter (Sndu.addressed dev p)).map (Sndu.packet dev)) ∧
    SameErrors p.stats p'.stats

section RoundTrip

variable {dev : NetDevice} {p : DvbNetPriv} {cells : List UleCell}

theorem packets_received_eq_iff : packets dev p (cells.flatMap UleCell.received) =
        ((cells.flatMap UleCell.ended).filter (Sndu.addressed dev p)).map (Sndu.packet dev) ↔
      (∀ u ∈ cells.flatMap UleCell.lost, u.addressed dev p = false) ∧
        ∀ u ∈ cells.flatMap UleCell.received, u.addressed dev p = true → u.hasEtherType = true := by
  constructor
  · intro heq
    have hlen := congrArg List.length heq
    rw [packets,length_map,length_map,← List.countP_eq_length_filter,
      ← List.countP_eq_length_filter,countP_ended] at hlen
    have hle : (cells.flatMap UleCell.received).countP (Sndu.passed dev p) ≤
        (cells.flatMap UleCell.received).countP (Sndu.addressed dev p) := by
      apply List.countP_mono_left
      intro u _ hpassed
      exact (Bool.and_eq_true_iff.mp hpassed).1
    constructor
    · intro u hu
      have hzero : (cells.flatMap UleCell.lost).countP (Sndu.addressed dev p) = 0 := by omega
      exact Bool.eq_false_iff.mpr (List.countP_eq_zero.mp hzero u hu)
    · -- as many are passed on as are addressed to the interface
      have hsub : ((cells.flatMap UleCell.received).filter (Sndu.passed dev p)).length =
          ((cells.flatMap UleCell.received).filter (Sndu.addressed dev p)).length := by
        rw [← List.countP_eq_length_filter,← List.countP_eq_length_filter]
        omega
      have hfilter : (cells.flatMap UleCell.received).filter (Sndu.passed dev p) =
          ((cells.flatMap UleCell.received).filter (Sndu.addressed dev p)).filter Sndu.hasEtherType := by
        rw [List.filter_filter]
        congr 1
        funext u
        exact Bool.and_comm _ _
      rw [hfilter,List.length_filter_eq_length_iff] at hsub
      intro u hu haddressed
      exact hsub u (mem_filter.mpr ⟨hu,haddressed⟩)
  · rintro ⟨hlost,hether⟩
    rw [packets,List.filter_flatMap,List.filter_flatMap]
    congr 1
    apply List.flatMap_congr
    intro cell hcell
    have hnil : cell.lost.filter (Sndu.addressed dev p) = [] := by
      apply List.filter_eq_nil_iff.mpr
      intro u hu
      simp [hlost u (mem_flatMap.mpr ⟨cell,hcell,hu⟩)]
    rw [cell.ended_eq,filter_append,hnil,nil_append]
    apply List.filter_congr
    intro u hu
    cases haddressed : u.addressed dev p with
    | false => simp [Sndu.passed,haddressed]
    | true => simp [Sndu.passed,haddressed,hether u (mem_flatMap.mpr ⟨cell,hcell,hu⟩)]

variable {groups : List (List (List UInt8))} {calls : List UleCall} {cc : Nat}

theorem roundTrip_iff_packets (hneed : p.needPusi = true) (hclear : Clear p)
    (hencaps : Encapsulation none cells) (hcarries : CarriesAll cc cells groups.flatten)
    (hfeeds : List.Forall₂ Feeds calls groups)
    (hread : AllReadable dev p (cells.flatMap UleCell.started)) :
    RoundTrip dev p calls (cells.flatMap UleCell.started) ↔
      packets dev p (cells.flatMap UleCell.received) =
        ((cells.flatMap UleCell.started).filter (Sndu.addressed dev p)).map (Sndu.packet dev) := by
  obtain ⟨fuel,p',hrun,herrors⟩ :=
    @calls_run dev groups calls cells p hfeeds ⟨cc,none,hcarries,hencaps,⟨hneed,hclear⟩,hread⟩
  constructor
  · rintro ⟨fuel',p'',hrun',-⟩
    exact congrArg Prod.snd (uleCalls_unique hrun hrun')
  · intro heq
    rw [heq] at hrun
    exact ⟨fuel,p',hrun,herrors⟩

/-- The SNDUs of an encapsulation get through exactly if none of those addressed to the interface has its
header split before a cell in which another one starts, or is a bridged frame without EtherType. -/
theorem ule_roundTrip_iff {us : List Sndu} (hneed : p.needPusi = true) (hclear : Clear p)
    (hencaps : Encapsulation none cells) (hsent : cells.flatMap UleCell.started = us)
    (hcarries : CarriesAll cc cells groups.flatten) (hfeeds : List.Forall₂ Feeds calls groups)
    (hread : ∀ u ∈ us, u.addressed dev p = true → u.Readable) :
    RoundTrip dev p calls us ↔
      (∀ cell ∈ cells, cell.splitsHeader = true → ∀ u k, cell.continued = some (u, k) → u.addressed dev p = false) ∧
      ∀ u ∈ us, u.addressed dev p = true → u.hasEtherType = true := by
  have hended : us = cells.flatMap UleCell.ended := by
    rw [← hencaps.started_eq, ← hsent]
    rfl
  subst hsent
  rw [roundTrip_iff_packets hneed hclear hencaps hcarries hfeeds hread, hended, packets_received_eq_iff]
  have hlost : (∀ u ∈ cells.flatMap UleCell.lost, u.addressed dev p = false) ↔
      ∀ cell ∈ cells, cell.splitsHeader = true → ∀ u k, cell.continued = some (u, k) →
        u.addressed dev p = false := by
    constructor
    · intro h cell hcell hsplits u k hcont
      exact h u (List.mem_flatMap.mpr ⟨cell, hcell, UleCell.mem_lost.mpr ⟨hsplits, k, hcont⟩⟩)
    · intro h u hu
      obtain ⟨cell, hcell, hu⟩ := List.mem_flatMap.mp hu
      obtain ⟨hsplits, k, hcont⟩ := UleCell.mem_lost.mp hu
      exact h cell hcell hsplits u k hcont
  rw [hlost]
  apply and_congr_right
  intro hsplits
  constructor
  · intro hether u hu haddressed
    obtain ⟨cell, hcell, hu⟩ := List.mem_flatMap.mp hu
    rw [cell.ended_eq, List.mem_append] at hu
    cases hu with
    | inl hu =>
      have hnot := hlost.mpr hsplits u (List.mem_flatMap.mpr ⟨cell, hcell, hu⟩)
      rw [haddressed] at hnot
      cases hnot
    | inr hu => exact hether u (List.mem_flatMap.mpr ⟨cell, hcell, hu⟩) haddressed
  · intro hether u hu
    obtain ⟨cell, hcell, hu⟩ := List.mem_flatMap.mp hu
    exact hether u (List.mem_flatMap.mpr ⟨cell, hcell, by rw [cell.ended_eq]; exact List.mem_append_right _ hu⟩)

end RoundTrip

theorem length_ipFields {n : Nat} (hpos : 0 < n) (hlt : n < 1000) :
    let u : SnduFields := ⟨none, [], 0x800, List.replicate n 0x45⟩
    5 ≤ u.length ∧ u.length < 0x8000 ∧ u.length ≠ 0x7fff := by
  simp [SnduFields.length,SnduFields.body,chainBytes]
  omega

/-- An IPv4 packet of `n` bytes without destination address. -/
def ipSndu (n : Nat) (hpos : 0 < n) (hlt : n < 1000) : Sndu where
  dest := none
  headers := []
  payloadType := 0x800
  payload := List.replicate n 0x45
  length_dest := by simp
  payloadType_ok := .inr (by decide)
  payloadType_lt := by decide
  length_frame := by simp [SnduFields.bridged]
  frameType_le := by simp [SnduFields.bridged]
  length_ge := (length_ipFields hpos hlt).1
  length_lt := (length_ipFields hpos hlt).2.1
  length_ne _ := (length_ipFields hpos hlt).2.2

def UleCell.bytes (cell : UleCell) (cc : Nat) : List UInt8 :=
  0x47 :: (if cell.pusi then 0x40 else 0) :: 0 :: UInt8.ofNat (0x10 + cc) :: cell.payload

def cellsCall (group : List (List UInt8)) : UleCall where
  buf := Mem.ofList group.flatten
  bufLen := group.flatten.length
  alloc _ := some fun _ => 0

theorem cellsCall_feeds (group : List (List UInt8)) : Feeds (cellsCall group) group where
  bufLen := rfl
  buf := Mem.slice_ofList _
  alloc _ := rfl

theorem ipSndu_readable {n : Nat} {hpos : 0 < n} {hlt : n < 1000} : (ipSndu n hpos hlt).Readable := by
  intro hbridged
  cases hbridged

theorem length_ipSndu {n : Nat} {hpos : 0 < n} {hlt : n < 1000} : (ipSndu n hpos hlt).wire.length = n + 8 := by
  rw [Sndu.length_wire]
  simp [SnduFields.length,SnduFields.body,ipSndu,chainBytes]
  omega

theorem dvbNetAddIf_clear : Clear dvbNetAddIf := ⟨rfl, rfl, rfl, rfl, rfl⟩

def packedCell : UleCell where
  continued := none
  started := [ipSndu 20 (by decide) (by decide), ipSndu 3 (by decide) (by decide)]

theorem ule_roundTrip_packed :
    RoundTrip someDevice dvbNetAddIf [cellsCall [packedCell.bytes 0]] packedCell.started := by
  have hencaps : Encapsulation none [packedCell] := by
    simp [packedCell, Encapsulation, Fits, UleCell.leaves, UleCell.pusi, UleCell.tail, cutSndu, length_ipSndu]
  have hcarries : CarriesAll 0 [packedCell] [[packedCell.bytes 0]].flatten :=
    ⟨⟨0x40, 0, 0x10, rfl, rfl, rfl, rfl, rfl⟩, trivial⟩
  have hread : ∀ u ∈ packedCell.started, u.addressed someDevice dvbNetAddIf = true → u.Readable := by
    simp [packedCell, ipSndu_readable]
  apply (ule_roundTrip_iff rfl dvbNetAddIf_clear hencaps rfl hcarries (.cons (cellsCall_feeds _) .nil) hread).mpr
  simp [packedCell, UleCell.splitsHeader, ipSndu, Sndu.hasEtherType, SnduFields.bridged]

/-- The second of three SNDUs has its length field at the end of one cell and its type field at the start
of the next one, in which the third follows. -/
def splitCells : List UleCell :=
  [⟨none, [ipSndu 173 (by decide) (by decide), ipSndu 3 (by decide) (by decide)]⟩,
    ⟨some (ipSndu 3 (by decide) (by decide), 2), [ipSndu 4 (by decide) (by decide)]⟩]

/-- The SNDU with the split header is lost. -/
theorem ule_roundTrip_fails : ¬ ∀ (dev : NetDevice) (p : DvbNetPriv) (cells : List UleCell) (us : List Sndu)
      (groups : List (List (List UInt8))) (calls : List UleCall) (cc : Nat),
      p.needPusi = true → Clear p → Encapsulation none cells → cells.flatMap UleCell.started = us →
      CarriesAll cc cells groups.flatten → List.Forall₂ Feeds calls groups →
      RoundTrip dev p calls us := by
  intro h
  let group := [UleCell.bytes ⟨none, [ipSndu 173 (by decide) (by decide), ipSndu 3 (by decide) (by decide)]⟩ 0,
    UleCell.bytes ⟨some (ipSndu 3 (by decide) (by decide), 2), [ipSndu 4 (by decide) (by decide)]⟩ 1]
  have hencaps : Encapsulation none splitCells := by
    simp [splitCells, Encapsulation, Fits, UleCell.leaves, UleCell.pusi, UleCell.tail, cutSndu, length_ipSndu]
  have hcarries : CarriesAll 0 splitCells [group].flatten :=
    ⟨⟨0x40, 0, 0x10, rfl, rfl, rfl, rfl, rfl⟩, ⟨0x40, 0, 0x11, rfl, rfl, rfl, rfl, rfl⟩, trivial⟩
  have hread : AllReadable someDevice dvbNetAddIf (splitCells.flatMap UleCell.started) := by
    simp [splitCells, AllReadable, ipSndu_readable]
  have hfeeds : List.Forall₂ Feeds [cellsCall group] [group] := .cons (cellsCall_feeds group) .nil
  have htrip := h someDevice dvbNetAddIf splitCells _ [group] [cellsCall group] 0 rfl dvbNetAddIf_clear
    hencaps rfl hcarries hfeeds
  rw [roundTrip_iff_packets rfl dvbNetAddIf_clear hencaps hcarries hfeeds hread] at htrip
  have hended : splitCells.flatMap UleCell.started = splitCells.flatMap UleCell.ended :=
    hencaps.started_eq
  rw [hended, packets_received_eq_iff] at htrip
  have hnot := htrip.1 (ipSndu 3 (by decide) (by decide))
    (List.mem_flatMap.mpr ⟨_, List.mem_of_getElem? (i := 1) rfl, UleCell.mem_lost.mpr ⟨rfl, 2, rfl⟩⟩)
  cases hnot

end LinuxDvb.Net
