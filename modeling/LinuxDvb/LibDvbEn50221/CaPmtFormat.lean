import LinuxDvb.LibDvbEn50221.CaPmtExtract
import Mathlib.Data.List.Flatten

/-!
# What is formatted

The entries are moved only where all streams have the same CA descriptors, so each stream keeps those that apply to
it.
-/

namespace LinuxDvb.En50221

open Ucsi

variable {buf : List UInt8}

section Move

theorem descriptor_eq_of_bytes {d d' : Descriptor} (h : d.bytes = d'.bytes) : d = d' := by
  cases d
  cases d'
  injection h with htag hrest
  injection hrest with hlen hdata
  subst htag
  subst hdata
  rfl

theorem sameDescriptors_spec {entries firsts : List CaPmtDescriptor} {ds fs : List Descriptor}
    (hentries : List.Forall₂ (Refers buf) entries ds) (hfirsts : List.Forall₂ (Refers buf) firsts fs)
    (hlength : ds.length = fs.length) :
    ∃ same, sameDescriptors buf entries firsts = some same ∧ (same = true → ds = fs) := by
  induction hentries generalizing firsts fs with
  | nil =>
    obtain rfl := eq_nil_of_length_eq_zero hlength.symm
    exact ⟨true,by rw [sameDescriptors],fun _ => rfl⟩
  | @cons entry d entries ds hentry hentries ih =>
    cases hfirsts with
    | nil => cases hlength
    | @cons first f firsts fs hfirst hfirsts =>
      rw [sameDescriptors]
      by_cases hsize : entry.length = first.length
      · have hread : bytesAt buf first.descriptor entry.length.toNat = some f.bytes :=
          hsize ▸ hfirst.1
        rw [if_neg (not_not_intro hsize),hentry.1,hread]
        simp only [bind_eq_bind,bind_some,pure_def]
        by_cases hbytes : d.bytes = f.bytes
        · obtain ⟨same,hsame,heq⟩ := ih hfirsts (Nat.succ.inj hlength)
          rw [if_neg (not_not_intro hbytes),hsame]
          refine ⟨same,rfl,fun h => ?_⟩
          rw [descriptor_eq_of_bytes hbytes,heq h]
        · rw [if_pos hbytes]
          exact ⟨false,rfl,fun h => nomatch h⟩
      · rw [if_pos hsize]
        exact ⟨false,rfl,fun h => nomatch h⟩

theorem allSame_spec {first : CaPmtStream} {f : CaStream} (hfirst : StreamRefers buf first f)
    (hf : f.info.descriptors.length < 2 ^ 32) {entries : List CaPmtStream} {streams : List CaStream}
    (hentries : List.Forall₂ (StreamRefers buf) entries streams)
    (hcounts : ∀ s ∈ streams, s.info.descriptors.length < 2 ^ 32) :
    ∃ same, allSame buf first entries = some same ∧
      (same = true → ∀ s ∈ streams, s.info.descriptors = f.info.descriptors) := by
  induction hentries with
  | nil => exact ⟨true,by rw [allSame],fun _ => forall_mem_nil _⟩
  | @cons entry s entries streams hentry hentries ih =>
    obtain ⟨hcount,hcounts⟩ := forall_mem_cons.mp hcounts
    rw [allSame]
    by_cases hsize : entry.descriptorsCount = first.descriptorsCount
    · have hlength : s.info.descriptors.length = f.info.descriptors.length := by
        rw [hentry.count,hfirst.count] at hsize
        have htoNat := congrArg UInt32.toNat hsize
        rwa [UInt32.toNat_ofNat_of_lt' hcount,UInt32.toNat_ofNat_of_lt' hf] at htoNat
      obtain ⟨same,hsame,heq⟩ := sameDescriptors_spec hentry.descriptors hfirst.descriptors hlength
      rw [if_neg (not_not_intro hsize),hsame]
      simp only [bind_eq_bind,bind_some,pure_def]
      cases same with
      | false => exact ⟨false,rfl,fun h => nomatch h⟩
      | true =>
        obtain ⟨same,hrest,hall⟩ := ih hcounts
        rw [if_pos rfl]
        exact ⟨same,hrest,fun h => forall_mem_cons.mpr ⟨heq rfl,hall h⟩⟩
    · rw [if_pos hsize]
      exact ⟨false,rfl,fun h => nomatch h⟩

end Move

section Lengths

theorem entries_length {entries : List CaPmtDescriptor} {ds : List Descriptor}
    (h : List.Forall₂ (Refers buf) entries ds) (length : UInt32) :
    (entries.foldl (fun length d => length + d.length.toUInt32) length).toNat =
      (length.toNat + (descriptorLoop ds).length) % 2 ^ 32 := by
  induction h generalizing length with
  | nil =>
    have hlt := length.toNat_lt
    exact (Nat.mod_eq_of_lt hlt).symm
  | @cons entry d entries ds hentry hrest ih =>
    have hloop : (descriptorLoop (d :: ds)).length = d.bytes.length + (descriptorLoop ds).length := by
      rw [descriptorLoop,map_cons,flatten_cons,length_append]
      rfl
    rw [foldl_cons,ih,UInt32.toNat_add,UInt16.toNat_toUInt32,hentry.2,hloop,Nat.mod_add_mod,Nat.add_assoc]

theorem calculateDescriptorsLength_eq {entries : List CaPmtDescriptor} {ds : List Descriptor}
    (h : List.Forall₂ (Refers buf) entries ds) (hfits : LoopFits ds) (cmdId : UInt8) :
    (calculateDescriptorsLength entries).toNat + 2 = (infoBytes cmdId ds).length := by
  unfold LoopFits at hfits
  have hlength := entries_length h 0
  have hzero : (0 : UInt32).toNat = 0 := rfl
  rw [hzero,Nat.zero_add,Nat.mod_eq_of_lt (by omega)] at hlength
  unfold calculateDescriptorsLength infoBytes
  dsimp only
  rw [length_append,length_be16]
  by_cases hempty : ds = []
  · subst hempty
    have hnone : entries.foldl (fun length d => length + d.length.toUInt32) 0 = 0 :=
      UInt32.toNat_inj.mp hlength
    rw [hnone]
    rfl
  · have hpos : (descriptorLoop ds).length ≠ 0 := fun h => hempty (descriptorLoop_length_eq_zero.mp h)
    have hsome : entries.foldl (fun length d => length + d.length.toUInt32) 0 ≠ 0 := by
      intro h
      rw [h] at hlength
      exact hpos hlength.symm
    have hone : (1 : UInt32).toNat = 1 := rfl
    rw [if_pos hsome,if_neg hempty,UInt32.toNat_add,hlength,hone,length_cons,Nat.mod_eq_of_lt (by omega)]
    omega

theorem length_infoBytes_lt (cmdId : UInt8) {ds : List Descriptor} (hfits : LoopFits ds) :
    (infoBytes cmdId ds).length < 4098 := by
  unfold LoopFits at hfits
  unfold infoBytes
  dsimp only
  rw [length_append,length_be16]
  split
  · exact Nat.lt_of_sub_pos (by decide)
  · rw [length_cons]
    omega

theorem length_streamBytes (cmdId : UInt8) (s : CaStream) :
    (streamBytes cmdId s).length = 3 + (infoBytes cmdId s.info.descriptors).length := by
  rw [streamBytes,length_cons,length_append,length_be16]
  omega

theorem streams_length (cmdId : UInt8) {entries : List CaPmtStream} {streams : List CaStream}
    (h : List.Forall₂ (StreamRefers buf) entries streams) (hfits : ∀ s ∈ streams, LoopFits s.info.descriptors)
    (total : UInt32) :
    ((entries.map fun s => { s with descriptorsLength := calculateDescriptorsLength s.descriptors }).foldl
        (fun total s => total + (5 + s.descriptorsLength)) total).toNat =
      (total.toNat + (streams.flatMap (streamBytes cmdId)).length) % 2 ^ 32 := by
  induction h generalizing total with
  | nil =>
    have hlt := total.toNat_lt
    exact (Nat.mod_eq_of_lt hlt).symm
  | @cons entry s entries streams hentry hrest ih =>
    obtain ⟨hloop,hfits⟩ := forall_mem_cons.mp hfits
    have hlength := calculateDescriptorsLength_eq hentry.descriptors hloop cmdId
    have hfive : (5 : UInt32).toNat = 5 := rfl
    rw [map_cons,foldl_cons,ih hfits,flatMap_cons,length_append,
      length_streamBytes,UInt32.toNat_add,UInt32.toNat_add,hfive,← hlength,Nat.add_mod_mod,
      Nat.mod_add_mod]
    dsimp only
    congr 1
    omega

end Lengths

section Writing

def Writer.after (out data : List UInt8) : Writer := ⟨out ++ data.drop out.length, out.length⟩

def Writes (action : Writer → Option Writer) (bytes : List UInt8) : Prop :=
  ∀ out data, (out ++ bytes).length ≤ data.length →
    action (.after out data) = some (.after (out ++ bytes) data)

theorem writes_put (b : UInt8) : Writes (fun w => w.put b) [b] := by
  intro out data hroom
  rw [length_append,length_singleton] at hroom
  obtain ⟨old,behind,hdrop⟩ : ∃ old behind, data.drop out.length = old :: behind := by
    cases hdrop : data.drop out.length with
    | nil =>
      have hlength := congrArg List.length hdrop
      rw [length_drop,length_nil] at hlength
      omega
    | cons old behind => exact ⟨old,behind,rfl⟩
  have hbehind : data.drop (out.length + 1) = behind := by
    rw [← drop_drop,hdrop]
    rfl
  unfold Writer.put Writer.after
  dsimp only
  rw [if_pos (by rw [hdrop, length_append, length_cons]; omega),length_append,
    length_singleton,hbehind,hdrop,List.set_append_right _ _ (Nat.le_refl _),Nat.sub_self,
    List.set_cons_zero,append_assoc]
  rfl

theorem Writes.bind {first second : Writer → Option Writer} {bytes bytes' : List UInt8}
    (hfirst : Writes first bytes) (hsecond : Writes second bytes') :
    Writes (fun w => (first w).bind second) (bytes ++ bytes') := by
  intro out data hroom
  rw [← append_assoc] at hroom ⊢
  dsimp only
  rw [hfirst out data (by rw [length_append] at hroom; omega),bind_some]
  exact hsecond _ data hroom

theorem writes_nothing : Writes some [] := by
  intro out data _
  rw [append_nil]

theorem writes_foldlM {α β : Type} {step : Writer → α → Option Writer} {bytes : β → List UInt8}
    {xs : List α} {ys : List β} (h : List.Forall₂ (fun x y => Writes (fun w => step w x) (bytes y)) xs ys) :
    Writes (fun w => xs.foldlM step w) (ys.flatMap bytes) := by
  induction h with
  | nil => exact writes_nothing
  | cons hfirst _ ih =>
    rw [flatMap_cons]
    simp only [List.foldlM_cons,bind_eq_bind]
    exact hfirst.bind ih

theorem writes_putBytes (bytes : List UInt8) : Writes (fun w => w.putBytes bytes) bytes := by
  have h : Writes (fun w => w.putBytes bytes) (bytes.flatMap fun b => [b]) :=
    writes_foldlM (List.forall₂_same.mpr fun b _ => writes_put b)
  rwa [List.flatMap_singleton'] at h

theorem highByte {length : UInt32} (h : length.toNat < 4096) :
    ((length >>> 8) &&& 0x0f).toUInt8 = UInt8.ofNat (length.toNat / 256) := by
  apply UInt8.toNat_inj.mp
  have hmask : (0x0f : UInt32).toNat = 2 ^ 4 - 1 := rfl
  have height : (8 : UInt32).toNat % 32 = 8 := rfl
  rw [UInt32.toNat_toUInt8,UInt32.toNat_and,hmask,Nat.and_two_pow_sub_one_eq_mod,
    UInt32.toNat_shiftRight,height,Nat.shiftRight_eq_div_pow,UInt8.toNat_ofNat']
  omega

theorem writes_putDescriptors (cmdId : UInt8) {entries : List CaPmtDescriptor} {ds : List Descriptor}
    (h : List.Forall₂ (Refers buf) entries ds) (hfits : LoopFits ds) :
    Writes (fun w => w.putDescriptors buf cmdId (calculateDescriptorsLength entries) entries)
      (infoBytes cmdId ds) := by
  have hlength := calculateDescriptorsLength_eq h hfits cmdId
  have hlt := length_infoBytes_lt cmdId hfits
  generalize calculateDescriptorsLength entries = length at hlength
  have hsize : infoBytes cmdId ds = be16 length.toNat ++
      if ds = [] then [] else cmdId :: descriptorLoop ds := by
    unfold infoBytes at hlength ⊢
    dsimp only at hlength ⊢
    rw [length_append,length_be16] at hlength
    congr 2
    omega
  have hhigh := @highByte length (by omega)
  have hlow : length.toUInt8 = UInt8.ofNat length.toNat := rfl
  rw [hsize] at hlength ⊢
  have hloop : Writes
      (fun w => entries.foldlM
        (fun w d => (bytesAt buf d.descriptor d.length.toNat).bind fun bytes => w.putBytes bytes) w)
      (descriptorLoop ds) := by
    rw [descriptorLoop,← flatMap_def]
    refine writes_foldlM (h.imp ?_)
    intro entry d hrefers
    rw [hrefers.1]
    exact writes_putBytes d.bytes
  have hcommand : Writes
      (fun w => if length = 0 then some w else
        (w.put cmdId).bind fun w => entries.foldlM
          (fun w d => (bytesAt buf d.descriptor d.length.toNat).bind fun bytes => w.putBytes bytes) w)
      (if ds = [] then [] else cmdId :: descriptorLoop ds) := by
    by_cases hempty : ds = []
    · rw [if_pos hempty,append_nil,length_be16] at hlength
      have hzero : length = 0 := UInt32.toNat_inj.mp (Nat.add_right_cancel (m := 2) hlength)
      simp only [hempty,hzero,if_true]
      exact writes_nothing
    · rw [if_neg hempty,length_append,length_be16,length_cons] at hlength
      have hsome : length ≠ 0 := by
        rintro rfl
        have hzero : (0 : UInt32).toNat = 0 := rfl
        omega
      simp only [hempty,hsome,if_false]
      exact (writes_put cmdId).bind hloop
  unfold Writer.putDescriptors
  simp only [bind_eq_bind,pure_def]
  rw [hhigh,hlow]
  exact (writes_put _).bind ((writes_put _).bind hcommand)

theorem pidHighByte {pid : UInt16} (h : pid < 0x2000) :
    ((pid >>> 8) &&& 0x1f).toUInt8 = UInt8.ofNat (pid.toNat / 256) := by
  have hlt : pid.toNat < 0x2000 := UInt16.lt_iff_toNat_lt.mp h
  apply UInt8.toNat_inj.mp
  have hmask : (0x1f : UInt16).toNat = 2 ^ 5 - 1 := rfl
  have height : (8 : UInt16).toNat % 16 = 8 := rfl
  rw [UInt16.toNat_toUInt8,UInt16.toNat_and,hmask,Nat.and_two_pow_sub_one_eq_mod,
    UInt16.toNat_shiftRight,height,Nat.shiftRight_eq_div_pow,UInt8.toNat_ofNat']
  omega

theorem writes_putStream (cmdId : UInt8) {entry : CaPmtStream} {s : CaStream}
    (h : StreamRefers buf entry s) (hpid : s.pid < 0x2000) (hfits : LoopFits s.info.descriptors) :
    Writes (fun w => w.putStream buf cmdId
        { entry with descriptorsLength := calculateDescriptorsLength entry.descriptors })
      (streamBytes cmdId s) := by
  have hhigh := pidHighByte hpid
  have hlow : s.pid.toUInt8 = UInt8.ofNat s.pid.toNat := rfl
  unfold Writer.putStream
  simp only [bind_eq_bind]
  rw [h.streamType,h.pid,hhigh,hlow]
  exact (writes_put _).bind ((writes_put _).bind
    ((writes_put _).bind (writes_putDescriptors cmdId h.descriptors hfits)))

theorem writes_streams (cmdId : UInt8) {entries : List CaPmtStream} {streams : List CaStream}
    (h : List.Forall₂ (StreamRefers buf) entries streams)
    (hall : ∀ s ∈ streams, s.pid < 0x2000 ∧ LoopFits s.info.descriptors) :
    Writes
      (fun w => (entries.map fun s =>
          { s with descriptorsLength := calculateDescriptorsLength s.descriptors }).foldlM
        (fun w s => w.putStream buf cmdId s) w)
      (streams.flatMap (streamBytes cmdId)) := by
  apply writes_foldlM
  rw [List.forall₂_map_left_iff]
  induction h with
  | nil => exact .nil
  | cons hentry _ ih =>
    obtain ⟨⟨hpid,hloop⟩,hrest⟩ := forall_mem_cons.mp hall
    exact .cons (writes_putStream cmdId hentry hpid hloop) (ih hrest)

structure Listed (buf : List UInt8) (pmtDescriptors : List CaPmtDescriptor) (pmtStreams : List CaPmtStream)
    (ca : CaPmt) : Prop where
  descriptors : List.Forall₂ (Refers buf) pmtDescriptors ca.info.descriptors
  streams : List.Forall₂ (StreamRefers buf) pmtStreams ca.streams

structure FromHeader (buf : List UInt8) (ca : CaPmt) : Prop where
  programNumber : mpegPmtSectionProgramNumber buf = some ca.programNumber
  version : versionNumber buf = some ca.version
  currentNext : currentNextIndicator buf = some ca.currentNext

variable {cmdId : UInt8} {ca : CaPmt} {pmtDescriptors : List CaPmtDescriptor} {pmtStreams : List CaPmtStream}

theorem writePmt_eq (hlisted : Listed buf pmtDescriptors pmtStreams ca) (hheader : FromHeader buf ca)
    (hfits : ca.Fits cmdId) {data : List UInt8} (hroom : (ca.bytes cmdId).length ≤ data.length) :
    writePmt buf data ca.listManagement cmdId pmtDescriptors (calculateDescriptorsLength pmtDescriptors)
        (pmtStreams.map fun s => { s with descriptorsLength := calculateDescriptorsLength s.descriptors }) =
      some (.after (ca.bytes cmdId) data) := by
  have hstreams := writes_streams cmdId hlisted.streams
    fun s hs => ⟨(hfits.streams s hs).1,(hfits.streams s hs).2.2⟩
  have hhigh : (ca.programNumber >>> 8).toUInt8 = UInt8.ofNat (ca.programNumber.toNat / 256) := by
    apply UInt8.toNat_inj.mp
    have height : (8 : UInt16).toNat % 16 = 8 := rfl
    rw [UInt16.toNat_toUInt8,UInt16.toNat_shiftRight,height,Nat.shiftRight_eq_div_pow,UInt8.toNat_ofNat']
  have hlow : ca.programNumber.toUInt8 = UInt8.ofNat ca.programNumber.toNat := rfl
  unfold writePmt
  simp only [bind_eq_bind]
  rw [hheader.programNumber,hheader.version,hheader.currentNext]
  simp only [bind_some]
  rw [hhigh,hlow]
  have hloops := (writes_putDescriptors cmdId hlisted.descriptors hfits.infoFits).bind hstreams
  have hversion := (writes_put (ca.version <<< 1 ||| ca.currentNext)).bind hloops
  have hnumber := (writes_put (UInt8.ofNat (ca.programNumber.toNat / 256))).bind
    ((writes_put (UInt8.ofNat ca.programNumber.toNat)).bind hversion)
  exact (writes_put ca.listManagement).bind hnumber [] data hroom

end Writing

section Format

variable {cmdId : UInt8} {ca : CaPmt} {pmtDescriptors : List CaPmtDescriptor} {pmtStreams : List CaPmtStream}

def CaPmt.moved (cmdId : UInt8) (first : CaStream) (ca : CaPmt) : CaPmt :=
  { ca with
    info := .of cmdId first.info.descriptors
    streams := ca.streams.map fun s => { s with info := .of cmdId [] } }

theorem tryMovePmtDescriptors_spec (cmdId : UInt8) (hlisted : Listed buf pmtDescriptors pmtStreams ca)
    (hcounts : ∀ s ∈ ca.streams, s.info.descriptors.length < 2 ^ 32) :
    ∃ lists, tryMovePmtDescriptors buf pmtDescriptors pmtStreams = some lists ∧
      (Listed buf lists.1 lists.2 ca ∨
        ∃ first ∈ ca.streams, (∀ s ∈ ca.streams, s.info.descriptors = first.info.descriptors) ∧
          Listed buf lists.1 lists.2 (ca.moved cmdId first)) := by
  obtain ⟨listManagement,number,version,currentNext,info,streams⟩ := ca
  obtain ⟨hdescriptors,hstreams⟩ := hlisted
  unfold tryMovePmtDescriptors
  cases hstreams with
  | nil => exact ⟨_,rfl,.inl ⟨hdescriptors,.nil⟩⟩
  | @cons entry first entries streams hfirst hrest =>
    obtain ⟨hcount,hcounts⟩ := forall_mem_cons.mp hcounts
    obtain ⟨same,hsame,heq⟩ := allSame_spec hfirst hcount hrest hcounts
    dsimp only
    rw [hsame]
    simp only [bind_eq_bind,bind_some,pure_def]
    cases same with
    | false => exact ⟨_,rfl,.inl ⟨hdescriptors,.cons hfirst hrest⟩⟩
    | true =>
      refine ⟨_,rfl,.inr ⟨first,mem_cons_self ..,?_,hfirst.descriptors,?_⟩⟩
      · exact forall_mem_cons.mpr ⟨rfl,heq rfl⟩
      · unfold CaPmt.moved
        dsimp only
        rw [List.forall₂_map_left_iff,List.forall₂_map_right_iff]
        refine (List.Forall₂.cons hfirst hrest).imp ?_
        intro entry s hrefers
        exact ⟨hrefers.streamType,hrefers.pid,.nil,rfl⟩

theorem calculateLength_eq (hlisted : Listed buf pmtDescriptors pmtStreams ca) (hfits : ca.Fits cmdId)
    (hcount : ca.streams.length < 4096) :
    (calculateLength pmtDescriptors pmtStreams).1.toNat = (ca.bytes cmdId).length := by
  have hinfo := calculateDescriptorsLength_eq hlisted.descriptors hfits.infoFits cmdId
  have hstreams := streams_length cmdId hlisted.streams (fun s hs => (hfits.streams s hs).2.2)
    (6 + calculateDescriptorsLength pmtDescriptors)
  have hlength : (ca.bytes cmdId).length =
      4 + (infoBytes cmdId ca.info.descriptors).length + (ca.streams.flatMap (streamBytes cmdId)).length := by
    unfold CaPmt.bytes
    simp only [length_cons,length_append,length_be16]
    omega
  have hbound : (ca.streams.flatMap (streamBytes cmdId)).length ≤ 4101 * ca.streams.length := by
    have hall : ∀ s ∈ ca.streams, (streamBytes cmdId s).length ≤ 4101 := by
      intro s hs
      have hloop := length_infoBytes_lt cmdId (hfits.streams s hs).2.2
      rw [length_streamBytes]
      omega
    generalize ca.streams = streams at hall
    induction streams with
    | nil => exact Nat.le_refl _
    | cons s streams ih =>
      obtain ⟨hs,hrest⟩ := forall_mem_cons.mp hall
      have hbehind := ih hrest
      rw [flatMap_cons,length_append,length_cons]
      omega
  have hloop := length_infoBytes_lt cmdId hfits.infoFits
  have hsix : (6 : UInt32).toNat = 6 := rfl
  unfold calculateLength
  dsimp only
  rw [hstreams,UInt32.toNat_add,hsix,Nat.mod_add_mod,hlength,Nat.mod_eq_of_lt (by omega)]
  omega

theorem format_listed (hlisted : Listed buf pmtDescriptors pmtStreams ca) (hheader : FromHeader buf ca)
    (hfits : ca.Fits cmdId) (hcount : ca.streams.length < 4096) {data : List UInt8} {dataLength : UInt32}
    (hdata : dataLength.toNat ≤ data.length) :
    (let (totalRequiredLength, pmtDescriptorsLength, pmtStreams) :=
        calculateLength pmtDescriptors pmtStreams
      if totalRequiredLength > dataLength then some ((-1 : Int), data)
      else (writePmt buf data ca.listManagement cmdId pmtDescriptors pmtDescriptorsLength pmtStreams).bind
        fun w => some ((w.dataPos : Int), w.data)) =
      some (if (ca.bytes cmdId).length ≤ dataLength.toNat then
        (((ca.bytes cmdId).length : Int), ca.bytes cmdId ++ data.drop (ca.bytes cmdId).length)
      else (-1, data)) := by
  have htotal := calculateLength_eq hlisted hfits hcount
  have hwrite (hroom : (ca.bytes cmdId).length ≤ data.length) := writePmt_eq hlisted hheader hfits hroom
  unfold calculateLength at htotal ⊢
  dsimp only at htotal ⊢
  by_cases hroom : (ca.bytes cmdId).length ≤ dataLength.toNat
  · rw [if_neg,if_pos hroom,hwrite (Nat.le_trans hroom hdata)]
    · rfl
    · rw [gt_iff_lt,UInt32.lt_iff_toNat_lt,htotal]
      exact Nat.not_lt.mpr hroom
  · rw [if_pos,if_neg hroom]
    rw [gt_iff_lt,UInt32.lt_iff_toNat_lt,htotal]
    exact Nat.not_le.mp hroom

end Format

section Section

variable {body : PmtBody} {cmdId : UInt8}

theorem filter_loop_le (ds : List Descriptor) :
    (descriptorLoop (ds.filter isCa)).length ≤ (descriptorLoop ds).length := by
  unfold descriptorLoop
  exact (List.filter_sublist.map _).flatten.length_le

theorem length_le_loop (ds : List Descriptor) : ds.length ≤ (descriptorLoop ds).length := by
  have h : (ds.map Descriptor.bytes).length ≤ (ds.map Descriptor.bytes).flatten.length := length_le_flatten (by
    intro item hitem
    obtain ⟨d,-,rfl⟩ := mem_map.mp hitem
    exact d.bytes_ne_nil)
  rwa [length_map] at h

theorem section_small (hstands : StandsAt buf 8 (body.bytes le16)) (hlength : buf.length ≤ 4098) :
    LoopFits body.info.descriptors ∧ body.streams.length < 4096 ∧
      ∀ s ∈ body.streams, LoopFits s.info.descriptors := by
  have hinside := StandsAt.le_length hstands
  rw [body.length_bytes] at hinside
  have hcount : (body.streams.map (PmtStream.bytes le16)).length ≤ (streamsBytes le16 body.streams).length :=
    length_le_flatten (by
      intro item hitem
      obtain ⟨s,-,rfl⟩ := mem_map.mp hitem
      exact s.bytes_ne_nil le16)
  rw [length_map] at hcount
  unfold LoopFits
  refine ⟨by omega,by omega,?_⟩
  intro s hs
  have hpart : (s.bytes le16).length ≤ (streamsBytes le16 body.streams).length :=
    (List.sublist_flatten_of_mem (mem_map_of_mem hs)).length_le
  rw [s.length_bytes] at hpart
  omega

def listedPmt (buf : List UInt8) (body : PmtBody) (listManagement cmdId : UInt8) : CaPmt where
  listManagement := listManagement
  programNumber := (mpegPmtSectionProgramNumber buf).getD 0
  version := (versionNumber buf).getD 0
  currentNext := (currentNextIndicator buf).getD 0
  info := .of cmdId (body.info.descriptors.filter isCa)
  streams := body.streams.map (caStream cmdId)

/-- The object asks for what the program map section says: its header fields, its streams in order, and for
each stream the CA descriptors that apply to it, first those of the program. The descriptors of the streams
are moved to the program only on request, and only if it has none. -/
structure Requests (bytes : List UInt8) (body : PmtBody) (moveCaDescriptors : Int)
    (listManagement cmdId : UInt8) (ca : CaPmt) : Prop where
  listManagement : ca.listManagement = listManagement
  programNumber : mpegPmtSectionProgramNumber bytes = some ca.programNumber
  version : versionNumber bytes = some ca.version
  currentNext : currentNextIndicator bytes = some ca.currentNext
  streams : ca.streams.map (fun s => (s.streamType, s.pid)) =
    body.streams.map fun s => (s.streamType, UInt16.ofNat (s.pid.toNat % 8192))
  effective : ca.streams.map (fun s => ca.info.descriptors ++ s.info.descriptors) =
    body.streams.map fun s => body.info.descriptors.filter isCa ++ s.info.descriptors.filter isCa
  program : ca.info.descriptors = body.info.descriptors.filter isCa ∨
    moveCaDescriptors ≠ 0 ∧ body.info.descriptors.filter isCa = []
  commands : ∀ info ∈ ca.info :: ca.streams.map CaStream.info,
    info.cmdId = if info.descriptors = [] then none else some cmdId

theorem listedPmt_fits (listManagement : UInt8) (hstands : StandsAt buf 8 (body.bytes le16))
    (hlength : buf.length ≤ 4098) : (listedPmt buf body listManagement cmdId).Fits cmdId := by
  obtain ⟨hinfo,-,hstreams⟩ := section_small hstands hlength
  have hfilter (ds : List Descriptor) (h : LoopFits ds) : LoopFits (ds.filter isCa) := by
    have hle := filter_loop_le ds
    unfold LoopFits at h ⊢
    omega
  refine ⟨?_,?_,rfl,hfilter _ hinfo,?_⟩
  · unfold listedPmt versionNumber
    dsimp only
    cases buf[5]? with
    | none => decide
    | some b =>
      have hmask : (0x1f : UInt8).toNat = 2 ^ 5 - 1 := rfl
      rw [map_some,getD_some,UInt8.lt_iff_toNat_lt,UInt8.toNat_and,hmask,
        Nat.and_two_pow_sub_one_eq_mod]
      exact Nat.mod_lt _ (by decide)
  · unfold listedPmt currentNextIndicator
    dsimp only
    cases buf[5]? with
    | none => decide
    | some b =>
      have hmask : (1 : UInt8).toNat = 2 ^ 1 - 1 := rfl
      rw [map_some,getD_some,UInt8.lt_iff_toNat_lt,UInt8.toNat_and,hmask,
        Nat.and_two_pow_sub_one_eq_mod]
      exact Nat.mod_lt _ (by decide)
  · intro s hs
    obtain ⟨s,hmem,rfl⟩ := mem_map.mp hs
    refine ⟨?_,rfl,hfilter _ (hstreams s hmem)⟩
    unfold caStream
    dsimp only
    rw [UInt16.lt_iff_toNat_lt,UInt16.toNat_ofNat']
    exact Nat.lt_of_le_of_lt (Nat.mod_le _ _) (Nat.mod_lt _ (by decide))

theorem loopFits_nil : LoopFits [] := by
  unfold LoopFits
  decide

theorem moved_fits {ca : CaPmt} (h : ca.Fits cmdId) {first : CaStream} (hfirst : first ∈ ca.streams) :
    (ca.moved cmdId first).Fits cmdId := by
  refine ⟨h.version,h.currentNext,rfl,(h.streams first hfirst).2.2,?_⟩
  intro s hs
  obtain ⟨s,hmem,rfl⟩ := mem_map.mp hs
  exact ⟨(h.streams s hmem).1,rfl,loopFits_nil⟩

theorem getElem?_header {bytes : List UInt8} (h : buf.take 8 = bytes.take 8) {i : Nat} (hi : i < 8) :
    buf[i]? = bytes[i]? := by
  have hget : (buf.take 8)[i]? = (bytes.take 8)[i]? := by rw [h]
  rwa [List.getElem?_take_of_lt hi,List.getElem?_take_of_lt hi] at hget

theorem listedPmt_header {bytes : List UInt8} {listManagement : UInt8} (h : buf.take 8 = bytes.take 8)
    (hlength : 8 ≤ buf.length) :
    FromHeader buf (listedPmt buf body listManagement cmdId) ∧
      mpegPmtSectionProgramNumber bytes = mpegPmtSectionProgramNumber buf ∧
      versionNumber bytes = versionNumber buf ∧ currentNextIndicator bytes = currentNextIndicator buf := by
  have hnumber : mpegPmtSectionProgramNumber bytes = mpegPmtSectionProgramNumber buf := by
    unfold mpegPmtSectionProgramNumber word16
    rw [getElem?_header h (by decide),getElem?_header h (by decide)]
  have hbyte : bytes[5]? = buf[5]? := (getElem?_header h (by decide)).symm
  refine ⟨⟨?_,?_,?_⟩,hnumber,?_,?_⟩
  · unfold listedPmt mpegPmtSectionProgramNumber word16
    dsimp only
    rw [getElem?_eq_getElem (by omega),getElem?_eq_getElem (by omega)]
    rfl
  · unfold listedPmt versionNumber
    dsimp only
    rw [getElem?_eq_getElem (by omega)]
    rfl
  · unfold listedPmt currentNextIndicator
    dsimp only
    rw [getElem?_eq_getElem (by omega)]
    rfl
  · unfold versionNumber
    rw [hbyte]
  · unfold currentNextIndicator
    rw [hbyte]

/-- The calls of `malloc` for a section. -/
def entriesNeeded (body : PmtBody) : Nat :=
  (body.info.descriptors.filter isCa).length + totalCost streamCost body.streams

variable {listManagement : UInt8} {moveCaDescriptors : Int}

theorem requests_listed (hheader : FromHeader buf (listedPmt buf body listManagement cmdId)) :
    Requests buf body moveCaDescriptors listManagement cmdId (listedPmt buf body listManagement cmdId) where
  listManagement := rfl
  programNumber := hheader.programNumber
  version := hheader.version
  currentNext := hheader.currentNext
  streams := map_map
  effective := map_map
  program := .inl rfl
  commands := by
    intro info hinfo
    rcases mem_cons.mp hinfo with rfl | hstream
    · rfl
    · obtain ⟨s,hs,rfl⟩ := mem_map.mp hstream
      obtain ⟨s,-,rfl⟩ := mem_map.mp hs
      rfl

theorem requests_moved (hheader : FromHeader buf (listedPmt buf body listManagement cmdId))
    (hmove : moveCaDescriptors ≠ 0) (hnone : body.info.descriptors.filter isCa = []) {first : CaStream}
    (hsame : ∀ s ∈ body.streams, s.info.descriptors.filter isCa = first.info.descriptors) :
    Requests buf body moveCaDescriptors listManagement cmdId
      ((listedPmt buf body listManagement cmdId).moved cmdId first) where
  listManagement := rfl
  programNumber := hheader.programNumber
  version := hheader.version
  currentNext := hheader.currentNext
  streams := by
    unfold CaPmt.moved listedPmt
    dsimp only
    rw [map_map,map_map]
    rfl
  effective := by
    unfold CaPmt.moved listedPmt
    dsimp only
    rw [map_map,map_map]
    apply map_congr_left
    intro s hs
    rw [hnone,nil_append,hsame s hs]
    exact append_nil _
  program := .inr ⟨hmove,hnone⟩
  commands := by
    intro info hinfo
    rcases mem_cons.mp hinfo with rfl | hstream
    · rfl
    · obtain ⟨s,hs,rfl⟩ := mem_map.mp hstream
      obtain ⟨s,-,rfl⟩ := mem_map.mp hs
      rfl

theorem lists_request {pmtDescriptors : List CaPmtDescriptor} {pmtStreams : List CaPmtStream}
    (hlisted : Listed buf pmtDescriptors pmtStreams (listedPmt buf body listManagement cmdId))
    (hheader : FromHeader buf (listedPmt buf body listManagement cmdId))
    (hstands : StandsAt buf 8 (body.bytes le16)) (hlength : buf.length ≤ 4098) (moveCaDescriptors : Int) :
    ∃ lists ca, (if pmtDescriptors = [] ∧ moveCaDescriptors ≠ 0 then
        tryMovePmtDescriptors buf pmtDescriptors pmtStreams
      else some (pmtDescriptors, pmtStreams)) = some lists ∧
      Listed buf lists.1 lists.2 ca ∧ FromHeader buf ca ∧ ca.Fits cmdId ∧ ca.streams.length < 4096 ∧
      Requests buf body moveCaDescriptors listManagement cmdId ca := by
  have hfits : (listedPmt buf body listManagement cmdId).Fits cmdId :=
    listedPmt_fits listManagement hstands hlength
  have hcount : (listedPmt buf body listManagement cmdId).streams.length < 4096 := by
    unfold listedPmt
    rw [length_map]
    exact (section_small hstands hlength).2.1
  by_cases hmove : pmtDescriptors = [] ∧ moveCaDescriptors ≠ 0
  · have hcounts : ∀ s ∈ (listedPmt buf body listManagement cmdId).streams,
        s.info.descriptors.length < 2 ^ 32 := by
      intro s hs
      have hloop := (hfits.streams s hs).2.2
      have hle := length_le_loop s.info.descriptors
      unfold LoopFits at hloop
      omega
    obtain ⟨lists,hlists,hstay | ⟨first,hfirst,hsame,hmoved⟩⟩ :=
      tryMovePmtDescriptors_spec cmdId hlisted hcounts
    · exact ⟨lists,_,by rw [if_pos hmove,hlists],hstay,hheader,hfits,hcount,requests_listed hheader⟩
    · refine ⟨lists,_,by rw [if_pos hmove,hlists],hmoved,⟨hheader.1,hheader.2,hheader.3⟩,
        moved_fits hfits hfirst,?_,requests_moved hheader hmove.2 ?_ ?_⟩
      · unfold CaPmt.moved
        rwa [length_map]
      · have hnone := hlisted.descriptors
        rw [hmove.1] at hnone
        cases hnone' : (listedPmt buf body listManagement cmdId).info.descriptors with
        | nil => exact hnone'
        | cons d ds =>
          rw [hnone'] at hnone
          cases hnone
      · intro s hs
        exact hsame (caStream cmdId s) (mem_map_of_mem hs)
  · exact ⟨_,_,by rw [if_neg hmove],hlisted,hheader,hfits,hcount,requests_listed hheader⟩

end Section

/-- Formatting of a section that the codec has accepted. If there is memory for the lists and the object fits
into the output buffer, then the object is at the front of the buffer and its length is returned, and the rest
of the buffer is left. Otherwise nothing is written and -1 is returned. -/
theorem caFormatPmt_requests (ext : ExtSection) {buf data : List UInt8} {dataLength : UInt32}
    (hcodec : mpegPmtSectionCodec ext.bytes = some (true, buf)) (hdata : dataLength.toNat ≤ data.length)
    (moveCaDescriptors : Int) (listManagement cmdId : UInt8) :
    ∃ body, HoldsPmt ext.bytes body ∧ ∃ ca out, CaPmt.decode out = some ca ∧
      Requests ext.bytes body moveCaDescriptors listManagement cmdId ca ∧
      ∀ mallocs, caFormatPmt buf data dataLength moveCaDescriptors listManagement cmdId mallocs =
        some (if entriesNeeded body ≤ mallocs ∧ out.length ≤ dataLength.toNat then
          ((out.length : Int), out ++ data.drop out.length) else (-1, data)) := by
  obtain ⟨ok, buf', hcodec', ⟨hlength, htake, -⟩, hok, hbody⟩ := pmt_codec_iterators ext
  obtain ⟨rfl, rfl⟩ : true = ok ∧ buf = buf' := by
    rw [hcodec, Option.some.injEq, Prod.mk.injEq] at hcodec'
    exact hcodec'
  obtain ⟨body, hholds⟩ := hok.mp rfl
  obtain ⟨hstands, hiterates⟩ := hbody body hholds
  have hsmall : buf.length ≤ 4098 := by
    have hfield := sectionLengthField_lt ext.length
    omega
  obtain ⟨pmtDescriptors, hextracts, hrefers⟩ := extractPmtDescriptors_extracts hiterates
  obtain ⟨pmtStreams, hextracts', hrefers'⟩ := extractStreams_extracts cmdId hiterates
  obtain ⟨hheader, hnumber, hversion, hcurrent⟩ :
      FromHeader buf (listedPmt buf body listManagement cmdId) ∧ _ ∧ _ ∧ _ :=
    listedPmt_header htake (Nat.le_trans ext.header (Nat.le_of_eq hlength.symm))
  obtain ⟨lists, ca, hlists, hlisted, hheader, hfits, hcount, hrequests⟩ :=
    lists_request ⟨hrefers, hrefers'⟩ hheader hstands hsmall moveCaDescriptors
  have hformat := format_listed hlisted hheader hfits hcount hdata
  rw [hrequests.listManagement] at hformat
  refine ⟨body, hholds, ca, ca.bytes cmdId, CaPmt.decode_bytes hfits, { hrequests with
      programNumber := hnumber.trans hrequests.programNumber
      version := hversion.trans hrequests.version
      currentNext := hcurrent.trans hrequests.currentNext }, ?_⟩
  intro mallocs
  unfold caFormatPmt entriesNeeded
  simp only [Option.bind_eq_bind, Option.pure_def]
  rw [hextracts, Option.bind_some]
  by_cases hneeded : (body.info.descriptors.filter isCa).length ≤ mallocs
  · rw [if_pos hneeded]
    dsimp only
    rw [hextracts', Option.bind_some]
    by_cases hneeded' : totalCost streamCost body.streams ≤ mallocs - (body.info.descriptors.filter isCa).length
    · rw [if_pos hneeded']
      dsimp only
      have hstep (next : List CaPmtDescriptor × List CaPmtStream → Option (Int × List UInt8)) :
          (if pmtDescriptors = [] ∧ moveCaDescriptors ≠ 0 then
            (tryMovePmtDescriptors buf pmtDescriptors pmtStreams).bind next
          else (some (pmtDescriptors, pmtStreams)).bind next) = next lists := by
        rw [← apply_ite (fun found => Option.bind found next), hlists, Option.bind_some]
      rw [hstep]
      have hall : (body.info.descriptors.filter isCa).length + totalCost streamCost body.streams ≤ mallocs := by
        omega
      simp only [hall, true_and]
      exact hformat
    · rw [if_neg hneeded', if_neg (by omega)]
  · rw [if_neg hneeded, if_neg (by omega)]

def scrambledSection : ExtSection where
  bytes := [2, 29, 0xb0, 0x02, 0x01, 0xc7, 0, 0, 0xe1, 0x00, 0xf0, 0,
    2, 0xe1, 0x01, 0xf0, 3, 9, 1, 7, 3, 0xe1, 0x02, 0xf0, 3, 9, 1, 7, 1, 2, 3, 4]
  header := by decide
  length := by decide

def scrambledDecoded : List UInt8 :=
  [2, 29, 0xb0, 0x02, 0x01, 0xc7, 0, 0, 0x00, 0xe1, 0, 0xf0,
    2, 0x01, 0xe1, 3, 0xf0, 9, 1, 7, 3, 0x02, 0xe1, 3, 0xf0, 9, 1, 7, 1, 2, 3, 4]

/-- The descriptor is moved, and the object has 20 bytes. -/
theorem caFormatPmt_requests_moved : caFormatPmt scrambledDecoded (List.replicate 22 0xff) 22 1 3 1 4 =
        some (20, [3, 1, 2, 7, 0, 4, 1, 9, 1, 7, 2, 1, 1, 0, 0, 3, 1, 2, 0, 0, 0xff, 0xff]) ∧
      ∃ body ca out, HoldsPmt scrambledSection.bytes body ∧ CaPmt.decode out = some ca ∧
        Requests scrambledSection.bytes body 1 3 1 ca := by
  obtain ⟨body, hholds, ca, out, hdecode, hrequests, -⟩ :=
    @caFormatPmt_requests scrambledSection scrambledDecoded (List.replicate 22 0xff) 22
      (by decide +kernel) (by decide) 1 3 1
  exact ⟨by decide +kernel, body, ca, out, hholds, hdecode, hrequests⟩

end LinuxDvb.En50221
