import LinuxDvb.LibDvbEn50221.CaPmt

/-!
# Extraction of CA descriptors

The lists have an entry for each CA descriptor that the iterators visit and for each stream, in order, if
there is memory for all of them.
-/

namespace LinuxDvb.En50221

open Ucsi

section Memory

/-- Something is extracted if so many calls of `malloc` can succeed, and takes as many of them. -/
def Extracts {α : Type} (extract : Nat → Option (Option (List α × Nat))) (items : List α) (needed : Nat) :
    Prop :=
  ∀ mallocs, extract mallocs =
    some (if needed ≤ mallocs then some (items, mallocs - needed) else none)

variable {α β : Type} {extract : Nat → Nat → Option (Option (List α × Nat))} {Rel : α → β → Prop}

/-- The calls of `malloc` for all items. -/
def totalCost (cost : β → Nat) (xs : List β) : Nat := xs.foldr (fun x needed => cost x + needed) 0

theorem extractEach_cons {pos needed needed' : Nat} {positions : List Nat} {items others : List α}
    (hfirst : Extracts (extract pos) items needed)
    (hrest : Extracts (extractEach extract positions) others needed') :
    Extracts (extractEach extract (pos :: positions)) (items ++ others) (needed + needed') := by
  intro mallocs
  rw [extractEach,hfirst]
  by_cases hneeded : needed ≤ mallocs
  · rw [if_pos hneeded]
    simp only [bind_eq_bind,bind_some,pure_def]
    rw [hrest]
    by_cases hneeded' : needed' ≤ mallocs - needed
    · rw [if_pos hneeded',if_pos (by omega),Nat.sub_sub]
      rfl
    · rw [if_neg hneeded',if_neg (by omega)]
      rfl
  · rw [if_neg hneeded,if_neg (by omega)]
    rfl

theorem extractEach_extracts (keep : β → List β) (cost : β → Nat) (positions : List Nat) (xs : List β)
    (hlength : positions.length = xs.length)
    (h : ∀ pos x, (pos, x) ∈ positions.zip xs →
      ∃ items, Extracts (extract pos) items (cost x) ∧ List.Forall₂ Rel items (keep x)) :
    ∃ items, Extracts (extractEach extract positions) items (totalCost cost xs) ∧
      List.Forall₂ Rel items (xs.flatMap keep) := by
  induction positions generalizing xs with
  | nil =>
    obtain rfl := eq_nil_of_length_eq_zero hlength.symm
    exact ⟨[],fun mallocs => by rw [extractEach]; rfl,.nil⟩
  | cons pos positions ih =>
    cases xs with
    | nil => cases hlength
    | cons x xs =>
      obtain ⟨items,hfirst,hkept⟩ := h pos x (mem_cons_self ..)
      obtain ⟨others,hrest,hothers⟩ := ih xs (Nat.succ.inj hlength)
        fun pos' x' hmem => h pos' x' (mem_cons_of_mem _ hmem)
      exact ⟨items ++ others,extractEach_cons hfirst hrest,List.rel_append hkept hothers⟩

end Memory

section Iterators

theorem forEach_of_visits {next : Nat → Option (Option Nat)} {first : Option Nat} {visited : List Nat}
    (h : Visits next first visited) {n : Nat} (hn : visited.length ≤ n) :
    forEach next n first = some visited := by
  obtain ⟨fuel,hfuel⟩ := h
  induction fuel generalizing first visited n with
  | zero =>
    cases first with
    | none =>
      cases n <;> exact hfuel
    | some pos => cases hfuel
  | succ fuel ih =>
    cases first with
    | none =>
      cases n <;> exact hfuel
    | some pos =>
      rw [forEach] at hfuel
      cases hnext : next pos with
      | none =>
        rw [hnext] at hfuel
        cases hfuel
      | some following =>
        rw [hnext] at hfuel
        obtain ⟨behind,hbehind,rfl⟩ := map_eq_some_iff.mp hfuel
        obtain ⟨n,rfl⟩ : ∃ less, n = less + 1 := ⟨n - 1,by rw [length_cons] at hn; omega⟩
        rw [forEach,hnext]
        dsimp only
        rw [ih (Nat.le_of_succ_le_succ hn) hbehind]
        rfl

theorem length_starts (base : Nat) (items : List (List UInt8)) : (starts base items).length = items.length := by
  induction items generalizing base with
  | nil => rfl
  | cons item items ih => rw [starts,length_cons,length_cons,ih]

theorem length_le_flatten {items : List (List UInt8)} (h : ∀ item ∈ items, item ≠ []) :
    items.length ≤ items.flatten.length := by
  induction items with
  | nil => exact Nat.le_refl _
  | cons item items ih =>
    obtain ⟨hitem,hrest⟩ := forall_mem_cons.mp h
    have hpos := length_pos_iff.mpr hitem
    have hbehind := ih hrest
    rw [flatten_cons,length_append,length_cons]
    omega

theorem StandsAt.le_length {buf bytes : List UInt8} {pos : Nat} (h : StandsAt buf pos bytes) :
    pos + bytes.length ≤ buf.length := by
  obtain ⟨left,right,rfl,rfl⟩ := h
  rw [length_append,length_append]
  omega

theorem forEach_of_enumerates {buf : List UInt8} {first : Option (Option Nat)}
    {next : Nat → Option (Option Nat)} {base : Nat} {items : List (List UInt8)}
    (h : Enumerates buf first next base items) (hitems : ∀ item ∈ items, item ≠ []) :
    first.bind (forEach next buf.length) = some (starts base items) := by
  obtain ⟨hstands,pos,hfirst,hvisits⟩ := h
  rw [hfirst,bind_some]
  apply forEach_of_visits hvisits
  have hflatten := length_le_flatten hitems
  have hinside := StandsAt.le_length hstands
  rw [length_starts]
  omega

end Iterators

section Descriptors

variable {buf : List UInt8}

def isCa (d : Descriptor) : Bool := d.tag == dtagMpegCa

def Refers (buf : List UInt8) (entry : CaPmtDescriptor) (d : Descriptor) : Prop :=
  bytesAt buf entry.descriptor entry.length.toNat = some d.bytes ∧ entry.length.toNat = d.bytes.length

theorem bytesAt_of_standsAt {bytes : List UInt8} {pos : Nat} (h : StandsAt buf pos bytes) :
    bytesAt buf pos bytes.length = some bytes := by
  have hinside := StandsAt.le_length h
  obtain ⟨left,right,rfl,rfl⟩ := h
  unfold bytesAt
  rw [if_pos hinside,drop_left,take_left]

theorem toNat_entryLength (d : Descriptor) : ((UInt8.ofNat d.data.length).toUInt16 + 2).toNat = d.bytes.length := by
  have hfits := d.fits
  have htwo : (2 : UInt16).toNat = 2 := rfl
  rw [UInt16.toNat_add,UInt8.toNat_toUInt16,d.toNat_length,d.length_bytes,htwo]
  exact Nat.mod_eq_of_lt (by omega)

def keepCa (d : Descriptor) : List Descriptor := if isCa d then [d] else []

theorem flatMap_keepCa (ds : List Descriptor) : ds.flatMap keepCa = ds.filter isCa := by
  induction ds with
  | nil => rfl
  | cons d ds ih =>
    rw [flatMap_cons,ih,List.filter_cons]
    unfold keepCa
    split <;> rfl

theorem totalCost_keepCa (ds : List Descriptor) :
    totalCost (fun d => (keepCa d).length) ds = (ds.filter isCa).length := by
  induction ds with
  | nil => rfl
  | cons d ds ih =>
    rw [← flatMap_keepCa,flatMap_cons,length_append,flatMap_keepCa,← ih]
    rfl

theorem extractDescriptor_extracts {pos : Nat} {d : Descriptor} (h : StandsAt buf pos d.bytes) :
    ∃ items, Extracts (extractDescriptor buf pos) items (keepCa d).length ∧
      List.Forall₂ (Refers buf) items (keepCa d) := by
  have htag : buf[pos]? = some d.tag :=
    h.getElem? (i := 0) (by rw [d.length_bytes]; omega)
  have hlen : buf[pos + 1]? = some (UInt8.ofNat d.data.length) :=
    h.getElem? (i := 1) (by rw [d.length_bytes]; omega)
  unfold keepCa isCa
  by_cases hca : d.tag = dtagMpegCa
  · rw [if_pos (beq_iff_eq.mpr hca)]
    refine ⟨[⟨pos,(UInt8.ofNat d.data.length).toUInt16 + 2⟩],?_,.cons ⟨?_,?_⟩ .nil⟩
    · intro mallocs
      unfold extractDescriptor
      rw [htag]
      simp only [bind_eq_bind,bind_some,pure_def]
      rw [if_neg (not_not_intro hca)]
      cases mallocs with
      | zero => rfl
      | succ mallocs =>
        dsimp only
        rw [hlen,if_pos (by simp)]
        rfl
    · rw [toNat_entryLength]
      exact bytesAt_of_standsAt h
    · exact toNat_entryLength d
  · rw [if_neg (by rw [beq_iff_eq]; exact hca)]
    refine ⟨[],?_,.nil⟩
    intro mallocs
    unfold extractDescriptor
    rw [htag]
    simp only [bind_eq_bind,bind_some,pure_def]
    rw [if_pos hca,length_nil,if_pos (Nat.zero_le _)]
    rfl

theorem extractLoop_extracts {first : Option (Option Nat)} {next : Nat → Option (Option Nat)} {base : Nat}
    {ds : List Descriptor} (h : Enumerates buf first next base (ds.map Descriptor.bytes)) :
    ∃ positions items, first.bind (forEach next buf.length) = some positions ∧
      Extracts (extractEach (extractDescriptor buf) positions) items (ds.filter isCa).length ∧
      List.Forall₂ (Refers buf) items (ds.filter isCa) := by
  have hpositions := forEach_of_enumerates h (by
    intro item hitem
    obtain ⟨d,-,rfl⟩ := mem_map.mp hitem
    exact d.bytes_ne_nil)
  obtain ⟨items,hextracts,hrefers⟩ : ∃ items, Extracts _ items _ ∧ List.Forall₂ (Refers buf) items _ :=
    extractEach_extracts keepCa
    (fun d => (keepCa d).length) (starts base (ds.map Descriptor.bytes)) ds
    (by rw [length_starts,length_map]) (by
      intro pos d hmem
      have hitem : (pos, d.bytes) ∈
          (starts base (ds.map Descriptor.bytes)).zip (ds.map Descriptor.bytes) := by
        rw [List.zip_map_right]
        exact mem_map.mpr ⟨_,hmem,rfl⟩
      exact extractDescriptor_extracts (standsAt_of_mem h.1 hitem))
  rw [totalCost_keepCa] at hextracts
  rw [flatMap_keepCa] at hrefers
  exact ⟨_,items,hpositions,hextracts,hrefers⟩

end Descriptors

section Streams

variable {buf : List UInt8}

def caStream (cmdId : UInt8) (s : PmtStream) : CaStream :=
  ⟨s.streamType, UInt16.ofNat (s.pid.toNat % 8192), .of cmdId (s.info.descriptors.filter isCa)⟩

structure StreamRefers (buf : List UInt8) (entry : CaPmtStream) (s : CaStream) : Prop where
  streamType : entry.streamType = s.streamType
  pid : entry.pid = s.pid
  descriptors : List.Forall₂ (Refers buf) entry.descriptors s.info.descriptors
  count : entry.descriptorsCount = UInt32.ofNat s.info.descriptors.length

/-- The calls of `malloc` for a stream. -/
def streamCost (s : PmtStream) : Nat := (s.info.descriptors.filter isCa).length + 1

theorem extractStream_extracts (cmdId : UInt8) {pos : Nat} {s : PmtStream} (h : StandsAt buf pos (s.bytes le16)) :
    ∃ items, Extracts (extractStream buf pos) items (streamCost s) ∧
      List.Forall₂ (StreamRefers buf) items [caStream cmdId s] := by
  have hlong : 5 ≤ (s.bytes le16).length := by
    rw [s.length_bytes]
    omega
  have htype : buf[pos]? = some s.streamType := h.getElem? (i := 0) (by omega)
  have hpid : word16 buf (pos + 1) = some s.pid.toNat := by
    rw [h.word16 (by omega)]
    have hbytes : s.bytes le16 = [s.streamType] ++ (le16 s.pid.toNat ++ s.info.bytes le16) := rfl
    rw [hbytes]
    exact (word16_behind [s.streamType] _ 0).trans (word16_le16 s.pid.toNat_lt _)
  obtain ⟨positions,descriptors,hpositions,hextracts,hrefers⟩ :=
    extractLoop_extracts (iterates_streamDescriptors h)
  refine ⟨[⟨s.streamType,UInt16.ofNat (s.pid.toNat % 8192),descriptors,0,
    UInt32.ofNat descriptors.length⟩],?_,.cons ⟨rfl,rfl,hrefers,?_⟩ .nil⟩
  · intro mallocs
    unfold extractStream
    cases mallocs with
    | zero => rfl
    | succ mallocs =>
      simp only [bind_eq_bind,pure_def]
      rw [htype,hpid]
      simp only [bind_some]
      rw [← Option.bind_assoc,hpositions,bind_some,hextracts,bind_some]
      unfold streamCost
      by_cases hneeded : (s.info.descriptors.filter isCa).length ≤ mallocs
      · rw [if_pos hneeded,if_pos (Nat.succ_le_succ hneeded),Nat.add_sub_add_right]
        rfl
      · rw [if_neg hneeded,if_neg (by omega)]
        rfl
  · rw [hrefers.length_eq]
    rfl

variable {body : PmtBody}

theorem extractPmtDescriptors_extracts (h : PmtIterates buf body) :
    ∃ items, Extracts (extractPmtDescriptors buf) items (body.info.descriptors.filter isCa).length ∧
      List.Forall₂ (Refers buf) items (body.info.descriptors.filter isCa) := by
  obtain ⟨positions,items,hpositions,hextracts,hrefers⟩ := extractLoop_extracts h.descriptors
  refine ⟨items,?_,hrefers⟩
  intro mallocs
  unfold extractPmtDescriptors
  simp only [bind_eq_bind]
  rw [← Option.bind_assoc,hpositions,bind_some,hextracts]

theorem extractStreams_extracts (cmdId : UInt8) (h : PmtIterates buf body) :
    ∃ items, Extracts (extractStreams buf) items (totalCost streamCost body.streams) ∧
      List.Forall₂ (StreamRefers buf) items (body.streams.map (caStream cmdId)) := by
  have hpositions := forEach_of_enumerates h.streams (by
    intro item hitem
    obtain ⟨s,-,rfl⟩ := mem_map.mp hitem
    exact s.bytes_ne_nil le16)
  obtain ⟨items,hextracts,hrefers⟩ : ∃ items, Extracts _ items _ ∧
      List.Forall₂ (fun entry s => StreamRefers buf entry (caStream cmdId s)) items _ :=
    extractEach_extracts (fun s => [s]) streamCost
    (starts body.streamsStart (body.streams.map (PmtStream.bytes le16))) body.streams
    (by rw [length_starts,length_map]) (by
      intro pos s hmem
      have hitem : (pos, s.bytes le16) ∈ (starts body.streamsStart
          (body.streams.map (PmtStream.bytes le16))).zip (body.streams.map (PmtStream.bytes le16)) := by
        rw [List.zip_map_right]
        exact mem_map.mpr ⟨_,hmem,rfl⟩
      obtain ⟨items,hextracts,hrefers⟩ :=
        extractStream_extracts cmdId (standsAt_of_mem h.streams.1 hitem)
      exact ⟨items,hextracts,List.forall₂_map_right_iff.mp hrefers⟩)
  refine ⟨items,?_,?_⟩
  · intro mallocs
    unfold extractStreams
    simp only [bind_eq_bind]
    rw [← Option.bind_assoc,hpositions,bind_some,hextracts]
  · rw [List.forall₂_map_right_iff]
    rwa [List.flatMap_singleton'] at hrefers

end Streams

end LinuxDvb.En50221
