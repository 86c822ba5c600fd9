import LinuxDvb.Scan.TableBounds

/-!
# The descriptors that scan visits

In a well-formed loop the descriptors are visited in order while their length fits an `unsigned char` together with the
two bytes of the header.
-/

namespace LinuxDvb.Scan.Tables

def Access.visited : Access → Option Nat
  | .visit pos => some pos
  | .read _ => none
  | .write _ _ => none

def visits (log : List Access) : List Nat := log.filterMap Access.visited

def Apart {σ : Type} (switch : UInt8 → Nat → σ → Logged Access σ) : Prop :=
  ∀ tag pos s, visits (switch tag pos s).log = []

theorem visits_of_contained {α : Type} {m : Logged Access α} (h : Logged.All Contained m) : visits m.log = [] := by
  refine List.filterMap_eq_nil_iff.mpr fun e he => ?_
  have hcontained := h e he
  cases e with
  | visit pos => exact hcontained.elim
  | read pos => rfl
  | write array i => rfl

def places (pos : Nat) (ds : List Descriptor) : List Nat := starts pos (ds.map Descriptor.bytes)

theorem places_cons (pos : Nat) (d : Descriptor) (ds : List Descriptor) :
    places pos (d :: ds) = pos :: places (pos + d.bytes.length) ds := rfl

/-- All lengths are below 254. Only a last descriptor may have 255, if the byte that is taken for a length behind it
ends the loop. -/
def Walkable : List Descriptor → Prop
  | [] => True
  | [d] => d.data.length < 254 ∨ (d.data.length = 255 ∧ d.data.head? = some 254)
  | d :: d' :: ds => d.data.length < 254 ∧ Walkable (d' :: ds)

def upTo (tag : UInt8) : List Descriptor → List Descriptor
  | [] => []
  | d :: ds => if tag = d.tag then [d] else d :: upTo tag ds

def Searchable (tag : UInt8) : List Descriptor → Prop
  | [] => True
  | [d] =>
    if tag = d.tag then d.data.length ≠ 254
    else d.data.length < 254 ∨ (d.data.length = 255 ∧ d.data.head? = some 254)
  | d :: d' :: ds => if tag = d.tag then d.data.length ≠ 254 else d.data.length < 254 ∧ Searchable tag (d' :: ds)

section Visits

variable {σ : Type} {switch : UInt8 → Nat → σ → Logged Access σ} {buf : Mem UInt8} {pos loopLen : Nat} {s : σ}
  {d : Descriptor} {ds : List Descriptor} {tag : UInt8}

theorem visits_zero (hlen : buf (pos + 1) + 2 = 0) : visits (parseDescriptors switch buf pos loopLen s).log = [] := by
  rw [parseDescriptors]
  split
  · simp only [readByte,Logged.log_one_bind,if_pos hlen]
    rfl
  · rfl

theorem visits_step (hswitch : Apart switch) (h : 0 < loopLen) (hlen : ¬ buf (pos + 1) + 2 = 0) (s : σ) :
    visits (parseDescriptors switch buf pos loopLen s).log =
      pos :: visits (parseDescriptors switch buf (pos + (buf (pos + 1) + 2).toNat)
        (loopLen - (buf (pos + 1) + 2).toNat) (switch (buf pos) pos s).value).log := by
  rw [parseDescriptors,if_pos h]
  simp only [readByte,Logged.log_one_bind,if_neg hlen]
  have hnone := hswitch (buf pos) pos s
  rw [visits] at hnone
  simp only [visits,List.filterMap_cons,Access.visited,Logged.log_bind,filterMap_append,hnone,
    nil_append]

theorem Descriptor.header (hbytes : buf.slice pos d.bytes.length = d.bytes) :
    buf pos = d.tag ∧ (buf (pos + 1)).toNat = d.data.length ∧ buf.slice (pos + 2) d.data.length = d.data := by
  have hcells : buf pos :: buf (pos + 1) :: buf.slice (pos + 2) d.data.length =
      d.tag :: UInt8.ofNat d.data.length :: d.data := hbytes
  rw [List.cons.injEq,List.cons.injEq] at hcells
  exact ⟨hcells.1,by rw [hcells.2.1,UInt8.toNat_ofNat_of_lt' d.fits],hcells.2.2⟩

theorem descriptorLen_toNat : (buf (pos + 1) + 2).toNat = ((buf (pos + 1)).toNat + 2) % 256 := by
  rw [UInt8.toNat_add]
  rfl

theorem descriptorLen_eq_zero_iff : buf (pos + 1) + 2 = 0 ↔ (buf (pos + 1)).toNat = 254 := by
  have hlt := (buf (pos + 1)).toNat_lt
  rw [← UInt8.toNat_inj,descriptorLen_toNat]
  change ((buf (pos + 1)).toNat + 2) % 256 = 0 ↔ _
  omega

theorem Descriptor.length_bytes (d : Descriptor) : d.bytes.length = d.data.length + 2 := rfl

theorem loopBytes_cons : loopBytes (d :: ds) = d.bytes ++ loopBytes ds := rfl

theorem length_loopBytes_cons (d : Descriptor) (ds : List Descriptor) :
    (loopBytes (d :: ds)).length = d.data.length + 2 + (loopBytes ds).length := by
  rw [loopBytes_cons,length_append,Descriptor.length_bytes]

theorem slice_loopBytes_cons (hbytes : buf.slice pos (loopBytes (d :: ds)).length = loopBytes (d :: ds)) :
    buf.slice pos d.bytes.length = d.bytes ∧
      buf.slice (pos + d.bytes.length) (loopBytes ds).length = loopBytes ds := by
  rw [loopBytes_cons] at hbytes
  exact (Mem.slice_append_iff buf pos d.bytes (loopBytes ds)).mp hbytes

theorem next_of_full (hbytes : buf.slice pos d.bytes.length = d.bytes) (hfull : d.data.length = 255) :
    d.data.head? = some 254 ↔ buf (pos + 1 + 1) + 2 = 0 := by
  have hdata := (Descriptor.header hbytes).2.2
  rw [hfull] at hdata
  have hhead : d.data.head? = some (buf (pos + 2)) := by
    rw [← hdata]
    rfl
  rw [hhead,Option.some.injEq]
  constructor
  · intro h
    rw [h]
    decide
  · intro h
    exact UInt8.toNat_inj.mp (descriptorLen_eq_zero_iff.mp h)

theorem walkable_cons_of_lt (h : d.data.length < 254) : Walkable (d :: ds) ↔ Walkable ds := by
  cases ds with
  | nil => exact ⟨fun _ => trivial,fun _ => Or.inl h⟩
  | cons d' ds => exact ⟨And.right,fun h' => ⟨h,h'⟩⟩

theorem searchable_cons_of_lt (htag : tag ≠ d.tag) (h : d.data.length < 254) :
    Searchable tag (d :: ds) ↔ Searchable tag ds := by
  cases ds with
  | nil =>
    refine ⟨fun _ => trivial,fun _ => ?_⟩
    rw [Searchable,if_neg htag]
    exact Or.inl h
  | cons d' ds =>
    rw [Searchable,if_neg htag]
    exact ⟨And.right,fun h' => ⟨h,h'⟩⟩

theorem not_walkable_of_eq (h : d.data.length = 254) : ¬ Walkable (d :: ds) := by
  cases ds with
  | nil =>
    rw [Walkable]
    omega
  | cons d' ds => exact fun h' => absurd h'.1 (by omega)

theorem not_searchable_of_eq (h : d.data.length = 254) : ¬ Searchable tag (d :: ds) := by
  cases ds with
  | nil =>
    rw [Searchable]
    split
    · exact not_not_intro h
    · omega
  | cons d' ds =>
    rw [Searchable]
    split
    · exact not_not_intro h
    · exact fun h' => absurd h'.1 (by omega)

end Visits

/-! ## The walk through all descriptors -/

section Walk

variable {σ : Type} {switch : UInt8 → Nat → σ → Logged Access σ} {buf : Mem UInt8} {pos : Nat} {ds : List Descriptor}

theorem visits_parseDescriptors_iff (hswitch : Apart switch) (s : σ)
    (hbytes : buf.slice pos (loopBytes ds).length = loopBytes ds) :
    visits (parseDescriptors switch buf pos (loopBytes ds).length s).log = places pos ds ↔ Walkable ds := by
  induction ds generalizing pos s with
  | nil =>
    change visits (parseDescriptors switch buf pos 0 s).log = [] ↔ True
    rw [parseDescriptors,if_neg (Nat.lt_irrefl 0)]
    exact ⟨fun _ => trivial,fun _ => rfl⟩
  | cons d ds ih =>
    obtain ⟨hfirst,hrest⟩ := slice_loopBytes_cons hbytes
    obtain ⟨-,hlength,-⟩ := Descriptor.header hfirst
    have hlen := length_loopBytes_cons d ds
    have hpos : 0 < (loopBytes (d :: ds)).length := by omega
    have hfits := d.fits
    rw [places_cons]
    rcases (by omega : d.data.length < 254 ∨ d.data.length = 254 ∨ d.data.length = 255) with hshort | hzero | hfull
    · have hne : ¬ buf (pos + 1) + 2 = 0 := by
        rw [descriptorLen_eq_zero_iff]
        omega
      have hstep : (buf (pos + 1) + 2).toNat = d.bytes.length := by
        rw [descriptorLen_toNat,hlength,Descriptor.length_bytes]
        omega
      have hremain : (loopBytes (d :: ds)).length - d.bytes.length = (loopBytes ds).length := by
        rw [hlen,Descriptor.length_bytes]
        omega
      rw [visits_step hswitch hpos hne,hstep,hremain,walkable_cons_of_lt hshort,List.cons_inj_right]
      exact ih _ hrest
    · have hend : buf (pos + 1) + 2 = 0 := descriptorLen_eq_zero_iff.mpr (by omega)
      rw [visits_zero hend]
      exact ⟨fun h => absurd h.symm (cons_ne_nil _ _),fun h => absurd h (not_walkable_of_eq hzero)⟩
    · have hne : ¬ buf (pos + 1) + 2 = 0 := by
        rw [descriptorLen_eq_zero_iff]
        omega
      have hstep : (buf (pos + 1) + 2).toNat = 1 := by
        rw [descriptorLen_toNat,hlength,hfull]
      rw [visits_step hswitch hpos hne,hstep,List.cons_inj_right]
      by_cases hend : buf (pos + 1 + 1) + 2 = 0
      · have hhead := (next_of_full hfirst hfull).mpr hend
        rw [visits_zero hend]
        cases ds with
        | nil => exact ⟨fun _ => Or.inr ⟨hfull,hhead⟩,fun _ => rfl⟩
        | cons d' ds => exact ⟨fun h => absurd h.symm (cons_ne_nil _ _),fun h => absurd h.1 (by omega)⟩
      · -- the next place is inside this descriptor
        have hhead : ¬ d.data.head? = some 254 := fun h => hend ((next_of_full hfirst hfull).mp h)
        rw [visits_step hswitch (by omega) hend]
        cases ds with
        | nil =>
          refine ⟨fun h => absurd h (cons_ne_nil _ _),fun h => ?_⟩
          rcases h with h | ⟨-,h⟩
          · omega
          · exact absurd h hhead
        | cons d' ds =>
          refine ⟨fun h => ?_,fun h => absurd h.1 (by omega)⟩
          have hplace : pos + 1 = pos + d.bytes.length := List.head_eq_of_cons_eq h
          rw [Descriptor.length_bytes] at hplace
          omega

end Walk

/-! ## Searches -/

section Search

variable {buf : Mem UInt8} {tag : UInt8} {pos loopLen : Nat} {d : Descriptor} {ds : List Descriptor}

theorem visits_findDescriptor_zero (hlen : buf (pos + 1) + 2 = 0) :
    visits (findDescriptor tag buf pos loopLen).log = [] := by
  rw [findDescriptor]
  split
  · simp only [readByte,Logged.log_one_bind,if_pos hlen]
    rfl
  · rfl

theorem visits_findDescriptor_found (h : 0 < loopLen) (hlen : ¬ buf (pos + 1) + 2 = 0) (htag : tag = buf pos) :
    visits (findDescriptor tag buf pos loopLen).log = [pos] := by
  rw [findDescriptor,if_pos h]
  simp only [readByte,Logged.log_one_bind,if_neg hlen,if_pos htag]
  rfl

theorem visits_findDescriptor_step (h : 0 < loopLen) (hlen : ¬ buf (pos + 1) + 2 = 0) (htag : tag ≠ buf pos) :
    visits (findDescriptor tag buf pos loopLen).log =
      pos :: visits (findDescriptor tag buf (pos + (buf (pos + 1) + 2).toNat)
        (loopLen - (buf (pos + 1) + 2).toNat)).log := by
  rw [findDescriptor,if_pos h]
  simp only [readByte,Logged.log_one_bind,if_neg hlen,if_neg htag]
  rfl

theorem visits_findDescriptor_head (tag : UInt8) (h : 0 < loopLen) (hlen : ¬ buf (pos + 1) + 2 = 0) :
    ∃ rest, visits (findDescriptor tag buf pos loopLen).log = pos :: rest := by
  by_cases htag : tag = buf pos
  · exact ⟨[],visits_findDescriptor_found h hlen htag⟩
  · exact ⟨_,visits_findDescriptor_step h hlen htag⟩

theorem upTo_cons_eq_head (tag : UInt8) (d : Descriptor) (ds : List Descriptor) :
    ∃ rest, upTo tag (d :: ds) = d :: rest := by
  rw [upTo]
  split
  · exact ⟨[],rfl⟩
  · exact ⟨upTo tag ds,rfl⟩

theorem searchable_cons_of_eq (htag : tag = d.tag) : Searchable tag (d :: ds) ↔ d.data.length ≠ 254 := by
  cases ds with
  | nil => rw [Searchable,if_pos htag]
  | cons d' ds => rw [Searchable,if_pos htag]

theorem visits_findDescriptor_iff (hbytes : buf.slice pos (loopBytes ds).length = loopBytes ds) :
    visits (findDescriptor tag buf pos (loopBytes ds).length).log = places pos (upTo tag ds) ↔ Searchable tag ds := by
  induction ds generalizing pos with
  | nil =>
    change visits (findDescriptor tag buf pos 0).log = [] ↔ True
    rw [findDescriptor_end]
    exact ⟨fun _ => trivial,fun _ => rfl⟩
  | cons d ds ih =>
    obtain ⟨hfirst,hrest⟩ := slice_loopBytes_cons hbytes
    obtain ⟨htag,hlength,-⟩ := Descriptor.header hfirst
    have hlen := length_loopBytes_cons d ds
    have hpos : 0 < (loopBytes (d :: ds)).length := by omega
    have hfits := d.fits
    by_cases hend : buf (pos + 1) + 2 = 0
    · have hzero := descriptorLen_eq_zero_iff.mp hend
      obtain ⟨rest,hupTo⟩ := upTo_cons_eq_head tag d ds
      rw [visits_findDescriptor_zero hend,hupTo,places_cons]
      refine ⟨fun h => absurd h.symm (cons_ne_nil _ _),fun h => ?_⟩
      exact absurd h (not_searchable_of_eq (by omega))
    by_cases hfound : tag = d.tag
    · rw [visits_findDescriptor_found hpos hend (hfound.trans htag.symm),searchable_cons_of_eq hfound,upTo,
        if_pos hfound]
      refine ⟨fun _ h => hend (descriptorLen_eq_zero_iff.mpr (by omega)),fun _ => rfl⟩
    have hother : tag ≠ buf pos := fun h => hfound (h.trans htag)
    have hne : d.data.length ≠ 254 := fun h => hend (descriptorLen_eq_zero_iff.mpr (by omega))
    rw [visits_findDescriptor_step hpos hend hother,upTo,if_neg hfound,places_cons,List.cons_inj_right]
    rcases (by omega : d.data.length < 254 ∨ d.data.length = 255) with hshort | hfull
    · have hstep : (buf (pos + 1) + 2).toNat = d.bytes.length := by
        rw [descriptorLen_toNat,hlength,Descriptor.length_bytes]
        omega
      have hremain : (loopBytes (d :: ds)).length - d.bytes.length = (loopBytes ds).length := by
        rw [hlen,Descriptor.length_bytes]
        omega
      rw [hstep,hremain,searchable_cons_of_lt hfound hshort]
      exact ih hrest
    · have hstep : (buf (pos + 1) + 2).toNat = 1 := by
        rw [descriptorLen_toNat,hlength,hfull]
      rw [hstep]
      by_cases hend' : buf (pos + 1 + 1) + 2 = 0
      · have hhead := (next_of_full hfirst hfull).mpr hend'
        rw [visits_findDescriptor_zero hend']
        cases ds with
        | nil =>
          refine ⟨fun _ => ?_,fun _ => rfl⟩
          rw [Searchable,if_neg hfound]
          exact Or.inr ⟨hfull,hhead⟩
        | cons d' ds =>
          obtain ⟨rest,hupTo⟩ := upTo_cons_eq_head tag d' ds
          rw [hupTo,places_cons,Searchable,if_neg hfound]
          exact ⟨fun h => absurd h.symm (cons_ne_nil _ _),fun h => absurd h.1 (by omega)⟩
      · have hhead : ¬ d.data.head? = some 254 := fun h => hend' ((next_of_full hfirst hfull).mp h)
        have hmore : 0 < (loopBytes (d :: ds)).length - 1 := by omega
        obtain ⟨visited,hvisits⟩ := visits_findDescriptor_head tag hmore hend'
        rw [hvisits]
        cases ds with
        | nil =>
          refine ⟨fun h => absurd h (cons_ne_nil _ _),fun h => ?_⟩
          rw [Searchable,if_neg hfound] at h
          rcases h with h | ⟨-,h⟩
          · omega
          · exact absurd h hhead
        | cons d' ds =>
          obtain ⟨rest,hupTo⟩ := upTo_cons_eq_head tag d' ds
          rw [hupTo,places_cons,Searchable,if_neg hfound]
          refine ⟨fun h => ?_,fun h => absurd h.1 (by omega)⟩
          have hplace : pos + 1 = pos + d.bytes.length := List.head_eq_of_cons_eq h
          rw [Descriptor.length_bytes] at hplace
          omega

end Search

/-! ## The parsers of the tables -/

theorem visits_bind {α β : Type} (m : Logged Access α) (rest : α → Logged Access β) :
    visits (m >>= rest).log = visits m.log ++ visits (rest m.value).log := filterMap_append

theorem visits_pure {α : Type} (a : α) : visits (pure a : Logged Access α).log = [] := rfl

theorem visits_writeAll (array : TableArray) (first n : Nat) : visits (writeAll array first n).log = [] := by
  refine List.filterMap_eq_nil_iff.mpr fun e he => ?_
  obtain ⟨i,-,rfl⟩ := mem_map.mp he
  rfl

theorem apart_sdtSwitch (buf : Mem UInt8) : Apart (sdtSwitch buf) := fun tag pos s =>
  visits_of_contained (sdtSwitch_contained tag pos s)

theorem apart_nitSwitch (o : Options) (buf : Mem UInt8) : Apart (nitSwitch o buf) := fun tag pos s =>
  visits_of_contained (nitSwitch_contained tag pos s)

theorem apart_pmtSwitch (o : Options) (buf : Mem UInt8) : Apart (pmtSwitch o buf) := by
  intro tag pos s
  rw [pmtSwitch]
  split
  · rw [parseIso639LanguageDescriptor,visits_bind,visits_of_contained readByte_contained,nil_append]
    split
    · rw [visits_bind,visits_bind,visits_of_contained copyBytes_contained,visits_bind,visits_writeAll,visits_pure,
        message]
      split
      · rw [visits_of_contained readAll_contained]
        rfl
      · rfl
    · rfl
  · rfl

section Samples

def quietOptions : Options := ⟨⟨.qpsk, 2⟩, false, 0⟩

/-- A service description whose descriptors are behind a header, an entry and its length. -/
def describing (loop : List UInt8) : Sections.Section :=
  Mem.ofList ([0x42, 0xf0, 17 + UInt8.ofNat loop.length, 0, 1, 0xc1, 0, 0, 0, 1, 0xff, 0, 1, 0xfc, 0x80,
    UInt8.ofNat loop.length] ++ loop ++ [0, 0, 0, 0])

theorem three_fits : [0x01, 0x00, 0x00].length < 256 := by decide

def shortDescriptor : Descriptor := ⟨0x48, [0x01, 0x00, 0x00], three_fits⟩

def overrun : Sections.Section := describing [0x48, 0x03, 0x01, 0xff, 0x00]

theorem wide_fits : (List.replicate 254 (0 : UInt8)).length < 256 := by
  rw [length_replicate]
  omega

def wideDescriptor : Descriptor := ⟨0x48, List.replicate 254 0, wide_fits⟩

end Samples

end LinuxDvb.Scan.Tables
