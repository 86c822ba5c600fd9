import LinuxDvb.Scan.Sections

/-!
# Each section once

What `parse_section` does with a section is told by the sections in front of it: those that belong to the same buffer,
back to the last of another version or `table_id_ext`.
-/

namespace LinuxDvb.Scan.Sections

variable {buf x y z : Section} {past : List Section} {s t : SectionState} {n : UInt8}

/-- Sections of one version and `table_id_ext`. -/
def Same (x y : Section) : Prop := y.versionNumber = x.versionNumber ∧ y.tableIdExt = x.tableIdExt

instance (x y : Section) : Decidable (Same x y) := inferInstanceAs (Decidable (_ ∧ _))

theorem Same.refl (x : Section) : Same x x := ⟨rfl, rfl⟩

theorem Same.symm (h : Same x y) : Same y x := ⟨h.1.symm, h.2.symm⟩

theorem Same.trans (hxy : Same x y) (hyz : Same y z) : Same x z := ⟨hyz.1.trans hxy.1, hyz.2.trans hxy.2⟩

/-- The sections at the end of `ys` of the version and `table_id_ext` of `x`, the last one first. -/
def current (x : Section) (ys : List Section) : List Section := ys.reverse.takeWhile (Same x)

@[simp] theorem current_nil : current x [] = [] := rfl

theorem current_append_same {ys : List Section} (h : Same x y) : current x (ys ++ [y]) = y :: current x ys := by
  rw [current,List.reverse_append,List.reverse_singleton,singleton_append,
    takeWhile_cons,decide_eq_true h,if_pos rfl,current]

theorem current_append_other {ys : List Section} (h : ¬ Same x y) : current x (ys ++ [y]) = [] := by
  rw [current,List.reverse_append,List.reverse_singleton,singleton_append,
    takeWhile_cons,decide_eq_false h,if_neg Bool.false_ne_true]

theorem current_congr {ys : List Section} (h : Same x y) : current y ys = current x ys := by
  rw [current,current]
  congr 1
  funext z
  rw [decide_eq_decide]
  exact ⟨fun hz => h.trans hz,fun hz => h.symm.trans hz⟩

/-! ## One buffer -/

section Buffer

variable {ys : List Section}

/-- The section of number `n` has been handed over. -/
def SectionState.Done (s : SectionState) (n : UInt8) : Prop := getBit s.sectionDone n ≠ 0

/-- The buffer has done the numbers of the current sections, in the sight of `x`. -/
structure SectionState.Current (s : SectionState) (x : Section) (ys : List Section) : Prop where
  ext : s.tableIdExt = x.tableIdExt
  version : s.sectionVersionNumber = x.versionNumber
  done : ∀ n, s.Done n ↔ ∃ y ∈ current x ys, y.number = n
  complete : s.sectionfilterDone = true ↔ ∀ n ≤ x.lastNumber, s.Done n

/-- Sections of the version and `table_id_ext` of `x` agree with it on the last number. -/
def Agrees (x : Section) (ys : List Section) : Prop := ∀ y ∈ ys, Same x y → y.lastNumber = x.lastNumber

/-- The buffer knows of the sections `ys`: whatever comes next finds it up to date. -/
def SectionState.Knows (s : SectionState) (ys : List Section) : Prop :=
  ∀ x, Agrees x ys → (refresh x s).Current x ys

theorem not_done_of_clear (h : s.sectionDone = Vector.replicate 32 0) : ¬ s.Done n := by
  rw [SectionState.Done,h,getBit_clear]
  exact fun h => h rfl

theorem current_of_clear (hext : s.tableIdExt = x.tableIdExt) (hversion : s.sectionVersionNumber = x.versionNumber)
    (hclear : s.sectionDone = Vector.replicate 32 0) (hcomplete : s.sectionfilterDone = false)
    (hcurrent : current x ys = []) : s.Current x ys where
  ext := hext
  version := hversion
  done n := by
    rw [hcurrent]
    refine ⟨fun h => absurd h (not_done_of_clear hclear),?_⟩
    rintro ⟨y,hy,-⟩
    cases hy
  complete := by
    rw [hcomplete]
    refine ⟨fun h => absurd h (by decide),fun h => ?_⟩
    exact absurd (h x.lastNumber (UInt8.le_refl _)) (not_done_of_clear hclear)

theorem refresh_eq (hext : s.tableIdExt = x.tableIdExt) (hversion : s.sectionVersionNumber = x.versionNumber) :
    refresh x s = s := by
  refine if_neg ?_
  rintro (h | h)
  · exact h hversion
  · exact h hext

theorem current_refresh_changed (h : s.sectionVersionNumber ≠ x.versionNumber ∨ s.tableIdExt ≠ x.tableIdExt)
    (hcurrent : current x ys = []) : (refresh x s).Current x ys := by
  rw [refresh,if_pos h]
  exact current_of_clear rfl rfl rfl rfl hcurrent

theorem knows_nil (hclear : s.sectionDone = Vector.replicate 32 0) (hcomplete : s.sectionfilterDone = false) :
    s.Knows [] := by
  intro x _
  by_cases h : s.sectionVersionNumber ≠ x.versionNumber ∨ s.tableIdExt ≠ x.tableIdExt
  · exact current_refresh_changed h rfl
  · rw [not_or,not_ne_iff,not_ne_iff] at h
    rw [refresh_eq h.2 h.1]
    exact current_of_clear h.2 h.1 hclear hcomplete rfl

theorem all_done_iff {bitfield : Vector UInt8 32} {last : UInt8} :
    ((List.range (last.toNat + 1)).all fun i => getBit bitfield (UInt8.ofNat i) ≠ 0) = true ↔
      ∀ n ≤ last, getBit bitfield n ≠ 0 := by
  rw [List.all_eq_true]
  constructor
  · intro h n hn
    have hn' : n.toNat ≤ last.toNat := hn
    have := h n.toNat (mem_range.mpr (by omega))
    rwa [decide_eq_true_iff,UInt8.ofNat_toNat] at this
  · intro h i hi
    have hi' := mem_range.mp hi
    have hlast : i < 256 := by
      have := last.toNat_lt
      omega
    rw [decide_eq_true_iff]
    apply h
    rw [UInt8.le_iff_toNat_le,UInt8.toNat_ofNat_of_lt' hlast]
    omega

theorem current_mark (h : s.Current x ys) : (markSection x s).Current x (ys ++ [x]) := by
  have hdone (n : UInt8) : (markSection x s).Done n ↔ n = x.number ∨ s.Done n := getBit_setBit
  refine ⟨h.ext,h.version,fun n => ?_,?_⟩
  · rw [hdone,h.done,current_append_same (Same.refl x)]
    simp [eq_comm]
  · change (if _ then true else s.sectionfilterDone) = true ↔ _
    split
    case isTrue hall => exact ⟨fun _ => all_done_iff.mp hall,fun _ => rfl⟩
    case isFalse hmissing =>
      have hsome : ¬ ∀ n ≤ x.lastNumber, (markSection x s).Done n := fun hall => hmissing (all_done_iff.mpr hall)
      refine ⟨fun hcomplete => ?_,fun hall => absurd hall hsome⟩
      exact fun n hn => (hdone n).mpr (Or.inr (h.complete.mp hcomplete n hn))

theorem current_again (h : s.Current x ys) (hdone : s.Done x.number) : s.Current x (ys ++ [x]) := by
  refine ⟨h.ext,h.version,fun n => ?_,h.complete⟩
  rw [h.done,current_append_same (Same.refl x)]
  constructor
  · rintro ⟨y,hy,hn⟩
    exact ⟨y,mem_cons_of_mem x hy,hn⟩
  · rintro ⟨y,hy,hn⟩
    rcases mem_cons.mp hy with rfl | hy
    · rw [← hn]
      exact (h.done _).mp hdone
    · exact ⟨y,hy,hn⟩

theorem SectionState.Current.knows (h : s.Current x (ys ++ [x])) : s.Knows (ys ++ [x]) := by
  intro y hagrees
  by_cases hsame : Same x y
  · have hlast : x.lastNumber = y.lastNumber :=
      hagrees x (mem_append_right _ (mem_singleton_self x)) hsame.symm
    have hext : s.tableIdExt = y.tableIdExt := by rw [h.ext,hsame.2]
    have hversion : s.sectionVersionNumber = y.versionNumber := by rw [h.version,hsame.1]
    rw [refresh_eq hext hversion]
    refine ⟨hext,hversion,?_,?_⟩
    · rw [current_congr hsame]
      exact h.done
    · rw [← hlast]
      exact h.complete
  · refine current_refresh_changed ?_ (current_append_other fun hyx => hsame hyx.symm)
    by_contra hnone
    rw [not_or,not_ne_iff,not_ne_iff,h.ext,h.version] at hnone
    exact hsame ⟨(Int.ofNat_inj.mp hnone.1).symm,(Int.ofNat_inj.mp hnone.2).symm⟩

theorem refresh_ext : (refresh x s).tableIdExt = x.tableIdExt := by
  rw [refresh]
  split
  case isTrue => rfl
  case isFalse h =>
    rw [not_or,not_ne_iff,not_ne_iff] at h
    exact h.2

theorem refresh_kind : (refresh x s).tableId = s.tableId ∧ (refresh x s).segmented = s.segmented := by
  rw [refresh]
  split
  · exact ⟨rfl,rfl⟩
  · exact ⟨rfl,rfl⟩

theorem ret_eq_one_iff {segmented complete : Bool} (h : segmented = false) :
    (if segmented then (0 : Int) else if complete then 1 else 0) = 1 ↔ complete = true := by
  rw [h]
  cases complete <;> decide

/-- A section is handed over if no current one has its number. A single buffer is complete when all numbers have been
handed over. -/
structure Parses (segmented : Bool) (x : Section) (ys : List Section) (o : Outcome) : Prop where
  again : (∃ y ∈ current x ys, y.number = x.number) → o.handed = none
  fresh : (¬ ∃ y ∈ current x ys, y.number = x.number) → o.handed = some (handOver x)
  complete : segmented = false →
    (o.ret = 1 ↔ ∀ n ≤ x.lastNumber, n = x.number ∨ ∃ y ∈ current x ys, y.number = n)

theorem parseInto_spec (hknows : s.Knows ys) (hagrees : Agrees x ys) (hlength : 9 ≤ x.sectionLength) :
    (parseInto x s).1.Knows (ys ++ [x]) ∧ (parseInto x s).1.tableIdExt = x.tableIdExt ∧
      Parses s.segmented x ys (parseInto x s).2 := by
  have hcurrent := hknows x hagrees
  have hsegmented : (refresh x s).segmented = s.segmented := refresh_kind.2
  by_cases hdone : (refresh x s).Done x.number
  · have hsome := (hcurrent.done _).mp hdone
    have hparse : parseInto x s =
        (refresh x s, ⟨if s.segmented then 0 else if (refresh x s).sectionfilterDone then 1 else 0,none⟩) := by
      have hset : ¬ getBit (refresh x s).sectionDone x.number = 0 := hdone
      simp only [parseInto,if_neg (Nat.not_lt.mpr hlength),if_neg hset,hsegmented]
    have hafter := current_again hcurrent hdone
    rw [hparse]
    refine ⟨hafter.knows,hafter.ext,fun _ => rfl,fun h => absurd hsome h,fun hflat => ?_⟩
    rw [ret_eq_one_iff hflat,hcurrent.complete]
    refine forall₂_congr fun n _ => ?_
    rw [hcurrent.done]
    refine ⟨Or.inr,?_⟩
    rintro (rfl | h)
    · exact hsome
    · exact h
  · have hnone : ¬ ∃ y ∈ current x ys, y.number = x.number := fun h => hdone ((hcurrent.done _).mpr h)
    have hparse : parseInto x s = (markSection x (refresh x s),
        ⟨if s.segmented then 0 else if (markSection x (refresh x s)).sectionfilterDone then 1 else 0,
          some (handOver x)⟩) := by
      have hclear : getBit (refresh x s).sectionDone x.number = 0 := by
        rwa [SectionState.Done,ne_eq,not_not] at hdone
      have hmarked : (markSection x (refresh x s)).segmented = s.segmented := hsegmented
      simp only [parseInto,if_neg (Nat.not_lt.mpr hlength),if_pos hclear,hmarked]
    have hafter := current_mark hcurrent
    rw [hparse]
    refine ⟨hafter.knows,hafter.ext,fun h => absurd h hnone,fun _ => rfl,fun hflat => ?_⟩
    rw [ret_eq_one_iff hflat,hafter.complete]
    refine forall₂_congr fun n _ => ?_
    rw [hafter.done,current_append_same (Same.refl x)]
    simp [eq_comm]

end Buffer

/-! ## The chain -/

section Chain

variable {c : SectionChain} {f : FilterSetup} {longTimeout : Bool} {segs : List SectionState}

def SectionChain.bufs (c : SectionChain) : List SectionState := c.head :: c.nextSeg

/-- The sections of `past` that belong to the buffer of `x`. -/
def own (segmented : Bool) (x : Section) (past : List Section) : List Section :=
  past.filter fun y => segmented = false ∨ y.tableIdExt = x.tableIdExt

theorem parseInSegment_cases (s : SectionState) (segs : List SectionState) :
    (∃ (pre : List SectionState) (t : SectionState) (post : List SectionState),
      segs = pre ++ t :: post ∧ t.tableIdExt = x.tableIdExt ∧
      parseInSegment x s segs = (pre ++ (parseInto x t).1 :: post, (parseInto x t).2)) ∨
    ((∀ t ∈ segs, t.tableIdExt ≠ x.tableIdExt) ∧ ∃ t, t ∈ s :: segs ∧
      parseInSegment x s segs = (segs ++ [(parseInto x (newSegment x t)).1], (parseInto x (newSegment x t)).2)) := by
  induction segs generalizing s with
  | nil => exact Or.inr ⟨fun t ht => absurd ht not_mem_nil,s,mem_cons_self,rfl⟩
  | cons t segs ih =>
    by_cases ht : t.tableIdExt = x.tableIdExt
    · refine Or.inl ⟨[],t,segs,rfl,ht,?_⟩
      rw [parseInSegment,if_pos ht]
      rfl
    · rcases ih t with ⟨pre,u,post,hsegs,hu,hparse⟩ | ⟨hother,u,hu,hparse⟩
      · refine Or.inl ⟨t :: pre,u,post,by rw [hsegs]; rfl,hu,?_⟩
        rw [parseInSegment,if_neg ht,hparse]
        rfl
      · refine Or.inr ⟨?_,u,mem_cons_of_mem s hu,?_⟩
        · intro v hv
          rcases mem_cons.mp hv with rfl | hv
          · exact ht
          · exact hother v hv
        · rw [parseInSegment,if_neg ht,hparse]
          rfl

structure SectionChain.SetUp (f : FilterSetup) (c : SectionChain) : Prop where
  tableId : c.head.tableId = f.tableId
  segmented : ∀ s ∈ c.bufs, s.segmented = f.segmented

/-- One buffer for each `table_id_ext`, and it knows of the sections with this one. -/
structure Segments (past : List Section) (bufs : List SectionState) : Prop where
  nodup : (bufs.map (·.tableIdExt)).Nodup
  knows : ∀ s ∈ bufs, ∃ y ∈ past, s.tableIdExt = y.tableIdExt ∧ s.Knows (own true y past)
  all : ∀ y ∈ past, ∃ s ∈ bufs, s.tableIdExt = y.tableIdExt

inductive SectionChain.Follows (f : FilterSetup) (past : List Section) (c : SectionChain) : Prop where
  /-- Before the first section. -/
  | unset (hpast : past = []) (hsegs : c.nextSeg = []) (hext : c.head.tableIdExt = -1) (hhead : c.head.Knows [])
  | flat (hflat : f.segmented = false) (hsegs : c.nextSeg = []) (hhead : c.head.Knows past)
  | segmented (hset : f.segmented = true) (hbufs : Segments past c.bufs)

theorem parseInto_kind : (parseInto x s).1.tableId = s.tableId ∧ (parseInto x s).1.segmented = s.segmented := by
  rw [parseInto]
  by_cases hshort : x.sectionLength < 5 + 4
  · simp only [if_pos hshort]
    exact refresh_kind
  · simp only [if_neg hshort]
    split
    · exact refresh_kind
    · exact refresh_kind

theorem parseInto_ext : (parseInto x s).1.tableIdExt = x.tableIdExt := by
  rw [parseInto]
  by_cases hshort : x.sectionLength < 5 + 4
  · simp only [if_pos hshort]
    exact refresh_ext
  · simp only [if_neg hshort]
    split
    · exact refresh_ext
    · exact refresh_ext

theorem parseSection_segmented (hid : c.head.tableId = x.tableId) (hset : c.head.segmented = true)
    (hext : c.head.tableIdExt ≠ -1) :
    (∃ (pre : List SectionState) (t : SectionState) (post : List SectionState),
      c.bufs = pre ++ t :: post ∧ t.tableIdExt = x.tableIdExt ∧
        (parseSection x c).1.bufs = pre ++ (parseInto x t).1 :: post ∧ (parseSection x c).2 = (parseInto x t).2) ∨
    ((∀ t ∈ c.bufs, t.tableIdExt ≠ x.tableIdExt) ∧ ∃ t ∈ c.bufs,
      (parseSection x c).1.bufs = c.bufs ++ [(parseInto x (newSegment x t)).1] ∧
        (parseSection x c).2 = (parseInto x (newSegment x t)).2) := by
  rw [parseSection,if_neg (not_not_intro hid)]
  by_cases hhead : c.head.tableIdExt = x.tableIdExt
  · rw [if_neg (fun h => h.2.2 hhead)]
    exact Or.inl ⟨[],c.head,c.nextSeg,rfl,hhead,rfl,rfl⟩
  · rw [if_pos ⟨hset,hext,hhead⟩]
    rcases parseInSegment_cases c.head c.nextSeg with ⟨pre,t,post,hsegs,ht,hparse⟩ | ⟨hother,t,ht,hparse⟩
    · refine Or.inl ⟨c.head :: pre,t,post,?_,ht,?_,?_⟩
      · rw [SectionChain.bufs,hsegs]
        rfl
      · rw [hparse]
        rfl
      · rw [hparse]
    · refine Or.inr ⟨?_,t,ht,?_,?_⟩
      · intro u hu
        rcases mem_cons.mp hu with rfl | hu
        · exact hhead
        · exact hother u hu
      · rw [hparse]
        rfl
      · rw [hparse]

theorem parseSection_tableId : (parseSection x c).1.head.tableId = c.head.tableId := by
  rw [parseSection]
  split_ifs
  · rfl
  · rfl
  · exact parseInto_kind.1

theorem parseSection_head (hid : c.head.tableId = x.tableId)
    (hhead : c.head.segmented = false ∨ c.head.tableIdExt = -1) (hsegs : c.nextSeg = []) :
    (parseSection x c).1.head = (parseInto x c.head).1 ∧ (parseSection x c).1.nextSeg = [] ∧
      (parseSection x c).2 = (parseInto x c.head).2 := by
  have hnot : ¬ (c.head.segmented ∧ c.head.tableIdExt ≠ -1 ∧ c.head.tableIdExt ≠ x.tableIdExt) := by
    rintro ⟨hset,hext,-⟩
    rcases hhead with h | h
    · rw [h] at hset
      exact Bool.false_ne_true hset
    · exact hext h
  rw [parseSection,if_neg (not_not_intro hid),if_neg hnot]
  exact ⟨rfl,hsegs,rfl⟩

theorem own_append (segmented : Bool) (past : List Section) : own segmented x (past ++ [y]) =
      if segmented = false ∨ y.tableIdExt = x.tableIdExt then own segmented x past ++ [y] else own segmented x past := by
  rw [own,own,filter_append,List.filter_singleton]
  split <;> simp_all

theorem own_append_self (segmented : Bool) (past : List Section) :
    own segmented x (past ++ [x]) = own segmented x past ++ [x] := by
  rw [own_append,if_pos (Or.inr rfl)]

theorem own_flat (past : List Section) : own false x past = past :=
  List.filter_eq_self.mpr fun _ _ => decide_eq_true (Or.inl rfl)

theorem own_congr (h : x.tableIdExt = y.tableIdExt) (segmented : Bool) (past : List Section) :
    own segmented x past = own segmented y past := by
  rw [own,own,h]

theorem Agrees.own (h : Agrees x past) (segmented : Bool) : Agrees x (own segmented x past) :=
  fun y hy => h y (List.mem_of_mem_filter hy)

theorem SectionChain.SetUp.parse_head (hset : c.SetUp f) (hsegs : (parseSection x c).1.nextSeg = [])
    (hhead : (parseSection x c).1.head = (parseInto x c.head).1) : (parseSection x c).1.SetUp f where
  tableId := by rw [hhead,parseInto_kind.1,hset.tableId]
  segmented s hs := by
    rw [SectionChain.bufs,hsegs,mem_singleton] at hs
    rw [hs,hhead,parseInto_kind.2]
    exact hset.segmented c.head mem_cons_self

theorem follows_first (hset : c.SetUp f) (hid : x.tableId = f.tableId) (hlength : 9 ≤ x.sectionLength)
    (hsegs : c.nextSeg = []) (hext : c.head.tableIdExt = -1) (hhead : c.head.Knows []) :
    (parseSection x c).1.SetUp f ∧ (parseSection x c).1.Follows f [x] ∧
      Parses f.segmented x [] (parseSection x c).2 := by
  have hsegmented : c.head.segmented = f.segmented := hset.segmented c.head mem_cons_self
  obtain ⟨hhead',hsegs',hout⟩ := parseSection_head (hset.tableId.trans hid.symm) (Or.inr hext) hsegs
  obtain ⟨hknows,hext',hparses⟩ := parseInto_spec hhead (fun y hy => absurd hy not_mem_nil) hlength
  rw [nil_append] at hknows
  rw [hsegmented] at hparses
  refine ⟨hset.parse_head hsegs' hhead',?_,hout ▸ hparses⟩
  cases hf : f.segmented with
  | false => exact .flat hf hsegs' (hhead' ▸ hknows)
  | true =>
    have hbufs : (parseSection x c).1.bufs = [(parseInto x c.head).1] := by rw [SectionChain.bufs,hsegs',hhead']
    refine .segmented hf ⟨?_,?_,?_⟩
    · simp [hbufs]
    · intro s hs
      rw [hbufs,mem_singleton] at hs
      rw [hs]
      refine ⟨x,mem_singleton_self x,hext',?_⟩
      have hown : own true x [x] = [x] := own_append_self true []
      rwa [hown]
    · intro y hy
      rw [mem_singleton] at hy
      rw [hbufs,hy]
      exact ⟨_,mem_singleton_self _,hext'⟩

theorem follows_flat (hset : c.SetUp f) (hid : x.tableId = f.tableId) (hlength : 9 ≤ x.sectionLength)
    (hagrees : Agrees x past) (hf : f.segmented = false) (hsegs : c.nextSeg = []) (hhead : c.head.Knows past) :
    (parseSection x c).1.SetUp f ∧ (parseSection x c).1.Follows f (past ++ [x]) ∧
      Parses f.segmented x past (parseSection x c).2 := by
  have hsegmented : c.head.segmented = f.segmented := hset.segmented c.head mem_cons_self
  obtain ⟨hhead',hsegs',hout⟩ :=
    parseSection_head (hset.tableId.trans hid.symm) (Or.inl (hsegmented.trans hf)) hsegs
  obtain ⟨hknows,-,hparses⟩ := parseInto_spec hhead hagrees hlength
  rw [hsegmented] at hparses
  exact ⟨hset.parse_head hsegs' hhead',.flat hf hsegs' (hhead' ▸ hknows),hout ▸ hparses⟩

theorem own_append_other (past : List Section) (h : x.tableIdExt ≠ y.tableIdExt) :
    own true y (past ++ [x]) = own true y past := by
  rw [own_append,if_neg]
  rintro (h' | h')
  · exact Bool.false_ne_true h'.symm
  · exact h h'

theorem Segments.exists_mem {bufs : List SectionState} (h : Segments past bufs) {s : SectionState} (hs : s ∈ bufs)
    (hother : s.tableIdExt ≠ x.tableIdExt) :
    ∃ y ∈ past ++ [x], s.tableIdExt = y.tableIdExt ∧ s.Knows (own true y (past ++ [x])) := by
  obtain ⟨y,hy,hext,hknows⟩ := h.knows s hs
  refine ⟨y,mem_append_left _ hy,hext,?_⟩
  rwa [own_append_other]
  intro hxy
  rw [hext,hxy] at hother
  exact hother rfl

theorem Segments.update {pre post : List SectionState} {t' : SectionState} (h : Segments past (pre ++ t :: post))
    (ht : t.tableIdExt = x.tableIdExt) (ht' : t'.tableIdExt = x.tableIdExt)
    (hknows : t'.Knows (own true x past ++ [x])) : Segments (past ++ [x]) (pre ++ t' :: post) := by
  have hmap : (pre ++ t' :: post).map (·.tableIdExt) = (pre ++ t :: post).map (·.tableIdExt) := by
    rw [map_append,map_append,map_cons,map_cons,ht,ht']
  have hnodup := h.nodup
  rw [map_append,map_cons,ht] at hnodup
  have hnew : ∃ y ∈ past ++ [x], t'.tableIdExt = y.tableIdExt ∧ t'.Knows (own true y (past ++ [x])) := by
    refine ⟨x,mem_append_right _ (mem_singleton_self x),ht',?_⟩
    rwa [own_append_self]
  refine ⟨hmap ▸ h.nodup,fun s hs => ?_,fun y hy => ?_⟩
  · rcases mem_append.mp hs with hs | hs
    · refine h.exists_mem (mem_append_left _ hs) fun hext => ?_
      exact (nodup_append.mp hnodup).2.2 _ (mem_map_of_mem hs) _ mem_cons_self hext
    · rcases mem_cons.mp hs with rfl | hs
      · exact hnew
      · refine h.exists_mem (mem_append_right _ (mem_cons_of_mem t hs)) fun hext => ?_
        exact (nodup_cons.mp (nodup_append.mp hnodup).2.1).1 (hext ▸ mem_map_of_mem hs)
  · have hexts : (y.tableIdExt : Int) ∈ (pre ++ t' :: post).map (·.tableIdExt) := by
      rcases mem_append.mp hy with hy | hy
      · obtain ⟨s,hs,hext⟩ := h.all y hy
        rw [hmap,← hext]
        exact mem_map_of_mem hs
      · rw [mem_singleton.mp hy,← ht']
        exact mem_map_of_mem (mem_append_right _ mem_cons_self)
    exact mem_map.mp hexts

theorem Segments.append {bufs : List SectionState} {t' : SectionState} (h : Segments past bufs)
    (hother : ∀ s ∈ bufs, s.tableIdExt ≠ x.tableIdExt) (ht' : t'.tableIdExt = x.tableIdExt)
    (hknows : t'.Knows (own true x past ++ [x])) : Segments (past ++ [x]) (bufs ++ [t']) := by
  refine ⟨?_,fun s hs => ?_,fun y hy => ?_⟩
  · rw [map_append,nodup_append]
    refine ⟨h.nodup,by simp,?_⟩
    intro e he e' he'
    obtain ⟨s,hs,rfl⟩ := mem_map.mp he
    rw [List.map_singleton,mem_singleton] at he'
    rw [he',ht']
    exact hother s hs
  · rcases mem_append.mp hs with hs | hs
    · exact h.exists_mem hs (hother s hs)
    · rw [mem_singleton.mp hs]
      refine ⟨x,mem_append_right _ (mem_singleton_self x),ht',?_⟩
      rwa [own_append_self]
  · rcases mem_append.mp hy with hy | hy
    · obtain ⟨s,hs,hext⟩ := h.all y hy
      exact ⟨s,mem_append_left _ hs,hext⟩
    · rw [mem_singleton.mp hy]
      exact ⟨t',mem_append_right _ (mem_singleton_self t'),ht'⟩

theorem Segments.ext_ne {bufs : List SectionState} (h : Segments past bufs) (hs : s ∈ bufs) : s.tableIdExt ≠ -1 := by
  obtain ⟨y,-,hy,-⟩ := h.knows s hs
  rw [hy]
  omega

theorem Segments.own_eq_nil {bufs : List SectionState} (h : Segments past bufs)
    (hother : ∀ s ∈ bufs, s.tableIdExt ≠ x.tableIdExt) : own true x past = [] := by
  refine List.filter_eq_nil_iff.mpr fun y hy hown => ?_
  obtain ⟨s,hs,hext⟩ := h.all y hy
  rcases decide_eq_true_iff.mp hown with hfalse | hxy
  · exact Bool.false_ne_true hfalse.symm
  · exact hother s hs (by rw [hext,hxy])

theorem follows_segmented (hset : c.SetUp f) (hid : x.tableId = f.tableId) (hlength : 9 ≤ x.sectionLength)
    (hagrees : Agrees x past) (hf : f.segmented = true) (hbufs : Segments past c.bufs) :
    (parseSection x c).1.SetUp f ∧ Segments (past ++ [x]) (parseSection x c).1.bufs ∧
      Parses f.segmented x (own true x past) (parseSection x c).2 := by
  have hhead : c.head ∈ c.bufs := mem_cons_self
  have hext : c.head.tableIdExt ≠ -1 := hbufs.ext_ne hhead
  have htable : (parseSection x c).1.head.tableId = f.tableId := by rw [parseSection_tableId,hset.tableId]
  rcases parseSection_segmented (hset.tableId.trans hid.symm) ((hset.segmented c.head hhead).trans hf) hext with
    ⟨pre,t,post,hsplit,ht,hbufs',hout⟩ | ⟨hother,t,ht,hbufs',hout⟩
  · have hmem : t ∈ c.bufs := by
      rw [hsplit]
      exact mem_append_right _ mem_cons_self
    obtain ⟨y,-,hy,hknows⟩ := hbufs.knows t hmem
    rw [← own_congr (Int.ofNat_inj.mp (ht.symm.trans hy))] at hknows
    obtain ⟨hnew,hext',hparses⟩ := parseInto_spec hknows (hagrees.own true) hlength
    rw [hset.segmented t hmem] at hparses
    refine ⟨⟨htable,fun s hs => ?_⟩,?_,hout ▸ hparses⟩
    · have hsegmented := hset.segmented
      rw [hsplit] at hsegmented
      rw [hbufs'] at hs
      rcases mem_append.mp hs with hs | hs
      · exact hsegmented s (mem_append_left _ hs)
      · rcases mem_cons.mp hs with rfl | hs
        · rw [parseInto_kind.2,hset.segmented t hmem]
        · exact hsegmented s (mem_append_right _ (mem_cons_of_mem t hs))
    · rw [hbufs']
      exact Segments.update (hsplit ▸ hbufs) ht hext' hnew
  · have hnil : (newSegment x t).Knows (own true x past) := by
      rw [hbufs.own_eq_nil hother]
      exact knows_nil rfl rfl
    have hsegmented : (newSegment x t).segmented = f.segmented := hset.segmented t ht
    obtain ⟨hnew,hext',hparses⟩ := parseInto_spec hnil (hagrees.own true) hlength
    rw [hsegmented] at hparses
    refine ⟨⟨htable,fun s hs => ?_⟩,?_,hout ▸ hparses⟩
    · rw [hbufs'] at hs
      rcases mem_append.mp hs with hs | hs
      · exact hset.segmented s hs
      · rw [mem_singleton.mp hs,parseInto_kind.2,hsegmented]
    · rw [hbufs']
      exact hbufs.append hother hext' hnew

theorem SectionChain.Follows.step (h : c.Follows f past) (hset : c.SetUp f) (hid : x.tableId = f.tableId)
    (hlength : 9 ≤ x.sectionLength) (hagrees : Agrees x past) :
    (parseSection x c).1.SetUp f ∧ (parseSection x c).1.Follows f (past ++ [x]) ∧
      Parses f.segmented x (own f.segmented x past) (parseSection x c).2 := by
  cases h with
  | unset hpast hsegs hext hhead =>
    rw [hpast]
    exact follows_first hset hid hlength hsegs hext hhead
  | flat hf hsegs hhead =>
    rw [hf,own_flat,← hf]
    exact follows_flat hset hid hlength hagrees hf hsegs hhead
  | segmented hf hbufs =>
    obtain ⟨hset',hbufs',hparses⟩ := follows_segmented hset hid hlength hagrees hf hbufs
    rw [← hf] at hparses
    exact ⟨hset',.segmented hf hbufs',hparses⟩

end Chain

/-! ## Histories -/

section Histories

variable {longTimeout : Bool} {f : FilterSetup}

/-- The sections that a filter delivers: of its table, not truncated, and those of one version and `table_id_ext` with
the same last number. -/
structure Delivers (f : FilterSetup) (sections : List Section) : Prop where
  tableId : ∀ y ∈ sections, y.tableId = f.tableId
  length : ∀ y ∈ sections, 9 ≤ y.sectionLength
  last : ∀ y ∈ sections, ∀ z ∈ sections, Same z y → y.lastNumber = z.lastNumber

/-- The sections that belong to the buffer of `x`. -/
def Belongs (f : FilterSetup) (x y : Section) : Prop := f.segmented = false ∨ y.tableIdExt = x.tableIdExt

/-- `y`, which came after `earlier`, was handed over. -/
def WasHanded (longTimeout : Bool) (f : FilterSetup) (earlier : List Section) (y : Section) : Prop :=
  (parseSection y (deliver (setupSections longTimeout f) earlier)).2.handed ≠ none

/-- A section of number `n` has been handed over since the last change of version or `table_id_ext` of the buffer that
`x` belongs to. -/
def HandedSince (longTimeout : Bool) (f : FilterSetup) (past : List Section) (x : Section) (n : UInt8) : Prop :=
  ∃ (earlier : List Section) (y : Section) (later : List Section), past = earlier ++ y :: later ∧
    WasHanded longTimeout f earlier y ∧ y.number = n ∧ Belongs f x y ∧ ∀ z ∈ y :: later, Belongs f x z → Same x z

theorem deliver_append (c : SectionChain) : deliver c (past ++ [x]) = (parseSection x (deliver c past)).1 := by
  rw [deliver,foldl_append]
  rfl

theorem Delivers.init (h : Delivers f (past ++ [x])) : Delivers f past where
  tableId y hy := h.tableId y (mem_append_left _ hy)
  length y hy := h.length y (mem_append_left _ hy)
  last y hy z hz := h.last y (mem_append_left _ hy) z (mem_append_left _ hz)

theorem Delivers.agrees (h : Delivers f (past ++ [x])) : Agrees x past := fun y hy hsame =>
  h.last y (mem_append_left _ hy) x (mem_append_right _ (mem_singleton_self x)) hsame

theorem deliver_follows (longTimeout : Bool) (hext : f.tableIdExt = -1) (h : Delivers f past) :
    (deliver (setupSections longTimeout f) past).SetUp f ∧ (deliver (setupSections longTimeout f) past).Follows f past := by
  induction past using List.reverseRecOn with
  | nil =>
    refine ⟨⟨rfl,?_⟩,.unset rfl rfl hext (knows_nil rfl rfl)⟩
    intro s hs
    rw [mem_singleton.mp hs]
    rfl
  | append_singleton past x ih =>
    obtain ⟨hset,hfollows⟩ := ih h.init
    have hmem : x ∈ past ++ [x] := mem_append_right _ (mem_singleton_self x)
    obtain ⟨hset',hfollows',-⟩ := hfollows.step hset (h.tableId x hmem) (h.length x hmem) h.agrees
    rw [deliver_append]
    exact ⟨hset',hfollows'⟩

theorem deliver_parses (longTimeout : Bool) (hext : f.tableIdExt = -1) (h : Delivers f (past ++ [x])) :
    Parses f.segmented x (own f.segmented x past) (parseSection x (deliver (setupSections longTimeout f) past)).2 := by
  obtain ⟨hset,hfollows⟩ := deliver_follows longTimeout hext h.init
  have hmem : x ∈ past ++ [x] := mem_append_right _ (mem_singleton_self x)
  exact (hfollows.step hset (h.tableId x hmem) (h.length x hmem) h.agrees).2.2

theorem handedSince_append : HandedSince longTimeout f (past ++ [z]) x n ↔ (Belongs f x z → Same x z) ∧
        ((WasHanded longTimeout f past z ∧ z.number = n ∧ Belongs f x z) ∨ HandedSince longTimeout f past x n) := by
  constructor
  · rintro ⟨earlier,y,later,hpast,hhanded,hnumber,hbelongs,hsame⟩
    rcases List.eq_nil_or_concat later with rfl | ⟨later,z',rfl⟩
    · obtain ⟨rfl,hz⟩ := List.append_inj' hpast rfl
      cases hz
      exact ⟨hsame z mem_cons_self,Or.inl ⟨hhanded,hnumber,hbelongs⟩⟩
    · rw [List.concat_eq_append,← cons_append,← append_assoc] at hpast
      obtain ⟨rfl,hz⟩ := List.append_inj' hpast rfl
      cases hz
      refine ⟨hsame z (by simp),Or.inr ⟨earlier,y,later,rfl,hhanded,hnumber,hbelongs,?_⟩⟩
      intro w hw
      rw [List.concat_eq_append] at hsame
      exact hsame w (mem_append_left _ hw)
  · rintro ⟨hz,⟨hhanded,hnumber,hbelongs⟩ | ⟨earlier,y,later,rfl,hhanded,hnumber,hbelongs,hsame⟩⟩
    · refine ⟨past,z,[],rfl,hhanded,hnumber,hbelongs,?_⟩
      intro w hw
      rw [mem_singleton.mp hw]
      exact hz
    · refine ⟨earlier,y,later ++ [z],by simp,hhanded,hnumber,hbelongs,?_⟩
      intro w hw hw'
      rw [← cons_append] at hw
      rcases mem_append.mp hw with hw | hw
      · exact hsame w hw hw'
      · rw [mem_singleton] at hw
        rw [hw] at hw' ⊢
        exact hz hw'

theorem own_eq_of_belongs (h : Belongs f x y) (past : List Section) :
    own f.segmented y past = own f.segmented x past := by
  rcases h with hflat | hext
  · rw [hflat,own_flat,own_flat]
  · exact own_congr hext _ _

theorem current_iff_handedSince (longTimeout : Bool) (hext : f.tableIdExt = -1) (h : Delivers f past) (x : Section)
    (n : UInt8) :
    (∃ y ∈ current x (own f.segmented x past), y.number = n) ↔ HandedSince longTimeout f past x n := by
  induction past using List.reverseRecOn generalizing x n with
  | nil =>
    constructor
    · rintro ⟨y,hy,-⟩
      cases hy
    · rintro ⟨earlier,y,later,hpast,-⟩
      exact absurd hpast.symm (List.append_ne_nil_of_right_ne_nil _ (cons_ne_nil y later))
  | append_singleton past z ih =>
    have hparses := deliver_parses longTimeout hext h
    rw [handedSince_append,← ih h.init]
    by_cases hbelongs : Belongs f x z
    · have hown : own f.segmented x (past ++ [z]) = own f.segmented x past ++ [z] := by
        rw [own_append]
        exact if_pos hbelongs
      rw [hown]
      by_cases hsame : Same x z
      · rw [current_append_same hsame]
        constructor
        · rintro ⟨y,hy,hn⟩
          refine ⟨fun _ => hsame,?_⟩
          rcases mem_cons.mp hy with rfl | hy
          · by_cases hhanded : WasHanded longTimeout f past y
            · exact Or.inl ⟨hhanded,hn,hbelongs⟩
            · -- not handed over, so one with its number has been before
              refine Or.inr ?_
              rw [← hn,← current_congr hsame,← own_eq_of_belongs hbelongs]
              by_contra hnone
              have hfresh := hparses.fresh hnone
              exact hhanded (by rw [WasHanded,hfresh]; exact some_ne_none _)
          · exact Or.inr ⟨y,hy,hn⟩
        · rintro ⟨-,⟨-,hn,-⟩ | ⟨y,hy,hn⟩⟩
          · exact ⟨z,mem_cons_self,hn⟩
          · exact ⟨y,mem_cons_of_mem z hy,hn⟩
      · rw [current_append_other hsame]
        constructor
        · rintro ⟨y,hy,-⟩
          cases hy
        · exact fun h => absurd (h.1 hbelongs) hsame
    · have hown : own f.segmented x (past ++ [z]) = own f.segmented x past := by
        rw [own_append]
        exact if_neg hbelongs
      rw [hown]
      constructor
      · exact fun h => ⟨fun hz => absurd hz hbelongs,Or.inr h⟩
      · rintro ⟨-,⟨-,-,hz⟩ | h⟩
        · exact absurd hz hbelongs
        · exact h

theorem SectionChain.Follows.mem_bufs_iff {c : SectionChain} (h : c.Follows f past) (hset : c.SetUp f)
    (hid : x.tableId = f.tableId) (hf : f.segmented = true) (s : SectionState) (hunset : s.tableIdExt ≠ -1)
    (hother : s.tableIdExt ≠ x.tableIdExt) : s ∈ (parseSection x c).1.bufs ↔ s ∈ c.bufs := by
  have hid' : c.head.tableId = x.tableId := hset.tableId.trans hid.symm
  have hnew (t : SectionState) : s ≠ (parseInto x t).1 := by
    rintro rfl
    exact hother parseInto_ext
  cases h with
  | unset hpast hsegs hext hhead =>
    obtain ⟨hhead',hsegs',-⟩ := parseSection_head hid' (Or.inr hext) hsegs
    have hold : s ≠ c.head := by
      rintro rfl
      exact hunset hext
    simp [SectionChain.bufs,hhead',hsegs',hsegs,hnew,hold]
  | flat hflat hsegs hhead =>
    rw [hf] at hflat
    cases hflat
  | segmented hset' hbufs =>
    have hhead : c.head ∈ c.bufs := mem_cons_self
    have hext : c.head.tableIdExt ≠ -1 := hbufs.ext_ne hhead
    rcases parseSection_segmented hid' ((hset.segmented c.head hhead).trans hf) hext with
      ⟨pre,t,post,hsplit,ht,hbufs',-⟩ | ⟨-,t,-,hbufs',-⟩
    · have hold : s ≠ t := by
        rintro rfl
        exact hother ht
      simp [hsplit,hbufs',hnew,hold]
    · simp [hbufs',hnew]

theorem SectionChain.Follows.apart {c : SectionChain} (h : c.Follows f (past ++ [x])) (hf : f.segmented = true) :
    (c.bufs.map (·.tableIdExt)).Nodup ∧ ∃ s ∈ c.bufs, s.tableIdExt = x.tableIdExt := by
  cases h with
  | unset hpast hsegs hext hhead => exact absurd hpast (List.append_ne_nil_of_right_ne_nil _ (cons_ne_nil x []))
  | flat hflat hsegs hhead =>
    rw [hf] at hflat
    cases hflat
  | segmented hset hbufs =>
    exact ⟨hbufs.nodup,hbufs.all x (mem_append_right _ (mem_singleton_self x))⟩

end Histories

/-- A section is handed to its parser just when none with its number has been since the last change of its buffer. The
segments of a table keep apart, and a table without segments is reported complete when all its numbers have been
handed over. -/
theorem parse_section_once (longTimeout : Bool) (f : FilterSetup) (hext : f.tableIdExt = -1) (past : List Section)
    (x : Section) (h : Delivers f (past ++ [x])) :
    let before := deliver (setupSections longTimeout f) past
    let after := (parseSection x before).1
    let o := (parseSection x before).2
    (HandedSince longTimeout f past x x.number → o.handed = none) ∧
    (¬ HandedSince longTimeout f past x x.number → o.handed = some (handOver x)) ∧
    (f.segmented = true → (after.bufs.map (·.tableIdExt)).Nodup ∧ (∃ s ∈ after.bufs, s.tableIdExt = x.tableIdExt) ∧
      ∀ s : SectionState, s.tableIdExt ≠ -1 → s.tableIdExt ≠ x.tableIdExt → (s ∈ after.bufs ↔ s ∈ before.bufs)) ∧
    (f.segmented = false →
      (o.ret = 1 ↔ ∀ n ≤ x.lastNumber, n = x.number ∨ HandedSince longTimeout f past x n)) := by
  intro before after o
  have hparses : Parses f.segmented x (own f.segmented x past) o := deliver_parses longTimeout hext h
  have hcurrent (n : UInt8) := current_iff_handedSince longTimeout hext h.init x n
  obtain ⟨hset, hfollows⟩ := deliver_follows longTimeout hext h.init
  have hmem : x ∈ past ++ [x] := List.mem_append_right _ (List.mem_singleton_self x)
  have hid := h.tableId x hmem
  refine ⟨fun hsince => ?_, fun hnone => ?_, fun hf => ?_, fun hf => ?_⟩
  · exact hparses.again ((hcurrent x.number).mpr hsince)
  · exact hparses.fresh fun hsome => hnone ((hcurrent x.number).mp hsome)
  · obtain ⟨-, hfollows', -⟩ := hfollows.step hset hid (h.length x hmem) h.agrees
    obtain ⟨hnodup, hsome⟩ := hfollows'.apart hf
    exact ⟨hnodup, hsome, hfollows.mem_bufs_iff hset hid hf⟩
  · rw [hparses.complete hf]
    refine forall₂_congr fun n _ => ?_
    rw [hcurrent]

def patSection (number : UInt8) : Section := fun i => [0x00, 0xb0, 0x0d, 0x00, 0x01, 0xc1, number, 0x01].getD i 0

def patFilter : FilterSetup := ⟨0, 0, -1, true, false, 5⟩

theorem parse_section_once_pat :
    (parseSection (patSection 1) (deliver (setupSections false patFilter) [patSection 0])).2.ret = 1 ↔
      ∀ n ≤ (1 : UInt8), n = 1 ∨ HandedSince false patFilter [patSection 0] (patSection 1) n :=
  (parse_section_once false patFilter rfl [patSection 0] (patSection 1) ⟨by decide, by decide, by decide⟩).2.2.2 rfl

end LinuxDvb.Scan.Sections
