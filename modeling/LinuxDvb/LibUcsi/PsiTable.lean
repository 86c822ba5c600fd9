import Mathlib.Data.List.SplitBy
import LinuxDvb.Framework.Trace

/-!
# The sections of a table

`section_ext_useful` accepts the sections of one version of a table in the order of their numbers, and no more of that
version when it has accepted the last one.
-/

namespace LinuxDvb.Ucsi

/-- The fields of a decoded `struct section_ext` that tell the sections of a table apart. -/
structure SectionExt where
  versionNumber : Fin 32
  sectionNumber : UInt8
  lastSectionNumber : UInt8
  deriving DecidableEq

structure PsiTableState where
  versionNumber : UInt8
  nextSectionNumber : UInt16
  complete : Bool
  newTable : Bool
  deriving DecidableEq

/-- `psi_table_state_reset(tstate)` -/
def psiTableStateReset (tstate : PsiTableState) : PsiTableState := { tstate with versionNumber := 0xff }

def PsiTableState.sameVersion (tstate : PsiTableState) (ext : SectionExt) : Bool :=
  ext.versionNumber.val = tstate.versionNumber.toNat

/-- The end of `section_ext_useful`: the section is counted. -/
def PsiTableState.count (tstate : PsiTableState) (ext : SectionExt) : PsiTableState :=
  let nextSectionNumber := tstate.nextSectionNumber + 1
  { tstate with
    nextSectionNumber
    complete := tstate.complete || ext.lastSectionNumber.toNat < nextSectionNumber.toNat }

/-- `section_ext_useful(section, tstate)` -/
def sectionExtUseful (ext : SectionExt) (tstate : PsiTableState) : Bool × PsiTableState :=
  if tstate.sameVersion ext && tstate.complete then (false, tstate)
  else if !tstate.sameVersion ext then
    if ext.sectionNumber ≠ 0 then (false, tstate)
    else
      let fresh : PsiTableState :=
        { versionNumber := UInt8.ofNat ext.versionNumber, nextSectionNumber := 0, complete := false, newTable := true }
      (true, fresh.count ext)
  else if ext.sectionNumber.toNat = tstate.nextSectionNumber.toNat then
    (true, { tstate with newTable := false }.count ext)
  else (false, tstate)

structure Accepted where
  ext : SectionExt
  after : PsiTableState
  deriving DecidableEq

def usefulStep (tstate : PsiTableState) (ext : SectionExt) : PsiTableState × List Accepted :=
  let r := sectionExtUseful ext tstate
  (r.2, if r.1 then [⟨ext, r.2⟩] else [])

def track (tstate : PsiTableState) (sections : List SectionExt) : PsiTableState × List Accepted :=
  runTrace usefulStep tstate sections

namespace Accepted

variable (a b : Accepted)

def number : Nat := a.ext.sectionNumber.toNat

def last : Nat := a.ext.lastSectionNumber.toNat

def sameVersion : Bool := a.ext.versionNumber = b.ext.versionNumber

structure Starts : Prop where
  number_eq : a.number = 0
  newTable : a.after.newTable = true
  complete : a.after.complete = decide (a.last ≤ a.number)

/-- What the section accepted behind `a` is if the version stays the same. -/
structure Continues : Prop where
  open_before : a.after.complete = false
  number_eq : b.number = a.number + 1
  newTable : b.after.newTable = false
  complete : b.after.complete = decide (b.last ≤ b.number)

/-- The section accepted behind `a`. -/
def Follows : Prop := (a.sameVersion b = true → a.Continues b) ∧ (a.sameVersion b = false → b.Starts)

end Accepted

/-- The accepted sections of one version: their numbers count from 0, the first one and no other starts a new
table, and the table is complete from the section on that carries the last number, which ends the run. -/
structure InOrder (run : List Accepted) : Prop where
  numbers : run.map Accepted.number = List.range run.length
  newTable : ∀ pre a post, run = pre ++ a :: post → (a.after.newTable = true ↔ pre = [])
  complete : ∀ pre a post, run = pre ++ a :: post →
    (a.after.complete = true ↔ ∃ b ∈ pre ++ [a], b.number = b.last)
  ended : ∀ pre a post, run = pre ++ a :: post → a.after.complete = true → post = []

section Step

variable {tstate : PsiTableState} {ext : SectionExt}

structure Tracks (tstate : PsiTableState) (a : Accepted) : Prop where
  state_eq : tstate = a.after
  version : tstate.versionNumber = UInt8.ofNat a.ext.versionNumber
  next : tstate.nextSectionNumber.toNat = a.number + 1

def TracksLast (tstate : PsiTableState) : Option Accepted → Prop
  | none => tstate.versionNumber = 0xff
  | some a => Tracks tstate a

def Accepted.Fits : Option Accepted → Accepted → Prop
  | none, b => b.Starts
  | some a, b => a.Follows b

theorem sameVersion_reset (h : tstate.versionNumber = 0xff) (ext : SectionExt) : tstate.sameVersion ext = false := by
  have hlt := ext.versionNumber.isLt
  rw [PsiTableState.sameVersion,h,decide_eq_false_iff_not]
  exact fun heq => absurd (heq ▸ hlt) (by decide)

theorem sameVersion_tracks {a : Accepted} (h : Tracks tstate a) (ext : SectionExt) (after : PsiTableState) :
    tstate.sameVersion ext = a.sameVersion ⟨ext, after⟩ := by
  have hlt := a.ext.versionNumber.isLt
  rw [PsiTableState.sameVersion,h.version,UInt8.toNat_ofNat',Nat.mod_eq_of_lt (by omega),Accepted.sameVersion]
  simp only [decide_eq_decide,Fin.ext_iff]
  exact eq_comm

def PsiTableState.started (ext : SectionExt) : PsiTableState :=
  PsiTableState.count
    { versionNumber := UInt8.ofNat ext.versionNumber, nextSectionNumber := 0, complete := false, newTable := true } ext

def PsiTableState.continued (tstate : PsiTableState) (ext : SectionExt) : PsiTableState :=
  { tstate with newTable := false }.count ext

/-- What `section_ext_useful` does with a section. -/
inductive Useful (ext : SectionExt) (tstate : PsiTableState) : Bool × PsiTableState → Prop
  | refused : Useful ext tstate (false, tstate)
  | starts (hversion : tstate.sameVersion ext = false) (hnumber : ext.sectionNumber = 0) :
      Useful ext tstate (true, PsiTableState.started ext)
  | continues (hversion : tstate.sameVersion ext = true) (hopen : tstate.complete = false)
      (hnumber : ext.sectionNumber.toNat = tstate.nextSectionNumber.toNat) :
      Useful ext tstate (true, tstate.continued ext)

theorem useful (ext : SectionExt) (tstate : PsiTableState) : Useful ext tstate (sectionExtUseful ext tstate) := by
  rw [sectionExtUseful]
  cases hversion : tstate.sameVersion ext with
  | false =>
    simp only [Bool.false_and,Bool.false_eq_true,if_false,Bool.not_false,if_true]
    split
    · exact .refused
    · next hnumber => exact .starts hversion (not_not.mp hnumber)
  | true =>
    by_cases hcomplete : tstate.complete = true
    · rw [if_pos (by rw [hcomplete]; rfl)]
      exact .refused
    · rw [Bool.true_and,if_neg hcomplete,Bool.not_true,if_neg Bool.false_ne_true]
      split
      · next hnumber => exact .continues hversion (Bool.eq_false_iff.mpr hcomplete) hnumber
      · exact .refused

theorem count_tracks {t : PsiTableState} (hversion : t.versionNumber = UInt8.ofNat ext.versionNumber)
    (hnext : t.nextSectionNumber.toNat = ext.sectionNumber.toNat) :
    Tracks (t.count ext) ⟨ext, t.count ext⟩ := by
  refine ⟨rfl,hversion,?_⟩
  have hlt := ext.sectionNumber.toNat_lt
  change (t.nextSectionNumber + 1).toNat = ext.sectionNumber.toNat + 1
  rw [UInt16.toNat_add,hnext]
  change (ext.sectionNumber.toNat + 1) % 2 ^ 16 = _
  omega

theorem count_complete {t : PsiTableState} {a : Accepted} (h : Tracks (t.count a.ext) a) (hopen : t.complete = false) :
    a.after.complete = decide (a.last ≤ a.number) := by
  have hnext : (t.nextSectionNumber + 1).toNat = a.number + 1 := h.next
  rw [← h.state_eq,PsiTableState.count]
  simp only [hopen,Bool.false_or,hnext,Nat.lt_succ_iff]
  rfl

theorem starts_started (hnumber : ext.sectionNumber = 0) :
    Accepted.Starts ⟨ext, .started ext⟩ ∧ Tracks (.started ext) ⟨ext, .started ext⟩ := by
  have htracks : Tracks (.started ext) ⟨ext,.started ext⟩ := count_tracks rfl (by rw [hnumber]; rfl)
  refine ⟨⟨?_,rfl,count_complete htracks rfl⟩,htracks⟩
  rw [Accepted.number,hnumber]
  rfl

theorem continues_continued {a : Accepted} (h : Tracks tstate a) (hversion : tstate.sameVersion ext = true)
    (hopen : tstate.complete = false) (hnumber : ext.sectionNumber.toNat = tstate.nextSectionNumber.toNat) :
    a.Continues ⟨ext, tstate.continued ext⟩ ∧ Tracks (tstate.continued ext) ⟨ext, tstate.continued ext⟩ := by
  have hsame : tstate.versionNumber = UInt8.ofNat ext.versionNumber := by
    rw [of_decide_eq_true hversion,UInt8.ofNat_toNat]
  have htracks : Tracks (tstate.continued ext) ⟨ext,tstate.continued ext⟩ := count_tracks hsame hnumber.symm
  refine ⟨⟨h.state_eq ▸ hopen,hnumber.trans h.next,rfl,count_complete htracks hopen⟩,htracks⟩

theorem usefulStep_fits {prev : Option Accepted} (h : TracksLast tstate prev) (ext : SectionExt) :
    Accepts (fun _ b => some b) Accepted.Fits prev (usefulStep tstate ext).2 ∧
      TracksLast (usefulStep tstate ext).1 ((usefulStep tstate ext).2.foldl (fun _ b => some b) prev) := by
  have huseful := useful ext tstate
  rw [usefulStep]
  generalize sectionExtUseful ext tstate = r at huseful ⊢
  cases huseful with
  | refused => exact ⟨trivial,h⟩
  | starts hversion hnumber =>
    obtain ⟨hstarts,htracks⟩ := starts_started hnumber
    refine ⟨⟨?_,trivial⟩,htracks⟩
    cases prev with
    | none => exact hstarts
    | some a =>
      refine ⟨fun hsame => ?_,fun _ => hstarts⟩
      rw [← sameVersion_tracks h,hversion] at hsame
      cases hsame
  | continues hversion hopen hnumber =>
    cases prev with
    | none =>
      rw [sameVersion_reset h] at hversion
      cases hversion
    | some a =>
      obtain ⟨hcontinues,htracks⟩ := continues_continued h hversion hopen hnumber
      refine ⟨⟨⟨fun _ => hcontinues,fun hsame => ?_⟩,trivial⟩,htracks⟩
      rw [← sameVersion_tracks h,hversion] at hsame
      cases hsame

end Step

/-! ### Runs of one version -/

theorem isChain_of_accepts {a : Accepted} {accepted : List Accepted}
    (h : Accepts (fun _ b => some b) Accepted.Fits (some a) accepted) :
    (a :: accepted).IsChain Accepted.Follows := by
  induction accepted generalizing a with
  | nil => exact List.isChain_singleton a
  | cons b rest ih => exact List.isChain_cons_cons.mpr ⟨h.1,ih h.2⟩

theorem head_of_mem_splitBy {α : Type} {same : α → α → Bool} {R : α → α → Prop} {P : α → Prop} {l : List α}
    (hfirst : ∀ a ∈ l.head?, P a) (hchain : l.IsChain R) (hnew : ∀ a b, R a b → same a b = false → P b)
    {run : List α} (hrun : run ∈ l.splitBy same) : ∀ a ∈ run.head?, P a := by
  intro a ha
  obtain ⟨before,after,hruns⟩ := append_of_mem hrun
  have hbetween := List.isChain_getLast_head_splitBy same l
  have hflatten := List.flatten_splitBy same l
  rw [hruns] at hbetween hflatten
  rw [List.flatten_append,flatten_cons] at hflatten
  cases before using List.reverseRecOn with
  | nil =>
    refine hfirst a ?_
    rw [← hflatten,flatten_nil,nil_append,List.head?_append,mem_def.mp ha]
    rfl
  | append_singleton before m =>
    rw [append_assoc,singleton_append,List.isChain_append_cons_cons] at hbetween
    obtain ⟨-,⟨hm,hne,hsame⟩,-⟩ := hbetween
    rw [← hflatten,List.flatten_append,List.flatten_singleton,append_assoc,← append_assoc m] at hchain
    have hrel := (hchain.right_of_append.left_of_append).rel_getLast_head_of_append hm hne
    rw [List.head_of_mem_head? ha] at hrel hsame
    exact hnew _ _ hrel hsame

section Run

variable {run : List Accepted} (hstarts : ∀ a ∈ run.head?, a.Starts) (hcontinues : run.IsChain Accepted.Continues)

theorem numbers_range' {a : Accepted} {rest : List Accepted} (h : (a :: rest).IsChain Accepted.Continues) :
    (a :: rest).map Accepted.number = List.range' a.number (rest.length + 1) := by
  induction rest generalizing a with
  | nil => rfl
  | cons b rest ih =>
    obtain ⟨hab,hrest⟩ := List.isChain_cons_cons.mp h
    rw [map_cons,ih hrest,hab.number_eq]
    rfl

include hcontinues in
theorem open_of_followed {pre post : List Accepted} {a : Accepted} (hrun : run = pre ++ a :: post)
    (hpost : post ≠ []) : a.after.complete = false := by
  obtain ⟨b, rest, rfl⟩ := List.exists_cons_of_ne_nil hpost
  rw [hrun,List.isChain_append_cons_cons] at hcontinues
  exact hcontinues.2.1.open_before

include hstarts hcontinues

theorem starts_or_continues {pre post : List Accepted} {a : Accepted} (hrun : run = pre ++ a :: post) :
    (pre = [] ∧ a.Starts) ∨ ∃ b front, pre = front ++ [b] ∧ b.Continues a := by
  cases pre using List.reverseRecOn with
  | nil =>
    refine Or.inl ⟨rfl,hstarts a ?_⟩
    rw [hrun]
    rfl
  | append_singleton front b =>
    refine Or.inr ⟨b,front,rfl,?_⟩
    rw [hrun,append_assoc,singleton_append,List.isChain_append_cons_cons] at hcontinues
    exact hcontinues.2.1

theorem complete_eq {pre post : List Accepted} {a : Accepted} (hrun : run = pre ++ a :: post) :
    a.after.complete = decide (a.last ≤ a.number) := by
  obtain ⟨-,h⟩ | ⟨_,_,-,h⟩ := starts_or_continues hstarts hcontinues hrun
  · exact h.complete
  · exact h.complete

theorem number_le_last (hlast : ∀ a ∈ run, ∀ b ∈ run, a.last = b.last) {pre post : List Accepted} {a : Accepted}
    (hrun : run = pre ++ a :: post) : a.number ≤ a.last := by
  obtain ⟨-,h⟩ | ⟨b,front,rfl,h⟩ := starts_or_continues hstarts hcontinues hrun
  · exact h.number_eq.symm ▸ Nat.zero_le _
  · have hrun' : run = front ++ b :: a :: post := by rw [hrun,append_assoc]; rfl
    have hopen := complete_eq hstarts hcontinues hrun'
    rw [h.open_before,eq_comm,decide_eq_false_iff_not,Nat.not_le] at hopen
    have hsame : b.last = a.last := hlast b (by simp [hrun']) a (by simp [hrun'])
    rw [h.number_eq,← hsame]
    exact hopen

theorem inOrder_of_chain (hlast : ∀ a ∈ run, ∀ b ∈ run, a.last = b.last) : InOrder run := by
  refine ⟨?_,?_,?_,?_⟩
  · cases run with
    | nil => rfl
    | cons a rest =>
      rw [numbers_range' hcontinues,(hstarts a rfl).number_eq,length_cons,List.range_eq_range']
  · intro pre a post hrun
    obtain ⟨rfl,h⟩ | ⟨b,front,rfl,h⟩ := starts_or_continues hstarts hcontinues hrun
    · exact iff_of_true h.newTable rfl
    · exact iff_of_false (by simp [h.newTable]) (by simp)
  · intro pre a post hrun
    rw [complete_eq hstarts hcontinues hrun,decide_eq_true_eq]
    constructor
    · intro hle
      exact ⟨a,by simp,Nat.le_antisymm (number_le_last hstarts hcontinues hlast hrun) hle⟩
    · rintro ⟨b,hb,hnumber⟩
      obtain hb | hb := mem_append.mp hb
      · -- a section before `a` that carried the last number would have ended the run
        obtain ⟨front,back,rfl⟩ := append_of_mem hb
        have hrun' : run = front ++ b :: (back ++ a :: post) := by rw [hrun,append_assoc]; rfl
        have hopen := open_of_followed hcontinues hrun' (by simp)
        rw [complete_eq hstarts hcontinues hrun',decide_eq_false_iff_not] at hopen
        exact absurd hnumber.ge hopen
      · rw [← mem_singleton.mp hb]
        exact hnumber.ge
  · intro pre a post hrun hcomplete
    by_contra hpost
    rw [open_of_followed hcontinues hrun hpost] at hcomplete
    cases hcomplete

end Run

def SameLast (sections : List SectionExt) : Prop :=
  ∀ s ∈ sections, ∀ t ∈ sections, s.versionNumber = t.versionNumber → s.lastSectionNumber = t.lastSectionNumber

instance (sections : List SectionExt) : Decidable (SameLast sections) :=
  inferInstanceAs (Decidable (∀ s ∈ sections, ∀ t ∈ sections, _ → _))

/-- The sections of a table are tracked from a state on: the accepted ones are in order from version to version, the
state is the one that the last of them left, and a table that is complete accepts nothing more of its version until
a first section of another one comes. -/
structure Tracked (tstate : PsiTableState) (sections : List SectionExt) : Prop where
  inOrder : ∀ run ∈ (track tstate sections).2.splitBy Accepted.sameVersion, InOrder run
  state : (track tstate sections).1 = ((track tstate sections).2.getLast?.map Accepted.after).getD tstate
  closed : ∀ pre later, pre ++ later <+: sections → ∀ a ∈ (track tstate pre).2.getLast?, a.after.complete = true →
    (∀ s ∈ later, s.versionNumber = a.ext.versionNumber ∨ s.sectionNumber ≠ 0) →
    track (track tstate pre).1 later = ((track tstate pre).1, [])

theorem mem_usefulStep {tstate : PsiTableState} {ext : SectionExt} {a : Accepted}
    (h : a ∈ (usefulStep tstate ext).2) : a.ext = ext := by
  rw [usefulStep] at h
  split at h
  · rw [mem_singleton.mp h]
  · cases h

theorem mem_track {tstate : PsiTableState} {sections : List SectionExt} {a : Accepted}
    (h : a ∈ (track tstate sections).2) : a.ext ∈ sections := by
  rw [track] at h
  induction sections generalizing tstate with
  | nil => cases h
  | cons ext rest ih =>
    rw [runTrace_cons,mem_append] at h
    obtain h | h := h
    · exact mem_usefulStep h ▸ mem_cons_self
    · exact mem_cons_of_mem ext (ih h)

theorem foldl_last (prev : Option Accepted) (accepted : List Accepted) :
    accepted.foldl (fun _ b => some b) prev = accepted.getLast?.or prev := by
  induction accepted using List.reverseRecOn with
  | nil => rfl
  | append_singleton front a => rw [foldl_append,List.getLast?_concat]; rfl

theorem track_fits {tstate : PsiTableState} {prev : Option Accepted} (h : TracksLast tstate prev)
    (sections : List SectionExt) :
    Accepts (fun _ b => some b) Accepted.Fits prev (track tstate sections).2 ∧
      TracksLast (track tstate sections).1 ((track tstate sections).2.getLast?.or prev) := by
  have htrue : StepsMeet usefulStep (fun _ _ => True) tstate sections :=
    StepsMeet.of_forall (fun _ _ => trivial) tstate sections
  rw [← foldl_last]
  exact runTrace_accepted TracksLast (fun _ _ ext h _ => usefulStep_fits h ext) h htrue

theorem usefulStep_closed {tstate : PsiTableState} {a : Accepted} (h : Tracks tstate a)
    (hcomplete : tstate.complete = true) {ext : SectionExt}
    (hext : ext.versionNumber = a.ext.versionNumber ∨ ext.sectionNumber ≠ 0) : usefulStep tstate ext = (tstate, []) := by
  have huseful := useful ext tstate
  rw [usefulStep]
  generalize sectionExtUseful ext tstate = r at huseful ⊢
  cases huseful with
  | refused => rfl
  | starts hversion hnumber =>
    obtain hsame | hnonzero := hext
    · rw [sameVersion_tracks h ext tstate,Accepted.sameVersion,decide_eq_false_iff_not] at hversion
      exact absurd hsame.symm hversion
    · exact absurd hnumber hnonzero
  | continues _ hopen _ =>
    rw [hcomplete] at hopen
    cases hopen

theorem track_closed {tstate : PsiTableState} {a : Accepted} (h : Tracks tstate a) (hcomplete : tstate.complete = true)
    {later : List SectionExt} (hlater : ∀ s ∈ later, s.versionNumber = a.ext.versionNumber ∨ s.sectionNumber ≠ 0) :
    track tstate later = (tstate, []) := by
  rw [track]
  induction later with
  | nil => rfl
  | cons ext rest ih =>
    obtain ⟨hext,hrest⟩ := forall_mem_cons.mp hlater
    rw [runTrace_cons,usefulStep_closed h hcomplete hext,ih hrest]
    rfl

theorem SameLast.run {sections : List SectionExt} (h : SameLast sections) {run : List Accepted}
    (hmem : ∀ a ∈ run, a.ext ∈ sections) (hsame : run.IsChain fun a b => a.sameVersion b = true) :
    ∀ a ∈ run, ∀ b ∈ run, a.last = b.last := by
  have hversion : ∀ a ∈ run, ∀ b ∈ run, a.ext.versionNumber = b.ext.versionNumber := by
    cases run with
    | nil => exact fun a ha => absurd ha not_mem_nil
    | cons first rest =>
      have hfirst : ∀ a ∈ first :: rest, a.ext.versionNumber = first.ext.versionNumber :=
        hsame.induction (fun a => a.ext.versionNumber = first.ext.versionNumber) _
          (fun a b hab ha => (of_decide_eq_true hab).symm.trans ha) (fun _ => rfl)
      exact fun a ha b hb => (hfirst a ha).trans (hfirst b hb).symm
  intro a ha b hb
  exact congrArg UInt8.toNat (h a.ext (hmem a ha) b.ext (hmem b hb) (hversion a ha b hb))

theorem isChain_continues {run : List Accepted} (hfollows : run.IsChain Accepted.Follows)
    (hsame : run.IsChain fun a b => a.sameVersion b = true) : run.IsChain Accepted.Continues := by
  rw [List.isChain_iff_forall_rel_of_append_cons_cons] at hfollows hsame ⊢
  intro a b front back hrun
  exact (hfollows hrun).1 (hsame hrun)

theorem track_state (tstate : PsiTableState) (sections : List SectionExt) :
    (track tstate sections).1 = ((track tstate sections).2.getLast?.map Accepted.after).getD tstate := by
  induction sections generalizing tstate with
  | nil => rfl
  | cons ext rest ih =>
    have huseful := useful ext tstate
    rw [track,runTrace_cons,usefulStep]
    generalize sectionExtUseful ext tstate = r at huseful ⊢
    cases huseful with
    | refused => exact ih tstate
    | starts | continues =>
      simp only [if_true,singleton_append,List.getLast?_cons,map_some,getD_some]
      refine (ih _).trans ?_
      rw [track]
      cases (runTrace usefulStep _ rest).2.getLast? <;> rfl

theorem fits_chain {accepted : List Accepted} (h : Accepts (fun _ b => some b) Accepted.Fits none accepted) :
    (∀ a ∈ accepted.head?, a.Starts) ∧ accepted.IsChain Accepted.Follows := by
  cases accepted with
  | nil => exact ⟨fun a ha => (by cases ha),List.isChain_nil⟩
  | cons b rest =>
    refine ⟨?_,isChain_of_accepts h.2⟩
    intro a ha
    cases ha
    exact h.1

end LinuxDvb.Ucsi
