import LinuxDvb.DvbCore.Frontend.Events
import LinuxDvb.Framework.Ring

/-!
# The order of frontend events

The ring of events is a queue that drops its oldest entry, from the step that moves a position on: an event is added
when the write position moves behind it, even if its status comes later, and dropped when the overflow flag is set.
-/

namespace LinuxDvb.Frontend

variable {P : Type}

section Positions

def pending (eventw eventr : Nat) : Nat := (eventw + maxEvent - eventr) % maxEvent

variable {eventw eventr : Nat}

theorem pending_lt : pending eventw eventr < maxEvent := Nat.mod_lt _ (by decide)

theorem add_pending (hr : eventr < maxEvent) (hw : eventw < maxEvent) :
    (eventr + pending eventw eventr) % maxEvent = eventw := by
  unfold pending maxEvent at *
  omega

theorem pending_eq_zero (hr : eventr < maxEvent) (hw : eventw < maxEvent) :
    pending eventw eventr = 0 ↔ eventw = eventr := by
  unfold pending maxEvent at *
  omega

theorem pending_full (hw : eventw < maxEvent) (h : (eventw + 1) % maxEvent = eventr) :
    pending eventw eventr = maxEvent - 1 := by
  unfold pending maxEvent at *
  omega

theorem pending_write (hr : eventr < maxEvent) (hw : eventw < maxEvent) (h : (eventw + 1) % maxEvent ≠ eventr) :
    pending ((eventw + 1) % maxEvent) eventr = pending eventw eventr + 1 := by
  unfold pending maxEvent at *
  omega

theorem pending_read (hr : eventr < maxEvent) (hw : eventw < maxEvent) (h : eventw ≠ eventr) :
    pending eventw ((eventr + 1) % maxEvent) = pending eventw eventr - 1 := by
  unfold pending maxEvent at *
  omega

theorem tail_pending (m : Mem (FrontendEvent P)) (hr : eventr < maxEvent) (hw : eventw < maxEvent)
    (h : eventw ≠ eventr) :
    (m.window maxEvent eventr (pending eventw eventr)).tail =
      m.window maxEvent ((eventr + 1) % maxEvent) (pending eventw ((eventr + 1) % maxEvent)) := by
  have hpos : pending eventw eventr ≠ 0 := fun hzero => h ((pending_eq_zero hr hw).mp hzero)
  rw [← List.drop_one,Mem.drop_window _ _ _ (Nat.one_le_iff_ne_zero.mpr hpos),pending_read hr hw h]

theorem window_unpublished (m : Mem (FrontendEvent P)) (hr : eventr < maxEvent) (hw : eventw < maxEvent)
    (ev : FrontendEvent P) :
    Mem.window (Function.update m eventw ev) maxEvent eventr (pending eventw eventr) =
      m.window maxEvent eventr (pending eventw eventr) := by
  have h := Mem.window_update_behind (m := m) eventr (pending eventw eventr) ev pending_lt
  rwa [add_pending hr hw] at h

theorem window_published (m : Mem (FrontendEvent P)) (hr : eventr < maxEvent) (hw : eventw < maxEvent)
    (h : (eventw + 1) % maxEvent ≠ eventr) (ev : FrontendEvent P) :
    Mem.window (Function.update m eventw ev) maxEvent eventr (pending ((eventw + 1) % maxEvent) eventr) =
      m.window maxEvent eventr (pending eventw eventr) ++ [ev] := by
  have happend := Mem.window_update_append (m := m) eventr (pending eventw eventr) ev pending_lt
  rwa [add_pending hr hw,← pending_write hr hw h] at happend

end Positions

namespace FeEvents

def settled (s : FeEvents P) : Mem (FrontendEvent P) :=
  match s.adder with
  | .releasing ev e => Function.update s.events e ev
  | .reporting ev e => Function.update s.events e ev
  | _ => s.events

def oldest (s : FeEvents P) : Nat :=
  match s.adder with
  | .dropping _ _ => (s.eventr + 1) % maxEvent
  | _ => s.eventr

def contents (s : FeEvents P) : List (FrontendEvent P) :=
  if s.emptying then [] else s.settled.window maxEvent s.oldest (pending s.eventw s.oldest)

def abs (s : FeEvents P) : DropQueue (FrontendEvent P) := { entries := s.contents, untold := s.overflow }

def AdderFine (s : FeEvents P) : Prop :=
  match s.adder with
  | .idle => True
  | .entering _ => True
  | .locked _ => True
  | .comparing _ wp => wp = (s.eventw + 1) % maxEvent ∧ s.emptying = false
  | .overflowing _ wp => wp = (s.eventw + 1) % maxEvent ∧ s.emptying = false ∧ wp = s.eventr
  | .dropping _ wp => wp = (s.eventw + 1) % maxEvent ∧ s.emptying = false ∧ wp = s.eventr
  | .choosing _ wp => wp = (s.eventw + 1) % maxEvent ∧ s.emptying = false ∧ wp ≠ s.eventr
  | .copying _ wp e =>
    wp = (s.eventw + 1) % maxEvent ∧ s.emptying = false ∧ wp ≠ s.eventr ∧ e = s.eventw
  | .tuning ev wp e =>
    wp = (s.eventw + 1) % maxEvent ∧ s.emptying = false ∧ wp ≠ s.eventr ∧ e = s.eventw ∧
      (s.events e).parameters = ev.parameters
  | .publishing ev wp e =>
    wp = (s.eventw + 1) % maxEvent ∧ s.emptying = false ∧ wp ≠ s.eventr ∧ e = s.eventw ∧
      (s.events e).parameters = ev.parameters
  | .releasing ev e => (s.events e).parameters = ev.parameters
  | .reporting ev e => (s.events e).parameters = ev.parameters

def ReaderFine (s : FeEvents P) : Prop :=
  match s.reader with
  | .clearing => s.overflow = true
  | .entering => s.contents ≠ []
  | .copying => s.contents ≠ []
  | .advancing ev => s.contents.head? = some ev
  | _ => True

structure WellFormed (s : FeEvents P) : Prop where
  eventw_lt : s.eventw < maxEvent
  eventr_lt : s.eventr < maxEvent
  adder : s.AdderFine
  reader : s.ReaderFine
  semFree : s.semFree = !(s.adder.holds || s.reader.holds)
  alone : s.adder.holds = true → s.reader.holds = false
  emptying : s.emptying = true → s.eventw = 0

end FeEvents

open FeEvents

theorem wellFormed_initial (events : Mem (FrontendEvent P)) : (initial events).WellFormed := by
  constructor <;> simp [initial,AdderFine,ReaderFine,AddEvent.holds,GetEvent.holds,maxEvent]

structure StepFollows (s : FeEvents P) (r : FeEvents P × List (DropSignal (FrontendEvent P))) : Prop where
  accepted : Accepts DropQueue.next (DropQueue.Good (maxEvent - 1)) s.abs r.2
  abs : r.2.foldl DropQueue.next s.abs = r.1.abs
  wellFormed : r.1.WellFormed

section Frame

variable {s s' : FeEvents P}

theorem abs_congr (hcontents : s'.contents = s.contents) (hoverflow : s'.overflow = s.overflow) : s'.abs = s.abs := by
  rw [FeEvents.abs,FeEvents.abs,hcontents,hoverflow]

theorem ReaderFine.congr (h : s.ReaderFine) (hreader : s'.reader = s.reader)
    (hcontents : s'.contents = s.contents) (hoverflow : s'.overflow = s.overflow) : s'.ReaderFine := by
  unfold ReaderFine at h ⊢
  rwa [hreader,hcontents,hoverflow]

theorem ReaderFine.of_waiting (h : s.ReaderFine) (hreader : s'.reader = s.reader) (hholds : s.reader.holds = false)
    (hcontents : s'.contents ≠ []) (hoverflow : s.overflow = true → s'.overflow = true) : s'.ReaderFine := by
  unfold ReaderFine at h ⊢
  rw [hreader]
  cases hr : s.reader with
  | idle => trivial
  | clearing =>
    rw [hr] at h
    exact hoverflow h
  | comparing => trivial
  | entering => exact hcontents
  | copying => simp [hr,GetEvent.holds] at hholds
  | advancing ev => simp [hr,GetEvent.holds] at hholds
  | releasing => trivial

theorem StepFollows.silent (hwf : s'.WellFormed) (hcontents : s'.contents = s.contents)
    (hoverflow : s'.overflow = s.overflow) : StepFollows s (s', []) :=
  { accepted := trivial
    abs := (abs_congr hcontents hoverflow).symm
    wellFormed := hwf }

theorem StepFollows.refl (h : s.WellFormed) : StepFollows s (s, []) := StepFollows.silent h rfl rfl

theorem StepFollows.adder {a : AddEvent P} (h : s.WellFormed) (hholds : a.holds = s.adder.holds)
    (hfine : { s with adder := a }.AdderFine) (hcontents : { s with adder := a }.contents = s.contents) :
    StepFollows s ({ s with adder := a }, []) := by
  refine StepFollows.silent ?_ hcontents rfl
  exact
    { eventw_lt := h.eventw_lt
      eventr_lt := h.eventr_lt
      adder := hfine
      reader := ReaderFine.congr h.reader rfl hcontents rfl
      semFree := by simpa [hholds] using h.semFree
      alone := by simpa [hholds] using h.alone
      emptying := h.emptying }

theorem StepFollows.reader {a : GetEvent P} (h : s.WellFormed) (hholds : a.holds = s.reader.holds)
    (hfine : { s with reader := a }.ReaderFine) : StepFollows s ({ s with reader := a }, []) := by
  refine StepFollows.silent ?_ rfl rfl
  exact
    { eventw_lt := h.eventw_lt
      eventr_lt := h.eventr_lt
      adder := h.adder
      reader := hfine
      semFree := by simpa [hholds] using h.semFree
      alone := by simpa [hholds] using h.alone
      emptying := h.emptying }

end Frame

section Adding

variable {s : FeEvents P} {io : AddInput P}

variable {status : UInt32}

theorem addEntering_follows (h : s.WellFormed) (hadder : s.adder = .entering status)
    (hfree : s.semFree = true) : StepFollows s ({ s with semFree := false, adder := .locked status }, []) := by
  have hreader : s.reader.holds = false := by
    have hsem := h.semFree
    rw [hfree,hadder] at hsem
    simpa [AddEvent.holds] using hsem.symm
  have hcontents : { s with semFree := false, adder := .locked status : FeEvents P }.contents = s.contents := by
    simp only [contents,settled,oldest,hadder]
  refine StepFollows.silent ?_ hcontents rfl
  exact
    { eventw_lt := h.eventw_lt
      eventr_lt := h.eventr_lt
      adder := trivial
      reader := ReaderFine.congr h.reader rfl hcontents rfl
      semFree := by simp [AddEvent.holds]
      alone := fun _ => hreader
      emptying := h.emptying }

variable {wp : Nat}

theorem addOverflowing_follows (h : s.WellFormed) (hadder : s.adder = .overflowing status wp) :
    StepFollows s ({ s with overflow := true, adder := .dropping status wp }, [.dropped]) := by
  have hfine := h.adder
  simp only [AdderFine,hadder] at hfine
  obtain ⟨hwp,hemptying,hfull⟩ := hfine
  have hnext : (s.eventw + 1) % maxEvent = s.eventr := by rw [← hwp,hfull]
  have hne : s.eventw ≠ s.eventr := by
    have hlt := h.eventw_lt
    unfold maxEvent at hnext hlt
    omega
  have hholds : s.reader.holds = false := h.alone (by simp [hadder,AddEvent.holds])
  have hold : s.contents = s.events.window maxEvent s.eventr (pending s.eventw s.eventr) := by
    simp [contents,hemptying,settled,oldest,hadder]
  have hnew : { s with overflow := true, adder := .dropping status wp : FeEvents P }.contents =
      s.contents.tail := by
    rw [hold,tail_pending s.events h.eventr_lt h.eventw_lt hne]
    simp [contents,hemptying,settled,oldest]
  have hlength : s.contents.length = maxEvent - 1 := by
    rw [hold,Mem.length_window,pending_full h.eventw_lt hnext]
  refine ⟨⟨hlength,trivial⟩,?_,?_⟩
  · simp only [foldl_cons,foldl_nil,DropQueue.next,FeEvents.abs,hnew]
  · refine
      { eventw_lt := h.eventw_lt
        eventr_lt := h.eventr_lt
        adder := ⟨hwp,hemptying,hfull⟩
        reader := ReaderFine.of_waiting h.reader rfl hholds ?_ (fun _ => rfl)
        semFree := by simpa [hadder,AddEvent.holds] using h.semFree
        alone := fun _ => hholds
        emptying := h.emptying }
    intro hnil
    have htail : s.contents.tail.length = 0 := by rw [← hnew,hnil,length_nil]
    rw [List.length_tail,hlength] at htail
    exact absurd htail (by decide)

theorem addDropping_follows (h : s.WellFormed) (hadder : s.adder = .dropping status wp) :
    StepFollows s ({ s with eventr := (s.eventr + 1) % maxEvent, adder := .choosing status wp }, []) := by
  have hfine := h.adder
  simp only [AdderFine,hadder] at hfine
  obtain ⟨hwp,hemptying,hfull⟩ := hfine
  have hne : wp ≠ (s.eventr + 1) % maxEvent := by
    have hlt := h.eventr_lt
    unfold maxEvent at hlt ⊢
    omega
  have hcontents :
      { s with eventr := (s.eventr + 1) % maxEvent, adder := .choosing status wp : FeEvents P }.contents =
        s.contents := by
    simp only [contents,settled,oldest,hadder]
  refine StepFollows.silent ?_ hcontents rfl
  exact
    { eventw_lt := h.eventw_lt
      eventr_lt := Nat.mod_lt _ (by decide)
      adder := ⟨hwp,hemptying,hne⟩
      reader := ReaderFine.congr h.reader rfl hcontents rfl
      semFree := by simpa [hadder,AddEvent.holds] using h.semFree
      alone := fun _ => h.alone (by simp [hadder,AddEvent.holds])
      emptying := h.emptying }

variable {ev : FrontendEvent P}

theorem StepFollows.slot {a : AddEvent P} (h : s.WellFormed)
    (hold : s.contents = s.events.window maxEvent s.eventr (pending s.eventw s.eventr))
    (hnew : { s with events := Function.update s.events s.eventw ev, adder := a : FeEvents P }.contents =
      Mem.window (Function.update s.events s.eventw ev) maxEvent s.eventr (pending s.eventw s.eventr))
    (hholds : a.holds = s.adder.holds)
    (hfine : { s with events := Function.update s.events s.eventw ev, adder := a : FeEvents P }.AdderFine) :
    StepFollows s ({ s with events := Function.update s.events s.eventw ev, adder := a }, []) := by
  have hcontents :
      { s with events := Function.update s.events s.eventw ev, adder := a : FeEvents P }.contents =
        s.contents := by
    rw [hnew,hold,window_unpublished s.events h.eventr_lt h.eventw_lt]
  refine StepFollows.silent ?_ hcontents rfl
  exact
    { eventw_lt := h.eventw_lt
      eventr_lt := h.eventr_lt
      adder := hfine
      reader := ReaderFine.congr h.reader rfl hcontents rfl
      semFree := by simpa [hholds] using h.semFree
      alone := by simpa [hholds] using h.alone
      emptying := h.emptying }

variable {e : Nat}

theorem addCopying_follows (h : s.WellFormed)
    (hadder : s.adder = .copying status wp e) : StepFollows s (addEventStep s io) := by
  have hfine := h.adder
  simp only [AdderFine,hadder] at hfine
  obtain ⟨hwp,hemptying,hroom,rfl⟩ := hfine
  simp only [addEventStep,hadder]
  apply StepFollows.slot h
  · simp [contents,hemptying,settled,oldest,hadder]
  · simp [contents,hemptying,settled,oldest]
  · simp [hadder,AddEvent.holds]
  · exact ⟨hwp,hemptying,hroom,rfl,by simp⟩

theorem addTuning_follows (h : s.WellFormed)
    (hadder : s.adder = .tuning ev wp e) : StepFollows s (addEventStep s io) := by
  have hfine := h.adder
  simp only [AdderFine,hadder] at hfine
  obtain ⟨hwp,hemptying,hroom,rfl,hparameters⟩ := hfine
  simp only [addEventStep,hadder]
  apply StepFollows.slot h
  · simp [contents,hemptying,settled,oldest,hadder]
  · simp [contents,hemptying,settled,oldest]
  · simp [hadder,AddEvent.holds]
  · exact ⟨hwp,hemptying,hroom,rfl,by simp [hparameters]⟩

theorem addPublishing_follows (h : s.WellFormed) (hadder : s.adder = .publishing ev wp e) :
    StepFollows s ({ s with eventw := wp, adder := .releasing ev e }, [.added ev]) := by
  have hfine := h.adder
  simp only [AdderFine,hadder] at hfine
  obtain ⟨rfl,hemptying,hroom,rfl,hparameters⟩ := hfine
  have hholds : s.reader.holds = false := h.alone (by simp [hadder,AddEvent.holds])
  have hold : s.contents = s.events.window maxEvent s.eventr (pending s.eventw s.eventr) := by
    simp [contents,hemptying,settled,oldest,hadder]
  have hnew :
      { s with eventw := (s.eventw + 1) % maxEvent, adder := .releasing ev s.eventw : FeEvents P }.contents =
        s.contents ++ [ev] := by
    rw [hold,← window_published s.events h.eventr_lt h.eventw_lt hroom]
    simp [contents,hemptying,settled,oldest]
  have hlength : s.contents.length < maxEvent - 1 := by
    have hlt : pending ((s.eventw + 1) % maxEvent) s.eventr < maxEvent := pending_lt
    rw [pending_write h.eventr_lt h.eventw_lt hroom] at hlt
    rw [hold,Mem.length_window]
    omega
  refine ⟨⟨hlength,trivial⟩,?_,?_⟩
  · simp only [foldl_cons,foldl_nil,DropQueue.next,FeEvents.abs,hnew]
  · exact
      { eventw_lt := Nat.mod_lt _ (by decide)
        eventr_lt := h.eventr_lt
        adder := hparameters
        reader := ReaderFine.of_waiting h.reader rfl hholds (by simp [hnew]) (fun htrue => htrue)
        semFree := by simpa [hadder,AddEvent.holds] using h.semFree
        alone := fun _ => hholds
        emptying := by simp [hemptying] }

theorem addReleasing_follows (h : s.WellFormed) (hadder : s.adder = .releasing ev e) :
    StepFollows s ({ s with semFree := true, adder := .reporting ev e }, []) := by
  have hholds : s.reader.holds = false := h.alone (by simp [hadder,AddEvent.holds])
  have hparameters := h.adder
  simp only [AdderFine,hadder] at hparameters
  have hcontents : { s with semFree := true, adder := .reporting ev e : FeEvents P }.contents = s.contents := by
    simp only [contents,settled,oldest,hadder]
  refine StepFollows.silent ?_ hcontents rfl
  exact
    { eventw_lt := h.eventw_lt
      eventr_lt := h.eventr_lt
      adder := hparameters
      reader := ReaderFine.congr h.reader rfl hcontents rfl
      semFree := by simp [hholds,AddEvent.holds]
      alone := fun _ => hholds
      emptying := h.emptying }

theorem addReporting_follows (h : s.WellFormed)
    (hadder : s.adder = .reporting ev e) : StepFollows s (addEventStep s io) := by
  have hparameters := h.adder
  simp only [AdderFine,hadder] at hparameters
  have hslot : { s.events e with status := ev.status } = ev := by simp only [hparameters]
  simp only [addEventStep,hadder,hslot]
  have hcontents : { s with events := Function.update s.events e ev, adder := .idle : FeEvents P }.contents =
      s.contents := by
    simp only [contents,settled,oldest,hadder]
  refine StepFollows.silent ?_ hcontents rfl
  exact
    { eventw_lt := h.eventw_lt
      eventr_lt := h.eventr_lt
      adder := trivial
      reader := ReaderFine.congr h.reader rfl hcontents rfl
      semFree := by simpa [hadder,AddEvent.holds] using h.semFree
      alone := by simp [AddEvent.holds]
      emptying := h.emptying }

theorem addEventStep_follows (h : s.WellFormed) (hok : Undisturbed s (.add io)) :
    StepFollows s (addEventStep s io) := by
  have hfine := h.adder
  cases hadder : s.adder with
  | idle =>
    simp only [addEventStep,hadder]
    apply StepFollows.adder h
    · simp [hadder,AddEvent.holds]
    · trivial
    · simp only [contents,settled,oldest,hadder]
  | entering status =>
    simp only [addEventStep,hadder]
    split
    · exact addEntering_follows h hadder ‹_›
    · split
      · apply StepFollows.adder h
        · simp [hadder,AddEvent.holds]
        · trivial
        · simp only [contents,settled,oldest,hadder]
      · exact StepFollows.refl h
  | locked status =>
    have hemptying : s.emptying = false := by
      have hstarts : s.emptying = true → s.adder.starts = false := hok
      simpa [hadder,AddEvent.starts] using hstarts
    simp only [addEventStep,hadder]
    apply StepFollows.adder h
    · simp [hadder,AddEvent.holds]
    · exact ⟨rfl,hemptying⟩
    · simp only [contents,settled,oldest,hadder]
  | comparing status wp =>
    simp only [AdderFine,hadder] at hfine
    simp only [addEventStep,hadder]
    split
    · apply StepFollows.adder h
      · simp [hadder,AddEvent.holds]
      · exact ⟨hfine.1,hfine.2,‹_›⟩
      · simp only [contents,settled,oldest,hadder]
    · apply StepFollows.adder h
      · simp [hadder,AddEvent.holds]
      · exact ⟨hfine.1,hfine.2,‹_›⟩
      · simp only [contents,settled,oldest,hadder]
  | overflowing status wp =>
    simp only [addEventStep,hadder]
    exact addOverflowing_follows h hadder
  | dropping status wp =>
    simp only [addEventStep,hadder]
    exact addDropping_follows h hadder
  | choosing status wp =>
    simp only [AdderFine,hadder] at hfine
    simp only [addEventStep,hadder]
    apply StepFollows.adder h
    · simp [hadder,AddEvent.holds]
    · exact ⟨hfine.1,hfine.2.1,hfine.2.2,rfl⟩
    · simp only [contents,settled,oldest,hadder]
  | copying status wp e => exact addCopying_follows h hadder
  | tuning ev wp e => exact addTuning_follows h hadder
  | publishing ev wp e =>
    simp only [addEventStep,hadder]
    exact addPublishing_follows h hadder
  | releasing ev e =>
    simp only [addEventStep,hadder]
    exact addReleasing_follows h hadder
  | reporting ev e => exact addReporting_follows h hadder

end Adding

section Reading

variable {s : FeEvents P} {interrupted : Bool}

theorem not_emptying (h : s.contents ≠ []) : s.emptying = false := by
  cases hemptying : s.emptying with
  | false => rfl
  | true => exact absurd (if_pos hemptying) h

theorem contents_eq_nil (h : s.WellFormed) (heq : s.eventw = s.eventr) : s.contents = [] := by
  have holdest : s.oldest = s.eventr := by
    have hfine := h.adder
    cases hadder : s.adder with
    | dropping status wp =>
      simp only [AdderFine,hadder] at hfine
      have hlt := h.eventr_lt
      unfold maxEvent at hfine hlt
      omega
    | _ => simp only [oldest,hadder]
  have hzero : pending s.eventw s.eventr = 0 := (pending_eq_zero h.eventr_lt h.eventw_lt).mpr heq
  simp [contents,holdest,hzero]

theorem contents_ne_nil (h : s.WellFormed) (hemptying : s.emptying = false) (hne : s.eventw ≠ s.eventr) :
    s.contents ≠ [] := by
  intro hnil
  have hlength : pending s.eventw s.oldest = 0 := by
    have hcontents : (s.settled.window maxEvent s.oldest (pending s.eventw s.oldest)).length = 0 := by
      have hwindow : s.settled.window maxEvent s.oldest (pending s.eventw s.oldest) = [] := by
        simpa [contents,hemptying] using hnil
      rw [hwindow,length_nil]
    rwa [Mem.length_window] at hcontents
  have hfine := h.adder
  cases hadder : s.adder with
  | dropping status wp =>
    simp only [AdderFine,hadder] at hfine
    simp only [oldest,hadder] at hlength
    rw [pending_read h.eventr_lt h.eventw_lt hne,pending_full h.eventw_lt (hfine.1.symm.trans hfine.2.2)] at hlength
    exact absurd hlength (by decide)
  | _ =>
    simp only [oldest,hadder] at hlength
    exact hne ((pending_eq_zero h.eventr_lt h.eventw_lt).mp hlength)

theorem oldest_of_not_holds (hholds : s.adder.holds = false) : s.oldest = s.eventr := by
  cases hadder : s.adder <;> simp [hadder,AddEvent.holds] at hholds <;> simp only [oldest,hadder]

theorem adderFine_of_not_holds {eventr : Nat} {reader : GetEvent P} (h : s.AdderFine)
    (hholds : s.adder.holds = false) : { s with eventr := eventr, reader := reader }.AdderFine := by
  unfold AdderFine at h ⊢
  cases hadder : s.adder <;> simp [hadder,AddEvent.holds] at hholds <;> simp_all

theorem settled_apply (hholds : s.adder.holds = false) {e : Nat} (hreported : s.adder.unreported ≠ some e) :
    s.settled e = s.events e := by
  cases hadder : s.adder with
  | reporting ev e' =>
    rw [hadder] at hreported
    have hne : e ≠ e' := by
      rintro rfl
      exact hreported rfl
    simp only [settled,hadder]
    exact Function.update_of_ne hne _ _
  | releasing ev e' => simp [hadder,AddEvent.holds] at hholds
  | _ => simp only [settled,hadder]

theorem adder_not_holds (h : s.WellFormed) (hreader : s.reader.holds = true) : s.adder.holds = false := by
  cases hholds : s.adder.holds with
  | false => rfl
  | true =>
    have hfalse := h.alone hholds
    rw [hreader] at hfalse
    cases hfalse

theorem StepFollows.readerSignal {a : GetEvent P} {sig : DropSignal (FrontendEvent P)} (h : s.WellFormed)
    (hholds : a.holds = s.reader.holds) (hfine : { s with reader := a }.ReaderFine)
    (hgood : DropQueue.Good (maxEvent - 1) s.abs sig) (hnext : DropQueue.next s.abs sig = s.abs) :
    StepFollows s ({ s with reader := a }, [sig]) :=
  { accepted := ⟨hgood, trivial⟩
    abs := hnext
    wellFormed := (StepFollows.reader h hholds hfine).wellFormed }

theorem getClearing_follows (h : s.WellFormed) (hreader : s.reader = .clearing) :
    StepFollows s ({ s with overflow := false, reader := .idle }, [.overflow]) := by
  have hoverflow := h.reader
  simp only [ReaderFine,hreader] at hoverflow
  refine ⟨⟨hoverflow,trivial⟩,rfl,?_⟩
  exact
    { eventw_lt := h.eventw_lt
      eventr_lt := h.eventr_lt
      adder := h.adder
      reader := trivial
      semFree := by simpa [hreader,GetEvent.holds] using h.semFree
      alone := fun _ => rfl
      emptying := h.emptying }

theorem getEntering_follows (h : s.WellFormed) (hreader : s.reader = .entering) (hfree : s.semFree = true) :
    StepFollows s ({ s with semFree := false, reader := .copying }, []) := by
  have hfine := h.reader
  simp only [ReaderFine,hreader] at hfine
  have hholds : s.adder.holds = false := by
    have hsem := h.semFree
    rw [hfree,hreader] at hsem
    simpa [GetEvent.holds] using hsem.symm
  refine StepFollows.silent ?_ rfl rfl
  exact
    { eventw_lt := h.eventw_lt
      eventr_lt := h.eventr_lt
      adder := h.adder
      reader := hfine
      semFree := by simp [GetEvent.holds]
      alone := by simp [hholds]
      emptying := h.emptying }

theorem head?_contents (h : s.WellFormed) (hreader : s.reader = .copying)
    (hreported : s.adder.unreported ≠ some s.eventr) : s.contents.head? = some (s.events s.eventr) := by
  have hfine := h.reader
  simp only [ReaderFine,hreader] at hfine
  have hholds : s.adder.holds = false := adder_not_holds h (by simp [hreader,GetEvent.holds])
  have hemptying : s.emptying = false := not_emptying hfine
  have hne : pending s.eventw s.eventr ≠ 0 := by
    intro hzero
    exact hfine (contents_eq_nil h ((pending_eq_zero h.eventr_lt h.eventw_lt).mp hzero))
  have hcontents : s.contents = s.settled.window maxEvent s.eventr (pending s.eventw s.eventr) := by
    rw [contents,if_neg (by simp [hemptying]),oldest_of_not_holds hholds]
  rw [hcontents,List.head?_eq_getElem?,Mem.getElem?_window _ _ _ (Nat.pos_of_ne_zero hne),Nat.add_zero,
    Nat.mod_eq_of_lt h.eventr_lt,settled_apply hholds hreported]

theorem getAdvancing_follows (h : s.WellFormed) {ev : FrontendEvent P} (hreader : s.reader = .advancing ev) :
    StepFollows s ({ s with eventr := (s.eventr + 1) % maxEvent, reader := .releasing }, [.returned ev]) := by
  have hhead := h.reader
  simp only [ReaderFine,hreader] at hhead
  have hholds : s.adder.holds = false := adder_not_holds h (by simp [hreader,GetEvent.holds])
  have hcontents : s.contents ≠ [] := by
    intro hnil
    rw [hnil] at hhead
    cases hhead
  have hne : s.eventw ≠ s.eventr := fun heq => hcontents (contents_eq_nil h heq)
  have hemptying : s.emptying = false := not_emptying hcontents
  have hnew :
      { s with eventr := (s.eventr + 1) % maxEvent, reader := .releasing : FeEvents P }.contents =
        s.contents.tail := by
    have hafter :
        { s with eventr := (s.eventr + 1) % maxEvent, reader := .releasing : FeEvents P }.oldest =
          (s.eventr + 1) % maxEvent := oldest_of_not_holds hholds
    rw [contents,contents,if_neg (by simp [hemptying]),if_neg (by simp [hemptying]),hafter,
      oldest_of_not_holds hholds,tail_pending _ h.eventr_lt h.eventw_lt hne]
    rfl
  refine ⟨⟨hhead,trivial⟩,?_,?_⟩
  · simp only [foldl_cons,foldl_nil,DropQueue.next,FeEvents.abs,hnew]
  · exact
      { eventw_lt := h.eventw_lt
        eventr_lt := Nat.mod_lt _ (by decide)
        adder := adderFine_of_not_holds h.adder hholds
        reader := trivial
        semFree := by simpa [hreader,GetEvent.holds] using h.semFree
        alone := by simp [hholds]
        emptying := h.emptying }

theorem getReleasing_follows (h : s.WellFormed) (hreader : s.reader = .releasing) :
    StepFollows s ({ s with semFree := true, reader := .idle }, []) := by
  have hholds : s.adder.holds = false := adder_not_holds h (by simp [hreader,GetEvent.holds])
  refine StepFollows.silent ?_ rfl rfl
  exact
    { eventw_lt := h.eventw_lt
      eventr_lt := h.eventr_lt
      adder := h.adder
      reader := trivial
      semFree := by simp [hholds,GetEvent.holds]
      alone := fun _ => rfl
      emptying := h.emptying }

theorem getEventStep_follows (h : s.WellFormed) (hok : Undisturbed s (.get interrupted)) :
    StepFollows s (getEventStep s interrupted) := by
  obtain ⟨hstarts,hcopies⟩ := hok
  cases hreader : s.reader with
  | idle =>
    simp only [getEventStep,hreader]
    by_cases hoverflow : s.overflow = true
    · rw [if_pos hoverflow]
      exact StepFollows.reader h (by simp [hreader,GetEvent.holds]) hoverflow
    · rw [if_neg hoverflow]
      have hnone : s.overflow = false := by simpa using hoverflow
      exact StepFollows.readerSignal h (by simp [hreader,GetEvent.holds]) trivial hnone rfl
  | clearing =>
    simp only [getEventStep,hreader]
    exact getClearing_follows h hreader
  | comparing =>
    simp only [getEventStep,hreader]
    split
    · have hnil := contents_eq_nil h ‹_›
      exact StepFollows.readerSignal h (by simp [hreader,GetEvent.holds]) trivial hnil rfl
    · have hemptying : s.emptying = false := by simpa [hreader,GetEvent.starts] using hstarts
      have hcontents : s.contents ≠ [] := contents_ne_nil h hemptying ‹_›
      exact StepFollows.reader h (by simp [hreader,GetEvent.holds]) hcontents
  | entering =>
    simp only [getEventStep,hreader]
    split
    · exact getEntering_follows h hreader ‹_›
    · split
      · exact StepFollows.readerSignal h (by simp [hreader,GetEvent.holds]) trivial trivial rfl
      · exact StepFollows.refl h
  | copying =>
    simp only [getEventStep,hreader]
    have hhead := head?_contents h hreader (hcopies (by simp [hreader,GetEvent.copies]))
    exact StepFollows.reader h (by simp [hreader,GetEvent.holds]) hhead
  | advancing ev =>
    simp only [getEventStep,hreader]
    exact getAdvancing_follows h hreader
  | releasing =>
    simp only [getEventStep,hreader]
    exact getReleasing_follows h hreader

end Reading

section Emptying

variable {s : FeEvents P}

theorem oldest_of_not_moves (hmoves : s.adder.moves = false) : s.oldest = s.eventr := by
  cases hadder : s.adder <;> simp [hadder,AddEvent.moves] at hmoves <;> simp only [oldest,hadder]

theorem adderFine_of_not_moves {eventw eventr : Nat} {emptying : Bool} (h : s.AdderFine)
    (hmoves : s.adder.moves = false) :
    { s with eventw := eventw, eventr := eventr, emptying := emptying }.AdderFine := by
  unfold AdderFine at h ⊢
  cases hadder : s.adder <;> simp [hadder,AddEvent.moves] at hmoves <;> simp_all

theorem readerFine_of_not_moves {eventw eventr : Nat} {emptying : Bool} (h : s.ReaderFine)
    (hmoves : s.reader.moves = false) :
    { s with eventw := eventw, eventr := eventr, emptying := emptying }.ReaderFine := by
  unfold ReaderFine at h ⊢
  cases hreader : s.reader <;> simp [hreader,GetEvent.moves] at hmoves <;> simp_all

theorem emptyStep_follows (h : s.WellFormed) (hok : Undisturbed s .empty) : StepFollows s (emptyStep s) := by
  obtain ⟨hadder,hreader,hdrops⟩ := hok
  unfold emptyStep
  cases hemptying : s.emptying with
  | true =>
    rw [if_pos rfl]
    have hw : s.eventw = 0 := h.emptying hemptying
    have hold : s.contents = [] := if_pos hemptying
    have holdest : { s with eventr := 0, emptying := false : FeEvents P }.oldest = 0 := oldest_of_not_moves hadder
    have hnew : { s with eventr := 0, emptying := false : FeEvents P }.contents = s.contents := by
      rw [hold,contents,if_neg (by simp),holdest]
      simp [hw,pending]
    refine StepFollows.silent ?_ hnew rfl
    exact
      { eventw_lt := h.eventw_lt
        eventr_lt := (by decide : 0 < maxEvent)
        adder := adderFine_of_not_moves h.adder hadder
        reader := readerFine_of_not_moves h.reader hreader
        semFree := h.semFree
        alone := h.alone
        emptying := by simp }
  | false =>
    rw [if_neg (by simp)]
    have hoverflow : s.overflow = false := hdrops hemptying
    refine ⟨⟨trivial,trivial⟩,?_,?_⟩
    · simp [DropQueue.next,DropQueue.empty,FeEvents.abs,contents,hoverflow]
    · exact
        { eventw_lt := (by decide : 0 < maxEvent)
          eventr_lt := h.eventr_lt
          adder := adderFine_of_not_moves h.adder hadder
          reader := readerFine_of_not_moves h.reader hreader
          semFree := h.semFree
          alone := h.alone
          emptying := fun _ => rfl }

end Emptying

theorem eventStep_follows {s : FeEvents P} (h : s.WellFormed) {i : EventInput P} (hok : Undisturbed s i) :
    StepFollows s (eventStep s i) := by
  cases i with
  | add io => exact addEventStep_follows h hok
  | get interrupted => exact getEventStep_follows h hok
  | empty => exact emptyStep_follows h hok

/-- Events of undisturbed calls: whatever the order of their steps, they come back as they were added, in order
and without those that were dropped, and the reader is told once of each group of drops. -/
theorem events_dropOldestFifo (events : Mem (FrontendEvent P)) (is : List (EventInput P))
    (h : StepsMeet eventStep Undisturbed (initial events) is) :
    DropOldestFifo (maxEvent - 1) (runTrace eventStep (initial events) is).2 := by
  have hempty : DropQueue.empty = (initial events).abs := by
    simp [FeEvents.abs, contents, initial, oldest, pending, DropQueue.empty]
  have hstep : ∀ (s : FeEvents P) m i, (m = s.abs ∧ s.WellFormed) → Undisturbed s i →
      Accepts DropQueue.next (DropQueue.Good (maxEvent - 1)) m (eventStep s i).2 ∧
        (eventStep s i).2.foldl DropQueue.next m = (eventStep s i).1.abs ∧ (eventStep s i).1.WellFormed := by
    rintro s m i ⟨rfl, hwf⟩ hok
    have hfollows := eventStep_follows hwf hok
    exact ⟨hfollows.accepted, hfollows.abs, hfollows.wellFormed⟩
  have hrun := runTrace_accepted _ hstep ⟨hempty, wellFormed_initial events⟩ h
  exact DropOldestFifo.of_accepts hrun.1

section Runs

def addSteps (status : UInt32) (n : Nat) : List (EventInput Nat) :=
  List.replicate n (.add { status := status, interrupted := false, parameters := 7, getFrontend := some (· + 1) })

/-- Eight events for seven places, and the first of them that is left, of a device that is opened again then. -/
theorem events_dropOldestFifo_small :
    DropOldestFifo 7 (runTrace eventStep (initial fun _ => { status := 0, parameters := 0 })
      (addSteps 0 10 ++ addSteps 0x1f 72 ++ List.replicate 8 (.get false) ++ [.empty, .empty])).2 :=
  events_dropOldestFifo _ _ (by decide +kernel)

/-- With drops that no reader has been told of, emptying leaves the flag: the reader is told of them later,
although nothing was dropped from the queue that was empty then. -/
theorem events_not_dropOldestFifo :
    ¬ DropOldestFifo 7 (runTrace eventStep (initial fun _ => { status := 0, parameters := 0 })
      (addSteps 0 82 ++ [.empty, .empty, .get false, .get false])).2 := by
  have hout : (runTrace eventStep (initial fun _ => { status := 0, parameters := 0 })
      (addSteps 0 82 ++ [.empty, .empty, .get false, .get false])).2 =
        List.replicate 7 (.added { status := 0, parameters := 7 }) ++
          [.dropped, .added { status := 0, parameters := 7 }, .emptied] ++ .overflow :: [] := by
    decide +kernel
  rw [hout]
  intro h
  have huntold := (untold_iff _).mpr (h.told _ [] rfl)
  revert huntold
  decide

end Runs

end LinuxDvb.Frontend
