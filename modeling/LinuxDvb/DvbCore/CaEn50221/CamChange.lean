import LinuxDvb.DvbCore.CaEn50221.Thread

/-!
# Changes of CAMs

A change report consumed by the check at the head of a slot's turn is dealt with on the spot. The check in the loop
that fetches data only leaves the loop and relies on the head of the next turn, which polls once more and does not
look at `camchange_count`.
-/

namespace LinuxDvb.CaEn50221

/-! ## What is owed to a slot -/

inductive Owed where
  | nothing
  | initialisation
  | shutdown
  deriving DecidableEq

namespace Owed

def next (owed : Owed) : CamEvent → Owed
  | .report state => if state = .none ∧ owed ≠ .shutdown then .initialisation else .shutdown
  | .shutdown => if owed = .shutdown then .initialisation else owed
  | .initialise => if owed = .initialisation then .nothing else owed
  | .exchange _ => owed

def Fine (owed : Owed) (e : CamEvent) : Prop := e = .exchange .running → owed = .nothing

theorem next_report_ne (owed : Owed) (state : SlotState) : owed.next (.report state) ≠ .nothing := by
  simp only [next]
  split <;> simp

theorem next_report_shutdown {owed : Owed} {state : SlotState} (h : state ≠ .none) :
    owed.next (.report state) = .shutdown := by
  simp [next,h]

variable {n : Nat} {i : Fin n}

def watch (i : Fin n) (owed : Owed) (e : Fin n × CamEvent) : Owed :=
  if e.1 = i then owed.next e.2 else owed

def Watched (i : Fin n) (owed : Owed) (e : Fin n × CamEvent) : Prop := e.1 = i → owed.Fine e.2

theorem foldl_watch_same (owed : Owed) (events : List CamEvent) :
    (events.map (i, ·)).foldl (watch i) owed = events.foldl next owed := by
  induction events generalizing owed with
  | nil => rfl
  | cons e events ih => simpa [watch] using ih (owed.next e)

theorem foldl_watch_other {j : Fin n} (h : j ≠ i) (owed : Owed) (events : List CamEvent) :
    (events.map (j, ·)).foldl (watch i) owed = owed := by
  induction events with
  | nil => rfl
  | cons e events ih => simpa [watch,h] using ih

theorem accepts_other {j : Fin n} (h : j ≠ i) (owed : Owed) (events : List CamEvent) :
    Accepts (watch i) (Watched i) owed (events.map (j, ·)) := by
  induction events with
  | nil => trivial
  | cons e events ih =>
    refine ⟨fun he => absurd he h,?_⟩
    simpa [watch,h] using ih

theorem accepts_same {owed : Owed} {events : List CamEvent} (h : Accepts next Fine owed events) :
    Accepts (watch i) (Watched i) owed (events.map (i, ·)) := by
  induction events generalizing owed with
  | nil => trivial
  | cons e events ih =>
    refine ⟨fun _ => h.1,?_⟩
    simpa [watch] using ih h.2

theorem shutdown_mem {events : List (Fin n × CamEvent)}
    (h : events.foldl (watch i) .shutdown ≠ .shutdown) : (i, .shutdown) ∈ events := by
  induction events with
  | nil => exact absurd rfl h
  | cons e events ih =>
    obtain ⟨j,e⟩ := e
    by_cases hj : j = i
    · subst hj
      cases e with
      | shutdown => exact mem_cons_self
      | report state => exact mem_cons_of_mem _ (ih (by simpa [watch,next] using h))
      | initialise => exact mem_cons_of_mem _ (ih (by simpa [watch,next] using h))
      | exchange state => exact mem_cons_of_mem _ (ih (by simpa [watch,next] using h))
    · exact mem_cons_of_mem _ (ih (by simpa [watch,hj] using h))

theorem initialise_mem {owed : Owed} {events : List (Fin n × CamEvent)} (howed : owed ≠ .nothing)
    (h : events.foldl (watch i) owed = .nothing) :
    ∃ before after, events = before ++ (i, .initialise) :: after ∧
      (owed = .shutdown → (i, .shutdown) ∈ before) := by
  induction events generalizing owed with
  | nil => exact absurd h howed
  | cons e events ih =>
    obtain ⟨j,e⟩ := e
    rw [foldl_cons] at h
    -- an event that owes no less puts its successor's events behind it
    have hkeep : watch i owed (j, e) ≠ .nothing →
        (owed = .shutdown → watch i owed (j, e) = .shutdown ∨ (j, e) = (i, .shutdown)) →
        ∃ before after, (j, e) :: events = before ++ (i, .initialise) :: after ∧
          (owed = .shutdown → (i, .shutdown) ∈ before) := by
      intro hne hshut
      obtain ⟨before,after,rfl,hmem⟩ := ih hne h
      refine ⟨(j, e) :: before,after,rfl,?_⟩
      intro ho
      cases hshut ho with
      | inl hs => exact mem_cons_of_mem _ (hmem hs)
      | inr he => exact he ▸ mem_cons_self
    by_cases hj : j = i
    · subst hj
      cases e with
      | report state =>
        apply hkeep
        · simpa [watch] using next_report_ne owed state
        · intro ho
          simp [watch,next,ho]
      | shutdown =>
        apply hkeep
        · cases owed <;> simp [watch,next] at howed ⊢
        · intro _
          exact .inr rfl
      | initialise =>
        cases owed with
        | nothing => exact absurd rfl howed
        | initialisation => exact ⟨[],events,rfl,fun ho => by cases ho⟩
        | shutdown =>
          apply hkeep
          · simp [watch,next]
          · simp [watch,next]
      | exchange state =>
        apply hkeep
        · simpa [watch,next] using howed
        · intro ho
          simp [watch,next,ho]
    · apply hkeep
      · simpa [watch,hj] using howed
      · intro ho
        simp [watch,hj,ho]

theorem served {owed : Owed} {state : SlotState} {mid : List (Fin n × CamEvent)}
    (h : mid.foldl (watch i) (owed.next (.report state)) = .nothing) : Served i state mid := by
  obtain ⟨before,after,hmid,hmem⟩ := initialise_mem (next_report_ne owed state) h
  refine ⟨before,after,hmid,?_⟩
  by_cases hs : state = .none
  · exact .inl hs
  · exact .inr (hmem (next_report_shutdown hs))

end Owed

/-! ## Turns of a slot -/

/-- What a slot looks like while something is owed to it. The thread does not go past the head of the
turn before the shutdown, nor fetch data before the initialisation. -/
structure Tracked (slot : CamSlot) (pos : Option SlotAt) (owed : Owed) : Prop where
  shutdown : owed = .shutdown → slot.camchangeCount ≠ 0 ∧ slot.slotState ≠ .none ∧
    ∀ p ∈ pos, p = .checking ∨ p = .changed
  initialisation : owed = .initialisation → slot.slotState = .none ∧
    ∀ p ∈ pos, p = .checking ∨ p = .changed ∨ p = .machine

section Turns

variable {slot : CamSlot} {pos : Option SlotAt} {owed : Owed} {io : ThreadIo}

theorem Tracked.of_nothing (slot : CamSlot) (pos : Option SlotAt) : Tracked slot pos .nothing :=
  ⟨fun h => (by cases h), fun h => (by cases h)⟩

theorem Tracked.nothing_of_fetching {p : SlotAt} (h : Tracked slot (some p) owed)
    (hp : p ≠ .checking ∧ p ≠ .changed ∧ p ≠ .machine) : owed = .nothing := by
  cases owed with
  | nothing => rfl
  | initialisation =>
    have := (h.initialisation rfl).2 p rfl
    tauto
  | shutdown =>
    have := (h.shutdown rfl).2.2 p rfl
    tauto

theorem Tracked.at_machine (h : Tracked slot (some .machine) owed) :
    owed ≠ .shutdown ∧ (slot.slotState ≠ .none → owed = .nothing) := by
  have hshut : owed ≠ .shutdown := by
    intro ho
    have := (h.shutdown ho).2.2 .machine rfl
    simp at this
  refine ⟨hshut,?_⟩
  intro hstate
  cases owed with
  | nothing => rfl
  | initialisation => exact absurd (h.initialisation rfl).1 hstate
  | shutdown => exact absurd rfl hshut

theorem Tracked.outside (h : Tracked slot pos owed) : Tracked slot none owed :=
  ⟨fun ho => ⟨(h.shutdown ho).1, (h.shutdown ho).2.1, fun _ hp => by cases hp⟩,
    fun ho => ⟨(h.initialisation ho).1, fun _ hp => by cases hp⟩⟩

theorem Tracked.enter (h : Tracked slot none owed) : Tracked slot (some .checking) owed :=
  ⟨fun ho => ⟨(h.shutdown ho).1, (h.shutdown ho).2.1, fun _ hp => .inl (Option.some.inj hp).symm⟩,
    fun ho => ⟨(h.initialisation ho).1, fun _ hp => .inl (Option.some.inj hp).symm⟩⟩

theorem checkCamstatus_changed {status : PollStatus} (h : (dvbCaEn50221CheckCamstatus slot status).2 = true) :
    (dvbCaEn50221CheckCamstatus slot status).1.camchangeCount = 1 ∧
      (dvbCaEn50221CheckCamstatus slot status).1.slotState = slot.slotState := by
  unfold dvbCaEn50221CheckCamstatus at h ⊢
  cases hc : status.changed || status.present != decide (slot.slotState ≠ .none) with
  | true => exact ⟨rfl,rfl⟩
  | false =>
    simp only [hc,Bool.false_eq_true,if_false] at h
    split at h <;> cases h

theorem checkCamstatus_unchanged {status : PollStatus} (h : (dvbCaEn50221CheckCamstatus slot status).2 = false) :
    (status.changed || status.present != decide (slot.slotState ≠ .none)) = false ∧
      (dvbCaEn50221CheckCamstatus slot status).1.camchangeCount = slot.camchangeCount ∧
      ((dvbCaEn50221CheckCamstatus slot status).1.slotState = .none ↔ slot.slotState = .none) := by
  unfold dvbCaEn50221CheckCamstatus at h ⊢
  cases hc : status.changed || status.present != decide (slot.slotState ≠ .none) with
  | true =>
    simp only [hc,if_true] at h
    cases h
  | false =>
    refine ⟨rfl,?_⟩
    simp only [Bool.false_eq_true,if_false]
    split
    · rename_i hw
      exact ⟨rfl,iff_of_false (fun h => nomatch h) (by rw [hw.1]; exact fun h => nomatch h)⟩
    · exact ⟨rfl,Iff.rfl⟩

theorem Tracked.report {status : PollStatus} {p : Option SlotAt} (h : Tracked slot pos owed)
    (hchanged : (dvbCaEn50221CheckCamstatus slot status).2 = true) (hp : p = some .changed ∨ p = none) :
    Tracked (dvbCaEn50221CheckCamstatus slot status).1 p (owed.next (.report slot.slotState)) := by
  obtain ⟨hcount,hstate⟩ := checkCamstatus_changed hchanged
  have hpos : ∀ q ∈ p, q = .changed := by
    intro q hq
    cases hp with
    | inl he => exact (Option.some.inj (he.symm.trans hq)).symm
    | inr he => rw [he] at hq; cases hq
  refine ⟨?_,?_⟩
  · intro ho
    refine ⟨by rw [hcount]; decide,?_,fun q hq => .inr (hpos q hq)⟩
    rw [hstate]
    intro hnone
    -- with the slot down, a shutdown is owed only if it was owed before
    have hbefore : owed = .shutdown := by
      by_contra hne
      simp [Owed.next,hnone,hne] at ho
    exact (h.shutdown hbefore).2.1 hnone
  · intro ho
    refine ⟨?_,fun q hq => .inr (.inl (hpos q hq))⟩
    rw [hstate]
    by_contra hne
    rw [Owed.next_report_shutdown hne] at ho
    cases ho

theorem Tracked.handle (h : Tracked slot (some .changed) owed) :
    Tracked (handleCamchange slot).1 (some .checking) ((handleCamchange slot).2.foldl Owed.next owed) := by
  have hone : ∀ q ∈ some SlotAt.checking, q = .checking := fun q hq => (Option.some.inj hq).symm
  have hdown : slot.shutdown.2.foldl Owed.next owed ≠ .shutdown ∧ slot.shutdown.1.slotState = .none := by
    unfold CamSlot.shutdown
    split
    · refine ⟨?_,rfl⟩
      cases owed <;> simp [Owed.next]
    · rename_i hnone
      have hnone := Decidable.not_not.mp hnone
      exact ⟨fun ho => (h.shutdown ho).2.1 hnone,hnone⟩
  unfold handleCamchange
  split
  · have hpaid : (slot.shutdown.2 ++ [CamEvent.initialise]).foldl Owed.next owed = .nothing := by
      rw [foldl_append]
      cases hd : slot.shutdown.2.foldl Owed.next owed with
      | nothing => rfl
      | initialisation => rfl
      | shutdown => exact absurd hd hdown.1
    rw [hpaid]
    exact .of_nothing _ _
  · exact ⟨fun ho => absurd ho hdown.1,fun _ => ⟨hdown.2,fun q hq => .inl (hone q hq)⟩⟩

theorem slotMachine_of_none (h : slot.slotState = .none) : slotMachine slot io = slot := by
  unfold slotMachine
  rw [h]

theorem accepts_handleCamchange : Accepts Owed.next Owed.Fine owed (handleCamchange slot).2 := by
  unfold handleCamchange CamSlot.shutdown
  split <;> split <;> simp [Owed.Fine]

theorem Tracked.step {p : SlotAt} (opened : Bool) (h : Tracked slot (some p) owed)
    (hrepeat : p = .checking → slot.camchangeCount ≠ 0 → slot.slotState ≠ .none → io.poll.changed ∨ !io.poll.present) :
    Accepts Owed.next Owed.Fine owed (slotStep slot opened p io).2.2 ∧
      Tracked (slotStep slot opened p io).1 (slotStep slot opened p io).2.1
        ((slotStep slot opened p io).2.2.foldl Owed.next owed) := by
  cases p with
  | checking =>
    simp only [slotStep]
    cases hr : (dvbCaEn50221CheckCamstatus slot io.poll).2 with
    | true =>
      exact ⟨by simp [Owed.Fine],h.report hr (.inl rfl)⟩
    | false =>
      obtain ⟨hsame,hcount,hnone⟩ := checkCamstatus_unchanged hr
      refine ⟨trivial,?_,?_⟩
      · intro ho
        obtain ⟨hc,hs,-⟩ := h.shutdown ho
        have := hrepeat rfl hc hs
        simp_all
      · intro ho
        exact ⟨hnone.mpr (h.initialisation ho).1,fun q hq => .inr (.inr (Option.some.inj hq).symm)⟩
  | changed => exact ⟨accepts_handleCamchange,h.handle⟩
  | machine =>
    simp only [slotStep]
    have hshut := h.at_machine.1
    split
    · rename_i hrun
      refine ⟨trivial,fun ho => absurd ho hshut,?_⟩
      intro ho
      rw [(h.initialisation ho).1] at hrun
      cases hrun.1
    · refine ⟨trivial,fun ho => absurd ho hshut,?_⟩
      intro ho
      refine ⟨?_,fun q hq => by cases hq⟩
      rw [slotMachine_of_none (h.initialisation ho).1]
      exact (h.initialisation ho).1
  | reading pktcount =>
    have ho := h.nothing_of_fetching (by simp)
    subst ho
    simp only [slotStep]
    split
    · exact ⟨⟨fun _ => rfl,trivial⟩,.of_nothing _ _⟩
    · exact ⟨trivial,.of_nothing _ _⟩
  | received pktcount =>
    have ho := h.nothing_of_fetching (by simp)
    subst ho
    simp only [slotStep]
    split
    · exact ⟨trivial,.of_nothing _ _⟩
    · split
      · rename_i hr
        exact ⟨by simp [Owed.Fine],h.report hr (.inr rfl)⟩
      · split <;> exact ⟨trivial,.of_nothing _ _⟩

end Turns

/-! ## Runs of the interface -/

section Runs

variable {n : Nat} {ca : CaThread n} {i : Fin n} {owed : Owed}

/-- Where the thread stands in the turn of slot `i`, if it is there. -/
def ThreadAt.inTurn (i : Fin n) : ThreadAt n → Option SlotAt
  | .sleeping => none
  | .turn j p => if j = i then some p else none

@[simp] theorem ThreadAt.inTurn_same (p : SlotAt) : (ThreadAt.turn i p).inTurn i = some p := if_pos rfl

theorem ThreadAt.inTurn_other {j : Fin n} (h : j ≠ i) (p : SlotAt) : (ThreadAt.turn j p).inTurn i = none := if_neg h

theorem Tracked.from {slot : CamSlot} (h : Tracked slot none owed) (k : Nat) :
    Tracked slot ((ThreadAt.from k).inTurn i) owed := by
  unfold ThreadAt.from
  split
  · rename_i hk
    by_cases hi : (⟨k,hk⟩ : Fin n) = i
    · rw [hi,ThreadAt.inTurn_same]
      exact h.enter
    · rw [ThreadAt.inTurn_other hi]
      exact h
  · exact h

theorem Tracked.congr {slot slot' : CamSlot} {pos : Option SlotAt} (h : Tracked slot pos owed)
    (hcount : slot'.camchangeCount = slot.camchangeCount)
    (hstate : slot'.slotState = .none ↔ slot.slotState = .none) : Tracked slot' pos owed := by
  refine ⟨?_,?_⟩
  · intro ho
    obtain ⟨hc,hs,hp⟩ := h.shutdown ho
    exact ⟨by rwa [hcount],fun hn => hs (hstate.mp hn),hp⟩
  · intro ho
    obtain ⟨hs,hp⟩ := h.initialisation ho
    exact ⟨hstate.mpr hs,hp⟩

theorem foldl_watch_flatMap (f : Fin n → List CamEvent) (owed : Owed) {l : List (Fin n)} (hl : l.Nodup) :
    (l.flatMap fun j => (f j).map (j, ·)).foldl (Owed.watch i) owed =
      if i ∈ l then (f i).foldl Owed.next owed else owed := by
  induction l generalizing owed with
  | nil => rfl
  | cons j l ih =>
    rw [flatMap_cons,foldl_append,ih _ hl.tail]
    by_cases hj : j = i
    · subst hj
      have hnot : j ∉ l := (nodup_cons.mp hl).1
      simp [hnot,Owed.foldl_watch_same]
    · simp [Owed.foldl_watch_other hj,Ne.symm hj]

theorem Tracked.reset {slot : CamSlot} {pos : Option SlotAt} (h : Tracked slot pos owed) :
    Tracked slot.shutdown.1 pos (slot.shutdown.2.foldl Owed.next owed) := by
  unfold CamSlot.shutdown
  split
  · cases owed with
    | nothing => exact .of_nothing _ _
    | initialisation => exact ⟨fun h => (by cases h),fun _ => ⟨rfl,(h.initialisation rfl).2⟩⟩
    | shutdown =>
      refine ⟨fun h => (by cases h),fun _ => ⟨rfl,?_⟩⟩
      intro p hp
      cases (h.shutdown rfl).2.2 p hp with
      | inl hc => exact .inl hc
      | inr hc => exact .inr (.inl hc)
  · exact h

theorem tracked_threadStep (io : ThreadIo) (h : Tracked (ca.slotInfo i) (ca.pos.inTurn i) owed)
    (hok : ReportsRepeated ca (.thread io)) :
    Accepts (Owed.watch i) (Owed.Watched i) owed (threadStep ca io).2 ∧
      Tracked ((threadStep ca io).1.slotInfo i) ((threadStep ca io).1.pos.inTurn i)
        ((threadStep ca io).2.foldl (Owed.watch i) owed) := by
  unfold threadStep
  cases hpos : ca.pos with
  | sleeping => exact ⟨trivial,Tracked.from h.outside 0⟩
  | turn j p =>
    by_cases hj : j = i
    · subst hj
      rw [hpos,ThreadAt.inTurn_same] at h
      obtain ⟨hacc,htracked⟩ := h.step ca.opened (hok j <| hpos.trans <| congrArg _ ·)
      refine ⟨Owed.accepts_same hacc,?_⟩
      simp only [Function.update_self,Owed.foldl_watch_same]
      cases hp : (slotStep (ca.slotInfo j) ca.opened p io).2.1 with
      | none => exact Tracked.from htracked.outside _
      | some q => simpa [hp] using htracked
    · refine ⟨Owed.accepts_other hj _ _,?_⟩
      simp only [Function.update_of_ne (Ne.symm hj),Owed.foldl_watch_other hj]
      cases hp : (slotStep (ca.slotInfo j) ca.opened p io).2.1 with
      | none => exact Tracked.from h.outside _
      | some q => simpa [ThreadAt.inTurn_other hj] using h.outside

theorem writeData_slotState (slot : DvbCaSlot) (cam : CamWrite) (buf : List UInt8) (h : slot.slotState ≠ .none) :
    (dvbCaEn50221WriteData slot cam buf).1.slotState ≠ .none := by
  unfold dvbCaEn50221WriteData
  split
  · exact h
  · cases cam with
    | accepted => exact h
    | writeError => exact fun h => nomatch h
    | refused status neg => exact h

theorem tracked_write (j : Fin n) (cam : CamWrite) (fragbuf : List UInt8)
    (h : Tracked (ca.slotInfo i) (ca.pos.inTurn i) owed) (hok : ReportsRepeated ca (.write j cam fragbuf)) :
    Accepts (Owed.watch i) (Owed.Watched i) owed (interfaceStep ca (.write j cam fragbuf)).2 ∧
      Tracked ((interfaceStep ca (.write j cam fragbuf)).1.slotInfo i)
        ((interfaceStep ca (.write j cam fragbuf)).1.pos.inTurn i)
        ((interfaceStep ca (.write j cam fragbuf)).2.foldl (Owed.watch i) owed) := by
  simp only [interfaceStep]
  by_cases hrun : (ca.slotInfo j).slotState = .running
  swap
  · rw [if_pos hrun]
    exact ⟨trivial,h⟩
  rw [if_neg (not_not.mpr hrun)]
  -- writing owes nothing new
  have howed : ∀ events : List (Fin n × CamEvent), (∀ e ∈ events, ∃ state, e.2 = .exchange state) →
      events.foldl (Owed.watch i) owed = owed := by
    intro events hev
    induction events with
    | nil => rfl
    | cons e events ih =>
      obtain ⟨state,he⟩ := hev e mem_cons_self
      have hsame : Owed.watch i owed e = owed := by simp [Owed.watch,he,Owed.next]
      rw [foldl_cons,hsame]
      exact ih fun e he => hev e (mem_cons_of_mem _ he)
  refine ⟨?_,?_⟩
  · split
    · rename_i hex
      refine ⟨?_,trivial⟩
      intro hj
      have hj : j = i := hj
      subst hj
      intro _
      have hcount := hok hrun hex.1 hex.2
      cases ho : owed with
      | nothing => rfl
      | initialisation =>
        have := (h.initialisation ho).1
        rw [hrun] at this
        cases this
      | shutdown => exact absurd hcount (h.shutdown ho).1
    · trivial
  · rw [howed _ (by split <;> simp)]
    by_cases hj : j = i
    · subst hj
      simp only [Function.update_self]
      refine h.congr rfl (iff_of_false ?_ ?_)
      · exact writeData_slotState _ _ _ (by rw [hrun]; exact fun h => nomatch h)
      · rw [hrun]
        exact fun h => nomatch h
    · simpa only [Function.update_of_ne (Ne.symm hj)] using h

theorem tracked_interfaceStep (e : ThreadEvent n) (h : Tracked (ca.slotInfo i) (ca.pos.inTurn i) owed)
    (hok : ReportsRepeated ca e) :
    Accepts (Owed.watch i) (Owed.Watched i) owed (interfaceStep ca e).2 ∧
      Tracked ((interfaceStep ca e).1.slotInfo i) ((interfaceStep ca e).1.pos.inTurn i)
        ((interfaceStep ca e).2.foldl (Owed.watch i) owed) := by
  cases e with
  | thread io => exact tracked_threadStep io h hok
  | ioOpen =>
    refine ⟨trivial,h.congr ?_ ?_⟩
    · simp only [interfaceStep,CamSlot.flush]
      split <;> rfl
    · simp only [interfaceStep,CamSlot.flush]
      split <;> rfl
  | ioRelease => exact ⟨trivial,h⟩
  | reset =>
    refine ⟨Accepts.of_forall ?_ _,?_⟩
    · intro e he m _
      simp only [interfaceStep,mem_flatMap,CamSlot.shutdown] at he
      obtain ⟨j,-,he⟩ := he
      split at he
      · simp only [map_cons,map_nil,mem_singleton] at he
        rw [he]
        exact fun h => nomatch h
      · cases he
    · simp only [interfaceStep]
      rw [foldl_watch_flatMap (fun j => (ca.slotInfo j).shutdown.2) owed (List.nodup_finRange n),
        if_pos (List.mem_finRange i)]
      exact h.reset
  | write j cam fragbuf => exact tracked_write j cam fragbuf h hok
  | camreadyIrq j =>
    simp only [interfaceStep]
    split
    · rename_i hw
      refine ⟨trivial,?_⟩
      by_cases hj : j = i
      · subst hj
        simp only [Function.update_self]
        refine h.congr rfl (iff_of_false (fun h => nomatch h) ?_)
        rw [hw]
        exact fun h => nomatch h
      · simp only [Function.update_of_ne (Ne.symm hj)]
        exact h
    · exact ⟨trivial,h⟩

/-- No change of a CAM is lost in a run in which every consumed report is repeated at the head of the
slot's next turn, and nothing is written to the slot before. -/
theorem no_camchange_lost {events : List (ThreadEvent n)}
    (hok : StepsMeet interfaceStep ReportsRepeated (.init n) events) :
    ChangesServed (runTrace interfaceStep (.init n) events).1
      (runTrace interfaceStep (.init n) events).2 := by
  have hrun : ∀ i, Accepts (Owed.watch i) (Owed.Watched i) .nothing
        (runTrace interfaceStep (.init n) events).2 ∧
      Tracked ((runTrace interfaceStep (.init n) events).1.slotInfo i)
        ((runTrace interfaceStep (.init n) events).1.pos.inTurn i)
        ((runTrace interfaceStep (.init n) events).2.foldl (Owed.watch i) .nothing) :=
    fun i => runTrace_accepted (fun ca owed => Tracked (ca.slotInfo i) (ca.pos.inTurn i) owed)
      (fun _ _ e h hok => tracked_interfaceStep e h hok) (.of_nothing _ _) hok
  refine ⟨?_, ?_⟩
  · intro i state before mid after hev
    have hacc := (hrun i).1
    rw [hev, ← List.cons_append, ← List.append_assoc] at hacc
    have hpaid := hacc.good_of_append rfl rfl
    rw [List.foldl_append, List.foldl_cons, Owed.watch, if_pos rfl] at hpaid
    exact Owed.served hpaid
  · intro i hpos state before mid hev
    have htracked := (hrun i).2
    rw [hev, hpos, ThreadAt.inTurn_same, List.foldl_append, List.foldl_cons, Owed.watch, if_pos rfl] at htracked
    refine ⟨?_, ?_⟩
    · by_cases hs : state = .none
      · exact .inl hs
      · rw [Owed.next_report_shutdown hs] at htracked
        exact .inr (Owed.shutdown_mem htracked.at_machine.1)
    · intro hstate
      exact Owed.served (htracked.at_machine.2 hstate)

/-- The slot is polled with the given result; everything works, and the CAM always has data. -/
def polled (poll : PollStatus) : ThreadEvent 1 :=
  .thread
    { poll := poll
      timedOut := false
      parseAttributes := 0
      setConfigoption := 0
      commandRs := 0
      statusFr := true
      linkInit := reports 0 16
      rxbuf := some fun _ => 0
      readData := .data [1, 0] }

def camPresent : PollStatus := { present := true, changed := false, ready := true }

def camChanged : PollStatus := { present := true, changed := true, ready := true }

/-- A CAM is inserted, the thread brings it to RUNNING and fetches a fragment, and the check behind it
consumes the report of a change; then `poll` comes at the head of the next turn. -/
def changeWhileReading (poll : PollStatus) : List (ThreadEvent 1) :=
  .ioOpen :: List.replicate 18 (polled camPresent) ++
    [polled camChanged, polled camPresent, polled poll, polled camPresent, polled camPresent]

theorem no_camchange_lost_repeated : StepsMeet interfaceStep ReportsRepeated (.init 1) (changeWhileReading camChanged) ∧
      ChangesServed (runTrace interfaceStep (.init 1) (changeWhileReading camChanged)).1
        (runTrace interfaceStep (.init 1) (changeWhileReading camChanged)).2 := by
  have hok : StepsMeet interfaceStep ReportsRepeated (.init 1) (changeWhileReading camChanged) := by decide
  exact ⟨hok, no_camchange_lost hok⟩

/-- The report that the loop over the data consumes is lost if the next poll does not repeat it. -/
theorem camchange_lost : ¬ ∀ (n : Nat) (events : List (ThreadEvent n)),
      ChangesServed (runTrace interfaceStep (.init n) events).1
        (runTrace interfaceStep (.init n) events).2 := by
  intro h
  have hevents : (runTrace interfaceStep (.init 1) (changeWhileReading camPresent)).2 =
      [(0, .report .none), (0, .initialise), (0, .exchange .running)] ++
        (0, .report .running) :: ([] ++ (0, .exchange .running) :: []) := by decide
  obtain ⟨before, after, hmid, -⟩ := (h 1 _).exchanged 0 .running _ _ _ hevents
  simp at hmid

end Runs

end LinuxDvb.CaEn50221
