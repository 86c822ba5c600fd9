import LinuxDvb.LibDvbEn50221.Session

/-!
# Sessions of other connections

A callback of the transport layer concerns the sessions on one connection of one slot, or on one slot. Every
handler keeps all other sessions; only the closing of a connection does not, as it looks at the connection id
but not at the slot.
-/

namespace LinuxDvb.En50221

open SessionLayer

variable {maxSessions : Nat}

def SlEvent.About (k : Fin maxSessions) : SlEvent maxSessions → Prop
  | .allocated n | .session _ _ n _ | .accepted n | .resource _ _ n _ _ => n = k
  | .sent _ _ _ | .connection _ _ _ => False

instance (k : Fin maxSessions) : ∀ e : SlEvent maxSessions, Decidable (e.About k)
  | .allocated n | .session _ _ n _ | .accepted n | .resource _ _ n _ _ =>
    inferInstanceAs (Decidable (n = k))
  | .sent _ _ _ | .connection _ _ _ => isFalse id

def Kept (sl : SessionLayer maxSessions) (k : Fin maxSessions) (r : SlResult maxSessions) : Prop :=
  r.1.sessions k = sl.sessions k ∧ ∀ e ∈ r.2, ¬e.About k

def Busy (sl : SessionLayer maxSessions) (k : Fin maxSessions) : Prop := (sl.sessions k).state ≠ .idle

instance (sl : SessionLayer maxSessions) (k : Fin maxSessions) : Decidable (Busy sl k) :=
  inferInstanceAs (Decidable (_ ≠ _))

def OnConnection (sl : SessionLayer maxSessions) (k : Fin maxSessions) (slotId connectionId : UInt8) :
    Prop :=
  (sl.sessions k).slotId = slotId ∧ (sl.sessions k).connectionId = connectionId

/-- Handling a callback for a connection of a slot keeps the sessions of all others. If the slot is closed,
it keeps the sessions of other slots, and closes those of the slot. -/
def Isolates (sl : SessionLayer maxSessions) (reason : CallbackReason) (slotId connectionId : UInt8)
    (r : SlResult maxSessions) : Prop :=
  if reason = .slotclose then
    (∀ k, Busy sl k → (sl.sessions k).slotId ≠ slotId → Kept sl k r) ∧
      ∀ k, Busy sl k → (sl.sessions k).slotId = slotId →
        r.1.sessions k = { sl.sessions k with state := .idle } ∧
          r.2.filter (fun e => decide (e.About k)) =
            sl.inform (.session .close slotId k (sl.sessions k).resourceId)
  else ∀ k, Busy sl k → ¬OnConnection sl k slotId connectionId → Kept sl k r

section Kept

variable {sl : SessionLayer maxSessions} {k n : Fin maxSessions}

theorem kept_quiet (sl : SessionLayer maxSessions) (k : Fin maxSessions) : Kept sl k (sl, []) :=
  ⟨rfl, fun _ he => nomatch he⟩

theorem not_about_send {slotId connectionId : UInt8} {data : List UInt8} {sendError : Option Int} :
    ∀ e ∈ (send slotId connectionId data sendError : List (SlEvent maxSessions)), ¬e.About k := by
  intro e he
  unfold send at he
  split at he
  · cases he
  · rw [mem_singleton.mp he]
    exact id

theorem not_about_inform {event : SlEvent maxSessions} (h : ¬event.About k) : ∀ e ∈ sl.inform event, ¬e.About k := by
  intro e he
  unfold inform at he
  split at he
  · rw [mem_singleton.mp he]
    exact h
  · cases he

theorem not_about_append {evs evs' : List (SlEvent maxSessions)} (h : ∀ e ∈ evs, ¬e.About k)
    (h' : ∀ e ∈ evs', ¬e.About k) : ∀ e ∈ evs ++ evs', ¬e.About k := by
  intro e he
  rcases mem_append.mp he with hleft | hright
  · exact h e hleft
  · exact h' e hright

theorem Kept.append {r r' : SlResult maxSessions} (h : Kept sl k r) (h' : Kept r.1 k r') :
    Kept sl k (r'.1, r.2 ++ r'.2) := ⟨h'.1.trans h.1, not_about_append h.2 h'.2⟩

theorem kept_setState (h : k ≠ n) (state : SessionState) {evs : List (SlEvent maxSessions)}
    (hevs : ∀ e ∈ evs, ¬e.About k) : Kept sl k (sl.setState n state, evs) :=
  ⟨sessions_setState_of_ne h state, hevs⟩

theorem onConnection_spec {number : Nat} {slotId connectionId : UInt8} {states : List SessionState}
    (h : sl.onConnection number slotId connectionId states = some n) :
    n.val = number ∧ OnConnection sl n slotId connectionId ∧ (sl.sessions n).state ∈ states := by
  unfold SessionLayer.onConnection at h
  rw [Option.filter_eq_some_iff] at h
  obtain ⟨hnumber,hmatch⟩ := h
  simp only [Bool.and_eq_true,decide_eq_true_eq] at hmatch
  unfold toFin? at hnumber
  split at hnumber
  · cases hnumber
    exact ⟨rfl,⟨hmatch.1.1.symm,hmatch.1.2.symm⟩,hmatch.2⟩
  · cases hnumber

theorem ne_of_onConnection {slotId connectionId : UInt8} (hk : ¬OnConnection sl k slotId connectionId)
    (hn : OnConnection sl n slotId connectionId) : k ≠ n := by
  rintro rfl
  exact hk hn

theorem kept_openBegin (hbusy : Busy sl k) (requested : UInt32) (slotId connectionId : UInt8) (io : SlIo) :
    Kept sl k (sl.openBegin requested slotId connectionId io).1 ∧
      ∀ n ∈ (sl.openBegin requested slotId connectionId io).2.number, k ≠ n := by
  rcases sl.openBegin_cases requested slotId connectionId io with
    ⟨error,status,-,heq⟩ | ⟨n,evs,status,hfound,-,-,heq,hevs⟩
  · rw [heq]
    exact ⟨⟨rfl,fun _ he => nomatch he⟩,fun _ hn => nomatch hn⟩
  · have hne : k ≠ n := by
      rintro rfl
      exact hbusy (findIdle_state hfound)
    rw [heq]
    refine ⟨⟨sessions_allocNewSession_of_ne hne _ _ _ _,?_⟩,?_⟩
    · rcases hevs with ⟨-,-,-,rfl⟩ | ⟨-,rfl | rfl⟩ <;> simp [SlEvent.About,hne.symm]
    · rintro n' ⟨⟩
      exact hne

theorem kept_openEnd {pending : OpenPending maxSessions} (h : ∀ n ∈ pending.number, k ≠ n)
    (slotId connectionId : UInt8) (sendError : Option Int) :
    Kept sl k (sl.openEnd slotId connectionId pending sendError) := by
  cases hnumber : pending.number with
  | none =>
    rw [openEnd_of_none sl slotId connectionId hnumber]
    exact ⟨rfl,not_about_send⟩
  | some n =>
    have hne : k ≠ n := h n hnumber
    by_cases hfail : pending.status ≠ sStatusOpen ∨ sendError.isSome
    · rw [openEnd_failed sl slotId connectionId hnumber hfail]
      exact kept_setState hne _ not_about_send
    · rw [not_or,not_not,Bool.not_eq_true,Option.isSome_eq_false_iff,Option.isNone_iff_eq_none] at hfail
      rw [openEnd_opened sl slotId connectionId hnumber hfail.1 hfail.2]
      exact kept_setState hne _ (not_about_append not_about_send (not_about_inform hne.symm))

theorem kept_handleOpenSessionRequest (hbusy : Busy sl k) (data : List UInt8) (slotId connectionId : UInt8)
    (io : SlIo) : Kept sl k (sl.handleOpenSessionRequest data slotId connectionId io) := by
  unfold handleOpenSessionRequest
  split
  · exact kept_quiet sl k
  · obtain ⟨hfirst,hnumber⟩ := kept_openBegin hbusy _ slotId connectionId io
    exact hfirst.append (kept_openEnd hnumber slotId connectionId io.sendError)

theorem SessionLayer.ConcernsOne.kept {slotId connectionId : UInt8} {states : List SessionState}
    {r : SlResult maxSessions} (h : ConcernsOne sl slotId connectionId states r)
    (hother : ¬OnConnection sl k slotId connectionId) : Kept sl k r := by
  rcases h with ⟨hsame,hsent⟩ | ⟨number,n,hfound,hstate,hevs⟩
  · refine ⟨by rw [hsame],?_⟩
    intro e he
    obtain ⟨data,rfl⟩ := hsent e he
    exact id
  · have hne : k ≠ n := ne_of_onConnection hother (onConnection_spec hfound).2.1
    constructor
    · rcases hstate with hsame | ⟨state,hset⟩
      · rw [hsame]
      · rw [hset,sessions_setState_of_ne hne]
    · intro e he
      rcases hevs e he with ⟨data,rfl⟩ | ⟨reason,resourceId,-,rfl⟩ | ⟨callback,resourceId,data,rfl⟩
      · exact id
      · exact hne.symm
      · exact hne.symm

theorem kept_handleSpdu {slotId connectionId : UInt8} (hother : ¬OnConnection sl k slotId connectionId)
    (hbusy : Busy sl k) (spduTag : UInt8) (data : List UInt8) (io : SlIo) :
    Kept sl k (sl.handleSpdu spduTag data slotId connectionId io) := by
  by_cases htag : spduTag = stOpenSessionReq
  · unfold handleSpdu
    rw [if_pos htag]
    exact kept_handleOpenSessionRequest hbusy data slotId connectionId io
  · obtain ⟨states,hone⟩ := handleSpdu_concernsOne sl data slotId connectionId htag io
    exact hone.kept hother

end Kept

section CloseSessions

variable {sl : SessionLayer maxSessions} {k : Fin maxSessions} {p : Session → Bool}

theorem closeSessions_of_not (h : ¬((sl.sessions k).state ≠ .idle ∧ p (sl.sessions k))) :
    Kept sl k (sl.closeSessions p) := by
  unfold closeSessions
  refine ⟨if_neg h,?_⟩
  intro e he
  obtain ⟨n,hn,he⟩ := mem_flatMap.mp he
  have hne : n ≠ k := by
    rintro rfl
    exact h (of_decide_eq_true (mem_filter.mp hn).2)
  refine not_about_inform ?_ e he
  exact hne

theorem filter_flatMap_about {ns : List (Fin maxSessions)} (hnodup : ns.Nodup) (hmem : k ∈ ns)
    (event : Fin maxSessions → SlEvent maxSessions) (hevent : ∀ n, (event n).About k ↔ n = k) :
    (ns.flatMap fun n => sl.inform (event n)).filter (fun e => decide (e.About k)) = sl.inform (event k) := by
  have hother : ∀ n, n ≠ k → (sl.inform (event n)).filter (fun e => decide (e.About k)) = [] := by
    intro n hne
    rw [List.filter_eq_nil_iff]
    intro e he
    rw [decide_eq_true_eq]
    exact not_about_inform (fun h => hne ((hevent n).mp h)) e he
  have hself : (sl.inform (event k)).filter (fun e => decide (e.About k)) = sl.inform (event k) := by
    rw [List.filter_eq_self]
    intro e he
    unfold inform at he
    split at he
    · rw [mem_singleton.mp he,decide_eq_true_eq]
      exact (hevent k).mpr rfl
    · cases he
  induction ns with
  | nil => cases hmem
  | cons n ns ih =>
    rw [nodup_cons] at hnodup
    rw [flatMap_cons,filter_append]
    by_cases hn : n = k
    · subst hn
      have hrest : (ns.flatMap fun m => sl.inform (event m)).filter (fun e => decide (e.About n)) = [] := by
        rw [List.filter_eq_nil_iff]
        intro e he
        obtain ⟨m,hm,he⟩ := mem_flatMap.mp he
        rw [decide_eq_true_eq]
        apply not_about_inform _ e he
        rw [hevent]
        rintro rfl
        exact hnodup.1 hm
      rw [hself,hrest,append_nil]
    · rw [hother n hn,nil_append]
      exact ih hnodup.2 ((mem_cons.mp hmem).resolve_left fun h => hn h.symm)

theorem closeSessions_of (hbusy : (sl.sessions k).state ≠ .idle) (hp : p (sl.sessions k)) :
    (sl.closeSessions p).1.sessions k = { sl.sessions k with state := .idle } ∧
      (sl.closeSessions p).2.filter (fun e => decide (e.About k)) =
        sl.inform (.session .close (sl.sessions k).slotId k (sl.sessions k).resourceId) := by
  unfold closeSessions
  refine ⟨if_pos ⟨hbusy,hp⟩,?_⟩
  apply filter_flatMap_about ((List.nodup_finRange maxSessions).filter _)
  · rw [mem_filter,decide_eq_true_eq]
    exact ⟨List.mem_finRange k,hbusy,hp⟩
  · exact fun n => Iff.rfl

end CloseSessions

/-- A callback of the transport layer keeps the sessions of all other connections exactly if it is not the
closing of a connection whose id a session of another slot has. -/
theorem isolates_iff (sl : SessionLayer maxSessions) (reason : CallbackReason) (data : List UInt8)
    (slotId connectionId : UInt8) (io : SlIo) :
    Isolates sl reason slotId connectionId (sl.transportCallback reason data slotId connectionId io) ↔
      (reason = .connectionclose → ∀ k, Busy sl k → (sl.sessions k).connectionId = connectionId →
        (sl.sessions k).slotId = slotId) := by
  unfold Isolates transportCallback
  cases reason with
  | connectionopen =>
    rw [if_neg (by decide)]
    exact iff_of_true (fun k _ _ => ⟨rfl, not_about_inform id⟩) fun h => nomatch h
  | camconnectionopen =>
    rw [if_neg (by decide)]
    exact iff_of_true (fun k _ _ => ⟨rfl, not_about_inform id⟩) fun h => nomatch h
  | data =>
    rw [if_neg (by decide)]
    refine iff_of_true ?_ fun h => nomatch h
    intro k hbusy hother
    cases data with
    | nil => exact kept_quiet sl k
    | cons spduTag data => exact kept_handleSpdu hother hbusy spduTag data io
  | slotclose =>
    rw [if_pos rfl]
    refine iff_of_true ⟨?_, ?_⟩ fun h => nomatch h
    · intro k hbusy hslot
      apply closeSessions_of_not
      rintro ⟨-, heq⟩
      exact hslot (beq_iff_eq.mp heq)
    · intro k hbusy hslot
      have hclosed := closeSessions_of (p := fun session => session.slotId == slotId) hbusy
        (beq_iff_eq.mpr hslot)
      rw [hslot] at hclosed
      exact hclosed
  | connectionclose =>
    rw [if_neg (by decide)]
    constructor
    · intro h _ k hbusy hconn
      by_contra hslot
      have hkept := (h k hbusy fun hon => hslot hon.1).1
      have hclosed := (closeSessions_of (p := fun session => session.connectionId == connectionId) hbusy
        (beq_iff_eq.mpr hconn)).1
      rw [hclosed] at hkept
      exact hbusy (congrArg Session.state hkept).symm
    · intro h k hbusy hother
      apply closeSessions_of_not
      rintro ⟨-, heq⟩
      have hconn := beq_iff_eq.mp heq
      exact hother ⟨h rfl k hbusy hconn, hconn⟩

def twoSlots : SessionLayer 3 where
  lookup := true
  session := true
  error := 0
  sessions := fun n => ⟨if n = 0 then .idle else .active, 0x00030041, if n = 1 then 0 else 1, 1, none⟩

def refusing : SlIo := ⟨fun _ id => ⟨-1, none, id⟩, false, none⟩

/-- The module in slot 0 deletes its connection, and the session of slot 1 is closed too. -/
theorem connection_close_not_isolated : ¬Isolates twoSlots .connectionclose 0 1
      (twoSlots.transportCallback .connectionclose [] 0 1 refusing) := by
  intro h
  obtain ⟨hsame, -⟩ := h 2 (by decide) (fun hon => absurd hon.1 (by decide))
  exact absurd (congrArg Session.state hsame) (by decide)

end LinuxDvb.En50221
