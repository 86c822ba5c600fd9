import LinuxDvb.LibDvbEn50221.Session

/-!
# Open requests

If the session callback accepts an open request, it is told later whether the session was opened. The code
reports so only if the response was sent: a session that is set idle is not active any more when the callback
is about to be called.
-/

namespace LinuxDvb.En50221

open SessionLayer

variable {maxSessions : Nat}

def SlEvent.resolves (n : Fin maxSessions) : SlEvent maxSessions → Bool
  | .session .camconnected _ k _ | .session .camconnectfail _ k _ => decide (k = n)
  | _ => false

/-- Every open request that was accepted is resolved once before its number is used again. -/
def AllResolved (evs : List (SlEvent maxSessions)) : Prop :=
  ∀ pre n post, evs = pre ++ .accepted n :: post →
    (post.takeWhile fun e => decide (e ≠ .allocated n)).countP (SlEvent.resolves n) = 1

def acceptedNumber (sl : SessionLayer maxSessions) (requested : UInt32) (slotId : UInt8) (io : SlIo) :
    Option (Fin maxSessions) :=
  if sl.lookup ∧ openStatus (io.lookup slotId requested).status = sStatusOpen ∧ sl.session ∧ io.accept then
    sl.findIdle
  else none

/-- If the request is accepted, the response is sent, and the calls that are made meanwhile neither leave the
session layer without session callback nor give the number to another session. -/
def OpenCompletes (sl : SessionLayer maxSessions) (requested : UInt32) (slotId connectionId : UInt8)
    (io : SlIo) (meanwhile : List (SlCall maxSessions)) : Prop :=
  let between := runTrace call (sl.openBegin requested slotId connectionId io).1.1 meanwhile
  ∀ n ∈ acceptedNumber sl requested slotId io,
    io.sendError = none ∧ between.1.session = true ∧ .allocated n ∉ between.2

instance (sl : SessionLayer maxSessions) (requested : UInt32) (slotId connectionId : UInt8) (io : SlIo)
    (meanwhile : List (SlCall maxSessions)) :
    Decidable (OpenCompletes sl requested slotId connectionId io meanwhile) :=
  inferInstanceAs (Decidable (∀ n ∈ acceptedNumber sl requested slotId io, _ ∧ _ ∧ _))

def CompletesOpen (sl : SessionLayer maxSessions) : SlInput maxSessions → Prop
  | .callback .data (tag :: data) slotId connectionId io => tag = stOpenSessionReq →
      ∀ requested ∈ parseOpenRequest data, OpenCompletes sl requested slotId connectionId io []
  | .openRequest data slotId connectionId io meanwhile =>
      ∀ requested ∈ parseOpenRequest data, OpenCompletes sl requested slotId connectionId io meanwhile
  | _ => True

inductive OpenPhase where
  | fresh | pending | resolved
  deriving DecidableEq

def OpenPhase.next (n : Fin maxSessions) (phase : OpenPhase) (e : SlEvent maxSessions) : OpenPhase :=
  if e = .allocated n then .fresh
  else if e = .accepted n then .pending
  else if e.resolves n then .resolved
  else phase

/-- A number is not used again while a request is pending, a request is accepted for a fresh session, and
only a pending request is resolved. -/
structure OpenPhase.Good (n : Fin maxSessions) (phase : OpenPhase) (e : SlEvent maxSessions) : Prop where
  allocated : e = .allocated n → phase ≠ .pending
  accepted : e = .accepted n → phase = .fresh
  resolves : e.resolves n = true → phase = .pending

section Phases

variable {n : Fin maxSessions} {evs : List (SlEvent maxSessions)} {phase : OpenPhase}

theorem countP_resolves (h : Accepts (OpenPhase.next n) (OpenPhase.Good n) phase evs)
    (hend : evs.foldl (OpenPhase.next n) phase ≠ .pending) (hphase : phase ≠ .fresh) :
    (evs.takeWhile fun e => decide (e ≠ .allocated n)).countP (SlEvent.resolves n) =
      if phase = .pending then 1 else 0 := by
  induction evs generalizing phase with
  | nil => exact (if_neg hend).symm
  | cons e evs ih =>
    obtain ⟨hgood,hrest⟩ := h
    by_cases halloc : e = .allocated n
    · subst halloc
      rw [if_neg (hgood.allocated rfl)]
      simp
    · have haccept : e ≠ .accepted n := fun he => hphase (hgood.accepted he)
      rw [takeWhile_cons,if_pos (decide_eq_true halloc),List.countP_cons]
      by_cases hresolves : e.resolves n = true
      · have hnext : OpenPhase.next n phase e = .resolved := by
          unfold OpenPhase.next
          rw [if_neg halloc,if_neg haccept,if_pos hresolves]
        rw [foldl_cons,hnext] at hend
        rw [hnext] at hrest
        rw [ih hrest hend (by decide),hgood.resolves hresolves,if_pos hresolves]
        rfl
      · have hnext : OpenPhase.next n phase e = phase := by
          unfold OpenPhase.next
          rw [if_neg halloc,if_neg haccept,if_neg hresolves]
        rw [foldl_cons,hnext] at hend
        rw [hnext] at hrest
        rw [ih hrest hend hphase,if_neg hresolves,Nat.add_zero]

theorem allResolved_of_accepts (h : ∀ n : Fin maxSessions, Accepts (OpenPhase.next n) (OpenPhase.Good n) .fresh evs ∧
      evs.foldl (OpenPhase.next n) .fresh ≠ .pending) : AllResolved evs := by
  intro pre n post heq
  obtain ⟨haccepts,hend⟩ := h n
  rw [heq,accepts_append,accepts_cons] at haccepts
  rw [heq,foldl_append,foldl_cons] at hend
  have hnext (m : OpenPhase) : OpenPhase.next n m (.accepted n) = .pending := by
    unfold OpenPhase.next
    rw [if_neg (fun h => nomatch h),if_pos rfl]
  rw [hnext] at haccepts hend
  rw [countP_resolves haccepts.2.2 hend (by decide),if_pos rfl]

def Unrelated (n : Fin maxSessions) (e : SlEvent maxSessions) : Prop :=
  e ≠ .accepted n ∧ e.resolves n = false

theorem Unrelated.next {e : SlEvent maxSessions} (h : Unrelated n e) (phase : OpenPhase) :
    OpenPhase.next n phase e = if e = .allocated n then .fresh else phase := by
  unfold OpenPhase.next
  rw [if_neg h.1,h.2,if_neg Bool.false_ne_true]

def Settles (n : Fin maxSessions) (phase : OpenPhase) (evs : List (SlEvent maxSessions)) : Prop :=
  Accepts (OpenPhase.next n) (OpenPhase.Good n) phase evs ∧ evs.foldl (OpenPhase.next n) phase ≠ .pending

theorem settles_of_unrelated (hphase : phase ≠ .pending) (h : ∀ e ∈ evs, Unrelated n e) : Settles n phase evs := by
  induction evs generalizing phase with
  | nil => exact ⟨trivial,hphase⟩
  | cons e evs ih =>
    obtain ⟨hquiet,hrest⟩ := forall_mem_cons.mp h
    have hnext : OpenPhase.next n phase e ≠ .pending := by
      rw [hquiet.next]
      split
      · decide
      · exact hphase
    obtain ⟨haccepts,hend⟩ := ih hnext hrest
    refine ⟨⟨⟨fun _ => hphase,fun he => absurd he hquiet.1,?_⟩,haccepts⟩,hend⟩
    intro hresolves
    rw [hquiet.2] at hresolves
    cases hresolves

theorem pending_of_unrelated (h : ∀ e ∈ evs, Unrelated n e) (halloc : .allocated n ∉ evs) :
    Accepts (OpenPhase.next n) (OpenPhase.Good n) .pending evs ∧
      evs.foldl (OpenPhase.next n) .pending = .pending := by
  induction evs with
  | nil => exact ⟨trivial,rfl⟩
  | cons e evs ih =>
    obtain ⟨hquiet,hrest⟩ := forall_mem_cons.mp h
    rw [mem_cons,not_or] at halloc
    obtain ⟨haccepts,hend⟩ := ih hrest halloc.2
    have hnext : OpenPhase.next n .pending e = .pending := by
      rw [hquiet.next,if_neg (Ne.symm halloc.1)]
    rw [accepts_cons,foldl_cons,hnext]
    refine ⟨⟨⟨fun he => absurd he.symm halloc.1,fun he => absurd he hquiet.1,fun _ => rfl⟩,haccepts⟩,hend⟩

theorem unrelated_append {evs' : List (SlEvent maxSessions)} (h : ∀ e ∈ evs, Unrelated n e)
    (h' : ∀ e ∈ evs', Unrelated n e) : ∀ e ∈ evs ++ evs', Unrelated n e := by
  intro e he
  rcases mem_append.mp he with hleft | hright
  · exact h e hleft
  · exact h' e hright

end Phases

section Unrelated

variable {n : Fin maxSessions} (sl : SessionLayer maxSessions)

theorem unrelated_send (slotId connectionId : UInt8) (data : List UInt8) (sendError : Option Int) :
    ∀ e ∈ send slotId connectionId data sendError, Unrelated n e := by
  unfold send
  split
  · simp
  · simp [Unrelated,SlEvent.resolves]

theorem unrelated_inform {event : SlEvent maxSessions} (h : Unrelated n event) :
    ∀ e ∈ sl.inform event, Unrelated n e := by
  unfold inform
  split
  · simpa using h
  · simp

theorem unrelated_closeSessions (p : Session → Bool) : ∀ e ∈ (sl.closeSessions p).2, Unrelated n e := by
  intro e he
  unfold closeSessions at he
  obtain ⟨k,-,he⟩ := mem_flatMap.mp he
  exact unrelated_inform sl (by simp [Unrelated,SlEvent.resolves]) e he

theorem unrelated_of_onlySends {sl : SessionLayer maxSessions} {r : SlResult maxSessions}
    (h : sl.OnlySends r) : ∀ e ∈ r.2, Unrelated n e := by
  intro e he
  obtain ⟨slotId,connectionId,data,rfl⟩ := h.2.2 e he
  exact ⟨fun h => (nomatch h),rfl⟩

theorem unrelated_call (c : SlCall maxSessions) : ∀ e ∈ (sl.call c).2, Unrelated n e := by
  cases c with
  | createSession slotId connectionId resourceId callback sendError =>
    change ∀ e ∈ (sl.createSession slotId connectionId resourceId callback sendError).1.2, Unrelated n e
    rcases sl.createSession_cases slotId connectionId resourceId callback sendError with
      heq | ⟨k,-,⟨data,heq⟩ | ⟨error,heq⟩⟩
    · simp [heq]
    · simp [heq,Unrelated,SlEvent.resolves]
    · simp [heq,Unrelated,SlEvent.resolves]
  | destroySession number sendError =>
    change ∀ e ∈ (sl.destroySession number sendError).1.2, Unrelated n e
    rcases sl.destroySession_cases number sendError with
      heq | ⟨k,-,-,⟨-,heq⟩ | ⟨error,-,heq⟩⟩
    · simp [heq]
    · simp [heq,Unrelated,SlEvent.resolves]
    · simp [heq]
  | sendData number data sendError => exact unrelated_of_onlySends (sendBytes_onlySends sl _ _ _ _)
  | sendDatav number vector sendError => exact unrelated_of_onlySends (sendBytes_onlySends sl _ _ _ _)
  | broadcastData slotId resourceId data sendError =>
    exact unrelated_of_onlySends (broadcastData_onlySends sl _ _ _ _)
  | registerLookupCallback lookup => exact fun _ he => nomatch he
  | registerSessionCallback session => exact fun _ he => nomatch he
  | destroySlot slotId => exact unrelated_closeSessions sl _

theorem unrelated_calls (cs : List (SlCall maxSessions)) :
    ∀ e ∈ (runTrace SessionLayer.call sl cs).2, Unrelated n e := by
  induction cs generalizing sl with
  | nil => exact fun _ he => nomatch he
  | cons c cs ih =>
    rw [runTrace_cons]
    exact unrelated_append (unrelated_call sl c) (ih _)

theorem SessionLayer.ConcernsOne.unrelated {sl : SessionLayer maxSessions} {slotId connectionId : UInt8}
    {states : List SessionState} {r : SlResult maxSessions}
    (h : ConcernsOne sl slotId connectionId states r) : ∀ e ∈ r.2, Unrelated n e := by
  intro e he
  rcases h with ⟨-,hsent⟩ | ⟨number,k,-,-,hevs⟩
  · obtain ⟨data,rfl⟩ := hsent e he
    exact ⟨fun h => (nomatch h),rfl⟩
  · rcases hevs e he with ⟨data,rfl⟩ | ⟨reason,resourceId,hreason,rfl⟩ | ⟨callback,resourceId,data,rfl⟩
    · exact ⟨fun h => (nomatch h),rfl⟩
    · refine ⟨fun h => (nomatch h),?_⟩
      cases reason with
      | camconnected => exact absurd hreason (by decide)
      | camconnectfail => exact absurd hreason (by decide)
      | camconnecting => rfl
      | connected => rfl
      | connectfail => rfl
      | close => rfl
    · exact ⟨fun h => (nomatch h),rfl⟩

end Unrelated

theorem settles_opened {n : Fin maxSessions} {phase : OpenPhase} (hphase : phase ≠ .pending)
    {evs : List (SlEvent maxSessions)} (hcalls : ∀ e ∈ evs, Unrelated n e) (halloc : .allocated n ∉ evs)
    (slotId connectionId : UInt8) (resourceId : UInt32) (response : List UInt8) :
    Settles n phase ([.allocated n, .session .camconnecting slotId n resourceId, .accepted n] ++ evs ++
      (send slotId connectionId response none ++ [.session .camconnected slotId n resourceId])) := by
  have hbegin : Accepts (OpenPhase.next n) (OpenPhase.Good n) phase
      [.allocated n, .session .camconnecting slotId n resourceId, .accepted n] := by
    refine ⟨⟨fun _ => hphase,fun he => (nomatch he),fun he => (nomatch he)⟩,
      ⟨fun he => (nomatch he),fun he => (nomatch he),fun he => (nomatch he)⟩,
      ⟨fun he => (nomatch he),fun _ => ?_,fun he => (nomatch he)⟩,trivial⟩
    simp [OpenPhase.next,SlEvent.resolves]
  have hpending : [.allocated n, .session .camconnecting slotId n resourceId, .accepted n].foldl
      (OpenPhase.next n) phase = .pending := by
    simp [OpenPhase.next]
  have hquiet := unrelated_append hcalls (unrelated_send (n := n) slotId connectionId response none)
  have hmissing : .allocated n ∉ evs ++ send slotId connectionId response none := by
    rw [mem_append,not_or]
    exact ⟨halloc,by simp [send]⟩
  obtain ⟨hmiddle,hstill⟩ := pending_of_unrelated hquiet hmissing
  rw [append_assoc,← append_assoc evs]
  generalize evs ++ send slotId connectionId response none = calls at hmiddle hstill
  unfold Settles
  rw [accepts_append,accepts_append,foldl_append,foldl_append,hpending,hstill]
  refine ⟨⟨hbegin,hmiddle,⟨fun he => (nomatch he),fun he => (nomatch he),fun _ => rfl⟩,trivial⟩,?_⟩
  simp [OpenPhase.next,SlEvent.resolves]

theorem openRequest_settles {n : Fin maxSessions} {phase : OpenPhase} (hphase : phase ≠ .pending)
    (sl : SessionLayer maxSessions) (requested : UInt32) (slotId connectionId : UInt8) (io : SlIo)
    (meanwhile : List (SlCall maxSessions))
    (hcompletes : OpenCompletes sl requested slotId connectionId io meanwhile) :
    let first := sl.openBegin requested slotId connectionId io
    let between := runTrace call first.1.1 meanwhile
    Settles n phase (first.1.2 ++ between.2 ++
      (between.1.openEnd slotId connectionId first.2 io.sendError).2) := by
  intro first between
  have hcalls : ∀ e ∈ between.2, Unrelated n e := unrelated_calls _ meanwhile
  rcases sl.openBegin_cases requested slotId connectionId io with
    ⟨error,status,-,heq⟩ | ⟨k,evs,status,hfound,hlookup,hstatus,heq,hevs⟩
  · -- refused: there is only the response
    have hnumber : first.2.number = none := by
      change (sl.openBegin requested slotId connectionId io).2.number = none
      rw [heq]
    have hfirst : first.1.2 = [] := by
      change (sl.openBegin requested slotId connectionId io).1.2 = []
      rw [heq]
    rw [openEnd_of_none between.1 slotId connectionId hnumber,hfirst,nil_append]
    exact settles_of_unrelated hphase (unrelated_append hcalls (unrelated_send _ _ _ _))
  · have hnumber : first.2.number = some k := by
      change (sl.openBegin requested slotId connectionId io).2.number = some k
      rw [heq]
    have hpending : first.2.status = status := by
      change (sl.openBegin requested slotId connectionId io).2.status = status
      rw [heq]
    have hfirst : first.1.2 = .allocated k :: evs := by
      change (sl.openBegin requested slotId connectionId io).1.2 = .allocated k :: evs
      rw [heq]
    rcases hevs with ⟨hsession,haccept,hopen,rfl⟩ | ⟨hopen,hevs⟩
    · -- accepted: the response is sent, and the callback is told
      have hresult := hcompletes k (by
        unfold acceptedNumber
        rw [if_pos ⟨hlookup,hstatus,hsession,haccept⟩,hfound]
        rfl)
      obtain ⟨hsend,hregistered,halloc⟩ := hresult
      rw [openEnd_opened between.1 slotId connectionId hnumber (hpending.trans hopen) hsend,hfirst]
      have hinform : between.1.inform (.session .camconnected slotId k first.2.resourceId) =
          [.session .camconnected slotId k first.2.resourceId] := by
        unfold inform
        rw [if_pos hregistered]
      rw [hinform]
      by_cases hk : k = n
      · subst hk
        have hresource : first.2.resourceId = (io.lookup slotId requested).resourceId := by
          change (sl.openBegin requested slotId connectionId io).2.resourceId = _
          rw [heq]
        rw [hresource]
        exact settles_opened hphase hcalls halloc slotId connectionId _ _
      · apply settles_of_unrelated hphase
        apply unrelated_append (unrelated_append _ hcalls) (unrelated_append (unrelated_send _ _ _ _) _)
        · simp [Unrelated,SlEvent.resolves,hk]
        · simp [Unrelated,SlEvent.resolves,hk]
    · -- not accepted: the session becomes idle again
      rw [openEnd_failed between.1 slotId connectionId hnumber (.inl (by rw [hpending]; exact hopen)),hfirst]
      apply settles_of_unrelated hphase
      apply unrelated_append (unrelated_append _ hcalls) (unrelated_send _ _ _ _)
      rcases hevs with rfl | rfl
      · simp [Unrelated,SlEvent.resolves]
      · simp [Unrelated,SlEvent.resolves]

theorem step_settles {n : Fin maxSessions} {phase : OpenPhase} (hphase : phase ≠ .pending)
    (sl : SessionLayer maxSessions) {op : SlInput maxSessions} (hop : CompletesOpen sl op) :
    Settles n phase (slStep sl op).2 := by
  cases op with
  | call c => exact settles_of_unrelated hphase (unrelated_call sl c)
  | openRequest data slotId connectionId io meanwhile =>
    unfold slStep
    dsimp only
    cases hparse : parseOpenRequest data with
    | none => exact settles_of_unrelated hphase fun _ he => nomatch he
    | some requested =>
      exact openRequest_settles hphase sl requested slotId connectionId io meanwhile (hop requested hparse)
  | callback reason data slotId connectionId io =>
    cases reason with
    | connectionopen =>
      exact settles_of_unrelated hphase (unrelated_inform sl ⟨fun h => (nomatch h),rfl⟩)
    | camconnectionopen =>
      exact settles_of_unrelated hphase (unrelated_inform sl ⟨fun h => (nomatch h),rfl⟩)
    | connectionclose => exact settles_of_unrelated hphase (unrelated_closeSessions sl _)
    | slotclose => exact settles_of_unrelated hphase (unrelated_closeSessions sl _)
    | data =>
      cases data with
      | nil => exact settles_of_unrelated hphase fun _ he => nomatch he
      | cons tag data =>
        change Settles n phase (sl.handleSpdu tag data slotId connectionId io).2
        by_cases htag : tag = stOpenSessionReq
        · unfold handleSpdu handleOpenSessionRequest
          rw [if_pos htag]
          cases hparse : parseOpenRequest data with
          | none => exact settles_of_unrelated hphase fun _ he => nomatch he
          | some requested =>
            have hsettles := openRequest_settles (n := n) hphase sl requested slotId connectionId io []
              (hop htag requested hparse)
            simpa using hsettles
        · obtain ⟨states,hone⟩ := handleSpdu_concernsOne sl data slotId connectionId htag io
          exact settles_of_unrelated hphase hone.unrelated

/-- In a run in which the response to every accepted open request is sent, while the session callback stays
registered and the number is not used otherwise, every accepted request is resolved. -/
theorem open_requests_resolved (uninitialised : Fin maxSessions → Session)
    {ops : List (SlInput maxSessions)} (h : StepsMeet slStep CompletesOpen (slCreate uninitialised) ops) :
    AllResolved (runTrace slStep (slCreate uninitialised) ops).2 := by
  have hfresh : OpenPhase.fresh ≠ .pending := by decide
  refine allResolved_of_accepts fun n => ?_
  exact runTrace_accepted (fun (_ : SessionLayer maxSessions) (phase : OpenPhase) => phase ≠ .pending)
    (fun sl _ _ hphase hop => step_settles hphase sl hop) hfresh h

/-- The callbacks of a user that has the resource 0x00030041 and accepts a session for it. -/
def accepting (sendError : Option Int) : SlIo :=
  ⟨fun _ id => if id = 0x00030041 then ⟨0, none, id⟩ else ⟨-1, none, id⟩, true, sendError⟩

def opening (sendError : Option Int) : List (SlInput 2) :=
  [.call (.registerLookupCallback true), .call (.registerSessionCallback true),
    .callback .data [stOpenSessionReq, 4, 0, 3, 0, 0x41] 0 1 (accepting sendError)]

def unset : Session := ⟨.idle, 0, 0, 0, none⟩

theorem open_requests_resolved_sent : StepsMeet slStep CompletesOpen (slCreate fun _ => unset) (opening none) ∧
      AllResolved (runTrace slStep (slCreate fun _ => unset) (opening none)).2 := by
  have hcompletes : StepsMeet slStep CompletesOpen (slCreate fun _ => unset) (opening none) := by
    refine ⟨trivial, trivial, fun _ requested hparse => ?_, trivial⟩
    cases hparse
    decide
  exact ⟨hcompletes, open_requests_resolved _ hcompletes⟩

/-- The transport layer has no memory for the response. -/
theorem open_request_not_resolved :
    ¬AllResolved (runTrace slStep (slCreate fun _ => unset) (opening (some errOutofmemory))).2 := by
  have hevs : (runTrace slStep (slCreate fun _ => unset) (opening (some errOutofmemory))).2 =
      [.allocated 1, .session .camconnecting 0 1 0x00030041, .accepted 1] := by
    decide
  rw [hevs]
  intro h
  exact absurd (h [.allocated 1, .session .camconnecting 0 1 0x00030041] 1 [] rfl) (by decide)

end LinuxDvb.En50221
