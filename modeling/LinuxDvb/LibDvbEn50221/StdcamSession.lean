import LinuxDvb.LibDvbEn50221.Stdcam
import LinuxDvb.LibDvbEn50221.SessionHandshake
import LinuxDvb.LibDvbEn50221.SessionOpen

/-!
# The sessions of a stdcam

The stdcam keeps the number of the session of each limited resource, and refuses another session while there is one.
-/

namespace LinuxDvb.En50221

open SessionLayer

variable {maxSessions : Nat}

/-- The session callback of the stdcam is told of an event; its parameter for the number has 16 bits. -/
def Llci.hear (llci : Llci) : SlEvent maxSessions → Llci × List LlciEvent
  | .session reason _ n resourceId => llci.sessionCallback reason (UInt16.ofNat n.val) resourceId
  | _ => (llci, [])

/-- A stdcam, and the session layer where it has registered its callbacks. -/
structure SessionStack (maxSessions : Nat) where
  llci : Llci
  sl : SessionLayer maxSessions

/-- A callback of the transport layer, with what it meets; `llci_cam_in_reset`, which sets the state and the
slot; or `llci_cam_removed`. -/
inductive StackInput where
  | callback (reason : CallbackReason) (data : List UInt8) (slotId connectionId : UInt8)
    (sendError : Option Int) (uninitialised : UInt32)
  | inReset (state : StdcamStatus) (tlSlotId : Int)
  | camRemoved

namespace SessionStack

def io (s : SessionStack maxSessions) (sendError : Option Int) (uninitialised : UInt32) : SlIo :=
  ⟨fun _ requested => s.llci.lookupCallback uninitialised requested, true, sendError⟩

def told (s : SessionStack maxSessions) (r : SlResult maxSessions) :
    SessionStack maxSessions × List (SlEvent maxSessions ⊕ LlciEvent) :=
  let heard := runTrace Llci.hear s.llci r.2
  (⟨heard.1, r.1⟩, r.2.map .inl ++ heard.2.map .inr)

end SessionStack

def stackStep (s : SessionStack maxSessions) :
    StackInput → SessionStack maxSessions × List (SlEvent maxSessions ⊕ LlciEvent)
  | .callback reason data slotId connectionId sendError uninitialised =>
    s.told (s.sl.transportCallback reason data slotId connectionId (s.io sendError uninitialised))
  | .inReset state tlSlotId => (⟨{ s.llci with state := state, tlSlotId := tlSlotId }, s.sl⟩, [])
  | .camRemoved =>
    if s.llci.tlSlotId ≠ -1 then
      let closed := s.told (s.sl.call (.destroySlot (UInt8.ofInt s.llci.tlSlotId)))
      (⟨closed.1.llci.removed, closed.1.sl⟩, closed.2)
    else (⟨s.llci.removed, s.sl⟩, [])

/-- `en50221_stdcam_llci_create` on a session layer that was just created. -/
def stackCreate (cafd : Nat) (slotnum : UInt8) (uninitialised : Fin maxSessions → Session) :
    SessionStack maxSessions where
  llci := Llci.create cafd slotnum
  sl := { slCreate uninitialised with lookup := true, session := true }

def openSessionRequest (resourceId : UInt32) : List UInt8 :=
  stOpenSessionReq :: 4 :: resourceIdBytes resourceId

def ActiveFor (s : SessionStack maxSessions) (l : Limited) (n : Fin maxSessions) : Prop :=
  (s.sl.sessions n).state = .active ∧ (s.sl.sessions n).resourceId = l.resourceId

/-- Every number is -1 or that of an active session for the resource, of which there is one at most. While
there is none, a request for the resource is granted if a session is free and the response can be sent. -/
structure TracksSessions (s : SessionStack maxSessions) : Prop where
  tracked : ∀ l, s.llci.sessionNumber l = -1 ∨ ∃ n, s.llci.sessionNumber l = n.val ∧ ActiveFor s l n
  unique : ∀ l n k, ActiveFor s l n → ActiveFor s l k → n = k
  reopens : ∀ l, (∀ n, ¬ActiveFor s l n) → s.sl.findIdle.isSome → ∀ slotId connectionId uninitialised,
    ∃ n, ActiveFor (stackStep s (.callback .data (openSessionRequest l.resourceId) slotId connectionId none
      uninitialised)).1 l n

/-- The session is closed if it is active: its connection or its slot is, or the module asks for it. -/
def Closes (sl : SessionLayer maxSessions) (reason : CallbackReason) (data : List UInt8)
    (slotId connectionId : UInt8) (n : Fin maxSessions) : Prop :=
  match reason, data with
  | .connectionclose, _ => (sl.sessions n).connectionId = connectionId
  | .slotclose, _ => (sl.sessions n).slotId = slotId
  | .data, tag :: length :: high :: low :: _ =>
    tag = stCloseSessionReq ∧ length = 2 ∧ sessionNumber high low = n.val ∧
      OnConnection sl n slotId connectionId
  | _, _ => False

/-- A request for a resource is granted: the stdcam has the resource, there is a free session, and the
response can be sent. -/
def Grants (s : SessionStack maxSessions) (reason : CallbackReason) (data : List UInt8)
    (sendError : Option Int) (uninitialised : UInt32) (n : Fin maxSessions) (resourceId : UInt32) : Prop :=
  match reason, data with
  | .data, tag :: data =>
    tag = stOpenSessionReq ∧ (∃ requested, parseOpenRequest data = some requested ∧
      (s.llci.lookupCallback uninitialised requested).status = 0 ∧
      (s.llci.lookupCallback uninitialised requested).resourceId = resourceId) ∧
      sendError = none ∧ s.sl.findIdle = some n
  | _, _ => False

/-- No session whose number is kept is closed unless the CAM is removed. A request for a limited resource is
granted only if no session for it is active, and the new number fits in 16 bits. -/
def KeepsTrack (s : SessionStack maxSessions) : StackInput → Prop
  | .callback reason data slotId connectionId sendError uninitialised =>
    (∀ (l : Limited) (n : Fin maxSessions), s.llci.sessionNumber l = n.val →
      ¬Closes s.sl reason data slotId connectionId n) ∧
    ∀ (l : Limited) n, Grants s reason data sendError uninitialised n l.resourceId →
      (∀ k, ¬ActiveFor s l k) ∧ n.val < 2 ^ 16
  | .inReset _ _ | .camRemoved => True

def SessionLayer.activeResource (sl : SessionLayer maxSessions) (n : Fin maxSessions) : Option UInt32 :=
  if (sl.sessions n).state = .active then some (sl.sessions n).resourceId else none

theorem activeFor_iff {s : SessionStack maxSessions} {l : Limited} {n : Fin maxSessions} :
    ActiveFor s l n ↔ s.sl.activeResource n = some l.resourceId := by
  unfold ActiveFor activeResource
  split
  · rename_i hstate
    simp [hstate]
  · rename_i hstate
    simp [hstate]

theorem limited_resourceId (l : Limited) : limited l.resourceId = some l := by
  cases l <;> decide

theorem eq_resourceId_of_limited {resourceId : UInt32} {l : Limited} (h : limited resourceId = some l) :
    resourceId = l.resourceId := by
  unfold limited at h
  split at h
  · cases h
    assumption
  split at h
  · cases h
    assumption
  split at h
  · cases h
    assumption
  split at h
  · cases h
    assumption
  · cases h

theorem resourceId_injective : Function.Injective Limited.resourceId := by
  intro l l' h
  have hlimited := limited_resourceId l
  rw [h,limited_resourceId] at hlimited
  exact (Option.some.inj hlimited).symm

theorem sessionNumber_camconnected (llci : Llci) (number : UInt16) (resourceId : UInt32) (l : Limited) :
    (llci.sessionCallback .camconnected number resourceId).1.sessionNumber l =
      if resourceId = l.resourceId then (number.toNat : Int) else llci.sessionNumber l := by
  unfold Llci.sessionCallback
  dsimp only
  cases hlimited : limited resourceId with
  | none =>
    have hne : resourceId ≠ l.resourceId := by
      rintro rfl
      rw [limited_resourceId] at hlimited
      cases hlimited
    rw [if_neg hne]
  | some l' =>
    rw [eq_resourceId_of_limited hlimited]
    dsimp only
    by_cases hl : l = l'
    · subst hl
      simp
    · rw [Function.update_of_ne hl,if_neg (fun h => hl (resourceId_injective h).symm)]

theorem hear_unrelated (llci : Llci) {evs : List (SlEvent maxSessions)}
    (h : ∀ n, ∀ e ∈ evs, Unrelated n e) : runTrace Llci.hear llci evs = (llci, []) := by
  induction evs with
  | nil => rfl
  | cons e evs ih =>
    have hfirst : llci.hear e = (llci, []) := by
      cases e with
      | session reason slotId n resourceId =>
        cases reason with
        | camconnected =>
          have hresolves := (h n _ mem_cons_self).2
          simp [SlEvent.resolves] at hresolves
        | camconnecting => rfl
        | camconnectfail => rfl
        | connected => rfl
        | connectfail => rfl
        | close => rfl
      | allocated n => rfl
      | sent slotId connectionId data => rfl
      | connection cam slotId connectionId => rfl
      | accepted n => rfl
      | resource callback slotId n resourceId data => rfl
    rw [runTrace_cons,hfirst,ih fun n e he => h n e (mem_cons_of_mem _ he)]
    rfl

/-- The stdcam is asked and told, and no session waits for a response of the module. -/
structure Listening (sl : SessionLayer maxSessions) : Prop where
  lookup : sl.lookup = true
  session : sl.session = true
  settled : ∀ n, (sl.sessions n).state = .idle ∨ (sl.sessions n).state = .active

/-- A step that closes sessions and does nothing else that matters to the stdcam. -/
structure ClosesOnly (sl : SessionLayer maxSessions) (p : Fin maxSessions → Prop)
    (r : SlResult maxSessions) : Prop where
  closed : ∀ n, p n → r.1.activeResource n = none
  kept : ∀ n, ¬p n → r.1.activeResource n = sl.activeResource n
  unheard : ∀ llci : Llci, runTrace Llci.hear llci r.2 = (llci, [])
  listening : Listening r.1

section Steps

variable {sl : SessionLayer maxSessions}

variable {n : Fin maxSessions}

theorem activeResource_idle (h : (sl.sessions n).state = .idle) : sl.activeResource n = none := by
  unfold activeResource
  rw [h]
  rfl

theorem activeResource_congr {sl' : SessionLayer maxSessions}
    (h : sl'.sessions n = sl.sessions n) : sl'.activeResource n = sl.activeResource n := by
  unfold activeResource
  rw [h]

theorem ClosesOnly.of_same {sl' : SessionLayer maxSessions} (hl : Listening sl)
    (hsessions : sl'.sessions = sl.sessions) (hlookup : sl'.lookup = sl.lookup)
    (hsession : sl'.session = sl.session) {evs : List (SlEvent maxSessions)}
    (hevs : ∀ n, ∀ e ∈ evs, Unrelated n e) : ClosesOnly sl (fun _ => False) (sl', evs) := by
  refine ⟨fun _ h => h.elim,fun n _ => activeResource_congr (congrFun hsessions n),
    fun llci => hear_unrelated llci hevs,?_⟩
  refine ⟨hlookup.trans hl.lookup,hsession.trans hl.session,?_⟩
  rw [hsessions]
  exact hl.settled

theorem closesOnly_nothing (hl : Listening sl) : ClosesOnly sl (fun _ => False) (sl, []) :=
  ClosesOnly.of_same hl rfl rfl rfl fun _ _ he => nomatch he

theorem ClosesOnly.of_none {p : Fin maxSessions → Prop} {r : SlResult maxSessions}
    (h : ClosesOnly sl (fun _ => False) r) (hp : ∀ n, ¬p n) : ClosesOnly sl p r :=
  ⟨fun n hn => absurd hn (hp n), fun n _ => h.kept n id, h.unheard, h.listening⟩

variable {slotId : UInt8}

theorem tag_of_closes {tag : UInt8} {data : List UInt8} {connectionId : UInt8}
    (h : Closes sl .data (tag :: data) slotId connectionId n) : tag = stCloseSessionReq := by
  unfold Closes at h
  split at h
  · rename_i heq
    cases heq
  · rename_i heq
    cases heq
  · rename_i heq
    cases heq
    exact h.1
  · exact h.elim

theorem Listening.setState_idle (hl : Listening sl) (n : Fin maxSessions) : Listening (sl.setState n .idle) := by
  refine ⟨hl.lookup,hl.session,fun k => ?_⟩
  rw [sessions_setState]
  split
  · exact .inl rfl
  · exact hl.settled k

theorem activeResource_setState_idle (sl : SessionLayer maxSessions) (n k : Fin maxSessions) :
    (sl.setState n .idle).activeResource k = if k = n then none else sl.activeResource k := by
  by_cases hk : k = n
  · subst hk
    rw [if_pos rfl]
    exact activeResource_idle (by rw [sessions_setState_self])
  · rw [if_neg hk]
    exact activeResource_congr (sessions_setState_of_ne hk _)

theorem closeSessions_closesOnly (hl : Listening sl) (p : Session → Bool) :
    ClosesOnly sl (fun n => p (sl.sessions n) = true) (sl.closeSessions p) := by
  refine ⟨fun n hp => ?_,fun n hp => ?_,
    fun llci => hear_unrelated llci fun n => unrelated_closeSessions sl p,hl.lookup,hl.session,fun n => ?_⟩
  · rcases hl.settled n with hstate | hstate
    · apply activeResource_idle
      unfold closeSessions
      dsimp only
      rw [if_neg (fun h => h.1 hstate)]
      exact hstate
    · apply activeResource_idle
      unfold closeSessions
      dsimp only
      rw [if_pos ⟨by rw [hstate]; decide,hp⟩]
  · apply activeResource_congr
    unfold closeSessions
    dsimp only
    rw [if_neg (fun h => hp h.2)]
  · unfold closeSessions
    dsimp only
    split
    · exact .inl rfl
    · exact hl.settled n

theorem onConnection_eq_none (hl : Listening sl) {states : List SessionState} (hidle : .idle ∉ states)
    (hactive : .active ∉ states) (number : Nat) (slotId connectionId : UInt8) :
    sl.onConnection number slotId connectionId states = none := by
  cases hfound : sl.onConnection number slotId connectionId states with
  | none => rfl
  | some n =>
    have hmem := (onConnection_spec hfound).2.2
    rcases hl.settled n with hstate | hstate
    · rw [hstate] at hmem
      exact absurd hmem hidle
    · rw [hstate] at hmem
      exact absurd hmem hactive

theorem handleCloseSessionRequest_closesOnly (hl : Listening sl) (data : List UInt8)
    (slotId connectionId : UInt8) (io : SlIo) :
    ClosesOnly sl (Closes sl .data (stCloseSessionReq :: data) slotId connectionId)
      (sl.handleCloseSessionRequest data slotId connectionId io) := by
  have hunheard (llci : Llci) : runTrace Llci.hear llci
      (sl.handleCloseSessionRequest data slotId connectionId io).2 = (llci, []) :=
    hear_unrelated llci fun _ =>
      (handleCloseSessionRequest_concernsOne sl data slotId connectionId io).unrelated
  unfold SessionLayer.handleCloseSessionRequest at hunheard ⊢
  split at hunheard
  · rename_i length high low rest
    by_cases hlength : length ≠ 2
    · rw [if_pos hlength] at hunheard ⊢
      exact ⟨fun n h => absurd h.2.1 hlength,fun _ _ => rfl,hunheard,hl⟩
    · rw [if_neg hlength] at hunheard ⊢
      rw [ne_eq,not_not] at hlength
      dsimp only at hunheard ⊢
      cases hfound : sl.onConnection (sessionNumber high low) slotId connectionId [.active, .inDeletion] with
      | none =>
        rw [hfound] at hunheard
        refine ⟨fun n h => ?_,fun _ _ => rfl,hunheard,hl⟩
        rcases hl.settled n with hstate | hstate
        · exact activeResource_idle hstate
        · obtain ⟨-,-,hnumber,hon⟩ := h
          rw [hnumber,onConnection_self hon (by rw [hstate]; decide)] at hfound
          cases hfound
      | some m =>
        rw [hfound] at hunheard
        obtain ⟨hnumber,hon,-⟩ := onConnection_spec hfound
        refine ⟨fun n h => ?_,fun n h => ?_,hunheard,hl.setState_idle m⟩
        · have hn : n = m := Fin.ext (h.2.2.1.symm.trans hnumber.symm)
          dsimp only
          rw [activeResource_setState_idle,if_pos hn]
        · have hn : n ≠ m := by
            rintro rfl
            exact h ⟨rfl,hlength,hnumber.symm,hon⟩
          dsimp only
          rw [activeResource_setState_idle,if_neg hn]
  · rename_i hshape
    refine ⟨fun n h => ?_,fun _ _ => rfl,hunheard,hl⟩
    cases data with
    | nil => exact h.elim
    | cons length data =>
      cases data with
      | nil => exact h.elim
      | cons high data =>
        cases data with
        | nil => exact h.elim
        | cons low data => exact absurd rfl (hshape length high low data)

theorem handleSessionPackage_quiet (hl : Listening sl) (data : List UInt8) (slotId connectionId : UInt8) :
    ClosesOnly sl (fun _ => False) (sl.handleSessionPackage data slotId connectionId) := by
  have hsame : (sl.handleSessionPackage data slotId connectionId).1 = sl := by
    unfold handleSessionPackage
    split
    · split
      · rfl
      split
      · rfl
      split <;> rfl
    · rfl
  have hpair : sl.handleSessionPackage data slotId connectionId =
      (sl, (sl.handleSessionPackage data slotId connectionId).2) := Prod.ext hsame rfl
  rw [hpair]
  exact ClosesOnly.of_same hl rfl rfl rfl fun _ =>
    (handleSessionPackage_concernsOne sl data slotId connectionId).unrelated

theorem SessionLayer.ConcernsOne.quiet {connectionId : UInt8} {states : List SessionState}
    {r : SlResult maxSessions} (h : ConcernsOne sl slotId connectionId states r) (hl : Listening sl)
    (hidle : .idle ∉ states) (hactive : .active ∉ states) : ClosesOnly sl (fun _ => False) r := by
  have hevs (n : Fin maxSessions) : ∀ e ∈ r.2, Unrelated n e := h.unrelated
  rcases h with ⟨hsame,-⟩ | ⟨number,n,hfound,-,-⟩
  · obtain ⟨sl',evs⟩ := r
    subst hsame
    exact ClosesOnly.of_same hl rfl rfl rfl hevs
  · rw [onConnection_eq_none hl hidle hactive] at hfound
    cases hfound

theorem openStatus_eq_open {status : Int} : openStatus status = sStatusOpen ↔ status = 0 := by
  unfold openStatus sStatusOpen sStatusCloseNoRes sStatusCloseResLowVersion sStatusCloseResUnavailable
  grind

theorem openBegin_granted (hl : Listening sl) {requested : UInt32} (connectionId : UInt8)
    {io : SlIo} (hstatus : (io.lookup slotId requested).status = 0)
    (haccept : io.accept = true) (hfree : sl.findIdle = some n) :
    sl.openBegin requested slotId connectionId io =
      ((sl.allocNewSession n (io.lookup slotId requested).resourceId slotId connectionId
          (io.lookup slotId requested).callback,
        [.allocated n, .session .camconnecting slotId n (io.lookup slotId requested).resourceId, .accepted n]),
        ⟨sStatusOpen, some n, (io.lookup slotId requested).resourceId⟩) := by
  unfold openBegin
  dsimp only
  rw [if_pos hl.lookup,if_pos (openStatus_eq_open.mpr hstatus),hfree]
  dsimp only
  rw [session_allocNewSession,if_pos hl.session,if_pos haccept]
  rfl

theorem Listening.allocated (hl : Listening sl) (n : Fin maxSessions) (resourceId : UInt32)
    (slotId connectionId : UInt8) (callback : Option Nat) {state : SessionState}
    (hstate : state = .idle ∨ state = .active) :
    Listening ((sl.allocNewSession n resourceId slotId connectionId callback).setState n state) := by
  refine ⟨hl.lookup,hl.session,fun k => ?_⟩
  by_cases hk : k = n
  · subst hk
    rw [sessions_setState_self]
    exact hstate
  · rw [sessions_setState_of_ne hk,sessions_allocNewSession_of_ne hk]
    exact hl.settled k

theorem activeResource_allocated (n k : Fin maxSessions) (resourceId : UInt32)
    (slotId connectionId : UInt8) (callback : Option Nat) (state : SessionState) :
    ((sl.allocNewSession n resourceId slotId connectionId callback).setState n state).activeResource k =
      if k = n then if state = .active then some resourceId else none else sl.activeResource k := by
  by_cases hk : k = n
  · subst hk
    rw [if_pos rfl]
    unfold activeResource
    rw [sessions_setState_self,sessions_allocNewSession_self]
  · rw [if_neg hk]
    apply activeResource_congr
    rw [sessions_setState_of_ne hk,sessions_allocNewSession_of_ne hk]

end Steps

section Stack

variable {s : SessionStack maxSessions}

/-- An open request that is granted: the session becomes active, and its number is entered. -/
structure Opened (s s' : SessionStack maxSessions) (n : Fin maxSessions) (resourceId : UInt32) : Prop where
  number : ∀ l : Limited, s'.llci.sessionNumber l =
    if resourceId = l.resourceId then ((n.val % 2 ^ 16 : Nat) : Int) else s.llci.sessionNumber l
  active : s'.sl.activeResource = Function.update s.sl.activeResource n (some resourceId)
  listening : Listening s'.sl

variable {data : List UInt8}

theorem openRequest_cases (hl : Listening s.sl) {requested : UInt32}
    (hparse : parseOpenRequest data = some requested) (slotId connectionId : UInt8)
    (sendError : Option Int) (uninitialised : UInt32) :
    let found := s.llci.lookupCallback uninitialised requested
    let r := s.sl.handleOpenSessionRequest data slotId connectionId (s.io sendError uninitialised)
    (∃ n, found.status = 0 ∧ sendError = none ∧ s.sl.findIdle = some n ∧ Opened s (s.told r).1 n found.resourceId) ∨
    ¬(found.status = 0 ∧ sendError = none ∧ s.sl.findIdle.isSome) ∧ ClosesOnly s.sl (fun _ => False) r := by
  intro found r
  have hr : r = (fun first => let second := first.1.1.openEnd slotId connectionId first.2 sendError
      (second.1, first.1.2 ++ second.2))
      (s.sl.openBegin requested slotId connectionId (s.io sendError uninitialised)) := by
    change s.sl.handleOpenSessionRequest data slotId connectionId (s.io sendError uninitialised) = _
    unfold handleOpenSessionRequest
    rw [hparse]
    rfl
  by_cases hfound : found.status = 0 ∧ s.sl.findIdle.isSome
  · obtain ⟨hstatus,hfree⟩ := hfound
    obtain ⟨n,hfree⟩ := isSome_iff_exists.mp hfree
    rw [openBegin_granted hl connectionId hstatus rfl hfree] at hr
    dsimp only at hr
    cases sendError with
    | none =>
      left
      refine ⟨n,hstatus,rfl,hfree,?_⟩
      rw [openEnd_opened _ slotId connectionId rfl rfl rfl] at hr
      have hinform (event : SlEvent maxSessions) : (s.sl.allocNewSession n
          ((s.io none uninitialised).lookup slotId requested).resourceId slotId connectionId
          ((s.io none uninitialised).lookup slotId requested).callback).inform event = [event] := by
        unfold inform
        rw [session_allocNewSession,if_pos hl.session]
      rw [hinform] at hr
      rw [hr]
      refine ⟨fun l => ?_,?_,hl.allocated n _ _ _ _ (.inr rfl)⟩
      · change (s.llci.sessionCallback .camconnected (UInt16.ofNat n.val) found.resourceId).1.sessionNumber l =
          _
        rw [sessionNumber_camconnected,UInt16.toNat_ofNat']
      · funext k
        change ((SessionLayer.setState _ n .active).activeResource k) = _
        rw [activeResource_allocated,if_pos rfl,Function.update_apply]
        rfl
    | some error =>
      right
      refine ⟨fun h => (nomatch h.2.1),?_⟩
      rw [openEnd_failed _ slotId connectionId rfl (.inr rfl)] at hr
      rw [hr]
      refine ⟨fun _ h => h.elim,fun k _ => ?_,fun llci => rfl,hl.allocated n _ _ _ _ (.inl rfl)⟩
      dsimp only
      rw [activeResource_allocated]
      split
      · rename_i hk
        rw [hk]
        exact (activeResource_idle (findIdle_state hfree)).symm
      · rfl
  · right
    refine ⟨fun h => hfound ⟨h.1,h.2.2⟩,?_⟩
    rcases s.sl.openBegin_cases requested slotId connectionId (s.io sendError uninitialised) with
      ⟨error,status,-,heq⟩ | ⟨n,-,-,hfree,-,hstatus,-,-⟩
    · rw [heq] at hr
      dsimp only at hr
      rw [openEnd_of_none _ slotId connectionId rfl] at hr
      rw [hr]
      refine ClosesOnly.of_same hl ?_ ?_ ?_ ?_
      · rfl
      · rfl
      · rfl
      · exact fun n => unrelated_send _ _ _ _
    · refine absurd ⟨openStatus_eq_open.mp hstatus,?_⟩ hfound
      rw [hfree]
      rfl

theorem callback_cases (hl : Listening s.sl) (reason : CallbackReason) (data : List UInt8)
    (slotId connectionId : UInt8) (sendError : Option Int) (uninitialised : UInt32) :
    let r := s.sl.transportCallback reason data slotId connectionId (s.io sendError uninitialised)
    (∃ n resourceId, Grants s reason data sendError uninitialised n resourceId ∧
      (∀ k, ¬Closes s.sl reason data slotId connectionId k) ∧ Opened s (s.told r).1 n resourceId) ∨
    (∀ n resourceId, ¬Grants s reason data sendError uninitialised n resourceId) ∧
      ClosesOnly s.sl (Closes s.sl reason data slotId connectionId) r := by
  intro r
  have hquiet {evs : List (SlEvent maxSessions)} (hevs : ∀ n, ∀ e ∈ evs, Unrelated n e) :
      ClosesOnly s.sl (fun _ => False) (s.sl, evs) := ClosesOnly.of_same hl rfl rfl rfl hevs
  cases reason with
  | connectionopen =>
    exact .inr ⟨fun _ _ h => h,hquiet fun n => unrelated_inform s.sl ⟨fun h => (nomatch h),rfl⟩⟩
  | camconnectionopen =>
    exact .inr ⟨fun _ _ h => h,hquiet fun n => unrelated_inform s.sl ⟨fun h => (nomatch h),rfl⟩⟩
  | connectionclose =>
    refine .inr ⟨fun _ _ h => h,?_⟩
    have hclosed := closeSessions_closesOnly hl fun session => session.connectionId == connectionId
    simp only [beq_iff_eq] at hclosed
    exact hclosed
  | slotclose =>
    refine .inr ⟨fun _ _ h => h,?_⟩
    have hclosed := closeSessions_closesOnly hl fun session => session.slotId == slotId
    simp only [beq_iff_eq] at hclosed
    exact hclosed
  | data =>
    cases data with
    | nil => exact .inr ⟨fun _ _ h => h,closesOnly_nothing hl⟩
    | cons tag data =>
      have hnotcloses (htag : tag ≠ stCloseSessionReq) (k : Fin maxSessions) :
          ¬Closes s.sl .data (tag :: data) slotId connectionId k := fun h => htag (tag_of_closes h)
      have hr : r = s.sl.handleSpdu tag data slotId connectionId (s.io sendError uninitialised) := rfl
      unfold handleSpdu at hr
      by_cases hopen : tag = stOpenSessionReq
      · have htag : tag ≠ stCloseSessionReq := by
          rw [hopen]
          decide
        rw [if_pos hopen] at hr
        cases hparse : parseOpenRequest data with
        | none =>
          refine .inr ⟨fun n resourceId h => ?_,?_⟩
          · obtain ⟨-,⟨requested,hrequested,-⟩,-⟩ := h
            rw [hparse] at hrequested
            cases hrequested
          · rw [hr]
            unfold handleOpenSessionRequest
            rw [hparse]
            exact (closesOnly_nothing hl).of_none (hnotcloses htag)
        | some requested =>
          rcases openRequest_cases hl hparse slotId connectionId sendError uninitialised with
            ⟨n,hstatus,hsend,hfree,hopened⟩ | ⟨hrefused,hsame⟩
          · rw [← hr] at hopened
            exact .inl ⟨n,_,⟨hopen,⟨requested,hparse,hstatus,rfl⟩,hsend,hfree⟩,hnotcloses htag,hopened⟩
          · rw [← hr] at hsame
            refine .inr ⟨fun n resourceId h => ?_,hsame.of_none (hnotcloses htag)⟩
            obtain ⟨-,⟨requested',hrequested,hstatus,-⟩,hsend,hfree⟩ := h
            rw [hparse,Option.some.injEq] at hrequested
            subst hrequested
            exact hrefused ⟨hstatus,hsend,by rw [hfree]; rfl⟩
      · rw [if_neg hopen] at hr
        refine .inr ⟨fun n resourceId h => hopen h.1,?_⟩
        rw [hr]
        split
        · rename_i htag
          rw [htag]
          exact handleCloseSessionRequest_closesOnly hl data slotId connectionId _
        · rename_i htag
          apply ClosesOnly.of_none _ (hnotcloses htag)
          split
          · exact handleSessionPackage_quiet hl data slotId connectionId
          split
          · exact (handleCreateSessionResponse_concernsOne _ data slotId connectionId).quiet hl (by decide) (by decide)
          split
          · exact (handleCloseSessionResponse_concernsOne _ data slotId connectionId).quiet hl (by decide) (by decide)
          · exact closesOnly_nothing hl

variable {n : Fin maxSessions} {resourceId : UInt32}

theorem Grants.eq {reason : CallbackReason} {sendError : Option Int}
    {uninitialised : UInt32} {n' : Fin maxSessions} {resourceId' : UInt32}
    (h : Grants s reason data sendError uninitialised n resourceId)
    (h' : Grants s reason data sendError uninitialised n' resourceId') : n = n' ∧ resourceId = resourceId' := by
  unfold Grants at h h'
  split at h
  · obtain ⟨-,⟨requested,hparse,-,hid⟩,-,hfree⟩ := h
    obtain ⟨-,⟨requested',hparse',-,hid'⟩,-,hfree'⟩ := h'
    rw [hparse,Option.some.injEq] at hparse'
    subst hparse'
    rw [hfree,Option.some.injEq] at hfree'
    exact ⟨hfree',hid.symm.trans hid'⟩
  · exact h.elim

theorem Grants.not_active {reason : CallbackReason} {sendError : Option Int} {uninitialised : UInt32}
    (h : Grants s reason data sendError uninitialised n resourceId) (l : Limited) : ¬ActiveFor s l n := by
  have hidle : (s.sl.sessions n).state = .idle := by
    unfold Grants at h
    split at h
    · exact findIdle_state h.2.2.2
    · exact h.elim
  intro hactive
  rw [hactive.1] at hidle
  cases hidle

theorem lookupCallback_resourceId {llci : Llci} {l : Limited} (h : llci.sessionNumber l = -1) (uninitialised : UInt32) :
    (llci.lookupCallback uninitialised l.resourceId).status = 0 ∧
      (llci.lookupCallback uninitialised l.resourceId).resourceId = l.resourceId := by
  obtain ⟨resid,r,hdecode,hfind,hid⟩ : ∃ resid r, decodePublicResourceId l.resourceId = some resid ∧
      (llciResources.find? fun r => resid.resourceClass == r.resid.resourceClass &&
        resid.resourceType == r.resid.resourceType) = some r ∧ r.binaryResourceId = l.resourceId := by
    cases l <;> exact ⟨_,_,rfl,rfl,rfl⟩
  unfold Llci.lookupCallback
  rw [hdecode]
  dsimp only
  rw [hfind,limited_resourceId]
  simp [h,hid]

theorem Opened.activeFor_iff {s' : SessionStack maxSessions}
    (h : Opened s s' n resourceId) (l : Limited) (k : Fin maxSessions) :
    ActiveFor s' l k ↔ if k = n then resourceId = l.resourceId else ActiveFor s l k := by
  rw [En50221.activeFor_iff,h.active,Function.update_apply]
  split
  · rw [Option.some.injEq]
  · rw [← En50221.activeFor_iff]

/-- The numbers are right, and the session layer is as the stdcam needs it. -/
structure SessionsTracked (s : SessionStack maxSessions) : Prop extends TracksSessions s, Listening s.sl

theorem SessionsTracked.of_tracked (hl : Listening s.sl)
    (htracked : ∀ l, s.llci.sessionNumber l = -1 ∨ ∃ n, s.llci.sessionNumber l = n.val ∧ ActiveFor s l n)
    (hunique : ∀ l n k, ActiveFor s l n → ActiveFor s l k → n = k) : SessionsTracked s := by
  refine ⟨⟨htracked,hunique,fun l hnone hfree slotId connectionId uninitialised => ?_⟩,hl⟩
  have hnumber : s.llci.sessionNumber l = -1 := by
    rcases htracked l with hnumber | ⟨n,-,hactive⟩
    · exact hnumber
    · exact absurd hactive (hnone n)
  obtain ⟨hstatus,hid⟩ := lookupCallback_resourceId hnumber uninitialised
  have hparse : parseOpenRequest (4 :: resourceIdBytes l.resourceId) = some l.resourceId := by
    cases l <;> decide
  obtain ⟨n,hn⟩ := isSome_iff_exists.mp hfree
  have hgrants : Grants s .data (openSessionRequest l.resourceId) none uninitialised n l.resourceId :=
    ⟨rfl,⟨_,hparse,hstatus,hid⟩,rfl,hn⟩
  rcases callback_cases hl .data (openSessionRequest l.resourceId) slotId connectionId none uninitialised with
    ⟨n',resourceId,hgrants',-,hopened⟩ | ⟨hrefused,-⟩
  · obtain ⟨rfl,rfl⟩ := hgrants.eq hgrants'
    refine ⟨n,(hopened.activeFor_iff l n).mpr ?_⟩
    rw [if_pos rfl]
  · exact absurd hgrants (hrefused _ _)

theorem activeFor_of_closesOnly {p : Fin maxSessions → Prop} {r : SlResult maxSessions}
    (h : ClosesOnly s.sl p r) {s' : SessionStack maxSessions} (hsl : s'.sl = r.1) (l : Limited)
    (n : Fin maxSessions) : ActiveFor s' l n ↔ ¬p n ∧ ActiveFor s l n := by
  rw [En50221.activeFor_iff,En50221.activeFor_iff,hsl]
  by_cases hp : p n
  · rw [h.closed n hp]
    simp [hp]
  · rw [h.kept n hp]
    simp [hp]

theorem told_of_closesOnly {p : Fin maxSessions → Prop} {r : SlResult maxSessions}
    (h : ClosesOnly s.sl p r) : (s.told r).1 = ⟨s.llci, r.1⟩ := by
  unfold SessionStack.told
  dsimp only
  rw [h.unheard]

theorem step_sessionsTracked (h : SessionsTracked s) {op : StackInput} (hok : KeepsTrack s op) :
    SessionsTracked (stackStep s op).1 := by
  cases op with
  | inReset state tlSlotId => exact SessionsTracked.of_tracked h.toListening h.tracked h.unique
  | camRemoved =>
    unfold stackStep
    dsimp only
    by_cases hid : s.llci.tlSlotId ≠ -1
    · rw [if_pos hid]
      have hclosed := closeSessions_closesOnly h.toListening fun session =>
        session.slotId == UInt8.ofInt s.llci.tlSlotId
      have hcall : s.sl.call (.destroySlot (UInt8.ofInt s.llci.tlSlotId)) =
          s.sl.closeSessions fun session => session.slotId == UInt8.ofInt s.llci.tlSlotId := rfl
      rw [hcall,told_of_closesOnly hclosed]
      refine SessionsTracked.of_tracked hclosed.listening (fun l => .inl ?_) fun l n k hn hk => ?_
      · -- the numbers are forgotten
        unfold Llci.removed
        dsimp only
        rw [if_pos hid]
      · have hn' := (activeFor_of_closesOnly hclosed rfl l n).mp hn
        have hk' := (activeFor_of_closesOnly hclosed rfl l k).mp hk
        exact h.unique l n k hn'.2 hk'.2
    · rw [if_neg hid]
      unfold Llci.removed
      rw [if_neg hid]
      exact SessionsTracked.of_tracked h.toListening h.tracked h.unique
  | callback reason data slotId connectionId sendError uninitialised =>
    obtain ⟨hcloses,hgrants⟩ := hok
    change SessionsTracked (s.told _).1
    rcases callback_cases h.toListening reason data slotId connectionId sendError uninitialised with
      ⟨n,resourceId,hgranted,-,hopened⟩ | ⟨-,hclosed⟩
    · refine SessionsTracked.of_tracked hopened.listening (fun l => ?_) fun l k k' hk hk' => ?_
      · rw [hopened.number]
        by_cases hl : resourceId = l.resourceId
        · -- the new session is the one of the resource
          subst hl
          rw [if_pos rfl,Nat.mod_eq_of_lt (hgrants l n hgranted).2]
          refine .inr ⟨n,rfl,(hopened.activeFor_iff l n).mpr ?_⟩
          rw [if_pos rfl]
        · rw [if_neg hl]
          rcases h.tracked l with hnumber | ⟨m,hnumber,hactive⟩
          · exact .inl hnumber
          · refine .inr ⟨m,hnumber,(hopened.activeFor_iff l m).mpr ?_⟩
            have hm : m ≠ n := by
              rintro rfl
              exact hgranted.not_active l hactive
            rw [if_neg hm]
            exact hactive
      · rw [hopened.activeFor_iff] at hk hk'
        by_cases hl : resourceId = l.resourceId
        · subst hl
          have hnone := (hgrants l n hgranted).1
          by_cases hkn : k = n
          · by_cases hkn' : k' = n
            · rw [hkn,hkn']
            · rw [if_neg hkn'] at hk'
              exact absurd hk' (hnone k')
          · rw [if_neg hkn] at hk
            exact absurd hk (hnone k)
        · by_cases hkn : k = n
          · rw [if_pos hkn] at hk
            exact absurd hk hl
          · by_cases hkn' : k' = n
            · rw [if_pos hkn'] at hk'
              exact absurd hk' hl
            · rw [if_neg hkn] at hk
              rw [if_neg hkn'] at hk'
              exact h.unique l k k' hk hk'
    · rw [told_of_closesOnly hclosed]
      refine SessionsTracked.of_tracked hclosed.listening (fun l => ?_) fun l n k hn hk => ?_
      · rcases h.tracked l with hnumber | ⟨m,hnumber,hactive⟩
        · exact .inl hnumber
        · exact .inr ⟨m,hnumber,(activeFor_of_closesOnly hclosed rfl l m).mpr ⟨hcloses l m hnumber,hactive⟩⟩
      · have hn' := (activeFor_of_closesOnly hclosed rfl l n).mp hn
        have hk' := (activeFor_of_closesOnly hclosed rfl l k).mp hk
        exact h.unique l n k hn'.2 hk'.2

theorem keepsTrack_of_step (h : SessionsTracked s) {op : StackInput}
    (hafter : TracksSessions (stackStep s op).1) : KeepsTrack s op := by
  cases op with
  | inReset state tlSlotId => trivial
  | camRemoved => trivial
  | callback reason data slotId connectionId sendError uninitialised =>
    change TracksSessions (s.told _).1 at hafter
    rcases callback_cases h.toListening reason data slotId connectionId sendError uninitialised with
      ⟨n,resourceId,hgranted,hnotcloses,hopened⟩ | ⟨hrefused,hclosed⟩
    · refine ⟨fun l k _ => hnotcloses k,fun l k hgrants => ?_⟩
      obtain ⟨rfl,rfl⟩ := hgranted.eq hgrants
      have hnew : ActiveFor (s.told _).1 l n := (hopened.activeFor_iff l n).mpr (by rw [if_pos rfl])
      constructor
      · intro k hactive
        have hk : k ≠ n := by
          rintro rfl
          exact hgranted.not_active l hactive
        have hold := (hopened.activeFor_iff l k).mpr (by rw [if_neg hk]; exact hactive)
        exact hk (hafter.unique l k n hold hnew)
      · have hnumber := hopened.number l
        rw [if_pos rfl] at hnumber
        rcases hafter.tracked l with hnone | ⟨m,hm,hactive⟩
        · omega
        · have hmn := hafter.unique l m n hactive hnew
          subst hmn
          omega
    · rw [told_of_closesOnly hclosed] at hafter
      refine ⟨fun l n hnumber hcloses => ?_,fun l n hgrants => absurd hgrants (hrefused n _)⟩
      rcases hafter.tracked l with hnone | ⟨m,hm,hactive⟩
      · dsimp only at hnone
        omega
      · dsimp only at hm
        have hmn : m = n := Fin.ext (by omega)
        subst hmn
        exact ((activeFor_of_closesOnly hclosed rfl l m).mp hactive).1 hcloses

end Stack

theorem create_sessionsTracked (cafd : Nat) (slotnum : UInt8) (uninitialised : Fin maxSessions → Session) :
    SessionsTracked (stackCreate cafd slotnum uninitialised) := by
  have hidle (l : Limited) (n : Fin maxSessions) : ¬ActiveFor (stackCreate cafd slotnum uninitialised) l n :=
    fun h => SessionState.noConfusion h.1
  exact SessionsTracked.of_tracked ⟨rfl,rfl,fun _ => .inl rfl⟩ (fun _ => .inl rfl)
    fun l n _ hn => absurd hn (hidle l n)

/-- In every state of a run the numbers track the sessions exactly if no session whose number is kept is
closed, and a limited resource is granted only while there is no session for it. -/
theorem sessions_tracked_iff (cafd : Nat) (slotnum : UInt8) (uninitialised : Fin maxSessions → Session)
    (ops : List StackInput) :
    (∀ pre, pre <+: ops → TracksSessions (runTrace stackStep (stackCreate cafd slotnum uninitialised) pre).1) ↔
      StepsMeet stackStep KeepsTrack (stackCreate cafd slotnum uninitialised) ops := by
  have htrue : StepsMeet stackStep (fun _ _ => True) (stackCreate cafd slotnum uninitialised) ops :=
    StepsMeet.of_forall (fun _ _ => trivial) _ ops
  apply forall_prefix_iff_stepsMeet_of SessionsTracked
  · exact fun s h => h.toTracksSessions
  · exact fun s op h _ hok => step_sessionsTracked h hok
  · exact fun s op h _ hafter => keepsTrack_of_step h hafter
  · exact create_sessionsTracked cafd slotnum uninitialised
  · exact htrue

def closedByModule : List StackInput :=
  [.callback .data (openSessionRequest caResourceid) 0 1 none 0,
    .callback .data [stCloseSessionReq, 2, 0, 1] 0 1 none 0]

/-- The number of the closed session is kept. -/
theorem sessions_not_tracked : ¬∀ pre, pre <+: closedByModule →
      TracksSessions (runTrace stackStep (stackCreate 5 0 fun _ : Fin 2 => unset) pre).1 := by
  intro h
  have hnumber : (runTrace stackStep (stackCreate 5 0 fun _ : Fin 2 => unset) closedByModule).1.llci.sessionNumber
      .ca = 1 := by
    decide +kernel
  have hidle : ∀ n, ((runTrace stackStep (stackCreate 5 0 fun _ : Fin 2 => unset) closedByModule).1.sl.sessions
      n).state = .idle := by
    decide +kernel
  rcases (h _ (List.prefix_refl _)).tracked .ca with hnone | ⟨n, -, hactive, -⟩
  · rw [hnumber] at hnone
    cases hnone
  · rw [hidle n] at hactive
    cases hactive

end LinuxDvb.En50221
