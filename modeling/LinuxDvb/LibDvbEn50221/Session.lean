import LinuxDvb.LibDvbEn50221.Transport

/-!
# Session layer

`en50221_session.c`: sessions of the resources of the host with the modules, each on a connection of a slot. The
transport layer calls the session layer with what it has received and with the connections and slots that were opened
and closed.
-/

namespace LinuxDvb.En50221

def sStatusOpen : Int := 0x00
def sStatusCloseNoRes : Int := 0xF0
def sStatusCloseResUnavailable : Int := 0xF1
def sStatusCloseResLowVersion : Int := 0xF2
def sStatusCloseResBusy : Int := 0xF3

def stSessionNumber : UInt8 := 0x90
def stOpenSessionReq : UInt8 := 0x91
def stOpenSessionRes : UInt8 := 0x92
def stCreateSession : UInt8 := 0x93
def stCreateSessionRes : UInt8 := 0x94
def stCloseSessionReq : UInt8 := 0x95
def stCloseSessionRes : UInt8 := 0x96

def errIovlimit : Int := -12
def errBadsessionnumber : Int := -13
def errOutofsessions : Int := -14

inductive SessionState where
  | idle | active | inCreation | inDeletion
  deriving DecidableEq, Repr

/-- `struct en50221_session`. A resource callback with its argument is known by a number, and `none` is
NULL. -/
structure Session where
  state : SessionState
  resourceId : UInt32
  slotId : UInt8
  connectionId : UInt8
  callback : Option Nat
  deriving DecidableEq

/-- `lookup` and `session` say whether these callbacks are registered. -/
structure SessionLayer (maxSessions : Nat) where
  lookup : Bool
  session : Bool
  error : Int
  sessions : Fin maxSessions → Session

/-- `S_SCALLBACK_REASON_*` for sessions. -/
inductive SessionReason where
  | camconnecting | camconnected | camconnectfail | connected | connectfail | close
  deriving DecidableEq, Repr

inductive SlEvent (maxSessions : Nat) where
  /-- `en50221_sl_alloc_new_session` has taken the entry. -/
  | allocated (n : Fin maxSessions)
  /-- The transport layer has taken data. -/
  | sent (slotId connectionId : UInt8) (data : List UInt8)
  /-- The session callback is called for a session; its parameter for the number has 16 bits. -/
  | session (reason : SessionReason) (slotId : UInt8) (n : Fin maxSessions) (resourceId : UInt32)
  /-- The session callback is called for a connection that is open, `cam` if the module has asked for it. -/
  | connection (cam : Bool) (slotId connectionId : UInt8)
  /-- The session callback has returned 0 for `S_SCALLBACK_REASON_CAMCONNECTING`. -/
  | accepted (n : Fin maxSessions)
  /-- A resource callback is called with an APDU. -/
  | resource (callback : Nat) (slotId : UInt8) (n : Fin maxSessions) (resourceId : UInt32)
    (data : List UInt8)
  deriving DecidableEq

/-- What the lookup callback returns, and what is in `connected_resource_id` and the other results then. -/
structure Lookup where
  status : Int
  callback : Option Nat
  resourceId : UInt32

/-- What a callback of the transport layer meets: the lookup callback, whether the session callback returns
0 for a connecting session, and the error of `en50221_tl_send_data`. -/
structure SlIo where
  lookup : UInt8 → UInt32 → Lookup
  accept : Bool
  sendError : Option Int

abbrev SlResult (maxSessions : Nat) := SessionLayer maxSessions × List (SlEvent maxSessions)

def sessionNumber (high low : UInt8) : Nat := high.toNat <<< 8 ||| low.toNat

def numberBytes (n : Nat) : List UInt8 := [UInt8.ofNat (n >>> 8), UInt8.ofNat n]

def resourceIdBytes (id : UInt32) : List UInt8 :=
  [(id >>> 24).toUInt8, (id >>> 16).toUInt8, (id >>> 8).toUInt8, id.toUInt8]

def resourceIdOf (b₁ b₂ b₃ b₄ : UInt8) : UInt32 :=
  b₁.toUInt32 <<< 24 ||| b₂.toUInt32 <<< 16 ||| b₃.toUInt32 <<< 8 ||| b₄.toUInt32

def sessionResponse (tag status : UInt8) (resourceId : UInt32) (n : Nat) : List UInt8 :=
  tag :: 7 :: status :: (resourceIdBytes resourceId ++ numberBytes n)

def closeSessionResponse (code : UInt8) (n : Nat) : List UInt8 :=
  stCloseSessionRes :: 3 :: code :: numberBytes n

namespace SessionLayer

variable {maxSessions : Nat}

def setState (sl : SessionLayer maxSessions) (n : Fin maxSessions) (state : SessionState) :
    SessionLayer maxSessions :=
  { sl with sessions := Function.update sl.sessions n { sl.sessions n with state := state } }

theorem sessions_setState (sl : SessionLayer maxSessions) (n k : Fin maxSessions) (state : SessionState) :
    (sl.setState n state).sessions k =
      if k = n then { sl.sessions n with state := state } else sl.sessions k := by
  unfold setState
  dsimp only
  rw [Function.update_apply]

@[simp] theorem sessions_setState_self (sl : SessionLayer maxSessions) (n : Fin maxSessions)
    (state : SessionState) : (sl.setState n state).sessions n = { sl.sessions n with state := state } := by
  rw [sessions_setState,if_pos rfl]

theorem sessions_setState_of_ne {sl : SessionLayer maxSessions} {n k : Fin maxSessions} (h : k ≠ n)
    (state : SessionState) : (sl.setState n state).sessions k = sl.sessions k := by
  rw [sessions_setState,if_neg h]

@[simp] theorem session_setState (sl : SessionLayer maxSessions) (n : Fin maxSessions)
    (state : SessionState) : (sl.setState n state).session = sl.session := rfl

@[simp] theorem lookup_setState (sl : SessionLayer maxSessions) (n : Fin maxSessions)
    (state : SessionState) : (sl.setState n state).lookup = sl.lookup := rfl

def inform (sl : SessionLayer maxSessions) (event : SlEvent maxSessions) : List (SlEvent maxSessions) :=
  if sl.session then [event] else []

@[simp] theorem inform_setState (sl : SessionLayer maxSessions) (n : Fin maxSessions) (state : SessionState)
    (event : SlEvent maxSessions) : (sl.setState n state).inform event = sl.inform event := rfl

/-- `en50221_tl_send_data` -/
def send (slotId connectionId : UInt8) (data : List UInt8) (sendError : Option Int) :
    List (SlEvent maxSessions) :=
  if sendError.isSome then [] else [.sent slotId connectionId data]

/-- The entry that `en50221_sl_alloc_new_session` finds. -/
def findIdle (sl : SessionLayer maxSessions) : Option (Fin maxSessions) :=
  (List.finRange maxSessions).find? fun n =>
    decide (1 ≤ n.val) && decide ((sl.sessions n).state = .idle)

theorem findIdle_state {sl : SessionLayer maxSessions} {n : Fin maxSessions} (h : sl.findIdle = some n) :
    (sl.sessions n).state = .idle := by
  have hfound := find?_some h
  simp only [Bool.and_eq_true,decide_eq_true_eq] at hfound
  exact hfound.2

/-- `en50221_sl_alloc_new_session` for the entry it has found. -/
def allocNewSession (sl : SessionLayer maxSessions) (n : Fin maxSessions) (resourceId : UInt32)
    (slotId connectionId : UInt8) (callback : Option Nat) : SessionLayer maxSessions :=
  { sl with
    sessions := Function.update sl.sessions n
      ⟨.inCreation, resourceId, slotId, connectionId, callback⟩ }

@[simp] theorem sessions_allocNewSession_self (sl : SessionLayer maxSessions) (n : Fin maxSessions)
    (resourceId : UInt32) (slotId connectionId : UInt8) (callback : Option Nat) :
    (sl.allocNewSession n resourceId slotId connectionId callback).sessions n =
      ⟨.inCreation, resourceId, slotId, connectionId, callback⟩ := Function.update_self n _ _

theorem sessions_allocNewSession_of_ne {sl : SessionLayer maxSessions} {n k : Fin maxSessions} (h : k ≠ n)
    (resourceId : UInt32) (slotId connectionId : UInt8) (callback : Option Nat) :
    (sl.allocNewSession n resourceId slotId connectionId callback).sessions k = sl.sessions k :=
  Function.update_of_ne h _ _

@[simp] theorem session_allocNewSession (sl : SessionLayer maxSessions) (n : Fin maxSessions)
    (resourceId : UInt32) (slotId connectionId : UInt8) (callback : Option Nat) :
    (sl.allocNewSession n resourceId slotId connectionId callback).session = sl.session := rfl

/-- `en50221_sl_create_session` -/
def createSession (sl : SessionLayer maxSessions) (slotId connectionId : UInt8) (resourceId : UInt32)
    (callback : Option Nat) (sendError : Option Int) : SlResult maxSessions × Int :=
  match sl.findIdle with
  | none => (({ sl with error := errOutofsessions }, []), -1)
  | some n =>
    let sl := sl.allocNewSession n resourceId slotId connectionId callback
    let hdr := stCreateSession :: 6 :: (resourceIdBytes resourceId ++ numberBytes n)
    match sendError with
    | some error =>
      let sl := if (sl.sessions n).state = .inCreation then sl.setState n .idle else sl
      (({ sl with error := error }, [.allocated n]), -1)
    | none => ((sl, .allocated n :: send slotId connectionId hdr none), n.val)

/-- `en50221_sl_destroy_session` -/
def destroySession (sl : SessionLayer maxSessions) (number : UInt16) (sendError : Option Int) :
    SlResult maxSessions × Int :=
  match toFin? maxSessions number.toNat with
  | none => (({ sl with error := errBadsessionnumber }, []), -1)
  | some n =>
    if (sl.sessions n).state = .active ∨ (sl.sessions n).state = .inDeletion then
      let sl := sl.setState n .inDeletion
      let hdr := stCloseSessionReq :: 2 :: numberBytes n
      match sendError with
      | some error =>
        let sl := if (sl.sessions n).state = .inDeletion then sl.setState n .idle else sl
        (({ sl with error := error }, []), -1)
      | none => ((sl, send (sl.sessions n).slotId (sl.sessions n).connectionId hdr none), 0)
    else (({ sl with error := errBadsessionnumber }, []), -1)

/-- What `en50221_sl_send_data` and `en50221_sl_send_datav` have in common: `bytes` is what they send behind
the header, and `iovs` the number of parts. -/
def sendBytes (sl : SessionLayer maxSessions) (number : UInt16) (bytes : List UInt8) (iovs : Nat)
    (sendError : Option Int) : SlResult maxSessions × Int :=
  match toFin? maxSessions number.toNat with
  | none => (({ sl with error := errBadsessionnumber }, []), -1)
  | some n =>
    if (sl.sessions n).state ≠ .active then (({ sl with error := errBadsessionnumber }, []), -1)
    else if iovs > 9 then (({ sl with error := errIovlimit }, []), -1)
    else
      match sendError with
      | some error => (({ sl with error := error }, []), -1)
      | none =>
        ((sl, send (sl.sessions n).slotId (sl.sessions n).connectionId
          (stSessionNumber :: 2 :: (numberBytes n ++ bytes)) none), 0)

/-- `en50221_sl_send_data` -/
def sendData (sl : SessionLayer maxSessions) (number : UInt16) (data : List UInt8)
    (sendError : Option Int) : SlResult maxSessions × Int :=
  sl.sendBytes number data 1 sendError

/-- `en50221_sl_send_datav` -/
def sendDatav (sl : SessionLayer maxSessions) (number : UInt16) (vector : List (List UInt8))
    (sendError : Option Int) : SlResult maxSessions × Int :=
  sl.sendBytes number vector.flatten vector.length sendError

/-- `en50221_sl_broadcast_data`; a slot id of -1 is `none`. -/
def broadcastData (sl : SessionLayer maxSessions) (slotId : Option UInt8) (resourceId : UInt32)
    (data : List UInt8) (sendError : Fin maxSessions → Option Int) : SlResult maxSessions × Int :=
  let concerned := (List.finRange maxSessions).filter fun n =>
    decide ((sl.sessions n).state = .active) && slotId.all (· == (sl.sessions n).slotId) &&
      decide ((sl.sessions n).resourceId = resourceId)
  (concerned.foldl (fun r n =>
    let sent := r.1.sendData (UInt16.ofNat n.val) data (sendError n)
    (sent.1.1, r.2 ++ sent.1.2)) (sl, []), 0)

def OnlySends (sl : SessionLayer maxSessions) (r : SlResult maxSessions) : Prop :=
  r.1.sessions = sl.sessions ∧ r.1.session = sl.session ∧
    ∀ e ∈ r.2, ∃ slotId connectionId data, e = .sent slotId connectionId data

theorem OnlySends.append {sl : SessionLayer maxSessions} {r r' : SlResult maxSessions}
    (h : sl.OnlySends r) (h' : r.1.OnlySends r') : sl.OnlySends (r'.1, r.2 ++ r'.2) := by
  refine ⟨h'.1.trans h.1,h'.2.1.trans h.2.1,?_⟩
  intro e he
  rcases mem_append.mp he with hleft | hright
  · exact h.2.2 e hleft
  · exact h'.2.2 e hright

theorem onlySends_error (sl : SessionLayer maxSessions) (error : Int) :
    sl.OnlySends ({ sl with error := error }, []) := ⟨rfl, rfl, fun _ he => nomatch he⟩

theorem sendBytes_onlySends (sl : SessionLayer maxSessions) (number : UInt16) (bytes : List UInt8)
    (iovs : Nat) (sendError : Option Int) : sl.OnlySends (sl.sendBytes number bytes iovs sendError).1 := by
  unfold sendBytes
  split
  · exact onlySends_error sl _
  split
  · exact onlySends_error sl _
  split
  · exact onlySends_error sl _
  split
  · exact onlySends_error sl _
  · refine ⟨rfl,rfl,?_⟩
    intro e he
    exact ⟨_,_,_,mem_singleton.mp he⟩

theorem broadcastData_onlySends (sl : SessionLayer maxSessions) (slotId : Option UInt8)
    (resourceId : UInt32) (data : List UInt8) (sendError : Fin maxSessions → Option Int) :
    sl.OnlySends (sl.broadcastData slotId resourceId data sendError).1 := by
  have hfold (ns : List (Fin maxSessions)) (r : SlResult maxSessions) (h : sl.OnlySends r) :
      sl.OnlySends (ns.foldl (fun r n =>
        let sent := r.1.sendData (UInt16.ofNat n.val) data (sendError n)
        (sent.1.1, r.2 ++ sent.1.2)) r) := by
    induction ns generalizing r with
    | nil => exact h
    | cons n ns ih =>
      apply ih
      exact h.append (sendBytes_onlySends r.1 _ _ _ _)
  exact hfold _ _ ⟨rfl,rfl,fun _ he => nomatch he⟩

theorem createSession_cases (sl : SessionLayer maxSessions) (slotId connectionId : UInt8)
    (resourceId : UInt32) (callback : Option Nat) (sendError : Option Int) :
    sl.createSession slotId connectionId resourceId callback sendError =
        (({ sl with error := errOutofsessions }, []), -1) ∨
      ∃ n, sl.findIdle = some n ∧
        ((∃ data, sl.createSession slotId connectionId resourceId callback sendError =
            ((sl.allocNewSession n resourceId slotId connectionId callback,
              [SlEvent.allocated n, .sent slotId connectionId data]), (n.val : Int))) ∨
          ∃ error, sl.createSession slotId connectionId resourceId callback sendError =
            (({ (sl.allocNewSession n resourceId slotId connectionId callback).setState n .idle with
              error := error }, [.allocated n]), -1)) := by
  unfold createSession
  cases sl.findIdle with
  | none => exact .inl rfl
  | some n =>
    refine .inr ⟨n,rfl,?_⟩
    cases sendError with
    | none => exact .inl ⟨_,rfl⟩
    | some error =>
      refine .inr ⟨error,?_⟩
      dsimp only
      rw [sessions_allocNewSession_self,if_pos rfl]

theorem destroySession_cases (sl : SessionLayer maxSessions) (number : UInt16) (sendError : Option Int) :
    sl.destroySession number sendError = (({ sl with error := errBadsessionnumber }, []), -1) ∨
      ∃ n, toFin? maxSessions number.toNat = some n ∧
        ((sl.sessions n).state = .active ∨ (sl.sessions n).state = .inDeletion) ∧
        ((sendError = none ∧ sl.destroySession number sendError =
            ((sl.setState n .inDeletion, [.sent (sl.sessions n).slotId (sl.sessions n).connectionId
              (stCloseSessionReq :: 2 :: numberBytes n)]), 0)) ∨
          ∃ error, sendError = some error ∧ sl.destroySession number sendError =
            (({ (sl.setState n .inDeletion).setState n .idle with error := error }, []), -1)) := by
  unfold destroySession
  cases toFin? maxSessions number.toNat with
  | none => exact .inl rfl
  | some n =>
    dsimp only
    by_cases hstate : (sl.sessions n).state = .active ∨ (sl.sessions n).state = .inDeletion
    · rw [if_pos hstate]
      refine .inr ⟨n,rfl,hstate,?_⟩
      cases sendError with
      | none =>
        refine .inl ⟨rfl,?_⟩
        dsimp only
        rw [sessions_setState_self]
        rfl
      | some error =>
        refine .inr ⟨error,rfl,?_⟩
        dsimp only
        rw [sessions_setState_self,if_pos rfl]
    · rw [if_neg hstate]
      exact .inl rfl

end SessionLayer

/-- The first part of handling an open request leaves the status of the response, the session that was
allocated, and the resource that it is connected to. -/
structure OpenPending (maxSessions : Nat) where
  status : Int
  number : Option (Fin maxSessions)
  resourceId : UInt32

def OpenPending.response {maxSessions : Nat} (pending : OpenPending maxSessions) : List UInt8 :=
  sessionResponse stOpenSessionRes (UInt8.ofInt pending.status) pending.resourceId
    ((pending.number.map Fin.val).getD 0xffff)

/-- The `switch` over the result of the lookup callback has no default. -/
def openStatus (status : Int) : Int :=
  if status = 0 then sStatusOpen
  else if status = -1 then sStatusCloseNoRes
  else if status = -2 then sStatusCloseResLowVersion
  else if status = -3 then sStatusCloseResUnavailable
  else status

def parseOpenRequest : List UInt8 → Option UInt32
  | length :: b₁ :: b₂ :: b₃ :: b₄ :: _ => if length ≠ 4 then none else some (resourceIdOf b₁ b₂ b₃ b₄)
  | _ => none

namespace SessionLayer

variable {maxSessions : Nat}

/-- `en50221_sl_handle_open_session_request` up to the response. -/
def openBegin (sl : SessionLayer maxSessions) (requested : UInt32) (slotId connectionId : UInt8)
    (io : SlIo) : SlResult maxSessions × OpenPending maxSessions :=
  let found := io.lookup slotId requested
  let status := if sl.lookup then openStatus found.status else sStatusCloseNoRes
  if status = sStatusOpen then
    match sl.findIdle with
    | none => (({ sl with error := errOutofsessions }, []), ⟨sStatusCloseNoRes, none, found.resourceId⟩)
    | some n =>
      let sl := sl.allocNewSession n found.resourceId slotId connectionId found.callback
      if sl.session then
        let connecting := [.allocated n, .session .camconnecting slotId n found.resourceId]
        if io.accept then
          ((sl, connecting ++ [.accepted n]), ⟨sStatusOpen, some n, found.resourceId⟩)
        else ((sl, connecting), ⟨sStatusCloseResBusy, some n, found.resourceId⟩)
      else ((sl, [.allocated n]), ⟨sStatusCloseResUnavailable, some n, found.resourceId⟩)
  else ((sl, []), ⟨status, none, found.resourceId⟩)

/-- The rest of `en50221_sl_handle_open_session_request`. -/
def openEnd (sl : SessionLayer maxSessions) (slotId connectionId : UInt8)
    (pending : OpenPending maxSessions) (sendError : Option Int) : SlResult maxSessions :=
  let sent := send slotId connectionId pending.response sendError
  let status := if sendError.isSome then sStatusCloseNoRes else pending.status
  match pending.number with
  | none => (sl, sent)
  | some n =>
    let sl := sl.setState n (if status ≠ sStatusOpen then .idle else .active)
    if (sl.sessions n).state = .active then
      if status = sStatusOpen then
        (sl, sent ++ sl.inform (.session .camconnected slotId n pending.resourceId))
      else
        (sl.setState n .idle, sent ++ sl.inform (.session .camconnectfail slotId n pending.resourceId))
    else (sl, sent)

theorem openBegin_cases (sl : SessionLayer maxSessions) (requested : UInt32) (slotId connectionId : UInt8) (io : SlIo) :
    (∃ error status, status ≠ sStatusOpen ∧ sl.openBegin requested slotId connectionId io =
      (({ sl with error := error }, []), ⟨status, none, (io.lookup slotId requested).resourceId⟩)) ∨
    ∃ n evs status, sl.findIdle = some n ∧ sl.lookup = true ∧
      openStatus (io.lookup slotId requested).status = sStatusOpen ∧
      sl.openBegin requested slotId connectionId io =
        ((sl.allocNewSession n (io.lookup slotId requested).resourceId slotId connectionId
            (io.lookup slotId requested).callback, .allocated n :: evs),
          ⟨status, some n, (io.lookup slotId requested).resourceId⟩) ∧
      (sl.session = true ∧ io.accept = true ∧ status = sStatusOpen ∧
          evs = [.session .camconnecting slotId n (io.lookup slotId requested).resourceId, .accepted n] ∨
        status ≠ sStatusOpen ∧
          (evs = [] ∨ evs = [.session .camconnecting slotId n (io.lookup slotId requested).resourceId])) := by
  have hkeep : sl = { sl with error := sl.error } := rfl
  unfold openBegin
  dsimp only
  by_cases hlookup : sl.lookup = true
  · rw [if_pos hlookup]
    by_cases hstatus : openStatus (io.lookup slotId requested).status = sStatusOpen
    · rw [if_pos hstatus]
      cases sl.findIdle with
      | none => exact .inl ⟨errOutofsessions,sStatusCloseNoRes,by decide,rfl⟩
      | some n =>
        right
        dsimp only
        rw [session_allocNewSession]
        by_cases hsession : sl.session = true
        · rw [if_pos hsession]
          by_cases haccept : io.accept = true
          · rw [if_pos haccept]
            exact ⟨n,_,sStatusOpen,rfl,hlookup,hstatus,rfl,.inl ⟨hsession,haccept,rfl,rfl⟩⟩
          · rw [if_neg haccept]
            exact ⟨n,_,sStatusCloseResBusy,rfl,hlookup,hstatus,rfl,.inr ⟨by decide,.inr rfl⟩⟩
        · rw [if_neg hsession]
          exact ⟨n,[],sStatusCloseResUnavailable,rfl,hlookup,hstatus,rfl,.inr ⟨by decide,.inl rfl⟩⟩
    · rw [if_neg hstatus]
      exact .inl ⟨sl.error,_,hstatus,by rw [← hkeep]⟩
  · rw [if_neg hlookup,if_neg (by decide)]
    exact .inl ⟨sl.error,sStatusCloseNoRes,by decide,by rw [← hkeep]⟩

variable (sl : SessionLayer maxSessions) (slotId connectionId : UInt8) {pending : OpenPending maxSessions}
  {sendError : Option Int}

theorem openEnd_of_none (h : pending.number = none) : sl.openEnd slotId connectionId pending sendError =
      (sl, send slotId connectionId pending.response sendError) := by
  unfold openEnd
  rw [h]

theorem openEnd_opened {n : Fin maxSessions} (hnumber : pending.number = some n)
    (hstatus : pending.status = sStatusOpen) (hsend : sendError = none) :
    sl.openEnd slotId connectionId pending sendError =
      (sl.setState n .active, send slotId connectionId pending.response none ++
        sl.inform (.session .camconnected slotId n pending.resourceId)) := by
  unfold openEnd
  rw [hnumber,hsend,hstatus]
  simp only [isSome_none,Bool.false_eq_true,if_false,ne_eq,not_true_eq_false,
    sessions_setState_self,if_true,inform_setState]

theorem openEnd_failed {n : Fin maxSessions} (hnumber : pending.number = some n)
    (hfail : pending.status ≠ sStatusOpen ∨ sendError.isSome) :
    sl.openEnd slotId connectionId pending sendError =
      (sl.setState n .idle, send slotId connectionId pending.response sendError) := by
  have hstatus : (if sendError.isSome then sStatusCloseNoRes else pending.status) ≠ sStatusOpen := by
    by_cases hsome : sendError.isSome = true
    · rw [if_pos hsome]
      decide
    · rw [if_neg hsome]
      exact hfail.resolve_right hsome
  unfold openEnd
  rw [hnumber]
  dsimp only
  rw [if_pos hstatus,sessions_setState_self,if_neg (fun h => SessionState.noConfusion h)]

def handleOpenSessionRequest (sl : SessionLayer maxSessions) (data : List UInt8)
    (slotId connectionId : UInt8) (io : SlIo) : SlResult maxSessions :=
  match parseOpenRequest data with
  | none => (sl, [])
  | some requested =>
    let first := sl.openBegin requested slotId connectionId io
    let second := first.1.1.openEnd slotId connectionId first.2 io.sendError
    (second.1, first.1.2 ++ second.2)

/-- The session with this number on this connection of this slot, if it is in one of these states. -/
def onConnection (sl : SessionLayer maxSessions) (number : Nat) (slotId connectionId : UInt8)
    (states : List SessionState) : Option (Fin maxSessions) :=
  (toFin? maxSessions number).filter fun n =>
    decide (slotId = (sl.sessions n).slotId) && decide (connectionId = (sl.sessions n).connectionId) &&
      decide ((sl.sessions n).state ∈ states)

def handleCloseSessionRequest (sl : SessionLayer maxSessions) (data : List UInt8)
    (slotId connectionId : UInt8) (io : SlIo) : SlResult maxSessions :=
  match data with
  | length :: high :: low :: _ =>
    if length ≠ 2 then (sl, [])
    else
      let number := sessionNumber high low
      let respond (code : UInt8) :=
        send slotId connectionId (closeSessionResponse code number) io.sendError
      match sl.onConnection number slotId connectionId [.active, .inDeletion] with
      | none => (sl, respond 0xF0)
      | some n =>
        (sl.setState n .idle, respond 0x00 ++ sl.inform (.session .close slotId n (sl.sessions n).resourceId))
  | _ => (sl, [])

/-- The session number is read from `data[5]` and `data[6]`. -/
def handleCreateSessionResponse (sl : SessionLayer maxSessions) (data : List UInt8)
    (slotId connectionId : UInt8) : SlResult maxSessions :=
  match data with
  | length :: status :: _ :: _ :: _ :: b₅ :: b₆ :: _ :: _ =>
    if length ≠ 7 then (sl, [])
    else
      match sl.onConnection (sessionNumber b₅ b₆) slotId connectionId [.inCreation] with
      | none => (sl, [])
      | some n =>
        if status ≠ 0 then
          (sl.setState n .idle, sl.inform (.session .connectfail slotId n (sl.sessions n).resourceId))
        else
          (sl.setState n .active, sl.inform (.session .connected slotId n (sl.sessions n).resourceId))
  | _ => (sl, [])

def handleCloseSessionResponse (sl : SessionLayer maxSessions) (data : List UInt8)
    (slotId connectionId : UInt8) : SlResult maxSessions :=
  match data with
  | length :: _ :: high :: low :: _ :: _ =>
    if length ≠ 4 then (sl, [])
    else
      match sl.onConnection (sessionNumber high low) slotId connectionId [.inDeletion] with
      | none => (sl, [])
      | some n => (sl.setState n .idle, [])
  | _ => (sl, [])

end SessionLayer

/-- The loop over the APDUs of a package, with those that are passed up; `none` if it reads outside of the
data or does not end within `fuel` rounds. -/
def splitApdus : Nat → List UInt8 → Option (List (List UInt8))
  | _, [] => some []
  | 0, _ :: _ => none
  | fuel + 1, b :: bs => do
    let data := b :: bs
    if data.length < 3 then some []
    else
      match ← asn1Decode (data.drop 3) (data.length - 3) with
      | none => some []
      | some (lengthFieldLen, asnDataLength) =>
        let apduLength := 3 + lengthFieldLen + asnDataLength
        if apduLength > data.length then some []
        else do
          let rest ← splitApdus fuel (data.drop apduLength)
          some (data.take apduLength :: rest)

namespace SessionLayer

variable {maxSessions : Nat}

def handleSessionPackage (sl : SessionLayer maxSessions) (data : List UInt8)
    (slotId connectionId : UInt8) : SlResult maxSessions :=
  match data with
  | length :: high :: low :: apdus =>
    if length ≠ 2 then (sl, [])
    else
      match sl.onConnection (sessionNumber high low) slotId connectionId [.active] with
      | none => (sl, [])
      | some n =>
        match (sl.sessions n).callback, splitApdus apdus.length apdus with
        | some callback, some apdus =>
          (sl, apdus.map fun apdu => .resource callback slotId n (sl.sessions n).resourceId apdu)
        | _, _ => (sl, [])
  | _ => (sl, [])

/-- The busy sessions that meet `p` are closed, one after the other. -/
def closeSessions (sl : SessionLayer maxSessions) (p : Session → Bool) : SlResult maxSessions :=
  let concerned (n : Fin maxSessions) := (sl.sessions n).state ≠ .idle ∧ p (sl.sessions n)
  ({ sl with sessions := fun n =>
      if concerned n then { sl.sessions n with state := .idle } else sl.sessions n },
    ((List.finRange maxSessions).filter fun n => concerned n).flatMap fun n =>
      sl.inform (.session .close (sl.sessions n).slotId n (sl.sessions n).resourceId))

/-- The `switch` over the tag of an SPDU. -/
def handleSpdu (sl : SessionLayer maxSessions) (spduTag : UInt8) (data : List UInt8)
    (slotId connectionId : UInt8) (io : SlIo) : SlResult maxSessions :=
  if spduTag = stOpenSessionReq then sl.handleOpenSessionRequest data slotId connectionId io
  else if spduTag = stCloseSessionReq then sl.handleCloseSessionRequest data slotId connectionId io
  else if spduTag = stSessionNumber then sl.handleSessionPackage data slotId connectionId
  else if spduTag = stCreateSessionRes then sl.handleCreateSessionResponse data slotId connectionId
  else if spduTag = stCloseSessionRes then sl.handleCloseSessionResponse data slotId connectionId
  else (sl, [])

/-- An SPDU that is no open request is handled for at most one session, which is on the connection and in one
of these states: data is sent, or this session gets a new state or is given data. -/
def ConcernsOne (sl : SessionLayer maxSessions) (slotId connectionId : UInt8) (states : List SessionState)
    (r : SlResult maxSessions) : Prop :=
  (r.1 = sl ∧ ∀ e ∈ r.2, ∃ data, e = .sent slotId connectionId data) ∨
  ∃ number n, sl.onConnection number slotId connectionId states = some n ∧
    (r.1 = sl ∨ ∃ state, r.1 = sl.setState n state) ∧
    ∀ e ∈ r.2, (∃ data, e = .sent slotId connectionId data) ∨
      (∃ reason resourceId, reason ∈ [SessionReason.connected, .connectfail, .close] ∧
        e = .session reason slotId n resourceId) ∨
      ∃ callback resourceId data, e = .resource callback slotId n resourceId data

section ConcernsOne

variable (sl : SessionLayer maxSessions) (data : List UInt8) (slotId connectionId : UInt8)

theorem concernsOne_nothing (states : List SessionState) :
    ConcernsOne sl slotId connectionId states (sl, []) := .inl ⟨rfl, fun _ he => nomatch he⟩

theorem mem_send {data : List UInt8} {sendError : Option Int} {e : SlEvent maxSessions}
    (he : e ∈ send slotId connectionId data sendError) : e = .sent slotId connectionId data := by
  unfold send at he
  split at he
  · cases he
  · exact mem_singleton.mp he

theorem mem_inform {event e : SlEvent maxSessions} (he : e ∈ sl.inform event) : e = event := by
  unfold inform at he
  split at he
  · exact mem_singleton.mp he
  · cases he

theorem handleCloseSessionRequest_concernsOne (io : SlIo) : ConcernsOne sl slotId connectionId [.active, .inDeletion]
      (sl.handleCloseSessionRequest data slotId connectionId io) := by
  unfold handleCloseSessionRequest
  split
  · split
    · exact concernsOne_nothing sl slotId connectionId _
    dsimp only
    split
    · exact .inl ⟨rfl,fun e he => ⟨_,mem_send slotId connectionId he⟩⟩
    · rename_i n hfound
      refine .inr ⟨_,n,hfound,.inr ⟨.idle,rfl⟩,?_⟩
      intro e he
      rcases mem_append.mp he with hsent | hclose
      · exact .inl ⟨_,mem_send slotId connectionId hsent⟩
      · exact .inr (.inl ⟨.close,_,by decide,mem_inform sl hclose⟩)
  · exact concernsOne_nothing sl slotId connectionId _

theorem handleCreateSessionResponse_concernsOne : ConcernsOne sl slotId connectionId [.inCreation]
      (sl.handleCreateSessionResponse data slotId connectionId) := by
  unfold handleCreateSessionResponse
  split
  · split
    · exact concernsOne_nothing sl slotId connectionId _
    split
    · exact concernsOne_nothing sl slotId connectionId _
    · rename_i n hfound
      split
      · exact .inr ⟨_,n,hfound,.inr ⟨.idle,rfl⟩,
          fun e he => .inr (.inl ⟨.connectfail,_,by decide,mem_inform sl he⟩)⟩
      · exact .inr ⟨_,n,hfound,.inr ⟨.active,rfl⟩,
          fun e he => .inr (.inl ⟨.connected,_,by decide,mem_inform sl he⟩)⟩
  · exact concernsOne_nothing sl slotId connectionId _

theorem handleCloseSessionResponse_concernsOne : ConcernsOne sl slotId connectionId [.inDeletion]
      (sl.handleCloseSessionResponse data slotId connectionId) := by
  unfold handleCloseSessionResponse
  split
  · split
    · exact concernsOne_nothing sl slotId connectionId _
    split
    · exact concernsOne_nothing sl slotId connectionId _
    · rename_i n hfound
      exact .inr ⟨_,n,hfound,.inr ⟨.idle,rfl⟩,fun _ he => nomatch he⟩
  · exact concernsOne_nothing sl slotId connectionId _

theorem handleSessionPackage_concernsOne :
    ConcernsOne sl slotId connectionId [.active] (sl.handleSessionPackage data slotId connectionId) := by
  unfold handleSessionPackage
  split
  · split
    · exact concernsOne_nothing sl slotId connectionId _
    split
    · exact concernsOne_nothing sl slotId connectionId _
    · rename_i n hfound
      split
      · refine .inr ⟨_,n,hfound,.inl rfl,?_⟩
        intro e he
        obtain ⟨apdu,-,rfl⟩ := mem_map.mp he
        exact .inr (.inr ⟨_,_,_,rfl⟩)
      · exact concernsOne_nothing sl slotId connectionId _
  · exact concernsOne_nothing sl slotId connectionId _

theorem handleSpdu_concernsOne {spduTag : UInt8} (htag : spduTag ≠ stOpenSessionReq) (io : SlIo) :
    ∃ states, ConcernsOne sl slotId connectionId states
      (sl.handleSpdu spduTag data slotId connectionId io) := by
  unfold handleSpdu
  rw [if_neg htag]
  split
  · exact ⟨_,handleCloseSessionRequest_concernsOne sl data slotId connectionId io⟩
  split
  · exact ⟨_,handleSessionPackage_concernsOne sl data slotId connectionId⟩
  split
  · exact ⟨_,handleCreateSessionResponse_concernsOne sl data slotId connectionId⟩
  split
  · exact ⟨_,handleCloseSessionResponse_concernsOne sl data slotId connectionId⟩
  · exact ⟨[],concernsOne_nothing sl slotId connectionId _⟩

end ConcernsOne

/-- `en50221_sl_transport_callback`. A closed connection is told by its connection id alone. -/
def transportCallback (sl : SessionLayer maxSessions) (reason : CallbackReason) (data : List UInt8)
    (slotId connectionId : UInt8) (io : SlIo) : SlResult maxSessions :=
  match reason with
  | .connectionopen => (sl, sl.inform (.connection false slotId connectionId))
  | .camconnectionopen => (sl, sl.inform (.connection true slotId connectionId))
  | .connectionclose => sl.closeSessions fun session => session.connectionId == connectionId
  | .slotclose => sl.closeSessions fun session => session.slotId == slotId
  | .data =>
    match data with
    | [] => (sl, [])
    | spduTag :: data => sl.handleSpdu spduTag data slotId connectionId io

end SessionLayer

inductive SlCall (maxSessions : Nat) where
  | createSession (slotId connectionId : UInt8) (resourceId : UInt32) (callback : Option Nat)
    (sendError : Option Int)
  | destroySession (number : UInt16) (sendError : Option Int)
  | sendData (number : UInt16) (data : List UInt8) (sendError : Option Int)
  | sendDatav (number : UInt16) (vector : List (List UInt8)) (sendError : Option Int)
  | broadcastData (slotId : Option UInt8) (resourceId : UInt32) (data : List UInt8)
    (sendError : Fin maxSessions → Option Int)
  | registerLookupCallback (lookup : Bool)
  | registerSessionCallback (session : Bool)
  /-- `en50221_tl_destroy_slot`, which calls the session layer -/
  | destroySlot (slotId : UInt8)

/-- A call of the user, a callback of the transport layer, or an open request together with the calls that
are made between its two parts. -/
inductive SlInput (maxSessions : Nat) where
  | call (call : SlCall maxSessions)
  | callback (reason : CallbackReason) (data : List UInt8) (slotId connectionId : UInt8) (io : SlIo)
  | openRequest (data : List UInt8) (slotId connectionId : UInt8) (io : SlIo)
    (meanwhile : List (SlCall maxSessions))

namespace SessionLayer

variable {maxSessions : Nat}

def call (sl : SessionLayer maxSessions) : SlCall maxSessions → SlResult maxSessions
  | .createSession slotId connectionId resourceId callback sendError =>
    (sl.createSession slotId connectionId resourceId callback sendError).1
  | .destroySession number sendError => (sl.destroySession number sendError).1
  | .sendData number data sendError => (sl.sendData number data sendError).1
  | .sendDatav number vector sendError => (sl.sendDatav number vector sendError).1
  | .broadcastData slotId resourceId data sendError =>
    (sl.broadcastData slotId resourceId data sendError).1
  | .registerLookupCallback lookup => ({ sl with lookup := lookup }, [])
  | .registerSessionCallback session => ({ sl with session := session }, [])
  | .destroySlot slotId => sl.closeSessions fun session => session.slotId == slotId

end SessionLayer

open SessionLayer in
def slStep {maxSessions : Nat} (sl : SessionLayer maxSessions) :
    SlInput maxSessions → SlResult maxSessions
  | .call c => sl.call c
  | .callback reason data slotId connectionId io =>
    sl.transportCallback reason data slotId connectionId io
  | .openRequest data slotId connectionId io meanwhile =>
    match parseOpenRequest data with
    | none => (sl, [])
    | some requested =>
      let first := sl.openBegin requested slotId connectionId io
      let between := runTrace call first.1.1 meanwhile
      let second := between.1.openEnd slotId connectionId first.2 io.sendError
      (second.1, first.1.2 ++ between.2 ++ second.2)

/-- `en50221_sl_create`. The other fields of the sessions are not initialised. -/
def slCreate {maxSessions : Nat} (uninitialised : Fin maxSessions → Session) :
    SessionLayer maxSessions where
  lookup := false
  session := false
  error := 0
  sessions := fun n => { uninitialised n with state := .idle, callback := none }

end LinuxDvb.En50221
