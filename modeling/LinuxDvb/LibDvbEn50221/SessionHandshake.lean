import LinuxDvb.LibDvbEn50221.SessionIsolation

/-!
# Handshakes for a session

A session that the host creates waits for a response, and so does one that it destroys. The number in the response to
a create request is read one byte too early.
-/

namespace LinuxDvb.En50221

open SessionLayer

variable {maxSessions : Nat}

theorem sessionNumber_eq (high low : UInt8) : sessionNumber high low = high.toNat * 256 + low.toNat := by
  have hlow : low.toNat < 2 ^ 8 := low.toNat_lt
  unfold sessionNumber
  rw [Nat.shiftLeft_eq,Nat.mul_comm,← Nat.two_pow_add_eq_or_of_lt hlow,Nat.mul_comm]

theorem toFin?_self (n : Fin maxSessions) : toFin? maxSessions n.val = some n := by
  unfold toFin?
  rw [dif_pos n.isLt]

theorem onConnection_self {sl : SessionLayer maxSessions} {n : Fin maxSessions} {slotId connectionId : UInt8}
    {states : List SessionState} (hon : OnConnection sl n slotId connectionId)
    (hstate : (sl.sessions n).state ∈ states) :
    sl.onConnection n.val slotId connectionId states = some n := by
  unfold SessionLayer.onConnection
  rw [toFin?_self,Option.filter_some,if_pos]
  simp [hon.1,hon.2,hstate]

def createSessionResponse (status : UInt8) (resourceId : UInt32) (n : Nat) : List UInt8 :=
  sessionResponse stCreateSessionRes status resourceId n

/-- The number that is read from the response: the last byte of the resource id, and the first byte of the
session number. -/
def numberRead (resourceId : UInt32) (n : Nat) : Nat :=
  resourceId.toNat % 256 * 256 + n / 256 % 256

theorem sessionNumber_read (resourceId : UInt32) (n : Nat) :
    sessionNumber resourceId.toUInt8 (UInt8.ofNat (n >>> 8)) = numberRead resourceId n := by
  rw [sessionNumber_eq,UInt32.toNat_toUInt8,UInt8.toNat_ofNat',Nat.shiftRight_eq_div_pow]
  rfl

/-- The module answers the request to create session `n`: the session becomes active and is reported, or it
becomes idle if the status is not 0, and all other sessions are kept. -/
def CreateHandshake (sl : SessionLayer maxSessions) (n : Fin maxSessions) : Prop :=
  ∀ io : SlIo,
    let session := sl.sessions n
    let answer (status : UInt8) :=
      sl.transportCallback .data (createSessionResponse status session.resourceId n) session.slotId
        session.connectionId io
    (answer 0).1.sessions = (sl.setState n .active).sessions ∧
      (answer 0).2 = sl.inform (.session .connected session.slotId n session.resourceId) ∧
      ∀ status ≠ 0, (answer status).1.sessions = (sl.setState n .idle).sessions

theorem transportCallback_createSessionResponse (sl : SessionLayer maxSessions) (status : UInt8)
    (resourceId : UInt32) (n : Nat) (slotId connectionId : UInt8) (io : SlIo) :
    sl.transportCallback .data (createSessionResponse status resourceId n) slotId connectionId io =
      match sl.onConnection (numberRead resourceId n) slotId connectionId [.inCreation] with
      | none => (sl, [])
      | some m =>
        if status ≠ 0 then
          (sl.setState m .idle, sl.inform (.session .connectfail slotId m (sl.sessions m).resourceId))
        else
          (sl.setState m .active, sl.inform (.session .connected slotId m (sl.sessions m).resourceId)) := by
  rw [← sessionNumber_read]
  rfl

theorem create_not_answered {sl : SessionLayer maxSessions} {n : Fin maxSessions}
    (hcreation : (sl.sessions n).state = .inCreation)
    (hread : numberRead (sl.sessions n).resourceId n ≠ n) (status slotId connectionId : UInt8) (io : SlIo) :
    ((sl.transportCallback .data (createSessionResponse status (sl.sessions n).resourceId n) slotId
      connectionId io).1.sessions n).state = .inCreation := by
  rw [transportCallback_createSessionResponse]
  cases hfound : sl.onConnection (numberRead (sl.sessions n).resourceId n) slotId connectionId
      [.inCreation] with
  | none => exact hcreation
  | some m =>
    have hne : n ≠ m := by
      rintro rfl
      exact hread (onConnection_spec hfound).1.symm
    dsimp only
    split
    · rw [sessions_setState_of_ne hne]
      exact hcreation
    · rw [sessions_setState_of_ne hne]
      exact hcreation

/-- The response to a create request does what it should exactly if the last byte of the resource id and the
first byte of the session number are the two bytes of the session number. -/
theorem create_handshake_iff (sl : SessionLayer maxSessions) (n : Fin maxSessions)
    (hcreation : (sl.sessions n).state = .inCreation) :
    CreateHandshake sl n ↔ numberRead (sl.sessions n).resourceId n = n := by
  constructor
  · intro h
    by_contra hread
    have hactive := congrArg (fun sessions : Fin maxSessions → Session => (sessions n).state) (h refusing).1
    dsimp only at hactive
    rw [create_not_answered hcreation hread, sessions_setState_self] at hactive
    cases hactive
  · intro hread io
    have hfound : sl.onConnection (numberRead (sl.sessions n).resourceId n) (sl.sessions n).slotId
        (sl.sessions n).connectionId [.inCreation] = some n := by
      rw [hread]
      exact onConnection_self ⟨rfl, rfl⟩ (List.mem_singleton.mpr hcreation)
    have hanswer := fun status => transportCallback_createSessionResponse sl status
      (sl.sessions n).resourceId n (sl.sessions n).slotId (sl.sessions n).connectionId io
    simp only [hfound] at hanswer
    dsimp only
    refine ⟨?_, ?_, ?_⟩
    · rw [hanswer]
      rfl
    · rw [hanswer]
      rfl
    · intro status hstatus
      rw [hanswer, if_pos hstatus]

def creating257 : SessionLayer 258 where
  lookup := true
  session := true
  error := 0
  sessions := fun n => ⟨if n = 257 then .inCreation else .idle, 0x00024101, 0, 1, none⟩

theorem create_handshake_257 : CreateHandshake creating257 257 :=
  (create_handshake_iff creating257 257 rfl).mpr (by decide)

/-- Session 1 is being created for conditional access; the response is taken for one of session 16640. -/
def creatingCa : SessionLayer 16 where
  lookup := true
  session := true
  error := 0
  sessions := fun n => ⟨if n = 1 then .inCreation else .idle, 0x00030041, 0, 1, none⟩

theorem create_not_completed : ¬CreateHandshake creatingCa 1 := by
  intro h
  have hactive := congrArg (fun sessions : Fin 16 → Session => (sessions 1).state) (h refusing).1
  exact absurd hactive (by decide)

/-- The module answers the request to close session `n` as this library does: the session becomes idle, and
all other sessions are kept. -/
def CloseHandshake (sl : SessionLayer maxSessions) (n : Fin maxSessions) : Prop :=
  ∀ (code : UInt8) (io : SlIo),
    (sl.transportCallback .data (closeSessionResponse code n) (sl.sessions n).slotId
      (sl.sessions n).connectionId io).1.sessions = (sl.setState n .idle).sessions

theorem transportCallback_closeSessionResponse (sl : SessionLayer maxSessions) (code : UInt8) (n : Nat)
    (slotId connectionId : UInt8) (io : SlIo) :
    sl.transportCallback .data (closeSessionResponse code n) slotId connectionId io = (sl, []) := rfl

def SlCall.KeepsClosing : SlCall maxSessions → Prop
  | .destroySession _ sendError => sendError = none
  | .destroySlot _ => False
  | _ => True

/-- What happens while the host waits for a session to be closed: neither the module nor the user closes it
otherwise, and all close responses are as this library encodes them. -/
def SlInput.KeepsClosing : SlInput maxSessions → Prop
  | .call c => c.KeepsClosing
  | .callback .data (tag :: data) _ _ _ =>
    tag ≠ stCloseSessionReq ∧
      (tag = stCloseSessionRes → ∃ code n, tag :: data = closeSessionResponse code n)
  | .callback .connectionclose _ _ _ _ | .callback .slotclose _ _ _ _ => False
  | .callback _ _ _ _ _ => True
  | .openRequest _ _ _ _ meanwhile => ∀ c ∈ meanwhile, c.KeepsClosing

def StillClosing (n : Fin maxSessions) (r : SlResult maxSessions) : Prop :=
  (r.1.sessions n).state = .inDeletion ∧ .allocated n ∉ r.2

section StillClosing

variable {sl : SessionLayer maxSessions} {n : Fin maxSessions}

theorem Kept.stillClosing {r : SlResult maxSessions} (h : Kept sl n r)
    (hn : (sl.sessions n).state = .inDeletion) : StillClosing n r := by
  refine ⟨by rw [h.1,hn],?_⟩
  intro hmem
  exact h.2 _ hmem rfl

theorem StillClosing.append {r r' : SlResult maxSessions} (h : StillClosing n r)
    (h' : StillClosing n r') : StillClosing n (r'.1, r.2 ++ r'.2) := by
  refine ⟨h'.1,?_⟩
  rw [mem_append]
  rintro (hleft | hright)
  · exact h.2 hleft
  · exact h'.2 hright

theorem OnlySends.kept {r : SlResult maxSessions} (h : sl.OnlySends r) : Kept sl n r := by
  refine ⟨congrFun h.1 n,?_⟩
  intro e he
  obtain ⟨slotId,connectionId,data,rfl⟩ := h.2.2 e he
  exact id

theorem kept_createSession (hbusy : Busy sl n) (slotId connectionId : UInt8) (resourceId : UInt32)
    (callback : Option Nat) (sendError : Option Int) :
    Kept sl n (sl.createSession slotId connectionId resourceId callback sendError).1 := by
  rcases sl.createSession_cases slotId connectionId resourceId callback sendError with
    heq | ⟨m,hfound,hcases⟩
  · rw [heq]
    exact ⟨rfl,fun _ he => nomatch he⟩
  · have hne : n ≠ m := by
      rintro rfl
      exact hbusy (findIdle_state hfound)
    have hsame := @sessions_allocNewSession_of_ne _ sl _ _ hne resourceId slotId connectionId callback
    rcases hcases with ⟨data,heq⟩ | ⟨error,heq⟩
    · rw [heq]
      refine ⟨hsame,?_⟩
      simp [SlEvent.About,hne.symm]
    · rw [heq]
      refine ⟨(sessions_setState_of_ne hne _).trans hsame,?_⟩
      simp [SlEvent.About,hne.symm]

theorem stillClosing_setState (hn : (sl.sessions n).state = .inDeletion) {m : Fin maxSessions}
    {state : SessionState} (h : n = m → state = .inDeletion) {evs : List (SlEvent maxSessions)}
    (hevs : .allocated n ∉ evs) : StillClosing n (sl.setState m state, evs) := by
  refine ⟨?_,hevs⟩
  dsimp only
  rw [sessions_setState]
  split
  · rename_i heq
    exact h heq
  · exact hn

theorem stillClosing_call (hn : (sl.sessions n).state = .inDeletion) {c : SlCall maxSessions}
    (hc : c.KeepsClosing) : StillClosing n (sl.call c) := by
  have hbusy : Busy sl n := by
    unfold Busy
    rw [hn]
    decide
  cases c with
  | createSession slotId connectionId resourceId callback sendError =>
    exact (kept_createSession hbusy slotId connectionId resourceId callback sendError).stillClosing hn
  | destroySession number sendError =>
    cases hc
    rcases sl.destroySession_cases number none with heq | ⟨m,-,-,⟨-,heq⟩ | ⟨error,herror,-⟩⟩
    · change StillClosing n (sl.destroySession number none).1
      rw [heq]
      exact ⟨hn,not_mem_nil⟩
    · change StillClosing n (sl.destroySession number none).1
      rw [heq]
      exact stillClosing_setState hn (fun _ => rfl) (by simp)
    · cases herror
  | sendData number data sendError =>
    exact (OnlySends.kept (sendBytes_onlySends sl _ _ _ _)).stillClosing hn
  | sendDatav number vector sendError =>
    exact (OnlySends.kept (sendBytes_onlySends sl _ _ _ _)).stillClosing hn
  | broadcastData slotId resourceId data sendError =>
    exact (OnlySends.kept (broadcastData_onlySends sl _ _ _ _)).stillClosing hn
  | registerLookupCallback lookup => exact ⟨hn,not_mem_nil⟩
  | registerSessionCallback session => exact ⟨hn,not_mem_nil⟩
  | destroySlot slotId => exact hc.elim

theorem stillClosing_calls (hn : (sl.sessions n).state = .inDeletion) {cs : List (SlCall maxSessions)}
    (hcs : ∀ c ∈ cs, c.KeepsClosing) : StillClosing n (runTrace SessionLayer.call sl cs) := by
  induction cs generalizing sl with
  | nil => exact ⟨hn,not_mem_nil⟩
  | cons c cs ih =>
    have hfirst := stillClosing_call hn (hcs c mem_cons_self)
    rw [runTrace_cons]
    exact hfirst.append (ih hfirst.1 fun c' hc' => hcs c' (mem_cons_of_mem _ hc'))

theorem SessionLayer.ConcernsOne.stillClosing {slotId connectionId : UInt8} {states : List SessionState}
    {r : SlResult maxSessions} (h : ConcernsOne sl slotId connectionId states r)
    (hstates : .inDeletion ∉ states) (hn : (sl.sessions n).state = .inDeletion) : StillClosing n r := by
  rcases h with ⟨hsame,hsent⟩ | ⟨number,m,hfound,hstate,hevs⟩
  · refine ⟨by rw [hsame,hn],?_⟩
    intro hmem
    obtain ⟨data,heq⟩ := hsent _ hmem
    cases heq
  · have hne : n ≠ m := by
      rintro rfl
      have hmem := (onConnection_spec hfound).2.2
      rw [hn] at hmem
      exact hstates hmem
    constructor
    · rcases hstate with hsame | ⟨state,hset⟩
      · rw [hsame,hn]
      · rw [hset,sessions_setState_of_ne hne,hn]
    · intro hmem
      rcases hevs _ hmem with ⟨data,heq⟩ | ⟨reason,resourceId,-,heq⟩ | ⟨callback,resourceId,data,heq⟩
      · cases heq
      · cases heq
      · cases heq

theorem stillClosing_callback (hn : (sl.sessions n).state = .inDeletion) {reason : CallbackReason}
    {data : List UInt8} {slotId connectionId : UInt8} {io : SlIo}
    (hop : (SlInput.callback reason data slotId connectionId io : SlInput maxSessions).KeepsClosing) :
    StillClosing n (sl.transportCallback reason data slotId connectionId io) := by
  have hbusy : Busy sl n := by
    unfold Busy
    rw [hn]
    decide
  cases reason with
  | connectionopen => exact Kept.stillClosing ⟨rfl,not_about_inform id⟩ hn
  | camconnectionopen => exact Kept.stillClosing ⟨rfl,not_about_inform id⟩ hn
  | connectionclose => exact hop.elim
  | slotclose => exact hop.elim
  | data =>
    cases data with
    | nil => exact (kept_quiet sl n).stillClosing hn
    | cons tag data =>
      obtain ⟨hreq,hres⟩ := hop
      unfold transportCallback handleSpdu
      dsimp only
      split
      · exact (kept_handleOpenSessionRequest hbusy data slotId connectionId io).stillClosing hn
      split
      · exact (handleSessionPackage_concernsOne sl data slotId connectionId).stillClosing (by decide) hn
      split
      · exact (handleCreateSessionResponse_concernsOne sl data slotId connectionId).stillClosing (by decide) hn
      split
      · rename_i htag
        obtain ⟨code,m,hdata⟩ := hres htag
        obtain ⟨-,rfl⟩ := List.cons.inj hdata
        exact (kept_quiet sl n).stillClosing hn
      · exact (kept_quiet sl n).stillClosing hn

theorem stillClosing_step (hn : (sl.sessions n).state = .inDeletion) {op : SlInput maxSessions}
    (hop : op.KeepsClosing) : StillClosing n (slStep sl op) := by
  cases op with
  | call c => exact stillClosing_call hn hop
  | callback reason data slotId connectionId io => exact stillClosing_callback hn hop
  | openRequest data slotId connectionId io meanwhile =>
    unfold slStep
    dsimp only
    split
    · exact (kept_quiet sl n).stillClosing hn
    · rename_i requested _
      have hbusy : Busy sl n := by
        unfold Busy
        rw [hn]
        decide
      obtain ⟨hfirst,hnumber⟩ := kept_openBegin hbusy requested slotId connectionId io
      have hbegun := hfirst.stillClosing hn
      have hbetween := stillClosing_calls hbegun.1 hop
      have hend := (kept_openEnd hnumber slotId connectionId io.sendError).stillClosing hbetween.1
      exact (hbegun.append hbetween).append hend

theorem stillClosing_run (hn : (sl.sessions n).state = .inDeletion) {ops : List (SlInput maxSessions)}
    (hops : ∀ op ∈ ops, op.KeepsClosing) : StillClosing n (runTrace slStep sl ops) := by
  induction ops generalizing sl with
  | nil => exact ⟨hn,not_mem_nil⟩
  | cons op ops ih =>
    have hfirst := stillClosing_step hn (hops op mem_cons_self)
    rw [runTrace_cons]
    exact hfirst.append (ih hfirst.1 fun op' hop' => hops op' (mem_cons_of_mem _ hop'))

end StillClosing

/-- A session that the host destroys is never closed by a response as this library encodes it; as long as
nothing else closes it, it waits for one, and its number is not allocated again. -/
theorem close_never_completes (sl : SessionLayer maxSessions) (n : Fin maxSessions) (number : UInt16)
    (hnumber : number.toNat = n.val) (hdestroyed : (sl.destroySession number none).2 = 0) :
    ¬CloseHandshake (sl.destroySession number none).1.1 n ∧
      ∀ ops : List (SlInput maxSessions), (∀ op ∈ ops, op.KeepsClosing) →
        StillClosing n (runTrace slStep (sl.destroySession number none).1.1 ops) := by
  have hn : ((sl.destroySession number none).1.1.sessions n).state = .inDeletion := by
    rcases sl.destroySession_cases number none with heq | ⟨m, hm, -, ⟨-, heq⟩ | ⟨error, herror, -⟩⟩
    · rw [heq] at hdestroyed
      exact absurd hdestroyed (by decide : ¬(-1 : Int) = 0)
    · rw [hnumber, toFin?_self] at hm
      cases hm
      rw [heq, sessions_setState_self]
    · cases herror
  refine ⟨?_, fun ops hops => stillClosing_run hn hops⟩
  intro h
  have hidle := congrArg (fun sessions : Fin maxSessions → Session => (sessions n).state) (h 0 refusing)
  rw [transportCallback_closeSessionResponse] at hidle
  dsimp only at hidle
  rw [hn, sessions_setState_self] at hidle
  cases hidle

def oneSession : SessionLayer 2 where
  lookup := true
  session := true
  error := 0
  sessions := fun n => ⟨if n = 1 then .active else .idle, 0x00030041, 0, 1, none⟩

theorem close_never_completes_one : StillClosing 1 (runTrace slStep (oneSession.destroySession 1 none).1.1
      [.callback .data (closeSessionResponse 0 1) 0 1 refusing]) := by
  apply (close_never_completes oneSession 1 1 rfl rfl).2
  intro op hop
  rw [List.mem_singleton.mp hop]
  exact ⟨by decide, fun _ => ⟨0, 1, rfl⟩⟩

theorem close_not_completed : ¬CloseHandshake (oneSession.destroySession 1 none).1.1 1 := by
  intro h
  have hidle := congrArg (fun sessions : Fin 2 → Session => (sessions 1).state) (h 0 refusing)
  exact absurd hidle (by decide)

end LinuxDvb.En50221
