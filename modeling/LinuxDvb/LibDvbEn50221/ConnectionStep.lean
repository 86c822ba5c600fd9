import LinuxDvb.LibDvbEn50221.Connection

/-!
# Steps of a connection

What the transport layer can do to one entry of the array of connections. Every step of the transport layer is a run
of such steps at every connection, with the events of that connection.
-/

namespace LinuxDvb.En50221

open TransportLayer

variable {slots conns : Nat}

/-- What has been seen of a connection: how often it was allocated, and whether something has been written
since. -/
structure Seen where
  uses : Nat
  opened : Bool

def Seen.next (m : Seen) : ConnEvent → Seen
  | .allocated => ⟨m.uses + 1, false⟩
  | .written _ _ => ⟨m.uses, true⟩
  | .timedOut _ => m

theorem foldl_next_uses (evs : List ConnEvent) (m : Seen) :
    (evs.foldl Seen.next m).uses = m.uses + evs.count .allocated := by
  induction evs generalizing m with
  | nil => rfl
  | cons e evs ih =>
    rw [foldl_cons,ih,List.count_cons]
    cases e with
    | allocated =>
      simp only [Seen.next,beq_self_eq_true,if_true]
      omega
    | written data use => simp [Seen.next]
    | timedOut use => simp [Seen.next]

def createTpdu (id : UInt8) : List UInt8 := [tCreateTC, 1, id]

inductive ConnStep (clean : Prop) (id : UInt8) : Connection → List ConnEvent → Connection → Prop where
  | allocate {con : Connection} (hidle : con.state = .idle) (hclean : clean → con.sendQueue = []) :
    ConnStep clean id con [.allocated]
      { con with state := .inCreation, chainBuffer := none, use := con.use + 1 }
  | release {con : Connection} (hstate : con.state = .inCreation) :
    ConnStep clean id con [] { con with state := .idle }
  | queueCreate {con : Connection} (hstate : con.state = .inCreation)
    (hclean : clean → con.sendQueue = []) :
    ConnStep clean id con [] { con with sendQueue := con.sendQueue ++ [⟨createTpdu id, 3, con.use⟩] }
  | writeCreate {con : Connection} (hstate : con.state = .inCreation) :
    ConnStep clean id con [.written (createTpdu id) con.use] { con with txTime := some con.use }
  | queueData {con : Connection} (hstate : con.state = .active) (data : List UInt8) (length : Nat) :
    ConnStep clean id con []
      { con with sendQueue := con.sendQueue ++ [⟨tDataLast :: data, length, con.use⟩] }
  | queueDelete {con : Connection} (hstate : con.state = .active ∨ con.state = .inDeletion)
    (data : List UInt8) :
    ConnStep clean id con []
      { con with
        sendQueue := con.sendQueue ++ [⟨data, 3, con.use⟩]
        state := .activeDeletequeued }
  | clear {con : Connection} : ConnStep clean id con [] (clearConnection con)
  | drop {con : Connection} {msg : Message} {rest : List Message} (hqueue : con.sendQueue = msg :: rest) :
    ConnStep clean id con [] { con with sendQueue := rest }
  | send {con : Connection} {msg : Message} {rest : List Message}
    (hstate : con.state = .inCreation ∨ con.state = .active ∨ con.state = .activeDeletequeued)
    (hqueue : con.sendQueue = msg :: rest) (hdata : msg.data.head? ≠ some tDeleteTC) :
    ConnStep clean id con [.written (linkData msg) msg.use]
      { con with sendQueue := rest, txTime := some con.use }
  | sendDelete {con : Connection} {msg : Message} {rest : List Message}
    (hstate : con.state = .inCreation ∨ con.state = .active ∨ con.state = .activeDeletequeued)
    (hqueue : con.sendQueue = msg :: rest) (hdata : msg.data.head? = some tDeleteTC) :
    ConnStep clean id con [.written (linkData msg) msg.use]
      { con with sendQueue := rest, txTime := some con.use, state := .inDeletion, chainBuffer := none }
  | wait {con : Connection} (hstate : con.state = .active) :
    ConnStep clean id con [] { con with txTime := some con.use }
  | write {con : Connection} (hstate : con.state = .active) (data : List UInt8) :
    ConnStep clean id con [.written data con.use] { con with txTime := some con.use }
  | expire {con : Connection} (hstate : con.state = .inCreation ∨ con.state = .inDeletion) :
    ConnStep clean id con [] { con with state := .idle }
  | timeout {con : Connection} {use : Nat}
    (hstate : con.state = .active ∨ con.state = .activeDeletequeued) (htime : con.txTime = some use) :
    ConnStep clean id con [.timedOut use] con
  | createReply {con : Connection} (hstate : con.state = .inCreation)
    (hclean : clean → con.txTime = some con.use) :
    ConnStep clean id con [] { con with state := .active, txTime := none }
  | delete {con : Connection} (hstate : con.state = .active ∨ con.state = .inDeletion) :
    ConnStep clean id con [] { con with state := .idle, chainBuffer := none }
  | deleteReply {con : Connection} (hstate : con.state = .active ∨ con.state = .inDeletion)
    (data : List UInt8) :
    ConnStep clean id con [.written data con.use] { con with state := .idle, chainBuffer := none }
  | answerRequest {con : Connection} (data : List UInt8)
    (hclean : clean → con.state ≠ .idle ∧ con.state ≠ .inCreation) :
    ConnStep clean id con [.written data con.use] { con with txTime := none }
  | receive {con : Connection} (hstate : con.state = .active) (chainBuffer : Option (List UInt8)) :
    ConnStep clean id con [] { con with txTime := none, chainBuffer := chainBuffer }

inductive ConnRun (clean : Prop) (id : UInt8) : Connection → List ConnEvent → Connection → Prop where
  | refl (con : Connection) : ConnRun clean id con [] con
  | cons {con con' con'' : Connection} {evs evs' : List ConnEvent} (hstep : ConnStep clean id con evs con')
    (hrun : ConnRun clean id con' evs' con'') : ConnRun clean id con (evs ++ evs') con''

variable {id : UInt8} {con con' : Connection}

theorem ConnStep.run {clean : Prop} {evs : List ConnEvent}
    (h : ConnStep clean id con evs con') : ConnRun clean id con evs con' := by
  have hrun := ConnRun.cons h (.refl con')
  rw [append_nil] at hrun
  exact hrun

theorem ConnRun.append {clean : Prop} {con'' : Connection}
    {evs evs' : List ConnEvent} (h : ConnRun clean id con evs con') (h' : ConnRun clean id con' evs' con'') :
    ConnRun clean id con (evs ++ evs') con'' := by
  induction h with
  | refl con => exact h'
  | cons hstep _ ih =>
    rw [append_assoc]
    exact .cons hstep (ih h')

theorem ConnRun.accepted {clean : Prop} {μ : Type} {next : μ → ConnEvent → μ}
    {good : μ → ConnEvent → Prop} (Inv : Connection → μ → Prop)
    (hstep : ∀ con m evs con', Inv con m → ConnStep clean id con evs con' →
      Accepts next good m evs ∧ Inv con' (evs.foldl next m)) {m : μ} {evs : List ConnEvent} (h : ConnRun clean id con evs con')
    (hinv : Inv con m) : Accepts next good m evs ∧ Inv con' (evs.foldl next m) := by
  induction h generalizing m with
  | refl con => exact ⟨trivial,hinv⟩
  | cons hfirst _ ih =>
    obtain ⟨hacc,hinv'⟩ := hstep _ m _ _ hinv hfirst
    obtain ⟨hacc',hinv''⟩ := ih hinv'
    rw [accepts_append,foldl_append]
    exact ⟨⟨hacc,hacc'⟩,hinv''⟩

/-- Every connection gets from one state of the transport layer to the other by steps of its own. -/
def Local (clean : Prop) (tl : TransportLayer slots conns) (evs : List (TlEvent slots conns))
    (tl' : TransportLayer slots conns) : Prop :=
  ∀ s c, ConnRun clean (UInt8.ofNat c.val) (tl.conn s c) (connEvents s c evs) (tl'.conn s c)

variable {tl' : TransportLayer slots conns} {evs : List (TlEvent slots conns)}

theorem Local.append {clean : Prop} {tl tl'' : TransportLayer slots conns}
    {evs' : List (TlEvent slots conns)} (h : Local clean tl evs tl') (h' : Local clean tl' evs' tl'') :
    Local clean tl (evs ++ evs') tl'' := by
  intro s c
  rw [connEvents_append]
  exact (h s c).append (h' s c)

theorem Local.same {clean : Prop} {tl : TransportLayer slots conns}
    (h : ∀ s c, tl'.conn s c = tl.conn s c) (hevs : ∀ s c, connEvents s c evs = []) :
    Local clean tl evs tl' := by
  intro s c
  rw [h,hevs]
  exact .refl _

theorem Local.at {clean : Prop} {tl : TransportLayer slots conns} {s : Fin slots} {c : Fin conns}
    {r : TlResult slots conns} (hothers : Elsewhere s c tl r)
    (h : ConnRun clean (UInt8.ofNat c.val) (tl.conn s c) (connEvents s c r.2.1) (r.1.conn s c)) :
    Local clean tl r.2.1 r.1 := by
  intro s' c'
  by_cases heq : s' = s ∧ c' = c
  · obtain ⟨rfl,rfl⟩ := heq
    exact h
  · obtain ⟨hsame,hevs⟩ := hothers s' c' heq
    rw [hsame,hevs]
    exact .refl _

theorem Local.updConn {clean : Prop} {tl : TransportLayer slots conns} {s : Fin slots} {c : Fin conns} {g : Connection → Connection}
    (h : ConnRun clean (UInt8.ofNat c.val) (tl.conn s c) (connEvents s c evs) (g (tl.conn s c)))
    (hevs : ∀ s' c', ¬(s' = s ∧ c' = c) → connEvents s' c' evs = []) :
    Local clean tl evs (tl.updConn s c g) := by
  apply Local.at (elsewhere_updConn g 0 hevs)
  rw [conn_updConn_self]
  exact h

theorem Local.fail {clean : Prop} {tl : TransportLayer slots conns}
    (h : Local clean tl evs tl') (s : Fin slots) (error : Int) : Local clean tl evs (tl'.fail s error) := h

theorem local_refl (clean : Prop) (tl : TransportLayer slots conns) : Local clean tl [] tl :=
  .same (fun _ _ => rfl) fun _ _ => rfl

namespace TransportLayer

def FreshQueue (tl : TransportLayer slots conns) (s : Fin slots) : Prop :=
  ∀ c ∈ tl.findIdle s, (tl.conn s c).sendQueue = []

/-- A T_C_T_C_REPLY finds the create request of this use outstanding, and a T_REQUEST_T_C comes on an open
connection and finds an entry with an empty queue. -/
def CleanTpdu (tl : TransportLayer slots conns) (s : Fin slots) (c : Fin conns) (tag : UInt8) : Prop :=
  (tag = tCTCReply → (tl.conn s c).state = .inCreation → (tl.conn s c).txTime = some (tl.conn s c).use) ∧
  (tag = tRequestTC → tl.FreshQueue s ∧ (tl.conn s c).state ≠ .idle ∧ (tl.conn s c).state ≠ .inCreation)

def CleanStep (tl : TransportLayer slots conns) : TlInput slots conns → Prop
  | .call (.newTc slotId _) => ∀ s ∈ tl.checkSlot slotId, tl.FreshQueue s
  | .receive s data _ => ∀ tpdu ∈ (parseTpdu data data.length).join,
      ∀ c ∈ toFin? conns tpdu.connectionId.toNat, tl.CleanTpdu s c tpdu.tag
  | _ => True

instance (tl : TransportLayer slots conns) (s : Fin slots) : Decidable (tl.FreshQueue s) :=
  inferInstanceAs (Decidable (∀ c ∈ tl.findIdle s, (tl.conn s c).sendQueue = []))

instance (tl : TransportLayer slots conns) (s : Fin slots) (c : Fin conns) (tag : UInt8) :
    Decidable (tl.CleanTpdu s c tag) :=
  inferInstanceAs (Decidable (_ ∧ _))

instance (tl : TransportLayer slots conns) : ∀ op, Decidable (tl.CleanStep op)
  | .call (.newTc slotId _) => inferInstanceAs (Decidable (∀ s ∈ tl.checkSlot slotId, tl.FreshQueue s))
  | .call (.delTc _ _ _) | .call (.sendData _ _ _ _) | .call (.sendDatav _ _ _ _)
  | .call (.registerSlot _ _) | .call (.destroySlot _) => isTrue trivial
  | .receive s data _ => inferInstanceAs (Decidable (∀ tpdu ∈ (parseTpdu data data.length).join,
      ∀ c ∈ toFin? conns tpdu.connectionId.toNat, tl.CleanTpdu s c tpdu.tag))
  | .serve _ _ _ | .readError _ | .foreignSlot => isTrue trivial

end TransportLayer

section Local

variable {clean : Prop} {tl : TransportLayer slots conns}

variable {s : Fin slots} {c : Fin conns}

theorem allocNewTc_local (hfound : tl.findIdle s = some c)
    (hclean : clean → tl.FreshQueue s) : Local clean tl [.allocated s c] (tl.allocNewTc s c) := by
  apply Local.updConn
  · rw [connEvents_allocated_self]
    exact (ConnStep.allocate (findIdle_state hfound) fun h => hclean h c hfound).run
  · intro s' c' hne
    simp [connEvents,TlEvent.ofConn,hne]

theorem newTc_local (slotId : UInt8) (malloc : Bool) (hclean : clean → ∀ s ∈ tl.checkSlot slotId, tl.FreshQueue s) :
    Local clean tl (tl.newTc slotId malloc).2.1 (tl.newTc slotId malloc).1 := by
  unfold newTc
  cases hslot : tl.checkSlot slotId with
  | none => exact local_refl clean tl
  | some s =>
    dsimp only
    cases hfound : tl.findIdle s with
    | none => exact (local_refl clean tl).fail s _
    | some c =>
      have halloc : Local clean tl [.allocated s c] (tl.allocNewTc s c) :=
        allocNewTc_local hfound fun h => hclean h s hslot
      dsimp only
      split
      · exact halloc.fail s _
      · have hqueue : Local clean (tl.allocNewTc s c) []
            ((tl.allocNewTc s c).queueMessage s c [tCreateTC, 1, UInt8.ofNat c] 3) := by
          apply Local.updConn
          · apply ConnStep.run
            apply ConnStep.queueCreate
            · simp [allocNewTc]
            · intro h
              simp only [allocNewTc,conn_updConn_self]
              exact hclean h s hslot c hfound
          · exact fun _ _ _ => rfl
        exact halloc.append hqueue

theorem delTc_local (slotId connectionId : UInt8) (malloc : Bool) :
    Local clean tl (tl.delTc slotId connectionId malloc).2.1 (tl.delTc slotId connectionId malloc).1 := by
  unfold delTc
  cases tl.checkSlot slotId with
  | none => exact local_refl clean tl
  | some s =>
    cases toFin? conns connectionId.toNat with
    | none => exact (local_refl clean tl).fail s _
    | some c =>
      dsimp only
      split
      · exact (local_refl clean tl).fail s _
      split
      · exact (local_refl clean tl).fail s _
      · rename_i hstate _
        rw [not_and_or,not_not,not_not] at hstate
        dsimp only [queueMessage]
        rw [updConn_updConn]
        apply Local.updConn
        · exact (ConnStep.queueDelete hstate _).run
        · exact fun _ _ _ => rfl

theorem sendBytes_local (slotId connectionId : UInt8) (dataSize : Nat) (bytes : List UInt8) (malloc : Bool) :
    Local clean tl (tl.sendBytes slotId connectionId dataSize bytes malloc).2.1
      (tl.sendBytes slotId connectionId dataSize bytes malloc).1 := by
  unfold sendBytes
  cases tl.checkSlot slotId with
  | none => exact local_refl clean tl
  | some s =>
    cases toFin? conns connectionId.toNat with
    | none => exact (local_refl clean tl).fail s _
    | some c =>
      dsimp only
      split
      · exact local_refl clean tl
      split
      · exact (local_refl clean tl).fail s _
      split
      · exact (local_refl clean tl).fail s _
      · rename_i hstate _ _ _ _
        rw [not_not] at hstate
        dsimp only
        apply Local.updConn
        · exact (ConnStep.queueData hstate _ _).run
        · exact fun _ _ _ => rfl

theorem registerSlot_local (caHndl : Nat) (slot : UInt8) :
    Local clean tl (tl.registerSlot caHndl slot).2.1 (tl.registerSlot caHndl slot).1 := by
  rw [registerSlot_events]
  exact Local.same (registerSlot_conn tl caHndl slot) fun _ _ => rfl

theorem destroySlot_local (slotId : UInt8) : Local clean tl (tl.destroySlot slotId).2.1 (tl.destroySlot slotId).1 := by
  unfold destroySlot
  cases toFin? slots slotId.toNat with
  | none => exact local_refl clean tl
  | some s' =>
    intro s c
    unfold conn
    dsimp only
    by_cases hs : s = s'
    · subst hs
      rw [Function.update_self]
      exact ConnStep.clear.run
    · rw [Function.update_of_ne hs]
      exact .refl _

theorem call_local (c : TlCall) (hclean : clean → tl.CleanStep (.call c)) :
    Local clean tl (tl.call c).2.1 (tl.call c).1 := by
  cases c with
  | newTc slotId malloc => exact newTc_local slotId malloc hclean
  | delTc slotId connectionId malloc => exact delTc_local slotId connectionId malloc
  | sendData slotId connectionId data malloc => exact sendBytes_local slotId connectionId _ data malloc
  | sendDatav slotId connectionId vector malloc => exact sendBytes_local slotId connectionId _ _ malloc
  | registerSlot caHndl slot => exact registerSlot_local caHndl slot
  | destroySlot slotId => exact destroySlot_local slotId

theorem sendQueued_local (s : Fin slots) (c : Fin conns) (io : ServiceIo) :
    Local clean tl (tl.sendQueued s c io).2.1 (tl.sendQueued s c io).1 := by
  apply Local.at (sendQueued_elsewhere tl s c io)
  rcases sendQueued_cases tl s c io with ⟨heq,-⟩ | ⟨msg,rest,hstate,hqueue,-,⟨-,heq⟩ | ⟨-,heq⟩⟩
  · rw [heq]
    exact .refl _
  · rw [heq,conn_fail,conn_updConn_self]
    exact (ConnStep.drop hqueue).run
  · rw [heq,conn_updConn_self,connEvents_written_self,connEvents_nil]
    unfold Connection.sent
    split
    · rename_i hdelete
      exact (ConnStep.sendDelete hstate hqueue hdelete).run
    · rename_i hdelete
      exact (ConnStep.send hstate hqueue hdelete).run

theorem pollTc_local (s : Fin slots) (c : Fin conns) (io : ServiceIo) :
    Local clean tl (tl.pollTc s c io).2.1 (tl.pollTc s c io).1 := by
  apply Local.at (pollTc_elsewhere tl s c io)
  rcases pollTc_cases tl s c io with heq | ⟨hstate,-,⟨-,heq⟩ | ⟨-,heq⟩⟩
  · rw [heq]
    exact .refl _
  · rw [heq,conn_fail,conn_updConn_self]
    exact (ConnStep.wait hstate).run
  · rw [heq,conn_updConn_self,connEvents_written_self,connEvents_nil]
    exact (ConnStep.write hstate _).run

theorem checkTimeout_local (s : Fin slots) (c : Fin conns) (io : ServiceIo) :
    Local clean tl (tl.checkTimeout s c io).2.1 (tl.checkTimeout s c io).1 := by
  apply Local.at (checkTimeout_elsewhere tl s c io)
  rcases checkTimeout_cases tl s c io with heq | ⟨use,htime,-,⟨hstate,heq⟩ | ⟨hstate,heq⟩⟩
  · rw [heq]
    exact .refl _
  · rw [heq,conn_updConn_self]
    exact (ConnStep.expire hstate).run
  · rw [heq,conn_fail,connEvents_timedOut_self,connEvents_nil]
    exact (ConnStep.timeout hstate htime).run

theorem andThen_local {r : TlResult slots conns} {next : TransportLayer slots conns → TlResult slots conns}
    (h : Local clean tl r.2.1 r.1) (hnext : Local clean r.1 (next r.1).2.1 (next r.1).1) :
    Local clean tl (andThen r next).2.1 (andThen r next).1 := by
  unfold TransportLayer.andThen
  split
  · exact h
  · exact h.append hnext

theorem serveConnection_local (s : Fin slots) (c : Fin conns) (io : ServiceIo) :
    Local clean tl (tl.serveConnection s c io).2.1 (tl.serveConnection s c io).1 := by
  unfold serveConnection
  split
  · exact local_refl clean tl
  · apply andThen_local
    · apply andThen_local
      · exact sendQueued_local s c io
      · exact pollTc_local s c io
    · exact checkTimeout_local s c io

theorem handleCreateTcReply_local (hclean : clean → (tl.conn s c).state = .inCreation →
      (tl.conn s c).txTime = some (tl.conn s c).use) :
    Local clean tl (tl.handleCreateTcReply s c).2.1 (tl.handleCreateTcReply s c).1 := by
  apply Local.at (handleCreateTcReply_elsewhere tl s c)
  unfold handleCreateTcReply
  split
  · rename_i hstate
    rw [conn_updConn_self]
    exact (ConnStep.createReply hstate fun h => hclean h hstate).run
  · exact .refl _

theorem handleDeleteTc_local (s : Fin slots) (c : Fin conns) (io : ReceiveIo) :
    Local clean tl (tl.handleDeleteTc s c io).2.1 (tl.handleDeleteTc s c io).1 := by
  apply Local.at (handleDeleteTc_elsewhere tl s c io)
  unfold handleDeleteTc
  dsimp only
  split
  · rename_i hstate
    split
    · rw [conn_fail,conn_updConn_self]
      exact (ConnStep.delete hstate).run
    · dsimp only
      rw [conn_updConn_self,connEvents_written_self]
      exact (ConnStep.deleteReply hstate _).run
  · exact .refl _

theorem handleDeleteTcReply_local (s : Fin slots) (c : Fin conns) :
    Local clean tl (tl.handleDeleteTcReply s c).2.1 (tl.handleDeleteTcReply s c).1 := by
  apply Local.at (handleDeleteTcReply_elsewhere tl s c)
  unfold handleDeleteTcReply
  split
  · rename_i hstate
    rw [conn_updConn_self]
    exact (ConnStep.expire (.inr hstate)).run
  · exact .refl _

theorem answerRequest_local (data : List UInt8)
    (hclean : clean → (tl.conn s c).state ≠ .idle ∧ (tl.conn s c).state ≠ .inCreation) :
    Local clean tl [.written s c data (tl.conn s c).use]
      (tl.updConn s c fun con => { con with txTime := none }) := by
  apply Local.updConn
  · rw [connEvents_written_self]
    exact (ConnStep.answerRequest data hclean).run
  · intro s' c' hne
    simp [connEvents,TlEvent.ofConn,hne]

theorem release_local (hstate : (tl.conn s c).state = .inCreation) :
    Local clean tl [] (tl.updConn s c fun con => { con with state := .idle }) := by
  apply Local.updConn
  · exact (ConnStep.release hstate).run
  · exact fun _ _ _ => rfl

theorem writeCreate_local (hstate : (tl.conn s c).state = .inCreation) :
    Local clean tl [.written s c [tCreateTC, 1, UInt8.ofNat c] (tl.conn s c).use, .callback s c .camconnectionopen []]
      (tl.updConn s c fun con => { con with txTime := some con.use }) := by
  apply Local.updConn
  · rw [connEvents_written_self]
    exact (ConnStep.writeCreate hstate).run
  · intro s' c' hne
    simp [connEvents,TlEvent.ofConn,hne]

theorem handleRequestTc_local (io : ReceiveIo)
    (hclean : clean → tl.FreshQueue s ∧ (tl.conn s c).state ≠ .idle ∧ (tl.conn s c).state ≠ .inCreation) :
    Local clean tl (tl.handleRequestTc s c io).2.1 (tl.handleRequestTc s c io).1 := by
  unfold handleRequestTc
  cases hfound : tl.findIdle s with
  | none =>
    dsimp only
    split
    · exact (local_refl clean tl).fail s _
    · exact answerRequest_local _ fun h => (hclean h).2
  | some conid =>
    have halloc : Local clean tl [.allocated s conid] (tl.allocNewTc s conid) :=
      allocNewTc_local hfound fun h => (hclean h).1
    have hcreation : ((tl.allocNewTc s conid).conn s conid).state = .inCreation := by
      rw [allocNewTc,conn_updConn_self]
    -- the request comes on another connection than the new one if it is clean
    have hopen (h : clean) : ((tl.allocNewTc s conid).conn s c).state ≠ .idle ∧
        ((tl.allocNewTc s conid).conn s c).state ≠ .inCreation := by
      have hne : ¬(s = s ∧ c = conid) := by
        rintro ⟨-,rfl⟩
        exact (hclean h).2.1 (findIdle_state hfound)
      rw [allocNewTc,conn_updConn,if_neg hne]
      exact (hclean h).2
    dsimp only
    split
    · exact (halloc.append (release_local hcreation)).fail s _
    · have hanswer := halloc.append (answerRequest_local [tNewTC, 2, UInt8.ofNat c, UInt8.ofNat conid] hopen)
      have hstill : (((tl.allocNewTc s conid).updConn s c fun con => { con with txTime := none }).conn s
          conid).state = .inCreation := by
        rw [conn_updConn]
        split
        · rename_i heq
          rw [← heq.2]
          exact hcreation
        · exact hcreation
      split
      · exact (hanswer.append (release_local hstill)).fail s _
      · exact hanswer.append (writeCreate_local hstill)

theorem handleDataMore_local (s : Fin slots) (c : Fin conns) (data : List UInt8) (io : ReceiveIo) :
    Local clean tl (tl.handleDataMore s c data io).2.1 (tl.handleDataMore s c data io).1 := by
  apply Local.at (handleDataMore_elsewhere tl s c data io)
  unfold handleDataMore
  split
  · exact .refl _
  · rename_i hstate
    rw [not_not] at hstate
    dsimp only
    split
    · rw [conn_fail,conn_updConn_self]
      exact (ConnStep.receive hstate _).run
    · rw [updConn_updConn,conn_updConn_self]
      exact (ConnStep.receive hstate _).run

theorem handleDataLast_local (s : Fin slots) (c : Fin conns) (data : List UInt8) (io : ReceiveIo) :
    Local clean tl (tl.handleDataLast s c data io).2.1 (tl.handleDataLast s c data io).1 := by
  have hcallback (d : List UInt8) :
      connEvents s c (if data = [] then [] else [.callback s c .data d]) = [] := by
    split <;> rfl
  apply Local.at (handleDataLast_elsewhere tl s c data io)
  unfold handleDataLast
  split
  · exact .refl _
  · rename_i hstate
    rw [not_not] at hstate
    dsimp only
    split
    · rw [hcallback,conn_updConn_self]
      exact (ConnStep.receive hstate _).run
    · split
      · rw [conn_fail,conn_updConn_self]
        exact (ConnStep.receive hstate _).run
      · rw [hcallback,updConn_updConn,conn_updConn_self]
        exact (ConnStep.receive hstate _).run

theorem handleSb_local (s : Fin slots) (c : Fin conns) (data : List UInt8) (io : ReceiveIo) :
    Local clean tl (tl.handleSb s c data io).2.1 (tl.handleSb s c data io).1 := by
  apply Local.at (handleSb_elsewhere tl s c data io)
  unfold handleSb
  dsimp only
  split
  · exact .refl _
  · rename_i hstate
    rw [not_not] at hstate
    split
    · split
      · split
        · exact .refl _
        · rw [conn_updConn_self,connEvents_written_self]
          exact (ConnStep.write hstate _).run
      · rw [conn_updConn_self]
        exact (ConnStep.receive hstate _).run
    · exact .refl _

theorem handleTpdu_local {tpdu : Tpdu} (io : ReceiveIo) (hclean : clean → tl.CleanTpdu s c tpdu.tag) :
    Local clean tl (tl.handleTpdu s c tpdu io).2.1 (tl.handleTpdu s c tpdu io).1 := by
  unfold handleTpdu
  split
  · rename_i htag
    exact handleCreateTcReply_local fun h => (hclean h).1 htag
  split
  · exact handleDeleteTc_local s c io
  split
  · exact handleDeleteTcReply_local s c
  split
  · rename_i htag
    exact handleRequestTc_local io fun h => (hclean h).2 htag
  split
  · exact handleDataMore_local s c tpdu.data io
  split
  · exact handleDataLast_local s c tpdu.data io
  split
  · exact handleSb_local s c tpdu.data io
  · exact (local_refl clean tl).fail s _

theorem inPoll_local {r : TlResult slots conns} (h : Local clean tl r.2.1 r.1) :
    Local clean tl (inPoll r).2 (inPoll r).1 := by
  intro s c
  rw [connEvents_inPoll]
  exact h s c

theorem tlStep_local (tl : TransportLayer slots conns) (op : TlInput slots conns) (hclean : clean → tl.CleanStep op) :
    Local clean tl (tlStep tl op).2 (tlStep tl op).1 := by
  cases op with
  | call c => exact call_local c hclean
  | receive s data io =>
    unfold tlStep
    dsimp only
    cases hparse : parseTpdu data data.length with
    | none => exact local_refl clean tl
    | some parsed =>
      apply inPoll_local
      unfold processTpdu
      cases parsed with
      | none => exact (local_refl clean tl).fail s _
      | some tpdu =>
        dsimp only
        cases hconn : toFin? conns tpdu.connectionId.toNat with
        | none => exact (local_refl clean tl).fail s _
        | some c => exact handleTpdu_local io fun h => hclean h tpdu (by rw [hparse]; rfl) c hconn
  | serve s c io => exact inPoll_local (serveConnection_local s c io)
  | readError s =>
    cases s with
    | none => exact inPoll_local (local_refl clean tl)
    | some s => exact inPoll_local ((local_refl clean tl).fail s _)
  | foreignSlot => exact inPoll_local (local_refl clean tl)

end Local

theorem runTrace_local {clean : Prop} (tl : TransportLayer slots conns) {ops : List (TlInput slots conns)}
    (hclean : clean → StepsMeet tlStep CleanStep tl ops) :
    Local clean tl (runTrace tlStep tl ops).2 (runTrace tlStep tl ops).1 := by
  induction ops generalizing tl with
  | nil => exact local_refl clean tl
  | cons op ops ih =>
    rw [runTrace_cons]
    apply Local.append
    · exact tlStep_local tl op fun h => (hclean h).1
    · exact ih _ fun h => (hclean h).2

end LinuxDvb.En50221
