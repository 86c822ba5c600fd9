import LinuxDvb.LibDvbEn50221.Transport

/-!
# One connection

The events of a connection, and what serving it or handling a TPDU for it does: one connection changes, and
all others keep what they have and get no events.
-/

namespace LinuxDvb.En50221

open TransportLayer

variable {slots conns : Nat}

inductive ConnEvent where
  | allocated
  | written (data : List UInt8) (use : Nat)
  | timedOut (use : Nat)
  deriving DecidableEq

def TlEvent.ofConn (s : Fin slots) (c : Fin conns) : TlEvent slots conns → Option ConnEvent
  | .allocated s' c' => if s = s' ∧ c = c' then some .allocated else none
  | .written s' c' data use => if s = s' ∧ c = c' then some (.written data use) else none
  | .timedOut s' c' use => if s = s' ∧ c = c' then some (.timedOut use) else none
  | .callback _ _ _ _ => none
  | .pollFailed _ => none

def connEvents (s : Fin slots) (c : Fin conns) (evs : List (TlEvent slots conns)) : List ConnEvent :=
  evs.filterMap (TlEvent.ofConn s c)

@[simp] theorem connEvents_nil (s : Fin slots) (c : Fin conns) : connEvents s c [] = [] := rfl

theorem connEvents_append (s : Fin slots) (c : Fin conns) (evs evs' : List (TlEvent slots conns)) :
    connEvents s c (evs ++ evs') = connEvents s c evs ++ connEvents s c evs' := filterMap_append

@[simp] theorem connEvents_allocated_self (s : Fin slots) (c : Fin conns) (evs : List (TlEvent slots conns)) :
    connEvents s c (.allocated s c :: evs) = .allocated :: connEvents s c evs := by
  simp [connEvents,TlEvent.ofConn]

@[simp] theorem connEvents_written_self (s : Fin slots) (c : Fin conns) (data : List UInt8) (use : Nat)
    (evs : List (TlEvent slots conns)) :
    connEvents s c (.written s c data use :: evs) = .written data use :: connEvents s c evs := by
  simp [connEvents,TlEvent.ofConn]

@[simp] theorem connEvents_timedOut_self (s : Fin slots) (c : Fin conns) (use : Nat)
    (evs : List (TlEvent slots conns)) :
    connEvents s c (.timedOut s c use :: evs) = .timedOut use :: connEvents s c evs := by
  simp [connEvents,TlEvent.ofConn]

@[simp] theorem connEvents_callback (s s' : Fin slots) (c : Fin conns) (c' : Nat) (reason : CallbackReason)
    (data : List UInt8) (evs : List (TlEvent slots conns)) :
    connEvents s c (.callback s' c' reason data :: evs) = connEvents s c evs := rfl

@[simp] theorem connEvents_pollFailed (s : Fin slots) (c : Fin conns) (error : Int) (evs : List (TlEvent slots conns)) :
    connEvents s c (.pollFailed error :: evs) = connEvents s c evs := rfl

theorem connEvents_inPoll (s : Fin slots) (c : Fin conns) (r : TlResult slots conns) :
    connEvents s c (inPoll r).2 = connEvents s c r.2.1 := by
  unfold inPoll
  rw [connEvents_append]
  split
  · rw [connEvents_pollFailed,connEvents_nil,append_nil]
  · rw [connEvents_nil,append_nil]

def Elsewhere (s : Fin slots) (c : Fin conns) (tl : TransportLayer slots conns)
    (r : TlResult slots conns) : Prop :=
  ∀ s' c', ¬(s' = s ∧ c' = c) → r.1.conn s' c' = tl.conn s' c' ∧ connEvents s' c' r.2.1 = []

section Elsewhere

variable {s s' : Fin slots} {c c' : Fin conns}

theorem connEvents_allocated_other (hne : ¬(s' = s ∧ c' = c)) (evs : List (TlEvent slots conns)) :
    connEvents s' c' (.allocated s c :: evs) = connEvents s' c' evs := by
  simp [connEvents,TlEvent.ofConn,hne]

theorem connEvents_written_other (hne : ¬(s' = s ∧ c' = c)) (data : List UInt8) (use : Nat)
    (evs : List (TlEvent slots conns)) :
    connEvents s' c' (.written s c data use :: evs) = connEvents s' c' evs := by
  simp [connEvents,TlEvent.ofConn,hne]

theorem connEvents_timedOut_other (hne : ¬(s' = s ∧ c' = c)) (use : Nat) (evs : List (TlEvent slots conns)) :
    connEvents s' c' (.timedOut s c use :: evs) = connEvents s' c' evs := by
  simp [connEvents,TlEvent.ofConn,hne]

variable {tl : TransportLayer slots conns}

theorem elsewhere_same (ret : Int) : Elsewhere s c tl (tl, [], ret) := fun _ _ _ => ⟨rfl, rfl⟩

theorem elsewhere_fail (error ret : Int) : Elsewhere s c tl (tl.fail s error, [], ret) :=
  fun _ _ _ => ⟨rfl, rfl⟩

theorem elsewhere_updConn (g : Connection → Connection) {evs : List (TlEvent slots conns)} (ret : Int)
    (hevs : ∀ s' c', ¬(s' = s ∧ c' = c) → connEvents s' c' evs = []) :
    Elsewhere s c tl (tl.updConn s c g, evs, ret) := by
  intro s' c' hne
  dsimp only
  rw [conn_updConn,if_neg hne]
  exact ⟨rfl,hevs s' c' hne⟩

theorem elsewhere_quiet (g : Connection → Connection) (ret : Int) :
    Elsewhere s c tl (tl.updConn s c g, [], ret) := elsewhere_updConn g ret fun _ _ _ => rfl

theorem elsewhere_written (g : Connection → Connection) (data : List UInt8) (use : Nat) (ret : Int) :
    Elsewhere s c tl (tl.updConn s c g, [.written s c data use], ret) :=
  elsewhere_updConn g ret fun _ _ hne => connEvents_written_other hne data use []

theorem elsewhere_callback (g : Connection → Connection) (data sent : List UInt8) (ret : Int) :
    Elsewhere s c tl (tl.updConn s c g, if data = [] then [] else [.callback s c .data sent], ret) := by
  apply elsewhere_updConn
  intro _ _ _
  split <;> rfl

theorem Elsewhere.fail {tl' : TransportLayer slots conns} {evs : List (TlEvent slots conns)} {ret : Int}
    (h : Elsewhere s c tl (tl', evs, ret)) (error : Int) : Elsewhere s c tl (tl'.fail s error, evs, ret) := h

theorem elsewhere_andThen {r : TlResult slots conns}
    {next : TransportLayer slots conns → TlResult slots conns} (h : Elsewhere s c tl r)
    (hnext : Elsewhere s c r.1 (next r.1)) : Elsewhere s c tl (andThen r next) := by
  unfold TransportLayer.andThen
  split
  · exact h
  · intro s' c' hne
    dsimp only
    rw [connEvents_append,(h s' c' hne).2,(hnext s' c' hne).2,(hnext s' c' hne).1,(h s' c' hne).1]
    exact ⟨rfl,rfl⟩

end Elsewhere

theorem mem_andThen {r : TlResult slots conns} {next : TransportLayer slots conns → TlResult slots conns}
    {e : TlEvent slots conns} (h : e ∈ (andThen r next).2.1) : e ∈ r.2.1 ∨ e ∈ (next r.1).2.1 := by
  unfold andThen at h
  split at h
  · exact .inl h
  · exact mem_append.mp h

theorem mem_andThen_first {r : TlResult slots conns}
    {next : TransportLayer slots conns → TlResult slots conns} {e : TlEvent slots conns} (h : e ∈ r.2.1) :
    e ∈ (andThen r next).2.1 := by
  unfold andThen
  split
  · exact h
  · exact mem_append_left _ h

def Connection.Sendable (con : Connection) : Prop :=
  con.state = .inCreation ∨ con.state = .active ∨ con.state = .activeDeletequeued

def Connection.sent (con : Connection) (msg : Message) (rest : List Message) : Connection :=
  if msg.data.head? = some tDeleteTC then
    { con with sendQueue := rest, txTime := some con.use, state := .inDeletion, chainBuffer := none }
  else { con with sendQueue := rest, txTime := some con.use }

section Serve

variable (tl : TransportLayer slots conns) (s : Fin slots) (c : Fin conns) (io : ServiceIo)

theorem sendQueued_cases : (tl.sendQueued s c io = (tl, [], 0) ∧
      ((tl.conn s c).Sendable → (tl.conn s c).txTime = none → (tl.conn s c).sendQueue = [])) ∨
    ∃ msg rest, (tl.conn s c).Sendable ∧ (tl.conn s c).sendQueue = msg :: rest ∧
      (tl.conn s c).txTime = none ∧
      ((io.write = false ∧ tl.sendQueued s c io =
        ((tl.updConn s c fun con => { con with sendQueue := rest }).fail s errCawrite, [], -1)) ∨
      (io.write = true ∧ tl.sendQueued s c io =
        (tl.updConn s c fun con => con.sent msg rest, [.written s c (linkData msg) msg.use], 0))) := by
  unfold sendQueued
  dsimp only
  split
  · rename_i hstate
    split
    · rename_i msg rest hqueue htime
      refine .inr ⟨msg,rest,hstate,hqueue,htime,?_⟩
      cases hwrite : io.write with
      | false => exact .inl ⟨rfl,rfl⟩
      | true =>
        refine .inr ⟨rfl,?_⟩
        unfold Connection.sent
        by_cases hdelete : msg.data.head? = some tDeleteTC
        · simp [if_pos hdelete,updConn_updConn]
        · simp [if_neg hdelete,updConn_updConn]
    · rename_i hnone
      refine .inl ⟨rfl,?_⟩
      intro _ htime
      cases hqueue : (tl.conn s c).sendQueue with
      | nil => rfl
      | cons msg rest => exact absurd htime (hnone msg rest hqueue)
  · rename_i hstate
    exact .inl ⟨rfl,fun h => absurd h hstate⟩

theorem pollTc_cases : tl.pollTc s c io = (tl, [], 0) ∨ ((tl.conn s c).state = .active ∧ (tl.conn s c).txTime = none ∧
      ((io.write = false ∧ tl.pollTc s c io =
        ((tl.updConn s c fun con => { con with txTime := some con.use }).fail s errCawrite, [], -1)) ∨
      (io.write = true ∧ tl.pollTc s c io = (tl.updConn s c fun con => { con with txTime := some con.use },
          [.written s c [tDataLast, 1, UInt8.ofNat c] (tl.conn s c).use], 0)))) := by
  unfold pollTc
  dsimp only
  split
  · rename_i hpoll
    refine .inr ⟨hpoll.1,hpoll.2.1,?_⟩
    cases hwrite : io.write with
    | false => exact .inl ⟨rfl,rfl⟩
    | true => exact .inr ⟨rfl,rfl⟩
  · exact .inl rfl

theorem checkTimeout_cases : tl.checkTimeout s c io = (tl, [], 0) ∨
    ∃ use, (tl.conn s c).txTime = some use ∧ io.responseElapsed = true ∧
      ((((tl.conn s c).state = .inCreation ∨ (tl.conn s c).state = .inDeletion) ∧
        tl.checkTimeout s c io = (tl.updConn s c fun con => { con with state := .idle }, [], 0)) ∨
      (((tl.conn s c).state = .active ∨ (tl.conn s c).state = .activeDeletequeued) ∧
        tl.checkTimeout s c io = (tl.fail s errTimeout, [.timedOut s c use], -1))) := by
  unfold checkTimeout
  dsimp only
  split
  · exact .inl rfl
  · rename_i use htime
    cases helapsed : io.responseElapsed with
    | false => exact .inl rfl
    | true =>
      rw [if_neg (by decide)]
      cases hstate : (tl.conn s c).state with
      | inCreation => exact .inr ⟨use,htime,rfl,.inl ⟨.inl rfl,rfl⟩⟩
      | inDeletion => exact .inr ⟨use,htime,rfl,.inl ⟨.inr rfl,rfl⟩⟩
      | active => exact .inr ⟨use,htime,rfl,.inr ⟨.inl rfl,rfl⟩⟩
      | activeDeletequeued => exact .inr ⟨use,htime,rfl,.inr ⟨.inr rfl,rfl⟩⟩
      | idle => exact .inl rfl

theorem sendQueued_elsewhere : Elsewhere s c tl (tl.sendQueued s c io) := by
  rcases sendQueued_cases tl s c io with ⟨heq,-⟩ | ⟨msg,rest,-,-,-,⟨-,heq⟩ | ⟨-,heq⟩⟩
  · rw [heq]
    exact elsewhere_same 0
  · rw [heq]
    exact (elsewhere_quiet _ (-1)).fail errCawrite
  · rw [heq]
    exact elsewhere_written _ _ _ 0

theorem pollTc_elsewhere : Elsewhere s c tl (tl.pollTc s c io) := by
  rcases pollTc_cases tl s c io with heq | ⟨-,-,⟨-,heq⟩ | ⟨-,heq⟩⟩
  · rw [heq]
    exact elsewhere_same 0
  · rw [heq]
    exact (elsewhere_quiet _ (-1)).fail errCawrite
  · rw [heq]
    exact elsewhere_written _ _ _ 0

theorem checkTimeout_elsewhere : Elsewhere s c tl (tl.checkTimeout s c io) := by
  rcases checkTimeout_cases tl s c io with heq | ⟨use,-,-,⟨-,heq⟩ | ⟨-,heq⟩⟩
  · rw [heq]
    exact elsewhere_same 0
  · rw [heq]
    exact elsewhere_quiet _ 0
  · rw [heq]
    exact fun _ _ hne => ⟨rfl,connEvents_timedOut_other hne use []⟩

theorem serveConnection_elsewhere : Elsewhere s c tl (tl.serveConnection s c io) := by
  unfold serveConnection
  split
  · exact elsewhere_same 0
  · apply elsewhere_andThen
    · apply elsewhere_andThen
      · exact sendQueued_elsewhere tl s c io
      · exact pollTc_elsewhere _ s c io
    · exact checkTimeout_elsewhere _ s c io

end Serve

section Receive

variable (tl : TransportLayer slots conns) (s : Fin slots) (c : Fin conns) (data : List UInt8)
  (io : ReceiveIo)

theorem handleCreateTcReply_elsewhere : Elsewhere s c tl (tl.handleCreateTcReply s c) := by
  unfold handleCreateTcReply
  split
  · exact elsewhere_updConn _ 0 fun _ _ _ => rfl
  · exact elsewhere_fail _ (-1)

theorem handleDeleteTc_elsewhere : Elsewhere s c tl (tl.handleDeleteTc s c io) := by
  unfold handleDeleteTc
  dsimp only
  split
  · split
    · exact (elsewhere_quiet _ (-1)).fail errCawrite
    · exact elsewhere_updConn _ 0 fun _ _ hne => connEvents_written_other hne _ _ _
  · exact elsewhere_fail _ (-1)

theorem handleDeleteTcReply_elsewhere : Elsewhere s c tl (tl.handleDeleteTcReply s c) := by
  unfold handleDeleteTcReply
  split
  · exact elsewhere_quiet _ 0
  · exact elsewhere_fail _ (-1)

theorem handleDataMore_elsewhere : Elsewhere s c tl (tl.handleDataMore s c data io) := by
  unfold handleDataMore
  split
  · exact elsewhere_fail _ (-1)
  · dsimp only
    split
    · exact (elsewhere_quiet _ (-1)).fail errOutofmemory
    · rw [updConn_updConn]
      exact elsewhere_quiet _ 0

theorem handleDataLast_elsewhere : Elsewhere s c tl (tl.handleDataLast s c data io) := by
  unfold handleDataLast
  split
  · exact elsewhere_fail _ (-1)
  · dsimp only
    split
    · exact elsewhere_callback _ _ _ 0
    · split
      · exact (elsewhere_quiet _ (-1)).fail errOutofmemory
      · rw [updConn_updConn]
        exact elsewhere_callback _ _ _ 0

theorem handleSb_elsewhere : Elsewhere s c tl (tl.handleSb s c data io) := by
  unfold handleSb
  dsimp only
  split
  · exact elsewhere_fail _ (-1)
  · split
    · split
      · split
        · exact elsewhere_fail _ (-1)
        · exact elsewhere_written _ _ _ 0
      · exact elsewhere_quiet _ 0
    · exact elsewhere_fail _ (-1)

end Receive

end LinuxDvb.En50221
