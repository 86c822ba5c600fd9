import LinuxDvb.LibDvbEn50221.ConnectionStep

/-!
# The response timer

`tx_time` of a connection keeps back its messages and starts the timeout. It is not cleared when the connection is
deleted, so a connection may start with the timer of its earlier use.
-/

namespace LinuxDvb.En50221

open TransportLayer

variable {slots conns : Nat}

def OwnTimeouts (evs : List ConnEvent) : Prop :=
  ∀ pre use post, evs = pre ++ .timedOut use :: post → use = pre.count .allocated

namespace TransportLayer

/-- Once the connection is served and the device takes what is written, its create request is written. -/
def Transmits (tl : TransportLayer slots conns) (s : Fin slots) (c : Fin conns) : Prop :=
  ∀ io : ServiceIo, io.write = true →
    .written s c (createTpdu (UInt8.ofNat c)) (tl.conn s c).use ∈ (tl.serveConnection s c io).2.1

/-- The create request of every connection that the step allocates is written in the step, or refused by the
device, or it will be written when the connection is served. -/
def CreateTransmits (tl : TransportLayer slots conns) (op : TlInput slots conns) : Prop :=
  ∀ s c, .allocated s c ∈ (tlStep tl op).2 →
    .written s c (createTpdu (UInt8.ofNat c)) ((tlStep tl op).1.conn s c).use ∈ (tlStep tl op).2 ∨
      .pollFailed errCawrite ∈ (tlStep tl op).2 ∨ (tlStep tl op).1.Transmits s c

/-- A new connection gets memory for its create request, and its entry has no outstanding request and
nothing in its queue. -/
def CleanAllocation (tl : TransportLayer slots conns) : TlInput slots conns → Prop
  | .call (.newTc slotId malloc) => ∀ s ∈ tl.checkSlot slotId, ∀ c ∈ tl.findIdle s,
      malloc = true ∧ (tl.conn s c).txTime = none ∧ (tl.conn s c).sendQueue = []
  | _ => True

end TransportLayer

/-- What is outstanding or queued on a connection is of no later use, and of the present one if a timeout
can be reported. -/
structure Timely (con : Connection) : Prop where
  queue : ∀ msg ∈ con.sendQueue, msg.use ≤ con.use
  current : con.state ≠ .idle → con.state ≠ .inCreation → ∀ u, con.txTime = some u → u = con.use

def TimeoutGood (m : Seen) : ConnEvent → Prop
  | .timedOut use => use = m.uses
  | _ => True

variable {evs : List ConnEvent}

theorem ownTimeouts_of_accepts (h : Accepts Seen.next TimeoutGood ⟨0, false⟩ evs) : OwnTimeouts evs := by
  intro pre use post heq
  rw [heq] at h
  have hgood := h.good_of_append
  rw [TimeoutGood,foldl_next_uses,Nat.zero_add] at hgood
  exact hgood

namespace Timely

variable {con : Connection}

theorem append (h : Timely con) {use : Nat} (data : List UInt8) (length : Nat) (huse : use = con.use) :
    ∀ msg ∈ con.sendQueue ++ [⟨data, length, use⟩], msg.use ≤ con.use := by
  intro msg hmsg
  rcases mem_append.mp hmsg with hold | hnew
  · exact h.queue msg hold
  · rw [mem_singleton.mp hnew]
    exact Nat.le_of_eq huse

theorem tail (h : Timely con) {msg : Message} {rest : List Message} (hqueue : con.sendQueue = msg :: rest) :
    ∀ msg ∈ rest, msg.use ≤ con.use := by
  intro msg hmsg
  apply h.queue
  rw [hqueue]
  exact mem_cons_of_mem _ hmsg

end Timely

variable {clean : Prop} {id : UInt8} {con' : Connection}

theorem ConnStep.timely {con : Connection} (h : Timely con) (hstep : ConnStep clean id con evs con') : Timely con' := by
  have hsent : ∀ u, some con.use = some u → u = con.use := fun u hu => (Option.some.inj hu).symm
  cases hstep with
  | allocate hidle hclean =>
    exact ⟨fun msg hmsg => Nat.le_succ_of_le (h.queue msg hmsg),fun _ hs => absurd rfl hs⟩
  | release hstate => exact ⟨h.queue,fun hs => absurd rfl hs⟩
  | queueCreate hstate hclean => exact ⟨h.append _ _ rfl,h.current⟩
  | writeCreate hstate => exact ⟨h.queue,fun _ _ => hsent⟩
  | queueData hstate data length => exact ⟨h.append _ _ rfl,h.current⟩
  | queueDelete hstate data =>
    refine ⟨h.append _ _ rfl,fun _ _ => h.current ?_ ?_⟩
    · rcases hstate with hs | hs <;> rw [hs] <;> decide
    · rcases hstate with hs | hs <;> rw [hs] <;> decide
  | clear => exact ⟨fun msg hmsg => (nomatch hmsg),fun hs => absurd rfl hs⟩
  | drop hqueue => exact ⟨h.tail hqueue,h.current⟩
  | send hstate hqueue hdata => exact ⟨h.tail hqueue,fun _ _ => hsent⟩
  | sendDelete hstate hqueue hdata => exact ⟨h.tail hqueue,fun _ _ => hsent⟩
  | wait hstate => exact ⟨h.queue,fun _ _ => hsent⟩
  | write hstate data => exact ⟨h.queue,fun _ _ => hsent⟩
  | expire hstate => exact ⟨h.queue,fun hs => absurd rfl hs⟩
  | timeout hstate htime => exact h
  | createReply hstate hclean => exact ⟨h.queue,fun _ _ u hu => nomatch hu⟩
  | delete hstate => exact ⟨h.queue,fun hs => absurd rfl hs⟩
  | deleteReply hstate data => exact ⟨h.queue,fun hs => absurd rfl hs⟩
  | answerRequest data hclean => exact ⟨h.queue,fun _ _ u hu => nomatch hu⟩
  | receive hstate chainBuffer => exact ⟨h.queue,fun _ _ u hu => nomatch hu⟩

theorem ConnRun.timely {con : Connection} (h : Timely con) (hrun : ConnRun clean id con evs con') : Timely con' := by
  induction hrun with
  | refl con => exact h
  | cons hstep _ ih => exact ih (hstep.timely h)

theorem ConnStep.timeout_accepted {con : Connection} {m : Seen} (h : Timely con) (huse : con.use = m.uses)
    (hstep : ConnStep clean id con evs con') :
    Accepts Seen.next TimeoutGood m evs ∧ con'.use = (evs.foldl Seen.next m).uses := by
  cases hstep with
  | allocate hidle hclean => exact ⟨⟨trivial,trivial⟩,congrArg (· + 1) huse⟩
  | timeout hstate htime =>
    refine ⟨⟨(h.current ?_ ?_ _ htime).trans huse,trivial⟩,huse⟩
    · rcases hstate with hs | hs <;> rw [hs] <;> decide
    · rcases hstate with hs | hs <;> rw [hs] <;> decide
  | writeCreate hstate => exact ⟨⟨trivial,trivial⟩,huse⟩
  | send hstate hqueue hdata => exact ⟨⟨trivial,trivial⟩,huse⟩
  | sendDelete hstate hqueue hdata => exact ⟨⟨trivial,trivial⟩,huse⟩
  | write hstate data => exact ⟨⟨trivial,trivial⟩,huse⟩
  | deleteReply hstate data => exact ⟨⟨trivial,trivial⟩,huse⟩
  | answerRequest data hclean => exact ⟨⟨trivial,trivial⟩,huse⟩
  | _ => exact ⟨trivial,huse⟩

theorem timely_create (s : Fin slots) (c : Fin conns) : Timely ((tlCreate slots conns).conn s c) :=
  ⟨fun _ hmsg => (nomatch hmsg), fun hs => absurd rfl hs⟩

theorem ownTimeouts_run (ops : List (TlInput slots conns)) (s : Fin slots) (c : Fin conns) :
    OwnTimeouts (connEvents s c (runTrace tlStep (tlCreate slots conns) ops).2) := by
  have hlocal : Local False _ (runTrace tlStep (tlCreate slots conns) ops).2 _ :=
    runTrace_local (tlCreate slots conns) False.elim
  apply ownTimeouts_of_accepts
  apply ((hlocal s c).accepted (fun con m => Timely con ∧ con.use = m.uses) _ _).1
  · intro con m evs con' hinv hstep
    obtain ⟨haccepts,huse⟩ := hstep.timeout_accepted hinv.1 hinv.2
    exact ⟨haccepts,hstep.timely hinv.1,huse⟩
  · exact ⟨timely_create s c,rfl⟩

theorem tlStep_timely {tl : TransportLayer slots conns} (h : ∀ s c, Timely (tl.conn s c))
    (op : TlInput slots conns) (s : Fin slots) (c : Fin conns) : Timely ((tlStep tl op).1.conn s c) := by
  have hlocal : Local False _ _ _ := tlStep_local tl op False.elim
  exact (hlocal s c).timely (h s c)

section Serve

variable {tl : TransportLayer slots conns} {s : Fin slots} {c : Fin conns}

theorem pollTc_of_not_active (io : ServiceIo) (h : (tl.conn s c).state ≠ .active) : tl.pollTc s c io = (tl, [], 0) := by
  unfold pollTc
  exact if_neg fun hactive => h hactive.1

variable {io : ServiceIo}

theorem checkTimeout_written {data : List UInt8} {use : Nat} :
    .written s c data use ∉ (tl.checkTimeout s c io).2.1 := by
  rcases checkTimeout_cases tl s c io with heq | ⟨use,-,-,⟨-,heq⟩ | ⟨-,heq⟩⟩ <;> simp [heq]

theorem sendQueued_creation {data : List UInt8} {use : Nat} (h : .written s c data use ∈ (tl.sendQueued s c io).2.1) :
    (tl.conn s c).txTime = none ∧
      ∃ msg rest, (tl.conn s c).sendQueue = msg :: rest ∧ data = linkData msg ∧ use = msg.use := by
  rcases sendQueued_cases tl s c io with ⟨heq,-⟩ | ⟨msg,rest,-,hqueue,htime,⟨-,heq⟩ | ⟨-,heq⟩⟩
  · rw [heq] at h
    cases h
  · rw [heq] at h
    cases h
  · rw [heq] at h
    cases mem_singleton.mp h
    exact ⟨htime,msg,rest,hqueue,rfl,rfl⟩

theorem sendQueued_state (hstate : (tl.conn s c).state = .inCreation) :
    ((tl.sendQueued s c io).1.conn s c).state ≠ .active := by
  rcases sendQueued_cases tl s c io with ⟨heq,-⟩ | ⟨msg,rest,-,-,-,⟨-,heq⟩ | ⟨-,heq⟩⟩
  · simp [heq,hstate]
  · simp [heq,hstate]
  · rw [heq,conn_updConn_self,Connection.sent]
    split
    · simp
    · simp [hstate]

theorem transmits_iff (hstate : (tl.conn s c).state = .inCreation) :
    tl.Transmits s c ↔ (tl.conn s c).txTime = none ∧ ∃ msg rest, (tl.conn s c).sendQueue = msg :: rest ∧
      linkData msg = createTpdu (UInt8.ofNat c) ∧ msg.use = (tl.conn s c).use := by
  have hidle : (tl.conn s c).state ≠ .idle := by
    rw [hstate]
    decide
  have hpoll (io : ServiceIo) : (tl.sendQueued s c io).1.pollTc s c io =
      ((tl.sendQueued s c io).1, [], 0) := pollTc_of_not_active io (sendQueued_state hstate)
  unfold Transmits serveConnection
  simp only [if_neg hidle]
  constructor
  · intro h
    have hwritten := h ⟨true,true,true⟩ rfl
    have hsend : .written s c (createTpdu (UInt8.ofNat c)) (tl.conn s c).use ∈
        (tl.sendQueued s c ⟨true,true,true⟩).2.1 := by
      rcases mem_andThen hwritten with hfirst | hlast
      · rcases mem_andThen hfirst with hsend | hpolled
        · exact hsend
        · rw [hpoll] at hpolled
          cases hpolled
      · exact absurd hlast checkTimeout_written
    obtain ⟨htime,msg,rest,hqueue,hdata,huse⟩ := sendQueued_creation hsend
    exact ⟨htime,msg,rest,hqueue,hdata.symm,huse.symm⟩
  · rintro ⟨htime,msg,rest,hqueue,hdata,huse⟩ io hwrite
    have hsend : (tl.sendQueued s c io).2 = ([.written s c (linkData msg) msg.use], 0) := by
      unfold sendQueued
      simp [hstate,hqueue,htime,hwrite]
    rw [← hdata,← huse]
    apply mem_andThen_first
    apply mem_andThen_first
    rw [hsend]
    exact mem_singleton_self _

variable {s' : Fin slots} {c' : Fin conns}

theorem sendQueued_allocated : .allocated s' c' ∉ (tl.sendQueued s c io).2.1 := by
  rcases sendQueued_cases tl s c io with ⟨heq,-⟩ | ⟨msg,rest,-,-,-,⟨-,heq⟩ | ⟨-,heq⟩⟩ <;> simp [heq]

theorem pollTc_allocated : .allocated s' c' ∉ (tl.pollTc s c io).2.1 := by
  rcases pollTc_cases tl s c io with heq | ⟨-,-,⟨-,heq⟩ | ⟨-,heq⟩⟩ <;> simp [heq]

theorem checkTimeout_allocated : .allocated s' c' ∉ (tl.checkTimeout s c io).2.1 := by
  rcases checkTimeout_cases tl s c io with heq | ⟨use,-,-,⟨-,heq⟩ | ⟨-,heq⟩⟩ <;> simp [heq]

theorem serveConnection_allocated : .allocated s' c' ∉ (tl.serveConnection s c io).2.1 := by
  unfold serveConnection
  split
  · exact not_mem_nil
  · intro h
    rcases mem_andThen h with hfirst | hlast
    · rcases mem_andThen hfirst with hsend | hpoll
      · exact sendQueued_allocated hsend
      · exact pollTc_allocated hpoll
    · exact checkTimeout_allocated hlast

end Serve

/-- The create request of a connection that was allocated for the module is written, or refused by the
device. -/
def Created (r : TlResult slots conns) : Prop :=
  ∀ s c, .allocated s c ∈ r.2.1 →
    .written s c (createTpdu (UInt8.ofNat c)) (r.1.conn s c).use ∈ r.2.1 ∨
      (r.2.2 < 0 ∧ r.1.error = errCawrite)

theorem created_of_not_allocated {r : TlResult slots conns} (h : ∀ s c, .allocated s c ∉ r.2.1) :
    Created r := fun s c hmem => absurd hmem (h s c)

section Receive

variable {tl : TransportLayer slots conns} {s : Fin slots} {c : Fin conns}

theorem handleRequestTc_created (io : ReceiveIo) : Created (tl.handleRequestTc s c io) := by
  unfold handleRequestTc
  cases tl.findIdle s with
  | none =>
    apply created_of_not_allocated
    dsimp only
    split
    · exact fun _ _ => not_mem_nil
    · simp
  | some conid =>
    dsimp only
    split
    · exact fun _ _ _ => .inr ⟨Int.negSucc_lt_zero 0,rfl⟩
    split
    · exact fun _ _ _ => .inr ⟨Int.negSucc_lt_zero 0,rfl⟩
    · intro s' c' hmem
      have heq : s' = s ∧ c' = conid := by simpa using hmem
      obtain ⟨rfl,rfl⟩ := heq
      left
      rw [conn_updConn_self]
      simp [createTpdu]

theorem handleTpdu_created (tpdu : Tpdu) (io : ReceiveIo) : Created (tl.handleTpdu s c tpdu io) := by
  unfold handleTpdu
  split
  · apply created_of_not_allocated
    unfold handleCreateTcReply
    split <;> simp
  split
  · apply created_of_not_allocated
    unfold handleDeleteTc
    dsimp only
    split
    · split <;> simp
    · simp
  split
  · apply created_of_not_allocated
    unfold handleDeleteTcReply
    split <;> simp
  split
  · exact handleRequestTc_created io
  split
  · apply created_of_not_allocated
    unfold handleDataMore
    split
    · simp
    · dsimp only
      split <;> simp
  split
  · apply created_of_not_allocated
    unfold handleDataLast
    split
    · simp
    · dsimp only
      split
      · split <;> simp
      · split
        · simp
        · split <;> simp
  split
  · apply created_of_not_allocated
    unfold handleSb
    dsimp only
    split
    · simp
    · split
      · split
        · split <;> simp
        · simp
      · simp
  · exact created_of_not_allocated (by simp)

theorem processTpdu_created (parsed : Option Tpdu) (io : ReceiveIo) : Created (tl.processTpdu s parsed io) := by
  unfold processTpdu
  cases parsed with
  | none => exact created_of_not_allocated (by simp)
  | some tpdu =>
    dsimp only
    cases toFin? conns tpdu.connectionId.toNat with
    | none => exact created_of_not_allocated (by simp)
    | some c => exact handleTpdu_created tpdu io

end Receive

theorem createTransmits_of_created {tl : TransportLayer slots conns} {op : TlInput slots conns}
    {r : TlResult slots conns} (hstep : tlStep tl op = inPoll r) (h : Created r) : tl.CreateTransmits op := by
  intro s c hmem
  rw [hstep] at hmem ⊢
  unfold inPoll at hmem ⊢
  dsimp only at hmem ⊢
  have hallocated : .allocated s c ∈ r.2.1 := by
    rcases mem_append.mp hmem with hevs | hfailed
    · exact hevs
    · split at hfailed
      · simp at hfailed
      · cases hfailed
  rcases h s c hallocated with hwritten | ⟨hret,herror⟩
  · exact .inl (mem_append_left _ hwritten)
  · refine .inr (.inl (mem_append_right _ ?_))
    rw [if_pos hret,herror]
    exact mem_singleton_self _

theorem allocated_transmits_iff {tl tl' : TransportLayer slots conns} {s : Fin slots} {c : Fin conns}
    (h : Timely (tl.conn s c)) {create : List Message}
    (hnew : tl'.conn s c = { tl.conn s c with
      state := .inCreation, chainBuffer := none, use := (tl.conn s c).use + 1
      sendQueue := (tl.conn s c).sendQueue ++ create })
    (hcreate : create = [] ∨ create = [⟨createTpdu (UInt8.ofNat c), 3, (tl.conn s c).use + 1⟩]) :
    tl'.Transmits s c ↔ create ≠ [] ∧ (tl.conn s c).txTime = none ∧ (tl.conn s c).sendQueue = [] := by
  rw [transmits_iff (by rw [hnew]),hnew]
  dsimp only
  constructor
  · rintro ⟨htime,msg,rest,hqueue,-,huse⟩
    -- a message of an earlier use comes first in the queue
    cases hold : (tl.conn s c).sendQueue with
    | nil =>
      refine ⟨?_,htime,rfl⟩
      rintro rfl
      rw [hold] at hqueue
      cases hqueue
    | cons first others =>
      rw [hold,cons_append] at hqueue
      have hle := h.queue first (by rw [hold]; exact mem_cons_self)
      rw [(List.cons.inj hqueue).1] at hle
      omega
  · rintro ⟨hsome,htime,hempty⟩
    refine ⟨htime,⟨createTpdu (UInt8.ofNat c),3,(tl.conn s c).use + 1⟩,[],?_,rfl,rfl⟩
    rw [hempty,hcreate.resolve_left hsome]
    rfl

theorem newTc_transmits_iff {tl : TransportLayer slots conns} (h : ∀ s c, Timely (tl.conn s c))
    (slotId : UInt8) (malloc : Bool) :
    tl.CreateTransmits (.call (.newTc slotId malloc)) ↔
      tl.CleanAllocation (.call (.newTc slotId malloc)) := by
  unfold CreateTransmits CleanAllocation tlStep TransportLayer.call newTc
  dsimp only
  cases tl.checkSlot slotId with
  | none => simp
  | some s =>
    dsimp only
    cases hfound : tl.findIdle s with
    | none => simp [hfound]
    | some c =>
      dsimp only
      cases malloc with
      | false =>
        have htransmits : ((tl.allocNewTc s c).fail s errOutofmemory).Transmits s c ↔ _ :=
          allocated_transmits_iff (h s c) (by simp [allocNewTc]) (.inl rfl)
        simpa [hfound] using htransmits
      | true =>
        have htransmits : ((tl.allocNewTc s c).queueMessage s c [tCreateTC, 1, UInt8.ofNat c] 3).Transmits s c ↔
            _ := allocated_transmits_iff (h s c) (by simp [allocNewTc,queueMessage,createTpdu]) (.inr rfl)
        simpa [hfound] using htransmits

theorem createTransmits_of_not_allocated {tl : TransportLayer slots conns} {op : TlInput slots conns}
    (h : ∀ s c, .allocated s c ∉ (tlStep tl op).2) : tl.CreateTransmits op :=
  fun s c hmem => absurd hmem (h s c)

theorem createTransmits_iff {tl : TransportLayer slots conns} (h : ∀ s c, Timely (tl.conn s c))
    (op : TlInput slots conns) : tl.CreateTransmits op ↔ tl.CleanAllocation op := by
  have hquiet {c : TlCall} (hclean : tl.CleanAllocation (.call c)) (hevs : (tl.call c).2.1 = []) :
      tl.CreateTransmits (.call c) ↔ tl.CleanAllocation (.call c) := by
    apply iff_of_true _ hclean
    apply createTransmits_of_not_allocated
    intro s c' hmem
    have hnone : .allocated s c' ∈ (tl.call c).2.1 := hmem
    rw [hevs] at hnone
    cases hnone
  cases op with
  | call op =>
    cases op with
    | newTc slotId malloc => exact newTc_transmits_iff h slotId malloc
    | delTc slotId connectionId malloc => exact hquiet trivial (delTc_events tl _ _ _)
    | sendData slotId connectionId data malloc => exact hquiet trivial (sendBytes_events tl _ _ _ _ _)
    | sendDatav slotId connectionId vector malloc => exact hquiet trivial (sendBytes_events tl _ _ _ _ _)
    | registerSlot caHndl slot => exact hquiet trivial (registerSlot_events tl _ _)
    | destroySlot slotId =>
      apply iff_of_true _ trivial
      apply createTransmits_of_not_allocated
      unfold tlStep TransportLayer.call destroySlot
      dsimp only
      split <;> simp
  | receive s data io =>
    cases hparse : parseTpdu data data.length with
    | none =>
      apply iff_of_true _ trivial
      apply createTransmits_of_not_allocated
      unfold tlStep
      simp [hparse]
    | some parsed =>
      apply iff_of_true _ trivial
      apply createTransmits_of_created (r := tl.processTpdu s parsed io)
      · unfold tlStep
        simp only [hparse]
      · exact processTpdu_created parsed io
  | serve s c io =>
    apply iff_of_true _ trivial
    exact createTransmits_of_created rfl (created_of_not_allocated fun _ _ => serveConnection_allocated)
  | readError s =>
    apply iff_of_true _ trivial
    cases s with
    | none => exact createTransmits_of_created rfl (created_of_not_allocated fun _ _ => not_mem_nil)
    | some s => exact createTransmits_of_created rfl (created_of_not_allocated fun _ _ => not_mem_nil)
  | foreignSlot =>
    apply iff_of_true _ trivial
    exact createTransmits_of_created rfl (created_of_not_allocated fun _ _ => not_mem_nil)

/-- In every run, the connections can transmit their create requests and time out only for requests of
their own, exactly if every connection of the host is allocated with a clear timer, an empty queue and
memory for the create request. -/
theorem fresh_connection_iff (ops : List (TlInput slots conns)) :
    (StepsMeet tlStep CreateTransmits (tlCreate slots conns) ops ∧
        ∀ s c, OwnTimeouts (connEvents s c (runTrace tlStep (tlCreate slots conns) ops).2)) ↔
      StepsMeet tlStep CleanAllocation (tlCreate slots conns) ops := by
  constructor
  · rintro ⟨h, -⟩
    apply stepsMeet_of_invariant (fun tl => ∀ s c, Timely (tl.conn s c)) _ timely_create h
    intro tl op hinv hok
    exact ⟨tlStep_timely hinv op, (createTransmits_iff hinv op).mp hok⟩
  · intro h
    refine ⟨?_, ownTimeouts_run ops⟩
    apply stepsMeet_of_invariant (fun tl => ∀ s c, Timely (tl.conn s c)) _ timely_create h
    intro tl op hinv hok
    exact ⟨tlStep_timely hinv op, (createTransmits_iff hinv op).mpr hok⟩

/-- A run of one slot: the module deletes the connection instead of answering a poll, and then the host
opens it again. -/
def deletedWhilePolled : List (TlInput 1 2) :=
  [.call (.registerSlot 3 0), .call (.newTc 0 true), .serve 0 1 ⟨true, false, false⟩,
    .receive 0 [tCTCReply, 1, 1] ⟨true, true, true⟩, .serve 0 1 ⟨true, true, false⟩,
    .receive 0 [tDeleteTC, 1, 1] ⟨true, true, true⟩, .call (.newTc 0 true)]

/-- The poll is never answered, and the create request is not written. -/
theorem fresh_connection_waits : ¬StepsMeet tlStep CreateTransmits (tlCreate 1 2) deletedWhilePolled := by
  intro h
  obtain ⟨-, -, -, -, -, -, hlast, -⟩ := h
  rcases hlast 0 1 (by decide) with hwritten | hfailed | htransmits
  · exact absurd hwritten (by decide)
  · exact absurd hfailed (by decide)
  · exact absurd (htransmits ⟨true, false, false⟩ rfl) (by decide)

end LinuxDvb.En50221
