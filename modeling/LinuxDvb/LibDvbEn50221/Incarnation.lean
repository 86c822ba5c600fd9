import LinuxDvb.LibDvbEn50221.ConnectionStep

/-!
# Uses of a connection

An entry of the array of connections is used again and again. Its queue is emptied only with the slot, so what was
queued before the module has deleted the connection is sent in the next use.
-/

namespace LinuxDvb.En50221

open TransportLayer

def OwnWrites (evs : List ConnEvent) : Prop :=
  ∀ pre data use post, evs = pre ++ .written data use :: post → use = pre.count .allocated

def CreateFirst (id : UInt8) (evs : List ConnEvent) : Prop :=
  ∀ pre mid data use post, evs = pre ++ .allocated :: (mid ++ .written data use :: post) →
    (∀ e ∈ mid, ∃ u, e = .timedOut u) → data = createTpdu id

def Seen.Good (id : UInt8) (m : Seen) : ConnEvent → Prop
  | .written data use => use = m.uses ∧ (m.opened = true ∨ data = createTpdu id)
  | _ => True

variable {evs : List ConnEvent}

theorem foldl_next_timedOut (h : ∀ e ∈ evs, ∃ u, e = .timedOut u) (m : Seen) : evs.foldl Seen.next m = m := by
  induction evs with
  | nil => rfl
  | cons e evs ih =>
    obtain ⟨u,rfl⟩ := h e mem_cons_self
    exact ih fun e he => h e (mem_cons_of_mem _ he)

theorem ownWrites_of_accepts {id : UInt8} (h : Accepts Seen.next (Seen.Good id) ⟨0, false⟩ evs) : OwnWrites evs := by
  intro pre data use post heq
  rw [heq] at h
  have hgood := h.good_of_append
  rw [Seen.Good,foldl_next_uses,Nat.zero_add] at hgood
  exact hgood.1

theorem createFirst_of_accepts {id : UInt8} {m : Seen}
    (h : Accepts Seen.next (Seen.Good id) m evs) : CreateFirst id evs := by
  intro pre mid data use post heq hmid
  rw [heq,accepts_append,accepts_cons] at h
  have hgood := h.2.2.good_of_append
  rw [foldl_next_timedOut hmid] at hgood
  rcases hgood.2 with hopened | hcreate
  · cases hopened
  · exact hcreate

/-- What a connection has left to send belongs to its present use, and nothing but its T_CREATE_T_C can
be sent before the connection is opened. -/
structure Owned (id : UInt8) (con : Connection) (m : Seen) : Prop where
  use : con.use = m.uses
  sent : ∀ u, con.txTime = some u → u ≤ con.use
  queue : con.state ≠ .idle → ∀ msg ∈ con.sendQueue, msg.use = con.use
  creation : con.state = .inCreation → con.sendQueue = [] ∨ con.sendQueue = [⟨createTpdu id, 3, con.use⟩]
  outstanding : con.state = .inCreation → con.txTime = some con.use → m.opened = true
  opened : con.state ≠ .idle → con.state ≠ .inCreation → m.opened = true

namespace Owned

variable {id : UInt8} {con : Connection} {m : Seen}

variable {msg : Message} {rest : List Message}

theorem send (h : Owned id con m)
    (hstate : con.state = .inCreation ∨ con.state = .active ∨ con.state = .activeDeletequeued)
    (hqueue : con.sendQueue = msg :: rest) : Seen.Good id m (.written (linkData msg) msg.use) := by
  have hbusy : con.state ≠ .idle := by
    rcases hstate with hs | hs | hs <;> rw [hs] <;> decide
  have hmem : msg ∈ con.sendQueue := by
    rw [hqueue]
    exact mem_cons_self
  refine ⟨(h.queue hbusy msg hmem).trans h.use,?_⟩
  by_cases hcreation : con.state = .inCreation
  · right
    rcases h.creation hcreation with hempty | hcreate
    · rw [hempty] at hqueue
      cases hqueue
    · rw [hcreate] at hqueue
      cases hqueue
      rfl
  · exact .inl (h.opened hbusy hcreation)

theorem queue_append (h : Owned id con m) (hbusy : con.state ≠ .idle) (data : List UInt8) (length : Nat) :
    ∀ msg ∈ con.sendQueue ++ [⟨data, length, con.use⟩], msg.use = con.use := by
  intro msg hmsg
  rcases mem_append.mp hmsg with hold | hnew
  · exact h.queue hbusy msg hold
  · rw [mem_singleton.mp hnew]

theorem sent_now (use : Nat) : ∀ u, some use = some u → u ≤ use := by
  intro u hu
  cases hu
  exact Nat.le_refl _

theorem tail_queue (h : Owned id con m) (hbusy : con.state ≠ .idle)
    (hqueue : con.sendQueue = msg :: rest) : ∀ msg ∈ rest, msg.use = con.use := by
  intro msg hmsg
  apply h.queue hbusy
  rw [hqueue]
  exact mem_cons_of_mem _ hmsg

theorem tail_creation (h : Owned id con m) (hcreation : con.state = .inCreation) (hqueue : con.sendQueue = msg :: rest) : rest = [] := by
  rcases h.creation hcreation with hempty | hcreate
  · rw [hempty] at hqueue
    cases hqueue
  · rw [hcreate] at hqueue
    cases hqueue
    rfl

theorem active (h : Owned id con m) (hstate : con.state = .active) {con' : Connection} {m' : Seen}
    (hstate' : con'.state = .active) (huse : con'.use = con.use) (hqueue : con'.sendQueue = con.sendQueue)
    (hsent : con'.txTime = none ∨ con'.txTime = some con.use) (huses : m'.uses = m.uses)
    (hopened : m.opened = true → m'.opened = true) : Owned id con' m' where
  use := huse.trans (h.use.trans huses.symm)
  sent := by
    intro u hu
    rcases hsent with htime | htime
    · rw [htime] at hu
      cases hu
    · rw [htime] at hu
      cases hu
      exact Nat.le_of_eq huse.symm
  queue := by
    intro _ msg hmsg
    rw [hqueue] at hmsg
    rw [huse]
    exact h.queue (by rw [hstate]; decide) msg hmsg
  creation := fun hs => by rw [hstate'] at hs; cases hs
  outstanding := fun hs => by rw [hstate'] at hs; cases hs
  opened := fun _ _ => hopened (h.opened (by rw [hstate]; decide) (by rw [hstate]; decide))

theorem released (h : Owned id con m) {con' : Connection} {m' : Seen} (hstate : con'.state = .idle)
    (huse : con'.use = con.use) (hsent : ∀ u, con'.txTime = some u → con.txTime = some u)
    (huses : m'.uses = m.uses) : Owned id con' m' where
  use := huse.trans (h.use.trans huses.symm)
  sent := by
    intro u hu
    rw [huse]
    exact h.sent u (hsent u hu)
  queue := fun hs => absurd hstate hs
  creation := fun hs => by rw [hstate] at hs; cases hs
  outstanding := fun hs => by rw [hstate] at hs; cases hs
  opened := fun hs => absurd hstate hs

end Owned

theorem ConnStep.accepted {id : UInt8} {con con' : Connection} {m : Seen}
    (h : Owned id con m) (hstep : ConnStep True id con evs con') :
    Accepts Seen.next (Seen.Good id) m evs := by
  cases hstep with
  | writeCreate _ => exact ⟨⟨h.use,.inr rfl⟩,trivial⟩
  | send hstate hqueue _ => exact ⟨h.send hstate hqueue,trivial⟩
  | sendDelete hstate hqueue _ => exact ⟨h.send hstate hqueue,trivial⟩
  | write hstate data =>
    exact ⟨⟨h.use,.inl (h.opened (by rw [hstate]; decide) (by rw [hstate]; decide))⟩,trivial⟩
  | deleteReply hstate data =>
    refine ⟨⟨h.use,.inl (h.opened ?_ ?_)⟩,trivial⟩
    · rcases hstate with hs | hs <;> rw [hs] <;> decide
    · rcases hstate with hs | hs <;> rw [hs] <;> decide
  | answerRequest data hclean =>
    exact ⟨⟨h.use,.inl (h.opened (hclean trivial).1 (hclean trivial).2)⟩,trivial⟩
  | _ => trivial

theorem ConnStep.owned {id : UInt8} {con con' : Connection} {m : Seen}
    (h : Owned id con m) (hstep : ConnStep True id con evs con') :
    Owned id con' (evs.foldl Seen.next m) := by
  cases hstep with
  | allocate hidle hclean =>
    constructor
    · exact congrArg (· + 1) h.use
    · intro u hu
      exact Nat.le_succ_of_le (h.sent u hu)
    · intro _ msg hmsg
      dsimp only at hmsg
      rw [hclean trivial] at hmsg
      cases hmsg
    · exact fun _ => .inl (hclean trivial)
    · intro _ htime
      exact absurd (h.sent _ htime) (Nat.not_succ_le_self _)
    · exact fun _ hs => absurd rfl hs
  | release hstate => exact h.released rfl rfl (fun _ hu => hu) rfl
  | queueCreate hstate hclean =>
    constructor
    · exact h.use
    · exact h.sent
    · exact fun hbusy => h.queue_append hbusy _ _
    · intro _
      right
      dsimp only
      rw [hclean trivial,nil_append]
    · exact h.outstanding
    · exact h.opened
  | writeCreate hstate =>
    constructor
    · exact h.use
    · exact Owned.sent_now con.use
    · exact h.queue
    · exact h.creation
    · exact fun _ _ => rfl
    · exact fun _ _ => rfl
  | queueData hstate data length =>
    constructor
    · exact h.use
    · exact h.sent
    · exact fun hbusy => h.queue_append hbusy _ _
    · exact fun hs => by rw [hstate] at hs; cases hs
    · exact h.outstanding
    · exact h.opened
  | queueDelete hstate data =>
    have hbusy : con.state ≠ .idle ∧ con.state ≠ .inCreation := by
      rcases hstate with hs | hs <;> rw [hs] <;> decide
    constructor
    · exact h.use
    · exact h.sent
    · exact fun _ => h.queue_append hbusy.1 _ _
    · exact fun hs => nomatch hs
    · exact fun hs => nomatch hs
    · exact fun _ _ => h.opened hbusy.1 hbusy.2
  | clear => exact h.released rfl rfl (fun _ hu => nomatch hu) rfl
  | drop hqueue =>
    constructor
    · exact h.use
    · exact h.sent
    · exact fun hbusy => h.tail_queue hbusy hqueue
    · exact fun hcreation => .inl (h.tail_creation hcreation hqueue)
    · exact h.outstanding
    · exact h.opened
  | send hstate hqueue hdata =>
    constructor
    · exact h.use
    · exact Owned.sent_now con.use
    · exact fun hbusy => h.tail_queue hbusy hqueue
    · exact fun hcreation => .inl (h.tail_creation hcreation hqueue)
    · exact fun _ _ => rfl
    · exact fun _ _ => rfl
  | sendDelete hstate hqueue hdata =>
    have hbusy : con.state ≠ .idle := by
      rcases hstate with hs | hs | hs <;> rw [hs] <;> decide
    constructor
    · exact h.use
    · exact Owned.sent_now con.use
    · exact fun _ => h.tail_queue hbusy hqueue
    · exact fun hs => nomatch hs
    · exact fun hs => nomatch hs
    · exact fun _ _ => rfl
  | wait hstate => exact h.active hstate hstate rfl rfl (.inr rfl) rfl fun ho => ho
  | write hstate data => exact h.active hstate hstate rfl rfl (.inr rfl) rfl fun _ => rfl
  | expire hstate => exact h.released rfl rfl (fun _ hu => hu) rfl
  | timeout hstate htime => exact h
  | createReply hstate hclean =>
    constructor
    · exact h.use
    · exact fun u hu => nomatch hu
    · intro _
      exact h.queue (by rw [hstate]; decide)
    · exact fun hs => nomatch hs
    · exact fun hs => nomatch hs
    · exact fun _ _ => h.outstanding hstate (hclean trivial)
  | delete hstate => exact h.released rfl rfl (fun _ hu => hu) rfl
  | deleteReply hstate data => exact h.released rfl rfl (fun _ hu => hu) rfl
  | answerRequest data hclean =>
    constructor
    · exact h.use
    · exact fun u hu => nomatch hu
    · exact h.queue
    · exact h.creation
    · exact fun _ _ => rfl
    · exact fun _ _ => rfl
  | receive hstate chainBuffer => exact h.active hstate hstate rfl rfl (.inl rfl) rfl fun ho => ho

/-- In a run of clean steps no TPDU crosses the uses of a connection: each one is written in the use in
which it was made, the T_CREATE_T_C first. -/
theorem no_message_crosses_uses (slots conns : Nat) {ops : List (TlInput slots conns)}
    (h : StepsMeet tlStep CleanStep (tlCreate slots conns) ops) (s : Fin slots) (c : Fin conns) :
    OwnWrites (connEvents s c (runTrace tlStep (tlCreate slots conns) ops).2) ∧
      CreateFirst (UInt8.ofNat c) (connEvents s c (runTrace tlStep (tlCreate slots conns) ops).2) := by
  have hlocal : Local True _ _ _ := runTrace_local (tlCreate slots conns) fun _ => h
  have hinit : Owned (UInt8.ofNat c) ((tlCreate slots conns).conn s c) ⟨0, false⟩ := by
    constructor
    · rfl
    · exact fun u hu => nomatch hu
    · exact fun hs => absurd rfl hs
    · exact fun hs => nomatch hs
    · exact fun hs => nomatch hs
    · exact fun hs => absurd rfl hs
  have haccepts := ((hlocal s c).accepted (Owned (UInt8.ofNat c))
    (fun con m evs con' hinv hstep => ⟨hstep.accepted hinv, hstep.owned hinv⟩) hinit).1
  exact ⟨ownWrites_of_accepts haccepts, createFirst_of_accepts haccepts⟩

/-- A run of one slot: the connection is opened, and then the host sends data, which the module has not
asked for when it deletes the connection; then the host opens it again. -/
def deletedByModule : List (TlInput 1 2) :=
  [.call (.registerSlot 3 0), .call (.newTc 0 true), .serve 0 1 ⟨true, false, false⟩,
    .receive 0 [tCTCReply, 1, 1] ⟨true, true, true⟩, .call (.sendData 0 1 [7] true),
    .receive 0 [tDeleteTC, 1, 1] ⟨true, true, true⟩, .call (.newTc 0 true),
    .serve 0 1 ⟨true, false, false⟩]

theorem no_message_crosses_uses_once : StepsMeet tlStep CleanStep (tlCreate 1 2) (deletedByModule.take 6) ∧
      OwnWrites (connEvents 0 1 (runTrace tlStep (tlCreate 1 2) (deletedByModule.take 6)).2) := by
  have hclean : StepsMeet tlStep CleanStep (tlCreate 1 2) (deletedByModule.take 6) := by
    decide
  exact ⟨hclean, (no_message_crosses_uses 1 2 hclean 0 1).1⟩

/-- The data of the first use is the first thing that is written in the second. -/
theorem message_crosses_uses : ¬OwnWrites (connEvents 0 1 (runTrace tlStep (tlCreate 1 2) deletedByModule).2) ∧
      ¬CreateFirst 1 (connEvents 0 1 (runTrace tlStep (tlCreate 1 2) deletedByModule).2) := by
  have hevs : connEvents 0 1 (runTrace tlStep (tlCreate 1 2) deletedByModule).2 =
      [.allocated, .written [tCreateTC, 1, 1] 1, .written [tDTCReply, 1, 1] 1, .allocated,
        .written [tDataLast, 2, 1, 7] 1] := by
    decide
  rw [hevs]
  constructor
  · intro h
    have huse := h [.allocated, .written [tCreateTC, 1, 1] 1, .written [tDTCReply, 1, 1] 1, .allocated] _ _ []
      rfl
    exact absurd huse (by decide)
  · intro h
    have hcreate := h [.allocated, .written [tCreateTC, 1, 1] 1, .written [tDTCReply, 1, 1] 1] [] _ _ [] rfl
      (fun _ he => nomatch he)
    exact absurd hcreate (by decide)

end LinuxDvb.En50221
