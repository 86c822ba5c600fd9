import LinuxDvb.LibDvbEn50221.Stdcam

/-!
# The slot of a CAM

While a CAM is inserted, the stdcam should have one slot of the transport layer, whose number it keeps in
`tl_slot_id`.
-/

namespace LinuxDvb.En50221

open TransportLayer

variable {slots conns : Nat}

namespace TransportLayer

def entries (tl : TransportLayer slots conns) (e : Fin slots) : Option Nat × UInt8 :=
  ((tl.slot e).caHndl, (tl.slot e).slot)

/-- The slot that `en50221_tl_register_slot` finds. -/
def freeSlot (tl : TransportLayer slots conns) : Option (Fin slots) :=
  (List.finRange slots).find? fun e => (tl.slot e).caHndl.isNone

end TransportLayer

def TlCall.KeepsSlots : TlCall → Prop
  | .registerSlot .. | .destroySlot .. => False
  | _ => True

/-- The slots that are registered for the CAM are the one with the number `tl_slot_id`, or none if that is -1.
Since the CAM was last missing, a slot was registered at most once, and a connection created at most once. -/
structure OneSlot (s : Stdcam slots conns) : Prop where
  exactly : ∀ e, s.tl.entries e = (some s.llci.cafd, s.llci.slotnum) ↔ (e.val : Int) = s.llci.tlSlotId
  exists_slot : s.llci.tlSlotId ≠ -1 → ∃ e : Fin slots, (e.val : Int) = s.llci.tlSlotId
  registered : s.registered ≤ 1
  connected : s.connected ≤ 1

/-- The other users neither register a slot for the CAM nor destroy the slot of the stdcam. The session layer,
which is called while data is handled, does not register or destroy slots at all. -/
def OthersLeaveCam (s : Stdcam slots conns) : StdcamInput slots conns → Prop
  | .poll io => ∀ e left, ∀ c ∈ (io.slot e).calls left, c.KeepsSlots
  | .dvbtime _ => True
  | .call (.registerSlot caHndl slot) => ¬(caHndl = s.llci.cafd ∧ slot = s.llci.slotnum)
  | .call (.destroySlot slotId) => (slotId.toNat : Int) ≠ s.llci.tlSlotId
  | .call _ => True

/-- A CAM that is in reset and is found ready has no slot yet, and if there is a free slot, then a connection
can be created on it. -/
def RegistersOnce (s : Stdcam slots conns) : StdcamInput slots conns → Prop
  | .poll io => io.camState = .ready → s.llci.state = .inreset → io.resetState = .ready →
      s.llci.tlSlotId = -1 ∧ ∀ e ∈ s.tl.freeSlot, io.malloc = true ∧ (s.tl.findIdle e).isSome
  | _ => True

namespace TransportLayer

variable (tl : TransportLayer slots conns)

@[simp] theorem entries_updConn (s : Fin slots) (c : Fin conns) (g : Connection → Connection) :
    (tl.updConn s c g).entries = tl.entries := by
  funext e
  unfold updConn entries
  by_cases he : e = s
  · subst he
    simp
  · simp [he]

@[simp] theorem entries_fail (s : Fin slots) (error : Int) : (tl.fail s error).entries = tl.entries := rfl

@[simp] theorem entries_failAny (error : Int) : (tl.failAny error).entries = tl.entries := rfl

@[simp] theorem entries_queueMessage (s : Fin slots) (c : Fin conns) (data : List UInt8) (length : Nat) :
    (tl.queueMessage s c data length).entries = tl.entries := entries_updConn tl s c _

@[simp] theorem entries_allocNewTc (s : Fin slots) (c : Fin conns) :
    (tl.allocNewTc s c).entries = tl.entries := entries_updConn tl s c _

theorem newTc_entries (slotId : UInt8) (malloc : Bool) : (tl.newTc slotId malloc).1.entries = tl.entries := by
  unfold newTc
  split
  · rfl
  split
  · rfl
  dsimp only
  split
  · simp
  · simp

theorem delTc_entries (slotId connectionId : UInt8) (malloc : Bool) :
    (tl.delTc slotId connectionId malloc).1.entries = tl.entries := by
  unfold delTc
  split
  · rfl
  split
  · rfl
  split
  · rfl
  split
  · rfl
  · simp

theorem sendBytes_entries (slotId connectionId : UInt8) (dataSize : Nat) (bytes : List UInt8)
    (malloc : Bool) : (tl.sendBytes slotId connectionId dataSize bytes malloc).1.entries = tl.entries := by
  unfold sendBytes
  split
  · rfl
  split
  · rfl
  split
  · rfl
  split
  · rfl
  split
  · rfl
  · simp

theorem call_entries {c : TlCall} (h : c.KeepsSlots) : (tl.call c).1.entries = tl.entries := by
  cases c with
  | newTc slotId malloc => exact newTc_entries tl slotId malloc
  | delTc slotId connectionId malloc => exact delTc_entries tl slotId connectionId malloc
  | sendData slotId connectionId data malloc => exact sendBytes_entries tl _ _ _ _ _
  | sendDatav slotId connectionId vector malloc => exact sendBytes_entries tl _ _ _ _ _
  | registerSlot caHndl slot => exact h.elim
  | destroySlot slotId => exact h.elim

theorem callAll_entries {cs : List TlCall} (h : ∀ c ∈ cs, c.KeepsSlots) : (tl.callAll cs).1.entries = tl.entries := by
  induction cs generalizing tl with
  | nil => rfl
  | cons c cs ih =>
    obtain ⟨hc,hcs⟩ := forall_mem_cons.mp h
    exact (ih _ hcs).trans (call_entries tl hc)

theorem andThen_entries {r : TlResult slots conns} {next : TransportLayer slots conns → TlResult slots conns}
    (hnext : (next r.1).1.entries = r.1.entries) : (andThen r next).1.entries = r.1.entries := by
  unfold andThen
  split
  · rfl
  · exact hnext

theorem sendQueued_entries (s : Fin slots) (c : Fin conns) (io : ServiceIo) :
    (tl.sendQueued s c io).1.entries = tl.entries := by
  unfold sendQueued
  dsimp only
  split
  · split
    · split
      · simp
      split
      · simp
      · simp
    · rfl
  · rfl

theorem pollTc_entries (s : Fin slots) (c : Fin conns) (io : ServiceIo) :
    (tl.pollTc s c io).1.entries = tl.entries := by
  unfold pollTc
  dsimp only
  split
  · split
    · simp
    · simp
  · rfl

theorem checkTimeout_entries (s : Fin slots) (c : Fin conns) (io : ServiceIo) :
    (tl.checkTimeout s c io).1.entries = tl.entries := by
  unfold checkTimeout
  dsimp only
  split
  · rfl
  split
  · rfl
  split
  · simp
  · simp
  · rfl
  · rfl
  · rfl

theorem serveConnection_entries (s : Fin slots) (c : Fin conns) (io : ServiceIo) :
    (tl.serveConnection s c io).1.entries = tl.entries := by
  unfold serveConnection
  split
  · rfl
  · rw [andThen_entries (checkTimeout_entries _ s c io),andThen_entries (pollTc_entries _ s c io)]
    exact sendQueued_entries tl s c io

theorem serveConnections_entries (s : Fin slots) (io : SlotIo conns) (cs : List (Fin conns)) :
    (tl.serveConnections s io cs).1.entries = tl.entries := by
  induction cs generalizing tl with
  | nil => rfl
  | cons c cs ih =>
    unfold serveConnections
    rw [andThen_entries (ih _)]
    exact serveConnection_entries tl s c (io.serve c)

theorem handleTpdu_entries (s : Fin slots) (c : Fin conns) (tpdu : Tpdu) (io : ReceiveIo) :
    (tl.handleTpdu s c tpdu io).1.entries = tl.entries := by
  unfold handleTpdu
  split
  · unfold handleCreateTcReply
    split <;> simp
  split
  · unfold handleDeleteTc
    dsimp only
    split
    · split <;> simp
    · rfl
  split
  · unfold handleDeleteTcReply
    split <;> simp
  split
  · unfold handleRequestTc
    split
    · split <;> simp
    dsimp only
    split
    · simp
    split <;> simp
  split
  · unfold handleDataMore
    split
    · rfl
    dsimp only
    split <;> simp
  split
  · unfold handleDataLast
    split
    · rfl
    dsimp only
    split
    · simp
    split <;> simp
  split
  · unfold handleSb
    dsimp only
    split
    · rfl
    split
    · split
      · split <;> simp
      · simp
    · rfl
  · rfl

theorem processTpdu_entries (s : Fin slots) (parsed : Option Tpdu) (io : ReceiveIo) :
    (tl.processTpdu s parsed io).1.entries = tl.entries := by
  unfold processTpdu
  split
  · rfl
  split
  · rfl
  · exact handleTpdu_entries tl _ _ _ _

section Poll

variable {tl : TransportLayer slots conns} {r : TlResult slots conns}

theorem processData_entries (s : Fin slots) {io : SlotIo conns}
    (hcalls : ∀ left, ∀ c ∈ io.calls left, c.KeepsSlots) {fuel : Nat} {data : List UInt8}
    (h : processData s io fuel tl data = some r) : r.1.entries = tl.entries := by
  induction fuel generalizing tl data r with
  | zero =>
    cases data with
    | nil =>
      cases h
      rfl
    | cons b bs => cases h
  | succ fuel ih =>
    cases data with
    | nil =>
      cases h
      rfl
    | cons b bs =>
      unfold processData at h
      simp only [bind_eq_bind,bind_eq_some_iff] at h
      obtain ⟨parsed,-,h⟩ := h
      have hfirst := processTpdu_entries tl s parsed (io.receive (b :: bs).length)
      split at h
      · cases h
        exact hfirst
      · rw [bind_eq_some_iff] at h
        obtain ⟨rest,hrest,h⟩ := h
        cases h
        exact (ih hrest).trans ((callAll_entries _ (hcalls _)).trans hfirst)

theorem readSlot_entries {s : Fin slots} {io : SlotIo conns}
    (hcalls : ∀ left, ∀ c ∈ io.calls left, c.KeepsSlots) (h : tl.readSlot s io = some r) :
    r.1.entries = tl.entries := by
  unfold readSlot at h
  split at h
  · cases h
    rfl
  · cases h
    rfl
  · cases h
    rfl
  split at h
  · cases h
    rfl
  split at h
  · cases h
    rfl
  · exact processData_entries _ hcalls h

theorem pollSlots_entries {io : Fin slots → SlotIo conns}
    (hcalls : ∀ e left, ∀ c ∈ (io e).calls left, c.KeepsSlots) {ss : List (Fin slots)}
    (h : pollSlots io tl ss = some r) : r.1.entries = tl.entries := by
  induction ss generalizing tl r with
  | nil =>
    cases h
    rfl
  | cons s ss ih =>
    unfold pollSlots at h
    split at h
    · exact ih h
    · simp only [bind_eq_bind,bind_eq_some_iff] at h
      obtain ⟨read,hread,h⟩ := h
      have hslot : (andThen read fun tl => tl.serveConnections s (io s) (List.finRange conns)).1.entries =
          tl.entries := by
        rw [andThen_entries (serveConnections_entries read.1 s (io s) _)]
        exact readSlot_entries (hcalls s) hread
      split at h
      · cases h
        exact hslot
      · rw [bind_eq_some_iff] at h
        obtain ⟨rest,hrest,h⟩ := h
        cases h
        exact (ih hrest).trans hslot

theorem polled_entries (tl : TransportLayer slots conns) (failed : Bool) {io : Fin slots → SlotIo conns}
    (hcalls : ∀ e left, ∀ c ∈ (io e).calls left, c.KeepsSlots) :
    (tl.polled failed io).1.entries = tl.entries := by
  have h := tl.poll_eq_polled failed io
  unfold poll at h
  split at h
  · rw [← Option.some.inj h]
    rfl
  · exact pollSlots_entries hcalls h

end Poll

theorem registerSlot_cases (caHndl : Nat) (slot : UInt8) :
    (tl.freeSlot = none ∧ tl.registerSlot caHndl slot = (tl.failAny errOutofslots, [], -1)) ∨
      ∃ e, tl.freeSlot = some e ∧ (tl.slot e).caHndl = none ∧
        (tl.registerSlot caHndl slot).1.entries = Function.update tl.entries e (some caHndl, slot) ∧
        (tl.registerSlot caHndl slot).2.2 = e.val := by
  unfold registerSlot
  cases hfree : tl.freeSlot with
  | none =>
    unfold freeSlot at hfree
    rw [hfree]
    exact .inl ⟨rfl,rfl⟩
  | some e =>
    unfold freeSlot at hfree
    rw [hfree]
    refine .inr ⟨e,rfl,?_,?_,rfl⟩
    · have hfound := find?_some hfree
      exact Option.isNone_iff_eq_none.mp hfound
    · funext e'
      unfold entries
      by_cases he : e' = e
      · subst he
        simp
      · simp [he]

theorem destroySlot_entries {slotId : UInt8} {e : Fin slots} (h : e.val = slotId.toNat) :
    (tl.destroySlot slotId).1.entries = Function.update tl.entries e (none, (tl.slot e).slot) := by
  unfold destroySlot
  rw [← h,toFin?,dif_pos e.isLt]
  funext e'
  unfold entries
  by_cases he : e' = e
  · subst he
    simp
  · simp [he]

theorem destroySlot_of_le {slotId : UInt8} (h : slots ≤ slotId.toNat) : (tl.destroySlot slotId).1 = tl := by
  unfold destroySlot
  rw [toFin?,dif_neg (Nat.not_lt.mpr h)]

theorem newTc_neg_iff {slotId : UInt8} {e : Fin slots} (h : e.val = slotId.toNat) {caHndl : Nat}
    (hused : (tl.slot e).caHndl = some caHndl) (malloc : Bool) :
    (tl.newTc slotId malloc).2.2 < 0 ↔ ¬(malloc = true ∧ (tl.findIdle e).isSome) := by
  have hcheck : tl.checkSlot slotId = some e := by
    unfold checkSlot
    rw [← h,toFin?,dif_pos e.isLt,Option.filter_some,hused]
    rfl
  unfold newTc
  rw [hcheck]
  dsimp only
  cases tl.findIdle e with
  | none => simp
  | some conid => cases malloc <;> simp

end TransportLayer

theorem toNat_ofInt_slot (hslots : slots < 256) (e : Fin slots) : (UInt8.ofInt e.val).toNat = e.val := by
  have he : e.val < 256 := Nat.lt_trans e.isLt hslots
  rw [UInt8.ofInt,UInt8.toNat_ofNat']
  omega

namespace Stdcam

variable (s : Stdcam slots conns)

/-- What registering a slot for a CAM in reset leads to: no slot is free, or a connection is created on the
slot, or the slot remains without being known. -/
theorem camInReset_cases (hslots : slots < 256) {io : StdcamIo slots conns} (hready : io.resetState = .ready) :
    (s.tl.freeSlot = none ∧ (s.camInReset io).1 = { s with
        tl := s.tl.failAny errOutofslots
        llci := { s.llci with tlSlotId := -1, state := .bad } }) ∨
    ∃ e tl, s.tl.freeSlot = some e ∧ s.tl.entries e ≠ (some s.llci.cafd, s.llci.slotnum) ∧
      tl.entries = Function.update s.tl.entries e (some s.llci.cafd, s.llci.slotnum) ∧
      ((io.malloc = true ∧ (s.tl.findIdle e).isSome) ∧ (s.camInReset io).1 =
          ⟨{ s.llci with tlSlotId := e.val }, tl, s.registered + 1, s.connected + 1⟩ ∨
        ¬(io.malloc = true ∧ (s.tl.findIdle e).isSome) ∧ (s.camInReset io).1 =
          ⟨{ s.llci with tlSlotId := -1, state := .bad }, tl, s.registered + 1, s.connected⟩) := by
  unfold camInReset
  rw [if_neg (not_not.mpr hready)]
  rcases s.tl.registerSlot_cases s.llci.cafd s.llci.slotnum with ⟨hfree,heq⟩ | ⟨e,hfree,hunused,hentries,hid⟩
  · rw [heq]
    exact .inl ⟨hfree,rfl⟩
  · right
    generalize hr : s.tl.registerSlot s.llci.cafd s.llci.slotnum = r at hentries hid
    have hused : (r.1.slot e).caHndl = some s.llci.cafd := by
      have he := congrFun hentries e
      rw [Function.update_self] at he
      exact congrArg Prod.fst he
    have hidle : r.1.findIdle e = s.tl.findIdle e := by
      rw [← hr]
      unfold findIdle
      simp only [registerSlot_conn]
    have hnumber := toNat_ofInt_slot hslots e
    have hneg := r.1.newTc_neg_iff hnumber.symm hused io.malloc
    rw [hidle] at hneg
    have hnew : s.tl.entries e ≠ (some s.llci.cafd, s.llci.slotnum) := by
      intro he
      have hsome : (s.tl.slot e).caHndl = some s.llci.cafd := congrArg Prod.fst he
      rw [hunused] at hsome
      cases hsome
    dsimp only
    rw [hid,if_neg (by omega)]
    refine ⟨e,(r.1.newTc (UInt8.ofInt e.val) io.malloc).1,hfree,hnew,?_,?_⟩
    · rw [newTc_entries,hentries]
    · by_cases hcreated : io.malloc = true ∧ (s.tl.findIdle e).isSome
      · rw [if_neg (fun h => hneg.mp h hcreated)]
        exact .inl ⟨hcreated,rfl⟩
      · rw [if_pos (hneg.mpr hcreated)]
        refine .inr ⟨hcreated,?_⟩
        rw [destroySlot_of_le]
        exact Nat.le_of_lt_succ hslots

end Stdcam

def Llci.slotView (llci : Llci) : Nat × UInt8 × StdcamStatus × Int :=
  (llci.cafd, llci.slotnum, llci.state, llci.tlSlotId)

namespace Llci

theorem sessionCallback_slotView (llci : Llci) (reason : SessionReason) (number : UInt16)
    (resourceId : UInt32) : (llci.sessionCallback reason number resourceId).1.slotView = llci.slotView := by
  unfold sessionCallback
  split
  · split <;> rfl
  · rfl

theorem callback_slotView (llci : Llci) (c : LlciCallback) : (llci.callback c).1.slotView = llci.slotView := by
  cases c with
  | session reason number resourceId => exact llci.sessionCallback_slotView reason number resourceId
  | datetimeEnquiry number responseInterval time => rfl

theorem callbacks_slotView (llci : Llci) (cs : List LlciCallback) :
    (runTrace Llci.callback llci cs).1.slotView = llci.slotView := by
  induction cs generalizing llci with
  | nil => rfl
  | cons c cs ih =>
    rw [runTrace_cons]
    exact (ih _).trans (llci.callback_slotView c)

theorem sendDatetime_slotView (llci : Llci) (time : Int) : (llci.sendDatetime time).1.slotView = llci.slotView := by
  unfold sendDatetime
  split <;> rfl

end Llci

/-- The stdcam has one slot at most, and it has registered none since the CAM was missing if it has none. -/
structure SlotKept (s : Stdcam slots conns) : Prop extends OneSlot s where
  fresh : s.llci.tlSlotId = -1 → s.registered = 0 ∧ s.connected = 0
  removed : s.llci.state = .none → s.llci.tlSlotId = -1

section Kept

variable {s s' : Stdcam slots conns} {io : StdcamIo slots conns}

theorem OneSlot.congr (h : OneSlot s) (hentries : ∀ e, s'.tl.entries e = (some s.llci.cafd, s.llci.slotnum) ↔
      s.tl.entries e = (some s.llci.cafd, s.llci.slotnum))
    (hview : s'.llci.slotView = s.llci.slotView) (hregistered : s'.registered = s.registered)
    (hconnected : s'.connected = s.connected) : OneSlot s' := by
  simp only [Llci.slotView,Prod.mk.injEq] at hview
  obtain ⟨hcafd,hslotnum,-,hid⟩ := hview
  constructor
  · rw [hcafd,hslotnum,hid]
    exact fun e => (hentries e).trans (h.exactly e)
  · rw [hid]
    exact h.exists_slot
  · rw [hregistered]
    exact h.registered
  · rw [hconnected]
    exact h.connected

theorem SlotKept.congr (h : SlotKept s) (hentries : ∀ e, s'.tl.entries e = (some s.llci.cafd, s.llci.slotnum) ↔
      s.tl.entries e = (some s.llci.cafd, s.llci.slotnum))
    (hview : s'.llci.slotView = s.llci.slotView) (hregistered : s'.registered = s.registered)
    (hconnected : s'.connected = s.connected) : SlotKept s' := by
  refine ⟨h.toOneSlot.congr hentries hview hregistered hconnected,?_,?_⟩
  · simp only [Llci.slotView,Prod.mk.injEq] at hview
    rw [hview.2.2.2,hregistered,hconnected]
    exact h.fresh
  · simp only [Llci.slotView,Prod.mk.injEq] at hview
    rw [hview.2.2.1,hview.2.2.2]
    exact h.removed

theorem SlotKept.of_noSlot (hid : s.llci.tlSlotId = -1)
    (hentries : ∀ e, s.tl.entries e ≠ (some s.llci.cafd, s.llci.slotnum)) (hregistered : s.registered = 0)
    (hconnected : s.connected = 0) : SlotKept s := by
  refine ⟨⟨fun e => ⟨fun he => absurd he (hentries e),?_⟩,fun h => absurd hid h,?_,?_⟩,
    fun _ => ⟨hregistered,hconnected⟩,fun _ => hid⟩
  · intro he
    omega
  · omega
  · omega

theorem OneSlot.noSlot (h : OneSlot s) (hid : s.llci.tlSlotId = -1) (e : Fin slots) :
    s.tl.entries e ≠ (some s.llci.cafd, s.llci.slotnum) := by
  intro he
  have := (h.exactly e).mp he
  omega

theorem camRemoved_slotKept (hslots : slots < 256) (h : OneSlot s) (hregistered : s.registered = 0)
    (hconnected : s.connected = 0) : SlotKept s.camRemoved.1 := by
  unfold Stdcam.camRemoved Llci.removed
  by_cases hid : s.llci.tlSlotId ≠ -1
  · rw [if_pos hid,if_pos hid]
    obtain ⟨e,he⟩ := h.exists_slot hid
    have hnumber := toNat_ofInt_slot hslots e
    rw [he] at hnumber
    apply SlotKept.of_noSlot
    · rfl
    · intro e'
      dsimp only
      rw [destroySlot_entries s.tl hnumber.symm]
      by_cases hne : e' = e
      · rw [hne,Function.update_self]
        exact fun heq => nomatch congrArg Prod.fst heq
      · rw [Function.update_of_ne hne]
        intro heq
        have hval := (h.exactly e').mp heq
        exact hne (Fin.ext (by omega))
    · exact hregistered
    · exact hconnected
  · rw [if_neg hid,if_neg hid]
    rw [ne_eq,not_not] at hid
    exact SlotKept.of_noSlot hid (h.noSlot hid) hregistered hconnected

theorem checkCam_slotKept (hslots : slots < 256) (h : SlotKept s) (hok : RegistersOnce s (.poll io)) :
    SlotKept (s.checkCam io).1 := by
  unfold Stdcam.checkCam
  cases hcam : io.camState with
  | initialising => exact h
  | failed => exact h
  | missing =>
    have hcleared : OneSlot { s with registered := 0, connected := 0 } :=
      ⟨h.exactly,h.exists_slot,Nat.zero_le _,Nat.zero_le _⟩
    dsimp only
    split
    · exact camRemoved_slotKept hslots hcleared rfl rfl
    · rename_i hstate
      rw [not_not] at hstate
      have hid := h.removed hstate
      exact SlotKept.of_noSlot hid (h.noSlot hid) rfl rfl
  | ready =>
    dsimp only
    split
    · -- the CAM is reset, and the stdcam has no slot
      rename_i hstate
      have hid := h.removed hstate
      unfold Stdcam.camAdded
      rw [if_neg (not_not.mpr hid)]
      exact SlotKept.of_noSlot hid (h.noSlot hid) (h.fresh hid).1 (h.fresh hid).2
    split
    · rename_i hstate
      by_cases hready : io.resetState = .ready
      · obtain ⟨hid,hfree⟩ := hok hcam hstate hready
        obtain ⟨hregistered,hconnected⟩ := h.fresh hid
        rcases s.camInReset_cases hslots hready with
          ⟨-,heq⟩ | ⟨e,tl,he,hnew,hentries,⟨-,heq⟩ | ⟨hfail,-⟩⟩
        · rw [heq]
          exact SlotKept.of_noSlot rfl (h.noSlot hid) hregistered hconnected
        · -- the slot that was free is the only one
          rw [heq,hregistered,hconnected]
          refine ⟨⟨?_,fun _ => ⟨e,rfl⟩,Nat.le_refl _,Nat.le_refl _⟩,?_,?_⟩
          · intro e'
            dsimp only
            rw [hentries]
            by_cases hne : e' = e
            · simp [hne]
            · rw [Function.update_of_ne hne]
              refine ⟨fun he' => absurd he' (h.noSlot hid e'),fun he' => ?_⟩
              exact absurd (Fin.ext (by omega)) hne
          · intro hid'
            dsimp only at hid'
            omega
          · intro hstate'
            rw [hstate] at hstate'
            cases hstate'
        · exact absurd (hfree e he) hfail
      · unfold Stdcam.camInReset
        rw [if_pos hready]
        exact h
    · exact h

theorem poll_same (hothers : OthersLeaveCam s (.poll io)) : (s.poll io).1.1.tl.entries = (s.checkCam io).1.tl.entries ∧
      (s.poll io).1.1.llci.slotView = (s.checkCam io).1.llci.slotView := by
  refine ⟨polled_entries _ _ hothers,?_⟩
  exact (Llci.sendDatetime_slotView _ _).trans (Llci.callbacks_slotView _ _)

theorem registersOnce_of_poll (hslots : slots < 256) (h : OneSlot s) (hothers : OthersLeaveCam s (.poll io))
    (hafter : OneSlot (s.poll io).1.1) : RegistersOnce s (.poll io) := by
  obtain ⟨hentries,hview⟩ := poll_same hothers
  have hchecked : OneSlot (s.checkCam io).1 :=
    hafter.congr (fun e => by rw [hentries]) hview.symm rfl rfl
  intro hcam hstate hready
  have hcheck : s.checkCam io = s.camInReset io := by
    unfold Stdcam.checkCam
    rw [hcam]
    dsimp only
    rw [if_neg (by rw [hstate]; decide),if_pos hstate]
  rw [hcheck] at hchecked
  rcases s.camInReset_cases hslots hready with
    ⟨hfree,heq⟩ | ⟨e,tl,hfree,hnew,hentries,⟨hcreated,heq⟩ | ⟨-,heq⟩⟩
  · rw [heq] at hchecked
    refine ⟨?_,fun e he => ?_⟩
    · by_contra hid
      obtain ⟨e,he⟩ := h.exists_slot hid
      have := (hchecked.exactly e).mp ((h.exactly e).mpr he)
      dsimp only at this
      omega
    · rw [hfree] at he
      cases he
  · rw [heq] at hchecked
    refine ⟨?_,fun e' he' => ?_⟩
    · by_contra hid
      obtain ⟨e',he'⟩ := h.exists_slot hid
      have hold := (h.exactly e').mpr he'
      have hne : e' ≠ e := by
        rintro rfl
        exact hnew hold
      have hval := (hchecked.exactly e').mp (by
        dsimp only
        rw [hentries,Function.update_of_ne hne]
        exact hold)
      dsimp only at hval
      exact hne (Fin.ext (by omega))
    · rw [hfree] at he'
      cases he'
      exact hcreated
  · rw [heq] at hchecked
    have hval := (hchecked.exactly e).mp (by
      dsimp only
      rw [hentries,Function.update_self])
    dsimp only at hval
    omega

theorem call_slotKept (h : SlotKept s) {c : TlCall} (hothers : OthersLeaveCam s (.call c)) :
    SlotKept (stdcamStep s (.call c)).1 := by
  refine h.congr (fun e => ?_) rfl rfl rfl
  change (s.tl.call c).1.entries e = _ ↔ _
  cases c with
  | registerSlot caHndl slot =>
    change (s.tl.registerSlot caHndl slot).1.entries e = _ ↔ _
    rcases s.tl.registerSlot_cases caHndl slot with ⟨-,heq⟩ | ⟨e',-,hunused,hentries,-⟩
    · rw [heq]
      exact Iff.rfl
    · rw [hentries]
      by_cases he : e = e'
      · subst he
        rw [Function.update_self]
        constructor
        · intro hcam
          rw [Prod.mk.injEq,Option.some.injEq] at hcam
          exact absurd hcam hothers
        · intro hcam
          have hused : (s.tl.slot e).caHndl = some s.llci.cafd := congrArg Prod.fst hcam
          rw [hunused] at hused
          cases hused
      · rw [Function.update_of_ne he]
  | destroySlot slotId =>
    change (s.tl.destroySlot slotId).1.entries e = _ ↔ _
    by_cases hid : slotId.toNat < slots
    · rw [destroySlot_entries s.tl (e := ⟨slotId.toNat,hid⟩) rfl]
      by_cases he : e = ⟨slotId.toNat,hid⟩
      · subst he
        rw [Function.update_self]
        refine ⟨fun hcam => (nomatch congrArg Prod.fst hcam),fun hcam => ?_⟩
        exact absurd ((h.exactly _).mp hcam) hothers
      · rw [Function.update_of_ne he]
    · rw [destroySlot_of_le s.tl (Nat.le_of_not_lt hid)]
  | newTc slotId malloc => rw [call_entries s.tl (by trivial)]
  | delTc slotId connectionId malloc => rw [call_entries s.tl (by trivial)]
  | sendData slotId connectionId data malloc => rw [call_entries s.tl (by trivial)]
  | sendDatav slotId connectionId vector malloc => rw [call_entries s.tl (by trivial)]

theorem step_slotKept (hslots : slots < 256) (h : SlotKept s) {op : StdcamInput slots conns}
    (hothers : OthersLeaveCam s op) (hok : RegistersOnce s op) : SlotKept (stdcamStep s op).1 := by
  cases op with
  | poll io =>
    obtain ⟨hentries,hview⟩ := poll_same hothers
    exact (checkCam_slotKept hslots h hok).congr (fun e => by rw [← hentries]; rfl) hview rfl rfl
  | dvbtime dvbtime => exact h.congr (fun _ => Iff.rfl) rfl rfl rfl
  | call c => exact call_slotKept h hothers

theorem registersOnce_of_step (hslots : slots < 256) (h : SlotKept s) {op : StdcamInput slots conns}
    (hothers : OthersLeaveCam s op) (hafter : OneSlot (stdcamStep s op).1) : RegistersOnce s op := by
  cases op with
  | poll io => exact registersOnce_of_poll hslots h.toOneSlot hothers hafter
  | dvbtime dvbtime => trivial
  | call c => trivial

end Kept

theorem create_slotKept (cafd : Nat) (slotnum : UInt8) : SlotKept (stdcamCreate slots conns cafd slotnum) :=
  SlotKept.of_noSlot rfl (fun _ h => nomatch congrArg Prod.fst h) rfl rfl

/-- In every state of a run there is one slot for the CAM exactly if no poll registers a second slot, and a
connection is created on every slot that is registered. -/
theorem one_slot_iff {maxSlots : UInt8} (cafd : Nat) (slotnum : UInt8) {ops : List (StdcamInput maxSlots.toNat conns)}
    (hothers : StepsMeet stdcamStep OthersLeaveCam (stdcamCreate maxSlots.toNat conns cafd slotnum) ops) :
    (∀ pre, pre <+: ops → OneSlot (runTrace stdcamStep (stdcamCreate maxSlots.toNat conns cafd slotnum) pre).1) ↔
      StepsMeet stdcamStep RegistersOnce (stdcamCreate maxSlots.toNat conns cafd slotnum) ops := by
  have hslots : maxSlots.toNat < 256 := maxSlots.toNat_lt
  apply forall_prefix_iff_stepsMeet_of SlotKept
  · exact fun s h => h.toOneSlot
  · exact fun s op h hleave hok => step_slotKept hslots h hleave hok
  · exact fun s op h hleave hafter => registersOnce_of_step hslots h hleave hafter
  · exact create_slotKept cafd slotnum
  · exact hothers

def quiet {slots conns : Nat} (camState : DvbcaCamstate) : StdcamInput slots conns :=
  .poll
    { camState := camState
      resetState := camState
      malloc := true
      pollFailed := false
      slot := fun _ => ⟨.nothing, fun _ => ⟨true, true, true⟩, fun _ => [], fun _ => ⟨true, false, false⟩⟩
      callbacks := []
      time := 0 }

def newStdcam : Stdcam (UInt8.toNat 2) 2 := stdcamCreate _ _ 5 0

def removedInTime : List (StdcamInput (UInt8.toNat 2) 2) :=
  [quiet .missing, quiet .ready, quiet .ready, quiet .initialising, quiet .missing]

theorem one_slot_removed : StepsMeet stdcamStep OthersLeaveCam newStdcam removedInTime ∧
      ∀ pre, pre <+: removedInTime → OneSlot (runTrace stdcamStep newStdcam pre).1 := by
  have hothers : StepsMeet stdcamStep OthersLeaveCam newStdcam removedInTime := by
    refine ⟨?_, ?_, ?_, ?_, ?_, trivial⟩ <;> exact fun _ _ _ hc => nomatch hc
  refine ⟨hothers, (one_slot_iff 5 0 hothers).mpr ?_⟩
  refine ⟨fun hcam => (nomatch hcam), fun _ hstate => (nomatch hstate), fun _ _ _ => ?_,
    fun hcam => (nomatch hcam), fun hcam => (nomatch hcam), trivial⟩
  decide +kernel

/-- The CAM stays ready: it gets slot 0, and at the next poll slot 1. -/
theorem not_one_slot : ¬∀ pre, pre <+: [quiet .ready, quiet .ready, quiet .ready] →
      OneSlot (runTrace stdcamStep newStdcam pre).1 := by
  intro h
  have hfirst := (h _ (List.prefix_refl _)).exactly ⟨0, by decide⟩
  exact absurd hfirst (by decide +kernel)

end LinuxDvb.En50221
