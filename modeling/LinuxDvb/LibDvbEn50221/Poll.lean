import LinuxDvb.LibDvbEn50221.Transport

/-!
# Polls

`en50221_tl_process_data` and `en50221_tl_poll` as whole functions. In the data callback the user may call the
transport layer.
-/

namespace LinuxDvb.En50221

open TransportLayer

variable {slots conns : Nat}

/-- What `poll` and `dvbca_link_read` have got from the handle of a slot. -/
inductive SlotRead where
  | nothing
  | pollerr
  | failed
  | data (rSlotId : UInt8) (data : List UInt8)

/-- What a poll meets at a slot. The TPDUs in the data are told apart by the number of bytes left when they
are handled, and `calls` are the calls that are made before the next one. -/
structure SlotIo (conns : Nat) where
  read : SlotRead
  receive : Nat → ReceiveIo
  calls : Nat → List TlCall
  serve : Fin conns → ServiceIo

namespace TransportLayer

def callAll (tl : TransportLayer slots conns) : List TlCall → TransportLayer slots conns × List (TlEvent slots conns)
  | [] => (tl, [])
  | c :: cs =>
    let rest := callAll (tl.call c).1 cs
    (rest.1, (tl.call c).2.1 ++ rest.2)

/-- The loop of `en50221_tl_process_data`; `none` if it reads outside of the data or does not end within
`fuel` rounds. -/
def processData (s : Fin slots) (io : SlotIo conns) :
    Nat → TransportLayer slots conns → List UInt8 → Option (TlResult slots conns)
  | _, tl, [] => some (tl, [], 0)
  | 0, _, _ :: _ => none
  | fuel + 1, tl, b :: bs => do
    let data := b :: bs
    let parsed ← parseTpdu data data.length
    let r := tl.processTpdu s parsed (io.receive data.length)
    if r.2.2 < 0 then some r
    else
      let called := r.1.callAll (io.calls data.length)
      let rest ← processData s io fuel called.1 ((parsed.map Tpdu.rest).getD [])
      some (rest.1, r.2.1 ++ called.2 ++ rest.2.1, rest.2.2)

def serveConnections (tl : TransportLayer slots conns) (s : Fin slots) (io : SlotIo conns) :
    List (Fin conns) → TlResult slots conns
  | [] => (tl, [], 0)
  | c :: cs => andThen (tl.serveConnection s c (io.serve c)) fun tl => serveConnections tl s io cs

def dataSlot (tl : TransportLayer slots conns) (s : Fin slots) (rSlotId : UInt8) : Option (Fin slots) :=
  if (tl.slot s).slot = rSlotId then some s
  else (List.finRange slots).find? fun s' =>
    decide ((tl.slot s').caHndl = (tl.slot s).caHndl) && decide ((tl.slot s').slot = rSlotId)

def readSlot (tl : TransportLayer slots conns) (s : Fin slots) (io : SlotIo conns) :
    Option (TlResult slots conns) :=
  match io.read with
  | .nothing => some (tl, [], 0)
  | .pollerr => some (tl.fail s errCaread, [], -1)
  | .failed => some (tl.fail s errCaread, [], -1)
  | .data rSlotId data =>
    if data = [] then some (tl, [], 0)
    else
      match tl.dataSlot s rSlotId with
      | none => some (tl.failAny errBadslotid, [], -1)
      | some s' => processData s' io data.length tl data

/-- The loop of `en50221_tl_poll` over the slots. -/
def pollSlots (io : Fin slots → SlotIo conns) :
    TransportLayer slots conns → List (Fin slots) → Option (TlResult slots conns)
  | tl, [] => some (tl, [], 0)
  | tl, s :: ss =>
    if (tl.slot s).caHndl.isNone then pollSlots io tl ss
    else do
      let r ← tl.readSlot s (io s)
      let r := andThen r fun tl => tl.serveConnections s (io s) (List.finRange conns)
      if r.2.2 < 0 then some r
      else
        let rest ← pollSlots io r.1 ss
        some (rest.1, r.2.1 ++ rest.2.1, rest.2.2)

/-- `en50221_tl_poll`; `failed` says that the call of `poll` has failed. -/
def poll (tl : TransportLayer slots conns) (failed : Bool) (io : Fin slots → SlotIo conns) :
    Option (TlResult slots conns) :=
  if failed then some ({ tl with error := errCaread, errorSlot := -1 }, [], -1)
  else pollSlots io tl (List.finRange slots)

end TransportLayer

theorem parseTpdu_inside {data : List UInt8} (h : data ≠ []) : ∃ parsed, parseTpdu data data.length = some parsed ∧
      ∀ tpdu, parsed = some tpdu → tpdu.rest.length < data.length := by
  obtain ⟨tag,behind,rfl⟩ := exists_cons_of_ne_nil h
  unfold parseTpdu
  simp only [getElem?_cons_zero,drop_succ_cons,drop_zero,length_cons,
    Nat.add_sub_cancel,bind_eq_bind,bind_some]
  rcases asn1Decode_inside behind with hdecode | ⟨used,length,hdecode,hpos,hle⟩
  · rw [hdecode]
    exact ⟨none,rfl,fun _ ht => nomatch ht⟩
  rw [hdecode]
  simp only [bind_some]
  split
  · exact ⟨none,rfl,fun _ ht => nomatch ht⟩
  rename_i hlength
  rw [not_or,Nat.not_lt,gt_iff_lt,Nat.not_lt] at hlength
  have hid : 1 + used < (tag :: behind).length := by
    rw [length_cons]
    omega
  have hpayload : length - 1 ≤ (List.drop (1 + used) behind).length := by
    rw [length_drop]
    omega
  rw [getElem?_eq_getElem hid]
  simp only [bind_some]
  rw [readBytes,if_pos hpayload]
  refine ⟨_,rfl,?_⟩
  intro tpdu ht
  rw [Option.some.injEq] at ht
  subst ht
  simp only [length_drop]
  omega

theorem processData_isSome (s : Fin slots) (io : SlotIo conns) {fuel : Nat}
    (tl : TransportLayer slots conns) {data : List UInt8} (h : data.length ≤ fuel) :
    (processData s io fuel tl data).isSome := by
  induction fuel generalizing tl data with
  | zero =>
    rw [eq_nil_of_length_eq_zero (Nat.le_zero.mp h)]
    rfl
  | succ fuel ih =>
    cases data with
    | nil => rfl
    | cons b bs =>
      obtain ⟨parsed,hparse,hrest⟩ := parseTpdu_inside (cons_ne_nil b bs)
      unfold processData
      simp only [bind_eq_bind,hparse,bind_some]
      split
      · rfl
      · have hshort : ((parsed.map Tpdu.rest).getD []).length ≤ fuel := by
          cases parsed with
          | none => exact Nat.zero_le _
          | some tpdu =>
            have := hrest tpdu rfl
            simp only [length_cons] at h this
            simp only [map_some,getD_some]
            omega
        obtain ⟨rest,hr⟩ := isSome_iff_exists.mp (ih
          (((tl.processTpdu s parsed (io.receive (b :: bs).length)).1.callAll (io.calls (b :: bs).length)).1)
          hshort)
        rw [hr]
        rfl

/-- A result that a run of steps reaches with the same events. -/
def IsRun (tl : TransportLayer slots conns) (r : TlResult slots conns) : Prop :=
  ∃ ops, runTrace tlStep tl ops = inPoll r

section Runs

variable {tl : TransportLayer slots conns} {r r' : TlResult slots conns}

theorem isRun_skip (tl : TransportLayer slots conns) : IsRun tl (tl, [], 0) := ⟨[], rfl⟩

theorem IsRun.of_step (op : TlInput slots conns) (h : tlStep tl op = inPoll r) : IsRun tl r := by
  refine ⟨[op],?_⟩
  rw [runTrace_cons,runTrace_nil,append_nil]
  exact h

theorem inPoll_of_success (h : ¬r.2.2 < 0) : inPoll r = (r.1, r.2.1) := by
  rw [inPoll,if_neg h,append_nil]

/-- Runs that do not fail can be continued. -/
theorem IsRun.append (h : IsRun tl r) (hr : ¬r.2.2 < 0) (h' : IsRun r.1 r') :
    IsRun tl (r'.1, r.2.1 ++ r'.2.1, r'.2.2) := by
  obtain ⟨ops,hops⟩ := h
  obtain ⟨ops',hops'⟩ := h'
  rw [inPoll_of_success hr] at hops
  refine ⟨ops ++ ops',?_⟩
  rw [runTrace_append,hops,hops']
  simp only [inPoll,append_assoc]

theorem IsRun.andThen {next : TransportLayer slots conns → TlResult slots conns} (h : IsRun tl r)
    (hnext : IsRun r.1 (next r.1)) : IsRun tl (andThen r next) := by
  unfold TransportLayer.andThen
  split
  · exact h
  · next hr => exact h.append hr hnext

theorem isRun_callAll (tl : TransportLayer slots conns) (cs : List TlCall) :
    IsRun tl ((tl.callAll cs).1, (tl.callAll cs).2, 0) := by
  induction cs generalizing tl with
  | nil => exact isRun_skip tl
  | cons c cs ih =>
    have hcall : IsRun tl ((tl.call c).1, (tl.call c).2.1, 0) := by
      apply IsRun.of_step (.call c)
      rw [inPoll_of_success (by simp)]
      rfl
    exact hcall.append (by simp) (ih (tl.call c).1)

theorem isRun_processData (s : Fin slots) (io : SlotIo conns) {fuel : Nat} {data : List UInt8}
    (h : processData s io fuel tl data = some r) : IsRun tl r := by
  induction fuel generalizing tl data r with
  | zero =>
    cases data with
    | nil =>
      cases h
      exact isRun_skip tl
    | cons b bs => cases h
  | succ fuel ih =>
    cases data with
    | nil =>
      cases h
      exact isRun_skip tl
    | cons b bs =>
      unfold processData at h
      simp only [bind_eq_bind,bind_eq_some_iff] at h
      obtain ⟨parsed,hparse,h⟩ := h
      generalize hrs : tl.processTpdu s parsed (io.receive (b :: bs).length) = first at h
      have hfirst : IsRun tl first := by
        apply IsRun.of_step (.receive s (b :: bs) (io.receive (b :: bs).length))
        rw [← hrs]
        simp only [tlStep,hparse]
      split at h
      · cases h
        exact hfirst
      · next hsuccess =>
        rw [bind_eq_some_iff] at h
        obtain ⟨rest,hrest,h⟩ := h
        cases h
        have hcalled := hfirst.append hsuccess (isRun_callAll first.1 (io.calls (b :: bs).length))
        exact hcalled.append (by simp) (ih hrest)

theorem isRun_serveConnections (s : Fin slots) (io : SlotIo conns) (tl : TransportLayer slots conns)
    (cs : List (Fin conns)) : IsRun tl (tl.serveConnections s io cs) := by
  induction cs generalizing tl with
  | nil => exact isRun_skip tl
  | cons c cs ih => exact .andThen (.of_step (.serve s c (io.serve c)) rfl) (ih _)

theorem isRun_readSlot (s : Fin slots) (io : SlotIo conns) (tl : TransportLayer slots conns) :
    ∃ r, tl.readSlot s io = some r ∧ IsRun tl r := by
  unfold readSlot
  split
  · exact ⟨_,rfl,isRun_skip tl⟩
  · exact ⟨_,rfl,.of_step (.readError (some s)) rfl⟩
  · exact ⟨_,rfl,.of_step (.readError (some s)) rfl⟩
  · next data _ =>
    split
    · exact ⟨_,rfl,isRun_skip tl⟩
    · split
      · exact ⟨_,rfl,.of_step .foreignSlot rfl⟩
      · next s' _ =>
        obtain ⟨r,hr⟩ := isSome_iff_exists.mp (processData_isSome s' io tl (Nat.le_refl data.length))
        exact ⟨r,hr,isRun_processData s' io hr⟩

theorem isRun_pollSlots (io : Fin slots → SlotIo conns) (tl : TransportLayer slots conns) (ss : List (Fin slots)) :
    ∃ r, pollSlots io tl ss = some r ∧ IsRun tl r := by
  induction ss generalizing tl with
  | nil => exact ⟨_,rfl,isRun_skip tl⟩
  | cons s ss ih =>
    unfold pollSlots
    split
    · exact ih tl
    · obtain ⟨read,hread,hrun⟩ := isRun_readSlot s (io s) tl
      have hslot : IsRun tl (andThen read fun tl => tl.serveConnections s (io s) (List.finRange conns)) :=
        hrun.andThen (isRun_serveConnections s (io s) read.1 (List.finRange conns))
      simp only [bind_eq_bind,hread,bind_some]
      split
      · exact ⟨_,rfl,hslot⟩
      · next hsuccess =>
        obtain ⟨rest,hrest,hrun'⟩ := ih (andThen read fun tl => tl.serveConnections s (io s) (List.finRange conns)).1
        rw [hrest]
        exact ⟨_,rfl,hslot.append hsuccess hrun'⟩

/-- Every poll returns, and it is a run of the steps of the transport layer. -/
theorem poll_isRun (tl : TransportLayer slots conns) (failed : Bool) (io : Fin slots → SlotIo conns) :
    ∃ r, tl.poll failed io = some r ∧ IsRun tl r := by
  unfold poll
  split
  · exact ⟨_,rfl,.of_step (.readError none) rfl⟩
  · exact isRun_pollSlots io tl (List.finRange slots)

end Runs

end LinuxDvb.En50221
