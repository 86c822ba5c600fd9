import LinuxDvb.DvbCore.CaEn50221.Messages

/-!
# Reading CAM messages

Fragments arrive in the slots while a reader waits for the read condition and then collects a message.
The run keeps what has arrived in each slot and what has been returned; between the two lies what the
rx buffers hold.
-/

namespace LinuxDvb.CaEn50221

open Ringbuffer

/-- The CA interface with the slot that a waiting reader was given, the fragments stored so far in each
slot, and the messages returned so far with slot and connection. -/
structure CaRun where
  ca : DvbCaPrivate
  granted : Option Nat
  arrived : Nat → List (List UInt8)
  returned : List (Nat × UInt8 × List UInt8)

inductive CaOp where
  /-- A CAM sends a link-layer buffer. -/
  | arrive (slot : Nat) (buf : List UInt8)
  /-- A reader evaluates the condition it waits for. -/
  | condition
  /-- The reader goes on with the slot it was given. -/
  | read (count : Nat)

def CaRun.arrive (s : CaRun) (slot : Nat) (buf : List UInt8) : CaRun :=
  match s.ca.slotInfo[slot]? with
  | none => s
  | some info =>
    let r := dvbCaEn50221ReadData info buf
    { s with
      ca := { s.ca with slotInfo := s.ca.slotInfo.set slot r.1 }
      arrived := if r.2 > 0 then Function.update s.arrived slot (s.arrived slot ++ [buf]) else s.arrived }

def CaRun.condition (s : CaRun) : CaRun :=
  let r := dvbCaEn50221IoReadCondition s.ca
  { s with ca := r.1, granted := r.2 }

def CaRun.read (s : CaRun) (count : Nat) : CaRun :=
  match s.granted with
  | none => s
  | some slot =>
    let r := dvbCaEn50221IoReadSlot s.ca slot count
    { s with
      ca := r.1
      granted := none
      returned := if r.2.1 ≥ 2 then s.returned ++ [(slot, r.2.2.getD 1 0, r.2.2.drop 2)] else s.returned }

def caStep (s : CaRun) : CaOp → CaRun × List Unit
  | .arrive slot buf => (s.arrive slot buf, [])
  | .condition => (s.condition, [])
  | .read count => (s.read count, [])

def CaRun.ring? (s : CaRun) (slot : Nat) : Option DvbRingbuffer :=
  s.ca.slotInfo[slot]?.bind DvbCaSlot.rxBuffer

/-- Running slots get fragments of at least two bytes that fit the link buffer; a reader goes on once
the condition is true, with a buffer in which the message fits. -/
def CaAdmits (s : CaRun) : CaOp → Prop
  | .arrive slot buf => ∃ info, s.ca.slotInfo[slot]? = some info ∧ info.slotState = .running ∧
      2 ≤ buf.length ∧ buf.length ≤ info.linkBufSize
  | .condition => s.granted = none
  | .read count => ∃ slot, s.granted = some slot ∧ ∀ rbuf ∈ s.ring? slot, ∀ c msg rest,
      takeMessage c [] (fragments rbuf) = some (msg, rest) → 2 + msg.length ≤ count

/-- No slot from `slot` on, of `k` slots, holds a last fragment of connection `c` or has a full and
wrapped rx buffer. -/
def CarryFree (ca : DvbCaPrivate) (c : UInt8) : Nat → Nat → Prop
  | 0, _ => True
  | k + 1, slot =>
    (∀ info ∈ ca.slotInfo[slot]?, info.slotState = .running → ∀ rbuf ∈ info.rxBuffer,
      ¬ HasLast c (fragments rbuf) ∧ ¬ FullWrapped rbuf) ∧
      CarryFree ca c k ((slot + 1) % ca.slotInfo.length)

/-- Among `k` slots from `slot` on, the first running one with fragments holds a complete message of
its first connection, or the connection id that the condition carries on meets nothing further on. -/
def ConditionOk (ca : DvbCaPrivate) : Nat → Nat → Prop
  | 0, _ => True
  | k + 1, slot =>
    match ca.slotInfo[slot]? with
    | none => ConditionOk ca k ((slot + 1) % ca.slotInfo.length)
    | some info =>
      match info.slotState, info.rxBuffer with
      | .running, some rbuf =>
        match fragments rbuf with
        | [] => ConditionOk ca k ((slot + 1) % ca.slotInfo.length)
        | f :: fs => HasLast (connectionOf f) (f :: fs) ∨
            ¬ FullWrapped rbuf ∧ CarryFree ca (connectionOf f) k ((slot + 1) % ca.slotInfo.length)
      | _, _ => ConditionOk ca k ((slot + 1) % ca.slotInfo.length)

def CaOk (s : CaRun) : CaOp → Prop
  | .condition => ConditionOk s.ca s.ca.slotInfo.length s.ca.nextReadSlot
  | _ => True

def CaRun.returnedFor (s : CaRun) (slot : Nat) (c : UInt8) : List (List UInt8) :=
  (s.returned.filter fun r => r.1 = slot ∧ r.2.1 = c).map fun r => r.2.2

/-- The complete messages that have arrived are those returned, followed by those still stored. -/
def Accounted (s : CaRun) : Prop :=
  ∀ slot, ∀ rbuf ∈ s.ring? slot, ∀ c,
    messages c (s.arrived slot) = s.returnedFor slot c ++ messages c (fragments rbuf)

/-- A reader with a slot returns the oldest complete message of a connection of that slot. -/
def ReadWhole (s : CaRun) : CaOp → Prop
  | .read count => ∀ slot ∈ s.granted, ∃ rbuf ∈ s.ring? slot, ∃ c msg,
      (messages c (fragments rbuf)).head? = some msg ∧
      (dvbCaEn50221IoReadSlot s.ca slot count).2 =
        (((2 + msg.length : Nat) : Int), UInt8.ofNat slot :: c :: msg)
  | _ => True

def RingAccounts (s : CaRun) (slot : Nat) (es : List (Nat × List UInt8)) : Prop :=
  ∀ c, runTrace (collect c) [] (s.arrived slot) =
    ((runTrace (collect c) [] (es.map Prod.snd)).1,
      s.returnedFor slot c ++ (runTrace (collect c) [] (es.map Prod.snd)).2)

structure CaRun.Inv (s : CaRun) : Prop where
  linkBuf : ∀ info ∈ s.ca.slotInfo, info.linkBufSize ≤ hostLinkBufSize ∧
    (info.slotState = .running → info.rxBuffer.isSome)
  rings : ∀ slot, ∀ rbuf ∈ s.ring? slot, ∃ es, Stored rbuf es ∧ RingAccounts s slot es
  granted : ∀ slot ∈ s.granted, ∃ rbuf ∈ s.ring? slot, Complete (fragments rbuf)

theorem CaRun.Inv.accounted {s : CaRun} (h : s.Inv) : Accounted s := by
  intro slot rbuf hrbuf c
  obtain ⟨es,hst,hacc⟩ := h.rings slot rbuf hrbuf
  rw [messages,hacc c,messages,hst.fragments_eq]

private theorem conditionLoop_ring {rbuf : DvbRingbuffer} {es : List (Nat × List UInt8)}
    (h : Stored rbuf es) (connectionId : Option UInt8)
    (hend : fragments rbuf ≠ [] → (scanFragments connectionId (fragments rbuf)).2 = true ∨ ¬ FullWrapped rbuf) :
    conditionLoop rbuf (rbuf.size + 1) (dvbRingbufferPktNext rbuf none) connectionId =
      scanFragments connectionId (fragments rbuf) := by
  rw [h.fragments_eq] at hend ⊢
  rw [h.next_first]
  have hlen := h.length_lt
  exact @conditionLoop_spec rbuf [] es h connectionId _ (by omega) fun hne =>
    hend (by simpa using hne)

private theorem conditionSlots_carry {ca : DvbCaPrivate} {c : UInt8}
    (hrings : ∀ info ∈ ca.slotInfo, ∀ rbuf ∈ info.rxBuffer, ∃ es, Stored rbuf es) (k slot : Nat)
    (h : CarryFree ca c k slot) : (conditionSlots ca k slot (some c)).2 = none := by
  induction k generalizing slot with
  | zero => rfl
  | succ k ih =>
    obtain ⟨hslot,hrest⟩ := h
    simp only [conditionSlots]
    cases hinfo : ca.slotInfo[slot]? with
    | none => exact ih _ hrest
    | some info =>
      simp only
      by_cases hrun : info.slotState = .running
      · rw [if_neg (by simpa using hrun)]
        cases hbuf : info.rxBuffer with
        | none => rfl
        | some rbuf =>
          obtain ⟨hno,hfull⟩ := hslot info hinfo hrun rbuf hbuf
          obtain ⟨es,hst⟩ := hrings info (mem_of_getElem? hinfo) rbuf hbuf
          simp only
          rw [conditionLoop_ring hst (some c) fun _ => .inr hfull]
          have hfound : (scanFragments (some c) (fragments rbuf)).2 = false := by
            rw [Bool.eq_false_iff,ne_eq,scanFragments_found_iff]
            exact hno
          rw [if_neg (by simp [hfound]),scanFragments_some_fst]
          exact ih _ hrest
      · rw [if_pos (by simpa using hrun)]
        exact ih _ hrest

private theorem conditionSlots_complete {ca : DvbCaPrivate}
    (hrings : ∀ info ∈ ca.slotInfo, ∀ rbuf ∈ info.rxBuffer, ∃ es, Stored rbuf es) (k slot g : Nat)
    (h : ConditionOk ca k slot) (hg : (conditionSlots ca k slot none).2 = some g) :
    ∃ rbuf ∈ ca.slotInfo[g]?.bind DvbCaSlot.rxBuffer, Complete (fragments rbuf) := by
  induction k generalizing slot with
  | zero => simp [conditionSlots] at hg
  | succ k ih =>
    simp only [conditionSlots] at hg
    simp only [ConditionOk] at h
    cases hinfo : ca.slotInfo[slot]? with
    | none =>
      rw [hinfo] at hg h
      exact ih _ h hg
    | some info =>
      rw [hinfo] at hg h
      simp only at hg h
      by_cases hrun : info.slotState = .running
      · rw [if_neg (by simpa using hrun)] at hg
        rw [hrun] at h
        cases hbuf : info.rxBuffer with
        | none =>
          rw [hbuf] at hg
          cases hg
        | some rbuf =>
          rw [hbuf] at hg h
          simp only at hg h
          obtain ⟨es,hst⟩ := hrings info (mem_of_getElem? hinfo) rbuf hbuf
          cases hfrag : fragments rbuf with
          | nil =>
            rw [hfrag] at h
            rw [conditionLoop_ring hst none fun hne => absurd hfrag hne,hfrag] at hg
            exact ih _ h hg
          | cons f fs =>
            rw [hfrag] at h
            simp only at h
            by_cases hlast : HasLast (connectionOf f) (f :: fs)
            · have hfound : (scanFragments none (fragments rbuf)).2 = true := by
                rw [hfrag,scanFragments_none]
                exact (scanFragments_found_iff _ _).mpr hlast
              rw [conditionLoop_ring hst none fun _ => .inl hfound,if_pos hfound] at hg
              cases hg
              exact ⟨rbuf,by rw [hinfo]; exact hbuf,f,by rw [hfrag]; rfl,by rw [hfrag]; exact hlast⟩
            · obtain ⟨hfull,hcarry⟩ := h.resolve_left hlast
              have hfound : (scanFragments none (fragments rbuf)).2 = false := by
                rw [Bool.eq_false_iff,ne_eq,hfrag,scanFragments_none]
                exact fun hs => hlast ((scanFragments_found_iff _ _).mp hs)
              rw [conditionLoop_ring hst none fun _ => .inr hfull,if_neg (by simp [hfound]),hfrag,
                scanFragments_none] at hg
              simp only [scanFragments_some_fst] at hg
              rw [conditionSlots_carry hrings k _ hcarry] at hg
              cases hg
      · rw [if_pos (by simpa using hrun)] at hg
        have h' : ConditionOk ca k ((slot + 1) % ca.slotInfo.length) := by
          revert h
          cases hstate : info.slotState <;> first | exact absurd hstate hrun | exact fun h => h
        exact ih _ h' hg

private theorem ring_set_self {s s' : CaRun} {slot : Nat} {info info' : DvbCaSlot}
    (hinfo : s.ca.slotInfo[slot]? = some info) (hset : s'.ca.slotInfo = s.ca.slotInfo.set slot info') :
    s'.ring? slot = info'.rxBuffer := by
  obtain ⟨hlt,-⟩ := List.getElem?_eq_some_iff.mp hinfo
  rw [CaRun.ring?,hset,List.getElem?_set_self hlt]
  rfl

private theorem ring_set_ne {s s' : CaRun} {slot i : Nat} {info' : DvbCaSlot} (hi : i ≠ slot)
    (hset : s'.ca.slotInfo = s.ca.slotInfo.set slot info') : s'.ring? i = s.ring? i := by
  rw [CaRun.ring?,hset,List.getElem?_set_ne hi.symm]
  rfl

private theorem inv_of_set {s s' : CaRun} (h : s.Inv) {slot : Nat} {info info' : DvbCaSlot}
    (hinfo : s.ca.slotInfo[slot]? = some info) (hset : s'.ca.slotInfo = s.ca.slotInfo.set slot info')
    (hlink : info'.linkBufSize = info.linkBufSize) (hstate : info'.slotState = info.slotState)
    (hring : ∃ rbuf es, info'.rxBuffer = some rbuf ∧ Stored rbuf es ∧ RingAccounts s' slot es)
    (hother : ∀ i, i ≠ slot → s'.arrived i = s.arrived i ∧ ∀ c, s'.returnedFor i c = s.returnedFor i c)
    (hgranted : ∀ g ∈ s'.granted, ∃ rbuf ∈ s'.ring? g, Complete (fragments rbuf)) : s'.Inv := by
  obtain ⟨rbuf,es,hbuf,hst,hacc⟩ := hring
  refine ⟨?_,?_,hgranted⟩
  · intro i hi
    rw [hset] at hi
    rcases List.mem_or_eq_of_mem_set hi with hi | rfl
    · exact h.linkBuf i hi
    · rw [hlink,hbuf]
      exact ⟨(h.linkBuf info (mem_of_getElem? hinfo)).1,fun _ => rfl⟩
  · intro i rbuf' hr
    by_cases hi : i = slot
    · subst hi
      rw [ring_set_self hinfo hset,hbuf] at hr
      cases hr
      exact ⟨es,hst,hacc⟩
    · rw [ring_set_ne hi hset] at hr
      obtain ⟨es',hst',hacc'⟩ := h.rings i rbuf' hr
      obtain ⟨harr,hret⟩ := hother i hi
      refine ⟨es',hst',fun c => ?_⟩
      rw [harr,hret]
      exact hacc' c

private theorem complete_append {frags : List (List UInt8)} (h : Complete frags) (new : List (List UInt8)) :
    Complete (frags ++ new) := by
  obtain ⟨g,hg,e,he,hc⟩ := h
  refine ⟨g,?_,e,by simp [he],hc⟩
  cases frags with
  | nil => cases hg
  | cons f' fs => exact hg

private theorem readData_spec {info : DvbCaSlot} {rbuf : DvbRingbuffer} (hbuf : info.rxBuffer = some rbuf)
    {es : List (Nat × List UInt8)} (hst : Stored rbuf es) {buf : List UInt8} (h2 : 2 ≤ buf.length)
    (hle : buf.length ≤ info.linkBufSize) (hlink : info.linkBufSize ≤ hostLinkBufSize) :
    ∃ rbuf' es' new, (dvbCaEn50221ReadData info buf).1 = { info with rxBuffer := some rbuf' } ∧
      Stored rbuf' es' ∧ es'.map Prod.snd = es.map Prod.snd ++ new ∧
      ∀ old : List (List UInt8),
        (if (dvbCaEn50221ReadData info buf).2 > 0 then old ++ [buf] else old) = old ++ new := by
  simp only [dvbCaEn50221ReadData,hbuf]
  by_cases hfull : dvbRingbufferFree rbuf < ((info.linkBufSize + dvbRingbufferPkthdrsize : Nat) : Int)
  · refine ⟨rbuf,es,[],?_,hst,by simp,?_⟩
    · rw [if_pos hfull,← hbuf]
    · intro old
      rw [if_pos hfull,if_neg (by simp [errAgain]),append_nil]
  · rw [hostLinkBufSize] at hlink
    obtain ⟨idx,hw⟩ := hst.write h2 (by omega) (by omega)
    have hbig : ¬ buf.length > info.linkBufSize := by omega
    have hsmall : ¬ buf.length < 2 := by omega
    refine ⟨_,_,[buf],?_,hw,by simp,?_⟩
    · rw [if_neg hfull,if_neg hbig,if_neg hsmall]
    · intro old
      rw [if_neg hfull,if_neg hbig,if_neg hsmall,if_pos (by simp only [gt_iff_lt]; omega)]

private theorem arrive_step {s : CaRun} (h : s.Inv) {slot : Nat} {buf : List UInt8}
    (hadm : CaAdmits s (.arrive slot buf)) : (s.arrive slot buf).Inv := by
  obtain ⟨info,hinfo,hrun,h2,hle⟩ := hadm
  obtain ⟨hlink,hsome⟩ := h.linkBuf info (mem_of_getElem? hinfo)
  obtain ⟨rbuf,hbuf⟩ := isSome_iff_exists.mp (hsome hrun)
  have hring : s.ring? slot = some rbuf := by
    rw [CaRun.ring?,hinfo]
    exact hbuf
  obtain ⟨es,hst,hacc⟩ := h.rings slot rbuf hring
  obtain ⟨rbuf',es',new,hinfo',hst',hes',harr⟩ := readData_spec hbuf hst h2 hle hlink
  have hset : (s.arrive slot buf).ca.slotInfo =
      s.ca.slotInfo.set slot { info with rxBuffer := some rbuf' } := by
    simp only [CaRun.arrive,hinfo,hinfo']
  have hslot : (s.arrive slot buf).arrived slot = s.arrived slot ++ new := by
    rw [← harr (s.arrived slot)]
    simp only [CaRun.arrive,hinfo]
    split <;> simp
  have hret : (s.arrive slot buf).returned = s.returned := by
    simp only [CaRun.arrive,hinfo]
  have hgr : (s.arrive slot buf).granted = s.granted := by
    simp only [CaRun.arrive,hinfo]
  apply inv_of_set h hinfo hset rfl rfl
  · refine ⟨rbuf',es',rfl,hst',fun c => ?_⟩
    rw [hslot,hes',runTrace_append,runTrace_append,hacc c,CaRun.returnedFor,CaRun.returnedFor,hret]
    simp only [append_assoc]
  · intro i hi
    refine ⟨?_,fun c => by rw [CaRun.returnedFor,CaRun.returnedFor,hret]⟩
    simp only [CaRun.arrive,hinfo]
    split
    · rw [Function.update_of_ne hi]
    · rfl
  · intro g hg
    rw [hgr] at hg
    obtain ⟨rbufg,hrg,hcomp⟩ := h.granted g hg
    by_cases hgs : g = slot
    · subst hgs
      rw [hring] at hrg
      cases hrg
      refine ⟨rbuf',by rw [ring_set_self hinfo hset]; rfl,?_⟩
      rw [hst'.fragments_eq,hes',← hst.fragments_eq]
      exact complete_append hcomp new
    · exact ⟨rbufg,by rw [ring_set_ne hgs hset]; exact hrg,hcomp⟩

private theorem condition_step {s : CaRun} (h : s.Inv) (hok : CaOk s .condition) : s.condition.Inv := by
  have hrings : ∀ info ∈ s.ca.slotInfo, ∀ rbuf ∈ info.rxBuffer, ∃ es, Stored rbuf es := by
    intro info hinfo rbuf hbuf
    obtain ⟨i,hi⟩ := List.mem_iff_getElem?.mp hinfo
    obtain ⟨es,hst,-⟩ := h.rings i rbuf (by rw [CaRun.ring?,hi]; exact hbuf)
    exact ⟨es,hst⟩
  refine ⟨h.linkBuf,h.rings,?_⟩
  intro g hg
  exact conditionSlots_complete hrings _ _ g hok hg

private theorem read_step {s : CaRun} (h : s.Inv) {count : Nat} (hadm : CaAdmits s (.read count)) :
    (s.read count).Inv ∧ ReadWhole s (.read count) := by
  obtain ⟨slot,hslot,hcount⟩ := hadm
  obtain ⟨rbuf,hring,f,hf,hlast⟩ := h.granted slot hslot
  obtain ⟨es,hst,hacc⟩ := h.rings slot rbuf hring
  obtain ⟨info,hinfo,hbuf⟩ := bind_eq_some_iff.mp (mem_def.mp hring)
  obtain ⟨⟨msg,rest⟩,htake⟩ := takeMessage_of_hasLast hlast []
  have hfit := hcount rbuf hring _ _ _ htake
  have hlen := hst.length_lt
  have hfrag := hst.fragments_eq
  rw [hfrag] at htake hf
  have hconn : ∀ e ∈ es.head?, (none : Option UInt8).getD (connectionOf e.2) = connectionOf f := by
    intro e he
    rw [List.head?_map,mem_def.mp he] at hf
    rw [← Option.some.inj (mem_def.mp hf)]
    rfl
  obtain ⟨es',hes',hst',hres⟩ := @readLoop_spec rbuf [] es (connectionOf f) [] msg rest count hst none
    (rbuf.size + 1) (by omega) hconn htake hfit
  rw [← hst.next_first,length_nil,nil_append] at hst'
  rw [← hst.next_first,length_nil] at hres
  generalize hr : readLoop count (rbuf.size + 1) rbuf (dvbRingbufferPktNext rbuf none) none 2 [] = r
    at hst' hres
  have hio : dvbCaEn50221IoReadSlot s.ca slot count =
      ({ s.ca with slotInfo := s.ca.slotInfo.set slot { info with rxBuffer := some r.1 } },
        ((2 + msg.length : Nat) : Int), UInt8.ofNat slot :: connectionOf f :: msg) := by
    simp only [dvbCaEn50221IoReadSlot,hinfo,hbuf,hr,hres]
  have hreturned : (s.read count).returned = s.returned ++ [(slot, connectionOf f, msg)] := by
    simp only [CaRun.read,hslot,hio]
    rw [if_pos (by simp only [ge_iff_le]; omega)]
    rfl
  have hset : (s.read count).ca.slotInfo =
      s.ca.slotInfo.set slot { info with rxBuffer := some r.1 } := by
    simp only [CaRun.read,hslot,hio]
  have harr : (s.read count).arrived = s.arrived := by
    simp only [CaRun.read,hslot]
  have hret : ∀ i c, (s.read count).returnedFor i c =
      s.returnedFor i c ++ if i = slot ∧ c = connectionOf f then [msg] else [] := by
    intro i c
    rw [CaRun.returnedFor,CaRun.returnedFor,hreturned,filter_append,map_append]
    congr 1
    by_cases hic : i = slot ∧ c = connectionOf f
    · simp [hic.1,hic.2]
    · rw [if_neg hic]
      have hne : ¬ (slot = i ∧ connectionOf f = c) := fun heq => hic ⟨heq.1.symm,heq.2.symm⟩
      simp [hne]
  refine ⟨inv_of_set h hinfo hset rfl rfl ⟨r.1,es',rfl,hst',fun c => ?_⟩ ?_ ?_,?_⟩
  · rw [harr,hret,hacc c,hes']
    by_cases hc : c = connectionOf f
    · rw [if_pos ⟨rfl,hc⟩,hc,collect_takeMessage htake,append_assoc,singleton_append]
    · rw [if_neg (fun h => hc h.2),append_nil,collect_takeMessage_of_ne hc htake]
  · intro i hi
    refine ⟨by rw [harr],fun c => ?_⟩
    rw [hret,if_neg (fun h => hi h.1),append_nil]
  · intro g hg
    simp only [CaRun.read,hslot] at hg
    cases hg
  · intro g hg
    rw [hslot] at hg
    cases hg
    refine ⟨rbuf,hring,connectionOf f,msg,?_,by rw [hio]⟩
    rw [messages,hfrag,collect_takeMessage htake]
    rfl

private theorem ca_step (s : CaRun) (op : CaOp) (h : s.Inv) (hop : CaAdmits s op ∧ CaOk s op) :
    (caStep s op).1.Inv ∧ Accounted s ∧ ReadWhole s op := by
  cases op with
  | arrive slot buf => exact ⟨arrive_step h hop.1,h.accounted,trivial⟩
  | condition => exact ⟨condition_step h hop.2,h.accounted,trivial⟩
  | read count =>
    obtain ⟨hinv,hread⟩ := read_step h hop.1
    exact ⟨hinv,h.accounted,hread⟩

structure FreshSlots (ca : DvbCaPrivate) : Prop where
  linkBuf : ∀ info ∈ ca.slotInfo, info.linkBufSize ≤ hostLinkBufSize
  running : ∀ info ∈ ca.slotInfo, info.slotState = .running → info.rxBuffer.isSome
  empty : ∀ info ∈ ca.slotInfo, ∀ rbuf ∈ info.rxBuffer, ∃ data, rbuf = dvbRingbufferInit data rxBufferSize

def initialRun (ca : DvbCaPrivate) : CaRun := ⟨ca, none, fun _ => [], []⟩

/-- In every run in which the read condition does not carry a connection id over to another slot that
holds a last fragment of it, nor leaves a full and wrapped rx buffer behind, readers only get whole
messages, and every message that is complete has been returned or is still stored. -/
theorem ioRead_messages_whole (ca : DvbCaPrivate) (hfresh : FreshSlots ca) (ops : List CaOp)
    (hops : StepsMeet caStep (fun s op => CaAdmits s op ∧ CaOk s op) (initialRun ca) ops) :
    StepsMeet caStep (fun s op => Accounted s ∧ ReadWhole s op) (initialRun ca) ops ∧
      Accounted (runTrace caStep (initialRun ca) ops).1 := by
  have hinit : (initialRun ca).Inv := by
    refine ⟨fun info hi => ⟨hfresh.linkBuf info hi, hfresh.running info hi⟩, ?_, ?_⟩
    · intro slot rbuf hr
      obtain ⟨info, hinfo, hbuf⟩ := Option.bind_eq_some_iff.mp (Option.mem_def.mp hr)
      obtain ⟨data, rfl⟩ := hfresh.empty info (List.mem_of_getElem? hinfo) rbuf hbuf
      exact ⟨[], ⟨rfl, [], ⟨init_valid data (by decide), init_contents data _⟩, rfl, by simp⟩, fun c => rfl⟩
    · intro slot hslot
      cases hslot
  constructor
  · exact stepsMeet_of_invariant CaRun.Inv ca_step hinit hops
  · exact (runTrace_invariant CaRun.Inv (fun s op h hop => (ca_step s op h hop).1) hinit hops).accounted

private theorem conditionOk_of_hasLast {ca : DvbCaPrivate} {k slot : Nat} {info : DvbCaSlot}
    {rbuf : DvbRingbuffer} {f : List UInt8} {fs : List (List UInt8)}
    (hinfo : ca.slotInfo[slot]? = some info) (hrun : info.slotState = .running)
    (hbuf : info.rxBuffer = some rbuf) (hfrag : fragments rbuf = f :: fs)
    (hlast : HasLast (connectionOf f) (f :: fs)) : ConditionOk ca (k + 1) slot := by
  simp only [ConditionOk,hinfo,hrun,hbuf,hfrag]
  exact .inl hlast

private theorem admits_read {s : CaRun} {slot count : Nat} {rbuf : DvbRingbuffer}
    (hslot : s.granted = some slot) (hring : s.ring? slot = some rbuf)
    (hcount : 2 + (fragments rbuf).flatten.length ≤ count) : CaAdmits s (.read count) := by
  refine ⟨slot,hslot,?_⟩
  intro rbuf' hr c msg rest htake
  rw [hring] at hr
  cases hr
  have := takeMessage_length_le htake
  rw [length_nil] at this
  omega

def runningSlot : DvbCaSlot := ⟨.running, some (dvbRingbufferInit (fun _ => 0) rxBufferSize), 16⟩

private theorem freshSlots_running (n : Nat) : FreshSlots ⟨List.replicate n runningSlot, 0⟩ := by
  have hall : ∀ info ∈ List.replicate n runningSlot, info = runningSlot := fun _ h => eq_of_mem_replicate h
  refine ⟨?_,?_,?_⟩
  · intro info hi
    rw [hall info hi]
    decide
  · intro info hi _
    rw [hall info hi]
    rfl
  · intro info hi rbuf hr
    rw [hall info hi] at hr
    exact ⟨_,(Option.some.inj (mem_def.mp hr)).symm⟩

/-- One slot, one message of one fragment. -/
theorem ioRead_messages_whole_single : StepsMeet caStep (fun s op => CaAdmits s op ∧ CaOk s op)
        (initialRun ⟨List.replicate 1 runningSlot, 0⟩) [.arrive 0 [1, 0, 7], .condition, .read 10] ∧
      StepsMeet caStep (fun s op => Accounted s ∧ ReadWhole s op)
        (initialRun ⟨List.replicate 1 runningSlot, 0⟩) [.arrive 0 [1, 0, 7], .condition, .read 10] := by
  have hops : StepsMeet caStep (fun s op => CaAdmits s op ∧ CaOk s op)
      (initialRun ⟨List.replicate 1 runningSlot, 0⟩) [.arrive 0 [1, 0, 7], .condition, .read 10] := by
    let stored := (dvbRingbufferPktWrite (dvbRingbufferInit (fun _ => 0) rxBufferSize) [1, 0, 7]).1
    refine ⟨⟨⟨runningSlot, rfl, rfl, by decide, by decide⟩, trivial⟩, ⟨rfl, ?_⟩, ⟨?_, trivial⟩, trivial⟩
    · change ConditionOk
        (caStep (initialRun ⟨List.replicate 1 runningSlot, 0⟩) (.arrive 0 [1, 0, 7])).1.ca 1 0
      exact @conditionOk_of_hasLast _ 0 0 { runningSlot with rxBuffer := some stored } stored [1, 0, 7] []
        rfl rfl rfl (by decide +kernel) ⟨[1, 0, 7], by decide, by decide, by decide⟩
    · exact @admits_read _ 0 10 stored (by decide +kernel) rfl (by decide +kernel)
  exact ⟨hops, (ioRead_messages_whole _ (freshSlots_running 1) _ hops).1⟩

/-- Slot 0 has an unfinished message of connection 1. Slot 1 has one of connection 2 and, behind it, a
last fragment of connection 1, for which it is taken; its reader then finds no last fragment. -/
theorem ioRead_messages_not_whole :
    ¬ ∀ ca : DvbCaPrivate, FreshSlots ca → ∀ ops : List CaOp, StepsMeet caStep CaAdmits (initialRun ca) ops →
      StepsMeet caStep (fun s op => Accounted s ∧ ReadWhole s op) (initialRun ca) ops := by
  intro h
  let stored := (dvbRingbufferPktWrite (dvbRingbufferPktWrite
    (dvbRingbufferInit (fun _ => 0) rxBufferSize) [2, 0x80, 5]).1 [1, 0, 6]).1
  have hops : StepsMeet caStep CaAdmits (initialRun ⟨List.replicate 2 runningSlot, 0⟩)
      [.arrive 0 [1, 0x80, 9], .arrive 1 [2, 0x80, 5], .arrive 1 [1, 0, 6], .condition, .read 100] := by
    refine ⟨⟨runningSlot, rfl, rfl, by decide, by decide⟩, ⟨runningSlot, rfl, rfl, by decide, by decide⟩,
      ⟨_, rfl, rfl, by decide, by decide +kernel⟩, rfl, ?_, trivial⟩
    exact @admits_read _ 1 100 stored (by decide +kernel) rfl (by decide +kernel)
  obtain ⟨-, -, -, -, ⟨-, hread⟩, -⟩ := h _ (freshSlots_running 2) _ hops
  obtain ⟨rbuf, -, c, msg, -, heq⟩ := hread 1 (by decide +kernel)
  have hret := congrArg Prod.fst heq
  exact absurd ((Int.natCast_nonneg _).trans_eq hret.symm) (by decide +kernel)

end LinuxDvb.CaEn50221
