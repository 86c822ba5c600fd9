import LinuxDvb.DvbCore.Ringbuffer.Packet

/-!
# CAM message interface

The receive side of `dvb_ca_en50221.c`: link-layer buffers of a CAM are stored as fragments in the rx buffer of its
slot, and `dvb_ca_en50221_io_read` collects the fragments of one message.
-/

namespace LinuxDvb.CaEn50221

open Ringbuffer

/-! ## Receive rings

The rx buffer of a CAM slot is a packet ring of 65535 bytes whose packets are link-layer fragments of
at least two bytes. 65535 leaves the remainder 1 from the number of `size_t` values, which a walk over
such fragments survives, except at the end of a ring that is completely full and wrapped. -/

def rxBufferSize : Nat := 65535

def FullWrapped (rbuf : DvbRingbuffer) : Prop := dvbRingbufferFree rbuf = 0 ∧ rbuf.pread ≠ 0

def Stored (rbuf : DvbRingbuffer) (es : List (Nat × List UInt8)) : Prop :=
  rbuf.size = rxBufferSize ∧ ∃ ps, HoldsPackets rbuf ps ∧ es = entries rbuf [] ps ∧
    ∀ p ∈ ps, 2 ≤ p.bytes.length

def fragmentsIn : Nat → List UInt8 → List (List UInt8)
  | fuel + 1, hi :: lo :: status :: rest =>
    let pktlen := hi.toNat <<< 8 ||| lo.toNat
    if status = pktReady then rest.take pktlen :: fragmentsIn fuel (rest.drop pktlen)
    else fragmentsIn fuel (rest.drop pktlen)
  | _, _ => []

def fragments (rbuf : DvbRingbuffer) : List (List UInt8) := fragmentsIn rbuf.fill rbuf.contents

private theorem fragmentsIn_wires (ps : List Packet) (fuel : Nat) (h : ps.length ≤ fuel) :
    fragmentsIn fuel (wires ps) = (ps.filter fun p => !p.disposed).map Packet.bytes := by
  induction ps generalizing fuel with
  | nil => cases fuel <;> rfl
  | cons p ps ih =>
    obtain ⟨fuel,rfl⟩ : ∃ k, fuel = k + 1 := ⟨fuel - 1,by simp only [length_cons] at h; omega⟩
    have hrest := ih fuel (by simpa using h)
    cases hd : p.disposed with
    | true =>
      simp only [wires_cons,Packet.wire,cons_append,fragmentsIn,pktLength_bytes p.length_le,hd,
        if_true,drop_left,show pktDisposed ≠ pktReady by decide,if_false,hrest]
      simp [hd]
    | false =>
      simp only [wires_cons,Packet.wire,cons_append,fragmentsIn,pktLength_bytes p.length_le,hd,
        Bool.false_eq_true,if_false,if_true,drop_left,take_left,hrest]
      simp [hd]

variable {rbuf : DvbRingbuffer} {es as bs : List (Nat × List UInt8)} {e : Nat × List UInt8}

namespace Stored

theorem fragments_eq (h : Stored rbuf es) : fragments rbuf = es.map Prod.snd := by
  obtain ⟨-,ps,hps,rfl,-⟩ := h
  rw [entries_map_snd,fragments,hps.contents_eq,fragmentsIn_wires]
  rw [hps.fill_eq]
  exact length_le_length_wires ps

theorem two_le_length (h : Stored rbuf es) (he : e ∈ es) : 2 ≤ e.2.length := by
  obtain ⟨-,ps,-,rfl,hlen⟩ := h
  have hmem : e.2 ∈ (entries rbuf [] ps).map Prod.snd := mem_map_of_mem he
  rw [entries_map_snd] at hmem
  obtain ⟨p,hp,heq⟩ := mem_map.mp hmem
  rw [← heq]
  exact hlen p (List.mem_of_mem_filter hp)

theorem length_lt (h : Stored rbuf es) : es.length < rbuf.size := by
  obtain ⟨-,ps,hps,rfl,-⟩ := h
  have hle : (entries rbuf [] ps).length ≤ ps.length := by
    have hmap := congrArg List.length (@entries_map_snd rbuf [] ps)
    rw [length_map,length_map] at hmap
    rw [hmap]
    exact List.length_filter_le _ _
  have hwires := length_le_length_wires ps
  have hlt := hps.valid.fill_lt
  rw [hps.fill_eq] at hlt
  omega

private theorem size_le {rbuf : DvbRingbuffer} (h : rbuf.size = rxBufferSize) : rbuf.size ≤ sizeModulus := by
  rw [h,rxBufferSize,sizeModulus]
  decide

theorem next_first (h : Stored rbuf es) : dvbRingbufferPktNext rbuf none = es.head?.map fun e => (e.1, e.2.length) := by
  obtain ⟨hsize,ps,hps,rfl,-⟩ := h
  rw [hps.pktNext_first (size_le hsize),nextReady_eq]

private theorem walkOk_of_le_one {d : Int} {ps : List Packet} (hd : d ≤ 1)
    (hlen : ∀ p ∈ ps, 2 ≤ p.bytes.length) (h : (∃ p ∈ ps, p.disposed = false) ∨ -3 ≤ d) :
    WalkOk d ps := by
  induction ps with
  | nil =>
    simp only [not_mem_nil,false_and,exists_false,false_or] at h
    exact h
  | cons p ps ih =>
    simp only [WalkOk]
    cases hp : p.disposed with
    | true =>
      rw [if_pos rfl]
      apply ih fun q hq => hlen q (by simp [hq])
      rcases h with ⟨q,hq,hready⟩ | h
      · rcases mem_cons.mp hq with rfl | hq
        · rw [hp] at hready
          cases hready
        · exact .inl ⟨q,hq,hready⟩
      · exact .inr h
    | false =>
      have := hlen p (by simp)
      rw [if_neg (by decide),wires_cons,length_append,length_wire]
      omega

private theorem drift_bounds {rbuf : DvbRingbuffer} (hsize : rbuf.size = rxBufferSize) (offset : Nat) :
    drift rbuf offset ≤ 1 ∧
      (-3 ≤ drift rbuf offset ∨ 65534 ≤ offset ∧ rxBufferSize ≤ rbuf.pread + offset) := by
  have hr : sizeModulus % rbuf.size = 1 := by
    rw [hsize]
    decide
  have hsize' : rbuf.size = 65535 := hsize
  unfold drift
  by_cases hwrap : rbuf.pread + offset < rbuf.size
  · rw [if_pos hwrap]
    exact ⟨by decide,.inl (by decide)⟩
  · rw [if_neg hwrap,hr]
    by_cases hfull : offset + 1 < rbuf.size
    · rw [if_pos hfull]
      exact ⟨by decide,.inl (by decide)⟩
    · rw [if_neg hfull,rxBufferSize]
      exact ⟨by omega,.inr ⟨by omega,by omega⟩⟩

theorem next_after (h : Stored rbuf (as ++ e :: bs)) (hend : bs ≠ [] ∨ ¬ FullWrapped rbuf) :
    dvbRingbufferPktNext rbuf (some e.1) = bs.head?.map fun e => (e.1, e.2.length) := by
  obtain ⟨hsize,ps,hps,heq,hlen⟩ := h
  obtain ⟨pre,p,post,rfl,hready,rfl,-,rfl⟩ := exists_packet_of_entries [] heq.symm
  simp only [nil_append] at *
  have hwalk : WalkOk (drift rbuf (wires (pre ++ [p])).length) post := by
    obtain ⟨hle,hlow⟩ := drift_bounds hsize (wires (pre ++ [p])).length
    apply walkOk_of_le_one hle fun q hq => hlen q (by simp [hq])
    rcases hend with hend | hend
    · left
      by_contra hnone
      apply hend
      apply entries_of_disposed
      intro q hq
      by_contra hq'
      exact hnone ⟨q,hq,by simpa using hq'⟩
    · rcases hlow with hlow | ⟨hfull,hwrap⟩
      · exact .inr hlow
      · exfalso
        have hfill := hps.fill_split
        have hlt := hps.valid.fill_lt
        have hfree := hps.valid.free_eq
        rw [hsize,rxBufferSize] at hlt hfree
        simp only [rxBufferSize] at hwrap
        simp only [wires_append,wires_cons,wires_nil,append_nil,length_append,length_wire]
          at hfull hwrap
        exact hend ⟨by omega,by omega⟩
  rw [hps.pktNext_after (size_le hsize) hwalk,nextReady_eq]

theorem read_eq (h : Stored rbuf (as ++ e :: bs)) {offset : Nat} (hoff : offset ≤ e.2.length) (len : Nat)
    (usermem : Bool) :
    dvbRingbufferPktRead rbuf e.1 offset len usermem (fun _ => false) =
      ((((e.2.drop offset).take len).length : Int), (e.2.drop offset).take len) := by
  obtain ⟨-,ps,hps,heq,-⟩ := h
  obtain ⟨pre,p,post,rfl,-,rfl,-,-⟩ := exists_packet_of_entries [] heq.symm
  exact hps.pktRead_spec hoff len usermem

theorem dispose (h : Stored rbuf (as ++ e :: bs)) : Stored (dvbRingbufferPktDispose rbuf e.1) (as ++ bs) := by
  obtain ⟨hsize,ps,hps,heq,hlen⟩ := h
  obtain ⟨pre,p,post,rfl,hready,rfl,rfl,rfl⟩ := exists_packet_of_entries [] heq.symm
  simp only [nil_append] at *
  obtain ⟨hholds,hs,hp⟩ := hps.pktDispose_spec
  refine ⟨hs.trans hsize,_,hholds,?_,?_⟩
  · have hmark : indexAfter rbuf (pre ++ [{ p with disposed := true }]) = indexAfter rbuf (pre ++ [p]) := by
      simp [indexAfter]
    rw [entries_dropWhile hs hp,entries_append]
    simp only [nil_append,entries,if_true]
    rw [entries_congr rfl hmark]
  · intro q hq
    have hmem := (List.dropWhile_sublist Packet.disposed).subset hq
    rcases mem_append.mp hmem with hq | hq
    · exact hlen q (by simp [hq])
    · rcases mem_cons.mp hq with rfl | hq
      · exact hlen p (by simp)
      · exact hlen q (by simp [hq])

theorem write (h : Stored rbuf es) {buf : List UInt8} (h2 : 2 ≤ buf.length) (hmax : buf.length ≤ 65535)
    (hfit : ((buf.length + dvbRingbufferPkthdrsize : Nat) : Int) ≤ dvbRingbufferFree rbuf) :
    ∃ idx, Stored (dvbRingbufferPktWrite rbuf buf).1 (es ++ [(idx, buf)]) := by
  obtain ⟨hsize,ps,hps,rfl,hlen⟩ := h
  have hne : buf ≠ [] := by
    rintro rfl
    simp at h2
  obtain ⟨hholds,hs,hp,-⟩ := @HoldsPackets.pktWrite_spec rbuf ps ⟨buf,false,hne,hmax⟩ hps rfl hfit
  refine ⟨indexAfter rbuf ps,hs.trans hsize,_,hholds,?_,?_⟩
  · have hsame : ∀ qs, indexAfter (dvbRingbufferPktWrite rbuf buf).1 qs = indexAfter rbuf qs := by
      intro qs
      rw [indexAfter,indexAfter,hs,hp]
    rw [entries_congr hs (hsame [])]
    simp [entries_append,entries]
  · intro q hq
    rcases mem_append.mp hq with hq | hq
    · exact hlen q hq
    · rw [mem_singleton.mp hq]
      exact h2

end Stored

/-! ## CAM message interface -/

inductive SlotState where
  | none | uninitialised | running | invalid | waitready | validate | waitfr | linkinit
  deriving DecidableEq, Repr

/-- `struct dvb_ca_slot`; there is no `rxBuffer` while its `data` is NULL. -/
structure DvbCaSlot where
  slotState : SlotState
  rxBuffer : Option DvbRingbuffer
  linkBufSize : Nat

structure DvbCaPrivate where
  slotInfo : List DvbCaSlot
  nextReadSlot : Nat

def hostLinkBufSize : Nat := 0x200

/-- `dvb_ca_en50221_read_data` without `ebuf`, when the CAM has the data `buf`. -/
def dvbCaEn50221ReadData (slot : DvbCaSlot) (buf : List UInt8) : DvbCaSlot × Int :=
  match slot.rxBuffer with
  | none => (slot, errIo)
  | some rbuf =>
    -- check if we have space for a link buf in the rx_buffer
    if dvbRingbufferFree rbuf < ((slot.linkBufSize + dvbRingbufferPkthdrsize : Nat) : Int) then
      (slot, errAgain)
    else if buf.length > slot.linkBufSize then ({ slot with slotState := .linkinit }, errIo)
    else if buf.length < 2 then ({ slot with slotState := .linkinit }, errIo)
    else ({ slot with rxBuffer := some (dvbRingbufferPktWrite rbuf buf).1 }, buf.length)

/-- The two header bytes of the fragment at `idx`. -/
def fragmentHeader (rbuf : DvbRingbuffer) (idx : Nat) : UInt8 × UInt8 :=
  let hdr := (dvbRingbufferPktRead rbuf idx 0 2 false fun _ => false).2
  (hdr.getD 0 0, hdr.getD 1 0)

/-- The loop of `dvb_ca_en50221_io_read_condition` over the fragments of a slot, with the
`connection_id` it leaves behind. -/
def conditionLoop (rbuf : DvbRingbuffer) :
    Nat → Option (Nat × Nat) → Option UInt8 → Option UInt8 × Bool
  | fuel + 1, some (idx, _), connectionId =>
    let hdr := fragmentHeader rbuf idx
    let connectionId := connectionId.getD hdr.1
    if hdr.1 = connectionId ∧ hdr.2 &&& 0x80 = 0 then (some connectionId, true)
    else conditionLoop rbuf fuel (dvbRingbufferPktNext rbuf (some idx)) (some connectionId)
  | _, _, connectionId => (connectionId, false)

/-- The loop over the slots: the value for `next_read_slot`, if it is written, and the slot found. -/
def conditionSlots (ca : DvbCaPrivate) : Nat → Nat → Option UInt8 → Option Nat × Option Nat
  | 0, slot, _ => (some slot, none)
  | k + 1, slot, connectionId =>
    let next := (slot + 1) % ca.slotInfo.length
    match ca.slotInfo[slot]? with
    | none => conditionSlots ca k next connectionId
    | some info =>
      if info.slotState ≠ .running then conditionSlots ca k next connectionId
      else
        match info.rxBuffer with
        | none => (none, none)
        | some rbuf =>
          let r := conditionLoop rbuf (rbuf.size + 1) (dvbRingbufferPktNext rbuf none) connectionId
          if r.2 then (some next, some slot) else conditionSlots ca k next r.1

/-- The slot for which `dvb_ca_en50221_io_read_condition` is true, if any. -/
def dvbCaEn50221IoReadCondition (ca : DvbCaPrivate) : DvbCaPrivate × Option Nat :=
  let r := conditionSlots ca ca.slotInfo.length ca.nextReadSlot none
  ({ ca with nextReadSlot := r.1.getD ca.nextReadSlot }, r.2)

/-- Outcome of the collecting loop of `dvb_ca_en50221_io_read`. -/
inductive ReadResult where
  /-- "BUG: read packet ended before last_fragment encountered" -/
  | bug
  | message (connectionId : UInt8) (pktlen : Nat) (bytes : List UInt8)
  deriving DecidableEq

/-- The `do … while` loop of `dvb_ca_en50221_io_read`. -/
def readLoop (count : Nat) : Nat → DvbRingbuffer → Option (Nat × Nat) → Option UInt8 → Nat →
    List UInt8 → DvbRingbuffer × ReadResult
  | fuel + 1, rbuf, some (idx, fraglen), connectionId, pktlen, buf =>
    let hdr := fragmentHeader rbuf idx
    let connectionId := connectionId.getD hdr.1
    let idx2 := dvbRingbufferPktNext rbuf (some idx)
    if hdr.1 = connectionId then
      let fraglen := if pktlen < count then
          if pktlen + fraglen - 2 > count then count - pktlen else fraglen - 2
        else 0
      let buf := buf ++ (dvbRingbufferPktRead rbuf idx 2 fraglen true fun _ => false).2
      let pktlen := pktlen + fraglen
      let rbuf := dvbRingbufferPktDispose rbuf idx
      if hdr.2 &&& 0x80 = 0 then (rbuf, .message connectionId pktlen buf)
      else readLoop count fuel rbuf idx2 (some connectionId) pktlen buf
    else readLoop count fuel rbuf idx2 (some connectionId) pktlen buf
  | _, rbuf, _, _, _, _ => (rbuf, .bug)

/-- What `dvb_ca_en50221_io_read` does with the slot that the condition has found: the return value and
the bytes in the caller's buffer. -/
def dvbCaEn50221IoReadSlot (ca : DvbCaPrivate) (slot count : Nat) :
    DvbCaPrivate × Int × List UInt8 :=
  match ca.slotInfo[slot]? with
  | none => (ca, errIo, [])
  | some info =>
    match info.rxBuffer with
    | none => (ca, errIo, [])
    | some rbuf =>
      let r := readLoop count (rbuf.size + 1) rbuf (dvbRingbufferPktNext rbuf none) none 2 []
      let ca := { ca with slotInfo := ca.slotInfo.set slot { info with rxBuffer := some r.1 } }
      match r.2 with
      | .bug => (ca, errIo, [])
      | .message connectionId pktlen buf => (ca, pktlen, UInt8.ofNat slot :: connectionId :: buf)

end LinuxDvb.CaEn50221
