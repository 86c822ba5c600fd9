import LinuxDvb.DvbCore.Ringbuffer.Fifo

/-!
# Packets in a ring buffer

The `pkt` functions of `dvb_ringbuffer.c` store packets behind a header of three bytes: the length, high byte first,
and a status.
-/

namespace LinuxDvb.Ringbuffer

def dvbRingbufferPkthdrsize : Nat := 3
def pktReady : UInt8 := 0
def pktDisposed : UInt8 := 1

def dvbRingbufferPktWrite (rbuf : DvbRingbuffer) (buf : List UInt8) : DvbRingbuffer × Int :=
  let oldpwrite := rbuf.pwrite
  let len := buf.length
  let rbuf := dvbRingbufferWriteByte rbuf (UInt8.ofNat (len >>> 8))
  let rbuf := dvbRingbufferWriteByte rbuf (UInt8.ofNat (len &&& 0xff))
  let rbuf := dvbRingbufferWriteByte rbuf pktReady
  let r := dvbRingbufferWrite rbuf buf
  if r.2 < 0 then ({ r.1 with pwrite := oldpwrite }, r.2) else r

/-- The length in the header at `idx`. -/
def pktLength (rbuf : DvbRingbuffer) (idx : Nat) : Nat :=
  (rbuf.data idx).toNat <<< 8 ||| (rbuf.data ((idx + 1) % rbuf.size)).toNat

def dvbRingbufferPktRead (rbuf : DvbRingbuffer) (idx offset len : Nat) (usermem : Bool)
    (copyToUser : Nat → Bool) : Int × List UInt8 :=
  let pktlen := pktLength rbuf idx
  if offset > pktlen then (errInval, [])
  else
    let len := if offset + len > pktlen then pktlen - offset else len
    let idx := (idx + dvbRingbufferPkthdrsize + offset) % rbuf.size
    let split := if idx + len > rbuf.size then rbuf.size - idx else 0
    if split > 0 then
      let first := rbuf.data.slice idx split
      if usermem && copyToUser 0 then (errFault, [])
      else if usermem && copyToUser 1 then (errFault, first)
      else (len, first ++ rbuf.data.slice 0 (len - split))
    else if usermem && copyToUser 0 then (errFault, [])
    else (len, rbuf.data.slice idx len)

/-- The cleaning loop of `dvb_ringbuffer_pkt_dispose`; each round frees at least a header. -/
def cleanDisposed : Nat → DvbRingbuffer → DvbRingbuffer
  | 0, rbuf => rbuf
  | fuel + 1, rbuf =>
    if dvbRingbufferAvail rbuf > dvbRingbufferPkthdrsize then
      if dvbRingbufferPeek rbuf 2 = pktDisposed then
        let pktlen := (dvbRingbufferPeek rbuf 0).toNat <<< 8 ||| (dvbRingbufferPeek rbuf 1).toNat
        cleanDisposed fuel (dvbRingbufferSkip rbuf (pktlen + dvbRingbufferPkthdrsize))
      else rbuf
    else rbuf

def dvbRingbufferPktDispose (rbuf : DvbRingbuffer) (idx : Nat) : DvbRingbuffer :=
  let rbuf := { rbuf with data := rbuf.data.write ((idx + 2) % rbuf.size) [pktDisposed] }
  cleanDisposed (dvbRingbufferAvail rbuf).toNat rbuf

/-- The loop of `dvb_ringbuffer_pkt_next`. -/
def pktNextLoop (rbuf : DvbRingbuffer) : Nat → Nat → Int → Option (Nat × Nat)
  | 0, _, _ => none
  | fuel + 1, idx, consumed =>
    if dvbRingbufferAvail rbuf - consumed > dvbRingbufferPkthdrsize then
      let curpktlen := pktLength rbuf idx
      let curpktstatus := rbuf.data ((idx + 2) % rbuf.size)
      if curpktstatus = pktReady then some (idx, curpktlen)
      else
        pktNextLoop rbuf fuel ((idx + curpktlen + dvbRingbufferPkthdrsize) % rbuf.size)
          (consumed + (curpktlen + dvbRingbufferPkthdrsize : Nat))
    else none

/-- `none` stands for -1, as argument and as result; the result carries `*pktlen`. The subtraction in
`consumed` is one of `size_t`. -/
def dvbRingbufferPktNext (rbuf : DvbRingbuffer) (idx : Option Nat) : Option (Nat × Nat) :=
  let idx := match idx with
    | none => rbuf.pread
    | some idx => (idx + pktLength rbuf idx + dvbRingbufferPkthdrsize) % rbuf.size
  let consumed := sizeSub idx rbuf.pread % rbuf.size
  pktNextLoop rbuf (rbuf.size + 1) idx consumed

structure Packet where
  bytes : List UInt8
  disposed : Bool
  nonempty : bytes ≠ []
  length_le : bytes.length ≤ 65535

def Packet.wire (p : Packet) : List UInt8 :=
  UInt8.ofNat (p.bytes.length >>> 8) :: UInt8.ofNat (p.bytes.length &&& 0xff) ::
    (if p.disposed then pktDisposed else pktReady) :: p.bytes

def wires (ps : List Packet) : List UInt8 := (ps.map Packet.wire).flatten

structure HoldsPackets (rbuf : DvbRingbuffer) (ps : List Packet) : Prop where
  valid : rbuf.Valid
  contents_eq : rbuf.contents = wires ps

@[simp] theorem wires_nil : wires [] = [] := rfl

@[simp] theorem wires_cons (p : Packet) (ps : List Packet) : wires (p :: ps) = p.wire ++ wires ps := rfl

@[simp] theorem wires_append (ps qs : List Packet) : wires (ps ++ qs) = wires ps ++ wires qs := by
  simp [wires]

@[simp] theorem length_wire (p : Packet) : p.wire.length = p.bytes.length + 3 := rfl

theorem length_le_length_wires (ps : List Packet) : ps.length ≤ (wires ps).length := by
  induction ps with
  | nil => simp
  | cons p ps ih =>
    rw [wires_cons,length_append,length_wire,length_cons]
    omega

theorem Packet.length_pos (p : Packet) : 0 < p.bytes.length := length_pos_iff.mpr p.nonempty

theorem pktLength_bytes {n : Nat} (h : n ≤ 65535) :
    (UInt8.ofNat (n >>> 8)).toNat <<< 8 ||| (UInt8.ofNat (n &&& 0xff)).toNat = n := by
  have hand : n &&& 0xff = n % 256 := Nat.and_two_pow_sub_one_eq_mod n 8
  rw [UInt8.toNat_ofNat',UInt8.toNat_ofNat',hand,Nat.shiftRight_eq_div_pow,
    Nat.mod_eq_of_lt (by omega),Nat.mod_mod,← Nat.shiftLeft_add_eq_or_of_lt (by omega),
    Nat.shiftLeft_eq]
  omega

/-- Index of the packet behind the packets `pre`. -/
def indexAfter (rbuf : DvbRingbuffer) (pre : List Packet) : Nat :=
  (rbuf.pread + (wires pre).length) % rbuf.size

namespace HoldsPackets

variable {rbuf : DvbRingbuffer} {ps : List Packet}

theorem fill_eq (h : HoldsPackets rbuf ps) : rbuf.fill = (wires ps).length := by
  rw [← h.contents_eq,length_contents]

theorem cell {pre : List Packet} {ys : List UInt8} (h : rbuf.contents = wires pre ++ ys) (k : Nat)
    (hk : k < ys.length) : rbuf.data ((rbuf.pread + (wires pre).length + k) % rbuf.size) = ys[k] := by
  have hlen := congrArg List.length h
  rw [length_contents,length_append] at hlen
  have hget := @Mem.getElem?_window _ rbuf.data rbuf.size rbuf.pread rbuf.fill ((wires pre).length + k)
    (by omega)
  change rbuf.contents[_]? = _ at hget
  rw [h,List.getElem?_append_right (by omega),Nat.add_sub_cancel_left,getElem?_eq_getElem hk,
    ← Nat.add_assoc] at hget
  exact (Option.some.inj hget).symm

variable {pre post : List Packet} {p : Packet}

theorem packet_cell (h : HoldsPackets rbuf (pre ++ p :: post)) (k : Nat) (hk : k < p.wire.length) :
    rbuf.data ((indexAfter rbuf pre + k) % rbuf.size) = p.wire[k] := by
  have heq : rbuf.contents = wires pre ++ (p.wire ++ wires post) := by
    rw [h.contents_eq]
    simp
  have hlt : k < (p.wire ++ wires post).length := by
    rw [length_append]
    omega
  rw [indexAfter,Nat.mod_add_mod,cell heq k hlt,List.getElem_append_left hk]

theorem indexAfter_lt (h : HoldsPackets rbuf ps) (pre : List Packet) : indexAfter rbuf pre < rbuf.size :=
  Nat.mod_lt _ (Nat.zero_lt_of_lt h.valid.pread_lt)

theorem pktLength_eq (h : HoldsPackets rbuf (pre ++ p :: post)) :
    pktLength rbuf (indexAfter rbuf pre) = p.bytes.length := by
  have h0 := h.packet_cell 0 (by simp)
  have h1 := h.packet_cell 1 (by simp)
  rw [Nat.add_zero,Nat.mod_eq_of_lt (h.indexAfter_lt pre)] at h0
  rw [pktLength,h0,h1]
  exact pktLength_bytes p.length_le

theorem status_eq (h : HoldsPackets rbuf (pre ++ p :: post)) :
    rbuf.data ((indexAfter rbuf pre + 2) % rbuf.size) = if p.disposed then pktDisposed else pktReady :=
  h.packet_cell 2 (by simp)

theorem fill_split (h : HoldsPackets rbuf (pre ++ p :: post)) :
    rbuf.fill = (wires pre).length + (p.bytes.length + 3) + (wires post).length := by
  rw [h.fill_eq]
  simp only [wires_append,wires_cons,length_append,length_wire]
  omega

theorem indexAfter_next (h : HoldsPackets rbuf (pre ++ p :: post)) :
    (indexAfter rbuf pre + pktLength rbuf (indexAfter rbuf pre) + dvbRingbufferPkthdrsize) % rbuf.size =
      indexAfter rbuf (pre ++ [p]) := by
  rw [h.pktLength_eq,indexAfter,indexAfter,dvbRingbufferPkthdrsize,Nat.add_assoc,Nat.mod_add_mod]
  simp only [wires_append,wires_cons,wires_nil,append_nil,length_append,length_wire]
  rw [Nat.add_assoc]

theorem pktWrite_spec (h : HoldsPackets rbuf ps) (hp : p.disposed = false)
    (hfit : ((p.bytes.length + dvbRingbufferPkthdrsize : Nat) : Int) ≤ dvbRingbufferFree rbuf) :
    HoldsPackets (dvbRingbufferPktWrite rbuf p.bytes).1 (ps ++ [p]) ∧
      (dvbRingbufferPktWrite rbuf p.bytes).1.size = rbuf.size ∧
      (dvbRingbufferPktWrite rbuf p.bytes).1.pread = rbuf.pread ∧
      (dvbRingbufferPktWrite rbuf p.bytes).2 = p.bytes.length := by
  rw [h.valid.free_eq,dvbRingbufferPkthdrsize] at hfit
  -- the header, byte by byte
  have a1 := writeByte_appends h.valid (UInt8.ofNat (p.bytes.length >>> 8)) (by omega)
  have f1 := a1.fill_eq
  have a2 := writeByte_appends a1.valid (UInt8.ofNat (p.bytes.length &&& 0xff))
    (by rw [f1,a1.size_eq,length_singleton]; omega)
  have a12 := a1.trans a2
  have f2 := a12.fill_eq
  have a3 := writeByte_appends a2.valid pktReady
    (by rw [f2,a12.size_eq]; simp only [length_append,length_singleton]; omega)
  have a123 := a12.trans a3
  have f3 := a123.fill_eq
  have a4 := @write_appends _ a3.valid p.bytes
    (by rw [f3,a123.size_eq]; simp only [length_append,length_singleton]; omega)
  have hall := a123.trans a4
  generalize hr : dvbRingbufferWriteByte (dvbRingbufferWriteByte (dvbRingbufferWriteByte rbuf
    (UInt8.ofNat (p.bytes.length >>> 8))) (UInt8.ofNat (p.bytes.length &&& 0xff))) pktReady = r at hall
  have hret : (dvbRingbufferWrite r p.bytes).2 = p.bytes.length := by
    simp only [dvbRingbufferWrite]
    split <;> split <;> rfl
  have heq : dvbRingbufferPktWrite rbuf p.bytes = dvbRingbufferWrite r p.bytes := by
    simp only [dvbRingbufferPktWrite,hr]
    rw [if_neg (by rw [hret]; omega)]
  rw [heq]
  refine ⟨⟨hall.valid,?_⟩,hall.size_eq,hall.pread_eq,hret⟩
  rw [hall.contents_eq,h.contents_eq]
  simp [Packet.wire,hp]

theorem pktRead_spec (h : HoldsPackets rbuf (pre ++ p :: post)) {offset : Nat}
    (hoff : offset ≤ p.bytes.length) (len : Nat) (usermem : Bool) :
    dvbRingbufferPktRead rbuf (indexAfter rbuf pre) offset len usermem (fun _ => false) =
      ((((p.bytes.drop offset).take len).length : Int), (p.bytes.drop offset).take len) := by
  have hfill := h.fill_split
  have hlt := h.valid.fill_lt
  obtain ⟨ys,hys⟩ : ∃ ys, ys = (p.bytes.drop offset).take len := ⟨_,rfl⟩
  have hlen : (if offset + len > p.bytes.length then p.bytes.length - offset else len) = ys.length := by
    rw [hys,length_take,length_drop]
    split <;> omega
  have hle : ys.length ≤ p.bytes.length := by
    rw [hys,length_take,length_drop]
    omega
  -- the bytes that are asked for, between the rest of the ring
  have hsplit : rbuf.contents = (wires pre ++ p.wire.take (3 + offset)) ++
      (ys ++ ((p.bytes.drop offset).drop len ++ wires post)) := by
    have hbytes : ys ++ (p.bytes.drop offset).drop len = p.wire.drop (3 + offset) := by
      rw [hys,take_append_drop,← drop_drop]
      rfl
    rw [h.contents_eq,wires_append,wires_cons,← append_assoc ys,hbytes]
    simp only [append_assoc]
    rw [← append_assoc (p.wire.take _),take_append_drop]
  have hwin := window_of_contents hsplit
  have hpos : (indexAfter rbuf pre + dvbRingbufferPkthdrsize + offset) % rbuf.size =
      (rbuf.pread + (wires pre ++ p.wire.take (3 + offset)).length) % rbuf.size := by
    rw [indexAfter,Nat.add_assoc,Nat.mod_add_mod,length_append,length_take,length_wire,
      Nat.min_eq_left (by omega),dvbRingbufferPkthdrsize,Nat.add_assoc]
  rw [← hpos] at hwin
  generalize hidx : (indexAfter rbuf pre + dvbRingbufferPkthdrsize + offset) % rbuf.size = idx at hwin
  have hbound : idx < rbuf.size := by
    rw [← hidx]
    exact Nat.mod_lt _ (by omega)
  rw [← Mem.copy_eq_window _ _ (by omega) (by omega)] at hwin
  simp only [dvbRingbufferPktRead,h.pktLength_eq,hlen,hidx,Bool.and_false]
  rw [if_neg (by omega),← hys]
  by_cases hwrap : idx + ys.length > rbuf.size
  · rw [if_pos hwrap] at hwin ⊢
    simp only [if_pos (show rbuf.size - idx > 0 by omega),hwin]
    rfl
  · rw [if_neg hwrap] at hwin ⊢
    simp only [gt_iff_lt,Nat.lt_irrefl,if_false,hwin]
    rfl

theorem cleanDisposed_spec (fuel : Nat) (h : HoldsPackets rbuf ps) (hfuel : ps.length ≤ fuel) :
    HoldsPackets (cleanDisposed fuel rbuf) (ps.dropWhile Packet.disposed) ∧
      (cleanDisposed fuel rbuf).size = rbuf.size ∧
      (cleanDisposed fuel rbuf).pread = indexAfter rbuf (ps.takeWhile Packet.disposed) := by
  have hstay : rbuf.pread = indexAfter rbuf [] := by
    rw [indexAfter,wires_nil,length_nil,Nat.add_zero,Nat.mod_eq_of_lt h.valid.pread_lt]
  induction ps generalizing rbuf fuel with
  | nil =>
    have havail : dvbRingbufferAvail rbuf = 0 := by
      rw [h.valid.avail_eq,h.fill_eq]
      rfl
    cases fuel with
    | zero => exact ⟨h,rfl,hstay⟩
    | succ fuel =>
      rw [cleanDisposed,havail,if_neg (by decide)]
      exact ⟨h,rfl,hstay⟩
  | cons p ps ih =>
    obtain ⟨fuel,rfl⟩ : ∃ k, fuel = k + 1 := ⟨fuel - 1,by simp only [length_cons] at hfuel; omega⟩
    have hfill := @fill_split rbuf [] ps p h
    simp only [wires_nil,length_nil,Nat.zero_add] at hfill
    have hpos := p.length_pos
    have hcell : ∀ k, (hk : k < p.wire.length) → dvbRingbufferPeek rbuf k = p.wire[k] := by
      intro k hk
      have hc := @packet_cell rbuf [] ps p h k hk
      rwa [indexAfter,wires_nil,length_nil,Nat.add_zero,Nat.mod_add_mod] at hc
    rw [cleanDisposed,h.valid.avail_eq,hcell 0 (by simp),hcell 1 (by simp),hcell 2 (by simp),
      if_pos (by simp only [dvbRingbufferPkthdrsize]; omega)]
    cases hd : p.disposed with
    | false =>
      rw [if_neg (by simp [Packet.wire, hd, pktReady, pktDisposed]),
        List.dropWhile_cons_of_neg (by simp [hd]),List.takeWhile_cons_of_neg (by simp [hd])]
      exact ⟨h,rfl,hstay⟩
    | true =>
      have hlen : p.wire[0].toNat <<< 8 ||| p.wire[1].toNat = p.bytes.length := pktLength_bytes p.length_le
      rw [if_pos (by simp [Packet.wire, hd]),hlen,List.dropWhile_cons_of_pos (by simp [hd]),
        List.takeWhile_cons_of_pos (by simp [hd])]
      have hskip := @skip_spec rbuf h.valid (p.bytes.length + dvbRingbufferPkthdrsize)
        (by simp only [dvbRingbufferPkthdrsize]; omega)
      have hnext : HoldsPackets (dvbRingbufferSkip rbuf (p.bytes.length + dvbRingbufferPkthdrsize)) ps := by
        refine ⟨hskip.1,?_⟩
        rw [hskip.2,h.contents_eq,wires_cons]
        exact drop_left' (length_wire p)
      obtain ⟨ih1,ih2,ih3⟩ := ih fuel hnext (by simpa using hfuel) (by
        rw [indexAfter,wires_nil,length_nil,Nat.add_zero,Nat.mod_eq_of_lt hnext.valid.pread_lt])
      refine ⟨ih1,ih2,ih3.trans ?_⟩
      simp only [indexAfter,dvbRingbufferSkip,Nat.mod_add_mod,wires_cons,length_append,length_wire,
        dvbRingbufferPkthdrsize,Nat.add_assoc]

theorem pktDispose_spec (h : HoldsPackets rbuf (pre ++ p :: post)) :
    HoldsPackets (dvbRingbufferPktDispose rbuf (indexAfter rbuf pre))
        ((pre ++ { p with disposed := true } :: post).dropWhile Packet.disposed) ∧
      (dvbRingbufferPktDispose rbuf (indexAfter rbuf pre)).size = rbuf.size ∧
      (dvbRingbufferPktDispose rbuf (indexAfter rbuf pre)).pread =
        indexAfter rbuf ((pre ++ { p with disposed := true } :: post).takeWhile Packet.disposed) := by
  have hfill := h.fill_split
  have hlt := h.valid.fill_lt
  have hpos := p.length_pos
  obtain ⟨marked,hmarked⟩ : ∃ marked : DvbRingbuffer, marked = { rbuf with
      data := rbuf.data.write ((indexAfter rbuf pre + 2) % rbuf.size) [pktDisposed] } := ⟨_,rfl⟩
  have hvalid : marked.Valid := by
    rw [hmarked]
    exact ⟨h.valid.pread_lt,h.valid.pwrite_lt⟩
  have hcontents : marked.contents = wires (pre ++ { p with disposed := true } :: post) := by
    have hcell : (indexAfter rbuf pre + 2) % rbuf.size =
        (rbuf.pread + ((wires pre).length + 2)) % rbuf.size := by
      rw [indexAfter,Nat.mod_add_mod,Nat.add_assoc]
    have hwrite := @Mem.window_write_cell _ rbuf.data rbuf.size rbuf.pread rbuf.fill
      ((wires pre).length + 2) pktDisposed (by omega) (by omega)
    rw [← hcell] at hwrite
    have hold : rbuf.data.window rbuf.size rbuf.pread rbuf.fill = wires (pre ++ p :: post) :=
      h.contents_eq
    rw [hold,wires_append,wires_cons,List.set_append_right _ _ (by omega),Nat.add_sub_cancel_left,
      List.set_append_left _ _ (by simp)] at hwrite
    rw [hmarked,wires_append,wires_cons]
    exact hwrite
  have hholds : HoldsPackets marked (pre ++ { p with disposed := true } :: post) := ⟨hvalid,hcontents⟩
  have hclean := cleanDisposed_spec marked.fill hholds
    (by rw [hholds.fill_eq]; exact length_le_length_wires _)
  have hdispose : dvbRingbufferPktDispose rbuf (indexAfter rbuf pre) = cleanDisposed marked.fill marked := by
    simp only [dvbRingbufferPktDispose,← hmarked,hvalid.avail_eq,Int.toNat_natCast]
  rw [hdispose]
  refine ⟨hclean.1,hclean.2.1.trans (by rw [hmarked]),hclean.2.2.trans ?_⟩
  rw [hmarked]
  rfl

end HoldsPackets

/-- The first packet of `rest` that is not disposed, as `dvb_ringbuffer_pkt_next` reports it. -/
def nextReady (rbuf : DvbRingbuffer) (pre : List Packet) : List Packet → Option (Nat × Nat)
  | [] => none
  | p :: rest =>
    if p.disposed then nextReady rbuf (pre ++ [p]) rest
    else some (indexAfter rbuf pre, p.bytes.length)

/-- A walk over the packets `rest` with a count of consumed bytes that is off by `e` still finds the
first packet that is not disposed, and stops at the end if there is none. -/
def WalkOk (e : Int) : List Packet → Prop
  | [] => -3 ≤ e
  | p :: rest => if p.disposed then WalkOk e rest else e + 3 < ((wires (p :: rest)).length : Int)

theorem walkOk_zero (rest : List Packet) : WalkOk 0 rest := by
  induction rest with
  | nil => simp [WalkOk]
  | cons p rest ih =>
    simp only [WalkOk]
    have hpos := p.length_pos
    split
    · exact ih
    · rw [wires_cons,length_append,length_wire]
      omega

/-- By how much `consumed` is off for a packet that starts `offset` bytes behind `pread`: nothing until
the ring wraps, then the remainder of the number of `size_t` values by the size. -/
def drift (rbuf : DvbRingbuffer) (offset : Nat) : Int :=
  if rbuf.pread + offset < rbuf.size then 0
  else if offset + sizeModulus % rbuf.size < rbuf.size then (sizeModulus % rbuf.size : Nat)
  else (sizeModulus % rbuf.size : Nat) - (rbuf.size : Int)

namespace HoldsPackets

variable {rbuf : DvbRingbuffer} {ps pre post : List Packet} {p : Packet}

private theorem nextReady_of_stopped {e : Int} {rest : List Packet} (hok : WalkOk e rest)
    (hstop : ((wires rest).length : Int) - e ≤ 3) (pre : List Packet) : nextReady rbuf pre rest = none := by
  induction rest generalizing pre with
  | nil => rfl
  | cons p rest ih =>
    simp only [WalkOk] at hok
    simp only [nextReady]
    split at hok
    · rw [if_pos ‹_›]
      rw [wires_cons,length_append] at hstop
      exact ih hok (by omega) _
    · omega

theorem pktNextLoop_spec {e : Int} {rest : List Packet} (h : HoldsPackets rbuf (pre ++ rest))
    (hok : WalkOk e rest) (fuel : Nat) (hfuel : rest.length < fuel) :
    pktNextLoop rbuf fuel (indexAfter rbuf pre) ((wires pre).length + e) = nextReady rbuf pre rest := by
  induction rest generalizing pre fuel with
  | nil =>
    obtain ⟨fuel,rfl⟩ : ∃ k, fuel = k + 1 := ⟨fuel - 1,by omega⟩
    have hfill := h.fill_eq
    rw [append_nil] at hfill
    simp only [WalkOk] at hok
    rw [pktNextLoop,h.valid.avail_eq,if_neg (by simp only [dvbRingbufferPkthdrsize]; omega)]
    rfl
  | cons p rest ih =>
    obtain ⟨fuel,rfl⟩ : ∃ k, fuel = k + 1 := ⟨fuel - 1,by omega⟩
    have hfill := h.fill_eq
    rw [wires_append,length_append] at hfill
    rw [pktNextLoop,h.valid.avail_eq]
    by_cases hgo : (rbuf.fill : Int) - ((wires pre).length + e) > dvbRingbufferPkthdrsize
    · simp only [if_pos hgo,h.status_eq,nextReady]
      cases hd : p.disposed with
      | false => simp only [Bool.false_eq_true,if_false,if_true,h.pktLength_eq]
      | true =>
        simp only [if_true,show pktDisposed ≠ pktReady by decide,if_false,h.indexAfter_next]
        simp only [WalkOk,hd,if_true] at hok
        have hnext := @ih (pre ++ [p]) (by simpa using h) hok fuel (by simpa using hfuel)
        rw [← hnext,h.pktLength_eq]
        congr 1
        simp only [wires_append,wires_cons,wires_nil,append_nil,length_append,length_wire,
          dvbRingbufferPkthdrsize]
        omega
    · rw [if_neg hgo]
      simp only [dvbRingbufferPkthdrsize] at hgo
      exact (nextReady_of_stopped hok (by omega) pre).symm

theorem consumed_eq (hv : rbuf.Valid) (hsize : rbuf.size ≤ sizeModulus) {offset : Nat} (hoff : offset < rbuf.size) :
    ((sizeSub ((rbuf.pread + offset) % rbuf.size) rbuf.pread % rbuf.size : Nat) : Int) =
      offset + drift rbuf offset := by
  have hp := hv.pread_lt
  unfold drift
  by_cases hwrap : rbuf.pread + offset < rbuf.size
  · rw [if_pos hwrap,Nat.mod_eq_of_lt hwrap,sizeSub_of_le (by omega) (by omega),Nat.add_sub_cancel_left,
      Nat.mod_eq_of_lt hoff]
    omega
  · have hidx : (rbuf.pread + offset) % rbuf.size = rbuf.pread + offset - rbuf.size := by
      rw [Nat.mod_eq_sub_mod (by omega),Nat.mod_eq_of_lt (by omega)]
    have hmod : (sizeModulus - (rbuf.size - offset)) % rbuf.size =
        (sizeModulus % rbuf.size + offset) % rbuf.size := by
      rw [Nat.mod_add_mod,show sizeModulus + offset = sizeModulus - (rbuf.size - offset) + rbuf.size by omega,
        Nat.add_mod_right]
    have hr : sizeModulus % rbuf.size < rbuf.size := Nat.mod_lt _ (by omega)
    rw [if_neg hwrap,hidx,sizeSub_of_lt (by omega) (by omega),
      show rbuf.pread - (rbuf.pread + offset - rbuf.size) = rbuf.size - offset by omega,hmod]
    by_cases hsum : offset + sizeModulus % rbuf.size < rbuf.size
    · rw [if_pos hsum,Nat.mod_eq_of_lt (by omega)]
      omega
    · rw [if_neg hsum,Nat.mod_eq_sub_mod (by omega),Nat.mod_eq_of_lt (by omega)]
      omega

theorem pktNext_first (h : HoldsPackets rbuf ps) (hsize : rbuf.size ≤ sizeModulus) :
    dvbRingbufferPktNext rbuf none = nextReady rbuf [] ps := by
  have hp := h.valid.pread_lt
  have hlen : ps.length < rbuf.size + 1 := by
    have h1 := length_le_length_wires ps
    have h2 := h.valid.fill_lt
    rw [h.fill_eq] at h2
    omega
  have hloop := @pktNextLoop_spec rbuf [] 0 ps h (walkOk_zero ps) _ hlen
  have hidx : indexAfter rbuf [] = rbuf.pread := by
    rw [indexAfter,wires_nil,length_nil,Nat.add_zero,Nat.mod_eq_of_lt hp]
  rw [hidx] at hloop
  rw [← hloop]
  simp only [dvbRingbufferPktNext]
  rw [sizeSub_of_le (Nat.le_refl _) (by omega),Nat.sub_self,Nat.zero_mod]
  rfl

theorem pktNext_after (h : HoldsPackets rbuf (pre ++ p :: post)) (hsize : rbuf.size ≤ sizeModulus)
    (hok : WalkOk (drift rbuf (wires (pre ++ [p])).length) post) :
    dvbRingbufferPktNext rbuf (some (indexAfter rbuf pre)) = nextReady rbuf (pre ++ [p]) post := by
  have hfill := h.fill_split
  have hlt := h.valid.fill_lt
  have hlen : post.length < rbuf.size + 1 := by
    have := length_le_length_wires post
    omega
  have hoff : (wires (pre ++ [p])).length < rbuf.size := by
    simp only [wires_append,wires_cons,wires_nil,append_nil,length_append,length_wire]
    omega
  have hsplit : HoldsPackets rbuf ((pre ++ [p]) ++ post) := by simpa using h
  have hloop := pktNextLoop_spec hsplit hok _ hlen
  rw [← hloop]
  simp only [dvbRingbufferPktNext,h.indexAfter_next]
  congr 1
  exact consumed_eq h.valid hsize hoff

end HoldsPackets

/-! ## The packets a reader sees

A reader of the packet layer only meets packets that are not disposed. With their ring indices they
form a list on which `pkt_next` goes on, `pkt_write` appends and `pkt_dispose` removes, and indices in
the hands of a reader stay valid over all of these. -/

/-- Index and bytes of the packets of `rest` that are not disposed. -/
def entries (rbuf : DvbRingbuffer) (pre : List Packet) : List Packet → List (Nat × List UInt8)
  | [] => []
  | p :: rest =>
    if p.disposed then entries rbuf (pre ++ [p]) rest
    else (indexAfter rbuf pre, p.bytes) :: entries rbuf (pre ++ [p]) rest

variable {rbuf rbuf' : DvbRingbuffer}

theorem entries_append (pre ps qs : List Packet) :
    entries rbuf pre (ps ++ qs) = entries rbuf pre ps ++ entries rbuf (pre ++ ps) qs := by
  induction ps generalizing pre with
  | nil => simp [entries]
  | cons p ps ih =>
    simp only [cons_append,entries,ih (pre ++ [p]),append_assoc]
    split <;> rfl

theorem entries_map_snd (pre ps : List Packet) :
    (entries rbuf pre ps).map Prod.snd = (ps.filter fun p => !p.disposed).map Packet.bytes := by
  induction ps generalizing pre with
  | nil => rfl
  | cons p ps ih =>
    cases hd : p.disposed with
    | true => simp [entries,hd,ih]
    | false => simp [entries,hd,ih]

theorem nextReady_eq (pre rest : List Packet) :
    nextReady rbuf pre rest = (entries rbuf pre rest).head?.map fun e => (e.1, e.2.length) := by
  induction rest generalizing pre with
  | nil => rfl
  | cons p rest ih =>
    simp only [nextReady,entries,ih]
    split <;> rfl

theorem entries_congr {pre pre' : List Packet} (hsize : rbuf'.size = rbuf.size)
    (h : indexAfter rbuf' pre' = indexAfter rbuf pre) (ps : List Packet) :
    entries rbuf' pre' ps = entries rbuf pre ps := by
  induction ps generalizing pre pre' with
  | nil => rfl
  | cons p ps ih =>
    have hnext : indexAfter rbuf' (pre' ++ [p]) = indexAfter rbuf (pre ++ [p]) := by
      have hstep : ∀ (r : DvbRingbuffer) (qs : List Packet),
          indexAfter r (qs ++ [p]) = (indexAfter r qs + p.wire.length) % r.size := by
        intro r qs
        simp only [indexAfter,wires_append,wires_cons,wires_nil,append_nil,length_append,
          Nat.mod_add_mod,Nat.add_assoc]
      rw [hstep,hstep,h,hsize]
    simp only [entries,h,ih hnext]

theorem entries_of_disposed (pre : List Packet) {ps : List Packet} (h : ∀ p ∈ ps, p.disposed = true) :
    entries rbuf pre ps = [] := by
  induction ps generalizing pre with
  | nil => rfl
  | cons p ps ih =>
    simp only [entries,h p (by simp),if_true]
    exact ih _ fun q hq => h q (by simp [hq])

theorem exists_packet_of_entries (pre : List Packet) {ps : List Packet} {as bs : List (Nat × List UInt8)}
    {e : Nat × List UInt8} (h : entries rbuf pre ps = as ++ e :: bs) :
    ∃ before p after, ps = before ++ p :: after ∧ p.disposed = false ∧
      e = (indexAfter rbuf (pre ++ before), p.bytes) ∧ as = entries rbuf pre before ∧
      bs = entries rbuf (pre ++ before ++ [p]) after := by
  induction ps generalizing pre as with
  | nil => simp [entries] at h
  | cons p ps ih =>
    cases hd : p.disposed with
    | true =>
      simp only [entries,hd,if_true] at h
      obtain ⟨before,q,after,hps,hq,he,has,hbs⟩ := ih (pre ++ [p]) h
      refine ⟨p :: before,q,after,by simp [hps],hq,by simpa using he,?_,by simpa using hbs⟩
      simp only [entries,hd,if_true,has]
    | false =>
      simp only [entries,hd,Bool.false_eq_true,if_false] at h
      cases as with
      | nil =>
        simp only [nil_append,List.cons.injEq] at h
        exact ⟨[],p,ps,rfl,hd,by simpa using h.1.symm,rfl,by simpa using h.2.symm⟩
      | cons a as =>
        simp only [cons_append,List.cons.injEq] at h
        obtain ⟨before,q,after,hps,hq,he,has,hbs⟩ := ih (pre ++ [p]) h.2
        refine ⟨p :: before,q,after,by simp [hps],hq,by simpa using he,?_,by simpa using hbs⟩
        simp only [entries,hd,Bool.false_eq_true,if_false,has,← h.1]

theorem entries_dropWhile {ps : List Packet} (hsize : rbuf'.size = rbuf.size)
    (hpread : rbuf'.pread = indexAfter rbuf (ps.takeWhile Packet.disposed)) :
    entries rbuf' [] (ps.dropWhile Packet.disposed) = entries rbuf [] ps := by
  have hstart : indexAfter rbuf' [] = indexAfter rbuf (ps.takeWhile Packet.disposed) := by
    rw [indexAfter,wires_nil,length_nil,Nat.add_zero,hsize,hpread,indexAfter,Nat.mod_mod]
  rw [entries_congr hsize hstart]
  conv_rhs => rw [← List.takeWhile_append_dropWhile (p := Packet.disposed) (l := ps)]
  rw [entries_append,nil_append,entries_of_disposed [] (List.all_eq_true.mp List.all_takeWhile),nil_append]

end LinuxDvb.Ringbuffer
