import LinuxDvb.Framework.Trace
import LinuxDvb.DvbCore.Ringbuffer.Basic

/-!
# The ring buffer as a bounded queue

Each byte operation is specified by its effect on the contents of the ring buffer. Over whole
histories of operations the ring buffer of size `size` is then a queue of at most `size - 1` bytes.
-/

namespace LinuxDvb.Ringbuffer

variable {rbuf : DvbRingbuffer}

@[simp] private theorem write_size (buf : List UInt8) : (dvbRingbufferWrite rbuf buf).1.size = rbuf.size := by
  simp only [dvbRingbufferWrite]
  split <;> split <;> rfl

@[simp] private theorem write_pread (buf : List UInt8) : (dvbRingbufferWrite rbuf buf).1.pread = rbuf.pread := by
  simp only [dvbRingbufferWrite]
  split <;> split <;> rfl

@[simp] theorem write_error (buf : List UInt8) : (dvbRingbufferWrite rbuf buf).1.error = rbuf.error := by
  simp only [dvbRingbufferWrite]
  split <;> split <;> rfl

@[simp] theorem write_length (buf : List UInt8) : (dvbRingbufferWrite rbuf buf).2 = buf.length := by
  simp only [dvbRingbufferWrite]
  split <;> split <;> rfl

private theorem write_storedAt (h : rbuf.Valid) {buf : List UInt8} (hlen : buf.length < rbuf.size) :
    Mem.StoredAt rbuf.data (dvbRingbufferWrite rbuf buf).1.data rbuf.size rbuf.pwrite buf ∧
      (dvbRingbufferWrite rbuf buf).1.pwrite = (rbuf.pwrite + buf.length) % rbuf.size := by
  have hw := h.pwrite_lt
  simp only [dvbRingbufferWrite]
  by_cases hsplit : rbuf.pwrite + buf.length > rbuf.size
  · have hpos : rbuf.size - rbuf.pwrite > 0 := by omega
    simp only [if_pos hsplit,if_pos hpos]
    constructor
    · exact Mem.storedAt_write_wrapped _ _ (by omega) (by omega) (by omega)
    · rw [show rbuf.pwrite + buf.length = 0 + (buf.length - (rbuf.size - rbuf.pwrite)) + rbuf.size by omega,
        Nat.add_mod_right]
  · simp only [if_neg hsplit,gt_iff_lt,Nat.lt_irrefl,if_false]
    exact ⟨Mem.storedAt_write _ _ (by omega),trivial⟩

/-- The ring buffer after the bytes `xs` have been written. -/
structure Appends (rbuf rbuf' : DvbRingbuffer) (xs : List UInt8) : Prop where
  valid : rbuf'.Valid
  contents_eq : rbuf'.contents = rbuf.contents ++ xs
  size_eq : rbuf'.size = rbuf.size
  pread_eq : rbuf'.pread = rbuf.pread

theorem Appends.fill_eq {rbuf' : DvbRingbuffer} {xs : List UInt8} (h : Appends rbuf rbuf' xs) :
    rbuf'.fill = rbuf.fill + xs.length := by
  rw [← length_contents,h.contents_eq,length_append,length_contents]

theorem Appends.trans {rbuf' rbuf'' : DvbRingbuffer} {xs ys : List UInt8} (h : Appends rbuf rbuf' xs)
    (h' : Appends rbuf' rbuf'' ys) : Appends rbuf rbuf'' (xs ++ ys) := by
  refine ⟨h'.valid,?_,h'.size_eq.trans h.size_eq,h'.pread_eq.trans h.pread_eq⟩
  rw [h'.contents_eq,h.contents_eq,append_assoc]

private theorem appends_of_storedAt (h : rbuf.Valid) {rbuf' : DvbRingbuffer} {xs : List UInt8}
    (hfit : rbuf.fill + xs.length < rbuf.size) (hsize : rbuf'.size = rbuf.size)
    (hp : rbuf'.pread = rbuf.pread) (hw : rbuf'.pwrite = (rbuf.pwrite + xs.length) % rbuf.size)
    (hs : Mem.StoredAt rbuf.data rbuf'.data rbuf.size rbuf.pwrite xs) : Appends rbuf rbuf' xs := by
  rw [h.pwrite_eq] at hs hw
  rw [Nat.mod_add_mod,Nat.add_assoc] at hw
  have hval := h.pread_lt
  obtain ⟨hv,-,hc⟩ := contents_eq hp (by rw [hsize]; exact hw) (by omega) (by omega)
  refine ⟨hv,?_,hsize,hp⟩
  rw [hc,hsize,hs.window_append (by omega)]
  rfl

theorem write_appends (h : rbuf.Valid) {buf : List UInt8} (hfit : rbuf.fill + buf.length < rbuf.size) :
    Appends rbuf (dvbRingbufferWrite rbuf buf).1 buf := by
  obtain ⟨hs,hw⟩ := @write_storedAt rbuf h buf (by omega)
  exact appends_of_storedAt h hfit (write_size buf) (write_pread buf) hw hs

theorem writeByte_appends (h : rbuf.Valid) (byte : UInt8) (hfit : rbuf.fill + 1 < rbuf.size) :
    Appends rbuf (dvbRingbufferWriteByte rbuf byte) [byte] := by
  have hw := h.pwrite_lt
  apply @appends_of_storedAt rbuf h (dvbRingbufferWriteByte rbuf byte) [byte] hfit rfl rfl rfl
  exact Mem.storedAt_write _ _ hw

theorem skip_spec (h : rbuf.Valid) {num : Nat} (hnum : num ≤ rbuf.fill) : (dvbRingbufferSkip rbuf num).Valid ∧
      (dvbRingbufferSkip rbuf num).contents = rbuf.contents.drop num := by
  have hlt := h.fill_lt
  have hw : rbuf.pwrite = ((rbuf.pread + num) % rbuf.size + (rbuf.fill - num)) % rbuf.size := by
    rw [h.pwrite_eq,Nat.mod_add_mod,Nat.add_assoc,Nat.add_sub_cancel' hnum]
  obtain ⟨hv,-,hc⟩ := @contents_eq (dvbRingbufferSkip rbuf num) _ _ rfl hw
    (Nat.mod_lt _ (Nat.zero_lt_of_lt hlt)) (Nat.lt_of_le_of_lt (Nat.sub_le _ _) hlt)
  refine ⟨hv,?_⟩
  rw [hc,DvbRingbuffer.contents,Mem.drop_window _ _ _ hnum]
  rfl

theorem peek_spec {offs : Nat} (h : offs < rbuf.fill) : rbuf.contents[offs]? = some (dvbRingbufferPeek rbuf offs) :=
  Mem.getElem?_window _ _ _ h

theorem flush_spec (h : rbuf.Valid) : (dvbRingbufferFlush rbuf).Valid ∧ (dvbRingbufferFlush rbuf).contents = [] := by
  have hw := h.pwrite_lt
  obtain ⟨hv,-,hc⟩ := @contents_eq (dvbRingbufferFlush rbuf) rbuf.pwrite 0 rfl
    (Nat.mod_eq_of_lt hw).symm hw (Nat.zero_lt_of_lt hw)
  exact ⟨hv,hc⟩

theorem read_spec (h : rbuf.Valid) {len : Nat} (hlen : len ≤ rbuf.fill) (usermem : Bool) :
    dvbRingbufferRead rbuf len usermem (fun _ => false) =
      (dvbRingbufferSkip rbuf len, (len : Int), rbuf.contents.take len) := by
  have hp := h.pread_lt
  have hlt := h.fill_lt
  rw [DvbRingbuffer.contents,Mem.take_window _ _ _ hlen]
  simp only [dvbRingbufferRead,dvbRingbufferSkip,Bool.and_false]
  by_cases hsplit : rbuf.pread + len > rbuf.size
  · have hpos : rbuf.size - rbuf.pread > 0 := by omega
    simp only [if_pos hsplit,if_pos hpos]
    rw [Mem.window_eq_slice_append _ _ (by omega) (by omega) (by omega),
      show rbuf.pread + len = 0 + (len - (rbuf.size - rbuf.pread)) + rbuf.size by omega,Nat.add_mod_right]
    rfl
  · simp only [if_neg hsplit,gt_iff_lt,Nat.lt_irrefl,if_false]
    rw [Mem.window_eq_slice _ _ (by omega)]
    rfl

/-- Nothing of the ring is lost: its memory, its read position and the bytes in it are as they were. -/
structure Intact (rbuf rbuf' : DvbRingbuffer) : Prop where
  data : rbuf'.data = rbuf.data
  pread : rbuf'.pread = rbuf.pread
  contents : rbuf'.contents = rbuf.contents
  avail : dvbRingbufferAvail rbuf' = dvbRingbufferAvail rbuf

theorem Intact.refl (rbuf : DvbRingbuffer) : Intact rbuf rbuf := ⟨rfl, rfl, rfl, rfl⟩

/-- The bytes that are read go over the end of the ring, and the copy of those behind it is the one that fails. -/
def FaultsBehindEnd (rbuf : DvbRingbuffer) (len : Nat) (usermem : Bool) (copyToUser : Nat → Bool) : Prop :=
  rbuf.pread + len > rbuf.size ∧ usermem = true ∧ copyToUser 0 = false ∧ copyToUser 1 = true

theorem read_within {len : Nat} (hwithin : ¬ rbuf.pread + len > rbuf.size) (usermem : Bool) (copyToUser : Nat → Bool) :
    dvbRingbufferRead rbuf len usermem copyToUser =
      if usermem && copyToUser 0 then (rbuf, errFault, [])
      else ({ rbuf with pread := (rbuf.pread + len) % rbuf.size }, (len : Int), rbuf.data.slice rbuf.pread len) := by
  simp only [dvbRingbufferRead,if_neg hwithin,gt_iff_lt,Nat.lt_irrefl,if_false]

theorem read_over (h : rbuf.Valid) {len : Nat} (hover : rbuf.pread + len > rbuf.size) (usermem : Bool)
    (copyToUser : Nat → Bool) :
    ∃ first rest, dvbRingbufferRead rbuf len usermem copyToUser =
      if usermem && copyToUser 0 then (rbuf, errFault, [])
      else if usermem && copyToUser 1 then ({ rbuf with pread := 0 }, errFault, first)
      else ({ rbuf with pread := (len - (rbuf.size - rbuf.pread)) % rbuf.size }, (len : Int), rest) := by
  have hp := h.pread_lt
  have hsplit : rbuf.size - rbuf.pread > 0 := by omega
  refine ⟨rbuf.data.slice rbuf.pread (rbuf.size - rbuf.pread),rbuf.data.slice rbuf.pread (rbuf.size - rbuf.pread) ++
    rbuf.data.slice 0 (len - (rbuf.size - rbuf.pread)),?_⟩
  simp only [dvbRingbufferRead,if_pos hover,if_pos hsplit,Nat.zero_add]

/-- A read that fails leaves the ring as it was, unless its second copy does. -/
theorem read_fault_intact_iff (h : rbuf.Valid) {len : Nat} (hlen : (len : Int) ≤ dvbRingbufferAvail rbuf)
    (usermem : Bool) (copyToUser : Nat → Bool) :
    ((dvbRingbufferRead rbuf len usermem copyToUser).2.1 = errFault →
      Intact rbuf (dvbRingbufferRead rbuf len usermem copyToUser).1) ↔
    ¬ FaultsBehindEnd rbuf len usermem copyToUser := by
  have hlt := h.fill_lt
  rw [h.avail_eq] at hlen
  have hcount : (len : Int) ≠ errFault := by
    unfold errFault
    omega
  by_cases hover : rbuf.pread + len > rbuf.size
  · obtain ⟨first, rest, hread⟩ := read_over h hover usermem copyToUser
    rw [hread]
    by_cases hfirst : (usermem && copyToUser 0) = true
    · rw [if_pos hfirst]
      refine iff_of_true (fun _ => Intact.refl rbuf) fun hfaults => ?_
      obtain ⟨-, husermem, hcopied, -⟩ := hfaults
      rw [husermem, hcopied] at hfirst
      exact Bool.false_ne_true hfirst
    · rw [if_neg hfirst]
      by_cases hsecond : (usermem && copyToUser 1) = true
      · rw [if_pos hsecond]
        obtain ⟨husermem, hfailed⟩ := Bool.and_eq_true_iff.mp hsecond
        rw [husermem, Bool.true_and, Bool.not_eq_true] at hfirst
        -- the position was behind the start, since less than the whole ring is read
        refine iff_of_false (fun hintact => ?_) (not_not_intro ⟨hover, husermem, hfirst, hfailed⟩)
        have hpread : 0 = rbuf.pread := (hintact rfl).pread
        omega
      · rw [if_neg hsecond]
        refine iff_of_true (fun hresult => absurd hresult hcount) fun hfaults => ?_
        exact hsecond (Bool.and_eq_true_iff.mpr ⟨hfaults.2.1, hfaults.2.2.2⟩)
  · rw [read_within hover]
    refine iff_of_true (fun hresult => ?_) fun hfaults => hover hfaults.1
    by_cases hfirst : (usermem && copyToUser 0) = true
    · rw [if_pos hfirst]
      exact Intact.refl rbuf
    · rw [if_neg hfirst] at hresult
      exact absurd hresult hcount

theorem read_fault_intact_small : ((dvbRingbufferRead ⟨fun _ => 7, 4, 1, 3, 0⟩ 2 true fun _ => true).2.1 = errFault →
      Intact ⟨fun _ => 7, 4, 1, 3, 0⟩ (dvbRingbufferRead ⟨fun _ => 7, 4, 1, 3, 0⟩ 2 true fun _ => true).1) ↔
    ¬ FaultsBehindEnd ⟨fun _ => 7, 4, 1, 3, 0⟩ 2 true fun _ => true :=
  read_fault_intact_iff ⟨by decide, by decide⟩ (by decide) true fun _ => true

/-- Two bytes lie around the end of the ring. The second does not arrive, and the first is gone. -/
theorem read_fault_lost : (dvbRingbufferRead ⟨fun _ => 7, 4, 3, 1, 0⟩ 2 true (· = 1)).2.1 = errFault ∧
      ¬ Intact ⟨fun _ => 7, 4, 3, 1, 0⟩ (dvbRingbufferRead ⟨fun _ => 7, 4, 3, 1, 0⟩ 2 true (· = 1)).1 := by
  refine ⟨by decide, fun hintact => ?_⟩
  exact absurd hintact.avail (by decide)

inductive RingOp where
  | write (buf : List UInt8)
  | writeByte (byte : UInt8)
  | read (len : Nat) (usermem : Bool)
  | peek (offs : Nat)
  | skip (num : Nat)
  | flush

def ringStep (rbuf : DvbRingbuffer) : RingOp → DvbRingbuffer × List (List UInt8)
  | .write buf => ((dvbRingbufferWrite rbuf buf).1, [])
  | .writeByte byte => (dvbRingbufferWriteByte rbuf byte, [])
  | .read len usermem =>
    let r := dvbRingbufferRead rbuf len usermem fun _ => false
    (r.1, [r.2.2])
  | .peek offs => (rbuf, [[dvbRingbufferPeek rbuf offs]])
  | .skip num => (dvbRingbufferSkip rbuf num, [])
  | .flush => (dvbRingbufferFlush rbuf, [])

def RingAdmits (rbuf : DvbRingbuffer) : RingOp → Prop
  | .write buf => (buf.length : Int) ≤ dvbRingbufferFree rbuf
  | .writeByte _ => 1 ≤ dvbRingbufferFree rbuf
  | .read len _ => (len : Int) ≤ dvbRingbufferAvail rbuf
  | .peek offs => (offs : Int) < dvbRingbufferAvail rbuf
  | .skip num => (num : Int) ≤ dvbRingbufferAvail rbuf
  | .flush => True

def fifoStep (q : List UInt8) : RingOp → List UInt8 × List (List UInt8)
  | .write buf => (q ++ buf, [])
  | .writeByte byte => (q ++ [byte], [])
  | .read len _ => (q.drop len, [q.take len])
  | .peek offs => (q, [(q.drop offs).take 1])
  | .skip num => (q.drop num, [])
  | .flush => ([], [])

/-- A queue of the given capacity takes no more than it has room for and gives no more than it has. -/
def FifoAdmits (capacity : Nat) (q : List UInt8) : RingOp → Prop
  | .write buf => q.length + buf.length ≤ capacity
  | .writeByte _ => q.length + 1 ≤ capacity
  | .read len _ => len ≤ q.length
  | .peek offs => offs < q.length
  | .skip num => num ≤ q.length
  | .flush => True

private theorem ring_step (h : rbuf.Valid) {op : RingOp} (hop : RingAdmits rbuf op) :
    FifoAdmits (rbuf.size - 1) rbuf.contents op ∧ (ringStep rbuf op).1.Valid ∧
      (ringStep rbuf op).1.size = rbuf.size ∧
      ((ringStep rbuf op).1.contents, (ringStep rbuf op).2) = fifoStep rbuf.contents op := by
  have havail := h.avail_eq
  have hfree := h.free_eq
  have hlt := h.fill_lt
  have hlen := length_contents rbuf
  cases op with
  | write buf =>
    simp only [RingAdmits] at hop
    have hw := @write_appends rbuf h buf (by omega)
    exact ⟨by simp only [FifoAdmits]; omega,hw.valid,hw.size_eq,
      by simp only [ringStep,fifoStep,hw.contents_eq]⟩
  | writeByte byte =>
    simp only [RingAdmits] at hop
    have hw := writeByte_appends h byte (by omega)
    exact ⟨by simp only [FifoAdmits]; omega,hw.valid,hw.size_eq,
      by simp only [ringStep,fifoStep,hw.contents_eq]⟩
  | read len usermem =>
    simp only [RingAdmits] at hop
    have hle : len ≤ rbuf.fill := by omega
    obtain ⟨hv,hc⟩ := skip_spec h hle
    simp only [ringStep,fifoStep,FifoAdmits,read_spec h hle usermem,hc]
    exact ⟨by omega,hv,rfl,trivial⟩
  | peek offs =>
    simp only [RingAdmits] at hop
    have hpeek := @peek_spec rbuf offs (by omega)
    refine ⟨by simp only [FifoAdmits]; omega,h,rfl,?_⟩
    simp only [ringStep,fifoStep,Prod.mk.injEq,true_and,List.cons.injEq,and_true]
    rw [List.take_one,List.head?_drop,hpeek]
    rfl
  | skip num =>
    simp only [RingAdmits] at hop
    obtain ⟨hv,hc⟩ := @skip_spec rbuf h num (by omega)
    exact ⟨by simp only [FifoAdmits]; omega,hv,rfl,by simp only [ringStep,fifoStep,hc]⟩
  | flush =>
    obtain ⟨hv,hc⟩ := flush_spec h
    exact ⟨trivial,hv,rfl,by simp only [ringStep,fifoStep,hc]⟩

structure RingInv (size : Nat) (rbuf : DvbRingbuffer) : Prop where
  size_eq : rbuf.size = size
  pread_lt : rbuf.pread < size
  pwrite_lt : rbuf.pwrite < size
  avail_add_free : dvbRingbufferAvail rbuf + dvbRingbufferFree rbuf = (size : Int) - 1

/-- `dvb_ringbuffer` refines a queue of capacity `size - 1`: the positions stay in range, the size
checks of the callers are those of the queue, and all reads and peeks return the bytes of the queue. -/
theorem dvbRingbuffer_refines_fifo (data : Mem UInt8) (size : Nat) (hsize : 1 ≤ size) (ops : List RingOp)
    (hops : StepsMeet ringStep RingAdmits (dvbRingbufferInit data size) ops) :
    StepsMeet ringStep (fun rbuf _ => RingInv size rbuf) (dvbRingbufferInit data size) ops ∧
      RingInv size (runTrace ringStep (dvbRingbufferInit data size) ops).1 ∧
      StepsMeet fifoStep (FifoAdmits (size - 1)) [] ops ∧
      (runTrace ringStep (dvbRingbufferInit data size) ops).2 = (runTrace fifoStep [] ops).2 := by
  have hinit : (dvbRingbufferInit data size).Valid ∧ (dvbRingbufferInit data size).size = size :=
    ⟨init_valid data hsize, rfl⟩
  have hinv : ∀ rbuf : DvbRingbuffer, rbuf.Valid ∧ rbuf.size = size → RingInv size rbuf := by
    intro rbuf h
    obtain ⟨hv, rfl⟩ := h
    refine ⟨rfl, hv.pread_lt, hv.pwrite_lt, ?_⟩
    rw [hv.avail_eq, hv.free_eq]
    omega
  have hstep : ∀ (rbuf : DvbRingbuffer) (op : RingOp), rbuf.Valid ∧ rbuf.size = size → RingAdmits rbuf op →
      ((ringStep rbuf op).1.Valid ∧ (ringStep rbuf op).1.size = size) ∧
        FifoAdmits (size - 1) rbuf.contents op ∧
        ((ringStep rbuf op).1.contents, (ringStep rbuf op).2) = fifoStep rbuf.contents op := by
    intro rbuf op h hop
    obtain ⟨hfifo, hv, hs, heq⟩ := ring_step h.1 hop
    rw [h.2] at hfifo hs
    exact ⟨⟨hv, hs⟩, hfifo, heq⟩
  obtain ⟨hfinal, hadmits, hrun⟩ := runTrace_refines DvbRingbuffer.contents _ hstep hinit hops
  rw [init_contents] at hadmits hrun
  refine ⟨?_, hinv _ hfinal, hadmits, congrArg Prod.snd hrun⟩
  exact stepsMeet_of_invariant (fun rbuf => rbuf.Valid ∧ rbuf.size = size)
    (fun rbuf op h hop => ⟨(hstep rbuf op h hop).1, hinv rbuf h⟩) hinit hops

/-- A ring of four bytes that is filled, emptied in part and wraps. -/
theorem dvbRingbuffer_refines_fifo_wrapped : StepsMeet ringStep RingAdmits (dvbRingbufferInit (fun _ => 0) 4)
        [.write [1, 2, 3], .read 2 false, .write [4, 5], .peek 1, .read 3 true] ∧
      (runTrace ringStep (dvbRingbufferInit (fun _ => 0) 4)
          [.write [1, 2, 3], .read 2 false, .write [4, 5], .peek 1, .read 3 true]).2 =
        (runTrace fifoStep [] [.write [1, 2, 3], .read 2 false, .write [4, 5], .peek 1, .read 3 true]).2 := by
  have hops : StepsMeet ringStep RingAdmits (dvbRingbufferInit (fun _ => 0) 4)
      [.write [1, 2, 3], .read 2 false, .write [4, 5], .peek 1, .read 3 true] := by
    refine ⟨?_, ?_, ?_, ?_, ?_, trivial⟩ <;> simp only [RingAdmits] <;> decide
  exact ⟨hops, (dvbRingbuffer_refines_fifo (fun _ => 0) 4 (by decide) _ hops).2.2.2⟩

end LinuxDvb.Ringbuffer
