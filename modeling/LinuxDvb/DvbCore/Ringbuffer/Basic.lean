import LinuxDvb.Framework.Kernel
import LinuxDvb.Framework.Ring

/-!
# Ring buffer

`struct dvb_ringbuffer` and the byte operations of `dvb_ringbuffer.c` and `dvb_ringbuffer.h`. As the header says, the
routines do not check sizes; that is up to their callers.
-/

namespace LinuxDvb.Ringbuffer

structure DvbRingbuffer where
  data : Mem UInt8
  size : Nat
  pread : Nat
  pwrite : Nat
  error : Int

def dvbRingbufferInit (data : Mem UInt8) (len : Nat) : DvbRingbuffer where
  data := data
  size := len
  pread := 0
  pwrite := 0
  error := 0

def dvbRingbufferEmpty (rbuf : DvbRingbuffer) : Bool := rbuf.pread = rbuf.pwrite

def dvbRingbufferFree (rbuf : DvbRingbuffer) : Int :=
  let free : Int := rbuf.pread - rbuf.pwrite
  (if free ≤ 0 then free + rbuf.size else free) - 1

def dvbRingbufferAvail (rbuf : DvbRingbuffer) : Int :=
  let avail : Int := rbuf.pwrite - rbuf.pread
  if avail < 0 then avail + rbuf.size else avail

def dvbRingbufferFlush (rbuf : DvbRingbuffer) : DvbRingbuffer :=
  { rbuf with pread := rbuf.pwrite, error := 0 }

def dvbRingbufferPeek (rbuf : DvbRingbuffer) (offs : Nat) : UInt8 :=
  rbuf.data ((rbuf.pread + offs) % rbuf.size)

def dvbRingbufferSkip (rbuf : DvbRingbuffer) (num : Nat) : DvbRingbuffer :=
  { rbuf with pread := (rbuf.pread + num) % rbuf.size }

def dvbRingbufferWriteByte (rbuf : DvbRingbuffer) (byte : UInt8) : DvbRingbuffer :=
  { rbuf with data := rbuf.data.write rbuf.pwrite [byte], pwrite := (rbuf.pwrite + 1) % rbuf.size }

/-- `copyToUser k` says whether the `k`-th `copy_to_user` of a call leaves bytes uncopied. The result
is the return value with the bytes that arrived in `buf`. -/
def dvbRingbufferRead (rbuf : DvbRingbuffer) (len : Nat) (usermem : Bool) (copyToUser : Nat → Bool) :
    DvbRingbuffer × Int × List UInt8 :=
  let split := if rbuf.pread + len > rbuf.size then rbuf.size - rbuf.pread else 0
  if split > 0 then
    let first := rbuf.data.slice rbuf.pread split
    if usermem && copyToUser 0 then (rbuf, errFault, [])
    else
      let todo := len - split
      let rbuf := { rbuf with pread := 0 }
      if usermem && copyToUser 1 then (rbuf, errFault, first)
      else
        ({ rbuf with pread := (rbuf.pread + todo) % rbuf.size }, len, first ++ rbuf.data.slice rbuf.pread todo)
  else if usermem && copyToUser 0 then (rbuf, errFault, [])
  else
    ({ rbuf with pread := (rbuf.pread + len) % rbuf.size }, len, rbuf.data.slice rbuf.pread len)

def dvbRingbufferWrite (rbuf : DvbRingbuffer) (buf : List UInt8) : DvbRingbuffer × Int :=
  let len := buf.length
  let split := if rbuf.pwrite + len > rbuf.size then rbuf.size - rbuf.pwrite else 0
  if split > 0 then
    let todo := len - split
    let rbuf := { rbuf with data := rbuf.data.write rbuf.pwrite (buf.take split), pwrite := 0 }
    ({ rbuf with
        data := rbuf.data.write rbuf.pwrite (buf.drop split)
        pwrite := (rbuf.pwrite + todo) % rbuf.size }, len)
  else
    ({ rbuf with
        data := rbuf.data.write rbuf.pwrite buf
        pwrite := (rbuf.pwrite + len) % rbuf.size }, len)

structure DvbRingbuffer.Valid (rbuf : DvbRingbuffer) : Prop where
  pread_lt : rbuf.pread < rbuf.size
  pwrite_lt : rbuf.pwrite < rbuf.size

def DvbRingbuffer.fill (rbuf : DvbRingbuffer) : Nat :=
  (rbuf.pwrite + rbuf.size - rbuf.pread) % rbuf.size

def DvbRingbuffer.contents (rbuf : DvbRingbuffer) : List UInt8 :=
  rbuf.data.window rbuf.size rbuf.pread rbuf.fill

namespace DvbRingbuffer.Valid

variable {rbuf : DvbRingbuffer}

theorem fill_lt (h : rbuf.Valid) : rbuf.fill < rbuf.size :=
  Nat.mod_lt _ (Nat.zero_lt_of_lt h.pread_lt)

theorem fill_cases (h : rbuf.Valid) : rbuf.pread ≤ rbuf.pwrite ∧ rbuf.fill = rbuf.pwrite - rbuf.pread ∨
      rbuf.pwrite < rbuf.pread ∧ rbuf.fill = rbuf.pwrite + rbuf.size - rbuf.pread := by
  have hp := h.pread_lt
  have hw := h.pwrite_lt
  unfold DvbRingbuffer.fill
  by_cases hle : rbuf.pread ≤ rbuf.pwrite
  · left
    rw [show rbuf.pwrite + rbuf.size - rbuf.pread = rbuf.pwrite - rbuf.pread + rbuf.size by omega,
      Nat.add_mod_right,Nat.mod_eq_of_lt (by omega)]
    exact ⟨hle,rfl⟩
  · right
    rw [Nat.mod_eq_of_lt (by omega)]
    exact ⟨by omega,rfl⟩

theorem pwrite_eq (h : rbuf.Valid) : rbuf.pwrite = (rbuf.pread + rbuf.fill) % rbuf.size := by
  have hp := h.pread_lt
  have hw := h.pwrite_lt
  cases h.fill_cases with
  | inl hc => rw [hc.2,Nat.mod_eq_of_lt (by omega)]; omega
  | inr hc =>
    rw [hc.2,show rbuf.pread + (rbuf.pwrite + rbuf.size - rbuf.pread) = rbuf.pwrite + rbuf.size by omega,
      Nat.add_mod_right,Nat.mod_eq_of_lt hw]

theorem avail_eq (h : rbuf.Valid) : dvbRingbufferAvail rbuf = (rbuf.fill : Int) := by
  have hp := h.pread_lt
  have hw := h.pwrite_lt
  unfold dvbRingbufferAvail
  cases h.fill_cases with
  | inl hc => dsimp only; split <;> omega
  | inr hc => dsimp only; split <;> omega

theorem free_eq (h : rbuf.Valid) : dvbRingbufferFree rbuf = (rbuf.size : Int) - 1 - rbuf.fill := by
  have hp := h.pread_lt
  have hw := h.pwrite_lt
  unfold dvbRingbufferFree
  cases h.fill_cases with
  | inl hc => dsimp only; split <;> omega
  | inr hc => dsimp only; split <;> omega

end DvbRingbuffer.Valid

@[simp] theorem length_contents (rbuf : DvbRingbuffer) : rbuf.contents.length = rbuf.fill :=
  Mem.length_window _ _

theorem contents_eq {rbuf : DvbRingbuffer} {p n : Nat} (hp : rbuf.pread = p)
    (hw : rbuf.pwrite = (p + n) % rbuf.size) (hps : p < rbuf.size) (hn : n < rbuf.size) :
    rbuf.Valid ∧ rbuf.fill = n ∧ rbuf.contents = rbuf.data.window rbuf.size p n := by
  have hv : rbuf.Valid := ⟨by omega,by rw [hw]; exact Nat.mod_lt _ (by omega)⟩
  have hfill : rbuf.fill = n := by
    have heq := hv.pwrite_eq
    rw [hw,hp] at heq
    exact (Mem.ring_index_inj hn hv.fill_lt heq).symm
  exact ⟨hv,hfill,by rw [DvbRingbuffer.contents,hfill,hp]⟩

theorem window_of_contents {rbuf : DvbRingbuffer} {xs ys zs : List UInt8} (h : rbuf.contents = xs ++ (ys ++ zs)) :
    rbuf.data.window rbuf.size ((rbuf.pread + xs.length) % rbuf.size) ys.length = ys := by
  have hlen := congrArg List.length h
  simp only [length_contents,length_append] at hlen
  have hdrop := @Mem.drop_window _ rbuf.data rbuf.size rbuf.pread rbuf.fill xs.length (by omega)
  rw [← Mem.take_window _ (rbuf.fill - xs.length) _ (by omega),← hdrop]
  change (rbuf.contents.drop xs.length).take ys.length = ys
  rw [h,drop_left,take_left]

theorem init_valid (data : Mem UInt8) {size : Nat} (h : 1 ≤ size) : (dvbRingbufferInit data size).Valid :=
  ⟨h, h⟩

theorem init_contents (data : Mem UInt8) (size : Nat) : (dvbRingbufferInit data size).contents = [] := by
  simp [DvbRingbuffer.contents,DvbRingbuffer.fill,dvbRingbufferInit]

end LinuxDvb.Ringbuffer
