import LinuxDvb.Framework.Memory

/-!
# Socket buffers

The linear part of a `struct sk_buff`: memory with a window from `data` to `tail`, where `tail` is
`data + len`. Offsets count from the head of the allocated memory.
-/

namespace LinuxDvb

structure SkBuff where
  mem : Mem UInt8
  data : Nat
  len : Nat

namespace SkBuff

def tail (skb : SkBuff) : Nat := skb.data + skb.len

def contents (skb : SkBuff) : List UInt8 := skb.mem.slice skb.data skb.len

/-- `skb_reserve` on an empty buffer. -/
def reserve (skb : SkBuff) (n : Nat) : SkBuff := { skb with data := skb.data + n }

/-- `memcpy(skb_put(skb, len), bytes, len)`. -/
def put (skb : SkBuff) (bytes : List UInt8) : SkBuff :=
  { skb with mem := skb.mem.write skb.tail bytes, len := skb.len + bytes.length }

/-- `skb_pull`; it does nothing when the packet is too short. -/
def pull (skb : SkBuff) (n : Nat) : SkBuff :=
  if n > skb.len then skb else { skb with data := skb.data + n, len := skb.len - n }

/-- `skb_push` of the given bytes into the headroom. -/
def push (skb : SkBuff) (bytes : List UInt8) : SkBuff :=
  { mem := skb.mem.write (skb.data - bytes.length) bytes
    data := skb.data - bytes.length
    len := skb.len + bytes.length }

/-- Cut `n` bytes off at the tail. -/
def cut (skb : SkBuff) (n : Nat) : SkBuff := { skb with len := skb.len - n }

@[simp] theorem length_contents (skb : SkBuff) : skb.contents.length = skb.len :=
  Mem.length_slice _ _ _

theorem slice_of_contents {skb : SkBuff} {xs : List UInt8} (h : skb.contents = xs) :
    skb.mem.slice skb.data xs.length = xs := by
  rw [← h,length_contents]
  rfl

theorem contents_put (skb : SkBuff) (bytes : List UInt8) : (skb.put bytes).contents = skb.contents ++ bytes :=
  Mem.slice_write_append _ _ _ _

theorem contents_cut (skb : SkBuff) (n : Nat) : (skb.cut n).contents = skb.contents.take (skb.len - n) :=
  (Mem.take_slice _ _ _ _ (Nat.sub_le _ _)).symm

theorem contents_pull {skb : SkBuff} {n : Nat} (h : n ≤ skb.len) : (skb.pull n).contents = skb.contents.drop n := by
  unfold pull contents
  rw [if_neg (by omega),Mem.drop_slice _ _ _ _ h]

theorem data_pull {skb : SkBuff} {n : Nat} (h : n ≤ skb.len) : (skb.pull n).data = skb.data + n := by
  unfold pull
  rw [if_neg (by omega)]

theorem tail_pull {skb : SkBuff} {n : Nat} (h : n ≤ skb.len) : (skb.pull n).tail = skb.tail := by
  unfold pull tail
  rw [if_neg (by omega)]
  simp only
  omega

theorem mem_pull (skb : SkBuff) (n : Nat) : (skb.pull n).mem = skb.mem := by
  unfold pull
  split <;> rfl

theorem contents_push {skb : SkBuff} {bytes : List UInt8} (h : bytes.length ≤ skb.data) :
    (skb.push bytes).contents = bytes ++ skb.contents := by
  unfold push contents
  rw [Nat.add_comm skb.len,Mem.slice_add,Mem.slice_write_self,Nat.sub_add_cancel h,
    Mem.slice_write_after _ _ _ _ _ (by omega)]

end SkBuff

end LinuxDvb
