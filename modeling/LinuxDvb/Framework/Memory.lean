import LinuxDvb.Framework.Lists

/-!
# Flat memory

C buffers are modelled as total functions from offsets to cells, so that stale and uninitialised bytes stay visible.
-/

namespace LinuxDvb

abbrev Mem (α : Type) := Nat → α

namespace Mem

variable {α : Type}

/-- The `len` cells from offset `off` on. -/
def slice (m : Mem α) : Nat → Nat → List α
  | _, 0 => []
  | off, len + 1 => m off :: slice m (off + 1) len

/-- Copy a list into the buffer at offset `off`. -/
def write (m : Mem α) (off : Nat) (xs : List α) : Mem α :=
  fun i => if off ≤ i then (xs[i - off]?).getD (m i) else m i

/-- The buffer as seen through a pointer to its cell `off`. -/
def shift (m : Mem α) (off : Nat) : Mem α := fun i => m (off + i)

def ofList [Inhabited α] (xs : List α) : Mem α := fun i => xs.getD i default

@[simp] theorem slice_zero (m : Mem α) (off : Nat) : m.slice off 0 = [] := rfl

theorem slice_succ (m : Mem α) (off len : Nat) : m.slice off (len + 1) = m off :: m.slice (off + 1) len := rfl

@[simp] theorem length_slice (m : Mem α) (off len : Nat) : (m.slice off len).length = len := by
  induction len generalizing off with
  | zero => rfl
  | succ len ih => simp [slice_succ,ih]

@[simp] theorem shift_apply (m : Mem α) (off i : Nat) : m.shift off i = m (off + i) := rfl

theorem slice_shift (m : Mem α) (base off len : Nat) : (m.shift base).slice off len = m.slice (base + off) len := by
  induction len generalizing off with
  | zero => rfl
  | succ len ih => rw [slice_succ,slice_succ,ih,shift_apply,Nat.add_assoc]

theorem slice_add (m : Mem α) (off a b : Nat) : m.slice off (a + b) = m.slice off a ++ m.slice (off + a) b := by
  induction a generalizing off with
  | zero => simp
  | succ a ih =>
    rw [Nat.succ_add_eq_add_succ,Nat.add_succ,slice_succ,slice_succ,ih]
    simp [Nat.add_assoc,Nat.add_comm 1 a]

theorem getElem?_slice (m : Mem α) (off len i : Nat) (hi : i < len) : (m.slice off len)[i]? = some (m (off + i)) := by
  induction len generalizing off i with
  | zero => omega
  | succ len ih =>
    cases i with
    | zero => simp [slice_succ]
    | succ i =>
      rw [slice_succ,getElem?_cons_succ,ih (off + 1) i (by omega)]
      congr 2
      omega

theorem slice_congr {m m' : Mem α} {off len : Nat} (h : ∀ i, i < len → m (off + i) = m' (off + i)) :
    m.slice off len = m'.slice off len := by
  apply ext_getElem?
  intro i
  by_cases hi : i < len
  · rw [getElem?_slice _ _ _ _ hi,getElem?_slice _ _ _ _ hi,h i hi]
  · rw [getElem?_eq_none (by simpa using hi),getElem?_eq_none (by simpa using hi)]

theorem apply_of_slice_eq {m : Mem α} {off len i : Nat} {xs : List α} (h : m.slice off len = xs)
    (hi : i < len) : xs[i]? = some (m (off + i)) := by
  rw [← h,getElem?_slice _ _ _ _ hi]

theorem ofList_of_slice [Inhabited α] {m : Mem α} {off i : Nat} {xs : List α}
    (h : m.slice off xs.length = xs) (hi : i < xs.length) : m (off + i) = ofList xs i := by
  rw [ofList,getD_eq_getElem?_getD,apply_of_slice_eq h hi,getD_some]

theorem take_slice (m : Mem α) (off len n : Nat) (hn : n ≤ len) : (m.slice off len).take n = m.slice off n := by
  obtain ⟨k,rfl⟩ := Nat.exists_eq_add_of_le hn
  rw [slice_add,take_left' (by simp)]

theorem drop_slice (m : Mem α) (off len n : Nat) (hn : n ≤ len) :
    (m.slice off len).drop n = m.slice (off + n) (len - n) := by
  obtain ⟨k,rfl⟩ := Nat.exists_eq_add_of_le hn
  rw [slice_add,drop_left' (by simp),Nat.add_sub_cancel_left]

theorem slice_append_iff (m : Mem α) (off : Nat) (xs ys : List α) : m.slice off (xs ++ ys).length = xs ++ ys ↔
      m.slice off xs.length = xs ∧ m.slice (off + xs.length) ys.length = ys := by
  rw [length_append,slice_add]
  constructor
  · intro h
    exact append_inj h (by simp)
  · rintro ⟨hxs,hys⟩
    rw [hxs,hys]

theorem write_apply_of_lt (m : Mem α) (off : Nat) (xs : List α) (i : Nat) (hi : i < off) : m.write off xs i = m i := by
  simp [write,Nat.not_le.mpr hi]

theorem write_apply_of_ge (m : Mem α) (off : Nat) (xs : List α) (i : Nat)
    (hi : off + xs.length ≤ i) : m.write off xs i = m i := by
  have h : xs[i - off]? = none := getElem?_eq_none (by omega)
  simp [write,h]

theorem write_apply_add (m : Mem α) (off : Nat) (xs : List α) (i : Nat) (hi : i < xs.length) :
    m.write off xs (off + i) = xs[i] := by
  simp [write,getElem?_eq_getElem hi]

@[simp] theorem write_nil (m : Mem α) (off : Nat) : m.write off [] = m := by
  funext i
  simp [write]

@[simp] theorem slice_write_self (m : Mem α) (off : Nat) (xs : List α) : (m.write off xs).slice off xs.length = xs := by
  apply ext_getElem?
  intro i
  by_cases hi : i < xs.length
  · rw [getElem?_slice _ _ _ _ hi,write_apply_add _ _ _ _ hi,getElem?_eq_getElem hi]
  · rw [getElem?_eq_none (by simpa using hi),getElem?_eq_none (by omega)]

theorem slice_write_before (m : Mem α) (off : Nat) (xs : List α) (a len : Nat)
    (h : a + len ≤ off) : (m.write off xs).slice a len = m.slice a len :=
  slice_congr fun i hi => write_apply_of_lt m off xs (a + i) (by omega)

theorem slice_write_after (m : Mem α) (off : Nat) (xs : List α) (a len : Nat)
    (h : off + xs.length ≤ a) : (m.write off xs).slice a len = m.slice a len :=
  slice_congr fun i _ => write_apply_of_ge m off xs (a + i) (by omega)

theorem slice_write_append (m : Mem α) (a n : Nat) (xs : List α) :
    (m.write (a + n) xs).slice a (n + xs.length) = m.slice a n ++ xs := by
  rw [slice_add,slice_write_self,slice_write_before _ _ _ _ _ (Nat.le_refl _)]

theorem slice_ofList [Inhabited α] (xs : List α) : (ofList xs).slice 0 xs.length = xs := by
  apply ext_getElem?
  intro i
  by_cases hi : i < xs.length
  · rw [getElem?_slice _ _ _ _ hi,getElem?_eq_getElem hi,ofList,Nat.zero_add,
      getD_eq_getElem?_getD,getElem?_eq_getElem hi]
    rfl
  · rw [getElem?_eq_none (by simpa using hi),getElem?_eq_none (by omega)]

end Mem

end LinuxDvb
