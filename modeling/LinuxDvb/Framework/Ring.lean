import LinuxDvb.Framework.Memory

/-!
# Circular memory

A ring of `size` cells is read from a position `p` on with indices taken modulo `size`. `window` is
what a reader sees, independently of where the ring wraps; the lemmas say how it splits into runs of
plain memory and how writes change it.
-/

namespace LinuxDvb

namespace Mem

variable {α : Type}

/-- The `n` cells from position `p` of a ring on. -/
def window (m : Mem α) (size p n : Nat) : List α :=
  (List.range n).map fun i => m ((p + i) % size)

variable {m m' : Mem α} {size : Nat}

@[simp] theorem length_window (p n : Nat) : (m.window size p n).length = n := by
  simp [window]

@[simp] theorem window_zero (p : Nat) : m.window size p 0 = [] := rfl

theorem getElem?_window (p n i : Nat) (h : i < n) : (m.window size p n)[i]? = some (m ((p + i) % size)) := by
  simp [window,h]

theorem window_congr {p n : Nat} (h : ∀ i, i < n → m ((p + i) % size) = m' ((p + i) % size)) :
    m.window size p n = m'.window size p n := by
  apply map_congr_left
  intro i hi
  exact h i (mem_range.mp hi)

theorem window_mod (p n : Nat) : m.window size (p % size) n = m.window size p n := by
  apply map_congr_left
  intro i _
  rw [Nat.mod_add_mod]

theorem window_add (p a b : Nat) : m.window size p (a + b) = m.window size p a ++ m.window size ((p + a) % size) b := by
  rw [window_mod]
  unfold window
  rw [List.range_add,map_append,map_map]
  congr 1
  apply map_congr_left
  intro i _
  simp [Nat.add_assoc]

theorem take_window (p n k : Nat) (h : k ≤ n) : (m.window size p n).take k = m.window size p k := by
  obtain ⟨j,rfl⟩ := Nat.exists_eq_add_of_le h
  rw [window_add,take_left' (by simp)]

theorem drop_window (p n k : Nat) (h : k ≤ n) :
    (m.window size p n).drop k = m.window size ((p + k) % size) (n - k) := by
  obtain ⟨j,rfl⟩ := Nat.exists_eq_add_of_le h
  rw [window_add,drop_left' (by simp),Nat.add_sub_cancel_left]

theorem window_eq_slice (p n : Nat) (h : p + n ≤ size) : m.window size p n = m.slice p n := by
  apply ext_getElem?
  intro i
  by_cases hi : i < n
  · rw [getElem?_window _ _ _ hi,getElem?_slice _ _ _ _ hi,Nat.mod_eq_of_lt (by omega)]
  · rw [getElem?_eq_none (by simpa using hi),getElem?_eq_none (by simpa using hi)]

theorem window_eq_slice_append (p n : Nat) (hp : p ≤ size) (hn : size ≤ p + n) (h : p + n ≤ size + size) :
    m.window size p n = m.slice p (size - p) ++ m.slice 0 (n - (size - p)) := by
  obtain ⟨k,hk⟩ : ∃ k, n = (size - p) + k := ⟨n - (size - p),by omega⟩
  rw [hk,window_add,window_eq_slice p _ (by omega),Nat.add_sub_cancel' hp,Nat.mod_self,
    window_eq_slice 0 k (by omega),Nat.add_sub_cancel_left]

theorem copy_eq_window (p n : Nat) (hp : p ≤ size) (hn : n ≤ size) :
    (if p + n > size then m.slice p (size - p) ++ m.slice 0 (n - (size - p)) else m.slice p n) =
      m.window size p n := by
  by_cases h : p + n > size
  · rw [if_pos h,window_eq_slice_append _ _ hp (by omega) (by omega)]
  · rw [if_neg h,window_eq_slice _ _ (by omega)]

theorem ring_index_inj {p i j : Nat} (hi : i < size) (hj : j < size) (h : (p + i) % size = (p + j) % size) : i = j := by
  have hmod : i % size = j % size := Nat.ModEq.add_left_cancel' p h
  rwa [Nat.mod_eq_of_lt hi,Nat.mod_eq_of_lt hj] at hmod

/-- The ring after `xs` has been stored from position `p` on. -/
structure StoredAt (m m' : Mem α) (size p : Nat) (xs : List α) : Prop where
  stored : m'.window size p xs.length = xs
  kept : ∀ i, xs.length ≤ i → i < size → m' ((p + i) % size) = m ((p + i) % size)

theorem StoredAt.window_before {p n : Nat} {xs : List α} (h : StoredAt m m' size ((p + n) % size) xs)
    (hfit : n + xs.length ≤ size) : m'.window size p n = m.window size p n := by
  apply window_congr
  intro i hi
  have hkept := h.kept (size - n + i) (by omega) (by omega)
  rwa [Nat.mod_add_mod,show p + n + (size - n + i) = p + i + size by omega,Nat.add_mod_right] at hkept

theorem StoredAt.window_append {p n : Nat} {xs : List α} (h : StoredAt m m' size ((p + n) % size) xs)
    (hfit : n + xs.length ≤ size) :
    m'.window size p (n + xs.length) = m.window size p n ++ xs := by
  rw [window_add,h.window_before hfit,h.stored]

theorem StoredAt.trans {m'' : Mem α} {p : Nat} {xs ys : List α} (h : StoredAt m m' size p xs)
    (h' : StoredAt m' m'' size ((p + xs.length) % size) ys) (hfit : xs.length + ys.length ≤ size) :
    StoredAt m m'' size p (xs ++ ys) := by
  refine ⟨?_,?_⟩
  · rw [length_append,h'.window_append hfit,h.stored]
  · intro i hi hlt
    rw [length_append] at hi
    have hkept := h'.kept (i - xs.length) (by omega) (by omega)
    rw [Nat.mod_add_mod,show p + xs.length + (i - xs.length) = p + i by omega] at hkept
    rw [hkept,h.kept i (by omega) hlt]

theorem storedAt_write (p : Nat) (xs : List α) (h : p + xs.length ≤ size) : StoredAt m (m.write p xs) size p xs := by
  refine ⟨?_,?_⟩
  · rw [window_eq_slice _ _ h,slice_write_self]
  · intro i hi hlt
    by_cases hwrap : p + i < size
    · rw [Nat.mod_eq_of_lt hwrap,write_apply_of_ge _ _ _ _ (by omega)]
    · have hmod : (p + i) % size = p + i - size := by
        rw [Nat.mod_eq_sub_mod (by omega),Nat.mod_eq_of_lt (by omega)]
      rw [hmod,write_apply_of_lt _ _ _ _ (by omega)]

theorem storedAt_write_wrapped (p : Nat) (xs : List α) (hp : p ≤ size) (hwrap : size ≤ p + xs.length)
    (h : xs.length ≤ size) :
    StoredAt m ((m.write p (xs.take (size - p))).write 0 (xs.drop (size - p))) size p xs := by
  have hfirst : (xs.take (size - p)).length = size - p := by
    rw [length_take]
    omega
  have hsecond : (xs.drop (size - p)).length = xs.length - (size - p) := length_drop
  have hstart : StoredAt m (m.write p (xs.take (size - p))) size p (xs.take (size - p)) :=
    storedAt_write p _ (by omega)
  have hend : StoredAt (m.write p (xs.take (size - p)))
      ((m.write p (xs.take (size - p))).write 0 (xs.drop (size - p))) size
      ((p + (xs.take (size - p)).length) % size) (xs.drop (size - p)) := by
    rw [hfirst,Nat.add_sub_cancel' hp,Nat.mod_self]
    exact storedAt_write 0 _ (by omega)
  have hboth := hstart.trans hend (by omega)
  rwa [take_append_drop] at hboth

theorem window_write_cell (p n k : Nat) (a : α) (hk : k < n) (hn : n ≤ size) :
    (m.write ((p + k) % size) [a]).window size p n = (m.window size p n).set k a := by
  apply ext_getElem?
  intro i
  by_cases hi : i < n
  · rw [getElem?_window _ _ _ hi,List.getElem?_set,getElem?_window _ _ _ hi,length_window]
    by_cases hik : k = i
    · subst hik
      have hself := write_apply_add m ((p + k) % size) [a] 0 (by simp)
      simp only [Nat.add_zero,List.getElem_cons_zero] at hself
      rw [if_pos rfl,if_pos hi,hself]
    · have hne : (p + i) % size ≠ (p + k) % size := by
        intro heq
        exact hik (ring_index_inj (by omega) (by omega) heq.symm)
      rw [if_neg hik]
      congr 1
      by_cases hlt : (p + i) % size < (p + k) % size
      · rw [write_apply_of_lt _ _ _ _ hlt]
      · rw [write_apply_of_ge _ _ _ _ (by simp only [length_singleton]; omega)]
  · rw [getElem?_eq_none (by simpa using hi),getElem?_eq_none (by simpa using hi)]

theorem window_update_behind (p n : Nat) (a : α) (hn : n < size) :
    window (Function.update m ((p + n) % size) a) size p n = m.window size p n := by
  apply window_congr
  intro i hi
  apply Function.update_of_ne
  intro heq
  have hin : i = n := ring_index_inj (by omega) hn heq
  omega

theorem window_update_append (p n : Nat) (a : α) (hn : n < size) :
    window (Function.update m ((p + n) % size) a) size p (n + 1) = m.window size p n ++ [a] := by
  rw [window_add,window_update_behind p n a hn]
  simp [window]

end Mem

end LinuxDvb
