import LinuxDvb.Framework.Lists

/-!
# Registers of cyclic redundancy checks

The register of a CRC of any width takes one bit of the message at a time, the most significant end first. What it
does is linear in exclusive or.
-/

namespace LinuxDvb.CrcRegister

variable {w : Nat} (poly : BitVec w)

/-- The polynomial is added if the bit that leaves the register differs from the one of the message. -/
def reduction (b : Bool) : BitVec w := if b then poly else 0#w

def feed (s : BitVec w) (b : Bool) : BitVec w := (s <<< 1) ^^^ reduction poly (xor s.msb b)

def run (s : BitVec w) (bits : List Bool) : BitVec w := bits.foldl (feed poly) s

def topBits (s : BitVec w) (n : Nat) : List Bool := (List.range n).map s.getMsbD

abbrev xorBits (xs ys : List Bool) : List Bool := List.zipWith xor xs ys

@[simp] theorem length_topBits (s : BitVec w) (n : Nat) : (topBits s n).length = n := by
  rw [topBits,length_map,length_range]

theorem topBits_xor {n : Nat} (s t : BitVec w) : topBits (s ^^^ t) n = xorBits (topBits s n) (topBits t n) := by
  simp only [xorBits,topBits,List.zipWith_map,List.zipWith_self]
  exact map_congr_left fun i _ => BitVec.getMsbD_xor

theorem topBits_add (s : BitVec w) (n m : Nat) : topBits s (n + m) = topBits s n ++ topBits (s <<< n) m := by
  rw [topBits,List.range_add,map_append,map_map]
  congr 1
  apply map_congr_left
  intro i _
  rw [BitVec.getMsbD_shiftLeft,Function.comp_apply,Nat.add_comm]

theorem topBits_inj {s t : BitVec w} (h : topBits s w = topBits t w) : s = t := by
  apply BitVec.eq_of_getMsbD_eq
  intro i hi
  exact List.map_inj_left.mp h i (mem_range.mpr hi)

@[simp] theorem run_nil (s : BitVec w) : run poly s [] = s := rfl

@[simp] theorem run_cons (s : BitVec w) (b : Bool) (bits : List Bool) :
    run poly s (b :: bits) = run poly (feed poly s b) bits := rfl

theorem run_append (s : BitVec w) (xs ys : List Bool) : run poly s (xs ++ ys) = run poly (run poly s xs) ys :=
  foldl_append

theorem reduction_xor (a b : Bool) : reduction poly (xor a b) = reduction poly a ^^^ reduction poly b := by
  cases a <;> cases b <;> simp [reduction]

theorem feed_xor (s t : BitVec w) (a b : Bool) : feed poly (s ^^^ t) (xor a b) = feed poly s a ^^^ feed poly t b := by
  have hbit : xor (s ^^^ t).msb (xor a b) = xor (xor s.msb a) (xor t.msb b) := by
    rw [BitVec.msb_xor]
    cases s.msb <;> cases t.msb <;> cases a <;> cases b <;> rfl
  rw [feed,feed,feed,hbit,reduction_xor,BitVec.shiftLeft_xor_distrib]
  ac_rfl

theorem run_xor {xs ys : List Bool} (h : xs.length = ys.length) (s t : BitVec w) :
    run poly (s ^^^ t) (xorBits xs ys) = run poly s xs ^^^ run poly t ys := by
  induction xs generalizing ys s t with
  | nil =>
    rw [length_eq_zero_iff.mp h.symm]
    rfl
  | cons a xs ih =>
    obtain ⟨b,ys,rfl⟩ := List.exists_cons_of_length_eq_add_one h.symm
    rw [xorBits,List.zipWith_cons_cons,run_cons,feed_xor]
    exact ih (Nat.succ.inj h) _ _

theorem feed_msb (s : BitVec w) : feed poly s s.msb = s <<< 1 := by
  rw [feed,Bool.xor_self,reduction,if_neg Bool.false_ne_true,BitVec.xor_zero]

@[simp] theorem feed_zero : feed poly 0#w false = 0#w := by
  rw [feed,BitVec.msb_zero,BitVec.zero_shiftLeft]
  exact BitVec.xor_zero

@[simp] theorem run_zero (n : Nat) : run poly 0#w (List.replicate n false) = 0#w := by
  induction n with
  | zero => rfl
  | succ n ih => rw [List.replicate_succ,run_cons,feed_zero,ih]

theorem run_topBits (s : BitVec w) {n : Nat} (hn : n ≤ w) : run poly s (topBits s n) = s <<< n := by
  induction n generalizing s with
  | zero => exact (BitVec.shiftLeft_zero s).symm
  | succ n ih =>
    have htail : (List.range n).map (s.getMsbD ∘ Nat.succ) = topBits (s <<< 1) n := by
      apply map_congr_left
      intro i _
      exact (BitVec.getMsbD_shiftLeft s 1).symm
    rw [topBits,List.range_succ_eq_map,map_cons,map_map,htail,run_cons]
    have hhead : feed poly s (s.getMsbD 0) = s <<< 1 := feed_msb poly s
    rw [hhead,ih (s <<< 1) (by omega),← BitVec.shiftLeft_add,Nat.add_comm]

theorem feed_of_msb {s : BitVec w} {b : Bool} (h : s.msb = b) : feed poly s b = s <<< 1 := h ▸ feed_msb poly s

theorem feed_getLsbD_zero (hpoly : poly.getLsbD 0 = true) (s : BitVec w) (b : Bool) :
    (feed poly s b).getLsbD 0 = xor s.msb b := by
  rw [feed,reduction,BitVec.getLsbD_xor,BitVec.getLsbD_shiftLeft]
  cases hbit : xor s.msb b with
  | false => simp
  | true => simp [hpoly]

theorem run_eq_zero_iff (hpoly : poly.getLsbD 0 = true) (s : BitVec w) {bits : List Bool} (hlen : bits.length ≤ w) :
    run poly s bits = 0#w ↔ ∀ i < w, s.getMsbD i = bits.getD i false := by
  induction bits generalizing s with
  | nil =>
    simp only [run_nil,List.getD_nil]
    constructor
    · rintro rfl i -
      exact BitVec.getMsbD_zero
    · intro h
      apply BitVec.eq_of_getMsbD_eq
      intro i hi
      rw [h i hi,BitVec.getMsbD_zero]
  | cons b bits ih =>
    have hlen' : bits.length + 1 ≤ w := hlen
    rw [run_cons,ih (feed poly s b) (by omega)]
    constructor
    · intro h
      have hmsb : s.msb = b := by
        have hlast := h (w - 1) (by omega)
        rw [List.getD_eq_default _ _ (by omega),BitVec.getMsbD_eq_getLsbD,Nat.sub_self,feed_getLsbD_zero poly hpoly]
          at hlast
        simpa [show w - 1 < w by omega] using hlast
      intro i hi
      cases i with
      | zero => exact hmsb
      | succ i =>
        have hnext := h i (by omega)
        rwa [feed_of_msb poly hmsb,BitVec.getMsbD_shiftLeft] at hnext
    · intro h i hi
      have hmsb : s.msb = b := h 0 (by omega)
      rw [feed_of_msb poly hmsb,BitVec.getMsbD_shiftLeft]
      by_cases hnext : i + 1 < w
      · exact h (i + 1) hnext
      · rw [BitVec.getMsbD_of_ge _ _ (by omega),List.getD_eq_default _ _ (by omega)]

theorem eq_zero_of_run_zeros (hpoly : poly.getLsbD 0 = true) {s : BitVec w} {n : Nat}
    (h : run poly s (List.replicate n false) = 0#w) : s = 0#w := by
  induction n generalizing s with
  | zero => exact h
  | succ n ih =>
    have hfeed : feed poly s false = 0#w := ih h
    have hw : 1 ≤ w ∨ w = 0 := by omega
    obtain hw | rfl := hw
    · have hbits := (run_eq_zero_iff poly hpoly s (show [false].length ≤ w from hw)).mp hfeed
      refine (run_eq_zero_iff poly hpoly s (show ([] : List Bool).length ≤ w from Nat.zero_le w)).mpr ?_
      intro i hi
      rw [hbits i hi]
      cases i <;> rfl
    · exact Subsingleton.elim _ _

theorem run_burst (hpoly : poly.getLsbD 0 = true) {burst : List Bool} (hlen : burst.length ≤ w)
    (hburst : true ∈ burst) (n : Nat) : run poly 0#w (burst ++ List.replicate n false) ≠ 0#w := by
  intro h
  rw [run_append] at h
  have hzero := (run_eq_zero_iff poly hpoly 0#w hlen).mp (eq_zero_of_run_zeros poly hpoly h)
  obtain ⟨i,hi,htrue⟩ := List.getElem_of_mem hburst
  have hbit := hzero i (Nat.lt_of_lt_of_le hi hlen)
  rw [BitVec.getMsbD_zero,getD_eq_getElem _ _ hi,htrue] at hbit
  cases hbit

theorem eq_zeros {bits : List Bool} (h : true ∉ bits) : bits = List.replicate bits.length false := by
  refine List.eq_replicate_iff.mpr ⟨rfl,?_⟩
  intro b hb
  cases b with
  | false => rfl
  | true => exact absurd hb h

theorem run_window (hpoly : poly.getLsbD 0 = true) {bits : List Bool} {start i : Nat} (hi : bits[i]? = some true)
    (hwindow : ∀ j : Nat, bits[j]? = some true → start ≤ j ∧ j < start + w) : run poly 0#w bits ≠ 0#w := by
  have hbefore : true ∉ bits.take start := by
    intro h
    obtain ⟨j,hj⟩ := List.getElem?_of_mem h
    rw [List.getElem?_take] at hj
    split at hj
    · exact absurd (hwindow j hj).1 (by omega)
    · cases hj
  have hbehind : true ∉ bits.drop (start + w) := by
    intro h
    obtain ⟨j,hj⟩ := List.getElem?_of_mem h
    rw [List.getElem?_drop] at hj
    exact absurd (hwindow _ hj).2 (by omega)
  have hburst : true ∈ (bits.drop start).take w := by
    obtain ⟨hlow,hhigh⟩ := hwindow i hi
    apply mem_of_getElem? (i := i - start)
    rw [List.getElem?_take,if_pos (by omega),List.getElem?_drop,Nat.add_sub_cancel' hlow,hi]
  rw [← take_append_drop start bits,← take_append_drop w (bits.drop start),drop_drop,run_append,
    eq_zeros hbefore,run_zero,eq_zeros hbehind]
  exact run_burst poly hpoly (List.length_take_le _ _) hburst _

theorem run_ne_of_burst (hpoly : poly.getLsbD 0 = true) (s : BitVec w) {xs ys : List Bool}
    (hlen : xs.length = ys.length) (hne : xs ≠ ys) {start : Nat}
    (hburst : ∀ i : Nat, xs[i]? ≠ ys[i]? → start ≤ i ∧ i < start + w) : run poly s xs ≠ run poly s ys := by
  have hdiffer : ∀ i : Nat, (xorBits xs ys)[i]? = some true ↔ xs[i]? ≠ ys[i]? := by
    intro i
    rw [xorBits,List.getElem?_zipWith]
    by_cases hi : i < xs.length
    · rw [getElem?_eq_getElem hi,getElem?_eq_getElem (hlen ▸ hi)]
      cases xs[i] <;> cases ys[i] <;> simp
    · rw [getElem?_eq_none (by omega),getElem?_eq_none (by omega)]
      simp
  obtain ⟨i,hi⟩ : ∃ i : Nat, xs[i]? ≠ ys[i]? := by
    by_contra hsame
    exact hne (ext_getElem? fun i => not_not.mp fun h => hsame ⟨i,h⟩)
  intro heq
  refine run_window poly hpoly ((hdiffer i).mpr hi) (fun j hj => hburst j ((hdiffer j).mp hj)) ?_
  have hxor := run_xor poly hlen s s
  rwa [heq,BitVec.xor_self,BitVec.xor_self] at hxor

end LinuxDvb.CrcRegister
