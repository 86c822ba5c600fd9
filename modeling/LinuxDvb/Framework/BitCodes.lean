import LinuxDvb.Framework.Lists

/-!
# Bit strings and codes

The bits of bytes, the most significant first, and codes whose symbols are reached by walking from node to node, one
bit a step.
-/

namespace LinuxDvb.BitCodes

def byteBits (byte : UInt8) : List Bool := (List.range 8).map fun i => byte.toNat.testBit (7 - i)

@[simp] theorem length_byteBits (byte : UInt8) : (byteBits byte).length = 8 := by
  rw [byteBits,length_map,length_range]

theorem length_flatMap_byteBits (bytes : List UInt8) : (bytes.flatMap byteBits).length = 8 * bytes.length := by
  induction bytes with
  | nil => rfl
  | cons byte bytes ih =>
    rw [flatMap_cons,length_append,length_byteBits,ih,length_cons]
    omega

theorem drop_byteBits (byte : UInt8) {i : Nat} (hi : i < 8) :
    (byteBits byte).drop i = byte.toNat.testBit (7 - i) :: (byteBits byte).drop (i + 1) := by
  rw [List.drop_eq_getElem_cons (by rwa [length_byteBits])]
  simp only [byteBits,List.getElem_map,List.getElem_range]

theorem forall_byte {p : UInt8 → Prop} (h : ∀ n < 256, p (UInt8.ofNat n)) (byte : UInt8) : p byte := by
  have hbyte := h byte.toNat byte.toNat_lt
  rwa [UInt8.ofNat_toNat] at hbyte

theorem exists_byteBits {bits : List Bool} (h : bits.length = 8) : ∃ byte, byteBits byte = bits := by
  have hsize : 2 ^ bits.length = 256 := by simp [h]
  have hvalue : (BitVec.ofBoolListBE bits).toNat < 256 := Nat.lt_of_lt_of_eq (BitVec.ofBoolListBE bits).isLt hsize
  refine ⟨UInt8.ofNat (BitVec.ofBoolListBE bits).toNat,?_⟩
  apply List.ext_getElem
  · rw [length_byteBits,h]
  · intro i hi hi'
    have hindex : bits.length - 1 - i = 7 - i := by rw [h]
    have hmsb : (BitVec.ofBoolListBE bits).getMsbD i = bits.getD i false := BitVec.getMsbD_ofBoolListBE
    rw [getD_eq_getElem?_getD,getElem?_eq_getElem hi',getD_some,BitVec.getMsbD,decide_eq_true hi',
      Bool.true_and,hindex] at hmsb
    simp only [byteBits,List.getElem_map,List.getElem_range]
    rw [UInt8.toNat_ofNat_of_lt' hvalue]
    exact hmsb

theorem exists_byteBits_append {bits : List Bool} (hlong : 8 ≤ bits.length) :
    ∃ byte rest, bits = byteBits byte ++ rest := by
  have hlength : (bits.take 8).length = 8 := by
    rw [length_take]
    omega
  obtain ⟨byte,hbyte⟩ := exists_byteBits hlength
  refine ⟨byte,bits.drop 8,?_⟩
  rw [hbyte,take_append_drop]

section Walks

variable {ι σ : Type} (child : ι → Bool → ι ⊕ σ)

inductive Walk : ι → List Bool → σ → Prop
  | symbol {i : ι} {b : Bool} {s : σ} (h : child i b = .inr s) : Walk i [b] s
  | node {i j : ι} {b : Bool} {bits : List Bool} {s : σ} (h : child i b = .inl j) (hrest : Walk j bits s) :
      Walk i (b :: bits) s

/-- These bits lead from a node to another one, and not to a symbol. -/
inductive Inside : ι → List Bool → Prop
  | here (i : ι) : Inside i []
  | node {i j : ι} {b : Bool} {bits : List Bool} (h : child i b = .inl j) (hrest : Inside j bits) : Inside i (b :: bits)

variable {child}

theorem Walk.length_pos {i : ι} {bits : List Bool} {s : σ} (h : Walk child i bits s) : 0 < bits.length := by
  cases h with
  | symbol h => exact Nat.zero_lt_one
  | node h hrest => exact Nat.succ_pos _

theorem inside_or_walk (i : ι) (bits : List Bool) :
    Inside child i bits ∨ ∃ code rest s, bits = code ++ rest ∧ Walk child i code s := by
  induction bits generalizing i with
  | nil => exact .inl (.here i)
  | cons b bits ih =>
    cases hchild : child i b with
    | inr s => exact .inr ⟨[b],bits,s,rfl,.symbol hchild⟩
    | inl j =>
      cases ih j with
      | inl hinside => exact .inl (.node hchild hinside)
      | inr hwalk =>
        obtain ⟨code,rest,s,rfl,hwalk⟩ := hwalk
        exact .inr ⟨b :: code,rest,s,rfl,.node hchild hwalk⟩

end Walks

end LinuxDvb.BitCodes
