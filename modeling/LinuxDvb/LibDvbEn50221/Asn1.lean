import LinuxDvb.Framework.Lists

/-!
# ASN.1 length fields

`asn_1.c`: lengths are encoded in one, two or three bytes. A pointer is modelled by the list of the bytes
that may be read through it, and a read outside of them is `none`.
-/

namespace LinuxDvb.En50221

/-- `asn_1_decode`: the number of bytes used and the length, `none` for the return value -1. -/
def asn1Decode (asn1Array : List UInt8) (asn1ArrayLen : Nat) : Option (Option (Nat × Nat)) :=
  if asn1ArrayLen < 1 then some none
  else do
    let lengthField ← asn1Array[0]?
    if lengthField < 0x80 then some (some (1, (lengthField &&& 0x7f).toNat))
    else if lengthField = 0x81 then
      if asn1ArrayLen < 2 then some none
      else do
        let low ← asn1Array[1]?
        some (some (2, low.toNat))
    else if lengthField = 0x82 then
      if asn1ArrayLen < 3 then some none
      else do
        let high ← asn1Array[1]?
        let low ← asn1Array[2]?
        some (some (3, high.toNat <<< 8 ||| low.toNat))
    else some none

/-- `asn_1_encode`: the bytes stored in the array, `none` for the return value -1. -/
def asn1Encode (length : UInt16) (asn1ArrayLen : Nat) : Option (List UInt8) :=
  if length < 0x80 then
    if asn1ArrayLen < 1 then none else some [(length &&& 0x7f).toUInt8]
  else if length < 0x100 then
    if asn1ArrayLen < 2 then none else some [0x81, length.toUInt8]
  else
    if asn1ArrayLen < 3 then none else some [0x82, (length >>> 8).toUInt8, length.toUInt8]

theorem asn1Decode_inside (asn1Array : List UInt8) : asn1Decode asn1Array asn1Array.length = some none ∨
      ∃ used length, asn1Decode asn1Array asn1Array.length = some (some (used, length)) ∧ 1 ≤ used ∧
        used ≤ asn1Array.length := by
  unfold asn1Decode
  match asn1Array with
  | [] => exact .inl rfl
  | b :: bs =>
    rw [if_neg (by simp)]
    simp only [getElem?_cons_zero,bind_eq_bind,bind_some]
    split
    · exact .inr ⟨1,_,rfl,by omega,by simp⟩
    split
    · match bs with
      | [] => exact .inl rfl
      | c :: cs => exact .inr ⟨2,_,rfl,by omega,by simp⟩
    split
    · match bs with
      | [] => exact .inl rfl
      | [c] => exact .inl rfl
      | c :: d :: cs => exact .inr ⟨3,_,rfl,by omega,by simp⟩
    · exact .inl rfl

theorem asn1Decode_lt {asn1Array : List UInt8} {n used length : Nat}
    (h : asn1Decode asn1Array n = some (some (used, length))) : length < 2 ^ 16 := by
  unfold asn1Decode at h
  split at h
  · cases h
  rw [bind_eq_bind,bind_eq_some_iff] at h
  obtain ⟨field,-,h⟩ := h
  split at h
  · cases h
    have := (field &&& 0x7f).toNat_lt
    omega
  split at h
  · split at h
    · cases h
    rw [bind_eq_some_iff] at h
    obtain ⟨low,-,h⟩ := h
    cases h
    have := low.toNat_lt
    omega
  split at h
  · split at h
    · cases h
    rw [bind_eq_some_iff] at h
    obtain ⟨high,-,h⟩ := h
    rw [bind_eq_some_iff] at h
    obtain ⟨low,-,h⟩ := h
    cases h
    have hlow : low.toNat < 2 ^ 8 := low.toNat_lt
    have hhigh := high.toNat_lt
    rw [Nat.shiftLeft_eq,Nat.mul_comm,← Nat.two_pow_add_eq_or_of_lt hlow]
    omega
  · cases h

theorem asn1Encode_isSome (length : UInt16) : ∃ field, asn1Encode length 3 = some field ∧
    1 ≤ field.length ∧ field.length ≤ 3 := by
  unfold asn1Encode
  split
  · exact ⟨_,rfl,by simp,by simp⟩
  split
  · exact ⟨_,rfl,by simp,by simp⟩
  · exact ⟨_,rfl,by simp,by simp⟩

theorem asn1Decode_encode {length : UInt16} {field : List UInt8} (h : asn1Encode length 3 = some field)
    (rest : List UInt8) :
    asn1Decode (field ++ rest) (field ++ rest).length = some (some (field.length, length.toNat)) := by
  have hlt := length.toNat_lt
  unfold asn1Encode at h
  split at h
  · rename_i hsmall
    rw [if_neg (by decide),Option.some.injEq] at h
    subst h
    have hval : length.toNat < 128 := UInt16.lt_iff_toNat_lt.mp hsmall
    have hbyte : (length &&& 0x7f).toUInt8.toNat = length.toNat := by
      simp only [UInt16.toNat_toUInt8,UInt16.toNat_and,UInt16.reduceToNat]
      rw [show (127 : Nat) = 2 ^ 7 - 1 from rfl,Nat.and_two_pow_sub_one_eq_mod]
      omega
    have hfirst : (length &&& 0x7f).toUInt8 < 0x80 := by
      rw [UInt8.lt_iff_toNat_lt,hbyte]
      exact hval
    simp only [asn1Decode,cons_append,nil_append,length_cons,getElem?_cons_zero,
      bind_eq_bind,bind_some]
    rw [if_neg (by omega),if_pos hfirst,UInt8.toNat_and,hbyte]
    simp only [UInt8.reduceToNat,length_nil]
    rw [show (127 : Nat) = 2 ^ 7 - 1 from rfl,Nat.and_two_pow_sub_one_eq_mod,
      Nat.mod_eq_of_lt (by omega)]
  split at h
  · rename_i hlarge hsmall
    rw [if_neg (by decide),Option.some.injEq] at h
    subst h
    have hval : length.toNat < 256 := UInt16.lt_iff_toNat_lt.mp hsmall
    simp only [asn1Decode,cons_append,nil_append,length_cons,getElem?_cons_zero,
      getElem?_cons_succ,bind_eq_bind,bind_some]
    rw [if_neg (by omega),if_neg (by decide),if_pos trivial,if_neg (by omega)]
    simp only [UInt16.toNat_toUInt8,length_nil]
    rw [Nat.mod_eq_of_lt (by omega)]
  · rw [if_neg (by decide),Option.some.injEq] at h
    subst h
    simp only [asn1Decode,cons_append,nil_append,length_cons,getElem?_cons_zero,
      getElem?_cons_succ,bind_eq_bind,bind_some]
    rw [if_neg (by omega),if_neg (by decide),if_neg (by decide),if_pos trivial,if_neg (by omega)]
    simp only [UInt16.toNat_toUInt8,UInt16.toNat_shiftRight,UInt16.reduceToNat,length_nil]
    have hlow : length.toNat % 2 ^ 8 < 2 ^ 8 := by omega
    rw [Nat.shiftLeft_eq,Nat.mul_comm,← Nat.two_pow_add_eq_or_of_lt hlow]
    simp only [Nat.shiftRight_eq_div_pow,Nat.reduceMod]
    congr 3
    omega

end LinuxDvb.En50221
