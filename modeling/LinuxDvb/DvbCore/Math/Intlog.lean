import LinuxDvb.Framework.Interpolation
import LinuxDvb.Framework.MachineWord

/-!
# Fixed-point logarithms

`intlog2` and `intlog10` of `dvb_math.c`. A result stands for its 2^24th part. The table has one entry for each value
of the eight bits behind the highest one, the rest of the mantissa is interpolated.
-/

namespace LinuxDvb.Math

def logtable : List Nat :=
  [0x0000, 0x0171, 0x02e0, 0x044e, 0x05ba, 0x0725, 0x088e, 0x09f7, 0x0b5d, 0x0cc3, 0x0e27, 0x0f8a,
  0x10eb, 0x124b, 0x13aa, 0x1508, 0x1664, 0x17bf, 0x1919, 0x1a71, 0x1bc8, 0x1d1e, 0x1e73, 0x1fc6,
  0x2119, 0x226a, 0x23ba, 0x2508, 0x2656, 0x27a2, 0x28ed, 0x2a37, 0x2b80, 0x2cc8, 0x2e0f, 0x2f54,
  0x3098, 0x31dc, 0x331e, 0x345f, 0x359f, 0x36de, 0x381b, 0x3958, 0x3a94, 0x3bce, 0x3d08, 0x3e41,
  0x3f78, 0x40af, 0x41e4, 0x4319, 0x444c, 0x457f, 0x46b0, 0x47e1, 0x4910, 0x4a3f, 0x4b6c, 0x4c99,
  0x4dc5, 0x4eef, 0x5019, 0x5142, 0x526a, 0x5391, 0x54b7, 0x55dc, 0x5700, 0x5824, 0x5946, 0x5a68,
  0x5b89, 0x5ca8, 0x5dc7, 0x5ee5, 0x6003, 0x611f, 0x623a, 0x6355, 0x646f, 0x6588, 0x66a0, 0x67b7,
  0x68ce, 0x69e4, 0x6af8, 0x6c0c, 0x6d20, 0x6e32, 0x6f44, 0x7055, 0x7165, 0x7274, 0x7383, 0x7490,
  0x759d, 0x76aa, 0x77b5, 0x78c0, 0x79ca, 0x7ad3, 0x7bdb, 0x7ce3, 0x7dea, 0x7ef0, 0x7ff6, 0x80fb,
  0x81ff, 0x8302, 0x8405, 0x8507, 0x8608, 0x8709, 0x8809, 0x8908, 0x8a06, 0x8b04, 0x8c01, 0x8cfe,
  0x8dfa, 0x8ef5, 0x8fef, 0x90e9, 0x91e2, 0x92db, 0x93d2, 0x94ca, 0x95c0, 0x96b6, 0x97ab, 0x98a0,
  0x9994, 0x9a87, 0x9b7a, 0x9c6c, 0x9d5e, 0x9e4f, 0x9f3f, 0xa02e, 0xa11e, 0xa20c, 0xa2fa, 0xa3e7,
  0xa4d4, 0xa5c0, 0xa6ab, 0xa796, 0xa881, 0xa96a, 0xaa53, 0xab3c, 0xac24, 0xad0c, 0xadf2, 0xaed9,
  0xafbe, 0xb0a4, 0xb188, 0xb26c, 0xb350, 0xb433, 0xb515, 0xb5f7, 0xb6d9, 0xb7ba, 0xb89a, 0xb97a,
  0xba59, 0xbb38, 0xbc16, 0xbcf4, 0xbdd1, 0xbead, 0xbf8a, 0xc065, 0xc140, 0xc21b, 0xc2f5, 0xc3cf,
  0xc4a8, 0xc580, 0xc658, 0xc730, 0xc807, 0xc8de, 0xc9b4, 0xca8a, 0xcb5f, 0xcc34, 0xcd08, 0xcddc,
  0xceaf, 0xcf82, 0xd054, 0xd126, 0xd1f7, 0xd2c8, 0xd399, 0xd469, 0xd538, 0xd607, 0xd6d6, 0xd7a4,
  0xd872, 0xd93f, 0xda0c, 0xdad9, 0xdba5, 0xdc70, 0xdd3b, 0xde06, 0xded0, 0xdf9a, 0xe063, 0xe12c,
  0xe1f5, 0xe2bd, 0xe385, 0xe44c, 0xe513, 0xe5d9, 0xe69f, 0xe765, 0xe82a, 0xe8ef, 0xe9b3, 0xea77,
  0xeb3b, 0xebfe, 0xecc1, 0xed83, 0xee45, 0xef06, 0xefc8, 0xf088, 0xf149, 0xf209, 0xf2c8, 0xf387,
  0xf446, 0xf505, 0xf5c3, 0xf680, 0xf73e, 0xf7fb, 0xf8b7, 0xf973, 0xfa2f, 0xfaea, 0xfba5, 0xfc60,
  0xfd1a, 0xfdd4, 0xfe8e, 0xff47]

def fls (x : Nat) : Nat := if x = 0 then 0 else x.log2 + 1

def intlog2 (value : UInt32) : Except WordFault Nat :=
  if value = 0 then .ok 0
  else do
    let msb := fls value.toNat - 1
    let significand ← word 32 (value.toNat <<< (31 - msb))
    let logentry := (significand >>> 23) &&& 0xff
    let next ← entry logtable ((logentry + 1) &&& 0xff)
    let current ← entry logtable logentry
    let product ← word 32 ((significand &&& 0x7fffff) * (((next : Int) - current) % 2 ^ 16).toNat)
    let interpolation := product >>> 15
    let exponent ← word 32 (msb <<< 24)
    let tabulated ← word 31 (current <<< 8)
    let sum ← word 32 (exponent + tabulated)
    word 32 (sum + interpolation)

def intlog10 (value : UInt32) : Except WordFault Nat :=
  if value = 0 then .ok 0
  else do
    let log ← intlog2 value
    let product ← word 64 (log * 646456993)
    word 32 (product >>> 31)

def tabulated (i : Nat) : Nat := logtable.getD i (2 ^ 16)

def node (i : Nat) : Nat := tabulated i * 2 ^ 8

def mantissaLog (p : Nat) : Nat := interpolate (2 ^ 23) node (p - 2 ^ 31)

theorem tabulated_next : ∀ i < 256, tabulated i < tabulated (i + 1) ∧ tabulated (i + 1) < tabulated i + 2 ^ 9 ∧
      logtable[i]? = some (tabulated i) ∧ logtable[(i + 1) % 256]? = some (tabulated (i + 1) % 2 ^ 16) := by
  decide +kernel

theorem length_logtable : logtable.length = 256 := by decide +kernel

theorem tabulated_of_le {i : Nat} (hi : 256 ≤ i) : tabulated i = 2 ^ 16 := by
  have hend : logtable.length ≤ i := by rwa [length_logtable]
  rw [tabulated,getD_eq_getElem?_getD,getElem?_eq_none hend,Option.getD_none]

theorem node_mono : Monotone node := by
  apply monotone_nat_of_le_succ
  intro i
  apply Nat.mul_le_mul_right
  by_cases hi : i < 256
  · exact Nat.le_of_lt (tabulated_next i hi).1
  · rw [tabulated_of_le (Nat.not_lt.mp hi),tabulated_of_le (by omega)]

theorem node_end : node 256 = 2 ^ 24 := by
  rw [node,tabulated_of_le (Nat.le_refl _)]
  decide

theorem tabulated_lt {i : Nat} (hi : i < 256) : tabulated i < 2 ^ 16 := by
  have hnext := (tabulated_next i hi).1
  have hend : node (i + 1) ≤ node 256 := node_mono hi
  rw [node_end,node] at hend
  omega

theorem difference_eq {i : Nat} (hi : i < 256) :
    ((((tabulated (i + 1) % 2 ^ 16 : Nat) : Int) - tabulated i) % 2 ^ 16).toNat = tabulated (i + 1) - tabulated i := by
  obtain ⟨hlt,hnear,-,-⟩ := tabulated_next i hi
  omega

theorem mantissaLog_mono : Monotone mantissaLog := fun _ _ hpq =>
  interpolate_mono (by decide) node_mono (Nat.sub_le_sub_right hpq _)

theorem mantissaLog_lt {p : Nat} (hp : p < 2 ^ 32) : mantissaLog p < 2 ^ 24 := by
  have hentry : (p - 2 ^ 31) / 2 ^ 23 < 256 := by omega
  have hnext := (tabulated_next _ hentry).1
  calc mantissaLog p
      < node ((p - 2 ^ 31) / 2 ^ 23 + 1) := interpolate_lt (by decide) (Nat.mul_lt_mul_of_pos_right hnext (by decide))
    _ ≤ node 256 := node_mono hentry
    _ = 2 ^ 24 := node_end

theorem mantissaLog_two_pow : mantissaLog (2 ^ 31) = 0 := by
  rw [mantissaLog,Nat.sub_self]
  exact interpolate_node (by decide) 0

theorem mantissaLog_eq {p e off : Nat} (hp : p = 2 ^ 31 + e * 2 ^ 23 + off) (hoff : off < 2 ^ 23) :
    mantissaLog p = tabulated e * 2 ^ 8 + off * (tabulated (e + 1) - tabulated e) / 2 ^ 15 := by
  have hdiv : (p - 2 ^ 31) / 2 ^ 23 = e := by omega
  have hmod : (p - 2 ^ 31) % 2 ^ 23 = off := by omega
  have hscale : 2 ^ 23 = 2 ^ 15 * 2 ^ 8 := by decide
  rw [mantissaLog,interpolate,hdiv,hmod,node,node,← Nat.sub_mul,← Nat.mul_assoc,hscale,
    Nat.mul_div_mul_right _ (2 ^ 15) (Nat.two_pow_pos 8)]

/-- What `intlog2` stands for: the exponent in units of an octave, and the logarithm of the mantissa. -/
def octaveLog (x : Nat) : Nat := octaves 31 (2 ^ 24) mantissaLog x

section Octave

variable {x y : Nat}

theorem log2_le (hx : x ≠ 0) (hlt : x < 2 ^ 32) : x.log2 ≤ 31 :=
  Nat.le_of_lt_succ ((Nat.log2_lt hx).mpr hlt)

theorem octaveLog_bounds (hx : x ≠ 0) (hlt : x < 2 ^ 32) :
    x.log2 * 2 ^ 24 ≤ octaveLog x ∧ octaveLog x < (x.log2 + 1) * 2 ^ 24 :=
  octaves_bounds (mantissaLog_lt (mantissa_lt (log2_le hx hlt)))

theorem octaveLog_lt (hx : x ≠ 0) (hlt : x < 2 ^ 32) : octaveLog x < 2 ^ 29 := by
  have hlog := log2_le hx hlt
  have hbound := (octaveLog_bounds hx hlt).2
  omega

theorem octaveLog_mono (hx : x ≠ 0) (hxy : x ≤ y) (hlt : y < 2 ^ 32) : octaveLog x ≤ octaveLog y :=
  octaves_mono (fun _ _ hp => mantissaLog_lt hp) mantissaLog_mono hx hxy (log2_le (by omega) hlt)

theorem octaveLog_two_pow {m : Nat} (hm : m < 32) : octaveLog (2 ^ m) = m * 2 ^ 24 := by
  rw [octaveLog,octaves,mantissa_two_pow (Nat.le_of_lt_succ hm),mantissaLog_two_pow,Nat.log2_two_pow,Nat.add_zero]

end Octave

section Values

variable {value : UInt32}

theorem toNat_ne_zero (hvalue : value ≠ 0) : value.toNat ≠ 0 := fun h => hvalue (UInt32.toNat_inj.mp h)

theorem intlog2_eq (hvalue : value ≠ 0) : intlog2 value = .ok (octaveLog value.toNat) := by
  have hx := toNat_ne_zero hvalue
  have hlog := log2_le hx value.toNat_lt
  have hmsb : fls value.toNat - 1 = value.toNat.log2 := by rw [fls,if_neg hx,Nat.add_sub_cancel]
  have hsignificand : value.toNat <<< (31 - value.toNat.log2) = mantissa 31 value.toNat := Nat.shiftLeft_eq _ _
  have hlow := le_mantissa hx hlog
  have hhigh := mantissa_lt hlog
  have hbounds := octaveLog_bounds hx value.toNat_lt
  -- the table index, and what is behind its bits
  obtain ⟨e,he⟩ : ∃ e, e = mantissa 31 value.toNat / 2 ^ 23 % 256 := ⟨_,rfl⟩
  obtain ⟨off,hoff⟩ : ∃ off, off = mantissa 31 value.toNat % 2 ^ 23 := ⟨_,rfl⟩
  have hindex : (mantissa 31 value.toNat >>> 23) &&& 0xff = e := by
    rw [Nat.shiftRight_eq_div_pow,he]
    exact Nat.and_two_pow_sub_one_eq_mod _ 8
  have hnextIndex : (e + 1) &&& 0xff = (e + 1) % 256 := Nat.and_two_pow_sub_one_eq_mod _ 8
  have hrest : mantissa 31 value.toNat &&& 0x7fffff = off := by
    rw [hoff]
    exact Nat.and_two_pow_sub_one_eq_mod _ 23
  have he' : e < 256 := by omega
  have hoff' : off < 2 ^ 23 := by omega
  have hparts : mantissa 31 value.toNat = 2 ^ 31 + e * 2 ^ 23 + off := by omega
  obtain ⟨hlt,hnear,hentry,hnext⟩ := tabulated_next e he'
  have hcurrent := tabulated_lt he'
  have hproduct : off * (tabulated (e + 1) - tabulated e) < 2 ^ 32 := by
    calc off * (tabulated (e + 1) - tabulated e) ≤ off * 2 ^ 9 := Nat.mul_le_mul_left _ (by omega)
      _ < 2 ^ 23 * 2 ^ 9 := Nat.mul_lt_mul_of_pos_right hoff' (by decide)
  have htabulated : tabulated e <<< 8 = tabulated e * 2 ^ 8 := Nat.shiftLeft_eq _ _
  have hexponent : value.toNat.log2 <<< 24 = value.toNat.log2 * 2 ^ 24 := Nat.shiftLeft_eq _ _
  have hresult : octaveLog value.toNat = value.toNat.log2 * 2 ^ 24 + tabulated e * 2 ^ 8 +
      off * (tabulated (e + 1) - tabulated e) / 2 ^ 15 := by
    rw [octaveLog,octaves,mantissaLog_eq hparts hoff',Nat.add_assoc]
  rw [intlog2,if_neg hvalue]
  dsimp only
  rw [hmsb,hsignificand,word_bind hhigh,hindex,hnextIndex,entry_bind hnext,entry_bind hentry,
    hrest,difference_eq he',word_bind hproduct,hexponent,word_bind (by omega),htabulated,word_bind (by omega),
    word_bind (by omega),Nat.shiftRight_eq_div_pow,← hresult]
  exact word_ok (by omega)

theorem intlog10_eq (hvalue : value ≠ 0) : intlog10 value = .ok (octaveLog value.toNat * 646456993 / 2 ^ 31) := by
  have hlog := octaveLog_lt (toNat_ne_zero hvalue) value.toNat_lt
  obtain ⟨log,heq⟩ : ∃ log, log = octaveLog value.toNat := ⟨_,rfl⟩
  rw [← heq] at hlog ⊢
  have hintlog2 : intlog2 value = .ok log := heq ▸ intlog2_eq hvalue
  have hbind : ∀ rest : Nat → Except WordFault Nat, (intlog2 value >>= rest) = rest log := by
    intro rest
    rw [hintlog2]
    rfl
  rw [intlog10,if_neg hvalue,hbind,word_bind (by omega),Nat.shiftRight_eq_div_pow]
  exact word_ok (by omega)

end Values

/-- The logarithms of all numbers: nothing overflows and every lookup is inside the table, a logarithm to base two
lies in the octave of its number and is exact at its start, and both logarithms keep the order. -/
theorem intlog_spec : (∀ x : UInt32, 1 ≤ x → ∃ r, intlog2 x = .ok r ∧
      x.toNat.log2 * 2 ^ 24 ≤ r ∧ r < (x.toNat.log2 + 1) * 2 ^ 24) ∧
    (∀ m < 32, intlog2 (UInt32.ofNat (2 ^ m)) = .ok (m * 2 ^ 24)) ∧
    (∀ x y : UInt32, 1 ≤ x → x ≤ y → ∃ r s, intlog2 x = .ok r ∧ intlog2 y = .ok s ∧ r ≤ s) ∧
    (∀ x y : UInt32, 1 ≤ x → x ≤ y → ∃ r s, intlog10 x = .ok r ∧ intlog10 y = .ok s ∧ r ≤ s) := by
  have hpos : ∀ x : UInt32, 1 ≤ x → x ≠ 0 := by
    intro x hx hzero
    subst hzero
    exact absurd hx (by decide)
  refine ⟨fun x hx => ?_, fun m hm => ?_, fun x y hx hxy => ?_, fun x y hx hxy => ?_⟩
  · exact ⟨_, intlog2_eq (hpos x hx), octaveLog_bounds (toNat_ne_zero (hpos x hx)) x.toNat_lt⟩
  · have hlt : 2 ^ m < 2 ^ 32 := Nat.pow_lt_pow_right (by decide) hm
    have hnat : (UInt32.ofNat (2 ^ m)).toNat = 2 ^ m := UInt32.toNat_ofNat_of_lt' hlt
    have hne : UInt32.ofNat (2 ^ m) ≠ 0 := by
      intro hzero
      rw [hzero] at hnat
      exact absurd hnat.symm (Nat.ne_of_gt (Nat.two_pow_pos m))
    rw [intlog2_eq hne, hnat, octaveLog_two_pow hm]
  · have hmono := octaveLog_mono (toNat_ne_zero (hpos x hx)) (UInt32.le_iff_toNat_le.mp hxy) y.toNat_lt
    exact ⟨_, _, intlog2_eq (hpos x hx), intlog2_eq (hpos y (UInt32.le_trans hx hxy)), hmono⟩
  · have hmono := octaveLog_mono (toNat_ne_zero (hpos x hx)) (UInt32.le_iff_toNat_le.mp hxy) y.toNat_lt
    exact ⟨_, _, intlog10_eq (hpos x hx), intlog10_eq (hpos y (UInt32.le_trans hx hxy)),
      Nat.div_le_div_right (Nat.mul_le_mul_right _ hmono)⟩

end LinuxDvb.Math
