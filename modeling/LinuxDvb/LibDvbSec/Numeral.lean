import LinuxDvb.LibDvbSec.Command

/-!
# Numerals

An integer as it is written in C: a sign, and digits whose base is seen from what they start with. A scanner
that takes the first characters of a numeral only gets a smaller number.
-/

namespace LinuxDvb.Sec

def AllDigits (base : Nat) (ds : List UInt8) : Prop := ∀ d ∈ ds, digitValue d < base

inductive IsDigits : List UInt8 → Nat → Prop
  | decimal {d : UInt8} {ds : List UInt8} (hfirst : digitValue d ≠ 0) (hall : AllDigits 10 (d :: ds)) :
      IsDigits (d :: ds) (number 10 ((d :: ds).map digitValue))
  | octal {ds : List UInt8} (hall : AllDigits 8 ds) :
      IsDigits (ch '0' :: ds) (number 8 (ds.map digitValue))
  | hex {x : UInt8} {ds : List UInt8} (hx : tolower x = ch 'x') (hsome : ds ≠ []) (hall : AllDigits 16 ds) :
      IsDigits (ch '0' :: x :: ds) (number 16 (ds.map digitValue))

def IsSign (sign : List UInt8) : Prop := sign = [] ∨ sign = [ch '+'] ∨ sign = [ch '-']

def signed (sign : List UInt8) (n : Nat) : Int := if sign = [ch '-'] then -(n : Int) else n

structure Numeral (low high : Int) where
  sign : List UInt8
  digits : List UInt8
  magnitude : Nat
  isSign : IsSign sign
  isDigits : IsDigits digits magnitude
  inRange : low ≤ signed sign magnitude ∧ signed sign magnitude < high

namespace Numeral

variable {low high : Int} (n : Numeral low high)

def text : List UInt8 := n.sign ++ n.digits

def value : Int := signed n.sign n.magnitude

def read : Int := (scanInt (n.text.take 31)).getD 0

end Numeral

section Number

theorem number_append (base : Nat) (xs ys : List Nat) :
    number base (xs ++ ys) = number base xs * base ^ ys.length + number base ys := by
  unfold number
  rw [foldl_append]
  generalize List.foldl (fun n d => base * n + d) 0 xs = start
  have hgeneral : ∀ (ys : List Nat) (start : Nat),
      List.foldl (fun n d => base * n + d) start ys =
        start * base ^ ys.length + List.foldl (fun n d => base * n + d) 0 ys := by
    intro ys
    induction ys with
    | nil =>
      intro start
      simp
    | cons y ys ih =>
      intro start
      rw [foldl_cons,foldl_cons,ih,ih (base * 0 + y),length_cons,Nat.pow_succ,
        Nat.mul_zero,Nat.zero_add,Nat.add_mul]
      rw [Nat.mul_comm base start,Nat.mul_assoc,Nat.mul_comm base,Nat.add_assoc]
  exact hgeneral ys start

theorem number_cons (base d : Nat) (ds : List Nat) : number base (d :: ds) = d * base ^ ds.length + number base ds := by
  have happend := number_append base [d] ds
  have hone : number base [d] = d := by
    unfold number
    rw [foldl_cons,foldl_nil,Nat.mul_zero,Nat.zero_add]
  rwa [hone] at happend

theorem number_take {base : Nat} (hbase : 2 ≤ base) {ds : List Nat} {k : Nat} (hk : k < ds.length) :
    number base (ds.take k) < number base ds ∨ number base (ds.take k) = 0 ∧ number base ds = 0 := by
  have hsplit := number_append base (ds.take k) (ds.drop k)
  rw [take_append_drop] at hsplit
  have hpower : 2 ≤ base ^ (ds.drop k).length := by
    rw [length_drop]
    calc 2 ≤ base := hbase
      _ = base ^ 1 := (Nat.pow_one base).symm
      _ ≤ base ^ (ds.length - k) := Nat.pow_le_pow_right (by omega) (by omega)
  have hmul : number base (ds.take k) * 2 ≤ number base (ds.take k) * base ^ (ds.drop k).length :=
    Nat.mul_le_mul_left _ hpower
  omega

end Number

section Scan

variable {behind : List UInt8}

theorem leadingDigits_append {base : Nat} {ds : List UInt8} (hall : AllDigits base ds)
    (hbehind : ∀ c ∈ behind.head?, base ≤ digitValue c) :
    leadingDigits base (ds ++ behind) = ds.map digitValue := by
  unfold leadingDigits
  have hdigits : ∀ d ∈ ds.map digitValue, decide (d < base) = true := by
    intro d hd
    obtain ⟨c,hc,rfl⟩ := mem_map.mp hd
    exact decide_eq_true (hall c hc)
  rw [map_append,List.takeWhile_append_of_pos hdigits]
  cases behind with
  | nil => rw [map_nil,List.takeWhile_nil,append_nil]
  | cons c behind =>
    have hstop := hbehind c rfl
    rw [map_cons,List.takeWhile_cons_of_neg (by rw [decide_eq_true_eq]; omega),append_nil]

/-- What may stand behind a numeral: nothing, or a byte that is no digit and no letter of a prefix. -/
def Ends (behind : List UInt8) : Prop := ∀ c ∈ behind.head?, 16 ≤ digitValue c ∧ tolower c ≠ ch 'x'

theorem ends_nil : Ends [] := fun _ hc => nomatch hc

theorem isspace_cases {c : UInt8} (h : isspace c = true) : c = 9 ∨ c = 10 ∨ c = 11 ∨ c = 12 ∨ c = 13 ∨ c = 32 := by
  unfold isspace at h
  rw [Bool.or_eq_true,Bool.and_eq_true,decide_eq_true_eq,decide_eq_true_eq,decide_eq_true_eq,
    UInt8.le_iff_toNat_le,UInt8.le_iff_toNat_le] at h
  simp only [← UInt8.toNat_inj,UInt8.reduceToNat] at h ⊢
  omega

theorem digitValue_zero : digitValue (ch '0') = 0 := by decide

variable {digits : List UInt8} {m : Nat}

theorem splitBase_digits (h : IsDigits digits m) (hends : Ends behind) :
    ∃ base ds, splitBase (digits ++ behind) = (base, ds) ∧ ds ≠ [] ∧ number base ds = m := by
  have hstop (base : Nat) (hbase : base ≤ 16) : ∀ c ∈ behind.head?, base ≤ digitValue c :=
    fun c hc => Nat.le_trans hbase (hends c hc).1
  cases h with
  | @decimal d ds hfirst hall =>
    have hzero : d ≠ ch '0' := by
      rintro rfl
      exact hfirst digitValue_zero
    have hleading := leadingDigits_append hall (hstop 10 (by decide))
    refine ⟨10,(d :: ds).map digitValue,?_,by simp,rfl⟩
    rw [← hleading]
    cases hrest : ds ++ behind with
    | nil => rw [cons_append,hrest]; rfl
    | cons x rest =>
      rw [cons_append,hrest,splitBase,if_neg hzero]
  | @octal ds hall =>
    have hall' : AllDigits 8 (ch '0' :: ds) :=
      forall_mem_cons.mpr ⟨by rw [digitValue_zero]; decide,hall⟩
    have hvalue : number 8 ((ch '0' :: ds).map digitValue) = number 8 (ds.map digitValue) := by
      rw [map_cons,number_cons,digitValue_zero,Nat.zero_mul,Nat.zero_add]
    have hleading := leadingDigits_append hall' (hstop 8 (by decide))
    cases hrest : ds ++ behind with
    | nil =>
      obtain ⟨rfl,rfl⟩ := append_eq_nil_iff.mp hrest
      exact ⟨10,[0],rfl,by decide,rfl⟩
    | cons x rest =>
      have hx : tolower x ≠ ch 'x' := by
        cases ds with
        | nil =>
          rw [nil_append] at hrest
          rw [hrest] at hends
          exact (hends x rfl).2
        | cons d ds =>
          obtain rfl := (List.cons.inj hrest).1
          have hdigit := hall d (mem_cons_self ..)
          intro hlower
          have hsame : d = ch 'x' ∨ d = ch 'X' := by
            unfold tolower at hlower
            split at hlower
            · exact .inr (by rw [← UInt8.add_left_inj 32,hlower]; rfl)
            · exact .inl hlower
          rcases hsame with rfl | rfl <;> exact absurd hdigit (by decide)
      refine ⟨8,(ch '0' :: ds).map digitValue,?_,by simp,hvalue⟩
      rw [← hleading,cons_append,hrest,splitBase,if_pos rfl,if_neg hx]
  | @hex x ds hx hsome hall =>
    have hleading := leadingDigits_append hall (hstop 16 (Nat.le_refl _))
    refine ⟨16,ds.map digitValue,?_,by simpa using hsome,rfl⟩
    rw [← hleading,cons_append,cons_append,splitBase,if_pos rfl,if_pos hx]

theorem exists_digit (h : IsDigits digits m) : ∃ d ds, digits = d :: ds ∧ 48 ≤ d.toNat ∧ d.toNat ≤ 57 := by
  have hdecimal : ∀ d : UInt8, digitValue d < 10 → 48 ≤ d.toNat ∧ d.toNat ≤ 57 := by
    intro d hd
    unfold digitValue at hd
    simp only [UInt8.le_iff_toNat_le,UInt8.reduceToNat] at hd
    split_ifs at hd <;> omega
  cases h with
  | @decimal d ds _ hall => exact ⟨d,ds,rfl,hdecimal d (hall d (mem_cons_self ..))⟩
  | @octal ds _ => exact ⟨ch '0',ds,rfl,by decide⟩
  | @hex x ds _ _ _ => exact ⟨ch '0',x :: ds,rfl,by decide⟩

theorem splitSign_digits {sign : List UInt8} (hsign : IsSign sign) (h : IsDigits digits m) (behind : List UInt8) :
    splitSign ((sign ++ digits ++ behind).dropWhile isspace) =
      (decide (sign = [ch '-']), digits ++ behind) := by
  obtain ⟨d,ds,rfl,hlow,hhigh⟩ := exists_digit h
  obtain ⟨hspace,hminus,hplus⟩ := ne_of_digit hlow hhigh
  rcases hsign with rfl | rfl | rfl
  · rw [nil_append,cons_append,List.dropWhile_cons_of_neg (by simp [hspace]),splitSign,
      if_neg hminus,if_neg hplus]
    rfl
  · rfl
  · rfl

theorem scanInt_digits {sign : List UInt8} (hsign : IsSign sign) (h : IsDigits digits m) (hends : Ends behind) :
    scanInt (sign ++ digits ++ behind) = some (signed sign m) := by
  obtain ⟨base,ds,hsplit,hsome,hvalue⟩ := splitBase_digits h hends
  unfold scanInt
  dsimp only
  rw [splitSign_digits hsign h]
  dsimp only
  rw [hsplit,if_neg hsome,hvalue]
  unfold signed
  by_cases hminus : sign = [ch '-']
  · rw [if_pos (decide_eq_true hminus),if_pos hminus]
  · rw [if_neg (by rw [decide_eq_true_eq]; exact hminus),if_neg hminus]

theorem isDigits_take {k : Nat} (h : IsDigits digits m) (hk : 3 ≤ k) (hlong : k < digits.length) :
    ∃ less, IsDigits (digits.take k) less ∧ (less < m ∨ less = 0 ∧ m = 0) := by
  have htake {base : Nat} {ds : List UInt8} (hall : AllDigits base ds) (j : Nat) :
      AllDigits base (ds.take j) := fun d hd => hall d (List.mem_of_mem_take hd)
  obtain ⟨j,rfl⟩ : ∃ j, k = j + 1 := ⟨k - 1,by omega⟩
  cases h with
  | @decimal d ds hfirst hall =>
    refine ⟨_,.decimal hfirst (htake hall (j + 1)),?_⟩
    rw [← List.take_succ_cons,List.map_take]
    exact number_take (by decide) (by rwa [length_map])
  | @octal ds hall =>
    refine ⟨_,.octal (htake hall j),?_⟩
    rw [List.map_take]
    exact number_take (by decide) (by rw [length_map]; simpa using hlong)
  | @hex x ds hx hsome hall =>
    obtain ⟨i,rfl⟩ : ∃ i, j = i + 1 := ⟨j - 1,by omega⟩
    have hsome' : ds.take i ≠ [] := by
      intro hnil
      rcases List.take_eq_nil_iff.mp hnil with hi | hds
      · omega
      · exact hsome hds
    refine ⟨_,.hex hx hsome' (htake hall i),?_⟩
    rw [List.map_take]
    exact number_take (by decide) (by rw [length_map]; simpa using hlong)

theorem digits_plain (h : IsDigits digits m) : ch ',' ∉ digits ∧ ch ')' ∉ digits := by
  have hdigits {base : Nat} {ds : List UInt8} (hbase : base ≤ 16) (hall : AllDigits base ds) :
      ch ',' ∉ ds ∧ ch ')' ∉ ds :=
    ⟨fun hc => absurd (Nat.lt_of_lt_of_le (hall _ hc) hbase) (by decide),
      fun hc => absurd (Nat.lt_of_lt_of_le (hall _ hc) hbase) (by decide)⟩
  cases h with
  | @decimal d ds _ hall => exact hdigits (by decide) hall
  | @octal ds hall =>
    obtain ⟨hcomma,hparen⟩ := hdigits (by decide) hall
    exact ⟨List.not_mem_cons_of_ne_of_not_mem (by decide) hcomma,
      List.not_mem_cons_of_ne_of_not_mem (by decide) hparen⟩
  | @hex x ds hx _ hall =>
    obtain ⟨hcomma,hparen⟩ := hdigits (Nat.le_refl _) hall
    have hx' : ch ',' ≠ x ∧ ch ')' ≠ x := by
      constructor <;> rintro rfl <;> exact absurd hx (by decide)
    exact ⟨List.not_mem_cons_of_ne_of_not_mem (by decide)
        (List.not_mem_cons_of_ne_of_not_mem hx'.1 hcomma),
      List.not_mem_cons_of_ne_of_not_mem (by decide) (List.not_mem_cons_of_ne_of_not_mem hx'.2 hparen)⟩

end Scan

namespace Numeral

variable {low high : Int} (n : Numeral low high)

def Fits : Prop := n.text.length ≤ 31 ∨ n.value = 0

variable {behind : List UInt8}

theorem ends_of_blank (h : ∀ c ∈ behind, isspace c = true) : Ends behind := by
  intro c hc
  rcases isspace_cases (h c (List.mem_of_mem_head? hc)) with rfl | rfl | rfl | rfl | rfl | rfl <;> decide

theorem sign_length_le : n.sign.length ≤ 1 := by
  rcases n.isSign with h | h | h <;> rw [h] <;> decide

theorem scanInt_short (hends : Ends behind) :
    scanInt (n.text ++ behind) = some n.value := scanInt_digits n.isSign n.isDigits hends

theorem read_short (h : n.text.length ≤ 31) : n.read = n.value := by
  have hscan := n.scanInt_short ends_nil
  rw [append_nil] at hscan
  rw [read,take_of_length_le h,hscan,getD_some]

theorem scanInt_long (h : 31 < n.text.length) : ∃ less, scanInt (n.text.take 31) = some (signed n.sign less) ∧
      (less < n.magnitude ∨ less = 0 ∧ n.magnitude = 0) := by
  have hsign := n.sign_length_le
  unfold text at h ⊢
  rw [length_append] at h
  obtain ⟨less,hdigits,hless⟩ := isDigits_take (k := 31 - n.sign.length) n.isDigits (by omega) (by omega)
  refine ⟨less,?_,hless⟩
  have hscan := scanInt_digits n.isSign hdigits ends_nil
  rw [append_nil] at hscan
  rw [take_append,take_of_length_le (by omega),hscan]

theorem read_cases : n.Fits ∧ n.read = n.value ∨
      ¬n.Fits ∧ (0 ≤ n.read ∧ n.read < n.value ∨ n.value < n.read ∧ n.read ≤ 0) := by
  by_cases hshort : n.text.length ≤ 31
  · exact .inl ⟨.inl hshort,n.read_short hshort⟩
  obtain ⟨less,hscan,hless⟩ := n.scanInt_long (by omega)
  have hread : n.read = signed n.sign less := by rw [read,hscan,getD_some]
  unfold Fits
  rw [hread]
  unfold value signed
  by_cases hminus : n.sign = [ch '-']
  · simp only [hminus,if_true,hshort,false_or]
    omega
  · simp only [hminus,if_false,hshort,false_or]
    omega

theorem sscanfInt_text (hbehind : ∀ c ∈ behind, isspace c = true)
    (hlow : -0x80000000 ≤ low) (hhigh : high ≤ 0x80000000) :
    sscanfInt ((n.text ++ behind).take 31) = some (Int32.ofInt n.read) := by
  have hscan : scanInt ((n.text ++ behind).take 31) = some n.read := by
    by_cases hshort : n.text.length ≤ 31
    · have hrest : ∀ c ∈ behind.take (31 - n.text.length), isspace c = true :=
        fun c hc => hbehind c (List.mem_of_mem_take hc)
      rw [take_append,take_of_length_le hshort,n.scanInt_short (ends_of_blank hrest),n.read_short hshort]
    · obtain ⟨less,hlong,-⟩ := n.scanInt_long (by omega)
      rw [take_append_of_le_length (by omega),read,hlong,getD_some]
  have hrange := n.inRange
  have hvalue : n.value = signed n.sign n.magnitude := rfl
  have hcases := n.read_cases
  unfold sscanfInt
  rw [hscan,map_some]
  congr 2
  omega

theorem value_nonneg (hlow : 0 ≤ low) : 0 ≤ n.value := Int.le_trans hlow n.inRange.1

theorem text_plain : n.text ≠ [] ∧ (∀ c ∈ n.text.head?, isspace c = false) ∧ ch ',' ∉ n.text ∧ ch ')' ∉ n.text := by
  have hclean := digits_plain n.isDigits
  obtain ⟨d,ds,hd,hlow,hhigh⟩ := exists_digit n.isDigits
  obtain ⟨hspace,-,-⟩ := ne_of_digit hlow hhigh
  have hsign : ch ',' ∉ n.sign ∧ ch ')' ∉ n.sign := by
    rcases n.isSign with h | h | h <;> rw [h] <;> decide
  refine ⟨?_,?_,fun hc => (mem_append.mp hc).elim hsign.1 hclean.1,
    fun hc => (mem_append.mp hc).elim hsign.2 hclean.2⟩
  · unfold text
    rw [hd]
    exact List.append_ne_nil_of_right_ne_nil _ (cons_ne_nil _ _)
  · unfold text
    rw [hd]
    rcases n.isSign with h | h | h <;> rw [h] <;> intro c hc <;> obtain rfl := Option.some.inj hc
    · exact hspace
    · decide
    · decide

end Numeral

end LinuxDvb.Sec
