import LinuxDvb.Framework.Lists

/-!
# Text

Files and C strings are lists of bytes; a string does not contain its terminating zero. Numbers are printed
as `%i` does, and read as `%i` of `scanf` and as `atoi` do.
-/

namespace LinuxDvb

namespace ByElements

/-- What holds of all elements is decided along the list, also if the type of the elements is finite. -/
scoped instance (priority := high) decidableForallMemList {α : Type} {p : α → Prop} [DecidablePred p]
    (l : List α) : Decidable (∀ a ∈ l, p a) := List.decidableBAll p l

scoped instance (priority := high) decidableForallMemOption {α : Type} {p : α → Prop} [DecidablePred p]
    (o : Option α) : Decidable (∀ a ∈ o, p a) := Option.decidableForallMem o

end ByElements

def ch (c : Char) : UInt8 := UInt8.ofNat c.toNat

def bytes (s : String) : List UInt8 := s.toList.map ch

def isspace (c : UInt8) : Bool := c = 32 || (9 ≤ c && c ≤ 13)

def tolower (c : UInt8) : UInt8 := if 65 ≤ c ∧ c ≤ 90 then c + 32 else c

/-- `strstr(haystack, needle) != NULL` -/
def strstr (haystack needle : List UInt8) : Bool := decide (needle <:+: haystack)

/-- What successive calls of `getline` read, each line with its newline. -/
def getlines : List UInt8 → List (List UInt8)
  | [] => []
  | c :: text =>
    if c = ch '\n' then [c] :: getlines text
    else
      match getlines text with
      | [] => [[c]]
      | line :: lines => (c :: line) :: lines

theorem getlines_append {line : List UInt8} (h : ch '\n' ∉ line) (text : List UInt8) :
    getlines (line ++ ch '\n' :: text) = (line ++ [ch '\n']) :: getlines text := by
  induction line with
  | nil => rfl
  | cons c line ih =>
    rw [mem_cons,not_or] at h
    rw [cons_append,getlines,if_neg (Ne.symm h.1),ih h.2]
    rfl

def unlines (lines : List (List UInt8)) : List UInt8 := (lines.map (· ++ [ch '\n'])).flatten

theorem getlines_unlines {lines : List (List UInt8)} (h : ∀ line ∈ lines, ch '\n' ∉ line) :
    getlines (unlines lines) = lines.map (· ++ [ch '\n']) := by
  induction lines with
  | nil => rfl
  | cons line lines ih =>
    obtain ⟨hline,hrest⟩ := forall_mem_cons.mp h
    have hsplit : unlines (line :: lines) = line ++ ch '\n' :: unlines lines := by
      simp [unlines]
    rw [hsplit,getlines_append hline,ih hrest]
    rfl

section Numbers

def formatNat (n : Nat) : List UInt8 := (Nat.toDigits 10 n).map ch

/-- `%i` in `printf` -/
def formatInt (n : Int) : List UInt8 :=
  if n < 0 then ch '-' :: formatNat n.natAbs else formatNat n.natAbs

def digitValue (c : UInt8) : Nat :=
  if 48 ≤ c ∧ c ≤ 57 then c.toNat - 48
  else if 97 ≤ c ∧ c ≤ 102 then c.toNat - 87
  else if 65 ≤ c ∧ c ≤ 70 then c.toNat - 55
  else 255

def leadingDigits (base : Nat) (text : List UInt8) : List Nat :=
  (text.map digitValue).takeWhile fun d => decide (d < base)

def number (base : Nat) (digits : List Nat) : Nat := digits.foldl (fun n d => base * n + d) 0

def splitSign : List UInt8 → Bool × List UInt8
  | c :: text =>
    if c = ch '-' then (true, text) else if c = ch '+' then (false, text) else (false, c :: text)
  | [] => (false, [])

def splitBase : List UInt8 → Nat × List Nat
  | c :: x :: text =>
    if c = ch '0' then
      if tolower x = ch 'x' then (16, leadingDigits 16 text) else (8, leadingDigits 8 (c :: x :: text))
    else (10, leadingDigits 10 (c :: x :: text))
  | text => (10, leadingDigits 10 text)

/-- `%i` in `sscanf`: the number, if there is one. -/
def scanInt (text : List UInt8) : Option Int :=
  let signed := splitSign (text.dropWhile isspace)
  let based := splitBase signed.2
  if based.2 = [] then none
  else some (if signed.1 then -(number based.1 based.2 : Int) else number based.1 based.2)

/-- `atoi(text)` -/
def atoi (text : List UInt8) : Int :=
  let signed := splitSign (text.dropWhile isspace)
  let value := number 10 (leadingDigits 10 signed.2)
  if signed.1 then -(value : Int) else value

theorem toNat_ch {c : Char} (h : c.isDigit = true) : (ch c).toNat = c.toNat ∧ 48 ≤ c.toNat ∧ c.toNat ≤ 57 := by
  obtain ⟨hlow,hhigh⟩ : 48 ≤ c.toNat ∧ c.toNat ≤ 57 := Char.isDigit_iff_toNat.mp h
  refine ⟨?_,hlow,hhigh⟩
  rw [ch,UInt8.toNat_ofNat',Nat.mod_eq_of_lt (by omega)]

theorem digitValue_of_le {c : UInt8} (hlow : 48 ≤ c.toNat) (hhigh : c.toNat ≤ 57) :
    digitValue c = c.toNat - 48 := if_pos ⟨hlow, hhigh⟩

theorem isDigit_of_mem {n : Nat} {c : UInt8} (h : c ∈ formatNat n) : 48 ≤ c.toNat ∧ c.toNat ≤ 57 := by
  obtain ⟨digit,hdigit,rfl⟩ := mem_map.mp h
  obtain ⟨htoNat,hrange⟩ := toNat_ch (Nat.isDigit_of_mem_toDigits (by decide) (by decide) hdigit)
  rwa [htoNat]

theorem digitValue_formatNat (n : Nat) :
    (formatNat n).map digitValue = (Nat.toDigits 10 n).map fun c => c.toNat - 48 := by
  rw [formatNat,map_map]
  apply map_congr_left
  intro digit hdigit
  obtain ⟨htoNat,hlow,hhigh⟩ := toNat_ch (Nat.isDigit_of_mem_toDigits (by decide) (by decide) hdigit)
  rw [Function.comp_apply,digitValue_of_le (by omega) (by omega),htoNat]

theorem number_formatNat (n : Nat) : number 10 (leadingDigits 10 (formatNat n)) = n := by
  have hall : leadingDigits 10 (formatNat n) = (formatNat n).map digitValue := by
    apply List.takeWhile_eq_self_iff.mpr
    intro d hd
    obtain ⟨c,hc,rfl⟩ := mem_map.mp hd
    obtain ⟨hlow,hhigh⟩ := isDigit_of_mem hc
    rw [digitValue_of_le hlow hhigh]
    exact decide_eq_true (by omega)
  rw [hall,digitValue_formatNat,number,List.foldl_map]
  exact Nat.ofDigitChars_toDigits (by decide) (by decide)

theorem formatNat_of_lt {n : Nat} (h : n < 10) : formatNat n = [ch n.digitChar] := by
  rw [formatNat,Nat.toDigits_of_lt_base h]
  rfl

theorem exists_formatNat (n : Nat) :
    ∃ c text, formatNat n = c :: text ∧ 48 ≤ c.toNat ∧ c.toNat ≤ 57 ∧ (0 < n → c ≠ ch '0') := by
  induction n using Nat.strongRecOn with
  | ind n ih =>
    by_cases hn : n < 10
    · have hdigit : ∀ n < 10, 48 ≤ (ch n.digitChar).toNat ∧ (ch n.digitChar).toNat ≤ 57 ∧
          (0 < n → ch n.digitChar ≠ ch '0') := by decide
      exact ⟨_,[],formatNat_of_lt hn,hdigit n hn⟩
    · obtain ⟨c,text,hformat,hlow,hhigh,hzero⟩ := ih (n / 10) (by omega)
      refine ⟨c,text ++ [ch (n % 10).digitChar],?_,hlow,hhigh,fun _ => hzero (by omega)⟩
      rw [formatNat,Nat.toDigits_of_base_le (by decide) (by omega),map_append]
      change formatNat (n / 10) ++ _ = _
      rw [hformat]
      rfl

theorem splitBase_formatNat (n : Nat) : splitBase (formatNat n) = (10, leadingDigits 10 (formatNat n)) := by
  by_cases hn : n < 10
  · rw [formatNat_of_lt hn]
    rfl
  · obtain ⟨c,text,hformat,-,-,hzero⟩ := exists_formatNat n
    rw [hformat]
    cases text with
    | nil => rfl
    | cons x text =>
      rw [splitBase,if_neg (hzero (by omega))]

theorem ne_of_digit {c : UInt8} (hlow : 48 ≤ c.toNat) (hhigh : c.toNat ≤ 57) :
    isspace c = false ∧ c ≠ ch '-' ∧ c ≠ ch '+' := by
  obtain ⟨d,hd,rfl⟩ : ∃ d < 10, c = UInt8.ofNat (48 + d) := by
    refine ⟨c.toNat - 48,by omega,?_⟩
    rw [Nat.add_sub_cancel' hlow,UInt8.ofNat_toNat]
  have hdigits : ∀ d < 10, isspace (UInt8.ofNat (48 + d)) = false ∧ UInt8.ofNat (48 + d) ≠ ch '-' ∧
      UInt8.ofNat (48 + d) ≠ ch '+' := by decide
  exact hdigits d hd

theorem splitSign_formatNat (n : Nat) : (formatNat n).dropWhile isspace = formatNat n ∧
    splitSign (formatNat n) = (false, formatNat n) := by
  obtain ⟨c,text,hformat,hlow,hhigh,-⟩ := exists_formatNat n
  obtain ⟨hspace,hminus,hplus⟩ := ne_of_digit hlow hhigh
  rw [hformat]
  refine ⟨List.dropWhile_cons_of_neg (by simp [hspace]),?_⟩
  rw [splitSign,if_neg hminus,if_neg hplus]

theorem leadingDigits_formatNat_ne_nil (n : Nat) : leadingDigits 10 (formatNat n) ≠ [] := by
  obtain ⟨c,text,hformat,hlow,hhigh,-⟩ := exists_formatNat n
  have hdigit : digitValue c < 10 := by
    rw [digitValue_of_le hlow hhigh]
    omega
  rw [hformat,leadingDigits,map_cons,takeWhile_cons,if_pos (decide_eq_true hdigit)]
  exact cons_ne_nil _ _

theorem scanInt_formatInt (n : Int) : scanInt (formatInt n) = some n := by
  have hvalue : ∀ m : Nat, ∀ negative : Bool,
      (if (splitBase (formatNat m)).2 = [] then none
        else some (if negative then -(number (splitBase (formatNat m)).1 (splitBase (formatNat m)).2 : Int)
          else number (splitBase (formatNat m)).1 (splitBase (formatNat m)).2)) =
        some (if negative then -(m : Int) else m) := by
    intro m negative
    rw [splitBase_formatNat,if_neg (leadingDigits_formatNat_ne_nil m),number_formatNat]
  unfold scanInt formatInt
  by_cases hn : n < 0
  · have hsign : splitSign ((ch '-' :: formatNat n.natAbs).dropWhile isspace) = (true, formatNat n.natAbs) := rfl
    rw [if_pos hn]
    dsimp only
    rw [hsign,hvalue]
    congr 1
    change -(n.natAbs : Int) = n
    omega
  · obtain ⟨hblank,hsign⟩ := splitSign_formatNat n.natAbs
    rw [if_neg hn]
    dsimp only
    rw [hblank,hsign,hvalue]
    congr 1
    change (n.natAbs : Int) = n
    omega

theorem of_mem_formatInt {n : Int} {c : UInt8} (h : c ∈ formatInt n) : c = ch '-' ∨ 48 ≤ c.toNat ∧ c.toNat ≤ 57 := by
  unfold formatInt at h
  split at h
  · rcases mem_cons.mp h with hsign | hdigit
    · exact .inl hsign
    · exact .inr (isDigit_of_mem hdigit)
  · exact .inr (isDigit_of_mem h)

end Numbers

end LinuxDvb
