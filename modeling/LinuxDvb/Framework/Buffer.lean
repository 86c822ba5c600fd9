import LinuxDvb.Framework.Lists

/-!
# Buffers with checked accesses

A C buffer of known size is the list of its bytes. Every access is checked, and `none` stands for an access
outside the buffer. Words are read as a little-endian host reads them.

An iterator over a buffer is a loop `for (pos = first; pos; pos = next(pos))`, in which `first` and `next`
read the buffer and may give no further position.
-/

namespace LinuxDvb

section Words

variable {buf pre : List UInt8} {pos : Nat}

/-- The word at `buf + pos`. -/
def word16 (buf : List UInt8) (pos : Nat) : Option Nat :=
  match buf[pos]?, buf[pos + 1]? with
  | some low, some high => some (low.toNat + 256 * high.toNat)
  | _, _ => none

/-- `bswap16(buf + pos)`. -/
def bswap16 (buf : List UInt8) (pos : Nat) : Option (List UInt8) :=
  match buf[pos]?, buf[pos + 1]? with
  | some a, some b => some ((buf.set pos b).set (pos + 1) a)
  | _, _ => none

/-- A word of `n` bytes at `buf + pos` in the other order. -/
def swapBytes (n : Nat) (buf : List UInt8) (pos : Nat) : Option (List UInt8) :=
  if pos + n ≤ buf.length then some (buf.take pos ++ (((buf.drop pos).take n).reverse ++ buf.drop (pos + n))) else none

/-- `bswap24(buf + pos)` -/
def bswap24 (buf : List UInt8) (pos : Nat) : Option (List UInt8) := swapBytes 3 buf pos

/-- `bswap32(buf + pos)` -/
def bswap32 (buf : List UInt8) (pos : Nat) : Option (List UInt8) := swapBytes 4 buf pos

/-- `bswap64(buf + pos)` -/
def bswap64 (buf : List UInt8) (pos : Nat) : Option (List UInt8) := swapBytes 8 buf pos

def be16 (n : Nat) : List UInt8 := [UInt8.ofNat (n / 256), UInt8.ofNat n]

def le16 (n : Nat) : List UInt8 := [UInt8.ofNat n, UInt8.ofNat (n / 256)]

@[simp] theorem length_be16 (n : Nat) : (be16 n).length = 2 := rfl

@[simp] theorem length_le16 (n : Nat) : (le16 n).length = 2 := rfl

theorem getElem?_behind (pre buf : List UInt8) (pos : Nat) : (pre ++ buf)[pre.length + pos]? = buf[pos]? := by
  rw [List.getElem?_append_right (Nat.le_add_right _ _),Nat.add_sub_cancel_left]

theorem word16_behind (pre buf : List UInt8) (pos : Nat) : word16 (pre ++ buf) (pre.length + pos) = word16 buf pos := by
  unfold word16
  rw [Nat.add_assoc,getElem?_behind,getElem?_behind]

theorem word16_before {buf' : List UInt8} (h : pos + 1 < pre.length) :
    word16 (pre ++ buf) pos = word16 (pre ++ buf') pos := by
  unfold word16
  rw [getElem?_append_left h,getElem?_append_left h,
    getElem?_append_left (Nat.lt_of_succ_lt h),getElem?_append_left (Nat.lt_of_succ_lt h)]

theorem bswap16_behind (pre buf : List UInt8) (pos : Nat) :
    bswap16 (pre ++ buf) (pre.length + pos) = (bswap16 buf pos).map (pre ++ ·) := by
  unfold bswap16
  rw [Nat.add_assoc,getElem?_behind,getElem?_behind]
  split
  · rw [List.set_append_right _ _ (Nat.le_add_right _ _),List.set_append_right _ _ (Nat.le_add_right _ _),
      Nat.add_sub_cancel_left,Nat.add_sub_cancel_left]
    rfl
  · rfl

theorem bswap16_be16 (pre : List UInt8) (n : Nat) (rest : List UInt8) :
    bswap16 (pre ++ (be16 n ++ rest)) pre.length = some (pre ++ (le16 n ++ rest)) :=
  bswap16_behind pre (be16 n ++ rest) 0

theorem swapBytes_at (pre word rest : List UInt8) :
    swapBytes word.length (pre ++ (word ++ rest)) pre.length = some (pre ++ (word.reverse ++ rest)) := by
  have hlen : pre.length + word.length ≤ (pre ++ (word ++ rest)).length := by
    rw [length_append,length_append]
    omega
  rw [swapBytes,if_pos hlen,take_left,drop_left,take_left,← drop_drop,drop_left,
    drop_left]

theorem word16_le16 {n : Nat} (h : n < 65536) (rest : List UInt8) : word16 (le16 n ++ rest) 0 = some n := by
  have hsplit : n % 256 + 256 * (n / 256 % 256) = n := by omega
  simp [word16,le16,hsplit]

theorem be16_inj {n m : Nat} (hn : n < 65536) (hm : m < 65536) (h : be16 n = be16 m) : n = m := by
  injection h with hhigh hlow
  injection hlow with hlow _
  have hhigh' := congrArg UInt8.toNat hhigh
  have hlow' := congrArg UInt8.toNat hlow
  rw [UInt8.toNat_ofNat',UInt8.toNat_ofNat'] at hhigh' hlow'
  omega

theorem exists_be16 (a b : UInt8) : ∃ n, n < 65536 ∧ [a, b] = be16 n := by
  refine ⟨256 * a.toNat + b.toNat,?_,?_⟩
  · have ha := a.toNat_lt
    have hb := b.toNat_lt
    omega
  · have hhigh : (256 * a.toNat + b.toNat) / 256 = a.toNat := by
      have hb := b.toNat_lt
      omega
    unfold be16
    rw [hhigh,UInt8.ofNat_toNat]
    congr 2
    apply UInt8.toNat_inj.mp
    have hb := b.toNat_lt
    rw [UInt8.toNat_ofNat']
    omega

theorem exists_uint16 (a b : UInt8) : ∃ w : UInt16, [a, b] = be16 w.toNat := by
  obtain ⟨n,hn,heq⟩ := exists_be16 a b
  refine ⟨UInt16.ofNat n,heq.trans ?_⟩
  rw [UInt16.toNat_ofNat',Nat.mod_eq_of_lt hn]

end Words

section Iterators

variable {next : Nat → Option (Option Nat)} {base pos stop : Nat} {items : List (List UInt8)}

/-- The positions that the loop visits, if it ends within the fuel and no access is outside the buffer. -/
def forEach (next : Nat → Option (Option Nat)) : Nat → Option Nat → Option (List Nat)
  | _, none => some []
  | 0, some _ => none
  | fuel + 1, some pos =>
    match next pos with
    | none => none
    | some following => (forEach next fuel following).map (pos :: ·)

/-- The loop ends, all its accesses are inside the buffer, and it visits these positions. -/
def Visits (next : Nat → Option (Option Nat)) (first : Option Nat) (visited : List Nat) : Prop :=
  ∃ fuel, forEach next fuel first = some visited

theorem visits_none : Visits next none [] := ⟨0, rfl⟩

theorem Visits.cons {following : Option Nat} {visited : List Nat} (h : next pos = some following)
    (hrest : Visits next following visited) : Visits next (some pos) (pos :: visited) := by
  obtain ⟨fuel,hfuel⟩ := hrest
  refine ⟨fuel + 1,?_⟩
  rw [forEach,h]
  dsimp only
  rw [hfuel]
  rfl

def starts : Nat → List (List UInt8) → List Nat
  | _, [] => []
  | base, item :: items => base :: starts (base + item.length) items

def StandsAt (buf : List UInt8) (pos : Nat) (bytes : List UInt8) : Prop :=
  ∃ left right, buf = left ++ (bytes ++ right) ∧ left.length = pos

theorem StandsAt.left {buf xs ys : List UInt8} (h : StandsAt buf pos (xs ++ ys)) : StandsAt buf pos xs := by
  obtain ⟨left,right,rfl,hpos⟩ := h
  exact ⟨left,ys ++ right,by rw [append_assoc],hpos⟩

theorem StandsAt.right {buf xs ys : List UInt8} (h : StandsAt buf pos (xs ++ ys)) :
    StandsAt buf (pos + xs.length) ys := by
  obtain ⟨left,right,rfl,hpos⟩ := h
  refine ⟨left ++ xs,right,?_,?_⟩
  · rw [append_assoc,append_assoc]
  · rw [length_append,hpos]

theorem StandsAt.getElem? {buf bytes : List UInt8} (h : StandsAt buf pos bytes) {i : Nat}
    (hi : i < bytes.length) : buf[pos + i]? = bytes[i]? := by
  obtain ⟨left,right,rfl,rfl⟩ := h
  rw [getElem?_behind,getElem?_append_left hi]

theorem StandsAt.word16 {buf bytes : List UInt8} (h : StandsAt buf pos bytes) {i : Nat}
    (hi : i + 1 < bytes.length) : LinuxDvb.word16 buf (pos + i) = LinuxDvb.word16 bytes i := by
  unfold LinuxDvb.word16
  rw [Nat.add_assoc,h.getElem? hi,h.getElem? (Nat.lt_of_succ_lt hi)]

theorem starts_within (hmin : ∀ item ∈ items, 2 ≤ item.length) (hpos : pos ∈ starts base items) :
    base ≤ pos ∧ pos + 2 ≤ base + items.flatten.length := by
  induction items generalizing base with
  | nil => cases hpos
  | cons item items ih =>
    have hitem := hmin item mem_cons_self
    rw [flatten_cons,length_append]
    rw [starts,mem_cons] at hpos
    cases hpos with
    | inl heq => omega
    | inr hrest =>
      have hwithin := ih (fun item' h => hmin item' (mem_cons_of_mem _ h)) hrest
      omega

@[simp] theorem length_starts (base : Nat) (items : List (List UInt8)) : (starts base items).length = items.length := by
  induction items generalizing base with
  | nil => rfl
  | cons item items ih => rw [starts,length_cons,ih,length_cons]

theorem standsAt_of_mem {buf item : List UInt8} (h : StandsAt buf base items.flatten)
    (hitem : (pos, item) ∈ (starts base items).zip items) : StandsAt buf pos item := by
  induction items generalizing base with
  | nil => cases hitem
  | cons first items ih =>
    rw [flatten_cons] at h
    rw [starts,List.zip_cons_cons,mem_cons] at hitem
    rcases hitem with heq | hrest
    · cases heq
      exact h.left
    · exact ih h.right hrest

/-- Iterator rule: a loop that goes from each item to the byte behind it, until it comes to the end of the
items, visits exactly their starts. -/
theorem visits_starts (hitems : ∀ item ∈ items, item ≠ []) (hstop : base + items.flatten.length = stop)
    (hnext : ∀ pos item, (pos, item) ∈ (starts base items).zip items →
      next pos = some (if pos + item.length ≥ stop then none else some (pos + item.length))) :
    Visits next (if items = [] then none else some base) (starts base items) := by
  induction items generalizing base with
  | nil => exact visits_none
  | cons item items ih =>
    rw [if_neg (cons_ne_nil _ _),starts]
    apply Visits.cons (hnext base item mem_cons_self)
    rw [flatten_cons,length_append,← Nat.add_assoc] at hstop
    have hrest := ih (fun item' h => hitems item' (mem_cons_of_mem _ h)) hstop
      fun pos item' h => hnext pos item' (mem_cons_of_mem _ h)
    cases items with
    | nil =>
      rw [flatten_nil,length_nil,Nat.add_zero] at hstop
      rw [if_pos (Nat.le_of_eq hstop.symm)]
      exact hrest
    | cons item' items =>
      have hlength : 0 < item'.length :=
        length_pos_iff.mpr (hitems item' (mem_cons_of_mem _ mem_cons_self))
      rw [flatten_cons,length_append] at hstop
      rw [if_neg (by omega)]
      rwa [if_neg (cons_ne_nil _ _)] at hrest

/-- The loop visits exactly these items, which stand one behind the other from `base` on. -/
def Enumerates (buf : List UInt8) (first : Option (Option Nat)) (next : Nat → Option (Option Nat))
    (base : Nat) (items : List (List UInt8)) : Prop :=
  StandsAt buf base items.flatten ∧ ∃ pos, first = some pos ∧ Visits next pos (starts base items)

/-- The same for a loop `for (pos = first, idx = 0; pos; pos = next(pos, ++idx))`, from an index on. -/
def forEachCounted (next : Nat → Nat → Option (Option Nat)) : Nat → Nat → Option Nat → Option (List Nat)
  | _, _, none => some []
  | 0, _, some _ => none
  | fuel + 1, idx, some pos =>
    match next pos (idx + 1) with
    | none => none
    | some following => (forEachCounted next fuel (idx + 1) following).map (pos :: ·)

/-- Iterator rule: a loop that goes from each item to the byte behind it, until it has counted them all, visits exactly
their starts. -/
theorem forEachCounted_starts {next : Nat → Nat → Option (Option Nat)} {idx count fuel : Nat}
    (hcount : idx + items.length = count) (hfuel : items.length ≤ fuel)
    (hnext : ∀ pos item, (pos, item) ∈ (starts base items).zip items →
      ∀ idx, next pos idx = some (if idx ≥ count then none else some (pos + item.length))) :
    forEachCounted next fuel idx (if items = [] then none else some base) = some (starts base items) := by
  induction items generalizing base idx fuel with
  | nil =>
    rw [if_pos rfl]
    cases fuel <;> rfl
  | cons item items ih =>
    cases fuel with
    | zero => exact absurd hfuel (Nat.not_succ_le_zero _)
    | succ fuel =>
      rw [length_cons] at hcount hfuel
      have hcount' : idx + 1 + items.length = count := by omega
      have hfuel' : items.length ≤ fuel := by omega
      have hrest := ih hcount' hfuel'
        fun pos item' h => hnext pos item' (mem_cons_of_mem _ h)
      have hlast : idx + 1 ≥ count ↔ items = [] := by
        rw [← length_eq_zero_iff]
        omega
      rw [if_neg (cons_ne_nil _ _),forEachCounted,hnext base item mem_cons_self]
      simp only [hlast]
      rw [hrest]
      rfl

/-- The counted loop ends, all its accesses are inside the buffer, and it visits exactly these items. -/
def EnumeratesCounted (buf : List UInt8) (first : Option (Option Nat)) (next : Nat → Nat → Option (Option Nat))
    (base : Nat) (items : List (List UInt8)) : Prop :=
  StandsAt buf base items.flatten ∧
    ∃ pos, first = some pos ∧ ∃ fuel, forEachCounted next fuel 0 pos = some (starts base items)

theorem ofNat_length_eq_zero {α : Type} {values : List α} (h : values.length < 256) :
    UInt8.ofNat values.length = 0 ↔ values = [] := by
  have hnat : (UInt8.ofNat values.length).toNat = values.length := UInt8.toNat_ofNat_of_lt h
  rw [← UInt8.toNat_inj,hnat]
  exact length_eq_zero_iff

theorem foldlM_starts {step : Nat → Nat → Option Nat}
    (hstep : ∀ pos item, (pos, item) ∈ (starts base items).zip items → ∀ sum, step sum pos = some (sum + item.length))
    (sum : Nat) : (starts base items).foldlM step sum = some (sum + items.flatten.length) := by
  induction items generalizing base sum with
  | nil => rfl
  | cons item items ih =>
    have hrest := ih (fun pos item' h => hstep pos item' (mem_cons_of_mem _ h)) (sum + item.length)
    rw [starts,List.foldlM_cons,hstep base item mem_cons_self,flatten_cons,length_append,
      ← Nat.add_assoc]
    exact hrest

theorem mem_starts_map {α : Type} {bytes : α → List UInt8} {values : List α} {value : α}
    (h : (pos, value) ∈ (starts base (values.map bytes)).zip values) :
    (pos, bytes value) ∈ (starts base (values.map bytes)).zip (values.map bytes) := by
  rw [List.zip_map_right]
  exact mem_map.mpr ⟨_,h,rfl⟩

theorem of_mem_starts_map {α : Type} {bytes : α → List UInt8} {values : List α} {item : List UInt8}
    (h : (pos, item) ∈ (starts base (values.map bytes)).zip (values.map bytes)) :
    ∃ value, (pos, value) ∈ (starts base (values.map bytes)).zip values ∧ item = bytes value := by
  rw [List.zip_map_right] at h
  obtain ⟨⟨pos',value⟩,hmem,heq⟩ := mem_map.mp h
  cases heq
  exact ⟨value,hmem,rfl⟩

end Iterators

end LinuxDvb
