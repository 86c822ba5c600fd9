import LinuxDvb.Framework.Buffer

/-!
# Decoding in place

A decoder goes through a buffer and brings its words into the order of the host where they stand, or refuses the
buffer and leaves it as it is then.
-/

namespace LinuxDvb

inductive ByteOrder where
  | transmission
  | host

namespace ByteOrder

def word (order : ByteOrder) (n : Nat) : List UInt8 :=
  match order with
  | transmission => be16 n
  | host => le16 n

def field (order : ByteOrder) (bytes : List UInt8) : List UInt8 :=
  match order with
  | transmission => bytes
  | host => bytes.reverse

@[simp] theorem length_word (order : ByteOrder) (n : Nat) : (order.word n).length = 2 := by
  cases order <;> rfl

@[simp] theorem length_field (order : ByteOrder) (bytes : List UInt8) : (order.field bytes).length = bytes.length := by
  cases order with
  | transmission => rfl
  | host => exact length_reverse

end ByteOrder

/-- A function on a buffer: `none` for an access outside of it, and else what it gives, or `none` if it refuses the
buffer, with the buffer as it leaves it. -/
def InPlace (α : Type) := List UInt8 → Option (Option α × List UInt8)

namespace InPlace

variable {α β : Type}

instance : Monad InPlace where
  pure a := fun buf => some (some a, buf)
  bind p q := fun buf =>
    match p buf with
    | none => none
    | some (none, buf) => some (none, buf)
    | some (some a, buf) => q a buf

theorem bind_eq (p : InPlace α) (q : α → InPlace β) (buf : List UInt8) :
    (p >>= q) buf = (p buf).bind fun r => r.1.elim (some (none, r.2)) fun a => q a r.2 := by
  change (match p buf with
    | none => none
    | some (none, buf) => some (none, buf)
    | some (some a, buf) => q a buf) = _
  cases p buf with
  | none => rfl
  | some r =>
    obtain ⟨a,buf⟩ := r
    cases a with
    | none => rfl
    | some a => rfl

theorem id_map' (p : InPlace α) : id <$> p = p := by
  funext buf
  change (p >>= fun a => pure (id a)) buf = p buf
  rw [bind_eq]
  cases p buf with
  | none => rfl
  | some r =>
    obtain ⟨a,buf⟩ := r
    cases a with
    | none => rfl
    | some a => rfl

theorem bind_assoc' {γ : Type} (p : InPlace α) (q : α → InPlace β) (r : β → InPlace γ) :
    (p >>= q) >>= r = p >>= fun a => q a >>= r := by
  funext buf
  rw [bind_eq,bind_eq,bind_eq]
  cases p buf with
  | none => rfl
  | some s =>
    obtain ⟨a,buf⟩ := s
    cases a with
    | none => rfl
    | some a => exact (bind_eq (q a) r buf).symm

instance : LawfulMonad InPlace := LawfulMonad.mk' InPlace id_map' (fun _ _ => rfl) bind_assoc'

def refuseIf (c : Prop) [Decidable c] : InPlace Unit := fun buf => some (if c then none else some (), buf)

def change (f : List UInt8 → Option (List UInt8)) : InPlace Unit := fun buf => (f buf).map (some (), ·)

def look (f : List UInt8 → Option α) : InPlace α := fun buf => (f buf).map (some ·, buf)

/-- A structure of `n` bytes: it has to end before `len`, and its words are swapped. Gives the position behind it. -/
def overlay (len n : Nat) (swap : Nat → InPlace Unit) (pos : Nat) : InPlace Nat := do
  refuseIf (len < pos + n)
  swap pos
  return pos + n

/-- A structure of `n` bytes without words: it has to end before `len`. -/
def skip (len n pos : Nat) : InPlace Nat := do
  refuseIf (len < pos + n)
  return pos + n

def times : Nat → (Nat → InPlace Nat) → Nat → InPlace Nat
  | 0, _, pos => pure pos
  | n + 1, p, pos => p pos >>= times n p

section Runs

variable {buf buf' : List UInt8}

theorem bind_of_some {p : InPlace α} {a : α} (h : p buf = some (some a, buf')) (q : α → InPlace β) :
    (p >>= q) buf = q a buf' := by
  rw [bind_eq,h]
  rfl

theorem bind_of_refused {p : InPlace α} (h : p buf = some (none, buf')) (q : α → InPlace β) :
    (p >>= q) buf = some (none, buf') := by
  rw [bind_eq,h]
  rfl

theorem bind_refuseIf_of {c : Prop} [Decidable c] (h : c) (q : Unit → InPlace β) :
    (refuseIf c >>= q) buf = some (none, buf) := by
  rw [bind_eq,refuseIf,if_pos h]
  rfl

theorem bind_refuseIf_of_not {c : Prop} [Decidable c] (h : ¬ c) (q : Unit → InPlace β) :
    (refuseIf c >>= q) buf = q () buf := by
  rw [bind_eq,refuseIf,if_neg h]
  rfl

theorem bind_change {f : List UInt8 → Option (List UInt8)} (h : f buf = some buf') (q : Unit → InPlace β) :
    (change f >>= q) buf = q () buf' := by
  rw [bind_eq,change,h]
  rfl

theorem change_of_some {f : List UInt8 → Option (List UInt8)} (h : f buf = some buf') :
    change f buf = some (some (), buf') := by
  rw [change,h]
  rfl

theorem bind_look {f : List UInt8 → Option α} {a : α} (h : f buf = some a) (q : α → InPlace β) :
    (look f >>= q) buf = q a buf := by
  rw [bind_eq,look,h]
  rfl

end Runs

end InPlace

structure Format (α : Type) where
  bytes : ByteOrder → α → List UInt8
  length_host : ∀ a, (bytes .host a).length = (bytes .transmission a).length

namespace Format

variable {α γ : Type} {β : α → Type}

def block (n : Nat) : Format { bytes : List UInt8 // bytes.length = n } where
  bytes _ b := b.val
  length_host _ := rfl

def blockByte (n : Nat) : Format ({ bytes : List UInt8 // bytes.length = n } × UInt8) where
  bytes _ a := a.1.val ++ [a.2]
  length_host _ := rfl

def andThen (f : Format α) (g : (a : α) → Format (β a)) : Format ((a : α) × β a) where
  bytes order x := f.bytes order x.1 ++ (g x.1).bytes order x.2
  length_host x := by rw [List.length_append,List.length_append,f.length_host,(g x.1).length_host]

def times (f : Format α) (n : Nat) : Format { l : List α // l.length = n } where
  bytes order l := l.val.flatMap (f.bytes order)
  length_host l := by
    induction l.val with
    | nil => rfl
    | cons a l ih => rw [List.flatMap_cons,List.flatMap_cons,List.length_append,List.length_append,f.length_host,ih]

end Format

/-- The decoder, which starts behind what is known of the buffer, parses the format up to `len`: from its start on it
takes each value and stops behind it, and what starts with no value is refused. -/
structure Parses {α : Type} (f : Format α) (before : List UInt8 → Prop) (len : Nat) (p : Nat → InPlace Nat) : Prop where
  takes : ∀ {left : List UInt8} (a : α) (rest right : List UInt8), before left →
    left.length + (f.bytes .transmission a ++ rest).length = len →
      p left.length (left ++ ((f.bytes .transmission a ++ rest) ++ right)) =
        some (some (left.length + (f.bytes .host a).length), left ++ ((f.bytes .host a ++ rest) ++ right))
  refuses : ∀ {left : List UInt8} (todo right : List UInt8), before left → left.length + todo.length = len →
    (∃ a rest, todo = f.bytes .transmission a ++ rest) ∨
      ∃ todo', todo'.length = todo.length ∧
        p left.length (left ++ (todo ++ right)) = some (none, left ++ (todo' ++ right))

namespace Parses

open InPlace

variable {α γ : Type} {β : α → Type} {f : Format α} {before : List UInt8 → Prop} {len : Nat} {p : Nat → InPlace Nat}

theorem mono {before' : List UInt8 → Prop} (h : Parses f before len p) (hb : ∀ left, before' left → before left) :
    Parses f before' len p where
  takes a rest right hleft := h.takes a rest right (hb _ hleft)
  refuses todo right hleft := h.refuses todo right (hb _ hleft)

theorem of_bytes {g : Format γ} (h : Parses f before len p) (hto : ∀ c, ∃ a, ∀ order, g.bytes order c = f.bytes order a)
    (hfrom : ∀ a, ∃ c, ∀ order, f.bytes order a = g.bytes order c) : Parses g before len p where
  takes c rest right hleft hlen := by
    obtain ⟨a,ha⟩ := hto c
    rw [ha .transmission] at hlen ⊢
    rw [ha .host]
    exact h.takes a rest right hleft hlen
  refuses todo right hleft hlen := by
    refine (h.refuses todo right hleft hlen).imp_left ?_
    rintro ⟨a,rest,htodo⟩
    obtain ⟨c,hc⟩ := hfrom a
    exact ⟨c,rest,by rw [htodo,hc]⟩

theorem bind {g : (a : α) → Format (β a)} {q : Nat → Nat → InPlace Nat} (h : Parses f before len p)
    (hq : ∀ a start, Parses (g a) (fun left => ∃ l, before l ∧ l.length = start ∧ left = l ++ f.bytes .host a) len
      (q start)) : Parses (f.andThen g) before len fun pos => p pos >>= q pos where
  takes := by
    intro left x rest right hleft hlen
    obtain ⟨a,b⟩ := x
    have hbytes : ∀ order, (f.andThen g).bytes order ⟨a,b⟩ = f.bytes order a ++ (g a).bytes order b := fun _ => rfl
    have hstart : (left ++ f.bytes .host a).length = left.length + (f.bytes .host a).length := length_append
    rw [hbytes,append_assoc] at hlen
    have hlen' : (left ++ f.bytes .host a).length + ((g a).bytes .transmission b ++ rest).length = len := by
      rw [length_append] at hlen
      rw [hstart,f.length_host,Nat.add_assoc,hlen]
    have hfirst := h.takes a ((g a).bytes .transmission b ++ rest) right hleft hlen
    have hsecond := (hq a left.length).takes b rest right ⟨left,hleft,rfl,rfl⟩ hlen'
    simp only [hbytes,hstart,append_assoc] at hfirst hsecond ⊢
    rw [bind_of_some hfirst,hsecond,length_append,Nat.add_assoc]
  refuses := by
    intro left todo right hleft hlen
    obtain ⟨a,rest,rfl⟩ | ⟨todo',hlength,hrefused⟩ := h.refuses todo right hleft hlen
    · have hstart : (left ++ f.bytes .host a).length = left.length + (f.bytes .host a).length := length_append
      have hlen' : (left ++ f.bytes .host a).length + rest.length = len := by
        rw [hstart,f.length_host,← hlen,length_append,Nat.add_assoc]
      have hfirst := h.takes a rest right hleft hlen
      obtain ⟨b,rest',rfl⟩ | ⟨rest',hlength,hrefused⟩ :=
        (hq a left.length).refuses rest right ⟨left,hleft,rfl,rfl⟩ hlen'
      · exact .inl ⟨⟨a,b⟩,rest',(append_assoc _ _ _).symm⟩
      · refine .inr ⟨f.bytes .host a ++ rest',?_,?_⟩
        · rw [length_append,length_append,f.length_host,hlength]
        · simp only [hstart,append_assoc] at hfirst hrefused ⊢
          rw [bind_of_some hfirst,hrefused]
    · exact .inr ⟨todo',hlength,bind_of_refused hrefused _⟩

theorem look {γ : Type} {r : List UInt8 → Option γ} {c : γ} {q : γ → Nat → InPlace Nat}
    (hr : ∀ left right, before left → r (left ++ right) = some c) (h : Parses f before len (q c)) :
    Parses f before len fun pos => InPlace.look r >>= fun c => q c pos where
  takes a rest right hleft hlen := by rw [bind_look (hr _ _ hleft),h.takes a rest right hleft hlen]
  refuses todo right hleft hlen := by
    rw [bind_look (hr _ _ hleft)]
    exact h.refuses todo right hleft hlen

theorem fixed {n : Nat} {swap : Nat → InPlace Unit} (hsize : ∀ a, (f.bytes .transmission a).length = n)
    (hall : ∀ bytes : List UInt8, bytes.length = n → ∃ a, bytes = f.bytes .transmission a)
    (hswap : ∀ left a right, swap left.length (left ++ (f.bytes .transmission a ++ right)) =
      some (some (), left ++ (f.bytes .host a ++ right))) :
    Parses f before len (overlay len n swap) where
  takes := by
    intro left a rest right _ hlen
    rw [length_append,hsize] at hlen
    rw [overlay,bind_refuseIf_of_not (by omega),append_assoc,bind_of_some (hswap left a (rest ++ right)),
      f.length_host,hsize,append_assoc]
    rfl
  refuses := by
    intro left todo right _ hlen
    by_cases hshort : len < left.length + n
    · exact .inr ⟨todo,rfl,bind_refuseIf_of hshort _⟩
    · obtain ⟨a,ha⟩ := hall (todo.take n) (by rw [length_take]; omega)
      exact .inl ⟨a,todo.drop n,by rw [← ha,take_append_drop]⟩

theorem skip (n : Nat) : Parses (Format.block n) before len (skip len n) := by
  have hfixed : Parses (Format.block n) before len (overlay len n fun _ => pure ()) :=
    Parses.fixed (fun b => b.property) (fun bytes hlength => ⟨⟨bytes,hlength⟩,rfl⟩) fun _ _ _ => rfl
  exact hfixed

theorem lastByte {n : Nat} {δ : UInt8 → Type} {g : (c : UInt8) → Format (δ c)} {q : UInt8 → Nat → InPlace Nat}
    (hq : ∀ c, Parses (g c) (fun _ => True) len (q c)) :
    Parses ((Format.blockByte n).andThen fun a => g a.2) before len (fun start => do
      let pos ← InPlace.skip len (n + 1) start
      let c ← InPlace.look (·[start + n]?)
      q c pos) := by
  have hheader : Parses (Format.blockByte n) before len (InPlace.skip len (n + 1)) := by
    refine (Parses.skip (n + 1)).of_bytes (fun a => ?_) fun b => ?_
    · have hlength : (a.1.val ++ [a.2]).length = n + 1 := by rw [length_append,a.1.property]; rfl
      exact ⟨⟨_,hlength⟩,fun _ => rfl⟩
    · obtain ⟨bytes,hlength⟩ := b
      have hlast : (bytes.drop n).length = 1 := by rw [length_drop]; omega
      obtain ⟨c,hc⟩ := List.length_eq_one_iff.mp hlast
      refine ⟨⟨⟨bytes.take n,by rw [length_take]; omega⟩,c⟩,fun order => ?_⟩
      change bytes = bytes.take n ++ [c]
      rw [← hc,take_append_drop]
  refine hheader.bind fun a start => Parses.look (fun left right hleft => ?_) ((hq a.2).mono fun _ _ => trivial)
  obtain ⟨l,-,rfl,rfl⟩ := hleft
  have hread := getElem?_behind (l ++ a.1.val) (a.2 :: right) 0
  rw [length_append,a.1.property] at hread
  change (l ++ (a.1.val ++ [a.2]) ++ right)[l.length + n]? = _
  rw [append_assoc,append_assoc,← append_assoc l]
  exact hread

theorem times (h : Parses f (fun _ => True) len p) (n : Nat) : Parses (f.times n) before len (InPlace.times n p) := by
  induction n generalizing before with
  | zero =>
    constructor
    · intro left l rest right _ _
      have hnil : l.val = [] := eq_nil_of_length_eq_zero l.property
      have hbytes : ∀ order, (f.times 0).bytes order l = [] := by
        intro order
        show l.val.flatMap _ = []
        rw [hnil]
        rfl
      rw [hbytes,hbytes]
      rfl
    · exact fun todo right _ _ => .inl ⟨⟨[],rfl⟩,todo,rfl⟩
  | succ n ih =>
    have hnext : Parses (f.andThen fun _ => f.times n) before len fun pos => p pos >>= InPlace.times n p :=
      Parses.bind (h.mono fun _ _ => trivial) fun _ _ => ih
    refine hnext.of_bytes ?_ ?_
    · rintro ⟨l,hl⟩
      cases l with
      | nil => cases hl
      | cons a l => exact ⟨⟨a,l,Nat.succ.inj hl⟩,fun order => flatMap_cons⟩
    · rintro ⟨a,l,hl⟩
      exact ⟨⟨a :: l,congrArg Nat.succ hl⟩,fun order => flatMap_cons.symm⟩

theorem whole (h : Parses f before len p) {left : List UInt8} (todo right : List UInt8) (hleft : before left)
    (hlen : left.length + todo.length = len) :
    ∃ ok todo', (do
        let pos ← p left.length
        refuseIf (pos ≠ len)) (left ++ (todo ++ right)) = some (ok, left ++ (todo' ++ right)) ∧
      todo'.length = todo.length ∧ (ok.isSome ↔ ∃ a, todo = f.bytes .transmission a) ∧
      ∀ a, todo = f.bytes .transmission a → todo' = f.bytes .host a := by
  have htakes : ∀ a, todo = f.bytes .transmission a →
      p left.length (left ++ (todo ++ right)) =
        some (some len, left ++ (f.bytes .host a ++ right)) := by
    rintro a rfl
    have hrun := h.takes a [] right hleft (by rw [append_nil,hlen])
    rw [append_nil,append_nil,f.length_host,hlen] at hrun
    exact hrun
  by_cases hwhole : ∃ a, todo = f.bytes .transmission a
  · obtain ⟨a,ha⟩ := hwhole
    have hrun := htakes a ha
    refine ⟨some (),f.bytes .host a,?_,?_,iff_of_true rfl ⟨a,ha⟩,fun a' ha' => ?_⟩
    · rw [bind_of_some hrun,refuseIf,if_neg (not_not_intro rfl)]
    · rw [f.length_host,ha]
    · -- the run is the same for either value
      have hsame := (htakes a' ha').symm.trans hrun
      injection hsame with hsame
      exact List.append_cancel_right (append_cancel_left (congrArg Prod.snd hsame)).symm
  · have hnone : ∀ a, todo = f.bytes .transmission a → False := fun a ha => hwhole ⟨a,ha⟩
    obtain ⟨a,rest,rfl⟩ | ⟨todo',hlength,hrefused⟩ := h.refuses todo right hleft hlen
    · have hrun := h.takes a rest right hleft hlen
      have hshort : left.length + (f.bytes .host a).length ≠ len := by
        intro heq
        rw [length_append,← f.length_host] at hlen
        have hrest : rest = [] := eq_nil_of_length_eq_zero (by omega)
        exact hwhole ⟨a,by rw [hrest,append_nil]⟩
      refine ⟨none,f.bytes .host a ++ rest,?_,?_,iff_of_false Bool.false_ne_true hwhole,
        fun a' ha' => (hnone a' ha').elim⟩
      · rw [bind_of_some hrun,refuseIf,if_pos hshort]
      · rw [length_append,length_append,f.length_host]
    · exact ⟨none,todo',bind_of_refused hrefused _,hlength,iff_of_false Bool.false_ne_true hwhole,
        fun a ha => (hnone a ha).elim⟩

end Parses

/-! ## Decoders inside a part of a buffer

What a decoder does inside a buffer, with none of its accesses outside, it also does if there is more behind the buffer,
and what is behind it stays as it is. The rules are those of the decoders' constructions. -/

namespace InPlace

/-- Where `p` stays inside a buffer, `q` does the same with anything behind the buffer. -/
def Extends {α : Type} (p q : InPlace α) : Prop :=
  ∀ ⦃buf r buf'⦄, p buf = some (r, buf') → ∀ tail, q (buf ++ tail) = some (r, buf' ++ tail)

variable {α β : Type}

theorem extends_pure (a : α) : Extends (pure a : InPlace α) (pure a) := by
  intro buf r buf' h tail
  cases h
  rfl

theorem extends_bind {p q : InPlace α} {k l : α → InPlace β} (hp : Extends p q)
    (hk : ∀ a, (∃ buf buf', p buf = some (some a, buf')) → Extends (k a) (l a)) : Extends (p >>= k) (q >>= l) := by
  intro buf r buf' h tail
  rw [bind_eq] at h
  obtain ⟨⟨a,middle⟩,hfirst,hrest⟩ := bind_eq_some_iff.mp h
  cases a with
  | none =>
    cases hrest
    exact bind_of_refused (hp hfirst tail) l
  | some a => exact (bind_of_some (hp hfirst tail) l).trans (hk a ⟨buf,middle,hfirst⟩ hrest tail)

theorem extends_refuseIf (c : Prop) [Decidable c] : Extends (refuseIf c) (refuseIf c) := by
  intro buf r buf' h tail
  cases h
  rfl

theorem extends_change {f g : List UInt8 → Option (List UInt8)}
    (hfg : ∀ ⦃buf buf'⦄, f buf = some buf' → ∀ tail, g (buf ++ tail) = some (buf' ++ tail)) :
    Extends (change f) (change g) := by
  intro buf r buf' h tail
  obtain ⟨changed,hchanged,heq⟩ := map_eq_some_iff.mp h
  cases heq
  exact change_of_some (hfg hchanged tail)

theorem extends_look {f g : List UInt8 → Option α} (hfg : ∀ ⦃buf a⦄, f buf = some a → ∀ tail, g (buf ++ tail) = some a) :
    Extends (look f) (look g) := by
  intro buf r buf' h tail
  obtain ⟨a,ha,heq⟩ := map_eq_some_iff.mp h
  cases heq
  rw [look,hfg ha tail]
  rfl

section Buffers

variable {buf : List UInt8} {pos : Nat}

theorem getElem?_append_of_some {b : UInt8} (h : buf[pos]? = some b) (tail : List UInt8) : (buf ++ tail)[pos]? = some b := by
  obtain ⟨hlt,-⟩ := List.getElem?_eq_some_iff.mp h
  rw [getElem?_append_left hlt,h]

theorem lt_of_word16 {n : Nat} (h : word16 buf pos = some n) : pos + 1 < buf.length := by
  by_contra hshort
  have hnone : buf[pos + 1]? = none := getElem?_eq_none (Nat.le_of_not_lt hshort)
  rw [word16,hnone] at h
  split at h
  · contradiction
  · cases h

theorem word16_append_of_some {n : Nat} (h : word16 buf pos = some n) (tail : List UInt8) :
    word16 (buf ++ tail) pos = some n := by
  have hsame : word16 (buf ++ tail) pos = word16 (buf ++ []) pos := word16_before (lt_of_word16 h)
  rw [hsame,append_nil,h]

theorem lt_of_bswap16 {buf' : List UInt8} (h : bswap16 buf pos = some buf') : pos + 1 < buf.length := by
  by_contra hshort
  have hnone : buf[pos + 1]? = none := getElem?_eq_none (Nat.le_of_not_lt hshort)
  rw [bswap16,hnone] at h
  split at h
  · contradiction
  · cases h

theorem bswap16_append_of_some {buf' : List UInt8} (h : bswap16 buf pos = some buf') (tail : List UInt8) :
    bswap16 (buf ++ tail) pos = some (buf' ++ tail) := by
  have hlt := lt_of_bswap16 h
  unfold bswap16 at h ⊢
  rw [getElem?_append_left hlt,getElem?_append_left (Nat.lt_of_succ_lt hlt)]
  split at h
  · cases h
    rw [List.set_append_left _ _ (Nat.lt_of_succ_lt hlt),List.set_append_left _ _ (by rwa [List.length_set])]
  · cases h

theorem swapBytes_append_of_some {n : Nat} {buf' : List UInt8} (h : swapBytes n buf pos = some buf')
    (tail : List UInt8) : swapBytes n (buf ++ tail) pos = some (buf' ++ tail) := by
  by_cases hroom : pos + n ≤ buf.length
  · rw [swapBytes,if_pos hroom] at h
    cases h
    rw [swapBytes,if_pos (by rw [length_append]; omega),take_append_of_le_length (by omega),
      List.drop_append_of_le_length (by omega),List.drop_append_of_le_length hroom,
      take_append_of_le_length (by rw [length_drop]; omega),append_assoc,append_assoc]
  · rw [swapBytes,if_neg hroom] at h
    cases h

end Buffers

end InPlace

end LinuxDvb
