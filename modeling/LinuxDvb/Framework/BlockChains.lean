import LinuxDvb.Framework.Lists

/-!
# Chains of fragments

The fragments of an object are collected in a heap block that grows by `realloc` and a copy behind its old end.
-/

namespace LinuxDvb

def lengthModulus : Nat := 2 ^ 32

/-- A pointer of the kind that `realloc` and `free` take, with the bytes it points to. -/
inductive HeapBlock where
  | null
  | block (bytes : List UInt8)
  /-- The block was freed, and the pointer is still in use. -/
  | dangling
  deriving DecidableEq, Repr

inductive Growth where
  | undefined
  /-- `realloc` returns NULL, and this is what the old pointer points to from then on. -/
  | refused (old : HeapBlock)
  | grown (bytes : List UInt8)
  deriving DecidableEq, Repr

namespace HeapBlock

def bytes : HeapBlock → List UInt8
  | block bytes => bytes
  | _ => []

/-- `realloc` of the block to the sum of the lengths, then `memcpy` of the data behind the old bytes. A
block that is asked to have no bytes is freed, and `realloc` returns NULL. -/
def grow (old : HeapBlock) (data : List UInt8) (fits : Bool) : Growth :=
  let total := old.bytes.length + data.length
  let size := total % lengthModulus
  if old = dangling then .undefined
  else if old ≠ null ∧ size = 0 then .refused dangling
  else if !fits then .refused old
  else if size < total then .undefined
  else .grown (old.bytes ++ data)

/-- The block can be asked to take the data: `realloc` does not free it, and the sum of the lengths fits
its variable. -/
def Growable (old : HeapBlock) (data : List UInt8) (fits : Bool) : Prop :=
  (old ≠ null → (old.bytes.length + data.length) % lengthModulus ≠ 0) ∧
    (fits = true → old.bytes.length + data.length < lengthModulus)

instance (old : HeapBlock) (data : List UInt8) (fits : Bool) : Decidable (old.Growable data fits) :=
  inferInstanceAs (Decidable (_ ∧ _))

variable {old : HeapBlock} {data : List UInt8} {fits : Bool}

theorem grow_of_growable (hlive : old ≠ dangling) (h : old.Growable data fits) :
    old.grow data fits = if fits then .grown (old.bytes ++ data) else .refused old := by
  have hfree : ¬(old ≠ null ∧ (old.bytes.length + data.length) % lengthModulus = 0) :=
    fun hcon => h.1 hcon.1 hcon.2
  unfold grow
  dsimp only
  rw [if_neg hlive,if_neg hfree]
  cases fits with
  | false => rfl
  | true => rw [if_neg (by decide),Nat.mod_eq_of_lt (h.2 rfl),if_neg (Nat.lt_irrefl _),if_pos rfl]

theorem grow_of_not_growable (hlive : old ≠ dangling) (h : ¬old.Growable data fits) :
    old.grow data fits = .undefined ∨ old.grow data fits = .refused dangling := by
  unfold grow
  dsimp only
  rw [if_neg hlive]
  by_cases hfree : old ≠ null ∧ (old.bytes.length + data.length) % lengthModulus = 0
  · rw [if_pos hfree]
    exact .inr rfl
  rw [if_neg hfree]
  have hover : fits = true ∧ lengthModulus ≤ old.bytes.length + data.length := by
    unfold Growable at h
    simp only [not_and_or,Classical.not_imp,Nat.not_lt] at h hfree
    grind
  obtain ⟨rfl,hover⟩ := hover
  have hwrap : (old.bytes.length + data.length) % lengthModulus < old.bytes.length + data.length :=
    Nat.lt_of_lt_of_le (Nat.mod_lt _ (by decide)) hover
  rw [if_neg (by decide),if_pos hwrap]
  exact .inl rfl

theorem growable_null (h : data.length < lengthModulus) : null.Growable data fits :=
  ⟨fun hne => absurd rfl hne, fun _ => by simpa [bytes] using h⟩

end HeapBlock

variable {ν κ : Type}

structure ChainEntry (ν κ : Type) where
  owner : ν
  chains : κ → HeapBlock

structure ChainTable (ν κ : Type) where
  entries : List (ChainEntry ν κ)
  distinct : (entries.map ChainEntry.owner).Nodup

/-- Whether `malloc` of an entry and `realloc` of a block find memory. -/
structure Allocation where
  entry : Bool
  block : Bool
  deriving DecidableEq

inductive Defragmented (ν κ : Type) where
  | undefined
  /-- An allocation fails. -/
  | noMemory (table : ChainTable ν κ)
  /-- More fragments are still to come. -/
  | kept (table : ChainTable ν κ)
  /-- The last fragment is the only one: the data is that of the caller. -/
  | single (data : List UInt8)
  /-- The last fragment of a chain: the block is taken out of its entry. -/
  | joined (table : ChainTable ν κ) (data : List UInt8)

namespace ChainTable

variable [DecidableEq ν]

def empty : ChainTable ν κ := ⟨[], List.nodup_nil⟩

def find (table : ChainTable ν κ) (owner : ν) : Option (ChainEntry ν κ) :=
  table.entries.find? (fun e => e.owner = owner)

def chain (table : ChainTable ν κ) (owner : ν) (kind : κ) : HeapBlock :=
  match table.find owner with
  | none => .null
  | some e => e.chains kind

theorem find_eq_none_iff {table : ChainTable ν κ} {owner : ν} :
    table.find owner = none ↔ owner ∉ table.entries.map ChainEntry.owner := by
  simp [find,find?_eq_none]

theorem chain_of_find_eq_none {table : ChainTable ν κ} {owner : ν} (h : table.find owner = none) (kind : κ) :
    table.chain owner kind = .null := by
  rw [chain,h]

theorem chain_of_find_eq_some {table : ChainTable ν κ} {owner : ν} {e : ChainEntry ν κ}
    (h : table.find owner = some e) (kind : κ) : table.chain owner kind = e.chains kind := by
  rw [chain,h]

theorem owner_of_find {table : ChainTable ν κ} {owner : ν} {e : ChainEntry ν κ}
    (h : table.find owner = some e) : e.owner = owner := by
  simpa using find?_some h

def withEntry (table : ChainTable ν κ) (owner : ν) : ChainTable ν κ :=
  if h : table.find owner = none then
    ⟨⟨owner, fun _ => .null⟩ :: table.entries, List.nodup_cons.mpr ⟨find_eq_none_iff.mp h, table.distinct⟩⟩
  else table

def clear (table : ChainTable ν κ) (owner : ν) : ChainTable ν κ where
  entries := table.entries.eraseP (fun e => e.owner = owner)
  distinct := table.distinct.sublist (List.Sublist.map _ (List.eraseP_sublist))

theorem find_withEntry (table : ChainTable ν κ) (owner other : ν) : (table.withEntry owner).find other =
      if other = owner ∧ table.find owner = none then some ⟨owner, fun _ => .null⟩ else table.find other := by
  unfold withEntry
  split
  · rename_i hnone
    by_cases hother : other = owner
    · subst hother
      rw [if_pos ⟨rfl,hnone⟩,find,List.find?_cons_of_pos (by simp)]
    · rw [if_neg (fun hcon => hother hcon.1),find,List.find?_cons_of_neg (by simpa using Ne.symm hother)]
      rfl
  · rename_i hsome
    rw [if_neg (fun hcon => hsome hcon.2)]

theorem chain_withEntry (table : ChainTable ν κ) (owner other : ν) (kind : κ) :
    (table.withEntry owner).chain other kind = table.chain other kind := by
  rw [chain,find_withEntry]
  by_cases hnew : other = owner ∧ table.find owner = none
  · rw [if_pos hnew,hnew.1,chain_of_find_eq_none hnew.2]
  · rw [if_neg hnew]
    rfl

private theorem find?_eraseP {entries : List (ChainEntry ν κ)}
    (hdistinct : (entries.map ChainEntry.owner).Nodup) (owner other : ν) :
    (entries.eraseP (fun e => e.owner = owner)).find? (fun e => e.owner = other) =
      if other = owner then none else entries.find? (fun e => e.owner = other) := by
  induction entries with
  | nil => simp
  | cons e es ih =>
    obtain ⟨hnew,hrest⟩ := nodup_cons.mp hdistinct
    by_cases he : e.owner = owner
    · subst he
      rw [List.eraseP_cons_of_pos (by simp)]
      by_cases hother : other = e.owner
      · subst hother
        rw [if_pos rfl,find?_eq_none]
        intro e' he' howner
        exact hnew (mem_map.mpr ⟨e',he',by simpa using howner⟩)
      · rw [if_neg hother,List.find?_cons_of_neg (by simpa using Ne.symm hother)]
    · rw [List.eraseP_cons_of_neg (by simpa using he)]
      by_cases hhead : e.owner = other
      · rw [List.find?_cons_of_pos (by simpa using hhead),List.find?_cons_of_pos (by simpa using hhead),
          if_neg (fun hcon => he (hhead.trans hcon))]
      · rw [List.find?_cons_of_neg (by simpa using hhead),List.find?_cons_of_neg (by simpa using hhead),
          ih hrest]

theorem find_clear (table : ChainTable ν κ) (owner other : ν) :
    (table.clear owner).find other = if other = owner then none else table.find other :=
  find?_eraseP table.distinct owner other

theorem clear_of_find_eq_none {table : ChainTable ν κ} {owner : ν} (h : table.find owner = none) :
    table.clear owner = table := by
  obtain ⟨entries,distinct⟩ := table
  unfold clear
  congr 1
  exact List.eraseP_of_forall_not (fun e he => find?_eq_none.mp h e he)

theorem chain_clear (table : ChainTable ν κ) (owner other : ν) (kind : κ) :
    (table.clear owner).chain other kind = if other = owner then .null else table.chain other kind := by
  rw [chain,find_clear]
  by_cases hother : other = owner
  · rw [if_pos hother,if_pos hother]
  · rw [if_neg hother,if_neg hother]
    rfl

variable [DecidableEq κ]

private theorem owner_setChain (e : ChainEntry ν κ) (owner : ν) (kind : κ) (c : HeapBlock) :
    (if e.owner = owner then { e with chains := Function.update e.chains kind c } else e).owner = e.owner := by
  split <;> rfl

def setChain (table : ChainTable ν κ) (owner : ν) (kind : κ) (c : HeapBlock) : ChainTable ν κ where
  entries := table.entries.map fun e =>
    if e.owner = owner then { e with chains := Function.update e.chains kind c } else e
  distinct := by
    have hsame := List.map_congr_left fun e (_ : e ∈ table.entries) => owner_setChain e owner kind c
    rw [List.map_map]
    exact hsame ▸ table.distinct

theorem find_setChain (table : ChainTable ν κ) (owner other : ν) (kind : κ) (c : HeapBlock) :
    (table.setChain owner kind c).find other =
      (table.find other).map fun e =>
        if e.owner = owner then { e with chains := Function.update e.chains kind c } else e := by
  unfold find setChain
  dsimp only
  rw [List.find?_map]
  congr 2
  funext e
  simp only [Function.comp_apply,owner_setChain]

theorem chain_setChain (table : ChainTable ν κ) (owner other : ν) (kind k : κ) (c : HeapBlock) :
    (table.setChain owner kind c).chain other k =
      if other = owner ∧ k = kind ∧ (table.find owner).isSome then c else table.chain other k := by
  rw [chain,find_setChain]
  cases hfind : table.find other with
  | none =>
    rw [if_neg]
    · rw [chain_of_find_eq_none hfind]
      rfl
    · rintro ⟨rfl,-,hsome⟩
      rw [hfind] at hsome
      exact Bool.noConfusion hsome
  | some e =>
    have howner := owner_of_find hfind
    simp only [map_some,howner,chain_of_find_eq_some hfind]
    by_cases hother : other = owner
    · subst hother
      by_cases hk : k = kind
      · subst hk
        simp [hfind]
      · simp [hk]
    · simp [hother]

/-- The common part of the reassembly: a fragment is appended to the block of its owner and kind, and the
last one takes the block. -/
def defragment (table : ChainTable ν κ) (owner : ν) (kind : κ) (last : Bool) (data : List UInt8)
    (alloc : Allocation) : Defragmented ν κ :=
  if !last then
    if table.find owner = none ∧ !alloc.entry then .noMemory table
    else
      let table := table.withEntry owner
      match (table.chain owner kind).grow data alloc.block with
      | .undefined => .undefined
      | .refused old => .noMemory (table.setChain owner kind old)
      | .grown bytes => .kept (table.setChain owner kind (.block bytes))
  else
    match table.find owner with
    | none => .single data
    | some e =>
      match (e.chains kind).grow data alloc.block with
      | .undefined => .undefined
      | .refused old => .noMemory (table.setChain owner kind old)
      | .grown bytes => .joined (table.setChain owner kind .null) bytes

end ChainTable

/-! ### What the chains are for -/

/-- Which owners have an entry, and the fragments since their last object. -/
structure Pending (ν κ : Type) where
  known : ν → Bool
  bytes : ν → κ → List UInt8

inductive Collected where
  | noMemory
  | kept
  | object (data : List UInt8)
  deriving DecidableEq

namespace Pending

variable [DecidableEq ν]

def empty : Pending ν κ := ⟨fun _ => false, fun _ _ => []⟩

def know (p : Pending ν κ) (owner : ν) : Pending ν κ :=
  { p with known := Function.update p.known owner true }

def clear (p : Pending ν κ) (owner : ν) : Pending ν κ where
  known := Function.update p.known owner false
  bytes := Function.update p.bytes owner fun _ => []

theorem known_know (p : Pending ν κ) (owner o : ν) :
    (p.know owner).known o = if o = owner then true else p.known o := Function.update_apply ..

theorem known_clear (p : Pending ν κ) (owner o : ν) :
    (p.clear owner).known o = if o = owner then false else p.known o := Function.update_apply ..

theorem bytes_clear (p : Pending ν κ) (owner o : ν) (k : κ) :
    (p.clear owner).bytes o k = if o = owner then [] else p.bytes o k := by
  unfold clear
  dsimp only
  rw [Function.update_apply]
  split <;> rfl

variable [DecidableEq κ]

def setBytes (p : Pending ν κ) (owner : ν) (kind : κ) (bytes : List UInt8) : Pending ν κ :=
  { p with bytes := fun o k => if o = owner ∧ k = kind then bytes else p.bytes o k }

theorem setBytes_self (p : Pending ν κ) (owner : ν) (kind : κ) : p.setBytes owner kind (p.bytes owner kind) = p := by
  unfold setBytes
  congr 1
  funext o k
  split
  · rename_i h
    rw [h.1,h.2]
  · rfl

/-- A fragment is appended to what its owner has sent of its kind; the last one yields all of it. Nothing is
taken of a fragment for which there is no memory. -/
def collect (p : Pending ν κ) (owner : ν) (kind : κ) (last : Bool) (data : List UInt8) (alloc : Allocation) :
    Pending ν κ × Collected :=
  if !last then
    if !p.known owner && !alloc.entry then (p, .noMemory)
    else if !alloc.block then (p.know owner, .noMemory)
    else ((p.know owner).setBytes owner kind (p.bytes owner kind ++ data), .kept)
  else if p.known owner && !alloc.block then (p, .noMemory)
  else (p.setBytes owner kind [], .object (p.bytes owner kind ++ data))

end Pending

/-- The table has the entries of the known owners, and live blocks with what they have sent. -/
structure Represents [DecidableEq ν] (table : ChainTable ν κ) (p : Pending ν κ) : Prop where
  known : ∀ o, (table.find o).isSome = p.known o
  live : ∀ o k, table.chain o k ≠ .dangling
  bytes : ∀ o k, (table.chain o k).bytes = p.bytes o k

namespace Represents

variable [DecidableEq ν] {table : ChainTable ν κ} {p : Pending ν κ}

theorem empty : Represents (ChainTable.empty : ChainTable ν κ) Pending.empty :=
  ⟨fun _ => rfl, fun _ _ hcon => HeapBlock.noConfusion hcon, fun _ _ => rfl⟩

theorem withEntry (h : Represents table p) (owner : ν) : Represents (table.withEntry owner) (p.know owner) where
  known o := by
    rw [ChainTable.find_withEntry,Pending.known_know,← h.known o]
    by_cases ho : o = owner
    · subst ho
      cases hfind : table.find o <;> simp
    · simp [ho]
  live o k := by
    rw [ChainTable.chain_withEntry]
    exact h.live o k
  bytes o k := by
    rw [ChainTable.chain_withEntry]
    exact h.bytes o k

theorem clear (h : Represents table p) (owner : ν) : Represents (table.clear owner) (p.clear owner) where
  known o := by
    rw [ChainTable.find_clear,Pending.known_clear,← h.known o]
    split <;> rfl
  live o k := by
    rw [ChainTable.chain_clear]
    split
    · exact fun hcon => HeapBlock.noConfusion hcon
    · exact h.live o k
  bytes o k := by
    rw [ChainTable.chain_clear,Pending.bytes_clear]
    split
    · rfl
    · exact h.bytes o k

variable [DecidableEq κ]

theorem setChain (h : Represents table p) {owner : ν} (hknown : p.known owner = true) (kind : κ)
    {c : HeapBlock} (hlive : c ≠ .dangling) :
    Represents (table.setChain owner kind c) (p.setBytes owner kind c.bytes) where
  known o := by
    rw [ChainTable.find_setChain,Option.isSome_map]
    exact h.known o
  live o k := by
    rw [ChainTable.chain_setChain]
    split
    · exact hlive
    · exact h.live o k
  bytes o k := by
    rw [ChainTable.chain_setChain,h.known owner,hknown,Pending.setBytes]
    simp only [and_true]
    split
    · rfl
    · exact h.bytes o k

end Represents

section Fragment

variable [DecidableEq ν] [DecidableEq κ] {table : ChainTable ν κ} {p : Pending ν κ} {owner : ν} {kind : κ}
  {last : Bool} {data : List UInt8} {alloc : Allocation}

/-- What becomes of a fragment of `data` is what should become of it, and the new table has the fragments
pending. -/
inductive Agrees (table : ChainTable ν κ) (owner : ν) (kind : κ) (last : Bool) (data : List UInt8)
    (alloc : Allocation) : Defragmented ν κ → Pending ν κ × Collected → Prop where
  | noMemory {t : ChainTable ν κ} {p : Pending ν κ} (hrep : Represents t p)
      (hlast : last = true → (table.find owner).isSome ∧ alloc.block = false) :
      Agrees table owner kind last data alloc (.noMemory t) (p, .noMemory)
  | kept {t : ChainTable ν κ} {p : Pending ν κ} (hrep : Represents t p) (hlast : last = false) :
      Agrees table owner kind last data alloc (.kept t) (p, .kept)
  | single {p : Pending ν κ} (hrep : Represents table p) (hlast : last = true)
      (hfind : table.find owner = none) :
      Agrees table owner kind last data alloc (.single data) (p, .object data)
  | joined {t : ChainTable ν κ} {p : Pending ν κ} (hrep : Represents t p) (hlast : last = true)
      (hfind : (table.find owner).isSome) (hblock : alloc.block = true) :
      Agrees table owner kind last data alloc (.joined t ((table.chain owner kind).bytes ++ data))
        (p, .object ((table.chain owner kind).bytes ++ data))

theorem Represents.setChain_self (h : Represents table p) (hknown : p.known owner = true) (kind : κ) :
    Represents (table.setChain owner kind (table.chain owner kind)) p := by
  have hset := h.setChain hknown kind (h.live owner kind)
  rwa [h.bytes,Pending.setBytes_self] at hset

theorem Represents.agrees_more (h : Represents table p) (hgrow : (table.chain owner kind).Growable data alloc.block) :
    Agrees table owner kind false data alloc (table.defragment owner kind false data alloc)
      (p.collect owner kind false data alloc) := by
  have hgrown := HeapBlock.grow_of_growable (h.live owner kind) hgrow
  have hknown := h.known owner
  unfold ChainTable.defragment Pending.collect
  simp only [Bool.not_false,if_true]
  by_cases hrefused : table.find owner = none ∧ alloc.entry = false
  · rw [hrefused.1] at hknown
    simp only [hrefused,← hknown,isSome_none,Bool.not_false,and_self,Bool.and_self,if_true]
    exact .noMemory h (fun hcon => Bool.noConfusion hcon)
  · have hp : (!p.known owner && !alloc.entry) = false := by
      rw [← hknown]
      cases hfind : table.find owner <;> simp_all
    have hentry := h.withEntry owner
    have hnew : (p.know owner).known owner = true := by rw [Pending.known_know,if_pos rfl]
    simp only [Bool.not_eq_true',hrefused,if_false,hp,Bool.false_eq_true,ChainTable.chain_withEntry,hgrown]
    cases alloc.block with
    | false =>
      have hsame := hentry.setChain_self hnew kind
      rw [ChainTable.chain_withEntry] at hsame
      exact .noMemory hsame (fun hcon => Bool.noConfusion hcon)
    | true =>
      rw [← h.bytes owner kind]
      exact .kept (hentry.setChain hnew kind (fun hcon => HeapBlock.noConfusion hcon)) rfl

theorem Represents.agrees_last (h : Represents table p) (hgrow : (table.chain owner kind).Growable data alloc.block) :
    Agrees table owner kind true data alloc (table.defragment owner kind true data alloc)
      (p.collect owner kind true data alloc) := by
  have hgrown := HeapBlock.grow_of_growable (h.live owner kind) hgrow
  have hknown := h.known owner
  have hbytes := h.bytes owner kind
  unfold ChainTable.defragment Pending.collect
  simp only [Bool.not_true,Bool.false_eq_true,if_false]
  cases hfind : table.find owner with
  | none =>
    have hempty : p.bytes owner kind = [] := by
      rw [← hbytes,ChainTable.chain_of_find_eq_none hfind]
      rfl
    have hsame := p.setBytes_self owner kind
    rw [hfind] at hknown
    rw [hempty] at hsame
    simp only [← hknown,isSome_none,Bool.false_and,Bool.false_eq_true,if_false,hempty,hsame]
    exact .single h rfl hfind
  | some e =>
    rw [hfind] at hknown
    have hknown' : p.known owner = true := hknown.symm
    have hsome : (table.find owner).isSome := by rw [hfind]; rfl
    simp only [← ChainTable.chain_of_find_eq_some hfind,hgrown,hknown',Bool.true_and,Bool.not_eq_true',← hbytes]
    cases hblock : alloc.block with
    | false => exact .noMemory (h.setChain_self hknown' kind) (fun _ => ⟨hsome,hblock⟩)
    | true => exact .joined (h.setChain hknown' kind (fun hcon => HeapBlock.noConfusion hcon)) rfl hsome hblock

theorem Represents.agrees (h : Represents table p) (last : Bool)
    (hgrow : (table.chain owner kind).Growable data alloc.block) :
    Agrees table owner kind last data alloc (table.defragment owner kind last data alloc)
      (p.collect owner kind last data alloc) := by
  cases last with
  | false => exact h.agrees_more hgrow
  | true => exact h.agrees_last hgrow

theorem Represents.defragment_of_not_growable (h : Represents table p) (last : Bool)
    (hdata : data.length < lengthModulus) (hgrow : ¬(table.chain owner kind).Growable data alloc.block) :
    table.defragment owner kind last data alloc = .undefined ∨
      ∃ t, table.defragment owner kind last data alloc = .noMemory t ∧ t.chain owner kind = .dangling := by
  have hnot := HeapBlock.grow_of_not_growable (h.live owner kind) hgrow
  have hsome : table.find owner ≠ none := by
    intro hnone
    rw [ChainTable.chain_of_find_eq_none hnone] at hgrow
    exact hgrow (HeapBlock.growable_null hdata)
  have hlost : ∀ t : ChainTable ν κ, t.find owner ≠ none →
      (t.setChain owner kind .dangling).chain owner kind = .dangling := by
    intro t ht
    rw [ChainTable.chain_setChain,if_pos ⟨rfl,rfl,Option.isSome_iff_ne_none.mpr ht⟩]
  unfold ChainTable.defragment
  cases last with
  | false =>
    simp only [Bool.not_false,if_true,hsome,false_and,if_false,ChainTable.chain_withEntry]
    obtain hund | hfreed := hnot
    · rw [hund]
      exact .inl rfl
    · rw [hfreed]
      refine .inr ⟨_,rfl,hlost _ ?_⟩
      rw [ChainTable.find_withEntry,if_neg (fun hcon => hsome hcon.2)]
      exact hsome
  | true =>
    obtain ⟨e,hfind⟩ := Option.ne_none_iff_exists'.mp hsome
    simp only [Bool.not_true,Bool.false_eq_true,if_false,hfind,← ChainTable.chain_of_find_eq_some hfind]
    obtain hund | hfreed := hnot
    · rw [hund]
      exact .inl rfl
    · rw [hfreed]
      exact .inr ⟨_,rfl,hlost _ hsome⟩

end Fragment

end LinuxDvb
