import LinuxDvb.Framework.InPlace
import LinuxDvb.LibUcsi.Section

/-!
# Descriptor loops behind their length

Most tables have descriptor loops whose length is in the low bits of a word, in front of the loop or further up.
-/

namespace LinuxDvb.Ucsi

open InPlace

/-- A length in the low bits of the word at `buf + pos`, by the modulus of its bits. -/
def lengthBits (m : Nat) (buf : List UInt8) (pos : Nat) : Option Nat := (word16 buf pos).map (· % m)

/-- The checks of a descriptor loop at `pos`: that it ends before `len`, and that its descriptors are complete. -/
def checkDescriptors (len pos size : Nat) : InPlace Nat := do
  refuseIf (len < pos + size)
  let status ← look (verifyDescriptors · pos size)
  refuseIf (status ≠ 0)
  return pos + size

abbrev Field (n : Nat) := { bytes : List UInt8 // bytes.length = n }

theorem swapBytes_field {n pos : Nat} {pre : List UInt8} (hpos : pre.length = pos) (field : Field n)
    (rest : List UInt8) :
    swapBytes n (pre ++ (field.val ++ rest)) pos = some (pre ++ (field.val.reverse ++ rest)) := by
  obtain ⟨bytes,rfl⟩ := field
  subst hpos
  exact swapBytes_at pre bytes rest

theorem length_fieldBytes {n : Nat} (order : ByteOrder) (field : Field n) : (order.field field.val).length = n := by
  rw [ByteOrder.length_field,field.property]

theorem exists_field {bytes : List UInt8} (n k : Nat) (h : bytes.length = n + k) :
    ∃ (field : Field n) (rest : List UInt8), bytes = field.val ++ rest ∧ rest.length = k :=
  ⟨⟨bytes.take n, by rw [length_take]; omega⟩, bytes.drop n, (take_append_drop n bytes).symm,
    by rw [length_drop]; omega⟩

structure LengthLoop (m : Nat) where
  word : UInt16
  descriptors : List Descriptor
  length_eq : (descriptorLoop descriptors).length = word.toNat % m

def LengthLoop.bytes {m : Nat} (order : ByteOrder) (l : LengthLoop m) : List UInt8 :=
  order.word l.word.toNat ++ descriptorLoop l.descriptors

theorem LengthLoop.length_bytes {m : Nat} (order : ByteOrder) (l : LengthLoop m) :
    (l.bytes order).length = 2 + (descriptorLoop l.descriptors).length := by
  rw [LengthLoop.bytes,length_append,ByteOrder.length_word]

def descriptorsFormat (size : Nat) : Format { ds : List Descriptor // (descriptorLoop ds).length = size } where
  bytes _ ds := descriptorLoop ds.val
  length_host _ := rfl

def lengthLoopFormat (m : Nat) : Format (LengthLoop m) where
  bytes := LengthLoop.bytes
  length_host l := by rw [l.length_bytes,l.length_bytes]

section Parsing

variable {before : List UInt8 → Prop} {len : Nat}

theorem parses_descriptors (size : Nat) :
    Parses (descriptorsFormat size) before len fun pos => checkDescriptors len pos size where
  takes := by
    intro left ds rest right _ hlen
    obtain ⟨ds,hds⟩ := ds
    have hbytes : ∀ order, (descriptorsFormat size).bytes order ⟨ds,hds⟩ = descriptorLoop ds := fun _ => rfl
    rw [hbytes,length_append] at hlen
    obtain ⟨status,hstatus,hverified⟩ := verifyDescriptors_spec left (descriptorLoop ds) (rest ++ right)
    rw [hds] at hstatus
    rw [hbytes,hbytes,checkDescriptors,bind_refuseIf_of_not (by omega),append_assoc,bind_look hstatus,
      bind_refuseIf_of_not (not_not_intro (hverified.mpr ⟨ds,rfl⟩)),hds]
    rfl
  refuses := by
    intro left todo right _ hlen
    by_cases hsize : size ≤ todo.length
    · have htake : (todo.take size).length = size := by rw [length_take,Nat.min_eq_left hsize]
      obtain ⟨status,hstatus,hverified⟩ := verifyDescriptors_spec left (todo.take size) (todo.drop size ++ right)
      rw [htake,← append_assoc (todo.take _),take_append_drop] at hstatus
      by_cases hzero : status = 0
      · obtain ⟨ds,hds⟩ := hverified.mp hzero
        exact .inl ⟨⟨ds,by rw [← hds,htake]⟩,todo.drop size,(hds ▸ (take_append_drop size todo).symm)⟩
      · refine .inr ⟨todo,rfl,?_⟩
        rw [checkDescriptors,bind_refuseIf_of_not (by omega),bind_look hstatus,bind_refuseIf_of hzero]
    · refine .inr ⟨todo,rfl,?_⟩
      rw [checkDescriptors,bind_refuseIf_of (by omega)]

theorem parses_lengthLoop {α : Type} {f : Format (α × UInt16)} {n m : Nat} {swap : Nat → InPlace Unit}
    {g : ByteOrder → α → List UInt8} (hbytes : ∀ order a, f.bytes order a = g order a.1 ++ order.word a.2.toNat)
    (hsize : ∀ order a, (g order a).length = n)
    (hall : ∀ bytes : List UInt8, bytes.length = n → ∃ a, bytes = g .transmission a)
    (hswap : ∀ left a right, swap left.length (left ++ (f.bytes .transmission a ++ right)) =
      some (some (), left ++ (f.bytes .host a ++ right))) :
    Parses (f.andThen fun a => descriptorsFormat (a.2.toNat % m)) before len (fun start => do
      let pos ← overlay len (n + 2) swap start
      let size ← look (lengthBits m · (start + n))
      checkDescriptors len pos size) := by
  have hheader : Parses f before len (overlay len (n + 2) swap) := by
    refine Parses.fixed (fun a => ?_) (fun bytes hlength => ?_) hswap
    · rw [hbytes,length_append,hsize,ByteOrder.length_word]
    · obtain ⟨a,ha⟩ := hall (bytes.take n) (by rw [length_take]; omega)
      have htwo : (bytes.drop n).length = 2 := by rw [length_drop]; omega
      obtain ⟨b,c,hbc⟩ := List.length_eq_two.mp htwo
      obtain ⟨w,hw⟩ := exists_uint16 b c
      refine ⟨⟨a,w⟩,?_⟩
      rw [hbytes]
      change _ = _ ++ be16 w.toNat
      rw [← ha,← hw,← hbc,take_append_drop]
  refine hheader.bind fun a start => ?_
  refine Parses.look (c := a.2.toNat % m) (fun left right hleft => ?_) (parses_descriptors _)
  obtain ⟨l,-,rfl,rfl⟩ := hleft
  have hpos : l.length + n = (l ++ g .host a.1).length := by rw [length_append,hsize]
  rw [lengthBits,hbytes,hpos,append_assoc,append_assoc,← append_assoc l,
    ← Nat.add_zero (l ++ _).length,word16_behind]
  exact congrArg (Option.map (· % m)) (word16_le16 a.2.toNat_lt right)

theorem parses_wordLoop (m : Nat) : Parses (lengthLoopFormat m) before len (fun start => do
    let pos ← overlay len 2 (fun pos => change (bswap16 · pos)) start
    let size ← look (lengthBits m · start)
    checkDescriptors len pos size) := by
  let f : Format (Unit × UInt16) := ⟨fun order a => [] ++ order.word a.2.toNat,fun a => by simp⟩
  have hloop : Parses (f.andThen fun a => descriptorsFormat (a.2.toNat % m)) before len (fun start => do
      let pos ← overlay len (0 + 2) (fun pos => change (bswap16 · pos)) start
      let size ← look (lengthBits m · (start + 0))
      checkDescriptors len pos size) :=
    parses_lengthLoop (g := fun _ _ => []) (fun _ _ => rfl) (fun _ _ => rfl)
      (fun bytes hlength => ⟨(),eq_nil_of_length_eq_zero hlength⟩)
      (fun left a right => change_of_some (bswap16_be16 left a.2.toNat right))
  refine hloop.of_bytes (fun l => ?_) fun a => ?_
  · exact ⟨⟨((), l.word),l.descriptors,l.length_eq⟩,fun _ => rfl⟩
  · obtain ⟨⟨_,w⟩,ds,hds⟩ := a
    exact ⟨⟨w,ds,hds⟩,fun _ => rfl⟩

end Parsing

section Iterating

variable {m : Nat} {buf : List UInt8} {pos : Nat}

theorem LengthLoop.of_standsAt {l : LengthLoop m} (h : StandsAt buf pos (l.bytes .host)) :
    lengthBits m buf pos = some (descriptorLoop l.descriptors).length ∧
      StandsAt buf (pos + 2) (descriptorLoop l.descriptors) := by
  refine ⟨?_,h.right⟩
  have hlength : 0 + 1 < (l.bytes .host).length := by
    rw [LengthLoop.bytes,length_append,ByteOrder.length_word]
    omega
  have hword : word16 (l.bytes .host) 0 = some l.word.toNat := word16_le16 l.word.toNat_lt _
  rw [lengthBits,← Nat.add_zero pos,h.word16 hlength,hword,l.length_eq]
  rfl

variable (m buf)

/-- The first descriptor of the loop at `loop` whose length is at `field`. -/
def descriptorsFirst (field loop : Nat) : Option (Option Nat) := do
  let size ← lengthBits m buf field
  return if size = 0 then none else some loop

def descriptorsNext (field loop pos : Nat) : Option (Option Nat) := do
  let size ← lengthBits m buf field
  nextDescriptor buf loop size pos

variable {m buf}

theorem enumerates_lengthLoop {field loop : Nat} {ds : List Descriptor}
    (hfield : lengthBits m buf field = some (descriptorLoop ds).length) (hloop : StandsAt buf loop (descriptorLoop ds)) :
    Enumerates buf (descriptorsFirst m buf field loop) (descriptorsNext m buf field loop) loop
      (ds.map Descriptor.bytes) := by
  have hnext : descriptorsNext m buf field loop = nextDescriptor buf loop (descriptorLoop ds).length := by
    funext pos
    rw [descriptorsNext,hfield]
    rfl
  rw [hnext]
  refine enumerates_descriptors hloop ?_ rfl
  rw [descriptorsFirst,hfield]
  change some (if (descriptorLoop ds).length = 0 then none else some loop) = _
  simp only [descriptorLoop_length_eq_zero]

/-- The iterators of a loop go through these descriptors, and the bytes they go through are those that pass the check of
the loop. -/
structure ExposesDescriptors (m : Nat) (buf : List UInt8) (field loop : Nat) (first : Option (Option Nat))
    (next : Nat → Option (Option Nat)) (ds : List Descriptor) : Prop where
  checked : (lengthBits m buf field).bind (verifyDescriptors buf loop) = some 0
  enumerates : Enumerates buf first next loop (ds.map Descriptor.bytes)

theorem LengthLoop.exposes {l : LengthLoop m} (h : StandsAt buf pos (l.bytes .host)) :
    ExposesDescriptors m buf pos (pos + 2) (descriptorsFirst m buf pos (pos + 2))
      (descriptorsNext m buf pos (pos + 2)) l.descriptors := by
  obtain ⟨hfield,hloop⟩ := LengthLoop.of_standsAt h
  refine ⟨?_,enumerates_lengthLoop hfield hloop⟩
  obtain ⟨left,right,rfl,hleft⟩ := hloop
  obtain ⟨status,hstatus,hverified⟩ := verifyDescriptors_spec left (descriptorLoop l.descriptors) right
  rw [hfield,bind_some,← hleft,hstatus,hverified.mpr ⟨_,rfl⟩]

end Iterating

end LinuxDvb.Ucsi
