import LinuxDvb.DvbCore.Net.Ule

/-!
# ULE encapsulation

The sender's side: SNDUs, and how they are cut into the cells of one PID. A cell continues at most one SNDU and then
may start others, back to back; the cell has PUSI and a pointer field exactly when an SNDU starts in it, every SNDU
has at least its two length bytes in the cell in which it starts, and what is left of a cell is filled with 0xff.
-/

namespace LinuxDvb.Net

/-- An optional extension header: its type, and the bytes up to the next type field, at most eight and
an even number. The receiver has handlers for the types up to 254. -/
structure OptionalHeader where
  htype : Nat
  bytes : List UInt8
  htype_lt : htype < 255
  length_even : bytes.length % 2 = 0
  length_le : bytes.length ≤ 8

def OptionalHeader.typeField (h : OptionalHeader) : Nat := (h.bytes.length / 2 + 1) * 256 + h.htype

def chainType : List OptionalHeader → Nat → Nat
  | [], payloadType => payloadType
  | h :: _, _ => h.typeField

def chainBytes : List OptionalHeader → Nat → List UInt8
  | [], _ => []
  | h :: hs, payloadType => h.bytes ++ htons (chainType hs payloadType) ++ chainBytes hs payloadType

/-- Fields of an SNDU. The type of the payload is an EtherType, or 1 for a bridged Ethernet frame. -/
structure SnduFields where
  dest : Option (List UInt8)
  headers : List OptionalHeader
  payloadType : Nat
  payload : List UInt8

namespace SnduFields

variable (u : SnduFields)

def type : Nat := chainType u.headers u.payloadType

def body : List UInt8 := u.dest.getD [] ++ (chainBytes u.headers u.payloadType ++ u.payload)

def length : Nat := u.body.length + 4

def header : List UInt8 := htons (u.length + if u.dest.isNone then 0x8000 else 0) ++ htons u.type

def crc : Nat := (crc32Be 0xffffffff (u.header ++ u.body)).toNat

def rest : List UInt8 := u.body ++ htonl u.crc

def wire : List UInt8 := u.header ++ u.rest

def bridged : Bool := u.payloadType = 1

def frameType : Nat := ntohs (Mem.ofList u.payload) 12

end SnduFields

/-- An SNDU with a payload. A bridged frame has an Ethernet header, with an EtherType or with the length
of what follows, which may be padded. A length of 0x7fff with the D bit would be an end indicator. -/
structure Sndu extends SnduFields where
  length_dest : ∀ d, dest = some d → d.length = ethAlen
  payloadType_ok : toSnduFields.bridged = true ∨ 1536 ≤ payloadType
  payloadType_lt : payloadType < 65536
  length_frame : toSnduFields.bridged = true → ethHlen ≤ payload.length
  frameType_le : toSnduFields.bridged = true → toSnduFields.frameType < 1536 →
    ethHlen + toSnduFields.frameType ≤ payload.length
  length_ge : 5 ≤ toSnduFields.length
  length_lt : toSnduFields.length < 0x8000
  length_ne : dest = none → toSnduFields.length ≠ 0x7fff

theorem OptionalHeader.typeField_lt (h : OptionalHeader) : h.typeField < 1536 := by
  have hle := h.length_le
  have hlt := h.htype_lt
  unfold typeField
  omega

theorem chainType_lt (hs : List OptionalHeader) {payloadType : Nat} (h : payloadType < 65536) :
    chainType hs payloadType < 65536 := by
  cases hs with
  | nil => exact h
  | cons x hs =>
    have := x.typeField_lt
    simp only [chainType]
    omega

namespace Sndu

variable (u : Sndu)

theorem type_lt : u.type < 65536 := chainType_lt u.headers u.payloadType_lt

@[simp] theorem length_header : u.header.length = 4 := rfl

@[simp] theorem length_rest : u.rest.length = u.length := by
  simp [SnduFields.rest,SnduFields.length]

theorem length_wire : u.wire.length = 4 + u.length := by
  simp [SnduFields.wire]

theorem lengthField_lt : u.length + (if u.dest.isNone then 0x8000 else 0) < 65536 := by
  have := u.length_lt
  split <;> omega

theorem lengthField_ne : u.length + (if u.dest.isNone then 0x8000 else 0) ≠ 0xffff := by
  have hlt := u.length_lt
  split
  next hnone =>
    have := u.length_ne (by simpa using hnone)
    omega
  next => omega

end Sndu

/-- A cell: the SNDU that it continues, with the number of bytes sent before, and those that start. -/
structure UleCell where
  continued : Option (Sndu × Nat)
  started : List Sndu

def Fits : Nat → List Sndu → Prop
  | _, [] => True
  | room, u :: us => 2 ≤ room ∧ Fits (room - u.wire.length) us

def cutSndu : Nat → List Sndu → Option (Sndu × Nat)
  | _, [] => none
  | room, u :: us =>
    if room < u.wire.length then some (u, room) else cutSndu (room - u.wire.length) us

def wholeSndus : Nat → List Sndu → List Sndu
  | _, [] => []
  | room, u :: us =>
    if room < u.wire.length then [] else u :: wholeSndus (room - u.wire.length) us

def wires (us : List Sndu) : List UInt8 := (us.map fun u => u.wire).flatten

def padded (room : Nat) (bytes : List UInt8) : List UInt8 :=
  (bytes ++ List.replicate room 0xff).take room

namespace UleCell

def tail (cell : UleCell) : List UInt8 :=
  match cell.continued with
  | none => []
  | some (u, k) => u.wire.drop k

def pusi (cell : UleCell) : Bool := !cell.started.isEmpty

def payload (cell : UleCell) : List UInt8 :=
  if cell.pusi then
    UInt8.ofNat cell.tail.length :: padded 183 (cell.tail ++ wires cell.started)
  else padded 184 cell.tail

def leaves (cell : UleCell) : Option (Sndu × Nat) :=
  if cell.pusi then cutSndu (183 - cell.tail.length) cell.started
  else
    match cell.continued with
    | none => none
    | some (u, k) => if 184 < u.wire.length - k then some (u, k + 184) else none

def ended (cell : UleCell) : List Sndu :=
  (if cell.pusi ∨ cell.tail.length ≤ 184 then (cell.continued.map Prod.fst).toList else []) ++
    wholeSndus (183 - cell.tail.length) cell.started

/-- The type field of the SNDU that the cell continues lies in the cell, or a part of it, and another
SNDU starts behind it. -/
def splitsHeader (cell : UleCell) : Bool :=
  cell.pusi && cell.continued.any fun c => c.2 < 4

end UleCell

/-- Consecutive cells, of which the first continues `pending`; the last leaves nothing. -/
def Encapsulation : Option (Sndu × Nat) → List UleCell → Prop
  | pending, [] => pending = none
  | pending, cell :: cells =>
    cell.continued = pending ∧ Fits (183 - cell.tail.length) cell.started ∧
      Encapsulation cell.leaves cells

/-- The bytes of a cell on the wire: no transport error, not scrambled, no adaptation field. -/
def Carries (bytes : List UInt8) (cell : UleCell) (cc : Nat) : Prop :=
  ∃ b1 b2 b3, bytes = 0x47 :: b1 :: b2 :: b3 :: cell.payload ∧ b1 &&& 0x80 = 0 ∧
    cell.pusi = decide (b1 &&& 0x40 ≠ 0) ∧ b3 &&& 0xf0 = 0x10 ∧ (b3 &&& 0x0f).toNat = cc

def CarriesAll : Nat → List UleCell → List (List UInt8) → Prop
  | _, [], [] => True
  | cc, cell :: cells, bytes :: more =>
    Carries bytes cell cc ∧ CarriesAll ((cc + 1) % 16) cells more
  | _, _, _ => False

theorem length_padded (room : Nat) (bytes : List UInt8) : (padded room bytes).length = room := by
  simp [padded]

theorem padded_append {room : Nat} {xs : List UInt8} (h : xs.length ≤ room) (ys : List UInt8) :
    padded room (xs ++ ys) = xs ++ padded (room - xs.length) ys := by
  obtain ⟨k,rfl⟩ := Nat.exists_eq_add_of_le h
  unfold padded
  rw [append_assoc,List.take_length_add_append,Nat.add_sub_cancel_left,Nat.add_comm,
    List.replicate_add,← append_assoc ys,take_append_of_le_length (by simp)]

theorem padded_of_le {room : Nat} {xs : List UInt8} (h : room ≤ xs.length) : padded room xs = xs.take room := by
  rw [padded,take_append_of_le_length h]

theorem length_payload (cell : UleCell) : cell.payload.length = 184 := by
  unfold UleCell.payload
  split <;> simp [length_padded]

theorem wholeSndus_append_cut {room : Nat} {us : List Sndu} (h : Fits room us) :
    us = wholeSndus room us ++ ((cutSndu room us).map Prod.fst).toList := by
  induction us generalizing room with
  | nil => rfl
  | cons u us ih =>
    rw [wholeSndus,cutSndu]
    split
    next hcut =>
      cases us with
      | nil => rfl
      | cons v us =>
        have := h.2.1
        omega
    next =>
      conv_lhs => rw [ih h.2]
      rfl

theorem UleCell.ended_append_leaves {cell : UleCell} (h : Fits (183 - cell.tail.length) cell.started) :
    (cell.continued.map Prod.fst).toList ++ cell.started =
      cell.ended ++ (cell.leaves.map Prod.fst).toList := by
  unfold ended leaves
  cases hpusi : cell.pusi with
  | true =>
    simp only [true_or,if_true,append_assoc]
    rw [← wholeSndus_append_cut h]
  | false =>
    have hnil : cell.started = [] := by simpa [pusi] using hpusi
    simp only [hnil,wholeSndus,Bool.false_eq_true,false_or,if_false,append_nil]
    cases hcont : cell.continued with
    | none => simp
    | some c =>
      simp only [tail,hcont,length_drop]
      by_cases hle : c.1.wire.length - c.2 ≤ 184
      · simp [hle]
      · simp [hle,Nat.not_le.mp hle]

theorem Encapsulation.started_eq {pending : Option (Sndu × Nat)} {cells : List UleCell}
    (h : Encapsulation pending cells) :
    (pending.map Prod.fst).toList ++ cells.flatMap UleCell.started = cells.flatMap UleCell.ended := by
  induction cells generalizing pending with
  | nil =>
    cases h
    rfl
  | cons cell cells ih =>
    obtain ⟨rfl,hfits,hnext⟩ := h
    rw [flatMap_cons,flatMap_cons,← append_assoc,
      UleCell.ended_append_leaves hfits,append_assoc,ih hnext]

end LinuxDvb.Net
