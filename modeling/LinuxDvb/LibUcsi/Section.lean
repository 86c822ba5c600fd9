import LinuxDvb.Framework.Buffer

/-!
# Sections and descriptors

The section header is decoded in place: its words are brought into the order of the host, and the fields are read as a
little-endian host lays out the bit fields, from the low end of the word.
-/

namespace LinuxDvb.Ucsi

def crc32tbl : Array UInt32 := #[
  0x00000000, 0x04c11db7, 0x09823b6e, 0x0d4326d9, 0x130476dc, 0x17c56b6b, 0x1a864db2, 0x1e475005,
  0x2608edb8, 0x22c9f00f, 0x2f8ad6d6, 0x2b4bcb61, 0x350c9b64, 0x31cd86d3, 0x3c8ea00a, 0x384fbdbd,
  0x4c11db70, 0x48d0c6c7, 0x4593e01e, 0x4152fda9, 0x5f15adac, 0x5bd4b01b, 0x569796c2, 0x52568b75,
  0x6a1936c8, 0x6ed82b7f, 0x639b0da6, 0x675a1011, 0x791d4014, 0x7ddc5da3, 0x709f7b7a, 0x745e66cd,
  0x9823b6e0, 0x9ce2ab57, 0x91a18d8e, 0x95609039, 0x8b27c03c, 0x8fe6dd8b, 0x82a5fb52, 0x8664e6e5,
  0xbe2b5b58, 0xbaea46ef, 0xb7a96036, 0xb3687d81, 0xad2f2d84, 0xa9ee3033, 0xa4ad16ea, 0xa06c0b5d,
  0xd4326d90, 0xd0f37027, 0xddb056fe, 0xd9714b49, 0xc7361b4c, 0xc3f706fb, 0xceb42022, 0xca753d95,
  0xf23a8028, 0xf6fb9d9f, 0xfbb8bb46, 0xff79a6f1, 0xe13ef6f4, 0xe5ffeb43, 0xe8bccd9a, 0xec7dd02d,
  0x34867077, 0x30476dc0, 0x3d044b19, 0x39c556ae, 0x278206ab, 0x23431b1c, 0x2e003dc5, 0x2ac12072,
  0x128e9dcf, 0x164f8078, 0x1b0ca6a1, 0x1fcdbb16, 0x018aeb13, 0x054bf6a4, 0x0808d07d, 0x0cc9cdca,
  0x7897ab07, 0x7c56b6b0, 0x71159069, 0x75d48dde, 0x6b93dddb, 0x6f52c06c, 0x6211e6b5, 0x66d0fb02,
  0x5e9f46bf, 0x5a5e5b08, 0x571d7dd1, 0x53dc6066, 0x4d9b3063, 0x495a2dd4, 0x44190b0d, 0x40d816ba,
  0xaca5c697, 0xa864db20, 0xa527fdf9, 0xa1e6e04e, 0xbfa1b04b, 0xbb60adfc, 0xb6238b25, 0xb2e29692,
  0x8aad2b2f, 0x8e6c3698, 0x832f1041, 0x87ee0df6, 0x99a95df3, 0x9d684044, 0x902b669d, 0x94ea7b2a,
  0xe0b41de7, 0xe4750050, 0xe9362689, 0xedf73b3e, 0xf3b06b3b, 0xf771768c, 0xfa325055, 0xfef34de2,
  0xc6bcf05f, 0xc27dede8, 0xcf3ecb31, 0xcbffd686, 0xd5b88683, 0xd1799b34, 0xdc3abded, 0xd8fba05a,
  0x690ce0ee, 0x6dcdfd59, 0x608edb80, 0x644fc637, 0x7a089632, 0x7ec98b85, 0x738aad5c, 0x774bb0eb,
  0x4f040d56, 0x4bc510e1, 0x46863638, 0x42472b8f, 0x5c007b8a, 0x58c1663d, 0x558240e4, 0x51435d53,
  0x251d3b9e, 0x21dc2629, 0x2c9f00f0, 0x285e1d47, 0x36194d42, 0x32d850f5, 0x3f9b762c, 0x3b5a6b9b,
  0x0315d626, 0x07d4cb91, 0x0a97ed48, 0x0e56f0ff, 0x1011a0fa, 0x14d0bd4d, 0x19939b94, 0x1d528623,
  0xf12f560e, 0xf5ee4bb9, 0xf8ad6d60, 0xfc6c70d7, 0xe22b20d2, 0xe6ea3d65, 0xeba91bbc, 0xef68060b,
  0xd727bbb6, 0xd3e6a601, 0xdea580d8, 0xda649d6f, 0xc423cd6a, 0xc0e2d0dd, 0xcda1f604, 0xc960ebb3,
  0xbd3e8d7e, 0xb9ff90c9, 0xb4bcb610, 0xb07daba7, 0xae3afba2, 0xaafbe615, 0xa7b8c0cc, 0xa379dd7b,
  0x9b3660c6, 0x9ff77d71, 0x92b45ba8, 0x9675461f, 0x8832161a, 0x8cf30bad, 0x81b02d74, 0x857130c3,
  0x5d8a9099, 0x594b8d2e, 0x5408abf7, 0x50c9b640, 0x4e8ee645, 0x4a4ffbf2, 0x470cdd2b, 0x43cdc09c,
  0x7b827d21, 0x7f436096, 0x7200464f, 0x76c15bf8, 0x68860bfd, 0x6c47164a, 0x61043093, 0x65c52d24,
  0x119b4be9, 0x155a565e, 0x18197087, 0x1cd86d30, 0x029f3d35, 0x065e2082, 0x0b1d065b, 0x0fdc1bec,
  0x3793a651, 0x3352bbe6, 0x3e119d3f, 0x3ad08088, 0x2497d08d, 0x2056cd3a, 0x2d15ebe3, 0x29d4f654,
  0xc5a92679, 0xc1683bce, 0xcc2b1d17, 0xc8ea00a0, 0xd6ad50a5, 0xd26c4d12, 0xdf2f6bcb, 0xdbee767c,
  0xe3a1cbc1, 0xe760d676, 0xea23f0af, 0xeee2ed18, 0xf0a5bd1d, 0xf464a0aa, 0xf9278673, 0xfde69bc4,
  0x89b8fd09, 0x8d79e0be, 0x803ac667, 0x84fbdbd0, 0x9abc8bd5, 0x9e7d9662, 0x933eb0bb, 0x97ffad0c,
  0xafb010b1, 0xab710d06, 0xa6322bdf, 0xa2f33668, 0xbcb4666d, 0xb8757bda, 0xb5365d03, 0xb1f740b4]

def crc32Init : UInt32 := 0xffffffff

/-- One pass of the loop of `crc32`. -/
def crc32Byte (crc : UInt32) (b : UInt8) : UInt32 :=
  (crc <<< 8) ^^^ crc32tbl.getD (((crc >>> 24) ^^^ b.toUInt32) &&& 0xff).toNat 0

/-- `crc32(crc, buf, len)` -/
def crc32 (crc : UInt32) (buf : List UInt8) (len : Nat) : Option UInt32 :=
  if len ≤ buf.length then some ((buf.take len).foldl crc32Byte crc) else none

/-- What a function gives back that decodes in place: whether it accepts, and the buffer. -/
abbrev Codec := Option (Bool × List UInt8)

/-- A 12-bit length, the low end of the word at `buf + pos`. -/
def lengthField (buf : List UInt8) (pos : Nat) : Option Nat := (word16 buf pos).map (· % 4096)

/-- `section->length` -/
def sectionLengthField (buf : List UInt8) : Option Nat := lengthField buf 1

/-- `section->syntax_indicator` -/
def syntaxIndicator (buf : List UInt8) : Option Nat := (word16 buf 1).map (· / 32768)

/-- `section_length(section)` -/
def sectionLength (buf : List UInt8) : Option Nat := (sectionLengthField buf).map (· + 3)

/-- `section_ext_length(section)`, in the arithmetic of `size_t`. -/
def sectionExtLength (buf : List UInt8) : Option Nat :=
  (sectionLengthField buf).map fun length => (UInt64.ofNat length + 3 - 4).toNat

/-- `section_codec(buf, len)` -/
def sectionCodec (buf : List UInt8) : Codec := do
  if buf.length < 3 then return (false, buf)
  let buf ← bswap16 buf 1
  let length ← sectionLengthField buf
  return (buf.length = length + 3, buf)

/-- `section_check_crc(section)`, with the buffer. -/
def sectionCheckCrc (buf : List UInt8) : Option (Int × List UInt8) := do
  let len ← sectionLength buf
  let buf ← bswap16 buf 1
  let crc ← crc32 crc32Init buf len
  let buf ← bswap16 buf 1
  return (if crc ≠ 0 then -1 else 0, buf)

/-- `section_ext_decode(section, check_crc)` -/
def sectionExtDecode (buf : List UInt8) (checkCrc : Bool) : Codec := do
  let syntaxed ← syntaxIndicator buf
  if syntaxed = 0 then return (false, buf)
  let (status, buf) ← if checkCrc then sectionCheckCrc buf else pure (0, buf)
  if status ≠ 0 then return (false, buf)
  let buf ← bswap16 buf 3
  return (true, buf)

theorem sectionLengthField_lt {buf : List UInt8} {length : Nat} (h : sectionLengthField buf = some length) :
    length < 4096 := by
  obtain ⟨w,-,rfl⟩ := map_eq_some_iff.mp h
  exact Nat.mod_lt _ (by decide)

theorem sectionExtLength_eq {buf : List UInt8} {length : Nat} (h : sectionLengthField buf = some length)
    (hlength : 1 ≤ length) : sectionExtLength buf = some (length - 1) := by
  have hlt := sectionLengthField_lt h
  have hsub : (UInt64.ofNat length + 3 - 4).toNat = length - 1 := by
    rw [UInt64.toNat_sub,UInt64.toNat_add,UInt64.toNat_ofNat']
    change (2 ^ 64 - 4 + (length % 2 ^ 64 + 3) % 2 ^ 64) % 2 ^ 64 = length - 1
    omega
  rw [sectionExtLength,h,map_some,hsub]

/-! ## Descriptors

A descriptor is a tag, the length of its data, and the data. A descriptor loop is a sequence of descriptors,
whose length is known from elsewhere. `verify_descriptors` accepts exactly the descriptor loops, and
`next_descriptor` goes through one. -/

structure Descriptor where
  tag : UInt8
  data : List UInt8
  fits : data.length < 256

def Descriptor.bytes (d : Descriptor) : List UInt8 := d.tag :: UInt8.ofNat d.data.length :: d.data

def descriptorLoop (ds : List Descriptor) : List UInt8 := (ds.map Descriptor.bytes).flatten

/-- The loop of `verify_descriptors(buf + off, len)`, from a pass on. -/
def verifyDescriptorsFrom (buf : List UInt8) (off len pos : Nat) : Option Int :=
  if pos < len then
    if pos + 2 > len then some (-1)
    else
      match buf[off + pos + 1]? with
      | none => none
      | some size => verifyDescriptorsFrom buf off len (pos + (2 + size.toNat))
  else if pos ≠ len then some (-1) else some 0
  termination_by len - pos

/-- `verify_descriptors(buf + off, len)` -/
def verifyDescriptors (buf : List UInt8) (off len : Nat) : Option Int :=
  verifyDescriptorsFrom buf off len 0

/-- `next_descriptor(buf + off, len, pos)` -/
def nextDescriptor (buf : List UInt8) (off len pos : Nat) : Option (Option Nat) := do
  let size ← buf[pos + 1]?
  let next := pos + 2 + size.toNat
  return if next ≥ off + len then none else some next

section Loop

theorem Descriptor.length_bytes (d : Descriptor) : d.bytes.length = d.data.length + 2 := rfl

theorem Descriptor.bytes_ne_nil (d : Descriptor) : d.bytes ≠ [] := cons_ne_nil _ _

theorem Descriptor.toNat_length (d : Descriptor) : (UInt8.ofNat d.data.length).toNat = d.data.length :=
  UInt8.toNat_ofNat_of_lt d.fits

theorem descriptorLoop_length_eq_zero {ds : List Descriptor} : (descriptorLoop ds).length = 0 ↔ ds = [] := by
  cases ds with
  | nil => exact iff_of_true rfl rfl
  | cons d ds =>
    rw [descriptorLoop,map_cons,flatten_cons,length_append,d.length_bytes]
    exact iff_of_false (by omega) (cons_ne_nil _ _)

theorem not_descriptorLoop_singleton (tag : UInt8) : ¬∃ ds, [tag] = descriptorLoop ds := by
  rintro ⟨ds,h⟩
  cases ds with
  | nil => cases h
  | cons d ds => cases h

theorem descriptorLoop_iff (tag size : UInt8) (rest : List UInt8) : (∃ ds, tag :: size :: rest = descriptorLoop ds) ↔
      size.toNat ≤ rest.length ∧ ∃ ds, rest.drop size.toNat = descriptorLoop ds := by
  constructor
  · rintro ⟨ds,h⟩
    cases ds with
    | nil => cases h
    | cons d ds =>
      change tag :: size :: rest =
        d.tag :: UInt8.ofNat d.data.length :: (d.data ++ descriptorLoop ds) at h
      injection h with _ h
      injection h with hsize hrest
      rw [hsize,d.toNat_length,hrest,length_append,drop_left]
      exact ⟨Nat.le_add_right _ _,ds,rfl⟩
  · rintro ⟨hsize,ds,hrest⟩
    have hlength : (rest.take size.toNat).length = size.toNat := by
      rw [length_take,Nat.min_eq_left hsize]
    refine ⟨⟨tag,rest.take size.toNat,by rw [hlength]; exact size.toNat_lt⟩ :: ds,?_⟩
    change _ = tag :: UInt8.ofNat (rest.take size.toNat).length :: (rest.take size.toNat ++ descriptorLoop ds)
    rw [hlength,UInt8.ofNat_toNat,← hrest,take_append_drop]

theorem verifyDescriptorsFrom_spec (left xs right : List UInt8) {off len pos : Nat}
    (hpos : left.length = off + pos) (hlen : pos + xs.length = len) :
    ∃ status, verifyDescriptorsFrom (left ++ (xs ++ right)) off len pos = some status ∧
      (status = 0 ↔ ∃ ds, xs = descriptorLoop ds) := by
  match xs with
  | [] =>
    refine ⟨0,?_,iff_of_true rfl ⟨[],rfl⟩⟩
    rw [length_nil] at hlen
    rw [verifyDescriptorsFrom,if_neg (by omega),if_neg (by omega)]
  | [tag] =>
    refine ⟨-1,?_,iff_of_false (by decide) (not_descriptorLoop_singleton tag)⟩
    rw [length_singleton] at hlen
    rw [verifyDescriptorsFrom,if_pos (by omega),if_pos (by omega)]
  | tag :: size :: rest =>
    rw [length_cons,length_cons] at hlen
    have hread : (left ++ (tag :: size :: rest ++ right))[off + pos + 1]? = some size := by
      rw [← hpos,getElem?_behind]
      rfl
    rw [verifyDescriptorsFrom,if_pos (by omega),if_neg (by omega),hread,descriptorLoop_iff]
    dsimp only
    by_cases hsize : size.toNat ≤ rest.length
    · -- the next pass starts behind the descriptor
      have hbuf : left ++ (tag :: size :: rest ++ right) =
          (left ++ (tag :: size :: rest.take size.toNat)) ++ (rest.drop size.toNat ++ right) := by
        rw [append_assoc,cons_append,cons_append,cons_append,cons_append,
          ← append_assoc (rest.take _),take_append_drop]
      have hleft : (left ++ (tag :: size :: rest.take size.toNat)).length = off + (pos + (2 + size.toNat)) := by
        rw [length_append,length_cons,length_cons,length_take,Nat.min_eq_left hsize,hpos]
        omega
      have hrest : pos + (2 + size.toNat) + (rest.drop size.toNat).length = len := by
        rw [length_drop]
        omega
      rw [hbuf]
      obtain ⟨status,hstatus,hiff⟩ := verifyDescriptorsFrom_spec _ _ right hleft hrest
      exact ⟨status,hstatus,by rw [hiff,and_iff_right hsize]⟩
    · -- the descriptor does not end inside the loop
      refine ⟨-1,?_,iff_of_false (by decide) fun h => hsize h.1⟩
      rw [verifyDescriptorsFrom,if_neg (by omega),if_pos (by omega)]
  termination_by xs.length
  decreasing_by
    rw [length_drop,length_cons,length_cons]
    omega

theorem verifyDescriptors_spec (left xs right : List UInt8) :
    ∃ status, verifyDescriptors (left ++ (xs ++ right)) left.length xs.length = some status ∧
      (status = 0 ↔ ∃ ds, xs = descriptorLoop ds) :=
  verifyDescriptorsFrom_spec left xs right rfl (Nat.zero_add _)

theorem enumerates_descriptors {buf : List UInt8} {off : Nat} {ds : List Descriptor}
    (hbuf : StandsAt buf off (descriptorLoop ds)) {first : Option (Option Nat)}
    (hfirst : first = some (if ds = [] then none else some off)) {len : Nat}
    (hlen : len = (descriptorLoop ds).length) :
    Enumerates buf first (nextDescriptor buf off len) off (ds.map Descriptor.bytes) := by
  subst hlen
  refine ⟨hbuf,_,hfirst,?_⟩
  have hnil : (if ds = [] then none else some off) =
      if ds.map Descriptor.bytes = [] then none else some off := by
    simp only [map_eq_nil_iff]
  rw [hnil]
  refine visits_starts ?_ rfl ?_
  · intro item hitem
    obtain ⟨d,-,rfl⟩ := mem_map.mp hitem
    exact d.bytes_ne_nil
  · intro pos item hitem
    have hstands := standsAt_of_mem hbuf hitem
    obtain ⟨d,-,rfl⟩ := mem_map.mp (List.of_mem_zip hitem).2
    have hread : buf[pos + 1]? = some (UInt8.ofNat d.data.length) :=
      hstands.getElem? (Nat.lt_add_of_pos_left (Nat.succ_pos _))
    have hnext : pos + 2 + d.data.length = pos + d.bytes.length := by
      rw [d.length_bytes]
      omega
    unfold nextDescriptor
    rw [hread]
    change some (if pos + 2 + (UInt8.ofNat d.data.length).toNat ≥ off + (descriptorLoop ds).length
      then none else some (pos + 2 + (UInt8.ofNat d.data.length).toNat)) = _
    rw [d.toNat_length,hnext]
    rfl

end Loop

end LinuxDvb.Ucsi
