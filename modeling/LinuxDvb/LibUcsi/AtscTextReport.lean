import LinuxDvb.LibUcsi.AtscTextDecode

/-!
# What decoding of a text returns

The characters of a segment follow from its bits and the trees alone, and so does where decoding ends. The function
returns the position behind them, except where it meets the code of the end of a string: there it returns 0.
-/

namespace LinuxDvb.Ucsi

open BitCodes

/-- What the next bits are: a code of the tree for a character, or bytes. -/
inductive CodeContext where
  | coded (tree : Nat)
  | plain
deriving DecidableEq, Repr

/-- Why there are no more characters: the code of the end, the same as a byte, no more bits, a byte that is not complete,
or a character that there is no tree for. -/
inductive TextEnd where
  | endCode
  | endByte
  | endOfInput
  | cut
  | noTree
deriving DecidableEq, Repr

def hufftreeTreeval (hufftree : Hufftree) (tree treeidx : Nat) (bit : Bool) : Nat :=
  let entry := (hufftree.getD tree []).getD treeidx (0, 0)
  if bit then entry.2 else entry.1

def hufftreeChild (hufftree : Hufftree) (tree treeidx : Nat) (bit : Bool) : Nat ⊕ Nat :=
  if hufftreeTreeval hufftree tree treeidx bit &&& hufftreeLiteralMask ≠ 0 then
    .inr (hufftreeTreeval hufftree tree treeidx bit &&& 0x7f)
  else .inl (hufftreeTreeval hufftree tree treeidx bit)

def contextAfter (byte : UInt8) : CodeContext := if 0x80 ≤ byte.toNat then .plain else .coded byte.toNat

inductive Decodes (hufftree : Hufftree) : CodeContext → List Bool → List Char → TextEnd → Prop
  | done (context : CodeContext) : Decodes hufftree context [] [] .endOfInput
  | inside {tree : Nat} {bits : List Bool} (htree : tree < hufftree.length)
      (h : Inside (hufftreeChild hufftree tree) 0 bits) : Decodes hufftree (.coded tree) bits [] .endOfInput
  | noTree {tree : Nat} {bit : Bool} {bits : List Bool} (htree : hufftree.length ≤ tree) :
      Decodes hufftree (.coded tree) (bit :: bits) [] .noTree
  | endCode {tree : Nat} {code rest : List Bool} (htree : tree < hufftree.length)
      (h : Walk (hufftreeChild hufftree tree) 0 code huffstringEnd) :
      Decodes hufftree (.coded tree) (code ++ rest) [] .endCode
  | escape {tree : Nat} {code rest : List Bool} {chars : List Char} {ending : TextEnd} (htree : tree < hufftree.length)
      (h : Walk (hufftreeChild hufftree tree) 0 code huffstringEscape) (hrest : Decodes hufftree .plain rest chars ending) :
      Decodes hufftree (.coded tree) (code ++ rest) chars ending
  | character {tree c : Nat} {code rest : List Bool} {chars : List Char} {ending : TextEnd}
      (htree : tree < hufftree.length) (h : Walk (hufftreeChild hufftree tree) 0 code c) (hend : c ≠ huffstringEnd)
      (hescape : c ≠ huffstringEscape) (hrest : Decodes hufftree (.coded c) rest chars ending) :
      Decodes hufftree (.coded tree) (code ++ rest) (Char.ofNat c :: chars) ending
  | cut {bits : List Bool} (hbits : bits ≠ []) (hshort : bits.length < 8) : Decodes hufftree .plain bits [] .cut
  | endByte {rest : List Bool} {byte : UInt8} (hend : byte.toNat = huffstringEnd) :
      Decodes hufftree .plain (byteBits byte ++ rest) [] .endByte
  | escapeByte {rest : List Bool} {chars : List Char} {ending : TextEnd} {byte : UInt8}
      (hescape : byte.toNat = huffstringEscape) (hrest : Decodes hufftree (.coded huffstringEscape) rest chars ending) :
      Decodes hufftree .plain (byteBits byte ++ rest) chars ending
  | byte {rest : List Bool} {chars : List Char} {ending : TextEnd} {byte : UInt8} (hend : byte.toNat ≠ huffstringEnd)
      (hescape : byte.toNat ≠ huffstringEscape) (hrest : Decodes hufftree (contextAfter byte) rest chars ending) :
      Decodes hufftree .plain (byteBits byte ++ rest) (Char.ofNat byte.toNat :: chars) ending

/-- The characters of a segment that is accepted, and why they end. -/
inductive SegmentDecodes (segment : AtscTextStringSegment) : List Char → TextEnd → Prop
  | none (hmode : segment.mode ≤ atscTextSegmentModeUnicodeRangeMax)
      (htype : segment.compressionType = atscTextCompressNone) :
      SegmentDecodes segment (segment.data.map fun byte => Char.ofNat (256 * segment.mode.toNat + byte.toNat)) .endOfInput
  | programTitle {chars : List Char} {ending : TextEnd} (hmode : segment.mode = 0)
      (htype : segment.compressionType = atscTextCompressProgramTitle)
      (h : Decodes programTitleHufftree (.coded 0) (segment.data.flatMap byteBits) chars ending) :
      SegmentDecodes segment chars ending
  | programDescription {chars : List Char} {ending : TextEnd} (hmode : segment.mode = 0)
      (htype : segment.compressionType = atscTextCompressProgramDescription)
      (h : Decodes programDescriptionHufftree (.coded 0) (segment.data.flatMap byteBits) chars ending) :
      SegmentDecodes segment chars ending

def TextEnd.Complete (ending : TextEnd) : Prop := ending = .endCode ∨ ending = .endByte ∨ ending = .endOfInput

/-- The buffer has these characters behind what was in front of the position. -/
structure Appended (dest dest' : DestBuf) (chars : List Char) : Prop where
  pos : dest'.pos = dest.pos + (chars.flatMap String.utf8EncodeChar).length
  bytes : dest'.bytes.take dest'.pos = dest.bytes.take dest.pos ++ chars.flatMap String.utf8EncodeChar

/-- Decoding ends without a fault, and fails or returns the position behind the characters of the segment. -/
def ReportsText (realloc : Realloc) (segment : AtscTextStringSegment) (dest : DestBuf) : Prop :=
  ∃ result dest', atscTextSegmentDecode realloc segment dest = .ok (result, dest') ∧
    (result < 0 ∨ result = dest'.pos ∧ dest.pos ≤ dest'.pos ∧ dest'.pos ≤ dest'.bytes.length ∧
        ∃ chars ending, SegmentDecodes segment chars ending ∧ ending.Complete ∧ Appended dest dest' chars)

section Conditions

variable (realloc : Realloc)

def RoomFor (pos size : Nat) (c : Char) : Prop := size ≤ pos + c.utf8Size → (realloc (size + destAllocDelta)).isSome

def Room : Nat → Nat → List Char → Prop
  | _, _, [] => True
  | pos, size, c :: chars =>
    RoomFor realloc pos size c ∧
      Room (pos + c.utf8Size) (if size ≤ pos + c.utf8Size then size + destAllocDelta else size) chars

/-- What the end of a text asks for: a code of the end stands at position 0, no character without a tree has bits behind
it, and a position that is returned is the same as an `int`, or negative. -/
def TextEnd.Reported (pos : Nat) : TextEnd → Prop
  | .endCode => pos = 0
  | .endByte => intOfSize pos < 0 ∨ intOfSize pos = pos
  | .endOfInput => intOfSize pos < 0 ∨ intOfSize pos = pos
  | .cut => True
  | .noTree => False

def EndIsReported (segment : AtscTextStringSegment) (dest : DestBuf) : Prop :=
  ∀ chars ending, SegmentDecodes segment chars ending → Room realloc dest.pos dest.bytes.length chars →
    ending.Reported (dest.pos + (chars.flatMap String.utf8EncodeChar).length)

end Conditions

section Encoding

theorem or_and_mask (i a n : Nat) : 2 ^ i * a ||| (n &&& (2 ^ i - 1)) = n % 2 ^ i + 2 ^ i * a := by
  have hmod : n % 2 ^ i < 2 ^ i := Nat.mod_lt n (Nat.two_pow_pos i)
  rw [Nat.and_two_pow_sub_one_eq_mod,← Nat.two_pow_add_eq_or_of_lt hmod,Nat.add_comm]

theorem toNat_val_ofNat {n : Nat} (h : n < 0xd800) : (Char.ofNat n).val.toNat = n := by
  rw [Char.ofNat,dif_pos (.inl h)]
  rfl

theorem encodeUnicodeChar_eq {c : Nat} (h : c < 0xd800) :
    encodeUnicodeChar c = some (String.utf8EncodeChar (Char.ofNat c)) := by
  have htwo : 0xc0 ||| ((c >>> 6) &&& 0x1f) = c / 64 % 0x20 + 0xc0 := by
    rw [Nat.shiftRight_eq_div_pow]
    exact or_and_mask 5 6 (c / 64)
  have hthree : 0xe0 ||| ((c >>> 12) &&& 0x0f) = c / 4096 % 0x10 + 0xe0 := by
    rw [Nat.shiftRight_eq_div_pow]
    exact or_and_mask 4 14 (c / 4096)
  have hmiddle : 0x80 ||| ((c >>> 6) &&& 0x3f) = c / 64 % 0x40 + 0x80 := by
    rw [Nat.shiftRight_eq_div_pow]
    exact or_and_mask 6 2 (c / 64)
  have hlast : 0x80 ||| (c &&& 0x3f) = c % 0x40 + 0x80 := or_and_mask 6 2 c
  rw [encodeUnicodeChar,String.utf8EncodeChar,toNat_val_ofNat h,htwo,hthree,hmiddle,hlast]
  by_cases hone : c < 0x80
  · rw [if_pos hone,if_pos (Nat.le_of_lt_succ hone)]
  · rw [if_neg hone,if_neg fun hle => hone (Nat.lt_succ_of_le hle)]
    by_cases hmore : c < 0x800
    · rw [if_pos hmore,if_pos (Nat.le_of_lt_succ hmore)]
    · have hfits : c < 0x10000 := by omega
      rw [if_neg hmore,if_neg fun hle => hmore (Nat.lt_succ_of_le hle),if_pos hfits,if_pos (Nat.le_of_lt_succ hfits)]

end Encoding

@[simp] theorem ok_bind {α β : Type} (a : α) (next : α → Except DecodeFault β) : (Except.ok a >>= next) = next a := rfl

section Appending

variable {realloc : Realloc} {dest : DestBuf}

theorem Appended.refl (dest : DestBuf) : Appended dest dest [] := ⟨rfl, (append_nil _).symm⟩

theorem Appended.cons {dest' dest'' : DestBuf} {c : Char} {chars : List Char} (h : Appended dest dest' [c])
    (hrest : Appended dest' dest'' chars) : Appended dest dest'' (c :: chars) := by
  have hpos := h.pos
  have hbytes := h.bytes
  rw [flatMap_singleton] at hpos hbytes
  refine ⟨?_,?_⟩
  · rw [hrest.pos,hpos,flatMap_cons,length_append,Nat.add_assoc]
  · rw [hrest.bytes,hbytes,flatMap_cons,append_assoc]

theorem write_eq {tmp : List UInt8} (h : dest.pos + tmp.length ≤ dest.bytes.length) :
    ∃ dest', dest.write tmp = .ok dest' ∧ dest'.pos = dest.pos + tmp.length ∧
      dest'.bytes.length = dest.bytes.length ∧ dest'.bytes.take dest'.pos = dest.bytes.take dest.pos ++ tmp := by
  have hinside := dest.inside
  have hlength : (dest.bytes.take dest.pos ++ tmp).length = dest.pos + tmp.length := by
    rw [length_append,length_take,Nat.min_eq_left hinside]
  rw [DestBuf.write,dif_pos h]
  refine ⟨_,rfl,rfl,?_,?_⟩
  · dsimp only
    rw [length_append,hlength,length_drop]
    omega
  · dsimp only
    rw [take_left' hlength]

theorem appendUnicodeChar_eq {c : Nat} (hc : c < 0xd800)
    (hroom : RoomFor realloc dest.pos dest.bytes.length (Char.ofNat c)) :
    ∃ dest', appendUnicodeChar realloc dest c = .ok (0, dest') ∧ Appended dest dest' [Char.ofNat c] ∧
      dest'.bytes.length = if dest.bytes.length ≤ dest.pos + (Char.ofNat c).utf8Size
        then dest.bytes.length + destAllocDelta else dest.bytes.length := by
  have hinside := dest.inside
  have hsize := String.length_utf8EncodeChar (Char.ofNat c)
  have hfour := Char.utf8Size_le_four (Char.ofNat c)
  have happended : ∀ {dest' : DestBuf}, dest'.pos = dest.pos + (String.utf8EncodeChar (Char.ofNat c)).length →
      dest'.bytes.take dest'.pos = dest.bytes.take dest.pos ++ String.utf8EncodeChar (Char.ofNat c) →
      Appended dest dest' [Char.ofNat c] := by
    intro dest' hpos hbytes
    refine ⟨?_,?_⟩
    · rw [hpos,flatMap_singleton]
    · rw [hbytes,flatMap_singleton]
  rw [appendUnicodeChar,encodeUnicodeChar_eq hc]
  dsimp only
  rw [hsize]
  by_cases hfull : dest.bytes.length ≤ dest.pos + (Char.ofNat c).utf8Size
  · rw [if_pos hfull,if_pos hfull]
    obtain ⟨more,hmore⟩ := isSome_iff_exists.mp (hroom hfull)
    have hgrown : (dest.grow more.val).bytes.length = dest.bytes.length + destAllocDelta :=
      length_append.trans (congrArg (dest.bytes.length + ·) more.property)
    have hfits : (dest.grow more.val).pos + (String.utf8EncodeChar (Char.ofNat c)).length ≤
        (dest.grow more.val).bytes.length := by
      have hdelta : destAllocDelta = 20 := rfl
      rw [hgrown,hsize]
      change dest.pos + _ ≤ _
      omega
    obtain ⟨dest',hwrite,hpos,hlength,hbytes⟩ := write_eq hfits
    refine ⟨dest',?_,happended hpos ?_,hlength.trans hgrown⟩
    · rw [hmore]
      dsimp only
      rw [hwrite]
      rfl
    · rw [hbytes]
      change (dest.bytes ++ more.val).take dest.pos ++ _ = _
      rw [take_append_of_le_length hinside]
  · rw [if_neg hfull,if_neg hfull]
    have hfits : dest.pos + (String.utf8EncodeChar (Char.ofNat c)).length ≤ dest.bytes.length := by
      rw [hsize]
      omega
    obtain ⟨dest',hwrite,hpos,hlength,hbytes⟩ := write_eq hfits
    refine ⟨dest',?_,happended hpos hbytes,hlength⟩
    rw [hwrite]
    rfl

theorem appendUnicodeChar_full {c : Nat} (hc : c < 0xd800)
    (hroom : ¬ RoomFor realloc dest.pos dest.bytes.length (Char.ofNat c)) :
    appendUnicodeChar realloc dest c = .ok (errNomem, dest) := by
  obtain ⟨hfull,hnone⟩ := Classical.not_imp.mp hroom
  rw [appendUnicodeChar,encodeUnicodeChar_eq hc]
  dsimp only
  rw [String.length_utf8EncodeChar,if_pos hfull,Option.not_isSome_iff_eq_none.mp hnone]

def TextEnd.result (dest : DestBuf) : TextEnd → Except DecodeFault (Int × DestBuf)
  | .endCode => .ok (0, dest)
  | .endByte => .ok (intOfSize dest.pos, dest)
  | .endOfInput => .ok (intOfSize dest.pos, dest)
  | .cut => .ok (-1, dest)
  | .noTree => .error .outside

/-- Decoding of these characters: it fails if there is no room for them, and appends them otherwise. -/
structure Outcome (realloc : Realloc) (dest : DestBuf) (chars : List Char) (ending : TextEnd)
    (r : Except DecodeFault (Int × DestBuf)) : Prop where
  full : ¬ Room realloc dest.pos dest.bytes.length chars → ∃ dest', r = .ok (-1, dest')
  room : Room realloc dest.pos dest.bytes.length chars → ∃ dest', Appended dest dest' chars ∧ r = ending.result dest'

theorem Outcome.nil (realloc : Realloc) (dest : DestBuf) (ending : TextEnd) :
    Outcome realloc dest [] ending (ending.result dest) :=
  ⟨fun h => (h trivial).elim, fun _ => ⟨dest, .refl dest, rfl⟩⟩

theorem Outcome.cons {c : Nat} {chars : List Char} {ending : TextEnd}
    {next : Int × DestBuf → Except DecodeFault (Int × DestBuf)} (hc : c < 0xd800)
    (hfail : ∃ dest', next (errNomem, dest) = .ok (-1, dest'))
    (hrest : ∀ dest', Outcome realloc dest' chars ending (next (0, dest'))) :
    Outcome realloc dest (Char.ofNat c :: chars) ending (appendUnicodeChar realloc dest c >>= next) := by
  by_cases hroom : RoomFor realloc dest.pos dest.bytes.length (Char.ofNat c)
  · obtain ⟨dest',happend,happended,hlength⟩ := appendUnicodeChar_eq hc hroom
    have hpos := happended.pos
    rw [flatMap_singleton,String.length_utf8EncodeChar] at hpos
    rw [happend]
    change Outcome realloc dest _ ending (next (0, dest'))
    refine ⟨fun hfull => (hrest dest').full fun h => hfull ⟨hroom,?_⟩,fun h => ?_⟩
    · rwa [hpos,hlength] at h
    · obtain ⟨-,h⟩ := h
      rw [← hlength,← hpos] at h
      obtain ⟨dest'',happended',hresult⟩ := (hrest dest').room h
      exact ⟨dest'',happended.cons happended',hresult⟩
  · rw [appendUnicodeChar_full hc hroom]
    exact ⟨fun _ => hfail,fun h => absurd h.1 hroom⟩

end Appending

section Bits

def HuffBuff.rest (hbuf : HuffBuff) : List Bool := ((hbuf.buf.drop hbuf.curByte).flatMap byteBits).drop hbuf.curBit

variable {hbuf : HuffBuff}

theorem rest_huffbuffInit (buf : List UInt8) : (huffbuffInit buf).rest = buf.flatMap byteBits := rfl

theorem HuffBuff.rest_of_lt (h : hbuf.curByte < hbuf.buf.length) :
    hbuf.rest = hbuf.buf[hbuf.curByte].toNat.testBit (7 - hbuf.curBit) :: hbuf.advance.rest := by
  have hbit := hbuf.bit_lt
  have hdrop : ∀ i ≤ 8, ((hbuf.buf.drop hbuf.curByte).flatMap byteBits).drop i =
      (byteBits hbuf.buf[hbuf.curByte]).drop i ++ (hbuf.buf.drop (hbuf.curByte + 1)).flatMap byteBits := by
    intro i hi
    rw [List.drop_eq_getElem_cons h,flatMap_cons,List.drop_append_of_le_length (by rwa [length_byteBits])]
  rw [HuffBuff.rest,hdrop _ (Nat.le_of_lt hbit),drop_byteBits _ hbit,cons_append,HuffBuff.advance]
  split
  case isTrue hlast =>
    have height : hbuf.curBit + 1 = 8 := by omega
    rw [height,drop_eq_nil_of_le (Nat.le_of_eq (length_byteBits _))]
    rfl
  case isFalse hmore => rw [HuffBuff.rest,hdrop _ hbit]

theorem HuffBuff.rest_of_not_lt (h : ¬ hbuf.curByte < hbuf.buf.length) : hbuf.rest = [] := by
  rw [HuffBuff.rest,drop_eq_nil_of_le (Nat.not_lt.mp h)]
  exact List.drop_nil

theorem HuffBuff.bit_eq (h : hbuf.curByte < hbuf.buf.length) :
    hbuf.bit = .ok (hbuf.buf[hbuf.curByte].toNat.testBit (7 - hbuf.curBit)) := by
  have hmask : ∀ i < 8, 0x80 >>> i = 2 ^ (7 - i) := by decide
  have hpos := Nat.two_pow_pos (7 - hbuf.curBit)
  rw [HuffBuff.bit,getElem?_eq_getElem h]
  dsimp only
  rw [hmask _ hbuf.bit_lt,Nat.and_two_pow]
  cases hbuf.buf[hbuf.curByte].toNat.testBit (7 - hbuf.curBit) with
  | false => rw [Bool.toNat_false,Nat.zero_mul]; rfl
  | true =>
    rw [Bool.toNat_true,Nat.one_mul]
    exact congrArg _ (bne_iff_ne.mpr (Nat.ne_of_gt hpos))

theorem HuffBuff.curByte_lt {b : Bool} {bits : List Bool} (h : hbuf.rest = b :: bits) :
    hbuf.curByte < hbuf.buf.length := by
  by_contra hnot
  rw [HuffBuff.rest_of_not_lt hnot] at h
  cases h

theorem HuffBuff.not_curByte_lt (h : hbuf.rest = []) : ¬ hbuf.curByte < hbuf.buf.length := by
  intro hlt
  rw [HuffBuff.rest_of_lt hlt] at h
  cases h

theorem HuffBuff.bit_of_rest {b : Bool} {bits : List Bool} (h : hbuf.rest = b :: bits) :
    hbuf.bit = .ok b ∧ hbuf.advance.rest = bits := by
  have hlt := HuffBuff.curByte_lt h
  rw [HuffBuff.rest_of_lt hlt] at h
  obtain ⟨hb,hbits⟩ := List.cons.inj h
  exact ⟨hb ▸ HuffBuff.bit_eq hlt,hbits⟩

/-- How `huffbuff_bits` puts bits together. -/
def joinBits (result : Nat) (bit : Bool) : Nat := (result <<< 1) % 256 ||| bit.toNat

theorem joinBits_byteBits (byte : UInt8) : (byteBits byte).foldl joinBits 0 = byte.toNat :=
  forall_byte (p := fun byte => (byteBits byte).foldl joinBits 0 = byte.toNat) (by decide +kernel) byte

theorem huffbuffBitsLoop_eq {bits rest : List Bool} (result : Nat) (h : hbuf.rest = bits ++ rest) :
    ∃ hbuf', huffbuffBitsLoop bits.length result hbuf = .ok ((bits.foldl joinBits result : Nat), hbuf') ∧
      hbuf'.rest = rest := by
  induction bits generalizing hbuf result with
  | nil => exact ⟨hbuf,rfl,h⟩
  | cons b bits ih =>
    obtain ⟨hbit,hrest⟩ := HuffBuff.bit_of_rest h
    obtain ⟨hbuf',hloop,hrest'⟩ := ih (joinBits result b) hrest
    refine ⟨hbuf',?_,hrest'⟩
    rw [length_cons,huffbuffBitsLoop,if_neg (Nat.not_le.mpr (HuffBuff.curByte_lt h)),hbit]
    exact hloop

theorem huffbuffBitsLoop_short {nbits : Nat} (result : Nat) (h : hbuf.rest.length < nbits) :
    ∃ hbuf', huffbuffBitsLoop nbits result hbuf = .ok (-1, hbuf') := by
  induction nbits generalizing hbuf result with
  | zero => exact absurd h (Nat.not_lt_zero _)
  | succ nbits ih =>
    rw [huffbuffBitsLoop]
    cases hrest : hbuf.rest with
    | nil => exact ⟨hbuf,if_pos (Nat.not_lt.mp (HuffBuff.not_curByte_lt hrest))⟩
    | cons b bits =>
      obtain ⟨hbit,hbits⟩ := HuffBuff.bit_of_rest hrest
      rw [if_neg (Nat.not_le.mpr (HuffBuff.curByte_lt hrest)),hbit]
      rw [hrest,length_cons] at h
      exact ih _ (by rw [hbits]; omega)

theorem huffbuffBits_byte {byte : UInt8} {rest : List Bool} (h : hbuf.rest = byteBits byte ++ rest) :
    ∃ hbuf', huffbuffBits hbuf 8 = .ok ((byte.toNat : Nat), hbuf') ∧ hbuf'.rest = rest := by
  obtain ⟨hbuf',hloop,hrest⟩ := huffbuffBitsLoop_eq 0 h
  rw [length_byteBits,joinBits_byteBits] at hloop
  exact ⟨hbuf',hloop,hrest⟩

theorem huffbuffBits_bit {b : Bool} {rest : List Bool} (h : hbuf.rest = b :: rest) :
    ∃ hbuf', huffbuffBits hbuf 1 = .ok ((b.toNat : Nat), hbuf') ∧ hbuf'.rest = rest := by
  have hsplit : hbuf.rest = [b] ++ rest := h
  obtain ⟨hbuf',hloop,hrest⟩ := huffbuffBitsLoop_eq 0 hsplit
  refine ⟨hbuf',?_,hrest⟩
  cases b <;> exact hloop

end Bits

section Trees

variable {realloc : Realloc} {hufftree : Hufftree} {hbuf : HuffBuff} {tree treeidx : Nat}

theorem hufftreeEntry_eq (htree : tree < hufftree.length) (hidx : treeidx < 128) :
    hufftreeEntry hufftree tree treeidx = .ok ((hufftree.getD tree []).getD treeidx (0, 0)) := by
  rw [hufftreeEntry,getElem?_eq_getElem htree,getD_eq_getElem?_getD (l := hufftree),
    getElem?_eq_getElem htree]
  exact if_pos hidx

theorem hufftreeTreeval_lt (hwf : hufftree.WellFormed) (tree treeidx : Nat) (bit : Bool) :
    hufftreeTreeval hufftree tree treeidx bit < 256 := by
  have hentry : ∀ entry : Nat × Nat, entry = (0, 0) ∨ (∃ nodes ∈ hufftree, entry ∈ nodes) →
      (if bit then entry.2 else entry.1) < 256 := by
    intro entry h
    cases h with
    | inl hzero => subst hzero; cases bit <;> decide
    | inr hmem =>
      obtain ⟨nodes,hnodes,hmem⟩ := hmem
      have hbytes := (hwf.entries nodes hnodes).2 entry hmem
      cases bit with
      | false => exact hbytes.1
      | true => exact hbytes.2
  apply hentry
  rw [getD_eq_getElem?_getD,getD_eq_getElem?_getD]
  cases htree : hufftree[tree]? with
  | none => exact .inl rfl
  | some nodes =>
    rw [getD_some]
    cases hnode : nodes[treeidx]? with
    | none => exact .inl rfl
    | some entry => exact .inr ⟨nodes,mem_of_getElem? htree,mem_of_getElem? hnode⟩

theorem hufftreeChild_node_lt (hwf : hufftree.WellFormed) {bit : Bool} {j : Nat}
    (h : hufftreeChild hufftree tree treeidx bit = .inl j) : j < 128 := by
  have hmask : ∀ v < 256, v &&& hufftreeLiteralMask = 0 → v < 128 := by decide +kernel
  have hlt := hufftreeTreeval_lt hwf tree treeidx bit
  rw [hufftreeChild] at h
  split at h
  case isTrue => cases h
  case isFalse hnode =>
    cases h
    exact hmask _ hlt (not_not.mp hnode)

theorem hufftreeChild_symbol_lt {bit : Bool} {c : Nat} (h : hufftreeChild hufftree tree treeidx bit = .inr c) :
    c < 128 := by
  rw [hufftreeChild] at h
  split at h
  case isTrue =>
    cases h
    have hmask : (0x7f : Nat) < 2 ^ 7 := by decide
    exact Nat.and_lt_two_pow _ hmask
  case isFalse => cases h

theorem walk_symbol_lt {bits : List Bool} {c : Nat} (h : Walk (hufftreeChild hufftree tree) treeidx bits c) : c < 128 := by
  induction h with
  | symbol h => exact hufftreeChild_symbol_lt h
  | node h hrest ih => exact ih

def resumeTree (realloc : Realloc) (hufftree : Hufftree) (fuel : Nat) (hbuf : HuffBuff) (tree : Nat) (dest : DestBuf) :
    Except DecodeFault (Int × DestBuf) :=
  huffmanDecodeLoop realloc hufftree fuel hbuf tree 0 dest

theorem huffmanDecodeLoop_bit (realloc : Realloc) {bit : Bool} {rest : List Bool} (htree : tree < hufftree.length) (hidx : treeidx < 128)
    (h : hbuf.rest = bit :: rest) :
    ∃ hbuf', hbuf'.rest = rest ∧ ∀ fuel dest,
      huffmanDecodeLoop realloc hufftree (fuel + 1) hbuf tree treeidx dest =
        match hufftreeChild hufftree tree treeidx bit with
        | .inl j => huffmanDecodeLoop realloc hufftree fuel hbuf' tree j dest
        | .inr c => huffmanLiteral realloc fuel (resumeTree realloc hufftree fuel) hbuf' c dest := by
  obtain ⟨hbuf',hbits,hrest⟩ := huffbuffBits_bit h
  have hentry := hufftreeEntry_eq htree hidx
  refine ⟨hbuf',hrest,fun fuel dest => ?_⟩
  have htreeval : (if ((bit.toNat : Nat) : Int) = 0 then ((hufftree.getD tree []).getD treeidx (0, 0)).1
      else ((hufftree.getD tree []).getD treeidx (0, 0)).2) = hufftreeTreeval hufftree tree treeidx bit := by
    cases bit <;> rfl
  rw [huffmanDecodeLoop,if_pos (HuffBuff.curByte_lt h),hbits,ok_bind,hufftreeChild]
  dsimp only
  rw [if_neg (Int.not_lt.mpr (Int.natCast_nonneg _)),hentry,ok_bind,htreeval]
  split
  case isTrue => rfl
  case isFalse => rfl

theorem huffmanDecodeLoop_walk (realloc : Realloc) (hwf : hufftree.WellFormed) (htree : tree < hufftree.length)
    {code rest : List Bool} {c : Nat}
    (h : Walk (hufftreeChild hufftree tree) treeidx code c) (hidx : treeidx < 128) (hrest : hbuf.rest = code ++ rest)
    (fuel : Nat) (hfuel : (code ++ rest).length < fuel) :
    ∃ hbuf' fuel', hbuf'.rest = rest ∧ rest.length < fuel' ∧ ∀ dest,
      huffmanDecodeLoop realloc hufftree fuel hbuf tree treeidx dest =
        huffmanLiteral realloc fuel' (resumeTree realloc hufftree fuel') hbuf' c dest := by
  induction h generalizing hbuf fuel with
  | @symbol i bit c hchild =>
    obtain ⟨hbuf',hrest',hloop⟩ := huffmanDecodeLoop_bit realloc htree hidx hrest
    cases fuel with
    | zero => exact absurd hfuel (Nat.not_lt_zero _)
    | succ fuel =>
      refine ⟨hbuf',fuel,hrest',Nat.lt_of_succ_lt_succ hfuel,fun dest => ?_⟩
      rw [hloop,hchild]
  | @node i j bit bits c hchild hwalk ih =>
    obtain ⟨hbuf',hrest',hloop⟩ := huffmanDecodeLoop_bit realloc htree hidx hrest
    cases fuel with
    | zero => exact absurd hfuel (Nat.not_lt_zero _)
    | succ fuel =>
      obtain ⟨hbuf'',fuel',hrest'',hfuel',hliteral⟩ := ih (hufftreeChild_node_lt hwf hchild) hrest' fuel
        (Nat.lt_of_succ_lt_succ hfuel)
      refine ⟨hbuf'',fuel',hrest'',hfuel',fun dest => ?_⟩
      rw [hloop,hchild]
      exact hliteral dest

theorem huffmanDecodeLoop_done (hrest : hbuf.rest = []) (fuel : Nat) (hfuel : 0 < fuel) (dest : DestBuf) :
    huffmanDecodeLoop realloc hufftree fuel hbuf tree treeidx dest = .ok (intOfSize dest.pos, dest) := by
  cases fuel with
  | zero => exact absurd hfuel (Nat.lt_irrefl 0)
  | succ fuel => rw [huffmanDecodeLoop,if_neg (HuffBuff.not_curByte_lt hrest)]

theorem huffmanDecodeLoop_inside (hwf : hufftree.WellFormed) (htree : tree < hufftree.length) {bits : List Bool}
    (h : Inside (hufftreeChild hufftree tree) treeidx bits) (hidx : treeidx < 128) (hrest : hbuf.rest = bits)
    (fuel : Nat) (hfuel : bits.length < fuel) (dest : DestBuf) :
    huffmanDecodeLoop realloc hufftree fuel hbuf tree treeidx dest = .ok (intOfSize dest.pos, dest) := by
  induction h generalizing hbuf fuel with
  | here i => exact huffmanDecodeLoop_done hrest fuel hfuel dest
  | @node i j bit bits hchild hinside ih =>
    obtain ⟨hbuf',hrest',hloop⟩ := huffmanDecodeLoop_bit realloc htree hidx hrest
    cases fuel with
    | zero => exact absurd hfuel (Nat.not_lt_zero _)
    | succ fuel =>
      rw [hloop,hchild]
      exact ih (hufftreeChild_node_lt hwf hchild) hrest' fuel (Nat.lt_of_succ_lt_succ hfuel)

theorem huffmanDecodeLoop_noTree {bit : Bool} {rest : List Bool} (htree : hufftree.length ≤ tree)
    (h : hbuf.rest = bit :: rest) (fuel : Nat) (hfuel : 0 < fuel) (dest : DestBuf) :
    huffmanDecodeLoop realloc hufftree fuel hbuf tree treeidx dest = .error .outside := by
  obtain ⟨hbuf',hbits,hrest⟩ := huffbuffBits_bit h
  cases fuel with
  | zero => exact absurd hfuel (Nat.lt_irrefl 0)
  | succ fuel =>
    rw [huffmanDecodeLoop,if_pos (HuffBuff.curByte_lt h),hbits,ok_bind]
    dsimp only
    rw [if_neg (Int.not_lt.mpr (Int.natCast_nonneg _)),hufftreeEntry,getElem?_eq_none htree]
    rfl

end Trees

section Outcomes

variable {realloc : Realloc} {hufftree : Hufftree} {chars : List Char} {ending : TextEnd}

def resume (realloc : Realloc) (hufftree : Hufftree) (fuel fuel' : Nat) (hbuf : HuffBuff) (dest : DestBuf) :
    CodeContext → Except DecodeFault (Int × DestBuf)
  | .coded tree => huffmanDecodeLoop realloc hufftree fuel hbuf tree 0 dest
  | .plain => huffmanDecodeUncompressed realloc fuel hbuf dest >>= huffmanEscape (resumeTree realloc hufftree fuel')

theorem resume_byte (realloc : Realloc) (hufftree : Hufftree) {hbuf : HuffBuff} {byte : UInt8} {rest : List Bool} (h : hbuf.rest = byteBits byte ++ rest)
    (fuel fuel' : Nat) (dest : DestBuf) :
    ∃ hbuf', hbuf'.rest = rest ∧
      resume realloc hufftree (fuel + 1) fuel' hbuf dest .plain =
        (if byte.toNat = huffstringEnd then .ok (intOfSize dest.pos, dest)
        else if byte.toNat = huffstringEscape then resumeTree realloc hufftree fuel' hbuf' huffstringEscape dest
        else appendUnicodeChar realloc dest byte.toNat >>= fun a =>
          if a.1 ≠ 0 then .ok (-1, a.2)
          else if byte.toNat &&& 0x80 = 0 then resumeTree realloc hufftree fuel' hbuf' byte.toNat a.2
          else resume realloc hufftree fuel fuel' hbuf' a.2 .plain) := by
  obtain ⟨hbuf',hbits,hrest⟩ := huffbuffBits_byte h
  have hlt : hbuf.curByte < hbuf.buf.length := by
    by_contra hnot
    have hlength := congrArg List.length h
    rw [HuffBuff.rest_of_not_lt hnot,length_append,length_byteBits,length_nil] at hlength
    omega
  refine ⟨hbuf',hrest,?_⟩
  rw [resume,huffmanDecodeUncompressed,if_pos hlt,hbits,ok_bind]
  dsimp only
  rw [if_neg (Int.not_lt.mpr (Int.natCast_nonneg _)),Int.toNat_natCast]
  by_cases hend : byte.toNat = huffstringEnd
  · rw [if_pos hend,if_pos hend]
    rfl
  · rw [if_neg hend,if_neg hend]
    by_cases hescape : byte.toNat = huffstringEscape
    · rw [if_pos hescape,if_pos hescape]
      rfl
    · rw [if_neg hescape,if_neg hescape,bind_assoc]
      congr 1
      funext a
      by_cases hfail : a.1 ≠ 0
      · rw [if_pos hfail,if_pos hfail]
        rfl
      · rw [if_neg hfail,if_neg hfail]
        by_cases hseven : byte.toNat &&& 0x80 = 0
        · rw [if_pos hseven,if_pos hseven]
          change huffmanEscape _ ((byte.toNat : Int), hbuf', a.2) = _
          have hzero : ((byte.toNat : Nat) : Int) ≠ 0 := Int.natCast_ne_zero.mpr hend
          rw [huffmanEscape,if_neg (Int.not_lt.mpr (Int.natCast_nonneg _)),if_neg hzero]
          rfl
        · rw [if_neg hseven,if_neg hseven]
          rfl

theorem decodes_outcome (hwf : hufftree.WellFormed) {context : CodeContext} {bits : List Bool}
    (h : Decodes hufftree context bits chars ending) (fuel fuel' : Nat) (hbuf : HuffBuff) (dest : DestBuf)
    (hrest : hbuf.rest = bits) (hfuel : bits.length < fuel) (hfuel' : bits.length < fuel') :
    Outcome realloc dest chars ending (resume realloc hufftree fuel fuel' hbuf dest context) := by
  have hroot : 0 < 128 := by decide
  have hconsumed : ∀ {byte : UInt8} {rest : List Bool} {fuel : Nat}, (byteBits byte ++ rest).length < fuel →
      rest.length < fuel - 1 := by
    intro byte rest fuel hlt
    rw [length_append,length_byteBits] at hlt
    omega
  induction h generalizing fuel fuel' hbuf dest with
  | done context =>
    cases context with
    | coded tree =>
      rw [resume,huffmanDecodeLoop_done hrest fuel hfuel]
      exact .nil realloc dest .endOfInput
    | plain =>
      cases fuel with
      | zero => exact absurd hfuel (Nat.lt_irrefl 0)
      | succ fuel =>
        rw [resume,huffmanDecodeUncompressed,if_neg (HuffBuff.not_curByte_lt hrest)]
        exact .nil realloc dest .endOfInput
  | inside htree h =>
    rw [resume,huffmanDecodeLoop_inside hwf htree h hroot hrest fuel hfuel]
    exact .nil realloc dest .endOfInput
  | noTree htree =>
    rw [resume,huffmanDecodeLoop_noTree htree hrest fuel (Nat.zero_lt_of_lt hfuel)]
    exact .nil realloc dest .noTree
  | endCode htree h =>
    obtain ⟨hbuf',fuel₁,-,-,hloop⟩ := huffmanDecodeLoop_walk realloc hwf htree h hroot hrest fuel hfuel
    rw [resume,hloop]
    exact .nil realloc dest .endCode
  | escape htree h hmore ih =>
    obtain ⟨hbuf',fuel₁,hrest',hfuel₁,hloop⟩ :=
      huffmanDecodeLoop_walk realloc hwf htree h hroot hrest fuel hfuel
    rw [resume,hloop]
    exact ih fuel₁ fuel₁ hbuf' dest hrest' hfuel₁ hfuel₁
  | character htree h hend hescape hmore ih =>
    obtain ⟨hbuf',fuel₁,hrest',hfuel₁,hloop⟩ :=
      huffmanDecodeLoop_walk realloc hwf htree h hroot hrest fuel hfuel
    have hseven := walk_symbol_lt h
    rw [resume,hloop,huffmanLiteral,if_neg hend,if_neg hescape]
    refine .cons (by omega) ⟨dest,rfl⟩ fun dest' => ?_
    exact ih fuel₁ fuel₁ hbuf' dest' hrest' hfuel₁ hfuel₁
  | @cut bits hbits hshort =>
    have hlt : hbuf.curByte < hbuf.buf.length := by
      by_contra hnot
      exact hbits (hrest.symm.trans (HuffBuff.rest_of_not_lt hnot))
    have hread : ∃ hbuf', huffbuffBits hbuf 8 = .ok (-1, hbuf') := huffbuffBitsLoop_short 0 (by rwa [hrest])
    obtain ⟨hbuf',hread⟩ := hread
    cases fuel with
    | zero => exact absurd hfuel (Nat.not_lt_zero _)
    | succ fuel =>
      rw [resume,huffmanDecodeUncompressed,if_pos hlt,hread,ok_bind]
      exact .nil realloc dest .cut
  | @endByte rest byte hend =>
    cases fuel with
    | zero => exact absurd hfuel (Nat.not_lt_zero _)
    | succ fuel =>
      obtain ⟨hbuf',-,hresume⟩ := resume_byte realloc hufftree hrest fuel fuel' dest
      rw [hresume,if_pos hend]
      exact .nil realloc dest .endByte
  | @escapeByte rest chars ending byte hescape hmore ih =>
    cases fuel with
    | zero => exact absurd hfuel (Nat.not_lt_zero _)
    | succ fuel =>
      have hend : byte.toNat ≠ huffstringEnd := by
        rw [hescape]
        decide
      have hless := hconsumed hfuel'
      obtain ⟨hbuf',hrest',hresume⟩ := resume_byte realloc hufftree hrest fuel fuel' dest
      rw [hresume,if_neg hend,if_pos hescape]
      exact ih fuel' fuel' hbuf' dest hrest' (by omega) (by omega)
  | @byte rest chars ending byte hend hescape hmore ih =>
    cases fuel with
    | zero => exact absurd hfuel (Nat.not_lt_zero _)
    | succ fuel =>
      have hbyte := byte.toNat_lt
      have hmask : ∀ v < 256, (v &&& 0x80 = 0 ↔ ¬ 0x80 ≤ v) := by decide +kernel
      have hless := hconsumed hfuel
      have hless' := hconsumed hfuel'
      obtain ⟨hbuf',hrest',hresume⟩ := resume_byte realloc hufftree hrest fuel fuel' dest
      rw [hresume,if_neg hend,if_neg hescape]
      refine .cons (by omega) ⟨dest,rfl⟩ fun dest' => ?_
      dsimp only
      rw [if_neg (not_not_intro rfl)]
      have hnext := ih
      rw [contextAfter] at hnext
      by_cases height : 0x80 ≤ byte.toNat
      · rw [if_neg fun hzero => (hmask _ hbyte).mp hzero height]
        rw [if_pos height] at hnext
        exact hnext fuel fuel' hbuf' dest' hrest' (by omega) (by omega)
      · rw [if_pos ((hmask _ hbyte).mpr height)]
        rw [if_neg height] at hnext
        exact hnext fuel' fuel' hbuf' dest' hrest' (by omega) (by omega)

theorem unicodeDecode_outcome {mode : UInt8} (hmode : mode ≤ atscTextSegmentModeUnicodeRangeMax) (srcbuf : List UInt8)
    (dest : DestBuf) :
    Outcome realloc dest (srcbuf.map fun byte => Char.ofNat (256 * mode.toNat + byte.toNat)) .endOfInput
      (unicodeDecode realloc mode srcbuf dest) := by
  have hrange : mode.toNat ≤ 0x33 := UInt8.le_iff_toNat_le.mp hmode
  induction srcbuf generalizing dest with
  | nil => exact .nil realloc dest .endOfInput
  | cons byte srcbuf ih =>
    have hbyte := byte.toNat_lt
    have hchar : (mode.toNat <<< 8) + byte.toNat = 256 * mode.toNat + byte.toNat := by
      rw [Nat.shiftLeft_eq,Nat.mul_comm]
    rw [map_cons,unicodeDecode,hchar]
    exact .cons (by omega) ⟨dest,rfl⟩ fun dest' => ih dest'

theorem exists_decodes (hufftree : Hufftree) (n : Nat) (context : CodeContext) (bits : List Bool) (hn : bits.length ≤ n) :
    ∃ chars ending, Decodes hufftree context bits chars ending := by
  induction n generalizing context bits with
  | zero =>
    have hnil : bits = [] := length_eq_zero_iff.mp (Nat.le_zero.mp hn)
    subst hnil
    exact ⟨[],.endOfInput,.done context⟩
  | succ n ih =>
    cases context with
    | coded tree =>
      by_cases htree : tree < hufftree.length
      · cases @inside_or_walk _ _ (hufftreeChild hufftree tree) 0 bits with
        | inl hinside => exact ⟨[],.endOfInput,.inside htree hinside⟩
        | inr hwalk =>
          obtain ⟨code,rest,c,rfl,hwalk⟩ := hwalk
          have hpos := hwalk.length_pos
          rw [length_append] at hn
          by_cases hend : c = huffstringEnd
          · subst hend
            exact ⟨[],.endCode,.endCode htree hwalk⟩
          · by_cases hescape : c = huffstringEscape
            · subst hescape
              obtain ⟨chars,ending,hrest⟩ := ih .plain rest (by omega)
              exact ⟨chars,ending,.escape htree hwalk hrest⟩
            · obtain ⟨chars,ending,hrest⟩ := ih (.coded c) rest (by omega)
              exact ⟨_,ending,.character htree hwalk hend hescape hrest⟩
      · cases bits with
        | nil => exact ⟨[],.endOfInput,.done _⟩
        | cons bit bits => exact ⟨[],.noTree,.noTree (Nat.not_lt.mp htree)⟩
    | plain =>
      by_cases hnil : bits = []
      · subst hnil
        exact ⟨[],.endOfInput,.done _⟩
      · by_cases hshort : bits.length < 8
        · exact ⟨[],.cut,.cut hnil hshort⟩
        · obtain ⟨byte,rest,rfl⟩ := exists_byteBits_append (Nat.not_lt.mp hshort)
          rw [length_append,length_byteBits] at hn
          by_cases hend : byte.toNat = huffstringEnd
          · exact ⟨[],.endByte,.endByte hend⟩
          · by_cases hescape : byte.toNat = huffstringEscape
            · obtain ⟨chars,ending,hrest⟩ := ih (.coded huffstringEscape) rest (by omega)
              exact ⟨chars,ending,.escapeByte hescape hrest⟩
            · obtain ⟨chars,ending,hrest⟩ := ih (contextAfter byte) rest (by omega)
              exact ⟨_,ending,.byte hend hescape hrest⟩

theorem huffmanDecode_outcome (hwf : hufftree.WellFormed) {src : List UInt8}
    (h : Decodes hufftree (.coded 0) (src.flatMap byteBits) chars ending) (dest : DestBuf) :
    Outcome realloc dest chars ending (huffmanDecode realloc hufftree src dest) := by
  have hlength : (src.flatMap byteBits).length < 8 * src.length + 1 := by
    rw [length_flatMap_byteBits]
    exact Nat.lt_succ_self _
  exact decodes_outcome hwf h _ _ (huffbuffInit src) dest (rest_huffbuffInit src) hlength hlength

theorem atscTextSegmentDecode_outcome {segment : AtscTextStringSegment} (h : SegmentDecodes segment chars ending)
    (dest : DestBuf) : Outcome realloc dest chars ending (atscTextSegmentDecode realloc segment dest) := by
  cases h with
  | none hmode htype =>
    have hrefused : ¬ (segment.mode ≠ 0 ∧ segment.compressionType ≠ 0) := fun hboth => hboth.2 htype
    rw [atscTextSegmentDecode,if_neg (UInt8.not_lt.mpr hmode),if_neg hrefused,if_pos htype]
    exact unicodeDecode_outcome hmode segment.data dest
  | programTitle hmode htype hdecodes =>
    rw [atscTextSegmentDecode,hmode,htype]
    exact huffmanDecode_outcome programTitleHufftree_wellFormed hdecodes dest
  | programDescription hmode htype hdecodes =>
    rw [atscTextSegmentDecode,hmode,htype]
    exact huffmanDecode_outcome programDescriptionHufftree_wellFormed hdecodes dest

theorem segmentDecodes_or_refused (realloc : Realloc) (segment : AtscTextStringSegment) (dest : DestBuf) :
    (∃ chars ending, SegmentDecodes segment chars ending) ∨
      atscTextSegmentDecode realloc segment dest = .ok (-1, dest) ∧
        ∀ chars ending, ¬ SegmentDecodes segment chars ending := by
  have hzero : ¬ (0 : UInt8) > atscTextSegmentModeUnicodeRangeMax := by decide
  by_cases hmode : segment.mode > atscTextSegmentModeUnicodeRangeMax
  · refine .inr ⟨by rw [atscTextSegmentDecode,if_pos hmode],fun chars ending h => ?_⟩
    cases h with
    | none hmode' htype => exact UInt8.not_lt.mpr hmode' hmode
    | programTitle hmode' htype hdecodes => exact hzero (hmode' ▸ hmode)
    | programDescription hmode' htype hdecodes => exact hzero (hmode' ▸ hmode)
  · by_cases hnone : segment.compressionType = atscTextCompressNone
    · exact .inl ⟨_,_,.none (UInt8.not_lt.mp hmode) hnone⟩
    · by_cases hplain : segment.mode ≠ 0
      · refine .inr ⟨by rw [atscTextSegmentDecode,if_neg hmode,if_pos ⟨hplain,hnone⟩],fun chars ending h => ?_⟩
        cases h with
        | none hmode' htype => exact hnone htype
        | programTitle hmode' htype hdecodes => exact hplain hmode'
        | programDescription hmode' htype hdecodes => exact hplain hmode'
      · rw [not_not] at hplain
        by_cases htitle : segment.compressionType = atscTextCompressProgramTitle
        · obtain ⟨chars,ending,hdecodes⟩ :=
            exists_decodes programTitleHufftree _ (.coded 0) (segment.data.flatMap byteBits) (Nat.le_refl _)
          exact .inl ⟨chars,ending,.programTitle hplain htitle hdecodes⟩
        · by_cases hdescription : segment.compressionType = atscTextCompressProgramDescription
          · obtain ⟨chars,ending,hdecodes⟩ :=
              exists_decodes programDescriptionHufftree _ (.coded 0) (segment.data.flatMap byteBits) (Nat.le_refl _)
            exact .inl ⟨chars,ending,.programDescription hplain hdescription hdecodes⟩
          · refine .inr ⟨?_,fun chars ending h => ?_⟩
            · rw [atscTextSegmentDecode,if_neg hmode,if_neg fun h => h.1 hplain,if_neg hnone,if_neg htitle,
                if_neg hdescription]
            · cases h with
              | none hmode' htype => exact hnone htype
              | programTitle hmode' htype hdecodes => exact htitle htype
              | programDescription hmode' htype hdecodes => exact hdescription htype

end Outcomes

section Reports

variable {realloc : Realloc} {segment : AtscTextStringSegment} {dest dest' : DestBuf} {chars : List Char}
  {ending : TextEnd}

theorem Appended.pos_le (h : Appended dest dest' chars) : dest.pos ≤ dest'.pos := by
  rw [h.pos]
  exact Nat.le_add_right _ _

theorem TextEnd.complete_or_neg {result : Int} (h : ending.result dest = .ok (result, dest')) :
    dest' = dest ∧ (result < 0 ∨ ending.Complete) := by
  cases ending with
  | endCode =>
    cases h
    exact ⟨rfl,.inr (.inl rfl)⟩
  | endByte =>
    cases h
    exact ⟨rfl,.inr (.inr (.inl rfl))⟩
  | endOfInput =>
    cases h
    exact ⟨rfl,.inr (.inr (.inr rfl))⟩
  | cut =>
    cases h
    exact ⟨rfl,.inl (by decide)⟩
  | noTree => cases h

theorem TextEnd.reported_iff (ending : TextEnd) (dest : DestBuf) :
    ending.Reported dest.pos ↔ ∃ result, ending.result dest = .ok (result, dest) ∧ (result < 0 ∨ result = dest.pos) := by
  have hposition : ∀ result : Int, (result < 0 ∨ result = dest.pos) ↔ ∃ result',
      (Except.ok (result, dest) : Except DecodeFault _) = .ok (result', dest) ∧ (result' < 0 ∨ result' = dest.pos) := by
    refine fun result => ⟨fun h => ⟨result,rfl,h⟩,fun h => ?_⟩
    obtain ⟨result',heq,hresult⟩ := h
    cases heq
    exact hresult
  cases ending with
  | endCode =>
    refine Iff.trans ⟨fun h => .inr (congrArg Int.ofNat (Eq.symm h)),fun h => ?_⟩ (hposition 0)
    exact h.elim (fun hneg => absurd hneg (Int.lt_irrefl 0)) fun hpos => Int.ofNat.inj hpos.symm
  | endByte => exact hposition _
  | endOfInput => exact hposition _
  | cut => exact ⟨fun _ => ⟨-1,rfl,.inl (by decide)⟩,fun _ => trivial⟩
  | noTree =>
    refine ⟨fun h => h.elim,fun h => ?_⟩
    obtain ⟨result,heq,-⟩ := h
    cases heq

/-- What is decoded is reported exactly if the text ends in a way that is. -/
theorem atscTextSegmentDecode_reports_iff (realloc : Realloc) (segment : AtscTextStringSegment) (dest : DestBuf) :
    ReportsText realloc segment dest ↔ EndIsReported realloc segment dest := by
  refine ⟨fun hreports chars ending hdecodes hroom => ?_, fun hends => ?_⟩
  · obtain ⟨result, dest', hrun, hresult⟩ := hreports
    obtain ⟨dest'', happended, hend⟩ := (atscTextSegmentDecode_outcome hdecodes dest).room hroom
    rw [← happended.pos]
    have hend' : ending.result dest'' = .ok (result, dest') := hend.symm.trans hrun
    obtain ⟨hsame, -⟩ := ending.complete_or_neg hend'
    subst hsame
    exact (ending.reported_iff dest').mpr ⟨result, hend', hresult.imp_right And.left⟩
  · cases segmentDecodes_or_refused realloc segment dest with
    | inr hrefused => exact ⟨-1, dest, hrefused.1, .inl (by decide)⟩
    | inl hsome =>
      obtain ⟨chars, ending, hdecodes⟩ := hsome
      have houtcome := @atscTextSegmentDecode_outcome realloc chars ending segment hdecodes dest
      by_cases hroom : Room realloc dest.pos dest.bytes.length chars
      · obtain ⟨dest', happended, hend⟩ := houtcome.room hroom
        have hreported := hends chars ending hdecodes hroom
        rw [← happended.pos] at hreported
        obtain ⟨result, hresult, hok⟩ := (ending.reported_iff dest').mp hreported
        refine ⟨result, dest', hend.trans hresult, ?_⟩
        cases (ending.complete_or_neg hresult).2 with
        | inl hneg => exact .inl hneg
        | inr hcomplete =>
          exact hok.imp_right fun hpos =>
            ⟨hpos, happended.pos_le, dest'.inside, chars, ending, hdecodes, hcomplete, happended⟩
      · obtain ⟨dest', hfailed⟩ := houtcome.full hroom
        exact ⟨-1, dest', hfailed, .inl (by decide)⟩

/-- `realloc` that does not fail, and leaves zeros behind the old bytes. -/
def zeroRealloc : Realloc := fun _ => some ⟨List.replicate destAllocDelta 0, List.length_replicate⟩

def noBuffer : DestBuf := { bytes := [], pos := 0, inside := Nat.le_refl 0 }

/-- The codes of `I` and of the end, in a title. -/
def endedTitle : AtscTextStringSegment :=
  { compressionType := 1, mode := 0, data := [0x84, 0x00], fits := by decide }

/-- An escape, the byte `0x7f`, and more bits, in a title. -/
def deleteTitle : AtscTextStringSegment :=
  { compressionType := 1, mode := 0, data := [0xcb, 0x7f, 0x00], fits := by decide }

/-- The end of a title gives 0, though a character was written; and there is no tree for the character `0x7f`. -/
theorem atscTextSegmentDecode_not_reports :
    ¬ ReportsText zeroRealloc endedTitle noBuffer ∧ ¬ ReportsText zeroRealloc deleteTitle noBuffer := by
  have hended : atscTextSegmentDecode zeroRealloc endedTitle noBuffer =
      .ok (0, { bytes := 73 :: List.replicate 19 0, pos := 1, inside := by decide }) := by
    decide +kernel
  have hdelete : atscTextSegmentDecode zeroRealloc deleteTitle noBuffer = .error .outside := by decide +kernel
  refine ⟨fun h => ?_, fun h => ?_⟩
  · obtain ⟨result, dest', hrun, hresult⟩ := h
    rw [hended] at hrun
    cases hrun
    exact hresult.elim (by decide) fun hpos => absurd hpos.1 (by decide)
  · obtain ⟨result, dest', hrun, -⟩ := h
    rw [hdelete] at hrun
    cases hrun

end Reports

end LinuxDvb.Ucsi
