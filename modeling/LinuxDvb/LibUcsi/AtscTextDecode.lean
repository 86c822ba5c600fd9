import LinuxDvb.Framework.BitCodes
import LinuxDvb.Framework.Kernel
import LinuxDvb.LibUcsi.AtscHufftree
import LinuxDvb.LibUcsi.AtscText

/-!
# Decoding of a text

`atsc_text_segment_decode` appends the characters of a segment to a buffer, in UTF-8. They are in the bytes of the segment
as they are, or compressed with codes that depend on the character before; an escape is followed by bytes that are
characters themselves.
-/

namespace LinuxDvb.Ucsi

open BitCodes

/-- What is not defined in the code: an access outside of an array, or a loop that does not end. -/
inductive DecodeFault where
  | outside
  | hangs
deriving DecidableEq, Repr

structure DestBuf where
  bytes : List UInt8
  pos : Nat
  inside : pos ≤ bytes.length
deriving DecidableEq, Repr

def destAllocDelta : Nat := 20

/-- What `realloc` does for a buffer of this size: it fails, or these bytes stand behind the ones of before. -/
abbrev Realloc := Nat → Option { more : List UInt8 // more.length = destAllocDelta }

structure HuffBuff where
  buf : List UInt8
  curByte : Nat
  curBit : Nat
  bit_lt : curBit < 8

def HuffBuff.advance (hbuf : HuffBuff) : HuffBuff :=
  if h : hbuf.curBit + 1 > 7 then { hbuf with curByte := hbuf.curByte + 1, curBit := 0, bit_lt := by decide }
  else { hbuf with curBit := hbuf.curBit + 1, bit_lt := by omega }

def hufftreeLiteralMask : Nat := 0x80

def huffstringEnd : Nat := 0x00

def huffstringEscape : Nat := 0x1b

section Code

/-- A `size_t` that is returned as an `int`. -/
def intOfSize (n : Nat) : Int := (BitVec.ofNat 32 n).toInt

def huffbuffInit (buf : List UInt8) : HuffBuff := { buf := buf, curByte := 0, curBit := 0, bit_lt := by decide }

/-- `buf[cur_byte] & (0x80 >> cur_bit)` -/
def HuffBuff.bit (hbuf : HuffBuff) : Except DecodeFault Bool :=
  match hbuf.buf[hbuf.curByte]? with
  | some byte => .ok ((byte.toNat &&& (0x80 >>> hbuf.curBit)) != 0)
  | none => .error .outside

/-- The loop of `huffbuff_bits` for this many more bits. -/
def huffbuffBitsLoop : Nat → Nat → HuffBuff → Except DecodeFault (Int × HuffBuff)
  | 0, result, hbuf => .ok (result, hbuf)
  | nbits + 1, result, hbuf =>
    if hbuf.curByte ≥ hbuf.buf.length then .ok (-1, hbuf)
    else do
      let bit ← hbuf.bit
      huffbuffBitsLoop nbits ((result <<< 1) % 256 ||| bit.toNat) hbuf.advance

def huffbuffBits (hbuf : HuffBuff) (nbits : Nat) : Except DecodeFault (Int × HuffBuff) :=
  if nbits > 8 then .ok (-1, hbuf) else huffbuffBitsLoop nbits 0 hbuf

/-- The encoding in `tmp`. -/
def encodeUnicodeChar (c : Nat) : Option (List UInt8) :=
  if c < 0x80 then some [UInt8.ofNat c]
  else if c < 0x800 then some [UInt8.ofNat (0xc0 ||| ((c >>> 6) &&& 0x1f)), UInt8.ofNat (0x80 ||| (c &&& 0x3f))]
  else if c < 0x10000 then
    some [UInt8.ofNat (0xe0 ||| ((c >>> 12) &&& 0x0f)), UInt8.ofNat (0x80 ||| ((c >>> 6) &&& 0x3f)),
      UInt8.ofNat (0x80 ||| (c &&& 0x3f))]
  else none

/-- `memcpy(*destbuf + *destbufpos, tmp, tmplen)`, and the new position. -/
def DestBuf.write (dest : DestBuf) (tmp : List UInt8) : Except DecodeFault DestBuf :=
  if h : dest.pos + tmp.length ≤ dest.bytes.length then
    .ok
      { bytes := dest.bytes.take dest.pos ++ tmp ++ dest.bytes.drop (dest.pos + tmp.length)
        pos := dest.pos + tmp.length
        inside := by
          have hinside := dest.inside
          rw [List.length_append,List.length_append,List.length_take]
          omega }
  else .error .outside

def DestBuf.grow (dest : DestBuf) (more : List UInt8) : DestBuf :=
  { dest with
    bytes := dest.bytes ++ more
    inside := by
      have hinside := dest.inside
      rw [List.length_append]
      omega }

variable (realloc : Realloc)

def appendUnicodeChar (dest : DestBuf) (c : Nat) : Except DecodeFault (Int × DestBuf) :=
  match encodeUnicodeChar c with
  | none => .ok (-1, dest)
  | some tmp =>
    if dest.pos + tmp.length ≥ dest.bytes.length then
      match realloc (dest.bytes.length + destAllocDelta) with
      | none => .ok (errNomem, dest)
      | some more => do
        let dest ← (dest.grow more.val).write tmp
        return (0, dest)
    else do
      let dest ← dest.write tmp
      return (0, dest)

def unicodeDecode (mode : UInt8) : List UInt8 → DestBuf → Except DecodeFault (Int × DestBuf)
  | [], dest => .ok (intOfSize dest.pos, dest)
  | byte :: srcbuf, dest => do
    let r ← appendUnicodeChar realloc dest ((mode.toNat <<< 8) + byte.toNat)
    if r.1 ≠ 0 then return (-1, r.2) else unicodeDecode mode srcbuf r.2

def huffmanDecodeUncompressed : Nat → HuffBuff → DestBuf → Except DecodeFault (Int × HuffBuff × DestBuf)
  | 0, _, _ => .error .hangs
  | fuel + 1, hbuf, dest =>
    if hbuf.curByte < hbuf.buf.length then do
      let r ← huffbuffBits hbuf 8
      let c := r.1.toNat
      if r.1 < 0 then return (-1, r.2, dest)
      else if c = huffstringEnd then return (0, r.2, dest)
      else if c = huffstringEscape then return (huffstringEscape, r.2, dest)
      else do
        let a ← appendUnicodeChar realloc dest c
        if a.1 ≠ 0 then return (-1, r.2, a.2)
        else if c &&& 0x80 = 0 then return (c, r.2, a.2)
        else huffmanDecodeUncompressed fuel r.2 a.2
    else .ok (huffstringEnd, hbuf, dest)

variable (hufftree : Hufftree)

/-- `hufftree[tree][treeidx]`, of which the nodes that are not written down are zero. -/
def hufftreeEntry (tree treeidx : Nat) : Except DecodeFault (Nat × Nat) :=
  match hufftree[tree]? with
  | none => .error .outside
  | some nodes => if treeidx < 128 then .ok (nodes.getD treeidx (0, 0)) else .error .outside

def huffmanEscape (next : HuffBuff → Nat → DestBuf → Except DecodeFault (Int × DestBuf)) (r : Int × HuffBuff × DestBuf) :
    Except DecodeFault (Int × DestBuf) :=
  if r.1 < 0 then .ok (r.1, r.2.2)
  else if r.1 = 0 then .ok (intOfSize r.2.2.pos, r.2.2)
  else next r.2.1 r.1.toNat r.2.2

def huffmanLiteral (fuel : Nat) (next : HuffBuff → Nat → DestBuf → Except DecodeFault (Int × DestBuf)) (hbuf : HuffBuff)
    (c : Nat) (dest : DestBuf) : Except DecodeFault (Int × DestBuf) :=
  if c = huffstringEnd then .ok (0, dest)
  else if c = huffstringEscape then huffmanDecodeUncompressed realloc fuel hbuf dest >>= huffmanEscape next
  else do
    let a ← appendUnicodeChar realloc dest c
    if a.1 ≠ 0 then return (-1, a.2) else next hbuf c a.2

/-- The loop of `huffman_decode`, in the tree for a character and at one of its nodes. -/
def huffmanDecodeLoop : Nat → HuffBuff → Nat → Nat → DestBuf → Except DecodeFault (Int × DestBuf)
  | 0, _, _, _, _ => .error .hangs
  | fuel + 1, hbuf, tree, treeidx, dest =>
    if hbuf.curByte < hbuf.buf.length then do
      let r ← huffbuffBits hbuf 1
      if r.1 < 0 then return (intOfSize dest.pos, dest)
      else do
        let entry ← hufftreeEntry hufftree tree treeidx
        let treeval := if r.1 = 0 then entry.1 else entry.2
        if treeval &&& hufftreeLiteralMask ≠ 0 then
          huffmanLiteral realloc fuel (fun hbuf tree dest => huffmanDecodeLoop fuel hbuf tree 0 dest) r.2
            (treeval &&& 0x7f) dest
        else huffmanDecodeLoop fuel r.2 tree treeval dest
    else .ok (intOfSize dest.pos, dest)

def huffmanDecode (src : List UInt8) (dest : DestBuf) : Except DecodeFault (Int × DestBuf) :=
  huffmanDecodeLoop realloc hufftree (8 * src.length + 1) (huffbuffInit src) 0 0 dest

def atscTextSegmentModeUnicodeRangeMax : UInt8 := 0x33

def atscTextCompressNone : UInt8 := 0x00

def atscTextCompressProgramTitle : UInt8 := 0x01

def atscTextCompressProgramDescription : UInt8 := 0x02

def atscTextSegmentDecode (segment : AtscTextStringSegment) (dest : DestBuf) : Except DecodeFault (Int × DestBuf) :=
  if segment.mode > atscTextSegmentModeUnicodeRangeMax then .ok (-1, dest)
  else if segment.mode ≠ 0 ∧ segment.compressionType ≠ 0 then .ok (-1, dest)
  else if segment.compressionType = atscTextCompressNone then unicodeDecode realloc segment.mode segment.data dest
  else if segment.compressionType = atscTextCompressProgramTitle then
    huffmanDecode realloc programTitleHufftree segment.data dest
  else if segment.compressionType = atscTextCompressProgramDescription then
    huffmanDecode realloc programDescriptionHufftree segment.data dest
  else .ok (-1, dest)

end Code

end LinuxDvb.Ucsi
