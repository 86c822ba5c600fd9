import LinuxDvb.Framework.CrcRegister
import LinuxDvb.LibUcsi.SectionHeader

/-!
# The CRC of a section

A section is encoded in place: the CRC is computed over the bytes as they are transmitted, and stored behind them in
the order of transmission, so that the CRC over all of them is zero.
-/

namespace LinuxDvb.Ucsi

open CrcRegister

def le32 (v : UInt32) : List UInt8 := [v.toUInt8, (v >>> 8).toUInt8, (v >>> 16).toUInt8, (v >>> 24).toUInt8]

/-- `*((uint32_t*) (buf + pos)) = v` -/
def putWord32 (buf : List UInt8) (pos : Nat) (v : UInt32) : Option (List UInt8) :=
  if pos + 4 ≤ buf.length then some (buf.take pos ++ (le32 v ++ buf.drop (pos + 4))) else none

/-- `section_ext_encode(section, update_crc)` -/
def sectionExtEncode (buf : List UInt8) (updateCrc : Bool) : Codec := do
  let syntaxed ← syntaxIndicator buf
  if syntaxed = 0 then return (false, buf)
  let buf ← bswap16 buf 3
  if updateCrc then
    let len := (← sectionLengthField buf) + 3
    -- the length of the data would wrap
    if len < 4 then none
    let buf ← bswap16 buf 1
    let crc ← crc32 crc32Init buf (len - 4)
    let buf ← bswap16 buf 1
    let buf ← putWord32 buf (len - 4) crc
    let buf ← bswap32 buf (len - 4)
    return (true, buf)
  return (true, buf)

section Register

def crcPoly : BitVec 32 := 0x04c11db7#32

def byteBits (b : UInt8) : List Bool := topBits b.toBitVec 8

def wireBits (bytes : List UInt8) : List Bool := bytes.flatMap byteBits

theorem crc32tbl_eq : ∀ n < 256, (crc32tbl.getD n 0).toBitVec = run crcPoly 0#32 (topBits (BitVec.ofNat 8 n) 8) := by
  decide +kernel

def topByte (s : BitVec 32) : BitVec 8 := (s >>> 24).setWidth 8

theorem topBits_topByte (s : BitVec 32) : topBits (topByte s) 8 = topBits s 8 := by
  apply map_congr_left
  intro i hi
  have hlt : i < 8 := mem_range.mp hi
  rw [topByte,BitVec.getMsbD_eq_getLsbD,BitVec.getMsbD_eq_getLsbD,BitVec.getLsbD_setWidth,
    BitVec.getLsbD_ushiftRight]
  simp only [show i < 32 by omega,hlt,show 8 - 1 - i < 8 by omega,decide_true,Bool.true_and]
  congr 1
  omega

theorem run_byte (s : BitVec 32) (b : UInt8) :
    run crcPoly s (byteBits b) = (s <<< 8) ^^^ run crcPoly 0#32 (topBits (topByte s ^^^ b.toBitVec) 8) := by
  have hbits : byteBits b = xorBits (topBits s 8) (topBits (topByte s ^^^ b.toBitVec) 8) := by
    rw [← topBits_topByte,← topBits_xor,← BitVec.xor_assoc,BitVec.xor_self,BitVec.zero_xor]
    rfl
  have hlen : (topBits s 8).length = (topBits (topByte s ^^^ b.toBitVec) 8).length := by simp
  have hxor := run_xor crcPoly hlen s 0#32
  rwa [← hbits,BitVec.xor_zero,run_topBits crcPoly s (by decide)] at hxor

theorem crc32Byte_run (crc : UInt32) (b : UInt8) :
    (crc32Byte crc b).toBitVec = run crcPoly crc.toBitVec (byteBits b) := by
  have hindex : BitVec.ofNat 8 (((crc >>> 24) ^^^ b.toUInt32) &&& 0xff).toNat =
      topByte crc.toBitVec ^^^ b.toBitVec := by
    rw [← UInt32.toNat_toBitVec,BitVec.ofNat_toNat,UInt32.toBitVec_and,UInt32.toBitVec_xor,BitVec.setWidth_and,
      BitVec.setWidth_xor]
    have hb : BitVec.setWidth 8 b.toUInt32.toBitVec = b.toBitVec := by
      rw [UInt8.toBitVec_toUInt32,BitVec.setWidth_setWidth_of_le _ (by decide),BitVec.setWidth_eq]
    rw [hb]
    exact BitVec.and_allOnes
  have hlt : (((crc >>> 24) ^^^ b.toUInt32) &&& 0xff).toNat < 256 := by
    rw [UInt32.toNat_and]
    exact Nat.lt_of_le_of_lt Nat.and_le_right (by decide)
  rw [crc32Byte,run_byte,UInt32.toBitVec_xor,crc32tbl_eq _ hlt,hindex]
  rfl

theorem wireBits_cons (b : UInt8) (bytes : List UInt8) : wireBits (b :: bytes) = byteBits b ++ wireBits bytes :=
  flatMap_cons

theorem crc32_run (crc : UInt32) (bytes : List UInt8) :
    (bytes.foldl crc32Byte crc).toBitVec = run crcPoly crc.toBitVec (wireBits bytes) := by
  induction bytes generalizing crc with
  | nil => rfl
  | cons b bytes ih => rw [foldl_cons,ih,crc32Byte_run,wireBits_cons,run_append]

theorem length_wireBits (bytes : List UInt8) : (wireBits bytes).length = 8 * bytes.length := by
  induction bytes with
  | nil => rfl
  | cons b bytes ih =>
    rw [wireBits_cons,length_append,ih,length_cons,byteBits,length_topBits]
    omega

theorem wireBits_inj {xs ys : List UInt8} (hlen : xs.length = ys.length) (h : wireBits xs = wireBits ys) : xs = ys := by
  induction xs generalizing ys with
  | nil => exact (length_eq_zero_iff.mp hlen.symm).symm
  | cons x xs ih =>
    obtain ⟨y,ys,rfl⟩ := List.exists_cons_of_length_eq_add_one hlen.symm
    rw [wireBits_cons,wireBits_cons] at h
    obtain ⟨hbyte,hrest⟩ := append_inj h (by rw [byteBits,byteBits,length_topBits,length_topBits])
    rw [UInt8.toBitVec_inj.mp (topBits_inj hbyte),ih (Nat.succ.inj hlen) hrest]

def BurstApart (xs ys : List UInt8) : Prop :=
  xs.length = ys.length ∧ xs ≠ ys ∧
    ∃ start, ∀ i : Nat, (wireBits xs)[i]? ≠ (wireBits ys)[i]? → start ≤ i ∧ i < start + 32

theorem BurstApart.crc_ne {xs ys : List UInt8} (h : BurstApart xs ys) (crc : UInt32) :
    xs.foldl crc32Byte crc ≠ ys.foldl crc32Byte crc := by
  obtain ⟨hlen,hne,start,hburst⟩ := h
  have hbits : (wireBits xs).length = (wireBits ys).length := by rw [length_wireBits,length_wireBits,hlen]
  have hrun := run_ne_of_burst crcPoly rfl crc.toBitVec hbits (fun heq => hne (wireBits_inj hlen heq)) hburst
  intro heq
  apply hrun
  rw [← crc32_run,← crc32_run,heq]

theorem topByte_shiftLeft (s : BitVec 32) {n : Nat} (hn : n ≤ 24) :
    topByte (s <<< n) = (s >>> (24 - n)).setWidth 8 := by
  apply BitVec.eq_of_getLsbD_eq
  intro i hi
  rw [topByte,BitVec.getLsbD_setWidth,BitVec.getLsbD_setWidth,BitVec.getLsbD_ushiftRight,
    BitVec.getLsbD_ushiftRight,BitVec.getLsbD_shiftLeft]
  simp only [show 24 + i < 32 by omega,show ¬ 24 + i < n by omega,decide_true,decide_false,Bool.not_false,
    Bool.true_and,Nat.sub_add_comm hn]

theorem wireBits_word (crc : UInt32) : wireBits (le32 crc).reverse = topBits crc.toBitVec 32 := by
  have hbyte : ∀ n ≤ 24, topBits (crc.toBitVec <<< n) 8 = topBits ((crc.toBitVec >>> (24 - n)).setWidth 8) 8 := by
    intro n hn
    rw [← topBits_topByte,topByte_shiftLeft _ hn]
  rw [topBits_add crc.toBitVec 24 8,topBits_add crc.toBitVec 16 8,topBits_add crc.toBitVec 8 8,hbyte 8 (by decide),
    hbyte 16 (by decide),hbyte 24 (by decide),← topBits_topByte crc.toBitVec,append_assoc,append_assoc]
  have hlow : (crc.toBitVec >>> (24 - 24)).setWidth 8 = crc.toUInt8.toBitVec := rfl
  rw [hlow]
  exact congrArg (_ ++ ·) (congrArg (_ ++ ·) (congrArg (_ ++ ·) (append_nil _)))

theorem crc_self (crc : UInt32) : (le32 crc).reverse.foldl crc32Byte crc = 0 := by
  apply UInt32.toBitVec_inj.mp
  rw [crc32_run,wireBits_word]
  have hlen : (topBits crc.toBitVec 32).length ≤ 32 := Nat.le_of_eq (length_topBits _ _)
  refine (run_eq_zero_iff crcPoly rfl crc.toBitVec hlen).mpr ?_
  intro i hi
  rw [getD_eq_getElem _ _ (by rwa [length_topBits])]
  simp only [topBits,List.getElem_map,List.getElem_range]

end Register

section Header

variable {tableId high low : UInt8} {rest : List UInt8}

theorem sectionCheckCrc_eq (hlength : high.toNat % 16 * 256 + low.toNat ≤ rest.length) :
    sectionCheckCrc (tableId :: low :: high :: rest) =
      some (if ((tableId :: high :: low :: rest).take (high.toNat % 16 * 256 + low.toNat + 3)).foldl crc32Byte
        crc32Init ≠ 0 then -1 else 0, tableId :: low :: high :: rest) := by
  have hunswap : bswap16 (tableId :: low :: high :: rest) 1 = some (tableId :: high :: low :: rest) := rfl
  have hswap : bswap16 (tableId :: high :: low :: rest) 1 = some (tableId :: low :: high :: rest) := rfl
  have hcrc : crc32 crc32Init (tableId :: high :: low :: rest) (high.toNat % 16 * 256 + low.toNat + 3) =
      some (((tableId :: high :: low :: rest).take (high.toNat % 16 * 256 + low.toNat + 3)).foldl crc32Byte
        crc32Init) := if_pos (Nat.add_le_add_right hlength 3)
  rw [sectionCheckCrc,sectionLength,sectionLengthField_header]
  simp only [map_some,bind_eq_bind,bind_some,pure_def,hunswap,hswap,hcrc]

theorem sectionExtDecode_checked {a b : UInt8} (hindicator : 128 ≤ high.toNat)
    (hcrc : sectionCheckCrc (tableId :: low :: high :: b :: a :: rest) =
      some (0, tableId :: low :: high :: b :: a :: rest)) :
    sectionExtDecode (tableId :: low :: high :: b :: a :: rest) true =
      some (true, tableId :: low :: high :: a :: b :: rest) := by
  have hswap : bswap16 (tableId :: low :: high :: b :: a :: rest) 3 =
    some (tableId :: low :: high :: a :: b :: rest) := rfl
  rw [sectionExtDecode,syntaxIndicator_header,if_pos hindicator]
  simp only [bind_eq_bind,bind_some,pure_def,if_true,hcrc,hswap]
  rfl

end Header

/-- A section that is encoded with its CRC is decoded again: only the bytes of the CRC differ from what was encoded.
A section without an extended header is not encoded. -/
def RoundTrips (buf : List UInt8) : Prop :=
  ∀ length, sectionLengthField buf = some length → 9 ≤ length → length + 3 ≤ buf.length →
    (syntaxIndicator buf = some 0 ∧ sectionExtEncode buf true = some (false, buf)) ∨
      ∃ encoded decoded, sectionExtEncode buf true = some (true, encoded) ∧
        sectionExtDecode encoded true = some (true, decoded) ∧ decoded.length = buf.length ∧
        ∀ i, i < length - 1 ∨ length + 3 ≤ i → decoded[i]? = buf[i]?

/-- If the bytes of a section pass the check of the CRC, no others do that differ within 32 consecutive bits and leave
the length field as it is. -/
def DetectsBursts (wire : List UInt8) : Prop :=
  ∀ received, sectionCodec wire = some (true, received) → (sectionCheckCrc received).map Prod.fst = some 0 →
    ∀ wire', BurstApart wire wire' → ∀ ok flipped, sectionCodec wire' = some (ok, flipped) →
      sectionLengthField flipped = sectionLengthField received → (sectionCheckCrc flipped).map Prod.fst = some (-1)

theorem getElem?_overwritten {rest word : List UInt8} {n : Nat} (hlen : n + word.length ≤ rest.length) {i : Nat}
    (hi : i < n ∨ n + word.length ≤ i) :
    (rest.take n ++ (word ++ rest.drop (n + word.length)))[i]? = rest[i]? := by
  have htake : (rest.take n).length = n := length_take_of_le (by omega)
  obtain hi | hi := hi
  · rw [getElem?_append_left (by omega),List.getElem?_take_of_lt hi]
  · rw [List.getElem?_append_right (by omega),List.getElem?_append_right (by omega),List.getElem?_drop,htake]
    congr 1
    omega

theorem putWord32_swapped {buf : List UInt8} {pos : Nat} (hlen : pos + 4 ≤ buf.length) (v : UInt32) :
    (putWord32 buf pos v).bind (bswap32 · pos) =
      some (buf.take pos ++ ((le32 v).reverse ++ buf.drop (pos + 4))) := by
  have hpos : (buf.take pos).length = pos := length_take_of_le (by omega)
  have hswap := swapBytes_at (buf.take pos) (le32 v) (buf.drop (pos + 4))
  rw [hpos] at hswap
  rw [putWord32,if_pos hlen]
  exact hswap

section Encode

variable {tableId low high a b : UInt8} {rest : List UInt8}

theorem sectionExtEncode_eq {n : Nat} (hfield : high.toNat % 16 * 256 + low.toNat = n + 6)
    (hindicator : 128 ≤ high.toNat) (hlen : n + 4 ≤ rest.length) :
    sectionExtEncode (tableId :: low :: high :: a :: b :: rest) true =
      some (true, tableId :: low :: high :: b :: a :: (rest.take n ++
        ((le32 ((tableId :: high :: low :: b :: a :: rest.take n).foldl crc32Byte crc32Init)).reverse ++
          rest.drop (n + 4)))) := by
  have hswap : bswap16 (tableId :: low :: high :: a :: b :: rest) 3 =
    some (tableId :: low :: high :: b :: a :: rest) := rfl
  have hunswap : bswap16 (tableId :: low :: high :: b :: a :: rest) 1 =
    some (tableId :: high :: low :: b :: a :: rest) := rfl
  have hback : bswap16 (tableId :: high :: low :: b :: a :: rest) 1 =
    some (tableId :: low :: high :: b :: a :: rest) := rfl
  have hcrc : crc32 crc32Init (tableId :: high :: low :: b :: a :: rest) (n + 6 + 3 - 4) =
      some ((tableId :: high :: low :: b :: a :: rest.take n).foldl crc32Byte crc32Init) :=
    if_pos (by simp only [length_cons]; omega)
  have hstore : n + 6 + 3 - 4 + 4 ≤ (tableId :: low :: high :: b :: a :: rest).length := by
    simp only [length_cons]
    omega
  have hput := putWord32_swapped hstore ((tableId :: high :: low :: b :: a :: rest.take n).foldl crc32Byte crc32Init)
  obtain ⟨stored,hstored,hput⟩ := bind_eq_some_iff.mp hput
  rw [sectionExtEncode,syntaxIndicator_header,if_pos hindicator]
  simp only [bind_eq_bind,bind_some,pure_def,Nat.one_ne_zero,if_false,if_true,hswap,
    sectionLengthField_header,hfield,show ¬ n + 6 + 3 < 4 by omega,hunswap,hcrc,hback,hstored,hput]
  rfl

end Encode

theorem sectionCheckCrc_encoded {tableId low high : UInt8} {body rest : List UInt8}
    (hfield : high.toNat % 16 * 256 + low.toNat = body.length + 4) :
    sectionCheckCrc (tableId :: low :: high :: (body ++
      ((le32 ((tableId :: high :: low :: body).foldl crc32Byte crc32Init)).reverse ++ rest))) =
      some (0, tableId :: low :: high :: (body ++
        ((le32 ((tableId :: high :: low :: body).foldl crc32Byte crc32Init)).reverse ++ rest))) := by
  generalize hword : (le32 ((tableId :: high :: low :: body).foldl crc32Byte crc32Init)).reverse = word
  have hlen : word.length = 4 := hword ▸ rfl
  have htake : (tableId :: high :: low :: (body ++ (word ++ rest))).take (high.toNat % 16 * 256 + low.toNat + 3) =
      (tableId :: high :: low :: body) ++ word := by
    rw [hfield,← append_assoc,← cons_append,← cons_append,← cons_append]
    exact take_left' (by simp [hlen])
  rw [sectionCheckCrc_eq (by simp [hfield, hlen]),htake,foldl_append,← hword,crc_self]
  rfl

theorem roundTrips (buf : List UInt8) : RoundTrips buf := by
  intro length hfield hmin hlen
  rcases buf with _ | ⟨tableId,_ | ⟨low,_ | ⟨high,_ | ⟨a,_ | ⟨b,rest⟩⟩⟩⟩⟩
  iterate 5 · simp only [length_cons,length_nil] at hlen; omega
  rw [sectionLengthField_header,some_inj] at hfield
  simp only [length_cons] at hlen
  obtain ⟨n,rfl⟩ : ∃ n, length = n + 6 := ⟨length - 6,by omega⟩
  have hrest : n + 4 ≤ rest.length := by omega
  by_cases hindicator : 128 ≤ high.toNat
  · right
    refine ⟨_,_,sectionExtEncode_eq hfield hindicator hrest,sectionExtDecode_checked hindicator ?_,?_,?_⟩
    · have hbody : (b :: a :: rest.take n).length + 4 = n + 6 := by
        simp only [length_cons,length_take_of_le (show n ≤ rest.length by omega)]
      exact sectionCheckCrc_encoded (hfield.trans hbody.symm)
    · simp only [length_cons,length_append,length_drop,
        length_take_of_le (show n ≤ rest.length by omega),length_reverse,le32,length_nil]
      omega
    · intro i hi
      rcases i with _ | _ | _ | _ | _ | i
      iterate 5 · rfl
      exact getElem?_overwritten hrest (show i < n ∨ n + 4 ≤ i by omega)
  · left
    rw [sectionExtEncode,syntaxIndicator_header,if_neg hindicator]
    exact ⟨rfl,rfl⟩

theorem sectionCheckCrc_burst {tableId low high tableId' low' high' : UInt8} {rest rest' : List UInt8}
    (hlen : high.toNat % 16 * 256 + low.toNat = rest.length)
    (hlen' : high'.toNat % 16 * 256 + low'.toNat = rest'.length)
    (hburst : BurstApart (tableId :: high :: low :: rest) (tableId' :: high' :: low' :: rest'))
    (hright : (sectionCheckCrc (tableId :: low :: high :: rest)).map Prod.fst = some 0) :
    (sectionCheckCrc (tableId' :: low' :: high' :: rest')).map Prod.fst = some (-1) := by
  have hall : (tableId :: high :: low :: rest).take (rest.length + 3) = tableId :: high :: low :: rest :=
    take_of_length_le (Nat.le_refl _)
  have hall' : (tableId' :: high' :: low' :: rest').take (rest'.length + 3) = tableId' :: high' :: low' :: rest' :=
    take_of_length_le (Nat.le_refl _)
  rw [sectionCheckCrc_eq (Nat.le_of_eq hlen),hlen,hall] at hright
  rw [sectionCheckCrc_eq (Nat.le_of_eq hlen'),hlen',hall']
  have hzero : (tableId :: high :: low :: rest).foldl crc32Byte crc32Init = 0 := by
    by_contra hne
    rw [if_pos hne] at hright
    cases hright
  rw [if_pos (fun h => hburst.crc_ne crc32Init (hzero.trans h.symm))]
  rfl

theorem detectsBursts (wire : List UInt8) : DetectsBursts wire := by
  intro received hreceived hright wire' hburst ok flipped hflipped hfield
  rcases wire with _ | ⟨tableId,_ | ⟨high,_ | ⟨low,rest⟩⟩⟩
  iterate 3 · cases hreceived
  rcases wire' with _ | ⟨tableId',_ | ⟨high',_ | ⟨low',rest'⟩⟩⟩
  iterate 3 · exact absurd hburst.1 (by simp)
  rw [sectionCodec_header,some_inj,Prod.mk.injEq,decide_eq_true_eq] at hreceived
  rw [sectionCodec_header,some_inj,Prod.mk.injEq] at hflipped
  obtain ⟨hlen,rfl⟩ := hreceived
  obtain ⟨-,rfl⟩ := hflipped
  rw [sectionLengthField_header,sectionLengthField_header,some_inj,hlen] at hfield
  have hsame : rest.length = rest'.length := by simpa using hburst.1
  exact sectionCheckCrc_burst hlen (hfield.trans hsame) hburst hright

/-- Encoding and checking agree for every section, and bursts of up to 32 bits are found in every transmission. -/
theorem roundTrips_detectsBursts (buf wire : List UInt8) : RoundTrips buf ∧ DetectsBursts wire :=
  ⟨roundTrips buf, detectsBursts wire⟩

end LinuxDvb.Ucsi
