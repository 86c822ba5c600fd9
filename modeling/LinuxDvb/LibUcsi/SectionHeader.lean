import LinuxDvb.LibUcsi.PmtIterators

/-!
# Section headers

The codecs of tables take the length of their payload from the header that was decoded. The decoding checks
that the length is that of the buffer, but not that the buffer has room for the extended header and the CRC.
-/

namespace LinuxDvb.Ucsi

/-- If a buffer is decoded as an extended section, then inside the buffer, the length without the CRC covers
the extended header and leaves room for the CRC, and the codec of a table does not leave the buffer. -/
def HeaderSound (buf : List UInt8) (checkCrc : Bool) : Prop :=
  ∀ section', sectionCodec buf = some (true, section') →
    ∃ ok ext, sectionExtDecode section' checkCrc = some (ok, ext) ∧
      (ok = true → (∃ length, sectionExtLength ext = some length ∧ 8 ≤ length ∧ length + 4 ≤ buf.length) ∧
        mpegPmtSectionCodec ext ≠ none)

/-- The length field is that of the buffer, the section has an extended header, and its CRC is right, if it
is checked. -/
def HeaderAccepted (buf : List UInt8) (checkCrc : Bool) : Prop :=
  match buf with
  | _ :: high :: low :: rest =>
    high.toNat % 16 * 256 + low.toNat = rest.length ∧ 128 ≤ high.toNat ∧
      (checkCrc = true → crc32 crc32Init buf buf.length = some 0)
  | _ => False

section Decode

variable (tableId high low : UInt8) (rest : List UInt8)

theorem word16_header : word16 (tableId :: low :: high :: rest) 1 = some (low.toNat + 256 * high.toNat) := rfl

theorem sectionLengthField_header :
    sectionLengthField (tableId :: low :: high :: rest) = some (high.toNat % 16 * 256 + low.toNat) := by
  have hlow := low.toNat_lt
  rw [sectionLengthField,lengthField,word16_header,map_some]
  congr 1
  omega

theorem syntaxIndicator_header :
    syntaxIndicator (tableId :: low :: high :: rest) = some (if 128 ≤ high.toNat then 1 else 0) := by
  have hlow := low.toNat_lt
  have hhigh := high.toNat_lt
  rw [syntaxIndicator,word16_header,map_some]
  congr 1
  split
  · omega
  · omega

theorem sectionCodec_header : sectionCodec (tableId :: high :: low :: rest) =
      some (decide (high.toNat % 16 * 256 + low.toNat = rest.length), tableId :: low :: high :: rest) := by
  have hswap : bswap16 (tableId :: high :: low :: rest) 1 = some (tableId :: low :: high :: rest) := rfl
  have hshort : ¬(tableId :: high :: low :: rest).length < 3 := Nat.not_lt.mpr (Nat.le_add_left 3 _)
  unfold sectionCodec
  rw [if_neg hshort,hswap]
  simp only [bind_eq_bind,bind_some,pure_def,sectionLengthField_header]
  congr 2
  apply decide_eq_decide.mpr
  simp only [length_cons]
  omega

variable {tableId high low rest}

theorem sectionCheckCrc_header (hlength : high.toNat % 16 * 256 + low.toNat = rest.length) :
    ∃ crc, crc32 crc32Init (tableId :: high :: low :: rest) (rest.length + 3) = some crc ∧
      sectionCheckCrc (tableId :: low :: high :: rest) =
        some (if crc ≠ 0 then -1 else 0, tableId :: low :: high :: rest) := by
  have hunswap : bswap16 (tableId :: low :: high :: rest) 1 = some (tableId :: high :: low :: rest) := rfl
  have hswap : bswap16 (tableId :: high :: low :: rest) 1 = some (tableId :: low :: high :: rest) := rfl
  obtain ⟨crc,hcrc⟩ : ∃ crc, crc32 crc32Init (tableId :: high :: low :: rest) (rest.length + 3) = some crc :=
    ⟨_,if_pos (Nat.le_refl _)⟩
  refine ⟨crc,hcrc,?_⟩
  unfold sectionCheckCrc sectionLength
  rw [sectionLengthField_header,hlength]
  simp only [map_some,bind_eq_bind,bind_some,pure_def,hunswap,hswap,hcrc]

theorem sectionExtDecode_accepted {checkCrc : Bool} (h : HeaderAccepted (tableId :: high :: low :: rest) checkCrc) :
    sectionExtDecode (tableId :: low :: high :: rest) checkCrc =
      (bswap16 (tableId :: low :: high :: rest) 3).map (true, ·) := by
  obtain ⟨hlength, hsyntax,hcrc⟩ := h
  unfold sectionExtDecode
  rw [syntaxIndicator_header,if_pos hsyntax]
  cases checkCrc with
  | false =>
    simp only [bind_eq_bind,bind_some,pure_def]
    rw [if_neg Nat.one_ne_zero,if_neg Bool.false_ne_true,if_neg (not_not_intro rfl),Option.map_eq_bind]
    rfl
  | true =>
    obtain ⟨crc,hcrc',hcheck⟩ := @sectionCheckCrc_header tableId high low rest hlength
    have hzero : crc = 0 := some_inj.mp (hcrc'.symm.trans (hcrc rfl))
    subst hzero
    simp only [bind_eq_bind,bind_some,pure_def]
    rw [if_neg Nat.one_ne_zero,if_pos trivial,hcheck,Option.map_eq_bind]
    rfl

theorem sectionExtDecode_refused {checkCrc : Bool} (hlength : high.toNat % 16 * 256 + low.toNat = rest.length)
    (h : ¬HeaderAccepted (tableId :: high :: low :: rest) checkCrc) :
    sectionExtDecode (tableId :: low :: high :: rest) checkCrc =
      some (false, tableId :: low :: high :: rest) := by
  unfold sectionExtDecode
  rw [syntaxIndicator_header]
  by_cases hsyntax : 128 ≤ high.toNat
  · rw [if_pos hsyntax]
    cases checkCrc with
    | false => exact absurd ⟨hlength, hsyntax,fun h => nomatch h⟩ h
    | true =>
      obtain ⟨crc,hcrc,hcheck⟩ := @sectionCheckCrc_header tableId high low rest hlength
      have hwrong : crc ≠ 0 := by
        rintro rfl
        exact h ⟨hlength, hsyntax,fun _ => hcrc⟩
      simp only [bind_eq_bind,bind_some,pure_def]
      rw [if_neg Nat.one_ne_zero,if_pos trivial,hcheck,bind_some,if_pos hwrong]
      rfl
  · rw [if_neg hsyntax]
    rfl

end Decode

theorem sectionLengthField_swapped {tableId low high a b : UInt8} {rest : List UInt8} :
    sectionLengthField (tableId :: low :: high :: b :: a :: rest) =
      some (high.toNat % 16 * 256 + low.toNat) := sectionLengthField_header tableId high low (b :: a :: rest)

/-- The header decoding gives the codecs what they need exactly if it refuses all sections that are shorter
than the extended header and the CRC. -/
theorem headerSound_iff (buf : List UInt8) (checkCrc : Bool) :
    HeaderSound buf checkCrc ↔ (HeaderAccepted buf checkCrc → 12 ≤ buf.length) := by
  rcases buf with _ | ⟨tableId, _ | ⟨high, _ | ⟨low, rest⟩⟩⟩
  iterate 3 · exact iff_of_true (fun _ h => nomatch h) fun h => nomatch h
  unfold HeaderSound
  rw [sectionCodec_header]
  constructor
  · intro hsound haccepted
    obtain ⟨ok, ext, hdecode, hok⟩ := hsound (tableId :: low :: high :: rest)
      (by rw [decide_eq_true haccepted.1])
    rw [sectionExtDecode_accepted haccepted] at hdecode
    rcases rest with _ | ⟨a, _ | ⟨b, rest⟩⟩
    · cases hdecode
    · cases hdecode
    · change some (true, tableId :: low :: high :: b :: a :: rest) = some (ok, ext) at hdecode
      cases hdecode
      obtain ⟨⟨length, hlength, hheader, -⟩, -⟩ := hok rfl
      have hfield := @sectionLengthField_swapped tableId low high a b rest
      rw [haccepted.1] at hfield
      rw [sectionExtLength_eq hfield (Nat.le_add_left _ _)] at hlength
      cases hlength
      simp only [List.length_cons] at hheader ⊢
      omega
  · intro hlong section' hcodec
    injection hcodec with hcodec
    injection hcodec with hlength hsection
    have hlength' := of_decide_eq_true hlength
    rw [← hsection]
    by_cases haccepted : HeaderAccepted (tableId :: high :: low :: rest) checkCrc
    · have hlong' := hlong haccepted
      rcases rest with _ | ⟨a, _ | ⟨b, rest⟩⟩
      iterate 2 · simp at hlong'
      let ext : ExtSection := ⟨tableId :: low :: high :: b :: a :: rest, by simp at hlong' ⊢; omega, by
        rw [sectionLengthField_swapped, hlength']
        rfl⟩
      refine ⟨true, ext.bytes, sectionExtDecode_accepted haccepted,
        fun _ => ⟨⟨_, ext.sectionExtLength_eq, ?_, ?_⟩, ext.codec_inside⟩⟩
      · exact Nat.le_sub_of_add_le hlong'
      · exact Nat.le_of_eq (Nat.sub_add_cancel (Nat.le_trans (by decide) hlong'))
    · exact ⟨false, _, sectionExtDecode_refused hlength' haccepted, fun h => nomatch h⟩

/-- A section of two bytes is accepted. -/
theorem header_not_sound : ¬HeaderSound [0, 0x80, 2, 0, 0] false := by
  intro h
  obtain ⟨ok, ext, hdecode, hok⟩ := h [0, 2, 0x80, 0, 0] rfl
  cases hdecode
  obtain ⟨⟨length, hlength, hheader, -⟩, -⟩ := hok rfl
  cases hlength
  exact absurd hheader (by decide)

end LinuxDvb.Ucsi
