import LinuxDvb.LibUcsi.PmtIterators
import LinuxDvb.LibUcsi.RrtSection

/-!
# Iterators over a rating region table

The accessors find the dimensions, their values and the descriptors again from the lengths of the texts and from the
counts.
-/

namespace LinuxDvb.Ucsi

section Iterators

variable (buf : List UInt8)

/-- The length or count at `buf + pos`. -/
def byteAt (pos : Nat) : Option Nat := (buf[pos]?).map UInt8.toNat

def atscRrtSectionPart2 : Option Nat := do
  let ratingRegionNameLength ← byteAt buf 9
  return sizeofRrtSection + ratingRegionNameLength

def atscRrtDimensionPart2 (dimension : Nat) : Option Nat := do
  let dimensionNameLength ← byteAt buf dimension
  return dimension + 1 + dimensionNameLength

def atscRrtDimensionValuePart2 (value : Nat) : Option Nat := do
  let abbrevRatingValueLength ← byteAt buf value
  return value + 1 + abbrevRatingValueLength

def atscRrtDimensionPart2ValuesFirst (part2 : Nat) : Option (Option Nat) := do
  let defined ← (buf[part2]?).map valuesDefined
  return if defined = 0 then none else some (part2 + sizeofRrtPart2)

def atscRrtDimensionPart2ValuesNext (part2 pos idx : Nat) : Option (Option Nat) := do
  let defined ← (buf[part2]?).map valuesDefined
  if idx ≥ defined then return none
  let vpart2 ← atscRrtDimensionValuePart2 buf pos
  let ratingValueLength ← byteAt buf vpart2
  return some (vpart2 + (1 + ratingValueLength))

/-- The loop over the values that adds up what they take. A dimension has at most 15 of them. -/
def addValues (dpart2 sum : Nat) : Option Nat := do
  let values ← forEachCounted (atscRrtDimensionPart2ValuesNext buf dpart2) 16 0
    (← atscRrtDimensionPart2ValuesFirst buf dpart2)
  values.foldlM (fun sum value => do
    let abbrevRatingValueLength ← byteAt buf value
    let vpart2 ← atscRrtDimensionValuePart2 buf value
    let ratingValueLength ← byteAt buf vpart2
    return sum + 1 + abbrevRatingValueLength + 1 + ratingValueLength) sum

def atscRrtSectionDimensionsFirst (part2 : Nat) : Option (Option Nat) := do
  let dimensionsDefined ← byteAt buf part2
  return if dimensionsDefined = 0 then none else some (part2 + sizeofRrtPart2)

def atscRrtSectionDimensionsNext (part2 pos idx : Nat) : Option (Option Nat) := do
  let dimensionsDefined ← byteAt buf part2
  if idx ≥ dimensionsDefined then return none
  let dpart2 ← atscRrtDimensionPart2 buf pos
  let len ← addValues buf dpart2 sizeofRrtPart2
  return some (dpart2 + len)

def atscRrtSectionPart3 (part2 : Nat) : Option Nat := do
  let dimensions ← forEachCounted (atscRrtSectionDimensionsNext buf part2) 256 0
    (← atscRrtSectionDimensionsFirst buf part2)
  let pos ← dimensions.foldlM (fun pos dimension => do
    let dimensionNameLength ← byteAt buf dimension
    let dpart2 ← atscRrtDimensionPart2 buf dimension
    addValues buf dpart2 (pos + 1 + dimensionNameLength + sizeofRrtPart2)) sizeofRrtPart2
  return part2 + pos

def atscRrtSectionPart3DescriptorsFirst (part3 : Nat) : Option (Option Nat) :=
  descriptorsFirst rrtLengthModulus buf part3 (part3 + sizeofRrtPart3)

def atscRrtSectionPart3DescriptorsNext (part3 pos : Nat) : Option (Option Nat) :=
  descriptorsNext rrtLengthModulus buf part3 (part3 + sizeofRrtPart3) pos

end Iterators

/-- The bytes between the extended header and the CRC are those of a rating region table. -/
def HoldsRrt (bytes : List UInt8) (body : RrtBody) : Prop :=
  ∃ header crc, header.length = 8 ∧ crc.length = 4 ∧ bytes = header ++ (body.bytes .transmission ++ crc)

def RrtBody.part2 (body : RrtBody) : Nat := sizeofRrtSection + body.ratingRegionName.bytes.length

def RrtBody.part3 (body : RrtBody) : Nat := 8 + body.front.length

/-- The iterators visit exactly the dimensions, the values of each of them, and the descriptors. -/
structure RrtIterates (buf : List UInt8) (body : RrtBody) : Prop where
  part2 : atscRrtSectionPart2 buf = some body.part2
  dimensions : EnumeratesCounted buf (atscRrtSectionDimensionsFirst buf body.part2)
    (atscRrtSectionDimensionsNext buf body.part2) (body.part2 + sizeofRrtPart2)
    (body.dimensions.map RrtDimension.bytes)
  values : ∀ pos dimension,
    (pos, dimension) ∈ (starts (body.part2 + sizeofRrtPart2) (body.dimensions.map RrtDimension.bytes)).zip
        body.dimensions →
      ∃ dpart2, atscRrtDimensionPart2 buf pos = some dpart2 ∧
        EnumeratesCounted buf (atscRrtDimensionPart2ValuesFirst buf dpart2)
          (atscRrtDimensionPart2ValuesNext buf dpart2) (dpart2 + sizeofRrtPart2)
          (dimension.values.map RrtValue.bytes)
  part3 : atscRrtSectionPart3 buf body.part2 = some body.part3
  descriptors : ExposesDescriptors rrtLengthModulus buf body.part3 (body.part3 + sizeofRrtPart3)
    (atscRrtSectionPart3DescriptorsFirst buf body.part3) (atscRrtSectionPart3DescriptorsNext buf body.part3)
    body.info.descriptors

section Decoded

variable {buf : List UInt8} {pos : Nat}

theorem AtscTextField.of_standsAt {t : AtscTextField} {rest : List UInt8} (h : StandsAt buf pos (t.lengthBytes ++ rest)) :
    byteAt buf pos = some t.bytes.length ∧ StandsAt buf (pos + 1 + t.bytes.length) rest := by
  constructor
  · have hbyte : buf[pos]? = some (UInt8.ofNat t.bytes.length) := h.getElem? (Nat.succ_pos _)
    rw [byteAt,hbyte]
    exact congrArg some (UInt8.toNat_ofNat_of_lt t.fits)
  · have hrest := h.right
    rwa [AtscTextField.lengthBytes,length_cons,Nat.add_comm t.bytes.length,← Nat.add_assoc] at hrest

theorem AtscTextField.length_lengthBytes (t : AtscTextField) : t.lengthBytes.length = t.bytes.length + 1 := rfl

theorem RrtValue.of_standsAt {v : RrtValue} (h : StandsAt buf pos v.bytes) :
    byteAt buf pos = some v.abbrevRatingValue.bytes.length ∧
      atscRrtDimensionValuePart2 buf pos = some (pos + 1 + v.abbrevRatingValue.bytes.length) ∧
      byteAt buf (pos + 1 + v.abbrevRatingValue.bytes.length) = some v.ratingValue.bytes.length := by
  obtain ⟨habbrev,hrest⟩ := AtscTextField.of_standsAt h
  rw [← append_nil v.ratingValue.lengthBytes] at hrest
  refine ⟨habbrev,?_,(AtscTextField.of_standsAt hrest).1⟩
  rw [atscRrtDimensionValuePart2,habbrev]
  rfl

theorem RrtDimension.of_standsAt {d : RrtDimension} (h : StandsAt buf pos d.bytes) :
    byteAt buf pos = some d.dimensionName.bytes.length ∧
      atscRrtDimensionPart2 buf pos = some (pos + 1 + d.dimensionName.bytes.length) ∧
      buf[pos + 1 + d.dimensionName.bytes.length]? = some d.part2 ∧
      StandsAt buf (pos + 1 + d.dimensionName.bytes.length + sizeofRrtPart2) (d.values.map RrtValue.bytes).flatten := by
  obtain ⟨hname,hrest⟩ := AtscTextField.of_standsAt h
  refine ⟨hname,?_,hrest.getElem? (Nat.succ_pos _),?_⟩
  · rw [atscRrtDimensionPart2,hname]
    rfl
  · have hvalues := hrest.right
    rwa [flatMap_def] at hvalues

theorem forEachCounted_values {d : RrtDimension} {dpart2 : Nat} (hpart2 : buf[dpart2]? = some d.part2)
    (hvalues : StandsAt buf (dpart2 + sizeofRrtPart2) (d.values.map RrtValue.bytes).flatten) :
    atscRrtDimensionPart2ValuesFirst buf dpart2 =
        some (if d.values.map RrtValue.bytes = [] then none else some (dpart2 + sizeofRrtPart2)) ∧
      forEachCounted (atscRrtDimensionPart2ValuesNext buf dpart2) 16 0
          (if d.values.map RrtValue.bytes = [] then none else some (dpart2 + sizeofRrtPart2)) =
        some (starts (dpart2 + sizeofRrtPart2) (d.values.map RrtValue.bytes)) := by
  have hdefined : (buf[dpart2]?).map valuesDefined = some d.values.length := by
    rw [hpart2,d.defined]
    rfl
  constructor
  · rw [atscRrtDimensionPart2ValuesFirst,hdefined]
    change some (if d.values.length = 0 then none else some (dpart2 + sizeofRrtPart2)) = _
    simp only [length_eq_zero_iff,map_eq_nil_iff]
  · have hfuel : d.values.length ≤ 16 := by
      rw [d.defined,valuesDefined]
      omega
    refine forEachCounted_starts (Nat.zero_add _) (by rwa [length_map]) fun value item hitem idx => ?_
    obtain ⟨v,-,rfl⟩ := of_mem_starts_map hitem
    obtain ⟨-,hvpart2,hrating⟩ := RrtValue.of_standsAt (standsAt_of_mem hvalues hitem)
    have hlength : value + 1 + v.abbrevRatingValue.bytes.length + (1 + v.ratingValue.bytes.length) =
        value + v.bytes.length := by
      rw [RrtValue.bytes,length_append,AtscTextField.length_lengthBytes,AtscTextField.length_lengthBytes]
      omega
    rw [atscRrtDimensionPart2ValuesNext,hdefined,hvpart2,length_map,← hlength]
    change (if idx ≥ d.values.length then some none else _) = _
    rw [apply_ite some,bind_eq_bind,bind_some,hrating]
    rfl

theorem addValues_eq {d : RrtDimension} {dpart2 : Nat} (hpart2 : buf[dpart2]? = some d.part2)
    (hvalues : StandsAt buf (dpart2 + sizeofRrtPart2) (d.values.map RrtValue.bytes).flatten) (sum : Nat) :
    addValues buf dpart2 sum = some (sum + (d.values.map RrtValue.bytes).flatten.length) := by
  obtain ⟨hfirst,hloop⟩ := forEachCounted_values hpart2 hvalues
  rw [addValues,hfirst]
  simp only [bind_eq_bind,bind_some]
  rw [hloop,bind_some]
  refine foldlM_starts (fun value item hitem sum => ?_) sum
  obtain ⟨v,-,rfl⟩ := of_mem_starts_map hitem
  obtain ⟨habbrev,hvpart2,hrating⟩ := RrtValue.of_standsAt (standsAt_of_mem hvalues hitem)
  have hlength : sum + 1 + v.abbrevRatingValue.bytes.length + 1 + v.ratingValue.bytes.length = sum + v.bytes.length := by
    rw [RrtValue.bytes,length_append,AtscTextField.length_lengthBytes,AtscTextField.length_lengthBytes]
    omega
  rw [habbrev,bind_some,hvpart2,bind_some,hrating,← hlength]
  rfl

theorem RrtDimension.length_bytes (d : RrtDimension) :
    d.bytes.length = 1 + d.dimensionName.bytes.length + (sizeofRrtPart2 + (d.values.map RrtValue.bytes).flatten.length) := by
  rw [RrtDimension.bytes,length_append,length_append,AtscTextField.length_lengthBytes,flatMap_def,
    length_singleton,sizeofRrtPart2]
  omega

variable {body : RrtBody} {order : ByteOrder}

theorem RrtBody.of_standsAt (h : StandsAt buf 8 (body.bytes order)) :
    atscRrtSectionPart2 buf = some body.part2 ∧ byteAt buf body.part2 = some body.dimensions.length ∧
      StandsAt buf (body.part2 + sizeofRrtPart2) (body.dimensions.map RrtDimension.bytes).flatten ∧
      StandsAt buf body.part3 (body.info.bytes order) := by
  have hfront : StandsAt buf 8 ([body.protocolVersion] ++ (body.ratingRegionName.lengthBytes ++
      ([UInt8.ofNat body.dimensions.length] ++ body.dimensions.flatMap RrtDimension.bytes))) := h.left
  have hname : StandsAt buf 9 (body.ratingRegionName.lengthBytes ++
      ([UInt8.ofNat body.dimensions.length] ++ body.dimensions.flatMap RrtDimension.bytes)) := hfront.right
  obtain ⟨hlength,hpart2⟩ := AtscTextField.of_standsAt hname
  refine ⟨?_,?_,?_,h.right⟩
  · rw [atscRrtSectionPart2,hlength]
    rfl
  · have hcount : buf[body.part2]? = some (UInt8.ofNat body.dimensions.length) := hpart2.getElem? (Nat.succ_pos _)
    rw [byteAt,hcount]
    exact congrArg some (UInt8.toNat_ofNat_of_lt body.fits)
  · have hdimensions := hpart2.right
    rwa [flatMap_def] at hdimensions

theorem forEachCounted_dimensions (h : StandsAt buf 8 (body.bytes order)) :
    atscRrtSectionDimensionsFirst buf body.part2 =
        some (if body.dimensions.map RrtDimension.bytes = [] then none else some (body.part2 + sizeofRrtPart2)) ∧
      forEachCounted (atscRrtSectionDimensionsNext buf body.part2) 256 0
          (if body.dimensions.map RrtDimension.bytes = [] then none else some (body.part2 + sizeofRrtPart2)) =
        some (starts (body.part2 + sizeofRrtPart2) (body.dimensions.map RrtDimension.bytes)) := by
  obtain ⟨-,hcount,hdimensions,-⟩ := RrtBody.of_standsAt h
  constructor
  · rw [atscRrtSectionDimensionsFirst,hcount]
    change some (if body.dimensions.length = 0 then none else some (body.part2 + sizeofRrtPart2)) = _
    simp only [length_eq_zero_iff,map_eq_nil_iff]
  · have hfuel : body.dimensions.length ≤ 256 := Nat.le_of_lt body.fits
    refine forEachCounted_starts (Nat.zero_add _) (by rwa [length_map]) fun dimension item hitem idx => ?_
    obtain ⟨d,-,rfl⟩ := of_mem_starts_map hitem
    obtain ⟨-,hdpart2,hbyte,hvalues⟩ := RrtDimension.of_standsAt (standsAt_of_mem hdimensions hitem)
    have hlength : dimension + 1 + d.dimensionName.bytes.length +
        (sizeofRrtPart2 + (d.values.map RrtValue.bytes).flatten.length) = dimension + d.bytes.length := by
      rw [d.length_bytes]
      omega
    rw [atscRrtSectionDimensionsNext,hcount,hdpart2,length_map,← hlength]
    change (if idx ≥ body.dimensions.length then some none else _) = _
    rw [apply_ite some,bind_eq_bind,bind_some,addValues_eq hbyte hvalues]
    rfl

theorem atscRrtSectionPart3_eq (h : StandsAt buf 8 (body.bytes order)) :
    atscRrtSectionPart3 buf body.part2 = some body.part3 := by
  obtain ⟨-,-,hdimensions,-⟩ := RrtBody.of_standsAt h
  obtain ⟨hfirst,hloop⟩ := forEachCounted_dimensions h
  rw [atscRrtSectionPart3,hfirst]
  simp only [bind_eq_bind,bind_some]
  rw [hloop,bind_some,foldlM_starts,bind_some]
  · have hfront : body.front.length = 2 + (body.ratingRegionName.bytes.length +
        (1 + (body.dimensions.map RrtDimension.bytes).flatten.length)) := by
      simp only [RrtBody.front,length_append,flatMap_def]
      rfl
    rw [RrtBody.part3,hfront,RrtBody.part2,sizeofRrtSection,sizeofRrtPart2]
    exact congrArg some (by omega)
  · intro dimension item hitem sum
    obtain ⟨d,-,rfl⟩ := of_mem_starts_map hitem
    obtain ⟨hname,hdpart2,hbyte,hvalues⟩ := RrtDimension.of_standsAt (standsAt_of_mem hdimensions hitem)
    rw [hname,bind_some,hdpart2,bind_some,addValues_eq hbyte hvalues,d.length_bytes]
    exact congrArg some (by omega)

theorem iterates_rrt (h : StandsAt buf 8 (body.bytes .host)) : RrtIterates buf body := by
  obtain ⟨hpart2,-,hdimensions,hinfo⟩ := RrtBody.of_standsAt h
  obtain ⟨hfirst,hloop⟩ := forEachCounted_dimensions h
  refine ⟨hpart2,⟨hdimensions,_,hfirst,256,hloop⟩,fun pos dimension hdimension => ?_,atscRrtSectionPart3_eq h,
    LengthLoop.exposes hinfo⟩
  obtain ⟨-,hdpart2,hbyte,hvalues⟩ :=
    RrtDimension.of_standsAt (standsAt_of_mem hdimensions (mem_starts_map hdimension))
  obtain ⟨hfirst,hloop⟩ := forEachCounted_values hbyte hvalues
  exact ⟨_,hdpart2,hvalues,_,hfirst,16,hloop⟩

end Decoded

/-- The codec takes the table, and the iterators then visit what is in it, with all their accesses before the CRC. -/
def RrtTaken (bytes : List UInt8) (body : RrtBody) : Prop :=
  ∃ buf, atscRrtSectionCodec bytes = some (some (), buf) ∧ RrtIterates (buf.take (bytes.length - 4)) body

/-- A well-formed table is taken, and gone through, exactly if the two bytes of the word with the length of its descriptor
loop are the same. -/
theorem atscRrtSectionCodec_taken_iff (ext : ExtSection) (body : RrtBody) (hbody : HoldsRrt ext.bytes body) :
    RrtTaken ext.bytes body ↔ body.info.Symmetric := by
  obtain ⟨header, crc, hheader, hcrc, hbytes⟩ := hbody
  have hlength : ext.bytes.length = 8 + (body.bytes .transmission).length + 4 := by
    rw [hbytes, List.length_append, List.length_append, hheader, hcrc, Nat.add_assoc]
  have hext : sectionExtLength (header ++ (body.bytes .transmission ++ crc)) =
      some (8 + (body.bytes .transmission).length) := by
    rw [← hbytes, ext.sectionExtLength_eq, hlength]
    rfl
  obtain ⟨ok, buf, hcodec, hok, hsame⟩ := atscRrtSectionCodec_spec body hheader hext
  rw [RrtTaken, hlength, hbytes, hcodec]
  constructor
  · rintro ⟨buf', htaken, -⟩
    cases htaken
    exact hok.mp rfl
  · intro hsymmetric
    have htaken := hok.mpr hsymmetric
    obtain ⟨_, rfl⟩ := Option.isSome_iff_exists.mp htaken
    refine ⟨buf, rfl, ?_⟩
    have htake : buf.take (8 + (body.bytes .transmission).length + 4 - 4) = header ++ body.bytes .transmission := by
      rw [hsame rfl, ← List.append_assoc]
      exact List.take_left' (by rw [List.length_append, hheader]; rfl)
    have hhost : body.bytes .transmission = body.bytes .host := congrArg (body.front ++ ·) hsymmetric.bytes_eq
    rw [htake, hhost]
    exact iterates_rrt ⟨header, [], by rw [List.append_nil], hheader⟩

def emptyRrt (word : UInt16) (h : word.toNat % rrtLengthModulus = 0) : RrtBody :=
  ⟨0, ⟨[], by decide, .inl rfl⟩, [], by decide, ⟨word, [], h.symm⟩⟩

def zeroBitsSection : ExtSection :=
  ⟨[0xca, 14, 0xf0, 0, 1, 0xc1, 0, 0, 0, 0, 0, 0, 0, 1, 2, 3, 4], by decide, by decide⟩

def reservedBitsSection : ExtSection :=
  ⟨[0xca, 14, 0xf0, 0, 1, 0xc1, 0, 0, 0, 0, 0, 0xfc, 0, 1, 2, 3, 4], by decide, by decide⟩

theorem zeroBits_taken : RrtTaken zeroBitsSection.bytes (emptyRrt 0 rfl) ↔ (emptyRrt 0 rfl).info.Symmetric :=
  atscRrtSectionCodec_taken_iff zeroBitsSection (emptyRrt 0 rfl)
    ⟨[0xca, 14, 0xf0, 0, 1, 0xc1, 0, 0], [1, 2, 3, 4], rfl, rfl, rfl⟩

theorem reservedBits_not_taken : ¬ ∀ (ext : ExtSection) (body : RrtBody), HoldsRrt ext.bytes body →
    RrtTaken ext.bytes body := by
  intro h
  obtain ⟨buf, hcodec, -⟩ := h reservedBitsSection (emptyRrt 0xfc00 rfl)
    ⟨[0xca, 14, 0xf0, 0, 1, 0xc1, 0, 0], [1, 2, 3, 4], rfl, rfl, rfl⟩
  have hrefused : (atscRrtSectionCodec reservedBitsSection.bytes).map Prod.fst = some none := by decide
  rw [hcodec] at hrefused
  cases hrefused

end LinuxDvb.Ucsi
