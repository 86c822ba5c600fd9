import LinuxDvb.LibUcsi.DcctSection
import LinuxDvb.LibUcsi.PmtIterators

/-!
# Iterators over a directed channel change table

The accessors find every structure of a decoded section again where the codec has checked it, without a look at the CRC
or at anything behind it.
-/

namespace LinuxDvb.Ucsi

open InPlace

def HoldsDcct (bytes : List UInt8) (body : DcctBody) : Prop :=
  ∃ header crc, header.length = 8 ∧ crc.length = 4 ∧ bytes = header ++ (body.bytes .transmission ++ crc)

def DcctTest.part2 (pos : Nat) (test : DcctTest) : Nat :=
  pos + sizeofDcctTest + (test.terms.flatMap (DcctTerm.bytes .host)).length

def DcctBody.part2 (body : DcctBody) : Nat :=
  sizeofDcctSection + (body.tests.flatMap (DcctTest.bytes .host)).length

/-- The iterators over the test at `pos`: its terms, their descriptors, and its own descriptors. -/
structure DcctTestIterates (buf : List UInt8) (pos : Nat) (test : DcctTest) : Prop where
  termCount : (dccTermCount buf pos).map UInt8.toNat = some test.terms.length
  terms : EnumeratesCounted buf (atscDcctTestTermsFirst buf pos) (atscDcctTestTermsNext buf pos) (pos + sizeofDcctTest)
    (test.terms.map (DcctTerm.bytes .host))
  termDescriptors : ∀ termPos term,
    (termPos, term) ∈ (starts (pos + sizeofDcctTest) (test.terms.map (DcctTerm.bytes .host))).zip test.terms →
      ExposesDescriptors dcctLengthModulus buf (termPos + 9) (termPos + sizeofDcctTerm)
        (atscDcctTermDescriptorsFirst buf termPos) (atscDcctTermDescriptorsNext buf termPos) term.info.descriptors
  part2 : atscDcctTestPart2 buf pos = some (test.part2 pos)
  descriptors : ExposesDescriptors dcctLengthModulus buf (test.part2 pos) (test.part2 pos + sizeofDcctPart2)
    (atscDcctPart2DescriptorsFirst buf (test.part2 pos)) (atscDcctPart2DescriptorsNext buf (test.part2 pos))
    test.info.descriptors

/-- The iterators over a section: its tests, what is in them, and its own descriptors. -/
structure DcctIterates (buf : List UInt8) (body : DcctBody) : Prop where
  testCount : (dccTestCount buf).map UInt8.toNat = some body.tests.length
  tests : EnumeratesCounted buf (atscDcctSectionTestsFirst buf) (atscDcctSectionTestsNext buf) sizeofDcctSection
    (body.tests.map (DcctTest.bytes .host))
  eachTest : ∀ pos test,
    (pos, test) ∈ (starts sizeofDcctSection (body.tests.map (DcctTest.bytes .host))).zip body.tests →
      DcctTestIterates buf pos test
  part2 : atscDcctSectionPart2 buf = some body.part2
  descriptors : ExposesDescriptors dcctLengthModulus buf body.part2 (body.part2 + sizeofDcctPart2)
    (atscDcctPart2DescriptorsFirst buf body.part2) (atscDcctPart2DescriptorsNext buf body.part2) body.info.descriptors

section Decoded

variable {buf : List UInt8} {pos : Nat}

theorem DcctTerm.standsAt_info {term : DcctTerm} (h : StandsAt buf pos (term.bytes .host)) :
    StandsAt buf (pos + 9) (term.info.bytes .host) := by
  have hfront : StandsAt buf pos ((term.dccSelectionType :: term.dccSelectionId.val.reverse) ++ term.info.bytes .host) := h
  have hinfo := hfront.right
  rwa [length_cons,length_reverse,term.dccSelectionId.property] at hinfo

theorem DcctTerm.size_eq {term : DcctTerm} (h : StandsAt buf pos (term.bytes .host)) :
    lengthBits dcctLengthModulus buf (pos + 9) = some (descriptorLoop term.info.descriptors).length :=
  (LengthLoop.of_standsAt (DcctTerm.standsAt_info h)).1

theorem DcctTest.termCount_eq {test : DcctTest} (h : StandsAt buf pos (test.bytes .host)) :
    dccTermCount buf pos = some (UInt8.ofNat test.terms.length) := by
  have hfront : (test.dccFromChannel.val.reverse ++ (test.dccToChannel.val.reverse ++ (test.startTime.val.reverse ++
      test.endTime.val.reverse))).length = 14 := by
    simp only [length_append,length_reverse,test.dccFromChannel.property,test.dccToChannel.property,
      test.startTime.property,test.endTime.property]
  have hlength : 14 < (test.bytes .host).length := by
    rw [DcctTest.bytes,length_append,test.length_header,sizeofDcctTest]
    omega
  have hread := getElem?_behind (test.dccFromChannel.val.reverse ++ (test.dccToChannel.val.reverse ++
    (test.startTime.val.reverse ++ test.endTime.val.reverse))) (UInt8.ofNat test.terms.length ::
      (test.terms.flatMap (DcctTerm.bytes .host) ++ test.info.bytes .host)) 0
  rw [hfront] at hread
  rw [dccTermCount,h.getElem? hlength,DcctTest.bytes,DcctTest.header]
  simp only [ByteOrder.field,append_assoc] at hread ⊢
  exact hread

theorem DcctTest.standsAt_terms {test : DcctTest} (h : StandsAt buf pos (test.bytes .host)) :
    StandsAt buf (pos + sizeofDcctTest) (test.terms.map (DcctTerm.bytes .host)).flatten := by
  have hterms := h.right.left
  rwa [test.length_header,flatMap_def] at hterms

theorem DcctTest.standsAt_info {test : DcctTest} (h : StandsAt buf pos (test.bytes .host)) :
    StandsAt buf (test.part2 pos) (test.info.bytes .host) := by
  have hinfo := h.right.right
  rwa [test.length_header] at hinfo

theorem DcctTest.length_bytes (test : DcctTest) (pos : Nat) :
    test.part2 pos + (sizeofDcctPart2 + (descriptorLoop test.info.descriptors).length) =
      pos + (test.bytes .host).length := by
  rw [DcctTest.bytes,length_append,length_append,test.length_header,test.info.length_bytes,
    DcctTest.part2,sizeofDcctPart2]
  omega

theorem forEachCounted_terms {test : DcctTest} (h : StandsAt buf pos (test.bytes .host)) :
    atscDcctTestTermsFirst buf pos =
        some (if test.terms.map (DcctTerm.bytes .host) = [] then none else some (pos + sizeofDcctTest)) ∧
      forEachCounted (atscDcctTestTermsNext buf pos) 256 0
          (if test.terms.map (DcctTerm.bytes .host) = [] then none else some (pos + sizeofDcctTest)) =
        some (starts (pos + sizeofDcctTest) (test.terms.map (DcctTerm.bytes .host))) := by
  have hcount := DcctTest.termCount_eq h
  have hnat : (UInt8.ofNat test.terms.length).toNat = test.terms.length := UInt8.toNat_ofNat_of_lt test.fits
  have hterms := DcctTest.standsAt_terms h
  constructor
  · rw [atscDcctTestTermsFirst,hcount]
    change some (if UInt8.ofNat test.terms.length = 0 then none else some (pos + sizeofDcctTest)) = _
    simp only [ofNat_length_eq_zero test.fits,map_eq_nil_iff]
  · have hfuel : test.terms.length ≤ 256 := Nat.le_of_lt test.fits
    refine forEachCounted_starts (Nat.zero_add _) (by rwa [length_map]) fun termPos item hitem idx => ?_
    obtain ⟨term,-,rfl⟩ := of_mem_starts_map hitem
    have hsize := DcctTerm.size_eq (standsAt_of_mem hterms hitem)
    rw [atscDcctTestTermsNext,hcount,hsize,term.length_bytes,length_map]
    change (if idx ≥ (UInt8.ofNat test.terms.length).toNat then some none else _) = _
    rw [hnat,apply_ite some]
    rfl

theorem atscDcctTestPart2_eq {test : DcctTest} (h : StandsAt buf pos (test.bytes .host)) :
    atscDcctTestPart2 buf pos = some (test.part2 pos) := by
  obtain ⟨hfirst,hloop⟩ := forEachCounted_terms h
  rw [atscDcctTestPart2,hfirst]
  simp only [bind_eq_bind,bind_some]
  rw [hloop,bind_some,DcctTest.part2,flatMap_def]
  refine foldlM_starts (fun termPos item hitem sum => ?_) _
  have hstands := standsAt_of_mem (DcctTest.standsAt_terms h) hitem
  obtain ⟨term,-,rfl⟩ := of_mem_starts_map hitem
  rw [DcctTerm.size_eq hstands,term.length_bytes,← Nat.add_assoc]
  rfl

theorem iterates_dcctTest {test : DcctTest} (h : StandsAt buf pos (test.bytes .host)) : DcctTestIterates buf pos test where
  termCount := by
    rw [DcctTest.termCount_eq h]
    exact congrArg some (UInt8.toNat_ofNat_of_lt test.fits)
  terms :=
    have ⟨hfirst,hloop⟩ := forEachCounted_terms h
    ⟨DcctTest.standsAt_terms h,_,hfirst,256,hloop⟩
  termDescriptors := by
    intro termPos term hterm
    have hstands := standsAt_of_mem (DcctTest.standsAt_terms h) (mem_starts_map hterm)
    exact LengthLoop.exposes (DcctTerm.standsAt_info hstands)
  part2 := atscDcctTestPart2_eq h
  descriptors := LengthLoop.exposes (DcctTest.standsAt_info h)

variable {body : DcctBody}

theorem DcctBody.testCount_eq (h : StandsAt buf 8 (body.bytes .host)) :
    dccTestCount buf = some (UInt8.ofNat body.tests.length) := by
  have hlength : 1 < (body.bytes .host).length := Nat.succ_lt_succ (Nat.succ_pos _)
  exact h.getElem? hlength

theorem DcctBody.standsAt_loops (h : StandsAt buf 8 (body.bytes .host)) :
    StandsAt buf sizeofDcctSection ((body.tests.map (DcctTest.bytes .host)).flatten ++ body.info.bytes .host) := by
  have hfront : StandsAt buf 8 ([body.protocolVersion, UInt8.ofNat body.tests.length] ++
      (body.tests.flatMap (DcctTest.bytes .host) ++ body.info.bytes .host)) := h
  have hloops := hfront.right
  rwa [flatMap_def] at hloops

theorem forEachCounted_tests (h : StandsAt buf 8 (body.bytes .host)) : atscDcctSectionTestsFirst buf =
        some (if body.tests.map (DcctTest.bytes .host) = [] then none else some sizeofDcctSection) ∧
      forEachCounted (atscDcctSectionTestsNext buf) 256 0
          (if body.tests.map (DcctTest.bytes .host) = [] then none else some sizeofDcctSection) =
        some (starts sizeofDcctSection (body.tests.map (DcctTest.bytes .host))) := by
  have hcount := DcctBody.testCount_eq h
  have hnat : (UInt8.ofNat body.tests.length).toNat = body.tests.length := UInt8.toNat_ofNat_of_lt body.fits
  have htests := (DcctBody.standsAt_loops h).left
  constructor
  · rw [atscDcctSectionTestsFirst,hcount]
    change some (if UInt8.ofNat body.tests.length = 0 then none else some sizeofDcctSection) = _
    simp only [ofNat_length_eq_zero body.fits,map_eq_nil_iff]
  · have hfuel : body.tests.length ≤ 256 := Nat.le_of_lt body.fits
    refine forEachCounted_starts (Nat.zero_add _) (by rwa [length_map]) fun testPos item hitem idx => ?_
    have hstands := standsAt_of_mem htests hitem
    obtain ⟨test,-,rfl⟩ := of_mem_starts_map hitem
    have hsize := (LengthLoop.of_standsAt (DcctTest.standsAt_info hstands)).1
    rw [atscDcctSectionTestsNext,hcount,← test.length_bytes,length_map]
    change (if idx ≥ (UInt8.ofNat body.tests.length).toNat then some none else _) = _
    rw [hnat,atscDcctTestPart2_eq hstands,apply_ite some,bind_eq_bind,bind_some,hsize]
    rfl

theorem atscDcctSectionPart2_eq (h : StandsAt buf 8 (body.bytes .host)) :
    atscDcctSectionPart2 buf = some body.part2 := by
  obtain ⟨hfirst,hloop⟩ := forEachCounted_tests h
  rw [atscDcctSectionPart2,hfirst]
  simp only [bind_eq_bind,bind_some]
  rw [hloop,bind_some,DcctBody.part2,flatMap_def]
  refine foldlM_starts (fun testPos item hitem sum => ?_) _
  have hstands := standsAt_of_mem (DcctBody.standsAt_loops h).left hitem
  obtain ⟨test,-,rfl⟩ := of_mem_starts_map hitem
  have hsize := (LengthLoop.of_standsAt (DcctTest.standsAt_info hstands)).1
  have hlength := test.length_bytes testPos
  have hpart2 : testPos ≤ test.part2 testPos := by
    rw [DcctTest.part2]
    omega
  rw [atscDcctTestPart2_eq hstands,bind_some,hsize,bind_some]
  change some (sum + (test.part2 testPos - testPos) + sizeofDcctPart2 + _) = _
  congr 1
  omega

theorem iterates_dcct (h : StandsAt buf 8 (body.bytes .host)) : DcctIterates buf body where
  testCount := by
    rw [DcctBody.testCount_eq h]
    exact congrArg some (UInt8.toNat_ofNat_of_lt body.fits)
  tests :=
    have ⟨hfirst,hloop⟩ := forEachCounted_tests h
    ⟨(DcctBody.standsAt_loops h).left,_,hfirst,256,hloop⟩
  eachTest := fun _ _ htest =>
    iterates_dcctTest (standsAt_of_mem (DcctBody.standsAt_loops h).left (mem_starts_map htest))
  part2 := atscDcctSectionPart2_eq h
  descriptors := by
    have hinfo := (DcctBody.standsAt_loops h).right
    rw [← flatMap_def] at hinfo
    exact LengthLoop.exposes hinfo

end Decoded

/-- The codec ends on every section, with all its accesses inside, takes exactly the sections that follow the grammar, and
changes only what is between the header and the CRC. On a section that it takes, the iterators end, with all their
accesses before the CRC, and visit exactly the tests, the terms and the descriptors that it has checked. -/
theorem atscDcctSectionCodec_iterates (ext : ExtSection) : ∃ ok buf, atscDcctSectionCodec ext.bytes = some (ok, buf) ∧
      (buf.length = ext.bytes.length ∧ buf.take 8 = ext.bytes.take 8 ∧
        buf.drop (ext.bytes.length - 4) = ext.bytes.drop (ext.bytes.length - 4)) ∧
      (ok.isSome ↔ ∃ body, HoldsDcct ext.bytes body) ∧
      ∀ body, HoldsDcct ext.bytes body → DcctIterates (buf.take (ext.bytes.length - 4)) body := by
  by_cases hlen : 12 ≤ ext.bytes.length
  · obtain ⟨header, payload, crc, hheader, hcrc, hbytes, hfield⟩ := ext.exists_split hlen
    have hext : sectionExtLength (header ++ (payload ++ crc)) = some (8 + payload.length) := by
      rw [Ucsi.sectionExtLength_eq hfield (Nat.le_add_left _ _)]
      congr 1
      omega
    obtain ⟨ok, payload', hcodec, hpayload, hok, hdecoded⟩ := atscDcctSectionCodec_spec hheader hext
    have hholds (body : DcctBody) : HoldsDcct ext.bytes body ↔ payload = body.bytes .transmission := by
      rw [hbytes]
      exact between_iff hheader hcrc
    rw [hbytes] at hholds ⊢
    refine ⟨ok, _, hcodec, between_frame hheader hcrc hpayload, by simp only [hok, hholds], fun body hbody => ?_⟩
    have htake : (header ++ (payload' ++ crc)).take ((header ++ (payload ++ crc)).length - 4) = header ++ payload' := by
      rw [← List.append_assoc header payload']
      refine List.take_left' ?_
      simp only [List.length_append, hcrc, hpayload]
      omega
    rw [htake, hdecoded body ((hholds body).mp hbody)]
    exact iterates_dcct ⟨header, [], by rw [List.append_nil], hheader⟩
  · -- there is no room for the header of the table, and the codec refuses the section
    have hcodec : atscDcctSectionCodec ext.bytes = some (none, ext.bytes) := by
      rw [atscDcctSectionCodec, bind_look ext.sectionExtLength_eq]
      exact bind_refuseIf_of (by rw [sizeofDcctSection]; omega) _
    have hnone (body : DcctBody) : ¬HoldsDcct ext.bytes body := by
      rintro ⟨header, crc, hheader, hcrc, heq⟩
      rw [heq, List.length_append, List.length_append] at hlen
      omega
    exact ⟨none, _, hcodec, ⟨rfl, rfl, rfl⟩, iff_of_false Bool.false_ne_true (not_exists.mpr hnone),
      fun body hbody => absurd hbody (hnone body)⟩

end LinuxDvb.Ucsi
