import LinuxDvb.LibUcsi.LengthLoop

/-!
# Directed channel change tables

`atsc_dcct_section_codec` goes through the tests of a section, their terms, and the descriptor loops of the terms, the
tests and the section.
-/

namespace LinuxDvb.Ucsi

open InPlace

/-- `sizeof(struct atsc_dcct_section)` -/
def sizeofDcctSection : Nat := 10

/-- `sizeof(struct atsc_dcct_test)` -/
def sizeofDcctTest : Nat := 15

/-- `sizeof(struct atsc_dcct_term)` -/
def sizeofDcctTerm : Nat := 11

/-- `sizeof(struct atsc_dcct_test_part2)`, and of `struct atsc_dcct_section_part2` -/
def sizeofDcctPart2 : Nat := 2

/-- The modulus of `descriptors_length`, which has 10 bits. -/
def dcctLengthModulus : Nat := 1024

section Codec

variable (len : Nat)

def dcctTerm (term : Nat) : InPlace Nat := do
  let pos ← overlay len sizeofDcctTerm (fun term => do
    change (bswap64 · (term + 1))
    change (bswap16 · (term + 9))) term
  let size ← look (lengthBits dcctLengthModulus · (term + 9))
  checkDescriptors len pos size

def dcctPart2 (part2 : Nat) : InPlace Nat := do
  let pos ← overlay len sizeofDcctPart2 (fun part2 => change (bswap16 · part2)) part2
  let size ← look (lengthBits dcctLengthModulus · part2)
  checkDescriptors len pos size

/-- A pass of the loop over the tests; the passes over the terms leave their count as it is. -/
def dcctTest (test : Nat) : InPlace Nat := do
  let pos ← overlay len sizeofDcctTest (fun test => do
    change (bswap24 · test)
    change (bswap24 · (test + 3))
    change (bswap32 · (test + 6))
    change (bswap32 · (test + 10))) test
  let termCount ← look (·[test + 14]?)
  let pos ← times termCount.toNat (dcctTerm len) pos
  dcctPart2 len pos

/-- `atsc_dcct_section_codec(psip)` -/
def atscDcctSectionCodec : InPlace Unit := do
  let len ← look sectionExtLength
  refuseIf (len < sizeofDcctSection)
  let testCount ← look (·[9]?)
  let pos ← times testCount.toNat (dcctTest len) sizeofDcctSection
  let pos ← dcctPart2 len pos
  refuseIf (pos ≠ len)

end Codec

section Iterators

variable (buf : List UInt8)

def dccTestCount : Option UInt8 := buf[9]?

def dccTermCount (test : Nat) : Option UInt8 := buf[test + 14]?

def atscDcctTestTermsFirst (test : Nat) : Option (Option Nat) := do
  let termCount ← dccTermCount buf test
  return if termCount = 0 then none else some (test + sizeofDcctTest)

def atscDcctTestTermsNext (test pos idx : Nat) : Option (Option Nat) := do
  let termCount ← dccTermCount buf test
  if idx ≥ termCount.toNat then return none
  let size ← lengthBits dcctLengthModulus buf (pos + 9)
  return some (pos + (sizeofDcctTerm + size))

def atscDcctTermDescriptorsFirst (term : Nat) : Option (Option Nat) :=
  descriptorsFirst dcctLengthModulus buf (term + 9) (term + sizeofDcctTerm)

def atscDcctTermDescriptorsNext (term pos : Nat) : Option (Option Nat) :=
  descriptorsNext dcctLengthModulus buf (term + 9) (term + sizeofDcctTerm) pos

/-- The second part of a test. A count is a byte, so that 256 passes over the terms are enough. -/
def atscDcctTestPart2 (test : Nat) : Option Nat := do
  let terms ← forEachCounted (atscDcctTestTermsNext buf test) 256 0 (← atscDcctTestTermsFirst buf test)
  terms.foldlM (fun pos term => do
    let size ← lengthBits dcctLengthModulus buf (term + 9)
    return pos + sizeofDcctTerm + size) (test + sizeofDcctTest)

def atscDcctPart2DescriptorsFirst (part2 : Nat) : Option (Option Nat) :=
  descriptorsFirst dcctLengthModulus buf part2 (part2 + sizeofDcctPart2)

def atscDcctPart2DescriptorsNext (part2 pos : Nat) : Option (Option Nat) :=
  descriptorsNext dcctLengthModulus buf part2 (part2 + sizeofDcctPart2) pos

def atscDcctSectionTestsFirst : Option (Option Nat) := do
  let testCount ← dccTestCount buf
  return if testCount = 0 then none else some sizeofDcctSection

def atscDcctSectionTestsNext (pos idx : Nat) : Option (Option Nat) := do
  let testCount ← dccTestCount buf
  if idx ≥ testCount.toNat then return none
  let part2 ← atscDcctTestPart2 buf pos
  let size ← lengthBits dcctLengthModulus buf part2
  return some (part2 + (sizeofDcctPart2 + size))

def atscDcctSectionPart2 : Option Nat := do
  let tests ← forEachCounted (atscDcctSectionTestsNext buf) 256 0 (← atscDcctSectionTestsFirst buf)
  tests.foldlM (fun pos test => do
    let part2 ← atscDcctTestPart2 buf test
    let size ← lengthBits dcctLengthModulus buf part2
    return pos + (part2 - test) + sizeofDcctPart2 + size) sizeofDcctSection

end Iterators

structure DcctTerm where
  dccSelectionType : UInt8
  dccSelectionId : Field 8
  info : LengthLoop dcctLengthModulus

def DcctTerm.bytes (order : ByteOrder) (t : DcctTerm) : List UInt8 :=
  t.dccSelectionType :: (order.field t.dccSelectionId.val ++ t.info.bytes order)

/-- A test: the channels it leads from and to, its times, its terms, and its descriptors. -/
structure DcctTest where
  dccFromChannel : Field 3
  dccToChannel : Field 3
  startTime : Field 4
  endTime : Field 4
  terms : List DcctTerm
  fits : terms.length < 256
  info : LengthLoop dcctLengthModulus

def DcctTest.header (order : ByteOrder) (t : DcctTest) : List UInt8 :=
  order.field t.dccFromChannel.val ++ (order.field t.dccToChannel.val ++ (order.field t.startTime.val ++
    (order.field t.endTime.val ++ [UInt8.ofNat t.terms.length])))

def DcctTest.bytes (order : ByteOrder) (t : DcctTest) : List UInt8 :=
  t.header order ++ (t.terms.flatMap (DcctTerm.bytes order) ++ t.info.bytes order)

/-- What a directed channel change table holds between the extended header and the CRC. -/
structure DcctBody where
  protocolVersion : UInt8
  tests : List DcctTest
  fits : tests.length < 256
  info : LengthLoop dcctLengthModulus

def DcctBody.bytes (order : ByteOrder) (body : DcctBody) : List UInt8 :=
  body.protocolVersion :: UInt8.ofNat body.tests.length ::
    (body.tests.flatMap (DcctTest.bytes order) ++ body.info.bytes order)

section Parsing

theorem DcctTest.length_header (order : ByteOrder) (t : DcctTest) : (t.header order).length = sizeofDcctTest := by
  simp only [DcctTest.header,length_append,length_fieldBytes]
  rfl

theorem DcctTerm.length_bytes (order : ByteOrder) (t : DcctTerm) :
    (t.bytes order).length = sizeofDcctTerm + (descriptorLoop t.info.descriptors).length := by
  rw [DcctTerm.bytes,length_cons,length_append,length_fieldBytes,t.info.length_bytes,sizeofDcctTerm]
  omega

def dcctTermFormat : Format DcctTerm where
  bytes := DcctTerm.bytes
  length_host t := by rw [t.length_bytes,t.length_bytes]

variable {before : List UInt8 → Prop} {len : Nat}

theorem parses_dcctTerm : Parses dcctTermFormat before len (dcctTerm len) := by
  let f : Format ((UInt8 × Field 8) × UInt16) :=
    ⟨fun order a => (a.1.1 :: order.field a.1.2.val) ++ order.word a.2.toNat,fun a => by simp⟩
  have hterm : Parses (f.andThen fun a => descriptorsFormat (a.2.toNat % dcctLengthModulus)) before len
      (dcctTerm len) := by
    refine parses_lengthLoop (g := fun order a => a.1 :: order.field a.2.val) (fun _ _ => rfl) ?_ ?_ ?_
    · intro order a
      rw [length_cons,length_fieldBytes]
    · intro bytes hlength
      cases bytes with
      | nil => cases hlength
      | cons b bytes => exact ⟨⟨b,bytes,Nat.succ.inj hlength⟩,rfl⟩
    · intro left a right
      obtain ⟨⟨type,id⟩,w⟩ := a
      have hone : (left ++ [type]).length = left.length + 1 := length_append
      have hid := swapBytes_field hone id (be16 w.toNat ++ right)
      have hnine : (left ++ (type :: id.val.reverse)).length = left.length + 9 := by
        rw [length_append,length_cons,length_reverse,id.property]
      have hword := bswap16_be16 (left ++ (type :: id.val.reverse)) w.toNat right
      simp only [hnine,f,ByteOrder.field,ByteOrder.word,append_assoc,cons_append,nil_append]
        at hid hword ⊢
      exact (bind_change hid _).trans (change_of_some hword)
  refine hterm.of_bytes (fun t => ?_) fun a => ?_
  · refine ⟨⟨⟨⟨t.dccSelectionType,t.dccSelectionId⟩,t.info.word⟩,t.info.descriptors,t.info.length_eq⟩,fun order => ?_⟩
    exact congrArg (t.dccSelectionType :: ·) (append_assoc _ _ _).symm
  · obtain ⟨⟨⟨type,id⟩,w⟩,ds,hds⟩ := a
    refine ⟨⟨type,id,⟨w,ds,hds⟩⟩,fun order => ?_⟩
    exact congrArg (type :: ·) (append_assoc _ _ _)

structure DcctTestHeader where
  dccFromChannel : Field 3
  dccToChannel : Field 3
  startTime : Field 4
  endTime : Field 4
  termCount : UInt8

def dcctTestHeaderFormat : Format DcctTestHeader where
  bytes order h := order.field h.dccFromChannel.val ++ (order.field h.dccToChannel.val ++
    (order.field h.startTime.val ++ (order.field h.endTime.val ++ [h.termCount])))
  length_host h := by simp only [List.length_append,ByteOrder.length_field]

theorem parses_dcctTestHeader : Parses dcctTestHeaderFormat before len (overlay len sizeofDcctTest fun test => do
      change (bswap24 · test)
      change (bswap24 · (test + 3))
      change (bswap32 · (test + 6))
      change (bswap32 · (test + 10))) := by
  refine Parses.fixed (fun h => ?_) (fun bytes hlength => ?_) fun left h right => ?_
  · simp only [dcctTestHeaderFormat,length_append,length_fieldBytes]
    rfl
  · obtain ⟨fromChannel,bytes,rfl,htwelve⟩ := exists_field 3 12 hlength
    obtain ⟨toChannel,bytes,rfl,hnine⟩ := exists_field 3 9 htwelve
    obtain ⟨startTime,bytes,rfl,hfive⟩ := exists_field 4 5 hnine
    obtain ⟨endTime,bytes,rfl,hone⟩ := exists_field 4 1 hfive
    obtain ⟨count,rfl⟩ := List.length_eq_one_iff.mp hone
    exact ⟨⟨fromChannel,toChannel,startTime,endTime,count⟩,rfl⟩
  · obtain ⟨fromChannel,toChannel,startTime,endTime,count⟩ := h
    have hthree : (left ++ fromChannel.val.reverse).length = left.length + 3 := by
      rw [length_append,length_reverse,fromChannel.property]
    have hsix : (left ++ (fromChannel.val.reverse ++ toChannel.val.reverse)).length = left.length + 6 := by
      simp only [length_append,length_reverse,fromChannel.property,toChannel.property]
    have hten : (left ++ (fromChannel.val.reverse ++ (toChannel.val.reverse ++ startTime.val.reverse))).length =
        left.length + 10 := by
      simp only [length_append,length_reverse,fromChannel.property,toChannel.property,startTime.property]
    have hfrom := swapBytes_field (Eq.refl left.length) fromChannel
      (toChannel.val ++ (startTime.val ++ (endTime.val ++ ([count] ++ right))))
    have hto := swapBytes_field hthree toChannel (startTime.val ++ (endTime.val ++ ([count] ++ right)))
    have hstart := swapBytes_field hsix startTime (endTime.val ++ ([count] ++ right))
    have hend := swapBytes_field hten endTime ([count] ++ right)
    simp only [dcctTestHeaderFormat,ByteOrder.field,append_assoc] at hfrom hto hstart hend ⊢
    rw [bind_change hfrom,bind_change hto,bind_change hstart,change_of_some hend]

theorem parses_dcctPart2 : Parses (lengthLoopFormat dcctLengthModulus) before len (dcctPart2 len) :=
  parses_wordLoop dcctLengthModulus

def dcctTestFormat : Format DcctTest where
  bytes := DcctTest.bytes
  length_host t := by
    have hterms : ∀ terms : List DcctTerm, (terms.flatMap (DcctTerm.bytes .host)).length =
        (terms.flatMap (DcctTerm.bytes .transmission)).length := by
      intro terms
      induction terms with
      | nil => rfl
      | cons term terms ih =>
        rw [List.flatMap_cons,List.flatMap_cons,List.length_append,List.length_append,ih,term.length_bytes,
          term.length_bytes]
    simp only [DcctTest.bytes,List.length_append,t.length_header,t.info.length_bytes,hterms]

theorem parses_dcctTest : Parses dcctTestFormat before len (dcctTest len) := by
  have htest : Parses (dcctTestHeaderFormat.andThen fun h => (dcctTermFormat.times h.termCount.toNat).andThen
      fun _ => lengthLoopFormat dcctLengthModulus) before len (dcctTest len) := by
    refine parses_dcctTestHeader.bind fun h start => Parses.look (c := h.termCount) (fun left right hleft => ?_) ?_
    · obtain ⟨l,-,rfl,rfl⟩ := hleft
      have hfront : (l ++ (h.dccFromChannel.val.reverse ++ (h.dccToChannel.val.reverse ++
          (h.startTime.val.reverse ++ h.endTime.val.reverse)))).length = l.length + 14 := by
        simp only [length_append,length_reverse,h.dccFromChannel.property,h.dccToChannel.property,
          h.startTime.property,h.endTime.property]
      have hread := getElem?_behind (l ++ (h.dccFromChannel.val.reverse ++ (h.dccToChannel.val.reverse ++
        (h.startTime.val.reverse ++ h.endTime.val.reverse)))) (h.termCount :: right) 0
      rw [hfront] at hread
      simp only [dcctTestHeaderFormat,ByteOrder.field,append_assoc] at hread ⊢
      exact hread
    · exact (parses_dcctTerm.times h.termCount.toNat).bind fun _ _ => parses_dcctPart2
  refine htest.of_bytes (fun t => ?_) fun a => ?_
  · have hcount : t.terms.length = (UInt8.ofNat t.terms.length).toNat := (UInt8.toNat_ofNat_of_lt t.fits).symm
    exact ⟨⟨⟨t.dccFromChannel,t.dccToChannel,t.startTime,t.endTime,UInt8.ofNat t.terms.length⟩,
      ⟨t.terms,hcount⟩,t.info⟩,fun _ => rfl⟩
  · obtain ⟨⟨fromChannel,toChannel,startTime,endTime,termCount⟩,⟨terms,hterms⟩,info⟩ := a
    have hcount : UInt8.ofNat terms.length = termCount := hterms ▸ UInt8.ofNat_toNat
    refine ⟨⟨fromChannel,toChannel,startTime,endTime,terms,hterms ▸ termCount.toNat_lt,info⟩,fun order => ?_⟩
    simp only [dcctTestFormat,DcctTest.bytes,DcctTest.header,hcount]
    rfl

def dcctLoopsFormat (count : UInt8) :
    Format ((_ : { tests : List DcctTest // tests.length = count.toNat }) × LengthLoop dcctLengthModulus) :=
  (dcctTestFormat.times count.toNat).andThen fun _ => lengthLoopFormat dcctLengthModulus

theorem DcctBody.exists_loops (body : DcctBody) {version count : UInt8} {rest : List UInt8}
    (h : version :: count :: rest = body.bytes .transmission) :
    ∃ a, ∀ order, body.bytes order = version :: count :: (dcctLoopsFormat count).bytes order a := by
  injection h with hversion h
  injection h with hcount _
  subst hversion hcount
  exact ⟨⟨⟨body.tests,(UInt8.toNat_ofNat_of_lt body.fits).symm⟩,body.info⟩,fun _ => rfl⟩

theorem DcctBody.of_loops (version : UInt8) {count : UInt8} (a) :
    ∃ body : DcctBody, ∀ order, body.bytes order = version :: count :: (dcctLoopsFormat count).bytes order a := by
  obtain ⟨⟨tests,htests⟩,info⟩ := a
  have hcount : UInt8.ofNat tests.length = count := htests ▸ UInt8.ofNat_toNat
  refine ⟨⟨version,tests,htests ▸ count.toNat_lt,info⟩,fun order => ?_⟩
  rw [DcctBody.bytes,hcount]
  rfl

theorem atscDcctSectionCodec_spec {header payload crc : List UInt8} (hheader : header.length = 8)
    (hlen : sectionExtLength (header ++ (payload ++ crc)) = some (8 + payload.length)) :
    ∃ ok payload', atscDcctSectionCodec (header ++ (payload ++ crc)) = some (ok, header ++ (payload' ++ crc)) ∧
      payload'.length = payload.length ∧ (ok.isSome ↔ ∃ body : DcctBody, payload = body.bytes .transmission) ∧
      ∀ body : DcctBody, payload = body.bytes .transmission → payload' = body.bytes .host := by
  rw [atscDcctSectionCodec,bind_look hlen]
  match payload with
  | [] | [_] =>
    refine ⟨none,_,bind_refuseIf_of (by simp [sizeofDcctSection]) _,rfl,?_,?_⟩
    · exact iff_of_false Bool.false_ne_true (by rintro ⟨body,⟨⟩⟩)
    · rintro body ⟨⟩
  | version :: count :: rest =>
    rw [length_cons,length_cons] at hlen ⊢
    have hparses : Parses (dcctLoopsFormat count) (fun _ => True) (8 + (rest.length + 1 + 1)) fun pos =>
        times count.toNat (dcctTest (8 + (rest.length + 1 + 1))) pos >>= dcctPart2 (8 + (rest.length + 1 + 1)) :=
      (parses_dcctTest.times count.toNat).bind fun _ _ => parses_dcctPart2
    have hten : (header ++ [version, count]).length = sizeofDcctSection := by
      rw [length_append,hheader]
      rfl
    have hend : (header ++ [version, count]).length + rest.length = 8 + (rest.length + 1 + 1) := by
      rw [hten,sizeofDcctSection]
      omega
    obtain ⟨ok,rest',hrun,hlength,hok,hdecoded⟩ := hparses.whole rest crc trivial hend
    simp only [hten,bind_assoc,append_assoc,cons_append,nil_append] at hrun
    have hcount : (header ++ (version :: count :: (rest ++ crc)))[9]? = some count := by
      have hread := getElem?_behind header (version :: count :: (rest ++ crc)) 1
      rwa [hheader] at hread
    refine ⟨ok,version :: count :: rest',?_,?_,?_,?_⟩
    · rw [bind_refuseIf_of_not (by rw [sizeofDcctSection]; omega),cons_append,cons_append,bind_look hcount]
      exact hrun
    · rw [length_cons,length_cons,hlength]
    · rw [hok]
      constructor
      · rintro ⟨a,rfl⟩
        obtain ⟨body,hbody⟩ := DcctBody.of_loops version a
        exact ⟨body,(hbody .transmission).symm⟩
      · rintro ⟨body,hbytes⟩
        obtain ⟨a,ha⟩ := body.exists_loops hbytes
        rw [ha] at hbytes
        exact ⟨a,(List.cons.inj (List.cons.inj hbytes).2).2⟩
    · intro body hbytes
      obtain ⟨a,ha⟩ := body.exists_loops hbytes
      rw [ha] at hbytes ⊢
      rw [hdecoded a (List.cons.inj (List.cons.inj hbytes).2).2]

end Parsing

end LinuxDvb.Ucsi
