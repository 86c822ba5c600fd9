import LinuxDvb.LibUcsi.PmtSection

/-!
# Iterators over a program map section

The codec and the iterators agree: on what the codec accepts, the iterators visit exactly the descriptors
and the streams that the section was checked for.
-/

namespace LinuxDvb.Ucsi

/-- A buffer that holds a section, whose extended header is decoded. -/
structure ExtSection where
  bytes : List UInt8
  header : 8 ≤ bytes.length
  length : sectionLengthField bytes = some (bytes.length - 3)

def HoldsPmt (bytes : List UInt8) (body : PmtBody) : Prop :=
  ∃ header crc, header.length = 8 ∧ crc.length = 4 ∧ bytes = header ++ (body.bytes be16 ++ crc)

def PmtBody.streamsStart (body : PmtBody) : Nat := 12 + (descriptorLoop body.info.descriptors).length

/-- The three iterators visit the descriptors of the program, the streams, and the descriptors of each
stream. -/
structure PmtIterates (buf : List UInt8) (body : PmtBody) : Prop where
  descriptors : Enumerates buf (mpegPmtSectionDescriptorsFirst buf) (mpegPmtSectionDescriptorsNext buf) 12
    (body.info.descriptors.map Descriptor.bytes)
  streams : Enumerates buf (mpegPmtSectionStreamsFirst buf) (mpegPmtSectionStreamsNext buf) body.streamsStart
    (body.streams.map (PmtStream.bytes le16))
  streamDescriptors : ∀ pos stream,
    (pos, stream) ∈ (starts body.streamsStart (body.streams.map (PmtStream.bytes le16))).zip body.streams →
      Enumerates buf (mpegPmtStreamDescriptorsFirst buf pos) (mpegPmtStreamDescriptorsNext buf pos) (pos + 5)
        (stream.info.descriptors.map Descriptor.bytes)

section Decoded

variable {buf : List UInt8} {body : PmtBody}

theorem streamsBytes_length_eq_zero (word : Nat → List UInt8) {streams : List PmtStream} :
    (streamsBytes word streams).length = 0 ↔ streams = [] := by
  cases streams with
  | nil => exact iff_of_true rfl rfl
  | cons s streams =>
    rw [streamsBytes,map_cons,flatten_cons,length_append,PmtStream.bytes,length_cons]
    exact iff_of_false (by omega) (cons_ne_nil _ _)

theorem InfoLoop.length_bytes (l : InfoLoop) :
    (l.bytes le16).length = 2 + (descriptorLoop l.descriptors).length := length_append

theorem PmtStream.length_bytes (s : PmtStream) :
    (s.bytes le16).length = 5 + (descriptorLoop s.info.descriptors).length := by
  rw [PmtStream.bytes,length_cons,length_append,length_le16,s.info.length_bytes]
  omega

theorem PmtBody.length_bytes (body : PmtBody) :
    (body.bytes le16).length = 4 + (descriptorLoop body.info.descriptors).length +
      (streamsBytes le16 body.streams).length := by
  rw [PmtBody.bytes,length_append,length_append,length_le16,body.info.length_bytes]
  omega

theorem iterates_descriptors (h : StandsAt buf 8 (body.bytes le16)) :
    Enumerates buf (mpegPmtSectionDescriptorsFirst buf) (mpegPmtSectionDescriptorsNext buf) 12
      (body.info.descriptors.map Descriptor.bytes) := by
  have hinfo : StandsAt buf 10 (body.info.bytes le16) := h.right.left
  obtain ⟨hfield,hloop⟩ := InfoLoop.of_standsAt hinfo
  have hnext : mpegPmtSectionDescriptorsNext buf =
      nextDescriptor buf 12 (descriptorLoop body.info.descriptors).length := by
    funext pos
    rw [mpegPmtSectionDescriptorsNext,hfield]
    rfl
  rw [hnext]
  refine enumerates_descriptors hloop ?_ rfl
  rw [mpegPmtSectionDescriptorsFirst,hfield]
  change some (if (descriptorLoop body.info.descriptors).length = 0 then none else some 12) = _
  simp only [descriptorLoop_length_eq_zero]

theorem standsAt_info {pos : Nat} {stream : PmtStream} (h : StandsAt buf pos (stream.bytes le16)) :
    StandsAt buf (pos + 3) (stream.info.bytes le16) := by
  have hheader : StandsAt buf pos ((stream.streamType :: le16 stream.pid.toNat) ++ stream.info.bytes le16) := h
  exact hheader.right

theorem iterates_streamDescriptors {pos : Nat} {stream : PmtStream} (h : StandsAt buf pos (stream.bytes le16)) :
    Enumerates buf (mpegPmtStreamDescriptorsFirst buf pos) (mpegPmtStreamDescriptorsNext buf pos) (pos + 5)
      (stream.info.descriptors.map Descriptor.bytes) := by
  obtain ⟨hfield,hloop⟩ := InfoLoop.of_standsAt (standsAt_info h)
  have hnext : mpegPmtStreamDescriptorsNext buf pos =
      nextDescriptor buf (pos + 5) (descriptorLoop stream.info.descriptors).length := by
    funext pos'
    rw [mpegPmtStreamDescriptorsNext,hfield]
    rfl
  rw [hnext]
  refine enumerates_descriptors hloop ?_ rfl
  rw [mpegPmtStreamDescriptorsFirst,hfield]
  change some (if (descriptorLoop stream.info.descriptors).length = 0 then none else some (pos + 5)) = _
  simp only [descriptorLoop_length_eq_zero]

theorem standsAt_streams (h : StandsAt buf 8 (body.bytes le16)) :
    StandsAt buf body.streamsStart (streamsBytes le16 body.streams) := by
  have hstreams := h.right.right
  rw [length_le16,body.info.length_bytes] at hstreams
  have hpos : 8 + 2 + (2 + (descriptorLoop body.info.descriptors).length) = body.streamsStart := by
    unfold PmtBody.streamsStart
    omega
  rwa [hpos] at hstreams

theorem iterates_streams (h : StandsAt buf 8 (body.bytes le16))
    (hlen : sectionExtLength buf = some (body.streamsStart + (streamsBytes le16 body.streams).length)) :
    Enumerates buf (mpegPmtSectionStreamsFirst buf) (mpegPmtSectionStreamsNext buf) body.streamsStart
      (body.streams.map (PmtStream.bytes le16)) := by
  have hstreams := standsAt_streams h
  have hinfo : StandsAt buf 10 (body.info.bytes le16) := h.right.left
  obtain ⟨hfield,-⟩ := InfoLoop.of_standsAt hinfo
  have hfirst : mpegPmtSectionStreamsFirst buf =
      some (if body.streams.map (PmtStream.bytes le16) = [] then none else some body.streamsStart) := by
    rw [mpegPmtSectionStreamsFirst,hfield,hlen]
    change some (if body.streamsStart ≥ body.streamsStart + (streamsBytes le16 body.streams).length then none
      else some body.streamsStart) = _
    have hempty : body.streamsStart ≥ body.streamsStart + (streamsBytes le16 body.streams).length ↔
        body.streams = [] := by
      rw [← streamsBytes_length_eq_zero le16]
      omega
    simp only [hempty,map_eq_nil_iff]
  refine ⟨hstreams,_,hfirst,visits_starts ?_ rfl ?_⟩
  · intro item hitem
    obtain ⟨s,-,rfl⟩ := mem_map.mp hitem
    exact s.bytes_ne_nil le16
  · intro pos item hitem
    have hstands := standsAt_of_mem hstreams hitem
    obtain ⟨s,-,rfl⟩ := mem_map.mp (List.of_mem_zip hitem).2
    have hnext : pos + 5 + (descriptorLoop s.info.descriptors).length = pos + (s.bytes le16).length := by
      rw [s.length_bytes]
      omega
    rw [mpegPmtSectionStreamsNext,hlen,(InfoLoop.of_standsAt (standsAt_info hstands)).1]
    change some (if pos + 5 + (descriptorLoop s.info.descriptors).length ≥ _ then none
      else some (pos + 5 + (descriptorLoop s.info.descriptors).length)) = _
    rw [hnext]
    rfl

theorem iterates_of_standsAt (h : StandsAt buf 8 (body.bytes le16))
    (hlen : sectionExtLength buf = some (8 + (body.bytes le16).length)) : PmtIterates buf body := by
  refine ⟨iterates_descriptors h,iterates_streams h ?_,?_⟩
  · rw [hlen,body.length_bytes,PmtBody.streamsStart]
    congr 1
    omega
  · intro pos stream hstream
    have hitem : (pos, stream.bytes le16) ∈
        (starts body.streamsStart (body.streams.map (PmtStream.bytes le16))).zip
          (body.streams.map (PmtStream.bytes le16)) := by
      rw [List.zip_map_right]
      exact mem_map.mpr ⟨_,hstream,rfl⟩
    exact iterates_streamDescriptors (standsAt_of_mem (standsAt_streams h) hitem)

end Decoded

theorem ExtSection.exists_split (ext : ExtSection) (hlen : 12 ≤ ext.bytes.length) :
    ∃ header payload crc, header.length = 8 ∧ crc.length = 4 ∧ ext.bytes = header ++ (payload ++ crc) ∧
      sectionLengthField (header ++ (payload ++ crc)) = some (payload.length + 9) := by
  have hsplit : ext.bytes = ext.bytes.take 8 ++
      ((ext.bytes.drop 8).take (ext.bytes.length - 12) ++ (ext.bytes.drop 8).drop (ext.bytes.length - 12)) := by
    rw [take_append_drop,take_append_drop]
  refine ⟨_,_,_,?_,?_,hsplit,?_⟩
  · rw [length_take]
    omega
  · rw [length_drop,length_drop]
    omega
  · rw [← hsplit,ext.length,length_take,length_drop]
    congr 1
    omega

theorem ExtSection.sectionExtLength_eq (ext : ExtSection) :
    sectionExtLength ext.bytes = some (ext.bytes.length - 4) := by
  have hheader := ext.header
  have hlength : 1 ≤ ext.bytes.length - 3 := by omega
  exact Ucsi.sectionExtLength_eq ext.length hlength

theorem between_iff {header payload crc bytes : List UInt8} (hheader : header.length = 8) (hcrc : crc.length = 4) :
    (∃ header' crc', header'.length = 8 ∧ crc'.length = 4 ∧
      header ++ (payload ++ crc) = header' ++ (bytes ++ crc')) ↔ payload = bytes := by
  constructor
  · rintro ⟨header',crc',hheader',hcrc',heq⟩
    obtain ⟨-,hrest⟩ := append_inj heq (hheader.trans hheader'.symm)
    exact (List.append_inj' hrest (hcrc.trans hcrc'.symm)).1
  · rintro rfl
    exact ⟨header,crc,hheader,hcrc,rfl⟩

theorem between_frame {header payload payload' crc : List UInt8} (hheader : header.length = 8) (hcrc : crc.length = 4)
    (hpayload : payload'.length = payload.length) :
    (header ++ (payload' ++ crc)).length = (header ++ (payload ++ crc)).length ∧
      (header ++ (payload' ++ crc)).take 8 = (header ++ (payload ++ crc)).take 8 ∧
      (header ++ (payload' ++ crc)).drop ((header ++ (payload ++ crc)).length - 4) =
        (header ++ (payload ++ crc)).drop ((header ++ (payload ++ crc)).length - 4) := by
  refine ⟨?_,?_,?_⟩
  · simp only [length_append,hpayload]
  · rw [← hheader,take_left,take_left]
  · have hstart : (header ++ (payload ++ crc)).length - 4 = (header ++ payload).length := by
      simp only [length_append,hcrc]
      omega
    have hstart' : (header ++ payload).length = (header ++ payload').length := by
      simp only [length_append,hpayload]
    rw [hstart,← append_assoc,← append_assoc,drop_left,hstart',drop_left]

theorem ExtSection.codec_short (ext : ExtSection) (h : ¬12 ≤ ext.bytes.length) :
    mpegPmtSectionCodec ext.bytes = some (false, ext.bytes) := by
  unfold mpegPmtSectionCodec
  rw [ext.sectionExtLength_eq]
  simp only [bind_eq_bind,bind_some,pure_def]
  rw [if_pos (by omega)]

theorem ExtSection.codec_inside (ext : ExtSection) : mpegPmtSectionCodec ext.bytes ≠ none := by
  by_cases hlen : 12 ≤ ext.bytes.length
  · obtain ⟨header,payload,crc,hheader,-,hbytes,hfield⟩ := ext.exists_split hlen
    obtain ⟨ok,payload',hcodec,-⟩ := mpegPmtSectionCodec_spec hheader hfield
    rw [hbytes,hcodec]
    exact some_ne_none _
  · rw [ext.codec_short hlen]
    exact some_ne_none _

/-- The codec succeeds exactly on the sections that hold a program map. It reads and writes only inside the
section, and it changes only what is between the header and the CRC. On success the iterators terminate, stay
inside the section, and visit exactly the descriptors and streams of the program map. -/
theorem pmt_codec_iterators (ext : ExtSection) : ∃ ok buf, mpegPmtSectionCodec ext.bytes = some (ok, buf) ∧
      (buf.length = ext.bytes.length ∧ buf.take 8 = ext.bytes.take 8 ∧
        buf.drop (ext.bytes.length - 4) = ext.bytes.drop (ext.bytes.length - 4)) ∧
      (ok = true ↔ ∃ body, HoldsPmt ext.bytes body) ∧
      ∀ body, HoldsPmt ext.bytes body → StandsAt buf 8 (body.bytes le16) ∧ PmtIterates buf body := by
  by_cases hlen : 12 ≤ ext.bytes.length
  · obtain ⟨header, payload, crc, hheader, hcrc, hbytes, hfield⟩ := ext.exists_split hlen
    obtain ⟨ok, payload', hcodec, hpayload, hok, hdecoded⟩ := mpegPmtSectionCodec_spec hheader hfield
    rw [hbytes]
    have hholds (body : PmtBody) : HoldsPmt (header ++ (payload ++ crc)) body ↔ payload = body.bytes be16 :=
      between_iff hheader hcrc
    refine ⟨ok, _, hcodec, between_frame hheader hcrc hpayload, ?_, ?_⟩
    · simp only [hok, hholds]
    · intro body hbody
      have hpayload' := hdecoded body ((hholds body).mp hbody)
      subst hpayload'
      have hstands : StandsAt (header ++ (body.bytes le16 ++ crc)) 8 (body.bytes le16) :=
        ⟨header, crc, rfl, hheader⟩
      have hsame : sectionLengthField (header ++ (body.bytes le16 ++ crc)) = some (payload.length + 9) := by
        rw [← hfield, sectionLengthField, lengthField, word16_before (by omega)]
        rfl
      refine ⟨hstands, iterates_of_standsAt hstands ?_⟩
      rw [Ucsi.sectionExtLength_eq hsame (Nat.le_add_left _ _), hpayload]
      congr 1
      omega
  · -- there is no room for a program map, and the codec refuses the section
    have hcodec := ext.codec_short hlen
    have hnone (body : PmtBody) : ¬HoldsPmt ext.bytes body := by
      rintro ⟨header, crc, hheader, hcrc, heq⟩
      have hfour : 4 ≤ (body.bytes be16).length := four_le_of_body rfl
      rw [heq, List.length_append, List.length_append] at hlen
      omega
    exact ⟨false, _, hcodec, ⟨rfl, rfl, rfl⟩, iff_of_false Bool.false_ne_true (not_exists.mpr hnone),
      fun body hbody => absurd hbody (hnone body)⟩

end LinuxDvb.Ucsi
