import LinuxDvb.LibUcsi.Section

/-!
# Program map sections

`mpeg_pmt_section_codec` checks the lengths in the body of a section and brings its words into the order of the host.
-/

namespace LinuxDvb.Ucsi

def pmtStreams (buf : List UInt8) (len pos : Nat) : Codec :=
  if h : pos < len then
    if pos + 5 > len then some (false, buf)
    else do
      let buf ← bswap16 buf (pos + 1)
      let buf ← bswap16 buf (pos + 3)
      let size ← lengthField buf (pos + 3)
      if pos + 5 + size > len then return (false, buf)
      let status ← verifyDescriptors buf (pos + 5) size
      if status ≠ 0 then return (false, buf)
      pmtStreams buf len (pos + 5 + size)
  else some (pos = len, buf)
  termination_by len - pos

/-- `mpeg_pmt_section_codec(ext)` -/
def mpegPmtSectionCodec (buf : List UInt8) : Codec := do
  let len ← sectionExtLength buf
  if len < 12 then return (false, buf)
  let buf ← bswap16 buf 8
  let buf ← bswap16 buf 10
  let size ← lengthField buf 10
  if 12 + size > len then return (false, buf)
  let status ← verifyDescriptors buf 12 size
  if status ≠ 0 then return (false, buf)
  pmtStreams buf len (12 + size)

section Iterators

variable (buf : List UInt8)

def mpegPmtSectionDescriptorsFirst : Option (Option Nat) := do
  let size ← lengthField buf 10
  return if size = 0 then none else some 12

def mpegPmtSectionDescriptorsNext (pos : Nat) : Option (Option Nat) := do
  let size ← lengthField buf 10
  nextDescriptor buf 12 size pos

def mpegPmtSectionStreamsFirst : Option (Option Nat) := do
  let size ← lengthField buf 10
  let len ← sectionExtLength buf
  return if 12 + size ≥ len then none else some (12 + size)

def mpegPmtSectionStreamsNext (pos : Nat) : Option (Option Nat) := do
  let len ← sectionExtLength buf
  let size ← lengthField buf (pos + 3)
  let next := pos + 5 + size
  return if next ≥ len then none else some next

def mpegPmtStreamDescriptorsFirst (stream : Nat) : Option (Option Nat) := do
  let size ← lengthField buf (stream + 3)
  return if size = 0 then none else some (stream + 5)

def mpegPmtStreamDescriptorsNext (stream pos : Nat) : Option (Option Nat) := do
  let size ← lengthField buf (stream + 3)
  nextDescriptor buf (stream + 5) size pos

end Iterators

/-- A descriptor loop behind its length, which has four reserved bits in front. -/
structure InfoLoop where
  reserved : Fin 16
  descriptors : List Descriptor
  fits : (descriptorLoop descriptors).length < 4096

def InfoLoop.word (l : InfoLoop) : Nat := l.reserved * 4096 + (descriptorLoop l.descriptors).length

def InfoLoop.bytes (word : Nat → List UInt8) (l : InfoLoop) : List UInt8 :=
  word l.word ++ descriptorLoop l.descriptors

structure PmtStream where
  streamType : UInt8
  pid : UInt16
  info : InfoLoop

def PmtStream.bytes (word : Nat → List UInt8) (s : PmtStream) : List UInt8 :=
  s.streamType :: (word s.pid.toNat ++ s.info.bytes word)

def streamsBytes (word : Nat → List UInt8) (streams : List PmtStream) : List UInt8 :=
  (streams.map (PmtStream.bytes word)).flatten

/-- What a program map section holds between the header and the CRC. -/
structure PmtBody where
  pcrPid : UInt16
  info : InfoLoop
  streams : List PmtStream

def PmtBody.bytes (word : Nat → List UInt8) (body : PmtBody) : List UInt8 :=
  word body.pcrPid.toNat ++ (body.info.bytes word ++ streamsBytes word body.streams)

section InfoLoop

variable {l : InfoLoop}

theorem InfoLoop.word_lt (l : InfoLoop) : l.word < 65536 := by
  have hreserved := l.reserved.isLt
  have hfits := l.fits
  unfold InfoLoop.word
  omega

theorem InfoLoop.word_mod (l : InfoLoop) : l.word % 4096 = (descriptorLoop l.descriptors).length := by
  have hfits := l.fits
  unfold InfoLoop.word
  omega

theorem InfoLoop.of_append {w : Nat} (hw : w < 65536) {rest ys : List UInt8} (h : be16 w ++ rest = l.bytes be16 ++ ys) :
    w % 4096 ≤ rest.length ∧ rest.take (w % 4096) = descriptorLoop l.descriptors ∧
      rest.drop (w % 4096) = ys ∧ l.bytes le16 = le16 w ++ rest.take (w % 4096) := by
  unfold InfoLoop.bytes at h ⊢
  rw [append_assoc] at h
  obtain ⟨hword,hrest⟩ := append_inj h rfl
  have hw' := be16_inj hw l.word_lt hword
  subst hw'
  rw [hrest,l.word_mod,take_left,drop_left,length_append]
  exact ⟨Nat.le_add_right _ _,rfl,rfl,rfl⟩

theorem InfoLoop.exists_of_take {w : Nat} (hw : w < 65536) {rest : List UInt8}
    (hsize : w % 4096 ≤ rest.length) {ds : List Descriptor} (h : rest.take (w % 4096) = descriptorLoop ds) :
    ∃ l : InfoLoop, be16 w ++ rest = l.bytes be16 ++ rest.drop (w % 4096) := by
  have hlength : (descriptorLoop ds).length = w % 4096 := by
    rw [← h,length_take,Nat.min_eq_left hsize]
  refine ⟨⟨⟨w / 4096,by omega⟩,ds,by omega⟩,?_⟩
  have hword : w / 4096 * 4096 + (descriptorLoop ds).length = w := by omega
  unfold InfoLoop.bytes InfoLoop.word
  dsimp only
  rw [hword,← h,append_assoc,take_append_drop]

theorem InfoLoop.of_standsAt {buf : List UInt8} {pos : Nat} (h : StandsAt buf pos (l.bytes le16)) :
    lengthField buf pos = some (descriptorLoop l.descriptors).length ∧
      StandsAt buf (pos + 2) (descriptorLoop l.descriptors) := by
  have hlength : 0 + 1 < (l.bytes le16).length := by
    rw [InfoLoop.bytes,length_append,length_le16]
    omega
  refine ⟨?_,h.right⟩
  unfold lengthField
  rw [← Nat.add_zero pos,h.word16 hlength]
  unfold InfoLoop.bytes
  rw [word16_le16 l.word_lt,map_some,l.word_mod]

end InfoLoop

section Codec

theorem PmtStream.bytes_ne_nil (word : Nat → List UInt8) (s : PmtStream) : s.bytes word ≠ [] :=
  cons_ne_nil _ _

theorem streams_eq_nil {streams : List PmtStream} (h : [] = streamsBytes be16 streams) : streams = [] := by
  cases streams with
  | nil => rfl
  | cons s streams => cases h

theorem five_le_of_streams {xs : List UInt8} {streams : List PmtStream} (h : xs = streamsBytes be16 streams)
    (hxs : xs ≠ []) : 5 ≤ xs.length := by
  cases streams with
  | nil => exact absurd h hxs
  | cons s streams =>
    rw [h]
    change 5 ≤ (_ :: (be16 _ ++ (be16 _ ++ _) ++ _)).length
    simp only [length_cons,length_append,length_be16]
    omega

theorem exists_streamHeader {xs : List UInt8} (h : 5 ≤ xs.length) : ∃ streamType pid w rest, pid < 65536 ∧ w < 65536 ∧
      xs = streamType :: (be16 pid ++ (be16 w ++ rest)) := by
  rcases xs with _ | ⟨a,_ | ⟨b,_ | ⟨c,_ | ⟨d,_ | ⟨e,rest⟩⟩⟩⟩⟩
  iterate 5 · simp at h
  obtain ⟨pid,hpid,hbc⟩ := exists_be16 b c
  obtain ⟨w,hw,hde⟩ := exists_be16 d e
  exact ⟨a,pid,w,rest,hpid,hw,by rw [← hbc,← hde]; rfl⟩

section Head

variable {streamType : UInt8} {pid w : Nat} {rest : List UInt8}

theorem streams_head (hpid : pid < 65536) (hw : w < 65536) {streams : List PmtStream}
    (h : streamType :: (be16 pid ++ (be16 w ++ rest)) = streamsBytes be16 streams) :
    w % 4096 ≤ rest.length ∧ (∃ ds, rest.take (w % 4096) = descriptorLoop ds) ∧
      ∃ streams', rest.drop (w % 4096) = streamsBytes be16 streams' ∧
        streamsBytes le16 streams = streamType :: (le16 pid ++ (le16 w ++ (rest.take (w % 4096) ++
          streamsBytes le16 streams'))) := by
  cases streams with
  | nil => cases h
  | cons s streams =>
    change _ = s.streamType :: (be16 s.pid.toNat ++ s.info.bytes be16 ++ streamsBytes be16 streams) at h
    injection h with htype hrest
    rw [append_assoc] at hrest
    obtain ⟨hword,hinfo⟩ := append_inj hrest rfl
    obtain ⟨hsize,htake,hdrop,hbytes⟩ := InfoLoop.of_append hw hinfo
    refine ⟨hsize,⟨_,htake⟩,streams,hdrop,?_⟩
    change s.streamType :: (le16 s.pid.toNat ++ s.info.bytes le16 ++ streamsBytes le16 streams) = _
    rw [hbytes,htype,be16_inj hpid s.pid.toNat_lt hword,append_assoc,append_assoc]

theorem streams_of_head (hpid : pid < 65536) (hw : w < 65536) (hsize : w % 4096 ≤ rest.length)
    {ds : List Descriptor} (hds : rest.take (w % 4096) = descriptorLoop ds) {streams : List PmtStream}
    (hrest : rest.drop (w % 4096) = streamsBytes be16 streams) :
    ∃ streams', streamType :: (be16 pid ++ (be16 w ++ rest)) = streamsBytes be16 streams' := by
  obtain ⟨info,hinfo⟩ := InfoLoop.exists_of_take hw hsize hds
  have hword : (UInt16.ofNat pid).toNat = pid := UInt16.toNat_ofNat_of_lt hpid
  refine ⟨⟨streamType,UInt16.ofNat pid,info⟩ :: streams,?_⟩
  change _ = streamType :: (be16 (UInt16.ofNat pid).toNat ++ info.bytes be16 ++ streamsBytes be16 streams)
  rw [hword,hinfo,hrest,append_assoc]

end Head

/-- What is checked of a descriptor loop behind its length: the loop ends before `len`, and its descriptors
are complete. -/
theorem check_info (pre rest right : List UInt8) (size len : Nat) (hlen : pre.length + rest.length = len) (go : Codec) :
    let buf := pre ++ (rest ++ right)
    let checked : Codec := if pre.length + size > len then some (false, buf)
      else (verifyDescriptors buf pre.length size).bind fun status =>
        if status ≠ 0 then some (false, buf) else go
    (size ≤ rest.length ∧ (∃ ds, rest.take size = descriptorLoop ds) ∧ checked = go) ∨
      (¬(size ≤ rest.length ∧ ∃ ds, rest.take size = descriptorLoop ds) ∧ checked = some (false, buf)) := by
  intro buf checked
  by_cases hsize : size ≤ rest.length
  · have hbuf : buf = pre ++ (rest.take size ++ (rest.drop size ++ right)) := by
      rw [← append_assoc (rest.take _),take_append_drop]
    have htake : (rest.take size).length = size := by
      rw [length_take,Nat.min_eq_left hsize]
    obtain ⟨status,hstatus,hverified⟩ := verifyDescriptors_spec pre (rest.take size) (rest.drop size ++ right)
    rw [htake,← hbuf] at hstatus
    have hchecked : checked = if status ≠ 0 then some (false, buf) else go := by
      change (if _ then _ else (verifyDescriptors buf pre.length size).bind _) = _
      rw [if_neg (by omega),hstatus]
      rfl
    by_cases hzero : status = 0
    · exact .inl ⟨hsize,hverified.mp hzero,by rw [hchecked,if_neg (not_not_intro hzero)]⟩
    · refine .inr ⟨fun h => hzero (hverified.mpr h.2),?_⟩
      rw [hchecked,if_pos hzero]
  · exact .inr ⟨fun h => hsize h.1,if_pos (by omega)⟩

theorem swap_streamHeader (left right rest : List UInt8) (streamType : UInt8) (pid : Nat) {w : Nat} (hw : w < 65536) :
    let header (first second : Nat → List UInt8) :=
      left ++ (streamType :: (first pid ++ (second w ++ rest)) ++ right)
    bswap16 (header be16 be16) (left.length + 1) = some (header le16 be16) ∧
      bswap16 (header le16 be16) (left.length + 3) = some (header le16 le16) ∧
      lengthField (header le16 le16) (left.length + 3) = some (w % 4096) := by
  refine ⟨?_,?_,?_⟩
  · rw [bswap16_behind]
    rfl
  · rw [bswap16_behind]
    rfl
  · have hword : word16 (streamType :: (le16 pid ++ (le16 w ++ rest)) ++ right) 3 = some w :=
      word16_le16 hw (rest ++ right)
    rw [lengthField,word16_behind,hword]
    rfl

/-- The loop over the streams stays inside the buffer, accepts exactly a sequence of streams, and then has
brought their words into the order of the host. -/
theorem pmtStreams_spec (left todo right : List UInt8) {len pos : Nat} (hpos : left.length = pos)
    (hlen : pos + todo.length = len) :
    ∃ ok todo', pmtStreams (left ++ (todo ++ right)) len pos = some (ok, left ++ (todo' ++ right)) ∧
      todo'.length = todo.length ∧ (ok = true ↔ ∃ streams, todo = streamsBytes be16 streams) ∧
      ∀ streams, todo = streamsBytes be16 streams → todo' = streamsBytes le16 streams := by
  induction hn : todo.length using Nat.strongRecOn generalizing left todo pos with
  | ind n ih =>
  by_cases hnil : todo = []
  · subst hnil
    refine ⟨true,[],?_,hn,iff_of_true rfl ⟨[],rfl⟩,?_⟩
    · rw [length_nil] at hlen
      rw [pmtStreams,dif_neg (by omega),decide_eq_true (by omega)]
    · intro streams h
      rw [streams_eq_nil h]
      rfl
  have htodo : 0 < todo.length := length_pos_iff.mpr hnil
  by_cases hshort : todo.length < 5
  · have hnone (streams : List PmtStream) : todo ≠ streamsBytes be16 streams :=
      fun h => absurd (five_le_of_streams h hnil) (by omega)
    refine ⟨false,todo,?_,hn,iff_of_false Bool.false_ne_true fun ⟨streams,h⟩ => hnone streams h,
      fun streams h => absurd h (hnone streams)⟩
    rw [pmtStreams,dif_pos (by omega),if_pos (by omega)]
  obtain ⟨streamType,pid,w,rest,hpid,hw,heq⟩ := exists_streamHeader (Nat.not_lt.mp hshort)
  subst heq
  have hlength : (streamType :: (be16 pid ++ (be16 w ++ rest))).length = rest.length + 5 := by
    simp only [length_cons,length_append,length_be16]
    omega
  obtain ⟨hfirst,hsecond,hfield⟩ := swap_streamHeader left right rest streamType pid hw
  subst hpos
  have hpass : pmtStreams (left ++ (streamType :: (be16 pid ++ (be16 w ++ rest)) ++ right)) len left.length =
      if left.length + 5 + w % 4096 > len then
        some (false, left ++ (streamType :: (le16 pid ++ (le16 w ++ rest)) ++ right))
      else (verifyDescriptors (left ++ (streamType :: (le16 pid ++ (le16 w ++ rest)) ++ right))
        (left.length + 5) (w % 4096)).bind fun status =>
          if status ≠ 0 then
            some (false, left ++ (streamType :: (le16 pid ++ (le16 w ++ rest)) ++ right))
          else pmtStreams (left ++ (streamType :: (le16 pid ++ (le16 w ++ rest)) ++ right)) len
            (left.length + 5 + w % 4096) := by
    rw [pmtStreams,dif_pos (by omega),if_neg (by omega),hfirst]
    simp only [hsecond,hfield,bind_eq_bind,bind_some,pure_def]
  have hbuf : left ++ (streamType :: (le16 pid ++ (le16 w ++ rest)) ++ right) =
      (left ++ streamType :: (le16 pid ++ le16 w)) ++ (rest ++ right) := by
    simp only [append_assoc,cons_append]
  have hleft : (left ++ streamType :: (le16 pid ++ le16 w)).length = left.length + 5 :=
    length_append
  have hcheck := check_info (left ++ streamType :: (le16 pid ++ le16 w)) rest right (w % 4096)
    len (by omega) (pmtStreams (left ++ (streamType :: (le16 pid ++ (le16 w ++ rest)) ++ right)) len
      (left.length + 5 + w % 4096))
  rw [hleft,← hbuf] at hcheck
  dsimp only at hcheck
  rw [← hpass] at hcheck
  rcases hcheck with ⟨hsize,⟨ds,hds⟩,hgo⟩ | ⟨hrefused,hstop⟩
  · have htake : (rest.take (w % 4096)).length = w % 4096 := by
      rw [length_take,Nat.min_eq_left hsize]
    -- the next pass starts behind the descriptors of the stream
    have hnext : left ++ (streamType :: (le16 pid ++ (le16 w ++ rest)) ++ right) =
        (left ++ streamType :: (le16 pid ++ (le16 w ++ rest.take (w % 4096)))) ++
          (rest.drop (w % 4096) ++ right) := by
      simp only [append_assoc,cons_append]
      rw [← append_assoc (rest.take _),take_append_drop]
    have hpos : (left ++ streamType :: (le16 pid ++ (le16 w ++ rest.take (w % 4096)))).length =
        left.length + 5 + w % 4096 := by
      simp only [length_append,length_cons,length_le16,htake]
      omega
    have hrest : left.length + 5 + w % 4096 + (rest.drop (w % 4096)).length = len := by
      rw [length_drop]
      omega
    have hless : (rest.drop (w % 4096)).length < n := by
      rw [length_drop]
      omega
    obtain ⟨ok,rest',hloop,hrest',hok,hdecoded⟩ := ih _ hless _ _ hpos hrest rfl
    refine ⟨ok,streamType :: (le16 pid ++ (le16 w ++ (rest.take (w % 4096) ++ rest'))),?_,?_,?_,?_⟩
    · rw [hgo,hnext,hloop]
      simp only [append_assoc,cons_append]
    · rw [length_drop] at hrest'
      simp only [length_append,length_cons,length_le16,htake,hrest']
      omega
    · rw [hok]
      constructor
      · rintro ⟨streams,hstreams⟩
        exact streams_of_head hpid hw hsize hds hstreams
      · rintro ⟨streams,hstreams⟩
        obtain ⟨-,-,streams',hstreams',-⟩ := streams_head hpid hw hstreams
        exact ⟨streams',hstreams'⟩
    · intro streams hstreams
      obtain ⟨-,-,streams',hstreams',hbytes⟩ := streams_head hpid hw hstreams
      rw [hbytes,hdecoded streams' hstreams']
  · have hnone (streams : List PmtStream) :
        streamType :: (be16 pid ++ (be16 w ++ rest)) ≠ streamsBytes be16 streams := by
      intro hstreams
      obtain ⟨hsize,hds,-⟩ := streams_head hpid hw hstreams
      exact hrefused ⟨hsize,hds⟩
    exact ⟨false,_,hstop,hn,iff_of_false Bool.false_ne_true fun ⟨streams,h⟩ => hnone streams h,
      fun streams h => absurd h (hnone streams)⟩

section Body

variable {pcrPid w : Nat} {rest : List UInt8}

theorem body_head (hpcr : pcrPid < 65536) (hw : w < 65536) {body : PmtBody}
    (h : be16 pcrPid ++ (be16 w ++ rest) = body.bytes be16) :
    w % 4096 ≤ rest.length ∧ (∃ ds, rest.take (w % 4096) = descriptorLoop ds) ∧
      rest.drop (w % 4096) = streamsBytes be16 body.streams ∧
        body.bytes le16 = le16 pcrPid ++ (le16 w ++ (rest.take (w % 4096) ++
          streamsBytes le16 body.streams)) := by
  unfold PmtBody.bytes at h ⊢
  obtain ⟨hword,hinfo⟩ := append_inj h rfl
  obtain ⟨hsize,htake,hdrop,hbytes⟩ := InfoLoop.of_append hw hinfo
  refine ⟨hsize,⟨_,htake⟩,hdrop,?_⟩
  rw [hbytes,be16_inj hpcr body.pcrPid.toNat_lt hword,append_assoc]

theorem body_of_head (hpcr : pcrPid < 65536) (hw : w < 65536) (hsize : w % 4096 ≤ rest.length)
    {ds : List Descriptor} (hds : rest.take (w % 4096) = descriptorLoop ds) {streams : List PmtStream}
    (hrest : rest.drop (w % 4096) = streamsBytes be16 streams) :
    ∃ body : PmtBody, be16 pcrPid ++ (be16 w ++ rest) = body.bytes be16 := by
  obtain ⟨info,hinfo⟩ := InfoLoop.exists_of_take hw hsize hds
  have hword : (UInt16.ofNat pcrPid).toNat = pcrPid := UInt16.toNat_ofNat_of_lt hpcr
  refine ⟨⟨UInt16.ofNat pcrPid,info,streams⟩,?_⟩
  unfold PmtBody.bytes
  rw [hword,hinfo,hrest]

theorem four_le_of_body {xs : List UInt8} {body : PmtBody} (h : xs = body.bytes be16) : 4 ≤ xs.length := by
  rw [h,PmtBody.bytes,InfoLoop.bytes]
  simp only [length_append,length_be16]
  omega

theorem exists_bodyHeader {xs : List UInt8} (h : 4 ≤ xs.length) :
    ∃ pcrPid w rest, pcrPid < 65536 ∧ w < 65536 ∧ xs = be16 pcrPid ++ (be16 w ++ rest) := by
  rcases xs with _ | ⟨a,_ | ⟨b,_ | ⟨c,_ | ⟨d,rest⟩⟩⟩⟩
  iterate 4 · simp at h
  obtain ⟨pcrPid,hpcr,hab⟩ := exists_be16 a b
  obtain ⟨w,hw,hcd⟩ := exists_be16 c d
  exact ⟨pcrPid,w,rest,hpcr,hw,by rw [← hab,← hcd]; rfl⟩

end Body

theorem swap_bodyHeader (header right rest : List UInt8) (pcrPid : Nat) {w : Nat} (hw : w < 65536) :
    let buf (first second : Nat → List UInt8) := header ++ (first pcrPid ++ (second w ++ rest) ++ right)
    bswap16 (buf be16 be16) (header.length + 0) = some (buf le16 be16) ∧
      bswap16 (buf le16 be16) (header.length + 2) = some (buf le16 le16) ∧
      lengthField (buf le16 le16) (header.length + 2) = some (w % 4096) := by
  refine ⟨?_,?_,?_⟩
  · rw [bswap16_behind]
    rfl
  · rw [bswap16_behind]
    rfl
  · have hword : word16 (le16 pcrPid ++ (le16 w ++ rest) ++ right) 2 = some w :=
      word16_le16 hw (rest ++ right)
    rw [lengthField,word16_behind,hword]
    rfl

/-- The codec stays inside the buffer, changes no byte of the header or the CRC, accepts exactly the sections
that hold a program map, and then has brought its words into the order of the host. -/
theorem mpegPmtSectionCodec_spec {header payload crc : List UInt8} (hheader : header.length = 8)
    (hlength : sectionLengthField (header ++ (payload ++ crc)) = some (payload.length + 9)) :
    ∃ ok payload', mpegPmtSectionCodec (header ++ (payload ++ crc)) =
        some (ok, header ++ (payload' ++ crc)) ∧
      payload'.length = payload.length ∧ (ok = true ↔ ∃ body : PmtBody, payload = body.bytes be16) ∧
      ∀ body : PmtBody, payload = body.bytes be16 → payload' = body.bytes le16 := by
  have hlen : sectionExtLength (header ++ (payload ++ crc)) = some (payload.length + 8) :=
    sectionExtLength_eq hlength (Nat.le_add_left _ _)
  by_cases hshort : payload.length < 4
  · have hnone (body : PmtBody) : payload ≠ body.bytes be16 :=
      fun h => absurd (four_le_of_body h) (by omega)
    refine ⟨false,payload,?_,rfl,iff_of_false Bool.false_ne_true fun ⟨body,h⟩ => hnone body h,
      fun body h => absurd h (hnone body)⟩
    unfold mpegPmtSectionCodec
    rw [hlen]
    simp only [bind_eq_bind,bind_some,pure_def]
    rw [if_pos (by omega)]
  obtain ⟨pcrPid,w,rest,hpcr,hw,heq⟩ := exists_bodyHeader (Nat.not_lt.mp hshort)
  subst heq
  have hpayload : (be16 pcrPid ++ (be16 w ++ rest)).length = rest.length + 4 := by
    simp only [length_append,length_be16]
    omega
  obtain ⟨hfirst,hsecond,hfield⟩ := swap_bodyHeader header crc rest pcrPid hw
  rw [hheader] at hfirst hsecond hfield
  have hcodec : mpegPmtSectionCodec (header ++ (be16 pcrPid ++ (be16 w ++ rest) ++ crc)) =
      if 12 + w % 4096 > rest.length + 12 then
        some (false, header ++ (le16 pcrPid ++ (le16 w ++ rest) ++ crc))
      else (verifyDescriptors (header ++ (le16 pcrPid ++ (le16 w ++ rest) ++ crc)) 12 (w % 4096)).bind
        fun status =>
          if status ≠ 0 then some (false, header ++ (le16 pcrPid ++ (le16 w ++ rest) ++ crc))
          else pmtStreams (header ++ (le16 pcrPid ++ (le16 w ++ rest) ++ crc)) (rest.length + 12)
            (12 + w % 4096) := by
    unfold mpegPmtSectionCodec
    rw [hlen,hpayload]
    simp only [bind_eq_bind,bind_some,pure_def]
    rw [if_neg (by omega),hfirst]
    simp only [hsecond,hfield,bind_some]
  have hbuf : header ++ (le16 pcrPid ++ (le16 w ++ rest) ++ crc) =
      (header ++ (le16 pcrPid ++ le16 w)) ++ (rest ++ crc) := by
    simp only [append_assoc]
  have hleft : (header ++ (le16 pcrPid ++ le16 w)).length = 12 := by
    rw [length_append,hheader]
    rfl
  have hcheck := check_info (header ++ (le16 pcrPid ++ le16 w)) rest crc (w % 4096)
    (rest.length + 12) (by omega) (pmtStreams (header ++ (le16 pcrPid ++ (le16 w ++ rest) ++ crc))
      (rest.length + 12) (12 + w % 4096))
  rw [hleft,← hbuf] at hcheck
  dsimp only at hcheck
  rw [← hcodec] at hcheck
  rcases hcheck with ⟨hsize,⟨ds,hds⟩,hgo⟩ | ⟨hrefused,hstop⟩
  · have htake : (rest.take (w % 4096)).length = w % 4096 := by
      rw [length_take,Nat.min_eq_left hsize]
    have hnext : header ++ (le16 pcrPid ++ (le16 w ++ rest) ++ crc) =
        (header ++ (le16 pcrPid ++ (le16 w ++ rest.take (w % 4096)))) ++
          (rest.drop (w % 4096) ++ crc) := by
      simp only [append_assoc]
      rw [← append_assoc (rest.take _),take_append_drop]
    have hpos : (header ++ (le16 pcrPid ++ (le16 w ++ rest.take (w % 4096)))).length =
        12 + w % 4096 := by
      simp only [length_append,length_le16,htake,hheader]
      omega
    have hrest : 12 + w % 4096 + (rest.drop (w % 4096)).length = rest.length + 12 := by
      rw [length_drop]
      omega
    obtain ⟨ok,rest',hloop,hrest',hok,hdecoded⟩ := pmtStreams_spec _ _ crc hpos hrest
    refine ⟨ok,le16 pcrPid ++ (le16 w ++ (rest.take (w % 4096) ++ rest')),?_,?_,?_,?_⟩
    · rw [hgo,hnext,hloop]
      simp only [append_assoc]
    · rw [length_drop] at hrest'
      simp only [length_append,length_le16,length_be16,htake,hrest']
      omega
    · rw [hok]
      constructor
      · rintro ⟨streams,hstreams⟩
        exact body_of_head hpcr hw hsize hds hstreams
      · rintro ⟨body,hbody⟩
        exact ⟨_,(body_head hpcr hw hbody).2.2.1⟩
    · intro body hbody
      obtain ⟨-,-,hstreams,hbytes⟩ := body_head hpcr hw hbody
      rw [hbytes,hdecoded _ hstreams]
  · have hnone (body : PmtBody) : be16 pcrPid ++ (be16 w ++ rest) ≠ body.bytes be16 := by
      intro hbody
      obtain ⟨hsize,hds,-⟩ := body_head hpcr hw hbody
      exact hrefused ⟨hsize,hds⟩
    exact ⟨false,_,hstop,rfl,iff_of_false Bool.false_ne_true fun ⟨body,h⟩ => hnone body h,
      fun body h => absurd h (hnone body)⟩

end Codec

end LinuxDvb.Ucsi
