import LinuxDvb.LibUcsi.IntReading
import LinuxDvb.LibUcsi.PmtIterators

/-!
# Iterators over an IP/MAC notification table

The accessors look for the platform descriptors where the table has them, and the codec three bytes further on.
-/

namespace LinuxDvb.Ucsi

open InPlace

section Iterators

variable (buf : List UInt8)

def dvbIntTargetOperationalLoop (target : Nat) : Option Nat := do
  let targetDescriptorsLength ← lengthBits intLengthModulus buf target
  return target + sizeofIntLoop + targetDescriptorsLength

def dvbIntSectionTargetLoopFirst : Option (Option Nat) := do
  let platformDescriptorsLength ← lengthBits intLengthModulus buf 12
  let len ← sectionExtLength buf
  let first := sizeofIntSection + platformDescriptorsLength
  return if first ≥ len then none else some first

def dvbIntSectionTargetLoopNext (pos : Nat) : Option (Option Nat) := do
  let ol ← dvbIntTargetOperationalLoop buf pos
  let targetDescriptorsLength ← lengthBits intLengthModulus buf pos
  let operationalDescriptorsLength ← lengthBits intLengthModulus buf ol
  let len ← sectionExtLength buf
  let next := pos + sizeofIntLoop + targetDescriptorsLength + sizeofIntLoop + operationalDescriptorsLength
  return if next ≥ len then none else some next

end Iterators

/-- The bytes between the extended header and the CRC are those of an IP/MAC notification table. -/
def HoldsInt (bytes : List UInt8) (body : IntBody) : Prop :=
  ∃ header crc, header.length = 8 ∧ crc.length = 4 ∧ bytes = header ++ (body.bytes .transmission ++ crc)

def IntBody.targetsStart (body : IntBody) : Nat := sizeofIntSection + (descriptorLoop body.platform.descriptors).length

def IntBody.pairs (body : IntBody) : List (Nat × IntTarget) :=
  (starts body.targetsStart (body.targets.map (IntTarget.bytes .transmission))).zip body.targets

def LengthsReadable (buf : List UInt8) (body : IntBody) : Prop :=
  ∀ pos t, (pos, t) ∈ body.pairs →
    lengthBits intLengthModulus buf pos = some (descriptorLoop t.target.descriptors).length ∧
      lengthBits intLengthModulus buf (pos + (t.target.bytes .transmission).length) =
        some (descriptorLoop t.operational.descriptors).length

/-- The iterator visits exactly the pairs, and gives the operational loop and the lengths of each of them. -/
structure IntIterates (buf : List UInt8) (body : IntBody) : Prop where
  targets : ∃ first, dvbIntSectionTargetLoopFirst buf = some first ∧
    Visits (dvbIntSectionTargetLoopNext buf) first (body.pairs.map Prod.fst)
  operationalLoop : ∀ pos t, (pos, t) ∈ body.pairs →
    dvbIntTargetOperationalLoop buf pos = some (pos + (t.target.bytes .transmission).length)
  lengths : LengthsReadable buf body

/-- The codec leaves everything from the CRC on alone and lets no difference wrap, it takes the section exactly if this
holds a table, and the iterator then visits the pairs of the table. -/
def IntAgrees (bytes : List UInt8) : Prop :=
  ∃ ok buf, dvbIntSectionCodecWith exactSub (bytes.take (bytes.length - 4)) = some (ok, buf) ∧
    dvbIntSectionCodec bytes = some (ok, buf ++ bytes.drop (bytes.length - 4)) ∧
    (ok.isSome ↔ ∃ body, HoldsInt bytes body) ∧ ∀ body, ok.isSome → HoldsInt bytes body → IntIterates buf body

/-- What is in front of the CRC has no room for the table, or there is no table and the reading that starts three bytes too
far on is refused as well, or there is one and this reading comes to the end as well, and what it swaps leaves the lengths
of the pairs as they are. -/
def IntReadsAlike (bytes : List UInt8) : Prop :=
  bytes.length - 4 < sizeofIntSection ∨
    ((¬ ∃ body, HoldsInt bytes body) ∧ IntReadingFurtherOn ((bytes.take (bytes.length - 4)).drop 8) none) ∨
    ((∃ body, HoldsInt bytes body) ∧ ∃ host, IntReadingFurtherOn ((bytes.take (bytes.length - 4)).drop 8) (some host) ∧
      ∀ body, HoldsInt bytes body → LengthsReadable (bytes.take 8 ++ host) body)

section Decoded

variable {buf : List UInt8} {body : IntBody}

theorem IntTarget.length_bytes (order : ByteOrder) (t : IntTarget) :
    (t.bytes order).length = (t.target.bytes .transmission).length + (sizeofIntLoop +
      (descriptorLoop t.operational.descriptors).length) := by
  rw [IntTarget.bytes,length_append,t.target.length_bytes,t.operational.length_bytes,t.target.length_bytes]
  rfl

theorem IntBody.length_bytes (body : IntBody) : 8 + (body.bytes .transmission).length =
      body.targetsStart + (body.targets.map (IntTarget.bytes .transmission)).flatten.length := by
  rw [IntBody.bytes,length_append,length_append,length_fieldBytes,body.platform.length_bytes,
    flatMap_def,IntBody.targetsStart,sizeofIntSection]
  omega

theorem map_fst_pairs (body : IntBody) :
    body.pairs.map Prod.fst = starts body.targetsStart (body.targets.map (IntTarget.bytes .transmission)) := by
  have hlength : (starts body.targetsStart (body.targets.map (IntTarget.bytes .transmission))).length =
      body.targets.length := by rw [length_starts,length_map]
  rw [IntBody.pairs,List.map_fst_zip (Nat.le_of_eq hlength)]

theorem IntTarget.bytes_ne_nil (order : ByteOrder) (t : IntTarget) : t.bytes order ≠ [] := by
  rw [← length_pos_iff,t.length_bytes,sizeofIntLoop]
  omega

theorem targets_eq_nil_iff {targets : List IntTarget} :
    (targets.map (IntTarget.bytes .transmission)).flatten.length = 0 ↔ targets.map (IntTarget.bytes .transmission) = [] := by
  cases targets with
  | nil => exact iff_of_true rfl rfl
  | cons t targets =>
    have hpos := length_pos_iff.mpr (t.bytes_ne_nil .transmission)
    rw [map_cons,flatten_cons,length_append]
    exact iff_of_false (by omega) (cons_ne_nil _ _)

theorem iterates_of_lengths
    (hplatform : lengthBits intLengthModulus buf 12 = some (descriptorLoop body.platform.descriptors).length)
    (hlen : sectionExtLength buf = some (8 + (body.bytes .transmission).length)) (hlengths : LengthsReadable buf body) :
    IntIterates buf body := by
  have hoperational : ∀ pos t, (pos, t) ∈ body.pairs →
      dvbIntTargetOperationalLoop buf pos = some (pos + (t.target.bytes .transmission).length) := by
    intro pos t ht
    rw [dvbIntTargetOperationalLoop,(hlengths pos t ht).1,t.target.length_bytes,← Nat.add_assoc]
    rfl
  rw [body.length_bytes] at hlen
  refine ⟨?_,hoperational,hlengths⟩
  rw [map_fst_pairs]
  refine ⟨if body.targets.map (IntTarget.bytes .transmission) = [] then none else some body.targetsStart,?_,
    visits_starts ?_ rfl ?_⟩
  · rw [dvbIntSectionTargetLoopFirst,hplatform,hlen]
    change some (if body.targetsStart ≥ body.targetsStart + _ then none else some body.targetsStart) = _
    have hempty : body.targetsStart ≥ body.targetsStart +
        (body.targets.map (IntTarget.bytes .transmission)).flatten.length ↔
          body.targets.map (IntTarget.bytes .transmission) = [] := by
      rw [← targets_eq_nil_iff]
      omega
    simp only [hempty]
  · intro item hitem
    obtain ⟨t,-,rfl⟩ := mem_map.mp hitem
    exact t.bytes_ne_nil .transmission
  · intro pos item hitem
    obtain ⟨t,ht,rfl⟩ := of_mem_starts_map hitem
    obtain ⟨htarget,hoperationalLength⟩ := hlengths pos t ht
    have hnext : pos + sizeofIntLoop + (descriptorLoop t.target.descriptors).length + sizeofIntLoop +
        (descriptorLoop t.operational.descriptors).length = pos + (t.bytes .transmission).length := by
      rw [t.length_bytes,t.target.length_bytes,sizeofIntLoop]
      omega
    rw [dvbIntSectionTargetLoopNext,hoperational pos t ht,htarget,hlen,← hnext]
    change (lengthBits intLengthModulus buf (pos + _)).bind _ = _
    rw [hoperationalLength]
    rfl

theorem IntReadingFurtherOn.front {payload host : List UInt8} (h : IntReadingFurtherOn payload (some host)) :
    ∃ (front : IntFront) (xs ys : List UInt8), payload = front.bytes .transmission ++ xs ∧ host = front.bytes .host ++ ys := by
  generalize hr : some host = r at h
  cases h with
  | room => cases hr
  | platform => cases hr
  | targets front ds hsize hreading =>
    obtain ⟨host',-,rfl⟩ := map_eq_some_iff.mp hr.symm
    exact ⟨front,_,_,rfl,rfl⟩

theorem platformLength_eq {header host : List UInt8} (hheader : header.length = 8)
    (h : IntReadingFurtherOn (body.bytes .transmission) (some host)) :
    lengthBits intLengthModulus (header ++ host) 12 = some (descriptorLoop body.platform.descriptors).length := by
  obtain ⟨front,xs,ys,hbytes,rfl⟩ := h.front
  rw [IntBody.bytes,IntFront.bytes,LengthLoop.bytes] at hbytes
  simp only [ByteOrder.field,ByteOrder.word,append_assoc] at hbytes
  obtain ⟨-,hrest⟩ := append_inj hbytes (body.platformId.property.trans front.platformId.property.symm)
  obtain ⟨hword,-⟩ := append_inj hrest rfl
  have hsame := be16_inj body.platform.word.toNat_lt front.platformLength.toNat_lt hword
  have htwelve : (header ++ front.platformId.val.reverse).length = 12 := by
    rw [length_append,length_reverse,hheader,front.platformId.property]
  have hbuf : header ++ (front.bytes .host ++ ys) = (header ++ front.platformId.val.reverse) ++
      (le16 front.platformLength.toNat ++ (front.leftOut.val ++ ys)) := by
    simp only [IntFront.bytes,ByteOrder.field,ByteOrder.word,append_assoc]
  rw [hbuf,lengthBits,← htwelve,← Nat.add_zero (List.length _),word16_behind,
    word16_le16 front.platformLength.toNat_lt,← hsame,body.platform.length_eq]
  rfl

end Decoded

section Section

theorem ExtSection.sectionExtLength_cut (ext : ExtSection) :
    sectionExtLength (ext.bytes.take (ext.bytes.length - 4)) = some (ext.bytes.length - 4) := by
  have hheader := ext.header
  have hcut : 1 + 1 < (ext.bytes.take (ext.bytes.length - 4)).length := by
    rw [length_take]
    omega
  have hword : word16 (ext.bytes.take (ext.bytes.length - 4) ++ []) 1 =
      word16 (ext.bytes.take (ext.bytes.length - 4) ++ ext.bytes.drop (ext.bytes.length - 4)) 1 := word16_before hcut
  rw [append_nil,take_append_drop] at hword
  have hsame : sectionExtLength (ext.bytes.take (ext.bytes.length - 4)) = sectionExtLength ext.bytes := by
    rw [sectionExtLength,sectionExtLength,sectionLengthField,sectionLengthField,lengthField,lengthField,hword]
  rw [hsame,ext.sectionExtLength_eq]

theorem sectionExtLength_header {header xs ys : List UInt8} (hheader : header.length = 8) :
    sectionExtLength (header ++ xs) = sectionExtLength (header ++ ys) := by
  have hword : word16 (header ++ xs) 1 = word16 (header ++ ys) 1 := word16_before (by omega)
  rw [sectionExtLength,sectionExtLength,sectionLengthField,sectionLengthField,lengthField,lengthField,hword]

theorem agrees_iff_readsAlike {header payload crc : List UInt8} (hheader : header.length = 8) (hcrc : crc.length = 4)
    (hroom : 6 ≤ payload.length) (hlen : sectionExtLength (header ++ payload) = some (8 + payload.length)) :
    IntAgrees (header ++ (payload ++ crc)) ↔ IntReadsAlike (header ++ (payload ++ crc)) := by
  have hstop : (header ++ (payload ++ crc)).length - 4 = (header ++ payload).length := by
    simp only [length_append,hcrc]
    omega
  have hlong : ¬ (header ++ payload).length < sizeofIntSection := by
    rw [length_append,hheader,sizeofIntSection]
    omega
  have hholds : ∀ body : IntBody, HoldsInt (header ++ (payload ++ crc)) body ↔ payload = body.bytes .transmission :=
    fun body => between_iff hheader hcrc
  have hfront : (header ++ (payload ++ crc)).take 8 = header := by rw [← hheader,take_left]
  have hpayload : (header ++ payload).drop 8 = payload := by rw [← hheader,drop_left]
  rw [IntAgrees,IntReadsAlike,hstop,hfront,← append_assoc,take_left,drop_left,hpayload]
  simp only [append_assoc,hholds,hlong,false_or]
  constructor
  · rintro ⟨ok,buf,hrun,-,hok,hiterates⟩
    obtain ⟨r,hreading⟩ := exists_readingFurtherOn hheader hroom hlen (by rw [hrun]; exact some_ne_none _)
    obtain ⟨buf',hrun',hbuf'⟩ := dvbIntSectionCodec_of_reading hheader hreading hlen
    have hsame := hrun.symm.trans hrun'
    injection hsame with hsame
    injection hsame with hr hbuf
    subst hr hbuf
    cases r with
    | none => exact .inl ⟨fun hbody => absurd (hok.mpr hbody) Bool.false_ne_true,hreading⟩
    | some host =>
      refine .inr ⟨hok.mp rfl,host,hreading,fun body hbody => ?_⟩
      rw [← hbuf' host rfl]
      exact (hiterates body rfl hbody).lengths
  · rintro (⟨hnone,hreading⟩ | ⟨hsome,host,hreading,hlengths⟩)
    · obtain ⟨buf,hrun,-⟩ := dvbIntSectionCodec_of_reading hheader hreading hlen
      have hcode := extends_dvbIntSectionCodec hrun crc
      rw [append_assoc] at hcode
      exact ⟨none,buf,hrun,hcode,iff_of_false Bool.false_ne_true hnone,fun body hbody => absurd hbody Bool.false_ne_true⟩
    · obtain ⟨buf,hrun,hbuf⟩ := dvbIntSectionCodec_of_reading hheader hreading hlen
      have hcode := extends_dvbIntSectionCodec hrun crc
      rw [append_assoc] at hcode
      refine ⟨some (),buf,hrun,hcode,iff_of_true rfl hsome,fun body _ hbody => ?_⟩
      rw [hbuf host rfl]
      refine iterates_of_lengths ?_ ?_ (hlengths body hbody)
      · exact platformLength_eq hheader (hbody ▸ hreading)
      · rw [← hbody,← hlen]
        exact sectionExtLength_header hheader

/-- The codec and the iterator agree with the grammar, stay in front of the CRC, and let no difference wrap exactly on the
sections that read alike from the platform descriptors on and from three bytes behind their start. -/
theorem dvbIntSectionCodec_agrees_iff (ext : ExtSection) : IntAgrees ext.bytes ↔ IntReadsAlike ext.bytes := by
  by_cases hroom : sizeofIntSection ≤ ext.bytes.length - 4
  · have hcut : (ext.bytes.take (ext.bytes.length - 4)).length = ext.bytes.length - 4 := by
      rw [List.length_take]
      omega
    have hlen := ext.sectionExtLength_cut
    rw [sizeofIntSection] at hroom
    have hsplit : ext.bytes = (ext.bytes.take (ext.bytes.length - 4)).take 8 ++
        ((ext.bytes.take (ext.bytes.length - 4)).drop 8 ++ ext.bytes.drop (ext.bytes.length - 4)) := by
      rw [← List.append_assoc, List.take_append_drop, List.take_append_drop]
    rw [hsplit]
    refine agrees_iff_readsAlike ?_ ?_ ?_ ?_
    · rw [List.length_take, hcut]
      omega
    · rw [List.length_drop]
      omega
    · rw [List.length_drop, hcut]
      omega
    · rw [List.take_append_drop, hlen, List.length_drop, hcut]
      exact congrArg some (by omega)
  · -- the codec refuses the section, and there is no table in it
    have hshort : ext.bytes.length - 4 < sizeofIntSection := Nat.lt_of_not_le hroom
    have hrun : dvbIntSectionCodecWith exactSub (ext.bytes.take (ext.bytes.length - 4)) =
        some (none, ext.bytes.take (ext.bytes.length - 4)) := by
      rw [dvbIntSectionCodecWith, bind_look ext.sectionExtLength_cut, bind_refuseIf_of hshort]
    have hnone : ¬ ∃ body, HoldsInt ext.bytes body := by
      rintro ⟨body, header, crc, hheader, hcrc, heq⟩
      have hbody := body.length_bytes
      rw [heq, List.length_append, List.length_append, hheader, hcrc] at hshort
      rw [IntBody.targetsStart] at hbody
      omega
    have hcode := extends_dvbIntSectionCodec hrun (ext.bytes.drop (ext.bytes.length - 4))
    rw [List.take_append_drop] at hcode
    refine iff_of_true ⟨none, _, hrun, ?_, iff_of_false Bool.false_ne_true hnone, fun body hbody => ?_⟩ (.inl hshort)
    · rw [hcode, List.take_append_drop]
    · cases hbody

def onePlatformDescriptor : IntBody :=
  ⟨⟨[0, 0, 1, 0], rfl⟩, ⟨0xf003, [⟨0x0c, [0xaa], by decide⟩], rfl⟩, []⟩

def onePlatformSection : ExtSection :=
  ⟨[0x4c, 18, 0xf0, 0, 1, 0xc1, 0, 0, 0, 0, 1, 0, 0xf0, 3, 0x0c, 1, 0xaa, 1, 2, 3, 4], by decide, by decide⟩

/-- From byte 17 on there is nothing left, and the codec refuses the table. -/
theorem onePlatform_not_agrees : ¬ ∀ ext : ExtSection, IntAgrees ext.bytes := by
  intro h
  obtain ⟨ok, buf, hrun, -, hok, -⟩ := h onePlatformSection
  have hholds : HoldsInt onePlatformSection.bytes onePlatformDescriptor :=
    ⟨[0x4c, 18, 0xf0, 0, 1, 0xc1, 0, 0], [1, 2, 3, 4], rfl, rfl, rfl⟩
  have hrefused : (dvbIntSectionCodecWith exactSub (onePlatformSection.bytes.take 17)).map Prod.fst = some none := by
    decide
  have hrun' : dvbIntSectionCodecWith exactSub (onePlatformSection.bytes.take 17) = some (ok, buf) := hrun
  rw [hrun'] at hrefused
  injection hrefused with hnone
  exact absurd (hok.mpr ⟨_, hholds⟩) (by rw [show ok = none from hnone]; exact Bool.false_ne_true)

end Section

end LinuxDvb.Ucsi
