import LinuxDvb.LibUcsi.AtscText
import LinuxDvb.LibUcsi.LengthLoop

/-!
# Rating region tables

`atsc_rrt_section_codec` goes through the name of the region, the dimensions, the values of each of them, and the
descriptor loop.
-/

namespace LinuxDvb.Ucsi

open InPlace

/-- `sizeof(struct atsc_rrt_section)` -/
def sizeofRrtSection : Nat := 10

/-- `sizeof(struct atsc_rrt_section_part2)`, and of `struct atsc_rrt_dimension_part2` -/
def sizeofRrtPart2 : Nat := 1

/-- `sizeof(struct atsc_rrt_section_part3)` -/
def sizeofRrtPart3 : Nat := 2

/-- The modulus of `descriptors_length`, which has 10 bits. -/
def rrtLengthModulus : Nat := 1024

/-- `values_defined`, which has the low 4 bits of the second part of a dimension. -/
def valuesDefined (part2 : UInt8) : Nat := part2.toNat % 16

section Codec

variable (len : Nat)

def rrtValue (value : Nat) : InPlace Nat := do
  let vpart2 ← checkLengthText len value
  checkLengthText len vpart2

def rrtDimension (dimension : Nat) : InPlace Nat := do
  let dpart2 ← checkLengthText len dimension
  let pos ← skip len sizeofRrtPart2 dpart2
  let part2 ← look (·[dpart2]?)
  times (valuesDefined part2) (rrtValue len) pos

def rrtDimensions (part2 : Nat) : InPlace Nat := do
  let pos ← skip len sizeofRrtPart2 part2
  let dimensionsDefined ← look (·[part2]?)
  times dimensionsDefined.toNat (rrtDimension len) pos

def rrtPart3 (part3 : Nat) : InPlace Nat := do
  let pos ← skip len sizeofRrtPart3 part3
  let size ← look (lengthBits rrtLengthModulus · part3)
  checkDescriptors len pos size

/-- `atsc_rrt_section_codec(psip)` -/
def atscRrtSectionCodec : InPlace Unit := do
  let len ← look sectionExtLength
  let pos ← skip len sizeofRrtSection 0
  let ratingRegionNameLength ← look (·[9]?)
  let part2 ← checkText len pos ratingRegionNameLength.toNat
  let part3 ← rrtDimensions len part2
  let pos ← rrtPart3 len part3
  refuseIf (pos ≠ len)

end Codec

structure RrtValue where
  abbrevRatingValue : AtscTextField
  ratingValue : AtscTextField

def RrtValue.bytes (v : RrtValue) : List UInt8 := v.abbrevRatingValue.lengthBytes ++ v.ratingValue.lengthBytes

/-- A dimension: its name, its second part, and as many values as this defines. -/
structure RrtDimension where
  dimensionName : AtscTextField
  part2 : UInt8
  values : List RrtValue
  defined : values.length = valuesDefined part2

def RrtDimension.bytes (d : RrtDimension) : List UInt8 :=
  d.dimensionName.lengthBytes ++ ([d.part2] ++ d.values.flatMap RrtValue.bytes)

/-- What a rating region table holds between the extended header and the CRC. -/
structure RrtBody where
  protocolVersion : UInt8
  ratingRegionName : AtscTextField
  dimensions : List RrtDimension
  fits : dimensions.length < 256
  info : LengthLoop rrtLengthModulus

def RrtBody.front (body : RrtBody) : List UInt8 :=
  [body.protocolVersion, UInt8.ofNat body.ratingRegionName.bytes.length] ++ (body.ratingRegionName.bytes ++
    ([UInt8.ofNat body.dimensions.length] ++ body.dimensions.flatMap RrtDimension.bytes))

def RrtBody.bytes (order : ByteOrder) (body : RrtBody) : List UInt8 := body.front ++ body.info.bytes order

/-- The two bytes of the word with the length are the same, so that it is the same in either order. -/
def LengthLoop.Symmetric {m : Nat} (l : LengthLoop m) : Prop := l.word.toNat / 256 = l.word.toNat % 256

section Parsing

variable {before : List UInt8 → Prop} {len : Nat}

def rrtValueFormat : Format RrtValue := ⟨fun _ => RrtValue.bytes, fun _ => rfl⟩

def rrtDimensionFormat : Format RrtDimension := ⟨fun _ => RrtDimension.bytes, fun _ => rfl⟩

def rawLoopFormat : Format (LengthLoop rrtLengthModulus) := ⟨fun _ => LengthLoop.bytes .host, fun _ => rfl⟩

theorem parses_rrtValue : Parses rrtValueFormat before len (rrtValue len) := by
  have hvalue : Parses (lengthTextFormat.andThen fun _ => lengthTextFormat) before len (rrtValue len) :=
    parses_lengthText.bind fun _ _ => parses_lengthText
  exact hvalue.of_bytes (fun v => ⟨⟨v.abbrevRatingValue,v.ratingValue⟩,fun _ => rfl⟩)
    fun a => ⟨⟨a.1,a.2⟩,fun _ => rfl⟩

theorem parses_rrtDimension : Parses rrtDimensionFormat before len (rrtDimension len) := by
  have hdimension : Parses (lengthTextFormat.andThen fun _ => (Format.blockByte 0).andThen fun a =>
      rrtValueFormat.times (valuesDefined a.2)) before len (rrtDimension len) :=
    parses_lengthText.bind fun _ _ => Parses.lastByte fun c => parses_rrtValue.times (valuesDefined c)
  refine hdimension.of_bytes (fun d => ?_) fun a => ?_
  · exact ⟨⟨d.dimensionName,⟨⟨[],rfl⟩,d.part2⟩,d.values,d.defined⟩,fun _ => rfl⟩
  · obtain ⟨name,⟨⟨front,hfront⟩,part2⟩,values,hvalues⟩ := a
    obtain rfl := eq_nil_of_length_eq_zero hfront
    exact ⟨⟨name,part2,values,hvalues⟩,fun _ => rfl⟩

theorem parses_rrtPart3 : Parses rawLoopFormat before len (rrtPart3 len) := by
  have hword : Parses (⟨fun _ w => le16 w.toNat,fun _ => rfl⟩ : Format UInt16) before len (skip len sizeofRrtPart3) := by
    refine (Parses.skip sizeofRrtPart3).of_bytes (fun w => ⟨⟨le16 w.toNat,rfl⟩,fun _ => rfl⟩) fun b => ?_
    obtain ⟨bytes,hbytes⟩ := b
    obtain ⟨low,high,rfl⟩ := List.length_eq_two.mp hbytes
    obtain ⟨w,hw⟩ := exists_uint16 high low
    exact ⟨w,fun _ => congrArg List.reverse hw⟩
  have hloop : Parses _ before len (rrtPart3 len) := hword.bind fun w start =>
    Parses.look (c := w.toNat % rrtLengthModulus) (fun left right hleft => by
      obtain ⟨l,-,rfl,rfl⟩ := hleft
      rw [lengthBits,append_assoc,← Nat.add_zero l.length,word16_behind]
      exact congrArg (Option.map (· % rrtLengthModulus)) (word16_le16 w.toNat_lt right))
      (parses_descriptors (w.toNat % rrtLengthModulus))
  refine hloop.of_bytes (fun l => ⟨⟨l.word,l.descriptors,l.length_eq⟩,fun _ => rfl⟩) fun a => ?_
  obtain ⟨w,ds,hds⟩ := a
  exact ⟨⟨w,ds,hds⟩,fun _ => rfl⟩

theorem LengthLoop.Symmetric.bytes_eq {m : Nat} {l : LengthLoop m} (h : l.Symmetric) :
    l.bytes .transmission = l.bytes .host := by
  have hlow : UInt8.ofNat l.word.toNat = UInt8.ofNat (l.word.toNat / 256) := by
    rw [h]
    exact UInt8.toNat_inj.mp (by simp)
  have hword : be16 l.word.toNat = le16 l.word.toNat := by rw [be16,le16,hlow]
  exact congrArg (· ++ descriptorLoop l.descriptors) hword

theorem exists_host_iff {m : Nat} (hm : 256 ∣ m) (l : LengthLoop m) :
    (∃ l' : LengthLoop m, l.bytes .transmission = l'.bytes .host) ↔ l.Symmetric := by
  constructor
  · rintro ⟨l',hbytes⟩
    have hlengths : (be16 l.word.toNat).length = (le16 l'.word.toNat).length := rfl
    obtain ⟨hword,hloop⟩ := append_inj hbytes hlengths
    -- the high byte of the word is the low one of the other word, and the loops have one length
    have hhigh : l.word.toNat / 256 % 256 = l'.word.toNat % 256 := by
      have hbyte := congrArg UInt8.toNat (List.cons.inj hword).1
      rwa [UInt8.toNat_ofNat',UInt8.toNat_ofNat'] at hbyte
    have hsize : l.word.toNat % m = l'.word.toNat % m := by rw [← l.length_eq,← l'.length_eq,hloop]
    have hlow : l.word.toNat % 256 = l'.word.toNat % 256 := by
      rw [← Nat.mod_mod_of_dvd l.word.toNat hm,hsize,Nat.mod_mod_of_dvd _ hm]
    have hword := l.word.toNat_lt
    unfold LengthLoop.Symmetric
    omega
  · exact fun h => ⟨l,h.bytes_eq⟩

theorem takes_front (body : RrtBody) {header rest crc : List UInt8} (hheader : header.length = 8)
    (hlen : 8 + (body.front ++ rest).length = len) {β : Type} (q : Nat → InPlace β) :
    (do
      let pos ← skip len sizeofRrtSection 0
      let ratingRegionNameLength ← look (·[9]?)
      let part2 ← checkText len pos ratingRegionNameLength.toNat
      let part3 ← rrtDimensions len part2
      q part3) (header ++ ((body.front ++ rest) ++ crc)) =
    q (header ++ body.front).length (header ++ ((body.front ++ rest) ++ crc)) := by
  have hparses : Parses ((Format.blockByte 1).andThen fun a => (textFormat a.2.toNat).andThen fun _ =>
      (Format.blockByte 0).andThen fun b => rrtDimensionFormat.times b.2.toNat) (fun _ => True) len (fun start => do
        let pos ← skip len 2 start
        let ratingRegionNameLength ← look (·[start + 1]?)
        let part2 ← checkText len pos ratingRegionNameLength.toNat
        rrtDimensions len part2) :=
    Parses.lastByte fun c => (parses_text c.toNat).bind fun _ _ =>
      Parses.lastByte fun d => parses_rrtDimension.times d.toNat
  have hname : body.ratingRegionName.bytes.length = (UInt8.ofNat body.ratingRegionName.bytes.length).toNat :=
    (UInt8.toNat_ofNat_of_lt body.ratingRegionName.fits).symm
  have hdimensions : body.dimensions.length = (UInt8.ofNat body.dimensions.length).toNat :=
    (UInt8.toNat_ofNat_of_lt body.fits).symm
  have hrun := hparses.takes ⟨⟨⟨[body.protocolVersion],rfl⟩,UInt8.ofNat body.ratingRegionName.bytes.length⟩,
    ⟨body.ratingRegionName.bytes,hname,body.ratingRegionName.isTextField⟩,
    ⟨⟨[],rfl⟩,UInt8.ofNat body.dimensions.length⟩,body.dimensions,hdimensions⟩ rest crc trivial
    (hheader.symm ▸ hlen)
  rw [hheader] at hrun
  have hregroup : (do
      let pos ← skip len sizeofRrtSection 0
      let ratingRegionNameLength ← look (·[9]?)
      let part2 ← checkText len pos ratingRegionNameLength.toNat
      let part3 ← rrtDimensions len part2
      q part3) = (do
        let pos ← skip len 2 8
        let ratingRegionNameLength ← look (·[8 + 1]?)
        let part2 ← checkText len pos ratingRegionNameLength.toNat
        rrtDimensions len part2) >>= q := by
    simp only [bind_assoc]
    rfl
  rw [hregroup,length_append,hheader]
  exact bind_of_some hrun q

/-- The codec takes a rating region table exactly if the length of its descriptor loop is the same in either order, and
leaves it as it is. -/
theorem atscRrtSectionCodec_spec (body : RrtBody) {header crc : List UInt8} (hheader : header.length = 8)
    (hlen : sectionExtLength (header ++ (body.bytes .transmission ++ crc)) =
      some (8 + (body.bytes .transmission).length)) :
    ∃ ok buf, atscRrtSectionCodec (header ++ (body.bytes .transmission ++ crc)) = some (ok, buf) ∧
      (ok.isSome ↔ body.info.Symmetric) ∧ (ok.isSome → buf = header ++ (body.bytes .transmission ++ crc)) := by
  have hend : (header ++ body.front).length + (body.info.bytes .transmission).length =
      8 + (body.bytes .transmission).length := by
    rw [RrtBody.bytes,length_append,length_append,hheader,Nat.add_assoc]
  have hpart3 : Parses rawLoopFormat (fun _ => True) (8 + (body.bytes .transmission).length) (rrtPart3 _) :=
    parses_rrtPart3
  obtain ⟨ok,info',hrun,-,hok,hsame⟩ := hpart3.whole (body.info.bytes .transmission) crc trivial hend
  have hbuf : ∀ info, header ++ ((body.front ++ info) ++ crc) = (header ++ body.front) ++ (info ++ crc) := by
    intro info
    simp only [append_assoc]
  refine ⟨ok,header ++ ((body.front ++ info') ++ crc),?_,?_,fun htaken => ?_⟩
  · rw [atscRrtSectionCodec,bind_look hlen]
    refine (takes_front body hheader rfl _).trans ?_
    rw [hbuf,hbuf]
    exact hrun
  · rw [hok]
    exact exists_host_iff (by decide) body.info
  · obtain ⟨l,hl⟩ := hok.mp htaken
    rw [hsame l hl,RrtBody.bytes,hl]
    rfl

end Parsing

end LinuxDvb.Ucsi
