import LinuxDvb.Scan.SdtRecords
import LinuxDvb.Scan.Vct

/-!
# What a channel of a virtual channel table says

The fields and the descriptors of a well-formed channel are read as they were written.
-/

namespace LinuxDvb.Scan.Tables

variable {buf : Mem UInt8} {pos : Nat}

/-! ## Fields -/

section Fields

theorem slice_two (buf : Mem UInt8) (p : Nat) : buf.slice p 2 = [buf p, buf (p + 1)] := rfl

theorem be16_at {n p : Nat} (hn : n < 65536) (h : buf.slice p (be16 n).length = be16 n) :
    (buf p).toNat * 256 + (buf (p + 1)).toNat = n := by
  rw [length_be16,slice_two,be16,List.cons.injEq,List.cons.injEq] at h
  rw [h.1,h.2.1,UInt8.toNat_ofNat',UInt8.toNat_ofNat']
  omega

theorem shift_or (n : Nat) (b : UInt8) : n <<< 8 ||| b.toNat = n * 256 + b.toNat := by
  have hb : b.toNat < 2 ^ 8 := b.toNat_lt
  rw [← Nat.shiftLeft_add_eq_or_of_lt hb,Nat.shiftLeft_eq]

theorem getBits_eq (buf : Mem UInt8) (pos startbit bitlen : Nat) : getBits buf pos startbit bitlen =
      collect buf (pos + startbit / 8) ((bitlen - 1) / 8 + 1) /
        2 ^ (8 * ((bitlen - 1) / 8 + 1) - startbit % 8 - bitlen) % 2 ^ bitlen := by
  have hbytes : (bitlen - 1) >>> 3 = (bitlen - 1) / 8 := Nat.shiftRight_eq_div_pow _ _
  rw [getBits,hbytes,Nat.one_shiftLeft,Nat.and_two_pow_sub_one_eq_mod,Nat.shiftRight_eq_div_pow]

theorem collect_one (buf : Mem UInt8) (p : Nat) : collect buf p 1 = (buf p).toNat := by
  change 0 <<< 8 ||| (buf p).toNat = _
  rw [Nat.zero_shiftLeft,Nat.zero_or]

theorem collect_two (buf : Mem UInt8) (p : Nat) : collect buf p 2 = (buf p).toNat * 256 + (buf (p + 1)).toNat := by
  change (0 <<< 8 ||| (buf p).toNat) <<< 8 ||| (buf (p + 1)).toNat = _
  rw [Nat.zero_shiftLeft,Nat.zero_or,shift_or]

theorem collect_three (buf : Mem UInt8) (p : Nat) :
    collect buf p 3 = ((buf p).toNat * 256 + (buf (p + 1)).toNat) * 256 + (buf (p + 2)).toNat := by
  change ((0 <<< 8 ||| (buf p).toNat) <<< 8 ||| (buf (p + 1)).toNat) <<< 8 ||| (buf (p + 1 + 1)).toNat = _
  rw [Nat.zero_shiftLeft,Nat.zero_or,shift_or,shift_or]

theorem ofNat_eq {b : UInt8} {n : Nat} (h : n % 256 = b.toNat) : UInt8.ofNat n = b := by
  rw [← UInt8.toNat_inj,UInt8.toNat_ofNat',← h]

theorem units_at (us : List UInt16) (p : Nat)
    (h : buf.slice p (us.flatMap fun u => be16 u.toNat).length = us.flatMap fun u => be16 u.toNat) :
    (List.range us.length).map (fun i => collect buf (p + 2 * i) 2) = us.map UInt16.toNat := by
  induction us generalizing p with
  | nil => rfl
  | cons u us ih =>
    rw [flatMap_cons] at h
    obtain ⟨hfirst,hrest⟩ := (Mem.slice_append_iff _ _ _ _).mp h
    rw [length_be16] at hrest
    rw [length_cons,List.range_succ_eq_map,map_cons,map_map,map_cons,← ih _ hrest,
      Nat.mul_zero,Nat.add_zero,collect_two,be16_at u.toNat_lt hfirst]
    congr 1
    refine map_congr_left fun i _ => ?_
    change collect buf (p + 2 * (i + 1)) 2 = collect buf (p + 2 + 2 * i) 2
    congr 1
    omega

def VctChannel.fields (c : VctChannel) : TvctChannel where
  shortName := c.shortName.map UInt16.toNat
  majorChannelNumber := c.major
  minorChannelNumber := c.minor
  programNumber := c.programNumber.toNat
  hidden := c.hidden.toNat
  serviceType := c.serviceType
  descriptorsLength := c.descriptorBytes.length

theorem VctChannel.length_names (c : VctChannel) : (c.shortName.flatMap fun u => be16 u.toNat).length = 14 := by
  rw [List.length_flatMap]
  simp [c.length_shortName]

theorem VctChannel.length_bytes (c : VctChannel) : c.bytes.length = 32 + c.descriptorBytes.length := by
  rw [VctChannel.bytes]
  simp only [length_append,c.length_names,c.length_tuning,length_be16,length_cons,length_nil]

theorem read_channel (c : VctChannel) (h : buf.slice pos c.bytes.length = c.bytes) :
    readTvctChannel buf pos = c.fields ∧
      buf.slice (pos + 32) c.descriptorBytes.length = c.descriptorBytes := by
  have hnumbers := c.major_lt
  have hminor := c.minor_lt
  have hreserved := c.reserved_lt
  have haccess := c.access_lt
  have hguide := c.guide_lt
  have htype := c.serviceType_lt
  have hhidden : c.hidden.toNat < 2 := Bool.toNat_lt c.hidden
  have hreserved' := c.reserved'_lt
  have hfits : c.descriptorBytes.length < 1024 := c.fits
  rw [VctChannel.bytes] at h
  obtain ⟨h,hdescriptors⟩ := (Mem.slice_append_iff _ _ _ _).mp h
  obtain ⟨h,hlength⟩ := (Mem.slice_append_iff _ _ _ _).mp h
  obtain ⟨h,-⟩ := (Mem.slice_append_iff _ _ _ _).mp h
  obtain ⟨h,hflags⟩ := (Mem.slice_append_iff _ _ _ _).mp h
  obtain ⟨h,hprogram⟩ := (Mem.slice_append_iff _ _ _ _).mp h
  obtain ⟨h,-⟩ := (Mem.slice_append_iff _ _ _ _).mp h
  obtain ⟨hnames,hnums⟩ := (Mem.slice_append_iff _ _ _ _).mp h
  simp only [length_append,c.length_names,c.length_tuning,length_be16,length_cons,length_nil]
    at hnums hprogram hflags hlength hdescriptors
  have hnums' : [buf (pos + 14), buf (pos + 14 + 1), buf (pos + 14 + 1 + 1)] =
      [UInt8.ofNat (c.numbers / 65536), UInt8.ofNat (c.numbers / 256), UInt8.ofNat c.numbers] := hnums
  rw [List.cons.injEq,List.cons.injEq,List.cons.injEq] at hnums'
  have h14 : (buf (pos + 14)).toNat = c.numbers / 65536 % 256 := by rw [hnums'.1,UInt8.toNat_ofNat']
  have h15 : (buf (pos + 15)).toNat = c.numbers / 256 % 256 := by rw [hnums'.2.1,UInt8.toNat_ofNat']
  have h16 : (buf (pos + 16)).toNat = c.numbers % 256 := by rw [hnums'.2.2.1,UInt8.toNat_ofNat']
  have hprogram' := be16_at c.programNumber.toNat_lt hprogram
  have hflags_lt : c.flags < 65536 := by
    rw [VctChannel.flags]
    omega
  have hflags' : (buf (pos + 26)).toNat * 256 + (buf (pos + 27)).toNat = c.flags := be16_at hflags_lt hflags
  have hlength' := be16_at (by omega) hlength
  have h27 := (buf (pos + 27)).toNat_lt
  rw [VctChannel.numbers] at h14 h15 h16
  rw [VctChannel.flags] at hflags'
  have hmajor : getBits buf pos 116 10 = c.major := by
    have hbits : getBits buf pos 116 10 = collect buf (pos + 14) 2 / 4 % 1024 := getBits_eq buf pos 116 10
    rw [hbits,collect_two,h14,h15]
    omega
  have hminor' : getBits buf pos 126 10 = c.minor := by
    have hbits : getBits buf pos 126 10 = collect buf (pos + 15) 2 / 1 % 1024 := getBits_eq buf pos 126 10
    rw [hbits,collect_two,h15,h16]
    omega
  have hnumber : getBits buf pos 192 16 = c.programNumber.toNat := by
    have hbits : getBits buf pos 192 16 = collect buf (pos + 24) 2 / 1 % 65536 := getBits_eq buf pos 192 16
    have hlt := c.programNumber.toNat_lt
    rw [hbits,collect_two,hprogram']
    omega
  have hhidden' : getBits buf pos 211 1 = c.hidden.toNat := by
    have hbits : getBits buf pos 211 1 = collect buf (pos + 26) 1 / 16 % 2 := getBits_eq buf pos 211 1
    rw [hbits,collect_one]
    omega
  have htype' : getBits buf pos 218 6 = c.serviceType := by
    have hbits : getBits buf pos 218 6 = collect buf (pos + 27) 1 / 1 % 64 := getBits_eq buf pos 218 6
    rw [hbits,collect_one]
    omega
  have hlen : getBits buf pos 246 10 = c.descriptorBytes.length := by
    have hbits : getBits buf pos 246 10 = collect buf (pos + 30) 2 / 1 % 1024 := getBits_eq buf pos 246 10
    rw [hbits,collect_two,hlength']
    omega
  have hname : (List.range 7).map (fun i => getBits buf pos (16 * i) 16) = c.shortName.map UInt16.toNat := by
    rw [← units_at c.shortName pos hnames,c.length_shortName]
    refine map_congr_left fun i _ => ?_
    have hbyte : 16 * i / 8 = 2 * i := by omega
    have hstart : 16 * i % 8 = 0 := by omega
    have hlt : collect buf (pos + 2 * i) 2 < 65536 := by
      have h0 := (buf (pos + 2 * i)).toNat_lt
      have h1 := (buf (pos + 2 * i + 1)).toNat_lt
      rw [collect_two]
      omega
    rw [getBits_eq,hbyte,hstart]
    change collect buf (pos + 2 * i) 2 / 1 % 65536 = _
    omega
  refine ⟨?_,hdescriptors⟩
  rw [readTvctChannel,VctChannel.fields,hname,hmajor,hminor',hnumber,hhidden',htype',hlen]

end Fields

/-! ## Descriptors -/

def LocationElement.record (e : LocationElement) (s : Service) : Service :=
  addElement e.streamType.toNat e.pid e.lang s

def NameSegment.record (g : NameSegment) (s : Service) : Service := addSegment g.compType g.text s

def NameString.record (t : NameString) (s : Service) : Service := t.segments.foldl (fun s g => g.record s) s

def VctContent.record : VctContent → Service → Service
  | location _ pcrPid elements _ _, s => elements.foldl (fun s e => e.record s) { s with pcrPid := pcrPid }
  | extendedName strings, s => strings.foldl (fun s t => t.record s) s
  | other .., s => s

def VctDescriptor.record (d : VctDescriptor) (s : Service) : Service := d.content.record s

section Descriptors

variable {s : Service}

theorem LocationElement.length_bytes (e : LocationElement) : e.bytes.length = 6 := by
  rw [LocationElement.bytes,length_append,e.length_lang]
  rfl

theorem read_element (e : LocationElement) (h : buf.slice pos e.bytes.length = e.bytes) :
    getBits buf pos 0 8 = e.streamType.toNat ∧ getBits buf pos 11 13 = e.pid ∧
      [UInt8.ofNat (getBits buf pos 24 24 >>> 16), UInt8.ofNat (getBits buf pos 24 24 >>> 8),
        UInt8.ofNat (getBits buf pos 24 24)] = e.lang := by
  have hreserved := e.reserved_lt
  have hpid := e.pid_lt
  obtain ⟨l0,l1,l2,hlang⟩ := List.length_eq_three.mp e.length_lang
  rw [e.length_bytes,LocationElement.bytes,hlang] at h
  have hcells : [buf pos, buf (pos + 1), buf (pos + 2), buf (pos + 3), buf (pos + 4), buf (pos + 5)] =
      [e.streamType, UInt8.ofNat (e.reserved * 32 + e.pid / 256), UInt8.ofNat e.pid, l0, l1, l2] := h
  simp only [List.cons.injEq,and_true] at hcells
  obtain ⟨h0,h1,h2,h3,h4,h5⟩ := hcells
  have hb0 := (buf pos).toNat_lt
  have hb3 := (buf (pos + 3)).toNat_lt
  have hb4 := (buf (pos + 4)).toNat_lt
  have hb5 := (buf (pos + 5)).toNat_lt
  have htype : getBits buf pos 0 8 = collect buf pos 1 / 1 % 256 := getBits_eq buf pos 0 8
  have hbits : getBits buf pos 11 13 = collect buf (pos + 1) 2 / 1 % 8192 := getBits_eq buf pos 11 13
  have hlanguage : getBits buf pos 24 24 = collect buf (pos + 3) 3 / 1 % 16777216 := getBits_eq buf pos 24 24
  refine ⟨?_,?_,?_⟩
  · rw [htype,collect_one,h0] at *
    omega
  · rw [hbits,collect_two,h1,h2,UInt8.toNat_ofNat',UInt8.toNat_ofNat']
    omega
  · rw [hlanguage,collect_three,hlang,Nat.shiftRight_eq_div_pow,Nat.shiftRight_eq_div_pow]
    have hval : ((buf (pos + 3)).toNat * 256 + (buf (pos + 4)).toNat) * 256 + (buf (pos + 5)).toNat < 16777216 := by
      omega
    rw [Nat.div_one,Nat.mod_eq_of_lt hval,← h3,← h4,← h5,ofNat_eq (b := buf (pos + 3)),ofNat_eq (b := buf (pos + 4)),
      ofNat_eq (b := buf (pos + 5))]
    all_goals omega

theorem value_locationElements (es : List LocationElement) (pos : Nat) (s : Service)
    (h : buf.slice pos (es.flatMap LocationElement.bytes).length = es.flatMap LocationElement.bytes) :
    locationElements buf es.length pos s = es.foldl (fun s e => e.record s) s := by
  induction es generalizing pos s with
  | nil => rfl
  | cons e es ih =>
    rw [flatMap_cons] at h
    obtain ⟨hfirst,hrest⟩ := (Mem.slice_append_iff _ _ _ _).mp h
    obtain ⟨htype,hpid,hlang⟩ := read_element e hfirst
    rw [e.length_bytes] at hrest
    rw [length_cons,locationElements,foldl_cons,← ih _ _ hrest,LocationElement.record,htype,hpid,hlang]

theorem value_nameSegments (gs : List NameSegment) (pos : Nat) (s : Service)
    (h : buf.slice pos (gs.flatMap NameSegment.bytes).length = gs.flatMap NameSegment.bytes) :
    nameSegments buf gs.length pos s =
      (pos + (gs.flatMap NameSegment.bytes).length, gs.foldl (fun s g => g.record s) s) := by
  induction gs generalizing pos s with
  | nil => rfl
  | cons g gs ih =>
    rw [flatMap_cons] at h
    obtain ⟨hfirst,hrest⟩ := (Mem.slice_append_iff _ _ _ _).mp h
    obtain ⟨hhead,htext⟩ := (Mem.slice_append_iff _ _ _ _).mp hfirst
    have hcells : [buf pos, buf (pos + 1), buf (pos + 2)] = [g.compType, g.mode, UInt8.ofNat g.text.length] := hhead
    simp only [List.cons.injEq,and_true] at hcells
    have hcount : (buf (pos + 2)).toNat = g.text.length := by
      rw [hcells.2.2,UInt8.toNat_ofNat_of_lt' g.fits]
    have htext' : buf.slice (pos + 3) g.text.length = g.text := htext
    have hlength : g.bytes.length = 3 + g.text.length := by
      rw [NameSegment.bytes,length_append]
      rfl
    rw [hlength] at hrest
    rw [length_cons,nameSegments,hcount,ih _ _ hrest,htext',flatMap_cons,length_append,hlength,
      foldl_cons,NameSegment.record,hcells.1,Nat.add_assoc]

theorem value_nameStrings (ts : List NameString) (pos : Nat) (s : Service)
    (h : buf.slice pos (ts.flatMap NameString.bytes).length = ts.flatMap NameString.bytes) :
    nameStrings buf ts.length pos s = ts.foldl (fun s t => t.record s) s := by
  induction ts generalizing pos s with
  | nil => rfl
  | cons t ts ih =>
    rw [flatMap_cons] at h
    obtain ⟨hfirst,hrest⟩ := (Mem.slice_append_iff _ _ _ _).mp h
    rw [NameString.bytes] at hfirst hrest
    obtain ⟨hhead,hsegments⟩ := (Mem.slice_append_iff _ _ _ _).mp hfirst
    obtain ⟨-,hcount⟩ := (Mem.slice_append_iff _ _ _ _).mp hhead
    rw [length_append,t.length_lang] at hsegments
    rw [length_append,length_append,t.length_lang] at hrest
    rw [t.length_lang] at hcount
    have hcell : [buf (pos + 3)] = [UInt8.ofNat t.segments.length] := hcount
    have hcount' : (buf (pos + 3)).toNat = t.segments.length := by
      rw [List.singleton_inj.mp hcell,UInt8.toNat_ofNat_of_lt' t.fits]
    rw [length_cons,nameStrings,hcount',value_nameSegments t.segments (pos + 4) s hsegments,foldl_cons,
      NameString.record]
    exact ih _ _ (by rw [← Nat.add_assoc] at hrest; exact hrest)

theorem length_elements (es : List LocationElement) : (es.flatMap LocationElement.bytes).length = 6 * es.length := by
  induction es with
  | nil => rfl
  | cons e es ih =>
    rw [flatMap_cons,length_append,e.length_bytes,ih,length_cons]
    omega

theorem length_strings (ts : List NameString) : ts.length ≤ (ts.flatMap NameString.bytes).length := by
  induction ts with
  | nil => exact Nat.le_refl 0
  | cons t ts ih =>
    rw [flatMap_cons,length_append,length_cons,NameString.bytes,length_append,
      length_append,t.length_lang]
    omega

theorem value_descriptor (d : VctDescriptor) (h : buf.slice pos d.bytes.length = d.bytes) (s : Service) :
    (buf (pos + 1)).toNat = d.content.data.length ∧
      (if buf pos = 0xa1 then parseAtscServiceLocDesc buf pos s
        else if buf pos = 0xa0 then parseAtscExtChanNameDesc buf pos s else s) = d.record s := by
  obtain ⟨hhead,hdata⟩ := (Mem.slice_append_iff _ _ _ _).mp h
  have hcells : [buf pos, buf (pos + 1)] = [d.content.tag, UInt8.ofNat d.content.data.length] := hhead
  simp only [List.cons.injEq,and_true] at hcells
  refine ⟨by rw [hcells.2,UInt8.toNat_ofNat_of_lt' d.fits],?_⟩
  rw [hcells.1,VctDescriptor.record]
  have hfits := d.fits
  change buf.slice (pos + 2) d.content.data.length = d.content.data at hdata
  cases hcontent : d.content with
  | location reserved pcrPid elements hreserved hpid =>
    rw [hcontent] at hdata hfits
    obtain ⟨hhead,helements⟩ := (Mem.slice_append_iff _ _ _ _).mp hdata
    have hcount : elements.length < 256 := by
      rw [VctContent.data,length_append,length_elements] at hfits
      omega
    have hfields : [buf (pos + 2), buf (pos + 3), buf (pos + 4)] =
        [UInt8.ofNat (reserved * 32 + pcrPid / 256), UInt8.ofNat pcrPid, UInt8.ofNat elements.length] := hhead
    simp only [List.cons.injEq,and_true] at hfields
    have hnumber : getBits buf pos 32 8 = elements.length := by
      have hbits : getBits buf pos 32 8 = collect buf (pos + 4) 1 / 1 % 256 := getBits_eq buf pos 32 8
      rw [hbits,collect_one,hfields.2.2,UInt8.toNat_ofNat_of_lt' hcount]
      omega
    have hpcr : getBits buf pos 19 13 = pcrPid := by
      have hbits : getBits buf pos 19 13 = collect buf (pos + 2) 2 / 1 % 8192 := getBits_eq buf pos 19 13
      rw [hbits,collect_two,hfields.1,hfields.2.1,UInt8.toNat_ofNat',UInt8.toNat_ofNat']
      omega
    rw [if_pos (show VctContent.tag _ = 0xa1 from rfl),parseAtscServiceLocDesc,hnumber,hpcr]
    exact value_locationElements elements (pos + 5) _ helements
  | extendedName strings =>
    rw [hcontent] at hdata hfits
    have hcount : strings.length < 256 := by
      have hle := length_strings strings
      rw [VctContent.data,length_cons] at hfits
      omega
    obtain ⟨hfirst,hrest⟩ := List.cons.inj hdata
    have hnumber : (buf (pos + 2)).toNat = strings.length := by
      rw [hfirst,UInt8.toNat_ofNat_of_lt' hcount]
    have hother : ¬ (VctContent.extendedName strings).tag = 0xa1 := fun h => absurd h (by decide : (0xa0 : UInt8) ≠ 0xa1)
    rw [if_neg hother,if_pos (show VctContent.tag _ = 0xa0 from rfl),parseAtscExtChanNameDesc,hnumber]
    exact value_nameStrings strings (pos + 3) s hrest
  | other tag data hlocation hname =>
    exact (if_neg hlocation).trans (if_neg hname)

theorem value_psipDescriptors (ds : List VctDescriptor) (pos : Nat) (s : Service)
    (h : buf.slice pos (ds.flatMap VctDescriptor.bytes).length = ds.flatMap VctDescriptor.bytes) :
    parsePsipDescriptors buf pos (ds.flatMap VctDescriptor.bytes).length s = ds.foldl (fun s d => d.record s) s := by
  induction ds generalizing pos s with
  | nil =>
    rw [List.flatMap_nil,length_nil,parsePsipDescriptors]
    rfl
  | cons d ds ih =>
    rw [flatMap_cons] at h
    obtain ⟨hfirst,hrest⟩ := (Mem.slice_append_iff _ _ _ _).mp h
    obtain ⟨hlength,hrecord⟩ := value_descriptor d hfirst s
    have hbytes : d.bytes.length = 2 + d.content.data.length := by
      rw [VctDescriptor.bytes,length_append]
      rfl
    have hleft : d.bytes.length + (ds.flatMap VctDescriptor.bytes).length - (2 + d.content.data.length) =
        (ds.flatMap VctDescriptor.bytes).length := by
      rw [hbytes,Nat.add_sub_cancel_left]
    rw [flatMap_cons,length_append,parsePsipDescriptors,if_pos (by rw [hbytes]; omega),hlength,hrecord,
      foldl_cons]
    dsimp only
    rw [hleft,← hbytes]
    exact ih _ _ hrest

end Descriptors

end LinuxDvb.Scan.Tables
