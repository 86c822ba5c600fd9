import LinuxDvb.Framework.BitCodes
import LinuxDvb.Framework.Buffer
import LinuxDvb.Scan.Descriptors

/-!
# The services of a service description table

A well-formed table and what `parse_sdt` keeps of it. A service without descriptors ends the walk.
-/

namespace LinuxDvb.Scan.Tables

/-! ## Well-formed tables -/

structure Descriptor where
  tag : UInt8
  data : List UInt8
  fits : data.length < 256

def Descriptor.bytes (d : Descriptor) : List UInt8 := d.tag :: UInt8.ofNat d.data.length :: d.data

def loopBytes (ds : List Descriptor) : List UInt8 := ds.flatMap Descriptor.bytes

/-- An entry of the table; `eit` are the reserved bits and the two EIT flags. -/
structure SdtService where
  serviceId : UInt16
  eit : UInt8
  running : Nat
  running_lt : running < 8
  freeCa : Bool
  descriptors : List Descriptor
  fits : (loopBytes descriptors).length < 4096

def SdtService.bytes (e : SdtService) : List UInt8 :=
  be16 e.serviceId.toNat ++
    [e.eit, UInt8.ofNat (e.running * 32 + e.freeCa.toNat * 16 + (loopBytes e.descriptors).length / 256),
      UInt8.ofNat (loopBytes e.descriptors).length] ++ loopBytes e.descriptors

/-- What stands between the header and the crc: `original_network_id`, a reserved byte and the services. -/
def sdtBody (originalNetworkId : UInt16) (reserved : UInt8) (entries : List SdtService) : List UInt8 :=
  be16 originalNetworkId.toNat ++ [reserved] ++ entries.flatMap SdtService.bytes

def SdtService.Recorded (e : SdtService) (tp : Services) : Prop :=
  ∃ s ∈ tp.services, s.serviceId = e.serviceId.toNat ∧ s.running = e.running ∧ s.scrambled = e.freeCa

/-! ## Lists of services -/

section Lists

variable {s v : Service} {vs : List Service} {tp : Services}

theorem mem_putService_self : s ∈ putService s vs := by
  induction vs with
  | nil => exact mem_singleton_self s
  | cons v vs ih =>
    rw [putService]
    split
    · exact mem_cons_self
    · exact mem_cons_of_mem v ih

theorem mem_putService_of_ne (hv : v ∈ vs) (hne : v.serviceId ≠ s.serviceId) : v ∈ putService s vs := by
  induction vs with
  | nil => cases hv
  | cons w vs ih =>
    rw [putService]
    split
    case isTrue hw =>
      rcases mem_cons.mp hv with rfl | hv
      · exact absurd hw hne
      · exact mem_cons_of_mem s hv
    case isFalse =>
      rcases mem_cons.mp hv with rfl | hv
      · exact mem_cons_self
      · exact mem_cons_of_mem w (ih hv)

theorem eq_or_mem_of_mem_putService (hv : v ∈ putService s vs) : v = s ∨ v ∈ vs := by
  induction vs with
  | nil => exact Or.inl (mem_singleton.mp hv)
  | cons w vs ih =>
    rw [putService] at hv
    split at hv
    · rcases mem_cons.mp hv with h | h
      · exact Or.inl h
      · exact Or.inr (mem_cons_of_mem w h)
    · rcases mem_cons.mp hv with rfl | h
      · exact Or.inr mem_cons_self
      · rcases ih h with h | h
        · exact Or.inl h
        · exact Or.inr (mem_cons_of_mem w h)

theorem findOrAlloc_serviceId (tp : Services) (serviceId : Nat) : (tp.findOrAlloc serviceId).serviceId = serviceId := by
  rw [Services.findOrAlloc]
  cases h : tp.find serviceId with
  | none => rfl
  | some s =>
    have hid := find?_some h
    exact of_decide_eq_true hid

end Lists

/-! ## One entry -/

section Entry

variable {σ : Type} {switch : UInt8 → Nat → σ → Logged Access σ} {buf : Mem UInt8} {pos loopLen : Nat} {s : σ}

theorem value_parseDescriptors (h : 0 < loopLen) (hlen : ¬ buf (pos + 1) + 2 = 0) :
    (parseDescriptors switch buf pos loopLen s).value =
      (parseDescriptors switch buf (pos + (buf (pos + 1) + 2).toNat) (loopLen - (buf (pos + 1) + 2).toNat)
        (switch (buf pos) pos s).value).value := by
  rw [parseDescriptors,if_pos h]
  simp only [readByte,Logged.value_one_bind,if_neg hlen]
  rfl

theorem parseDescriptors_keeps {τ : Type} (f : σ → τ) (hswitch : ∀ tag pos s, f (switch tag pos s).value = f s)
    (pos loopLen : Nat) (s : σ) : f (parseDescriptors switch buf pos loopLen s).value = f s := by
  induction loopLen using Nat.strongRecOn generalizing pos s with
  | ind loopLen ih =>
    rcases Nat.eq_zero_or_pos loopLen with rfl | hpos
    · rw [parseDescriptors,if_neg (Nat.lt_irrefl 0)]
      rfl
    · by_cases hlen : buf (pos + 1) + 2 = 0
      · rw [parseDescriptors,if_pos hpos]
        simp only [readByte,Logged.value_one_bind,if_pos hlen]
        rfl
      · have hne : (buf (pos + 1) + 2).toNat ≠ 0 := fun h => hlen (UInt8.toNat_inj.mp h)
        rw [value_parseDescriptors hpos hlen,ih _ (by omega),hswitch]

theorem sdtSwitch_keeps (buf : Mem UInt8) (tag : UInt8) (pos : Nat) (s : Service) :
    ((sdtSwitch buf tag pos s).value.serviceId, (sdtSwitch buf tag pos s).value.running,
      (sdtSwitch buf tag pos s).value.scrambled) = (s.serviceId, s.running, s.scrambled) := by
  rw [sdtSwitch]
  split
  · rfl
  · split
    · rfl
    · rfl

theorem word16_be16 {n : Nat} (hn : n < 65536) : word16 (UInt8.ofNat (n / 256)) (UInt8.ofNat n) = n := by
  have hlow : (UInt8.ofNat n).toNat < 2 ^ 8 := UInt8.toNat_lt _
  rw [word16,← Nat.shiftLeft_add_eq_or_of_lt hlow,Nat.shiftLeft_eq,UInt8.toNat_ofNat',UInt8.toNat_ofNat']
  omega

theorem state_fields (b : UInt8) : (b &&& 0x0f).toNat = b.toNat % 16 ∧ ((b >>> 5) &&& 0x7).toNat = b.toNat / 32 ∧
    decide ((b >>> 4) &&& 1 ≠ 0) = decide (b.toNat / 16 % 2 = 1) := by
  revert b
  exact BitCodes.forall_byte (by decide +kernel)

theorem word12_eq (high low : UInt8) : word12 high low = high.toNat % 16 * 256 + low.toNat := by
  have hlow : low.toNat < 2 ^ 8 := low.toNat_lt
  rw [word12,← Nat.shiftLeft_add_eq_or_of_lt hlow,Nat.shiftLeft_eq,(state_fields high).1]

variable {e : SdtService}

theorem SdtService.length_bytes (e : SdtService) : e.bytes.length = (loopBytes e.descriptors).length + 5 := by
  rw [SdtService.bytes,length_append,length_append,length_be16]
  exact Nat.add_comm _ _

theorem SdtService.header (hbytes : buf.slice pos e.bytes.length = e.bytes) :
    word16 (buf pos) (buf (pos + 1)) = e.serviceId.toNat ∧
      word12 (buf (pos + 3)) (buf (pos + 4)) = (loopBytes e.descriptors).length ∧
      ((buf (pos + 3) >>> 5) &&& 0x7).toNat = e.running ∧
      decide ((buf (pos + 3) >>> 4) &&& 1 ≠ 0) = e.freeCa := by
  have hfits := e.fits
  have hrunning := e.running_lt
  have hca : e.freeCa.toNat < 2 := Bool.toNat_lt e.freeCa
  have hcell (i : Nat) (hi : i < e.bytes.length) : e.bytes[i]? = some (buf (pos + i)) :=
    Mem.apply_of_slice_eq hbytes hi
  rw [e.length_bytes] at hcell
  have h0 : UInt8.ofNat (e.serviceId.toNat / 256) = buf pos := some_inj.mp (hcell 0 (by omega))
  have h1 : UInt8.ofNat e.serviceId.toNat = buf (pos + 1) := some_inj.mp (hcell 1 (by omega))
  have h3 : UInt8.ofNat (e.running * 32 + e.freeCa.toNat * 16 + (loopBytes e.descriptors).length / 256) =
      buf (pos + 3) := some_inj.mp (hcell 3 (by omega))
  have h4 : UInt8.ofNat (loopBytes e.descriptors).length = buf (pos + 4) := some_inj.mp (hcell 4 (by omega))
  have hstate : (buf (pos + 3)).toNat =
      e.running * 32 + e.freeCa.toNat * 16 + (loopBytes e.descriptors).length / 256 := by
    rw [← h3,UInt8.toNat_ofNat']
    omega
  refine ⟨?_,?_,?_,?_⟩
  · rw [← h0,← h1]
    exact word16_be16 e.serviceId.toNat_lt
  · rw [word12_eq,hstate,← h4,UInt8.toNat_ofNat']
    omega
  · rw [(state_fields _).2.1,hstate]
    omega
  · rw [(state_fields _).2.2,hstate]
    cases hfree : e.freeCa with
    | false =>
      rw [decide_eq_false_iff_not,Bool.toNat_false]
      omega
    | true =>
      rw [decide_eq_true_iff,Bool.toNat_true]
      omega

theorem loopBytes_ne_nil {ds : List Descriptor} (h : ds ≠ []) : 0 < (loopBytes ds).length := by
  cases ds with
  | nil => exact absurd rfl h
  | cons d ds =>
    rw [loopBytes,flatMap_cons,length_append,Descriptor.bytes,length_cons]
    omega

theorem value_sdtLoop_empty (hbytes : buf.slice pos e.bytes.length = e.bytes) (hempty : e.descriptors = [])
    (sectionLength : Int) (tp : Services) : (sdtLoop buf pos sectionLength tp).value = tp := by
  obtain ⟨-,hloop,-,-⟩ := e.header hbytes
  have hzero : word12 (buf (pos + 3)) (buf (pos + 4)) = 0 := by
    rw [hloop,hempty]
    rfl
  rw [sdtLoop]
  split
  · simp only [readByte,Logged.value_one_bind]
    rw [if_pos (Or.inr hzero)]
    rfl
  · rfl

theorem value_sdtLoop_entry (hbytes : buf.slice pos e.bytes.length = e.bytes) (hdescriptors : e.descriptors ≠ [])
    {sectionLength : Int} (hlength : e.bytes.length ≤ sectionLength) (tp : Services) :
    ∃ s : Service, s.serviceId = e.serviceId.toNat ∧ s.running = e.running ∧ s.scrambled = e.freeCa ∧
      (sdtLoop buf pos sectionLength tp).value =
        (sdtLoop buf (pos + e.bytes.length) (sectionLength - e.bytes.length) (tp.put s)).value := by
  obtain ⟨hid,hloop,hrunning,hfree⟩ := e.header hbytes
  have hpos := loopBytes_ne_nil hdescriptors
  have hbytes' := e.length_bytes
  have hcheck : ¬ (sectionLength < word12 (buf (pos + 3)) (buf (pos + 4)) ∨ word12 (buf (pos + 3)) (buf (pos + 4)) = 0) := by
    rw [hloop]
    omega
  let s0 : Service := { tp.findOrAlloc e.serviceId.toNat with
    running := e.running
    scrambled := e.freeCa }
  let s := (parseDescriptors (sdtSwitch buf) buf (pos + 5) (loopBytes e.descriptors).length s0).value
  have hkeeps : (s.serviceId, s.running, s.scrambled) = (s0.serviceId, s0.running, s0.scrambled) :=
    parseDescriptors_keeps (fun s : Service => (s.serviceId, s.running, s.scrambled)) (sdtSwitch_keeps buf) _ _ s0
  rw [Prod.mk.injEq,Prod.mk.injEq] at hkeeps
  refine ⟨s,hkeeps.1.trans (findOrAlloc_serviceId tp _),hkeeps.2.1,hkeeps.2.2,?_⟩
  rw [sdtLoop,if_pos (by omega)]
  simp only [readByte,Logged.value_one_bind]
  rw [if_neg hcheck,Logged.value_bind,hid,hloop,hrunning,hfree,← hbytes']

end Entry

/-! ## Tables -/

section Table

variable {buf : Mem UInt8} {pos : Nat} {sectionLength : Int} {tp : Services} {e : SdtService}
  {entries : List SdtService}

def ids (entries : List SdtService) : List Nat := entries.map fun e => e.serviceId.toNat

theorem sdtLoop_records (hbytes : buf.slice pos (entries.flatMap SdtService.bytes).length = entries.flatMap SdtService.bytes)
    (hlength : sectionLength = (entries.flatMap SdtService.bytes).length + 3)
    (hdescriptors : ∀ e ∈ entries, e.descriptors ≠ []) (hunique : (ids entries).Nodup) :
    (∀ s ∈ tp.services, s.serviceId ∉ ids entries → s ∈ (sdtLoop buf pos sectionLength tp).value.services) ∧
      ∀ e ∈ entries, e.Recorded (sdtLoop buf pos sectionLength tp).value := by
  induction entries generalizing pos sectionLength tp with
  | nil =>
    have hend : (sdtLoop buf pos sectionLength tp).value = tp := by
      rw [sdtLoop,if_neg (by rw [hlength]; decide)]
      rfl
    rw [hend]
    exact ⟨fun s hs _ => hs,fun e he => absurd he not_mem_nil⟩
  | cons e entries ih =>
    rw [flatMap_cons] at hbytes hlength
    rw [ids,map_cons,nodup_cons] at hunique
    obtain ⟨hfirst,hrest⟩ := (Mem.slice_append_iff _ _ _ _).mp hbytes
    rw [length_append] at hlength
    have hfits : (e.bytes.length : Int) ≤ sectionLength := by omega
    obtain ⟨s,hid,hrunning,hfree,hvalue⟩ :=
      value_sdtLoop_entry hfirst (hdescriptors e mem_cons_self) hfits tp
    have hleft : sectionLength - e.bytes.length = (entries.flatMap SdtService.bytes).length + 3 := by
      omega
    rw [hvalue]
    obtain ⟨hkeeps,hrecords⟩ :=
      ih hrest hleft (fun e' he' => hdescriptors e' (mem_cons_of_mem e he')) hunique.2
    refine ⟨fun v hv hnot => ?_,fun e' he' => ?_⟩
    · rw [ids,map_cons,mem_cons,not_or] at hnot
      refine hkeeps v (mem_putService_of_ne hv ?_) hnot.2
      rw [hid]
      exact hnot.1
    · rcases mem_cons.mp he' with rfl | he'
      · refine ⟨s,hkeeps s mem_putService_self ?_,hid,hrunning,hfree⟩
        rw [hid]
        exact hunique.1
      · exact hrecords e' he'

theorem sdtLoop_stops {post : List SdtService} (hempty : e.descriptors = [])
    (hbytes : buf.slice pos ((entries ++ e :: post).flatMap SdtService.bytes).length =
      (entries ++ e :: post).flatMap SdtService.bytes)
    (hlength : sectionLength = ((entries ++ e :: post).flatMap SdtService.bytes).length + 3) (s : Service)
    (hs : s ∈ (sdtLoop buf pos sectionLength tp).value.services) : s ∈ tp.services ∨ s.serviceId ∈ ids entries := by
  induction entries generalizing pos sectionLength tp with
  | nil =>
    rw [nil_append,flatMap_cons] at hbytes
    rw [value_sdtLoop_empty ((Mem.slice_append_iff _ _ _ _).mp hbytes).1 hempty] at hs
    exact Or.inl hs
  | cons e' entries ih =>
    rw [cons_append,flatMap_cons] at hbytes hlength
    obtain ⟨hfirst,hrest⟩ := (Mem.slice_append_iff _ _ _ _).mp hbytes
    rw [length_append] at hlength
    by_cases hdescriptors : e'.descriptors = []
    · rw [value_sdtLoop_empty hfirst hdescriptors] at hs
      exact Or.inl hs
    · have hfits : (e'.bytes.length : Int) ≤ sectionLength := by omega
      obtain ⟨s',hid,-,-,hvalue⟩ := value_sdtLoop_entry hfirst hdescriptors hfits tp
      rw [hvalue] at hs
      rw [ids,map_cons,mem_cons]
      rcases ih hrest (by omega) hs with h | h
      · rcases eq_or_mem_of_mem_putService h with rfl | h
        · exact Or.inr (Or.inl hid)
        · exact Or.inl h
      · exact Or.inr (Or.inr h)

end Table

theorem parseSdt_records_iff {buf : Mem UInt8} {pos : Nat} (originalNetworkId : UInt16) (reserved : UInt8)
    {entries : List SdtService} (hunique : (ids entries).Nodup)
    (hbytes : buf.slice pos (sdtBody originalNetworkId reserved entries).length =
      sdtBody originalNetworkId reserved entries) :
    (∀ tp : Services, ∀ e ∈ entries, e.Recorded
      (parseSdt buf pos (sdtBody originalNetworkId reserved entries).length tp).value) ↔
      ∀ e ∈ entries, e.descriptors ≠ [] := by
  obtain ⟨-,hservices⟩ := (Mem.slice_append_iff _ _ _ _).mp hbytes
  have hlength : ((sdtBody originalNetworkId reserved entries).length : Int) =
      (entries.flatMap SdtService.bytes).length + 3 := by
    rw [sdtBody,length_append,length_append,length_be16,Int.natCast_add]
    exact Int.add_comm _ _
  constructor
  · intro h e he hempty
    obtain ⟨pre,post,rfl⟩ := append_of_mem he
    obtain ⟨s,hs,hid,-⟩ := h ⟨0,[]⟩ e he
    rw [ids,map_append,map_cons,nodup_append] at hunique
    rcases sdtLoop_stops hempty hservices hlength s hs with h | h
    · cases h
    · exact hunique.2.2 _ h _ mem_cons_self hid
  · exact fun h tp => (sdtLoop_records hservices hlength h hunique).2

end LinuxDvb.Scan.Tables
