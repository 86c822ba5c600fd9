import LinuxDvb.Scan.SdtRecords

/-!
# What the table parsers of scan read and write

The bytes that a descriptor parser reads lie inside the section just when the lengths which stand in the section say
so; nothing in the parsers checks them.
-/

namespace LinuxDvb.Scan.Tables

/-! ## Accesses -/

/-- Reads lie in front of `stop`. -/
def InSection (stop : Nat) : Access → Prop
  | .read pos => pos < stop
  | .visit _ => True
  | .write _ _ => True

def InArray : Access → Prop
  | .write array i => i < array.size
  | .visit _ => True
  | .read _ => True

def Contained : Access → Prop
  | .write array i => i < array.size
  | .visit _ => False
  | .read _ => True

theorem Contained.inArray {e : Access} (h : Contained e) : InArray e := by
  cases e with
  | write array i => exact h
  | visit pos => trivial
  | read pos => trivial

theorem inArray_of_contained {α : Type} {m : Logged Access α} (h : Logged.All Contained m) : Logged.All InArray m :=
  h.imp fun _ => Contained.inArray

section Pieces

variable {stop pos len : Nat} {buf : Mem UInt8}

theorem copyBytes_inSection : Logged.All (InSection stop) (copyBytes buf pos len) ↔ len = 0 ∨ pos + len ≤ stop := by
  constructor
  · intro h
    rcases Nat.eq_zero_or_pos len with hzero | hpos
    · exact Or.inl hzero
    · have hlast : pos + (len - 1) < stop :=
        h (.read (pos + (len - 1))) (mem_map_of_mem (mem_range.mpr (by omega)))
      omega
  · intro h e he
    obtain ⟨i,hi,rfl⟩ := mem_map.mp he
    have hi' := mem_range.mp hi
    change pos + i < stop
    omega

theorem readAll_inSection {places : List Nat} :
    Logged.All (InSection stop) (readAll pos places) ↔ ∀ i ∈ places, pos + i < stop := List.forall_mem_map

theorem message_inSection {o : Options} {level : Nat} {places : List Nat} :
    Logged.All (InSection stop) (message o level pos places) ↔ (o.verbosity ≥ level → ∀ i ∈ places, pos + i < stop) := by
  rw [message]
  split
  case isTrue hverbose => exact readAll_inSection.trans ⟨fun h _ => h,fun h => h hverbose⟩
  case isFalse hquiet => exact ⟨fun _ h => absurd h hquiet,fun _ => Logged.all_pure _⟩

theorem writeAll_inSection {array : TableArray} {first n : Nat} :
    Logged.All (InSection stop) (writeAll array first n) := by
  intro e he
  obtain ⟨i,-,rfl⟩ := mem_map.mp he
  trivial

theorem readByte_contained : Logged.All Contained (readByte buf pos) := (Logged.all_one _ _).mpr trivial

theorem copyBytes_contained : Logged.All Contained (copyBytes buf pos len) := by
  intro e he
  obtain ⟨i,-,rfl⟩ := mem_map.mp he
  trivial

theorem readAll_contained {places : List Nat} : Logged.All Contained (readAll pos places) := by
  intro e he
  obtain ⟨i,-,rfl⟩ := mem_map.mp he
  trivial

theorem writeAll_contained {array : TableArray} {first n : Nat} (h : first + n ≤ array.size) :
    Logged.All Contained (writeAll array first n) := by
  intro e he
  obtain ⟨i,hi,rfl⟩ := mem_map.mp he
  have hi' := mem_range.mp hi
  change first + i < array.size
  omega

/-- The bytes of a string up to its length, and none behind a zero, lie inside the section. -/
def StringFits (stop : Nat) (buf : Mem UInt8) : Nat → Nat → Prop
  | _, 0 => True
  | pos, len + 1 => pos < stop ∧ (buf pos ≠ 0 → StringFits stop buf (pos + 1) len)

theorem printString_inSection (pos len : Nat) :
    Logged.All (InSection stop) (printString buf pos len) ↔ StringFits stop buf pos len := by
  induction len generalizing pos with
  | zero => exact ⟨fun _ => trivial,fun _ => Logged.all_pure _⟩
  | succ len ih =>
    rw [printString,readByte,Logged.all_one_bind,StringFits]
    refine and_congr Iff.rfl ?_
    split
    case isTrue hzero => exact ⟨fun _ h => absurd hzero h,fun _ => Logged.all_pure _⟩
    case isFalse hne =>
      rw [ih]
      exact ⟨fun h _ => h,fun h => h hne⟩

end Pieces

/-! ## Descriptors -/

def ServiceFits (stop : Nat) (buf : Mem UInt8) (pos : Nat) : Prop :=
  pos + 4 + (buf (pos + 3)).toNat < stop ∧
    pos + 5 + (buf (pos + 3)).toNat + (buf (pos + 4 + (buf (pos + 3)).toNat)).toNat ≤ stop

def CaFits (stop : Nat) (buf : Mem UInt8) (pos : Nat) : Prop :=
  pos + 1 < stop ∧ ((buf (pos + 1)).toNat = 0 ∨ pos + 2 + min (buf (pos + 1)).toNat 32 ≤ stop)

def LanguageFits (stop : Nat) (o : Options) (buf : Mem UInt8) (pos : Nat) : Prop :=
  pos + 1 < stop ∧ (buf (pos + 1) ≥ 4 → pos + 5 ≤ stop ∧ (o.verbosity ≥ 5 → pos + 5 < stop))

section Service

variable {stop pos : Nat} {buf : Mem UInt8} {s : Service} {o : Options}

theorem parseServiceDescriptor_inSection :
    Logged.All (InSection stop) (parseServiceDescriptor buf pos s) ↔ ServiceFits stop buf pos := by
  rw [parseServiceDescriptor,readByte,Logged.all_one_bind,readByte,Logged.all_one_bind,Logged.all_bind,
    copyBytes_inSection,readByte,Logged.all_one_bind,Logged.all_bind,copyBytes_inSection,ServiceFits]
  simp only [InSection,Logged.all_pure,and_true]
  omega

theorem parseCaIdentifierDescriptor_inSection :
    Logged.All (InSection stop) (parseCaIdentifierDescriptor buf pos s) ↔ CaFits stop buf pos := by
  have hmin : (if (buf (pos + 1)).toNat > TableArray.caId.size then TableArray.caId.size else (buf (pos + 1)).toNat) =
      min (buf (pos + 1)).toNat 32 := by
    change (if (buf (pos + 1)).toNat > 32 then 32 else (buf (pos + 1)).toNat) = _
    split <;> omega
  rw [parseCaIdentifierDescriptor,readByte,Logged.all_one_bind,hmin,Logged.all_bind,copyBytes_inSection,CaFits]
  simp only [InSection,Logged.all_bind,writeAll_inSection,Logged.all_pure,and_true]
  omega

theorem parseIso639_inSection :
    Logged.All (InSection stop) (parseIso639LanguageDescriptor o buf pos s) ↔ LanguageFits stop o buf pos := by
  rw [parseIso639LanguageDescriptor,readByte,Logged.all_one_bind,LanguageFits]
  refine and_congr Iff.rfl ?_
  split
  case isTrue hlong =>
    rw [Logged.all_bind,message_inSection,Logged.all_bind,copyBytes_inSection,Logged.all_bind,forall_mem_singleton]
    simp only [writeAll_inSection,Logged.all_pure,and_true]
    constructor
    · rintro ⟨hverbose,h⟩ -
      exact ⟨by omega,hverbose⟩
    · intro h
      obtain ⟨hcopy,hverbose⟩ := h hlong
      exact ⟨hverbose,by omega⟩
  case isFalse hshort => exact ⟨fun _ h => absurd h hshort,fun _ => Logged.all_pure _⟩

end Service

/-- What the parsers of a network table depend on: whether there is a transponder, and whether it has its list of other
frequencies. -/
structure NitKnown where
  inside : Bool
  listed : Bool

def NitState.known (s : NitState) : NitKnown where
  inside := s.transponder.isSome
  listed := s.transponder.any fun t => t.otherF ≠ []

def listLength (buf : Mem UInt8) (pos : Nat) : Nat := ((buf (pos + 1)).toNat - 1) / 4

def NitFits (stop : Nat) (o : Options) (buf : Mem UInt8) (tag : UInt8) (pos : Nat) (k : NitKnown) : Prop :=
  if tag = 0x40 then pos + 1 < stop ∧ (o.verbosity ≥ 2 → StringFits stop buf (pos + 2) (buf (pos + 1)).toNat)
  else if tag = 0x43 ∨ tag = 0x44 then k.inside = true → pos + 12 < stop
  else if tag = 0x5a then k.inside = true → pos + 8 < stop
  else if tag = 0x62 then
    k.inside = true → k.listed = false → pos + 1 < stop ∧
      (1 ≤ listLength buf pos → pos + 2 < stop ∧ (buf (pos + 2) &&& 0x03 = 3 → pos + 3 + 4 * listLength buf pos ≤ stop))
  else if tag = 0x83 ∧ o.vdrDumpChannum then
    pos + 1 < stop ∧ ((buf (pos + 1)).toNat / 4 = 0 ∨ pos + 2 + 4 * ((buf (pos + 1)).toNat / 4) ≤ stop)
  else True

def NitKnown.next (buf : Mem UInt8) (tag : UInt8) (pos : Nat) (k : NitKnown) : NitKnown :=
  if tag = 0x62 ∧ k.inside ∧ 1 ≤ listLength buf pos ∧ buf (pos + 2) &&& 0x03 = 3 then { k with listed := true } else k

section Network

variable {stop pos : Nat} {buf : Mem UInt8} {s : NitState} {o : Options} {places : List Nat}
  {parse : Mem UInt8 → Transponder → Transponder}

theorem withTransponder_inSection : Logged.All (InSection stop) (withTransponder places parse buf pos s) ↔
      (s.known.inside = true → ∀ i ∈ places, pos + i < stop) := by
  rw [withTransponder,NitState.known]
  cases s.transponder with
  | none => exact ⟨fun _ h => absurd h (by decide),fun _ => Logged.all_pure _⟩
  | some t =>
    rw [Logged.all_bind,readAll_inSection]
    simp

theorem withTransponder_known (hparse : ∀ buf t, (parse buf t).otherF = t.otherF) :
    (withTransponder places parse buf pos s).value.known = s.known := by
  rw [withTransponder]
  cases h : s.transponder with
  | none => rfl
  | some t =>
    rw [NitState.known,NitState.known,h]
    simp [hparse]

theorem frequencyListDescriptor_inSection : Logged.All (InSection stop) (frequencyListDescriptor buf pos s) ↔
      (s.known.inside = true → s.known.listed = false → pos + 1 < stop ∧ (1 ≤ listLength buf pos → pos + 2 < stop ∧
          (buf (pos + 2) &&& 0x03 = 3 → pos + 3 + 4 * listLength buf pos ≤ stop))) := by
  rw [frequencyListDescriptor,NitState.known,listLength]
  cases s.transponder with
  | none => exact ⟨fun _ h => absurd h (by decide),fun _ => Logged.all_pure _⟩
  | some t =>
    dsimp only
    by_cases hlisted : t.otherF ≠ []
    · refine ⟨fun _ _ h => absurd (h.symm.trans (decide_eq_true hlisted)) Bool.false_ne_true,fun _ => ?_⟩
      rw [if_pos hlisted]
      exact Logged.all_pure _
    · have hopen : (some t).any (fun t => t.otherF ≠ []) = false := decide_eq_false hlisted
      rw [if_neg hlisted,hopen,readByte,Logged.all_one_bind,Option.isSome_some,eq_self,eq_self,true_imp_iff,
        true_imp_iff]
      refine and_congr Iff.rfl ?_
      by_cases hshort : ((buf (pos + 1)).toNat - 1) / 4 < 1
      · rw [if_pos hshort]
        exact ⟨fun _ h => absurd h (by omega),fun _ => Logged.all_pure _⟩
      · rw [if_neg hshort,readByte,Logged.all_one_bind]
        by_cases hkind : buf (pos + 2) &&& 0x03 = 3
        · rw [if_neg (not_not_intro hkind),Logged.all_bind,copyBytes_inSection]
          simp only [InSection,Logged.all_bind,writeAll_inSection,Logged.all_pure,and_true,hkind,true_imp_iff]
          omega
        · rw [if_pos hkind]
          simp only [InSection,Logged.all_pure,hkind,false_imp_iff,and_true]
          omega

theorem frequencyListDescriptor_known :
    (frequencyListDescriptor buf pos s).value.known = NitKnown.next buf 0x62 pos s.known := by
  rw [frequencyListDescriptor,NitKnown.next,listLength]
  cases htransponder : s.transponder with
  | none =>
    have houtside : s.known.inside = false := by rw [NitState.known,htransponder,isSome_none]
    rw [if_neg]
    · rfl
    · rintro ⟨-,h,-⟩
      rw [houtside] at h
      exact Bool.false_ne_true h
  | some t =>
    dsimp only
    have hinside : s.known.inside = true := by rw [NitState.known,htransponder,Option.isSome_some]
    by_cases hlisted : t.otherF ≠ []
    · have hknown : s.known.listed = true := by
        rw [NitState.known,htransponder]
        exact decide_eq_true hlisted
      rw [if_pos hlisted]
      split
      · rw [← hknown]
        rfl
      · rfl
    · rw [if_neg hlisted,readByte,Logged.value_one_bind]
      by_cases hshort : ((buf (pos + 1)).toNat - 1) / 4 < 1
      · rw [if_pos hshort,if_neg]
        · rfl
        · rintro ⟨-,-,h,-⟩
          omega
      · rw [if_neg hshort,readByte,Logged.value_one_bind]
        by_cases hkind : buf (pos + 2) &&& 0x03 = 3
        · rw [if_neg (not_not_intro hkind),if_pos ⟨rfl,hinside,by omega,hkind⟩]
          have hfrequencies : (parseFrequencyListDescriptor (buf.shift pos) t).otherF ≠ [] := by
            have hlong : ¬ (((buf.shift pos) 1).toNat - 1) / 4 < 1 := hshort
            rw [parseFrequencyListDescriptor,if_neg hlisted,if_neg (by rintro (h | h) <;> contradiction)]
            rw [ne_eq,map_eq_nil_iff,List.range_eq_nil]
            omega
          rw [Logged.value_bind,Logged.value_bind,Logged.value_pure,NitState.known,hinside]
          simp [hfrequencies]
        · rw [if_pos hkind,if_neg]
          · rfl
          · rintro ⟨-,-,-,h⟩
            exact hkind h

theorem parseNetworkNameDescriptor_inSection : Logged.All (InSection stop) (parseNetworkNameDescriptor o buf pos) ↔
      pos + 1 < stop ∧ (o.verbosity ≥ 2 → StringFits stop buf (pos + 2) (buf (pos + 1)).toNat) := by
  rw [parseNetworkNameDescriptor,readByte,Logged.all_one_bind]
  refine and_congr Iff.rfl ?_
  split
  case isTrue hverbose =>
    rw [printString_inSection]
    exact ⟨fun h _ => h,fun h => h hverbose⟩
  case isFalse hquiet => exact ⟨fun _ h => absurd h hquiet,fun _ => Logged.all_pure _⟩

theorem parseTerrestrialUkChannelNumber_inSection :
    Logged.All (InSection stop) (parseTerrestrialUkChannelNumber buf pos s) ↔
      pos + 1 < stop ∧ ((buf (pos + 1)).toNat / 4 = 0 ∨ pos + 2 + 4 * ((buf (pos + 1)).toNat / 4) ≤ stop) := by
  rw [parseTerrestrialUkChannelNumber,readByte,Logged.all_one_bind,Logged.all_bind,copyBytes_inSection]
  simp only [InSection,Logged.all_pure,and_true]
  omega

theorem nitSwitch_inSection (o : Options) (tag : UInt8) (pos : Nat) (s : NitState) :
    Logged.All (InSection stop) (nitSwitch o buf tag pos s) ↔ NitFits stop o buf tag pos s.known := by
  rw [nitSwitch,NitFits]
  by_cases hname : tag = 0x40
  · rw [if_pos hname,if_pos hname,Logged.all_bind,parseNetworkNameDescriptor_inSection]
    exact ⟨And.left,fun h => ⟨h,Logged.all_pure _⟩⟩
  rw [if_neg hname,if_neg hname]
  by_cases hsatellite : tag = 0x43
  · rw [if_pos hsatellite,if_pos (Or.inl hsatellite),satelliteDescriptor,withTransponder_inSection]
    refine imp_congr_right fun _ => ⟨fun h => h 12 (by decide),fun h i hi => ?_⟩
    have hle : i ≤ 12 := (by decide : ∀ i ∈ [2, 3, 4, 5, 12, 9, 10, 11, 12, 8, 6, 7, 8], i ≤ 12) i hi
    omega
  rw [if_neg hsatellite]
  by_cases hcable : tag = 0x44
  · rw [if_pos hcable,if_pos (Or.inr hcable),cableDescriptor,withTransponder_inSection]
    refine imp_congr_right fun _ => ⟨fun h => h 12 (by decide),fun h i hi => ?_⟩
    have hle : i ≤ 12 := (by decide : ∀ i ∈ [2, 3, 4, 5, 12, 9, 10, 11, 12, 8, 8], i ≤ 12) i hi
    omega
  rw [if_neg hcable,if_neg (not_or.mpr ⟨hsatellite,hcable⟩)]
  by_cases hterrestrial : tag = 0x5a
  · rw [if_pos hterrestrial,if_pos hterrestrial,terrestrialDescriptor,withTransponder_inSection]
    refine imp_congr_right fun _ => ⟨fun h => h 8 (by decide),fun h i hi => ?_⟩
    have hle : i ≤ 8 := (by decide : ∀ i ∈ [2, 3, 4, 5, 6, 7, 7, 7, 8, 8, 8, 8], i ≤ 8) i hi
    omega
  rw [if_neg hterrestrial,if_neg hterrestrial]
  by_cases hlist : tag = 0x62
  · rw [if_pos hlist,if_pos hlist,frequencyListDescriptor_inSection]
  rw [if_neg hlist,if_neg hlist]
  by_cases huk : tag = 0x83 ∧ o.vdrDumpChannum
  · rw [if_pos huk,if_pos huk,parseTerrestrialUkChannelNumber_inSection]
  · rw [if_neg huk,if_neg huk]
    exact ⟨fun _ => trivial,fun _ => Logged.all_pure _⟩

theorem nitSwitch_known (o : Options) (tag : UInt8) (pos : Nat) (s : NitState) :
    (nitSwitch o buf tag pos s).value.known = s.known.next buf tag pos := by
  by_cases hlist : tag = 0x62
  · rw [hlist]
    exact frequencyListDescriptor_known
  · rw [NitKnown.next,if_neg (fun h => hlist h.1),nitSwitch]
    split_ifs
    · rfl
    · exact withTransponder_known fun _ _ => rfl
    · exact withTransponder_known fun _ _ => rfl
    · exact withTransponder_known fun _ _ => rfl
    · rfl
    · rfl

end Network

/-! ## Loops -/

/-- The headers and the contents of all descriptors that are visited lie inside the section. `k` is what the contents
depend on. -/
def LoopFits {τ : Type} (fits : UInt8 → Nat → τ → Prop) (next : UInt8 → Nat → τ → τ) (stop : Nat) (buf : Mem UInt8)
    (pos loopLen : Nat) (k : τ) : Prop :=
  0 < loopLen → pos + 1 < stop ∧
    (¬ buf (pos + 1) + 2 = 0 → fits (buf pos) pos k ∧
      LoopFits fits next stop buf (pos + (buf (pos + 1) + 2).toNat) (loopLen - (buf (pos + 1) + 2).toNat)
        (next (buf pos) pos k))
termination_by loopLen
decreasing_by
  rename_i hpos hne
  have : (buf (pos + 1) + 2).toNat ≠ 0 := fun hzero => hne (UInt8.toNat_inj.mp hzero)
  omega

def FindFits (stop : Nat) (tag : UInt8) (buf : Mem UInt8) (pos loopLen : Nat) : Prop :=
  0 < loopLen → pos + 1 < stop ∧
    (¬ buf (pos + 1) + 2 = 0 → tag ≠ buf pos →
      FindFits stop tag buf (pos + (buf (pos + 1) + 2).toNat) (loopLen - (buf (pos + 1) + 2).toNat))
termination_by loopLen
decreasing_by
  rename_i hpos hne _
  have : (buf (pos + 1) + 2).toNat ≠ 0 := fun hzero => hne (UInt8.toNat_inj.mp hzero)
  omega

section Loops

variable {σ τ : Type} {switch : UInt8 → Nat → σ → Logged Access σ} {fits : UInt8 → Nat → τ → Prop}
  {next : UInt8 → Nat → τ → τ} {buf : Mem UInt8} {stop pos loopLen : Nat} {s : σ} {tag : UInt8} {p : Access → Prop}

theorem length_ne_zero (h : ¬ buf (pos + 1) + 2 = 0) : 0 < (buf (pos + 1) + 2).toNat :=
  Nat.pos_of_ne_zero fun hzero => h (UInt8.toNat_inj.mp hzero)

theorem all_parseDescriptors_end : Logged.All p (parseDescriptors switch buf pos 0 s) := by
  rw [parseDescriptors,if_neg (Nat.lt_irrefl 0)]
  exact Logged.all_pure _

theorem all_parseDescriptors_zero (h : 0 < loopLen) (hlen : buf (pos + 1) + 2 = 0) :
    Logged.All p (parseDescriptors switch buf pos loopLen s) ↔ p (.read pos) ∧ p (.read (pos + 1)) := by
  rw [parseDescriptors,if_pos h]
  simp only [readByte,Logged.all_one_bind,if_pos hlen,Logged.all_pure,and_true]

theorem all_parseDescriptors_step (h : 0 < loopLen) (hlen : ¬ buf (pos + 1) + 2 = 0) :
    Logged.All p (parseDescriptors switch buf pos loopLen s) ↔
      p (.read pos) ∧ p (.read (pos + 1)) ∧ p (.visit pos) ∧ Logged.All p (switch (buf pos) pos s) ∧
        Logged.All p (parseDescriptors switch buf (pos + (buf (pos + 1) + 2).toNat)
          (loopLen - (buf (pos + 1) + 2).toNat) (switch (buf pos) pos s).value) := by
  rw [parseDescriptors,if_pos h]
  simp only [readByte,Logged.all_one_bind,if_neg hlen]
  rw [Logged.all_bind]

theorem parseDescriptors_inSection (f : σ → τ)
    (hfits : ∀ tag pos s, Logged.All (InSection stop) (switch tag pos s) ↔ fits tag pos (f s))
    (hnext : ∀ tag pos s, f (switch tag pos s).value = next tag pos (f s)) (pos loopLen : Nat) (s : σ) :
    Logged.All (InSection stop) (parseDescriptors switch buf pos loopLen s) ↔
      LoopFits fits next stop buf pos loopLen (f s) := by
  induction loopLen using Nat.strongRecOn generalizing pos s with
  | ind loopLen ih =>
    rw [LoopFits]
    rcases Nat.eq_zero_or_pos loopLen with rfl | hpos
    · exact ⟨fun _ h => absurd h (Nat.lt_irrefl 0),fun _ => all_parseDescriptors_end⟩
    · rw [imp_iff_right hpos]
      by_cases hlen : buf (pos + 1) + 2 = 0
      · rw [all_parseDescriptors_zero hpos hlen]
        simp only [InSection,hlen,not_true_eq_false,false_imp_iff,and_true]
        omega
      · have hlt := length_ne_zero hlen
        rw [all_parseDescriptors_step hpos hlen,hfits,ih _ (by omega),hnext,imp_iff_right hlen]
        simp only [InSection,true_and]
        constructor
        · rintro ⟨-,hread,h⟩
          exact ⟨hread,h⟩
        · rintro ⟨hread,h⟩
          exact ⟨by omega,hread,h⟩

theorem parseDescriptors_inArray {q : σ → Prop}
    (hswitch : ∀ tag pos s, q s → Logged.All Contained (switch tag pos s) ∧ q (switch tag pos s).value)
    (pos loopLen : Nat) (s : σ) (hq : q s) : Logged.All InArray (parseDescriptors switch buf pos loopLen s) := by
  induction loopLen using Nat.strongRecOn generalizing pos s with
  | ind loopLen ih =>
    rcases Nat.eq_zero_or_pos loopLen with rfl | hpos
    · exact all_parseDescriptors_end
    · by_cases hlen : buf (pos + 1) + 2 = 0
      · rw [all_parseDescriptors_zero hpos hlen]
        exact ⟨trivial,trivial⟩
      · have hlt := length_ne_zero hlen
        obtain ⟨hparser,hkept⟩ := hswitch (buf pos) pos s hq
        rw [all_parseDescriptors_step hpos hlen]
        exact ⟨trivial,trivial,trivial,inArray_of_contained hparser,ih _ (by omega) _ _ hkept⟩

/-! `find_descriptor` -/

theorem findDescriptor_end : findDescriptor tag buf pos 0 = pure false := by
  rw [findDescriptor,if_neg (Nat.lt_irrefl 0)]

theorem findDescriptor_inSection (tag : UInt8) (pos loopLen : Nat) :
    Logged.All (InSection stop) (findDescriptor tag buf pos loopLen) ↔ FindFits stop tag buf pos loopLen := by
  induction loopLen using Nat.strongRecOn generalizing pos with
  | ind loopLen ih =>
    rw [FindFits]
    rcases Nat.eq_zero_or_pos loopLen with rfl | hpos
    · rw [findDescriptor_end]
      exact ⟨fun _ h => absurd h (Nat.lt_irrefl 0),fun _ => Logged.all_pure _⟩
    · rw [imp_iff_right hpos,findDescriptor,if_pos hpos]
      by_cases hlen : buf (pos + 1) + 2 = 0
      · simp only [readByte,Logged.all_one_bind,if_pos hlen,Logged.all_pure,InSection]
        simp only [hlen,not_true_eq_false,false_imp_iff,and_true]
        omega
      · have hlt := length_ne_zero hlen
        rw [imp_iff_right hlen]
        by_cases htag : tag = buf pos
        · simp only [readByte,Logged.all_one_bind,if_neg hlen,if_pos htag,Logged.all_pure,InSection]
          simp only [htag,ne_eq,not_true_eq_false,false_imp_iff,and_true]
          omega
        · have hrest := ih (loopLen - (buf (pos + 1) + 2).toNat) (by omega) (pos + (buf (pos + 1) + 2).toNat)
          rw [imp_iff_right htag,← hrest]
          simp only [readByte,Logged.all_one_bind,if_neg hlen,if_neg htag,InSection,true_and]
          constructor
          · rintro ⟨-,h⟩
            exact h
          · rintro ⟨hread,h⟩
            exact ⟨by omega,hread,h⟩

theorem findFits_of_not_found {tag' : UInt8} (pos loopLen : Nat)
    (hnot : (findDescriptor tag buf pos loopLen).value = false) (h : FindFits stop tag buf pos loopLen) :
    FindFits stop tag' buf pos loopLen := by
  induction loopLen using Nat.strongRecOn generalizing pos with
  | ind loopLen ih =>
    rw [FindFits] at h ⊢
    intro hpos
    obtain ⟨hread,hrest⟩ := h hpos
    refine ⟨hread,fun hlen _ => ?_⟩
    have hlt := length_ne_zero hlen
    rw [findDescriptor,if_pos hpos] at hnot
    simp only [readByte,Logged.value_one_bind,if_neg hlen] at hnot
    by_cases htag : tag = buf pos
    · rw [if_pos htag] at hnot
      cases hnot
    · rw [if_neg htag] at hnot
      exact ih _ (by omega) _ hnot (hrest hlen htag)

end Loops

end LinuxDvb.Scan.Tables
