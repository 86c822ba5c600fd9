import LinuxDvb.Scan.DescriptorBounds
import LinuxDvb.Scan.Sections

/-!
# What a section makes scan read

The loops of the three tables over their entries, and the section as `read_sections` has checked it.
-/

namespace LinuxDvb.Scan.Tables

open Sections (Section)

variable {stop pos : Nat} {buf : Mem UInt8} {o : Options}

/-! ## Service description -/

def SdtFits (stop : Nat) (buf : Mem UInt8) (tag : UInt8) (pos : Nat) (_ : Unit) : Prop :=
  if tag = 0x48 then ServiceFits stop buf pos else if tag = 0x53 then CaFits stop buf pos else True

def forget (_ : UInt8) (_ : Nat) (_ : Unit) : Unit := ()

def SdtLoopFits (stop : Nat) (buf : Mem UInt8) (pos : Nat) (sectionLength : Int) : Prop :=
  5 ≤ sectionLength → pos + 4 < stop ∧
    (¬ (sectionLength < word12 (buf (pos + 3)) (buf (pos + 4)) ∨ word12 (buf (pos + 3)) (buf (pos + 4)) = 0) →
      LoopFits (SdtFits stop buf) forget stop buf (pos + 5) (word12 (buf (pos + 3)) (buf (pos + 4))) () ∧
        SdtLoopFits stop buf (pos + (word12 (buf (pos + 3)) (buf (pos + 4)) + 5))
          (sectionLength - (word12 (buf (pos + 3)) (buf (pos + 4)) + 5 : Nat)))
termination_by sectionLength.toNat

theorem sdtSwitch_inSection (tag : UInt8) (pos : Nat) (s : Service) :
    Logged.All (InSection stop) (sdtSwitch buf tag pos s) ↔ SdtFits stop buf tag pos () := by
  rw [sdtSwitch,SdtFits]
  split
  · exact parseServiceDescriptor_inSection
  · split
    · exact parseCaIdentifierDescriptor_inSection
    · exact ⟨fun _ => trivial,fun _ => Logged.all_pure _⟩

theorem sdtLoop_inSection (pos : Nat) (sectionLength : Int) (tp : Services) :
    Logged.All (InSection stop) (sdtLoop buf pos sectionLength tp) ↔ SdtLoopFits stop buf pos sectionLength := by
  induction hn : sectionLength.toNat using Nat.strongRecOn generalizing pos sectionLength tp with
  | ind n ih =>
    rw [SdtLoopFits,sdtLoop]
    by_cases hlong : 5 ≤ sectionLength
    · rw [if_pos hlong,imp_iff_right hlong]
      simp only [readByte,Logged.all_one_bind]
      by_cases hstop : sectionLength < word12 (buf (pos + 3)) (buf (pos + 4)) ∨ word12 (buf (pos + 3)) (buf (pos + 4)) = 0
      · simp only [if_pos hstop,Logged.all_pure,InSection]
        simp only [hstop,not_true_eq_false,false_imp_iff,and_true]
        omega
      · rw [if_neg hstop,imp_iff_right hstop,Logged.all_bind,
          parseDescriptors_inSection (fun _ => ()) sdtSwitch_inSection (fun tag pos s => show () = forget tag pos () from rfl),
          ih _ (by omega) _ _ _ rfl]
        simp only [InSection]
        constructor
        · rintro ⟨-,-,-,hread,h⟩
          exact ⟨hread,h⟩
        · rintro ⟨hread,h⟩
          exact ⟨by omega,by omega,by omega,hread,h⟩
    · rw [if_neg hlong]
      exact ⟨fun _ h => absurd h hlong,fun _ => Logged.all_pure _⟩

theorem sdtSwitch_contained (tag : UInt8) (pos : Nat) (s : Service) :
    Logged.All Contained (sdtSwitch buf tag pos s) := by
  rw [sdtSwitch]
  split
  · rw [parseServiceDescriptor]
    simp only [Logged.all_bind,readByte_contained,copyBytes_contained,Logged.all_pure,and_true]
  · split
    · rw [parseCaIdentifierDescriptor]
      simp only [Logged.all_bind,readByte_contained,copyBytes_contained,Logged.all_pure,and_true,true_and]
      refine writeAll_contained ?_
      split <;> omega
    · exact Logged.all_pure _

theorem sdtLoop_inArray (pos : Nat) (sectionLength : Int) (tp : Services) :
    Logged.All InArray (sdtLoop buf pos sectionLength tp) := by
  induction hn : sectionLength.toNat using Nat.strongRecOn generalizing pos sectionLength tp with
  | ind n ih =>
    rw [sdtLoop]
    by_cases hlong : 5 ≤ sectionLength
    · rw [if_pos hlong]
      simp only [readByte,Logged.all_one_bind,InArray,true_and]
      split
      · exact Logged.all_pure _
      · rw [Logged.all_bind]
        refine ⟨?_,ih _ (by omega) _ _ _ rfl⟩
        exact parseDescriptors_inArray (q := fun _ => True)
          (fun tag pos s _ => ⟨sdtSwitch_contained tag pos s,trivial⟩) _ _ _ trivial
    · rw [if_neg hlong]
      exact Logged.all_pure _

/-! ## Program map -/

def PmtFits (stop : Nat) (o : Options) (buf : Mem UInt8) (tag : UInt8) (pos : Nat) (_ : Unit) : Prop :=
  if tag = 0x0a then LanguageFits stop o buf pos else True

def IsAudio (streamType : UInt8) : Prop := streamType = 0x03 ∨ streamType = 0x81 ∨ streamType = 0x04

instance (streamType : UInt8) : Decidable (IsAudio streamType) := inferInstanceAs (Decidable (_ ∨ _))

/-- The descriptors of a stream, when `audioNum` audio streams have come before. Other types than audio and private
data are not looked into. -/
def StreamFits (stop : Nat) (o : Options) (buf : Mem UInt8) (pos esInfoLen audioNum : Nat) : Prop :=
  (IsAudio (buf pos) → audioNum < 32 → LoopFits (PmtFits stop o buf) forget stop buf (pos + 5) esInfoLen ()) ∧
    (buf pos = 0x06 → FindFits stop 0x56 buf (pos + 5) esInfoLen)

def nextAudio (streamType : UInt8) (audioNum : Nat) : Nat :=
  if IsAudio streamType ∧ audioNum < 32 then audioNum + 1 else audioNum

def PmtLoopFits (stop : Nat) (o : Options) (buf : Mem UInt8) (pos : Nat) (sectionLength : Int) (audioNum : Nat) :
    Prop :=
  5 ≤ sectionLength → pos + 4 < stop ∧ StreamFits stop o buf pos (word12 (buf (pos + 3)) (buf (pos + 4))) audioNum ∧
    PmtLoopFits stop o buf (pos + (word12 (buf (pos + 3)) (buf (pos + 4)) + 5))
      (sectionLength - (word12 (buf (pos + 3)) (buf (pos + 4)) + 5 : Nat)) (nextAudio (buf pos) audioNum)
termination_by sectionLength.toNat

section Pmt

variable {s : Service} {esInfoLen elementaryPid : Nat}

theorem pmtSwitch_inSection (tag : UInt8) (pos : Nat) (s : Service) :
    Logged.All (InSection stop) (pmtSwitch o buf tag pos s) ↔ PmtFits stop o buf tag pos () := by
  rw [pmtSwitch,PmtFits]
  split
  · exact parseIso639_inSection
  · exact ⟨fun _ => trivial,fun _ => Logged.all_pure _⟩

theorem pmtSwitch_audioNum (tag : UInt8) (pos : Nat) (s : Service) :
    (pmtSwitch o buf tag pos s).value.audioNum = s.audioNum := by
  rw [pmtSwitch]
  split
  · rw [parseIso639LanguageDescriptor,readByte,Logged.value_one_bind]
    split
    · rfl
    · rfl
  · rfl

theorem searches_inSection {α : Type} (a b c d : α) : Logged.All (InSection stop) (do
      if ← findDescriptor 0x56 buf pos esInfoLen then pure a
      else if ← findDescriptor 0x59 buf pos esInfoLen then pure b
      else if ← findDescriptor 0x6a buf pos esInfoLen then pure c
      else pure d) ↔ FindFits stop 0x56 buf pos esInfoLen := by
  rw [Logged.all_bind,findDescriptor_inSection]
  refine ⟨And.left,fun h => ⟨h,?_⟩⟩
  cases hfirst : (findDescriptor 0x56 buf pos esInfoLen).value with
  | true => exact Logged.all_pure _
  | false =>
    have hsecond : FindFits stop 0x59 buf pos esInfoLen := findFits_of_not_found pos esInfoLen hfirst h
    rw [if_neg Bool.false_ne_true,Logged.all_bind,findDescriptor_inSection]
    refine ⟨hsecond,?_⟩
    split
    · exact Logged.all_pure _
    · rw [Logged.all_bind,findDescriptor_inSection]
      refine ⟨findFits_of_not_found pos esInfoLen hfirst h,?_⟩
      split
      · exact Logged.all_pure _
      · exact Logged.all_pure _

theorem parseStream_inSection : Logged.All (InSection stop) (parseStream o buf pos esInfoLen elementaryPid s) ↔
      pos < stop ∧ StreamFits stop o buf pos esInfoLen s.audioNum := by
  rw [parseStream,readByte,Logged.all_one_bind]
  refine and_congr Iff.rfl ?_
  rw [StreamFits]
  by_cases hvideo : buf pos = 0x01 ∨ buf pos = 0x02
  · have haudio : ¬ IsAudio (buf pos) := by rcases hvideo with h | h <;> rw [h] <;> decide
    have hprivate : ¬ buf pos = 0x06 := by rcases hvideo with h | h <;> rw [h] <;> decide
    rw [if_pos hvideo]
    exact ⟨fun _ => ⟨fun h => absurd h haudio,fun h => absurd h hprivate⟩,fun _ => Logged.all_pure _⟩
  rw [if_neg hvideo]
  by_cases haudio : IsAudio (buf pos)
  · have hprivate : ¬ buf pos = 0x06 := by
      intro h
      rw [h] at haudio
      exact absurd haudio (by decide)
    have haudio' : buf pos = 0x03 ∨ buf pos = 0x81 ∨ buf pos = 0x04 := haudio
    rw [if_pos haudio',imp_iff_right haudio]
    by_cases hroom : s.audioNum < 32
    · have hroom' : s.audioNum < TableArray.audioPid.size := hroom
      rw [if_pos hroom',imp_iff_right hroom,Logged.all_bind,Logged.all_bind,
        parseDescriptors_inSection (fun _ => ()) pmtSwitch_inSection
          (fun tag pos s => show () = forget tag pos () from rfl)]
      exact ⟨fun h => ⟨h.2.1,fun h' => absurd h' hprivate⟩,fun h => ⟨writeAll_inSection,h.1,Logged.all_pure _⟩⟩
    · have hroom' : ¬ s.audioNum < TableArray.audioPid.size := hroom
      rw [if_neg hroom']
      exact ⟨fun _ => ⟨fun h => absurd h hroom,fun h => absurd h hprivate⟩,fun _ => Logged.all_pure _⟩
  · have haudio' : ¬ (buf pos = 0x03 ∨ buf pos = 0x81 ∨ buf pos = 0x04) := haudio
    rw [if_neg haudio']
    by_cases hprivate : buf pos = 0x06
    · rw [if_pos hprivate,imp_iff_right hprivate,searches_inSection]
      exact ⟨fun h => ⟨fun h' => absurd h' haudio,h⟩,fun h => h.2⟩
    · rw [if_neg hprivate]
      exact ⟨fun _ => ⟨fun h => absurd h haudio,fun h => absurd h hprivate⟩,fun _ => Logged.all_pure _⟩

theorem parseStream_audioNum :
    (parseStream o buf pos esInfoLen elementaryPid s).value.audioNum = nextAudio (buf pos) s.audioNum := by
  have hsame (h : ¬ IsAudio (buf pos)) : nextAudio (buf pos) s.audioNum = s.audioNum := if_neg fun h' => h h'.1
  rw [parseStream,readByte,Logged.value_one_bind]
  by_cases hvideo : buf pos = 0x01 ∨ buf pos = 0x02
  · have haudio : ¬ IsAudio (buf pos) := by rcases hvideo with h | h <;> rw [h] <;> decide
    rw [if_pos hvideo,hsame haudio,Logged.value_pure]
    split
    · rfl
    · rfl
  rw [if_neg hvideo]
  by_cases haudio : buf pos = 0x03 ∨ buf pos = 0x81 ∨ buf pos = 0x04
  · rw [if_pos haudio]
    by_cases hroom : s.audioNum < TableArray.audioPid.size
    · have hnext : nextAudio (buf pos) s.audioNum = s.audioNum + 1 := if_pos ⟨haudio,hroom⟩
      rw [if_pos hroom,hnext,Logged.value_bind,Logged.value_bind,Logged.value_pure,
        parseDescriptors_keeps (fun s : Service => s.audioNum) pmtSwitch_audioNum]
    · have hnext : nextAudio (buf pos) s.audioNum = s.audioNum := if_neg fun h => hroom h.2
      rw [if_neg hroom,hnext,Logged.value_pure]
  · rw [if_neg haudio,hsame haudio]
    split
    · rw [Logged.value_bind]
      split
      · rfl
      · rw [Logged.value_bind]
        split
        · rfl
        · rw [Logged.value_bind]
          split
          · rfl
          · rfl
    · rfl

theorem pmtLoop_inSection (pos : Nat) (sectionLength : Int) (s : Service) :
    Logged.All (InSection stop) (pmtLoop o buf pos sectionLength s) ↔
      PmtLoopFits stop o buf pos sectionLength s.audioNum := by
  induction hn : sectionLength.toNat using Nat.strongRecOn generalizing pos sectionLength s with
  | ind n ih =>
    rw [PmtLoopFits,pmtLoop]
    by_cases hlong : 5 ≤ sectionLength
    · rw [if_pos hlong,imp_iff_right hlong]
      simp only [readByte,Logged.all_one_bind]
      rw [Logged.all_bind,parseStream_inSection,ih _ (by omega) _ _ _ rfl,parseStream_audioNum]
      simp only [InSection]
      constructor
      · rintro ⟨-,hread,-,-,⟨-,hstream⟩,h⟩
        exact ⟨hread,hstream,h⟩
      · rintro ⟨hread,hstream,h⟩
        exact ⟨by omega,hread,by omega,by omega,⟨by omega,hstream⟩,h⟩
    · rw [if_neg hlong]
      exact ⟨fun _ h => absurd h hlong,fun _ => Logged.all_pure _⟩

theorem pmtSwitch_contained (tag : UInt8) (pos : Nat) (s : Service) (hs : s.audioNum < 32) :
    Logged.All Contained (pmtSwitch o buf tag pos s) := by
  rw [pmtSwitch]
  split
  · rw [parseIso639LanguageDescriptor,Logged.all_bind]
    refine ⟨readByte_contained,?_⟩
    split
    · simp only [Logged.all_bind,copyBytes_contained,Logged.all_pure,and_true,true_and]
      refine ⟨?_,writeAll_contained ?_⟩
      · rw [message]
        split
        · exact readAll_contained
        · exact Logged.all_pure _
      · change 4 * s.audioNum + 3 ≤ 32 * 4
        omega
    · exact Logged.all_pure _
  · exact Logged.all_pure _

theorem findDescriptor_inArray (tag : UInt8) (pos loopLen : Nat) :
    Logged.All InArray (findDescriptor tag buf pos loopLen) := by
  induction loopLen using Nat.strongRecOn generalizing pos with
  | ind loopLen ih =>
    rw [findDescriptor]
    by_cases hpos : 0 < loopLen
    · by_cases hlen : buf (pos + 1) + 2 = 0
      · simp only [if_pos hpos,readByte,Logged.all_one_bind,if_pos hlen,Logged.all_pure,InArray,and_true]
      · have hlt := length_ne_zero hlen
        have hrest := ih (loopLen - (buf (pos + 1) + 2).toNat) (by omega) (pos + (buf (pos + 1) + 2).toNat)
        simp only [if_pos hpos,readByte,Logged.all_one_bind,if_neg hlen,InArray,true_and]
        split
        · exact Logged.all_pure _
        · exact hrest
    · rw [if_neg hpos]
      exact Logged.all_pure _

theorem parseStream_inArray : Logged.All InArray (parseStream o buf pos esInfoLen elementaryPid s) := by
  rw [parseStream,Logged.all_bind]
  refine ⟨inArray_of_contained readByte_contained,?_⟩
  split
  · exact Logged.all_pure _
  · split
    · split
      case isTrue hroom =>
        have hroom' : s.audioNum < 32 := hroom
        rw [Logged.all_bind,Logged.all_bind]
        refine ⟨inArray_of_contained (writeAll_contained hroom),?_,Logged.all_pure _⟩
        exact parseDescriptors_inArray (q := fun s => s.audioNum < 32)
          (fun tag pos s hs => ⟨pmtSwitch_contained tag pos s hs,by rw [pmtSwitch_audioNum]; exact hs⟩) _ _ _ hroom'
      case isFalse => exact Logged.all_pure _
    · split
      · rw [Logged.all_bind]
        refine ⟨findDescriptor_inArray _ _ _,?_⟩
        split
        · exact Logged.all_pure _
        · rw [Logged.all_bind]
          refine ⟨findDescriptor_inArray _ _ _,?_⟩
          split
          · exact Logged.all_pure _
          · rw [Logged.all_bind]
            refine ⟨findDescriptor_inArray _ _ _,?_⟩
            split
            · exact Logged.all_pure _
            · exact Logged.all_pure _
      · exact Logged.all_pure _

theorem pmtLoop_inArray (pos : Nat) (sectionLength : Int) (s : Service) :
    Logged.All InArray (pmtLoop o buf pos sectionLength s) := by
  induction hn : sectionLength.toNat using Nat.strongRecOn generalizing pos sectionLength s with
  | ind n ih =>
    rw [pmtLoop]
    by_cases hlong : 5 ≤ sectionLength
    · rw [if_pos hlong]
      simp only [readByte,Logged.all_one_bind,InArray,true_and]
      rw [Logged.all_bind]
      exact ⟨parseStream_inArray,ih _ (by omega) _ _ _ rfl⟩
    · rw [if_neg hlong]
      exact Logged.all_pure _

end Pmt

/-! ## Network information -/

def NitLoopFits (stop : Nat) (o : Options) (buf : Mem UInt8) (pos : Nat) (sectionLength : Int) : Prop :=
  6 < sectionLength → pos + 5 < stop ∧
    (¬ sectionLength < word12 (buf (pos + 4)) (buf (pos + 5)) + 4 →
      LoopFits (NitFits stop o buf) (NitKnown.next buf) stop buf (pos + 6) (word12 (buf (pos + 4)) (buf (pos + 5)))
          ⟨true, false⟩ ∧
        NitLoopFits stop o buf (pos + (word12 (buf (pos + 4)) (buf (pos + 5)) + 6))
          (sectionLength - (word12 (buf (pos + 4)) (buf (pos + 5)) + 6 : Nat)))
termination_by sectionLength.toNat
decreasing_by omega

theorem nitTable_inSection (networkId : UInt16) (pos : Nat) (sectionLength : Int) (s : NitState)
    (listed : List Transponder) :
    Logged.All (InSection stop) (nitTable o networkId buf pos sectionLength s listed) ↔
      NitLoopFits stop o buf pos sectionLength := by
  induction hn : sectionLength.toNat using Nat.strongRecOn generalizing pos sectionLength s listed with
  | ind n ih =>
    rw [NitLoopFits,nitTable]
    by_cases hlong : 6 < sectionLength
    · rw [if_pos hlong,imp_iff_right hlong]
      simp only [readByte,Logged.all_one_bind]
      by_cases hstop : sectionLength < word12 (buf (pos + 4)) (buf (pos + 5)) + 4
      · simp only [if_pos hstop,Logged.all_pure,InSection]
        simp only [hstop,not_true_eq_false,false_imp_iff,and_true]
        omega
      · rw [if_neg hstop,imp_iff_right hstop,Logged.all_bind,
          parseDescriptors_inSection NitState.known (nitSwitch_inSection o) (nitSwitch_known o),
          ih _ (by omega) _ _ _ _ rfl]
        simp only [InSection]
        constructor
        · rintro ⟨-,-,-,hread,h⟩
          exact ⟨hread,h⟩
        · rintro ⟨hread,h⟩
          exact ⟨by omega,by omega,by omega,hread,h⟩
    · rw [if_neg hlong]
      exact ⟨fun _ h => absurd h hlong,fun _ => Logged.all_pure _⟩

theorem withTransponder_contained (places : List Nat) (parse : Mem UInt8 → Transponder → Transponder) (pos : Nat)
    (s : NitState) : Logged.All Contained (withTransponder places parse buf pos s) := by
  rw [withTransponder]
  split
  · exact Logged.all_pure _
  · rw [Logged.all_bind]
    exact ⟨readAll_contained,Logged.all_pure _⟩

theorem printString_contained (pos len : Nat) : Logged.All Contained (printString buf pos len) := by
  induction len generalizing pos with
  | zero => exact Logged.all_pure _
  | succ len ih =>
    rw [printString,Logged.all_bind]
    refine ⟨readByte_contained,?_⟩
    split
    · exact Logged.all_pure _
    · exact ih _

theorem frequencyListDescriptor_contained (pos : Nat) (s : NitState) :
    Logged.All Contained (frequencyListDescriptor buf pos s) := by
  rw [frequencyListDescriptor]
  split
  · exact Logged.all_pure _
  · split
    · exact Logged.all_pure _
    · rw [Logged.all_bind]
      refine ⟨readByte_contained,?_⟩
      dsimp only
      split
      · exact Logged.all_pure _
      · rw [Logged.all_bind]
        refine ⟨readByte_contained,?_⟩
        split
        · exact Logged.all_pure _
        · rw [Logged.all_bind,Logged.all_bind]
          refine ⟨copyBytes_contained,writeAll_contained ?_,Logged.all_pure _⟩
          rw [Nat.zero_add]
          exact Nat.le_refl _

theorem nitSwitch_contained (tag : UInt8) (pos : Nat) (s : NitState) :
    Logged.All Contained (nitSwitch o buf tag pos s) := by
  rw [nitSwitch]
  split_ifs
  · rw [Logged.all_bind,parseNetworkNameDescriptor,Logged.all_bind]
    refine ⟨⟨readByte_contained,?_⟩,Logged.all_pure _⟩
    split
    · exact printString_contained _ _
    · exact Logged.all_pure _
  · exact withTransponder_contained _ _ pos s
  · exact withTransponder_contained _ _ pos s
  · exact withTransponder_contained _ _ pos s
  · exact frequencyListDescriptor_contained pos s
  · rw [parseTerrestrialUkChannelNumber,Logged.all_bind,Logged.all_bind]
    exact ⟨readByte_contained,copyBytes_contained,Logged.all_pure _⟩
  · exact Logged.all_pure _

theorem nitDescriptors_inArray (pos loopLen : Nat) (s : NitState) :
    Logged.All InArray (parseDescriptors (nitSwitch o buf) buf pos loopLen s) :=
  parseDescriptors_inArray (q := fun _ => True)
    (fun tag pos s _ => ⟨nitSwitch_contained tag pos s, trivial⟩) _ _ _ trivial

theorem nitTable_inArray (networkId : UInt16) (pos : Nat) (sectionLength : Int) (s : NitState)
    (listed : List Transponder) : Logged.All InArray (nitTable o networkId buf pos sectionLength s listed) := by
  induction hn : sectionLength.toNat using Nat.strongRecOn generalizing pos sectionLength s listed with
  | ind n ih =>
    rw [nitTable]
    by_cases hlong : 6 < sectionLength
    · rw [if_pos hlong]
      simp only [readByte,Logged.all_one_bind,InArray,true_and]
      split
      · exact Logged.all_pure _
      · rw [Logged.all_bind]
        exact ⟨nitDescriptors_inArray _ _ _,ih _ (by omega) _ _ _ _ rfl⟩
    · rw [if_neg hlong]
      exact Logged.all_pure _

/-! ## Sections -/

/-- What `parse_section` makes the parsers of these tables read, in a section of at least nine bytes behind its length
field. -/
def sectionAccesses (o : Options) (tp : Services) (buf : Section) : List Access :=
  let sectionLength : Int := buf.sectionLength - (5 + 4 : Nat)
  match Sections.tableParser buf with
  | .parsePmt tableIdExt => (parsePmt o buf 8 sectionLength tableIdExt tp).log
  | .parseNit tableIdExt => (parseNit o buf 8 sectionLength (UInt16.ofNat tableIdExt)).log
  | .parseSdt _ => (parseSdt buf 8 sectionLength tp).log
  | .parsePat _ => []
  | .parsePsipVct _ _ => []
  | .default => []

/-- The end of the section, as `read_sections` has checked it. -/
def sectionEnd (buf : Section) : Nat := buf.sectionLength + 3

/-- The descriptors that are looked into, their contents and the entries of the table lie inside the section. -/
def SectionFits (o : Options) (tp : Services) (buf : Section) : Prop :=
  let stop := sectionEnd buf
  let sectionLength : Int := buf.sectionLength - (5 + 4 : Nat)
  match Sections.tableParser buf with
  | .parsePmt tableIdExt =>
    ∀ s, tp.find tableIdExt = some s → 11 < stop ∧
      PmtLoopFits stop o buf (8 + (word12 (buf 10) (buf 11) + 4)) (sectionLength - (word12 (buf 10) (buf 11) + 4 : Nat))
        s.audioNum
  | .parseNit _ =>
    9 < stop ∧ (¬ sectionLength < word12 (buf 8) (buf 9) + 4 →
      LoopFits (NitFits stop o buf) (NitKnown.next buf) stop buf 10 (word12 (buf 8) (buf 9)) ⟨false, false⟩ ∧
        NitLoopFits stop o buf (8 + (word12 (buf 8) (buf 9) + 4))
          (sectionLength - (word12 (buf 8) (buf 9) + 4 : Nat)))
  | .parseSdt _ => SdtLoopFits stop buf 11 sectionLength
  | .parsePat _ => True
  | .parsePsipVct _ _ => True
  | .default => True

theorem parsePmt_inSection (sectionLength : Int) (serviceId : Nat) (tp : Services) :
    Logged.All (InSection stop) (parsePmt o buf 8 sectionLength serviceId tp) ↔
      ∀ s, tp.find serviceId = some s → 11 < stop ∧
        PmtLoopFits stop o buf (8 + (word12 (buf 10) (buf 11) + 4))
          (sectionLength - (word12 (buf 10) (buf 11) + 4 : Nat)) s.audioNum := by
  rw [parsePmt]
  cases tp.find serviceId with
  | none => exact ⟨fun _ s h => absurd h.symm (some_ne_none s),fun _ => Logged.all_pure _⟩
  | some s =>
    simp only [readByte,Logged.all_one_bind,Option.some.injEq,forall_eq']
    rw [Logged.all_bind,pmtLoop_inSection]
    simp only [InSection,Logged.all_pure,and_true]
    constructor
    · rintro ⟨-,-,-,hread,h⟩
      exact ⟨hread,h⟩
    · rintro ⟨hread,h⟩
      exact ⟨by omega,by omega,by omega,hread,h⟩

theorem parseNit_inSection (sectionLength : Int) (networkId : UInt16) :
    Logged.All (InSection stop) (parseNit o buf 8 sectionLength networkId) ↔
      9 < stop ∧ (¬ sectionLength < word12 (buf 8) (buf 9) + 4 →
        LoopFits (NitFits stop o buf) (NitKnown.next buf) stop buf 10 (word12 (buf 8) (buf 9)) ⟨false, false⟩ ∧
          NitLoopFits stop o buf (8 + (word12 (buf 8) (buf 9) + 4))
            (sectionLength - (word12 (buf 8) (buf 9) + 4 : Nat))) := by
  rw [parseNit]
  simp only [readByte,Logged.all_one_bind]
  by_cases hstop : sectionLength < word12 (buf 8) (buf 9) + 4
  · simp only [if_pos hstop,Logged.all_pure,InSection]
    simp only [hstop,not_true_eq_false,false_imp_iff,and_true]
    omega
  · rw [if_neg hstop,imp_iff_right hstop,Logged.all_bind,
      parseDescriptors_inSection NitState.known (nitSwitch_inSection o) (nitSwitch_known o),nitTable_inSection]
    simp only [InSection]
    constructor
    · rintro ⟨-,hread,h⟩
      exact ⟨hread,h⟩
    · rintro ⟨hread,h⟩
      exact ⟨by omega,hread,h⟩

theorem sectionAccesses_inSection (o : Options) (tp : Services) (buf : Section) :
    (∀ e ∈ sectionAccesses o tp buf, InSection (sectionEnd buf) e) ↔ SectionFits o tp buf := by
  rw [sectionAccesses,SectionFits]
  cases Sections.tableParser buf with
  | parsePmt tableIdExt => exact parsePmt_inSection _ _ _
  | parseNit tableIdExt => exact parseNit_inSection _ _
  | parseSdt tableIdExt => exact sdtLoop_inSection _ _ _
  | parsePat tableIdExt => exact ⟨fun _ => trivial,fun _ e he => absurd he not_mem_nil⟩
  | parsePsipVct tableId tableIdExt => exact ⟨fun _ => trivial,fun _ e he => absurd he not_mem_nil⟩
  | default => exact ⟨fun _ => trivial,fun _ e he => absurd he not_mem_nil⟩

theorem sectionAccesses_inArray (o : Options) (tp : Services) (buf : Section) :
    ∀ e ∈ sectionAccesses o tp buf, InArray e := by
  rw [sectionAccesses]
  cases Sections.tableParser buf with
  | parsePmt tableIdExt =>
    change Logged.All InArray (parsePmt o buf 8 _ tableIdExt tp)
    rw [parsePmt]
    split
    · exact Logged.all_pure _
    · simp only [readByte,Logged.all_one_bind,InArray,true_and]
      rw [Logged.all_bind]
      exact ⟨pmtLoop_inArray _ _ _,Logged.all_pure _⟩
  | parseNit tableIdExt =>
    change Logged.All InArray (parseNit o buf 8 _ _)
    rw [parseNit]
    simp only [readByte,Logged.all_one_bind,InArray,true_and]
    split
    · exact Logged.all_pure _
    · rw [Logged.all_bind]
      exact ⟨nitDescriptors_inArray _ _ _,nitTable_inArray _ _ _ _ _⟩
  | parseSdt tableIdExt => exact sdtLoop_inArray _ _ _
  | parsePat tableIdExt => exact fun e he => absurd he not_mem_nil
  | parsePsipVct tableId tableIdExt => exact fun e he => absurd he not_mem_nil
  | default => exact fun e he => absurd he not_mem_nil

end LinuxDvb.Scan.Tables
