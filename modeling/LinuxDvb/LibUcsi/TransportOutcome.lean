import LinuxDvb.LibUcsi.TransportExtraction

/-!
# When the extraction is right

The walk ends in one of three ways: with an error, behind the fields in front of the extension, or behind those of the
extension.
-/

namespace LinuxDvb.Ucsi

def ExtensionWalked (pkt : TransportPacket) (extract : Nat) : Prop :=
  pkt.Extended ∧ extract &&& 0xff00 ≠ 0 ∧ pkt.extensionFieldsEnd ≤ pkt.adapEnd

/-- The fields that are extracted from the extension fit, the seamless splice is requested exactly with the piecewise
rate, and its time stamp fits in 31 bits. -/
def ExtensionMatches (pkt : TransportPacket) (extract : Nat) : Prop :=
  ExtensionWalked pkt extract →
    (pkt.Announced .ltw = true → hasValue extract .ltw = true → pkt.ltwAt + 2 ≤ pkt.extensionEnd) ∧
    (pkt.Announced .piecewiseRate = true → hasValue extract .piecewiseRate = true →
      pkt.piecewiseRateAt + 3 ≤ pkt.extensionEnd) ∧
    (pkt.Announced .seamlessSplice = true →
      if hasValue extract .piecewiseRate = true then
        hasValue extract .seamlessSplice = true ∧ pkt.seamlessSpliceAt + 5 ≤ pkt.extensionEnd ∧
          pkt.timeStamp pkt.seamlessSpliceAt < 2 ^ 31
      else hasValue extract .seamlessSplice = true → pkt.extensionEnd < pkt.seamlessSpliceAt + 5)

inductive Walks (pkt : TransportPacket) (extract : Nat) : Except Halt Walk → Prop
  | malformed (h : ¬ pkt.WellFormed) (hshort : ¬ ExtensionWalked pkt extract) : Walks pkt extract (.error .malformed)
  | normal {walk : Walk} {stop : Nat} (hfits : pkt.extensionAt ≤ pkt.adapEnd)
      (h : Collected pkt extract [.privateData, .spliceCountdown, .opcr, .pcr] stop walk)
      (hshort : ¬ pkt.Extended ∨ extract &&& 0xff00 = 0) : Walks pkt extract (.ok walk)
  | extended {walk : Walk} (hfits : pkt.extensionAt ≤ pkt.adapEnd)
      (h : Collected pkt extract [.piecewiseRate, .ltw, .privateData, .spliceCountdown, .opcr, .pcr]
        pkt.seamlessSpliceAt walk) (hwalked : ExtensionWalked pkt extract) :
      Walks pkt extract (.ok (spliced pkt extract walk))

section Walking

variable {pkt : TransportPacket} {extract : Nat} {walk : Walk}

theorem not_wellFormed (h : pkt.Adapted) (hover : pkt.extensionAt ≤ pkt.adapEnd →
    pkt.announces transportAdaptationFlagExtension = true ∧
      (pkt.extensionEnd ≤ pkt.adapEnd → pkt.extensionLength ≠ 0 ∧ pkt.extensionEnd < pkt.extensionFieldsEnd)) :
    ¬ pkt.WellFormed := by
  intro hwell
  obtain ⟨hadaptation,hlength,-⟩ := h
  obtain ⟨hfits,hrest⟩ := (hwell hadaptation).2 hlength
  obtain ⟨hextension,hover⟩ := hover hfits
  obtain ⟨hend,hfields⟩ := hrest hextension
  obtain ⟨hne,hlt⟩ := hover hend
  exact absurd (hfields hne) (Nat.not_le.mpr hlt)

theorem Collected.moved {processed : List TransportValue} {pos : Nat} (h : Collected pkt extract processed pos walk)
    (stop : Nat) : Collected pkt extract processed stop { walk with pos := stop } :=
  ⟨rfl, h.subset, h.values, h.stores⟩

theorem Walks.overrun (h : pkt.Adapted) (hextension : pkt.announces transportAdaptationFlagExtension = true)
    (hlength : pkt.extensionLength ≠ 0) (hover : pkt.adapEnd < pkt.extensionFieldsEnd) :
    Walks pkt extract (.error .malformed) := by
  apply Walks.malformed
  · apply not_wellFormed h
    intro hfits
    refine ⟨hextension,fun hend => ⟨hlength,?_⟩⟩
    omega
  · intro hwalked
    exact absurd hwalked.2.2 (Nat.not_le.mpr hover)

theorem extensionFields_walks (h : pkt.Adapted) (hfits : pkt.extensionAt ≤ pkt.adapEnd)
    (hextension : pkt.announces transportAdaptationFlagExtension = true) (hend : pkt.extensionEnd ≤ pkt.adapEnd)
    (hwalk : Collected pkt extract [.privateData, .spliceCountdown, .opcr, .pcr] pkt.extensionAt walk) :
    Walks pkt extract
      (extensionFields pkt extract pkt.adapEnd { walk with pos := pkt.extensionAt + 1 } pkt.extensionLength) := by
  by_cases hnone : extract &&& 0xff00 = 0 ∨ pkt.extensionLength = 0
  · rw [extensionFields,if_pos hnone]
    apply Walks.normal hfits (hwalk.moved _)
    cases hnone with
    | inl hextract => exact Or.inr hextract
    | inr hlength => exact Or.inl fun hextended => hextended.2.2.1 hlength
  · rw [not_or] at hnone
    have hadapEnd : pkt.adapEnd ≤ transportPacketLength := h.2.2
    have hextensionEnd : pkt.extensionEnd = pkt.extensionAt + 1 + pkt.extensionLength := rfl
    have hltw : pkt.ltwAt = pkt.extensionAt + 1 + 1 := rfl
    have hsplice : pkt.seamlessSpliceAt ≤ pkt.extensionFieldsEnd := Nat.le_add_right _ _
    have hstart : Collected pkt extract [.privateData, .spliceCountdown, .opcr, .pcr] pkt.ltwAt
        { walk with pos := pkt.ltwAt } := hwalk.moved _
    have hgo := windowFields_go hadapEnd hstart (by omega)
    have hread : pkt.read (pkt.extensionAt + 1) = .ok (pkt.byte (pkt.extensionAt + 1)) := pkt.read_eq (by omega)
    rw [extensionFields_eq hnone.1 hnone.2 (hread : pkt.read (Walk.pos { walk with pos := pkt.extensionAt + 1 }) = _)]
    obtain ⟨hle,walk',hwalk',hcollected⟩ | ⟨hover,herror⟩ := hgo
    · simp only [← hltw,hwalk',bind,Except.bind]
      rw [seamlessSpliceField_eq hadapEnd hcollected hle]
      by_cases hover : pkt.adapEnd < pkt.extensionFieldsEnd
      · rw [if_pos hover]
        exact Walks.overrun h hextension hnone.2 hover
      · rw [if_neg hover]
        exact Walks.extended hfits hcollected ⟨⟨h,hextension,hnone.2,hend⟩,hnone.1,Nat.not_lt.mp hover⟩
    · simp only [← hltw,herror,bind,Except.bind]
      exact Walks.overrun h hextension hnone.2 (by omega)

theorem extensionPart_walks (h : pkt.Adapted) (hfits : pkt.extensionAt ≤ pkt.adapEnd)
    (hwalk : Collected pkt extract [.privateData, .spliceCountdown, .opcr, .pcr] pkt.extensionAt walk) :
    Walks pkt extract (extensionPart pkt extract (pkt.byte 5) pkt.adapEnd walk) := by
  have hadapEnd : pkt.adapEnd ≤ transportPacketLength := h.2.2
  rw [extensionPart,hwalk.pos]
  cases hextension : pkt.announces transportAdaptationFlagExtension with
  | false =>
    have hflag : pkt.byte 5 &&& transportAdaptationFlagExtension = 0 := by
      simpa [TransportPacket.announces] using hextension
    rw [if_pos hflag]
    exact Walks.normal hfits hwalk
      (Or.inl fun hextended => Bool.false_ne_true (hextension.symm.trans hextended.2.1))
  | true =>
    have hflag : ¬ pkt.byte 5 &&& transportAdaptationFlagExtension = 0 := by
      simpa [TransportPacket.announces] using hextension
    have hend : pkt.extensionEnd = pkt.extensionAt + 1 + pkt.extensionLength := rfl
    have hmalformed : pkt.adapEnd < pkt.extensionEnd → Walks pkt extract (.error .malformed) := by
      intro hover
      apply Walks.malformed
      · exact not_wellFormed h fun _ => ⟨hextension,fun hle => absurd hle (Nat.not_le.mpr hover)⟩
      · exact fun hwalked => absurd hwalked.1.2.2.2 (Nat.not_le.mpr hover)
    rw [if_neg hflag]
    by_cases hlength : pkt.adapEnd ≤ pkt.extensionAt
    · rw [if_pos hlength]
      exact hmalformed (by omega)
    · have hread : pkt.read pkt.extensionAt = .ok (pkt.byte pkt.extensionAt) := pkt.read_eq (by omega)
      rw [if_neg hlength,hread]
      show Walks pkt extract (if pkt.adapEnd < pkt.extensionEnd then .error .malformed
        else extensionFields pkt extract pkt.adapEnd { walk with pos := pkt.extensionAt + 1 } pkt.extensionLength)
      split
      case isTrue hover => exact hmalformed hover
      case isFalse hfits' => exact extensionFields_walks h hfits hextension (Nat.not_lt.mp hfits') hwalk

theorem adaptationFields_walks (h : pkt.Adapted) (out : TransportValues) :
    Walks pkt extract (adaptationFields pkt extract (pkt.byte 5) pkt.adapEnd ⟨6, out, 0⟩) := by
  have hstart : Collected pkt extract [] 6 ⟨6,out,0⟩ := by
    refine ⟨rfl,Nat.zero_and _,fun v => ?_,fun v hv => ?_⟩
    · rw [hasValue_zero]
      simp
    · rw [hasValue_zero] at hv
      cases hv
  have hpos : 6 ≤ pkt.adapEnd := by
    have hlength : pkt.adapLength ≠ 0 := h.2.1
    rw [TransportPacket.adapEnd]
    omega
  have hgo := normalFields_go h.2.2 hstart hpos
  rw [adaptationFields_eq]
  obtain ⟨hfits,walk,hwalk,hcollected⟩ | ⟨hover,herror⟩ := hgo
  · rw [hwalk]
    exact extensionPart_walks h hfits hcollected
  · rw [herror]
    apply Walks.malformed
    · exact not_wellFormed h fun hfits => absurd hfits (Nat.not_le.mpr hover)
    · intro hwalked
      exact absurd (le_trans (Nat.le_add_right _ _) hwalked.1.2.2.2) (Nat.not_le.mpr (Nat.lt_succ_of_lt hover))

end Walking

/-! ### What is returned -/

section Returned

variable {pkt : TransportPacket} {extract : Nat}

variable {v : TransportValue}

theorem hasValue_of_and {mask : Nat} (h : extract &&& mask = 0) (hv : v.mask &&& mask = v.mask) :
    hasValue extract v = false := by
  have hzero : extract &&& v.mask = 0 := by
    rw [← hv,Nat.and_comm v.mask,← Nat.and_assoc,h,Nat.zero_and]
  rw [hasValue,hzero]
  rfl

variable {adapflags : UInt8} {adaplength : Nat} {out : TransportValues}

theorem stores_payload (extracted : Nat) (v : TransportValue) :
    pkt.Stores (extractPayload pkt adapflags adaplength out extracted).2 v ↔ pkt.Stores out v := by
  rw [extractPayload]
  split
  · cases v <;> rfl
  · cases v <;> rfl

theorem payloadStored (extracted : Nat) (hlength : adaplength = if pkt.hasAdaptation then pkt.adapLength else 0)
    (hfits : pkt.hasAdaptation = true → pkt.adapEnd ≤ transportPacketLength) :
    pkt.PayloadStored (extractPayload pkt adapflags adaplength out extracted).2 := by
  rw [TransportPacket.PayloadStored,extractPayload]
  cases hpayload : pkt.hasPayload with
  | false => exact ⟨rfl,rfl⟩
  | true =>
    rw [if_pos rfl]
    cases hadaptation : pkt.hasAdaptation with
    | false =>
      rw [hadaptation] at hlength
      exact ⟨_,rfl,by subst hlength; rfl,by subst hlength; rfl⟩
    | true =>
      rw [hadaptation] at hlength
      have hend : pkt.adapEnd = 4 + 1 + adaplength := by rw [hlength]; rfl
      refine ⟨4 + 1 + adaplength,rfl,?_,hend.symm⟩
      exact Nat.add_sub_cancel' (hend ▸ hfits hadaptation)

theorem extracts_nothing (hnone : ∀ v, hasValue extract v = true → ¬ pkt.Present v)
    (hlength : adaplength = if pkt.hasAdaptation then pkt.adapLength else 0)
    (hfits : pkt.hasAdaptation = true → pkt.adapEnd ≤ transportPacketLength) :
    Extracts pkt extract (.ok (extractPayload pkt adapflags adaplength out 0)) := by
  refine ⟨Nat.zero_and _,fun v => ?_,fun v hv => ?_,?_⟩
  · constructor
    · exact fun (hv : hasValue 0 v = true) => absurd hv (by simp [hasValue_zero])
    · exact fun hv => absurd hv.2 (hnone v hv.1)
  · have hzero : hasValue 0 v = true := hv
    rw [hasValue_zero] at hzero
    cases hzero
  · exact payloadStored 0 hlength hfits

theorem present_iff_announced (h : pkt.Adapted) (hfits : pkt.extensionAt ≤ pkt.adapEnd)
    (hv : v ∈ [.privateData, .spliceCountdown, .opcr, .pcr]) : pkt.Present v ↔ pkt.Announced v = true := by
  have hprivate : pkt.privateDataAt ≤ pkt.extensionAt := by
    rw [TransportPacket.extensionAt]
    split
    · exact Nat.le_add_right _ _
    · exact Nat.le_refl _
  have hsplice : pkt.spliceCountdownAt ≤ pkt.privateDataAt := Nat.le_add_right _ _
  have hopcr : pkt.opcrAt ≤ pkt.spliceCountdownAt := Nat.le_add_right _ _
  have hend : ∀ {announced : Bool} {pos size stop : Nat}, announced = true → stop ≤ pkt.adapEnd →
      (stop = pos + if announced then size else 0) → pos + size ≤ pkt.adapEnd := by
    intro announced pos size stop hannounced hle hstop
    rwa [hstop,hannounced,if_pos rfl] at hle
  simp only [mem_cons,not_mem_nil,or_false] at hv
  obtain rfl | rfl | rfl | rfl := hv
  · refine ⟨fun hpresent => hpresent.2.1,fun hannounced => ⟨h,hannounced,?_⟩⟩
    have hext : pkt.extensionAt = pkt.privateDataEnd := if_pos hannounced
    exact hext ▸ hfits
  · exact ⟨fun hpresent => hpresent.2.1,fun hannounced => ⟨h,hannounced,hend hannounced (hprivate.trans hfits) rfl⟩⟩
  · exact ⟨fun hpresent => hpresent.2.1,fun hannounced => ⟨h,hannounced,hend hannounced (hsplice.trans (hprivate.trans hfits)) rfl⟩⟩
  · exact ⟨fun hpresent => hpresent.2.1,fun hannounced => ⟨h,hannounced,hend hannounced (hopcr.trans (hsplice.trans (hprivate.trans hfits))) rfl⟩⟩

variable {stop : Nat}

theorem extracts_normal (h : pkt.Adapted) (hfits : pkt.extensionAt ≤ pkt.adapEnd) {walk : Walk}
    (hwalk : Collected pkt extract [.privateData, .spliceCountdown, .opcr, .pcr] stop walk)
    (hshort : ¬ pkt.Extended ∨ extract &&& 0xff00 = 0) :
    Extracts pkt extract (.ok (extractPayload pkt adapflags pkt.adapLength walk.out walk.extracted)) := by
  refine ⟨hwalk.subset,fun v => (hwalk.values v).trans ?_,fun v hv => ?_,?_⟩
  · by_cases hv : v ∈ [TransportValue.privateData, .spliceCountdown, .opcr, .pcr]
    · rw [present_iff_announced h hfits hv]
      exact and_iff_right hv
    · -- the values of the extension are not present, or not requested
      refine iff_of_false (fun hin => hv hin.1) fun hpresent => ?_
      cases hshort with
      | inl hextended =>
        cases v <;> first | exact hextended hpresent.2.1 | exact hv (by decide)
      | inr hextract =>
        have hnot : hasValue extract v = false := by
          apply hasValue_of_and hextract
          cases v <;> first | rfl | exact absurd (by decide) hv
        rw [hnot] at hpresent
        cases hpresent.1
  · exact (stores_payload walk.extracted v).mpr (hwalk.stores v hv)
  · apply payloadStored walk.extracted
    · rw [h.1]
      rfl
    · exact fun _ => h.2.2

theorem hasValue_spliced {walk : Walk} (v : TransportValue) :
    hasValue (spliced pkt extract walk).extracted v = true ↔ hasValue walk.extracted v = true ∨
      v = .seamlessSplice ∧ pkt.Announced .seamlessSplice = true ∧ hasValue extract .piecewiseRate = true := by
  rw [spliced]
  split
  case isTrue hsplice => rw [hasValue_or,Bool.or_eq_true,decide_eq_true_eq,and_iff_left hsplice]
  case isFalse hsplice => exact (or_iff_left fun hv => hsplice hv.2).symm

theorem stores_spliced {walk : Walk} (hv : v ≠ .seamlessSplice) :
    pkt.Stores (spliced pkt extract walk).out v ↔ pkt.Stores walk.out v := by
  rw [spliced]
  split
  · cases v <;> first | rfl | exact absurd rfl hv
  · rfl

theorem stores_seamlessSplice {walk : Walk}
    (h : pkt.Announced .seamlessSplice = true ∧ hasValue extract .piecewiseRate = true) :
    pkt.Stores (spliced pkt extract walk).out .seamlessSplice ↔ pkt.timeStamp pkt.seamlessSpliceAt < 2 ^ 31 := by
  rw [← pkt.dtsValue_eq_iff,spliced,if_pos h]
  refine and_iff_right ?_
  rw [UInt8.toNat_shiftRight]
  exact Nat.shiftRight_eq_div_pow _ 4

theorem hasValue_extended {walk : Walk}
    (hwalk : Collected pkt extract [.piecewiseRate, .ltw, .privateData, .spliceCountdown, .opcr, .pcr] stop walk)
    (v : TransportValue) :
    hasValue (spliced pkt extract walk).extracted v = true ↔
      if v = .seamlessSplice then pkt.Announced .seamlessSplice = true ∧ hasValue extract .piecewiseRate = true
      else hasValue extract v = true ∧ pkt.Announced v = true := by
  rw [hasValue_spliced,hwalk.values]
  cases v <;> simp

theorem present_ltw_iff (h : pkt.Extended) :
    pkt.Present .ltw ↔ pkt.Announced .ltw = true ∧ pkt.ltwAt + 2 ≤ pkt.extensionEnd := by
  rw [TransportPacket.Announced,Bool.and_eq_true,decide_eq_true_eq,and_assoc]
  exact and_iff_right h

theorem extracts_extended_iff (hfits : pkt.extensionAt ≤ pkt.adapEnd) {walk : Walk}
    (hwalk : Collected pkt extract [.piecewiseRate, .ltw, .privateData, .spliceCountdown, .opcr, .pcr] stop walk)
    (hwalked : ExtensionWalked pkt extract) :
    Extracts pkt extract (.ok (extractPayload pkt adapflags pkt.adapLength (spliced pkt extract walk).out
      (spliced pkt extract walk).extracted)) ↔ ExtensionMatches pkt extract := by
  have hextended := hwalked.1
  have hin := hasValue_extended hwalk
  constructor
  · intro hextracts _
    obtain ⟨hsubset,hvalues,hstores,-⟩ := hextracts
    have hpresent : ∀ v, v ≠ .seamlessSplice → pkt.Announced v = true → hasValue extract v = true → pkt.Present v :=
      fun v hv hannounced hwanted =>
        ((hvalues v).mp ((hin v).mpr (by rw [if_neg hv]; exact ⟨hwanted,hannounced⟩))).2
    refine ⟨fun hannounced hwanted => ?_,fun hannounced hwanted => ?_,fun hannounced => ?_⟩
    · exact (hpresent .ltw (by decide) hannounced hwanted).2.2.2
    · exact (hpresent .piecewiseRate (by decide) hannounced hwanted).2.2
    · split
      case isTrue hwanted =>
        have hhas := (hin .seamlessSplice).mpr (by rw [if_pos rfl]; exact ⟨hannounced,hwanted⟩)
        have hsplice := (hvalues .seamlessSplice).mp hhas
        refine ⟨hsplice.1,hsplice.2.2.2,?_⟩
        have hstored := (stores_payload (spliced pkt extract walk).extracted _).mp (hstores _ hhas)
        exact (stores_seamlessSplice ⟨hannounced,hwanted⟩).mp hstored
      case isFalse hnot =>
        intro hwanted
        by_contra hover
        have hhas := (hvalues .seamlessSplice).mpr ⟨hwanted,hextended,hannounced,Nat.not_lt.mp hover⟩
        have hcond := (hin .seamlessSplice).mp hhas
        rw [if_pos rfl] at hcond
        exact hnot hcond.2
  · intro hmatches
    obtain ⟨hltw,hrate,hsplice⟩ := hmatches hwalked
    have hwanted : pkt.Announced .seamlessSplice = true ∧ hasValue extract .piecewiseRate = true →
        hasValue extract .seamlessSplice = true ∧ pkt.seamlessSpliceAt + 5 ≤ pkt.extensionEnd ∧
          pkt.timeStamp pkt.seamlessSpliceAt < 2 ^ 31 := by
      intro hcond
      have hboth := hsplice hcond.1
      rwa [if_pos hcond.2] at hboth
    refine ⟨?_,fun v => (hin v).trans ?_,fun v hv => ?_,?_⟩
    · show (spliced pkt extract walk).extracted &&& extract = (spliced pkt extract walk).extracted
      rw [spliced]
      split
      case isTrue hcond => exact subset_or hwalk.subset (hwanted hcond).1
      case isFalse => exact hwalk.subset
    · cases v with
      | pcr => exact and_congr_right fun _ => (present_iff_announced hextended.1 hfits (by decide)).symm
      | opcr => exact and_congr_right fun _ => (present_iff_announced hextended.1 hfits (by decide)).symm
      | spliceCountdown => exact and_congr_right fun _ => (present_iff_announced hextended.1 hfits (by decide)).symm
      | privateData => exact and_congr_right fun _ => (present_iff_announced hextended.1 hfits (by decide)).symm
      | ltw =>
        refine and_congr_right fun hrequested => ?_
        rw [present_ltw_iff hextended]
        exact (and_iff_left_of_imp fun hannounced => hltw hannounced hrequested).symm
      | piecewiseRate =>
        refine and_congr_right fun hrequested => ?_
        exact ⟨fun hannounced => ⟨hextended,hannounced,hrate hannounced hrequested⟩,fun hpresent => hpresent.2.1⟩
      | seamlessSplice =>
        rw [if_pos rfl]
        refine ⟨fun hcond => ?_,fun hpresent => ?_⟩
        · exact ⟨(hwanted hcond).1,hextended,hcond.1,(hwanted hcond).2.1⟩
        · obtain ⟨hrequested,-,hannounced,hend⟩ := hpresent
          refine ⟨hannounced,?_⟩
          by_contra hrate'
          have hover := hsplice hannounced
          rw [if_neg hrate'] at hover
          exact absurd (hover hrequested) (Nat.not_lt.mpr hend)
    · apply (stores_payload (spliced pkt extract walk).extracted v).mpr
      by_cases hsplice' : v = .seamlessSplice
      · subst hsplice'
        have hcond := (hin .seamlessSplice).mp hv
        rw [if_pos rfl] at hcond
        exact (stores_seamlessSplice hcond).mpr (hwanted hcond).2.2
      · rw [stores_spliced hsplice']
        exact hwalk.stores v (((hasValue_spliced v).mp hv).resolve_right fun hright => hsplice' hright.1)
    · apply payloadStored (spliced pkt extract walk).extracted
      · rw [hextended.1.1]
        rfl
      · exact fun _ => hextended.1.2.2

theorem adapted_of_present (h : pkt.Present v) : pkt.Adapted := by
  cases v with
  | pcr | opcr | spliceCountdown | privateData => exact h.1
  | ltw | piecewiseRate | seamlessSplice => exact h.1.1

theorem extracts_walked_iff (h : pkt.Adapted) {r : Except Halt Walk} (hr : Walks pkt extract r) :
    Extracts pkt extract (do
      let walk ← r
      return extractPayload pkt adapflags pkt.adapLength walk.out walk.extracted) ↔ ExtensionMatches pkt extract := by
  cases hr with
  | malformed hmalformed hshort => exact iff_of_true hmalformed fun hwalked => absurd hwalked hshort
  | normal hfits hcollected hshort =>
    refine iff_of_true (extracts_normal h hfits hcollected hshort) fun hwalked => ?_
    cases hshort with
    | inl hextended => exact absurd hwalked.1 hextended
    | inr hextract => exact absurd hextract hwalked.2.1
  | extended hfits hcollected hwalked => exact extracts_extended_iff hfits hcollected hwalked

end Returned

/-- The extraction is right exactly when the fields of the extension match, if they are walked through. -/
theorem extracts_iff_extensionMatches (pkt : TransportPacket) (out : TransportValues) (extract : Nat) :
    Extracts pkt extract (transportPacketValuesExtract pkt out extract) ↔ ExtensionMatches pkt extract := by
  have hread4 : pkt.read 4 = .ok (pkt.byte 4) := pkt.read_eq (by decide)
  have hread5 : pkt.read 5 = .ok (pkt.byte 5) := pkt.read_eq (by decide)
  rw [transportPacketValuesExtract]
  cases hadaptation : pkt.hasAdaptation with
  | false =>
    have hnone : ∀ v, pkt.Present v → False := by
      intro v hpresent
      exact Bool.false_ne_true (hadaptation.symm.trans (adapted_of_present hpresent).1)
    refine iff_of_true (extracts_nothing (fun v _ => hnone v) ?_ ?_) fun hwalked => ?_
    · rw [hadaptation]
      rfl
    · exact fun h => absurd (hadaptation.symm.trans h) Bool.false_ne_true
    · exact absurd (hadaptation.symm.trans hwalked.1.1.1) Bool.false_ne_true
  | true =>
    simp only [Bool.not_true, Bool.false_eq_true, if_false, hread4, hread5, bind, Except.bind, pure, Except.pure]
    by_cases hlength : pkt.byte 4 = 0
    · have hzero : pkt.adapLength = 0 := by
        rw [TransportPacket.adapLength, hlength]
        rfl
      rw [if_pos hlength]
      refine iff_of_true (extracts_nothing ?_ ?_ ?_) fun hwalked => absurd hzero hwalked.1.1.2.1
      · exact fun v _ hpresent => (adapted_of_present hpresent).2.1 hzero
      · rw [hadaptation, if_pos rfl, hzero]
      · intro _
        rw [TransportPacket.adapEnd, hzero]
        decide
    · have hne : pkt.adapLength ≠ 0 := fun hzero => hlength (UInt8.toNat_inj.mp hzero)
      have hadapLength : pkt.adapLength = if pkt.hasAdaptation then pkt.adapLength else 0 := by
        rw [hadaptation]
        rfl
      rw [if_neg hlength]
      by_cases hover : transportPacketLength < pkt.adapEnd
      · have herror : (5 + (pkt.byte 4).toNat) = pkt.adapEnd := rfl
        rw [herror, if_pos hover]
        refine iff_of_true ?_ fun hwalked => absurd hwalked.1.1.2.2 (Nat.not_le.mpr hover)
        exact fun hwell => absurd (hwell hadaptation).1 (Nat.not_le.mpr hover)
      · have hadapted : pkt.Adapted := ⟨hadaptation, hne, Nat.not_lt.mp hover⟩
        have hend : (5 + (pkt.byte 4).toNat) = pkt.adapEnd := rfl
        rw [hend, if_neg hover]
        by_cases hextract : extract &&& 0xffff = 0
        · rw [if_pos hextract]
          refine iff_of_true (extracts_nothing ?_ hadapLength fun _ => hadapted.2.2) fun hwalked => ?_
          · intro v hwanted _
            rw [hasValue_of_and hextract (by cases v <;> rfl)] at hwanted
            cases hwanted
          · have hhigh : extract &&& 0xff00 = (extract &&& 0xffff) &&& 0xff00 := by
              rw [Nat.and_assoc]
              rfl
            rw [hextract, Nat.zero_and] at hhigh
            exact absurd hhigh hwalked.2.1
        · rw [if_neg hextract]
          exact extracts_walked_iff hadapted (adaptationFields_walks hadapted out)

section Splice

/-- A packet whose adaptation field has an extension with a seamless splice only, and no payload. -/
def splicePacket : TransportPacket :=
  ⟨[0x47, 0x01, 0x00, 0x20, 183, 0x01, 6, 0x20, 0x21, 0x00, 0x01, 0x00, 0x03] ++ List.replicate 175 0xff,
    by rw [List.length_append,List.length_replicate]; rfl⟩

/-- The seamless splice is requested and present, and not extracted. -/
theorem splicePacket_not_extracts : ¬ Extracts splicePacket 0x0400
      (transportPacketValuesExtract splicePacket ⟨0, none, 0, 0, 0, 0, 0, none, 0, 0, 0, 0⟩ 0x0400) := by
  rintro ⟨-, hvalues, -⟩
  have hextended : splicePacket.Extended :=
    ⟨⟨by decide, by decide, by decide⟩, by decide, by decide, by decide⟩
  have hextracted := (hvalues .seamlessSplice).mpr ⟨by decide, hextended, by decide, by decide⟩
  exact absurd hextracted (by decide)

end Splice

end LinuxDvb.Ucsi
