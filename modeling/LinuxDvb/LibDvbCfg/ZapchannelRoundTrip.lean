import LinuxDvb.LibDvbCfg.Zapchannel

/-!
# Saving and parsing zap channels

What is written for a channel is read back, field by field. The format has no place for the inversion of ATSC
and DVB-S channels, nor for the code rate of DVB-S channels, so these are `AUTO` when they are read back.
-/

namespace LinuxDvb.Cfg

open scoped ByElements

def Tabled {α : Type} (value : α) (settings : List (Setting α)) : Prop :=
  ∃ setting ∈ settings, setting.value = value

instance {α : Type} [DecidableEq α] (value : α) (settings : List (Setting α)) :
    Decidable (Tabled value settings) :=
  inferInstanceAs (Decidable (∃ setting ∈ settings, setting.value = value))

/-- All settings of a channel have a name, and those of DVB-S are what the format can express. -/
def FeParams.Tabled (frequency : UInt32) : FeParams → Prop
  | .dvbs symbolRate fecInner polarization _ =>
    Cfg.Tabled fecInner fecList ∧ polarization ∈ [ch 'h', ch 'v', ch 'l', ch 'r'] ∧
      symbolRate.toNat % 1000 = 0 ∧ frequency.toNat % 1000 = 0
  | .dvbc _ fecInner modulation => Cfg.Tabled fecInner fecList ∧ Cfg.Tabled modulation dvbcModulationList
  | .dvbt bandwidth codeRateHp codeRateLp constellation transmissionMode guardInterval hierarchy =>
    Cfg.Tabled bandwidth bandwidthList ∧ Cfg.Tabled codeRateHp fecList ∧ Cfg.Tabled codeRateLp fecList ∧
      Cfg.Tabled constellation constellationList ∧ Cfg.Tabled transmissionMode transmissionModeList ∧
      Cfg.Tabled guardInterval guardIntervalList ∧ Cfg.Tabled hierarchy hierarchyList
  | .atsc modulation => Cfg.Tabled modulation atscModulationList

instance (frequency : UInt32) : ∀ params : FeParams, Decidable (params.Tabled frequency)
  | .dvbs _ _ _ _ => inferInstanceAs (Decidable (_ ∧ _ ∧ _ ∧ _))
  | .dvbc _ _ _ => inferInstanceAs (Decidable (_ ∧ _))
  | .dvbt _ _ _ _ _ _ _ => inferInstanceAs (Decidable (_ ∧ _ ∧ _ ∧ _ ∧ _ ∧ _ ∧ _))
  | .atsc modulation => inferInstanceAs (Decidable (Cfg.Tabled modulation atscModulationList))

def Plain (text : List UInt8) : Prop := ∀ c ∈ text, c ≠ 0 ∧ c ≠ ch '\n' ∧ c ≠ ch '#' ∧ c ≠ ch ':'

instance (text : List UInt8) : Decidable (Plain text) := inferInstanceAs (Decidable (∀ c ∈ text, _))

structure Zapchannel.WellFormed (channel : Zapchannel) : Prop where
  length : channel.name.length ≤ 127
  name : Plain channel.name
  inversion : Tabled channel.inversion inversionList
  params : channel.params.Tabled channel.frequency

def FeParams.Vsb : FeParams → Prop
  | .atsc modulation => modulation = .vsb_8 ∨ modulation = .vsb_16
  | _ => True

/-- The channel with `AUTO` for the settings that the format has no place for. -/
def Zapchannel.normalise (channel : Zapchannel) : Zapchannel :=
  match channel.params with
  | .atsc _ => { channel with inversion := .auto }
  | .dvbs symbolRate _ polarization diseqcSwitch =>
    { channel with inversion := .auto, params := .dvbs symbolRate .auto polarization diseqcSwitch }
  | _ => channel

def collect : Callback (List Zapchannel) := fun channels channel => (0, channels ++ [channel])

section Fields

variable {text : List UInt8} {texts : List (List UInt8)}

theorem fields_cons (text : List UInt8) (texts : List (List UInt8)) :
    fields (text :: texts) = text ++ ch ':' :: fields texts := by
  simp [fields]

theorem fields_append (texts texts' : List (List UInt8)) :
    fields (texts ++ texts') = fields texts ++ fields texts' := by
  simp [fields]

theorem of_mem_fields {c : UInt8} (h : c ∈ fields texts) : c = ch ':' ∨ ∃ text ∈ texts, c ∈ text := by
  induction texts with
  | nil => cases h
  | cons text texts ih =>
    rw [fields_cons,mem_append,mem_cons] at h
    rcases h with htext | hcolon | hrest
    · exact .inr ⟨text,mem_cons_self,htext⟩
    · exact .inl hcolon
    · rcases ih hrest with hcolon | ⟨text',htext',hc⟩
      · exact .inl hcolon
      · exact .inr ⟨text',mem_cons_of_mem _ htext',hc⟩

theorem Plain.not_colon (h : Plain text) : ∀ c ∈ text, decide (c ≠ ch ':') = true :=
  fun c hc => decide_eq_true (h c hc).2.2.2

theorem splitField_fields (h : Plain text) (rest : List UInt8) :
    splitField (fields (text :: texts) ++ rest) = (text, fields texts ++ rest) := by
  rw [fields_cons,append_assoc,splitField,List.takeWhile_append_of_pos h.not_colon,
    List.dropWhile_append_of_pos h.not_colon]
  simp

theorem splitField_plain (h : Plain text) : splitField text = (text, []) := by
  rw [splitField,List.takeWhile_eq_self_iff.mpr h.not_colon,List.dropWhile_eq_nil_iff.mpr h.not_colon]
  rfl

theorem plain_formatInt32 (n : Int32) : Plain (formatInt32 n) := by
  intro c hc
  rcases of_mem_formatInt hc with rfl | ⟨hlow,hhigh⟩
  · decide
  · refine ⟨?_,?_,?_,?_⟩
    all_goals
      rintro rfl
      exact absurd (And.intro hlow hhigh) (by decide)

theorem parseInt_fields (n : Int32) (rest : List UInt8) :
    parseInt (fields (formatInt32 n :: texts) ++ rest) = some (n, fields texts ++ rest) := by
  rw [parseInt,splitField_fields (plain_formatInt32 n),formatInt32,scanInt_formatInt,map_some,
    Int32.ofInt_toInt]

theorem parseInt_last (n : Int32) : parseInt (formatInt32 n) = some (n, []) := by
  rw [parseInt,splitField_plain (plain_formatInt32 n),formatInt32,scanInt_formatInt,map_some,
    Int32.ofInt_toInt]

end Fields

section Settings

variable {α : Type} [DecidableEq α] {settings : List (Setting α)} {value : α}

/-- The names of a table are different, and they can stand in a field. -/
structure Named (settings : List (Setting α)) : Prop where
  nodup : (settings.map Setting.name).Nodup
  plain : ∀ setting ∈ settings, Plain setting.name

theorem lookupSetting_spec (h : Tabled value settings) :
    ∃ setting ∈ settings, setting.value = value ∧ lookupSetting value settings = setting.name := by
  unfold lookupSetting
  cases hfind : settings.find? fun setting => decide (value = setting.value) with
  | none =>
    obtain ⟨setting,hsetting,hvalue⟩ := h
    exact absurd (decide_eq_true hvalue.symm) (find?_eq_none.mp hfind setting hsetting)
  | some setting =>
    have hvalue := find?_some hfind
    exact ⟨setting,List.mem_of_find?_eq_some hfind,(of_decide_eq_true hvalue).symm,rfl⟩

omit [DecidableEq α] in
theorem find?_name (hnodup : (settings.map Setting.name).Nodup) {setting : Setting α} (h : setting ∈ settings) :
    (settings.find? fun other => decide (setting.name = other.name)) = some setting := by
  induction settings with
  | nil => cases h
  | cons first settings ih =>
    rw [List.map_cons,List.nodup_cons] at hnodup
    rcases List.mem_cons.mp h with rfl | hrest
    · exact List.find?_cons_of_pos (decide_eq_true rfl)
    · have hne : setting.name ≠ first.name := by
        intro heq
        exact hnodup.1 (heq ▸ List.mem_map_of_mem hrest)
      rw [List.find?_cons_of_neg (by simpa using hne),ih hnodup.2 hrest]

theorem plain_lookupSetting (hnamed : Named settings) (h : Tabled value settings) :
    Plain (lookupSetting value settings) := by
  obtain ⟨setting,hsetting,-,hname⟩ := lookupSetting_spec h
  rw [hname]
  exact hnamed.plain setting hsetting

theorem parseSetting_fields (hnamed : Named settings) (h : Tabled value settings)
    {texts : List (List UInt8)} (rest : List UInt8) :
    parseSetting settings (fields (lookupSetting value settings :: texts) ++ rest) =
      some (value, fields texts ++ rest) := by
  obtain ⟨setting,hsetting,hvalue,hname⟩ := lookupSetting_spec h
  rw [parseSetting,splitField_fields (plain_lookupSetting hnamed h),hname,
    find?_name hnamed.nodup hsetting,map_some,hvalue]

theorem not_mem_lookupSetting {c : UInt8} (h : Tabled value settings)
    (hc : ∀ setting ∈ settings, c ∉ setting.name) : c ∉ lookupSetting value settings := by
  obtain ⟨setting,hsetting,-,hname⟩ := lookupSetting_spec h
  rw [hname]
  exact hc setting hsetting

theorem prefix_lookupSetting {word : List UInt8} (h : Tabled value settings)
    (hword : ∀ setting ∈ settings, word <+: setting.name) : word <+: lookupSetting value settings := by
  obtain ⟨setting,hsetting,-,hname⟩ := lookupSetting_spec h
  rw [hname]
  exact hword setting hsetting

end Settings

section Tables

theorem named_inversion : Named inversionList := ⟨by decide, by decide⟩

theorem named_fec : Named fecList := ⟨by decide, by decide⟩

theorem named_dvbcModulation : Named dvbcModulationList := ⟨by decide, by decide⟩

theorem named_bandwidth : Named bandwidthList := ⟨by decide, by decide⟩

theorem named_constellation : Named constellationList := ⟨by decide, by decide⟩

theorem named_transmissionMode : Named transmissionModeList := ⟨by decide, by decide⟩

theorem named_guardInterval : Named guardIntervalList := ⟨by decide, by decide⟩

theorem named_hierarchy : Named hierarchyList := ⟨by decide, by decide⟩

theorem named_atscModulation : Named atscModulationList := ⟨by decide, by decide⟩

end Tables

section FrontendType

theorem strstr_of_infix {haystack needle : List UInt8} (pre post : List UInt8)
    (h : haystack = pre ++ (needle ++ post)) :
    strstr haystack needle = true :=
  decide_eq_true ⟨pre, post, by rw [h,append_assoc]⟩

theorem not_strstr {haystack needle : List UInt8} {c : UInt8} (hneedle : c ∈ needle) (h : c ∉ haystack) :
    strstr haystack needle = false :=
  decide_eq_false fun hfound => h (hfound.subset hneedle)

theorem strstr_field {before after : List (List UInt8)} {text text' word rest : List UInt8} (h : word <+: text') :
    strstr (fields (before ++ text :: text' :: after) ++ rest) (ch ':' :: word) = true := by
  obtain ⟨tail,rfl⟩ := h
  apply strstr_of_infix (fields before ++ text) (tail ++ ch ':' :: fields after ++ rest)
  simp [fields_append,fields_cons]

theorem not_mem_formatInt32 {c : UInt8} (hc : 57 < c.toNat) (n : Int32) : c ∉ formatInt32 n := by
  intro h
  rcases of_mem_formatInt h with rfl | ⟨-,hhigh⟩
  · exact absurd hc (by decide)
  · omega

theorem not_mem_fields {c : UInt8} {texts : List (List UInt8)} (hcolon : c ≠ ch ':')
    (h : ∀ text ∈ texts, c ∉ text) : c ∉ fields texts := by
  intro hc
  rcases of_mem_fields hc with heq | ⟨text,htext,hmem⟩
  · exact hcolon heq
  · exact h text htext hmem

def Zapchannel.pids (channel : Zapchannel) : List UInt8 :=
  fields [formatInt32 channel.videoPid, formatInt32 channel.audioPid] ++ formatInt32 channel.serviceId

theorem not_mem_pids {c : UInt8} (hc : 57 < c.toNat) (hcolon : c ≠ ch ':') (channel : Zapchannel) :
    c ∉ channel.pids := by
  unfold Zapchannel.pids
  rw [mem_append,not_or]
  refine ⟨not_mem_fields hcolon ?_,not_mem_formatInt32 hc _⟩
  intro text htext
  simp only [mem_cons,not_mem_nil,or_false] at htext
  rcases htext with rfl | rfl
  · exact not_mem_formatInt32 hc _
  · exact not_mem_formatInt32 hc _

section

variable {a b c d e f g h rest : List UInt8}

theorem feType_dvbt (hfec : bytes "FEC_" <+: c) (hhierarchy : bytes "HIERARCHY_" <+: h) :
    feType (fields [a, b, c, d, e, f, g, h] ++ rest) = .dvbt := by
  have hfec' : strstr (fields [a, b, c, d, e, f, g, h] ++ rest) (bytes ":FEC_") = true :=
    @strstr_field [a] [d, e, f, g, h] b c _ rest hfec
  have hhierarchy' : strstr (fields [a, b, c, d, e, f, g, h] ++ rest) (bytes ":HIERARCHY_") = true :=
    @strstr_field [a, b, c, d, e, f] [] g h _ rest hhierarchy
  unfold feType
  rw [if_pos hfec',if_pos hhierarchy']

theorem feType_dvbc (hfec : bytes "FEC_" <+: c) (hnot : ch 'Y' ∉ fields [a, b, c, d] ++ rest) :
    feType (fields [a, b, c, d] ++ rest) = .dvbc := by
  have hfec' : strstr (fields [a, b, c, d] ++ rest) (bytes ":FEC_") = true :=
    @strstr_field [a] [d] b c _ rest hfec
  have hhierarchy : strstr (fields [a, b, c, d] ++ rest) (bytes ":HIERARCHY_") = false :=
    not_strstr (by decide) hnot
  unfold feType
  rw [if_pos hfec',hhierarchy,if_neg Bool.false_ne_true]

theorem feType_atsc (hvsb : bytes "VSB" <:+ a) (hnot : ch 'F' ∉ fields [a] ++ rest) :
    feType (fields [a] ++ rest) = .atsc := by
  have hfec : strstr (fields [a] ++ rest) (bytes ":FEC_") = false := not_strstr (by decide) hnot
  have hvsb' : strstr (fields [a] ++ rest) (bytes "VSB:") = true := by
    obtain ⟨head,rfl⟩ := hvsb
    apply strstr_of_infix head rest
    simp [fields,bytes]
  unfold feType
  rw [hfec,if_neg Bool.false_ne_true,hvsb',Bool.true_or,if_pos rfl]

theorem feType_dvbs (hf : ch 'F' ∉ rest) (hv : ch 'V' ∉ rest) (hq : ch 'Q' ∉ rest) : feType rest = .dvbs := by
  have hfec : strstr rest (bytes ":FEC_") = false := not_strstr (by decide) hf
  have hvsb : strstr rest (bytes "VSB:") = false := not_strstr (by decide) hv
  have hqam : strstr rest (bytes ":QAM_") = false := not_strstr (by decide) hq
  unfold feType
  rw [hfec,if_neg Bool.false_ne_true,hvsb,hqam,Bool.false_or,if_neg Bool.false_ne_true]

end

end FrontendType

section Params

variable (channel : Zapchannel)

theorem parseParams_atsc {modulation : AtscMod} (htabled : Tabled modulation atscModulationList)
    (hvsb : modulation = .vsb_8 ∨ modulation = .vsb_16) (frequency : UInt32) :
    parseParams frequency (fields [lookupSetting modulation atscModulationList] ++ channel.pids) =
      some (frequency, .auto, .atsc modulation, channel.pids) := by
  have hsuffix : bytes "VSB" <:+ lookupSetting modulation atscModulationList := by
    rcases hvsb with rfl | rfl
    · decide
    · decide
  have hnot : ch 'F' ∉ fields [lookupSetting modulation atscModulationList] ++ channel.pids := by
    rw [mem_append,not_or]
    refine ⟨not_mem_fields (by decide) ?_,not_mem_pids (by decide) (by decide) channel⟩
    rw [forall_mem_singleton]
    exact not_mem_lookupSetting htabled (by decide)
  unfold parseParams
  rw [feType_atsc hsuffix hnot]
  dsimp only
  rw [parseSetting_fields named_atscModulation htabled]
  rfl

theorem parseParams_dvbc {inversion : Inversion} {fecInner : CodeRate} {modulation : DvbcMod}
    (hinversion : Tabled inversion inversionList) (hfec : Tabled fecInner fecList)
    (hmodulation : Tabled modulation dvbcModulationList) (symbolRate frequency : UInt32) :
    parseParams frequency (fields [lookupSetting inversion inversionList, formatUInt symbolRate,
        lookupSetting fecInner fecList, lookupSetting modulation dvbcModulationList] ++ channel.pids) =
      some (frequency, inversion, .dvbc symbolRate fecInner modulation, channel.pids) := by
  have hprefix : bytes "FEC_" <+: lookupSetting fecInner fecList := prefix_lookupSetting hfec (by decide)
  have hnot : ch 'Y' ∉ fields [lookupSetting inversion inversionList, formatUInt symbolRate,
      lookupSetting fecInner fecList, lookupSetting modulation dvbcModulationList] ++ channel.pids := by
    rw [mem_append,not_or]
    refine ⟨not_mem_fields (by decide) ?_,not_mem_pids (by decide) (by decide) channel⟩
    simp only [forall_mem_cons,not_mem_nil,false_imp_iff,implies_true,and_true]
    exact ⟨not_mem_lookupSetting hinversion (by decide),not_mem_formatInt32 (by decide) _,
      not_mem_lookupSetting hfec (by decide),not_mem_lookupSetting hmodulation (by decide)⟩
  unfold parseParams
  rw [feType_dvbc hprefix hnot]
  dsimp only
  rw [parseSetting_fields named_inversion hinversion]
  simp only [bind_eq_bind,bind_some,formatUInt,parseInt_fields,
    parseSetting_fields named_fec hfec,parseSetting_fields named_dvbcModulation hmodulation]
  rw [UInt32.toUInt32_toInt32]
  rfl

theorem parseParams_dvbt {inversion : Inversion} {bandwidth : Bandwidth} {codeRateHp codeRateLp : CodeRate}
    {constellation : DvbtConst} {transmissionMode : TransmitMode} {guardInterval : GuardInterval}
    {hierarchy : Hierarchy} (hinversion : Tabled inversion inversionList)
    (hbandwidth : Tabled bandwidth bandwidthList) (hhp : Tabled codeRateHp fecList)
    (hlp : Tabled codeRateLp fecList) (hconstellation : Tabled constellation constellationList)
    (hmode : Tabled transmissionMode transmissionModeList)
    (hguard : Tabled guardInterval guardIntervalList) (hhierarchy : Tabled hierarchy hierarchyList)
    (frequency : UInt32) :
    parseParams frequency (fields [lookupSetting inversion inversionList,
        lookupSetting bandwidth bandwidthList, lookupSetting codeRateHp fecList,
        lookupSetting codeRateLp fecList, lookupSetting constellation constellationList,
        lookupSetting transmissionMode transmissionModeList,
        lookupSetting guardInterval guardIntervalList, lookupSetting hierarchy hierarchyList] ++
          channel.pids) =
      some (frequency, inversion, .dvbt bandwidth codeRateHp codeRateLp constellation transmissionMode
        guardInterval hierarchy, channel.pids) := by
  have hfec : bytes "FEC_" <+: lookupSetting codeRateHp fecList := prefix_lookupSetting hhp (by decide)
  have hprefix : bytes "HIERARCHY_" <+: lookupSetting hierarchy hierarchyList :=
    prefix_lookupSetting hhierarchy (by decide)
  unfold parseParams
  rw [feType_dvbt hfec hprefix]
  dsimp only
  rw [parseSetting_fields named_inversion hinversion]
  simp only [bind_eq_bind,bind_some,parseSetting_fields named_bandwidth hbandwidth,
    parseSetting_fields named_fec hhp,parseSetting_fields named_fec hlp,
    parseSetting_fields named_constellation hconstellation,
    parseSetting_fields named_transmissionMode hmode,parseSetting_fields named_guardInterval hguard,
    parseSetting_fields named_hierarchy hhierarchy]
  rfl

theorem thousands {n : UInt32} (h : n.toNat % 1000 = 0) : n / 1000 * 1000 = n := by
  apply UInt32.toNat_inj.mp
  have hn := n.toNat_lt
  rw [UInt32.toNat_mul,UInt32.toNat_div]
  change n.toNat / 1000 * 1000 % 2 ^ 32 = n.toNat
  omega

theorem parseParams_dvbs {polarization : UInt8}
    (hpolarization : polarization ∈ [ch 'h', ch 'v', ch 'l', ch 'r']) {symbolRate frequency : UInt32}
    (hsymbolRate : symbolRate.toNat % 1000 = 0) (hfrequency : frequency.toNat % 1000 = 0)
    (diseqcSwitch : Int32) :
    parseParams (frequency / 1000) (fields [[tolower polarization], formatInt32 diseqcSwitch,
        formatUInt (symbolRate / 1000)] ++ channel.pids) =
      some (frequency, .auto, .dvbs symbolRate .auto polarization diseqcSwitch, channel.pids) := by
  have hpolarizations : ∀ p ∈ [ch 'h', ch 'v', ch 'l', ch 'r'], tolower p = p ∧ Plain [p] ∧
      (p = ch 'h' ∨ p = ch 'v' ∨ p = ch 'l' ∨ p = ch 'r') ∧ 97 ≤ p.toNat := by decide
  obtain ⟨hlower,hplain,hknown,hcase⟩ := hpolarizations polarization hpolarization
  have hnot {c : UInt8} (hc : 57 < c.toNat) (hcolon : c ≠ ch ':') (hupper : c.toNat < 97) :
      c ∉ fields [[polarization], formatInt32 diseqcSwitch, formatUInt (symbolRate / 1000)] ++
        channel.pids := by
    rw [mem_append,not_or]
    refine ⟨not_mem_fields hcolon ?_,not_mem_pids hc hcolon channel⟩
    simp only [forall_mem_cons,not_mem_nil,false_imp_iff,implies_true,and_true]
    refine ⟨?_,not_mem_formatInt32 hc _,not_mem_formatInt32 hc _⟩
    intro h
    rw [mem_singleton.mp h] at hupper
    omega
  unfold parseParams
  rw [hlower,feType_dvbs (hnot (by decide) (by decide) (by decide))
    (hnot (by decide) (by decide) (by decide)) (hnot (by decide) (by decide) (by decide))]
  dsimp only
  rw [parseChar,splitField_fields hplain]
  simp only [List.head?_cons,map_some,bind_eq_bind,bind_some,hlower,hknown,
    guard_true,formatUInt,parseInt_fields]
  have hrate : ((symbolRate / 1000).toInt32 * 1000).toUInt32 = symbolRate := thousands hsymbolRate
  rw [hrate,thousands hfrequency]
  rfl

end Params

section Lines

theorem plain_saveParams {channel : Zapchannel} (h : channel.WellFormed) : ∀ text ∈ saveParams channel, Plain text := by
  obtain ⟨name,videoPid,audioPid,serviceId,frequency,inversion,params⟩ := channel
  have hinversion := plain_lookupSetting named_inversion h.inversion
  have hparams := h.params
  dsimp only at hinversion hparams
  cases params with
  | atsc modulation =>
    simp only [saveParams,forall_mem_cons,not_mem_nil,false_imp_iff,implies_true,and_true]
    exact ⟨plain_formatInt32 _,plain_lookupSetting named_atscModulation hparams⟩
  | dvbc symbolRate fecInner modulation =>
    simp only [saveParams,forall_mem_cons,not_mem_nil,false_imp_iff,implies_true,and_true]
    exact ⟨plain_formatInt32 _,hinversion,plain_formatInt32 _,plain_lookupSetting named_fec hparams.1,
      plain_lookupSetting named_dvbcModulation hparams.2⟩
  | dvbs symbolRate fecInner polarization diseqcSwitch =>
    have hpolarizations : ∀ p ∈ [ch 'h', ch 'v', ch 'l', ch 'r'], Plain [tolower p] := by decide
    simp only [saveParams,forall_mem_cons,not_mem_nil,false_imp_iff,implies_true,and_true]
    exact ⟨plain_formatInt32 _,hpolarizations polarization hparams.2.1,plain_formatInt32 _,plain_formatInt32 _⟩
  | dvbt bandwidth codeRateHp codeRateLp constellation transmissionMode guardInterval hierarchy =>
    obtain ⟨hbandwidth,hhp,hlp,hconstellation,hmode,hguard,hhierarchy⟩ := hparams
    simp only [saveParams,forall_mem_cons,not_mem_nil,false_imp_iff,implies_true,and_true]
    exact ⟨plain_formatInt32 _,hinversion,plain_lookupSetting named_bandwidth hbandwidth,
      plain_lookupSetting named_fec hhp,plain_lookupSetting named_fec hlp,
      plain_lookupSetting named_constellation hconstellation,
      plain_lookupSetting named_transmissionMode hmode,plain_lookupSetting named_guardInterval hguard,
      plain_lookupSetting named_hierarchy hhierarchy⟩

def Zapchannel.line (channel : Zapchannel) : List UInt8 :=
  fields (channel.name :: saveParams channel) ++ channel.pids

theorem saveLine_eq (channel : Zapchannel) : saveLine channel = channel.line ++ [ch '\n'] := by
  simp [saveLine,Zapchannel.line,Zapchannel.pids,fields]

theorem clean_fields {texts : List (List UInt8)} (h : ∀ text ∈ texts, Plain text) :
    ∀ c ∈ fields texts, c ≠ 0 ∧ c ≠ ch '\n' ∧ c ≠ ch '#' := by
  intro c hc
  rcases of_mem_fields hc with rfl | ⟨text,htext,hmem⟩
  · decide
  · obtain ⟨hzero,hnewline,hhash,-⟩ := h text htext c hmem
    exact ⟨hzero,hnewline,hhash⟩

theorem clean_line {channel : Zapchannel} (h : channel.WellFormed) :
    ∀ c ∈ channel.line, c ≠ 0 ∧ c ≠ ch '\n' ∧ c ≠ ch '#' := by
  intro c hc
  unfold Zapchannel.line Zapchannel.pids at hc
  rw [mem_append,mem_append] at hc
  rcases hc with hparams | hpids | hservice
  · exact clean_fields (forall_mem_cons.mpr ⟨h.name,plain_saveParams h⟩) c hparams
  · refine clean_fields (fun text htext => ?_) c hpids
    simp only [mem_cons,not_mem_nil,or_false] at htext
    rcases htext with rfl | rfl
    · exact plain_formatInt32 _
    · exact plain_formatInt32 _
  · obtain ⟨hzero,hnewline,hhash,-⟩ := plain_formatInt32 _ c hservice
    exact ⟨hzero,hnewline,hhash⟩

theorem cutLine_saveLine {channel : Zapchannel} (h : channel.WellFormed) :
    cutLine (saveLine channel) = channel.line := by
  rw [saveLine_eq,cutLine,List.takeWhile_append_of_pos fun c hc => decide_eq_true (clean_line h c hc)]
  exact append_nil _

theorem parseLine_saveLine {channel : Zapchannel} (h : channel.WellFormed) (hvsb : channel.params.Vsb) :
    parseLine (saveLine channel) = some channel.normalise := by
  obtain ⟨name,videoPid,audioPid,serviceId,frequency,inversion,params⟩ := channel
  have hlength : name.length + 1 ≤ 128 := Nat.succ_le_succ h.length
  have hinversion := h.inversion
  have hparams := h.params
  have hlast : parseInt (fields [] ++ formatInt32 serviceId) = some (serviceId, []) := parseInt_last serviceId
  unfold parseLine
  rw [cutLine_saveLine h,Zapchannel.line,parseString,splitField_fields h.name,if_pos hlength]
  dsimp only at hinversion hparams hvsb ⊢
  cases params with
  | atsc modulation =>
    rw [saveParams]
    simp only [bind_eq_bind,bind_some,formatUInt,parseInt_fields,UInt32.toUInt32_toInt32]
    rw [parseParams_atsc _ hparams hvsb]
    simp only [bind_some,Zapchannel.pids,parseInt_fields,hlast]
    rfl
  | dvbc symbolRate fecInner modulation =>
    have hread := parseParams_dvbc ⟨name,videoPid,audioPid,serviceId,frequency,inversion,
      .dvbc symbolRate fecInner modulation⟩ hinversion hparams.1 hparams.2 symbolRate frequency
    rw [saveParams]
    simp only [bind_eq_bind,bind_some,formatUInt,parseInt_fields,UInt32.toUInt32_toInt32] at hread ⊢
    rw [hread]
    simp only [bind_some,Zapchannel.pids,parseInt_fields,hlast]
    rfl
  | dvbs symbolRate fecInner polarization diseqcSwitch =>
    obtain ⟨-,hpolarization,hsymbolRate,hfrequency⟩ := hparams
    have hread := parseParams_dvbs ⟨name,videoPid,audioPid,serviceId,frequency,inversion,
      .dvbs symbolRate fecInner polarization diseqcSwitch⟩ hpolarization hsymbolRate hfrequency diseqcSwitch
    rw [saveParams]
    simp only [bind_eq_bind,bind_some,formatUInt,parseInt_fields,UInt32.toUInt32_toInt32] at hread ⊢
    rw [hread]
    simp only [bind_some,Zapchannel.pids,parseInt_fields,hlast]
    rfl
  | dvbt bandwidth codeRateHp codeRateLp constellation transmissionMode guardInterval hierarchy =>
    obtain ⟨hbandwidth,hhp,hlp,hconstellation,hmode,hguard,hhierarchy⟩ := hparams
    rw [saveParams]
    simp only [bind_eq_bind,bind_some,formatUInt,parseInt_fields,UInt32.toUInt32_toInt32]
    rw [parseParams_dvbt _ hinversion hbandwidth hhp hlp hconstellation hmode hguard hhierarchy]
    simp only [bind_some,Zapchannel.pids,parseInt_fields,hlast]
    rfl

theorem getlines_save {channel : Zapchannel} (h : channel.WellFormed) (channels : List Zapchannel) :
    getlines (zapchannelSave (channel :: channels)) = saveLine channel :: getlines (zapchannelSave channels) := by
  have hnewline : ch '\n' ∉ channel.line := fun hmem => (clean_line h _ hmem).2.1 rfl
  have hsplit : zapchannelSave (channel :: channels) = channel.line ++ ch '\n' :: zapchannelSave channels := by
    change saveLine channel ++ zapchannelSave channels = _
    rw [saveLine_eq,append_assoc]
    rfl
  rw [hsplit,getlines_append hnewline,saveLine_eq]

theorem parseLines_save {channels : List Zapchannel}
    (h : ∀ channel ∈ channels, channel.WellFormed ∧ channel.params.Vsb) (read : List Zapchannel) :
    parseLines collect (getlines (zapchannelSave channels)) read =
      (0, read ++ channels.map Zapchannel.normalise) := by
  induction channels generalizing read with
  | nil =>
    rw [map_nil,append_nil]
    rfl
  | cons channel channels ih =>
    obtain ⟨⟨hwf,hvsb⟩,hrest⟩ := forall_mem_cons.mp h
    rw [getlines_save hwf,parseLines,parseLine_saveLine hwf hvsb]
    change parseLines collect (getlines (zapchannelSave channels)) (read ++ [channel.normalise]) = _
    rw [ih hrest,append_assoc,map_cons]
    rfl

end Lines

/-- Channels that are saved are parsed again, all of them and in order, up to the settings that the format has
no place for. -/
theorem zapchannel_round_trip {channels : List Zapchannel}
    (h : ∀ channel ∈ channels, channel.WellFormed ∧ channel.params.Vsb) :
    zapchannelParse (zapchannelSave channels) collect [] = (0, channels.map Zapchannel.normalise) :=
  parseLines_save h []

def someChannels : List Zapchannel :=
  [⟨bytes "Das Erste", 101, 102, 28106, 11836000, .auto, .dvbs 27500000 .fec_3_4 (ch 'h') 0⟩,
    ⟨bytes "ZDF", 545, 546, 514, 522000000, .off, .dvbt .mhz_8 .fec_2_3 .none .qam_16 .mode_8k .guard_1_4 .none⟩,
    ⟨bytes "arte", 401, 402, 28724, 346000000, .auto, .dvbc 6900000 .none .qam_64⟩,
    ⟨bytes "WETA", 49, 52, 3, 569028615, .off, .atsc .vsb_8⟩]

theorem zapchannel_round_trip_types : zapchannelParse (zapchannelSave someChannels) collect [] =
      (0, someChannels.map Zapchannel.normalise) := by
  apply zapchannel_round_trip
  intro channel hchannel
  simp only [someChannels, List.mem_cons, List.not_mem_nil, or_false] at hchannel
  rcases hchannel with rfl | rfl | rfl | rfl
  iterate 3 · exact ⟨⟨by decide, by decide, by decide, by decide⟩, trivial⟩
  · exact ⟨⟨by decide, by decide, by decide, by decide⟩, .inl rfl⟩

def dvbsChannel : Zapchannel :=
  ⟨bytes "Das Erste", 101, 102, 28106, 11836000, .auto, .dvbs 27500000 .fec_3_4 (ch 'h') 0⟩

theorem zapchannel_not_kept :
    dvbsChannel.WellFormed ∧ zapchannelParse (zapchannelSave [dvbsChannel]) collect [] ≠ (0, [dvbsChannel]) := by
  refine ⟨⟨by decide, by decide, by decide, by decide⟩, ?_⟩
  decide +kernel

end LinuxDvb.Cfg
