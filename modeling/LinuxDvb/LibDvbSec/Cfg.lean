import Mathlib.Data.List.DropRight
import LinuxDvb.Framework.Text

/-!
# SEC configuration files

A file has a section for each SEC configuration. The reader collects the keys of a section and hands the
configuration over when the next section or the end of the file comes; a line that it does not know ends the
section without that.
-/

namespace LinuxDvb.Sec

/-- `enum dvbsec_config_type` -/
inductive ConfigType where
  | none | power | standard | advanced
  deriving DecidableEq

/-- `struct dvbsec_config`; a string is what its array has before the first zero. -/
structure DvbsecConfig where
  id : List UInt8
  switchFrequency : UInt32
  lofLoV : UInt32
  lofLoH : UInt32
  lofLoL : UInt32
  lofLoR : UInt32
  lofHiV : UInt32
  lofHiH : UInt32
  lofHiL : UInt32
  lofHiR : UInt32
  configType : ConfigType
  advCmdLoH : List UInt8
  advCmdLoV : List UInt8
  advCmdLoL : List UInt8
  advCmdLoR : List UInt8
  advCmdHiH : List UInt8
  advCmdHiV : List UInt8
  advCmdHiL : List UInt8
  advCmdHiR : List UInt8
  deriving DecidableEq

/-- The configuration after `memset`. -/
def DvbsecConfig.zero : DvbsecConfig :=
  ⟨[], 0, 0, 0, 0, 0, 0, 0, 0, 0, .none, [], [], [], [], [], [], [], []⟩

section Load

/-- `dvbcfg_issection(line, sectionname)` -/
def issection (line sectionname : List UInt8) : Bool :=
  if line.length < 2 then false
  else if line.head? ≠ some (ch '[') ∨ line.getLast? ≠ some (ch ']') then false
  else sectionname.isPrefixOf (line.tail.dropWhile isspace)

/-- `dvbcfg_iskey(line, keyname)` -/
def iskey (line keyname : List UInt8) : Option (List UInt8) :=
  if keyname.isPrefixOf line then
    match (line.drop keyname.length).dropWhile isspace with
    | c :: value => if c = ch '=' then some (value.dropWhile isspace) else none
    | [] => none
  else none

/-- `strncpy(dest, value, size)` into an array of that size. -/
def strncpy (value : List UInt8) (size : Nat) : List UInt8 := value.take size

/-- `atoi(value)`, stored in a field without sign. -/
def atoiU (value : List UInt8) : UInt32 := (Int32.ofInt (atoi value)).toUInt32

def maxSecCmdLen : Nat := 100

/-- The value of `config-type`, upper or lower case. -/
def configTypeOf (value : List UInt8) : Option ConfigType :=
  let lower := value.map tolower
  if lower = bytes "none" then some .none
  else if lower = bytes "power" then some .power
  else if lower = bytes "standard" then some .standard
  else if lower = bytes "advanced" then some .advanced
  else none

def keys : List (List UInt8 × (List UInt8 → DvbsecConfig → Option DvbsecConfig)) :=
  [(bytes "name", fun value sec => some { sec with id := strncpy value 32 }),
    (bytes "switch-frequency", fun value sec => some { sec with switchFrequency := atoiU value }),
    (bytes "lof-lo-v", fun value sec => some { sec with lofLoV := atoiU value }),
    (bytes "lof-lo-h", fun value sec => some { sec with lofLoH := atoiU value }),
    (bytes "lof-lo-l", fun value sec => some { sec with lofLoL := atoiU value }),
    (bytes "lof-lo-r", fun value sec => some { sec with lofLoR := atoiU value }),
    (bytes "lof-hi-v", fun value sec => some { sec with lofHiV := atoiU value }),
    (bytes "lof-hi-h", fun value sec => some { sec with lofHiH := atoiU value }),
    (bytes "lof-hi-l", fun value sec => some { sec with lofHiL := atoiU value }),
    (bytes "lof-hi-r", fun value sec => some { sec with lofHiR := atoiU value }),
    (bytes "config-type", fun value sec =>
      (configTypeOf value).map fun configType => { sec with configType := configType }),
    (bytes "cmd-lo-v", fun value sec => some { sec with advCmdLoV := strncpy value maxSecCmdLen }),
    (bytes "cmd-lo-h", fun value sec => some { sec with advCmdLoH := strncpy value maxSecCmdLen }),
    (bytes "cmd-lo-r", fun value sec => some { sec with advCmdLoR := strncpy value maxSecCmdLen }),
    (bytes "cmd-lo-l", fun value sec => some { sec with advCmdLoL := strncpy value maxSecCmdLen }),
    (bytes "cmd-hi-v", fun value sec => some { sec with advCmdHiV := strncpy value maxSecCmdLen }),
    (bytes "cmd-hi-h", fun value sec => some { sec with advCmdHiH := strncpy value maxSecCmdLen }),
    (bytes "cmd-hi-r", fun value sec => some { sec with advCmdHiR := strncpy value maxSecCmdLen }),
    (bytes "cmd-hi-l", fun value sec => some { sec with advCmdHiL := strncpy value maxSecCmdLen })]

/-- The section with the key of a line set, unless the line is not known or its value is not. -/
def setKey (line : List UInt8) (sec : DvbsecConfig) : Option DvbsecConfig :=
  (keys.findSome? fun key => (iskey line key.1).map fun value => key.2 value sec).join

def trimLine (line : List UInt8) : List UInt8 :=
  (((line.takeWhile fun c => decide (c ≠ 0 ∧ c ≠ ch '#')).dropWhile isspace).reverse.dropWhile isspace).reverse

abbrev Callback (σ : Type) := σ → DvbsecConfig → Int × σ

/-- The loop of `dvbsec_cfg_load` over the lines. -/
def loadLines {σ : Type} (cb : Callback σ) : List (List UInt8) → Bool → DvbsecConfig → σ → σ
  | [], insection, tmpsec, s => if insection then (cb s tmpsec).2 else s
  | line :: lines, insection, tmpsec, s =>
    let line := trimLine line
    if line = [] then loadLines cb lines insection tmpsec s
    else if issection line (bytes "sec") then
      if insection then
        let (stop, s') := cb s tmpsec
        if stop ≠ 0 then s' else loadLines cb lines true .zero s'
      else loadLines cb lines true .zero s
    else
      match setKey line tmpsec with
      | some tmpsec' => loadLines cb lines insection tmpsec' s
      | none => loadLines cb lines false tmpsec s

/-- `dvbsec_cfg_load`, with what the memory of `tmpsec` holds at first. -/
def dvbsecCfgLoad {σ : Type} (uninitialised : DvbsecConfig) (file : List UInt8) (cb : Callback σ) (s : σ) : σ :=
  loadLines cb (getlines file) false uninitialised s

end Load

section Find

/-- `dvbsec_cfg_find_callback`; the private data is `sec_dest`. -/
def findCallback (secId : List UInt8) : Callback DvbsecConfig := fun dest sec =>
  if secId ≠ sec.id then (0, dest) else (1, sec)

def defaults : List DvbsecConfig :=
  [{ DvbsecConfig.zero with id := bytes "NULL", configType := .standard }, { DvbsecConfig.zero with
      id := bytes "UNIVERSAL", switchFrequency := 11700000, lofLoV := 9750000, lofLoH := 9750000,
      lofHiV := 10600000, lofHiH := 10600000, configType := .standard },
    { DvbsecConfig.zero with
      id := bytes "DBS", lofLoV := 11250000, lofLoH := 11250000, configType := .standard },
    { DvbsecConfig.zero with
      id := bytes "STANDARD", lofLoV := 10000000, lofLoH := 10000000, configType := .standard },
    { DvbsecConfig.zero with
      id := bytes "ENHANCED", lofLoV := 9750000, lofLoH := 9750000, configType := .standard },
    { DvbsecConfig.zero with
      id := bytes "C-BAND", lofLoV := 5150000, lofLoH := 5150000, configType := .power },
    { DvbsecConfig.zero with
      id := bytes "C-MULTI", lofLoV := 5150000, lofLoH := 5750000, configType := .power }]

/-- `dvbsec_cfg_find_default`: the status, and `sec`. -/
def findDefault (secId : List UInt8) (sec : DvbsecConfig) : Int × DvbsecConfig :=
  match defaults.find? fun entry => decide (secId.take 32 = entry.id.take 32) with
  | some entry => (0, entry)
  | none => (-1, sec)

/-- `dvbsec_cfg_find` with a configuration file that can be opened, or none. -/
def dvbsecCfgFind (uninitialised : DvbsecConfig) (configFile : Option (List UInt8)) (secId : List UInt8) :
    Int × DvbsecConfig :=
  match configFile with
  | some file =>
    let sec := dvbsecCfgLoad uninitialised file (findCallback secId) .zero
    if sec.id ≠ [] then (0, sec) else findDefault secId sec
  | none => findDefault secId .zero

end Find

section Save

/-- `key=value` -/
def keyLine (key : String) (value : List UInt8) : List UInt8 := bytes key ++ ch '=' :: value

/-- `%i` for a number without sign. -/
def formatUInt (n : UInt32) : List UInt8 := formatInt n.toInt32.toInt

def lofLine (key : String) (lof : UInt32) : List (List UInt8) :=
  if lof ≠ 0 then [keyLine key (formatUInt lof)] else []

def cmdLine (key : String) (cmd : List UInt8) : List (List UInt8) :=
  if cmd ≠ [] then [keyLine key cmd] else []

def configTypeName : ConfigType → List UInt8
  | .none => bytes "none"
  | .power => bytes "power"
  | .standard => bytes "standard"
  | .advanced => bytes "advanced"

def saveLines (sec : DvbsecConfig) : List (List UInt8) :=
  [bytes "[lnb]", keyLine "switch-frequency" (formatUInt sec.switchFrequency)] ++
    lofLine "lof-lo-v" sec.lofLoV ++ lofLine "lof-lo-h" sec.lofLoH ++ lofLine "lof-lo-l" sec.lofLoL ++
    lofLine "lof-lo-r" sec.lofLoR ++ lofLine "lof-hi-v" sec.lofHiV ++ lofLine "lof-hi-h" sec.lofHiH ++
    lofLine "lof-hi-l" sec.lofHiL ++ lofLine "lof-hi-r" sec.lofHiR ++
    [keyLine "config-type" (configTypeName sec.configType)] ++
    (if sec.configType = .advanced then
      cmdLine "cmd-lo-h" sec.advCmdLoH ++ cmdLine "cmd-lo-v" sec.advCmdLoV ++
        cmdLine "cmd-lo-r" sec.advCmdLoR ++ cmdLine "cmd-lo-l" sec.advCmdLoL ++
        cmdLine "cmd-hi-h" sec.advCmdHiH ++ cmdLine "cmd-hi-v" sec.advCmdHiV ++
        cmdLine "cmd-hi-r" sec.advCmdHiR ++ cmdLine "cmd-hi-l" sec.advCmdHiL
    else []) ++
    [[]]

def dvbsecCfgSave (secs : List DvbsecConfig) : List UInt8 := unlines (secs.map saveLines).flatten

end Save

/-! ## Saving and loading SEC configurations

The writer starts a configuration with `[lnb]`, the reader a section with `[sec]`, so the reader finds no
section in what the writer has written. -/

open scoped ByElements

/-- A string that fits its array, without blanks around it, comments or newlines. -/
structure Trimmed (size : Nat) (text : List UInt8) : Prop where
  length : text.length < size
  chars : ∀ c ∈ text, c ≠ 0 ∧ c ≠ ch '\n' ∧ c ≠ ch '#'
  first : ∀ c ∈ text.head?, isspace c = false
  last : ∀ c ∈ text.getLast?, isspace c = false

def DvbsecConfig.frequencies (sec : DvbsecConfig) : List UInt32 :=
  [sec.switchFrequency, sec.lofLoV, sec.lofLoH, sec.lofLoL, sec.lofLoR, sec.lofHiV, sec.lofHiH, sec.lofHiL, sec.lofHiR]

def DvbsecConfig.commands (sec : DvbsecConfig) : List (List UInt8) :=
  [sec.advCmdLoH, sec.advCmdLoV, sec.advCmdLoL, sec.advCmdLoR, sec.advCmdHiH, sec.advCmdHiV, sec.advCmdHiL,
    sec.advCmdHiR]

structure DvbsecConfig.WellFormed (sec : DvbsecConfig) : Prop where
  id : Trimmed 32 sec.id
  commands : ∀ cmd ∈ sec.commands, Trimmed maxSecCmdLen cmd
  advanced : sec.configType ≠ .advanced → ∀ cmd ∈ sec.commands, cmd = []
  frequencies : ∀ frequency ∈ sec.frequencies, frequency.toNat < 2 ^ 31

def collect : Callback (List DvbsecConfig) := fun secs sec => (0, secs ++ [sec])

/-- The reader hands over all configurations that were saved, in order, and each of them is found by its id. -/
def RoundTrips (secs : List DvbsecConfig) : Prop :=
  ∀ uninitialised, dvbsecCfgLoad uninitialised (dvbsecCfgSave secs) collect [] = secs ∧
    ∀ sec ∈ secs, ∃ sec' ∈ secs, sec'.id = sec.id ∧
      dvbsecCfgFind uninitialised (some (dvbsecCfgSave secs)) sec.id = (0, sec')

section NoSection

variable {line : List UInt8}

def NoSection (line : List UInt8) : Prop := issection (trimLine line) (bytes "sec") = false

theorem noSection_of_head {c : UInt8} (hspace : isspace c = false) (hc : c ≠ 0 ∧ c ≠ ch '#' ∧ c ≠ ch '[')
    (rest : List UInt8) : NoSection (c :: rest) := by
  have hcut : (c :: rest).takeWhile (fun c => decide (c ≠ 0 ∧ c ≠ ch '#')) =
      c :: rest.takeWhile fun c => decide (c ≠ 0 ∧ c ≠ ch '#') :=
    List.takeWhile_cons_of_pos (decide_eq_true ⟨hc.1,hc.2.1⟩)
  have hprefix : trimLine (c :: rest) <+: c :: rest.takeWhile fun c => decide (c ≠ 0 ∧ c ≠ ch '#') := by
    unfold trimLine
    rw [hcut,List.dropWhile_cons_of_neg (by rw [hspace]; decide)]
    exact List.rdropWhile_prefix isspace _
  unfold NoSection issection
  split
  · rfl
  · obtain ⟨tail,htail⟩ := hprefix
    cases htrim : trimLine (c :: rest) with
    | nil => rfl
    | cons first trimmed =>
      rw [htrim] at htail
      injection htail with hfirst _
      rw [if_pos (.inl (by simpa [hfirst] using hc.2.2))]

theorem loadLines_noSection {σ : Type} (cb : Callback σ) {lines : List (List UInt8)}
    (h : ∀ line ∈ lines, NoSection line) (tmpsec : DvbsecConfig) (s : σ) :
    loadLines cb lines false tmpsec s = s := by
  induction lines generalizing tmpsec with
  | nil => rfl
  | cons line lines ih =>
    obtain ⟨hline,hrest⟩ := forall_mem_cons.mp h
    unfold loadLines
    dsimp only
    split
    · exact ih hrest tmpsec
    · rw [hline,if_neg Bool.false_ne_true]
      split
      · exact ih hrest _
      · exact ih hrest _

end NoSection

section Saved

def savedKeys : List String :=
  ["switch-frequency", "lof-lo-v", "lof-lo-h", "lof-lo-l", "lof-lo-r", "lof-hi-v", "lof-hi-h", "lof-hi-l",
    "lof-hi-r", "config-type", "cmd-lo-h", "cmd-lo-v", "cmd-lo-r", "cmd-lo-l", "cmd-hi-h", "cmd-hi-v",
    "cmd-hi-r", "cmd-hi-l"]

/-- What is written for a configuration is its header, an empty line, or a key with a value. -/
inductive SavedLine : List UInt8 → Prop
  | header : SavedLine (bytes "[lnb]")
  | empty : SavedLine []
  | key {key : String} {value : List UInt8} (known : key ∈ savedKeys) (oneLine : ch '\n' ∉ value) :
      SavedLine (keyLine key value)

theorem not_mem_formatUInt (n : UInt32) : ch '\n' ∉ formatUInt n := by
  intro h
  rcases of_mem_formatInt h with hsign | ⟨hlow,-⟩
  · exact absurd hsign (by decide)
  · exact absurd hlow (by decide)

theorem savedLine_lof {key : String} (hkey : key ∈ savedKeys) (lof : UInt32) :
    ∀ line ∈ lofLine key lof, SavedLine line := by
  unfold lofLine
  split
  · exact forall_mem_singleton.mpr (.key hkey (not_mem_formatUInt lof))
  · exact fun _ h => nomatch h

theorem savedLine_cmd {key : String} (hkey : key ∈ savedKeys) {cmd : List UInt8} (hcmd : ch '\n' ∉ cmd) :
    ∀ line ∈ cmdLine key cmd, SavedLine line := by
  unfold cmdLine
  split
  · exact forall_mem_singleton.mpr (.key hkey hcmd)
  · exact fun _ h => nomatch h

theorem savedLine_of_mem {sec : DvbsecConfig} (h : sec.WellFormed) : ∀ line ∈ saveLines sec, SavedLine line := by
  have hcmd : ∀ cmd ∈ sec.commands, ch '\n' ∉ cmd :=
    fun cmd hmem hnewline => ((h.commands cmd hmem).chars _ hnewline).2.1 rfl
  simp only [DvbsecConfig.commands,forall_mem_cons,not_mem_nil,false_imp_iff,implies_true,
    and_true] at hcmd
  obtain ⟨hloH,hloV,hloL,hloR,hhiH,hhiV,hhiL,hhiR⟩ := hcmd
  have htype : ch '\n' ∉ configTypeName sec.configType := by
    cases sec.configType <;> decide
  have hcmds : ∀ line ∈ (if sec.configType = .advanced then
      cmdLine "cmd-lo-h" sec.advCmdLoH ++ cmdLine "cmd-lo-v" sec.advCmdLoV ++
        cmdLine "cmd-lo-r" sec.advCmdLoR ++ cmdLine "cmd-lo-l" sec.advCmdLoL ++
        cmdLine "cmd-hi-h" sec.advCmdHiH ++ cmdLine "cmd-hi-v" sec.advCmdHiV ++
        cmdLine "cmd-hi-r" sec.advCmdHiR ++ cmdLine "cmd-hi-l" sec.advCmdHiL
      else []), SavedLine line := by
    split
    · simp only [forall_mem_append]
      exact ⟨⟨⟨⟨⟨⟨⟨savedLine_cmd (by decide) hloH,savedLine_cmd (by decide) hloV⟩,
        savedLine_cmd (by decide) hloR⟩,savedLine_cmd (by decide) hloL⟩,savedLine_cmd (by decide) hhiH⟩,
        savedLine_cmd (by decide) hhiV⟩,savedLine_cmd (by decide) hhiR⟩,savedLine_cmd (by decide) hhiL⟩
    · exact fun _ h => nomatch h
  simp only [saveLines,forall_mem_append,forall_mem_cons,not_mem_nil,false_imp_iff,
    implies_true,and_true]
  exact ⟨⟨⟨⟨⟨⟨⟨⟨⟨⟨⟨⟨.header,.key (by decide) (not_mem_formatUInt _)⟩,savedLine_lof (by decide) _⟩,
    savedLine_lof (by decide) _⟩,savedLine_lof (by decide) _⟩,savedLine_lof (by decide) _⟩,
    savedLine_lof (by decide) _⟩,savedLine_lof (by decide) _⟩,savedLine_lof (by decide) _⟩,
    savedLine_lof (by decide) _⟩,.key (by decide) htype⟩,hcmds⟩,.empty⟩

theorem SavedLine.oneLine {line : List UInt8} (h : SavedLine line) : ch '\n' ∉ line := by
  have hkeys : ∀ key ∈ savedKeys, ch '\n' ∉ bytes key := by decide
  cases h with
  | header => decide
  | empty => decide
  | key known oneLine =>
    rw [keyLine,mem_append,mem_cons,not_or,not_or]
    exact ⟨hkeys _ known,by decide,oneLine⟩

theorem SavedLine.noSection {line : List UInt8} (h : SavedLine line) : NoSection (line ++ [ch '\n']) := by
  cases h with
  | header =>
    unfold NoSection
    decide
  | empty =>
    unfold NoSection
    decide
  | @key key value known oneLine =>
    have hkeys : ∀ key ∈ savedKeys, ∃ c ∈ (bytes key).head?, isspace c = false ∧ c ≠ 0 ∧ c ≠ ch '#' ∧
        c ≠ ch '[' := by decide
    obtain ⟨c,hc,hspace,hchar⟩ := hkeys key known
    obtain ⟨rest,hrest⟩ := List.head?_eq_some_iff.mp hc
    rw [keyLine,hrest]
    exact noSection_of_head hspace hchar _

end Saved

theorem load_saved {secs : List DvbsecConfig} (h : ∀ sec ∈ secs, sec.WellFormed) {σ : Type} (cb : Callback σ)
    (uninitialised : DvbsecConfig) (s : σ) :
    dvbsecCfgLoad uninitialised (dvbsecCfgSave secs) cb s = s := by
  have hlines : ∀ line ∈ (secs.map saveLines).flatten, SavedLine line := by
    intro line hline
    obtain ⟨lines,hlines,hmem⟩ := List.mem_flatten.mp hline
    obtain ⟨sec,hsec,rfl⟩ := mem_map.mp hlines
    exact savedLine_of_mem (h sec hsec) line hmem
  unfold dvbsecCfgLoad dvbsecCfgSave
  rw [getlines_unlines fun line hline => (hlines line hline).oneLine]
  apply loadLines_noSection
  intro line hline
  obtain ⟨saved,hsaved,rfl⟩ := mem_map.mp hline
  exact (hlines saved hsaved).noSection

/-- Only the empty list is read back. -/
theorem sec_round_trip_iff {secs : List DvbsecConfig} (h : ∀ sec ∈ secs, sec.WellFormed) :
    RoundTrips secs ↔ secs = [] := by
  constructor
  · intro hround
    have hload := (hround .zero).1
    rw [load_saved h] at hload
    exact hload.symm
  · rintro rfl
    exact fun uninitialised => ⟨load_saved h collect uninitialised [], fun _ hsec => nomatch hsec⟩

def universalSec : DvbsecConfig :=
  { DvbsecConfig.zero with
    id := bytes "roof", switchFrequency := 11700000, lofLoV := 9750000, lofLoH := 9750000,
    lofHiV := 10600000, lofHiH := 10600000, configType := .standard }

theorem universalSec_wellFormed : universalSec.WellFormed where
  id := ⟨by decide, by decide, by decide, by decide⟩
  commands := by
    intro cmd hcmd
    have hempty : ∀ cmd ∈ universalSec.commands, cmd = [] := by decide
    rw [hempty cmd hcmd]
    exact ⟨by decide,by decide,by decide,by decide⟩
  advanced := fun _ => by decide
  frequencies := by decide

theorem sec_round_trip_universal : RoundTrips [universalSec] ↔ [universalSec] = [] :=
  sec_round_trip_iff (List.forall_mem_singleton.mpr universalSec_wellFormed)

theorem sec_not_kept : ¬RoundTrips [universalSec] := by
  intro h
  exact absurd (h .zero).1 (by decide +kernel)

end LinuxDvb.Sec
