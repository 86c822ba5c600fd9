import LinuxDvb.LibDvbSec.CommandSafety
import LinuxDvb.LibDvbSec.Numeral

/-!
# The language of SEC commands

The commands that are documented, with arguments of the documented kinds, and all the ways to write them: in
upper or lower case, and with white space around everything.
-/

namespace LinuxDvb.Sec

abbrev Address := Numeral 0 256

/-- A documented command. A polarization is one of the enumeration or no change. -/
inductive SecCommand where
  | tone (on : Bool)
  | voltage (voltage : SecVoltage)
  | toneburst (minicmd : SecMini)
  | highvoltage (on : Bool)
  | dishnetworks (cmd : Numeral (-0x80000000) 0x80000000)
  | wait (ms : Numeral 0 0x80000000)
  | dreset (address : Address) (enable : Bool)
  | dpower (address : Address) (on : Bool)
  | dcommitted (address : Address) (oscillator : DiseqcOscillator)
      (polarization : { p : DiseqcPolarization // p ≠ .invalid }) (satPos switchOption : DiseqcSwitch)
  | duncommitted (address : Address) (s₁ s₂ s₃ s₄ : DiseqcSwitch)
  | dfrequency (address : Address) (frequency : Numeral 0 0x80000000)
  | dchannel (address : Address) (channel : Numeral 0 0x10000)
  | dgotopreset (address : Address) (preset : Numeral 0 256)

section Arguments

def onOff (on : Bool) : Numeral 0 2 where
  sign := []
  digits := if on then [ch '1'] else [ch '0']
  magnitude := if on then 1 else 0
  isSign := .inl rfl
  isDigits := by
    cases on with
    | false => exact .octal (List.forall_mem_nil _)
    | true => exact IsDigits.decimal (by decide) (by unfold AllDigits; decide +kernel)
  inRange := by cases on <;> decide

def volts (voltage : SecVoltage) : Numeral 0 19 where
  sign := []
  digits :=
    match voltage with
    | .off => [ch '0']
    | .v13 => [ch '1', ch '3']
    | .v18 => [ch '1', ch '8']
  magnitude :=
    match voltage with
    | .off => 0
    | .v13 => 13
    | .v18 => 18
  isSign := .inl rfl
  isDigits := by
    cases voltage with
    | off => exact .octal (List.forall_mem_nil _)
    | v13 => exact IsDigits.decimal (by decide) (by unfold AllDigits; decide +kernel)
    | v18 => exact IsDigits.decimal (by decide) (by unfold AllDigits; decide +kernel)
  inRange := by cases voltage <;> decide

def oscillatorLetter : DiseqcOscillator → UInt8
  | .high => ch 'h'
  | .low => ch 'l'
  | .unchanged => ch 'x'

def polarizationLetter : DiseqcPolarization → UInt8
  | .v => ch 'v'
  | .h => ch 'h'
  | .l => ch 'l'
  | .r => ch 'r'
  | _ => ch 'x'

def switchLetter : DiseqcSwitch → UInt8
  | .a => ch 'a'
  | .b => ch 'b'
  | .unchanged => ch 'x'

end Arguments

namespace SecCommand

def name : SecCommand → String
  | tone .. => "tone"
  | voltage .. => "voltage"
  | toneburst .. => "toneburst"
  | highvoltage .. => "highvoltage"
  | dishnetworks .. => "dishnetworks"
  | wait .. => "wait"
  | dreset .. => "Dreset"
  | dpower .. => "Dpower"
  | dcommitted .. => "Dcommitted"
  | duncommitted .. => "Duncommitted"
  | dfrequency .. => "Dfrequency"
  | dchannel .. => "Dchannel"
  | dgotopreset .. => "Dgotopreset"

def args : SecCommand → List (List UInt8)
  | tone on => [(onOff on).text]
  | voltage v => [(volts v).text]
  | toneburst mini => [[if mini = .a then ch 'a' else ch 'b']]
  | highvoltage on => [(onOff on).text]
  | dishnetworks cmd => [cmd.text]
  | wait ms => [ms.text]
  | dreset address enable => [address.text, (onOff enable).text]
  | dpower address on => [address.text, (onOff on).text]
  | dcommitted address oscillator polarization satPos switchOption =>
    [address.text, [oscillatorLetter oscillator], [polarizationLetter polarization.val],
      [switchLetter satPos], [switchLetter switchOption]]
  | duncommitted address s₁ s₂ s₃ s₄ =>
    [address.text, [switchLetter s₁], [switchLetter s₂], [switchLetter s₃], [switchLetter s₄]]
  | dfrequency address frequency => [address.text, frequency.text]
  | dchannel address channel => [address.text, channel.text]
  | dgotopreset address preset => [address.text, preset.text]

end SecCommand

abbrev Blanks := { s : List UInt8 // ∀ c ∈ s, isspace c = true }

/-- Arguments with commas between them, and white space in front of and behind each of them. -/
def padArgs (around : Nat → Blanks × Blanks) : List (List UInt8) → List UInt8
  | [] => []
  | [arg] => (around 0).1.val ++ (arg ++ (around 0).2.val)
  | arg :: args =>
    (around 0).1.val ++ (arg ++ (around 0).2.val ++ ch ',' :: padArgs (fun i => around (i + 1)) args)

structure Written where
  command : SecCommand
  before : Blanks
  name : List UInt8
  isName : name.map tolower = (bytes command.name).map tolower
  gap : Blanks
  around : Nat → Blanks × Blanks

def Written.text (w : Written) : List UInt8 :=
  w.before.val ++ (w.name ++ w.gap.val ++ ch '(' :: (padArgs w.around w.command.args ++ [ch ')']))

def render : List Written → List UInt8
  | [] => []
  | w :: ws => w.text ++ render ws

structure Unknown where
  before : List UInt8
  name : List UInt8
  args : List UInt8
  isCommand : IsCommand before name args
  noZero : 0 ∉ name ++ args
  unknown : ∀ command ∈ commands, name.map tolower ≠ (bytes command.1).map tolower

def Unknown.text (u : Unknown) : List UInt8 := u.before ++ (u.name ++ ch '(' :: (u.args ++ [ch ')']))

section Padding

def Plain (arg : List UInt8) : Prop :=
  arg ≠ [] ∧ (∀ c ∈ arg.head?, isspace c = false) ∧ ch ',' ∉ arg ∧ ch ')' ∉ arg

theorem not_mem_blanks (blanks : Blanks) {c : UInt8} (hc : isspace c = false) : c ∉ blanks.val := by
  intro hmem
  rw [blanks.property c hmem] at hc
  cases hc

theorem skipwhite_plain {arg : List UInt8} (h : Plain arg) (blanks : Blanks) (behind : List UInt8) :
    skipwhite (blanks.val ++ (arg ++ behind)) = some (arg ++ behind) := by
  rw [skipwhite_append blanks.property]
  obtain ⟨c,arg,rfl⟩ := exists_cons_of_ne_nil h.1
  exact skipwhite_cons (h.2.1 c rfl) _

theorem getarg_padArgs {arg : List UInt8} (h : Plain arg) (args : List (List UInt8)) (around : Nat → Blanks × Blanks) :
    getarg (padArgs around (arg :: args)) =
      .ok (arg ++ (around 0).2.val, padArgs (fun i => around (i + 1)) args) := by
  have hcomma : ch ',' ∉ arg ++ (around 0).2.val := fun hc =>
    (mem_append.mp hc).elim h.2.2.1 (not_mem_blanks _ (by decide))
  unfold getarg
  cases args with
  | nil =>
    have hskip : skipwhite (padArgs around [arg]) = some (arg ++ (around 0).2.val) :=
      skipwhite_plain h (around 0).1 _
    have hends : getstringupto (arg ++ (around 0).2.val) (bytes ",") = (arg ++ (around 0).2.val, []) :=
      getstringupto_ends hcomma
    rw [hskip]
    simp only [hends]
    rfl
  | cons next args =>
    have hskip : skipwhite (padArgs around (arg :: next :: args)) =
        some (arg ++ ((around 0).2.val ++ ch ',' :: padArgs (fun i => around (i + 1)) (next :: args))) := by
      rw [padArgs,append_assoc,skipwhite_plain h]
      exact cons_ne_nil _ _
    have hstops : getstringupto (arg ++ (around 0).2.val ++ ch ',' :: padArgs (fun i => around (i + 1))
        (next :: args)) (bytes ",") =
        (arg ++ (around 0).2.val, ch ',' :: padArgs (fun i => around (i + 1)) (next :: args)) :=
      getstringupto_stops hcomma _
    rw [append_assoc] at hstops
    rw [hskip]
    simp only [hstops]
    rfl

variable {low high : Int}

theorem parseintarg_padArgs (n : Numeral low high) (hlow : -0x80000000 ≤ low) (hhigh : high ≤ 0x80000000)
    (args : List (List UInt8)) (around : Nat → Blanks × Blanks) :
    parseintarg (padArgs around (n.text :: args)) =
      .ok (Int32.ofInt n.read, padArgs (fun i => around (i + 1)) args) := by
  unfold parseintarg
  rw [getarg_padArgs n.text_plain]
  dsimp only [bind,Except.bind]
  rw [n.sscanfInt_text (around 0).2.property hlow hhigh]
  rfl

theorem parsechararg_padArgs {c : UInt8} {arg : List UInt8} (h : Plain (c :: arg)) (args : List (List UInt8))
    (around : Nat → Blanks × Blanks) :
    parsechararg (padArgs around ((c :: arg) :: args)) =
      .ok (some c, padArgs (fun i => around (i + 1)) args) := by
  unfold parsechararg
  rw [getarg_padArgs h]
  rfl

end Padding

section Wellformed

def letters : List UInt8 := [ch 'a', ch 'b', ch 'h', ch 'l', ch 'r', ch 'v', ch 'x']

theorem plain_letter {c : UInt8} (h : c ∈ letters) : Plain [c] := by
  have hclean : ∀ c ∈ letters, isspace c = false ∧ ch ',' ≠ c ∧ ch ')' ≠ c := by decide +kernel
  obtain ⟨hspace,hcomma,hparen⟩ := hclean c h
  refine ⟨cons_ne_nil _ _,?_,List.not_mem_cons_of_ne_of_not_mem hcomma (not_mem_nil),
    List.not_mem_cons_of_ne_of_not_mem hparen (not_mem_nil)⟩
  intro d hd
  obtain rfl := Option.some.inj hd
  exact hspace

theorem oscillatorLetter_mem (o : DiseqcOscillator) : oscillatorLetter o ∈ letters := by
  cases o <;> decide

theorem polarizationLetter_mem (p : DiseqcPolarization) : polarizationLetter p ∈ letters := by
  cases p <;> decide

theorem switchLetter_mem (s : DiseqcSwitch) : switchLetter s ∈ letters := by
  cases s <;> decide

theorem plain_args (c : SecCommand) : ∀ arg ∈ c.args, Plain arg := by
  have hswitch (s : DiseqcSwitch) := plain_letter (switchLetter_mem s)
  have htwo {a b : List UInt8} (ha : Plain a) (hb : Plain b) : ∀ arg ∈ [a, b], Plain arg :=
    forall_mem_cons.mpr ⟨ha,forall_mem_singleton.mpr hb⟩
  cases c with
  | tone on => exact forall_mem_singleton.mpr (onOff on).text_plain
  | voltage v => exact forall_mem_singleton.mpr (volts v).text_plain
  | toneburst mini => exact forall_mem_singleton.mpr (plain_letter (by cases mini <;> decide))
  | highvoltage on => exact forall_mem_singleton.mpr (onOff on).text_plain
  | dishnetworks n => exact forall_mem_singleton.mpr n.text_plain
  | wait n => exact forall_mem_singleton.mpr n.text_plain
  | dreset address enable => exact htwo address.text_plain (onOff enable).text_plain
  | dpower address on => exact htwo address.text_plain (onOff on).text_plain
  | dcommitted address o p s t =>
    exact forall_mem_cons.mpr ⟨address.text_plain,forall_mem_cons.mpr
      ⟨plain_letter (oscillatorLetter_mem o),forall_mem_cons.mpr
        ⟨plain_letter (polarizationLetter_mem _),htwo (hswitch s) (hswitch t)⟩⟩⟩
  | duncommitted address s₁ s₂ s₃ s₄ =>
    exact forall_mem_cons.mpr ⟨address.text_plain,forall_mem_cons.mpr
      ⟨hswitch s₁,forall_mem_cons.mpr ⟨hswitch s₂,htwo (hswitch s₃) (hswitch s₄)⟩⟩⟩
  | dfrequency address frequency => exact htwo address.text_plain frequency.text_plain
  | dchannel address channel => exact htwo address.text_plain channel.text_plain
  | dgotopreset address preset => exact htwo address.text_plain preset.text_plain

theorem padArgs_closing {args : List (List UInt8)} (h : ∀ arg ∈ args, ch ')' ∉ arg)
    (around : Nat → Blanks × Blanks) : ch ')' ∉ padArgs around args := by
  have hblanks (blanks : Blanks) : ch ')' ∉ blanks.val := not_mem_blanks blanks (by decide)
  induction args generalizing around with
  | nil => exact not_mem_nil
  | cons arg args ih =>
    obtain ⟨harg,hargs⟩ := forall_mem_cons.mp h
    have hpadded : ch ')' ∉ arg ++ (around 0).2.val := fun hc =>
      (mem_append.mp hc).elim harg (hblanks _)
    cases args with
    | nil => exact fun hc => (mem_append.mp hc).elim (hblanks _) hpadded
    | cons next args =>
      intro hc
      rw [padArgs] at hc
      · rcases mem_append.mp hc with hc | hc
        · exact hblanks _ hc
        rcases mem_append.mp hc with hc | hc
        · exact hpadded hc
        rcases mem_cons.mp hc with hc | hc
        · exact absurd hc (by decide)
        · exact ih hargs _ hc
      · exact cons_ne_nil _ _

theorem name_mem (c : SecCommand) : c.name ∈ commands.map Prod.fst := by
  cases c <;> dsimp only [SecCommand.name] <;> decide

theorem name_letters {name : String} (h : name ∈ commands.map Prod.fst) : bytes name ≠ [] ∧
    ∀ d ∈ (bytes name).map tolower, d ≠ 0 ∧ d ≠ ch '(' ∧ isspace d = false := by
  revert name
  decide +kernel

theorem isspace_tolower {c : UInt8} (h : isspace c = true) : isspace (tolower c) = true := by
  rcases isspace_cases h with rfl | rfl | rfl | rfl | rfl | rfl <;> decide

namespace Written

variable (w : Written)

theorem name_clean {d : UInt8} (h : d ∈ w.name) : tolower d ≠ 0 ∧ tolower d ≠ ch '(' ∧ isspace (tolower d) = false :=
  (name_letters (name_mem w.command)).2 _ (w.isName ▸ mem_map_of_mem h)

theorem zero_not_mem : 0 ∉ w.name ++ w.gap.val := by
  intro h
  rcases mem_append.mp h with h | h
  · exact (w.name_clean h).1 (by decide)
  · exact not_mem_blanks w.gap (by decide) h

theorem name_ne_nil : w.name ≠ [] := by
  intro hnil
  have hname := w.isName
  rw [hnil] at hname
  exact (name_letters (name_mem w.command)).1 (map_eq_nil_iff.mp hname.symm)

theorem isCommand : IsCommand w.before.val (w.name ++ w.gap.val) (padArgs w.around w.command.args) where
  skipped := w.before.property
  starts := by
    obtain ⟨c,name,hname⟩ := exists_cons_of_ne_nil w.name_ne_nil
    have hclean := (w.name_clean (d := c) (by rw [hname]; exact mem_cons_self ..)).2.2
    rw [hname]
    intro d hd
    obtain rfl := Option.some.inj hd
    by_contra hspace
    rw [isspace_tolower (by simpa using hspace)] at hclean
    cases hclean
  opening := by
    intro h
    rcases mem_append.mp h with h | h
    · exact (w.name_clean h).2.1 (by decide)
    · exact not_mem_blanks w.gap (by decide) h
  closing := padArgs_closing (fun arg harg => (plain_args w.command arg harg).2.2.2) w.around

end Written

end Wellformed

end LinuxDvb.Sec
