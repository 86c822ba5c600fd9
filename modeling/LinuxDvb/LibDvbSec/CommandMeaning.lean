import LinuxDvb.LibDvbSec.CommandLanguage

/-!
# What the commands mean

The frontend operations that the documentation gives a command, and the ones that the interpreter performs for it.
-/

namespace LinuxDvb.Sec

section Bcd

def bcd (n : Nat) : UInt8 := UInt8.ofNat (n / 10 * 16 + n % 10)

/-- The message for a frequency of at most six digits; the last two are left away if they are zero. -/
def frequencyMessage (address : UInt8) (frequency : Nat) : List UInt8 :=
  [diseqcFramingMasterNoreply, address, 0x58, bcd (frequency / 10000), bcd (frequency / 100 % 100)] ++
    if frequency % 100 = 0 then [] else [bcd (frequency % 100)]

def bcdNat : Nat → Nat → Nat
  | 0, _ => 0
  | rounds + 1, f => f % 10 + 16 * bcdNat rounds (f / 10)

theorem toNat_bcdFrom (rounds k : Nat) (hk : k + rounds ≤ 7) (f acc : UInt32) (hacc : acc.toNat < 16 ^ k) :
    (bcdFrom rounds (UInt32.ofNat (4 * k)) f acc).toNat = acc.toNat + 16 ^ k * bcdNat rounds f.toNat := by
  have hpower (j : Nat) : 16 ^ j = 2 ^ (4 * j) := by
    rw [Nat.pow_mul]
  induction rounds generalizing k f acc with
  | zero => rw [bcdFrom,bcdNat,Nat.mul_zero,Nat.add_zero]
  | succ rounds ih =>
    have hshift : (UInt32.ofNat (4 * k)).toNat % 32 = 4 * k := by
      rw [UInt32.toNat_ofNat']
      omega
    have hbound : 16 ^ (k + 1) ≤ 16 ^ 7 := Nat.pow_le_pow_right (by decide) (by omega)
    have hdigit : f.toNat % 10 < 10 := Nat.mod_lt _ (by decide)
    have hsum : (f.toNat % 10) <<< (4 * k) = 16 ^ k * (f.toNat % 10) := by
      rw [Nat.shiftLeft_eq,← hpower,Nat.mul_comm]
    have hless : 16 ^ k * (f.toNat % 10) ≤ 16 ^ k * 15 := Nat.mul_le_mul_left _ (by omega)
    have hsucc : 16 ^ (k + 1) = 16 ^ k * 16 := Nat.pow_succ ..
    have hor : (acc ||| ((f % 10) <<< UInt32.ofNat (4 * k))).toNat = acc.toNat + 16 ^ k * (f.toNat % 10) := by
      rw [UInt32.toNat_or,UInt32.toNat_shiftLeft,hshift,UInt32.toNat_mod]
      have hten : (10 : UInt32).toNat = 10 := rfl
      rw [hten,Nat.mod_eq_of_lt (by rw [hsum]; omega),Nat.or_comm,
        ← Nat.shiftLeft_add_eq_or_of_lt (by rwa [← hpower]),hsum,Nat.add_comm]
    have hnext : UInt32.ofNat (4 * k) + 4 = UInt32.ofNat (4 * (k + 1)) := by
      rw [Nat.mul_add,UInt32.ofNat_add]
      rfl
    have hten : (f / 10).toNat = f.toNat / 10 := rfl
    rw [bcdFrom,hnext,ih (k + 1) (by omega) (f / 10) _ (by rw [hor]; omega),hor,hten,bcdNat,hsucc,
      Nat.mul_add,← Nat.mul_assoc,Nat.add_assoc]

theorem toNat_bcd {a b : Nat} (ha : a < 10) (hb : b < 10) : (bcd (a * 10 + b)).toNat = a * 16 + b := by
  rw [bcd,UInt8.toNat_ofNat']
  omega

theorem bcdNat_digit (rounds a : Nat) {b : Nat} (hb : b < 10) :
    bcdNat (rounds + 1) (a * 10 + b) = b + 16 * bcdNat rounds a := by
  have hmod : (a * 10 + b) % 10 = b := by omega
  have hdiv : (a * 10 + b) / 10 = a := by omega
  rw [bcdNat,hmod,hdiv]

theorem three_bytes {low middle high : Nat} (hl : low < 256) (hm : middle < 256) (hh : high < 256) :
    (low + 256 * middle + 65536 * high) / 65536 % 256 = high ∧
      (low + 256 * middle + 65536 * high) / 256 % 256 = middle ∧
      (low + 256 * middle + 65536 * high) % 256 = low := by
  omega

theorem diseqcSetFrequency_message (address : UInt8) {f : Nat} (hf : f < 1000000) :
    diseqcSetFrequency address (UInt32.ofNat f) = [.doDiseqcCommand (frequencyMessage address f)] := by
  have htoNat : (UInt32.ofNat f).toNat = f := by
    rw [UInt32.toNat_ofNat']
    omega
  obtain ⟨d₀,d₁,d₂,d₃,d₄,d₅,h₀,h₁,h₂,h₃,h₄,h₅,hdigits⟩ : ∃ d₀ d₁ d₂ d₃ d₄ d₅,
      d₀ < 10 ∧ d₁ < 10 ∧ d₂ < 10 ∧ d₃ < 10 ∧ d₄ < 10 ∧ d₅ < 10 ∧
        f = ((((d₅ * 10 + d₄) * 10 + d₃) * 10 + d₂) * 10 + d₁) * 10 + d₀ :=
    ⟨f % 10,f / 10 % 10,f / 100 % 10,f / 1000 % 10,f / 10000 % 10,f / 100000 % 10,by omega⟩
  have hgroups : f / 100 % 100 = d₃ * 10 + d₂ ∧ f % 100 = d₁ * 10 + d₀ := by
    omega
  have htop : f / 10000 = d₅ * 10 + d₄ := by
    omega
  have hsix : bcdNat 2 d₅ = d₅ := by
    simp only [bcdNat]
    omega
  have hvalue : (bcdFrom 7 0 (UInt32.ofNat f) 0).toNat =
      (d₁ * 16 + d₀) + 256 * (d₃ * 16 + d₂) + 65536 * (d₅ * 16 + d₄) := by
    have hrun := toNat_bcdFrom 7 0 (by decide) (UInt32.ofNat f) 0 (by decide)
    rw [htoNat,hdigits,bcdNat_digit _ _ h₀,bcdNat_digit _ _ h₁,bcdNat_digit _ _ h₂,
      bcdNat_digit _ _ h₃,bcdNat_digit _ _ h₄,hsix] at hrun
    rw [hdigits]
    simp only [UInt32.toNat_zero,Nat.pow_zero,Nat.one_mul,Nat.zero_add] at hrun
    have hzero : UInt32.ofNat (4 * 0) = 0 := rfl
    rw [hzero] at hrun
    omega
  obtain ⟨hbyteHigh,hbyteMiddle,hbyteLow⟩ :=
    three_bytes (show d₁ * 16 + d₀ < 256 by omega) (show d₃ * 16 + d₂ < 256 by omega)
      (show d₅ * 16 + d₄ < 256 by omega)
  have hhigh : (bcdFrom 7 0 (UInt32.ofNat f) 0 >>> 16).toUInt8 = bcd (f / 10000) := by
    rw [← UInt8.toNat_inj,UInt32.toNat_toUInt8,UInt32.toNat_shiftRight,htop,toNat_bcd h₅ h₄,hvalue,
      Nat.shiftRight_eq_div_pow]
    exact hbyteHigh
  have hmiddle : (bcdFrom 7 0 (UInt32.ofNat f) 0 >>> 8).toUInt8 = bcd (f / 100 % 100) := by
    rw [← UInt8.toNat_inj,UInt32.toNat_toUInt8,UInt32.toNat_shiftRight,hgroups.1,toNat_bcd h₃ h₂,
      hvalue,Nat.shiftRight_eq_div_pow]
    exact hbyteMiddle
  have hlow : (bcdFrom 7 0 (UInt32.ofNat f) 0).toUInt8 = bcd (f % 100) := by
    rw [← UInt8.toNat_inj,UInt32.toNat_toUInt8,hgroups.2,toNat_bcd h₁ h₀,hvalue]
    exact hbyteLow
  have hzero : bcdFrom 7 0 (UInt32.ofNat f) 0 &&& 0xff ≠ 0 ↔ f % 100 ≠ 0 := by
    have hmask : (0xff : UInt32).toNat = 2 ^ 8 - 1 := rfl
    rw [ne_eq,← UInt32.toNat_inj,UInt32.toNat_and,hmask,Nat.and_two_pow_sub_one_eq_mod,hvalue,
      UInt32.toNat_zero,hgroups.2]
    change _ % 256 ≠ 0 ↔ _
    rw [hbyteLow]
    omega
  unfold diseqcSetFrequency frequencyMessage
  dsimp only
  rw [hhigh,hmiddle,hlow]
  by_cases hlast : f % 100 = 0
  · rw [if_neg (hzero.not.mpr (not_not_intro hlast)),if_pos hlast,append_nil]
  · rw [if_pos (hzero.mpr hlast),if_neg hlast]

theorem bcd_inj {m n : Nat} (hm : m < 100) (hn : n < 100) (h : bcd m = bcd n) : m = n := by
  unfold bcd at h
  rw [← UInt8.toNat_inj,UInt8.toNat_ofNat',UInt8.toNat_ofNat'] at h
  omega

theorem frequencyMessage_inj {a b : UInt8} {m n : Nat} (hm : m < 1000000) (hn : n < 1000000)
    (h : frequencyMessage a m = frequencyMessage b n) : a = b ∧ m = n := by
  unfold frequencyMessage at h
  rw [cons_append,cons_append,cons_append,cons_append,cons_append,
    cons_append,cons_append,cons_append,cons_append,cons_append] at h
  obtain ⟨-,h⟩ := List.cons.inj h
  obtain ⟨haddress,h⟩ := List.cons.inj h
  obtain ⟨-,h⟩ := List.cons.inj h
  obtain ⟨hhigh,h⟩ := List.cons.inj h
  obtain ⟨hmiddle,h⟩ := List.cons.inj h
  have hhigh := bcd_inj (by omega) (by omega) hhigh
  have hmiddle := bcd_inj (by omega) (by omega) hmiddle
  have hlow : m % 100 = n % 100 := by
    rw [nil_append,nil_append] at h
    by_cases hzero : m % 100 = 0
    · rw [if_pos hzero] at h
      by_cases hzero' : n % 100 = 0
      · rw [hzero,hzero']
      · rw [if_neg hzero'] at h
        cases h
    · rw [if_neg hzero] at h
      by_cases hzero' : n % 100 = 0
      · rw [if_pos hzero'] at h
        cases h
      · rw [if_neg hzero'] at h
        exact bcd_inj (by omega) (by omega) (List.cons.inj h).1
  refine ⟨haddress,?_⟩
  omega

end Bcd

section Meaning

def Numeral.byte (n : Numeral 0 256) : UInt8 := UInt8.ofNat n.value.toNat

namespace SecCommand

/-- The operations that the documentation describes, `none` where the frontend has no such operation: it
cannot sleep for more microseconds than an `unsigned int` holds, and a frequency message has six digits. -/
def documented : SecCommand → Option (List FeOp)
  | tone on => some [.set22kTone on]
  | voltage v => some [.setVoltage v]
  | toneburst mini => some [.setToneDataBurst mini]
  | highvoltage on => some [.setHighLnbVoltage on]
  | dishnetworks cmd => some [.doDishnetworksLegacyCommand (Int32.ofInt cmd.value).toUInt32]
  | wait ms =>
    if ms.value = 0 then some []
    else if ms.value * 1000 < 0x100000000 then some [.usleep (UInt32.ofNat (ms.value.toNat * 1000))]
    else none
  | dreset address enable => some (diseqcSetReset address.byte (if enable then .reset else .clear))
  | dpower address on => some (diseqcSetPower address.byte (if on then .on else .off))
  | dcommitted address oscillator polarization satPos switchOption =>
    some (diseqcSetCommittedSwitches address.byte oscillator polarization.val satPos switchOption)
  | duncommitted address s₁ s₂ s₃ s₄ => some (diseqcSetUncommittedSwitches address.byte s₁ s₂ s₃ s₄)
  | dfrequency address frequency =>
    if frequency.value < 1000000 then
      some [.doDiseqcCommand (frequencyMessage address.byte frequency.value.toNat)]
    else none
  | dchannel address channel => some (diseqcSetChannel address.byte (UInt16.ofNat channel.value.toNat))
  | dgotopreset address preset => some (diseqcGotoSatposPreset address.byte preset.byte)

/-- When the operations are the documented ones: the 22 kHz tone is not switched on, integers fit into the
buffer for them, times and frequencies into the operation, and an address of uncommitted switches is the code
of its own first character. -/
def Faithful : SecCommand → Prop
  | tone on => on = false
  | voltage _ | toneburst _ | highvoltage _ => True
  | dishnetworks cmd => cmd.Fits
  | wait ms => ms.Fits ∧ ms.value ≤ 2147483
  | dreset address _ | dpower address _ => address.Fits
  | dcommitted address oscillator polarization satPos switchOption =>
    address.Fits ∨ oscillator = .unchanged ∧ polarization.val = .unchanged ∧ satPos = .unchanged ∧
      switchOption = .unchanged
  | duncommitted address s₁ s₂ s₃ s₄ =>
    address.byte = address.text.headD 0 ∨ s₁ = .unchanged ∧ s₂ = .unchanged ∧ s₃ = .unchanged ∧
      s₄ = .unchanged
  | dfrequency address frequency => address.Fits ∧ frequency.Fits ∧ frequency.value < 1000000
  | dchannel address channel => address.Fits ∧ channel.Fits
  | dgotopreset address preset => address.Fits ∧ preset.Fits

-- what `usleep` is given for a number of milliseconds when the product overflows
variable (overflowed : Int32 → UInt32)

def performed : SecCommand → List FeOp
  | tone _ => [.set22kTone false]
  | voltage v => [.setVoltage v]
  | toneburst mini => [.setToneDataBurst mini]
  | highvoltage on => [.setHighLnbVoltage on]
  | dishnetworks cmd => [.doDishnetworksLegacyCommand (Int32.ofInt cmd.read).toUInt32]
  | wait ms => waitMs overflowed (Int32.ofInt ms.read)
  | dreset address enable =>
    diseqcSetReset (messageByte (Int32.ofInt address.read)) (if enable then .reset else .clear)
  | dpower address on => diseqcSetPower (messageByte (Int32.ofInt address.read)) (if on then .on else .off)
  | dcommitted address oscillator polarization satPos switchOption =>
    diseqcSetCommittedSwitches (messageByte (Int32.ofInt address.read)) oscillator polarization.val satPos
      switchOption
  | duncommitted address s₁ s₂ s₃ s₄ => diseqcSetUncommittedSwitches (address.text.headD 0) s₁ s₂ s₃ s₄
  | dfrequency address frequency =>
    diseqcSetFrequency (messageByte (Int32.ofInt address.read)) (Int32.ofInt frequency.read).toUInt32
  | dchannel address channel =>
    diseqcSetChannel (messageByte (Int32.ofInt address.read)) (Int32.ofInt channel.read).toUInt32.toUInt16
  | dgotopreset address preset =>
    diseqcGotoSatposPreset (messageByte (Int32.ofInt address.read)) (messageByte (Int32.ofInt preset.read))

end SecCommand

end Meaning

section Executed

variable (overflowed : Int32 → UInt32)

theorem execute_name {name full : List UInt8} (hname : name.map tolower = full.map tolower)
    (hzero : 0 ∉ name) (hfull : 0 ∉ full) (args : List UInt8) (rest : Option (List UInt8)) :
    execute overflowed ⟨name, args, rest⟩ = execute overflowed ⟨full, args, rest⟩ := by
  have hnamed (t : String) : strncaseeq name (bytes t) name.length = strncaseeq full (bytes t) full.length := by
    rw [strncaseeq_iff hzero,strncaseeq_iff hfull,abbreviates,abbreviates,hname]
  unfold execute
  simp only [hnamed]

theorem read_onOff (on : Bool) : (onOff on).read = if on then 1 else 0 := by
  cases on <;> decide

theorem read_volts (v : SecVoltage) : (volts v).read = match v with | .off => 0 | .v13 => 13 | .v18 => 18 := by
  cases v <;> decide

theorem parsechararg_onOff (on : Bool) (around : Nat → Blanks × Blanks) :
    parsechararg (padArgs around [(onOff on).text]) = .ok (some (if on then ch '1' else ch '0'), []) := by
  have hplain := (onOff on).text_plain
  cases on with
  | false => exact parsechararg_padArgs hplain [] around
  | true => exact parsechararg_padArgs hplain [] around

section Steps

variable {α : Type} {low high : Int}

theorem parseintarg_bind (n : Numeral low high) (hlow : -0x80000000 ≤ low) (hhigh : high ≤ 0x80000000)
    (args : List (List UInt8)) (around : Nat → Blanks × Blanks) (next : Int32 × List UInt8 → Except Stop α) :
    parseintarg (padArgs around (n.text :: args)) >>= next =
      next (Int32.ofInt n.read, padArgs (fun i => around (i + 1)) args) := by
  rw [parseintarg_padArgs n hlow hhigh]
  rfl

theorem parsechararg_bind {c : UInt8} {arg : List UInt8} (h : Plain (c :: arg)) (args : List (List UInt8))
    (around : Nat → Blanks × Blanks) (next : Option UInt8 × List UInt8 → Except Stop α) :
    parsechararg (padArgs around ((c :: arg) :: args)) >>= next =
      next (some c, padArgs (fun i => around (i + 1)) args) := by
  rw [parsechararg_padArgs h]
  rfl

end Steps

theorem parseSwitch_letter (s : DiseqcSwitch) : parseSwitch (switchLetter s) = s := by
  cases s <;> decide

theorem parseOscillator_letter (o : DiseqcOscillator) : parseOscillator (oscillatorLetter o) = o := by
  cases o <;> decide

theorem polarizationBits_parse (p : DiseqcPolarization) :
    polarizationBits (parsePolarization (polarizationLetter p)) = polarizationBits p := by
  cases p <;> decide

theorem execute_dcommitted (address : Address) (o : DiseqcOscillator)
    (p : { p : DiseqcPolarization // p ≠ .invalid }) (s t : DiseqcSwitch) (around : Nat → Blanks × Blanks)
    (rest : Option (List UInt8)) :
    execute overflowed ⟨bytes "Dcommitted", padArgs around (SecCommand.dcommitted address o p s t).args, rest⟩ =
      .ok ((SecCommand.dcommitted address o p s t).performed overflowed) := by
  simp +decide only [execute, SecCommand.args, ↓reduceIte]
  rw [parseintarg_bind address (by decide) (by decide),
    parsechararg_bind (plain_letter (oscillatorLetter_mem o)),
    parsechararg_bind (plain_letter (polarizationLetter_mem p.val)),
    parsechararg_bind (plain_letter (switchLetter_mem s)),
    parsechararg_bind (plain_letter (switchLetter_mem t))]
  dsimp only [used,bind,Except.bind,pure,Except.pure,SecCommand.performed]
  unfold diseqcSetCommittedSwitches
  rw [parseOscillator_letter,polarizationBits_parse,parseSwitch_letter,parseSwitch_letter]

theorem execute_duncommitted (address : Address) (s₁ s₂ s₃ s₄ : DiseqcSwitch)
    (around : Nat → Blanks × Blanks) (rest : Option (List UInt8)) :
    execute overflowed
        ⟨bytes "Duncommitted", padArgs around (SecCommand.duncommitted address s₁ s₂ s₃ s₄).args, rest⟩ =
      .ok ((SecCommand.duncommitted address s₁ s₂ s₃ s₄).performed overflowed) := by
  obtain ⟨c,text,htext⟩ := exists_cons_of_ne_nil address.text_plain.1
  have hplain := address.text_plain
  simp +decide only [execute, SecCommand.args, SecCommand.performed, ↓reduceIte]
  rw [htext] at hplain ⊢
  rw [parsechararg_bind hplain,parsechararg_bind (plain_letter (switchLetter_mem s₁)),
    parsechararg_bind (plain_letter (switchLetter_mem s₂)),
    parsechararg_bind (plain_letter (switchLetter_mem s₃)),
    parsechararg_bind (plain_letter (switchLetter_mem s₄))]
  dsimp only [used,bind,Except.bind,pure,Except.pure,List.headD]
  rw [parseSwitch_letter,parseSwitch_letter,parseSwitch_letter,parseSwitch_letter]

theorem execute_args (c : SecCommand) (around : Nat → Blanks × Blanks) (rest : Option (List UInt8)) :
    execute overflowed ⟨bytes c.name, padArgs around c.args, rest⟩ = .ok (c.performed overflowed) := by
  cases c with
  | tone on =>
    simp +decide only [execute, SecCommand.name, SecCommand.args, ↓reduceIte]
    rw [parsechararg_onOff]
    cases on <;> rfl
  | voltage v =>
    simp +decide only [execute, SecCommand.name, SecCommand.args, ↓reduceIte]
    rw [parseintarg_bind (volts v) (by decide) (by decide),read_volts]
    cases v <;> rfl
  | toneburst mini =>
    simp +decide only [execute, SecCommand.name, SecCommand.args, ↓reduceIte]
    rw [parsechararg_bind (plain_letter (by cases mini <;> decide))]
    cases mini <;> rfl
  | highvoltage on =>
    simp +decide only [execute, SecCommand.name, SecCommand.args, ↓reduceIte]
    rw [parseintarg_bind (onOff on) (by decide) (by decide),read_onOff]
    cases on <;> rfl
  | dishnetworks cmd =>
    simp +decide only [execute, SecCommand.name, SecCommand.args, ↓reduceIte]
    exact parseintarg_bind cmd (by decide) (by decide) _ _ _
  | wait ms =>
    simp +decide only [execute, SecCommand.name, SecCommand.args, ↓reduceIte]
    exact parseintarg_bind ms (by decide) (by decide) _ _ _
  | dreset address enable =>
    simp +decide only [execute, SecCommand.name, SecCommand.args, ↓reduceIte]
    rw [parseintarg_bind address (by decide) (by decide),
      parseintarg_bind (onOff enable) (by decide) (by decide),read_onOff]
    cases enable <;> rfl
  | dpower address on =>
    simp +decide only [execute, SecCommand.name, SecCommand.args, ↓reduceIte]
    rw [parseintarg_bind address (by decide) (by decide),
      parseintarg_bind (onOff on) (by decide) (by decide),read_onOff]
    cases on <;> rfl
  | dcommitted address o p s t => exact execute_dcommitted overflowed address o p s t around rest
  | duncommitted address s₁ s₂ s₃ s₄ => exact execute_duncommitted overflowed address s₁ s₂ s₃ s₄ around rest
  | dfrequency address frequency =>
    simp +decide only [execute, SecCommand.name, SecCommand.args, ↓reduceIte]
    rw [parseintarg_bind address (by decide) (by decide)]
    exact parseintarg_bind frequency (by decide) (by decide) _ _ _
  | dchannel address channel =>
    simp +decide only [execute, SecCommand.name, SecCommand.args, ↓reduceIte]
    rw [parseintarg_bind address (by decide) (by decide)]
    exact parseintarg_bind channel (by decide) (by decide) _ _ _
  | dgotopreset address preset =>
    simp +decide only [execute, SecCommand.name, SecCommand.args, ↓reduceIte]
    rw [parseintarg_bind address (by decide) (by decide)]
    exact parseintarg_bind preset (by decide) (by decide) _ _ _

end Executed

section Compared

variable (overflowed : Int32 → UInt32)

theorem toUInt32_ofInt {r : Int} (hr : 0 ≤ r) : (Int32.ofInt r).toUInt32 = UInt32.ofNat r.toNat := by
  obtain ⟨k,rfl⟩ := Int.eq_ofNat_of_zero_le hr
  rw [Int.toNat_natCast]
  apply UInt32.toBitVec_inj.mp
  exact BitVec.ofInt_natCast 32 k

theorem messageByte_ofInt {r : Int} (hr : 0 ≤ r) : messageByte (Int32.ofInt r) = UInt8.ofNat r.toNat := by
  rw [messageByte,toUInt32_ofInt hr,← UInt8.toNat_inj,UInt32.toNat_toUInt8,UInt32.toNat_ofNat',UInt8.toNat_ofNat']
  omega

theorem toUInt16_ofInt {r : Int} (hr : 0 ≤ r) : (Int32.ofInt r).toUInt32.toUInt16 = UInt16.ofNat r.toNat := by
  rw [toUInt32_ofInt hr,← UInt16.toNat_inj,UInt32.toNat_toUInt16,UInt32.toNat_ofNat',UInt16.toNat_ofNat']
  omega

namespace Numeral

variable {low high : Int}

theorem read_nonneg (n : Numeral low high) (hlow : 0 ≤ low) :
    0 ≤ n.read ∧ n.read ≤ n.value ∧ n.value < high ∧ (n.read = n.value ↔ n.Fits) := by
  have hvalue := n.value_nonneg hlow
  have hhigh : n.value < high := n.inRange.2
  rcases n.read_cases with ⟨hfits,hread⟩ | ⟨hfits,hread⟩
  · exact ⟨hread ▸ hvalue,Int.le_of_eq hread,hhigh,iff_of_true hread hfits⟩
  · exact ⟨by omega,by omega,hhigh,iff_of_false (by omega) hfits⟩

theorem messageByte_read (n : Numeral 0 256) : messageByte (Int32.ofInt n.read) = n.byte ↔ n.Fits := by
  obtain ⟨hread,hle,hhigh,hfits⟩ := n.read_nonneg (Int.le_refl 0)
  rw [messageByte_ofInt hread,byte,← hfits,← UInt8.toNat_inj,UInt8.toNat_ofNat',UInt8.toNat_ofNat']
  omega

theorem channel_read (n : Numeral 0 0x10000) :
    (Int32.ofInt n.read).toUInt32.toUInt16 = UInt16.ofNat n.value.toNat ↔ n.Fits := by
  obtain ⟨hread,hle,hhigh,hfits⟩ := n.read_nonneg (Int.le_refl 0)
  rw [toUInt16_ofInt hread,← hfits,← UInt16.toNat_inj,UInt16.toNat_ofNat',UInt16.toNat_ofNat']
  omega

theorem dishnetworks_read (n : Numeral (-0x80000000) 0x80000000) :
    (Int32.ofInt n.read).toUInt32 = (Int32.ofInt n.value).toUInt32 ↔ n.Fits := by
  have hrange : -0x80000000 ≤ n.value ∧ n.value < 0x80000000 := n.inRange
  constructor
  · intro h
    have hcases := n.read_cases
    have hints : (Int32.ofInt n.read).toInt = (Int32.ofInt n.value).toInt :=
      congrArg (fun cmd : UInt32 => cmd.toInt32.toInt) h
    rw [Int32.toInt_ofInt_of_le (by omega) (by omega),Int32.toInt_ofInt_of_le (by omega) (by omega)] at hints
    rcases hcases with ⟨hfits,-⟩ | ⟨-,hread⟩
    · exact hfits
    · omega
  · intro hfits
    rcases n.read_cases with ⟨-,hread⟩ | ⟨hnot,-⟩
    · rw [hread]
    · exact absurd hfits hnot

end Numeral

theorem waitMs_ofInt {r : Int} (hr : 0 ≤ r) (hhigh : r < 0x80000000) : waitMs overflowed (Int32.ofInt r) =
      if r = 0 then []
      else if r ≤ 2147483 then [.usleep (UInt32.ofNat (r.toNat * 1000))]
      else [.usleep (overflowed (Int32.ofInt r))] := by
  have htoInt : (Int32.ofInt r).toInt = r := Int32.toInt_ofInt_of_le (by omega) (by omega)
  have hzero : Int32.ofInt r = 0 ↔ r = 0 := by
    rw [← Int32.toInt_inj,htoInt]
    rfl
  have hmul : (Int32.ofInt r * 1000).toUInt32 = UInt32.ofNat (r.toNat * 1000) := by
    rw [Int32.toUInt32_mul,toUInt32_ofInt hr,UInt32.ofNat_mul]
    rfl
  unfold waitMs
  rw [htoInt,hmul]
  by_cases h : r = 0
  · rw [if_pos (hzero.mpr h),if_pos h]
  · rw [if_neg (hzero.not.mpr h),if_neg h]
    by_cases hsmall : r ≤ 2147483
    · rw [if_pos (by omega),if_pos hsmall]
    · rw [if_neg (by omega),if_neg hsmall]

theorem sendSwitches_inj {a b cmd data : UInt8} :
    sendSwitches a cmd data = sendSwitches b cmd data ↔ a = b ∨ data = 0 := by
  unfold sendSwitches
  by_cases hdata : data = 0
  · rw [if_pos hdata,if_pos hdata]
    exact iff_of_true rfl (.inr hdata)
  · rw [if_neg hdata,if_neg hdata]
    constructor
    · intro h
      injection h with h
      injection h with h
      injection h with _ h
      injection h with h
      exact .inl h
    · rintro (rfl | h)
      · rfl
      · exact absurd h hdata

theorem committed_unchanged (o : DiseqcOscillator) {p : DiseqcPolarization} (hp : p ≠ .invalid) (s t : DiseqcSwitch) :
    oscillatorBits o ||| polarizationBits p ||| switchBits 0x40 0x44 s ||| switchBits 0x80 0x88 t = 0 ↔
      o = .unchanged ∧ p = .unchanged ∧ s = .unchanged ∧ t = .unchanged := by
  cases p with
  | invalid => exact absurd rfl hp
  | _ => clear hp; cases o <;> cases s <;> cases t <;> decide

theorem uncommitted_unchanged (s₁ s₂ s₃ s₄ : DiseqcSwitch) :
    switchBits 0x10 0x11 s₁ ||| switchBits 0x20 0x22 s₂ ||| switchBits 0x40 0x44 s₃ |||
        switchBits 0x80 0x88 s₄ = 0 ↔
      s₁ = .unchanged ∧ s₂ = .unchanged ∧ s₃ = .unchanged ∧ s₄ = .unchanged := by
  cases s₁ <;> cases s₂ <;> cases s₃ <;> cases s₄ <;> decide

theorem wait_faithful (ms : Numeral 0 0x80000000) (h : (SecCommand.wait ms).Faithful) :
    (SecCommand.wait ms).documented = some ((SecCommand.wait ms).performed overflowed) := by
  obtain ⟨hfits,hsmall⟩ := h
  obtain ⟨hread,-,hhigh,hiff⟩ := ms.read_nonneg (Int.le_refl 0)
  have hsame := hiff.mpr hfits
  dsimp only [SecCommand.documented,SecCommand.performed]
  rw [waitMs_ofInt overflowed hread (by omega),hsame]
  by_cases hzero : ms.value = 0
  · rw [if_pos hzero,if_pos hzero]
  · rw [if_neg hzero,if_neg hzero,if_pos (by omega),if_pos hsmall]

theorem faithful_wait (ms : Numeral 0 0x80000000)
    (h : (SecCommand.wait ms).documented = some ((SecCommand.wait ms).performed fun _ => 0)) :
    (SecCommand.wait ms).Faithful := by
  obtain ⟨hread,hle,hhigh,hiff⟩ := ms.read_nonneg (Int.le_refl 0)
  dsimp only [SecCommand.documented,SecCommand.performed] at h
  rw [waitMs_ofInt _ hread (by omega)] at h
  change ms.Fits ∧ ms.value ≤ 2147483
  rw [← hiff]
  by_cases hzero : ms.value = 0
  · omega
  rw [if_neg hzero] at h
  by_cases hfrontend : ms.value * 1000 < 0x100000000
  swap
  · rw [if_neg hfrontend] at h
    cases h
  rw [if_pos hfrontend] at h
  have hops := Option.some.inj h
  have htoNat (k : Nat) (hk : k < 0x100000000) : (UInt32.ofNat k).toNat = k := by
    rw [UInt32.toNat_ofNat']
    omega
  by_cases hread' : ms.read = 0
  · rw [if_pos hread'] at hops
    cases hops
  rw [if_neg hread'] at hops
  by_cases hsmall : ms.read ≤ 2147483
  · rw [if_pos hsmall] at hops
    have husec := congrArg UInt32.toNat (FeOp.usleep.inj (List.cons.inj hops).1)
    rw [htoNat _ (by omega),htoNat _ (by omega)] at husec
    omega
  · rw [if_neg hsmall] at hops
    have husec := congrArg UInt32.toNat (FeOp.usleep.inj (List.cons.inj hops).1)
    rw [htoNat _ (by omega),UInt32.toNat_zero] at husec
    omega

theorem frequency_read (address : Address) (frequency : Numeral 0 0x80000000) :
    (SecCommand.dfrequency address frequency).documented =
        some ((SecCommand.dfrequency address frequency).performed overflowed) ↔
      (SecCommand.dfrequency address frequency).Faithful := by
  obtain ⟨haddress,haddressLe,haddressHigh,haddressFits⟩ := address.read_nonneg (Int.le_refl 0)
  obtain ⟨hread,hle,hhigh,hfits⟩ := frequency.read_nonneg (Int.le_refl 0)
  dsimp only [SecCommand.documented,SecCommand.performed,SecCommand.Faithful]
  rw [toUInt32_ofInt hread]
  by_cases hsix : frequency.value < 1000000
  · rw [if_pos hsix,diseqcSetFrequency_message _ (by omega),some_inj,← address.messageByte_read,
      ← hfits]
    constructor
    · intro h
      obtain ⟨hbyte,hfrequency⟩ := frequencyMessage_inj (by omega) (by omega)
        (FeOp.doDiseqcCommand.inj (List.cons.inj h).1)
      exact ⟨hbyte.symm,by omega,hsix⟩
    · rintro ⟨hbyte,hsame,-⟩
      rw [hbyte,hsame]
  · rw [if_neg hsix]
    exact iff_of_false (fun h => by cases h) fun h => hsix h.2.2

theorem doDiseqcCommand_inj {a b : List UInt8} :
    some [FeOp.doDiseqcCommand a] = some [FeOp.doDiseqcCommand b] ↔ a = b := by
  constructor
  · intro h
    exact FeOp.doDiseqcCommand.inj (List.cons.inj (Option.some.inj h)).1
  · rintro rfl
    rfl

theorem channel_bytes_inj {a b : UInt16} (hhigh : (a >>> 8).toUInt8 = (b >>> 8).toUInt8)
    (hlow : a.toUInt8 = b.toUInt8) : a = b := by
  rw [← UInt8.toNat_inj,UInt16.toNat_toUInt8,UInt16.toNat_toUInt8,UInt16.toNat_shiftRight,
    UInt16.toNat_shiftRight,Nat.shiftRight_eq_div_pow,Nat.shiftRight_eq_div_pow] at hhigh
  rw [← UInt8.toNat_inj,UInt16.toNat_toUInt8,UInt16.toNat_toUInt8] at hlow
  simp only [UInt16.reduceToNat,Nat.reduceMod,Nat.reducePow] at hhigh
  have ha := a.toNat_lt
  have hb := b.toNat_lt
  apply UInt16.toNat_inj.mp
  omega

theorem documented_of_faithful {c : SecCommand} (h : c.Faithful) : c.documented = some (c.performed overflowed) := by
  cases c with
  | tone on =>
    obtain rfl : on = false := h
    rfl
  | voltage | toneburst | highvoltage => rfl
  | dishnetworks cmd =>
    dsimp only [SecCommand.documented,SecCommand.performed]
    rw [cmd.dishnetworks_read.mpr h]
  | wait ms => exact wait_faithful overflowed ms h
  | dreset address enable =>
    dsimp only [SecCommand.documented,SecCommand.performed]
    rw [address.messageByte_read.mpr h]
  | dpower address on =>
    dsimp only [SecCommand.documented,SecCommand.performed]
    rw [address.messageByte_read.mpr h]
  | dcommitted address o p s t =>
    dsimp only [SecCommand.documented,SecCommand.performed]
    rw [some_inj]
    exact sendSwitches_inj.mpr (Or.imp (fun hfits => (address.messageByte_read.mpr hfits).symm)
      (committed_unchanged o p.property s t).mpr h)
  | duncommitted address s₁ s₂ s₃ s₄ =>
    dsimp only [SecCommand.documented,SecCommand.performed]
    rw [some_inj]
    exact sendSwitches_inj.mpr (h.imp_right (uncommitted_unchanged s₁ s₂ s₃ s₄).mpr)
  | dfrequency address frequency => exact (frequency_read overflowed address frequency).mpr h
  | dchannel address channel =>
    dsimp only [SecCommand.documented,SecCommand.performed]
    rw [address.messageByte_read.mpr h.1,channel.channel_read.mpr h.2]
  | dgotopreset address preset =>
    dsimp only [SecCommand.documented,SecCommand.performed]
    rw [address.messageByte_read.mpr h.1,preset.messageByte_read.mpr h.2]

theorem faithful_of_documented {c : SecCommand} (h : c.documented = some (c.performed fun _ => 0)) : c.Faithful := by
  cases c with
  | tone on =>
    have hops := (List.cons.inj (Option.some.inj h)).1
    exact FeOp.set22kTone.inj hops
  | voltage | toneburst | highvoltage => exact trivial
  | dishnetworks cmd =>
    have hops := (List.cons.inj (Option.some.inj h)).1
    exact cmd.dishnetworks_read.mp (FeOp.doDishnetworksLegacyCommand.inj hops).symm
  | wait ms => exact faithful_wait ms h
  | dreset address enable =>
    have hbytes := List.cons.inj (List.cons.inj (doDiseqcCommand_inj.mp h)).2
    exact address.messageByte_read.mp hbytes.1.symm
  | dpower address on =>
    have hbytes := List.cons.inj (List.cons.inj (doDiseqcCommand_inj.mp h)).2
    exact address.messageByte_read.mp hbytes.1.symm
  | dcommitted address o p s t =>
    exact Or.imp (fun hbyte => address.messageByte_read.mp hbyte.symm)
      (committed_unchanged o p.property s t).mp (sendSwitches_inj.mp (Option.some.inj h))
  | duncommitted address s₁ s₂ s₃ s₄ =>
    exact (sendSwitches_inj.mp (Option.some.inj h)).imp_right (uncommitted_unchanged s₁ s₂ s₃ s₄).mp
  | dfrequency address frequency => exact (frequency_read _ address frequency).mp h
  | dchannel address channel =>
    have hbytes := List.cons.inj (List.cons.inj (doDiseqcCommand_inj.mp h)).2
    have hchannel := List.cons.inj (List.cons.inj hbytes.2).2
    have hlow := (List.cons.inj hchannel.2).1
    exact ⟨address.messageByte_read.mp hbytes.1.symm,channel.channel_read.mp (channel_bytes_inj hchannel.1 hlow).symm⟩
  | dgotopreset address preset =>
    have hbytes := List.cons.inj (List.cons.inj (doDiseqcCommand_inj.mp h)).2
    have hpreset := (List.cons.inj (List.cons.inj hbytes.2).2).1
    exact ⟨address.messageByte_read.mp hbytes.1.symm,preset.messageByte_read.mp hpreset.symm⟩

theorem length_performed_le {c : SecCommand} {ops : List FeOp} (h : c.documented = some ops) :
    (c.performed overflowed).length ≤ ops.length := by
  have hswitches (a b cmd data : UInt8) :
      (sendSwitches a cmd data).length = (sendSwitches b cmd data).length := by
    unfold sendSwitches
    split <;> rfl
  cases c with
  | wait ms =>
    obtain ⟨hread,hle,hhigh,-⟩ := ms.read_nonneg (Int.le_refl 0)
    dsimp only [SecCommand.documented,SecCommand.performed] at h ⊢
    rw [waitMs_ofInt overflowed hread (by omega)]
    by_cases hzero : ms.value = 0
    · rw [if_pos (by omega)]
      exact Nat.zero_le _
    rw [if_neg hzero] at h
    split at h
    · obtain rfl := Option.some.inj h
      split
      · exact Nat.zero_le _
      · split <;> exact Nat.le_refl 1
    · cases h
  | dcommitted address o p s t =>
    obtain rfl := Option.some.inj h
    exact Nat.le_of_eq (hswitches ..)
  | duncommitted address s₁ s₂ s₃ s₄ =>
    obtain rfl := Option.some.inj h
    exact Nat.le_of_eq (hswitches ..)
  | dfrequency address frequency =>
    dsimp only [SecCommand.documented] at h
    split at h
    · obtain rfl := Option.some.inj h
      exact Nat.le_refl 1
    · cases h
  | _ =>
    obtain rfl := Option.some.inj h
    exact Nat.le_refl 1

end Compared

end LinuxDvb.Sec
