import LinuxDvb.Framework.Trace

/-!
# The CU1216 driver

One driver serves the TDA10021 and the TDA10023. Which of them a card has is read from the identity register at the
start of every tuning, into a variable that all frontends share.
-/

namespace LinuxDvb.Cu1216

/-- `fe_modulation_t`; a user can pass any number. -/
inductive Modulation where
  | qpsk
  | qam16
  | qam32
  | qam64
  | qam128
  | qam256
  | other (v : Nat)
  deriving DecidableEq

/-- `MK1`, the identity of a TDA10021. -/
def mk1Identity : Nat := 0x7c

/-- `MK3`, the identity of a TDA10023. -/
def mk3Identity : Nat := 0x7d

/-- `cu1216_writereg` and `cu1216_writereg_mask` -/
inductive RegWrite where
  | write (reg data : Nat)
  | mask (reg mask data : Nat)
  deriving DecidableEq

def RegWrite.data : RegWrite → Nat
  | .write _ data => data
  | .mask _ _ data => data

/-! ## The symbol rate -/

def sysClk : Nat := 28920000 * (0x07 + 1) / ((0x00 + 1) * (0x03 + 1)) / 1000

/-- The inverse of the symbol rate, with decimation by `2 ^ bNdec`. -/
def freqSymbInv (bNdec uFreqSymb : Nat) : Nat :=
  let inv := ((sysClk * 16) >>> bNdec + uFreqSymb / 2) / uFreqSymb
  if inv > 255 then 255 else inv

def bdr (bNdec uFreqSymb : Nat) : Nat :=
  let unit := 1 <<< (24 + bNdec)
  let clk := sysClk / 10
  (unit / clk * uFreqSymb + unit % clk * uFreqSymb / clk) / 10

def rateRegisters (bNdec uFreqSymb : Nat) : List RegWrite :=
  [.write 0x0a (bdr bNdec uFreqSymb % 256), .write 0x0b (bdr bNdec uFreqSymb / 256 % 256),
    .write 0x0c (bdr bNdec uFreqSymb / 65536 % 256),
    .write 0x0d (freqSymbInv bNdec uFreqSymb)]

def decimation (uSR : Nat) : Nat × Nat :=
  if uSR / 10 < sysClk / 984 then (3, 1)
  else if uSR / 10 < sysClk / 640 then (3, 0)
  else if uSR / 10 < sysClk / 492 then (2, 1)
  else if uSR / 10 < sysClk / 320 then (2, 0)
  else if uSR / 10 < sysClk / 246 then (1, 1)
  else if uSR / 10 < sysClk / 160 then (1, 0)
  else if uSR / 10 < sysClk / 123 then (0, 1)
  else (0, 0)

/-- What `cu1216_set_symbolRate` writes for a rate that is not zero. The TDA10021 has no decimation, and the filter that
is calculated for it is not used. -/
def symbolRateWrites (mk1 : Bool) (uFreqSymb : Nat) : List RegWrite :=
  if mk1 then [.write 0x0e 0x23, .write 0x03 0x0a] ++ rateRegisters 0 uFreqSymb
  else
    let (bNdec, bSFil) := decimation uFreqSymb
    [.mask 0x3d 0x80 (bSFil * 128), .mask 0x03 0xc0 (bNdec * 64)] ++ rateRegisters bNdec uFreqSymb

/-! ## The modulation -/

/-- The index in the tables that `cu1216_set_parameters` takes for a TDA10021, and for a TDA10023. -/
def qamSize (mk1 : Bool) : Modulation → Fin 6
  | .qpsk => if mk1 then 0 else 3
  | .qam16 => 1
  | .qam32 => 2
  | .qam64 => 3
  | .qam128 => 4
  | .qam256 => 5
  | .other _ => if mk1 then 0 else 3

/-- `AC_TypeQAM_T` -/
structure AcTypeQam where
  conf : Nat
  agcref : Nat
  lockthr : Nat
  mseth : Nat
  aref : Nat

/-- `sTypeQAM` -/
def typeQam : Fin 6 → AcTypeQam
  | 0 => ⟨0x14, 120, 0x78, 114, 0x96⟩
  | 1 => ⟨0x00, 140, 0x6e, 162, 0x91⟩
  | 2 => ⟨0x04, 140, 0x4b, 116, 0x96⟩
  | 3 => ⟨0x08, 106, 0x37, 67, 0x6a⟩
  | 4 => ⟨0x0c, 120, 0x2d, 52, 0x7e⟩
  | 5 => ⟨0x10, 92, 0x23, 35, 0x6b⟩

/-- `TDA10023Qam_t` -/
structure Tda10023Qam where
  qam : Nat
  lockthr : Nat
  mseth : Nat
  aref : Nat
  agcRefNyq : Nat
  erAgcNyqThd : Nat

/-- `sTypeQAM3` -/
def typeQam3 : Fin 6 → Tda10023Qam
  | 0 => ⟨0x14, 0x78, 0x8c, 0x96, 0x78, 0x4c⟩
  | 1 => ⟨0x00, 0x87, 0xa2, 0x91, 0x8c, 0x57⟩
  | 2 => ⟨0x04, 0x64, 0x74, 0x96, 0x8c, 0x57⟩
  | 3 => ⟨0x08, 0x46, 0x43, 0x6a, 0x6a, 0x44⟩
  | 4 => ⟨0x0c, 0x36, 0x34, 0x7e, 0x78, 0x4c⟩
  | 5 => ⟨0x10, 0x26, 0x23, 0x6c, 0x5c, 0x3c⟩

/-- What `cu1216_set_QAM` writes. -/
def qamWrites (mk1 : Bool) (bQam : Fin 6) : List RegWrite :=
  if mk1 then
    let t := typeQam bQam
    [.mask 0x00 0x1c t.conf, .write 0x01 t.agcref, .write 0x05 t.lockthr, .write 0x08 t.mseth, .write 0x09 t.aref]
  else
    let t := typeQam3 bQam
    [.write 0x05 t.lockthr, .write 0x08 t.mseth, .write 0x09 t.aref, .write 0xb4 t.agcRefNyq,
      .write 0xb6 t.erAgcNyqThd, .mask 0x00 0x1c t.qam]

/-! ## The signal-to-noise ratio -/

/-- The numbers of a formula of `cu1216_read_snr`. -/
structure SnrFormula where
  num : Nat
  factor : Nat
  summand : Nat
  offset : Nat
  deriving DecidableEq

def SnrFormula.value (f : SnrFormula) (raw : Nat) : Nat := f.num / (f.factor * raw + f.summand) + f.offset

def snrFormula : Modulation → SnrFormula
  | .qam16 => ⟨195000, 32, 138, 100⟩
  | .qam32 => ⟨215000, 40, 500, 135⟩
  | .qam128 => ⟨185000, 38, 400, 138⟩
  | .qam256 => ⟨180000, 100, 40, 203⟩
  | .qpsk | .qam64 | .other _ => ⟨210000, 40, 500, 125⟩

/-! ## Frontends -/

/-- What a call of `cu1216_set_parameters` does next. From the test of the type on it follows one of its branches. -/
inductive Phase where
  | checked
  | init (mk1 : Bool)
  | symbolRate (mk1 : Bool)
  | qam (mk1 : Bool)
  | finish (mk1 : Bool)
  deriving DecidableEq

/-- A call of `cu1216_set_parameters`. -/
structure TuneCall where
  modulation : Modulation
  symbolRate : Nat
  phase : Phase

/-- A frontend: the modulation in `state->params`, and the call of `cu1216_set_parameters` that is under way. The last
two are history: the modulation that was passed last, and the branch that its call took. -/
structure Frontend where
  stored : Modulation
  call : Option TuneCall
  passed : Option Modulation
  tookMk1 : Bool

/-- The variable `type`, and all frontends. Whose identity was read last, and whether it was read, is history. -/
structure Driver (ι : Type) where
  type : Nat
  fe : ι → Frontend
  identified : Option (ι × Bool)

inductive DriverOp (ι : Type) where
  | start (i : ι) (modulation : Modulation) (symbolRate : Nat) (ack : Bool)
  | next (i : ι)
  | readSnr (i : ι) (raw : Nat)

/-- A function that depends on the type, with what it writes, or a value of `cu1216_read_snr`. -/
inductive DriverEvent (ι : Type) where
  | init (i : ι) (mk1 : Bool)
  | symbolRate (i : ι) (mk1 : Bool) (writes : List RegWrite)
  | qam (i : ι) (mk1 : Bool) (writes : List RegWrite)
  | snr (i : ι) (formula : SnrFormula) (value : Nat) (passed : Option Modulation)

section Steps

variable {ι : Type} [DecidableEq ι]

/-- The driver before any tuning; the structures are as `kmalloc` returns them. -/
def Driver.init (memory : ι → Modulation) : Driver ι where
  type := 0
  fe := fun i => ⟨memory i, none, none, false⟩
  identified := none

def Driver.setFrontend (s : Driver ι) (i : ι) (f : Frontend) : Driver ι :=
  { s with fe := Function.update s.fe i f }

/-- The argument of `cu1216_set_symbolRate`, which has sixteen bits. -/
def rateArg (symbolRate : Nat) : Nat := symbolRate / 1000 % 65536

/-- The test `type == MK1` of the functions that depend on the type. -/
def Driver.isMk1 (s : Driver ι) : Bool := s.type == mk1Identity

/-- The next part of a call of `cu1216_set_parameters`. A TDA10023 is left without the parameters. -/
def Driver.proceed (s : Driver ι) (i : ι) (c : TuneCall) : Driver ι × List (DriverEvent ι) :=
  let f := s.fe i
  match c.phase with
  | .checked =>
    (s.setFrontend i { f with call := some { c with phase := .init s.isMk1 }, tookMk1 := s.isMk1 }, [])
  | .init mk1 =>
    (s.setFrontend i { f with call := some { c with phase := .symbolRate mk1 } }, [.init i s.isMk1])
  | .symbolRate mk1 =>
    (s.setFrontend i { f with call := some { c with phase := .qam mk1 } }, if rateArg c.symbolRate = 0 then []
      else [.symbolRate i s.isMk1 (symbolRateWrites s.isMk1 (rateArg c.symbolRate))])
  | .qam mk1 =>
    (s.setFrontend i { f with call := some { c with phase := .finish mk1 } },
      [.qam i s.isMk1 (qamWrites s.isMk1 (qamSize mk1 c.modulation))])
  | .finish mk1 =>
    (s.setFrontend i { f with call := none, stored := if mk1 then c.modulation else f.stored }, [])

/-- A step of the driver. The core lets no other call of a frontend in while it tunes; `cu1216_check_tunertype` reads
zero if the chip does not answer. -/
def driverStep (identity : ι → Nat) (s : Driver ι) : DriverOp ι → Driver ι × List (DriverEvent ι)
  | .start i modulation symbolRate ack =>
    match (s.fe i).call with
    | some _ => (s, [])
    | none =>
      let f := s.fe i
      ({ s.setFrontend i { f with call := some ⟨modulation, symbolRate, .checked⟩, passed := some modulation } with
          type := if ack then identity i else 0
          identified := some (i, ack) }, [])
  | .next i =>
    match (s.fe i).call with
    | none => (s, [])
    | some c => s.proceed i c
  | .readSnr i raw =>
    match (s.fe i).call with
    | some _ => (s, [])
    | none => (s, [.snr i (snrFormula (s.fe i).stored) ((snrFormula (s.fe i).stored).value raw) (s.fe i).passed])

end Steps

/-! ## Frontends of the CU1216 side by side

The variable `type` holds the identity that was read last, whatever frontend it was read for, and the parameters of a
tuning are only kept if it took the branch of the TDA10021. So the driver treats a frontend as its own chip, and
evaluates it by its own modulation, exactly while the last identity is of its type and its last parameters were kept or
have the same formula. -/

variable {ι : Type} {identity : ι → Nat} {s : Driver ι}

/-- A function takes the branch of its frontend's chip, and a ratio is calculated for the modulation passed last. -/
def DriverEvent.Right (identity : ι → Nat) : DriverEvent ι → Prop
  | .init i mk1 => mk1 = true ↔ identity i = mk1Identity
  | .symbolRate i mk1 _ => mk1 = true ↔ identity i = mk1Identity
  | .qam i mk1 _ => mk1 = true ↔ identity i = mk1Identity
  | .snr _ formula _ passed => ∀ m, passed = some m → formula = snrFormula m

/-! ## The condition -/

def Driver.LastMk1 (identity : ι → Nat) (s : Driver ι) : Prop :=
  ∃ j, s.identified = some (j, true) ∧ identity j = mk1Identity

def TuneCall.Depends (c : TuneCall) : Prop :=
  match c.phase with
  | .init _ => True
  | .symbolRate _ => rateArg c.symbolRate ≠ 0
  | .qam _ => True
  | .checked | .finish _ => False

/-- The last identity fits where a call depends on it, and the modulation of a tuning that was not kept has the formula
of the one that is. -/
def KeepsTuning (identity : ι → Nat) (s : Driver ι) : DriverOp ι → Prop
  | .start .. => True
  | .next i => ∀ c, (s.fe i).call = some c → c.Depends → (s.LastMk1 identity ↔ identity i = mk1Identity)
  | .readSnr i _ =>
    (s.fe i).call = none → (s.fe i).tookMk1 = false →
      ∀ m, (s.fe i).passed = some m → snrFormula (s.fe i).stored = snrFormula m

/-! ## What every step keeps -/

def Phase.Follows (tookMk1 : Bool) : Phase → Prop
  | .checked => True
  | .init mk1 | .symbolRate mk1 | .qam mk1 | .finish mk1 => mk1 = tookMk1

/-- The parameters are those of the last call, if it took the branch of the TDA10021 and has returned. -/
structure Frontend.Inv (f : Frontend) : Prop where
  calling : ∀ c, f.call = some c → f.passed = some c.modulation ∧ c.phase.Follows f.tookMk1
  kept : f.call = none → f.tookMk1 = true → ∀ m, f.passed = some m → f.stored = m

structure Driver.Inv (identity : ι → Nat) (s : Driver ι) : Prop where
  type : s.isMk1 = true ↔ s.LastMk1 identity
  fe : ∀ i, (s.fe i).Inv

theorem Driver.Inv.init (identity : ι → Nat) (memory : ι → Modulation) : (Driver.init memory).Inv identity := by
  refine ⟨iff_of_false Bool.false_ne_true ?_,fun i => ⟨fun c hc => absurd hc nofun,fun _ _ m hm => absurd hm nofun⟩⟩
  rintro ⟨j,hj,-⟩
  cases hj

variable [DecidableEq ι]

theorem Driver.Inv.setFrontend (h : s.Inv identity) (i : ι) {f : Frontend} (hf : f.Inv) :
    (s.setFrontend i f).Inv identity := by
  refine ⟨h.type,fun j => ?_⟩
  by_cases hj : j = i
  · subst hj
    simpa [Driver.setFrontend] using hf
  · simpa [Driver.setFrontend,hj] using h.fe j

theorem Driver.Inv.proceed (h : s.Inv identity) {i : ι} {c : TuneCall} (hc : (s.fe i).call = some c) :
    (s.proceed i c).1.Inv identity := by
  obtain ⟨hpassed,hfollows⟩ := (h.fe i).calling c hc
  obtain ⟨modulation,symbolRate,phase⟩ := c
  -- a part that is not the last one goes on with a branch that the test has chosen
  have hgoes : ∀ phase' tookMk1, Phase.Follows tookMk1 phase' →
      Frontend.Inv { s.fe i with call := some ⟨modulation,symbolRate,phase'⟩, tookMk1 := tookMk1 } := by
    intro phase' tookMk1 hphase
    exact ⟨fun c' hc' => Option.some.inj hc' ▸ ⟨hpassed,hphase⟩,fun hnone => absurd hnone (some_ne_none _)⟩
  cases phase with
  | checked => exact h.setFrontend i (hgoes _ _ rfl)
  | init mk1 => exact h.setFrontend i (hgoes _ _ hfollows)
  | symbolRate mk1 => exact h.setFrontend i (hgoes _ _ hfollows)
  | qam mk1 => exact h.setFrontend i (hgoes _ _ hfollows)
  | finish mk1 =>
    refine h.setFrontend i ⟨fun c' hc' => absurd hc'.symm (some_ne_none c'),fun _ htook m hm => ?_⟩
    have hmk1 : mk1 = true := Eq.trans hfollows htook
    have hm' : some modulation = some m := hpassed.symm.trans hm
    dsimp only
    rw [if_pos hmk1]
    exact Option.some.inj hm'

theorem Driver.Inv.step (h : s.Inv identity) (op : DriverOp ι) : (driverStep identity s op).1.Inv identity := by
  cases op with
  | start i modulation symbolRate ack =>
    cases hcall : (s.fe i).call with
    | some c => simpa only [driverStep,hcall] using h
    | none =>
      simp only [driverStep,hcall]
      refine ⟨?_,(h.setFrontend i (f := _) ⟨fun c hc => ?_,fun hnone => absurd hnone (some_ne_none _)⟩).fe⟩
      · cases ack with
        | true => simp [Driver.isMk1,Driver.LastMk1]
        | false => simp [Driver.isMk1,Driver.LastMk1,mk1Identity]
      · exact Option.some.inj hc ▸ ⟨rfl,trivial⟩
  | next i =>
    cases hcall : (s.fe i).call with
    | none => simpa only [driverStep,hcall] using h
    | some c => simpa only [driverStep,hcall] using h.proceed hcall
  | readSnr i raw =>
    cases hcall : (s.fe i).call with
    | some c => simpa only [driverStep,hcall] using h
    | none => simpa only [driverStep,hcall] using h

/-! ## Exactness -/

theorem proceed_right_iff (h : s.Inv identity) (i : ι) (c : TuneCall) : (∀ e ∈ (s.proceed i c).2, e.Right identity) ↔
      (c.Depends → (s.LastMk1 identity ↔ identity i = mk1Identity)) := by
  obtain ⟨modulation,symbolRate,phase⟩ := c
  have hnone : ∀ e ∈ ([] : List (DriverEvent ι)), e.Right identity := fun e he => absurd he not_mem_nil
  cases phase with
  | checked => exact iff_of_true hnone False.elim
  | init mk1 =>
    simp only [Driver.proceed,TuneCall.Depends,forall_mem_singleton,DriverEvent.Right,h.type,true_implies]
  | symbolRate mk1 =>
    simp only [Driver.proceed,TuneCall.Depends]
    split_ifs with hzero
    · exact iff_of_true hnone fun hcon => absurd hzero hcon
    · simp only [forall_mem_singleton,DriverEvent.Right,h.type,ne_eq,hzero,not_false_eq_true,true_implies]
  | qam mk1 =>
    simp only [Driver.proceed,TuneCall.Depends,forall_mem_singleton,DriverEvent.Right,h.type,true_implies]
  | finish mk1 => exact iff_of_true hnone False.elim

theorem driverStep_right_iff (identity : ι → Nat) (s : Driver ι) (op : DriverOp ι) (h : s.Inv identity) :
    (∀ e ∈ (driverStep identity s op).2, e.Right identity) ↔ KeepsTuning identity s op := by
  have hnone : ∀ e ∈ ([] : List (DriverEvent ι)), e.Right identity := fun e he => absurd he not_mem_nil
  cases op with
  | start i modulation symbolRate ack =>
    refine iff_of_true ?_ trivial
    cases hcall : (s.fe i).call with
    | some c => simpa only [driverStep,hcall] using hnone
    | none => simpa only [driverStep,hcall] using hnone
  | next i =>
    cases hcall : (s.fe i).call with
    | none =>
      simp only [driverStep,KeepsTuning,hcall]
      exact iff_of_true hnone fun c hc => absurd hc.symm (some_ne_none c)
    | some c =>
      simp only [driverStep,KeepsTuning,hcall,Option.some.injEq,forall_eq']
      exact proceed_right_iff h i c
  | readSnr i raw =>
    cases hcall : (s.fe i).call with
    | some c =>
      simp only [driverStep,KeepsTuning,hcall]
      exact iff_of_true hnone fun hcon => absurd hcon (some_ne_none c)
    | none =>
      simp only [driverStep,KeepsTuning,hcall,forall_mem_singleton,DriverEvent.Right,true_implies]
      constructor
      · exact fun hright _ => hright
      · intro hcond m hm
        cases htook : (s.fe i).tookMk1 with
        | true => rw [(h.fe i).kept hcall htook m hm]
        | false => exact hcond htook m hm

def mixedCards : Nat → Nat
  | 0 => mk1Identity
  | _ => mk3Identity

/-- The second card starts to tune between the test of the type and the initialisation of the first; then its own
tuning ends, and its ratio is read. -/
def mixedRun : List (DriverOp Nat) :=
  [.start 0 .qam64 6900000 true, .next 0, .start 1 .qam256 6900000 true, .next 0,
    .next 1, .next 1, .next 1, .next 1, .next 1, .readSnr 1 20]

end LinuxDvb.Cu1216
