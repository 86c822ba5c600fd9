import LinuxDvb.Framework.Trace
import LinuxDvb.Frontends.Stb0899.Chip

/-!
# The base pointer of the STB0899

A pointed register is reached through its own base pointer exactly if its chip has acknowledged this one already, or
it is sent once more and acknowledged now.
-/

namespace LinuxDvb.Stb0899

set_option linter.unusedSectionVars false

variable {H D : Type} [DecidableEq H] [DecidableEq D]

def PointedAccess.Direct (a : PointedAccess D) : Prop := a.acknowledged = some a.base

/-- The registers that are read or written at once have one base pointer, and the chip has acknowledged it, or is sent
it once more and acknowledges it. In front of an ordinary register nothing is sent. -/
def Coherent (sys : ChipSystem H D) (w : I2cWorld) (h : H) (first : Int) (n : Nat) (s : Chips H D) : Prop :=
  let c := sys.info h
  let i := first.toNat
  s.Accessible c h first n → 0 < n →
    if (c.regMap i).pointed then
      (∀ j < n, (c.regMap (i + j)).pointed = true → (c.regMap (i + j)).base = (c.regMap i).base) ∧
        (s.pointer c.device = some (c.regMap i).base ∨ s.Misses (c.regMap i) ∧ w.acks s.transfers.length = true)
    else ∀ j < n, (c.regMap (i + j)).pointed = true → s.pointer c.device = some (c.regMap (i + j)).base

def KeepsCoherent (sys : ChipSystem H D) (w : I2cWorld) (s : Chips H D) : ChipOp H D → Prop
  | .setRegisters h first n | .getRegisters h first n => Coherent sys w h first n s
  | .open _ | .setImage _ _ _ | .powerUp _ => True

/-! ## What leaves the base pointers alone -/

structure SamePointers (s t : Chips H D) : Prop where
  pointer : t.pointer = s.pointer
  accesses : t.accesses = s.accesses

namespace SamePointers

variable {s t u : Chips H D}

theorem refl (s : Chips H D) : SamePointers s s := ⟨rfl, rfl⟩

theorem trans (h : SamePointers s t) (h' : SamePointers t u) : SamePointers s u :=
  ⟨h'.pointer.trans h.pointer, h'.accesses.trans h.accesses⟩

theorem fail (h : H) (e : ChipError) (s : Chips H D) : SamePointers s (s.fail h e) := ⟨rfl, rfl⟩

theorem refuse (h : H) (n : Nat) (s : Chips H D) : SamePointers s (s.refuse h n) := by
  rw [Chips.refuse]
  split_ifs
  · exact refl s
  · exact fail h _ s
  · exact fail h _ s

theorem setValue (h : H) (i : Nat) (v : UInt32) (s : Chips H D) : SamePointers s (s.setValue h i v) := ⟨rfl, rfl⟩

theorem transfer (w : I2cWorld) (h : H) (msg : I2cMsg D) (s : Chips H D) : SamePointers s (s.transfer w h msg) := by
  rw [Chips.transfer]
  split_ifs
  · exact ⟨rfl,rfl⟩
  · exact ⟨rfl,rfl⟩

theorem update (c : ChipInfo H D) (h : H) (first n : Nat) (data : Nat → UInt8) (s : Chips H D) :
    SamePointers s (s.update c h first n data) := ⟨rfl, rfl⟩

theorem record_ordinary {c : ChipInfo H D} {first : Nat} (hplain : (c.regMap first).pointed = false) (s : Chips H D) :
    SamePointers s (s.record c first 1) := by
  refine ⟨rfl,?_⟩
  simp [Chips.record,pointedAccesses,hplain]

theorem readPointed (w : I2cWorld) (h : H) (c : ChipInfo H D) (addr : UInt16) (n : Nat) (s : Chips H D) :
    SamePointers s (readPointed w h c addr n s) :=
  (transfer w h _ s).trans <| (transfer w h _ _).trans <| (transfer w h _ _).trans (transfer w h _ _)

theorem readBehind (w : I2cWorld) (h : H) (c : ChipInfo H D) (addr : UInt16) (s : Chips H D) :
    SamePointers s (readBehind w h c addr s) := by
  rw [Stb0899.readBehind]
  split_ifs
  · exact (transfer w h _ s).trans (transfer w h _ _)
  · exact refl s

variable {rep : H → Bool → Chips H D → Chips H D} {c : ChipInfo H D}

theorem repeating (hrep : ∀ g, c.repeaterHost = some g → ∀ state s, SamePointers s (rep g state s)) (state : Bool)
    (s : Chips H D) : SamePointers s (repeating rep c state s) := by
  rw [Stb0899.repeating]
  split_ifs
  · cases hhost : c.repeaterHost with
    | none => exact refl s
    | some g => exact hrep g hhost state s
  · exact refl s

theorem sendSubaddress (hrep : ∀ g, c.repeaterHost = some g → ∀ state s, SamePointers s (rep g state s))
    (w : I2cWorld) (h : H) (addr : UInt16) (s : Chips H D) : SamePointers s (sendSubaddress rep w h c addr s) := by
  have hsend : ∀ buf, SamePointers s
      (Stb0899.repeating rep c false ((Stb0899.repeating rep c true s).transfer w h (.write c.device buf))) :=
    fun buf => (repeating hrep true s).trans <| (transfer w h _ _).trans (repeating hrep false _)
  rw [Stb0899.sendSubaddress]
  cases c.chipMode with
  | subadr16 => exact hsend _
  | subadr8 => exact hsend _
  | nosubadr => exact refl s
  | noRSubadr => exact refl s

end SamePointers

/-! ## The accesses of a call -/

/-- What the chip has acknowledged when the registers from `i` on are reached. -/
def reachedPointer (w : I2cWorld) (h : H) (c : ChipInfo H D) (i : Nat) (s : Chips H D) : Option BasePointer :=
  if (c.regMap i).pointed then (writePointer w h c (c.regMap i) s).pointer c.device else s.pointer c.device

section Calls

variable {sys : ChipSystem H D} {w : I2cWorld} {h : H} {first : Int} {n : Nat} {s : Chips H D}
  {rep : H → Bool → Chips H D → Chips H D}

theorem accesses_writePointer (w : I2cWorld) (h : H) (c : ChipInfo H D) (r : Register) (s : Chips H D) :
    (writePointer w h c r s).accesses = s.accesses := by
  rw [writePointer]
  split_ifs
  · exact (SamePointers.transfer w h _ s).accesses
  · rfl

theorem accesses_record (c : ChipInfo H D) (i n : Nat) (s : Chips H D) :
    (s.record c i n).accesses = s.accesses ++ pointedAccesses c i n (s.pointer c.device) := rfl

theorem accesses_chipSetRegistersWith (hn : s.Accessible (sys.info h) h first n)
    (hrep : ∀ g, (sys.info h).repeaterHost = some g → ∀ state s, SamePointers s (rep g state s)) :
    (chipSetRegistersWith rep sys w h first n s).accesses =
      s.accesses ++ pointedAccesses (sys.info h) first.toNat n (reachedPointer w h (sys.info h) first.toNat s) := by
  rw [chipSetRegistersWith,reachedPointer]
  dsimp only
  rw [if_pos hn]
  split_ifs with hpointed
  · rw [(SamePointers.transfer w h _ _).accesses,accesses_record,accesses_writePointer]
  · have hbefore := SamePointers.repeating hrep true s
    rw [((SamePointers.transfer w h _ _).trans (SamePointers.repeating hrep false _)).accesses,accesses_record,
      hbefore.accesses,hbefore.pointer]

theorem accesses_chipGetRegistersWith (hn : s.Accessible (sys.info h) h first n)
    (hrep : ∀ g, (sys.info h).repeaterHost = some g → ∀ state s, SamePointers s (rep g state s)) :
    (chipGetRegistersWith rep sys w h first n s).accesses =
      s.accesses ++ pointedAccesses (sys.info h) first.toNat n (reachedPointer w h (sys.info h) first.toNat s) := by
  rw [chipGetRegistersWith,reachedPointer]
  dsimp only
  rw [if_pos hn]
  split_ifs with hpointed
  · rw [((SamePointers.readPointed w h _ _ n _).trans (SamePointers.update _ h _ n _ _)).accesses,accesses_record,
      accesses_writePointer]
  · have hbefore := (SamePointers.sendSubaddress hrep w h ((sys.info h).regMap first.toNat).addr s).trans
      (SamePointers.repeating hrep true _)
    have hbehind := fun t => (SamePointers.transfer w h (.read (sys.info h).device n) t).trans <|
      (SamePointers.repeating hrep false _).trans
        (SamePointers.readBehind w h (sys.info h) ((sys.info h).regMap first.toNat).addr _)
    rw [((hbehind _).trans (SamePointers.update _ h _ n _ _)).accesses,accesses_record,hbefore.accesses,
      hbefore.pointer]

theorem accesses_refused (hn : ¬ s.Accessible (sys.info h) h first n) :
    (chipSetRegistersWith rep sys w h first n s).accesses = s.accesses ∧
      (chipGetRegistersWith rep sys w h first n s).accesses = s.accesses := by
  rw [chipSetRegistersWith,chipGetRegistersWith]
  dsimp only
  rw [if_neg hn,if_neg hn]
  exact ⟨(SamePointers.refuse h n s).accesses,(SamePointers.refuse h n s).accesses⟩

end Calls

/-! ## The repeater -/

section Repeater

variable {sys : ChipSystem H D} {g : H}

theorem samePointers_ordinary {regId : Nat} (hplain : ((sys.info g).regMap regId).pointed = false) (w : I2cWorld)
    (s : Chips H D) :
    SamePointers s (chipGetRegistersWith noRepeater sys w g regId 1 s) ∧
      SamePointers s (chipSetRegistersWith noRepeater sys w g regId 1 s) := by
  have hrep : ∀ g', (sys.info g).repeaterHost = some g' → ∀ state s,
      SamePointers s (noRepeater (H := H) (D := D) g' state s) := fun _ _ _ s => .refl s
  constructor
  · rw [chipGetRegistersWith]
    simp only [Int.toNat_natCast,hplain,Bool.false_eq_true,if_false]
    split_ifs
    · have haddress := SamePointers.sendSubaddress hrep w g ((sys.info g).regMap regId).addr s
      have hread := (haddress.trans (SamePointers.repeating hrep true _)).trans <|
        (SamePointers.record_ordinary hplain _).trans (SamePointers.transfer w g (.read (sys.info g).device 1) _)
      have hbehind := hread.trans <| (SamePointers.repeating hrep false _).trans
        (SamePointers.readBehind w g (sys.info g) ((sys.info g).regMap regId).addr _)
      exact hbehind.trans (SamePointers.update (sys.info g) g regId 1 _ _)
    · exact SamePointers.refuse g 1 s
  · rw [chipSetRegistersWith]
    simp only [Int.toNat_natCast,hplain,Bool.false_eq_true,if_false]
    split_ifs
    · refine (SamePointers.repeating hrep true s).trans <| (SamePointers.record_ordinary hplain _).trans ?_
      exact (SamePointers.transfer w g _ _).trans (SamePointers.repeating hrep false _)
    · exact SamePointers.refuse g 1 s

theorem samePointers_chipSetFieldImage (sys : ChipSystem H D) (g : H) (fieldId : Nat) (v : Int) (s : Chips H D) :
    SamePointers s (chipSetFieldImage sys g fieldId v s) := by
  rw [chipSetFieldImage]
  split_ifs
  · exact .refl s
  · exact .setValue g _ _ s
  · exact .fail g _ s

theorem samePointers_repeaterFn (w : I2cWorld) {h : H} (hhost : (sys.info h).repeaterHost = some g) (state : Bool)
    (s : Chips H D) : SamePointers s (stb0899RepeaterFn sys w g state s) := by
  have hmode := sys.host_mode h g hhost
  have hone := fun s => samePointers_ordinary (sys.host_field h g hhost) w s
  have hget : ∀ s, SamePointers s (chipGetOneRegister sys w g ((sys.info g).fieldMap i2cton).reg s) := by
    intro s
    simp only [chipGetOneRegister,hmode,ne_eq,reduceCtorEq,not_false_eq_true,and_self,if_true]
    exact (hone s).1
  have hset : ∀ v s, SamePointers s (chipSetOneRegister sys w g ((sys.info g).fieldMap i2cton).reg v s) := by
    intro v s
    simp only [chipSetOneRegister,hmode,ne_eq,reduceCtorEq,not_false_eq_true,if_true]
    split_ifs
    · exact .refl s
    · exact (SamePointers.setValue g _ v s).trans (hone _).2
    · exact .fail g _ s
  rw [stb0899RepeaterFn,chipSetField]
  split_ifs
  · exact .refl s
  · exact (hget s).trans <| (samePointers_chipSetFieldImage sys g _ 1 _).trans (hset _ _)
  · exact .fail g _ s
  · exact .refl s

end Repeater

/-! ## Runs -/

/-- The base pointer of a register is acknowledged behind `writePointer` if it was before, or if it was sent and
acknowledged. -/
theorem pointer_writePointer_iff (w : I2cWorld) (h : H) (c : ChipInfo H D) (r : Register) (s : Chips H D) :
    (writePointer w h c r s).pointer c.device = some r.base ↔
      s.pointer c.device = some r.base ∨ s.Misses r ∧ w.acks s.transfers.length = true := by
  rw [writePointer]
  by_cases hmiss : s.Misses r
  · rw [if_pos hmiss]
    by_cases hack : w.acks s.transfers.length = true
    · simp [hack,hmiss]
    · simp [hack]
  · rw [if_neg hmiss]
    simp [hmiss]

theorem forall_pointedAccesses_iff (c : ChipInfo H D) (i n : Nat) (p : Option BasePointer) :
    (∀ a ∈ pointedAccesses c i n p, a.Direct) ↔
      ∀ j < n, (c.regMap (i + j)).pointed = true → p = some (c.regMap (i + j)).base := by
  simp only [pointedAccesses,mem_map,mem_filter,mem_range]
  constructor
  · intro hall j hj hpointed
    exact hall _ ⟨_,⟨⟨j,hj,rfl⟩,hpointed⟩,rfl⟩
  · rintro hall _ ⟨_,⟨⟨j,hj,rfl⟩,hpointed⟩,rfl⟩
    exact hall j hj hpointed

theorem direct_iff_coherent (sys : ChipSystem H D) (w : I2cWorld) {h : H} {first : Int} {n : Nat} {s : Chips H D}
    (hn : s.Accessible (sys.info h) h first n) :
    (∀ a ∈ pointedAccesses (sys.info h) first.toNat n (reachedPointer w h (sys.info h) first.toNat s), a.Direct) ↔
      Coherent sys w h first n s := by
  rw [forall_pointedAccesses_iff,Coherent,reachedPointer]
  generalize sys.info h = c at hn ⊢
  generalize first.toNat = i
  obtain rfl | hpos := Nat.eq_zero_or_pos n
  · exact iff_of_true (fun j hj => absurd hj (Nat.not_lt_zero j)) fun _ hcon => absurd hcon (Nat.lt_irrefl 0)
  · simp only [hn,hpos,forall_const]
    split_ifs with hpointed
    · rw [← pointer_writePointer_iff w h c (c.regMap i) s]
      constructor
      · intro hall
        have hfirst := hall 0 hpos hpointed
        refine ⟨fun j hj hp => ?_,hfirst⟩
        exact Option.some.inj ((hall j hj hp).symm.trans hfirst)
      · rintro ⟨hsame,hfirst⟩ j hj hp
        rw [hfirst,hsame j hj hp]
    · exact Iff.rfl

theorem chipStep_direct_iff (sys : ChipSystem H D) (w : I2cWorld) (s : Chips H D) (op : ChipOp H D) :
    (∀ a ∈ (chipStep sys w s op).2, a.Direct) ↔ KeepsCoherent sys w s op := by
  have hrep := fun h g (hhost : (sys.info h).repeaterHost = some g) => samePointers_repeaterFn w hhost
  have hnone : ∀ {t : Chips H D}, t.accesses = [] → ∀ a ∈ t.accesses, a.Direct := by
    intro t ht a ha
    exact absurd (ht ▸ ha) not_mem_nil
  cases op with
  | «open» h => exact iff_of_true (hnone rfl) trivial
  | setImage h i v => exact iff_of_true (hnone rfl) trivial
  | powerUp d => exact iff_of_true (hnone rfl) trivial
  | setRegisters h first n =>
    by_cases hn : s.Accessible (sys.info h) h first n
    · have haccesses := accesses_chipSetRegistersWith (s := { s with accesses := [] }) (w := w) hn (hrep h)
      exact (iff_of_eq (congrArg (fun l => ∀ a ∈ l, PointedAccess.Direct a) haccesses)).trans
        (direct_iff_coherent (s := { s with accesses := [] }) sys w hn)
    · refine iff_of_true (hnone ?_) fun hcon => absurd hcon hn
      exact (accesses_refused (s := { s with accesses := [] }) hn).1
  | getRegisters h first n =>
    by_cases hn : s.Accessible (sys.info h) h first n
    · have haccesses := accesses_chipGetRegistersWith (s := { s with accesses := [] }) (w := w) hn (hrep h)
      exact (iff_of_eq (congrArg (fun l => ∀ a ∈ l, PointedAccess.Direct a) haccesses)).trans
        (direct_iff_coherent (s := { s with accesses := [] }) sys w hn)
    · refine iff_of_true (hnone ?_) fun hcon => absurd hcon hn
      exact (accesses_refused (s := { s with accesses := [] }) hn).2

/-- Two cards with a demodulator each, whose only register is `DMDSTATUS`. -/
def twoCards : ChipSystem Nat Nat where
  info h :=
    { device := h
      nbRegs := 1
      nbFields := 0
      regMap := fun _ => ⟨0xf300, .reg16, 0, .wr, true, 0xf3fc, 0⟩
      fieldMap := fun _ => ⟨0, 0, 0, 0, false⟩
      chipMode := .subadr16
      repeater := false
      repeaterHost := none
      wrStart := 0
      wrSize := 0
      rdStart := 0
      rdSize := 0 }
  host_repeater := fun _ _ _ => rfl
  host_mode := by
    intro h g hg
    cases hg
  host_field := by
    intro h g hg
    cases hg

end LinuxDvb.Stb0899
