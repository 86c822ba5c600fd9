import LinuxDvb.Frontends.Stb0899.Fields

/-!
# The register map of a chip

Registers are written from the map of their handle, and a write leaves this map as it is: only a read, or setting the
image of a field, changes it.
-/

namespace LinuxDvb.Stb0899

set_option linter.unusedSectionVars false

variable {H D : Type} [DecidableEq H]

def imageOf (sys : ChipSystem H D) (h : H) (i : Nat) (s : Chips H D) : Int :=
  ((sys.info h).fieldMap i).extract (s.value h ((sys.info h).fieldMap i).reg)

section Images

variable {sys : ChipSystem H D} {h : H} {s : Chips H D} {i j : Nat} {v : Int}

theorem imageOf_eq (herror : s.chipError h = .noError) (hi : i < (sys.info h).nbFields) :
    (chipGetFieldImage sys h i s).1 = imageOf sys h i s := chipGetFieldImage_eq herror hi

theorem chipError_setFieldImages (calls : List FieldCall) (hids : ∀ call ∈ calls, call.fieldId < (sys.info h).nbFields)
    (herror : s.chipError h = .noError) : (setFieldImages sys h calls s).chipError h = .noError := by
  induction calls generalizing s with
  | nil => exact herror
  | cons call calls ih =>
    have hfirst := chipError_setFieldImage (v := call.value) herror (hids call mem_cons_self)
    exact ih (fun call' hcall => hids call' (mem_cons_of_mem call hcall)) hfirst

theorem imageOf_setFieldImages (hfields : ProperFields (sys.info h)) (calls : List FieldCall)
    (hvalid : ∀ call ∈ calls, call.Valid (sys.info h)) (herror : s.chipError h = .noError)
    (hi : i < (sys.info h).nbFields) :
    imageOf sys h i (setFieldImages sys h calls s) = (lastValue i calls).getD (imageOf sys h i s) := by
  have hbehind := chipError_setFieldImages calls (fun call hcall => (hvalid call hcall).1) herror
  rw [← imageOf_eq hbehind hi,← imageOf_eq herror hi]
  exact getField_setFieldImages hfields calls hvalid herror hi

theorem imageOf_setFieldImage_of_ne (hfields : ProperFields (sys.info h)) (hj : j < (sys.info h).nbFields)
    (hi : i < (sys.info h).nbFields) (hne : j ≠ i) :
    imageOf sys h i (chipSetFieldImage sys h j v s) = imageOf sys h i s := by
  by_cases herror : s.chipError h = .noError
  · rw [← imageOf_eq (chipError_setFieldImage herror hj) hi,← imageOf_eq herror hi]
    exact getField_setField_of_ne hfields herror hj hi hne
  · rw [chipSetFieldImage,if_pos herror]

theorem imageOf_setFieldImages_of_ne (hfields : ProperFields (sys.info h)) (calls : List FieldCall)
    (hids : ∀ call ∈ calls, call.fieldId < (sys.info h).nbFields) (hi : i < (sys.info h).nbFields)
    (hne : ∀ call ∈ calls, call.fieldId ≠ i) :
    imageOf sys h i (setFieldImages sys h calls s) = imageOf sys h i s := by
  induction calls generalizing s with
  | nil => rfl
  | cons call calls ih =>
    have hrest := ih (s := chipSetFieldImage sys h call.fieldId call.value s)
      (fun call' hcall => hids call' (mem_cons_of_mem call hcall))
      (fun call' hcall => hne call' (mem_cons_of_mem call hcall))
    exact hrest.trans <|
      imageOf_setFieldImage_of_ne hfields (hids call mem_cons_self) hi (hne call mem_cons_self)

end Images

/-! ## What leaves the register map alone -/

structure KeepsMap (h : H) (s t : Chips H D) : Prop where
  value : t.value h = s.value h

namespace KeepsMap

variable {h g : H} {s t u : Chips H D}

theorem refl (s : Chips H D) : KeepsMap h s s := ⟨rfl⟩

theorem trans (hst : KeepsMap h s t) (htu : KeepsMap h t u) : KeepsMap h s u :=
  ⟨htu.value.trans hst.value⟩

theorem imageOf (hst : KeepsMap h s t) (sys : ChipSystem H D) (i : Nat) :
    Stb0899.imageOf sys h i t = Stb0899.imageOf sys h i s := by
  rw [Stb0899.imageOf,Stb0899.imageOf,hst.value]

theorem refuse (n : Nat) (s : Chips H D) : KeepsMap h s (s.refuse g n) := by
  rw [Chips.refuse]
  split
  · exact refl s
  · split
    · exact ⟨rfl⟩
    · exact ⟨rfl⟩

theorem setFieldImage (hne : h ≠ g) (sys : ChipSystem H D) (i : Nat) (v : Int) (s : Chips H D) :
    KeepsMap h s (chipSetFieldImage sys g i v s) := by
  rw [chipSetFieldImage]
  split
  · exact refl s
  · split
    · exact ⟨funext fun k => if_neg fun hboth => hne hboth.1⟩
    · exact ⟨rfl⟩

variable [DecidableEq D]

theorem transfer (w : I2cWorld) (g : H) (msg : I2cMsg D) (s : Chips H D) : KeepsMap h s (s.transfer w g msg) := by
  rw [Chips.transfer]
  split
  · exact ⟨rfl⟩
  · exact ⟨rfl⟩

theorem record (c : ChipInfo H D) (i n : Nat) (s : Chips H D) : KeepsMap h s (s.record c i n) := ⟨rfl⟩

theorem setValue (hne : h ≠ g) (i : Nat) (x : UInt32) (s : Chips H D) : KeepsMap h s (s.setValue g i x) :=
  ⟨funext fun _ => if_neg fun hboth => hne hboth.1⟩

theorem update (hne : h ≠ g) (c : ChipInfo H D) (i n : Nat) (data : Nat → UInt8) (s : Chips H D) :
    KeepsMap h s (s.update c g i n data) :=
  ⟨funext fun _ => if_neg fun hboth => hne hboth.1⟩

theorem writePointer (w : I2cWorld) (g : H) (c : ChipInfo H D) (r : Register) (s : Chips H D) :
    KeepsMap h s (writePointer w g c r s) := by
  rw [Stb0899.writePointer]
  split
  · exact ⟨(transfer w g _ s).value⟩
  · exact refl s

theorem readPointed (w : I2cWorld) (g : H) (c : ChipInfo H D) (addr : UInt16) (n : Nat) (s : Chips H D) :
    KeepsMap h s (readPointed w g c addr n s) :=
  (transfer w g _ s).trans <| (transfer w g _ _).trans <| (transfer w g _ _).trans (transfer w g _ _)

theorem readBehind (w : I2cWorld) (g : H) (c : ChipInfo H D) (addr : UInt16) (s : Chips H D) :
    KeepsMap h s (readBehind w g c addr s) := by
  rw [Stb0899.readBehind]
  split
  · exact (transfer w g _ s).trans (transfer w g _ _)
  · exact refl s

section Repeater

variable {rep : H → Bool → Chips H D → Chips H D} {c : ChipInfo H D}

theorem repeating (hrep : c.repeater = true → ∀ g, c.repeaterHost = some g → ∀ state s, KeepsMap h s (rep g state s))
    (state : Bool) (s : Chips H D) : KeepsMap h s (repeating rep c state s) := by
  rw [Stb0899.repeating]
  split
  case isTrue hrepeater =>
    cases hhost : c.repeaterHost with
    | none => exact refl s
    | some g => exact hrep hrepeater g hhost state s
  case isFalse => exact refl s

theorem sendSubaddress
    (hrep : c.repeater = true → ∀ g, c.repeaterHost = some g → ∀ state s, KeepsMap h s (rep g state s))
    (w : I2cWorld) (g : H) (addr : UInt16) (s : Chips H D) : KeepsMap h s (sendSubaddress rep w g c addr s) := by
  have hsend : ∀ buf, KeepsMap h s
      (Stb0899.repeating rep c false ((Stb0899.repeating rep c true s).transfer w g (.write c.device buf))) :=
    fun buf => (repeating hrep true s).trans <| (transfer w g _ _).trans (repeating hrep false _)
  rw [Stb0899.sendSubaddress]
  cases c.chipMode with
  | subadr16 => exact hsend _
  | subadr8 => exact hsend _
  | nosubadr => exact refl s
  | noRSubadr => exact refl s

end Repeater

section Calls

variable {sys : ChipSystem H D} {w : I2cWorld} {rep : H → Bool → Chips H D → Chips H D}

theorem setRegistersWith (hrep : (sys.info g).repeater = true → ∀ host, (sys.info g).repeaterHost = some host →
      ∀ state s, KeepsMap h s (rep host state s)) (first : Int) (n : Nat) (s : Chips H D) :
    KeepsMap h s (chipSetRegistersWith rep sys w g first n s) := by
  rw [chipSetRegistersWith]
  dsimp only
  split
  · split
    · exact (writePointer w g _ _ s).trans <| (record (sys.info g) first.toNat n _).trans (transfer w g _ _)
    · refine (repeating hrep true s).trans <| (record (sys.info g) first.toNat n _).trans ?_
      exact (transfer w g _ _).trans (repeating hrep false _)
  · exact refuse n s

theorem getRegistersWith (hne : h ≠ g)
    (hrep : (sys.info g).repeater = true → ∀ host, (sys.info g).repeaterHost = some host →
      ∀ state s, KeepsMap h s (rep host state s)) (first : Int) (n : Nat) (s : Chips H D) :
    KeepsMap h s (chipGetRegistersWith rep sys w g first n s) := by
  rw [chipGetRegistersWith]
  dsimp only
  generalize (sys.info g).regMap first.toNat = r
  split
  · split
    · have hpointed : KeepsMap h s _ := (writePointer w g (sys.info g) r s).trans (record (sys.info g) first.toNat n _)
      exact (hpointed.trans (readPointed w g _ r.addr n _)).trans (update hne _ _ n _ _)
    · have hsent : KeepsMap h s _ := (sendSubaddress hrep w g r.addr s).trans (repeating hrep true _)
      have hread : KeepsMap h s _ :=
        (hsent.trans (record (sys.info g) first.toNat n _)).trans (transfer w g (.read (sys.info g).device n) _)
      exact (hread.trans <| (repeating hrep false _).trans (readBehind w g _ r.addr _)).trans (update hne _ _ n _ _)
  · exact refuse n s

theorem repeaterFn (hne : h ≠ g) (state : Bool) (s : Chips H D) : KeepsMap h s (stb0899RepeaterFn sys w g state s) := by
  have hnone : (sys.info g).repeater = true → ∀ host, (sys.info g).repeaterHost = some host →
      ∀ state (s : Chips H D), KeepsMap h s (noRepeater host state s) := fun _ host _ state s => ⟨rfl⟩
  have hset : ∀ v s, KeepsMap h s (chipSetOneRegister sys w g ((sys.info g).fieldMap i2cton).reg v s) := by
    intro v s
    rw [chipSetOneRegister]
    split
    · split
      · split
        · exact (setValue hne _ v s).trans (setRegistersWith hnone _ _ _)
        · exact (setValue hne _ v s).trans (setRegistersWith hnone _ _ _)
      · exact refl s
    · exact ⟨rfl⟩
  have hget : ∀ s, KeepsMap h s (chipGetOneRegister sys w g ((sys.info g).fieldMap i2cton).reg s) := by
    intro s
    rw [chipGetOneRegister]
    split
    · exact getRegistersWith hne hnone _ _ s
    · exact getRegistersWith hne hnone _ _ s
  rw [stb0899RepeaterFn]
  split
  · rw [chipSetField]
    dsimp only
    split
    · exact refl s
    · split
      · exact (hget s).trans <| (setFieldImage hne sys _ 1 _).trans (hset _ _)
      · exact ⟨rfl⟩
  · exact refl s

theorem setRegisters (first : Int) (n : Nat) (s : Chips H D) : KeepsMap h s (chipSetRegisters sys w h first n s) := by
  refine setRegistersWith (fun hrepeater host hhost state s => repeaterFn ?_ state s) first n s
  rintro rfl
  exact absurd (hrepeater.symm.trans (sys.host_repeater h h hhost)) (by decide)

end Calls

end KeepsMap

end LinuxDvb.Stb0899
