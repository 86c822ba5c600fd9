import LinuxDvb.Framework.Lists

/-!
# Loops

A C loop whose body may fall through, `continue` or `return`. The body is a pass over the loop state; `runLoop`
repeats it with fuel, and a loop ends when some fuel is enough.
-/

namespace LinuxDvb

variable {σ : Type}

inductive Flow (σ : Type) where
  /-- The end of the body or a `continue`. -/
  | again (s : σ)
  /-- A `return`. -/
  | leave (s : σ)
  /-- The fuel was not enough for a loop inside the body. -/
  | hang (s : σ)

def Flow.state : Flow σ → σ
  | .again s | .leave s | .hang s => s

def Flow.Hangs : Flow σ → Prop
  | .hang _ => True
  | _ => False

abbrev Pass (σ : Type) := Except (Flow σ) σ

def Pass.andThen (a : Pass σ) (b : σ → Pass σ) : Pass σ :=
  match a with
  | .ok s => b s
  | .error f => .error f

def Pass.flow : Pass σ → Flow σ
  | .ok s => .again s
  | .error f => f

/-- Postconditions of a part of a loop body, for falling through and for ending the pass. -/
def Pass.Meets (a : Pass σ) (falls : σ → Prop) (ends : Flow σ → Prop) : Prop :=
  match a with
  | .ok s => falls s
  | .error f => ends f

@[simp] theorem Pass.andThen_ok (s : σ) (b : σ → Pass σ) : Pass.andThen (.ok s) b = b s := rfl

@[simp] theorem Pass.andThen_error (f : Flow σ) (b : σ → Pass σ) : Pass.andThen (.error f) b = .error f := rfl

@[simp] theorem Pass.flow_ok (s : σ) : Pass.flow (.ok s : Pass σ) = .again s := rfl

@[simp] theorem Pass.flow_error (f : Flow σ) : Pass.flow (.error f : Pass σ) = f := rfl

theorem Pass.Meets.andThen {a : Pass σ} {b : σ → Pass σ} {falls falls' : σ → Prop}
    {ends : Flow σ → Prop} (ha : a.Meets falls ends)
    (hb : ∀ s, falls s → (b s).Meets falls' ends) : (a.andThen b).Meets falls' ends := by
  cases a with
  | ok s => exact hb s ha
  | error f => exact ha

theorem Pass.Meets.flow {a : Pass σ} {ends : Flow σ → Prop}
    (h : a.Meets (fun s => ends (.again s)) ends) : ends a.flow := by
  cases a with
  | ok s => exact h
  | error f => exact h

def runLoop (guard : σ → Prop) [DecidablePred guard] (body : Nat → σ → Flow σ) : Nat → σ → Option σ
  | 0, _ => none
  | fuel + 1, s =>
    if guard s then
      match body fuel s with
      | .again s' => runLoop guard body fuel s'
      | .leave s' => some s'
      | .hang _ => none
    else some s

/-- The body started in `s` does not hang, whatever is needed for the loops inside it. -/
def PassEnds (body : Nat → σ → Flow σ) (s : σ) : Prop := ∃ fuel, ¬ (body fuel s).Hangs

def FuelMonotone (body : Nat → σ → Flow σ) : Prop :=
  ∀ fuel fuel' s, fuel ≤ fuel' → ¬ (body fuel s).Hangs → body fuel' s = body fuel s

/-- Started in `s`, the loop ends in `r`. -/
def LoopEnds (guard : σ → Prop) [DecidablePred guard] (body : Nat → σ → Flow σ) (s r : σ) : Prop :=
  ∃ fuel, runLoop guard body fuel s = some r

/-- Passes of the loop lead from `s` to the start of a pass or the end of the loop in `t`. -/
inductive LoopReaches (guard : σ → Prop) (body : Nat → σ → Flow σ) (s : σ) : σ → Prop
  | refl : LoopReaches guard body s s
  | pass {t t' : σ} (fuel : Nat) (before : LoopReaches guard body s t) (enters : guard t)
      (again : body fuel t = .again t') : LoopReaches guard body s t'

section Reaches

variable {guard : σ → Prop} {body : Nat → σ → Flow σ}

theorem LoopReaches.trans {s t u : σ} (hst : LoopReaches guard body s t)
    (htu : LoopReaches guard body t u) : LoopReaches guard body s u := by
  induction htu with
  | refl => exact hst
  | pass fuel _ enters again ih => exact .pass fuel ih enters again

theorem LoopReaches.invariant {s t : σ} (Inv : σ → Prop)
    (hpass : ∀ s s' fuel, Inv s → guard s → body fuel s = .again s' → Inv s') (hs : Inv s)
    (h : LoopReaches guard body s t) : Inv t := by
  induction h with
  | refl => exact hs
  | pass fuel _ enters again ih => exact hpass _ _ fuel ih enters again

end Reaches

variable {guard : σ → Prop} [DecidablePred guard] {body : Nat → σ → Flow σ}

variable {s s' : σ} {fuel : Nat}

theorem runLoop_succ_of_again (hs : guard s) (h : body fuel s = .again s') :
    runLoop guard body (fuel + 1) s = runLoop guard body fuel s' := by
  rw [runLoop,if_pos hs,h]

variable {r : σ}

theorem runLoop_mono (hmono : FuelMonotone body) {fuel' : Nat}
    (hle : fuel ≤ fuel') (h : runLoop guard body fuel s = some r) :
    runLoop guard body fuel' s = some r := by
  induction fuel generalizing fuel' s with
  | zero => cases h
  | succ fuel ih =>
    obtain ⟨fuel',rfl⟩ : ∃ k, fuel' = k + 1 := ⟨fuel' - 1,by omega⟩
    rw [runLoop] at h ⊢
    split at h
    next hg =>
      rw [if_pos hg]
      cases hb : body fuel s with
      | hang s' => simp [hb] at h
      | leave s' =>
        rw [hmono fuel fuel' s (by omega) (by simp [hb, Flow.Hangs]),hb]
        rwa [hb] at h
      | again s' =>
        rw [hmono fuel fuel' s (by omega) (by simp [hb, Flow.Hangs]),hb]
        rw [hb] at h
        exact ih (by omega) h
    next hg => rwa [if_neg hg]

theorem LoopEnds.of_not_guard (hs : ¬ guard s) : LoopEnds guard body s s :=
  ⟨1, by rw [runLoop,if_neg hs]⟩

theorem LoopEnds.of_leave (hs : guard s) (h : body fuel s = .leave r) : LoopEnds guard body s r :=
  ⟨fuel + 1, by rw [runLoop,if_pos hs,h]⟩

theorem LoopEnds.of_leave_unguarded (fuel : Nat) (h : body fuel s = .leave r) :
    LoopEnds (fun _ => True) body s r := .of_leave trivial h

theorem LoopEnds.of_again (hmono : FuelMonotone body) (hs : guard s)
    (h : body fuel s = .again s') (hr : LoopEnds guard body s' r) : LoopEnds guard body s r := by
  obtain ⟨fuel',hr⟩ := hr
  have hbody : body (max fuel fuel') s = .again s' := by
    rw [hmono fuel _ s (Nat.le_max_left _ _) (by simp [h, Flow.Hangs]),h]
  use max fuel fuel' + 1
  rw [runLoop_succ_of_again hs hbody]
  exact runLoop_mono hmono (Nat.le_max_right _ _) hr

theorem LoopEnds.unique (hmono : FuelMonotone body) {r' : σ} (h : LoopEnds guard body s r)
    (h' : LoopEnds guard body s r') : r = r' := by
  obtain ⟨fuel,h⟩ := h
  obtain ⟨fuel',h'⟩ := h'
  have hr := runLoop_mono hmono (Nat.le_max_left fuel fuel') h
  have hr' := runLoop_mono hmono (Nat.le_max_right fuel fuel') h'
  exact Option.some.inj (hr.symm.trans hr')

theorem LoopReaches.ends (hmono : FuelMonotone body) {t : σ}
    (h : LoopReaches guard body s t) (hr : LoopEnds guard body t r) : LoopEnds guard body s r := by
  induction h with
  | refl => exact hr
  | pass fuel _ enters again ih => exact ih (.of_again hmono enters again hr)

theorem LoopEnds.of_measure (hmono : FuelMonotone body) (Inv : σ → Prop) (measure : σ → Nat)
    (hends : ∀ s, Inv s → guard s → PassEnds body s)
    (hpass : ∀ s s' fuel, Inv s → guard s → body fuel s = .again s' →
      Inv s' ∧ measure s' < measure s) (hs : Inv s) : ∃ r, LoopEnds guard body s r := by
  induction hm : measure s using Nat.strongRecOn generalizing s with
  | _ m ih =>
    by_cases hg : guard s
    · obtain ⟨fuel,hfuel⟩ := hends s hs hg
      cases hb : body fuel s with
      | hang s' =>
        rw [hb] at hfuel
        exact absurd trivial hfuel
      | leave r => exact ⟨r,.of_leave hg hb⟩
      | again s' =>
        obtain ⟨hinv,hlt⟩ := hpass s s' fuel hs hg hb
        obtain ⟨r,hr⟩ := ih (measure s') (hm ▸ hlt) hinv rfl
        exact ⟨r,.of_again hmono hg hb hr⟩
    · exact ⟨s,.of_not_guard hg⟩

theorem LoopEnds.exit (h : LoopEnds guard body s r) : ∃ t, LoopReaches guard body s t ∧
      (¬ guard t ∧ r = t ∨ guard t ∧ ∃ fuel, body fuel t = .leave r) := by
  obtain ⟨fuel,h⟩ := h
  induction fuel generalizing s with
  | zero => cases h
  | succ fuel ih =>
    rw [runLoop] at h
    split at h
    next hs =>
      cases hb : body fuel s with
      | hang s' => simp [hb] at h
      | leave s' =>
        rw [hb] at h
        cases h
        exact ⟨s,.refl,.inr ⟨hs,fuel,hb⟩⟩
      | again s' =>
        rw [hb] at h
        obtain ⟨t,hreach,hexit⟩ := ih h
        exact ⟨t,LoopReaches.trans (.pass fuel .refl hs hb) hreach,hexit⟩
    next hs =>
      rw [Option.some.injEq] at h
      exact ⟨s,.refl,.inl ⟨hs,h.symm⟩⟩

theorem LoopEnds.passEnds (h : LoopEnds guard body s r) (hs : guard s) : PassEnds body s := by
  obtain ⟨fuel,h⟩ := h
  cases fuel with
  | zero => cases h
  | succ fuel =>
    use fuel
    intro hhangs
    cases hb : body fuel s with
    | hang s' => simp [runLoop,hs,hb] at h
    | again s' => simp [hb,Flow.Hangs] at hhangs
    | leave s' => simp [hb,Flow.Hangs] at hhangs

theorem LoopEnds.tail (hmono : FuelMonotone body)
    (h : LoopEnds guard body s r) (hs : guard s) (hb : body fuel s = .again s') :
    LoopEnds guard body s' r := by
  obtain ⟨fuel',h⟩ := h
  have hbody : body (max fuel fuel') s = .again s' := by
    rw [hmono fuel _ s (Nat.le_max_left _ _) (by simp [hb, Flow.Hangs]),hb]
  use max fuel fuel'
  rw [← runLoop_succ_of_again hs hbody]
  exact runLoop_mono hmono (by omega) h

theorem LoopReaches.ends_iff (hmono : FuelMonotone body) {t : σ}
    (h : LoopReaches guard body s t) : LoopEnds guard body s r ↔ LoopEnds guard body t r := by
  constructor
  · intro hr
    induction h with
    | refl => exact hr
    | pass fuel _ enters again ih => exact ih.tail hmono enters again
  · exact h.ends hmono

theorem LoopEnds.invariant (Inv : σ → Prop)
    (hpass : ∀ s s' fuel, Inv s → body fuel s = .again s' ∨ body fuel s = .leave s' → Inv s') (hs : Inv s)
    (h : LoopEnds guard body s r) : Inv r := by
  obtain ⟨t,hreach,hexit⟩ := h.exit
  have ht : Inv t := hreach.invariant Inv (fun _ _ fuel hi _ hb => hpass _ _ fuel hi (.inl hb)) hs
  obtain ⟨-,rfl⟩ | ⟨-,fuel,hb⟩ := hexit
  · exact ht
  · exact hpass _ _ fuel ht (.inr hb)

theorem LoopEnds.not_of_stuck (Stuck : σ → Prop) (hguard : ∀ s, Stuck s → guard s)
    (hpass : ∀ s fuel, Stuck s → ∃ s', body fuel s = .again s' ∧ Stuck s') (hs : Stuck s) : ¬ LoopEnds guard body s r := by
  rintro ⟨fuel,h⟩
  induction fuel generalizing s with
  | zero => cases h
  | succ fuel ih =>
    obtain ⟨s',hb,hs'⟩ := hpass s fuel hs
    rw [runLoop_succ_of_again (hguard s hs) hb] at h
    exact ih hs' h

/-! ## Computations with fuel -/

/-- With enough fuel the computation gives `a`, and with less nothing else. -/
structure Gives {α : Type} (x : Nat → Option α) (a : α) : Prop where
  enough : ∃ fuel, ∀ fuel' ≥ fuel, x fuel' = some a
  only : ∀ fuel b, x fuel = some b → b = a

section Gives

variable {α β : Type} {x : Nat → Option α} {a : α} {f : Nat → α → Option β} {b : β}

theorem Gives.congr {y : Nat → Option α} (h : ∀ fuel, x fuel = y fuel) (hy : Gives y a) : Gives x a := by
  rwa [funext h]

theorem Gives.pure (a : α) : Gives (fun _ => some a) a :=
  ⟨⟨0, fun _ _ => rfl⟩, fun _ _ h => (Option.some.inj h).symm⟩

theorem Gives.bind (hx : Gives x a) (hf : Gives (fun fuel => f fuel a) b) :
    Gives (fun fuel => (x fuel).bind (f fuel)) b := by
  obtain ⟨n,hn⟩ := hx.enough
  obtain ⟨m,hm⟩ := hf.enough
  refine ⟨⟨max n m,fun fuel hfuel => ?_⟩,fun fuel c hc => ?_⟩
  · rw [hn fuel (by omega),bind_some,hm fuel (by omega)]
  · obtain ⟨a',ha',hc⟩ := bind_eq_some_iff.mp hc
    rw [hx.only fuel a' ha'] at hc
    exact hf.only fuel c hc

theorem Gives.map (hx : Gives x a) (g : α → β) : Gives (fun fuel => (x fuel).map g) (g a) := by
  obtain ⟨n,hn⟩ := hx.enough
  refine ⟨⟨n,fun fuel hfuel => by rw [hn fuel hfuel,map_some]⟩,fun fuel c hc => ?_⟩
  obtain ⟨a',ha',rfl⟩ := map_eq_some_iff.mp hc
  rw [hx.only fuel a' ha']

theorem Gives.bind_eq_none (hx : Gives x a) (hf : ∀ fuel, f fuel a = none) (fuel : Nat) :
    (x fuel).bind (f fuel) = none := by
  cases hfuel : x fuel with
  | none => rfl
  | some a' => rw [bind_some,hx.only fuel a' hfuel,hf]

theorem Gives.of_loopEnds (hmono : FuelMonotone body) {s r : σ} (h : LoopEnds guard body s r) :
    Gives (fun fuel => runLoop guard body fuel s) r := by
  obtain ⟨fuel,hfuel⟩ := h
  exact ⟨⟨fuel,fun fuel' hle => runLoop_mono hmono hle hfuel⟩,fun fuel' r' hr' =>
    LoopEnds.unique hmono ⟨fuel',hr'⟩ ⟨fuel,hfuel⟩⟩

end Gives

end LinuxDvb
