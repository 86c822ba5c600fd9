import Mathlib.Data.List.Range
import Mathlib.Data.List.Perm.Basic
import LinuxDvb.DvbCore.Frontend.Swzigzag

/-!
# What software zigzag covers

The attempts in search of a signal come level by level: the requested frequency first, then one step to both sides,
and so on, each with both inversions where these are tried.
-/

namespace LinuxDvb.Frontend

/-- An attempt: how far from the requested frequency, and what the frontend is set to. -/
structure Tuning where
  offset : Int
  frequency : UInt32
  inversion : Inversion
deriving DecidableEq, Repr

def retuned (p : FrontendPrivate) : FrontendPrivate :=
  { p with
    lnbDrift := 0
    autoStep := 0
    autoSubStep := 0
    startedAutoStep := 0
    checkWrapped := false
    delay := p.minDelay }

def sweep (fe : DvbFrontend) : Nat → FrontendPrivate → Option (List Tuning × FrontendPrivate)
  | 0, p => some ([], p)
  | n + 1, p =>
    match swzigzagAutotune fe p.checkWrapped p with
    | some (some attempt, q) =>
      (sweep fe n { q with checkWrapped := true }).map fun r =>
        ({ offset := q.lnbDrift.toInt, frequency := attempt.frequency, inversion := attempt.inversion } :: r.1, r.2)
    | _ => none

/-- The offsets that are `k` steps away. -/
def levelOffsets (p : FrontendPrivate) (k : Nat) : List Int :=
  if k = 0 then [0] else [(k * p.stepSize.toNat : Nat), -(k * p.stepSize.toNat : Nat)]

def inversions (fe : DvbFrontend) (p : FrontendPrivate) : List Inversion :=
  if autoinversion fe p then [.off, .on] else [p.parameters.inversion]

def tuningTo (p : FrontendPrivate) (offset : Int) (inversion : Inversion) : Tuning :=
  { offset := offset, frequency := p.parameters.frequency + (Int32.ofInt offset).toUInt32, inversion := inversion }

/-- The attempts at offsets that are `k` steps away. -/
def levelTunings (fe : DvbFrontend) (p : FrontendPrivate) (k : Nat) : List Tuning :=
  (levelOffsets p k).flatMap fun offset => (inversions fe p).map (tuningTo p offset)

/-- The attempts at all offsets up to the maximum. With a step of 0 these are all the same. -/
def allTunings (fe : DvbFrontend) (p : FrontendPrivate) : List Tuning :=
  (List.range (p.maxDrift.toNat / p.stepSize.toNat + 1)).flatMap (levelTunings fe p)

/-- The loop of a call ends, and the parameters have the requested frequency and inversion after it. -/
def CallRestores (fe : DvbFrontend) (checkWrapped : Bool) (p : FrontendPrivate) : Prop :=
  ∃ r, swzigzagAutotune fe checkWrapped p = some r ∧ r.2.parameters.frequency = p.parameters.frequency ∧
    r.2.parameters.inversion = p.parameters.inversion

/-- Calls from here make every attempt once, and the next one tells that the iteration is complete. -/
structure SweepsRange (fe : DvbFrontend) (p : FrontendPrivate) : Prop where
  restores : ∀ checkWrapped q, CallRestores fe checkWrapped q
  covers : ∃ n tunings q q', sweep fe n p = some (tunings, q) ∧ tunings.Perm (allTunings fe p) ∧
    swzigzagAutotune fe q.checkWrapped q = some (none, q')

section Passes

variable {auto : Bool} {p : FrontendPrivate}

def FrontendPrivate.drift (p : FrontendPrivate) : Int32 := (p.autoStep * p.stepSize).toInt32

theorem zigzagDrift_beyond (h : p.autoStep * p.stepSize > p.maxDrift) :
    zigzagDrift p = { p with autoStep := 0, autoSubStep := 0, lnbDrift := 0 } := if_pos h

theorem zigzagDrift_inside (h : p.autoStep * p.stepSize ≤ p.maxDrift) : zigzagDrift p = { p with lnbDrift := p.drift } :=
  if_neg (UInt32.not_lt.mpr h)

theorem zigzagSetup_again {fuel : Nat} {q : FrontendPrivate} (h : zigzagSwitch auto (zigzagDrift p) = (false, q)) :
    zigzagSetup auto (fuel + 1) p = zigzagSetup auto fuel { q with autoSubStep := q.autoSubStep + 1 } := by
  rw [zigzagSetup,h]
  rfl

theorem zigzagSetup_ready {fuel : Nat} {q : FrontendPrivate} (h : zigzagSwitch auto (zigzagDrift p) = (true, q)) :
    zigzagSetup auto (fuel + 1) p = some q := by
  rw [zigzagSetup,h]
  rfl

theorem zigzagSetup_zero (fuel : Nat) (h : p.autoSubStep = 0) :
    zigzagSetup auto (fuel + 1) p = some (zigzagDrift p) := by
  have hzero : (zigzagDrift p).autoSubStep = 0 := by
    unfold zigzagDrift
    dsimp only
    split
    · rfl
    · exact h
  exact zigzagSetup_ready (if_pos hzero)

def passesLeft (autoSubStep : UInt32) : Nat :=
  if autoSubStep = 0 then 1
  else if autoSubStep = 1 then 5
  else if autoSubStep = 2 then 4
  else if autoSubStep = 3 then 3
  else 2

theorem passesLeft_zigzagDrift (p : FrontendPrivate) :
    passesLeft (zigzagDrift p).autoSubStep ≤ passesLeft p.autoSubStep := by
  have hone : 1 ≤ passesLeft p.autoSubStep := by
    unfold passesLeft
    repeat' split
    all_goals decide
  unfold zigzagDrift
  dsimp only
  split
  · exact hone
  · exact Nat.le_refl _

theorem passesLeft_zigzagSwitch (h : (zigzagSwitch auto p).1 = false) :
    passesLeft ((zigzagSwitch auto p).2.autoSubStep + 1) < passesLeft p.autoSubStep := by
  unfold zigzagSwitch at h ⊢
  by_cases hzero : p.autoSubStep = 0
  · rw [if_pos hzero] at h
    cases h
  · rw [if_neg hzero] at h ⊢
    by_cases hone : p.autoSubStep = 1
    · rw [if_pos hone] at h ⊢
      cases auto with
      | true => cases h
      | false =>
        change passesLeft (p.autoSubStep + 1) < _
        rw [hone]
        decide
    · rw [if_neg hone] at h ⊢
      by_cases htwo : p.autoSubStep = 2
      · rw [if_pos htwo] at h ⊢
        by_cases hdrift : p.lnbDrift = 0
        · rw [if_pos hdrift]
          change passesLeft (p.autoSubStep + 1) < _
          rw [htwo]
          decide
        · rw [if_neg hdrift] at h
          cases h
      · rw [if_neg htwo] at h ⊢
        by_cases hthree : p.autoSubStep = 3
        · rw [if_pos hthree] at h ⊢
          have hnext : passesLeft (p.autoSubStep + 1) < passesLeft p.autoSubStep := by
            rw [hthree]
            decide
          by_cases hdrift : p.lnbDrift = 0
          · rwa [if_pos hdrift]
          · rw [if_neg hdrift] at h ⊢
            cases auto with
            | true => cases h
            | false => exact hnext
        · have hlast : passesLeft p.autoSubStep = 2 := by
            rw [passesLeft,if_neg hzero,if_neg hone,if_neg htwo,if_neg hthree]
          rw [if_neg hthree,hlast]
          change passesLeft (-1 + 1) < 2
          decide

theorem zigzagSetup_ends (fuel : Nat) (p : FrontendPrivate) (hfuel : passesLeft p.autoSubStep ≤ fuel) :
    ∃ q, zigzagSetup auto fuel p = some q := by
  induction fuel generalizing p with
  | zero =>
    have hdrift := passesLeft_zigzagDrift p
    unfold passesLeft at hfuel
    repeat' split at hfuel
    all_goals exact absurd hfuel (by decide)
  | succ fuel ih =>
    cases hpass : zigzagSwitch auto (zigzagDrift p) with
    | mk ready q =>
      cases ready with
      | true => exact ⟨q,zigzagSetup_ready hpass⟩
      | false =>
        have hdrift := passesLeft_zigzagDrift p
        have hfst : (zigzagSwitch auto (zigzagDrift p)).1 = false := congrArg Prod.fst hpass
        have hnext := passesLeft_zigzagSwitch hfst
        rw [hpass] at hnext
        dsimp only at hnext
        rw [zigzagSetup_again hpass]
        exact ih _ (by dsimp only; omega)

end Passes

section Requests

variable {fe : DvbFrontend} {auto : Bool} {p q r p₀ : FrontendPrivate}

structure SameRequest (p q : FrontendPrivate) : Prop where
  frequency : q.parameters.frequency = p.parameters.frequency
  inversion : q.parameters.inversion = p.parameters.inversion
  maxDrift : q.maxDrift = p.maxDrift
  stepSize : q.stepSize = p.stepSize
  startedAutoStep : q.startedAutoStep = p.startedAutoStep
  state : q.state = p.state

theorem SameRequest.refl (p : FrontendPrivate) : SameRequest p p := ⟨rfl, rfl, rfl, rfl, rfl, rfl⟩

theorem SameRequest.trans (h : SameRequest p q) (h' : SameRequest q r) : SameRequest p r :=
  ⟨h'.frequency.trans h.frequency, h'.inversion.trans h.inversion, h'.maxDrift.trans h.maxDrift,
    h'.stepSize.trans h.stepSize, h'.startedAutoStep.trans h.startedAutoStep,
    h'.state.trans h.state⟩

theorem sameRequest_zigzagDrift (p : FrontendPrivate) : SameRequest p (zigzagDrift p) := by
  unfold zigzagDrift
  dsimp only
  split
  · exact ⟨rfl,rfl,rfl,rfl,rfl,rfl⟩
  · exact ⟨rfl,rfl,rfl,rfl,rfl,rfl⟩

theorem sameRequest_zigzagSwitch (auto : Bool) (p : FrontendPrivate) : SameRequest p (zigzagSwitch auto p).2 := by
  unfold zigzagSwitch
  repeat' split
  all_goals exact ⟨rfl,rfl,rfl,rfl,rfl,rfl⟩

theorem sameRequest_zigzagSetup (fuel : Nat) (h : zigzagSetup auto fuel p = some q) : SameRequest p q := by
  induction fuel generalizing p with
  | zero => cases h
  | succ fuel ih =>
    have hpass := (sameRequest_zigzagDrift p).trans (sameRequest_zigzagSwitch auto (zigzagDrift p))
    rw [zigzagSetup] at h
    dsimp only at h
    split at h
    · cases h
      exact hpass
    · have hcounted : SameRequest (zigzagSwitch auto (zigzagDrift p)).2
          { (zigzagSwitch auto (zigzagDrift p)).2 with
            autoSubStep := (zigzagSwitch auto (zigzagDrift p)).2.autoSubStep + 1 } := ⟨rfl,rfl,rfl,rfl,rfl,rfl⟩
      exact hpass.trans (hcounted.trans (ih h))

def afterAttempt (fe : DvbFrontend) (p q : FrontendPrivate) : FrontendPrivate :=
  { q with
    parameters :=
      { fe.setFrontend (attemptParameters (autoinversion fe p) q) with
        frequency := p.parameters.frequency
        inversion := p.parameters.inversion }
    autoSubStep := q.autoSubStep + 1 }

theorem swzigzagAutotune_complete (hsetup : zigzagSetup (autoinversion fe p) 5 p = some q)
    (hcomplete : q.autoStep = q.startedAutoStep ∧ q.autoSubStep = 0) :
    swzigzagAutotune fe true p = some (none, q) := by
  unfold swzigzagAutotune
  dsimp only
  rw [hsetup]
  exact if_pos ⟨hcomplete.1,hcomplete.2,rfl⟩

theorem swzigzagAutotune_attempt {checkWrapped : Bool} (hsetup : zigzagSetup (autoinversion fe p) 5 p = some q)
    (hgoes : ¬ (q.autoStep = q.startedAutoStep ∧ q.autoSubStep = 0 ∧ checkWrapped = true)) :
    swzigzagAutotune fe checkWrapped p =
      some (some (attemptParameters (autoinversion fe p) q), afterAttempt fe p q) := by
  unfold swzigzagAutotune
  dsimp only
  rw [hsetup]
  exact if_neg hgoes

theorem callRestores (fe : DvbFrontend) (checkWrapped : Bool) (p : FrontendPrivate) : CallRestores fe checkWrapped p := by
  have hpasses : passesLeft p.autoSubStep ≤ 5 := by
    unfold passesLeft
    repeat' split
    all_goals decide
  obtain ⟨q,hsetup⟩ := zigzagSetup_ends 5 p hpasses
  have hsame := sameRequest_zigzagSetup 5 hsetup
  by_cases hcomplete : q.autoStep = q.startedAutoStep ∧ q.autoSubStep = 0 ∧ checkWrapped = true
  · obtain ⟨hstep,hsub,rfl⟩ := hcomplete
    exact ⟨_,swzigzagAutotune_complete hsetup ⟨hstep,hsub⟩,hsame.frequency,hsame.inversion⟩
  · exact ⟨_,swzigzagAutotune_attempt hsetup hcomplete,rfl,rfl⟩

end Requests

section Attempts

variable {fe : DvbFrontend} {auto : Bool} {p q p₀ : FrontendPrivate} {k : Nat} {sub : UInt32} {i : TriedInversion}

/-- Where the search for a request stands: at which step, direction and inversion. -/
structure Stands (p₀ : FrontendPrivate) (k : Nat) (sub : UInt32) (i : TriedInversion) (p : FrontendPrivate) : Prop where
  same : SameRequest p₀ p
  autoStep : p.autoStep = UInt32.ofNat k
  autoSubStep : p.autoSubStep = sub
  inversion : p.inversion = i

/-- The drift of `k` steps. -/
def levelDrift (p₀ : FrontendPrivate) (k : Nat) : Int32 := (UInt32.ofNat k * p₀.stepSize).toInt32

/-- `k` steps are in the range. -/
def InRange (p₀ : FrontendPrivate) (k : Nat) : Prop := UInt32.ofNat k * p₀.stepSize ≤ p₀.maxDrift

theorem Stands.zigzagDrift (h : Stands p₀ k sub i p) (hk : InRange p₀ k) :
    Stands p₀ k sub i (zigzagDrift p) ∧ (zigzagDrift p).lnbDrift = levelDrift p₀ k := by
  have hproduct : p.autoStep * p.stepSize = UInt32.ofNat k * p₀.stepSize := by rw [h.autoStep,h.same.stepSize]
  have hinside : p.autoStep * p.stepSize ≤ p.maxDrift := by rwa [hproduct,h.same.maxDrift]
  rw [zigzagDrift_inside hinside,FrontendPrivate.drift,hproduct]
  exact ⟨⟨h.same.trans ⟨rfl,rfl,rfl,rfl,rfl,rfl⟩,h.autoStep,h.autoSubStep,h.inversion⟩,rfl⟩

theorem Stands.setup_ready {P : FrontendPrivate → Prop} (h : Stands p₀ k sub i p) (hk : InRange p₀ k)
    (hswitch : ∀ q, Stands p₀ k sub i q → q.lnbDrift = levelDrift p₀ k → ∃ q', zigzagSwitch auto q = (true, q') ∧ P q')
    (fuel : Nat) : ∃ q', zigzagSetup auto (fuel + 1) p = some q' ∧ P q' := by
  obtain ⟨hstands,hdrift⟩ := h.zigzagDrift hk
  obtain ⟨q',hready,hq'⟩ := hswitch _ hstands hdrift
  exact ⟨q',zigzagSetup_ready hready,hq'⟩

theorem Stands.setup_zero (h : Stands p₀ k 0 i p) (hk : InRange p₀ k) (fuel : Nat) :
    ∃ q, zigzagSetup auto (fuel + 1) p = some q ∧ Stands p₀ k 0 i q ∧ q.lnbDrift = levelDrift p₀ k :=
  h.setup_ready hk (fun q hq hdrift => ⟨q, if_pos hq.autoSubStep, hq, hdrift⟩) fuel

theorem Stands.setup_one (h : Stands p₀ k 1 i p) (hk : InRange p₀ k) (fuel : Nat) :
    ∃ q, zigzagSetup true (fuel + 1) p = some q ∧ Stands p₀ k 1 i.toggle q ∧ q.lnbDrift = levelDrift p₀ k := by
  refine h.setup_ready hk (fun q hq hdrift => ⟨{ q with inversion := q.inversion.toggle },?_,?_,hdrift⟩) fuel
  · rw [zigzagSwitch,hq.autoSubStep]
    rfl
  · exact ⟨hq.same.trans ⟨rfl,rfl,rfl,rfl,rfl,rfl⟩,hq.autoStep,hq.autoSubStep,congrArg TriedInversion.toggle hq.inversion⟩

theorem Stands.setup_two (h : Stands p₀ k 2 i p) (hk : InRange p₀ k) (hne : levelDrift p₀ k ≠ 0) (fuel : Nat) :
    ∃ q, zigzagSetup auto (fuel + 1) p = some q ∧ Stands p₀ k 2 i q ∧ q.lnbDrift = -levelDrift p₀ k := by
  refine h.setup_ready hk (fun q hq hdrift => ⟨{ q with lnbDrift := -q.lnbDrift },?_,?_,congrArg Neg.neg hdrift⟩) fuel
  · have hgoes : q.lnbDrift ≠ 0 := hdrift ▸ hne
    rw [zigzagSwitch,hq.autoSubStep]
    exact if_neg hgoes
  · exact ⟨hq.same.trans ⟨rfl,rfl,rfl,rfl,rfl,rfl⟩,hq.autoStep,hq.autoSubStep,hq.inversion⟩

theorem Stands.setup_three (h : Stands p₀ k 3 i p) (hk : InRange p₀ k) (hne : levelDrift p₀ k ≠ 0) (fuel : Nat) :
    ∃ q, zigzagSetup true (fuel + 1) p = some q ∧ Stands p₀ k 3 i.toggle q ∧ q.lnbDrift = -levelDrift p₀ k := by
  refine h.setup_ready hk
    (fun q hq hdrift =>
      ⟨{ q with inversion := q.inversion.toggle, lnbDrift := -q.lnbDrift },?_,?_,congrArg Neg.neg hdrift⟩) fuel
  · have hgoes : q.lnbDrift ≠ 0 := hdrift ▸ hne
    rw [zigzagSwitch,hq.autoSubStep]
    exact if_neg hgoes
  · exact ⟨hq.same.trans ⟨rfl,rfl,rfl,rfl,rfl,rfl⟩,hq.autoStep,hq.autoSubStep,congrArg TriedInversion.toggle hq.inversion⟩

theorem Stands.setup_again {k' : Nat} {sub' : UInt32} (h : Stands p₀ k sub i p) (hk : InRange p₀ k)
    (hswitch : ∀ q, Stands p₀ k sub i q → q.lnbDrift = levelDrift p₀ k → ∃ q', zigzagSwitch auto q = (false, q') ∧
      Stands p₀ k' sub' i { q' with autoSubStep := q'.autoSubStep + 1 }) :
    ∃ p', Stands p₀ k' sub' i p' ∧ ∀ fuel, zigzagSetup auto (fuel + 1) p = zigzagSetup auto fuel p' := by
  obtain ⟨hstands,hdrift⟩ := h.zigzagDrift hk
  obtain ⟨q',hagain,hq'⟩ := hswitch _ hstands hdrift
  exact ⟨_,hq',fun fuel => zigzagSetup_again hagain⟩

theorem Stands.count {sub' : UInt32} (h : Stands p₀ k sub i q) (hsub : sub + 1 = sub') :
    Stands p₀ k sub' i { q with autoSubStep := q.autoSubStep + 1 } :=
  ⟨h.same.trans ⟨rfl, rfl, rfl, rfl, rfl, rfl⟩, h.autoStep, by rw [← hsub,← h.autoSubStep], h.inversion⟩

theorem Stands.skip_one (h : Stands p₀ k 1 i p) (hk : InRange p₀ k) :
    ∃ p', Stands p₀ k 2 i p' ∧ ∀ fuel, zigzagSetup false (fuel + 1) p = zigzagSetup false fuel p' := by
  refine h.setup_again hk fun q hq hdrift => ⟨q,?_,hq.count rfl⟩
  rw [zigzagSwitch,hq.autoSubStep]
  rfl

theorem Stands.skip_two (h : Stands p₀ k 2 i p) (hk : InRange p₀ k) (hzero : levelDrift p₀ k = 0) :
    ∃ p', Stands p₀ k 3 i p' ∧ ∀ fuel, zigzagSetup auto (fuel + 1) p = zigzagSetup auto fuel p' := by
  refine h.setup_again hk fun q hq hdrift => ⟨q,?_,hq.count rfl⟩
  rw [zigzagSwitch,hq.autoSubStep]
  exact if_pos (hdrift.trans hzero)

theorem Stands.skip_three (h : Stands p₀ k 3 i p) (hk : InRange p₀ k) (hskip : levelDrift p₀ k = 0 ∨ auto = false) :
    ∃ p', Stands p₀ k 4 i p' ∧ ∀ fuel, zigzagSetup auto (fuel + 1) p = zigzagSetup auto fuel p' := by
  refine h.setup_again hk fun q hq hdrift => ⟨q,?_,hq.count rfl⟩
  rw [zigzagSwitch,hq.autoSubStep]
  change (if q.lnbDrift = 0 then _ else if auto = true then _ else (false, q)) = _
  cases hskip with
  | inl hzero => exact if_pos (hdrift.trans hzero)
  | inr hfixed =>
    subst hfixed
    exact ite_self _

theorem Stands.skip_four (h : Stands p₀ k 4 i p) (hk : InRange p₀ k) :
    ∃ p', Stands p₀ (k + 1) 0 i p' ∧ ∀ fuel, zigzagSetup auto (fuel + 1) p = zigzagSetup auto fuel p' := by
  refine h.setup_again hk fun q hq hdrift => ⟨{ q with autoStep := q.autoStep + 1, autoSubStep := -1 },?_,?_⟩
  · rw [zigzagSwitch,hq.autoSubStep]
    rfl
  · have hcount : (-1 : UInt32) + 1 = 0 := by decide
    refine ⟨hq.same.trans ⟨rfl,rfl,rfl,rfl,rfl,rfl⟩,?_,hcount,hq.inversion⟩
    dsimp only
    rw [hq.autoStep,UInt32.ofNat_add]
    rfl

def attemptInversion (fe : DvbFrontend) (p₀ : FrontendPrivate) (i : TriedInversion) : Inversion :=
  if autoinversion fe p₀ then i.val else p₀.parameters.inversion

def Follows (fe : DvbFrontend) (tunings : List Tuning) (p p' : FrontendPrivate) : Prop :=
  ∃ n, ∀ m, sweep fe (n + m) p = (sweep fe m p').map fun r => (tunings ++ r.1, r.2)

theorem Follows.refl (fe : DvbFrontend) (p : FrontendPrivate) : Follows fe [] p p := by
  refine ⟨0,fun m => ?_⟩
  rw [Nat.zero_add]
  exact Option.map_id'.symm

theorem Follows.trans {tunings tunings' : List Tuning} (h : Follows fe tunings p q) {r : FrontendPrivate}
    (h' : Follows fe tunings' q r) : Follows fe (tunings ++ tunings') p r := by
  obtain ⟨n,hn⟩ := h
  obtain ⟨n',hn'⟩ := h'
  refine ⟨n + n',fun m => ?_⟩
  rw [Nat.add_assoc,hn,hn',Option.map_map]
  congr 1
  funext r
  exact Prod.ext (append_assoc _ _ _).symm rfl

theorem Stands.follows (hq : Stands p₀ k sub i q) (hsame : SameRequest p₀ p)
    (hsetup : zigzagSetup (autoinversion fe p₀) 5 p = some q)
    (hgoes : ¬ (UInt32.ofNat k = p₀.startedAutoStep ∧ sub = 0 ∧ p.checkWrapped = true)) :
    ∃ p', Stands p₀ k (sub + 1) i p' ∧ p'.checkWrapped = true ∧
      Follows fe [tuningTo p₀ q.lnbDrift.toInt (attemptInversion fe p₀ i)] p p' := by
  have hauto : autoinversion fe p = autoinversion fe p₀ := by rw [autoinversion,hsame.inversion,autoinversion]
  rw [← hauto] at hsetup
  have hcall : swzigzagAutotune fe p.checkWrapped p =
      some (some (attemptParameters (autoinversion fe p) q), afterAttempt fe p q) := by
    apply swzigzagAutotune_attempt hsetup
    rwa [hq.autoStep,hq.autoSubStep,hq.same.startedAutoStep]
  refine ⟨{ afterAttempt fe p q with checkWrapped := true },?_,rfl,1,fun m => ?_⟩
  · have hafter : SameRequest p₀ { afterAttempt fe p q with checkWrapped := true } :=
      ⟨hsame.frequency,hsame.inversion,hq.same.maxDrift,hq.same.stepSize,hq.same.startedAutoStep,hq.same.state⟩
    exact ⟨hafter,hq.autoStep,congrArg (· + 1) hq.autoSubStep,hq.inversion⟩
  · have htuning : Tuning.mk (afterAttempt fe p q).lnbDrift.toInt (attemptParameters (autoinversion fe p) q).frequency
        (attemptParameters (autoinversion fe p) q).inversion =
          tuningTo p₀ q.lnbDrift.toInt (attemptInversion fe p₀ i) := by
      rw [tuningTo,Int32.ofInt_toInt,attemptInversion,hauto,← hq.same.frequency,← hq.same.inversion,← hq.inversion]
      rfl
    rw [Nat.add_comm,sweep,hcall]
    dsimp only
    rw [htuning]
    rfl

end Attempts

section Levels

variable {fe : DvbFrontend} {p p₀ : FrontendPrivate} {k : Nat} {i : TriedInversion}

/-- The next call makes the first attempt that is `k` steps away, or finds that there is none. -/
structure Enters (fe : DvbFrontend) (p₀ : FrontendPrivate) (k : Nat) (i : TriedInversion) (p : FrontendPrivate) :
    Prop where
  same : SameRequest p₀ p
  wrapped : p.checkWrapped = decide (k ≠ 0)
  enters : ∃ fuel q, Stands p₀ k 0 i q ∧
    zigzagSetup (autoinversion fe p₀) 5 p = zigzagSetup (autoinversion fe p₀) (fuel + 1) q

/-- What is known of the drift of `k` steps, as far as the search itself needs it. -/
structure Level (p₀ : FrontendPrivate) (k : Nat) : Prop where
  inRange : InRange p₀ k
  drift_eq_zero : levelDrift p₀ k = 0 ↔ k = 0
  step_ne : k ≠ 0 → UInt32.ofNat k ≠ p₀.startedAutoStep

theorem Enters.follows (h : Enters fe p₀ k i p) (hlevel : Level p₀ k) :
    ∃ p', Stands p₀ k 1 i p' ∧ p'.checkWrapped = true ∧
      Follows fe [tuningTo p₀ (levelDrift p₀ k).toInt (attemptInversion fe p₀ i)] p p' := by
  obtain ⟨fuel,q,hq,hsetup⟩ := h.enters
  obtain ⟨q',hready,hq',hdrift⟩ := hq.setup_zero hlevel.inRange fuel
  have hgoes : ¬ (UInt32.ofNat k = p₀.startedAutoStep ∧ (0 : UInt32) = 0 ∧ p.checkWrapped = true) := by
    intro hwrapped
    obtain ⟨hstep,-,hchecked⟩ := hwrapped
    rw [h.wrapped] at hchecked
    exact hlevel.step_ne (of_decide_eq_true hchecked) hstep
  have hattempt := hq'.follows h.same (hsetup.trans hready) hgoes
  rw [hdrift] at hattempt
  exact hattempt

theorem Stands.follows_later {sub sub' : UInt32} {i' : TriedInversion} {q : FrontendPrivate} {drift : Int32}
    (h : Stands p₀ k sub i p) (hq : Stands p₀ k sub' i' q)
    (hsetup : zigzagSetup (autoinversion fe p₀) 5 p = some q) (hdrift : q.lnbDrift = drift) (hsub : sub' ≠ 0) :
    ∃ p', Stands p₀ k (sub' + 1) i' p' ∧ p'.checkWrapped = true ∧
      Follows fe [tuningTo p₀ drift.toInt (attemptInversion fe p₀ i')] p p' := by
  have hattempt := hq.follows h.same hsetup fun hwrapped => hsub hwrapped.2.1
  rwa [hdrift] at hattempt

theorem Stands.enters {sub : UInt32} (h : Stands p₀ k sub i p) (hchecked : p.checkWrapped = true)
    (hsetup : ∃ fuel q, Stands p₀ (k + 1) 0 i q ∧
      zigzagSetup (autoinversion fe p₀) 5 p = zigzagSetup (autoinversion fe p₀) (fuel + 1) q) :
    Enters fe p₀ (k + 1) i p := by
  refine ⟨h.same,?_,hsetup⟩
  rw [hchecked]
  exact (decide_eq_true (Nat.succ_ne_zero k)).symm

theorem toggle_cases (i : TriedInversion) : i.val = .off ∧ i.toggle.val = .on ∨ i.val = .on ∧ i.toggle.val = .off := by
  obtain ⟨i,hi⟩ := i
  cases i with
  | off => exact .inl ⟨rfl,rfl⟩
  | on => exact .inr ⟨rfl,rfl⟩
  | auto => exact absurd rfl hi

theorem perm_toggle (hauto : autoinversion fe p₀ = true) (offset : Int) (i : TriedInversion) :
    [tuningTo p₀ offset (attemptInversion fe p₀ i), tuningTo p₀ offset (attemptInversion fe p₀ i.toggle)].Perm
      ((inversions fe p₀).map (tuningTo p₀ offset)) := by
  rw [inversions,attemptInversion,attemptInversion,hauto,if_pos rfl,if_pos rfl,if_pos rfl]
  cases toggle_cases i with
  | inl h =>
    rw [h.1,h.2]
    exact .refl _
  | inr h =>
    rw [h.1,h.2]
    exact .swap _ _ _

theorem perm_single (hauto : autoinversion fe p₀ = false) (offset : Int) (i : TriedInversion) :
    [tuningTo p₀ offset (attemptInversion fe p₀ i)].Perm ((inversions fe p₀).map (tuningTo p₀ offset)) := by
  rw [inversions,attemptInversion,hauto,if_neg Bool.false_ne_true,if_neg Bool.false_ne_true]
  exact .refl _

def driftOffsets (p₀ : FrontendPrivate) (k : Nat) : List Int :=
  if k = 0 then [(levelDrift p₀ k).toInt] else [(levelDrift p₀ k).toInt, (-levelDrift p₀ k).toInt]

theorem follows_level (h : Enters fe p₀ k i p) (hlevel : Level p₀ k) :
    ∃ tunings p' i', Follows fe tunings p p' ∧ Enters fe p₀ (k + 1) i' p' ∧
      tunings.Perm ((driftOffsets p₀ k).flatMap fun offset => (inversions fe p₀).map (tuningTo p₀ offset)) := by
  have hk := hlevel.inRange
  obtain ⟨p₁,hp₁,hchecked₁,hfollows₁⟩ := h.follows hlevel
  by_cases hzero : k = 0
  · have hdrift := hlevel.drift_eq_zero.mpr hzero
    rw [driftOffsets,if_pos hzero,flatMap_singleton]
    cases hauto : autoinversion fe p₀ with
    | true =>
      obtain ⟨q₂,hsetup₂,hq₂,hdrift₂⟩ := hp₁.setup_one hk 4
      rw [← hauto] at hsetup₂
      obtain ⟨p₂,hp₂,hchecked₂,hfollows₂⟩ := hp₁.follows_later hq₂ hsetup₂ hdrift₂ (by decide)
      obtain ⟨p₃,hp₃,hskip₃⟩ := hp₂.skip_two hk hdrift
      obtain ⟨p₄,hp₄,hskip₄⟩ := hp₃.skip_three hk (.inl hdrift)
      obtain ⟨p₅,hp₅,hskip₅⟩ := hp₄.skip_four hk
      refine ⟨_,p₂,i.toggle,hfollows₁.trans hfollows₂,hp₂.enters hchecked₂ ⟨1,p₅,hp₅,?_⟩,perm_toggle hauto _ i⟩
      rw [hskip₃,hskip₄,hskip₅]
    | false =>
      obtain ⟨p₂,hp₂,hskip₂⟩ := hp₁.skip_one hk
      obtain ⟨p₃,hp₃,hskip₃⟩ := hp₂.skip_two hk hdrift
      obtain ⟨p₄,hp₄,hskip₄⟩ := hp₃.skip_three hk (.inl hdrift)
      obtain ⟨p₅,hp₅,hskip₅⟩ := hp₄.skip_four hk
      refine ⟨_,p₁,i,hfollows₁,hp₁.enters hchecked₁ ⟨0,p₅,hp₅,?_⟩,perm_single hauto _ i⟩
      rw [hauto,hskip₂,hskip₃,hskip₄,hskip₅]
  · have hdrift : levelDrift p₀ k ≠ 0 := fun hd => hzero (hlevel.drift_eq_zero.mp hd)
    rw [driftOffsets,if_neg hzero,flatMap_cons,flatMap_singleton]
    cases hauto : autoinversion fe p₀ with
    | true =>
      obtain ⟨q₂,hsetup₂,hq₂,hdrift₂⟩ := hp₁.setup_one hk 4
      rw [← hauto] at hsetup₂
      obtain ⟨p₂,hp₂,hchecked₂,hfollows₂⟩ := hp₁.follows_later hq₂ hsetup₂ hdrift₂ (by decide)
      obtain ⟨q₃,hsetup₃,hq₃,hdrift₃⟩ := hp₂.setup_two hk hdrift 4
      obtain ⟨p₃,hp₃,hchecked₃,hfollows₃⟩ := hp₂.follows_later hq₃ hsetup₃ hdrift₃ (by decide)
      obtain ⟨q₄,hsetup₄,hq₄,hdrift₄⟩ := hp₃.setup_three hk hdrift 4
      rw [← hauto] at hsetup₄
      obtain ⟨p₄,hp₄,hchecked₄,hfollows₄⟩ := hp₃.follows_later hq₄ hsetup₄ hdrift₄ (by decide)
      obtain ⟨p₅,hp₅,hskip₅⟩ := hp₄.skip_four hk
      refine ⟨_,p₄,i.toggle.toggle,(hfollows₁.trans hfollows₂).trans (hfollows₃.trans hfollows₄),
        hp₄.enters hchecked₄ ⟨3,p₅,hp₅,hskip₅ 4⟩,?_⟩
      exact (perm_toggle hauto _ i).append (perm_toggle hauto _ i.toggle)
    | false =>
      obtain ⟨p₂,hp₂,hskip₂⟩ := hp₁.skip_one hk
      obtain ⟨q₃,hsetup₃,hq₃,hdrift₃⟩ := hp₂.setup_two hk hdrift 3
      rw [← hskip₂,← hauto] at hsetup₃
      obtain ⟨p₃,hp₃,hchecked₃,hfollows₃⟩ := hp₁.follows_later hq₃ hsetup₃ hdrift₃ (by decide)
      obtain ⟨p₄,hp₄,hskip₄⟩ := hp₃.skip_three hk (.inr rfl)
      obtain ⟨p₅,hp₅,hskip₅⟩ := hp₄.skip_four hk
      refine ⟨_,p₃,i,hfollows₁.trans hfollows₃,hp₃.enters hchecked₃ ⟨2,p₅,hp₅,?_⟩,?_⟩
      · rw [hauto,hskip₄,hskip₅]
      · exact (perm_single hauto _ i).append (perm_single hauto _ i)

theorem follows_levels (h : Enters fe p₀ 0 i p) (K : Nat) (hlevels : ∀ k < K, Level p₀ k) :
    ∃ tunings p' i', Follows fe tunings p p' ∧ Enters fe p₀ K i' p' ∧
      tunings.Perm ((List.range K).flatMap fun k =>
        (driftOffsets p₀ k).flatMap fun offset => (inversions fe p₀).map (tuningTo p₀ offset)) := by
  induction K with
  | zero => exact ⟨[],p,i,.refl fe p,h,.refl _⟩
  | succ K ih =>
    obtain ⟨tunings,p',i',hfollows,henters,hperm⟩ := ih fun k hk => hlevels k (Nat.lt_succ_of_lt hk)
    obtain ⟨tunings',p'',i'',hfollows',henters',hperm'⟩ := follows_level henters (hlevels K (Nat.lt_succ_self K))
    refine ⟨tunings ++ tunings',p'',i'',hfollows.trans hfollows',henters',?_⟩
    rw [List.range_succ,List.flatMap_append,flatMap_singleton]
    exact hperm.append hperm'

theorem enters_retuned (fe : DvbFrontend) (p : FrontendPrivate) : Enters fe (retuned p) 0 p.inversion (retuned p) :=
  ⟨.refl _, rfl, 4, retuned p, ⟨.refl _, rfl, rfl, rfl⟩, rfl⟩

end Levels

/-- An iteration can come to an end: the step is not 0, and drifts up to the maximum fit into an `int`. -/
def RangeFits (p : FrontendPrivate) : Prop :=
  0 < p.stepSize.toNat ∧ p.maxDrift.toNat / p.stepSize.toNat * p.stepSize.toNat < 2 ^ 31

section Ranges

variable {fe : DvbFrontend} {p p₀ q : FrontendPrivate} {k n : Nat}

theorem toNat_product {step : UInt32} (hk : k < 2 ^ 32) (h : k * step.toNat < 2 ^ 32) :
    (UInt32.ofNat k * step).toNat = k * step.toNat := by
  rw [UInt32.toNat_mul,UInt32.toNat_ofNat_of_lt' hk]
  exact Nat.mod_eq_of_lt h

/-- A multiple that fits into an `int` has the step as its factor. -/
structure Fits (p₀ : FrontendPrivate) (k : Nat) : Prop where
  factor : k < 2 ^ 32
  drift : k * p₀.stepSize.toNat < 2 ^ 31

theorem Fits.of_step (hstep : 0 < p₀.stepSize.toNat) (h : k * p₀.stepSize.toNat < 2 ^ 31) : Fits p₀ k := by
  have hle : k ≤ k * p₀.stepSize.toNat := Nat.le_mul_of_pos_right k hstep
  exact ⟨by omega,h⟩

theorem fits_zero (p₀ : FrontendPrivate) : Fits p₀ 0 := ⟨by decide, by rw [Nat.zero_mul]; decide⟩

theorem Fits.toNat (h : Fits p₀ k) : (UInt32.ofNat k * p₀.stepSize).toNat = k * p₀.stepSize.toNat :=
  toNat_product h.factor (Nat.lt_trans h.drift (by decide))

theorem Fits.toInt (h : Fits p₀ k) : (levelDrift p₀ k).toInt = (k * p₀.stepSize.toNat : Nat) := by
  have hcond : (levelDrift p₀ k).toInt =
      if 2 * (UInt32.ofNat k * p₀.stepSize).toNat < 2 ^ 32 then ((UInt32.ofNat k * p₀.stepSize).toNat : Int)
      else (UInt32.ofNat k * p₀.stepSize).toNat - (2 ^ 32 : Nat) :=
    BitVec.toInt_eq_toNat_cond (UInt32.ofNat k * p₀.stepSize).toBitVec
  have hdrift := h.drift
  rw [hcond,h.toNat,if_pos (by omega)]

theorem Fits.toInt_neg (h : Fits p₀ k) : (-levelDrift p₀ k).toInt = -(k * p₀.stepSize.toNat : Nat) := by
  have hdrift := h.drift
  rw [Int32.toInt_neg,h.toInt,Int.bmod_eq_of_le]
  · omega
  · omega

theorem Fits.driftOffsets_eq (h : Fits p₀ k) : driftOffsets p₀ k = levelOffsets p₀ k := by
  rw [driftOffsets,levelOffsets,h.toInt,h.toInt_neg]
  by_cases hzero : k = 0
  · rw [if_pos hzero,if_pos hzero,hzero,Nat.zero_mul]
    rfl
  · rw [if_neg hzero,if_neg hzero]

theorem Fits.level (h : Fits p₀ k) (hstarted : p₀.startedAutoStep = 0) (hstep : k ≠ 0 → 0 < p₀.stepSize.toNat)
    (hk : k * p₀.stepSize.toNat ≤ p₀.maxDrift.toNat) : Level p₀ k := by
  refine ⟨?_,⟨fun hzero => ?_,fun hzero => ?_⟩,fun hne hstart => hne ?_⟩
  · rw [InRange,UInt32.le_iff_toNat_le,h.toNat]
    exact hk
  · by_contra hne
    have hint := h.toInt
    have hpos := Nat.mul_pos (Nat.pos_of_ne_zero hne) (hstep hne)
    rw [hzero,Int32.toInt_zero] at hint
    omega
  · have hfactor : UInt32.ofNat k = 0 := congrArg UInt32.ofNat hzero
    rw [levelDrift,hfactor,UInt32.zero_mul]
    rfl
  · have hnat := congrArg UInt32.toNat (hstart.trans hstarted)
    rwa [UInt32.toNat_ofNat_of_lt' h.factor] at hnat

theorem sweep_length {tunings : List Tuning} (h : sweep fe n p = some (tunings, q)) : tunings.length = n := by
  induction n generalizing p tunings with
  | zero =>
    cases h
    rfl
  | succ n ih =>
    rw [sweep] at h
    split at h
    case h_1 q' _ =>
      obtain ⟨r,hr,heq⟩ := map_eq_some_iff.mp h
      cases heq
      rw [length_cons,ih hr]
    case h_2 => cases h

theorem sweep_offset_lt {tunings : List Tuning} (h : sweep fe n p = some (tunings, q)) :
    ∀ t ∈ tunings, t.offset < 2 ^ 31 := by
  induction n generalizing p tunings with
  | zero =>
    cases h
    exact fun t ht => absurd ht not_mem_nil
  | succ n ih =>
    rw [sweep] at h
    split at h
    case h_1 q' _ =>
      obtain ⟨r,hr,heq⟩ := map_eq_some_iff.mp h
      cases heq
      exact forall_mem_cons.mpr ⟨q'.lnbDrift.toInt_lt,ih hr⟩
    case h_2 => cases h

theorem Follows.sweep_eq {tunings : List Tuning} (h : Follows fe tunings p q) :
    sweep fe tunings.length p = some (tunings, q) := by
  obtain ⟨n,hn⟩ := h
  have hsweep := hn 0
  rw [sweep,map_some,append_nil,Nat.add_zero] at hsweep
  rwa [sweep_length hsweep]

theorem autoinversion_eq (h : SameRequest p₀ p) : autoinversion fe p = autoinversion fe p₀ := by
  rw [autoinversion,h.inversion,autoinversion]

theorem inversions_ne_nil (fe : DvbFrontend) (p : FrontendPrivate) : ∃ i, i ∈ inversions fe p := by
  unfold inversions
  split
  · exact ⟨.off,mem_cons_self⟩
  · exact ⟨_,mem_cons_self⟩

theorem Enters.complete {i : TriedInversion} (h : Enters fe p₀ (k + 1) i p) (hstarted : p₀.startedAutoStep = 0)
    (hbeyond : UInt32.ofNat (k + 1) * p₀.stepSize > p₀.maxDrift) :
    ∃ q, swzigzagAutotune fe p.checkWrapped p = some (none, q) := by
  obtain ⟨fuel,q,hq,hsetup⟩ := h.enters
  have hq' : q.autoStep * q.stepSize > q.maxDrift := by rwa [hq.autoStep,hq.same.stepSize,hq.same.maxDrift]
  have hwrapped : p.checkWrapped = true := h.wrapped.trans (decide_eq_true (Nat.succ_ne_zero k))
  rw [zigzagSetup_zero fuel hq.autoSubStep,zigzagDrift_beyond hq',← autoinversion_eq h.same] at hsetup
  rw [hwrapped]
  exact ⟨_,swzigzagAutotune_complete hsetup ⟨(hq.same.startedAutoStep.trans hstarted).symm,rfl⟩⟩

theorem SweepsRange.step_pos (h : SweepsRange fe (retuned p)) : 0 < p.stepSize.toNat := by
  obtain ⟨n,tunings,q,q',hsweep,hperm,hcomplete⟩ := h.covers
  refine Nat.pos_of_ne_zero fun hzero => ?_
  have hstep : (retuned p).stepSize.toNat = 0 := hzero
  have hfits := fits_zero (retuned p)
  have hone : Fits (retuned p) 1 := ⟨by decide,by rw [hstep]; decide⟩
  have hlast : (retuned p).maxDrift.toNat / (retuned p).stepSize.toNat + 1 = 1 := by rw [hstep,Nat.div_zero]
  have hlevel : Level (retuned p) 0 :=
    hfits.level rfl (fun h => absurd rfl h) (by rw [Nat.zero_mul]; exact Nat.zero_le _)
  obtain ⟨tunings',p',i',hfollows,henters,hperm'⟩ := follows_level (enters_retuned fe p) hlevel
  rw [hfits.driftOffsets_eq] at hperm'
  rw [allTunings,hlast,List.range_one,flatMap_singleton] at hperm
  have hsweep' := hfollows.sweep_eq
  rw [← (hperm.trans hperm'.symm).length_eq,sweep_length hsweep,hsweep] at hsweep'
  cases hsweep'
  obtain ⟨fuel,r,hr,hsetup⟩ := henters.enters
  have hinside : InRange (retuned p) 1 := by
    rw [InRange,UInt32.le_iff_toNat_le,hone.toNat,hstep]
    exact Nat.zero_le _
  obtain ⟨r',hready,hr',-⟩ := hr.setup_zero hinside fuel
  obtain ⟨p'',-,-,hfollows'⟩ := hr'.follows henters.same (hsetup.trans hready) fun hwrapped =>
    absurd hwrapped.1 (by change ¬ UInt32.ofNat 1 = 0; decide)
  have hsweep' : sweep fe 1 q = some (_, p'') := hfollows'.sweep_eq
  rw [sweep,hcomplete] at hsweep'
  cases hsweep'

theorem SweepsRange.drift_lt (h : SweepsRange fe (retuned p)) :
    p.maxDrift.toNat / p.stepSize.toNat * p.stepSize.toNat < 2 ^ 31 := by
  obtain ⟨n,tunings,q,q',hsweep,hperm,hcomplete⟩ := h.covers
  by_contra hlarge
  have hne : p.maxDrift.toNat / p.stepSize.toNat ≠ 0 := by
    intro hzero
    rw [hzero,Nat.zero_mul] at hlarge
    exact hlarge (by decide)
  obtain ⟨i,hi⟩ := inversions_ne_nil fe (retuned p)
  have hmem : tuningTo (retuned p) (p.maxDrift.toNat / p.stepSize.toNat * p.stepSize.toNat : Nat) i ∈
      allTunings fe (retuned p) := by
    have hoffset : ((p.maxDrift.toNat / p.stepSize.toNat * p.stepSize.toNat : Nat) : Int) ∈
        levelOffsets (retuned p) (p.maxDrift.toNat / p.stepSize.toNat) := by
      rw [levelOffsets,if_neg hne]
      exact mem_cons_self
    refine mem_flatMap.mpr ⟨_,mem_range.mpr (Nat.lt_succ_self _),?_⟩
    exact mem_flatMap.mpr ⟨_,hoffset,mem_map.mpr ⟨i,hi,rfl⟩⟩
  have hoffset := sweep_offset_lt hsweep _ (hperm.symm.subset hmem)
  rw [tuningTo] at hoffset
  dsimp only at hoffset
  omega

theorem sweepsRange_iff (fe : DvbFrontend) (p : FrontendPrivate) : SweepsRange fe (retuned p) ↔ RangeFits p := by
  refine ⟨fun h => ⟨h.step_pos,h.drift_lt⟩,fun hfits => ⟨callRestores fe,?_⟩⟩
  obtain ⟨hstep,hdrift⟩ := hfits
  have hmul : ∀ k ≤ p.maxDrift.toNat / p.stepSize.toNat,
      k * p.stepSize.toNat ≤ p.maxDrift.toNat / p.stepSize.toNat * p.stepSize.toNat :=
    fun k hk => Nat.mul_le_mul_right _ hk
  have hfit : ∀ k ≤ p.maxDrift.toNat / p.stepSize.toNat, Fits (retuned p) k := fun k hk =>
    .of_step hstep (Nat.lt_of_le_of_lt (hmul k hk) hdrift)
  obtain ⟨tunings,q,i,hfollows,henters,hperm⟩ := follows_levels (enters_retuned fe p)
    (p.maxDrift.toNat / p.stepSize.toNat + 1) fun k hk =>
      (hfit k (Nat.le_of_lt_succ hk)).level rfl (fun _ => hstep)
        (Nat.le_trans (hmul k (Nat.le_of_lt_succ hk)) (Nat.div_mul_le_self _ _))
  have hbeyond : UInt32.ofNat (p.maxDrift.toNat / p.stepSize.toNat + 1) * p.stepSize > p.maxDrift := by
    have hmax := p.maxDrift.toNat_lt
    have hsize := p.stepSize.toNat_lt
    have hnext := Nat.lt_div_mul_add (a := p.maxDrift.toNat) hstep
    have hsucc : (p.maxDrift.toNat / p.stepSize.toNat + 1) * p.stepSize.toNat =
        p.maxDrift.toNat / p.stepSize.toNat * p.stepSize.toNat + p.stepSize.toNat := Nat.succ_mul _ _
    have hsmall : (p.maxDrift.toNat / p.stepSize.toNat + 1) * p.stepSize.toNat < 2 ^ 32 := by
      by_cases hzero : p.maxDrift.toNat / p.stepSize.toNat = 0
      · rw [hzero,Nat.zero_add,Nat.one_mul]
        exact hsize
      · have hle := hmul 1 (Nat.pos_of_ne_zero hzero)
        omega
    have hfactor : p.maxDrift.toNat / p.stepSize.toNat + 1 < 2 ^ 32 :=
      Nat.lt_of_le_of_lt (Nat.le_mul_of_pos_right _ hstep) hsmall
    change p.maxDrift < _
    rw [UInt32.lt_iff_toNat_lt,toNat_product hfactor hsmall]
    omega
  obtain ⟨q',hcomplete⟩ := henters.complete rfl hbeyond
  refine ⟨tunings.length,tunings,q,q',hfollows.sweep_eq,hperm.trans (.of_eq ?_),hcomplete⟩
  refine List.flatMap_congr fun k hk => ?_
  rw [(hfit k (Nat.le_of_lt_succ (mem_range.mp hk))).driftOffsets_eq,levelTunings]

end Ranges

section Rounds

variable {fe : DvbFrontend} {hz : Int32} {status : UInt32} {p : FrontendPrivate}

theorem swzigzagStatus_search (hlock : status &&& feHasLock = 0) (htuned : p.state &&& festateTuned = 0)
    (hlost : p.state &&& festateLostlock = 0) (hdiseqc : p.state &&& festateDiseqc = 0) :
    swzigzagStatus fe hz status p = swzigzagSearch fe hz false p := by
  simp [swzigzagStatus,hlock,htuned,hlost,hdiseqc]

theorem swzigzagFast_complete {retune : Bool} {q : FrontendPrivate}
    (h : swzigzagAutotune fe p.checkWrapped { p with delay := p.minDelay } = some (none, q)) :
    swzigzagFast fe hz false retune p =
      some ([], { q with state := festateSearchingSlow, startedAutoStep := q.autoStep }) := by
  rw [swzigzagFast,h]

theorem swzigzagFast_attempt {retune : Bool} {q : FrontendPrivate} {attempt : FrontendParameters}
    (h : swzigzagAutotune fe p.checkWrapped { p with delay := p.minDelay } = some (some attempt, q))
    (hstate : (if retune then festateTuningFast else q.state) = festateTuningFast) :
    swzigzagFast fe hz false retune p =
      some ([.tune attempt], { q with checkWrapped := true, state := festateTuningFast }) := by
  have hslow : ¬ festateTuningFast &&& festateSearchingSlow ≠ 0 := by decide
  rw [swzigzagFast,h]
  dsimp only
  rw [hstate,swzigzagSlow]
  dsimp only
  rw [if_neg hslow]
  rfl

theorem swzigzag_retune (hstate : p.state = festateRetune) (hmode : p.tuneModeFlags &&& feTuneModeOneshot = 0) :
    swzigzag fe hz status p = swzigzagFast fe hz false true { retuned p with delay := p.delay } := by
  have hidle : ¬ p.state &&& festateIdle ≠ 0 := by rw [hstate]; decide
  have hretune : p.state &&& festateRetune ≠ 0 := by rw [hstate]; decide
  have hsearch : swzigzagStatus fe hz 0 p = swzigzagSearch fe hz false p :=
    swzigzagStatus_search (by decide) (by rw [hstate]; decide) (by rw [hstate]; decide) (by rw [hstate]; decide)
  rw [swzigzag,if_neg hidle,if_neg (not_not_intro hmode),if_pos hretune,hsearch,swzigzagSearch,
    decide_eq_true hretune]
  exact if_pos (.inr rfl)

theorem swzigzag_tuningFast (hstate : p.state = festateTuningFast) (hmode : p.tuneModeFlags &&& feTuneModeOneshot = 0)
    (hlock : status &&& feHasLock = 0) :
    swzigzag fe hz status p = (swzigzagFast fe hz false false { p with status := status }).map fun r =>
      ((if status ≠ p.status then [.event status] else []) ++ r.1, r.2) := by
  have hidle : ¬ p.state &&& festateIdle ≠ 0 := by rw [hstate]; decide
  have hretune : ¬ p.state &&& festateRetune ≠ 0 := by rw [hstate]; decide
  have hfast : p.state &&& festateSearchingFast ≠ 0 := by rw [hstate]; decide
  have hsearch : swzigzagStatus fe hz status { p with status := status } =
      swzigzagSearch fe hz false { p with status := status } :=
    swzigzagStatus_search hlock (by dsimp only; rw [hstate]; decide) (by dsimp only; rw [hstate]; decide)
      (by dsimp only; rw [hstate]; decide)
  have hcalls : swzigzagSearch fe hz false { p with status := status } =
      swzigzagFast fe hz false false { p with status := status } := by
    rw [swzigzagSearch]
    dsimp only
    rw [decide_eq_false hretune]
    exact if_pos (.inl hfast)
  rw [swzigzag,if_neg hidle,if_neg (not_not_intro hmode),if_neg hretune]
  dsimp only
  rw [hsearch,hcalls]
  by_cases hchanged : status ≠ p.status
  · rw [decide_eq_true hchanged,if_pos hchanged]
    rfl
  · rw [decide_eq_false hchanged,if_neg hchanged]
    rfl

end Rounds

def SettingsFit (fe : DvbFrontend) (options : CoreOptions) (parg : FrontendParameters) : Prop :=
  match fe.getTuneSettings (forcedParameters options parg) with
  | some settings =>
    0 < settings.stepSize.toUInt32.toNat ∧
      settings.maxDrift.toUInt32.toNat / settings.stepSize.toUInt32.toNat * settings.stepSize.toUInt32.toNat < 2 ^ 31
  | none =>
    match fe.type with
    | .qpsk => 16000 ≤ parg.symbolRate.toNat
    | .qam => False
    | .ofdm => 0 < (fe.frequencyStepsize * 2).toNat ∧ (fe.frequencyStepsize * 2).toNat < 2 ^ 31
    | .atsc => False

section Requested

variable {fe : DvbFrontend} {options : CoreOptions} {parg : FrontendParameters}

theorem symbolRate_forcedParameters (options : CoreOptions) (parg : FrontendParameters) :
    (forcedParameters options parg).symbolRate = parg.symbolRate := by
  unfold forcedParameters
  split <;> rfl

theorem feSetFrontend_steps (p : FrontendPrivate) : ∃ q, (feSetFrontend fe options parg p).stepSize =
        (tuneSettings fe options.hz (forcedParameters options parg) q).stepSize ∧
      (feSetFrontend fe options parg p).maxDrift =
        (tuneSettings fe options.hz (forcedParameters options parg) q).maxDrift := by
  unfold feSetFrontend
  dsimp only
  by_cases hoverride : options.overrideTuneDelay > 0
  · rw [if_pos hoverride]
    exact ⟨_,rfl,rfl⟩
  · rw [if_neg hoverride]
    exact ⟨_,rfl,rfl⟩

theorem qpsk_fits (symbolRate : UInt32) : 0 < (symbolRate / 16000).toNat ∧
      (symbolRate / 2000).toNat / (symbolRate / 16000).toNat * (symbolRate / 16000).toNat < 2 ^ 31 ↔
        16000 ≤ symbolRate.toNat := by
  have hrate := symbolRate.toNat_lt
  have hstep : (symbolRate / 16000).toNat = symbolRate.toNat / 16000 := UInt32.toNat_div ..
  have hdrift : (symbolRate / 2000).toNat = symbolRate.toNat / 2000 := UInt32.toNat_div ..
  have hmul := Nat.div_mul_le_self (symbolRate / 2000).toNat (symbolRate / 16000).toNat
  rw [hstep,hdrift] at hmul ⊢
  omega

theorem ofdm_fits (frequencyStepsize : UInt32) : 0 < (frequencyStepsize * 2).toNat ∧
      (frequencyStepsize * 2 + 1).toNat / (frequencyStepsize * 2).toNat * (frequencyStepsize * 2).toNat < 2 ^ 31 ↔
        0 < (frequencyStepsize * 2).toNat ∧ (frequencyStepsize * 2).toNat < 2 ^ 31 := by
  have heven : (frequencyStepsize * 2).toNat = frequencyStepsize.toNat * 2 % 2 ^ 32 := UInt32.toNat_mul ..
  have hsucc : (frequencyStepsize * 2 + 1).toNat = ((frequencyStepsize * 2).toNat + 1) % 2 ^ 32 := UInt32.toNat_add ..
  have hnext : (frequencyStepsize * 2 + 1).toNat = (frequencyStepsize * 2).toNat + 1 := by omega
  refine and_congr_right fun hpos => ?_
  have hone : ((frequencyStepsize * 2).toNat + 1) / (frequencyStepsize * 2).toNat = 1 :=
    Nat.div_eq_of_lt_le (by omega) (by omega)
  rw [hnext,hone,Nat.one_mul]

theorem rangeFits_feSetFrontend (p : FrontendPrivate) :
    RangeFits (feSetFrontend fe options parg p) ↔ SettingsFit fe options parg := by
  have hrate := symbolRate_forcedParameters options parg
  obtain ⟨q,hstep,hdrift⟩ := @feSetFrontend_steps fe options parg p
  rw [RangeFits,hstep,hdrift,SettingsFit,tuneSettings]
  cases fe.getTuneSettings (forcedParameters options parg) with
  | some settings => exact Iff.rfl
  | none =>
    cases fe.type with
    | qpsk =>
      dsimp only
      rw [hrate]
      exact qpsk_fits parg.symbolRate
    | qam => exact iff_of_false (fun h => Nat.lt_irrefl 0 h.1) id
    | ofdm => exact ofdm_fits fe.frequencyStepsize
    | atsc => exact iff_of_false (fun h => Nat.lt_irrefl 0 h.1) id

/-- Tuning after a request makes every attempt once and tells the end of the iteration exactly if the settings fit. -/
theorem feSetFrontend_sweepsRange_iff (fe : DvbFrontend) (options : CoreOptions) (parg : FrontendParameters)
    (p : FrontendPrivate) :
    SweepsRange fe (retuned (feSetFrontend fe options parg p)) ↔ SettingsFit fe options parg :=
  (sweepsRange_iff fe _).trans (rangeFits_feSetFrontend p)

def cableFrontend : DvbFrontend :=
  { type := .qam
    frequencyStepsize := 62500
    canInversionAuto := true
    canRecover := false
    getTuneSettings := fun _ => none
    setFrontend := id }

def cableOptions : CoreOptions := { forceAutoInversion := false, overrideTuneDelay := 0, hz := 1000 }

def cableParameters : FrontendParameters :=
  { frequency := 346000000, inversion := .off, symbolRate := 6900000, hierarchyInformation := 0, codeRateLp := 0 }

def registered : FrontendPrivate :=
  { parameters := { frequency := 0, inversion := .off, symbolRate := 0, hierarchyInformation := 0, codeRateLp := 0 }
    status := 0
    tuneModeFlags := 0
    delay := 0
    state := festateIdle
    lnbDrift := 0
    inversion := ⟨.off, TriedInversion.off_ne_auto⟩
    autoStep := 0
    autoSubStep := 0
    startedAutoStep := 0
    minDelay := 0
    maxDrift := 0
    stepSize := 0
    quality := 0
    checkWrapped := false }

/-- Without a step, the same attempt is made again and again, and no iteration is complete. -/
theorem cableFrontend_not_sweepsRange :
    (sweep cableFrontend 3 (retuned (feSetFrontend cableFrontend cableOptions cableParameters registered))).map Prod.fst =
        some (List.replicate 3 { offset := 0, frequency := 346000000, inversion := .off }) ∧
      ¬ SweepsRange cableFrontend (retuned (feSetFrontend cableFrontend cableOptions cableParameters registered)) := by
  refine ⟨by decide +kernel, fun h => ?_⟩
  have hstep := h.step_pos
  exact absurd hstep (by decide)

end Requested

end LinuxDvb.Frontend
