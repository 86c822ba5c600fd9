import LinuxDvb.Framework.Lists

/-!
# Input–output machines

A driver is a machine that takes one input at a time and emits a finite list of outputs. `runTrace` composes a whole
run, `StepsMeet` says that every step of a run meets a condition on the state before it, and the rules below lift
one-step facts to runs.
-/

namespace LinuxDvb

variable {σ τ ι ο : Type}

-- numerals of the index types of small systems
instance neZeroOne : NeZero 1 := ⟨Nat.one_ne_zero⟩

instance neZeroTwo : NeZero 2 := ⟨Nat.succ_ne_zero 1⟩

def runTrace (step : σ → ι → σ × List ο) : σ → List ι → σ × List ο
  | s, [] => (s, [])
  | s, i :: is =>
    let rest := runTrace step (step s i).1 is
    (rest.1, (step s i).2 ++ rest.2)

/-- Every step of the run meets `ok` in the state in which it is taken. -/
def StepsMeet (step : σ → ι → σ × List ο) (ok : σ → ι → Prop) : σ → List ι → Prop
  | _, [] => True
  | s, i :: is => ok s i ∧ StepsMeet step ok (step s i).1 is

instance StepsMeet.decidable {step : σ → ι → σ × List ο} {ok : σ → ι → Prop} [∀ s i, Decidable (ok s i)] :
    ∀ s is, Decidable (StepsMeet step ok s is)
  | _, [] => isTrue trivial
  | s, i :: is => @instDecidableAnd (ok s i) (StepsMeet step ok (step s i).1 is) _ (decidable _ is)

@[simp] theorem runTrace_nil (step : σ → ι → σ × List ο) (s : σ) : runTrace step s [] = (s, []) := rfl

theorem runTrace_cons (step : σ → ι → σ × List ο) (s : σ) (i : ι) (is : List ι) : runTrace step s (i :: is) =
      ((runTrace step (step s i).1 is).1, (step s i).2 ++ (runTrace step (step s i).1 is).2) := rfl

theorem runTrace_append (step : σ → ι → σ × List ο) (s : σ) (is js : List ι) : runTrace step s (is ++ js) =
      ((runTrace step (runTrace step s is).1 js).1,
        (runTrace step s is).2 ++ (runTrace step (runTrace step s is).1 js).2) := by
  induction is generalizing s with
  | nil => rfl
  | cons i is ih => simp only [cons_append,runTrace_cons,ih,append_assoc]

@[simp] theorem stepsMeet_nil (step : σ → ι → σ × List ο) (ok : σ → ι → Prop) (s : σ) :
    StepsMeet step ok s [] := trivial

variable {step : σ → ι → σ × List ο} {ok : σ → ι → Prop} {s : σ} {is : List ι}

theorem runTrace_invariant (Inv : σ → Prop) (hstep : ∀ s i, Inv s → ok s i → Inv (step s i).1) (hs : Inv s)
    (hok : StepsMeet step ok s is) : Inv (runTrace step s is).1 := by
  induction is generalizing s with
  | nil => exact hs
  | cons i is ih => exact ih (hstep s i hs hok.1) hok.2

theorem stepsMeet_of_invariant {good : σ → ι → Prop} (Inv : σ → Prop)
    (hstep : ∀ s i, Inv s → ok s i → Inv (step s i).1 ∧ good s i) (hs : Inv s)
    (hok : StepsMeet step ok s is) : StepsMeet step good s is := by
  induction is generalizing s with
  | nil => trivial
  | cons i is ih =>
    obtain ⟨hinv,hgood⟩ := hstep s i hs hok.1
    exact ⟨hgood,ih hinv hok.2⟩

/-- Exactness rule for single steps: `good` and `ok` hold along the same runs if they hold of the same steps
from states with the invariant, and steps that meet `ok` keep it. -/
theorem stepsMeet_iff_of_invariant {good : σ → ι → Prop} (Inv : σ → Prop)
    (hiff : ∀ s i, Inv s → (good s i ↔ ok s i)) (hkeep : ∀ s i, Inv s → ok s i → Inv (step s i).1)
    (hs : Inv s) (is : List ι) : StepsMeet step good s is ↔ StepsMeet step ok s is := by
  induction is generalizing s with
  | nil => exact Iff.rfl
  | cons i is ih =>
    constructor
    · rintro ⟨hgood,hrest⟩
      have hok : ok s i := (hiff s i hs).mp hgood
      exact ⟨hok,(ih (hkeep s i hs hok)).mp hrest⟩
    · rintro ⟨hok,hrest⟩
      exact ⟨(hiff s i hs).mpr hok,(ih (hkeep s i hs hok)).mpr hrest⟩

theorem StepsMeet.of_forall (h : ∀ s i, ok s i) (s : σ) (is : List ι) : StepsMeet step ok s is := by
  induction is generalizing s with
  | nil => trivial
  | cons i is ih => exact ⟨h s i,ih _⟩

/-- Exactness rule: `good` holds in every state of a run exactly when all its steps meet `ok`, if steps that
meet `ok` keep an invariant that implies `good`, and other steps lead to a state that is not good. What
is known of all steps of the run may be used. -/
theorem forall_prefix_iff_stepsMeet_of {known : σ → ι → Prop}
    {good : σ → Prop} (Inv : σ → Prop) (hgood : ∀ s, Inv s → good s)
    (hkeep : ∀ s i, Inv s → known s i → ok s i → Inv (step s i).1)
    (honly : ∀ s i, Inv s → known s i → good (step s i).1 → ok s i) (hs : Inv s)
    (hknown : StepsMeet step known s is) :
    (∀ pre, pre <+: is → good (runTrace step s pre).1) ↔ StepsMeet step ok s is := by
  induction is generalizing s with
  | nil =>
    refine ⟨fun _ => trivial,?_⟩
    intro _ pre hpre
    rw [List.prefix_nil.mp hpre]
    exact hgood s hs
  | cons i is ih =>
    constructor
    · intro h
      have hok : ok s i := honly s i hs hknown.1 (h [i] ⟨is,rfl⟩)
      refine ⟨hok,(ih (hkeep s i hs hknown.1 hok) hknown.2).mp ?_⟩
      intro pre hpre
      exact h (i :: pre) (List.cons_prefix_cons.mpr ⟨rfl,hpre⟩)
    · intro h pre hpre
      cases pre with
      | nil => exact hgood s hs
      | cons j pre =>
        obtain ⟨rfl,htail⟩ := List.cons_prefix_cons.mp hpre
        exact (ih (hkeep s j hs hknown.1 h.1) hknown.2).mpr h.2 pre htail

/-- Exactness rule: if a step keeps the invariant exactly when it meets `ok`, then the invariant holds in
every state of a run exactly when all its steps meet `ok`. -/
theorem forall_prefix_iff_stepsMeet (Inv : σ → Prop)
    (hstep : ∀ s i, Inv s → (Inv (step s i).1 ↔ ok s i)) (hs : Inv s) (is : List ι) :
    (∀ pre, pre <+: is → Inv (runTrace step s pre).1) ↔ StepsMeet step ok s is := by
  have htrue : StepsMeet step (fun _ _ => True) s is := StepsMeet.of_forall (fun _ _ => trivial) s is
  refine forall_prefix_iff_stepsMeet_of Inv (fun _ h => h) ?_ ?_ hs htrue
  · exact fun s i hinv _ hok => (hstep s i hinv).mpr hok
  · exact fun s i hinv _ hgood => (hstep s i hinv).mp hgood

/-- Exactness rule for outputs: all outputs of a run are good exactly when its steps meet `ok`, if under an invariant
of all steps the outputs of a step are good exactly when it does. -/
theorem forall_output_iff_stepsMeet {good : ο → Prop} (Inv : σ → Prop) (hinv : ∀ s i, Inv s → Inv (step s i).1)
    (hstep : ∀ s i, Inv s → ((∀ o ∈ (step s i).2, good o) ↔ ok s i)) (hs : Inv s) (is : List ι) :
    (∀ o ∈ (runTrace step s is).2, good o) ↔ StepsMeet step ok s is := by
  induction is generalizing s with
  | nil => exact iff_of_true (fun o ho => absurd ho not_mem_nil) trivial
  | cons i is ih =>
    rw [runTrace_cons,forall_mem_append]
    exact and_congr (hstep s i hs) (ih (hinv s i hs))

/-- Refinement rule: if every admitted step is a step of an abstract machine through `abs`, then so is
every run, with the same outputs. -/
theorem runTrace_refines {astep : τ → ι → τ × List ο} {aok : τ → ι → Prop} (abs : σ → τ) (Inv : σ → Prop)
    (hstep : ∀ s i, Inv s → ok s i → Inv (step s i).1 ∧ aok (abs s) i ∧
      (abs (step s i).1, (step s i).2) = astep (abs s) i) (hs : Inv s) (hok : StepsMeet step ok s is) :
    Inv (runTrace step s is).1 ∧ StepsMeet astep aok (abs s) is ∧
      (abs (runTrace step s is).1, (runTrace step s is).2) = runTrace astep (abs s) is := by
  induction is generalizing s with
  | nil => exact ⟨hs,trivial,rfl⟩
  | cons i is ih =>
    obtain ⟨hinv,haok,heq⟩ := hstep s i hs hok.1
    obtain ⟨ih1,ih2,ih3⟩ := ih hinv hok.2
    have habs : abs (step s i).1 = (astep (abs s) i).1 := congrArg Prod.fst heq
    have hout : (step s i).2 = (astep (abs s) i).2 := congrArg Prod.snd heq
    rw [habs] at ih2 ih3
    refine ⟨ih1,⟨haok,ih2⟩,?_⟩
    rw [runTrace_cons,runTrace_cons,← ih3,hout]

section Monitor

variable {μ : Type}

def Accepts (next : μ → ο → μ) (good : μ → ο → Prop) : μ → List ο → Prop
  | _, [] => True
  | m, o :: os => good m o ∧ Accepts next good (next m o) os

variable {next : μ → ο → μ} {good : μ → ο → Prop}

@[simp] theorem accepts_nil (m : μ) : Accepts next good m [] := trivial

@[simp] theorem accepts_cons (m : μ) (o : ο) (os : List ο) :
    Accepts next good m (o :: os) ↔ good m o ∧ Accepts next good (next m o) os := Iff.rfl

theorem accepts_append (m : μ) (os ps : List ο) : Accepts next good m (os ++ ps) ↔
      Accepts next good m os ∧ Accepts next good (os.foldl next m) ps := by
  induction os generalizing m with
  | nil => simp
  | cons o os ih => simp only [cons_append,accepts_cons,foldl_cons,ih,and_assoc]

variable {m : μ}

theorem Accepts.good_of_append {os ps : List ο} {o : ο}
    (h : Accepts next good m (os ++ o :: ps)) : good (os.foldl next m) o :=
  ((accepts_append m os (o :: ps)).mp h).2.1

theorem Accepts.of_forall {os : List ο} (h : ∀ o ∈ os, ∀ m, good m o) (m : μ) : Accepts next good m os := by
  induction os generalizing m with
  | nil => trivial
  | cons o os ih =>
    exact ⟨h o mem_cons_self m,ih (fun o ho => h o (mem_cons_of_mem _ ho)) _⟩

variable {step : σ → ι → σ × List ο} {s : σ}

/-- Monitor rule: what links the machine and the monitor in every step does so along a run, and the
monitor accepts all outputs. -/
theorem runTrace_accepted {ok : σ → ι → Prop} (Inv : σ → μ → Prop) (hstep : ∀ s m i, Inv s m → ok s i →
      Accepts next good m (step s i).2 ∧ Inv (step s i).1 ((step s i).2.foldl next m)) {is : List ι} (hs : Inv s m) (hok : StepsMeet step ok s is) :
    Accepts next good m (runTrace step s is).2 ∧
      Inv (runTrace step s is).1 ((runTrace step s is).2.foldl next m) := by
  induction is generalizing s m with
  | nil => exact ⟨trivial,hs⟩
  | cons i is ih =>
    obtain ⟨hacc,hinv⟩ := hstep s m i hs hok.1
    obtain ⟨hacc',hinv'⟩ := ih hinv hok.2
    rw [runTrace_cons]
    refine ⟨(accepts_append _ _ _).mpr ⟨hacc,hacc'⟩,?_⟩
    rw [foldl_append]
    exact hinv'

/-- Exactness rule for monitors: the outputs of a run are accepted exactly when its steps meet `ok`, if steps
that meet `ok` are accepted and keep the link, and no others are accepted. -/
theorem runTrace_accepts_iff {ok : σ → ι → Prop} (Inv : σ → μ → Prop) (hstep : ∀ s m i, Inv s m → ok s i →
      Accepts next good m (step s i).2 ∧ Inv (step s i).1 ((step s i).2.foldl next m))
    (honly : ∀ s m i, Inv s m → Accepts next good m (step s i).2 → ok s i) (hs : Inv s m) (is : List ι) :
    Accepts next good m (runTrace step s is).2 ↔ StepsMeet step ok s is := by
  induction is generalizing s m with
  | nil => exact iff_of_true trivial trivial
  | cons i is ih =>
    rw [runTrace_cons,accepts_append]
    constructor
    · rintro ⟨hacc,hrest⟩
      have hok : ok s i := honly s m i hs hacc
      exact ⟨hok,(ih (hstep s m i hs hok).2).mp hrest⟩
    · rintro ⟨hok,hrest⟩
      obtain ⟨hacc,hinv⟩ := hstep s m i hs hok
      exact ⟨hacc,(ih hinv).mpr hrest⟩

/-- Exactness rule for two monitors, one of the outputs and one of the inputs: the outputs are accepted exactly when
the inputs are, if this is so in every step from linked states, and accepted steps keep the link. -/
theorem runTrace_accepts_iff_inputs {ν : Type} {inNext : ν → ι → ν} {inGood : ν → ι → Prop} (Link : σ → μ → ν → Prop)
    (hiff : ∀ s m n i, Link s m n → (Accepts next good m (step s i).2 ↔ inGood n i))
    (hkeep : ∀ s m n i, Link s m n → inGood n i →
      Link (step s i).1 ((step s i).2.foldl next m) (inNext n i)) {n : ν} (hs : Link s m n) (is : List ι) :
    Accepts next good m (runTrace step s is).2 ↔ Accepts inNext inGood n is := by
  induction is generalizing s m n with
  | nil => exact iff_of_true trivial trivial
  | cons i is ih =>
    rw [runTrace_cons,accepts_append,accepts_cons,hiff s m n i hs]
    constructor
    · rintro ⟨hgood,hrest⟩
      exact ⟨hgood,(ih (hkeep s m n i hs hgood)).mp hrest⟩
    · rintro ⟨hgood,hrest⟩
      exact ⟨hgood,(ih (hkeep s m n i hs hgood)).mpr hrest⟩

end Monitor

end LinuxDvb
