import LinuxDvb.Framework.Lists

/-!
# Programs that access an array

A program that works on the entries of an array which others change at the same time. A `load` goes on with whatever
stands in the entry then; a `modify` changes the entry.
-/

namespace LinuxDvb

inductive Accessing (ι σ α : Type) where
  | done (result : α)
  | load (i : ι) (next : σ → Accessing ι σ α)
  | modify (i : ι) (change : σ → σ) (next : Accessing ι σ α)

namespace Accessing

variable {ι σ α β : Type}

protected def bind : Accessing ι σ α → (α → Accessing ι σ β) → Accessing ι σ β
  | done result, rest => rest result
  | load i next, rest => load i fun s => (next s).bind rest
  | modify i change next, rest => modify i change (next.bind rest)

instance : Monad (Accessing ι σ) where
  pure := done
  bind := Accessing.bind

/-- The entry at `i`. -/
def get (i : ι) : Accessing ι σ σ := load i done

def change (i : ι) (f : σ → σ) : Accessing ι σ Unit := modify i f (done ())

/-- The accesses of a run in which `answer` says what the loads find, counted from `k` on, and its result. -/
def run (answer : Nat → σ) : Nat → Accessing ι σ α → List ι × α
  | _, done result => ([], result)
  | k, load i next =>
    let rest := run answer (k + 1) (next (answer k))
    (i :: rest.1, rest.2)
  | k, modify i _ next =>
    let rest := run answer k next
    (i :: rest.1, rest.2)

/-- All accesses are at indices with `p`, and the result has `q`, whatever the loads find. -/
def Meets (p : ι → Prop) (q : α → Prop) : Accessing ι σ α → Prop
  | done result => q result
  | load i next => p i ∧ ∀ s, Meets p q (next s)
  | modify i _ next => p i ∧ Meets p q next

variable {p : ι → Prop} {q : α → Prop} {r : β → Prop}

theorem meets_pure {a : α} (h : q a) : Meets p q (pure a : Accessing ι σ α) := h

theorem Meets.bind {m : Accessing ι σ α} {rest : α → Accessing ι σ β} (h : Meets p q m)
    (hrest : ∀ a, q a → Meets p r (rest a)) : Meets p r (m >>= rest) := by
  induction m with
  | done result => exact hrest result h
  | load i next ih => exact ⟨h.1,fun s => ih s (h.2 s)⟩
  | modify i change next ih => exact ⟨h.1,ih h.2⟩

theorem meets_get_bind {i : ι} {rest : σ → Accessing ι σ β} (hi : p i) (hrest : ∀ s, Meets p r (rest s)) :
    Meets p r (get i >>= rest) :=
  ⟨hi, hrest⟩

theorem meets_change_bind {i : ι} {f : σ → σ} {rest : Unit → Accessing ι σ β} (hi : p i) (hrest : Meets p r (rest ())) :
    Meets p r (change i f >>= rest) :=
  ⟨hi, hrest⟩

theorem meets_trivial (m : Accessing ι σ α) : Meets (fun _ => True) (fun _ => True) m := by
  induction m with
  | done result => trivial
  | load i next ih => exact ⟨trivial,ih⟩
  | modify i change next ih => exact ⟨trivial,ih⟩

theorem Meets.run {m : Accessing ι σ α} (h : Meets p q m) (answer : Nat → σ) (k : Nat) :
    (∀ i ∈ (m.run answer k).1, p i) ∧ q (m.run answer k).2 := by
  induction m generalizing k with
  | done result => exact ⟨fun i hi => absurd hi not_mem_nil,h⟩
  | load i next ih =>
    obtain ⟨hrest,hresult⟩ := ih (answer k) (h.2 _) (k + 1)
    exact ⟨forall_mem_cons.mpr ⟨h.1,hrest⟩,hresult⟩
  | modify i change next ih =>
    obtain ⟨hrest,hresult⟩ := ih h.2 k
    exact ⟨forall_mem_cons.mpr ⟨h.1,hrest⟩,hresult⟩

end Accessing

end LinuxDvb
