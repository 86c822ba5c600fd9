import LinuxDvb.Framework.Lists

/-!
# Computations with a log

A value together with the list of what was done on the way to it. Values can be followed without their logs, and a
property of all that is logged is shown step by step.
-/

namespace LinuxDvb

structure Logged (ε α : Type) where
  value : α
  log : List ε

namespace Logged

variable {ε α β : Type} {p : ε → Prop}

instance : Monad (Logged ε) where
  pure a := ⟨a, []⟩
  bind m rest := ⟨(rest m.value).value, m.log ++ (rest m.value).log⟩

@[simp] theorem value_pure (a : α) : (pure a : Logged ε α).value = a := rfl

@[simp] theorem value_bind (m : Logged ε α) (rest : α → Logged ε β) : (m >>= rest).value = (rest m.value).value := rfl

@[simp] theorem log_pure (a : α) : (pure a : Logged ε α).log = [] := rfl

@[simp] theorem log_bind (m : Logged ε α) (rest : α → Logged ε β) :
    (m >>= rest).log = m.log ++ (rest m.value).log := rfl

def one (e : ε) (a : α) : Logged ε α := ⟨a, [e]⟩

-- one entry at a time, with the value put in place
theorem value_one_bind (e : ε) (a : α) (rest : α → Logged ε β) : (one e a >>= rest).value = (rest a).value := rfl

theorem log_one_bind (e : ε) (a : α) (rest : α → Logged ε β) : (one e a >>= rest).log = e :: (rest a).log := rfl

/-- Only entries with `p` are logged. -/
def All (p : ε → Prop) (m : Logged ε α) : Prop := ∀ e ∈ m.log, p e

theorem All.imp {q : ε → Prop} {m : Logged ε α} (h : All p m) (hpq : ∀ e, p e → q e) : All q m :=
  fun e he => hpq e (h e he)

@[simp] theorem all_pure (a : α) : All p (pure a : Logged ε α) := by
  intro e he
  cases he

@[simp] theorem all_one (e : ε) (a : α) : All p (one e a) ↔ p e :=
  ⟨fun h => h e (mem_singleton_self e), fun h e' he' => by rwa [mem_singleton.mp he']⟩

@[simp] theorem all_bind (m : Logged ε α) (rest : α → Logged ε β) :
    All p (m >>= rest) ↔ All p m ∧ All p (rest m.value) := forall_mem_append

theorem all_one_bind (e : ε) (a : α) (rest : α → Logged ε β) :
    All p (one e a >>= rest) ↔ p e ∧ All p (rest a) := forall_mem_cons

end Logged

end LinuxDvb
