import LinuxDvb.Framework.Lists

/-!
# Machine words with their faults

Unsigned arithmetic that keeps within a word, and tables that are read inside their bounds. A computation is written
with natural numbers; each intermediate that the machine holds in a word passes `word`, each lookup is an `entry`.
-/

namespace LinuxDvb

inductive WordFault where
  | overflow
  | outOfBounds
deriving DecidableEq, Repr

/-- A value that a word of `w` bits holds. -/
def word (w n : Nat) : Except WordFault Nat := if n < 2 ^ w then .ok n else .error .overflow

def entry (table : List Nat) (i : Nat) : Except WordFault Nat :=
  match table[i]? with
  | some value => .ok value
  | none => .error .outOfBounds

variable {α : Type} {w n i value : Nat} {table : List Nat}

theorem word_ok (h : n < 2 ^ w) : word w n = .ok n := if_pos h

theorem word_bind (h : n < 2 ^ w) (rest : Nat → Except WordFault α) : (word w n >>= rest) = rest n := by
  rw [word_ok h]
  rfl

theorem entry_bind (h : table[i]? = some value) (rest : Nat → Except WordFault α) :
    (entry table i >>= rest) = rest value := by
  rw [entry,h]
  rfl

end LinuxDvb
