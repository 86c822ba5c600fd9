import LinuxDvb.Framework.Trace

/-!
# Queues that drop their oldest entry

A bounded queue that makes room by dropping its oldest entry owes its reader a word about it. A monitor reads what the
queue and its calls do, and keeps the entries and whether there are drops of which no reader has been told.
-/

namespace LinuxDvb

variable {α : Type}

/-- What a queue and its calls do. A reader that finds no drops to be told of is `passed`, and one that finds some is told by
`overflow`. -/
inductive DropSignal (α : Type) where
  | dropped
  | added (a : α)
  | emptied
  | passed
  | overflow
  | returned (a : α)
  | wouldBlock
  | interrupted
deriving DecidableEq, Repr

structure DropQueue (α : Type) where
  entries : List α
  untold : Bool
deriving DecidableEq, Repr

namespace DropQueue

def empty : DropQueue α := { entries := [], untold := false }

def next (q : DropQueue α) : DropSignal α → DropQueue α
  | .dropped => { entries := q.entries.tail, untold := true }
  | .added a => { q with entries := q.entries ++ [a] }
  | .emptied => empty
  | .passed => q
  | .overflow => { q with untold := false }
  | .returned _ => { q with entries := q.entries.tail }
  | .wouldBlock => q
  | .interrupted => q

def Good (capacity : Nat) (q : DropQueue α) : DropSignal α → Prop
  | .dropped => q.entries.length = capacity
  | .added _ => q.entries.length < capacity
  | .emptied => True
  | .passed => q.untold = false
  | .overflow => q.untold = true
  | .returned a => q.entries.head? = some a
  | .wouldBlock => q.entries = []
  | .interrupted => True

end DropQueue

namespace DropSignal

def addedEntry : DropSignal α → Option α
  | .added a => some a
  | _ => none

def returnedEntry : DropSignal α → Option α
  | .returned a => some a
  | _ => none

@[simp] theorem returnedEntry_added (a : α) : returnedEntry (.added a) = none := rfl

@[simp] theorem addedEntry_returned (a : α) : addedEntry (.returned a) = none := rfl

/-- An entry was dropped, and since then no reader has been told and the queue has not been emptied. -/
def DropsUntold (sigs : List (DropSignal α)) : Prop :=
  ∃ before since, sigs = before ++ .dropped :: since ∧ .overflow ∉ since ∧ .emptied ∉ since

end DropSignal

open DropSignal

/-- A first-in first-out queue of this capacity that drops the oldest entry and nothing else, and says so once. -/
structure DropOldestFifo (capacity : Nat) (sigs : List (DropSignal α)) : Prop where
  accepted : Accepts DropQueue.next (DropQueue.Good capacity) DropQueue.empty sigs
  inOrder : (sigs.filterMap returnedEntry).Sublist (sigs.filterMap addedEntry)
  told : ∀ before after, sigs = before ++ .overflow :: after → DropsUntold before
  passed : ∀ before after, sigs = before ++ .passed :: after → ¬ DropsUntold before

section Monitor

variable {capacity : Nat} {sigs : List (DropSignal α)}

theorem returned_sublist {q : DropQueue α} (h : Accepts DropQueue.next (DropQueue.Good capacity) q sigs) :
    (sigs.filterMap returnedEntry).Sublist (q.entries ++ sigs.filterMap addedEntry) := by
  induction sigs generalizing q with
  | nil => simp
  | cons sig sigs ih =>
    obtain ⟨hgood,hrest⟩ := h
    have hsub := ih hrest
    cases sig with
    | dropped =>
      have htail := (List.tail_sublist q.entries).append_right (sigs.filterMap addedEntry)
      exact hsub.trans htail
    | added a => simpa [List.filterMap_cons,DropQueue.next,addedEntry] using hsub
    | emptied =>
      have hempty : (sigs.filterMap returnedEntry).Sublist (sigs.filterMap addedEntry) := hsub
      exact hempty.trans (List.sublist_append_right _ _)
    | passed => exact hsub
    | overflow => exact hsub
    | returned a =>
      obtain ⟨rest,hentries⟩ : ∃ rest, q.entries = a :: rest := List.head?_eq_some_iff.mp hgood
      have htail : (sigs.filterMap returnedEntry).Sublist (rest ++ sigs.filterMap addedEntry) := by
        simpa [DropQueue.next,hentries] using hsub
      simpa [List.filterMap_cons,returnedEntry,hentries] using htail
    | wouldBlock => exact hsub
    | interrupted => exact hsub

theorem dropsUntold_nil : ¬ DropsUntold ([] : List (DropSignal α)) := by
  rintro ⟨before,since,h,-⟩
  simp at h

theorem dropsUntold_append_singleton (sig : DropSignal α) :
    DropsUntold (sigs ++ [sig]) ↔ sig = .dropped ∨ DropsUntold sigs ∧ sig ≠ .overflow ∧ sig ≠ .emptied := by
  constructor
  · rintro ⟨before,since,h,hoverflow,hemptied⟩
    cases since using List.reverseRecOn with
    | nil =>
      left
      simpa using (List.append_inj_right' h rfl)
    | append_singleton since last =>
      right
      have hsplit : sigs ++ [sig] = (before ++ .dropped :: since) ++ [last] := by simpa using h
      obtain ⟨rfl,hlast⟩ := List.append_inj' hsplit rfl
      obtain rfl : sig = last := by simpa using hlast
      simp only [mem_append,mem_singleton,not_or] at hoverflow hemptied
      exact ⟨⟨before,since,rfl,hoverflow.1,hemptied.1⟩,Ne.symm hoverflow.2,Ne.symm hemptied.2⟩
  · rintro (rfl | ⟨⟨before,since,rfl,hoverflow,hemptied⟩,hne,hne'⟩)
    · exact ⟨sigs,[],rfl,by simp,by simp⟩
    · refine ⟨before,since ++ [sig],by simp,?_,?_⟩
      · simp [hoverflow,Ne.symm hne]
      · simp [hemptied,Ne.symm hne']

theorem untold_iff (sigs : List (DropSignal α)) :
    (sigs.foldl DropQueue.next DropQueue.empty).untold = true ↔ DropsUntold sigs := by
  induction sigs using List.reverseRecOn with
  | nil => simp [dropsUntold_nil,DropQueue.empty]
  | append_singleton sigs sig ih =>
    rw [dropsUntold_append_singleton,foldl_append,← ih]
    cases sig <;> simp [DropQueue.next,DropQueue.empty]

theorem DropOldestFifo.of_accepts
    (h : Accepts DropQueue.next (DropQueue.Good capacity) DropQueue.empty sigs) : DropOldestFifo capacity sigs := by
  refine ⟨h,returned_sublist h,?_,?_⟩
  · rintro before after rfl
    exact (untold_iff before).mp h.good_of_append
  · rintro before after rfl hdrops
    have hpassed : (before.foldl DropQueue.next DropQueue.empty).untold = false := h.good_of_append
    rw [(untold_iff before).mpr hdrops] at hpassed
    cases hpassed

end Monitor

end LinuxDvb
