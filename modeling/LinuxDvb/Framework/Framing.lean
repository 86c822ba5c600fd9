import LinuxDvb.Framework.Trace

/-!
# Framing of a symbol stream

A framer collects frames of a fixed size that start with a sync symbol. It works symbol by symbol, so
it does not depend on how a stream is cut into chunks; an implementation that works on chunks is
compared with it.
-/

namespace LinuxDvb

variable {α : Type}

/-- Take one symbol: a frame is opened by a sync symbol and closed by its last symbol. A frame that
was open to begin with may start with another symbol; it is dropped when it is complete. -/
def frameSymbol (size : Nat) (sync : α → Bool) (pending : List α) (a : α) : List α × List (List α) :=
  if pending = [] ∧ sync a = false then ([], [])
  else if pending.length + 1 < size then (pending ++ [a], [])
  else ([], if (pending ++ [a]).head?.any sync then [pending ++ [a]] else [])

variable {size : Nat} {sync : α → Bool}

theorem frameSymbol_skip {a : α} (h : sync a = false) : frameSymbol size sync [] a = ([], []) := by
  simp [frameSymbol,h]

private theorem frameSymbol_open {pending : List α} {a : α} (h : pending ≠ [] ∨ sync a = true) :
    frameSymbol size sync pending a =
      if pending.length + 1 < size then (pending ++ [a], [])
      else ([], if (pending ++ [a]).head?.any sync then [pending ++ [a]] else []) := by
  rw [frameSymbol,if_neg]
  rintro ⟨hnil,hsync⟩
  rcases h with h | h
  · exact h hnil
  · simp [hsync] at h

theorem frame_grow {pending xs : List α} (hopen : pending ≠ []) (hlen : pending.length + xs.length < size) :
    runTrace (frameSymbol size sync) pending xs = (pending ++ xs, []) := by
  induction xs generalizing pending with
  | nil => simp
  | cons x xs ih =>
    simp only [length_cons] at hlen
    rw [runTrace_cons,frameSymbol_open (.inl hopen),if_pos (by omega),
      ih (by simp) (by simp only [length_append, length_singleton]; omega)]
    simp

theorem frame_complete {pending xs : List α} (hopen : pending ≠ []) (hxs : xs ≠ [])
    (hlen : pending.length + xs.length = size) :
    runTrace (frameSymbol size sync) pending xs =
      ([], if (pending ++ xs).head?.any sync then [pending ++ xs] else []) := by
  induction xs generalizing pending with
  | nil => exact absurd rfl hxs
  | cons x xs ih =>
    simp only [length_cons] at hlen
    rw [runTrace_cons,frameSymbol_open (.inl hopen)]
    cases xs with
    | nil =>
      rw [if_neg (by simp only [length_nil] at hlen; omega)]
      simp
    | cons y ys =>
      simp only [length_cons] at hlen
      have hrest : (pending ++ [x]).length + (y :: ys).length = size := by
        simp only [length_append,length_cons,length_nil]
        omega
      rw [if_pos (by omega),ih (by simp) (by simp) hrest]
      simp

theorem frame_open_grow {a : α} {xs : List α} (hsync : sync a = true) (hlen : xs.length + 1 < size) :
    runTrace (frameSymbol size sync) [] (a :: xs) = (a :: xs, []) := by
  have hrest : [a].length + xs.length < size := by
    rw [length_singleton]
    omega
  rw [runTrace_cons,frameSymbol_open (.inr hsync),if_pos (by simp only [length_nil]; omega)]
  simp only [nil_append]
  rw [frame_grow (by simp) hrest]
  simp

theorem frame_open_complete {a : α} {xs : List α} (hsync : sync a = true) (hxs : xs ≠ [])
    (hlen : xs.length + 1 = size) :
    runTrace (frameSymbol size sync) [] (a :: xs) = ([], [a :: xs]) := by
  have hpos := length_pos_iff.mpr hxs
  have hrest : [a].length + xs.length = size := by
    rw [length_singleton]
    omega
  rw [runTrace_cons,frameSymbol_open (.inr hsync),if_pos (by simp only [length_nil]; omega)]
  simp only [nil_append]
  rw [frame_complete (by simp) hxs hrest]
  simp [hsync]

theorem length_of_mem_frames {pending xs : List α} (h : pending.length < size) :
    ∀ frame ∈ (runTrace (frameSymbol size sync) pending xs).2, frame.length = size := by
  induction xs generalizing pending with
  | nil => simp
  | cons x xs ih =>
    have hstep : (frameSymbol size sync pending x).1.length < size ∧
        ∀ frame ∈ (frameSymbol size sync pending x).2, frame.length = size := by
      unfold frameSymbol
      split
      · exact ⟨by simp only [length_nil]; omega,by simp⟩
      split
      · exact ⟨by simpa using by assumption,by simp⟩
      · refine ⟨by simp only [length_nil]; omega,?_⟩
        split
        · simp only [mem_singleton,forall_eq,length_append,length_singleton]
          omega
        · simp
    rw [runTrace_cons]
    intro frame hmem
    exact (mem_append.mp hmem).elim (hstep.2 frame) (ih hstep.1 frame)

/-- An implementation on chunks refines the framer if every chunk does, through the pending symbols
`abs` and the form `pack` in which it passes frames on. -/
theorem chunks_refine {σ β : Type} {step : σ → List α → σ × List β} {abs : σ → List α}
    {pack : List α → β} {ok : σ → Prop}
    (hstep : ∀ s xs, ok s → ok (step s xs).1 ∧ abs (step s xs).1 = (runTrace (frameSymbol size sync) (abs s) xs).1 ∧
      (step s xs).2 = (runTrace (frameSymbol size sync) (abs s) xs).2.map pack)
    {s : σ} (hs : ok s) (chunks : List (List α)) :
    ok (runTrace step s chunks).1 ∧
      abs (runTrace step s chunks).1 = (runTrace (frameSymbol size sync) (abs s) chunks.flatten).1 ∧
      (runTrace step s chunks).2 =
        (runTrace (frameSymbol size sync) (abs s) chunks.flatten).2.map pack := by
  induction chunks generalizing s with
  | nil => exact ⟨hs,rfl,rfl⟩
  | cons xs chunks ih =>
    obtain ⟨hok,habs,hout⟩ := hstep s xs hs
    obtain ⟨ih1,ih2,ih3⟩ := ih hok
    rw [runTrace_cons,flatten_cons,runTrace_append]
    refine ⟨ih1,?_,?_⟩
    · rw [ih2,habs]
    · rw [ih3,habs,hout,map_append]

end LinuxDvb
