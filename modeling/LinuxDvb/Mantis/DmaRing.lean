import LinuxDvb.Mantis.Dma

/-!
# The first pass over the DMA ring

The first instruction of the program already raises an interrupt, with the last block for its status: in front of the
first line it means the end of the pass before.
-/

namespace LinuxDvb.Mantis

abbrev blockSize : Nat := 4096

abbrev lineSize : Nat := 2048

/-! ## The instructions of a pass -/

theorem riscLines_getElem? (l : Lines) (bufDma : UInt32) {n k : Nat} (hk : k < n) (bufPos : UInt32) :
    (riscLines l bufDma n bufPos)[k]? =
      some ⟨lineOpcode l (bufPos + UInt32.ofNat k * l.lineBytes),
        bufDma + (bufPos + UInt32.ofNat k * l.lineBytes)⟩ := by
  induction n generalizing k bufPos with
  | zero => exact absurd hk (Nat.not_lt_zero k)
  | succ n ih =>
    cases k with
    | zero => simp [riscLines]
    | succ k =>
      have hpos : bufPos + l.lineBytes + UInt32.ofNat k * l.lineBytes =
          bufPos + UInt32.ofNat (k + 1) * l.lineBytes := by
        rw [UInt32.ofNat_add,UInt32.add_mul,UInt32.add_assoc,UInt32.add_comm l.lineBytes]
        simp
      rw [riscLines,getElem?_cons_succ,ih (Nat.lt_of_succ_lt_succ hk),hpos]

theorem length_riscLines (l : Lines) (bufDma : UInt32) (n : Nat) (bufPos : UInt32) :
    (riscLines l bufDma n bufPos).length = n := by
  induction n generalizing bufPos with
  | zero => rfl
  | succ n ih => rw [riscLines,length_cons,ih]

/-- The opcode of the `k`-th line. -/
def opcodeAt (k : Nat) : UInt32 := lineOpcode ringLines (UInt32.ofNat k * ringLines.lineBytes)

theorem program_getElem? (bufDma riscDma : UInt32) {k : Nat} (hk : k < 32) :
    (mantisRiscProgram ringLines bufDma riscDma)[k]? =
      some ⟨opcodeAt k, bufDma + UInt32.ofNat k * ringLines.lineBytes⟩ := by
  have hcount : ringLines.lineCount.toNat = 32 := rfl
  rw [mantisRiscProgram,hcount,getElem?_append_left (by rw [length_riscLines]; exact hk),
    riscLines_getElem? ringLines bufDma hk,UInt32.zero_add]
  rfl

theorem opcodeAt_write : ∀ k < 32, opcodeAt k >>> 28 ≠ riscJump >>> 28 ∧ (opcodeAt k &&& 0xfff).toNat = lineSize ∧
    (UInt32.ofNat k * ringLines.lineBytes).toNat = lineSize * k := by decide

theorem opcodeAt_irq : ∀ k < 16, k ≠ 0 → opcodeAt k &&& riscIrq = 0 := by decide

theorem opcodeAt_zero : opcodeAt 0 &&& riscIrq ≠ 0 ∧ (opcodeAt 0 >>> 16) &&& 0x0f = 15 := by decide

theorem opcodeAt_half : opcodeAt 16 &&& riscIrq ≠ 0 := by decide

theorem address_sub (bufDma x : UInt32) : bufDma + x - bufDma = x := by
  rw [UInt32.add_comm,UInt32.add_sub_cancel]

theorem fetch_line {s : MantisPci} (henabled : s.enabled = true)
    (hrisc : s.risc = mantisRiscProgram ringLines s.bufDma s.riscDma) (hpc : s.pc < 32) :
    fetch s =
      let next := { s with pc := s.pc + 1 }
      let line := RingEvent.fetched (some (lineSize * s.pc, lineSize))
      if opcodeAt s.pc &&& riscIrq = 0 then (next, [line])
      else if s.scheduled then (s, [])
      else (mantisPciIrq next ((opcodeAt s.pc >>> 16) &&& 0x0f), [line]) := by
  obtain ⟨hwrite,hbytes,hoffset⟩ := opcodeAt_write s.pc hpc
  have hget : s.risc[s.pc]? = some ⟨opcodeAt s.pc,s.bufDma + UInt32.ofNat s.pc * ringLines.lineBytes⟩ := by
    rw [hrisc,program_getElem? s.bufDma s.riscDma hpc]
  unfold fetch
  simp only [hget,address_sub,hbytes,hoffset]
  rw [if_neg (not_not.mpr henabled),if_neg hwrite]

theorem fetch_disabled {s : MantisPci} (h : ¬ s.enabled = true) : fetch s = (s, []) := by
  unfold fetch
  cases s.risc[s.pc]? with
  | none => rfl
  | some instr => exact if_pos h

/-! ## The first pass -/

/-- The blocks that are complete when `pc` lines have been fetched. -/
def blocksBefore (pc : Nat) : List Nat := (List.range ((pc - 1) / 2)).map (blockSize * ·)

/-- Since the start the engine is in the first half of its first pass, and `j` blocks have been handed over. -/
structure FirstPass (j : Nat) (s : MantisPci) (m : RingReader) : Prop where
  lines : s.lines = ringLines
  program : s.enabled = true → s.risc = mantisRiscProgram ringLines s.bufDma s.riscDma
  pc : s.pc ≤ 16
  last : s.lastBlock = UInt32.ofNat j
  finished : s.finishedBlock = if s.pc = 0 then 0 else 15
  scheduled : s.pc ≠ 0 → s.scheduled = true
  completed : m.completed = blocksBefore s.pc
  handed : m.handed = j
  writing : m.writing = if s.enabled = true ∧ s.pc ≠ 0 then some (lineSize * (s.pc - 1), lineSize) else none

theorem blocksBefore_zero : blocksBefore 0 = [] := by decide

theorem blocksBefore_one : blocksBefore 1 = [] := by decide

theorem blocksBefore_end {pc block : Nat} (h : block ∈ blocksBefore (pc + 1)) : block + blockSize ≤ lineSize * pc := by
  obtain ⟨i,hi,rfl⟩ := mem_map.mp h
  have hlt : i < (pc + 1 - 1) / 2 := mem_range.mp hi
  simp only [blockSize,lineSize]
  omega

theorem completeLine_blocksBefore {pc : Nat} (hpc : pc ≠ 0) (j : Nat) :
    (RingReader.mk (blocksBefore pc) j (some (lineSize * (pc - 1), lineSize))).completeLine blockSize =
      ⟨blocksBefore (pc + 1), j, none⟩ := by
  have hend : lineSize * (pc - 1) + lineSize = lineSize * pc := by
    simp only [lineSize]
    omega
  simp only [RingReader.completeLine,hend]
  split
  · rename_i heven
    have hhalf : (pc + 1 - 1) / 2 = (pc - 1) / 2 + 1 := by
      simp only [lineSize,blockSize] at heven
      omega
    have hblock : lineSize * pc - blockSize = blockSize * ((pc - 1) / 2) := by
      simp only [lineSize,blockSize] at heven ⊢
      omega
    simp only [blocksBefore,hhalf,List.range_succ,map_append,map_cons,map_nil,hblock]
  · rename_i hodd
    have hhalf : (pc + 1 - 1) / 2 = (pc - 1) / 2 := by
      simp only [lineSize,blockSize] at hodd
      omega
    simp only [blocksBefore,hhalf]

section FirstPass

variable {j : Nat} {s : MantisPci} {m : RingReader}

theorem FirstPass.fetch (h : FirstPass j s m) :
    Accepts (RingReader.next blockSize) (RingReader.Good blockSize) m (fetch s).2 ∧
      FirstPass j (Mantis.fetch s).1 ((Mantis.fetch s).2.foldl (RingReader.next blockSize) m) ∧
      s.pc ≤ (Mantis.fetch s).1.pc := by
  by_cases henabled : s.enabled = true
  · have hpc : s.pc ≤ 16 := h.pc
    rw [fetch_line henabled (h.program henabled) (by omega)]
    by_cases hzero : s.pc = 0
    · -- the first line
      have hidle : m = ⟨[],j,none⟩ := by
        obtain ⟨completed,handed,writing⟩ := m
        have hcompleted := h.completed
        have hwriting := h.writing
        rw [hzero] at hcompleted
        rw [if_neg fun hw => hw.2 hzero] at hwriting
        simp only [RingReader.mk.injEq]
        exact ⟨hcompleted,h.handed,hwriting⟩
      simp only [hzero,if_neg opcodeAt_zero.1,opcodeAt_zero.2]
      split
      · exact ⟨trivial,h,by omega⟩
      · subst hidle
        refine ⟨⟨?_,trivial⟩,⟨h.lines,h.program,?_,h.last,rfl,fun _ => rfl,blocksBefore_one.symm,rfl,?_⟩,
          Nat.zero_le _⟩
        · intro block hblock
          simp [RingReader.completeLine] at hblock
        · exact Nat.le_add_left _ _
        · simp [RingReader.next,mantisPciIrq,henabled]
    · have hscheduled : s.scheduled = true := h.scheduled hzero
      by_cases hhalf : s.pc = 16
      · -- the line in the middle
        simp only [hhalf,if_neg opcodeAt_half,if_pos hscheduled]
        exact ⟨trivial,h,by omega⟩
      · have hmid : s.pc < 16 := by omega
        have hwriting : m = ⟨blocksBefore s.pc,j,some (lineSize * (s.pc - 1), lineSize)⟩ := by
          obtain ⟨completed,handed,writing⟩ := m
          have hw := h.writing
          rw [if_pos ⟨henabled,hzero⟩] at hw
          simp only [RingReader.mk.injEq]
          exact ⟨h.completed,h.handed,hw⟩
        have hline : m.completeLine blockSize = ⟨blocksBefore (s.pc + 1),j,none⟩ := by
          rw [hwriting,completeLine_blocksBefore hzero]
        simp only [if_pos (opcodeAt_irq s.pc hmid hzero)]
        refine ⟨⟨?_,trivial⟩,⟨h.lines,h.program,hmid,h.last,?_,fun _ => hscheduled,?_,?_,?_⟩,Nat.le_succ _⟩
        · intro block hblock
          rw [hline] at hblock
          exact .inl (blocksBefore_end (List.mem_of_mem_drop hblock))
        · rw [if_neg (Nat.succ_ne_zero _)]
          exact h.finished.trans (if_neg hzero)
        · simp [RingReader.next,hline]
        · simp [RingReader.next,hline]
        · simp [RingReader.next,henabled]
  · rw [fetch_disabled henabled]
    exact ⟨trivial,h,Nat.le_refl _⟩

theorem FirstPass.fetches_waiting (h : FirstPass j s m) (hpc : s.pc = 0) (hscheduled : s.scheduled = true)
    (n : Nat) : Mantis.fetches n s = (s, []) := by
  have hfetch : Mantis.fetch s = (s, []) := by
    by_cases henabled : s.enabled = true
    · rw [fetch_line henabled (h.program henabled) (by omega)]
      simp only [hpc,if_neg opcodeAt_zero.1,if_pos hscheduled]
    · exact fetch_disabled henabled
  induction n with
  | zero => rfl
  | succ n ih =>
    simp only [Mantis.fetches,hfetch,ih]
    rfl

theorem FirstPass.fetches (h : FirstPass j s m) (n : Nat) :
    Accepts (RingReader.next blockSize) (RingReader.Good blockSize) m (fetches n s).2 ∧
      FirstPass j (Mantis.fetches n s).1 ((Mantis.fetches n s).2.foldl (RingReader.next blockSize) m) ∧
      s.pc ≤ (Mantis.fetches n s).1.pc := by
  induction n generalizing s m with
  | zero => exact ⟨trivial,h,Nat.le_refl _⟩
  | succ n ih =>
    obtain ⟨hacc,hpass,hpc⟩ := h.fetch
    obtain ⟨hacc',hpass',hpc'⟩ := ih hpass
    simp only [Mantis.fetches,foldl_append]
    exact ⟨(accepts_append _ _ _).mpr ⟨hacc,hacc'⟩,hpass',Nat.le_trans hpc hpc'⟩

theorem FirstPass.not_accepts_xferLoop (h : FirstPass j s m) (hpc : s.pc ≠ 0) {n : Nat} (hj : j < 8)
    (hn : 8 - j ≤ n) (between : List Nat) :
    ¬ Accepts (RingReader.next blockSize) (RingReader.Good blockSize) m (xferLoop n s between).2 := by
  induction n generalizing j s m between with
  | zero => omega
  | succ n ih =>
    obtain ⟨-,hpass,hle⟩ := h.fetches (between.headD 0)
    unfold xferLoop
    dsimp only
    generalize Mantis.fetches (between.headD 0) s = r at hpass hle ⊢
    have hpc' : r.1.pc ≠ 0 := by omega
    have hfinished : r.1.finishedBlock = 15 := hpass.finished.trans (if_neg hpc')
    have hsmall : ∀ j < 8, UInt32.ofNat j ≠ 15 ∧ (UInt32.ofNat j + 1) % ringLines.blockCount = UInt32.ofNat (j + 1) ∧
        (UInt32.ofNat j * ringLines.blockBytes).toNat = blockSize * j := by decide
    obtain ⟨hlast,hnext,hoffset⟩ := hsmall j hj
    rw [if_neg (by rw [hpass.last, hfinished]; exact hlast),hpass.lines,hpass.last,hnext,hoffset]
    intro hacc
    obtain ⟨-,hgood,hrest⟩ := (accepts_append _ _ _).mp hacc
    -- the block has been completed
    have hget : (blocksBefore r.1.pc)[j]? = some (blockSize * j) := by
      have hinorder := hgood.2.1
      rw [hpass.completed,hpass.handed] at hinorder
      exact hinorder
    have hlt : j < (r.1.pc - 1) / 2 := by
      have hlen := (List.getElem?_eq_some_iff.mp hget).1
      simpa [blocksBefore] using hlen
    have hbound : r.1.pc ≤ 16 := hpass.pc
    have hpass' : FirstPass (j + 1) { r.1 with lines := ringLines, lastBlock := UInt32.ofNat (j + 1) }
        ((r.2.foldl (RingReader.next blockSize) m).next blockSize
          (.handed (blockSize * j) ringLines.blockBytes.toNat)) := by
      refine ⟨rfl,hpass.program,hpass.pc,rfl,hpass.finished,hpass.scheduled,hpass.completed,?_,hpass.writing⟩
      change RingReader.handed _ + 1 = j + 1
      rw [hpass.handed]
    exact ih hpass' hpc' (by omega) (by omega) between.tail hrest

end FirstPass

/-! ## Runs -/

def NothingHanded (s : MantisPci) (i : DmaInput) : Prop :=
  match i with
  | .xfer _ => s.scheduled = true → s.lastBlock = s.finishedBlock
  | _ => True

theorem firstPass_init (bufDma riscDma : UInt32) : FirstPass 0 (.init bufDma riscDma) ⟨[], 0, none⟩ :=
  ⟨rfl, fun he => absurd he Bool.false_ne_true, Nat.zero_le _, rfl, rfl, fun h => absurd rfl h,
    blocksBefore_zero.symm, rfl, rfl⟩

theorem firstPass_step {s : MantisPci} {m : RingReader} {i : DmaInput} (h : FirstPass 0 s m)
    (hnothing : NothingHanded s i) :
    Accepts (RingReader.next blockSize) (RingReader.Good blockSize) m (s.step i).2 ∧
      FirstPass 0 (s.step i).1 ((s.step i).2.foldl (RingReader.next blockSize) m) := by
  cases i with
  | start =>
    refine ⟨⟨trivial,trivial⟩,⟨h.lines,fun _ => ?_,Nat.zero_le _,rfl,rfl,fun hpc => absurd rfl hpc,
      blocksBefore_zero.symm,rfl,rfl⟩⟩
    simp only [MantisPci.step,mantisDmaStart,h.lines]
  | stop =>
    exact ⟨⟨trivial,trivial⟩,⟨h.lines,fun he => absurd he Bool.false_ne_true,h.pc,h.last,h.finished,
      h.scheduled,h.completed,h.handed,rfl⟩⟩
  | fetch =>
    obtain ⟨hacc,hpass,-⟩ := h.fetch
    exact ⟨hacc,hpass⟩
  | xfer between =>
    unfold MantisPci.step mantisDmaXfer
    by_cases hscheduled : s.scheduled = true
    · have hpc : s.pc = 0 := by
        by_contra hne
        have hlast : s.lastBlock = s.finishedBlock := hnothing hscheduled
        rw [h.last,h.finished,if_neg hne] at hlast
        exact absurd hlast (by decide)
      have hloop : xferLoop (s.lines.blockCount.toNat + 1) s between = (s, []) := by
        simp only [xferLoop,h.fetches_waiting hpc hscheduled,if_pos (hnothing hscheduled)]
      simp only [if_pos hscheduled,hloop]
      exact ⟨trivial,⟨h.lines,h.program,h.pc,h.last,h.finished,fun hne => absurd hpc hne,h.completed,
        h.handed,h.writing⟩⟩
    · dsimp only
      rw [if_neg hscheduled]
      exact ⟨trivial,h⟩

/-- The law of the ring holds of a run exactly as long as no tasklet has anything to hand over. -/
theorem dma_ring_iff (bufDma riscDma : UInt32) (is : List DmaInput) :
    Accepts (RingReader.next blockSize) (RingReader.Good blockSize) ⟨[], 0, none⟩
        (runTrace MantisPci.step (.init bufDma riscDma) is).2 ↔
      StepsMeet MantisPci.step NothingHanded (.init bufDma riscDma) is := by
  refine runTrace_accepts_iff (FirstPass 0) (fun s m i h hnothing => firstPass_step h hnothing) ?_
    (firstPass_init bufDma riscDma) is
  intro s m i h hacc
  cases i with
  | xfer between =>
    intro hscheduled
    by_contra hne
    have hpc : s.pc ≠ 0 := by
      intro hzero
      rw [h.last, h.finished, if_pos hzero] at hne
      exact hne rfl
    refine h.not_accepts_xferLoop hpc (by omega) ?_ between (n := s.lines.blockCount.toNat + 1) ?_
    · rw [h.lines]
      decide
    · simpa only [MantisPci.step, mantisDmaXfer, if_pos hscheduled] using hacc
  | start => trivial
  | stop => trivial
  | fetch => trivial

/-- The tasklet of the first interrupt hands over a block of which nothing has been written. -/
theorem dma_ring_not_ordered : ¬ Accepts (RingReader.next blockSize) (RingReader.Good blockSize) ⟨[], 0, none⟩
      (runTrace MantisPci.step (.init 0 0x10000) [.start, .fetch, .xfer []]).2 := by
  have hrun : (runTrace MantisPci.step (.init 0 0x10000) [.start, .fetch, .xfer []]).2 =
      [.started, .fetched (some (0, lineSize))] ++ .handed 0 blockSize ::
        (List.range 14).map fun k => .handed (blockSize * (k + 1)) blockSize := by
    decide
  rw [hrun]
  intro haccepts
  have hgood := haccepts.good_of_append
  exact absurd hgood.2.1 (by decide)

end LinuxDvb.Mantis
