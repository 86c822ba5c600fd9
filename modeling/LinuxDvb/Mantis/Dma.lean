import LinuxDvb.Framework.Trace

/-!
# The DMA ring of the Mantis bridge

A RISC program makes the bridge write the transport stream into a ring of blocks, line by line. Some of its
instructions raise an interrupt with a status that names a block; the interrupt handler notes this block and
schedules `mantis_dma_xfer`, which hands the blocks before it to the demux.
-/

namespace LinuxDvb.Mantis

/-! ## The RISC program -/

def riscWrite : UInt32 := (0x01 : UInt32) <<< 28

def riscJump : UInt32 := (0x07 : UInt32) <<< 28

def riscIrq : UInt32 := (0x01 : UInt32) <<< 24

/-- `RISC_STATUS(status)`; the macro complements the first operand of its argument `x % count`. -/
def riscStatus (x count : UInt32) : UInt32 := (((~~~x) % count) &&& 0x0f) <<< 20 ||| ((x % count) &&& 0x0f) <<< 16

/-- The sizes that `mantis_calc_lines` computes. -/
structure Lines where
  blockBytes : UInt32
  blockCount : UInt32
  lineBytes : UInt32
  lineCount : UInt32
  deriving DecidableEq

/-- `while (mantis->line_bytes > 4095)`, with fuel for the halvings. -/
def halveLines : Nat → Lines → Lines
  | 0, l => l
  | n + 1, l =>
    if l.lineBytes > 4095 then
      halveLines n { l with lineBytes := l.lineBytes >>> 1, lineCount := l.lineCount <<< 1 }
    else l

/-- `mantis_calc_lines`; `none` is `-EINVAL`. -/
def mantisCalcLines (bufSize : UInt32) : Option Lines :=
  let blockBytes := bufSize >>> 4
  let l := halveLines 32 ⟨blockBytes, (1 : UInt32) <<< 4, blockBytes, (1 : UInt32) <<< 4⟩
  if l.lineCount > 255 then none else some l

/-- `mantis->buf_size` -/
def bufSize : UInt32 := 64 * 1024

/-- What `mantis_calc_lines` leaves for this size. -/
def ringLines : Lines := ⟨4096, 16, 2048, 32⟩

structure RiscInstr where
  opcode : UInt32
  address : UInt32
  deriving DecidableEq

/-- The opcode of the line at `bufPos`. -/
def lineOpcode (l : Lines) (bufPos : UInt32) : UInt32 :=
  if (bufPos / 8) % l.blockBytes = 0 then
    riscWrite ||| riscIrq ||| riscStatus (bufPos / l.blockBytes + (l.blockCount - 1)) l.blockCount ||| l.lineBytes
  else riscWrite ||| l.lineBytes

/-- The loop over the lines in `mantis_risc_program`. -/
def riscLines (l : Lines) (bufDma : UInt32) : Nat → UInt32 → List RiscInstr
  | 0, _ => []
  | n + 1, bufPos => ⟨lineOpcode l bufPos, bufDma + bufPos⟩ :: riscLines l bufDma n (bufPos + l.lineBytes)

def mantisRiscProgram (l : Lines) (bufDma riscDma : UInt32) : List RiscInstr :=
  riscLines l bufDma l.lineCount.toNat 0 ++ [⟨riscJump, riscDma⟩]

/-! ## Engine, interrupt and tasklet -/

/-- The part of `struct mantis_pci` that the DMA functions use, with the memory of the RISC program, the next
instruction of the engine, and whether the tasklet is scheduled. -/
structure MantisPci where
  lines : Lines
  bufDma : UInt32
  riscDma : UInt32
  risc : List RiscInstr
  pc : Nat
  enabled : Bool
  finishedBlock : UInt32
  lastBlock : UInt32
  scheduled : Bool
  deriving DecidableEq

inductive RingEvent where
  | started
  | stopped
  /-- The engine goes on to an instruction: it writes a line, or nothing. -/
  | fetched (line : Option (Nat × Nat))
  /-- `dvb_dmx_swfilter` is called for these bytes. -/
  | handed (offset bytes : Nat)
  deriving DecidableEq

def mantisDmaStart (s : MantisPci) : MantisPci × List RingEvent :=
  ({ s with risc := mantisRiscProgram s.lines s.bufDma s.riscDma, pc := 0, enabled := true, finishedBlock := 0,
            lastBlock := 0 }, [.started])

def mantisDmaStop (s : MantisPci) : MantisPci × List RingEvent := ({ s with enabled := false }, [.stopped])

/-- The RISCI branch of `mantis_pci_irq`. -/
def mantisPciIrq (s : MantisPci) (status : UInt32) : MantisPci :=
  { s with finishedBlock := status, scheduled := true }

/-- The engine executes its next instruction. One that raises an interrupt waits until the tasklet of the
interrupt before has run. -/
def fetch (s : MantisPci) : MantisPci × List RingEvent :=
  match s.risc[s.pc]? with
  | none => (s, [])
  | some instr =>
    if ¬ s.enabled then (s, [])
    else if instr.opcode >>> 28 = riscJump >>> 28 then
      ({ s with pc := if instr.address = s.riscDma then 0 else s.risc.length }, [.fetched none])
    else
      let line := ((instr.address - s.bufDma).toNat, (instr.opcode &&& 0xfff).toNat)
      let next := { s with pc := s.pc + 1 }
      if instr.opcode &&& riscIrq = 0 then (next, [.fetched (some line)])
      else if s.scheduled then (s, [])
      else (mantisPciIrq next ((instr.opcode >>> 16) &&& 0x0f), [.fetched (some line)])

def fetches : Nat → MantisPci → MantisPci × List RingEvent
  | 0, s => (s, [])
  | n + 1, s =>
    let r := fetch s
    let rest := fetches n r.1
    (rest.1, r.2 ++ rest.2)

/-- The loop of `mantis_dma_xfer`, with fuel. The engine executes `between` instructions in front of each
pass. -/
def xferLoop : Nat → MantisPci → List Nat → MantisPci × List RingEvent
  | 0, s, _ => (s, [])
  | n + 1, s, between =>
    let r := fetches (between.headD 0) s
    if r.1.lastBlock = r.1.finishedBlock then r
    else
      let offset := (r.1.lastBlock * r.1.lines.blockBytes).toNat
      let bytes := r.1.lines.blockBytes.toNat
      let rest := xferLoop n { r.1 with lastBlock := (r.1.lastBlock + 1) % r.1.lines.blockCount } between.tail
      (rest.1, r.2 ++ .handed offset bytes :: rest.2)

/-- The tasklet: `mantis_dma_xfer`, if it is scheduled. -/
def mantisDmaXfer (s : MantisPci) (between : List Nat) : MantisPci × List RingEvent :=
  if s.scheduled then
    let r := xferLoop (s.lines.blockCount.toNat + 1) s between
    ({ r.1 with scheduled := false }, r.2)
  else (s, [])

inductive DmaInput where
  | start
  | stop
  | fetch
  | xfer (between : List Nat)
  deriving DecidableEq

def MantisPci.step (s : MantisPci) : DmaInput → MantisPci × List RingEvent
  | .start => mantisDmaStart s
  | .stop => mantisDmaStop s
  | .fetch => Mantis.fetch s
  | .xfer between => mantisDmaXfer s between

/-- `mantis_dma_init` has run. -/
def MantisPci.init (bufDma riscDma : UInt32) : MantisPci :=
  { lines := ringLines, bufDma := bufDma, riscDma := riscDma, risc := [], pc := 0, enabled := false,
    finishedBlock := 0, lastBlock := 0, scheduled := false }

/-! ## The law of the ring -/

/-- What a reader of the events knows since the last start: the blocks that have been completely written, by
their offsets and in order, how many blocks have been handed over, and the line being written. -/
structure RingReader where
  completed : List Nat
  handed : Nat
  writing : Option (Nat × Nat)
  deriving DecidableEq

/-- The line that was being written is complete; if it reaches the end of a block, so is the block. -/
def RingReader.completeLine (m : RingReader) (blockBytes : Nat) : RingReader :=
  match m.writing with
  | none => m
  | some (offset, bytes) =>
    if (offset + bytes) % blockBytes = 0 then
      { m with completed := m.completed ++ [offset + bytes - blockBytes], writing := none }
    else { m with writing := none }

def RingReader.next (blockBytes : Nat) (m : RingReader) : RingEvent → RingReader
  | .started => ⟨[], 0, none⟩
  | .stopped => { m with writing := none }
  | .fetched line => { m.completeLine blockBytes with writing := line }
  | .handed _ _ => { m with handed := m.handed + 1 }

/-- The bytes from `a` on and those from `b` on have nothing in common. -/
def Apart (a m b n : Nat) : Prop := a + m ≤ b ∨ b + n ≤ a

/-- The blocks are handed over in the order in which they were completed, each once and before it is written
again, and none while it is being written. -/
def RingReader.Good (blockBytes : Nat) (m : RingReader) : RingEvent → Prop
  | .handed offset bytes =>
    bytes = blockBytes ∧ m.completed[m.handed]? = some offset ∧
      ∀ line, m.writing = some line → Apart offset bytes line.1 line.2
  | .fetched (some line) =>
    ∀ block ∈ (m.completeLine blockBytes).completed.drop m.handed, Apart block blockBytes line.1 line.2
  | _ => True

end LinuxDvb.Mantis
