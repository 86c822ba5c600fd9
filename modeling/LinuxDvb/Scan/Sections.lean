import LinuxDvb.Framework.BitCodes
import LinuxDvb.Framework.BitMask
import LinuxDvb.Scan.Filters

/-!
# The sections of a table

`parse_section` hands each section of a table to its parser once. A bit for each section number says which have been
handed over; a new version or `table_id_ext` clears the bits.
-/

namespace LinuxDvb.Scan.Sections

/-! ## The bits -/

theorem octet_lt (bit : UInt8) : bit.toNat / 8 < 32 := by
  have := bit.toNat_lt
  omega

def getBit (bitfield : Vector UInt8 32) (bit : UInt8) : UInt8 :=
  (bitfield.get ⟨bit.toNat / 8, octet_lt bit⟩ >>> UInt8.ofNat (bit.toNat % 8)) &&& 1

def setBit (bitfield : Vector UInt8 32) (bit : UInt8) : Vector UInt8 32 :=
  bitfield.set (bit.toNat / 8)
    (bitfield.get ⟨bit.toNat / 8, octet_lt bit⟩ ||| 1 <<< UInt8.ofNat (bit.toNat % 8)) (octet_lt bit)

section Bits

variable {bitfield : Vector UInt8 32} {n m : UInt8}

theorem get_eq_getElem (bitfield : Vector UInt8 32) {i : Nat} (h : i < 32) : bitfield.get ⟨i, h⟩ = bitfield[i] := rfl

theorem shifted_bit (byte : UInt8) {k : Nat} (hk : k < 8) :
    (byte >>> UInt8.ofNat k) &&& 1 = if bit byte k then 1 else 0 := by
  have hall : ∀ byte : UInt8, ∀ k < 8, (byte >>> UInt8.ofNat k) &&& 1 = if bit byte k then 1 else 0 :=
    BitCodes.forall_byte (by decide +kernel)
  exact hall byte k hk

theorem bit_or_shift (byte : UInt8) {j k : Nat} (hj : j < 8) (hk : k < 8) :
    bit (byte ||| 1 <<< UInt8.ofNat k) j = (bit byte j || decide (j = k)) := by
  have hone : ∀ j < 8, ∀ k < 8, bit (1 <<< UInt8.ofNat k) j = decide (j = k) := by decide +kernel
  rw [← hone j hj k hk]
  simp [bit]

theorem getBit_ne_zero_iff :
    getBit bitfield n ≠ 0 ↔ bit (bitfield.get ⟨n.toNat / 8, octet_lt n⟩) (n.toNat % 8) = true := by
  rw [getBit,shifted_bit _ (Nat.mod_lt _ (by decide))]
  split <;> simp_all

theorem getBit_setBit : getBit (setBit bitfield m) n ≠ 0 ↔ n = m ∨ getBit bitfield n ≠ 0 := by
  rw [getBit_ne_zero_iff,getBit_ne_zero_iff]
  by_cases hoctet : m.toNat / 8 = n.toNat / 8
  · have hnew : (setBit bitfield m).get ⟨n.toNat / 8,octet_lt n⟩ =
        bitfield.get ⟨n.toNat / 8,octet_lt n⟩ ||| 1 <<< UInt8.ofNat (m.toNat % 8) := by
      simp [setBit,get_eq_getElem,hoctet]
    rw [hnew,bit_or_shift _ (Nat.mod_lt _ (by decide)) (Nat.mod_lt _ (by decide)),Bool.or_eq_true,decide_eq_true_iff,
      ← UInt8.toNat_inj]
    constructor
    · rintro (h | h)
      · exact Or.inr h
      · exact Or.inl (by omega)
    · rintro (h | h)
      · exact Or.inr (by rw [h])
      · exact Or.inl h
  · have hold : (setBit bitfield m).get ⟨n.toNat / 8,octet_lt n⟩ = bitfield.get ⟨n.toNat / 8,octet_lt n⟩ := by
      rw [get_eq_getElem,setBit,Vector.getElem_set_ne _ _ hoctet]
      rfl
    rw [hold]
    refine ⟨Or.inr,?_⟩
    rintro (h | h)
    · exact absurd (by rw [h]) hoctet
    · exact h

theorem getBit_clear : getBit (Vector.replicate 32 0) n = 0 := by
  have hbyte : (Vector.replicate 32 (0 : UInt8)).get ⟨n.toNat / 8,octet_lt n⟩ = 0 := by
    simp [get_eq_getElem]
  rw [getBit,hbyte]
  simp

end Bits

/-! ## The data -/

abbrev Section := Nat → UInt8

namespace Section

variable (buf : Section)

def tableId : Nat := (buf 0).toNat

def sectionLength : Nat := (buf 1 &&& 0x0f).toNat <<< 8 ||| (buf 2).toNat

def tableIdExt : Nat := (buf 3).toNat <<< 8 ||| (buf 4).toNat

def versionNumber : Nat := ((buf 5 >>> 1) &&& 0x1f).toNat

def number : UInt8 := buf 6

def lastNumber : UInt8 := buf 7

end Section

/-- The parser of a table, with what it is called with besides the body. -/
inductive TableParser where
  | parsePat (tableIdExt : Nat)
  | parsePmt (tableIdExt : Nat)
  | parseNit (tableIdExt : Nat)
  | parseSdt (tableIdExt : Nat)
  | parsePsipVct (tableId tableIdExt : Nat)
  /-- The `default` branch: a table without a parser. -/
  | default
deriving DecidableEq, Repr

structure Handed where
  parser : TableParser
  body : List UInt8
deriving DecidableEq, Repr

structure SectionState extends SectionBuf where
  sectionVersionNumber : Int
  sectionDone : Vector UInt8 32

/-- A section buffer with the segments behind `next_seg`. -/
structure SectionChain where
  head : SectionState
  nextSeg : List SectionState

/-- `setup_filter` -/
def setupSections (longTimeout : Bool) (f : FilterSetup) : SectionChain where
  head := { setupFilter longTimeout f with sectionVersionNumber := -1, sectionDone := Vector.replicate 32 0 }
  nextSeg := []

/-! ## The parser -/

/-- The `switch` over the table. -/
def tableParser (buf : Section) : TableParser :=
  if buf.tableId = 0x00 then .parsePat buf.tableIdExt
  else if buf.tableId = 0x02 then .parsePmt buf.tableIdExt
  else if buf.tableId = 0x41 ∨ buf.tableId = 0x40 then .parseNit buf.tableIdExt
  else if buf.tableId = 0x42 ∨ buf.tableId = 0x46 then .parseSdt buf.tableIdExt
  else if buf.tableId = 0xc8 ∨ buf.tableId = 0xc9 then .parsePsipVct buf.tableId buf.tableIdExt
  else .default

def handOver (buf : Section) : Handed where
  parser := tableParser buf
  body := (List.range (buf.sectionLength - (5 + 4))).map fun i => buf (8 + i)

/-- A change of the version or of `table_id_ext` clears what has been done. -/
def refresh (buf : Section) (s : SectionState) : SectionState :=
  if s.sectionVersionNumber ≠ buf.versionNumber ∨ s.tableIdExt ≠ buf.tableIdExt then
    { s with
      tableIdExt := buf.tableIdExt
      sectionVersionNumber := buf.versionNumber
      sectionfilterDone := false
      sectionDone := Vector.replicate 32 0 }
  else s

def markSection (buf : Section) (s : SectionState) : SectionState :=
  let done := setBit s.sectionDone buf.number
  { s with
    sectionDone := done
    sectionfilterDone :=
      if (List.range (buf.lastNumber.toNat + 1)).all fun i => getBit done (UInt8.ofNat i) ≠ 0 then true
      else s.sectionfilterDone }

/-- What `parse_section` returns, and the body that it hands over. -/
structure Outcome where
  ret : Int
  handed : Option Handed

/-- `parse_section`, from the buffer on that the section belongs to. -/
def parseInto (buf : Section) (s : SectionState) : SectionState × Outcome :=
  let s := refresh buf s
  if buf.sectionLength < 5 + 4 then (s, ⟨0, none⟩)
  else
    let fresh := getBit s.sectionDone buf.number = 0
    let s := if fresh then markSection buf s else s
    (s, ⟨if s.segmented then 0 else if s.sectionfilterDone then 1 else 0, if fresh then some (handOver buf) else none⟩)

/-- The buffer that `calloc` gives for a `table_id_ext` without one. -/
def newSegment (buf : Section) (s : SectionState) : SectionState where
  runOnce := s.runOnce
  segmented := s.segmented
  fd := 0
  pid := 0
  tableId := buf.tableId
  tableIdExt := buf.tableIdExt
  sectionfilterDone := false
  timeout := s.timeout
  startTime := 0
  runningTime := 0
  sectionVersionNumber := buf.versionNumber
  sectionDone := Vector.replicate 32 0

/-- The walk through the segments behind `s`. -/
def parseInSegment (buf : Section) (s : SectionState) : List SectionState → List SectionState × Outcome
  | [] =>
    let new := parseInto buf (newSegment buf s)
    ([new.1], new.2)
  | t :: segs =>
    if t.tableIdExt = buf.tableIdExt then
      let t := parseInto buf t
      (t.1 :: segs, t.2)
    else
      let rest := parseInSegment buf t segs
      (t :: rest.1, rest.2)

def parseSection (buf : Section) (c : SectionChain) : SectionChain × Outcome :=
  if c.head.tableId ≠ buf.tableId then (c, ⟨-1, none⟩)
  else if c.head.segmented ∧ c.head.tableIdExt ≠ -1 ∧ c.head.tableIdExt ≠ buf.tableIdExt then
    let segs := parseInSegment buf c.head c.nextSeg
    ({ c with nextSeg := segs.1 }, segs.2)
  else
    let head := parseInto buf c.head
    ({ c with head := head.1 }, head.2)

def deliver (c : SectionChain) (sections : List Section) : SectionChain :=
  sections.foldl (fun c buf => (parseSection buf c).1) c

end LinuxDvb.Scan.Sections
