import LinuxDvb.LibUcsi.AtscText

/-!
# Iterators over a text

`atsc_text_strings_next` goes over the segments of a string to find the next one, and the iterator over the segments
takes their sizes again.
-/

namespace LinuxDvb.Ucsi

open InPlace

def sizeofAtscText : Nat := 1

def sizeofAtscTextString : Nat := 4

def sizeofAtscTextStringSegment : Nat := 3

section Code

variable (buf : List UInt8)

def atscTextStringsFirst (txt : Nat) : Option (Option Nat) := do
  let numberStrings ← buf[txt]?
  if numberStrings = 0 then return none else return some (txt + sizeofAtscText)

/-- The loop over this many segments from `pos` on. -/
def passSegments : Nat → Nat → Option Nat
  | 0, pos => some pos
  | count + 1, pos => do
    let numberBytes ← buf[pos + 2]?
    passSegments count (pos + sizeofAtscTextStringSegment + numberBytes.toNat)

def atscTextStringsNext (txt pos idx : Nat) : Option (Option Nat) := do
  let numberStrings ← buf[txt]?
  if idx ≥ numberStrings.toNat then return none
  else
    let numberSegments ← buf[pos + 3]?
    let stop ← passSegments buf numberSegments.toNat (pos + sizeofAtscTextString)
    return some stop

def atscTextStringSegmentsFirst (str : Nat) : Option (Option Nat) := do
  let numberSegments ← buf[str + 3]?
  if numberSegments = 0 then return none else return some (str + sizeofAtscTextString)

def atscTextStringSegmentsNext (str pos idx : Nat) : Option (Option Nat) := do
  let numberSegments ← buf[str + 3]?
  if idx ≥ numberSegments.toNat then return none
  else
    let numberBytes ← buf[pos + 2]?
    return some (pos + sizeofAtscTextStringSegment + numberBytes.toNat)

end Code

/-- The iterators over the text at `txt`: its strings, and the segments of each. -/
structure AtscTextIterates (buf : List UInt8) (txt : Nat) (text : AtscText) : Prop where
  strings : EnumeratesCounted buf (atscTextStringsFirst buf txt) (atscTextStringsNext buf txt) (txt + sizeofAtscText)
    (text.strings.map AtscTextString.bytes)
  segments : ∀ pos string,
    (pos, string) ∈ (starts (txt + sizeofAtscText) (text.strings.map AtscTextString.bytes)).zip text.strings →
      EnumeratesCounted buf (atscTextStringSegmentsFirst buf pos) (atscTextStringSegmentsNext buf pos)
        (pos + sizeofAtscTextString) (string.segments.map AtscTextStringSegment.bytes)

section Decoded

variable {buf : List UInt8} {pos : Nat}

theorem AtscTextStringSegment.length_bytes (segment : AtscTextStringSegment) :
    segment.bytes.length = sizeofAtscTextStringSegment + segment.data.length := by
  rw [AtscTextStringSegment.bytes,length_append]
  rfl

theorem AtscTextStringSegment.numberBytes_eq {segment : AtscTextStringSegment} (h : StandsAt buf pos segment.bytes) :
    buf[pos + 2]? = some (UInt8.ofNat segment.data.length) := by
  have hlength : 2 < segment.bytes.length := by
    rw [segment.length_bytes,sizeofAtscTextStringSegment]
    omega
  exact h.getElem? hlength

theorem AtscTextStringSegment.stop_eq (segment : AtscTextStringSegment) (pos : Nat) :
    pos + sizeofAtscTextStringSegment + (UInt8.ofNat segment.data.length).toNat = pos + segment.bytes.length := by
  have hnat : (UInt8.ofNat segment.data.length).toNat = segment.data.length := UInt8.toNat_ofNat_of_lt segment.fits
  rw [segment.length_bytes,hnat,Nat.add_assoc]

theorem AtscTextString.length_bytes (string : AtscTextString) : string.bytes.length =
    sizeofAtscTextString + (string.segments.map AtscTextStringSegment.bytes).flatten.length := by
  rw [AtscTextString.bytes,length_append,length_append,string.languageCode.property,flatMap_def]
  rfl

theorem AtscTextString.standsAt_segments {string : AtscTextString} (h : StandsAt buf pos string.bytes) :
    StandsAt buf (pos + sizeofAtscTextString) (string.segments.map AtscTextStringSegment.bytes).flatten := by
  have hsegments := h.right
  rwa [length_append,string.languageCode.property,flatMap_def] at hsegments

theorem AtscTextString.numberSegments_eq {string : AtscTextString} (h : StandsAt buf pos string.bytes) :
    buf[pos + 3]? = some (UInt8.ofNat string.segments.length) := by
  have hcount := h.left.right.getElem? (i := 0) Nat.zero_lt_one
  rwa [string.languageCode.property] at hcount

theorem passSegments_eq {segments : List AtscTextStringSegment}
    (h : StandsAt buf pos (segments.map AtscTextStringSegment.bytes).flatten) :
    passSegments buf segments.length pos =
      some (pos + (segments.map AtscTextStringSegment.bytes).flatten.length) := by
  induction segments generalizing pos with
  | nil => rfl
  | cons segment segments ih =>
    rw [map_cons,flatten_cons] at h ⊢
    have hcount := AtscTextStringSegment.numberBytes_eq h.left
    have hrest := ih h.right
    rw [length_cons,passSegments,hcount,bind_eq_bind,bind_some,segment.stop_eq,hrest,
      length_append,Nat.add_assoc]

theorem enumerates_segments {string : AtscTextString} (h : StandsAt buf pos string.bytes) :
    EnumeratesCounted buf (atscTextStringSegmentsFirst buf pos) (atscTextStringSegmentsNext buf pos)
      (pos + sizeofAtscTextString) (string.segments.map AtscTextStringSegment.bytes) := by
  have hcount := AtscTextString.numberSegments_eq h
  have hnat : (UInt8.ofNat string.segments.length).toNat = string.segments.length :=
    UInt8.toNat_ofNat_of_lt string.fits
  have hsegments := AtscTextString.standsAt_segments h
  refine ⟨hsegments,if string.segments.map AtscTextStringSegment.bytes = [] then none
    else some (pos + sizeofAtscTextString),?_,256,?_⟩
  · rw [atscTextStringSegmentsFirst,hcount]
    change (if UInt8.ofNat string.segments.length = 0 then some none else some (some (pos + sizeofAtscTextString))) = _
    simp only [ofNat_length_eq_zero string.fits,map_eq_nil_iff,apply_ite some]
  · have hfuel : string.segments.length ≤ 256 := Nat.le_of_lt string.fits
    refine forEachCounted_starts (Nat.zero_add _) (by rwa [length_map]) fun segmentPos item hitem idx => ?_
    have hstands := standsAt_of_mem hsegments hitem
    obtain ⟨segment,-,rfl⟩ := of_mem_starts_map hitem
    rw [atscTextStringSegmentsNext,hcount,AtscTextStringSegment.numberBytes_eq hstands,length_map]
    change (if idx ≥ (UInt8.ofNat string.segments.length).toNat then some none else some (some _)) = _
    rw [hnat,segment.stop_eq,apply_ite some]

theorem enumerates_strings {text : AtscText} (h : StandsAt buf pos text.bytes) :
    EnumeratesCounted buf (atscTextStringsFirst buf pos) (atscTextStringsNext buf pos) (pos + sizeofAtscText)
      (text.strings.map AtscTextString.bytes) := by
  have hall : StandsAt buf pos ([UInt8.ofNat text.strings.length] ++ (text.strings.map AtscTextString.bytes).flatten) := by
    rwa [AtscText.bytes,flatMap_def] at h
  have hcount : buf[pos]? = some (UInt8.ofNat text.strings.length) := hall.left.getElem? (i := 0) Nat.zero_lt_one
  have hnat : (UInt8.ofNat text.strings.length).toNat = text.strings.length := UInt8.toNat_ofNat_of_lt text.fits
  have hstrings : StandsAt buf (pos + sizeofAtscText) (text.strings.map AtscTextString.bytes).flatten := hall.right
  refine ⟨hstrings,if text.strings.map AtscTextString.bytes = [] then none else some (pos + sizeofAtscText),?_,256,?_⟩
  · rw [atscTextStringsFirst,hcount]
    change (if UInt8.ofNat text.strings.length = 0 then some none else some (some (pos + sizeofAtscText))) = _
    simp only [ofNat_length_eq_zero text.fits,map_eq_nil_iff,apply_ite some]
  · have hfuel : text.strings.length ≤ 256 := Nat.le_of_lt text.fits
    refine forEachCounted_starts (Nat.zero_add _) (by rwa [length_map]) fun stringPos item hitem idx => ?_
    have hstands := standsAt_of_mem hstrings hitem
    obtain ⟨string,-,rfl⟩ := of_mem_starts_map hitem
    have hsegments : (UInt8.ofNat string.segments.length).toNat = string.segments.length :=
      UInt8.toNat_ofNat_of_lt string.fits
    rw [atscTextStringsNext,hcount,AtscTextString.numberSegments_eq hstands,length_map]
    change (if idx ≥ (UInt8.ofNat text.strings.length).toNat then some none
      else (passSegments buf (UInt8.ofNat string.segments.length).toNat (stringPos + sizeofAtscTextString)).bind
        fun stop => some (some stop)) = _
    rw [hnat,hsegments,passSegments_eq (AtscTextString.standsAt_segments hstands),bind_some,Nat.add_assoc,
      ← string.length_bytes,apply_ite some]

theorem iterates_atscText {text : AtscText} (h : StandsAt buf pos text.bytes) : AtscTextIterates buf pos text where
  strings := enumerates_strings h
  segments := by
    intro stringPos string hstring
    exact enumerates_segments (standsAt_of_mem (enumerates_strings h).1 (mem_starts_map hstring))

end Decoded

/-- Validating accepts the empty buffer and the buffers that start with a text, and the iterators then go through
exactly the strings and segments of this text, inside the buffer. -/
theorem atscTextValidate_iterates (buf : List UInt8) :
    ∃ ok buf', atscTextValidate 0 buf.length buf = some (ok, buf') ∧ (ok.isSome ↔ IsTextField buf) ∧
      (ok.isSome → buf' = buf) ∧
      (ok.isSome → buf ≠ [] → ∃ (text : AtscText) (rest : List UInt8),
        buf = text.bytes ++ rest ∧ AtscTextIterates buf 0 text) := by
  obtain ⟨ok, buf', hrun, -, hok, hsame⟩ := atscTextValidate_spec [] buf []
  rw [List.nil_append, List.append_nil] at hrun
  refine ⟨ok, buf' ++ [], hrun, hok, fun hsome => (List.append_nil buf').trans (hsame hsome), fun hsome hne => ?_⟩
  obtain ⟨text, rest, heq⟩ := (hok.mp hsome).resolve_left hne
  exact ⟨text, rest, heq, iterates_atscText ⟨[], rest, heq, rfl⟩⟩

/-- A byte is left behind the text, and the buffer is accepted. -/
theorem atscTextValidate_trailing : (∃ buf', atscTextValidate 0 2 [0, 0] = some (some (), buf')) ∧
    ¬ ∃ text : AtscText, [0, 0] = text.bytes := by
  refine ⟨⟨[0, 0], rfl⟩, fun h => ?_⟩
  obtain ⟨text, htext⟩ := h
  injection htext with hcount hrest
  have hnil := (ofNat_length_eq_zero text.fits).mp hcount.symm
  rw [hnil] at hrest
  cases hrest

end LinuxDvb.Ucsi
