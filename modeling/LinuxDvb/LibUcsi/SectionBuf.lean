import LinuxDvb.Framework.Kernel

/-!
# Section buffers

A section buffer collects the fragments of one section. Its three header bytes announce the length; padding in front
of a section is skipped.
-/

namespace LinuxDvb.Ucsi

/-- `-ERANGE` -/
def errRange : Int := -34

def sectionHdrSize : Nat := 3

def sectionPad : UInt8 := 0xff

def dvbMaxSectionBytes : Nat := 4096

/-- `struct section_buf`, with the data that follow it. `count` is their number. -/
structure SectionBuf where
  max : Nat
  len : Nat
  header : Bool
  waitPdu : Bool
  data : List UInt8
  deriving DecidableEq

def SectionBuf.count (buf : SectionBuf) : Nat := buf.data.length

/-- `section_buf_init`; `none` is `-EINVAL`, with the buffer left as it was. -/
def sectionBufInit (max : Nat) : Option SectionBuf :=
  if max < sectionHdrSize then none
  else some { max := max, len := sectionHdrSize, header := false, waitPdu := true, data := [] }

def sectionBufReset (buf : SectionBuf) : SectionBuf :=
  match sectionBufInit buf.max with
  | some fresh => { fresh with waitPdu := buf.waitPdu }
  | none => buf

def sectionBufRemaining (buf : SectionBuf) : Int := buf.len - buf.count

/-- What a call leaves: the buffer, the number of bytes used and `*section_status`. -/
structure Added where
  buf : SectionBuf
  used : Nat
  status : Int
  deriving DecidableEq

def announcedLen (data : List UInt8) : Nat :=
  sectionHdrSize + (((data.getD 1 0 &&& 0x0f).toNat <<< 8) ||| (data.getD 2 0).toNat)

def SectionBuf.setWait (buf : SectionBuf) (w : Bool) : SectionBuf := { buf with waitPdu := w }

/-- `memcpy(pos, frag, copy)` with the new `count` -/
def SectionBuf.append (buf : SectionBuf) (frag : List UInt8) : SectionBuf :=
  { buf with data := buf.data ++ frag }

def SectionBuf.finished (buf : SectionBuf) : Bool := buf.header && buf.len == buf.count

/-- The end of `section_buf_add`: accumulate the fragment, of which `used` bytes are used already. -/
def sectionBufAccumulate (buf : SectionBuf) (frag : List UInt8) (used : Nat) : Added :=
  let copy := min (buf.len - buf.count) frag.length
  let buf := buf.append (frag.take copy)
  ⟨buf, used + copy, if buf.finished then 1 else 0⟩

/-- `section_buf_add` behind the padding: grab the header, then accumulate. -/
def sectionBufGrab (buf : SectionBuf) (frag : List UInt8) (used : Nat) : Added :=
  if buf.header then sectionBufAccumulate buf frag used
  else
    let copy := min (sectionHdrSize - buf.count) frag.length
    let buf := buf.append (frag.take copy)
    let frag := frag.drop copy
    if buf.count ≠ sectionHdrSize then ⟨buf, used + copy, 0⟩
    else
      let buf := { buf with len := announcedLen buf.data }
      if buf.max < buf.len then ⟨buf, frag.length + (used + copy), errRange⟩
      else sectionBufAccumulate { buf with header := true } frag (used + copy)

def sectionBufAdd (buf : SectionBuf) (frag : List UInt8) : Added :=
  if buf.finished then ⟨buf, 0, 1⟩
  else if buf.count = 0 then
    let used := (frag.takeWhile (· == sectionPad)).length
    let frag := frag.dropWhile (· == sectionPad)
    if frag = [] then ⟨buf, used, 0⟩ else sectionBufGrab buf frag used
  else sectionBufGrab buf frag 0

/-- The end of `section_buf_add_transport_payload`: accumulate the data behind `used` bytes as normal. -/
def sectionBufAddBehind (buf : SectionBuf) (payload : List UInt8) (used : Nat) : Added :=
  let r := sectionBufAdd buf (payload.drop used)
  ⟨if r.status < 0 then r.buf.setWait true else r.buf, used + r.used, r.status⟩

/-- `section_buf_add_transport_payload`, called with at least one byte: `payload[0]` is read unchecked. -/
def sectionBufAddTransportPayload (buf : SectionBuf) (payload : List UInt8) (pduStart : Bool) : Added :=
  if buf.finished then ⟨buf, 0, 1⟩
  else if buf.waitPdu ∧ ¬ pduStart then ⟨buf, payload.length, 0⟩
  else if pduStart then
    let offset := (payload.headD 0).toNat
    if offset + 1 > payload.length then ⟨buf.setWait true, payload.length, errInval⟩
    else if buf.count ≠ 0 then
      -- the final fragment, which has to complete the section
      let r := sectionBufAdd (buf.setWait false) ((payload.drop 1).take offset)
      if r.used ≠ offset ∨ sectionBufRemaining r.buf ≠ 0 ∨ r.status ≠ 1 then
        ⟨r.buf.setWait true, 1 + r.used, errRange⟩
      else ⟨r.buf, 1 + r.used, r.status⟩
    else sectionBufAddBehind (buf.setWait false) payload (1 + offset)
  else sectionBufAddBehind buf payload 0

/-! ## What a buffer holds between two calls -/

/-- The buffer for sections of at most `max` bytes that has collected `data`, which is not a whole section. -/
def SectionBuf.collecting (max : Nat) (waitPdu : Bool) (data : List UInt8) : SectionBuf where
  max := max
  len := if data.length < sectionHdrSize then sectionHdrSize else announcedLen data
  header := decide (sectionHdrSize ≤ data.length)
  waitPdu := waitPdu
  data := data

/-- The bytes do not make up a section of at most `max` bytes yet. -/
def UnfinishedIn (max : Nat) (data : List UInt8) : Prop :=
  data.length < sectionHdrSize ∨ data.length < announcedLen data ∧ announcedLen data ≤ max

theorem unfinishedIn_nil (max : Nat) : UnfinishedIn max [] := .inl (by decide)

@[simp] theorem count_collecting (max : Nat) (w : Bool) (data : List UInt8) :
    (SectionBuf.collecting max w data).count = data.length := rfl

@[simp] theorem data_collecting (max : Nat) (w : Bool) (data : List UInt8) :
    (SectionBuf.collecting max w data).data = data := rfl

/-- The buffer of the receiver that has collected `data`, which is not a whole section. -/
def SectionBuf.holding (waitPdu : Bool) (data : List UInt8) : SectionBuf where
  max := dvbMaxSectionBytes
  len := if data.length < sectionHdrSize then sectionHdrSize else announcedLen data
  header := decide (sectionHdrSize ≤ data.length)
  waitPdu := waitPdu
  data := data

/-- The bytes do not make up a section yet: the header is missing, or a part of the length it announces. -/
def Unfinished (data : List UInt8) : Prop :=
  data.length < sectionHdrSize ∨
    data.length < announcedLen data ∧ announcedLen data ≤ dvbMaxSectionBytes

def IsSection (data : List UInt8) : Prop :=
  sectionHdrSize ≤ data.length ∧ announcedLen data = data.length ∧ data.length ≤ dvbMaxSectionBytes

def Oversize (data : List UInt8) : Prop :=
  sectionHdrSize ≤ data.length ∧ dvbMaxSectionBytes < announcedLen data

instance (data : List UInt8) : Decidable (IsSection data) := inferInstanceAs (Decidable (_ ∧ _ ∧ _))

theorem unfinished_nil : Unfinished [] := .inl (by decide)

@[simp] theorem count_holding (w : Bool) (data : List UInt8) : (SectionBuf.holding w data).count = data.length := rfl

@[simp] theorem waitPdu_holding (w : Bool) (data : List UInt8) : (SectionBuf.holding w data).waitPdu = w := rfl

@[simp] theorem data_holding (w : Bool) (data : List UInt8) : (SectionBuf.holding w data).data = data := rfl

@[simp] theorem setWait_holding (w w' : Bool) (data : List UInt8) :
    (SectionBuf.holding w data).setWait w' = SectionBuf.holding w' data := rfl

theorem sectionBufInit_max : sectionBufInit dvbMaxSectionBytes = some (.holding true []) := rfl

theorem sectionBufReset_eq {buf : SectionBuf} (h : buf.max = dvbMaxSectionBytes) :
    sectionBufReset buf = .holding buf.waitPdu [] := by
  unfold sectionBufReset
  rw [h,sectionBufInit_max]
  rfl

theorem announcedLen_append {xs : List UInt8} (h : sectionHdrSize ≤ xs.length) (ys : List UInt8) :
    announcedLen (xs ++ ys) = announcedLen xs := by
  simp only [sectionHdrSize] at h
  simp only [announcedLen]
  rw [List.getD_append _ _ _ _ (by omega),List.getD_append _ _ _ _ (by omega)]

theorem announcedLen_take {n : Nat} (hn : sectionHdrSize ≤ n) (data : List UInt8) :
    announcedLen (data.take n) = announcedLen data := by
  by_cases hlen : data.length ≤ n
  · rw [take_of_length_le hlen]
  · have htake : (data.take n).length = n := length_take_of_le (Nat.le_of_lt (Nat.not_le.mp hlen))
    conv_rhs => rw [← take_append_drop n data]
    rw [announcedLen_append (by rw [htake]; exact hn)]

theorem announcedLen_ge (data : List UInt8) : sectionHdrSize ≤ announcedLen data := Nat.le_add_right _ _

theorem finished_collecting (max : Nat) (w : Bool) (data : List UInt8) : (SectionBuf.collecting max w data).finished =
      decide (sectionHdrSize ≤ data.length ∧ announcedLen data = data.length) := by
  by_cases h3 : sectionHdrSize ≤ data.length
  · have hlen : (SectionBuf.collecting max w data).len = announcedLen data := if_neg (Nat.not_lt.mpr h3)
    have hheader : (SectionBuf.collecting max w data).header = true := decide_eq_true h3
    rw [SectionBuf.finished,hheader,hlen,Bool.true_and,count_collecting]
    simp only [h3,true_and]
    rfl
  · have hheader : (SectionBuf.collecting max w data).header = false := decide_eq_false h3
    rw [SectionBuf.finished,hheader,Bool.false_and,decide_eq_false fun h => h3 h.1]

theorem UnfinishedIn.finished_eq {max : Nat} {data : List UInt8} (h : UnfinishedIn max data) (w : Bool) :
    (SectionBuf.collecting max w data).finished = false := by
  rw [finished_collecting]
  apply decide_eq_false
  rintro ⟨h3,hlen⟩
  rcases h with h | ⟨h,-⟩ <;> omega

theorem Unfinished.finished_eq {data : List UInt8} (h : Unfinished data) (w : Bool) :
    (SectionBuf.holding w data).finished = false := UnfinishedIn.finished_eq h w

theorem collecting_append (max : Nat) (w : Bool) {data : List UInt8} (h3 : sectionHdrSize ≤ data.length) (more : List UInt8) :
    (SectionBuf.collecting max w data).append more = SectionBuf.collecting max w (data ++ more) := by
  have hlen : (data ++ more).length = data.length + more.length := length_append
  have h3' : sectionHdrSize ≤ (data ++ more).length := by omega
  simp only [SectionBuf.append,SectionBuf.collecting,h3,h3',if_neg (Nat.not_lt.mpr h3),if_neg (Nat.not_lt.mpr h3'),
    announcedLen_append h3]

theorem sectionBufAccumulate_collecting (max : Nat) (w : Bool) {data : List UInt8} (h3 : sectionHdrSize ≤ data.length)
    (hle : data.length ≤ announcedLen data) (frag : List UInt8) (used : Nat) :
    sectionBufAccumulate (.collecting max w data) frag used =
      ⟨.collecting max w (data ++ frag.take (announcedLen data - data.length)),
        used + min (announcedLen data - data.length) frag.length,
        if announcedLen data ≤ data.length + frag.length then 1 else 0⟩ := by
  have hlen : (SectionBuf.collecting max w data).len = announcedLen data := if_neg (Nat.not_lt.mpr h3)
  have htake : frag.take (min (announcedLen data - data.length) frag.length) =
      frag.take (announcedLen data - data.length) := by
    rw [← List.take_take,take_length]
  have hfin : (SectionBuf.collecting max w (data ++ frag.take (announcedLen data - data.length))).finished =
      decide (announcedLen data ≤ data.length + frag.length) := by
    rw [finished_collecting,announcedLen_append h3,length_append,length_take]
    apply decide_eq_decide.mpr
    omega
  simp only [sectionBufAccumulate,hlen,count_collecting,htake,collecting_append max w h3,hfin,decide_eq_true_eq]

/-! ## Adding a fragment -/

section Adding

variable {max : Nat} {data body : List UInt8} (w : Bool) (used : Nat)

theorem sectionBufGrab_collecting (h : UnfinishedIn max data) : sectionBufGrab (.collecting max w data) body used =
      if (data ++ body).length < sectionHdrSize then ⟨.collecting max w (data ++ body), used + body.length, 0⟩
      else if data.length < sectionHdrSize ∧ max < announcedLen (data ++ body) then
        ⟨{ SectionBuf.collecting max w ((data ++ body).take sectionHdrSize) with header := false },
          used + body.length, errRange⟩
      else
        ⟨.collecting max w ((data ++ body).take (announcedLen (data ++ body))),
          used + min (announcedLen (data ++ body) - data.length) body.length,
          if announcedLen (data ++ body) ≤ (data ++ body).length then 1 else 0⟩ := by
  by_cases h3 : sectionHdrSize ≤ data.length
  · obtain ⟨hlt,hmax⟩ := h.resolve_left (Nat.not_lt.mpr h3)
    have hheader : (SectionBuf.collecting max w data).header = true := decide_eq_true h3
    have htotal : ¬ (data ++ body).length < sectionHdrSize := by
      rw [length_append]
      omega
    have hgrabbed : ¬ (data.length < sectionHdrSize ∧ max < announcedLen (data ++ body)) :=
      fun hshort => absurd hshort.1 (Nat.not_lt.mpr h3)
    have htake : (data ++ body).take (announcedLen data) = data ++ body.take (announcedLen data - data.length) := by
      rw [take_append,take_of_length_le hlt.le]
    rw [sectionBufGrab,if_pos hheader,sectionBufAccumulate_collecting max w h3 hlt.le,if_neg htotal,
      if_neg hgrabbed,announcedLen_append h3,htake,length_append]
  · have hheader : ¬ (SectionBuf.collecting max w data).header = true := by
      simpa [SectionBuf.collecting] using h3
    have hlen : (data ++ body).length = data.length + body.length := length_append
    rw [sectionBufGrab,if_neg hheader]
    by_cases htotal : (data ++ body).length < sectionHdrSize
    · have hcopy : min (sectionHdrSize - data.length) body.length = body.length := by omega
      have hbuf : (SectionBuf.collecting max w data).append body = .collecting max w (data ++ body) := by
        simp only [SectionBuf.append,SectionBuf.collecting,if_pos htotal,if_pos (Nat.not_le.mp h3),
          decide_eq_false h3,decide_eq_false (Nat.not_le.mpr htotal)]
      simp only [count_collecting,hcopy,take_length,hbuf]
      rw [if_pos htotal.ne,if_pos htotal]
    · have hcopy : min (sectionHdrSize - data.length) body.length = sectionHdrSize - data.length := by omega
      have hhead : (data ++ body).take sectionHdrSize = data ++ body.take (sectionHdrSize - data.length) := by
        rw [take_append,take_of_length_le (by omega)]
      have hhdr : ((data ++ body).take sectionHdrSize).length = sectionHdrSize := by
        rw [length_take]
        omega
      have hann : announcedLen ((data ++ body).take sectionHdrSize) = announcedLen (data ++ body) :=
        announcedLen_take (Nat.le_refl _) _
      have hrest : ∀ n, sectionHdrSize ≤ n → (data ++ body).take n = (data ++ body).take sectionHdrSize ++
          (body.drop (sectionHdrSize - data.length)).take (n - sectionHdrSize) := by
        intro n hn
        conv_lhs => rw [← take_append_drop sectionHdrSize (data ++ body)]
        rw [take_append,hhdr,take_of_length_le (by rw [hhdr]; exact hn),List.drop_append,
          List.drop_of_length_le (by omega),nil_append]
      -- the buffer behind the copied header
      have hcopied : (SectionBuf.collecting max w data).append (body.take (sectionHdrSize - data.length)) =
          ⟨max,sectionHdrSize,false,w,(data ++ body).take sectionHdrSize⟩ := by
        simp only [SectionBuf.append,SectionBuf.collecting,if_pos (Nat.not_le.mp h3),decide_eq_false h3,hhead]
      have hheld : (⟨max,announcedLen (data ++ body),true,w,
          (data ++ body).take sectionHdrSize⟩ : SectionBuf) = .collecting max w ((data ++ body).take sectionHdrSize) := by
        simp only [SectionBuf.collecting,hhdr,hann,Nat.lt_irrefl,if_false,Nat.le_refl,decide_true]
      have hge : sectionHdrSize ≤ announcedLen (data ++ body) := announcedLen_ge _
      have hdrop : (body.drop (sectionHdrSize - data.length)).length =
          body.length - (sectionHdrSize - data.length) := length_drop
      simp only [SectionBuf.count,data_collecting,hcopy,hcopied,hhdr,ne_eq,not_true,if_false,hann,
        if_neg htotal,Nat.not_le.mp h3,true_and]
      by_cases hmax : max < announcedLen (data ++ body)
      · rw [if_pos hmax,if_pos hmax,hdrop]
        simp only [SectionBuf.collecting,hhdr,hann,Nat.lt_irrefl,if_false,Added.mk.injEq,and_true,true_and]
        omega
      · rw [if_neg hmax,if_neg hmax,hheld,sectionBufAccumulate_collecting max w hhdr.ge (by rw [hhdr, hann]; exact hge),
          hann,hhdr,hdrop,← hrest _ hge]
        simp only [Added.mk.injEq,true_and]
        constructor
        · omega
        · apply if_congr _ rfl rfl
          omega

theorem sectionBufGrab_holding (h : Unfinished data) : sectionBufGrab (.holding w data) body used =
      if (data ++ body).length < sectionHdrSize then ⟨.holding w (data ++ body), used + body.length, 0⟩
      else if data.length < sectionHdrSize ∧ dvbMaxSectionBytes < announcedLen (data ++ body) then
        ⟨{ SectionBuf.holding w ((data ++ body).take sectionHdrSize) with header := false },
          used + body.length, errRange⟩
      else
        ⟨.holding w ((data ++ body).take (announcedLen (data ++ body))),
          used + min (announcedLen (data ++ body) - data.length) body.length,
          if announcedLen (data ++ body) ≤ (data ++ body).length then 1 else 0⟩ :=
  sectionBufGrab_collecting w used h

theorem sectionBufGrab_unfinished (h : Unfinished data) (hmore : Unfinished (data ++ body)) :
    sectionBufGrab (.holding w data) body used = ⟨.holding w (data ++ body), used + body.length, 0⟩ := by
  have hlen : (data ++ body).length = data.length + body.length := length_append
  rw [sectionBufGrab_holding w used h]
  by_cases hshort : (data ++ body).length < sectionHdrSize
  · rw [if_pos hshort]
  · obtain ⟨hlt,hmax⟩ := hmore.resolve_left hshort
    have hfits : ¬ (data.length < sectionHdrSize ∧ dvbMaxSectionBytes < announcedLen (data ++ body)) :=
      fun hbig => absurd hbig.2 (Nat.not_lt.mpr hmax)
    rw [if_neg hshort,if_neg hfits,if_neg (Nat.not_le.mpr hlt),take_of_length_le hlt.le,
      Nat.min_eq_right (by omega)]

theorem sectionBufGrab_oversize (h : Unfinished data) (hmore : Oversize (data ++ body)) :
    (sectionBufGrab (.holding w data) body used).buf.max = dvbMaxSectionBytes ∧
      (sectionBufGrab (.holding w data) body used).used = used + body.length ∧
      (sectionBufGrab (.holding w data) body used).status = errRange := by
  have hshort : data.length < sectionHdrSize := by
    by_contra h3
    obtain ⟨-,hmax⟩ := h.resolve_left h3
    rw [← announcedLen_append (Nat.not_lt.mp h3) body] at hmax
    exact absurd hmore.2 (Nat.not_lt.mpr hmax)
  rw [sectionBufGrab_holding w used h,if_neg (Nat.not_lt.mpr hmore.1),if_pos ⟨hshort,hmore.2⟩]
  exact ⟨rfl,rfl,rfl⟩

theorem sectionBufGrab_section {fst : List UInt8} (h : Unfinished data) (hsec : IsSection (data ++ fst))
    (snd : List UInt8) : sectionBufGrab (.holding w data) (fst ++ snd) used =
      ⟨.holding w (data ++ fst), used + fst.length, 1⟩ := by
  obtain ⟨h3,hann,hmax⟩ := hsec
  have hassoc : data ++ (fst ++ snd) = (data ++ fst) ++ snd := (append_assoc _ _ _).symm
  have hall : announcedLen (data ++ (fst ++ snd)) = data.length + fst.length := by
    rw [hassoc,announcedLen_append h3,hann,length_append]
  have htotal : (data ++ (fst ++ snd)).length = data.length + (fst.length + snd.length) := by
    simp only [length_append]
  have hlen : (data ++ fst).length = data.length + fst.length := length_append
  have hfits : ¬ (data.length < sectionHdrSize ∧ dvbMaxSectionBytes < announcedLen (data ++ (fst ++ snd))) := by
    rintro ⟨-,hbig⟩
    omega
  have htake : (data ++ (fst ++ snd)).take (data.length + fst.length) = data ++ fst := by
    rw [hassoc,← hlen,take_left]
  rw [sectionBufGrab_holding w used h,if_neg (by omega),if_neg hfits,hall,htake,if_pos (by omega),
    Nat.add_sub_cancel_left,length_append,Nat.min_eq_left (Nat.le_add_right _ _)]

theorem Unfinished.append_cases (h : Unfinished data) (body : List UInt8) :
    Unfinished (data ++ body) ∨ Oversize (data ++ body) ∨
      ∃ fst snd, body = fst ++ snd ∧ IsSection (data ++ fst) := by
  by_cases h3 : (data ++ body).length < sectionHdrSize
  · exact .inl (.inl h3)
  by_cases hmax : dvbMaxSectionBytes < announcedLen (data ++ body)
  · exact .inr (.inl ⟨Nat.not_lt.mp h3,hmax⟩)
  by_cases hlt : (data ++ body).length < announcedLen (data ++ body)
  · exact .inl (.inr ⟨hlt,Nat.not_lt.mp hmax⟩)
  -- the section ends in the fragment
  have hge : sectionHdrSize ≤ announcedLen (data ++ body) := announcedLen_ge _
  have hlen : (data ++ body).length = data.length + body.length := length_append
  have hdata : data.length ≤ announcedLen (data ++ body) := by
    by_cases hshort : data.length < sectionHdrSize
    · omega
    · rw [announcedLen_append (Nat.not_lt.mp hshort)]
      exact (h.resolve_left hshort).1.le
  have hsplit : data ++ body.take (announcedLen (data ++ body) - data.length) =
      (data ++ body).take (announcedLen (data ++ body)) := by
    rw [take_append,take_of_length_le hdata]
  have htake : ((data ++ body).take (announcedLen (data ++ body))).length = announcedLen (data ++ body) := by
    rw [length_take]
    omega
  refine .inr (.inr ⟨body.take (announcedLen (data ++ body) - data.length),
    body.drop (announcedLen (data ++ body) - data.length),(take_append_drop _ _).symm,?_⟩)
  have hann : announcedLen ((data ++ body).take (announcedLen (data ++ body))) = announcedLen (data ++ body) :=
    announcedLen_take hge _
  rw [hsplit]
  refine ⟨by rw [htake]; exact hge,by rw [hann,htake],?_⟩
  rw [htake]
  exact Nat.not_lt.mp hmax

theorem sectionBufAdd_pads (max : Nat) (k : Nat) :
    sectionBufAdd (.collecting max w []) (List.replicate k sectionPad) = ⟨.collecting max w [], k, 0⟩ := by
  have hall : ∀ b ∈ List.replicate k sectionPad, (b == sectionPad) = true := by
    intro b hb
    rw [eq_of_mem_replicate hb]
    rfl
  rw [sectionBufAdd,(unfinishedIn_nil max).finished_eq]
  simp only [Bool.false_eq_true,if_false,count_collecting,length_nil,if_true,
    List.dropWhile_eq_nil_iff.mpr hall,List.takeWhile_eq_self_iff.mpr hall,length_replicate]

theorem sectionBufAdd_starts (max : Nat) (k : Nat) {b : UInt8} (hb : b ≠ sectionPad) (body : List UInt8) :
    sectionBufAdd (.collecting max w []) (List.replicate k sectionPad ++ b :: body) =
      sectionBufGrab (.collecting max w []) (b :: body) k := by
  have hall : ∀ b ∈ List.replicate k sectionPad, (b == sectionPad) = true := by
    intro b hb
    rw [eq_of_mem_replicate hb]
    rfl
  have hne : ¬ ((b == sectionPad) = true) := by simpa using hb
  have hdrop : (b :: body).dropWhile (· == sectionPad) = b :: body := List.dropWhile_cons_of_neg hne
  have htake : (b :: body).takeWhile (· == sectionPad) = [] := List.takeWhile_cons_of_neg hne
  rw [sectionBufAdd,(unfinishedIn_nil max).finished_eq]
  simp only [Bool.false_eq_true,if_false,count_collecting,length_nil,if_true,
    List.dropWhile_append_of_pos hall,List.takeWhile_append_of_pos hall,hdrop,htake,
    append_nil,length_replicate,reduceCtorEq]

theorem sectionBufAdd_continues (h : UnfinishedIn max data) (hne : data ≠ []) (body : List UInt8) :
    sectionBufAdd (.collecting max w data) body = sectionBufGrab (.collecting max w data) body 0 := by
  have hcount : data.length ≠ 0 := fun h0 => hne (length_eq_zero_iff.mp h0)
  rw [sectionBufAdd,h.finished_eq,if_neg Bool.false_ne_true,count_collecting,if_neg hcount]

theorem sectionBufAdd_padding (k : Nat) :
    sectionBufAdd (.holding w []) (List.replicate k sectionPad) = ⟨.holding w [], k, 0⟩ :=
  sectionBufAdd_pads w dvbMaxSectionBytes k

theorem sectionBufAdd_start (k : Nat) {b : UInt8} (hb : b ≠ sectionPad) (body : List UInt8) :
    sectionBufAdd (.holding w []) (List.replicate k sectionPad ++ b :: body) =
      sectionBufGrab (.holding w []) (b :: body) k := sectionBufAdd_starts w dvbMaxSectionBytes k hb body

theorem sectionBufAdd_middle (h : Unfinished data) (hne : data ≠ []) (body : List UInt8) :
    sectionBufAdd (.holding w data) body = sectionBufGrab (.holding w data) body 0 :=
  sectionBufAdd_continues w h hne body

end Adding

theorem exists_padding (frag : List UInt8) : ∃ k, frag = List.replicate k sectionPad ∨
    ∃ b body, b ≠ sectionPad ∧ frag = List.replicate k sectionPad ++ b :: body := by
  induction frag with
  | nil => exact ⟨0,.inl rfl⟩
  | cons b frag ih =>
    by_cases hb : b = sectionPad
    · obtain ⟨k,rfl | ⟨c,body,hc,rfl⟩⟩ := ih
      · exact ⟨k + 1,.inl (by rw [hb]; rfl)⟩
      · exact ⟨k + 1,.inr ⟨c,body,hc,by rw [hb]; rfl⟩⟩
    · exact ⟨0,.inr ⟨b,frag,hb,rfl⟩⟩

/-! ## One call with a payload -/

section Transport

variable {data : List UInt8}

/-- The call takes the bytes up to `rest` of a payload: it leaves out `pre`, skips padding, and adds `chunk` to
the data. -/
structure Collects (data payload : List UInt8) (r : Added) (pre : List UInt8) (k : Nat) (chunk rest : List UInt8) :
    Prop where
  split : payload = pre ++ (List.replicate k sectionPad ++ (chunk ++ rest))
  buf : r.buf = .holding false (data ++ chunk)
  used : r.used = pre.length + (k + chunk.length)
  unpadded : data ≠ [] → k = 0
  outcome : r.status = 0 ∧ Unfinished (data ++ chunk) ∧ rest = [] ∨ r.status = 1 ∧ IsSection (data ++ chunk)

structure Refuses (r : Added) : Prop where
  waits : r.buf.waitPdu = true
  max : r.buf.max = dvbMaxSectionBytes
  status : r.status < 0

theorem sectionBufAdd_cases (h : Unfinished data) (frag : List UInt8) :
    ((sectionBufAdd (.holding false data) frag).status = errRange ∧
        (sectionBufAdd (.holding false data) frag).buf.max = dvbMaxSectionBytes ∧
        (sectionBufAdd (.holding false data) frag).used = frag.length) ∨
      ∃ k chunk rest, Collects data frag (sectionBufAdd (.holding false data) frag) [] k chunk rest := by
  -- behind the padding, where the header is grabbed
  have hgrab : ∀ k body, (data ≠ [] → k = 0) → frag = List.replicate k sectionPad ++ body →
      sectionBufAdd (.holding false data) frag = sectionBufGrab (.holding false data) body k →
      ((sectionBufAdd (.holding false data) frag).status = errRange ∧
          (sectionBufAdd (.holding false data) frag).buf.max = dvbMaxSectionBytes ∧
          (sectionBufAdd (.holding false data) frag).used = frag.length) ∨
        ∃ k chunk rest, Collects data frag (sectionBufAdd (.holding false data) frag) [] k chunk rest := by
    intro k body hk hfrag hadd
    rw [hadd]
    rcases h.append_cases body with hmore | hmore | ⟨fst,snd,rfl,hsec⟩
    · rw [sectionBufGrab_unfinished false k h hmore]
      refine .inr ⟨k,body,[],by rw [hfrag,append_nil]; rfl,rfl,?_,hk,.inl ⟨rfl,hmore,rfl⟩⟩
      rw [length_nil,Nat.zero_add]
    · obtain ⟨hmax,hused,hstatus⟩ := sectionBufGrab_oversize false k h hmore
      refine .inl ⟨hstatus,hmax,?_⟩
      rw [hused,hfrag,length_append,length_replicate]
    · rw [sectionBufGrab_section false k h hsec snd]
      refine .inr ⟨k,fst,snd,hfrag,rfl,?_,hk,.inr ⟨rfl,hsec⟩⟩
      rw [length_nil,Nat.zero_add]
  by_cases hdata : data = []
  · subst hdata
    obtain ⟨k,rfl | ⟨b,body,hb,rfl⟩⟩ := exists_padding frag
    · rw [sectionBufAdd_padding]
      exact .inr ⟨k,[],[],by simp,rfl,by simp,fun hne => absurd rfl hne,.inl ⟨rfl,h,rfl⟩⟩
    · exact hgrab k (b :: body) (fun hne => absurd rfl hne) rfl (sectionBufAdd_start false k hb body)
  · exact hgrab 0 frag (fun _ => rfl) rfl (sectionBufAdd_middle false h hdata frag)

theorem errRange_neg : errRange < 0 := by decide

theorem Unfinished.not_isSection (h : Unfinished data) : ¬ IsSection data := by
  rintro ⟨h3,hann,-⟩
  rcases h with h | ⟨h,-⟩ <;> omega

variable {payload : List UInt8}

theorem Collects.length_eq {pre chunk rest : List UInt8} {r : Added} {k : Nat}
    (h : Collects data payload r pre k chunk rest) : payload.length = r.used + rest.length := by
  rw [h.split,h.used]
  simp only [length_append,length_replicate]
  omega

theorem Collects.used_pos {pre chunk rest : List UInt8} {r : Added} {k : Nat}
    (h : Collects data payload r pre k chunk rest) (hdata : Unfinished data) (hne : payload ≠ []) :
    0 < r.used := by
  have hlen : payload.length = r.used + rest.length := h.length_eq
  have hpos : 0 < payload.length := length_pos_iff.mpr hne
  rcases h.outcome with ⟨-,-,hrest⟩ | ⟨-,hsec⟩
  · rw [hrest,length_nil] at hlen
    omega
  · by_contra hzero
    have hused : r.used = pre.length + (k + chunk.length) := h.used
    have hchunk : chunk = [] := length_eq_zero_iff.mp (by omega)
    rw [hchunk,append_nil] at hsec
    exact hdata.not_isSection hsec

theorem addBehind_cases (h : Unfinished data) {used : Nat} (hle : used ≤ payload.length) :
    let r := sectionBufAddBehind (.holding false data) payload used
    (Refuses r ∧ r.used = payload.length) ∨
      ∃ k chunk rest, Collects data payload r (payload.take used) k chunk rest := by
  rcases sectionBufAdd_cases h (payload.drop used) with ⟨hstatus,hmax,hused⟩ | ⟨k,chunk,rest,hc⟩
  · have hneg : (sectionBufAdd (.holding false data) (payload.drop used)).status < 0 := by
      rw [hstatus]
      exact errRange_neg
    simp only [sectionBufAddBehind,if_pos hneg,hused,length_drop]
    exact .inl ⟨⟨rfl,hmax,hneg⟩,by omega⟩
  · have hnonneg : ¬ (sectionBufAdd (.holding false data) (payload.drop used)).status < 0 := by
      rcases hc.outcome with ⟨hs,-⟩ | ⟨hs,-⟩ <;> omega
    simp only [sectionBufAddBehind,if_neg hnonneg]
    refine .inr ⟨k,chunk,rest,⟨?_,hc.buf,?_,hc.unpadded,hc.outcome⟩⟩
    · have hsplit : payload.drop used = [] ++ (List.replicate k sectionPad ++ (chunk ++ rest)) := hc.split
      rw [nil_append] at hsplit
      rw [← hsplit,take_append_drop]
    · rw [hc.used,length_take_of_le hle,length_nil,Nat.zero_add]

theorem addTransportPayload_dropped (h : Unfinished data) (payload : List UInt8) :
    sectionBufAddTransportPayload (.holding true data) payload false =
      ⟨.holding true data, payload.length, 0⟩ := by
  rw [sectionBufAddTransportPayload,h.finished_eq]
  simp

theorem addTransportPayload_middle (h : Unfinished data) (payload : List UInt8) :
    sectionBufAddTransportPayload (.holding false data) payload false =
      sectionBufAddBehind (.holding false data) payload 0 := by
  rw [sectionBufAddTransportPayload,h.finished_eq]
  simp

variable {pointer : UInt8}

theorem addTransportPayload_beyond (h : Unfinished data) (w : Bool) (hp : payload.length < pointer.toNat) :
    sectionBufAddTransportPayload (.holding w data) (pointer :: payload) true =
      ⟨.holding true data, payload.length + 1, errInval⟩ := by
  rw [sectionBufAddTransportPayload,h.finished_eq]
  simp [hp]

theorem addTransportPayload_start (w : Bool) (hp : pointer.toNat ≤ payload.length) :
    sectionBufAddTransportPayload (.holding w []) (pointer :: payload) true =
      sectionBufAddBehind (.holding false []) (pointer :: payload) (1 + pointer.toNat) := by
  rw [sectionBufAddTransportPayload,unfinished_nil.finished_eq]
  simp [Nat.not_lt.mpr hp]

theorem addTransportPayload_final (h : Unfinished data) (hne : data ≠ []) (w : Bool) (hp : pointer.toNat ≤ payload.length) :
    sectionBufAddTransportPayload (.holding w data) (pointer :: payload) true =
      let r := sectionBufAdd (.holding false data) (payload.take pointer.toNat)
      if r.used ≠ pointer.toNat ∨ sectionBufRemaining r.buf ≠ 0 ∨ r.status ≠ 1 then
        ⟨r.buf.setWait true, 1 + r.used, errRange⟩
      else ⟨r.buf, 1 + r.used, r.status⟩ := by
  rw [sectionBufAddTransportPayload,h.finished_eq]
  simp [Nat.not_lt.mpr hp,hne]

theorem addTransportPayload_final_cases (h : Unfinished data) (hne : data ≠ []) (w : Bool) (hp : pointer.toNat ≤ payload.length) :
    let r := sectionBufAddTransportPayload (.holding w data) (pointer :: payload) true
    (Refuses r ∧ 0 < r.used ∧ r.used ≤ payload.length + 1) ∨
      ∃ k chunk rest, Collects data (pointer :: payload) r [pointer] k chunk rest := by
  have hlen : (payload.take pointer.toNat).length = pointer.toNat := length_take_of_le hp
  have hcases := sectionBufAdd_cases h (payload.take pointer.toNat)
  rw [addTransportPayload_final h hne w hp]
  generalize hr : sectionBufAdd (.holding false data) (payload.take pointer.toNat) = r at hcases ⊢
  by_cases hbad : r.used ≠ pointer.toNat ∨ sectionBufRemaining r.buf ≠ 0 ∨ r.status ≠ 1
  · have hkept : r.buf.max = dvbMaxSectionBytes ∧ r.used ≤ pointer.toNat := by
      rcases hcases with ⟨-,hmax,hused⟩ | ⟨k,chunk,rest,hc⟩
      · exact ⟨hmax,by omega⟩
      · have hsum : (payload.take pointer.toNat).length = r.used + rest.length := hc.length_eq
        rw [hc.buf]
        exact ⟨rfl,by omega⟩
    simp only [if_pos hbad]
    exact .inl ⟨⟨rfl,hkept.1,errRange_neg⟩,by omega,by omega⟩
  · have hgood : r.used = pointer.toNat ∧ sectionBufRemaining r.buf = 0 ∧ r.status = 1 := by
      simpa only [not_or,not_not] using hbad
    obtain ⟨hused,-,hstatus⟩ := hgood
    simp only [if_neg hbad]
    rcases hcases with ⟨hs,-,-⟩ | ⟨k,chunk,rest,hc⟩
    · rw [hs] at hstatus
      exact absurd hstatus (by decide)
    · -- nothing of the fragment is left
      have hsum : (payload.take pointer.toNat).length = r.used + rest.length := hc.length_eq
      have hrest : rest = [] := length_eq_zero_iff.mp (by omega)
      have hsplit : payload.take pointer.toNat = [] ++ (List.replicate k sectionPad ++ (chunk ++ rest)) := hc.split
      rw [hrest,append_nil,nil_append] at hsplit
      refine .inr ⟨k,chunk,payload.drop pointer.toNat,⟨?_,hc.buf,?_,hc.unpadded,?_⟩⟩
      · rw [← append_assoc (List.replicate k sectionPad),← hsplit,take_append_drop]
        rfl
      · rw [hc.used]
        simp
      · rcases hc.outcome with ⟨hzero,-⟩ | hone
        · omega
        · exact .inr hone

/-- The bytes left out in front of what is collected: the pointer field of a unit start, with the bytes it
announces if no section is open. -/
def SkipsTo (data payload : List UInt8) (pduStart : Bool) (pre : List UInt8) : Prop :=
  pre.length = if pduStart then (if data = [] then 1 + (payload.headD 0).toNat else 1) else 0

theorem addTransportPayload_cases (h : Unfinished data) {w pduStart : Bool} (hactive : w = true → pduStart = true) (hne : payload ≠ []) :
    let r := sectionBufAddTransportPayload (.holding w data) payload pduStart
    (Refuses r ∧ 0 < r.used ∧ r.used ≤ payload.length) ∨
      ∃ pre k chunk rest, SkipsTo data payload pduStart pre ∧ Collects data payload r pre k chunk rest := by
  have hpos : 0 < payload.length := length_pos_iff.mpr hne
  cases pduStart with
  | false =>
    obtain rfl : w = false := Bool.eq_false_iff.mpr fun hw => Bool.false_ne_true (hactive hw)
    rw [addTransportPayload_middle h payload]
    rcases addBehind_cases h (Nat.zero_le payload.length) with ⟨href,hused⟩ | ⟨k,chunk,rest,hc⟩
    · exact .inl ⟨href,by rw [hused]; exact hpos,hused.le⟩
    · exact .inr ⟨_,k,chunk,rest,length_nil,hc⟩
  | true =>
    obtain ⟨pointer,payload,rfl⟩ := exists_cons_of_ne_nil hne
    by_cases hp : pointer.toNat ≤ payload.length
    · by_cases hdata : data = []
      · subst hdata
        have hle : 1 + pointer.toNat ≤ (pointer :: payload).length := by
          rw [length_cons]
          omega
        rw [addTransportPayload_start w hp]
        rcases addBehind_cases unfinished_nil hle with ⟨href,hused⟩ | ⟨k,chunk,rest,hc⟩
        · exact .inl ⟨href,by rw [hused]; exact hpos,hused.le⟩
        · exact .inr ⟨_,k,chunk,rest,length_take_of_le hle,hc⟩
      · rcases addTransportPayload_final_cases h hdata w hp with href | ⟨k,chunk,rest,hc⟩
        · exact .inl href
        · exact .inr ⟨_,k,chunk,rest,by simp [SkipsTo,hdata],hc⟩
    · rw [addTransportPayload_beyond h w (Nat.not_le.mp hp)]
      have hneg : errInval < 0 := by decide
      exact .inl ⟨⟨rfl,rfl,hneg⟩,Nat.succ_pos _,Nat.le_refl _⟩

end Transport

end LinuxDvb.Ucsi
