import LinuxDvb.Framework.Trace
import LinuxDvb.LibUcsi.SectionBuf

/-!
# Section buffers and fragmentation

A byte string is given to a section buffer in chunks. What a call does not use is given to the next one, and the
buffer is reset when it holds a section.
-/

namespace LinuxDvb.Ucsi

/-- A whole section of at most `max` bytes, which is no padding. -/
structure IsSectionIn (max : Nat) (data : List UInt8) : Prop where
  header : sectionHdrSize ≤ data.length
  announced : announcedLen data = data.length
  fits : data.length ≤ max
  first : data.head? ≠ some sectionPad

/-- The header announces more than `max` bytes. -/
def OversizeIn (max : Nat) (data : List UInt8) : Prop :=
  sectionHdrSize ≤ data.length ∧ max < announcedLen data

/-- What the bytes given to a buffer were made of: the sections that were completed, the buffer, and whether it
reported `-ERANGE` in the end. -/
structure Fed where
  sections : List (List UInt8)
  buf : SectionBuf
  overflow : Bool

/-- A chunk is given to `section_buf_add` until it is used up. -/
def feed : Nat → SectionBuf → List UInt8 → Option Fed
  | 0, _, _ => none
  | fuel + 1, buf, chunk =>
    let r := sectionBufAdd buf chunk
    if r.status < 0 then some ⟨[], r.buf, true⟩
    else
      let sections := if r.status = 1 then [r.buf.data] else []
      let next := if r.status = 1 then sectionBufReset r.buf else r.buf
      if chunk.drop r.used = [] then some ⟨sections, next, false⟩
      else (feed fuel next (chunk.drop r.used)).map fun fed => { fed with sections := sections ++ fed.sections }

/-- The chunks are given to the buffer one after another, up to the first `-ERANGE`. -/
def feedChunks : SectionBuf → List (List UInt8) → Option Fed
  | buf, [] => some ⟨[], buf, false⟩
  | buf, chunk :: chunks => do
    let fed ← feed (chunk.length + 1) buf chunk
    if fed.overflow then return fed
    let rest ← feedChunks fed.buf chunks
    return { rest with sections := fed.sections ++ rest.sections }

def byteChunks (bytes : List UInt8) : List (List UInt8) := bytes.map fun b => [b]

/-! ### The bytes one by one -/

/-- What a byte does to the bytes collected before it; `none` is behind a header that announced too much. -/
def byteStep (max : Nat) : Option (List UInt8) → UInt8 → Option (List UInt8) × List (List UInt8)
  | none, _ => (none, [])
  | some data, b =>
    if data = [] ∧ b = sectionPad then (some [], [])
    else if (data ++ [b]).length < sectionHdrSize then (some (data ++ [b]), [])
    else if max < announcedLen (data ++ [b]) then (none, [])
    else if announcedLen (data ++ [b]) = (data ++ [b]).length then (some [], [data ++ [b]])
    else (some (data ++ [b]), [])

/-- The bytes are sections with padding in front of them, and a rest behind padding. -/
inductive Splits (max : Nat) : List UInt8 → List (List UInt8) → List UInt8 → Prop
  | rest (k : Nat) {rest : List UInt8} (hrest : rest.head? ≠ some sectionPad) :
      Splits max (List.replicate k sectionPad ++ rest) [] rest
  | cons (k : Nat) {data bytes rest : List UInt8} {sections : List (List UInt8)} (hdata : IsSectionIn max data)
      (hbytes : Splits max bytes sections rest) :
      Splits max (List.replicate k sectionPad ++ (data ++ bytes)) (data :: sections) rest

section Bytes

variable {max : Nat} {data : List UInt8} {b : UInt8}

inductive ByteStep (max : Nat) (data : List UInt8) (b : UInt8) : Option (List UInt8) × List (List UInt8) → Prop
  | more (h : UnfinishedIn max (data ++ [b])) : ByteStep max data b (some (data ++ [b]), [])
  | overflow (hlen : data.length + 1 = sectionHdrSize) (h : OversizeIn max (data ++ [b])) :
      ByteStep max data b (none, [])
  | complete (hlen : sectionHdrSize ≤ (data ++ [b]).length) (hann : announcedLen (data ++ [b]) = (data ++ [b]).length)
      (hmax : (data ++ [b]).length ≤ max) : ByteStep max data b (some [], [data ++ [b]])

theorem byteStep_cases (h : UnfinishedIn max data) (hb : ¬ (data = [] ∧ b = sectionPad)) :
    ByteStep max data b (byteStep max (some data) b) := by
  have hlen : (data ++ [b]).length = data.length + 1 := length_append
  rw [byteStep,if_neg hb]
  split
  · next hshort => exact .more (.inl hshort)
  · next hshort =>
    split
    · next hmax =>
      refine .overflow ?_ ⟨Nat.not_lt.mp hshort,hmax⟩
      rcases h with hdata | ⟨-,hfits⟩
      · omega
      · by_cases h3 : sectionHdrSize ≤ data.length
        · rw [announcedLen_append h3] at hmax
          exact absurd hfits (Nat.not_le.mpr hmax)
        · omega
    · next hmax =>
      split
      · next hann => exact .complete (Nat.not_lt.mp hshort) hann (hann ▸ Nat.not_lt.mp hmax)
      · next hann =>
        refine .more (.inr ⟨Nat.lt_of_le_of_ne ?_ (Ne.symm hann),Nat.not_lt.mp hmax⟩)
        have hge := announcedLen_ge (data ++ [b])
        by_cases h3 : sectionHdrSize ≤ data.length
        · rw [announcedLen_append h3,hlen]
          exact (h.resolve_left (Nat.not_lt.mpr h3)).1
        · omega

variable (w : Bool) (used : Nat) (body : List UInt8)

theorem grab_more (h : UnfinishedIn max data) (hmore : UnfinishedIn max (data ++ [b])) :
    sectionBufGrab (.collecting max w data) (b :: body) used =
      sectionBufGrab (.collecting max w (data ++ [b])) body (used + 1) := by
  have happend : data ++ b :: body = (data ++ [b]) ++ body := by rw [append_assoc]; rfl
  have hlen : (data ++ [b]).length = data.length + 1 := length_append
  have hge : sectionHdrSize ≤ announcedLen ((data ++ [b]) ++ body) := announcedLen_ge _
  have hbody : (b :: body).length = body.length + 1 := length_cons
  -- the section goes on behind the byte, so the header behind it is the one that counts
  have hann : data.length + 1 < announcedLen ((data ++ [b]) ++ body) := by
    by_cases h3 : sectionHdrSize ≤ (data ++ [b]).length
    · rw [announcedLen_append h3,← hlen]
      exact (hmore.resolve_left (Nat.not_lt.mpr h3)).1
    · omega
  have hsame : (data.length < sectionHdrSize ∧ max < announcedLen ((data ++ [b]) ++ body)) ↔
      ((data ++ [b]).length < sectionHdrSize ∧ max < announcedLen ((data ++ [b]) ++ body)) := by
    refine and_congr_left fun hover => ⟨fun _ => ?_,fun _ => by omega⟩
    by_contra h3
    rw [announcedLen_append (Nat.not_lt.mp h3)] at hover
    exact absurd (hmore.resolve_left h3).2 (Nat.not_le.mpr hover)
  have hused : used + (b :: body).length = used + 1 + body.length := by omega
  have hmin : used + min (announcedLen ((data ++ [b]) ++ body) - data.length) (b :: body).length =
      used + 1 + min (announcedLen ((data ++ [b]) ++ body) - (data ++ [b]).length) body.length := by omega
  rw [sectionBufGrab_collecting w used h,sectionBufGrab_collecting w (used + 1) hmore,happend,hused,hmin]
  simp only [hsame]

theorem grab_overflow (hlen : data.length + 1 = sectionHdrSize) (hover : OversizeIn max (data ++ [b])) :
    sectionBufGrab (.collecting max w data) (b :: body) used =
      ⟨{ SectionBuf.collecting max w (data ++ [b]) with header := false }, used + (body.length + 1), errRange⟩ := by
  have h : UnfinishedIn max data := .inl (by omega)
  have happend : data ++ b :: body = (data ++ [b]) ++ body := by rw [append_assoc]; rfl
  have hlen' : (data ++ [b]).length = sectionHdrSize := by rw [length_append]; exact hlen
  have htake : ((data ++ [b]) ++ body).take sectionHdrSize = data ++ [b] := take_left' hlen'
  have hlong : ¬ ((data ++ [b]) ++ body).length < sectionHdrSize := by
    rw [length_append]
    omega
  have hmax : max < announcedLen ((data ++ [b]) ++ body) := by
    rw [announcedLen_append hover.1]
    exact hover.2
  rw [sectionBufGrab_collecting w used h,happend,if_neg hlong,if_pos ⟨by omega,hmax⟩,htake,length_cons]

theorem grab_complete (h : UnfinishedIn max data) (hlen : sectionHdrSize ≤ (data ++ [b]).length)
    (hann : announcedLen (data ++ [b]) = (data ++ [b]).length) (hmax : (data ++ [b]).length ≤ max) :
    sectionBufGrab (.collecting max w data) (b :: body) used =
      ⟨.collecting max w (data ++ [b]), used + 1, 1⟩ := by
  have happend : data ++ b :: body = (data ++ [b]) ++ body := by rw [append_assoc]; rfl
  have hlen' : (data ++ [b]).length = data.length + 1 := length_append
  have hall : announcedLen ((data ++ [b]) ++ body) = (data ++ [b]).length := by rw [announcedLen_append hlen,hann]
  have hlong : (data ++ [b]).length ≤ ((data ++ [b]) ++ body).length := by
    simp only [length_append]
    omega
  have hfits : ¬ (data.length < sectionHdrSize ∧ max < announcedLen ((data ++ [b]) ++ body)) := by
    rw [hall]
    exact fun hover => absurd hover.2 (Nat.not_lt.mpr hmax)
  have hused : min ((data ++ [b]).length - data.length) (b :: body).length = 1 := by
    rw [hlen',length_cons]
    omega
  rw [sectionBufGrab_collecting w used h,happend,if_neg (by omega),if_neg hfits,hall,take_left,hused,
    if_pos hlong]

theorem grab_nil (h : UnfinishedIn max data) :
    sectionBufGrab (.collecting max w data) [] used = ⟨.collecting max w data, used, 0⟩ := by
  rw [sectionBufGrab_collecting w used h,append_nil]
  by_cases h3 : data.length < sectionHdrSize
  · rw [if_pos h3]
    rfl
  · obtain ⟨hlt,-⟩ := h.resolve_left h3
    rw [if_neg h3,if_neg fun hover => h3 hover.1,take_of_length_le hlt.le,if_neg (Nat.not_le.mpr hlt),
      length_nil,Nat.min_zero]
    rfl

end Bytes

/-! ### One call -/

/-- What a call takes of a chunk behind `n` bytes: all of it, all of it behind a header that announces too much, or
what ends a section. -/
inductive Takes (max : Nat) (w : Bool) (data body : List UInt8) (n : Nat) (r : Added) : Prop
  | all (data' : List UInt8) (hrun : runTrace (byteStep max) (some data) body = (some data', []))
      (h : UnfinishedIn max data') (hbuf : r.buf = .collecting max w data') (hused : r.used = n + body.length)
      (hstatus : r.status = 0)
  | overflow (hrun : runTrace (byteStep max) (some data) body = (none, [])) (hused : r.used = n + body.length)
      (hstatus : r.status = errRange)
  | complete (first rest whole : List UInt8) (hbody : body = first ++ rest) (hne : first ≠ [])
      (hrun : runTrace (byteStep max) (some data) first = (some [], [whole]))
      (hbuf : r.buf = .collecting max w whole) (hused : r.used = n + first.length) (hstatus : r.status = 1)

section Call

variable {max : Nat} {w : Bool} {data : List UInt8}

theorem run_overflow (max : Nat) (body : List UInt8) : runTrace (byteStep max) none body = (none, []) := by
  induction body with
  | nil => rfl
  | cons b body ih => rw [runTrace_cons,byteStep,ih]; rfl

theorem run_padding (max k : Nat) :
    runTrace (byteStep max) (some []) (List.replicate k sectionPad) = (some [], []) := by
  induction k with
  | zero => rfl
  | succ k ih =>
    have hstep : byteStep max (some []) sectionPad = (some [], []) := by
      rw [byteStep,if_pos ⟨rfl,rfl⟩]
    rw [List.replicate_succ,runTrace_cons,hstep,ih]
    rfl

theorem Takes.behind {pre body : List UInt8} {data' : List UInt8} {n : Nat} {r : Added}
    (hpre : runTrace (byteStep max) (some data) pre = (some data', []))
    (h : Takes max w data' body (n + pre.length) r) : Takes max w data (pre ++ body) n r := by
  have hlen : (pre ++ body).length = pre.length + body.length := length_append
  have hrun : ∀ bytes, runTrace (byteStep max) (some data) (pre ++ bytes) =
      runTrace (byteStep max) (some data') bytes := by
    intro bytes
    rw [runTrace_append,hpre]
    rfl
  cases h with
  | all whole hbody hmore hbuf hused hstatus =>
    exact .all whole ((hrun body).trans hbody) hmore hbuf (by omega) hstatus
  | overflow hbody hused hstatus => exact .overflow ((hrun body).trans hbody) (by omega) hstatus
  | complete first rest whole hbody hne hfirst hbuf hused hstatus =>
    refine .complete (pre ++ first) rest whole ?_ ?_ ((hrun first).trans hfirst) hbuf ?_ hstatus
    · rw [hbody,append_assoc]
    · exact List.append_ne_nil_of_right_ne_nil pre hne
    · rw [hused,length_append,Nat.add_assoc]

theorem grab_takes {body : List UInt8} (h : UnfinishedIn max data) (n : Nat)
    (hfirst : data = [] → body.head? ≠ some sectionPad) :
    Takes max w data body n (sectionBufGrab (.collecting max w data) body n) := by
  induction body generalizing data n with
  | nil =>
    rw [grab_nil w n h]
    exact .all data rfl h rfl rfl rfl
  | cons b body ih =>
    have hb : ¬ (data = [] ∧ b = sectionPad) := fun hpad => hfirst hpad.1 (congrArg some hpad.2)
    have hcases := byteStep_cases h hb
    generalize hstep : byteStep max (some data) b = outcome at hcases
    have hone : runTrace (byteStep max) (some data) [b] = outcome := by
      rw [runTrace_cons,hstep,runTrace_nil,append_nil]
    cases hcases with
    | more hmore =>
      rw [grab_more w n body h hmore]
      change Takes max w data ([b] ++ body) n _
      exact .behind hone (ih hmore (n + 1) fun hnil => absurd hnil (by simp))
    | overflow hlen hover =>
      rw [grab_overflow w n body hlen hover]
      refine .overflow ?_ rfl rfl
      rw [runTrace_cons,hstep,run_overflow]
      rfl
    | complete hlen hann hmax =>
      rw [grab_complete w n body h hlen hann hmax]
      exact .complete [b] body (data ++ [b]) rfl (cons_ne_nil b []) hone rfl rfl rfl

theorem add_takes (h : UnfinishedIn max data) (chunk : List UInt8) :
    Takes max w data chunk 0 (sectionBufAdd (.collecting max w data) chunk) := by
  by_cases hdata : data = []
  · subst hdata
    obtain ⟨k,rfl | ⟨b,body,hb,rfl⟩⟩ := exists_padding chunk
    · rw [sectionBufAdd_pads]
      refine .all [] (run_padding max k) h rfl ?_ rfl
      rw [length_replicate,Nat.zero_add]
    · rw [sectionBufAdd_starts w max k hb]
      refine .behind (run_padding max k) ?_
      rw [length_replicate,Nat.zero_add]
      exact grab_takes h k fun _ hpad => hb (some_inj.mp hpad)
  · rw [sectionBufAdd_continues w h hdata]
    exact grab_takes h 0 fun hnil => absurd hnil hdata

end Call

/-! ### A chunk -/

section Chunk

variable {max : Nat} {w : Bool} {data : List UInt8}

def Holds (max : Nat) (w : Bool) (buf : SectionBuf) : Option (List UInt8) → Prop
  | none => True
  | some data => buf = .collecting max w data ∧ UnfinishedIn max data

theorem sectionBufReset_collecting (hmax : sectionHdrSize ≤ max) (whole : List UInt8) :
    sectionBufReset (.collecting max w whole) = .collecting max w [] := by
  have hinit : sectionBufInit max = some (.collecting max true []) := if_neg (Nat.not_lt.mpr hmax)
  unfold sectionBufReset
  simp only [SectionBuf.collecting] at hinit ⊢
  rw [hinit]

theorem feed_run (hmax : sectionHdrSize ≤ max) (h : UnfinishedIn max data) {fuel : Nat} {chunk : List UInt8}
    (hfuel : chunk.length < fuel) :
    ∃ buf, feed fuel (.collecting max w data) chunk =
        some ⟨(runTrace (byteStep max) (some data) chunk).2, buf,
          (runTrace (byteStep max) (some data) chunk).1.isNone⟩ ∧
      Holds max w buf (runTrace (byteStep max) (some data) chunk).1 := by
  induction fuel generalizing data chunk with
  | zero => exact absurd hfuel (Nat.not_lt_zero _)
  | succ fuel ih =>
    have htakes := add_takes (w := w) h chunk
    rw [feed]
    generalize sectionBufAdd (.collecting max w data) chunk = r at htakes ⊢
    cases htakes with
    | all data' hrun hmore hbuf hused hstatus =>
      have hdrop : chunk.drop r.used = [] := by rw [hused,Nat.zero_add,List.drop_length]
      refine ⟨r.buf,?_,?_⟩
      · simp only [hstatus,hdrop,hrun,Int.lt_irrefl,if_false,if_true,Int.zero_ne_one]
        rfl
      · rw [hrun]
        exact ⟨hbuf,hmore⟩
    | overflow hrun hused hstatus =>
      refine ⟨r.buf,?_,?_⟩
      · simp only [hstatus,hrun,errRange_neg,if_true]
        rfl
      · rw [hrun]
        trivial
    | complete first rest whole hbody hne hrun hbuf hused hstatus =>
      have hdrop : chunk.drop r.used = rest := by rw [hused,hbody,Nat.zero_add,drop_left]
      have hpos : 0 < first.length := length_pos_iff.mpr hne
      have hshort : rest.length < fuel := by
        have hlen : chunk.length = first.length + rest.length := by rw [hbody,length_append]
        omega
      have hall : runTrace (byteStep max) (some data) chunk =
          ((runTrace (byteStep max) (some []) rest).1, whole :: (runTrace (byteStep max) (some []) rest).2) := by
        rw [hbody,runTrace_append,hrun]
        rfl
      have hnonneg : ¬ (1 : Int) < 0 := by decide
      simp only [hstatus,hdrop,hbuf,hnonneg,if_false,if_true,data_collecting,sectionBufReset_collecting hmax,
        hall]
      by_cases hrest : rest = []
      · subst hrest
        exact ⟨_,if_pos rfl,rfl,unfinishedIn_nil max⟩
      · obtain ⟨buf,hfeed,hholds⟩ := ih (unfinishedIn_nil max) hshort
        refine ⟨buf,?_,hholds⟩
        rw [if_neg hrest,hfeed]
        rfl

theorem feedChunks_run (hmax : sectionHdrSize ≤ max) (h : UnfinishedIn max data) (chunks : List (List UInt8)) :
    ∃ buf, feedChunks (.collecting max w data) chunks =
        some ⟨(runTrace (byteStep max) (some data) chunks.flatten).2, buf,
          (runTrace (byteStep max) (some data) chunks.flatten).1.isNone⟩ ∧
      Holds max w buf (runTrace (byteStep max) (some data) chunks.flatten).1 := by
  induction chunks generalizing data with
  | nil => exact ⟨_,rfl,rfl,h⟩
  | cons chunk chunks ih =>
    obtain ⟨buf,hfeed,hholds⟩ := feed_run (w := w) hmax h (Nat.lt_succ_self chunk.length)
    rw [feedChunks,flatten_cons,runTrace_append,hfeed]
    generalize runTrace (byteStep max) (some data) chunk = run at hholds ⊢
    obtain ⟨left,sections⟩ := run
    cases left with
    | none =>
      rw [run_overflow]
      exact ⟨buf,by simp,trivial⟩
    | some data' =>
      obtain ⟨rfl,hmore⟩ := hholds
      obtain ⟨buf',hfeed',hholds'⟩ := ih hmore
      refine ⟨buf',?_,hholds'⟩
      simp only [bind_eq_bind,bind_some,Option.isNone_some,Bool.false_eq_true,if_false,hfeed',
        pure_def]

end Chunk

/-! ### Sections and padding -/

section Split

variable {max : Nat} {data : List UInt8}

theorem Splits.pad {bytes rest : List UInt8} {sections : List (List UInt8)} (h : Splits max bytes sections rest) :
    Splits max (sectionPad :: bytes) sections rest := by
  cases h with
  | rest k hrest => exact .rest (k + 1) hrest
  | cons k hdata hbytes => exact .cons (k + 1) hdata hbytes

theorem OversizeIn.append (h : OversizeIn max data) (more : List UInt8) : OversizeIn max (data ++ more) := by
  obtain ⟨h3,hover⟩ := h
  refine ⟨?_,?_⟩
  · rw [length_append]
    omega
  · rwa [announcedLen_append h3]

theorem run_splits (h : UnfinishedIn max data) (hfirst : data.head? ≠ some sectionPad) (bytes : List UInt8) :
    ∃ rest, Splits max (data ++ bytes) (runTrace (byteStep max) (some data) bytes).2 rest ∧
      ((runTrace (byteStep max) (some data) bytes).1.isNone = true → OversizeIn max rest) ∧
      ((runTrace (byteStep max) (some data) bytes).1.isNone = false → UnfinishedIn max rest) := by
  induction bytes generalizing data with
  | nil =>
    refine ⟨data,?_,fun hnone => (by cases hnone),fun _ => h⟩
    rw [append_nil]
    exact .rest 0 hfirst
  | cons b bytes ih =>
    rw [runTrace_cons]
    by_cases hpad : data = [] ∧ b = sectionPad
    · obtain ⟨rfl,rfl⟩ := hpad
      have hstep : byteStep max (some []) sectionPad = (some [], []) := by rw [byteStep,if_pos ⟨rfl,rfl⟩]
      rw [hstep]
      obtain ⟨rest,hsplits,hends⟩ := ih h hfirst
      exact ⟨rest,hsplits.pad,hends⟩
    · have hhead : (data ++ [b]).head? ≠ some sectionPad := by
        cases data with
        | nil => exact fun hb => hpad ⟨rfl,some_inj.mp hb⟩
        | cons a data => exact hfirst
      have happend : data ++ b :: bytes = (data ++ [b]) ++ bytes := by rw [append_assoc]; rfl
      have hcases := byteStep_cases h hpad
      generalize byteStep max (some data) b = outcome at hcases ⊢
      rw [happend]
      cases hcases with
      | more hmore => exact ih hmore hhead
      | overflow _ hover =>
        have hhead' : ((data ++ [b]) ++ bytes).head? ≠ some sectionPad := by
          rwa [List.head?_append_of_ne_nil _ (by simp)]
        rw [run_overflow]
        exact ⟨(data ++ [b]) ++ bytes,.rest 0 hhead',fun _ => hover.append bytes,fun hnone => by cases hnone⟩
      | complete hlen hann hmax =>
        obtain ⟨rest,hsplits,hends⟩ := ih (unfinishedIn_nil max) (by simp)
        exact ⟨rest,.cons 0 ⟨hlen,hann,hmax,hhead⟩ hsplits,hends⟩

theorem UnfinishedIn.not_oversizeIn (h : UnfinishedIn max data) : ¬ OversizeIn max data := by
  rintro ⟨h3,hover⟩
  rcases h with h | ⟨-,h⟩ <;> omega

end Split

/-! ### Any calls -/

/-- The buffers that calls can lead to, also with further fragments behind an error. -/
inductive Reaches (buf : SectionBuf) : SectionBuf → Prop
  | refl : Reaches buf buf
  | add {buf' : SectionBuf} (h : Reaches buf buf') (frag : List UInt8) : Reaches buf (sectionBufAdd buf' frag).buf
  | reset {buf' : SectionBuf} (h : Reaches buf buf') : Reaches buf (sectionBufReset buf')

structure Bounded (max : Nat) (buf : SectionBuf) : Prop where
  max_eq : buf.max = max
  header : buf.header = true → buf.count ≤ buf.len ∧ buf.len ≤ max
  short : buf.header = false → buf.count ≤ sectionHdrSize

section Bounds

variable {max : Nat} {buf : SectionBuf} (hmax : sectionHdrSize ≤ max)

include hmax

theorem Bounded.count_le (h : Bounded max buf) : buf.count ≤ max := by
  cases hheader : buf.header with
  | false => exact (h.short hheader).trans hmax
  | true => exact (h.header hheader).1.trans (h.header hheader).2

omit hmax in
theorem Bounded.accumulate (h : Bounded max buf) (hheader : buf.header = true) (frag : List UInt8) (used : Nat) :
    Bounded max (sectionBufAccumulate buf frag used).buf ∧
      (sectionBufAccumulate buf frag used).used ≤ used + frag.length := by
  obtain ⟨hcount, hlen⟩ := h.header hheader
  have hcopied : (buf.append (frag.take (min (buf.len - buf.count) frag.length))).count ≤ buf.len := by
    have hgrown : (buf.append (frag.take (min (buf.len - buf.count) frag.length))).count =
        buf.count + min (min (buf.len - buf.count) frag.length) frag.length := by
      rw [SectionBuf.count,SectionBuf.append,List.length_append,List.length_take,SectionBuf.count]
    omega
  refine ⟨⟨h.max_eq, fun _ => ⟨hcopied, hlen⟩, fun hfalse => ?_⟩, Nat.add_le_add_left (Nat.min_le_right _ _) used⟩
  rw [show (sectionBufAccumulate buf frag used).buf.header = buf.header from rfl,hheader] at hfalse
  cases hfalse

omit hmax in
theorem Bounded.grab (h : Bounded max buf) (frag : List UInt8) (used : Nat) :
    Bounded max (sectionBufGrab buf frag used).buf ∧ (sectionBufGrab buf frag used).used ≤ used + frag.length := by
  rw [sectionBufGrab]
  cases hheader : buf.header with
  | true => exact h.accumulate hheader frag used
  | false =>
    have hcount : buf.count ≤ sectionHdrSize := h.short hheader
    have hgrown : (buf.append (frag.take (min (sectionHdrSize - buf.count) frag.length))).count =
        buf.count + min (min (sectionHdrSize - buf.count) frag.length) frag.length := by
      rw [SectionBuf.count,SectionBuf.append,List.length_append,List.length_take,SectionBuf.count]
    have hshort : (buf.append (frag.take (min (sectionHdrSize - buf.count) frag.length))).count ≤ sectionHdrSize := by
      omega
    have hdrop : (frag.drop (min (sectionHdrSize - buf.count) frag.length)).length =
        frag.length - min (sectionHdrSize - buf.count) frag.length := List.length_drop
    have hstill : ∀ p : Prop, buf.header = true → p := fun _ htrue => by
      rw [hheader] at htrue
      cases htrue
    simp only [Bool.false_eq_true,if_false]
    split
    · refine ⟨⟨h.max_eq, hstill _, fun _ => hshort⟩, ?_⟩
      dsimp only
      omega
    · next hgrabbed =>
      split
      · refine ⟨⟨h.max_eq, hstill _, fun _ => hshort⟩, ?_⟩
        dsimp only
        omega
      · next hfits =>
        have hlen := announcedLen_ge (buf.append (frag.take (min (sectionHdrSize - buf.count) frag.length))).data
        have hmax' : (buf.append (frag.take (min (sectionHdrSize - buf.count) frag.length))).max = max := h.max_eq
        rw [hmax'] at hfits
        have hgrab : Bounded max
            { buf.append (frag.take (min (sectionHdrSize - buf.count) frag.length)) with
              len := announcedLen (buf.append (frag.take (min (sectionHdrSize - buf.count) frag.length))).data
              header := true } :=
          ⟨h.max_eq, fun _ => ⟨hshort.trans hlen, Nat.not_lt.mp hfits⟩, fun hfalse => by cases hfalse⟩
        obtain ⟨hbounded, hused⟩ := hgrab.accumulate rfl (frag.drop (min (sectionHdrSize - buf.count) frag.length))
          (used + min (sectionHdrSize - buf.count) frag.length)
        refine ⟨hbounded, hused.trans ?_⟩
        omega

omit hmax in
theorem Bounded.add (h : Bounded max buf) (frag : List UInt8) :
    Bounded max (sectionBufAdd buf frag).buf ∧ (sectionBufAdd buf frag).used ≤ frag.length := by
  have hpads := congrArg List.length (@List.takeWhile_append_dropWhile _ (· == sectionPad) frag)
  rw [List.length_append] at hpads
  rw [sectionBufAdd]
  split
  · exact ⟨h, Nat.zero_le _⟩
  · split
    · dsimp only
      split
      · refine ⟨h, ?_⟩
        dsimp only
        omega
      · obtain ⟨hbounded, hused⟩ := h.grab (frag.dropWhile (· == sectionPad))
          (frag.takeWhile (· == sectionPad)).length
        exact ⟨hbounded, by omega⟩
    · obtain ⟨hbounded, hused⟩ := h.grab frag 0
      exact ⟨hbounded, by omega⟩

theorem Bounded.reset (h : Bounded max buf) : Bounded max (sectionBufReset buf) := by
  have hinit : sectionBufInit buf.max =
      some { max := buf.max, len := sectionHdrSize, header := false, waitPdu := true, data := [] } :=
    if_neg (Nat.not_lt.mpr (h.max_eq.symm ▸ hmax))
  rw [sectionBufReset,hinit]
  exact ⟨h.max_eq,fun htrue => (by cases htrue),fun _ => Nat.zero_le _⟩

theorem Bounded.reaches {buf' : SectionBuf} (h : Bounded max buf) (hreach : Reaches buf buf') : Bounded max buf' := by
  induction hreach with
  | refl => exact h
  | add _ frag ih => exact (ih.add frag).1
  | reset _ ih => exact ih.reset hmax

end Bounds

/-- The sections that chunks make up: the buffer takes them as it takes the bytes one by one, with only padding
between the sections, until a header announces more than `max` bytes; and whatever the calls, no more than `max`
bytes are held, and no more are used than were given. -/
structure Reassembles (max : Nat) (buf : SectionBuf) (chunks : List (List UInt8)) (fed single : Fed)
    (rest : List UInt8) : Prop where
  fed_eq : feedChunks buf chunks = some fed
  single_eq : feedChunks buf (byteChunks chunks.flatten) = some single
  sections : fed.sections = single.sections ∧ fed.overflow = single.overflow
  splits : Splits max chunks.flatten fed.sections rest
  overflow : fed.overflow = true ↔ OversizeIn max rest
  bounded : ∀ buf', Reaches buf buf' → ∀ frag,
    (sectionBufAdd buf' frag).buf.count ≤ max ∧ (sectionBufAdd buf' frag).used ≤ frag.length

theorem flatten_byteChunks (bytes : List UInt8) : (byteChunks bytes).flatten = bytes := by
  induction bytes with
  | nil => rfl
  | cons b bytes ih => exact congrArg (b :: ·) ih

end LinuxDvb.Ucsi
