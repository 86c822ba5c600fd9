import LinuxDvb.DvbCore.Dmxdev.ReadSec

/-!
# Alignment of section reads

As long as no buffer error is pending, the buffer holds the rest of the section being read and the whole sections
behind it, and `todo` says where in its section the reader stands.
-/

namespace LinuxDvb.Dmxdev

open Ringbuffer Demux

/-! ## The buffer -/

section Buffer

variable {src : DvbRingbuffer}

theorem empty_iff_contents (h : src.Valid) : dvbRingbufferEmpty src = true ↔ src.contents = [] := by
  rw [← length_eq_zero_iff,length_contents]
  simp only [dvbRingbufferEmpty,decide_eq_true_eq]
  have hp := h.pread_lt
  have hw := h.pwrite_lt
  cases h.fill_cases with
  | inl hc => omega
  | inr hc => omega

theorem bufferReadTurn_spec (h : src.Valid) (herror : src.error ≠ 0 → src.contents = []) (count : Nat)
    (buf : List UInt8) :
    (bufferReadTurn src count buf = (src, buf, some (buf.length : Int)) ∧
        (count ≤ buf.length ∨ src.contents = [] ∧ buf ≠ [])) ∨
      (bufferReadTurn src count buf = (src, buf, some errAgain) ∧ buf = [] ∧ 0 < count ∧ src.contents = []) ∨
      (∃ src' bytes, bufferReadTurn src count buf = (src', buf ++ bytes, none) ∧ src'.Valid ∧
        src'.error = src.error ∧ src.error = 0 ∧ src.contents = bytes ++ src'.contents ∧
        buf.length + bytes.length ≤ count) := by
  unfold bufferReadTurn
  dsimp only
  by_cases hcount : count ≤ buf.length
  · left
    rw [if_pos hcount]
    refine ⟨?_,.inl hcount⟩
    cases buf <;> rfl
  rw [if_neg hcount]
  by_cases hempty : dvbRingbufferEmpty src = true
  · have hnil := (empty_iff_contents h).mp hempty
    rw [if_pos hempty]
    cases buf with
    | nil => exact .inr (.inl ⟨rfl,rfl,Nat.pos_of_ne_zero (by simpa using hcount),hnil⟩)
    | cons b buf => exact .inl ⟨rfl,.inr ⟨hnil,by simp⟩⟩
  · have hcontents : src.contents ≠ [] := fun hc => hempty ((empty_iff_contents h).mpr hc)
    have hzero : src.error = 0 := by
      by_contra hne
      exact hcontents (herror hne)
    rw [if_neg hempty,if_neg (not_not.mpr hzero)]
    have havail : (min (dvbRingbufferAvail src) (count - buf.length : Nat)).toNat =
        min src.fill (count - buf.length) := by
      rw [h.avail_eq]
      omega
    rw [havail,read_spec h (Nat.min_le_left _ _)]
    obtain ⟨hvalid,hdrop⟩ := skip_spec h (Nat.min_le_left src.fill (count - buf.length))
    refine .inr (.inr ⟨_,_,rfl,hvalid,rfl,hzero,?_,?_⟩)
    · rw [hdrop,take_append_drop]
    · rw [length_take,length_contents]
      omega

theorem callback_spec {r : SecReader} (h : r.buffer.Valid) (hdata : r.hasData = true)
    (herror : r.buffer.error = 0) {sec : List UInt8} (hsec : sec ≠ []) :
    (∃ buffer', r.callback sec = ({ r with buffer := buffer' }, [.delivered sec]) ∧ buffer'.Valid ∧
        buffer'.error = 0 ∧ buffer'.contents = r.buffer.contents ++ sec) ∨
      ∃ buffer', r.callback sec = ({ r with buffer := buffer' }, []) ∧ buffer'.Valid ∧
        buffer'.error = errOverflow ∧ buffer'.contents = [] := by
  have hlen : sec.length ≠ 0 := by simpa using hsec
  unfold SecReader.callback SecReader.store
  rw [if_neg (not_not.mpr herror),hdata]
  by_cases hfree : sec.length > dvbRingbufferFree r.buffer
  · right
    have hw : dvbDmxdevBufferWrite r.buffer true sec = (r.buffer, errOverflow) := by
      simp [dvbDmxdevBufferWrite,hlen,hfree]
    have hne : errOverflow ≠ sec.length := by
      unfold errOverflow
      omega
    obtain ⟨hvalid,hcontents⟩ := flush_spec h
    simp only [hw,if_neg hne,show errOverflow < 0 by decide,if_true]
    exact ⟨_,rfl,⟨hvalid.pread_lt,hvalid.pwrite_lt⟩,rfl,hcontents⟩
  · left
    have hfit : r.buffer.fill + sec.length < r.buffer.size := by
      rw [h.free_eq] at hfree
      omega
    have happ := write_appends h hfit
    have hw : dvbDmxdevBufferWrite r.buffer true sec = dvbRingbufferWrite r.buffer sec := by
      simp [dvbDmxdevBufferWrite,hlen,hfree]
    have hempty : ∀ buffer, dvbDmxdevBufferWrite buffer true [] = (buffer, 0) := fun _ => rfl
    simp only [hw,hempty,write_length,if_true,show ¬ (0 : Int) < 0 by decide,if_false]
    exact ⟨_,rfl,happ.valid,(write_error sec).trans herror,happ.contents_eq⟩

end Buffer

/-! ## Positions of the reader -/

section Unread

variable {u : Unread} {todo : Int} {secheader : Mem UInt8}

theorem Unread.rest_subset (u : Unread) : ∀ s ∈ u.rest, s ∈ u.queue := by
  intro s hs
  unfold Unread.rest at hs
  split at hs
  · exact List.mem_of_mem_tail hs
  · exact hs

theorem Unread.queue_of_line_nil (hqueue : ∀ s ∈ u.queue, IsSection s) (hline : u.line = []) :
    u.current = [] ∧ u.queue = [] := by
  unfold Unread.line at hline
  split at hline
  · rename_i hcurrent
    refine ⟨hcurrent,?_⟩
    cases hq : u.queue with
    | nil => rfl
    | cons s queue =>
      have hsec := (hqueue s (by simp [hq])).1
      rw [hq] at hline
      have : s = [] := hline
      simp [this] at hsec
  · rename_i hcurrent
    exact absurd hline hcurrent

theorem Unread.line_append_rest (u : Unread) : u.line ++ u.rest.flatten = u.current ++ u.queue.flatten := by
  unfold Unread.line Unread.rest
  by_cases hcurrent : u.current = []
  · rw [if_pos hcurrent,if_pos hcurrent,hcurrent]
    cases u.queue <;> rfl
  · rw [if_neg hcurrent,if_neg hcurrent]

theorem Unread.line_of_current (h : u.current ≠ []) : u.line = u.current := if_neg h

theorem Unread.line_delivered (sec : List UInt8) :
    (u.next (.delivered sec)).line = if u.current = [] ∧ u.queue = [] then sec else u.line := by
  by_cases hcurrent : u.current = []
  · cases hq : u.queue with
    | nil => simp [Unread.next,Unread.line,hcurrent,hq]
    | cons s queue => simp [Unread.next,Unread.line,hcurrent,hq]
  · simp [Unread.next,Unread.line,hcurrent]

/-- The reader stands in a header, `-todo` bytes of which it has. -/
def HeaderAt (todo : Int) (secheader : Mem UInt8) (u : Unread) : Prop :=
  ∃ h : Nat, h < 3 ∧ todo = -(h : Int) ∧ (u.current = [] ↔ h = 0) ∧
    (u.line ≠ [] → ∃ s, IsSection s ∧ u.line = s.drop h ∧ secheader.slice 0 h = s.take h)

/-- The reader has the header, and `done` of the bytes in line; `todo` bytes are left. -/
structure BodyAt (todo : Int) (done : List UInt8) (u : Unread) : Prop where
  nonneg : 0 ≤ todo
  length : (u.line.length : Int) = done.length + todo
  begun : done = [] → u.current ≠ []

theorem HeaderAt.fresh (secheader : Mem UInt8) (hqueue : ∀ s ∈ u.queue, IsSection s)
    (hcurrent : u.current = []) : HeaderAt 0 secheader u := by
  refine ⟨0,by decide,rfl,iff_of_true hcurrent rfl,?_⟩
  intro hline
  rw [Unread.line,if_pos hcurrent] at hline ⊢
  cases hq : u.queue with
  | nil => simp [hq] at hline
  | cons s queue => exact ⟨s,hqueue s (by simp [hq]),rfl,rfl⟩

theorem HeaderAt.delivered (h : HeaderAt todo secheader u) {sec : List UInt8} (hsec : IsSection sec) :
    HeaderAt todo secheader (u.next (.delivered sec)) := by
  obtain ⟨k,hk,htodo,hcurrent,hline⟩ := h
  refine ⟨k,hk,htodo,hcurrent,?_⟩
  rw [Unread.line_delivered]
  split
  · rename_i hnone
    intro _
    have hzero : k = 0 := hcurrent.mp hnone.1
    subst hzero
    exact ⟨sec,hsec,rfl,rfl⟩
  · exact hline

theorem BodyAt.delivered {done : List UInt8} (h : BodyAt todo done u) (hdone : done <+: u.line)
    (sec : List UInt8) : BodyAt todo done (u.next (.delivered sec)) := by
  have hline : (u.next (.delivered sec)).line = u.line := by
    rw [Unread.line_delivered]
    split
    · rename_i hnone
      have hnil : u.line = [] := by simp [Unread.line,hnone.1,hnone.2]
      rw [hnil,List.prefix_nil] at hdone
      exact absurd hnone.1 (h.begun hdone)
    · rfl
  exact ⟨h.nonneg,hline ▸ h.length,h.begun⟩

theorem bodyLength_of_header {sec : List UInt8} (hsec : IsSection sec)
    (h : secheader.slice 0 3 = sec.take 3) : bodyLength secheader = sec.length - 3 := by
  obtain ⟨hlen,-,hann⟩ := hsec
  match sec, hlen with
  | a :: b :: c :: tail, _ =>
    have hbytes : secheader 1 = b ∧ secheader 2 = c := by
      simp only [Mem.slice,List.take_succ_cons,List.take_zero,List.cons.injEq] at h
      exact ⟨h.2.1,h.2.2.1⟩
    have hlow : ((secheader 1).toNat <<< 8 ||| (secheader 2).toNat) &&& 0xfff =
        (b &&& 0x0f).toNat <<< 8 + c.toNat := by
      rw [hbytes.1,hbytes.2,← Nat.shiftLeft_add_eq_or_of_lt (UInt8.toNat_lt c),
        show (0xfff : Nat) = 2 ^ 12 - 1 from rfl,Nat.and_two_pow_sub_one_eq_mod,UInt8.toNat_and,
        show (0x0f : UInt8).toNat = 2 ^ 4 - 1 from rfl,Nat.and_two_pow_sub_one_eq_mod,
        Nat.shiftLeft_eq,Nat.shiftLeft_eq]
      have := UInt8.toNat_lt b
      have := UInt8.toNat_lt c
      omega
    have hsum : 3 + (b &&& 0x0f).toNat <<< 8 + c.toNat = (a :: b :: c :: tail).length := hann
    rw [bodyLength,hlow]
    omega

end Unread

/-! ## Steps of the reader -/

def SecReader.taken (r : SecReader) : List UInt8 :=
  match r.pos with
  | .idle => []
  | .headerEntry _ => []
  | .header _ _ buf => buf
  | .bodyEntry _ done => done
  | .body _ done buf => done ++ buf

def Place (r : SecReader) (u : Unread) : Prop :=
  match r.pos with
  | .idle => 0 < r.todo ∧ (u.current.length : Int) = r.todo ∨ HeaderAt r.todo r.secheader u
  | .headerEntry _ => HeaderAt r.todo r.secheader u
  | .header count hcount buf => HeaderAt r.todo r.secheader u ∧ hcount = min (3 + r.todo).toNat count ∧
      buf.length ≤ hcount
  | .bodyEntry _ done => BodyAt r.todo done u
  | .body count done buf => BodyAt r.todo done u ∧ (count : Int) ≤ r.todo ∧ buf.length ≤ count

structure Tracks (r : SecReader) (u : Unread) : Prop where
  valid : r.buffer.Valid
  hasData : r.hasData = true
  sections : ∀ s ∈ u.queue, IsSection s
  taken : r.taken <+: u.line
  healthy : r.buffer.error = 0 →
    r.taken ++ r.buffer.contents = u.current ++ u.queue.flatten ∧ Place r u
  overflown : r.buffer.error ≠ 0 → r.buffer.error = errOverflow ∧ r.buffer.contents = []

section Steps

variable {r : SecReader} {u : Unread}

theorem Tracks.deliver (h : Tracks r u) {sec : List UInt8} (hsec : IsSection sec) :
    Accepts Unread.next Unread.Continues u (r.callback sec).2 ∧
      Tracks (r.callback sec).1 ((r.callback sec).2.foldl Unread.next u) := by
  by_cases herror : r.buffer.error = 0
  swap
  · rw [SecReader.callback,if_pos herror]
    exact ⟨trivial,h⟩
  have hne : sec ≠ [] := by
    intro hnil
    have := hsec.1
    simp [hnil] at this
  obtain ⟨hcontents,hplace⟩ := h.healthy herror
  obtain ⟨buffer',heq,hvalid,herr,hc⟩ | ⟨buffer',heq,hvalid,herr,hc⟩ :=
    callback_spec h.valid h.hasData herror hne
  · rw [heq]
    refine ⟨⟨trivial,trivial⟩,hvalid,h.hasData,?_,?_,?_,fun hf => absurd herr hf⟩
    · intro s hs
      simp only [foldl_cons,foldl_nil,Unread.next,mem_append,mem_singleton] at hs
      cases hs with
      | inl hs => exact h.sections s hs
      | inr hs => exact hs ▸ hsec
    · change r.taken <+: (u.next (.delivered sec)).line
      rw [Unread.line_delivered]
      split
      · rename_i hnone
        have htaken := h.taken
        rw [show u.line = [] by simp [Unread.line, hnone.1, hnone.2],List.prefix_nil] at htaken
        rw [htaken]
        exact nil_prefix
      · exact h.taken
    · intro _
      refine ⟨?_,?_⟩
      · change r.taken ++ buffer'.contents = u.current ++ (u.queue ++ [sec]).flatten
        rw [hc,← append_assoc,hcontents]
        simp
      · change Place { r with buffer := buffer' } (u.next (.delivered sec))
        unfold Place at hplace ⊢
        have htaken := h.taken
        unfold SecReader.taken at htaken
        cases hpos : r.pos with
        | idle =>
          simp only [hpos] at hplace ⊢
          exact hplace.imp id fun hh => hh.delivered hsec
        | headerEntry count =>
          simp only [hpos] at hplace ⊢
          exact hplace.delivered hsec
        | header count hcount buf =>
          simp only [hpos] at hplace ⊢
          exact ⟨hplace.1.delivered hsec,hplace.2⟩
        | bodyEntry count done =>
          simp only [hpos] at hplace htaken ⊢
          exact hplace.delivered htaken sec
        | body count done buf =>
          simp only [hpos] at hplace htaken ⊢
          exact ⟨hplace.1.delivered ((prefix_append done buf).trans htaken) sec,hplace.2⟩
  · rw [heq]
    refine ⟨trivial,hvalid,h.hasData,h.sections,h.taken,?_,fun _ => ⟨herr,hc⟩⟩
    intro hzero
    rw [herr] at hzero
    cases hzero

variable {bytes : List UInt8}

theorem Unread.read_spec (hbytes : bytes <+: u.line) {contents : List UInt8}
    (hcontents : bytes ++ contents = u.current ++ u.queue.flatten) :
    contents = (u.next (.read bytes)).current ++ (u.next (.read bytes)).queue.flatten := by
  by_cases hnil : bytes = []
  · simpa [Unread.next,hnil] using hcontents
  · obtain ⟨tail,htail⟩ := hbytes
    rw [← Unread.line_append_rest,← htail,append_assoc] at hcontents
    simp only [Unread.next,hnil,if_false,← htail,drop_left]
    exact append_cancel_left hcontents

theorem Unread.read_sections (h : ∀ s ∈ u.queue, IsSection s) : ∀ s ∈ (u.next (.read bytes)).queue, IsSection s := by
  intro s hs
  by_cases hnil : bytes = []
  · simp only [Unread.next,hnil,if_true] at hs
    exact h s hs
  · simp only [Unread.next,hnil,if_false] at hs
    exact h s (u.rest_subset s hs)

theorem Tracks.returned (h : Tracks r u) (todo : Int) (secheader : Mem UInt8) (hplace : r.buffer.error = 0 →
      Place { r with todo := todo, secheader := secheader, pos := .idle } (u.next (.read r.taken))) :
    Accepts Unread.next Unread.Continues u [.read r.taken] ∧
      Tracks { r with todo := todo, secheader := secheader, pos := .idle } (u.next (.read r.taken)) := by
  refine ⟨⟨h.taken,trivial⟩,h.valid,h.hasData,Unread.read_sections h.sections, nil_prefix,?_,h.overflown⟩
  intro herror
  exact ⟨Unread.read_spec h.taken (h.healthy herror).1,hplace herror⟩

theorem place_idle (hpos : r.pos = .idle) (hsections : ∀ s ∈ u.queue, IsSection s)
    (hlen : (u.current.length : Int) = r.todo) : Place r u := by
  unfold Place
  rw [hpos]
  by_cases htodo : r.todo = 0
  · right
    rw [htodo] at hlen ⊢
    exact HeaderAt.fresh r.secheader hsections (length_eq_zero_iff.mp (by omega))
  · exact .inl ⟨by omega,hlen⟩

theorem Unread.current_read (h : bytes ≠ []) : (u.next (.read bytes)).current = u.line.drop bytes.length := by
  simp [Unread.next,h]

variable {buf : List UInt8}

theorem HeaderAt.advance {todo : Int} {secheader : Mem UInt8}
    (h : HeaderAt todo secheader u) (hbuf : buf <+: u.line) (htodo : todo - buf.length > -3) :
    HeaderAt (todo - buf.length) (secheader.write (-todo).toNat buf) (u.next (.read buf)) := by
  by_cases hnil : buf = []
  · simpa [hnil,Unread.next] using h
  obtain ⟨k,hk,rfl,-,hline⟩ := h
  obtain ⟨tail,htail⟩ := hbuf
  obtain ⟨sec,hsec,hdrop,hslice⟩ := hline (by rw [← htail]; simp [hnil])
  have hlen := hsec.1
  have hpos := List.length_pos_of_ne_nil hnil
  have hrest : u.line.drop buf.length = sec.drop (k + buf.length) := by rw [hdrop,drop_drop]
  have hnext : u.next (.read buf) = { current := sec.drop (k + buf.length), queue := u.rest } := by
    simp [Unread.next,hnil,hrest]
  have hne : sec.drop (k + buf.length) ≠ [] := by
    intro hd
    have := congrArg List.length hd
    simp only [length_drop,length_nil] at this
    omega
  rw [hnext]
  refine ⟨k + buf.length,by omega,by omega,iff_of_false hne (by omega),?_⟩
  intro _
  refine ⟨sec,hsec,Unread.line_of_current hne,?_⟩
  have htake : sec.take (k + buf.length) = sec.take k ++ buf := by
    rw [take_add,← hdrop,← htail,take_left]
  rw [htake,← hslice,show (-(-(k : Int))).toNat = 0 + k by omega]
  exact Mem.slice_write_append secheader 0 k buf

theorem HeaderAt.complete {todo : Int} {secheader : Mem UInt8}
    (h : HeaderAt todo secheader u) (hbuf : buf <+: u.line) (htodo : (buf.length : Int) = 3 + todo) :
    buf ≠ [] ∧
      u.line.length = buf.length + bodyLength (secheader.write (-todo).toNat buf) := by
  obtain ⟨k,hk,rfl,-,hline⟩ := h
  have hnil : buf ≠ [] := by
    intro hn
    simp only [hn,length_nil] at htodo
    omega
  refine ⟨hnil,?_⟩
  obtain ⟨tail,htail⟩ := hbuf
  obtain ⟨sec,hsec,hdrop,hslice⟩ := hline (by rw [← htail]; simp [hnil])
  have htake : sec.take 3 = sec.take k ++ buf := by
    rw [show 3 = k + buf.length by omega,take_add,← hdrop,← htail,take_left]
  have hheader : (secheader.write (-(-(k : Int))).toNat buf).slice 0 3 = sec.take 3 := by
    rw [htake,← hslice,show (-(-(k : Int))).toNat = 0 + k by omega,show 3 = k + buf.length by omega]
    exact Mem.slice_write_append secheader 0 k buf
  rw [bodyLength_of_header hsec hheader,hdrop,length_drop]
  have := hsec.1
  omega

variable {count : Nat}

theorem Tracks.header_done {hcount : Nat} (h : Tracks r u)
    (hpos : r.pos = .header count hcount buf) (hfull : r.buffer.error = 0 → buf.length = hcount) :
    Accepts Unread.next Unread.Continues u (r.headerResult count buf buf.length).2 ∧
      Tracks (r.headerResult count buf buf.length).1
        ((r.headerResult count buf buf.length).2.foldl Unread.next u) := by
  have htaken : r.taken = buf := by simp only [SecReader.taken,hpos]
  have hbuf : buf <+: u.line := htaken ▸ h.taken
  have hhead : r.buffer.error = 0 → HeaderAt r.todo r.secheader u ∧
      buf.length = min (3 + r.todo).toNat count := by
    intro herror
    have hplace := (h.healthy herror).2
    simp only [Place,hpos] at hplace
    exact ⟨hplace.1,(hfull herror).trans hplace.2.1⟩
  unfold SecReader.headerResult
  rw [if_neg (by omega)]
  dsimp only
  split
  · rename_i htodo
    have hret := h.returned (r.todo - buf.length) (r.secheader.write (-r.todo).toNat buf) ?_
    · rwa [htaken] at hret
    · intro herror
      rw [htaken]
      exact .inr ((hhead herror).1.advance hbuf htodo)
  · rename_i htodo
    have hdone : r.buffer.error = 0 → buf ≠ [] ∧
        u.line.length = buf.length + bodyLength (r.secheader.write (-r.todo).toNat buf) := by
      intro herror
      obtain ⟨hat,hlen⟩ := hhead herror
      refine hat.complete hbuf ?_
      obtain ⟨k,hk,hk',-⟩ := hat
      omega
    split
    · have hret := h.returned (bodyLength (r.secheader.write (-r.todo).toNat buf))
        (r.secheader.write (-r.todo).toNat buf) ?_
      · rwa [htaken] at hret
      · intro herror
        rw [htaken]
        obtain ⟨hne,hlen⟩ := hdone herror
        refine place_idle rfl (Unread.read_sections h.sections) ?_
        dsimp only
        rw [Unread.current_read hne,length_drop]
        omega
    · rw [foldl_nil]
      refine ⟨trivial,h.valid,h.hasData,h.sections,hbuf,?_,h.overflown⟩
      intro herror
      obtain ⟨hne,hlen⟩ := hdone herror
      refine ⟨?_,⟨by dsimp only; omega,by dsimp only; omega,fun hnil => absurd hnil hne⟩⟩
      exact htaken ▸ (h.healthy herror).1

variable {done : List UInt8}

theorem Tracks.body_done (h : Tracks r u) (hpos : r.pos = .body count done buf) :
    Accepts Unread.next Unread.Continues u (r.bodyResult done buf buf.length).2 ∧
      Tracks (r.bodyResult done buf buf.length).1
        ((r.bodyResult done buf buf.length).2.foldl Unread.next u) := by
  have htaken : r.taken = done ++ buf := by simp only [SecReader.taken,hpos]
  unfold SecReader.bodyResult
  rw [if_neg (by omega)]
  have hret := h.returned (r.todo - buf.length) r.secheader ?_
  · rwa [htaken] at hret
  · intro herror
    have hplace := (h.healthy herror).2
    simp only [Place,hpos] at hplace
    obtain ⟨hbody,hcount,hbuf⟩ := hplace
    have hlen := hbody.length
    refine place_idle rfl (Unread.read_sections h.sections) ?_
    rw [htaken]
    by_cases hnil : done ++ buf = []
    · obtain ⟨rfl,rfl⟩ := append_eq_nil_iff.mp hnil
      rw [Unread.line_of_current (hbody.begun rfl)] at hlen
      simpa [Unread.next] using hlen
    · rw [Unread.current_read hnil,length_drop,length_append]
      have := (htaken ▸ h.taken).length_le
      rw [length_append] at this
      dsimp only
      omega

theorem Tracks.cleared (h : Tracks r u) (herror : r.buffer.error ≠ 0) :
    Accepts Unread.next Unread.Continues u [.failed r.buffer.error] ∧
      Tracks { r with buffer := dvbRingbufferFlush r.buffer, todo := 0, pos := .idle }
        (u.next (.failed r.buffer.error)) := by
  obtain ⟨hvalid,hcontents⟩ := flush_spec h.valid
  rw [(h.overflown herror).1]
  refine ⟨⟨trivial,trivial⟩,hvalid,h.hasData,(fun s hs => nomatch hs), nil_prefix,?_,fun hf => absurd rfl hf⟩
  intro _
  refine ⟨hcontents,?_⟩
  exact place_idle rfl (fun s hs => (nomatch hs)) rfl

theorem Tracks.wouldBlock (h : Tracks r u) {todo : Int}
    (hplace : r.buffer.error = 0 → r.buffer.contents = u.current ++ u.queue.flatten ∧
      Place { r with todo := todo, pos := .idle } u) :
    Accepts Unread.next Unread.Continues u [.failed errAgain] ∧
      Tracks { r with todo := todo, pos := .idle } (u.next (.failed errAgain)) := by
  have hsame : u.next (.failed errAgain) = u := rfl
  rw [hsame]
  exact ⟨⟨trivial,trivial⟩,h.valid,h.hasData,h.sections, nil_prefix,hplace,h.overflown⟩

theorem Tracks.take (h : Tracks r u) {src' : DvbRingbuffer} {pos : ReadAt}
    (hvalid : src'.Valid) (herr : src'.error = r.buffer.error) (hzero : r.buffer.error = 0)
    (hcontents : r.buffer.contents = bytes ++ src'.contents)
    (htaken : ({ r with buffer := src', pos := pos } : SecReader).taken = r.taken ++ bytes)
    (hfits : r.taken ++ bytes <+: u.line) (hplace : Place { r with buffer := src', pos := pos } u) :
    Tracks { r with buffer := src', pos := pos } u := by
  refine ⟨hvalid,h.hasData,h.sections,htaken ▸ hfits,?_,fun hf => absurd (herr.trans hzero) hf⟩
  intro _
  refine ⟨?_,hplace⟩
  rw [htaken,append_assoc,← hcontents]
  exact (h.healthy hzero).1

theorem Tracks.continues (h : Tracks r u) {rest : List UInt8} (hzero : r.buffer.error = 0)
    (hcontents : r.buffer.contents = bytes ++ rest) (hlen : r.taken.length + bytes.length ≤ u.line.length) :
    r.taken ++ bytes <+: u.line := by
  have hall := (h.healthy hzero).1
  rw [hcontents,← Unread.line_append_rest,← append_assoc] at hall
  have hprefix : r.taken ++ bytes <+: u.line ++ u.rest.flatten := ⟨rest,hall⟩
  exact List.prefix_of_prefix_length_le hprefix (prefix_append _ _) (by simpa using hlen)

theorem Tracks.exhausted (h : Tracks r u) (hzero : r.buffer.error = 0) (hempty : r.buffer.contents = []) :
    r.taken = u.line ∧ u.rest.flatten = [] := by
  have hall := (h.healthy hzero).1
  rw [hempty,append_nil,← Unread.line_append_rest] at hall
  obtain ⟨tail,htail⟩ := h.taken
  rw [hall,append_assoc] at htail
  have hnil := append_cancel_left (htail.trans (append_nil _).symm)
  obtain ⟨hrest,-⟩ := append_eq_nil_iff.mp hnil
  exact ⟨by rw [hall,hrest,append_nil],hrest⟩

theorem bufferReadEntry_spec (h : Tracks r u) : bufferReadEntry r.buffer r.hasData =
      if r.buffer.error = 0 then (r.buffer, none) else (dvbRingbufferFlush r.buffer, some r.buffer.error) := by
  unfold bufferReadEntry
  rw [h.hasData]
  by_cases herror : r.buffer.error = 0 <;> simp [herror]

theorem Tracks.error_neg (h : Tracks r u) (herror : r.buffer.error ≠ 0) : r.buffer.error < 0 := by
  rw [(h.overflown herror).1]
  decide

theorem Tracks.resume_headerEntry (h : Tracks r u) (hpos : r.pos = .headerEntry count) :
    Accepts Unread.next Unread.Continues u r.resume.2 ∧
      Tracks r.resume.1 (r.resume.2.foldl Unread.next u) := by
  have hentry := bufferReadEntry_spec h
  by_cases herror : r.buffer.error = 0
  · rw [if_pos herror] at hentry
    have heq : r.resume = ({ r with pos := .header count (min (3 + r.todo).toNat count) [] }, []) := by
      simp only [SecReader.resume,hpos,hentry]
    obtain ⟨hcontents,hplace⟩ := h.healthy herror
    simp only [SecReader.taken,Place,hpos] at hcontents hplace
    rw [heq]
    refine ⟨trivial,h.valid,h.hasData,h.sections, nil_prefix,?_,fun hf => absurd herror hf⟩
    intro _
    exact ⟨hcontents,hplace,rfl,Nat.zero_le _⟩
  · rw [if_neg herror] at hentry
    have heq : r.resume = ({ r with buffer := dvbRingbufferFlush r.buffer, todo := 0, pos := .idle },
        [.failed r.buffer.error]) := by
      simp only [SecReader.resume,hpos,hentry,SecReader.headerResult,h.error_neg herror,if_true]
    rw [heq]
    exact h.cleared herror

theorem Tracks.resume_header {hcount : Nat} (h : Tracks r u) (hpos : r.pos = .header count hcount buf) :
    Accepts Unread.next Unread.Continues u r.resume.2 ∧
      Tracks r.resume.1 (r.resume.2.foldl Unread.next u) := by
  have htaken : r.taken = buf := by simp only [SecReader.taken,hpos]
  have hplace : r.buffer.error = 0 → HeaderAt r.todo r.secheader u ∧
      hcount = min (3 + r.todo).toNat count ∧ buf.length ≤ hcount := by
    intro herror
    have := (h.healthy herror).2
    simpa only [Place,hpos] using this
  -- a section in line is long enough for the rest of its header
  have hline : r.buffer.error = 0 → u.line ≠ [] → hcount ≤ u.line.length := by
    intro herror hne
    obtain ⟨⟨k,hk,htodo,-,hsec⟩,hmin,-⟩ := hplace herror
    obtain ⟨sec,hsec,hdrop,-⟩ := hsec hne
    have := hsec.1
    rw [hdrop,length_drop]
    omega
  obtain ⟨heq,hend⟩ | ⟨heq,hnil,hpositive,hempty⟩ |
      ⟨src',bytes,heq,hvalid,herr,hzero,hcontents,hlen⟩ :=
    bufferReadTurn_spec h.valid (fun he => (h.overflown he).2) hcount buf
  · have hresume : r.resume = r.headerResult count buf buf.length := by
      simp only [SecReader.resume,hpos,heq]
      rw [← hpos]
    rw [hresume]
    apply h.header_done hpos
    intro herror
    obtain ⟨-,-,hle⟩ := hplace herror
    cases hend with
    | inl hfull => omega
    | inr hend =>
      have hall := (h.exhausted herror hend.1).1
      rw [htaken] at hall
      have := hline herror (hall ▸ hend.2)
      rw [← hall] at this
      omega
  · have hresume : r.resume = ({ r with todo := 0, pos := .idle }, [.failed errAgain]) := by
      simp only [SecReader.resume,hpos,heq,SecReader.headerResult,show errAgain < 0 by decide,if_true]
    rw [hresume]
    apply h.wouldBlock
    intro herror
    obtain ⟨hall,hrest⟩ := h.exhausted herror hempty
    have hcurrent : u.current ++ u.queue.flatten = [] := by
      rw [← Unread.line_append_rest,← hall,htaken,hnil,hrest]
      rfl
    refine ⟨hempty.trans hcurrent.symm,place_idle rfl h.sections ?_⟩
    simp [(append_eq_nil_iff.mp hcurrent).1]
  · have hresume : r.resume = ({ r with buffer := src', pos := .header count hcount (buf ++ bytes) }, []) := by
      simp only [SecReader.resume,hpos,heq]
    rw [hresume]
    obtain ⟨hat,hmin,-⟩ := hplace hzero
    refine ⟨trivial,h.take hvalid herr hzero hcontents ?_ ?_ ⟨hat,hmin,?_⟩⟩
    · rw [htaken]
      rfl
    · apply h.continues hzero hcontents
      rw [htaken]
      by_cases hne : u.line = []
      · obtain ⟨hcurrent,hqueue⟩ := u.queue_of_line_nil h.sections hne
        have hall := (h.healthy hzero).1
        rw [hcontents,hcurrent,hqueue,htaken] at hall
        have := congrArg List.length hall
        simp only [length_append,flatten_nil,length_nil] at this
        omega
      · exact hlen.trans (hline hzero hne)
    · simpa using hlen

theorem Tracks.resume_bodyEntry (h : Tracks r u)
    (hpos : r.pos = .bodyEntry count done) (hok : r.buffer.error ≠ 0 → r.todo = 0) :
    Accepts Unread.next Unread.Continues u r.resume.2 ∧
      Tracks r.resume.1 (r.resume.2.foldl Unread.next u) := by
  have hentry := bufferReadEntry_spec h
  by_cases herror : r.buffer.error = 0
  · rw [if_pos herror] at hentry
    have heq : r.resume = ({ r with pos := .body (min count r.todo.toNat) done [] }, []) := by
      simp only [SecReader.resume,hpos,hentry]
    have htaken : r.taken = done ++ [] := by simp [SecReader.taken,hpos]
    have hprefix := h.taken
    obtain ⟨hcontents,hplace⟩ := h.healthy herror
    rw [htaken] at hprefix hcontents
    simp only [Place,hpos] at hplace
    have hnonneg := hplace.nonneg
    rw [heq]
    refine ⟨trivial,h.valid,h.hasData,h.sections, hprefix,?_,fun hf => absurd herror hf⟩
    intro _
    exact ⟨hcontents,hplace,by dsimp only; omega,Nat.zero_le _⟩
  · rw [if_neg herror] at hentry
    have htodo := hok herror
    have heq : r.resume = ({ r with buffer := dvbRingbufferFlush r.buffer, todo := 0, pos := .idle },
        [.failed r.buffer.error]) := by
      simp only [SecReader.resume,hpos,hentry,SecReader.bodyResult,h.error_neg herror,if_true,htodo]
    rw [heq]
    exact h.cleared herror

theorem Tracks.resume_body (h : Tracks r u) (hpos : r.pos = .body count done buf) :
    Accepts Unread.next Unread.Continues u r.resume.2 ∧
      Tracks r.resume.1 (r.resume.2.foldl Unread.next u) := by
  have htaken : r.taken = done ++ buf := by simp only [SecReader.taken,hpos]
  have hplace : r.buffer.error = 0 → BodyAt r.todo done u ∧ (count : Int) ≤ r.todo ∧ buf.length ≤ count := by
    intro herror
    have := (h.healthy herror).2
    simpa only [Place,hpos] using this
  obtain ⟨heq,-⟩ | ⟨heq,hnil,hpositive,hempty⟩ |
      ⟨src',bytes,heq,hvalid,herr,hzero,hcontents,hlen⟩ :=
    bufferReadTurn_spec h.valid (fun he => (h.overflown he).2) count buf
  · have hresume : r.resume = r.bodyResult done buf buf.length := by
      simp only [SecReader.resume,hpos,heq]
      rw [← hpos]
    rw [hresume]
    exact h.body_done hpos
  · have hresume : r.resume = ({ r with todo := r.todo, pos := .idle }, [.failed errAgain]) := by
      simp only [SecReader.resume,hpos,heq,SecReader.bodyResult,show errAgain < 0 by decide,if_true]
    rw [hresume]
    apply h.wouldBlock
    intro herror
    -- the bytes that are left of the section are still in the buffer
    obtain ⟨hbody,hcount,-⟩ := hplace herror
    have hlen := hbody.length
    rw [← (h.exhausted herror hempty).1,htaken,hnil,append_nil] at hlen
    omega
  · have hresume : r.resume = ({ r with buffer := src', pos := .body count done (buf ++ bytes) }, []) := by
      simp only [SecReader.resume,hpos,heq]
    rw [hresume]
    obtain ⟨hbody,hcount,-⟩ := hplace hzero
    have hline := hbody.length
    refine ⟨trivial,h.take hvalid herr hzero hcontents ?_ ?_ ⟨hbody,hcount,?_⟩⟩
    · rw [htaken,append_assoc]
      rfl
    · apply h.continues hzero hcontents
      rw [htaken,length_append]
      omega
    · simpa using hlen

theorem Tracks.step (h : Tracks r u) (i : ReadInput) (hok : NothingOutstanding r i) :
    Accepts Unread.next Unread.Continues u (readStep r i).2 ∧
      Tracks (readStep r i).1 ((readStep r i).2.foldl Unread.next u) := by
  cases i with
  | deliver sec hsec => exact h.deliver hsec
  | call count =>
    simp only [readStep]
    split
    · rename_i hpos
      have htaken : r.taken = [] := by simp only [SecReader.taken,hpos]
      by_cases htodo : r.todo ≤ 0
      · rw [if_pos htodo]
        refine ⟨trivial,h.valid,h.hasData,h.sections, nil_prefix,?_,h.overflown⟩
        intro herror
        obtain ⟨hcontents,hplace⟩ := h.healthy herror
        rw [htaken] at hcontents
        simp only [Place,hpos] at hplace
        refine ⟨hcontents,?_⟩
        cases hplace with
        | inl hbody => omega
        | inr hheader => exact hheader
      · rw [if_neg htodo]
        refine ⟨trivial,h.valid,h.hasData,h.sections, nil_prefix,?_,h.overflown⟩
        intro herror
        obtain ⟨hcontents,hplace⟩ := h.healthy herror
        rw [htaken] at hcontents
        simp only [Place,hpos] at hplace
        refine ⟨hcontents,?_⟩
        cases hplace with
        | inl hbody =>
          have hne : u.current ≠ [] := by
            intro hnil
            simp only [hnil,length_nil] at hbody
            omega
          refine ⟨by dsimp only; omega,?_,fun _ => hne⟩
          change ((u.line).length : Int) = _
          rw [Unread.line_of_current hne]
          simpa using hbody.2
        | inr hheader =>
          obtain ⟨k,-,hk,-⟩ := hheader
          omega
    · exact ⟨trivial,h⟩
  | resume =>
    cases hpos : r.pos with
    | idle =>
      have heq : readStep r .resume = (r, []) := by simp only [readStep,SecReader.resume,hpos]
      rw [heq]
      exact ⟨trivial,h⟩
    | headerEntry count => exact h.resume_headerEntry hpos
    | header count hcount buf => exact h.resume_header hpos
    | bodyEntry count done =>
      simp only [NothingOutstanding,hpos] at hok
      exact h.resume_bodyEntry hpos hok
    | body count done buf => exact h.resume_body hpos

end Steps

/-- Section alignment of reads, in every run in which a buffer error is not met while a part of a section
is still outstanding. -/
theorem readSec_aligned {data : Mem UInt8} {size : Nat} {secheader : Mem UInt8} {inputs : List ReadInput}
    (hsize : 1 ≤ size)
    (hok : StepsMeet readStep NothingOutstanding (.init data size secheader) inputs) :
    Aligned (runTrace readStep (.init data size secheader) inputs).2 := by
  have hinit : Tracks (.init data size secheader) { current := [], queue := [] } := by
    refine ⟨init_valid data hsize, rfl, (fun s hs => nomatch hs), nil_prefix, ?_, fun hf => absurd rfl hf⟩
    intro _
    exact ⟨init_contents data size, place_idle rfl (fun s hs => (nomatch hs)) rfl⟩
  exact (runTrace_accepted Tracks (fun _ _ i h hok => h.step i hok) hinit hok).1

/-- A whole call of `dvb_dmxdev_read_sec`. -/
def readCall (count : Nat) : List ReadInput := .call count :: List.replicate 6 .resume

/-- A section of five bytes is read with the given count, and another one overflows the buffer of eight
bytes. After the overflow was reported two sections of three bytes arrive. -/
def overflowAfter (count : Nat) : List ReadInput :=
  .deliver [0, 0, 2, 7, 7] (by decide) :: readCall count ++
    .deliver [3, 0, 5, 0, 0, 0, 0, 0] (by decide) :: readCall 10 ++
    [.deliver [1, 0, 0] (by decide), .deliver [2, 0, 0] (by decide)] ++ readCall 10 ++ readCall 10

theorem readSec_aligned_overflow : Aligned (runTrace readStep (.init (fun _ => 0) 8 fun _ => 0) (overflowAfter 5)).2 :=
  readSec_aligned (by decide) (by decide)

/-- If the overflow comes in the middle of a section, a later read crosses the border of two sections. -/
theorem readSec_not_aligned :
    ¬ ∀ (data : Mem UInt8) (size : Nat) (secheader : Mem UInt8) (inputs : List ReadInput), 1 ≤ size →
      Aligned (runTrace readStep (.init data size secheader) inputs).2 := by
  intro h
  have hrun := h (fun _ => 0) 8 (fun _ => 0) (overflowAfter 4) (by decide)
  have hevents : (runTrace readStep (.init (fun _ => 0) 8 fun _ => 0) (overflowAfter 4)).2 =
      [.delivered [0, 0, 2, 7, 7], .read [0, 0, 2, 7], .failed errOverflow, .delivered [1, 0, 0],
        .delivered [2, 0, 0], .read [1]] ++ .read [0, 0, 2, 0, 0] :: [] := by decide
  rw [Aligned, hevents] at hrun
  have hread : ([0, 0, 2, 0, 0] : List UInt8) <+: [0, 0] := hrun.good_of_append
  revert hread
  decide

end LinuxDvb.Dmxdev
