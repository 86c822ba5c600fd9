import LinuxDvb.Framework.Trace
import LinuxDvb.LibUcsi.SectionBuf

/-!
# Receiving sections from transport packets

The packet loop of the test program, for the packets of one PID: the payload of a packet goes to the section buffer
until it is used up, and the buffer is reset behind a section, behind an error and when the continuity check fails.
-/

namespace LinuxDvb.Ucsi

/-- What the loop reads of a transport packet: the unit start flag, whether
`transport_packet_continuity_check` fails, and the payload. -/
structure TransportPayload where
  payloadUnitStart : Bool
  continuityError : Bool
  payload : List UInt8
  length_payload : payload.length ≤ 184
  deriving DecidableEq

/-- What becomes known of a run. Positions count the payload bytes that the loop has taken on. -/
inductive ReceiverEvent where
  | received (payload : List UInt8)
  /-- The pointer field of a unit start says where a section begins. -/
  | announced (position : Nat)
  /-- `parse_section` is called with a section that takes up the bytes from `start` to `stop`. -/
  | completed (start stop : Nat) (bytes : List UInt8)
  /-- The buffer is reset for an error or a lost packet. -/
  | dropped
  /-- The loop makes no progress. -/
  | stuck
  deriving DecidableEq

/-- `section_bufs[pid]` while a payload is read, with the position of the next byte in the stream and that of the
first byte in the buffer. -/
structure Reading where
  buf : SectionBuf
  pos : Nat
  start : Nat
  deriving DecidableEq

def Reading.announces (v : Reading) (pduStart : Bool) (payload : List UInt8) : List ReceiverEvent :=
  if pduStart then [.announced (v.pos + 1 + (payload.headD 0).toNat)] else []

/-- One pass of `while(tsvals.payload_length)`: what is left of the payload, and what becomes known. -/
def receivePass (v : Reading) (pduStart : Bool) (payload : List UInt8) :
    Reading × List UInt8 × List ReceiverEvent :=
  let r := sectionBufAddTransportPayload v.buf payload pduStart
  let pos := v.pos + r.used
  let start := if v.buf.count = 0 then pos - r.buf.count else v.start
  let announced := v.announces pduStart payload
  if r.status = 1 then
    (⟨sectionBufReset r.buf, pos, start⟩, payload.drop r.used, announced ++ [.completed start pos r.buf.data])
  else if r.status < 0 then (⟨sectionBufReset r.buf, pos, start⟩, payload.drop r.used, announced ++ [.dropped])
  else (⟨r.buf, pos, start⟩, payload.drop r.used, announced)

/-- `while(tsvals.payload_length)`, with fuel for the passes. -/
def receivePayload : Nat → Reading → Bool → List UInt8 → Reading × List ReceiverEvent
  | _, v, _, [] => (v, [])
  | 0, v, _, _ :: _ => (v, [.stuck])
  | n + 1, v, pduStart, b :: payload =>
    let p := receivePass v pduStart (b :: payload)
    let r := receivePayload n p.1 false p.2.1
    (r.1, p.2.2 ++ r.2)

/-- The receiver of a PID: `section_bufs[pid]`, the number of payload bytes taken on, and where the section in
the buffer starts. `lost` is set when a failed continuity check resets a buffer that does not wait, until the
next unit start. -/
structure Receiver where
  buf : Option SectionBuf
  pos : Nat
  start : Nat
  lost : Bool
  deriving DecidableEq

def Receiver.init : Receiver := ⟨none, 0, 0, false⟩

/-- One packet in `receive_data`. -/
def receivePacket (r : Receiver) (p : TransportPayload) : Receiver × List ReceiverEvent :=
  if p.continuityError then
    match r.buf with
    | none => (r, [])
    | some buf => ({ r with buf := some (sectionBufReset buf), lost := !buf.waitPdu }, [.dropped])
  else
    match r.buf.or (sectionBufInit dvbMaxSectionBytes) with
    | none => (r, [])
    | some buf =>
      let v := receivePayload p.payload.length ⟨buf, r.pos, r.start⟩ p.payloadUnitStart p.payload
      (⟨some v.1.buf, v.1.pos, v.1.start, r.lost && !(p.payloadUnitStart && !p.payload.isEmpty)⟩,
        .received p.payload :: v.2)

/-- What a reader of the stream knows: the bytes so far, and where a section may begin since data were last
dropped: positions announced by a pointer field, and ends of completed sections. -/
structure StreamReader where
  stream : List UInt8
  origins : List Nat
  deriving DecidableEq

def StreamReader.next (m : StreamReader) : ReceiverEvent → StreamReader
  | .received payload => { m with stream := m.stream ++ payload }
  | .announced position => { m with origins := position :: m.origins }
  | .completed _ stop _ => { m with origins := stop :: m.origins }
  | .dropped => { m with origins := [] }
  | .stuck => m

def StreamReader.Anchored (m : StreamReader) (position : Nat) : Prop :=
  ∃ origin ∈ m.origins, origin ≤ position ∧ ∀ b ∈ (m.stream.take position).drop origin, b = sectionPad

def StreamReader.Good (m : StreamReader) : ReceiverEvent → Prop
  | .completed start _ bytes => m.Anchored start ∧ m.stream[start]? = bytes.head?
  | .stuck => False
  | _ => True

/-- After packets were lost inside a section, only padding comes before the next unit start. -/
def PaddedAfterLoss (r : Receiver) (p : TransportPayload) : Prop :=
  r.lost = true → p.continuityError = true ∨ p.payloadUnitStart = true ∨ ∀ b ∈ p.payload, b = sectionPad

instance (r : Receiver) (p : TransportPayload) : Decidable (PaddedAfterLoss r p) :=
  inferInstanceAs (Decidable (_ → _ ∨ _ ∨ _))

/-! ## The payload loop -/

theorem StreamReader.Anchored.of_origins {m m' : StreamReader} {position : Nat} (h : m.Anchored position)
    (hstream : m'.stream = m.stream) (hsub : ∀ o ∈ m.origins, o ∈ m'.origins) : m'.Anchored position := by
  obtain ⟨origin,hmem,hle,hpad⟩ := h
  exact ⟨origin,hsub origin hmem,hle,by rw [hstream]; exact hpad⟩

theorem StreamReader.Anchored.of_mem {m : StreamReader} {position : Nat} (h : position ∈ m.origins) :
    m.Anchored position := by
  refine ⟨position,h,Nat.le_refl _,?_⟩
  intro b hb
  rw [List.drop_of_length_le (List.length_take_le _ _)] at hb
  cases hb

theorem StreamReader.Anchored.skip {m : StreamReader} {position k : Nat} {rest : List UInt8}
    (h : m.Anchored position) (hle : position ≤ m.stream.length)
    (hrest : m.stream.drop position = List.replicate k sectionPad ++ rest) : m.Anchored (position + k) := by
  obtain ⟨origin,hmem,hoff,hpad⟩ := h
  refine ⟨origin,hmem,by omega,?_⟩
  have htake : m.stream.take (position + k) = m.stream.take position ++ List.replicate k sectionPad := by
    rw [take_add,hrest,take_left' length_replicate]
  have hlen : (m.stream.take position).length = position := length_take_of_le hle
  intro b hb
  rw [htake,List.drop_append,mem_append] at hb
  rcases hb with hb | hb
  · exact hpad b hb
  · exact eq_of_mem_replicate (List.mem_of_mem_drop hb)

theorem StreamReader.Anchored.received {m : StreamReader} {position : Nat} (h : m.Anchored position)
    (hle : position ≤ m.stream.length) (payload : List UInt8) : (m.next (.received payload)).Anchored position := by
  obtain ⟨origin,hmem,hoff,hpad⟩ := h
  refine ⟨origin,hmem,hoff,?_⟩
  change ∀ b ∈ ((m.stream ++ payload).take position).drop origin, b = sectionPad
  rw [take_append_of_le_length hle]
  exact hpad

def Reading.sectionStart (v : Reading) : Nat := if v.buf.count = 0 then v.pos else v.start

/-- The buffer holds `data` in accord with what the reader of the stream knows, while `payload` is left. The
position need not be anchored if a unit start comes. -/
structure Synced (m : StreamReader) (v : Reading) (payload : List UInt8) (pduStart w : Bool)
    (data : List UInt8) : Prop where
  buf : v.buf = .holding w data
  unfinished : Unfinished data
  waits : w = true → data = []
  inside : v.pos ≤ m.stream.length
  left : m.stream.drop v.pos = payload
  anchored : w = false → pduStart = true ∧ data = [] ∨ m.Anchored v.sectionStart
  first : data ≠ [] → m.stream[v.start]? = data.head?

section Pass

variable {m : StreamReader} {v : Reading} {payload data : List UInt8} {pduStart w : Bool}

theorem Synced.drop (h : Synced m v payload pduStart w data) {used : Nat} (hle : used ≤ payload.length) :
    v.pos + used ≤ m.stream.length ∧ m.stream.drop (v.pos + used) = payload.drop used := by
  have hlen : payload.length = m.stream.length - v.pos := by rw [← h.left,length_drop]
  have hin : v.pos ≤ m.stream.length := h.inside
  refine ⟨by omega,?_⟩
  rw [← h.left,drop_drop]

theorem foldl_announces (m : StreamReader) (v : Reading) (pduStart : Bool) (payload : List UInt8) :
    let m' := (v.announces pduStart payload).foldl StreamReader.next m
    Accepts StreamReader.next StreamReader.Good m (v.announces pduStart payload) ∧ m'.stream = m.stream ∧
      (∀ o ∈ m.origins, o ∈ m'.origins) ∧
      (pduStart = true → v.pos + 1 + (payload.headD 0).toNat ∈ m'.origins) := by
  cases pduStart with
  | false => exact ⟨trivial,rfl,fun o ho => ho,fun hp => absurd hp Bool.false_ne_true⟩
  | true => exact ⟨⟨trivial,trivial⟩,rfl,fun o ho => mem_cons_of_mem _ ho,fun _ => mem_cons_self⟩

theorem Synced.collected (h : Synced m v payload pduStart w data) (hactive : w = true → pduStart = true)
    {pre chunk rest : List UInt8} {k : Nat} {r : Added} (hskip : SkipsTo data payload pduStart pre)
    (hc : Collects data payload r pre k chunk rest) {m' : StreamReader} (hstream : m'.stream = m.stream)
    (hsub : ∀ o ∈ m.origins, o ∈ m'.origins)
    (hann : pduStart = true → v.pos + 1 + (payload.headD 0).toNat ∈ m'.origins) :
    let start := if v.buf.count = 0 then v.pos + r.used - r.buf.count else v.start
    m'.Anchored start ∧ (data = [] → start = v.pos + pre.length + k) ∧
      (data ++ chunk ≠ [] → m'.stream[start]? = (data ++ chunk).head?) := by
  intro start
  by_cases hdata : data = []
  · subst hdata
    have hcount : v.buf.count = 0 := by rw [h.buf]; rfl
    have hused : r.used = pre.length + (k + chunk.length) := hc.used
    have hstart : start = v.pos + pre.length + k := by
      have hchunk : r.buf.count = chunk.length := by rw [hc.buf]; rfl
      change (if v.buf.count = 0 then v.pos + r.used - r.buf.count else v.start) = _
      rw [if_pos hcount]
      omega
    have hle : pre.length ≤ payload.length := by
      have hlen : payload.length = r.used + rest.length := hc.length_eq
      omega
    obtain ⟨hin,hleft⟩ := h.drop hle
    have hbehind : m'.stream.drop (v.pos + pre.length) = List.replicate k sectionPad ++ (chunk ++ rest) := by
      rw [hstream,hleft,hc.split,drop_left]
    rw [← hstream] at hin
    refine ⟨?_,fun _ => hstart,?_⟩
    · rw [hstart]
      apply StreamReader.Anchored.skip _ hin hbehind
      cases pduStart with
      | true =>
        apply StreamReader.Anchored.of_mem
        have hpre : pre.length = 1 + (payload.headD 0).toNat := hskip
        rw [hpre,← Nat.add_assoc]
        exact hann rfl
      | false =>
        have hw : w = false := Bool.eq_false_iff.mpr fun hw => Bool.false_ne_true (hactive hw)
        have hpre : pre.length = 0 := hskip
        have hanchored : m.Anchored v.sectionStart := by
          rcases h.anchored hw with ⟨hp,-⟩ | ha
          · exact absurd hp Bool.false_ne_true
          · exact ha
        rw [Reading.sectionStart,if_pos hcount] at hanchored
        rw [hpre]
        exact hanchored.of_origins hstream hsub
    · intro hne
      have hget : m'.stream.drop (v.pos + pre.length + k) = chunk ++ rest := by
        rw [← drop_drop,hbehind,drop_left' length_replicate]
      rw [nil_append] at hne
      rw [hstart,← List.head?_drop,hget,nil_append,List.head?_append_of_ne_nil _ hne]
  · have hcount : v.buf.count ≠ 0 := by
      rw [h.buf,count_holding]
      exact fun h0 => hdata (length_eq_zero_iff.mp h0)
    have hstart : start = v.start := if_neg hcount
    have hw : w = false := Bool.eq_false_iff.mpr fun hw => hdata (h.waits hw)
    have hanchored : m.Anchored v.sectionStart := by
      rcases h.anchored hw with ⟨-,he⟩ | ha
      · exact absurd he hdata
      · exact ha
    rw [Reading.sectionStart,if_neg hcount] at hanchored
    refine ⟨?_,fun he => absurd he hdata,?_⟩
    · rw [hstart]
      exact hanchored.of_origins hstream hsub
    · intro _
      rw [hstart,hstream,h.first hdata,List.head?_append_of_ne_nil _ hdata]

theorem receivePass_synced (h : Synced m v payload pduStart w data) (hne : payload ≠ []) :
    Accepts StreamReader.next StreamReader.Good m (receivePass v pduStart payload).2.2 ∧
      (receivePass v pduStart payload).2.1.length < payload.length ∧
      ∃ w' data', Synced ((receivePass v pduStart payload).2.2.foldl StreamReader.next m)
        (receivePass v pduStart payload).1 (receivePass v pduStart payload).2.1 false w' data' := by
  obtain ⟨hacc,hstream,hsub,hann⟩ := foldl_announces m v pduStart payload
  have hpos : 0 < payload.length := length_pos_iff.mpr hne
  by_cases hwaits : w = true ∧ pduStart = false
  · -- dropped
    obtain ⟨rfl,rfl⟩ := hwaits
    obtain ⟨hin,hleft⟩ := h.drop (Nat.le_refl payload.length)
    rw [receivePass,h.buf,addTransportPayload_dropped h.unfinished]
    refine ⟨trivial,by simpa using hpos,true,data,rfl,h.unfinished,h.waits,hin,hleft,?_,?_⟩
    · exact fun hw => absurd hw Bool.noConfusion
    · exact fun hdata => absurd (h.waits rfl) hdata
  have hactive : w = true → pduStart = true := by
    intro hw
    by_contra hp
    exact hwaits ⟨hw,Bool.eq_false_iff.mpr hp⟩
  have hcases := addTransportPayload_cases h.unfinished hactive hne
  rw [← h.buf] at hcases
  unfold receivePass
  generalize hr : sectionBufAddTransportPayload v.buf payload pduStart = r at hcases ⊢
  generalize v.announces pduStart payload = es at hacc hstream hsub hann ⊢
  rcases hcases with ⟨href,hused,hle⟩ | ⟨pre,k,chunk,rest,hskip,hc⟩
  · -- refused
    have hneg : r.status < 0 := href.status
    have hdone : r.status ≠ 1 := by omega
    obtain ⟨hin,hleft⟩ := h.drop hle
    simp only [if_neg hdone,if_pos hneg,foldl_append,foldl_cons,foldl_nil,accepts_append,
      sectionBufReset_eq href.max,href.waits]
    refine ⟨⟨hacc,trivial,trivial⟩,by simp only [length_drop]; omega,true,[],rfl,unfinished_nil,
      fun _ => rfl,?_,?_,?_,fun hdata => absurd rfl hdata⟩
    · exact hstream ▸ hin
    · exact hstream ▸ hleft
    · exact fun hw => absurd hw Bool.noConfusion
  · have hused : 0 < r.used := hc.used_pos h.unfinished hne
    have hle : r.used ≤ payload.length := by
      have hlen : payload.length = r.used + rest.length := hc.length_eq
      omega
    obtain ⟨hin,hleft⟩ := h.drop hle
    obtain ⟨hanchored,hstart,hfirst⟩ := h.collected hactive hskip hc hstream hsub hann
    generalize hst : (if v.buf.count = 0 then v.pos + r.used - r.buf.count else v.start) = start
      at hanchored hstart hfirst
    have hshort : (payload.drop r.used).length < payload.length := by
      rw [length_drop]
      omega
    rcases hc.outcome with ⟨hzero,hopen,-⟩ | ⟨hone,hsec⟩
    · -- more is to come
      have hnone : r.status ≠ 1 := by omega
      have hnonneg : ¬ r.status < 0 := by omega
      simp only [if_neg hnone,if_neg hnonneg,hst]
      refine ⟨hacc,hshort,false,data ++ chunk,hc.buf,hopen,fun hw => absurd hw Bool.noConfusion,
        hstream ▸ hin,hstream ▸ hleft,fun _ => .inr ?_,hfirst⟩
      rw [Reading.sectionStart]
      split
      · -- all of it was padding
        rename_i hempty
        rw [hc.buf,count_holding] at hempty
        have hnil : data ++ chunk = [] := length_eq_zero_iff.mp hempty
        obtain ⟨hdata,hchunk⟩ := append_eq_nil_iff.mp hnil
        have hsum : r.used = pre.length + (k + chunk.length) := hc.used
        rw [hchunk,length_nil] at hsum
        rw [show v.pos + r.used = start by rw [hstart hdata]; omega]
        exact hanchored
      · exact hanchored
    · -- a section is complete
      have hne' : data ++ chunk ≠ [] := by
        intro hnil
        have h3 : sectionHdrSize ≤ (data ++ chunk).length := hsec.1
        rw [hnil] at h3
        exact absurd h3 (by decide)
      have hmax : r.buf.max = dvbMaxSectionBytes := by rw [hc.buf]; rfl
      have hwait : r.buf.waitPdu = false := by rw [hc.buf]; rfl
      have hdata : r.buf.data = data ++ chunk := by rw [hc.buf]; rfl
      simp only [if_pos hone,foldl_append,foldl_cons,foldl_nil,accepts_append,
        sectionBufReset_eq hmax,hwait,hdata,hst]
      refine ⟨⟨hacc,⟨hanchored,hfirst hne'⟩,trivial⟩,hshort,false,[],rfl,unfinished_nil,
        fun hw => absurd hw Bool.noConfusion,hstream ▸ hin,hstream ▸ hleft,fun _ => .inr ?_,
        fun hdata => absurd rfl hdata⟩
      exact StreamReader.Anchored.of_mem mem_cons_self

theorem receivePayload_synced (n : Nat) (hn : payload.length ≤ n) (h : Synced m v payload pduStart w data) :
    Accepts StreamReader.next StreamReader.Good m (receivePayload n v pduStart payload).2 ∧
      (payload ≠ [] → ∃ w' data', Synced ((receivePayload n v pduStart payload).2.foldl StreamReader.next m)
        (receivePayload n v pduStart payload).1 [] false w' data') := by
  induction n generalizing m v payload pduStart w data with
  | zero =>
    have hnil : payload = [] := length_eq_zero_iff.mp (Nat.le_zero.mp hn)
    subst hnil
    exact ⟨trivial,fun hne => absurd rfl hne⟩
  | succ n ih =>
    cases payload with
    | nil => exact ⟨trivial,fun hne => absurd rfl hne⟩
    | cons b payload =>
      obtain ⟨hacc,hshort,w',data',hsynced⟩ := receivePass_synced h (cons_ne_nil b payload)
      simp only [receivePayload,accepts_append,foldl_append]
      obtain ⟨hacc',hrest⟩ := ih (by rw [length_cons] at hn hshort; omega) hsynced
      refine ⟨⟨hacc,hacc'⟩,fun _ => ?_⟩
      by_cases hnil : (receivePass v pduStart (b :: payload)).2.1 = []
      · rw [hnil] at hsynced ⊢
        exact ⟨w',data',by cases n <;> exact hsynced⟩
      · exact hrest hnil

end Pass

theorem receivePayload_padding {v : Reading} {w : Bool} (hbuf : v.buf = .holding w []) {payload : List UInt8}
    (hpad : ∀ b ∈ payload, b = sectionPad) {n : Nat} (hn : payload.length ≤ n) :
    (receivePayload n v false payload).2 = [] ∧ (receivePayload n v false payload).1.buf = .holding w [] ∧
      (receivePayload n v false payload).1.pos = v.pos + payload.length := by
  cases payload with
  | nil => cases n <;> exact ⟨rfl,hbuf,rfl⟩
  | cons b payload =>
    have hall : b :: payload = List.replicate (payload.length + 1) sectionPad :=
      List.eq_replicate_iff.mpr ⟨rfl,hpad⟩
    have hadd : sectionBufAddTransportPayload v.buf (b :: payload) false =
        ⟨.holding w [],payload.length + 1,0⟩ := by
      rw [hbuf]
      cases w with
      | true => exact addTransportPayload_dropped unfinished_nil _
      | false =>
        rw [addTransportPayload_middle unfinished_nil,sectionBufAddBehind,drop_zero,hall,sectionBufAdd_padding]
        simp
    have hpass : receivePass v false (b :: payload) =
        (⟨.holding w [],v.pos + (payload.length + 1),
          if v.buf.count = 0 then v.pos + (payload.length + 1) else v.start⟩, [], []) := by
      rw [receivePass,hadd]
      simp [Reading.announces]
    cases n with
    | zero => exact absurd hn (Nat.not_succ_le_zero _)
    | succ n =>
      rw [receivePayload,hpass]
      cases n <;> exact ⟨rfl,rfl,rfl⟩

end LinuxDvb.Ucsi
