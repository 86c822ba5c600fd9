import LinuxDvb.LibUcsi.SectionReceiver

/-!
# Sections cut into payloads

How MPEG-2 systems lay sections into the payloads of one PID, and what the receiver makes of such payloads.
-/

namespace LinuxDvb.Ucsi

def StreamSection (bytes : List UInt8) : Prop := IsSection bytes ∧ bytes.head? ≠ some sectionPad

instance (bytes : List UInt8) : Decidable (StreamSection bytes) := inferInstanceAs (Decidable (_ ∧ _))

/-- A packet that arrives behind the one before it, with the given unit start flag and payload. -/
structure Arrives (p : TransportPayload) (pduStart : Bool) (payload : List UInt8) : Prop where
  start : p.payloadUnitStart = pduStart
  continuity : p.continuityError = false
  payload : p.payload = payload

/-- The packets carry the missing bytes `rest` of a section and then the sections `secs`. -/
inductive Packetised : List UInt8 → List (List UInt8) → List TransportPayload → Prop
  | done : Packetised [] [] []
  /-- No section starts: the current one goes on, and stuffing follows it if it ends. -/
  | middle {chunk rest : List UInt8} {secs : List (List UInt8)} {p : TransportPayload}
      {ps : List TransportPayload} (stuffing : Nat)
      (arrives : Arrives p false (chunk ++ List.replicate stuffing sectionPad))
      (ends : stuffing ≠ 0 → rest = []) (next : Packetised rest secs ps) :
      Packetised (chunk ++ rest) secs (p :: ps)
  /-- Sections start and all end in the packet, stuffing may follow. -/
  | startWhole {rest : List UInt8} {full secs : List (List UInt8)} {p : TransportPayload}
      {ps : List TransportPayload} (stuffing : Nat)
      (arrives : Arrives p true
        (UInt8.ofNat rest.length :: (rest ++ (full.flatten ++ List.replicate stuffing sectionPad))))
      (nonempty : full ≠ []) (next : Packetised [] secs ps) : Packetised rest (full ++ secs) (p :: ps)
  /-- Sections start and the last of them is cut by the end of the packet. -/
  | startCut {rest head rest' : List UInt8} {full secs : List (List UInt8)} {p : TransportPayload}
      {ps : List TransportPayload}
      (arrives : Arrives p true (UInt8.ofNat rest.length :: (rest ++ (full.flatten ++ head))))
      (headNonempty : head ≠ []) (restNonempty : rest' ≠ []) (next : Packetised rest' secs ps) :
      Packetised rest (full ++ (head ++ rest') :: secs) (p :: ps)

/-- The sections handed to `parse_section`. -/
def completedSections (events : List ReceiverEvent) : List (List UInt8) :=
  events.filterMap fun
    | .completed _ _ bytes => some bytes
    | _ => none

@[simp] theorem completedSections_nil : completedSections [] = [] := rfl

@[simp] theorem completedSections_append (es fs : List ReceiverEvent) :
    completedSections (es ++ fs) = completedSections es ++ completedSections fs := by
  simp [completedSections]

@[simp] theorem completedSections_received (payload : List UInt8) (es : List ReceiverEvent) :
    completedSections (.received payload :: es) = completedSections es := rfl

@[simp] theorem completedSections_completed (start stop : Nat) (bytes : List UInt8) (es : List ReceiverEvent) :
    completedSections (.completed start stop bytes :: es) = bytes :: completedSections es := rfl

@[simp] theorem completedSections_announces (v : Reading) (pduStart : Bool) (payload : List UInt8) :
    completedSections (v.announces pduStart payload) = [] := by
  cases pduStart <;> rfl

/-! ## What a payload yields -/

/-- Reading the payload hands on the sections `out` and leaves `data` in the buffer. -/
def Yields (v : Reading) (pduStart : Bool) (payload : List UInt8) (out : List (List UInt8)) (data : List UInt8) :
    Prop :=
  ∀ n, payload.length ≤ n →
    completedSections (receivePayload n v pduStart payload).2 = out ∧
      ∃ w, (receivePayload n v pduStart payload).1.buf = .holding w data ∧ (w = true → data = [])

def YieldsAfresh (payload : List UInt8) (out : List (List UInt8)) (data : List UInt8) : Prop :=
  ∀ v : Reading, v.buf = .holding false [] → Yields v false payload out data

section Payload

variable {v : Reading} {w pduStart : Bool} {data payload fst more : List UInt8} {out : List (List UInt8)}
  {d : List UInt8}

theorem Yields.of_nil (hbuf : v.buf = .holding w data) (hwait : w = true → data = []) (pduStart : Bool) :
    Yields v pduStart [] [] data := by
  intro n _
  cases n <;> exact ⟨rfl,w,hbuf,hwait⟩

theorem Yields.of_pass {v' : Reading} {rest : List UInt8} {es : List ReceiverEvent}
    (hpass : receivePass v pduStart payload = (v', rest, es)) (hshort : rest.length < payload.length)
    (hrest : Yields v' false rest out d) : Yields v pduStart payload (completedSections es ++ out) d := by
  intro n hn
  cases payload with
  | nil => exact absurd hshort (Nat.not_lt_zero _)
  | cons b payload =>
    cases n with
    | zero => exact absurd hn (Nat.not_succ_le_zero _)
    | succ n =>
      obtain ⟨hout,hheld⟩ := hrest n (by rw [length_cons] at hn hshort; omega)
      rw [receivePayload,hpass]
      refine ⟨?_,hheld⟩
      rw [completedSections_append,hout]

theorem sectionBufAdd_grabs (h : Unfinished data) (hfirst : data = [] → more.head? ≠ some sectionPad)
    (hne : more ≠ []) : sectionBufAdd (.holding false data) more = sectionBufGrab (.holding false data) more 0 := by
  by_cases hdata : data = []
  · subst hdata
    obtain ⟨b,more,rfl⟩ := exists_cons_of_ne_nil hne
    have hb : b ≠ sectionPad := fun he => hfirst rfl (congrArg some he)
    exact sectionBufAdd_start false 0 hb more
  · exact sectionBufAdd_middle false h hdata more

theorem Yields.of_more {buf : SectionBuf} {used : Nat}
    (hadd : sectionBufAddTransportPayload v.buf payload pduStart = ⟨buf, used, 0⟩) (hused : 0 < used)
    (hne : payload ≠ []) (hrest : ∀ v' : Reading, v'.buf = buf → Yields v' false (payload.drop used) out d) :
    Yields v pduStart payload out d := by
  have hpass : receivePass v pduStart payload =
      (⟨buf,v.pos + used,if v.buf.count = 0 then v.pos + used - buf.count else v.start⟩, payload.drop used,
        v.announces pduStart payload) := by
    rw [receivePass,hadd]
    rfl
  have hpos : 0 < payload.length := length_pos_iff.mpr hne
  have hshort : (payload.drop used).length < payload.length := by
    rw [length_drop]
    omega
  have hyields := Yields.of_pass hpass hshort (hrest _ rfl)
  rwa [completedSections_announces] at hyields

theorem Yields.of_section {bytes : List UInt8} {used : Nat}
    (hadd : sectionBufAddTransportPayload v.buf payload pduStart = ⟨.holding false bytes, used, 1⟩)
    (hused : 0 < used) (hne : payload ≠ []) (hrest : YieldsAfresh (payload.drop used) out d) :
    Yields v pduStart payload (bytes :: out) d := by
  generalize hstart : (if v.buf.count = 0 then v.pos + used - bytes.length else v.start) = start
  have hpass : receivePass v pduStart payload =
      (⟨.holding false [],v.pos + used,start⟩, payload.drop used,
        v.announces pduStart payload ++ [.completed start (v.pos + used) bytes]) := by
    rw [receivePass,hadd,← hstart]
    rfl
  have hpos : 0 < payload.length := length_pos_iff.mpr hne
  have hshort : (payload.drop used).length < payload.length := by
    rw [length_drop]
    omega
  have hyields := Yields.of_pass hpass hshort (hrest _ rfl)
  rw [completedSections_append,completedSections_announces] at hyields
  exact hyields

theorem addTransportPayload_grabs {r : Added} (h : Unfinished data)
    (hfirst : data = [] → more.head? ≠ some sectionPad) (hne : more ≠ [])
    (hgrab : sectionBufGrab (.holding false data) more 0 = r) (hstatus : 0 ≤ r.status) :
    sectionBufAddTransportPayload (.holding false data) more false = r := by
  rw [addTransportPayload_middle h,sectionBufAddBehind,drop_zero,sectionBufAdd_grabs h hfirst hne,hgrab]
  simp only [if_neg (Int.not_lt.mpr hstatus),Nat.zero_add]

theorem Yields.of_chunk (hbuf : v.buf = .holding false data) (h : Unfinished data)
    (hfirst : data = [] → more.head? ≠ some sectionPad) (hmore : Unfinished (data ++ more)) :
    Yields v false more [] (data ++ more) := by
  by_cases hne : more = []
  · subst hne
    rw [append_nil]
    exact .of_nil hbuf (fun hw => absurd hw Bool.noConfusion) false
  · have hadd := addTransportPayload_grabs h hfirst hne (sectionBufGrab_unfinished false 0 h hmore) (Int.le_refl 0)
    rw [← hbuf,Nat.zero_add] at hadd
    refine .of_more hadd (length_pos_iff.mpr hne) hne fun v' hv' => ?_
    rw [List.drop_length]
    exact .of_nil hv' (fun hw => absurd hw Bool.noConfusion) false

theorem Yields.of_finish (hbuf : v.buf = .holding false data) (h : Unfinished data)
    (hfirst : data = [] → fst.head? ≠ some sectionPad) (hsec : IsSection (data ++ fst))
    (hmore : YieldsAfresh more out d) : Yields v false (fst ++ more) ((data ++ fst) :: out) d := by
  have hne : fst ≠ [] := by
    rintro rfl
    rw [append_nil] at hsec
    exact h.not_isSection hsec
  have hfirst' : data = [] → (fst ++ more).head? ≠ some sectionPad := by
    rw [List.head?_append_of_ne_nil _ hne]
    exact hfirst
  have hne' : fst ++ more ≠ [] := List.append_ne_nil_of_left_ne_nil hne _
  have hone : (0 : Int) ≤ 1 := by decide
  have hadd := addTransportPayload_grabs h hfirst' hne' (sectionBufGrab_section false 0 h hsec more) hone
  rw [← hbuf,Nat.zero_add] at hadd
  refine .of_section hadd (length_pos_iff.mpr hne) hne' ?_
  rw [drop_left]
  exact hmore

theorem Yields.of_padding (hbuf : v.buf = .holding w []) (k : Nat) :
    Yields v false (List.replicate k sectionPad) [] [] := by
  intro n hn
  obtain ⟨hevents,hheld,-⟩ := receivePayload_padding hbuf (fun b hb => eq_of_mem_replicate hb) hn
  exact ⟨by rw [hevents]; rfl,w,hheld,fun _ => rfl⟩

theorem YieldsAfresh.of_sections {full : List (List UInt8)} (hfull : ∀ s ∈ full, StreamSection s)
    (hmore : YieldsAfresh more out d) : YieldsAfresh (full.flatten ++ more) (full ++ out) d := by
  induction full with
  | nil => exact hmore
  | cons s full ih =>
    obtain ⟨hsec,hfirst⟩ := hfull s mem_cons_self
    intro v hbuf
    rw [flatten_cons,append_assoc]
    exact .of_finish hbuf unfinished_nil (fun _ => hfirst) hsec
      (ih fun s hs => hfull s (mem_cons_of_mem _ hs))

theorem receivePass_start (hbuf : v.buf = .holding w []) (payload : List UInt8) : receivePass v true (0 :: payload) =
      let q := receivePass ⟨.holding false [], v.pos + 1, v.start⟩ false payload
      (q.1, q.2.1, v.announces true (0 :: payload) ++ q.2.2) := by
  have hstart : sectionBufAddTransportPayload v.buf (0 :: payload) true =
      let r := sectionBufAddTransportPayload (.holding false []) payload false
      ⟨r.buf,1 + r.used,r.status⟩ := by
    rw [hbuf,addTransportPayload_start w (Nat.zero_le _),addTransportPayload_middle unfinished_nil]
    simp [sectionBufAddBehind]
  have hcount : v.buf.count = 0 := by
    rw [hbuf]
    rfl
  unfold receivePass
  rw [hstart]
  generalize sectionBufAddTransportPayload (.holding false []) payload false = r
  have hdrop : (0 :: payload).drop (1 + r.used) = payload.drop r.used := by
    rw [Nat.add_comm,drop_succ_cons]
  simp only [hcount,hdrop,count_holding,length_nil,if_true,Nat.add_assoc,Reading.announces,
    Bool.false_eq_true,if_false,nil_append]
  split
  · rfl
  · split <;> simp

theorem Yields.of_start (hbuf : v.buf = .holding w []) (hne : payload ≠ []) (hmore : YieldsAfresh payload out d) :
    Yields v true (0 :: payload) out d := by
  obtain ⟨b,payload,rfl⟩ := exists_cons_of_ne_nil hne
  intro n hn
  cases n with
  | zero => exact absurd hn (Nat.not_succ_le_zero _)
  | succ n =>
    have hplain := hmore ⟨.holding false [],v.pos + 1,v.start⟩ rfl (n + 1) (by simp at hn ⊢; omega)
    rw [receivePayload,receivePass_start hbuf]
    rw [receivePayload] at hplain
    simpa using hplain

theorem Yields.of_final (hbuf : v.buf = .holding w data) (h : Unfinished data) (hne : data ≠ [])
    (hlen : fst.length < 256) (hsec : IsSection (data ++ fst)) (hmore : YieldsAfresh more out d) :
    Yields v true (UInt8.ofNat fst.length :: (fst ++ more)) ((data ++ fst) :: out) d := by
  have hpointer : (UInt8.ofNat fst.length).toNat = fst.length := by
    rw [UInt8.toNat_ofNat',Nat.mod_eq_of_lt hlen]
  have hfinal : sectionBufAdd (.holding false data) fst = ⟨.holding false (data ++ fst),fst.length,1⟩ := by
    have hgrab := sectionBufGrab_section false 0 h hsec []
    rw [append_nil,Nat.zero_add] at hgrab
    rw [sectionBufAdd_middle false h hne,hgrab]
  have hremaining : sectionBufRemaining (.holding false (data ++ fst)) = 0 := by
    have hlen : (SectionBuf.holding false (data ++ fst)).len = (data ++ fst).length :=
      (if_neg (Nat.not_lt.mpr hsec.1)).trans hsec.2.1
    rw [sectionBufRemaining,hlen,count_holding,Int.sub_self]
  have hadd : sectionBufAddTransportPayload v.buf (UInt8.ofNat fst.length :: (fst ++ more)) true =
      ⟨.holding false (data ++ fst),1 + fst.length,1⟩ := by
    rw [hbuf,addTransportPayload_final h hne w (by rw [hpointer, length_append]; omega),hpointer,
      take_left,hfinal]
    simp [hremaining]
  refine .of_section hadd (by omega) (cons_ne_nil _ _) ?_
  rw [Nat.add_comm,drop_succ_cons,drop_left]
  exact hmore

end Payload

/-! ## What a packetisation yields -/

/-- The section of which `data` has come in and `rest` is missing, if there is one. -/
def pending (data rest : List UInt8) : List (List UInt8) := if rest = [] then [] else [data ++ rest]

/-- `data` in the buffer and `rest` to come are both empty, or together a section. -/
def Awaits (data rest : List UInt8) : Prop :=
  rest = [] ∧ data = [] ∨ rest ≠ [] ∧ data ≠ [] ∧ StreamSection (data ++ rest)

/-- The receiver has `data` in its buffer. -/
def Receiver.Has (r : Receiver) (data : List UInt8) : Prop :=
  ∃ buf w, r.buf.or (sectionBufInit dvbMaxSectionBytes) = some buf ∧ buf = .holding w data ∧ (w = true → data = [])

theorem unfinished_of_isSection {data rest : List UInt8} (h : IsSection (data ++ rest)) (hne : rest ≠ []) :
    Unfinished data := by
  obtain ⟨-,hann,hmax⟩ := h
  have hpos : 0 < rest.length := length_pos_iff.mpr hne
  have hlen : (data ++ rest).length = data.length + rest.length := length_append
  by_cases h3 : data.length < sectionHdrSize
  · exact .inl h3
  · rw [announcedLen_append (Nat.not_lt.mp h3)] at hann
    exact .inr ⟨by omega,by omega⟩

theorem Awaits.unfinished {data rest : List UInt8} (h : Awaits data rest) : Unfinished data := by
  rcases h with ⟨-,rfl⟩ | ⟨hne,-,hsec,-⟩
  · exact unfinished_nil
  · exact unfinished_of_isSection hsec hne

theorem receivePacket_yields {r : Receiver} {p : TransportPayload} {data payload : List UInt8} {pduStart : Bool}
    {out : List (List UInt8)} {d : List UInt8} (hhas : r.Has data) (harrives : Arrives p pduStart payload)
    (hyields : ∀ (v : Reading) (w : Bool), v.buf = .holding w data → (w = true → data = []) →
      Yields v pduStart payload out d) :
    completedSections (receivePacket r p).2 = out ∧ (receivePacket r p).1.Has d := by
  obtain ⟨buf,w,hsome,hbuf,hwait⟩ := hhas
  obtain ⟨hstart,hcont,hpayload⟩ := harrives
  obtain ⟨hout,w',hheld,hwait'⟩ := hyields ⟨buf,r.pos,r.start⟩ w hbuf hwait payload.length (Nat.le_refl _)
  rw [receivePacket,if_neg (by rw [hcont]; exact Bool.false_ne_true),hsome,hpayload,hstart]
  exact ⟨hout,_,w',rfl,hheld,hwait'⟩

theorem yields_unitStart {data rest more : List UInt8} {out : List (List UInt8)} {d : List UInt8}
    (h : Awaits data rest) (hlen : rest.length < 256) (hne : more ≠ []) (hmore : YieldsAfresh more out d)
    (v : Reading) (w : Bool) (hbuf : v.buf = .holding w data) :
    Yields v true (UInt8.ofNat rest.length :: (rest ++ more)) (pending data rest ++ out) d := by
  have hopen : Unfinished data := h.unfinished
  rcases h with ⟨rfl,rfl⟩ | ⟨hrest,hdata,hsec,-⟩
  · exact .of_start hbuf hne hmore
  · rw [pending,if_neg hrest]
    exact .of_final hbuf hopen hdata hlen hsec hmore

theorem Arrives.length_rest {p : TransportPayload} {pointer : UInt8} {rest more : List UInt8}
    (h : Arrives p true (pointer :: (rest ++ more))) : rest.length < 256 := by
  have hlen : p.payload.length ≤ 184 := p.length_payload
  rw [h.payload,length_cons,length_append] at hlen
  omega

theorem yields_middle {data chunk rest : List UInt8} {stuffing : Nat} (h : Awaits data (chunk ++ rest))
    (hends : stuffing ≠ 0 → rest = []) :
    ∃ out d, (∀ (v : Reading) (w : Bool), v.buf = .holding w data → (w = true → data = []) →
        Yields v false (chunk ++ List.replicate stuffing sectionPad) out d) ∧
      Awaits d rest ∧ pending data (chunk ++ rest) = out ++ pending d rest := by
  have hopen : Unfinished data := h.unfinished
  have hpadding : YieldsAfresh (List.replicate stuffing sectionPad) [] [] := fun v hv => .of_padding hv stuffing
  rcases h with ⟨hnil,rfl⟩ | ⟨hne,hdata,hsec⟩
  · obtain ⟨rfl,rfl⟩ := append_eq_nil_iff.mp hnil
    exact ⟨[],[],fun v w hv _ => .of_padding hv stuffing,.inl ⟨rfl,rfl⟩,rfl⟩
  have hsynced : ∀ w, (w = true → data = []) → w = false := fun w hw =>
    Bool.eq_false_iff.mpr fun htrue => hdata (hw htrue)
  by_cases hrest : rest = []
  · -- the section ends
    subst hrest
    rw [append_nil] at hsec hne ⊢
    refine ⟨[data ++ chunk],[],fun v w hv hw => ?_,.inl ⟨rfl,rfl⟩,by rw [pending,if_neg hne]; rfl⟩
    rw [hsynced w hw] at hv
    exact .of_finish hv hopen (fun he => absurd he hdata) hsec.1 hpadding
  · -- the section goes on
    have hzero : stuffing = 0 := by
      by_contra hs
      exact hrest (hends hs)
    have hmore : Unfinished (data ++ chunk) :=
      unfinished_of_isSection (by rw [append_assoc]; exact hsec.1) hrest
    rw [← append_assoc] at hsec
    refine ⟨[],data ++ chunk,fun v w hv hw => ?_,.inr ⟨hrest,List.append_ne_nil_of_left_ne_nil hdata _,hsec⟩,?_⟩
    · rw [hsynced w hw] at hv
      rw [hzero,List.replicate_zero,append_nil]
      exact .of_chunk hv hopen (fun he => absurd he hdata) hmore
    · rw [pending,if_neg hne,pending,if_neg hrest,append_assoc]
      rfl

theorem Packetised.completed {rest : List UInt8} {secs : List (List UInt8)} {ps : List TransportPayload}
    (h : Packetised rest secs ps) (hsecs : ∀ s ∈ secs, StreamSection s) {r : Receiver} {data : List UInt8}
    (hhas : r.Has data) (hawaits : Awaits data rest) :
    completedSections (runTrace receivePacket r ps).2 = pending data rest ++ secs := by
  induction h generalizing r data with
  | done => rfl
  | @middle chunk rest secs p ps stuffing arrives ends next ih =>
    obtain ⟨out,d,hyields,hnext,hpending⟩ := yields_middle hawaits ends
    obtain ⟨hout,hhas'⟩ := receivePacket_yields hhas arrives hyields
    rw [runTrace_cons,completedSections_append,hout,ih hsecs hhas' hnext,hpending,append_assoc]
  | @startWhole rest full secs p ps stuffing arrives nonempty next ih =>
    have hfull : ∀ s ∈ full, StreamSection s := fun s hs => hsecs s (mem_append_left _ hs)
    have hne : full.flatten ++ List.replicate stuffing sectionPad ≠ [] := by
      obtain ⟨s,full,rfl⟩ := exists_cons_of_ne_nil nonempty
      have hpos : 3 ≤ s.length := (hfull s mem_cons_self).1.1
      intro hnil
      have hlen := congrArg List.length hnil
      simp only [flatten_cons,length_append,length_nil] at hlen
      omega
    have hpadding : YieldsAfresh (List.replicate stuffing sectionPad) [] [] := fun v hv => .of_padding hv stuffing
    obtain ⟨hout,hhas'⟩ := receivePacket_yields hhas arrives fun v w hv _ =>
      yields_unitStart hawaits arrives.length_rest hne (hpadding.of_sections hfull) v w hv
    rw [runTrace_cons,completedSections_append,hout,
      ih (fun s hs => hsecs s (mem_append_right _ hs)) hhas' (.inl ⟨rfl,rfl⟩)]
    simp [pending]
  | @startCut rest head rest' full secs p ps arrives headNonempty restNonempty next ih =>
    have hfull : ∀ s ∈ full, StreamSection s := fun s hs => hsecs s (mem_append_left _ hs)
    have hcut : StreamSection (head ++ rest') :=
      hsecs _ (mem_append_right _ mem_cons_self)
    have hne : full.flatten ++ head ≠ [] := List.append_ne_nil_of_right_ne_nil _ headNonempty
    have hhead : YieldsAfresh head [] head := by
      intro v hv
      have hfirst : head.head? ≠ some sectionPad := by
        have hsame : (head ++ rest').head? = head.head? := List.head?_append_of_ne_nil head headNonempty
        rw [← hsame]
        exact hcut.2
      exact .of_chunk hv unfinished_nil (fun _ => hfirst) (unfinished_of_isSection hcut.1 restNonempty)
    obtain ⟨hout,hhas'⟩ := receivePacket_yields hhas arrives fun v w hv _ =>
      yields_unitStart hawaits arrives.length_rest hne (hhead.of_sections hfull) v w hv
    have hnext : Awaits head rest' := .inr ⟨restNonempty,headNonempty,hcut⟩
    rw [runTrace_cons,completedSections_append,hout,
      ih (fun s hs => hsecs s (mem_append_right _ (mem_cons_of_mem _ hs))) hhas' hnext]
    simp [pending,restNonempty]

/-! ## Resynchronisation of the section receiver

`section_buf_reset` keeps `wait_pdu`, for a section that ends inside a payload. It keeps it after a lost packet
too: a buffer that was inside a section then takes the next byte for the start of a section. As long as only
padding comes before the next unit start, every completed section begins where the stream says that one begins.
Sections that are cut into payloads come out as they went in. -/

/-! ## Runs -/

/-- The receiver is in accord with the reader of the stream between two packets, or empty after a loss. -/
structure Linked (r : Receiver) (m : StreamReader) : Prop where
  pos : r.pos = m.stream.length
  buf : ∀ buf, r.buf = some buf → (∃ w data, Synced m ⟨buf, r.pos, r.start⟩ [] false w data) ∨
    r.lost = true ∧ ∃ w, buf = .holding w []

theorem linked_init : Linked .init ⟨[], []⟩ := ⟨rfl, fun _ hbuf => nomatch hbuf⟩

section Packet

variable {m : StreamReader} {buf : SectionBuf} {pos start : Nat}

theorem synced_waiting {payload : List UInt8} (hpos : pos ≤ m.stream.length)
    (hleft : m.stream.drop pos = payload) (pduStart : Bool) :
    Synced m ⟨.holding true [], pos, start⟩ payload pduStart true [] where
  buf := rfl
  unfinished := unfinished_nil
  waits _ := rfl
  inside := hpos
  left := hleft
  anchored hw := absurd hw Bool.noConfusion
  first hdata := absurd rfl hdata

theorem Synced.received {w : Bool} {data : List UInt8} (h : Synced m ⟨buf, pos, start⟩ [] false w data)
    (hpos : pos = m.stream.length) (payload : List UInt8) (pduStart : Bool) :
    Synced (m.next (.received payload)) ⟨buf, pos, start⟩ payload pduStart w data where
  buf := h.buf
  unfinished := h.unfinished
  waits := h.waits
  inside := by
    change pos ≤ (m.stream ++ payload).length
    rw [length_append]
    omega
  left := by
    change (m.stream ++ payload).drop pos = payload
    rw [hpos,drop_left]
  anchored := by
    intro hw
    rcases h.anchored hw with ⟨hp,-⟩ | hanchored
    · exact absurd hp Bool.false_ne_true
    · refine .inr (hanchored.received ?_ payload)
      rw [Reading.sectionStart]
      split
      · exact hpos.le
      · rename_i hcount
        have hdata : data ≠ [] := by
          rintro rfl
          exact hcount (by rw [h.buf]; rfl)
        have hget : m.stream[start]? = data.head? := h.first hdata
        by_contra hlt
        rw [getElem?_eq_none (Nat.le_of_lt (Nat.not_le.mp hlt))] at hget
        exact hdata (List.head?_eq_none_iff.mp hget.symm)
  first := by
    intro hdata
    have hget : m.stream[start]? = data.head? := h.first hdata
    change (m.stream ++ payload)[start]? = data.head?
    rw [← hget]
    by_cases hlt : start < m.stream.length
    · exact getElem?_append_left hlt
    · rw [getElem?_eq_none (Nat.not_lt.mp hlt)] at hget
      exact absurd (List.head?_eq_none_iff.mp hget.symm) hdata

theorem receivePayload_linked {w : Bool} {data payload : List UInt8} {pduStart : Bool}
    (h : Synced (m.next (.received payload)) ⟨buf, pos, start⟩ payload pduStart w data) (hne : payload ≠ []) :
    let v := receivePayload payload.length ⟨buf, pos, start⟩ pduStart payload
    Accepts StreamReader.next StreamReader.Good (m.next (.received payload)) v.2 ∧
      ∀ lost, Linked ⟨some v.1.buf, v.1.pos, v.1.start, lost⟩
        (v.2.foldl StreamReader.next (m.next (.received payload))) := by
  obtain ⟨hacc,hend⟩ := receivePayload_synced payload.length (Nat.le_refl _) h
  obtain ⟨w',data',hsynced⟩ := hend hne
  refine ⟨hacc,fun lost => ⟨?_,?_⟩⟩
  · exact Nat.le_antisymm hsynced.inside (List.drop_eq_nil_iff.mp hsynced.left)
  · rintro _ ⟨⟩
    exact .inl ⟨w',data',hsynced⟩

theorem receivePacket_linked {r : Receiver} {p : TransportPayload} (h : Linked r m) (hok : PaddedAfterLoss r p) :
    Accepts StreamReader.next StreamReader.Good m (receivePacket r p).2 ∧
      Linked (receivePacket r p).1 ((receivePacket r p).2.foldl StreamReader.next m) := by
  obtain ⟨hpos,hlink⟩ := h
  unfold receivePacket
  by_cases herr : p.continuityError = true
  · rw [if_pos herr]
    cases hbuf : r.buf with
    | none => exact ⟨trivial,hpos,fun buf hb => by rw [hbuf] at hb; cases hb⟩
    | some buf =>
      have hheld : ∃ w data, buf = .holding w data := by
        rcases hlink buf hbuf with ⟨w,data,hs⟩ | ⟨-,w,hb⟩
        · exact ⟨w,data,hs.buf⟩
        · exact ⟨w,[],hb⟩
      obtain ⟨w,data,rfl⟩ := hheld
      refine ⟨⟨trivial,trivial⟩,hpos,?_⟩
      rintro _ ⟨⟩
      rw [sectionBufReset_eq (show (SectionBuf.holding w data).max = dvbMaxSectionBytes from rfl)]
      cases w with
      | true =>
        exact .inl ⟨true,[],synced_waiting (m := m.next .dropped) hpos.le (List.drop_eq_nil_iff.mpr hpos.ge) false⟩
      | false => exact .inr ⟨rfl,false,rfl⟩
  rw [if_neg herr]
  have hbuf : ∃ buf, r.buf.or (sectionBufInit dvbMaxSectionBytes) = some buf ∧
      ((∃ w data, Synced m ⟨buf,r.pos,r.start⟩ [] false w data) ∨ r.lost = true ∧ ∃ w, buf = .holding w []) := by
    cases hb : r.buf with
    | none => exact ⟨_,rfl,.inl ⟨true,[],synced_waiting hpos.le (List.drop_eq_nil_iff.mpr hpos.ge) false⟩⟩
    | some buf => exact ⟨buf,rfl,hlink buf hb⟩
  obtain ⟨buf,hsome,hstate⟩ := hbuf
  rw [hsome]
  by_cases hnil : p.payload = []
  · -- nothing to read
    have hsame : m.next (.received p.payload) = m := by
      rw [hnil]
      change { m with stream := m.stream ++ [] } = m
      rw [append_nil]
    simp only [hnil,length_nil,receivePayload,List.isEmpty_nil,Bool.not_true,Bool.and_false,
      Bool.not_false,Bool.and_true]
    rw [hnil] at hsame
    refine ⟨⟨trivial,trivial⟩,?_,?_⟩
    · rw [foldl_cons,hsame]
      exact hpos
    · rintro _ ⟨⟩
      rw [foldl_cons,hsame]
      exact hstate
  rcases hstate with ⟨w,data,hs⟩ | ⟨hlost,w,rfl⟩
  · obtain ⟨hacc,hlinked⟩ := receivePayload_linked (hs.received hpos p.payload p.payloadUnitStart) hnil
    exact ⟨⟨trivial,hacc⟩,hlinked _⟩
  by_cases hp : p.payloadUnitStart = true
  · have hs : Synced (m.next (.received p.payload)) ⟨.holding w [],r.pos,r.start⟩ p.payload
        p.payloadUnitStart w [] := by
      refine ⟨rfl,unfinished_nil,fun _ => rfl,?_,?_,fun _ => .inl ⟨hp,rfl⟩,fun hd => absurd rfl hd⟩
      · change r.pos ≤ (m.stream ++ p.payload).length
        rw [length_append]
        omega
      · change (m.stream ++ p.payload).drop r.pos = p.payload
        rw [hpos,drop_left]
    obtain ⟨hacc,hlinked⟩ := receivePayload_linked hs hnil
    exact ⟨⟨trivial,hacc⟩,hlinked _⟩
  · -- padding after a loss
    have hstart : p.payloadUnitStart = false := Bool.eq_false_iff.mpr hp
    have hpad : ∀ b ∈ p.payload, b = sectionPad := ((hok hlost).resolve_left herr).resolve_left hp
    obtain ⟨hevents,hbuf',hpos'⟩ :=
      receivePayload_padding (v := ⟨.holding w [],r.pos,r.start⟩) rfl hpad (Nat.le_refl _)
    simp only [hstart,hevents,hlost,Bool.false_and,Bool.not_false,Bool.and_true]
    refine ⟨⟨trivial,trivial⟩,?_,?_⟩
    · change _ = (m.stream ++ p.payload).length
      rw [length_append,hpos',hpos]
    · rintro _ ⟨⟩
      exact .inr ⟨rfl,w,hbuf'⟩

end Packet

/-- As long as only padding comes between a loss and the next unit start, every completed section of a run
begins where the stream says that one may begin. -/
theorem runTrace_receivePacket_accepted {ps : List TransportPayload}
    (hok : StepsMeet receivePacket PaddedAfterLoss .init ps) :
    Accepts StreamReader.next StreamReader.Good ⟨[], []⟩ (runTrace receivePacket .init ps).2 :=
  (runTrace_accepted Linked (fun _ _ _ hlinked hp => receivePacket_linked hlinked hp) linked_init hok).1

/-- In every run in which only padding comes between a loss and the next unit start, every completed section
begins where the stream says that one may begin. Sections cut into payloads without a loss are completed as they
are. -/
theorem section_buf_resynchronises (ps : List TransportPayload) : (StepsMeet receivePacket PaddedAfterLoss .init ps →
      Accepts StreamReader.next StreamReader.Good ⟨[], []⟩ (runTrace receivePacket .init ps).2) ∧
    ∀ secs, (∀ s ∈ secs, StreamSection s) → Packetised [] secs ps →
      completedSections (runTrace receivePacket .init ps).2 = secs := by
  constructor
  · exact fun hok => runTrace_receivePacket_accepted hok
  · intro secs hsecs hpacketised
    have hhas : Receiver.init.Has [] := ⟨_, true, rfl, rfl, fun _ => rfl⟩
    exact hpacketised.completed hsecs hhas (.inl ⟨rfl, rfl⟩)

def sectionHead : TransportPayload := ⟨true, false, [0, 0x42, 0xb0, 0x05, 0x01], by decide⟩

def afterGap : TransportPayload := ⟨false, true, [0x02, 0x03], by decide⟩

def sectionTail : TransportPayload := ⟨false, false, [0, 0, 0], by decide⟩

def wholeSection : TransportPayload := ⟨true, false, [0, 0x42, 0xb0, 0x01, 0x07], by decide⟩

theorem section_buf_resynchronises_gap : Accepts StreamReader.next StreamReader.Good ⟨[], []⟩
        (runTrace receivePacket .init [sectionHead, afterGap, wholeSection]).2 ∧
      completedSections (runTrace receivePacket .init
        [⟨true, false, [0, 0x42, 0xb0, 0x02], by decide⟩, ⟨false, false, [0x07, 0x08, 0xff], by decide⟩]).2 =
        [[0x42, 0xb0, 0x02, 0x07, 0x08]] := by
  constructor
  · exact (section_buf_resynchronises [sectionHead, afterGap, wholeSection]).1 (by decide)
  · apply (section_buf_resynchronises _).2 [[0x42, 0xb0, 0x02, 0x07, 0x08]] (by decide)
    have hend : Packetised ([0x07, 0x08] ++ []) [] [⟨false, false, [0x07, 0x08, 0xff], by decide⟩] :=
      .middle 1 ⟨rfl, rfl, rfl⟩ (fun _ => rfl) .done
    have hall : Packetised [] ([] ++ ([0x42, 0xb0, 0x02] ++ [0x07, 0x08]) :: [])
        [⟨true, false, [0, 0x42, 0xb0, 0x02], by decide⟩, ⟨false, false, [0x07, 0x08, 0xff], by decide⟩] :=
      .startCut ⟨rfl, rfl, rfl⟩ (by decide) (by decide) hend
    exact hall

/-- After the gap the rest of the section, which no pointer field announces, is taken for a section. -/
theorem section_buf_not_resynchronised : ¬ Accepts StreamReader.next StreamReader.Good ⟨[], []⟩
      (runTrace receivePacket .init [sectionHead, afterGap, sectionTail]).2 := by
  have hrun : (runTrace receivePacket .init [sectionHead, afterGap, sectionTail]).2 =
      [.received [0, 0x42, 0xb0, 0x05, 0x01], .announced 1, .dropped, .received [0, 0, 0]] ++
        .completed 5 8 [0, 0, 0] :: [] := by
    decide
  rw [hrun]
  intro haccepts
  obtain ⟨⟨origin, hmem, -⟩, -⟩ := haccepts.good_of_append
  cases hmem

end LinuxDvb.Ucsi
