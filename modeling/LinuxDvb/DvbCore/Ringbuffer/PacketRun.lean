import LinuxDvb.DvbCore.Ringbuffer.Packet

/-!
# Histories of the packet layer

A ring buffer is followed together with the packets that are in it, each with its bytes and whether it has been
disposed.
-/

namespace LinuxDvb.Ringbuffer

structure PacketRun where
  rbuf : DvbRingbuffer
  packets : List Packet

inductive PktOp where
  | write (buf : List UInt8)
  | next (idx : Option Nat)
  | read (idx offset len : Nat) (usermem : Bool)
  | dispose (idx : Nat)
  | iterate

/-- The loop of a client that calls `dvb_ringbuffer_pkt_next` from -1 on. -/
def pktIterate (rbuf : DvbRingbuffer) : Nat → Option Nat → List (Nat × Nat)
  | 0, _ => []
  | fuel + 1, idx =>
    match dvbRingbufferPktNext rbuf idx with
    | none => []
    | some r => r :: pktIterate rbuf fuel (some r.1)

def markDisposed (rbuf : DvbRingbuffer) (idx : Nat) (pre : List Packet) : List Packet → List Packet
  | [] => []
  | p :: post =>
    if indexAfter rbuf pre = idx then { p with disposed := true } :: post
    else p :: markDisposed rbuf idx (pre ++ [p]) post

def PacketRun.after (s : PacketRun) : PktOp → List Packet
  | .write buf =>
    if h : buf ≠ [] ∧ buf.length ≤ 65535 then s.packets ++ [⟨buf, false, h.1, h.2⟩] else s.packets
  | .dispose idx => (markDisposed s.rbuf idx [] s.packets).dropWhile Packet.disposed
  | _ => s.packets

def pktOp (rbuf : DvbRingbuffer) : PktOp → DvbRingbuffer
  | .write buf => (dvbRingbufferPktWrite rbuf buf).1
  | .dispose idx => dvbRingbufferPktDispose rbuf idx
  | _ => rbuf

def packetRunStep (s : PacketRun) (op : PktOp) : PacketRun × List Unit := (⟨pktOp s.rbuf op, s.after op⟩, [])

/-- The index is that of the packet `p`, behind the packets `pre`. -/
def PacketRun.At (s : PacketRun) (idx : Nat) (pre : List Packet) (p : Packet) (post : List Packet) : Prop :=
  s.packets = pre ++ p :: post ∧ idx = indexAfter s.rbuf pre

def PktAdmits (s : PacketRun) : PktOp → Prop
  | .write buf => 1 ≤ buf.length ∧ buf.length ≤ 65535 ∧
      ((buf.length + dvbRingbufferPkthdrsize : Nat) : Int) ≤ dvbRingbufferFree s.rbuf
  | .next (some idx) => ∃ pre p post, s.At idx pre p post
  | .read idx _ _ _ => ∃ pre p post, s.At idx pre p post
  | .dispose idx => ∃ pre p post, s.At idx pre p post
  | _ => True

/-- The walk of `dvb_ringbuffer_pkt_next` from the packet at `idx` on is not led astray. -/
def NextOk (s : PacketRun) (idx : Nat) : Prop :=
  ∀ pre p post, s.At idx pre p post → WalkOk (drift s.rbuf (wires (pre ++ [p])).length) post

def PktOk (s : PacketRun) : PktOp → Prop
  | .next (some idx) => NextOk s idx
  | .iterate => ∀ pre p post, s.packets = pre ++ p :: post → p.disposed = false →
      NextOk s (indexAfter s.rbuf pre)
  | _ => True

def readyPackets (rbuf : DvbRingbuffer) (pre : List Packet) : List Packet → List (Nat × Nat)
  | [] => []
  | p :: rest =>
    if p.disposed then readyPackets rbuf (pre ++ [p]) rest
    else (indexAfter rbuf pre, p.bytes.length) :: readyPackets rbuf (pre ++ [p]) rest

def PktCorrect (s : PacketRun) : PktOp → Prop
  | .write buf => (dvbRingbufferPktWrite s.rbuf buf).2 = buf.length
  | .next none => dvbRingbufferPktNext s.rbuf none = nextReady s.rbuf [] s.packets
  | .next (some idx) => ∀ pre p post, s.At idx pre p post →
      dvbRingbufferPktNext s.rbuf (some idx) = nextReady s.rbuf (pre ++ [p]) post
  | .read idx offset len usermem => ∀ pre p post, s.At idx pre p post → offset ≤ p.bytes.length →
      dvbRingbufferPktRead s.rbuf idx offset len usermem (fun _ => false) =
        ((((p.bytes.drop offset).take len).length : Int), (p.bytes.drop offset).take len)
  | .dispose idx => (dvbRingbufferPktDispose s.rbuf idx).contents =
      wires ((markDisposed s.rbuf idx [] s.packets).dropWhile Packet.disposed)
  | .iterate => pktIterate s.rbuf (s.rbuf.size + 1) none = readyPackets s.rbuf [] s.packets

/-- The ring holds the packets, and the space of the leading disposed ones is free again. -/
structure PacketRun.Inv (s : PacketRun) : Prop where
  holds : HoldsPackets s.rbuf s.packets
  freed : ∀ p ∈ s.packets.head?, p.disposed = false
  size_lt : s.rbuf.size < 2 ^ 31

private theorem indexAfter_inj {rbuf : DvbRingbuffer} {pre pre' : List Packet} {p p' : Packet}
    {post post' : List Packet} (h : HoldsPackets rbuf (pre ++ p :: post))
    (h' : HoldsPackets rbuf (pre' ++ p' :: post')) (heq : indexAfter rbuf pre = indexAfter rbuf pre') :
    (wires pre).length = (wires pre').length := by
  have hlt := h.valid.fill_lt
  have hfill := h.fill_split
  have hfill' := h'.fill_split
  exact Mem.ring_index_inj (by omega) (by omega) heq

private theorem markDisposed_eq {rbuf : DvbRingbuffer} {pre : List Packet} {p : Packet}
    {post : List Packet} (acc : List Packet) (h : HoldsPackets rbuf (acc ++ (pre ++ p :: post))) :
    markDisposed rbuf (indexAfter rbuf (acc ++ pre)) acc (pre ++ p :: post) =
      pre ++ { p with disposed := true } :: post := by
  induction pre generalizing acc with
  | nil => simp [markDisposed]
  | cons q pre ih =>
    have hne : indexAfter rbuf acc ≠ indexAfter rbuf (acc ++ q :: pre) := by
      intro heq
      have hlen := indexAfter_inj (by simpa using h)
        (show HoldsPackets rbuf ((acc ++ q :: pre) ++ p :: post) by simpa using h) heq
      simp only [wires_append,wires_cons,length_append,length_wire] at hlen
      omega
    have hrest := ih (acc ++ [q]) (by simpa using h)
    rw [append_assoc,singleton_append] at hrest
    rw [cons_append,markDisposed,if_neg hne,hrest]
    rfl

private theorem pktIterate_spec {rbuf : DvbRingbuffer} (hsize : rbuf.size ≤ sizeModulus)
    {pre rest : List Packet} (h : HoldsPackets rbuf (pre ++ rest))
    (hok : ∀ pre' p post, pre ++ rest = pre' ++ p :: post → p.disposed = false →
      WalkOk (drift rbuf (wires (pre' ++ [p])).length) post)
    (fuel : Nat) (hfuel : rest.length < fuel) (idx : Option Nat)
    (hidx : dvbRingbufferPktNext rbuf idx = nextReady rbuf pre rest) :
    pktIterate rbuf fuel idx = readyPackets rbuf pre rest := by
  induction rest generalizing pre fuel idx with
  | nil =>
    obtain ⟨fuel,rfl⟩ : ∃ k, fuel = k + 1 := ⟨fuel - 1,by omega⟩
    simp only [pktIterate,hidx,nextReady,readyPackets]
  | cons p rest ih =>
    have hassoc : (pre ++ [p]) ++ rest = pre ++ p :: rest := by simp
    cases hd : p.disposed with
    | true =>
      simp only [nextReady,hd,if_true] at hidx
      simp only [readyPackets,hd,if_true]
      exact ih (by rwa [hassoc]) (by rwa [hassoc]) fuel (by simp only [length_cons] at hfuel; omega)
        idx hidx
    | false =>
      obtain ⟨fuel,rfl⟩ : ∃ k, fuel = k + 1 := ⟨fuel - 1,by omega⟩
      simp only [nextReady,hd,Bool.false_eq_true,if_false] at hidx
      simp only [pktIterate,hidx,readyPackets,hd,Bool.false_eq_true,if_false]
      congr 1
      have hnext := h.pktNext_after hsize (hok pre p rest rfl hd)
      exact ih (by rwa [hassoc]) (by rwa [hassoc]) fuel (by simpa using hfuel) _ hnext

private theorem dropWhile_head_ready (ps : List Packet) :
    ∀ p ∈ (ps.dropWhile Packet.disposed).head?, p.disposed = false := by
  intro p hp
  have hne := List.head?_dropWhile_not Packet.disposed ps
  rw [mem_def.mp hp] at hne
  simpa using hne

private theorem packetRun_step (s : PacketRun) (op : PktOp) (h : s.Inv) (hop : PktAdmits s op ∧ PktOk s op) :
    (packetRunStep s op).1.Inv ∧ s.Inv ∧ PktCorrect s op := by
  obtain ⟨hadm,hok⟩ := hop
  have hlt := h.size_lt
  have hsize : s.rbuf.size ≤ sizeModulus := by
    rw [sizeModulus]
    omega
  cases op with
  | write buf =>
    obtain ⟨h1,h2,hfit⟩ := hadm
    have hbuf : buf ≠ [] ∧ buf.length ≤ 65535 := ⟨length_pos_iff.mp h1,h2⟩
    obtain ⟨hw,hs,-,hret⟩ := @HoldsPackets.pktWrite_spec _ _ ⟨buf,false,hbuf.1,hbuf.2⟩ h.holds rfl hfit
    have hafter : s.after (.write buf) = s.packets ++ [⟨buf,false,hbuf.1,hbuf.2⟩] := by
      simp only [PacketRun.after,dif_pos hbuf]
    refine ⟨⟨?_,?_,?_⟩,h,hret⟩
    · simp only [packetRunStep,hafter]
      exact hw
    · simp only [packetRunStep,hafter]
      intro p hp
      cases hps : s.packets with
      | nil =>
        rw [hps] at hp
        rw [← Option.some.inj (mem_def.mp hp)]
      | cons q qs =>
        rw [hps] at hp
        exact h.freed p (by rw [hps]; exact hp)
    · exact hs.trans_lt hlt
  | next idx =>
    refine ⟨h,h,?_⟩
    cases idx with
    | none => exact h.holds.pktNext_first hsize
    | some idx =>
      rintro pre p post ⟨hps,rfl⟩
      have hh := h.holds
      rw [hps] at hh
      exact hh.pktNext_after hsize (hok pre p post ⟨hps,rfl⟩)
  | read idx offset len usermem =>
    refine ⟨h,h,?_⟩
    rintro pre p post ⟨hps,rfl⟩ hoff
    have hh := h.holds
    rw [hps] at hh
    exact hh.pktRead_spec hoff len usermem
  | dispose idx =>
    obtain ⟨pre,p,post,hps,rfl⟩ := hadm
    have hh := h.holds
    rw [hps] at hh
    have hmark : markDisposed s.rbuf (indexAfter s.rbuf pre) [] s.packets =
        pre ++ { p with disposed := true } :: post := by
      rw [hps]
      exact markDisposed_eq [] hh
    obtain ⟨hd,hs,-⟩ := hh.pktDispose_spec
    rw [← hmark] at hd
    exact ⟨⟨hd,dropWhile_head_ready _,hs.trans_lt hlt⟩,h,hd.contents_eq⟩
  | iterate =>
    refine ⟨h,h,?_⟩
    have hlen : s.packets.length < s.rbuf.size + 1 := by
      have h1 := length_le_length_wires s.packets
      have h2 := h.holds.valid.fill_lt
      rw [h.holds.fill_eq] at h2
      omega
    exact @pktIterate_spec s.rbuf hsize [] s.packets h.holds
      (fun pre p post hps hd => hok pre p post hps hd pre p post ⟨hps,rfl⟩) _ hlen none
      (h.holds.pktNext_first hsize)

def emptyRun (data : Mem UInt8) (size : Nat) : PacketRun := ⟨dvbRingbufferInit data size, []⟩

/-- In every history whose walks are not led astray, the ring holds the packets that were written and
not freed, `pkt_next` and `pkt_read` answer accordingly, and a disposal frees exactly the leading run of
disposed packets. -/
theorem packetLayer_correct (data : Mem UInt8) (size : Nat) (hpos : 1 ≤ size) (hsize : size < 2 ^ 31) (ops : List PktOp)
    (hops : StepsMeet packetRunStep (fun s op => PktAdmits s op ∧ PktOk s op) (emptyRun data size) ops) :
    StepsMeet packetRunStep (fun s op => s.Inv ∧ PktCorrect s op) (emptyRun data size) ops ∧
      (runTrace packetRunStep (emptyRun data size) ops).1.Inv := by
  have hinit : (emptyRun data size).Inv :=
    ⟨⟨init_valid data hpos, init_contents data size⟩, by simp [emptyRun], hsize⟩
  constructor
  · exact stepsMeet_of_invariant PacketRun.Inv packetRun_step hinit hops
  · exact runTrace_invariant PacketRun.Inv (fun s op h hop => (packetRun_step s op h hop).1) hinit hops

private theorem at_singleton {s : PacketRun} {q : Packet} (hs : s.packets = [q]) {idx : Nat}
    {pre post : List Packet} {p : Packet} (h : s.At idx pre p post) : pre = [] ∧ p = q ∧ post = [] := by
  have hps := hs.symm.trans h.1
  cases pre with
  | nil =>
    simp only [nil_append,List.cons.injEq] at hps
    exact ⟨rfl,hps.1.symm,hps.2.symm⟩
  | cons r pre => simp at hps

theorem packetLayer_correct_single :
    StepsMeet packetRunStep (fun s op => PktAdmits s op ∧ PktOk s op) (emptyRun (fun _ => 0) 10)
        [.write [7], .next none, .next (some 0), .read 0 0 1 false, .dispose 0] ∧
      StepsMeet packetRunStep (fun s op => s.Inv ∧ PktCorrect s op) (emptyRun (fun _ => 0) 10)
        [.write [7], .next none, .next (some 0), .read 0 0 1 false, .dispose 0] := by
  have hops : StepsMeet packetRunStep (fun s op => PktAdmits s op ∧ PktOk s op) (emptyRun (fun _ => 0) 10)
      [.write [7], .next none, .next (some 0), .read 0 0 1 false, .dispose 0] := by
    have hq : (7 : UInt8) :: [] ≠ [] ∧ [(7 : UInt8)].length ≤ 65535 := by decide
    refine ⟨⟨⟨by decide, by decide, by decide⟩, trivial⟩, ⟨trivial, trivial⟩,
      ⟨⟨[], ⟨[7], false, hq.1, hq.2⟩, [], rfl, rfl⟩, ?_⟩,
      ⟨⟨[], ⟨[7], false, hq.1, hq.2⟩, [], rfl, rfl⟩, trivial⟩,
      ⟨⟨[], ⟨[7], false, hq.1, hq.2⟩, [], rfl, rfl⟩, trivial⟩, trivial⟩
    intro pre p post hat
    obtain ⟨rfl, rfl, rfl⟩ := at_singleton rfl hat
    simp only [WalkOk]
    decide
  exact ⟨hops, (packetLayer_correct (fun _ => 0) 10 (by decide) (by decide) _ hops).1⟩

/-- In a ring of ten bytes the packets `8` and `9` are left, the second one over the end of the ring; the
iteration then reports a third packet in freed space. -/
theorem packetLayer_not_correct : ¬ ∀ (data : Mem UInt8) (size : Nat), 1 ≤ size → size < 2 ^ 31 → ∀ ops : List PktOp,
      StepsMeet packetRunStep PktAdmits (emptyRun data size) ops →
        StepsMeet packetRunStep PktCorrect (emptyRun data size) ops := by
  intro h
  have hops : StepsMeet packetRunStep PktAdmits (emptyRun (fun _ => 0) 10)
      [.write [7], .write [8], .dispose 0, .write [9], .iterate] := by
    have h7 : (7 : UInt8) :: [] ≠ [] ∧ [(7 : UInt8)].length ≤ 65535 := by decide
    have h8 : (8 : UInt8) :: [] ≠ [] ∧ [(8 : UInt8)].length ≤ 65535 := by decide
    exact ⟨⟨by decide, by decide, by decide⟩, ⟨by decide, by decide, by decide⟩,
      ⟨[], ⟨[7], false, h7.1, h7.2⟩, [⟨[8], false, h8.1, h8.2⟩], rfl, rfl⟩,
      ⟨by decide, by decide, by decide +kernel⟩, trivial, trivial⟩
  obtain ⟨-, -, -, -, hiter, -⟩ := h (fun _ => 0) 10 (by decide) (by decide) _ hops
  simp only [PktCorrect] at hiter
  exact absurd hiter (by decide +kernel)

end LinuxDvb.Ringbuffer
