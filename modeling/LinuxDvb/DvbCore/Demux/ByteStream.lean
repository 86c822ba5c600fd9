import LinuxDvb.Framework.Framing
import LinuxDvb.DvbCore.Demux.Swfilter

/-!
# Byte-stream entry points

`dvb_dmx_swfilter` and `dvb_dmx_swfilter_204` cut an unaligned byte stream into packets and keep the start of an
incomplete packet in `tsbuf`.
-/

namespace LinuxDvb.Demux

/-- The fields of `struct dvb_demux` that the byte-stream functions use. -/
structure DvbDemux where
  tsbuf : Mem UInt8
  tsbufp : Nat

/-- What distinguishes the two byte-stream functions: packets of `size` bytes start with a byte that
satisfies `sync`, and `pack` forms the packet for `dvb_dmx_swfilter_packet` from their first 188. -/
structure StreamFormat where
  size : Nat
  sync : UInt8 → Bool
  pack : List UInt8 → List UInt8

def format188 : StreamFormat where
  size := 188
  sync b := b = 0x47
  pack bytes := bytes

def format204 : StreamFormat where
  size := 204
  sync b := b = 0x47 ∨ b = 0xB8
  pack tmppack := if tmppack.getD 0 0 = 0xB8 then tmppack.set 0 0x47 else tmppack

/-- The `while` loop from offset `p` on. Every round advances `p`, so `count` rounds are enough. -/
def swfilterLoop (f : StreamFormat) (buf : Mem UInt8) (count : Nat) :
    Nat → Nat → DvbDemux → DvbDemux × List (List UInt8)
  | 0, _, demux => (demux, [])
  | fuel + 1, p, demux =>
    if p < count then
      if f.sync (buf p) then
        if count - p ≥ f.size then
          let rest := swfilterLoop f buf count fuel (p + f.size) demux
          (rest.1, f.pack (buf.slice p 188) :: rest.2)
        else
          let i := count - p
          ({ tsbuf := demux.tsbuf.write 0 (buf.slice p i), tsbufp := i }, [])
      else swfilterLoop f buf count fuel (p + 1) demux
    else (demux, [])

/-- The common body: an incomplete packet in `tsbuf` is filled up first. Returns the packets passed to
`dvb_dmx_swfilter_packet`. -/
def swfilterStream (f : StreamFormat) (demux : DvbDemux) (buf : Mem UInt8) (count : Nat) :
    DvbDemux × List (List UInt8) :=
  if demux.tsbufp ≠ 0 then
    let i := demux.tsbufp
    let j := f.size - i
    if count < j then
      ({ tsbuf := demux.tsbuf.write i (buf.slice 0 count), tsbufp := demux.tsbufp + count }, [])
    else
      let tsbuf := demux.tsbuf.write i (buf.slice 0 j)
      let packets := if f.sync (tsbuf 0) then [f.pack (tsbuf.slice 0 188)] else []
      let rest := swfilterLoop f buf count count j { tsbuf := tsbuf, tsbufp := 0 }
      (rest.1, packets ++ rest.2)
  else swfilterLoop f buf count count 0 demux

def dvbDmxSwfilter (demux : DvbDemux) (buf : List UInt8) : DvbDemux × List (List UInt8) :=
  swfilterStream format188 demux (.ofList buf) buf.length

def dvbDmxSwfilter204 (demux : DvbDemux) (buf : List UInt8) : DvbDemux × List (List UInt8) :=
  swfilterStream format204 demux (.ofList buf) buf.length

def DvbDemux.pending (demux : DvbDemux) : List UInt8 := demux.tsbuf.slice 0 demux.tsbufp

def StreamFormat.packet (f : StreamFormat) (frame : List UInt8) : List UInt8 := f.pack (frame.take 188)

private theorem slice_split (m : Mem UInt8) (p count n : Nat) (h : n ≤ count - p) :
    m.slice p (count - p) = m.slice p n ++ m.slice (p + n) (count - (p + n)) := by
  rw [← Mem.slice_add]
  congr 1
  omega

private theorem swfilterLoop_spec (f : StreamFormat) (hsize : 188 ≤ f.size) (buf : Mem UInt8)
    (count fuel p : Nat) (demux : DvbDemux) (hp : demux.tsbufp = 0) (hfuel : count - p ≤ fuel) :
    let r := swfilterLoop f buf count fuel p demux
    let s := runTrace (frameSymbol f.size f.sync) [] (buf.slice p (count - p))
    r.1.tsbufp < f.size ∧ r.1.pending = s.1 ∧ r.2 = s.2.map f.packet := by
  induction fuel generalizing p with
  | zero =>
    rw [show count - p = 0 by omega]
    exact ⟨by simp only [swfilterLoop]; omega,by simp [swfilterLoop,DvbDemux.pending,hp],rfl⟩
  | succ fuel ih =>
    simp only [swfilterLoop]
    by_cases hlt : p < count
    · rw [if_pos hlt]
      have hcons : buf.slice p (count - p) = buf p :: buf.slice (p + 1) (count - (p + 1)) := by
        rw [slice_split buf p count 1 (by omega)]
        rfl
      by_cases hsync : f.sync (buf p) = true
      · rw [if_pos hsync]
        by_cases hwhole : count - p ≥ f.size
        · -- a whole frame lies in the chunk
          rw [if_pos hwhole]
          obtain ⟨h1,h2,h3⟩ := ih (p + f.size) (by omega)
          have hframe : buf.slice p f.size = buf p :: buf.slice (p + 1) (f.size - 1) := by
            obtain ⟨n,hn⟩ : ∃ n, f.size = n + 1 := ⟨f.size - 1,by omega⟩
            rw [hn]
            rfl
          have hlen : (buf.slice (p + 1) (f.size - 1)).length + 1 = f.size := by
            rw [Mem.length_slice]
            omega
          have hne : buf.slice (p + 1) (f.size - 1) ≠ [] := by
            rw [← length_pos_iff]
            omega
          rw [slice_split buf p count f.size hwhole,runTrace_append,hframe,
            frame_open_complete hsync hne hlen,← hframe]
          refine ⟨h1,h2,?_⟩
          rw [h3,map_append,List.map_singleton,StreamFormat.packet,Mem.take_slice _ _ _ _ hsize]
          rfl
        · rw [if_neg hwhole,hcons,frame_open_grow hsync (by rw [Mem.length_slice]; omega),← hcons]
          refine ⟨by dsimp only; omega,?_,rfl⟩
          have hself := Mem.slice_write_self demux.tsbuf 0 (buf.slice p (count - p))
          rwa [Mem.length_slice] at hself
      · rw [if_neg hsync,hcons,runTrace_cons,frameSymbol_skip (by simpa using hsync)]
        simpa using ih (p + 1) (by omega)
    · rw [if_neg hlt,show count - p = 0 by omega]
      exact ⟨by dsimp only; omega,by simp [DvbDemux.pending,hp],rfl⟩

private theorem swfilterStream_spec (f : StreamFormat) (hsize : 188 ≤ f.size) (demux : DvbDemux)
    (buf : List UInt8) (h : demux.tsbufp < f.size) :
    let r := swfilterStream f demux (.ofList buf) buf.length
    let s := runTrace (frameSymbol f.size f.sync) demux.pending buf
    r.1.tsbufp < f.size ∧ r.1.pending = s.1 ∧ r.2 = s.2.map f.packet := by
  have hpend : demux.pending.length = demux.tsbufp := Mem.length_slice _ _ _
  have hbuf := Mem.slice_ofList buf
  generalize hm : Mem.ofList buf = m at hbuf
  simp only [swfilterStream]
  by_cases hz : demux.tsbufp = 0
  · rw [if_neg (by simpa using hz)]
    have hnil : demux.pending = [] := length_eq_zero_iff.mp (hpend.trans hz)
    have hloop := swfilterLoop_spec f hsize m buf.length buf.length 0 demux hz (by omega)
    rw [Nat.sub_zero,hbuf] at hloop
    rw [hnil]
    exact hloop
  · have hopen : demux.pending ≠ [] := by
      rw [← length_pos_iff]
      omega
    rw [if_pos hz]
    by_cases hshort : buf.length < f.size - demux.tsbufp
    · rw [if_pos hshort,frame_grow hopen (by omega),hbuf]
      refine ⟨by dsimp only; omega,?_,rfl⟩
      have happend := Mem.slice_write_append demux.tsbuf 0 demux.tsbufp buf
      rwa [Nat.zero_add] at happend
    · rw [if_neg hshort]
      -- the open frame is completed by the first bytes of the chunk
      have hsplit := slice_split m 0 buf.length (f.size - demux.tsbufp) (by omega)
      rw [Nat.sub_zero,hbuf,Nat.zero_add] at hsplit
      have hlen : (m.slice 0 (f.size - demux.tsbufp)).length = f.size - demux.tsbufp :=
        Mem.length_slice _ _ _
      have hne : m.slice 0 (f.size - demux.tsbufp) ≠ [] := by
        rw [← length_pos_iff]
        omega
      have hloop := swfilterLoop_spec f hsize m buf.length buf.length (f.size - demux.tsbufp)
        ⟨demux.tsbuf.write demux.tsbufp (m.slice 0 (f.size - demux.tsbufp)),0⟩ rfl (by omega)
      obtain ⟨h1,h2,h3⟩ := hloop
      have hframe : (demux.tsbuf.write demux.tsbufp (m.slice 0 (f.size - demux.tsbufp))).slice 0 f.size =
          demux.pending ++ m.slice 0 (f.size - demux.tsbufp) := by
        have happend := Mem.slice_write_append demux.tsbuf 0 demux.tsbufp
          (m.slice 0 (f.size - demux.tsbufp))
        rwa [Nat.zero_add,hlen,Nat.add_sub_cancel' (Nat.le_of_lt h)] at happend
      generalize demux.tsbuf.write demux.tsbufp (m.slice 0 (f.size - demux.tsbufp)) = tsbuf at *
      have hhead : (demux.pending ++ m.slice 0 (f.size - demux.tsbufp)).head?.any f.sync =
          f.sync (tsbuf 0) := by
        rw [List.head?_eq_getElem?,Mem.apply_of_slice_eq hframe (by omega)]
        rfl
      have hrun := runTrace_append (frameSymbol f.size f.sync) demux.pending
        (m.slice 0 (f.size - demux.tsbufp))
        (m.slice (f.size - demux.tsbufp) (buf.length - (f.size - demux.tsbufp)))
      rw [frame_complete hopen hne (by omega),← hsplit,hhead] at hrun
      rw [hrun]
      refine ⟨h1,h2,?_⟩
      rw [h3,map_append]
      split
      · rw [List.map_singleton,StreamFormat.packet,← hframe,Mem.take_slice _ _ _ _ hsize]
      · rfl

/-- A run over the chunks `chunks` of a stream agrees with one call on the whole stream. -/
structure SameStream (size : Nat) (r whole : DvbDemux × List (List UInt8)) : Prop where
  packets : r.2 = whole.2
  length_packets : ∀ packet ∈ r.2, packet.length = 188
  tsbufp : r.1.tsbufp = whole.1.tsbufp
  tsbuf : r.1.tsbuf.slice 0 r.1.tsbufp = whole.1.tsbuf.slice 0 whole.1.tsbufp
  tsbufp_lt : r.1.tsbufp < size

private theorem sameStream (f : StreamFormat) (hsize : 188 ≤ f.size)
    (hpack : ∀ bytes : List UInt8, bytes.length = 188 → (f.pack bytes).length = 188)
    (demux : DvbDemux) (h : demux.tsbufp < f.size) (chunks : List (List UInt8)) :
    SameStream f.size
      (runTrace (fun demux buf => swfilterStream f demux (.ofList buf) buf.length) demux chunks)
      (swfilterStream f demux (.ofList chunks.flatten) chunks.flatten.length) := by
  obtain ⟨h1,h2,h3⟩ := chunks_refine (swfilterStream_spec f hsize) h chunks
  obtain ⟨-,h2',h3'⟩ := swfilterStream_spec f hsize demux chunks.flatten h
  have hpending := h2.trans h2'.symm
  refine ⟨h3.trans h3'.symm,?_,?_,hpending,h1⟩
  · rw [h3]
    intro packet hmem
    obtain ⟨frame,hframe,rfl⟩ := mem_map.mp hmem
    have hpend : demux.pending.length < f.size := by
      rw [DvbDemux.pending,Mem.length_slice]
      exact h
    have hlen := length_of_mem_frames hpend frame hframe
    exact hpack _ (by rw [length_take,hlen]; omega)
  · simpa [DvbDemux.pending] using congrArg List.length hpending

/-- Both byte-stream functions are independent of how the stream is cut into chunks. -/
theorem dvbDmxSwfilter_chunks (demux : DvbDemux) (chunks : List (List UInt8)) : (demux.tsbufp < 188 →
        SameStream 188 (runTrace dvbDmxSwfilter demux chunks) (dvbDmxSwfilter demux chunks.flatten)) ∧
      (demux.tsbufp < 204 → SameStream 204 (runTrace dvbDmxSwfilter204 demux chunks)
          (dvbDmxSwfilter204 demux chunks.flatten)) := by
  refine ⟨fun h => ?_, fun h => ?_⟩
  · exact sameStream format188 (by decide) (fun _ h => h) demux h chunks
  · refine sameStream format204 (by decide) (fun bytes hlen => ?_) demux h chunks
    simp only [format204]
    split
    · rw [List.length_set, hlen]
    · exact hlen

/-- A stream with garbage in front of two packets, cut inside the first of them. -/
theorem dvbDmxSwfilter_chunks_cut : SameStream 188
        (runTrace dvbDmxSwfilter ⟨fun _ => 0, 0⟩ [[1, 2, 0x47, 3], List.replicate 187 0x47])
        (dvbDmxSwfilter ⟨fun _ => 0, 0⟩ [[1, 2, 0x47, 3], List.replicate 187 0x47].flatten) ∧
      SameStream 204
        (runTrace dvbDmxSwfilter204 ⟨fun _ => 0, 0⟩ [[1, 2, 0xB8, 3], List.replicate 203 0x47])
        (dvbDmxSwfilter204 ⟨fun _ => 0, 0⟩ [[1, 2, 0xB8, 3], List.replicate 203 0x47].flatten) :=
  ⟨(dvbDmxSwfilter_chunks ⟨fun _ => 0, 0⟩ [[1, 2, 0x47, 3], List.replicate 187 0x47]).1 (by decide),
    (dvbDmxSwfilter_chunks ⟨fun _ => 0, 0⟩ [[1, 2, 0xB8, 3], List.replicate 203 0x47]).2 (by decide)⟩

end LinuxDvb.Demux
