import LinuxDvb.DvbCore.Demux.SectionPacket
import LinuxDvb.Framework.BitCodes
import LinuxDvb.Framework.Trace

/-!
# PES packets in transport packets

`dvb_filter_pes2ts` cuts a PES into the payloads of transport packets and passes each of them to a callback. The last
one is filled by an adaptation field, which is a single byte if it is 0, and has flags and stuffing otherwise.
-/

namespace LinuxDvb.DvbFilter

open BitCodes Demux

/-- `struct dvb_filter_pes2ts`; the callback is an argument of the functions. -/
structure Pes2Ts where
  buf : List UInt8
  cc : UInt8
deriving DecidableEq, Repr

/-- `memcpy` or `memset` into a buffer; a buffer that is left behind its end grows. -/
def overwrite (buf : List UInt8) (off : Nat) (xs : List UInt8) : List UInt8 :=
  buf.take off ++ (xs ++ buf.drop (off + xs.length))

def dvbFilterPes2TsInit (p2ts : Pes2Ts) (pid : UInt16) : Pes2Ts :=
  { buf := ((p2ts.buf.set 0 0x47).set 1 (pid >>> 8).toUInt8).set 2 (pid &&& 0xff).toUInt8
    cc := 0 }

section Code

-- the result of the callback for a packet
variable (cb : List UInt8 → Int)

def wholePacket (p2ts : Pes2Ts) (pes : List UInt8) : Pes2Ts :=
  { buf := overwrite (p2ts.buf.set 3 (0x10 ||| (p2ts.cc &&& 0x0f))) 4 (pes.take 184)
    cc := p2ts.cc + 1 }

def clearStart (p2ts : Pes2Ts) : Pes2Ts := { p2ts with buf := p2ts.buf.modify 1 (· &&& 0xbf) }

/-- The loop over whole packets, with the bytes that are left, or the result of a callback that is not 0. -/
def wholePackets (p2ts : Pes2Ts) (pes : List UInt8) : Pes2Ts × List (List UInt8) × Except Int (List UInt8) :=
  if 184 ≤ pes.length then
    let sent := wholePacket p2ts pes
    if cb sent.buf ≠ 0 then (sent, [sent.buf], .error (cb sent.buf))
    else
      let later := wholePackets (clearStart sent) (pes.drop 184)
      (later.1, sent.buf :: later.2.1, later.2.2)
  else (p2ts, [], .ok pes)
termination_by pes.length
decreasing_by
  rw [List.length_drop]
  omega

def lastPacket (p2ts : Pes2Ts) (pes : List UInt8) : Pes2Ts :=
  let rest := 183 - pes.length
  let buf := p2ts.buf.set 3 (0x30 ||| (p2ts.cc &&& 0x0f))
  let buf :=
    if rest ≠ 0 then
      let buf := buf.set 5 0x00
      if rest - 1 ≠ 0 then overwrite buf 6 (List.replicate (rest - 1) 0xff) else buf
    else buf
  { buf := overwrite (buf.set 4 (UInt8.ofNat rest)) (5 + rest) pes
    cc := p2ts.cc + 1 }

/-- `dvb_filter_pes2ts`: its result, and the packets passed to the callback. -/
def dvbFilterPes2Ts (p2ts : Pes2Ts) (pes : List UInt8) (payloadStart : Bool) : Int × Pes2Ts × List (List UInt8) :=
  let p2ts :=
    if payloadStart then { p2ts with buf := p2ts.buf.modify 1 (· ||| 0x40) } else clearStart p2ts
  let whole := wholePackets cb p2ts pes
  match whole.2.2 with
  | .error ret => (ret, whole.1, whole.2.1)
  | .ok [] => (0, whole.1, whole.2.1)
  | .ok (b :: rest) =>
    let sent := lastPacket whole.1 (b :: rest)
    (cb sent.buf, sent, whole.2.1 ++ [sent.buf])

def pes2TsStep (p2ts : Pes2Ts) (call : List UInt8 × Bool) : Pes2Ts × List (List UInt8) :=
  (dvbFilterPes2Ts cb p2ts call.1 call.2).2

end Code

/-- A PES as it is passed, in one call or in several; only the first has `payload_start`, and it has
bytes if there are any. -/
structure Pes where
  first : List UInt8
  more : List (List UInt8)
  starts : first = [] → more.flatten = []

def Pes.bytes (pes : Pes) : List UInt8 := pes.first ++ pes.more.flatten

def Pes.calls (pes : Pes) : List (List UInt8 × Bool) := (pes.first, true) :: pes.more.map (·, false)

def passAll (cb : List UInt8 → Int) : Pes2Ts → List Pes → List (List (List UInt8))
  | _, [] => []
  | p2ts, pes :: rest =>
    let run := runTrace (pes2TsStep cb) p2ts pes.calls
    run.2 :: passAll cb run.1 rest

/-- What `dvb_dmx_swfilter_payload` cuts out of a packet. -/
def cutPayload (packet : List UInt8) : List UInt8 :=
  (Mem.ofList packet).slice (188 - payload (Mem.ofList packet)) (payload (Mem.ofList packet))

def counter (packet : List UInt8) : Nat := (Mem.ofList packet 3 &&& 0x0f).toNat

structure Undone (pid : UInt16) (pes : List Pes) (packets : List (List (List UInt8))) : Prop where
  length : ∀ packet ∈ packets.flatten, packet.length = 188
  pid : ∀ packet ∈ packets.flatten, tsPid (Mem.ofList packet) = pid.toNat
  payloads : packets.map (fun own => own.flatMap cutPayload) = pes.map Pes.bytes
  starts : ∀ own ∈ packets, ∀ i packet, own[i]? = some packet →
    payloadUnitStart (Mem.ofList packet) = decide (i = 0)
  counters : packets.flatten.map counter = (List.range packets.flatten.length).map (· % 16)

def CarriesPart (pid : UInt16) (n : Nat) (start : Bool) (pl packet : List UInt8) : Prop :=
  ∃ tsp : TsPacket, tsp.bytes = packet ∧ Carries tsp start (n % 16) pl ∧ tsPid tsp.mem = pid.toNat

/-- Packets from number `n` on carry the bytes, the first of them with the flag. -/
def CarriesAll (pid : UInt16) : Nat → Bool → List UInt8 → List (List UInt8) → Prop
  | _, _, bytes, [] => bytes = []
  | n, start, bytes, packet :: packets =>
    ∃ pl rest, bytes = pl ++ rest ∧ CarriesPart pid n start pl packet ∧ CarriesAll pid (n + 1) false rest packets

section Carried

variable {pid : UInt16} {n : Nat} {start : Bool} {bytes pl packet : List UInt8} {packets : List (List UInt8)}

theorem mem_ofList_bytes (tsp : TsPacket) : Mem.ofList tsp.bytes = tsp.mem := rfl

theorem CarriesPart.cutPayload_eq (h : CarriesPart pid n start pl packet) : cutPayload packet = pl := by
  obtain ⟨tsp,rfl,hcarries,-⟩ := h
  rw [cutPayload,mem_ofList_bytes,hcarries.payload_eq,hcarries.slice_payload]

theorem CarriesPart.counter_eq (h : CarriesPart pid n start pl packet) : counter packet = n % 16 := by
  obtain ⟨tsp,rfl,hcarries,-⟩ := h
  exact hcarries.cc_eq

theorem CarriesPart.start_eq (h : CarriesPart pid n start pl packet) :
    payloadUnitStart (Mem.ofList packet) = start := by
  obtain ⟨tsp,rfl,hcarries,-⟩ := h
  exact hcarries.payloadUnitStart_eq

theorem CarriesAll.eq_nil (h : CarriesAll pid n start [] packets) : packets = [] := by
  cases packets with
  | nil => rfl
  | cons packet packets =>
    obtain ⟨pl,rest,hnil,⟨tsp,-,hcarries,-⟩,-⟩ := h
    have hpl : pl = [] := (append_eq_nil_iff.mp hnil.symm).1
    have hpos := hcarries.length_pos
    rw [hpl] at hpos
    exact absurd hpos (Nat.lt_irrefl 0)

theorem CarriesAll.append {more : List UInt8} {packets' : List (List UInt8)}
    (h : CarriesAll pid n start bytes packets) (hmore : CarriesAll pid (n + packets.length) false more packets')
    (hstarts : bytes = [] → more = []) : CarriesAll pid n start (bytes ++ more) (packets ++ packets') := by
  induction packets generalizing n start bytes with
  | nil =>
    obtain rfl : bytes = [] := h
    obtain rfl := hstarts rfl
    obtain rfl := hmore.eq_nil
    exact nil_append _
  | cons packet packets ih =>
    obtain ⟨pl,rest,rfl,hpart,hrest⟩ := h
    rw [length_cons,Nat.add_comm packets.length,← Nat.add_assoc] at hmore
    refine ⟨pl,rest ++ more,append_assoc pl rest more,hpart,?_⟩
    cases rest with
    | nil =>
      obtain rfl := hrest.eq_nil
      exact hmore
    | cons b rest => exact ih hrest hmore (fun hnil => absurd hnil (cons_ne_nil b rest))

theorem CarriesAll.forall_part (h : CarriesAll pid n start bytes packets) :
    ∀ packet ∈ packets, packet.length = 188 ∧ tsPid (Mem.ofList packet) = pid.toNat := by
  induction packets generalizing n start bytes with
  | nil => simp
  | cons packet packets ih =>
    obtain ⟨pl,rest,-,⟨tsp,rfl,-,hpid⟩,hrest⟩ := h
    intro other hother
    obtain rfl | hother := mem_cons.mp hother
    · exact ⟨tsp.length_bytes,hpid⟩
    · exact ih hrest other hother

theorem CarriesAll.flatMap_cutPayload (h : CarriesAll pid n start bytes packets) :
    packets.flatMap cutPayload = bytes := by
  induction packets generalizing n start bytes with
  | nil => exact h.symm
  | cons packet packets ih =>
    obtain ⟨pl,rest,rfl,hpart,hrest⟩ := h
    rw [flatMap_cons,hpart.cutPayload_eq,ih hrest]

theorem CarriesAll.start_iff (h : CarriesAll pid n start bytes packets) {i : Nat} (hi : packets[i]? = some packet) :
    payloadUnitStart (Mem.ofList packet) = (start && decide (i = 0)) := by
  induction packets generalizing n start bytes i with
  | nil => simp at hi
  | cons other packets ih =>
    obtain ⟨pl,rest,rfl,hpart,hrest⟩ := h
    cases i with
    | zero =>
      obtain rfl : other = packet := by simpa using hi
      simpa using hpart.start_eq
    | succ i => simpa using ih hrest (by simpa using hi)

theorem CarriesAll.map_counter (h : CarriesAll pid n start bytes packets) :
    packets.map counter = (List.range packets.length).map fun i => (n + i) % 16 := by
  induction packets generalizing n start bytes with
  | nil => rfl
  | cons packet packets ih =>
    obtain ⟨pl,rest,rfl,hpart,hrest⟩ := h
    rw [map_cons,hpart.counter_eq,ih hrest,length_cons,List.range_succ_eq_map,map_cons,map_map]
    congr 1
    apply map_congr_left
    intro i _
    simp only [Function.comp_apply,Nat.succ_eq_add_one]
    congr 1
    omega

end Carried

section Packets

variable {pid : UInt16} {n : Nat} {start : Bool} {p2ts : Pes2Ts} {pes : List UInt8}

theorem wholeHeader (c : UInt8) : (0x10 ||| (c &&& 0x0f)) &&& 0x10 ≠ 0 ∧ (0x10 ||| (c &&& 0x0f)) &&& 0x20 = 0 ∧
    (0x10 ||| (c &&& 0x0f)) &&& 0x0f = c &&& 0x0f := by
  revert c
  apply forall_byte
  decide +kernel

theorem lastHeader (c : UInt8) : (0x30 ||| (c &&& 0x0f)) &&& 0x10 ≠ 0 ∧ (0x30 ||| (c &&& 0x0f)) &&& 0x20 ≠ 0 ∧
    (0x30 ||| (c &&& 0x0f)) &&& 0x0f = c &&& 0x0f := by
  revert c
  apply forall_byte
  decide +kernel

theorem startBit (b : UInt8) : (b ||| 0x40) &&& 0x40 ≠ 0 ∧ (b &&& 0xbf) &&& 0x40 = 0 ∧
    (b ||| 0x40) &&& 0xbf = b &&& 0xbf ∧ (b &&& 0xbf) &&& 0xbf = b &&& 0xbf ∧ (b &&& 0xbf) &&& 0x1f = b &&& 0x1f := by
  revert b
  apply forall_byte
  decide +kernel

theorem counter_of_number (n : Nat) : (UInt8.ofNat n &&& 0x0f).toNat = n % 16 := by
  have hmask : (UInt8.ofNat n).toNat &&& 2 ^ 4 - 1 = (UInt8.ofNat n).toNat % 2 ^ 4 := Nat.and_two_pow_sub_one_eq_mod _ 4
  rw [UInt8.toNat_and]
  refine hmask.trans ?_
  rw [UInt8.toNat_ofNat']
  omega

/-- The buffer between two packets: the header is that of packet `n`, up to the fourth byte. -/
def Ready (pid : UInt16) (n : Nat) (start : Bool) (p2ts : Pes2Ts) : Prop :=
  ∃ (b1 b3 : UInt8) (tail : List UInt8), p2ts.buf = 0x47 :: b1 :: (pid &&& 0xff).toUInt8 :: b3 :: tail ∧ tail.length = 184 ∧
    (pid >>> 8).toUInt8 = b1 &&& 0xbf ∧ start = decide (b1 &&& 0x40 ≠ 0) ∧ p2ts.cc = UInt8.ofNat n

theorem tsPid_header (hpid : pid ≤ 0x1fff) {b1 : UInt8} (h1 : (pid >>> 8).toUInt8 = b1 &&& 0xbf) :
    ((b1 &&& 0x1f).toNat <<< 8) + (pid &&& 0xff).toUInt8.toNat = pid.toNat := by
  have hle : pid.toNat ≤ 0x1fff := hpid
  have hhigh : ((pid >>> 8).toUInt8).toNat = pid.toNat / 256 := by
    rw [UInt16.toNat_toUInt8,UInt16.toNat_shiftRight]
    have h8 : (8 : UInt16).toNat % 16 = 8 := rfl
    rw [h8,Nat.shiftRight_eq_div_pow]
    omega
  have hfive : (b1 &&& 0x1f).toNat = pid.toNat / 256 := by
    rw [← (startBit b1).2.2.2.2,← h1,UInt8.toNat_and,hhigh]
    have hmask : pid.toNat / 256 &&& 2 ^ 5 - 1 = pid.toNat / 256 % 2 ^ 5 := Nat.and_two_pow_sub_one_eq_mod _ 5
    exact hmask.trans (by omega)
  have hlow : (pid &&& 0xff).toUInt8.toNat = pid.toNat % 256 := by
    have hmask : pid.toNat &&& 2 ^ 8 - 1 = pid.toNat % 2 ^ 8 := Nat.and_two_pow_sub_one_eq_mod _ 8
    have hand : (pid &&& 0xff).toNat = pid.toNat % 256 := (UInt16.toNat_and pid 0xff).trans hmask
    rw [UInt16.toNat_toUInt8,hand]
    omega
  rw [hfive,hlow,Nat.shiftLeft_eq]
  omega

theorem Ready.clearStart (h : Ready pid n start p2ts) : Ready pid n false (clearStart p2ts) := by
  obtain ⟨b1,b3,tail,hbuf,hlength,h1,-,hcc⟩ := h
  obtain ⟨-,hclear,-,hkeep,-⟩ := startBit b1
  refine ⟨b1 &&& 0xbf,b3,tail,?_,hlength,h1.trans hkeep.symm,?_,hcc⟩
  · simp [DvbFilter.clearStart,hbuf]
  · simp [hclear]

theorem Ready.setStart (h : Ready pid n start p2ts) :
    Ready pid n true { p2ts with buf := p2ts.buf.modify 1 (· ||| 0x40) } := by
  obtain ⟨b1,b3,tail,hbuf,hlength,h1,-,hcc⟩ := h
  obtain ⟨hset,-,hkeep,-,-⟩ := startBit b1
  refine ⟨b1 ||| 0x40,b3,tail,?_,hlength,h1.trans hkeep.symm,?_,hcc⟩
  · simp [hbuf]
  · simp [hset]

theorem Ready.wholePacket (h : Ready pid n start p2ts) (hpid : pid ≤ 0x1fff) (hlen : 184 ≤ pes.length) :
    CarriesPart pid n start (pes.take 184) (wholePacket p2ts pes).buf ∧
      Ready pid (n + 1) start (wholePacket p2ts pes) := by
  obtain ⟨b1,b3,tail,hbuf,hlength,h1,hstart,hcc⟩ := h
  have htake : (pes.take 184).length = 184 := length_take_of_le hlen
  have hpacket : (DvbFilter.wholePacket p2ts pes).buf =
      0x47 :: b1 :: (pid &&& 0xff).toUInt8 :: (0x10 ||| (p2ts.cc &&& 0x0f)) :: pes.take 184 := by
    simp [DvbFilter.wholePacket,hbuf,overwrite,htake,hlength,drop_eq_nil_of_le]
  obtain ⟨hpayload,hnone,hcounter⟩ := wholeHeader p2ts.cc
  have hcount : ((0x10 ||| (p2ts.cc &&& 0x0f)) &&& 0x0f).toNat = n % 16 := by
    rw [hcounter,hcc,counter_of_number]
  rw [CarriesPart,hpacket]
  refine ⟨⟨⟨_,?_⟩,rfl,⟨_,b1,_,_,[],rfl,?_,hpayload,hcount,hstart,.inl ⟨hnone,rfl⟩⟩,?_⟩,?_⟩
  · simp [htake]
  · exact length_pos_iff.mp (by omega)
  · exact tsPid_header hpid h1
  · refine ⟨b1,_,pes.take 184,hpacket,htake,h1,hstart,?_⟩
    rw [DvbFilter.wholePacket,hcc]
    simp

theorem overwrite_behind (before after xs : List UInt8) :
    overwrite (before ++ after) before.length xs = before ++ (xs ++ after.drop xs.length) := by
  rw [overwrite,take_left,← drop_drop,drop_left]

theorem lastPacket_buf {b0 b1 b2 b3 : UInt8} {tail : List UInt8} (hbuf : p2ts.buf = b0 :: b1 :: b2 :: b3 :: tail)
    (hlength : tail.length = 184) (hlen : pes.length < 184) :
    ∃ field, field.length = 183 - pes.length ∧ (lastPacket p2ts pes).buf =
      b0 :: b1 :: b2 :: (0x30 ||| (p2ts.cc &&& 0x0f)) :: UInt8.ofNat (183 - pes.length) :: (field ++ pes) := by
  obtain ⟨t0,t1,rest,rfl⟩ : ∃ t0 t1 rest, tail = t0 :: t1 :: rest := by
    cases tail with
    | nil => simp at hlength
    | cons t0 tail =>
      cases tail with
      | nil => simp at hlength
      | cons t1 rest => exact ⟨t0,t1,rest,rfl⟩
  have hrest : rest.length = 182 := by simpa using hlength
  by_cases hfull : pes.length = 183
  · refine ⟨[],by rw [hfull]; rfl,?_⟩
    have hover := overwrite_behind [b0, b1, b2, 0x30 ||| (p2ts.cc &&& 0x0f), UInt8.ofNat 0] (t1 :: rest) pes
    have hdrop : (t1 :: rest).drop pes.length = [] := drop_eq_nil_of_le (by simp [hrest,hfull])
    rw [hdrop,append_nil] at hover
    simpa [lastPacket,hbuf,hfull] using hover
  · by_cases hone : pes.length = 182
    · refine ⟨[0],by rw [hone]; rfl,?_⟩
      have hover := overwrite_behind [b0, b1, b2, 0x30 ||| (p2ts.cc &&& 0x0f), UInt8.ofNat 1, 0] rest pes
      have hdrop : rest.drop pes.length = [] := drop_eq_nil_of_le (by simp [hrest,hone])
      rw [hdrop,append_nil] at hover
      simpa [lastPacket,hbuf,hone] using hover
    · obtain ⟨k,hk⟩ : ∃ k, 183 - pes.length = k + 2 := ⟨181 - pes.length,by omega⟩
      refine ⟨0 :: List.replicate (k + 1) 0xff,by simp [hk],?_⟩
      have hstuff := overwrite_behind [b0, b1, b2, 0x30 ||| (p2ts.cc &&& 0x0f), t0, 0] rest (List.replicate (k + 1) 0xff)
      have hover := overwrite_behind
        ([b0, b1, b2, 0x30 ||| (p2ts.cc &&& 0x0f), UInt8.ofNat (k + 2), 0] ++ List.replicate (k + 1) 0xff)
        (rest.drop (k + 1)) pes
      have hdrop : (rest.drop (k + 1)).drop pes.length = [] := drop_eq_nil_of_le (by simp [hrest]; omega)
      have hwhere : 5 + (k + 2) =
          ([b0, b1, b2, 0x30 ||| (p2ts.cc &&& 0x0f), UInt8.ofNat (k + 2), 0] ++ List.replicate (k + 1) 0xff).length := by
        simp
        omega
      rw [hdrop,append_nil,← hwhere] at hover
      simp only [length_replicate] at hstuff
      have hsix : overwrite (b0 :: b1 :: b2 :: (0x30 ||| (p2ts.cc &&& 0x0f)) :: t0 :: 0 :: rest) 6
          (List.replicate (k + 1) 0xff) =
            b0 :: b1 :: b2 :: (0x30 ||| (p2ts.cc &&& 0x0f)) :: t0 :: 0 ::
              (List.replicate (k + 1) 0xff ++ rest.drop (k + 1)) := hstuff
      rw [lastPacket,hbuf,hk,if_pos (by omega),if_pos (by omega)]
      simpa [hsix] using hover

theorem Ready.lastPacket (h : Ready pid n start p2ts) (hpid : pid ≤ 0x1fff) (hne : pes ≠ []) (hlen : pes.length < 184) :
    CarriesPart pid n start pes (lastPacket p2ts pes).buf ∧ Ready pid (n + 1) start (lastPacket p2ts pes) := by
  obtain ⟨b1,b3,tail,hbuf,hlength,h1,hstart,hcc⟩ := h
  obtain ⟨field,hfield,hpacket⟩ := lastPacket_buf hbuf hlength hlen
  obtain ⟨hpayload,hadaptation,hcounter⟩ := lastHeader p2ts.cc
  have hcount : ((0x30 ||| (p2ts.cc &&& 0x0f)) &&& 0x0f).toNat = n % 16 := by
    rw [hcounter,hcc,counter_of_number]
  have hsize : (UInt8.ofNat (183 - pes.length) :: (field ++ pes)).length = 184 := by
    simp [hfield]
    omega
  rw [CarriesPart,hpacket]
  refine ⟨⟨⟨_,?_⟩,rfl,⟨_,b1,_,_,UInt8.ofNat (183 - pes.length) :: field,rfl,hne,hpayload,hcount,hstart,
    .inr ⟨hadaptation,field,by rw [hfield]⟩⟩,?_⟩,?_⟩
  · simpa using hsize
  · exact tsPid_header hpid h1
  · refine ⟨b1,_,_,hpacket,hsize,h1,hstart,?_⟩
    rw [DvbFilter.lastPacket,hcc]
    simp

end Packets

section Calls

variable {pid : UInt16} {n : Nat} {start : Bool} {p2ts : Pes2Ts} {cb : List UInt8 → Int}

theorem wholePackets_carry (hpid : pid ≤ 0x1fff) (hcb : ∀ packet, cb packet = 0) (n : Nat) (start : Bool)
    (p2ts : Pes2Ts) (pes : List UInt8) (h : Ready pid n start p2ts) :
    ∃ bytes rest start', (wholePackets cb p2ts pes).2.2 = .ok rest ∧ pes = bytes ++ rest ∧
      rest.length < 184 ∧ CarriesAll pid n start bytes (wholePackets cb p2ts pes).2.1 ∧
      Ready pid (n + (wholePackets cb p2ts pes).2.1.length) start' (wholePackets cb p2ts pes).1 ∧
      (bytes = [] → start' = start) ∧ (bytes ≠ [] → start' = false) := by
  rw [wholePackets]
  split
  case isTrue hlen =>
    obtain ⟨hpart,hready⟩ := h.wholePacket hpid hlen
    rw [if_neg (not_not_intro (hcb _))]
    obtain ⟨bytes,rest,start',hok,hpes,hrest,hcarries,hready',hfirst,hlater⟩ :=
      wholePackets_carry hpid hcb (n + 1) false (clearStart (wholePacket p2ts pes)) (pes.drop 184) hready.clearStart
    have hne : pes.take 184 ++ bytes ≠ [] := by
      intro hnil
      have htake := congrArg List.length (append_eq_nil_iff.mp hnil).1
      rw [length_take_of_le hlen] at htake
      cases htake
    have hstart' : start' = false := by
      by_cases hbytes : bytes = []
      · exact hfirst hbytes
      · exact hlater hbytes
    refine ⟨pes.take 184 ++ bytes,rest,start',hok,?_,hrest,⟨_,_,rfl,hpart,hcarries⟩,?_,
      fun hnil => absurd hnil hne,fun _ => hstart'⟩
    · rw [append_assoc,← hpes,take_append_drop]
    · rw [Nat.add_right_comm] at hready'
      exact hready'
  case isFalse hlen =>
    exact ⟨[],pes,start,rfl,rfl,Nat.not_le.mp hlen,rfl,h,fun _ => rfl,fun hne => absurd rfl hne⟩
termination_by pes.length
decreasing_by
  rw [length_drop]
  omega

theorem pes2TsStep_carries (hpid : pid ≤ 0x1fff) (hcb : ∀ packet, cb packet = 0) (h : Ready pid n start p2ts)
    (pes : List UInt8) (payloadStart : Bool) :
    CarriesAll pid n payloadStart pes (pes2TsStep cb p2ts (pes, payloadStart)).2 ∧
      ∃ start', Ready pid (n + (pes2TsStep cb p2ts (pes, payloadStart)).2.length) start'
        (pes2TsStep cb p2ts (pes, payloadStart)).1 := by
  rw [pes2TsStep,dvbFilterPes2Ts]
  have hready : Ready pid n payloadStart
      (if payloadStart then { p2ts with buf := p2ts.buf.modify 1 (· ||| 0x40) } else clearStart p2ts) := by
    cases payloadStart with
    | true => exact h.setStart
    | false => exact h.clearStart
  obtain ⟨bytes,rest,start',hok,rfl,hrest,hcarries,hready',hfirst,hlater⟩ :=
    wholePackets_carry hpid hcb n payloadStart _ pes hready
  simp only [hok]
  cases rest with
  | nil =>
    rw [append_nil] at hok hcarries hready' ⊢
    exact ⟨hcarries,start',hready'⟩
  | cons b rest =>
    obtain ⟨hpart,hlast⟩ := hready'.lastPacket hpid (cons_ne_nil b rest) hrest
    refine ⟨?_,start',?_⟩
    · by_cases hbytes : bytes = []
      · subst hbytes
        rw [hcarries.eq_nil] at hpart ⊢
        obtain rfl := hfirst rfl
        exact ⟨b :: rest,[],by simp,hpart,rfl⟩
      · obtain rfl := hlater hbytes
        exact hcarries.append ⟨b :: rest,[],by simp,hpart,rfl⟩ (fun hnil => absurd hnil hbytes)
    · rw [length_append,length_singleton,← Nat.add_assoc]
      exact hlast

theorem moreCalls_carry (hpid : pid ≤ 0x1fff) (hcb : ∀ packet, cb packet = 0) (more : List (List UInt8))
    (h : Ready pid n start p2ts) :
    CarriesAll pid n false more.flatten (runTrace (pes2TsStep cb) p2ts (more.map (·, false))).2 ∧
      ∃ start', Ready pid (n + (runTrace (pes2TsStep cb) p2ts (more.map (·, false))).2.length) start'
        (runTrace (pes2TsStep cb) p2ts (more.map (·, false))).1 := by
  induction more generalizing n start p2ts with
  | nil => exact ⟨rfl,start,h⟩
  | cons part more ih =>
    obtain ⟨hcarries,start',hready⟩ := pes2TsStep_carries hpid hcb h part false
    obtain ⟨hmore,start'',hready'⟩ := ih hready
    rw [map_cons,runTrace_cons,flatten_cons]
    refine ⟨?_,start'',?_⟩
    · cases part with
      | nil =>
        rw [hcarries.eq_nil] at hmore ⊢
        exact hmore
      | cons b part => exact hcarries.append hmore (fun hnil => absurd hnil (cons_ne_nil b part))
    · rw [length_append,← Nat.add_assoc]
      exact hready'

theorem pes_carries (hpid : pid ≤ 0x1fff) (hcb : ∀ packet, cb packet = 0) (pes : Pes) (h : Ready pid n start p2ts) :
    CarriesAll pid n true pes.bytes (runTrace (pes2TsStep cb) p2ts pes.calls).2 ∧
      ∃ start', Ready pid (n + (runTrace (pes2TsStep cb) p2ts pes.calls).2.length) start'
        (runTrace (pes2TsStep cb) p2ts pes.calls).1 := by
  obtain ⟨hcarries,start',hready⟩ := pes2TsStep_carries hpid hcb h pes.first true
  obtain ⟨hmore,start'',hready'⟩ := moreCalls_carry hpid hcb pes.more hready
  rw [Pes.calls,runTrace_cons]
  refine ⟨hcarries.append hmore pes.starts,start'',?_⟩
  rw [length_append,← Nat.add_assoc]
  exact hready'

end Calls

/-- From packet `n` on, the packets of each PES carry it. -/
def CarriesEach (pid : UInt16) : Nat → List Pes → List (List (List UInt8)) → Prop
  | _, [], packets => packets = []
  | n, pes :: rest, packets =>
    ∃ own later, packets = own :: later ∧ CarriesAll pid n true pes.bytes own ∧ CarriesEach pid (n + own.length) rest later

section Runs

variable {pid : UInt16} {n : Nat} {start : Bool} {p2ts : Pes2Ts} {cb : List UInt8 → Int}

theorem passAll_carries (hpid : pid ≤ 0x1fff) (hcb : ∀ packet, cb packet = 0) (pes : List Pes)
    (h : Ready pid n start p2ts) : CarriesEach pid n pes (passAll cb p2ts pes) := by
  induction pes generalizing n start p2ts with
  | nil => rfl
  | cons pes rest ih =>
    obtain ⟨hcarries,start',hready⟩ := pes_carries hpid hcb pes h
    exact ⟨_,_,rfl,hcarries,ih hready⟩

theorem CarriesEach.forall_own {pes : List Pes} {packets : List (List (List UInt8))} (h : CarriesEach pid n pes packets) :
    ∀ own ∈ packets, ∃ m bytes, CarriesAll pid m true bytes own := by
  induction pes generalizing n packets with
  | nil =>
    obtain rfl : packets = [] := h
    simp
  | cons pes rest ih =>
    obtain ⟨own,later,rfl,hown,hlater⟩ := h
    intro other hother
    obtain rfl | hother := mem_cons.mp hother
    · exact ⟨n,pes.bytes,hown⟩
    · exact ih hlater other hother

theorem CarriesEach.payloads {pes : List Pes} {packets : List (List (List UInt8))} (h : CarriesEach pid n pes packets) :
    packets.map (fun own => own.flatMap cutPayload) = pes.map Pes.bytes := by
  induction pes generalizing n packets with
  | nil =>
    obtain rfl : packets = [] := h
    rfl
  | cons pes rest ih =>
    obtain ⟨own,later,rfl,hown,hlater⟩ := h
    rw [map_cons,map_cons,hown.flatMap_cutPayload,ih hlater]

theorem CarriesEach.counters {pes : List Pes} {packets : List (List (List UInt8))} (h : CarriesEach pid n pes packets) :
    packets.flatten.map counter = (List.range packets.flatten.length).map fun i => (n + i) % 16 := by
  induction pes generalizing n packets with
  | nil =>
    obtain rfl : packets = [] := h
    rfl
  | cons pes rest ih =>
    obtain ⟨own,later,rfl,hown,hlater⟩ := h
    rw [flatten_cons,map_append,hown.map_counter,ih hlater,length_append,List.range_add,
      map_append,map_map]
    congr 1
    apply map_congr_left
    intro i _
    rw [Function.comp_apply,Nat.add_assoc]

end Runs

theorem low_bits_kept {b : UInt8} : b ≤ 0x1f → b = b &&& 0xbf := by
  revert b
  apply forall_byte
  decide +kernel

theorem ready_init {pid : UInt16} (hpid : pid ≤ 0x1fff) {memory : Pes2Ts} (hmemory : memory.buf.length = 188) :
    ∃ start, Ready pid 0 start (dvbFilterPes2TsInit memory pid) := by
  obtain ⟨a0,a1,a2,a3,tail,hbuf⟩ : ∃ a0 a1 a2 a3 tail, memory.buf = a0 :: a1 :: a2 :: a3 :: tail := by
    have hsplit : memory.buf = memory.buf.take 4 ++ memory.buf.drop 4 := (take_append_drop 4 _).symm
    have htake : (memory.buf.take 4).length = 4 := length_take_of_le (by omega)
    obtain ⟨a0,a1,a2,a3,hfour⟩ := List.length_eq_four.mp htake
    exact ⟨a0,a1,a2,a3,memory.buf.drop 4,by rw [hsplit,hfour]; rfl⟩
  have hhigh : (pid >>> 8).toUInt8 ≤ 0x1f := by
    have hle : pid.toNat ≤ 0x1fff := hpid
    rw [UInt8.le_iff_toNat_le,UInt16.toNat_toUInt8,UInt16.toNat_shiftRight]
    have h8 : (8 : UInt16).toNat % 16 = 8 := rfl
    have h31 : (0x1f : UInt8).toNat = 31 := rfl
    rw [h8,h31,Nat.shiftRight_eq_div_pow]
    omega
  refine ⟨_,(pid >>> 8).toUInt8,a3,tail,?_,?_,low_bits_kept hhigh,rfl,rfl⟩
  · simp [dvbFilterPes2TsInit,hbuf]
  · rw [hbuf] at hmemory
    simpa using hmemory

/-- Any number of PES, each in any number of calls: the demux cuts them out of the packets again. -/
theorem pes2Ts_undone (pid : UInt16) (hpid : pid ≤ 0x1fff) (memory : Pes2Ts) (hmemory : memory.buf.length = 188)
    (cb : List UInt8 → Int) (hcb : ∀ packet, cb packet = 0) (pes : List Pes) :
    Undone pid pes (passAll cb (dvbFilterPes2TsInit memory pid) pes) := by
  obtain ⟨start, hready⟩ := ready_init hpid hmemory
  have hcarries := passAll_carries hpid hcb pes hready
  refine ⟨?_, ?_, hcarries.payloads, ?_, ?_⟩
  · intro packet hpacket
    obtain ⟨own, hown, hin⟩ := List.mem_flatten.mp hpacket
    obtain ⟨m, bytes, hall⟩ := hcarries.forall_own own hown
    exact (hall.forall_part packet hin).1
  · intro packet hpacket
    obtain ⟨own, hown, hin⟩ := List.mem_flatten.mp hpacket
    obtain ⟨m, bytes, hall⟩ := hcarries.forall_own own hown
    exact (hall.forall_part packet hin).2
  · intro own hown i packet hi
    obtain ⟨m, bytes, hall⟩ := hcarries.forall_own own hown
    exact hall.start_iff hi
  · simpa using hcarries.counters

/-- Two PES, one of them in two calls. -/
theorem pes2Ts_undone_two :
    Undone 0x100 [⟨List.replicate 183 1, [], fun _ => rfl⟩, ⟨List.replicate 366 2, [[3]], fun hnil => by cases hnil⟩]
      (passAll (fun _ => 0) (dvbFilterPes2TsInit ⟨List.replicate 188 0, 0⟩ 0x100)
        [⟨List.replicate 183 1, [], fun _ => rfl⟩, ⟨List.replicate 366 2, [[3]], fun hnil => by cases hnil⟩]) :=
  pes2Ts_undone 0x100 (by decide) ⟨List.replicate 188 0, 0⟩ List.length_replicate (fun _ => 0) (fun _ => rfl) _

end LinuxDvb.DvbFilter
