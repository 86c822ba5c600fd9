import LinuxDvb.DvbCore.Demux.SectionFeed

/-!
# Many feeds on one packet stream

`dvb_dmx_swfilter_packets` gives every packet of a buffer to all feeds of the demux. The feeds do not influence each
other, except that a packet goes to the DVR device only once.
-/

namespace LinuxDvb.Demux

/-- The loop of `dvb_dmx_swfilter_packets` over `count` packets. -/
def dvbDmxSwfilterPackets (writeToDecoder : Bool) : Mem UInt8 → Nat → List DvbDemuxFeed →
    List DvbDemuxFeed × List DemuxEvent
  | _, 0, feeds => (feeds, [])
  | buf, count + 1, feeds =>
    let r := if buf 0 = 0x47
      then dvbDmxSwfilterPacket writeToDecoder ⟨buf.slice 0 188, Mem.length_slice _ _ _⟩ false feeds else (feeds, [])
    let rest := dvbDmxSwfilterPackets writeToDecoder (buf.shift 188) count r.1
    (rest.1, r.2 ++ rest.2)

def DvbDemuxFeed.selects (tsp : TsPacket) (f : DvbDemuxFeed) : Bool := f.pid = tsPid tsp.mem ∨ f.pid = 0x2000

def DvbDemuxFeed.toDvr (tsp : TsPacket) (f : DvbDemuxFeed) : Bool := f.selects tsp && dvrFeed f

variable (wtd : Bool) (tsp : TsPacket)

/-- What a packet does at a feed that is alone in the list. -/
def DvbDemuxFeed.receive (f : DvbDemuxFeed) : DvbDemuxFeed × List DemuxEvent :=
  if f.pid = tsPid tsp.mem then dvbDmxSwfilterPacketType wtd f tsp
  else if f.pid = 0x2000 then (f, [.cbTs f.index tsp.bytes])
  else (f, [])

theorem packet_cons (done : Bool) (f : DvbDemuxFeed) (fs : List DvbDemuxFeed) :
    dvbDmxSwfilterPacket wtd tsp done (f :: fs) =
      let r := if f.toDvr tsp && done then (f, []) else f.receive wtd tsp
      let rest := dvbDmxSwfilterPacket wtd tsp (done || f.toDvr tsp) fs
      (r.1 :: rest.1, r.2 ++ rest.2) := by
  by_cases hpid : f.pid = tsPid tsp.mem <;> by_cases hall : f.pid = 0x2000 <;> cases hdvr : dvrFeed f <;>
    cases done <;>
    simp [dvbDmxSwfilterPacket,DvbDemuxFeed.toDvr,DvbDemuxFeed.selects,DvbDemuxFeed.receive,hpid,hall,hdvr]

theorem packet_singleton (f : DvbDemuxFeed) :
    dvbDmxSwfilterPacket wtd tsp false [f] = ([(f.receive wtd tsp).1], (f.receive wtd tsp).2) := by
  rw [packet_cons]
  simp [dvbDmxSwfilterPacket]

def tsCallbacks (events : List DemuxEvent) : List (List UInt8) :=
  events.filterMap fun
    | .cbTs _ bytes => some bytes
    | _ => none

@[simp] theorem tsCallbacks_append (xs ys : List DemuxEvent) :
    tsCallbacks (xs ++ ys) = tsCallbacks xs ++ tsCallbacks ys := filterMap_append

theorem receive_dvr {f : DvbDemuxFeed} (h : dvrFeed f = true) : (f.receive wtd tsp).1 = f ∧
    tsCallbacks (f.receive wtd tsp).2 = if f.selects tsp then [tsp.bytes] else [] := by
  obtain ⟨htype,hfiltering,hpacket,hwhole⟩ : f.type = .ts ∧ f.ts.isFiltering = true ∧ f.tsType.packet = true ∧
      f.tsType.payloadOnly = false := by simpa [dvrFeed] using h
  unfold DvbDemuxFeed.receive DvbDemuxFeed.selects
  by_cases hpid : f.pid = tsPid tsp.mem
  · cases hdecoder : f.tsType.decoder && wtd <;>
      simp [dvbDmxSwfilterPacketType,tsCallbacks,htype,hfiltering,hpacket,hwhole,hpid,hdecoder]
  · rw [if_neg hpid]
    by_cases hall : f.pid = 0x2000 <;> simp [hpid,hall,tsCallbacks]

theorem packet_states (done : Bool) (feeds : List DvbDemuxFeed) :
    (dvbDmxSwfilterPacket wtd tsp done feeds).1 = feeds.map fun f => (f.receive wtd tsp).1 := by
  induction feeds generalizing done with
  | nil => rfl
  | cons f fs ih =>
    rw [packet_cons,map_cons]
    simp only [ih]
    congr 1
    split
    · next h => exact (receive_dvr wtd tsp (Bool.and_eq_true_iff.mp (Bool.and_eq_true_iff.mp h).1).2).1.symm
    · rfl

/-- The packet is served to all feeds but those that would copy it to the DVR device once more. -/
theorem packet_events (done : Bool) (feeds : List DvbDemuxFeed) :
    ∃ served : List DvbDemuxFeed, served.Sublist feeds ∧
      served.filter (!·.toDvr tsp) = feeds.filter (!·.toDvr tsp) ∧
      served.filter (·.toDvr tsp) = (feeds.filter (·.toDvr tsp)).take (if done then 0 else 1) ∧
      (dvbDmxSwfilterPacket wtd tsp done feeds).2 = served.flatMap fun f => (f.receive wtd tsp).2 := by
  induction feeds generalizing done with
  | nil => exact ⟨[],.slnil,rfl,by simp,rfl⟩
  | cons f fs ih =>
    obtain ⟨served,hsub,hother,hdvr,hevents⟩ := ih (done || f.toDvr tsp)
    cases htoDvr : f.toDvr tsp with
    | false =>
      refine ⟨f :: served,hsub.cons_cons f,by simp [htoDvr,hother],?_,?_⟩
      · simpa [htoDvr] using hdvr
      · simp [packet_cons,htoDvr,← hevents]
    | true =>
      have hnone : served.filter (·.toDvr tsp) = [] := by simpa [htoDvr] using hdvr
      cases done with
      | false =>
        refine ⟨f :: served,hsub.cons_cons f,by simp [htoDvr,hother],by simp [htoDvr,hnone],?_⟩
        simp [packet_cons,htoDvr,← hevents]
      | true =>
        refine ⟨served,hsub.cons f,by simp [htoDvr,hother],by simp [hnone],?_⟩
        simp [packet_cons,htoDvr,← hevents]

theorem packets_states (buf : Mem UInt8) (count : Nat) (feeds : List DvbDemuxFeed) :
    (dvbDmxSwfilterPackets wtd buf count feeds).1 =
      feeds.flatMap fun f => (dvbDmxSwfilterPackets wtd buf count [f]).1 := by
  induction count generalizing buf feeds with
  | zero => simp [dvbDmxSwfilterPackets]
  | succ count ih =>
    simp only [dvbDmxSwfilterPackets]
    split
    · simp only [packet_states,map_cons,map_nil]
      rw [ih,List.flatMap_map]
    · exact ih _ _

/-- Behind any packets each feed is as if it had been alone. The next packet calls back the clients of the feeds as
alone, in the order of the list, except that of the feeds that copy it to the DVR device only the first does. -/
theorem swfilterPackets_isolated (buf : Mem UInt8) (count : Nat) (feeds : List DvbDemuxFeed) :
    let behind := fun feeds => (dvbDmxSwfilterPackets wtd buf count feeds).1
    behind feeds = feeds.flatMap (fun f => behind [f]) ∧
      ∃ served : List DvbDemuxFeed, served.Sublist (behind feeds) ∧
        served.filter (!·.toDvr tsp) = (behind feeds).filter (!·.toDvr tsp) ∧
        served.filter (·.toDvr tsp) = ((behind feeds).filter (·.toDvr tsp)).take 1 ∧
        (dvbDmxSwfilterPacket wtd tsp false (behind feeds)).2 =
          served.flatMap fun f => (dvbDmxSwfilterPacket wtd tsp false [f]).2 := by
  refine ⟨packets_states wtd buf count feeds,?_⟩
  simp only [packet_singleton]
  exact packet_events wtd tsp false _

/-- The packets of a buffer. -/
def packetsOf : Mem UInt8 → Nat → List TsPacket
  | _, 0 => []
  | buf, count + 1 => ⟨buf.slice 0 188, Mem.length_slice _ _ _⟩ :: packetsOf (buf.shift 188) count

theorem packet_dvr (done : Bool) {feeds : List DvbDemuxFeed} (h : ∀ f ∈ feeds, dvrFeed f = true) :
    (dvbDmxSwfilterPacket wtd tsp done feeds).1 = feeds ∧
      tsCallbacks (dvbDmxSwfilterPacket wtd tsp done feeds).2 =
        if !done && feeds.any (·.selects tsp) then [tsp.bytes] else [] := by
  induction feeds generalizing done with
  | nil => simp [dvbDmxSwfilterPacket,tsCallbacks]
  | cons f fs ih =>
    have hdvr : dvrFeed f = true := h f mem_cons_self
    obtain ⟨hstate,hcallback⟩ := receive_dvr wtd tsp hdvr
    obtain ⟨hstates,hevents⟩ := ih (done || f.toDvr tsp) fun g hg => h g (mem_cons_of_mem f hg)
    rw [packet_cons]
    refine ⟨?_,?_⟩
    · simp only [hstates]
      split <;> simp [hstate]
    · simp only [tsCallbacks_append,hevents]
      cases hselects : f.selects tsp <;> rw [hselects] at hcallback <;> cases done <;>
        simp [DvbDemuxFeed.toDvr,hdvr,hselects,hcallback,show tsCallbacks [] = [] from rfl]

/-- The DVR device is given each packet of the buffer that one of its feeds selects, once and in order. -/
theorem dvr_packets_once {feeds : List DvbDemuxFeed} (h : ∀ f ∈ feeds, dvrFeed f = true) (buf : Mem UInt8)
    (count : Nat) :
    tsCallbacks (dvbDmxSwfilterPackets wtd buf count feeds).2 =
      ((packetsOf buf count).filter fun tsp => tsp.mem 0 = 0x47 && feeds.any (·.selects tsp)).map (·.bytes) := by
  induction count generalizing buf with
  | zero => rfl
  | succ count ih =>
    obtain ⟨hstates,hevents⟩ := packet_dvr wtd ⟨buf.slice 0 188,Mem.length_slice _ _ _⟩ false h
    have hsync : TsPacket.mem ⟨buf.slice 0 188,Mem.length_slice _ _ _⟩ 0 = buf 0 := rfl
    simp only [dvbDmxSwfilterPackets,packetsOf,List.filter_cons,hsync]
    by_cases h47 : buf 0 = 0x47
    · simp only [h47,if_true,tsCallbacks_append,hstates,hevents,ih,decide_true,Bool.true_and,Bool.not_false]
      split <;> rfl
    · simp only [h47,if_false,tsCallbacks_append,ih,decide_false,Bool.false_and]
      rfl

def recordingFeed (pid : Nat) : DvbDemuxFeed :=
  { zeroFeed with ts := { isFiltering := true }, tsType := { zeroFeed.tsType with packet := true }, pid := pid }

/-- A feed for all PIDs records the packet of the other feed once more to the device, but not twice. -/
theorem dvr_packets_once_shared :
    tsCallbacks (dvbDmxSwfilterPackets false (fun _ => 0x47) 1 [recordingFeed 0x747, recordingFeed 0x2000]).2 =
      [List.replicate 188 0x47] :=
  (dvr_packets_once false (by decide) (fun _ => 0x47) 1).trans (by decide +kernel)

end LinuxDvb.Demux
