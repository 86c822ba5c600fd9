import LinuxDvb.DvbCore.Demux.SectionFeed
import LinuxDvb.DvbCore.Net.Ule
import LinuxDvb.Framework.BitMask
import Mathlib.Data.Fintype.Basic
import Mathlib.Tactic.FinCases

/-!
# MPE sections

`dvb_net_filter_sec_set` asks the demultiplexer for the sections with an address, and `dvb_net_sec` makes a packet of
such a section.
-/

namespace LinuxDvb.Net

open Demux

-- numerals of the positions in an address
local instance neZeroSix : NeZero 6 := ⟨Nat.succ_ne_zero 5⟩

/-- `mac` and `mac_mask` -/
abbrev MacBytes := Fin 6 → UInt8

/-- The assignments to `filter_value` and `filter_mask` behind the `memset`, by position. -/
def secPattern (tableId : UInt8) (mac : MacBytes) : Mem UInt8
  | 0 => tableId
  | 3 => mac 5
  | 4 => mac 4
  | 8 => mac 3
  | 9 => mac 2
  | 10 => mac 1
  | 11 => mac 0
  | _ => 0

/-- `DMX_MAX_FILTER_SIZE` bytes are set. -/
def fillFilter (bytes old : Mem UInt8) : Mem UInt8 := fun n => if n < dvbDemuxMaskMax then bytes n else old n

/-- `dvb_net_filter_sec_set`, from the answer of `allocate_filter` on. -/
def dvbNetFilterSecSet (allocated : Except Int DvbDemuxFilter) (mac macMask : MacBytes) : Except Int DvbDemuxFilter :=
  match allocated with
  | .error ret => .error ret
  | .ok f => .ok { f with
      filterValue := fillFilter (secPattern 0x3e mac) f.filterValue
      filterMask := fillFilter (secPattern 0xff macMask) f.filterMask
      filterMode := fillFilter (fun _ => 0xff) f.filterMode }

section Section

variable (pkt : List UInt8)

/-- The destination address of the Ethernet header, `eth[0]` to `eth[5]`. -/
def mpeDest : List UInt8 :=
  [pkt.getD 0x0b 0, pkt.getD 0x0a 0, pkt.getD 0x09 0, pkt.getD 0x08 0, pkt.getD 0x04 0, pkt.getD 0x03 0]

/-- `eth[12]` and `eth[13]`: from the SNAP header, or by the version of the IP header. -/
def mpeProtocol (snap : Nat) : List UInt8 :=
  if snap ≠ 0 then [pkt.getD 18 0, pkt.getD 19 0]
  else if pkt.getD 12 0 >>> 4 = 6 then [0x86, 0xdd]
  else [0x08, 0x00]

def mpeEthHeader (snap : Nat) : List UInt8 := mpeDest pkt ++ List.replicate ethAlen 0 ++ mpeProtocol pkt snap

end Section

/-- `dvb_net_sec` on a section with its checksum. `devAllocSkb` is the memory of the new buffer, if there is some. -/
def dvbNetSec (dev : NetDevice) (stats : NetDeviceStats) (pkt : List UInt8) (devAllocSkb : Option (Mem UInt8)) :
    NetDeviceStats × Option NetPacket :=
  if pkt.length < 16 then
    ({ stats with rxErrors := stats.rxErrors + 1, rxLengthErrors := stats.rxLengthErrors + 1 }, none)
  else if pkt.getD 5 0 &&& 0x3c ≠ 0 then
    -- drop scrambled
    ({ stats with rxErrors := stats.rxErrors + 1, rxCrcErrors := stats.rxCrcErrors + 1 }, none)
  else if pkt.getD 5 0 &&& 0x02 ≠ 0 ∧
      (pkt.length < 24 ∨ (pkt.drop 12).take 6 ≠ [0xaa, 0xaa, 0x03, 0, 0, 0]) then
    ({ stats with rxDropped := stats.rxDropped + 1 }, none)
  else
    let snap := if pkt.getD 5 0 &&& 0x02 ≠ 0 then 8 else 0
    if pkt.getD 7 0 ≠ 0 then
      ({ stats with rxErrors := stats.rxErrors + 1, rxFrameErrors := stats.rxFrameErrors + 1 }, none)
    else
      match devAllocSkb with
      | none => ({ stats with rxDropped := stats.rxDropped + 1 }, none)
      | some mem =>
        let skb := SkBuff.reserve { mem := mem, data := 0, len := 0 } 2
        let payload := (pkt.drop (12 + snap)).take (pkt.length - 12 - 4 - snap)
        let skb := skb.put (mpeEthHeader pkt snap ++ payload)
        let packet := dvbNetEthTypeTrans skb dev
        ({ stats with rxPackets := stats.rxPackets + 1, rxBytes := stats.rxBytes + packet.data.length }, some packet)

def MacByteMatches (mac mask byte : UInt8) : Prop := ∀ b < 8, bit mask b = true → bit byte b = bit mac b

def MacMatches (mac macMask : MacBytes) (dest : List UInt8) : Prop :=
  ∀ k : Fin 6, MacByteMatches (mac k) (macMask k) (dest.getD k 0)

def macPos : Fin 6 → Nat
  | 0 => 11
  | 1 => 10
  | 2 => 9
  | 3 => 8
  | 4 => 4
  | 5 => 3

section Filter

variable {tableId : UInt8} {mac macMask : MacBytes} {n : Nat}

theorem macPos_le (k : Fin 6) : macPos k ≤ 11 := by
  revert k
  decide

theorem secPattern_macPos (k : Fin 6) : secPattern tableId mac (macPos k) = mac k := by
  fin_cases k <;> rfl

theorem secPattern_other (hzero : n ≠ 0) (hmac : ∀ k, n ≠ macPos k) : secPattern tableId mac n = 0 := by
  unfold secPattern
  split
  · exact absurd rfl hzero
  · exact absurd rfl (hmac 5)
  · exact absurd rfl (hmac 4)
  · exact absurd rfl (hmac 3)
  · exact absurd rfl (hmac 2)
  · exact absurd rfl (hmac 1)
  · exact absurd rfl (hmac 0)
  · rfl

theorem mpeDest_getD (pkt : List UInt8) (k : Fin 6) : (mpeDest pkt).getD k 0 = pkt.getD (macPos k) 0 := by
  fin_cases k <;> rfl

theorem filterSecSet_fields {f₀ f : DvbDemuxFilter} (hset : dvbNetFilterSecSet (.ok f₀) mac macMask = .ok f)
    (hn : n < dvbDemuxMaskMax) :
    (prepareSecfilter f).filterValue n = secPattern 0x3e mac n ∧
      (prepareSecfilter f).maskandmode n = secPattern 0xff macMask n ∧
      (prepareSecfilter f).maskandnotmode n = 0 := by
  cases hset
  have hones : ∀ x : UInt8, x &&& 0xff = x := by
    intro x
    rw [← UInt8.toNat_inj,UInt8.toNat_and]
    exact Nat.and_two_pow_sub_one_of_lt_two_pow x.toNat_lt
  simp only [prepareSecfilter,fillFilter,if_pos hn,true_and]
  refine ⟨hones _,?_⟩
  have hnot : ~~~(0xff : UInt8) = 0 := by decide
  rw [hnot,UInt8.and_zero]

theorem filterSecSet_accepts_iff {f₀ f : DvbDemuxFilter} (hset : dvbNetFilterSecSet (.ok f₀) mac macMask = .ok f)
    (secbuf : Mem UInt8) :
    (prepareSecfilter f).accepts secbuf = true ↔
      secbuf 0 = 0x3e ∧ ∀ k, MacByteMatches (mac k) (macMask k) (secbuf (macPos k)) := by
  have hdoneq : (prepareSecfilter f).doneq = false := by
    rw [← Bool.not_eq_true,prepareSecfilter_doneq_iff]
    rintro ⟨n,hn,hne⟩
    exact hne (filterSecSet_fields hset hn).2.2
  have hclash : ∀ n < dvbDemuxMaskMax,
      ((prepareSecfilter f).maskandmode n &&& ((prepareSecfilter f).filterValue n ^^^ secbuf n) = 0 ↔
        MacByteMatches (secPattern 0x3e mac n) (secPattern 0xff macMask n) (secbuf n)) := by
    intro n hn
    obtain ⟨hvalue,hmask,-⟩ := filterSecSet_fields hset hn
    rw [hvalue,hmask]
    exact masked_eq_zero_iff _ _ _
  have htable : MacByteMatches 0x3e 0xff (secbuf 0) ↔ secbuf 0 = 0x3e := by
    constructor
    · intro hbits
      apply UInt8.xor_eq_zero_iff.mp
      rw [byte_eq_zero_iff]
      intro b hb
      rw [bit_xor,hbits b hb (bit_ones hb),Bool.xor_self]
    · intro heq b _ _
      rw [heq]
  rw [accepts_iff,and_iff_left (.inl hdoneq)]
  constructor
  · intro hnone
    have hall : ∀ n < dvbDemuxMaskMax, MacByteMatches (secPattern 0x3e mac n) (secPattern 0xff macMask n) (secbuf n) := by
      intro n hn
      apply (hclash n hn).mp
      by_contra hne
      exact hnone ⟨n,hn,hne⟩
    refine ⟨htable.mp (hall 0 (by decide)),fun k => ?_⟩
    have hpos : macPos k < dvbDemuxMaskMax := Nat.lt_of_le_of_lt (macPos_le k) (by decide)
    have hmatch := hall (macPos k) hpos
    rwa [secPattern_macPos,secPattern_macPos] at hmatch
  · rintro ⟨hfirst,hmac⟩ ⟨n,hn,hne⟩
    apply hne
    apply (hclash n hn).mpr
    by_cases hzero : n = 0
    · subst hzero
      exact htable.mpr hfirst
    · by_cases hpos : ∃ k, n = macPos k
      · obtain ⟨k,rfl⟩ := hpos
        rw [secPattern_macPos,secPattern_macPos]
        exact hmac k
      · have hother : secPattern 0xff macMask n = 0 := secPattern_other hzero fun k hk => hpos ⟨k,hk⟩
        rw [hother]
        intro b _ hbit
        simp [bit] at hbit

end Filter

theorem dvbNetSec_dest {dev : NetDevice} {stats : NetDeviceStats} {pkt : List UInt8} {devAllocSkb : Option (Mem UInt8)}
    {packet : NetPacket} (h : (dvbNetSec dev stats pkt devAllocSkb).2 = some packet) :
    packet.mac.take ethAlen = mpeDest pkt := by
  have hput : ∀ (mem : Mem UInt8) (snap : Nat) (payload : List UInt8),
      (dvbNetEthTypeTrans (((SkBuff.mk mem 0 0).reserve 2).put (mpeEthHeader pkt snap ++ payload)) dev).mac.take ethAlen =
        mpeDest pkt := by
    intro mem snap payload
    have hcontents := SkBuff.contents_put ((SkBuff.mk mem 0 0).reserve 2) (mpeEthHeader pkt snap ++ payload)
    have hempty : ((SkBuff.mk mem 0 0).reserve 2).contents = [] := rfl
    have hlength : (mpeEthHeader pkt snap).length = ethHlen := by
      rw [mpeEthHeader,length_append,mpeProtocol]
      split
      · rfl
      · split <;> rfl
    have hle : ethHlen ≤ (((SkBuff.mk mem 0 0).reserve 2).put (mpeEthHeader pkt snap ++ payload)).len := by
      rw [← SkBuff.length_contents,hcontents,hempty,nil_append,length_append,hlength]
      exact Nat.le_add_right _ _
    have hmac : (dvbNetEthTypeTrans (((SkBuff.mk mem 0 0).reserve 2).put (mpeEthHeader pkt snap ++ payload)) dev).mac =
        mpeEthHeader pkt snap := by
      rw [dvbNetEthTypeTrans,← Mem.take_slice _ _ _ _ hle]
      change (SkBuff.contents _).take ethHlen = _
      rw [hcontents,hempty,nil_append,take_left' hlength]
    rw [hmac]
    rfl
  unfold dvbNetSec at h
  dsimp only at h
  split at h
  · cases h
  · split at h
    · cases h
    · split at h
      · cases h
      · split at h
        · cases h
        · cases devAllocSkb with
          | none => cases h
          | some mem =>
            injection h with hpacket
            rw [← hpacket]
            exact hput mem _ _

def mpeFeed : DvbDemuxFeed :=
  { zeroFeed with sec := { zeroFeed.sec with secbufBase := fun _ => 0x3e, seclen := 16 } }

end LinuxDvb.Net
