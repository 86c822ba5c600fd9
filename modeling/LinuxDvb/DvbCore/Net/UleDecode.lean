import LinuxDvb.DvbCore.Net.UleEncapsulation

/-!
# Decoding a complete SNDU

What `dvb_net_ule` does when the bytes of an intact SNDU are in the skb: the CRC is found correct, the address is
tested, the extension headers are skipped, and the payload is passed on.
-/

namespace LinuxDvb.Net

/-- The interface takes packets for this address: in promiscuous mode all, else its own, broadcasts and
the multicasts that are enabled. -/
def accepts (dev : NetDevice) (p : DvbNetPriv) (dest : List UInt8) : Bool :=
  p.rxMode = .promisc ∨ dest = List.replicate ethAlen 0xff ∨
    isGroup dest = false ∧ dest = dev.devAddr ∨
    isGroup dest = true ∧ (p.rxMode = .allMulti ∨ p.rxMode = .multi ∧ dest ∈ p.multiMacs)

def Sndu.addressed (dev : NetDevice) (p : DvbNetPriv) (u : Sndu) : Bool := u.dest.all (accepts dev p)

/-- The destination address of the Ethernet header that the receiver puts in front of the payload. -/
def Sndu.ethDest (u : Sndu) : List UInt8 := u.dest.getD (List.replicate ethAlen 0)

def Sndu.ethHeader (u : Sndu) : List UInt8 :=
  u.ethDest ++ (List.replicate ethAlen 0 ++ htons u.payloadType)

/-- Who a packet with the destination address `dest` is for. -/
def pktTypeOf (dev : NetDevice) (dest : List UInt8) : PktType :=
  if isGroup dest then if dest = dev.broadcast then .broadcast else .multicast else .host

/-- The packet with the payload of the SNDU: a bridged frame as it is, any other payload behind an
Ethernet header. -/
def Sndu.packet (dev : NetDevice) (u : Sndu) : NetPacket :=
  if u.bridged then
    { mac := u.payload.take ethHlen
      data := u.payload.drop ethHlen
      protocol :=
        if 1536 ≤ u.frameType then u.frameType
        else if (u.payload.drop ethHlen).take 2 = [0xff, 0xff] then 0x0001
        else 0x0004
      pktType := pktTypeOf dev (u.payload.take ethAlen) }
  else
    { mac := u.ethHeader
      data := u.payload
      protocol := u.payloadType
      pktType := pktTypeOf dev u.ethDest }

/-- A bridged frame has an EtherType. The length in a frame without one is compared with a length that
counts the CRC, too, and the frame is discarded. -/
def Sndu.hasEtherType (u : Sndu) : Bool := !u.bridged || 1536 ≤ u.frameType

/-- The EtherType of a bridged frame is looked for six bytes too far behind when the SNDU has a
destination address. What stands there is not taken for the type of another extension header if its
first byte is at least 6. -/
def Sndu.Readable (u : Sndu) : Prop :=
  u.bridged = true → u.dest.isSome = true → 1536 ≤ u.frameType →
    ∃ b, (u.payload ++ htonl u.crc)[18]? = some b ∧ 6 ≤ b.toNat

def Sndu.passed (dev : NetDevice) (p : DvbNetPriv) (u : Sndu) : Bool :=
  u.addressed dev p && u.hasEtherType

structure SameErrors (a b : NetDeviceStats) : Prop where
  rxErrors : b.rxErrors = a.rxErrors
  rxDropped : b.rxDropped = a.rxDropped
  rxLengthErrors : b.rxLengthErrors = a.rxLengthErrors
  rxCrcErrors : b.rxCrcErrors = a.rxCrcErrors
  rxFrameErrors : b.rxFrameErrors = a.rxFrameErrors

theorem SameErrors.refl (a : NetDeviceStats) : SameErrors a a := ⟨rfl, rfl, rfl, rfl, rfl⟩

theorem SameErrors.trans {a b c : NetDeviceStats} (hab : SameErrors a b) (hbc : SameErrors b c) : SameErrors a c where
  rxErrors := hbc.rxErrors.trans hab.rxErrors
  rxDropped := hbc.rxDropped.trans hab.rxDropped
  rxLengthErrors := hbc.rxLengthErrors.trans hab.rxLengthErrors
  rxCrcErrors := hbc.rxCrcErrors.trans hab.rxCrcErrors
  rxFrameErrors := hbc.rxFrameErrors.trans hab.rxFrameErrors

/-- The private data describes the SNDU `u`. -/
structure Describes (p : DvbNetPriv) (u : Sndu) : Prop where
  len : p.uleSnduLen = u.length
  dbit : p.uleDbit = u.dest.isNone
  bridged : p.uleBridged = false

theorem dropsDest_eq (dev : NetDevice) (p : DvbNetPriv) (dest : List UInt8) :
    dropsDest p dev dest = !accepts dev p dest := by
  unfold dropsDest accepts
  by_cases hbc : dest = List.replicate ethAlen 0xff
  · have hgroup : isGroup dest = true := by
      rw [hbc]
      decide
    rw [hbc] at hgroup ⊢
    simp [hgroup]
  · cases hmode : p.rxMode <;> cases hgroup : isGroup dest <;> simp [hbc]

section Skb

variable {dev : NetDevice} {p : DvbNetPriv} {u : Sndu} {skb : SkBuff}

theorem crcOk_of_intact (hp : Describes p u) (htype : p.uleSnduType = u.type)
    (hskb : skb.contents = u.rest) : uleCrcOk p skb = true := by
  have hlen : skb.len = u.body.length + 4 := by
    rw [← SkBuff.length_contents,hskb,u.length_rest]
    rfl
  obtain ⟨hbody,hcrc⟩ := (Mem.slice_append_iff _ _ _ _).mp (SkBuff.slice_of_contents hskb)
  have hntohl : ntohl skb.mem (skb.tail - 4) = u.crc := by
    apply ntohl_of_slice (UInt32.toNat_lt _)
    rw [SkBuff.tail,hlen,show skb.data + (u.body.length + 4) - 4 = skb.data + u.body.length by omega]
    exact hcrc
  unfold uleCrcOk
  simp only [hlen,Nat.add_sub_cancel,hbody,hntohl,hp.len,hp.dbit,htype,← crc32Be_append]
  rw [decide_eq_true_eq,SnduFields.crc,SnduFields.header]

theorem handleOne_optional (h : OptionalHeader) (htype : p.uleSnduType = h.typeField) : handleOneUleExtension p skb =
      ({ p with
        uleSnduType := ntohs skb.mem (p.uleNextHdr + h.bytes.length)
        uleNextHdr := p.uleNextHdr + (h.bytes.length + 2) }, ((h.bytes.length + 2 : Nat) : Int)) := by
  have heven := h.length_even
  have hle := h.length_le
  have hlt := h.htype_lt
  have hlen : p.uleSnduType / 256 % 8 = h.bytes.length / 2 + 1 := by
    rw [htype,OptionalHeader.typeField]
    omega
  unfold handleOneUleExtension
  simp only [hlen,show (h.bytes.length / 2 + 1) * 2 = h.bytes.length + 2 by omega]
  rw [if_neg (by omega)]
  rfl

theorem extensionLoop_chain {hs : List OptionalHeader} {payloadType : Nat} (hne : hs ≠ [])
    (hlt : payloadType < 65536) (htype : p.uleSnduType = chainType hs payloadType)
    (hbytes : skb.mem.slice p.uleNextHdr (chainBytes hs payloadType).length = chainBytes hs payloadType)
    (fuel : Nat) (total : Int) :
    uleExtensionLoop skb (hs.length + fuel) p total =
      let q := { p with
        uleSnduType := payloadType
        uleNextHdr := p.uleNextHdr + (chainBytes hs payloadType).length }
      let total' := total + ((chainBytes hs payloadType).length : Nat)
      if payloadType < 1536 then uleExtensionLoop skb fuel q total' else some (q, total') := by
  induction hs generalizing p total with
  | nil => exact absurd rfl hne
  | cons h hs ih =>
    -- the next type field stands behind the bytes of this header
    obtain ⟨hhead,hrest⟩ := (Mem.slice_append_iff _ _ _ _).mp hbytes
    have hnext : ntohs skb.mem (p.uleNextHdr + h.bytes.length) = chainType hs payloadType :=
      ntohs_of_slice (chainType_lt hs hlt) ((Mem.slice_append_iff _ _ _ _).mp hhead).2
    have hlen : (chainBytes (h :: hs) payloadType).length =
        h.bytes.length + 2 + (chainBytes hs payloadType).length := by
      simp [chainBytes,Nat.add_assoc]
    rw [length_cons,Nat.add_right_comm,uleExtensionLoop,handleOne_optional h htype,hnext,hlen]
    dsimp only
    rw [if_neg (by omega)]
    cases hs with
    | nil => simp [chainType,chainBytes]
    | cons h' hs =>
      have hmore : chainType (h' :: hs) payloadType < 1536 := h'.typeField_lt
      rw [if_pos hmore,ih (by simp) rfl (by simpa using hrest)]
      simp only [Nat.add_assoc,Int.natCast_add,Int.add_assoc]

theorem handleOne_bridged (hp : Describes p u) (hbridged : u.bridged = true) (htype : p.uleSnduType = u.payloadType)
    (hnext : p.uleNextHdr = skb.data + (chainBytes u.headers u.payloadType).length)
    (hframe : skb.mem.slice p.uleNextHdr (u.payload ++ htonl u.crc).length = u.payload ++ htonl u.crc)
    (hread : u.Readable) :
    if u.hasEtherType then
      ∃ type, 1536 ≤ type ∧
        handleOneUleExtension p skb = ({ p with uleBridged := true, uleSnduType := type }, 0)
    else handleOneUleExtension p skb = (p, -1) := by
  have hone : p.uleSnduType = 1 := by simpa [SnduFields.bridged,← htype] using hbridged
  have hlen := u.length_frame hbridged
  have hpayload : skb.mem.slice p.uleNextHdr u.payload.length = u.payload :=
    ((Mem.slice_append_iff _ _ _ _).mp hframe).1
  have hproto : ntohs skb.mem (p.uleNextHdr + 12) = u.frameType :=
    ntohs_add_of_slice hpayload hlen
  have hhandler : uleMandatoryExtHandlers (1 % 256) = some uleBridgedSndu := rfl
  by_cases hge : 1536 ≤ u.frameType
  · have hbr : uleBridgedSndu p skb = ({ p with uleBridged := true }, 0) := by
      simp only [uleBridgedSndu,hproto]
      rw [if_neg (by omega)]
    rw [if_pos (by simp [Sndu.hasEtherType, hge])]
    refine ⟨ntohs skb.mem (p.uleNextHdr + (if p.uleDbit then 2 else 3) * ethAlen),?_,?_⟩
    · rw [hp.dbit]
      cases hd : u.dest with
      | none => exact hproto.symm ▸ hge
      | some d =>
        obtain ⟨b,hb,hsix⟩ := hread hbridged (by simp [hd]) hge
        obtain ⟨hi,-⟩ := List.getElem?_eq_some_iff.mp hb
        rw [Mem.apply_of_slice_eq hframe hi,Option.some.injEq] at hb
        change 1536 ≤ ntohs skb.mem (p.uleNextHdr + 18)
        rw [ntohs,hb]
        omega
    · simp only [handleOneUleExtension,hone,hhandler,hbr]
      rfl
  · have hle := u.frameType_le hbridged (by omega)
    have hbr : uleBridgedSndu p skb = (p, -1) := by
      simp only [uleBridgedSndu,hproto]
      rw [if_pos]
      refine ⟨by omega,?_⟩
      rw [hp.len,SnduFields.length,SnduFields.body,hnext]
      simp only [length_append]
      omega
    rw [if_neg (by simp [Sndu.hasEtherType, hge, hbridged])]
    simp only [handleOneUleExtension,hone,hhandler,hbr]
    rfl

theorem isGroup_take {xs : List UInt8} {n : Nat} (hn : 0 < n) : isGroup (xs.take n) = isGroup xs := by
  obtain ⟨n,rfl⟩ : ∃ k, n = k + 1 := ⟨n - 1,by omega⟩
  cases xs with
  | nil => rfl
  | cons x xs => rfl

theorem ethTypeTrans_frame {frame : List UInt8} (hskb : skb.contents = frame)
    (hlen : ethHlen ≤ frame.length) (htype : 1536 ≤ ntohs (Mem.ofList frame) 12) :
    dvbNetEthTypeTrans skb dev =
      { mac := frame.take ethHlen
        data := frame.drop ethHlen
        protocol := ntohs (Mem.ofList frame) 12
        pktType := pktTypeOf dev (frame.take ethAlen) } := by
  have hle : ethHlen ≤ skb.len := by
    rw [← SkBuff.length_contents,hskb]
    exact hlen
  have hmac : skb.mem.slice skb.data ethHlen = frame.take ethHlen := by
    rw [← hskb,SkBuff.contents,Mem.take_slice _ _ _ _ hle]
  have hproto : ntohs skb.mem (skb.data + 12) = ntohs (Mem.ofList frame) 12 :=
    ntohs_add_of_slice (SkBuff.slice_of_contents hskb) hlen
  have hdata : (skb.pull ethHlen).contents = frame.drop ethHlen := by
    rw [SkBuff.contents_pull hle,hskb]
  have htake : (frame.take ethHlen).take ethAlen = frame.take ethAlen := List.take_take
  unfold dvbNetEthTypeTrans pktTypeOf
  simp only [hmac,hproto,hdata,htake,ge_iff_le,if_pos htype]
  rw [isGroup_take (by decide),isGroup_take (by decide)]

theorem Sndu.length_ethDest (u : Sndu) : u.ethDest.length = ethAlen := by
  unfold ethDest
  cases hd : u.dest with
  | none => simp
  | some d => exact u.length_dest d hd

theorem Sndu.length_ethHeader (u : Sndu) : u.ethHeader.length = ethHlen := by
  rw [ethHeader,length_append,u.length_ethDest]
  rfl

theorem Sndu.ethHeader_type (u : Sndu) : ntohs (Mem.ofList (u.ethHeader ++ u.payload)) 12 = u.payloadType := by
  have hslice := Mem.slice_ofList (u.ethHeader ++ u.payload)
  have hhdr := ((Mem.slice_append_iff _ _ _ _).mp hslice).1
  have hrest := ((Mem.slice_append_iff _ _ _ _).mp hhdr).2
  rw [u.length_ethDest] at hrest
  exact ntohs_of_slice u.payloadType_lt ((Mem.slice_append_iff _ _ _ _).mp hrest).2

theorem uleDeliver_bridged {dest : List UInt8} (hbridged : u.bridged = true)
    (htype : 1536 ≤ u.frameType) (hp : p.uleBridged = true) (hskb : skb.contents = u.payload) :
    (uleDeliver dev p skb dest).2 = [u.packet dev] := by
  unfold uleDeliver
  simp only [hp,Bool.not_true,Bool.false_eq_true,if_false]
  rw [ethTypeTrans_frame hskb (u.length_frame hbridged) htype,Sndu.packet,if_pos hbridged,if_pos htype]
  rfl

theorem uleDeliver_payload {dest : List UInt8} (hbridged : u.bridged = false)
    (hp : p.uleBridged = false) (htype : p.uleSnduType = u.payloadType) (hdbit : p.uleDbit = u.dest.isNone)
    (hdest : ∀ d, u.dest = some d → dest = d) (hskb : skb.contents = u.payload)
    (hdata : ethHlen ≤ skb.data) :
    (uleDeliver dev p skb dest).2 = [u.packet dev] := by
  have hhdr : (if !p.uleDbit then dest else List.replicate ethAlen 0) = u.ethDest := by
    rw [hdbit,Sndu.ethDest]
    cases hd : u.dest with
    | none => rfl
    | some d => simpa using hdest d hd
  have hframe : (skb.push u.ethHeader).contents = u.ethHeader ++ u.payload := by
    rw [SkBuff.contents_push (u.length_ethHeader ▸ hdata),hskb]
  have hge : 1536 ≤ u.payloadType := by simpa [hbridged] using u.payloadType_ok
  unfold uleDeliver
  simp only [hp,hhdr,htype,Bool.not_false,if_true,append_assoc]
  change [dvbNetEthTypeTrans (skb.push u.ethHeader) dev] = _
  rw [ethTypeTrans_frame hframe (by rw [length_append, u.length_ethHeader]; omega)
    (by rw [u.ethHeader_type]; exact hge),u.ethHeader_type,take_left' u.length_ethHeader,
    drop_left' u.length_ethHeader,Sndu.packet,if_neg (by simp [hbridged])]
  have htake : (u.ethHeader ++ u.payload).take ethAlen = u.ethDest := by
    rw [Sndu.ethHeader,append_assoc]
    exact take_left' u.length_ethDest
  rw [htake]

theorem handleUleExtensions_bridged (hbridged : u.bridged = true) (htype : p.uleSnduType = u.type)
    (hchain : skb.mem.slice skb.data (chainBytes u.headers u.payloadType).length = chainBytes u.headers u.payloadType) :
    handleUleExtensions (u.headers.length + 1) p skb =
      uleExtensionLoop skb 1
        { p with
          uleSnduType := u.payloadType
          uleNextHdr := skb.data + (chainBytes u.headers u.payloadType).length }
        (chainBytes u.headers u.payloadType).length := by
  have hone : u.payloadType = 1 := by simpa [SnduFields.bridged] using hbridged
  unfold handleUleExtensions
  by_cases hnil : u.headers = []
  · have hpriv : p.uleSnduType = u.payloadType := by rw [htype,SnduFields.type,hnil,chainType]
    rw [hnil,← hpriv]
    rfl
  · have hloop := @extensionLoop_chain { p with uleNextHdr := skb.data } skb u.headers u.payloadType
      hnil u.payloadType_lt htype hchain 1 0
    rw [hloop]
    dsimp only
    rw [if_pos (by omega),Int.zero_add]

theorem uleExtensions_bridged {dest : List UInt8} (hbridged : u.bridged = true) (hp : Describes p u)
    (htype : p.uleSnduType = u.type)
    (hskb : skb.contents = chainBytes u.headers u.payloadType ++ u.payload)
    (hcrc : skb.mem.slice skb.tail 4 = htonl u.crc) (hread : u.Readable) :
    ∃ r, uleExtensions (u.headers.length + 1) dev p skb dest = some r ∧
      r.2 = (if u.hasEtherType then [u.packet dev] else []) ∧ SameErrors p.stats r.1.stats := by
  have hone : u.payloadType = 1 := by simpa [SnduFields.bridged] using hbridged
  have hext : p.uleSnduType < 1536 := by
    rw [htype,SnduFields.type]
    cases u.headers with
    | nil => simp [chainType,hone]
    | cons h hs => exact h.typeField_lt
  have hlen : skb.len = (chainBytes u.headers u.payloadType).length + u.payload.length := by
    rw [← SkBuff.length_contents,hskb,length_append]
  obtain ⟨hchain,hpayload⟩ := (Mem.slice_append_iff _ _ _ _).mp (SkBuff.slice_of_contents hskb)
  let q := { p with
    uleSnduType := u.payloadType
    uleNextHdr := skb.data + (chainBytes u.headers u.payloadType).length }
  have hframe : skb.mem.slice q.uleNextHdr (u.payload ++ htonl u.crc).length =
      u.payload ++ htonl u.crc := by
    apply (Mem.slice_append_iff _ _ _ _).mpr
    refine ⟨hpayload,?_⟩
    rw [SkBuff.tail,hlen,← Nat.add_assoc] at hcrc
    exact hcrc
  have hone' := @handleOne_bridged q u skb ⟨hp.len,hp.dbit,hp.bridged⟩ hbridged rfl rfl hframe hread
  unfold uleExtensions
  rw [if_pos hext,handleUleExtensions_bridged hbridged htype hchain,uleExtensionLoop]
  cases hether : u.hasEtherType with
  | true =>
    rw [if_pos hether] at hone'
    obtain ⟨type,hge,hstep⟩ := hone'
    have hframeType : 1536 ≤ u.frameType := by simpa [Sndu.hasEtherType,hbridged] using hether
    rw [hstep]
    simp only [Int.lt_irrefl,if_false,if_neg (Nat.not_lt.mpr hge),Int.add_zero,Int.toNat_natCast]
    rw [if_neg (by omega)]
    refine ⟨_,rfl,?_,rfl,rfl,rfl,rfl,rfl⟩
    rw [if_pos trivial]
    apply uleDeliver_bridged hbridged hframeType rfl
    rw [SkBuff.contents_pull (by omega),hskb,drop_left' rfl]
  | false =>
    rw [if_neg (by simp [hether])] at hone'
    rw [hone']
    exact ⟨_,rfl,rfl,.refl _⟩

theorem uleExtensions_payload {dest : List UInt8} (hbridged : u.bridged = false) (hp : Describes p u)
    (htype : p.uleSnduType = u.type) (hdest : ∀ d, u.dest = some d → dest = d)
    (hskb : skb.contents = chainBytes u.headers u.payloadType ++ u.payload)
    (hdata : ethHlen ≤ skb.data) :
    ∃ r, uleExtensions (u.headers.length + 1) dev p skb dest = some r ∧ r.2 = [u.packet dev] ∧
      SameErrors p.stats r.1.stats := by
  have hge : 1536 ≤ u.payloadType := by simpa [hbridged] using u.payloadType_ok
  unfold uleExtensions handleUleExtensions
  by_cases hnil : u.headers = []
  · have htype' : p.uleSnduType = u.payloadType := by rw [htype,SnduFields.type,hnil,chainType]
    rw [if_neg (by omega)]
    rw [hnil,chainBytes,nil_append] at hskb
    exact ⟨_,rfl,uleDeliver_payload hbridged hp.bridged htype' hp.dbit hdest hskb hdata,rfl,rfl,rfl,rfl,rfl⟩
  · have hext : p.uleSnduType < 1536 := by
      rw [htype,SnduFields.type]
      cases hh : u.headers with
      | nil => exact absurd hh hnil
      | cons h hs => exact h.typeField_lt
    have hchain := ((Mem.slice_append_iff _ _ _ _).mp (SkBuff.slice_of_contents hskb)).1
    have hlen : (chainBytes u.headers u.payloadType).length ≤ skb.len := by
      rw [← SkBuff.length_contents,hskb,length_append]
      omega
    have hloop := @extensionLoop_chain { p with uleNextHdr := skb.data } skb u.headers u.payloadType
      hnil u.payloadType_lt htype hchain 1 0
    rw [if_pos hext,hloop]
    dsimp only
    rw [if_neg (by omega)]
    dsimp only
    rw [if_neg (by omega),Int.zero_add,Int.toNat_natCast]
    refine ⟨_,rfl,uleDeliver_payload hbridged hp.bridged rfl hp.dbit hdest ?_ ?_,rfl,rfl,rfl,rfl,rfl⟩
    · rw [SkBuff.contents_pull hlen,hskb,drop_left' rfl]
    · rw [SkBuff.data_pull hlen]
      omega

theorem uleExtensions_eq {dest : List UInt8} (hp : Describes p u) (htype : p.uleSnduType = u.type)
    (hdest : ∀ d, u.dest = some d → dest = d)
    (hskb : skb.contents = chainBytes u.headers u.payloadType ++ u.payload)
    (hcrc : skb.mem.slice skb.tail 4 = htonl u.crc) (hdata : ethHlen ≤ skb.data) (hread : u.Readable) :
    ∃ r, uleExtensions (u.headers.length + 1) dev p skb dest = some r ∧
      r.2 = (if u.hasEtherType then [u.packet dev] else []) ∧ SameErrors p.stats r.1.stats := by
  cases hbridged : u.bridged with
  | true => exact uleExtensions_bridged hbridged hp htype hskb hcrc hread
  | false =>
    rw [if_pos (by simp [Sndu.hasEtherType, hbridged])]
    exact uleExtensions_payload hbridged hp htype hdest hskb hdata

theorem uleComplete_eq (hp : Describes p u) (htype : p.uleSnduType = u.type)
    (hskb : skb.contents = u.rest) (hdata : ethHlen ≤ skb.data)
    (hread : u.addressed dev p = true → u.Readable) :
    ∃ r, uleComplete (u.headers.length + 1) dev p skb = some r ∧
      r.2 = (if u.passed dev p then [u.packet dev] else []) ∧ SameErrors p.stats r.1.stats := by
  have hcrc := crcOk_of_intact hp htype hskb
  have hlen : skb.len = u.body.length + 4 := by
    rw [← SkBuff.length_contents,hskb,u.length_rest]
    rfl
  have hcut : (skb.cut 4).contents = u.body := by
    rw [SkBuff.contents_cut,hskb,hlen,Nat.add_sub_cancel]
    exact take_left' rfl
  -- the CRC is still there behind the packet
  have htail : skb.mem.slice (skb.cut 4).tail 4 = htonl u.crc := by
    have hrest := ((Mem.slice_append_iff _ _ _ _).mp (SkBuff.slice_of_contents hskb)).2
    rw [SkBuff.tail,SkBuff.cut,hlen]
    exact hrest
  unfold uleComplete Sndu.passed
  cases hd : u.dest with
  | none =>
    have haddressed : u.addressed dev p = true := by simp [Sndu.addressed,hd]
    have hpassed : passedSkb dev p skb = some (skb.cut 4) := by
      simp [passedSkb,hcrc,hp.dbit,hd]
    rw [hpassed,haddressed,Bool.true_and]
    have hbody : (skb.cut 4).contents = chainBytes u.headers u.payloadType ++ u.payload := by
      rw [hcut,SnduFields.body,hd]
      rfl
    exact uleExtensions_eq hp htype (by simp [hd]) hbody htail hdata (hread haddressed)
  | some d =>
    have hd_length := u.length_dest d hd
    have hbody : (skb.cut 4).contents = d ++ (chainBytes u.headers u.payloadType ++ u.payload) := by
      rw [hcut,SnduFields.body,hd]
      rfl
    have hslice : skb.mem.slice skb.data ethAlen = d := by
      have := ((Mem.slice_append_iff _ _ _ _).mp (SkBuff.slice_of_contents hbody)).1
      rwa [hd_length] at this
    have hle : ethAlen ≤ (skb.cut 4).len := by
      rw [← SkBuff.length_contents,hbody,length_append,hd_length]
      omega
    have haddressed : u.addressed dev p = accepts dev p d := by simp [Sndu.addressed,hd]
    have hpassed : passedSkb dev p skb =
        if accepts dev p d then some ((skb.cut 4).pull ethAlen) else none := by
      have hslice' : (skb.cut 4).mem.slice (skb.cut 4).data ethAlen = d := hslice
      simp only [passedSkb,hcrc,hp.dbit,hd,hslice',dropsDest_eq]
      cases accepts dev p d <;> rfl
    rw [hpassed,← haddressed]
    cases haccept : u.addressed dev p with
    | false =>
      refine ⟨_,rfl,rfl,?_⟩
      simpa [hcrc] using SameErrors.refl p.stats
    | true =>
      simp only [if_true,Bool.true_and]
      rw [hslice]
      apply uleExtensions_eq hp htype
      · intro d' hd'
        rw [hd,Option.some.injEq] at hd'
        exact hd'
      · rw [SkBuff.contents_pull hle,hbody,drop_left' hd_length]
      · rw [SkBuff.mem_pull,SkBuff.tail_pull hle]
        exact htail
      · rw [SkBuff.data_pull hle]
        exact Nat.le_trans hdata (Nat.le_add_right _ _)
      · exact hread haccept

end Skb

end LinuxDvb.Net
