import LinuxDvb.DvbCore.Net.UleRuns

/-!
# Extension headers inside the SNDU

What the decoding of a complete SNDU reads and removes, from the test of the destination address to the Ethernet
header put in front.
-/

namespace LinuxDvb.Net

/-- What the decoding of a complete SNDU does to the skb, with offsets into its memory. -/
inductive SnduOp where
  /-- `n` bytes from `off` on are read. -/
  | read (off n : Nat)
  /-- `n` bytes are removed from the front of a packet of `len` bytes. -/
  | pull (len n : Nat)
  /-- `n` bytes are put in front of the packet at `data`. -/
  | push (data n : Nat)
  deriving DecidableEq, Repr

/-- `op` stays between `start` and `tail`, and removes no more than there is. -/
def SnduOp.Within (start tail : Nat) : SnduOp → Prop
  | .read off n => start ≤ off ∧ off + n ≤ tail
  | .pull len n => n ≤ len
  | .push data n => n ≤ data

/-- Tests of the destination address. The loop over `multi_macs` stops at an entry that equals it. -/
def destOps (p : DvbNetPriv) (skb : SkBuff) : List SnduOp :=
  let dest := skb.mem.slice skb.data ethAlen
  if p.rxMode ≠ .promisc then
    .read skb.data 1 :: .read skb.data ethAlen ::
      if isGroup dest ∧ dest ≠ List.replicate ethAlen 0xff ∧ p.rxMode = .multi then
        (p.multiMacs.take (p.multiMacs.idxOf dest + 1)).map fun _ => .read skb.data ethAlen
      else []
  else []

/-- What the handler of a mandatory extension header reads: a bridged frame's `h_proto`. -/
def mandatoryHandlerOps (p : DvbNetPriv) (htype : Nat) : List SnduOp :=
  if htype = 1 then [.read (p.uleNextHdr + 12) 2] else []

/-- What `handle_one_ule_extension` reads. -/
def oneExtensionOps (p : DvbNetPriv) (skb : SkBuff) : List SnduOp :=
  let hlen := p.uleSnduType / 256 % 8
  let htype := p.uleSnduType % 256
  if hlen = 0 then
    match uleMandatoryExtHandlers htype with
    | none => []
    | some handler =>
      let r := handler p skb
      mandatoryHandlerOps p htype ++
        if r.2 ≥ 0 then
          let next := r.1.uleNextHdr + r.2.toNat
          if !r.1.uleBridged then [.read next 2]
          else [.read (next + (if p.uleDbit then 2 else 3) * ethAlen) 2]
        else []
  else [.read (p.uleNextHdr + hlen * 2 - 2) 2]

/-- What the first `fuel` rounds of the loop of `handle_ule_extensions` read. -/
def extensionLoopOps (skb : SkBuff) : Nat → DvbNetPriv → List SnduOp
  | 0, _ => []
  | fuel + 1, p =>
    let r := handleOneUleExtension p skb
    oneExtensionOps p skb ++
      if r.2 < 0 then []
      else if r.1.uleSnduType < 1536 then extensionLoopOps skb fuel r.1
      else []

def ethHeaderOps (p : DvbNetPriv) (skb : SkBuff) : List SnduOp :=
  if !p.uleBridged then [.push skb.data ethHlen] else []

def uleExtensionsOps (fuel : Nat) (p : DvbNetPriv) (skb : SkBuff) : List SnduOp :=
  if p.uleSnduType < 1536 then
    extensionLoopOps skb fuel { p with uleNextHdr := skb.data } ++
      match handleUleExtensions fuel p skb with
      | none => []
      | some r =>
        if r.2 < 0 then []
        else .pull skb.len r.2.toNat :: ethHeaderOps r.1 (skb.pull r.2.toNat)
  else ethHeaderOps p skb

/-- What `uleComplete` does to the skb once the CRC was found correct, with `fuel` rounds of the loop
over the extension headers. -/
def uleCompleteOps (fuel : Nat) (dev : NetDevice) (p : DvbNetPriv) (skb : SkBuff) : List SnduOp :=
  let skb' := skb.cut 4
  if !uleCrcOk p skb then []
  else if p.uleDbit then uleExtensionsOps fuel p skb'
  else
    destOps p skb' ++
      if dropsDest p dev (skb'.mem.slice skb'.data ethAlen) then []
      else
        .read skb'.data ethAlen :: .pull skb'.len ethAlen ::
          uleExtensionsOps fuel p (skb'.pull ethAlen)

def StaysInside (dev : NetDevice) (p : DvbNetPriv) (skb : SkBuff) : Prop :=
  (∃ fuel r, uleComplete fuel dev p skb = some r) ∧
    ∀ fuel, ∀ op ∈ uleCompleteOps fuel dev p skb, op.Within skb.data (skb.cut 4).tail

/-- The skb of an SNDU of which no byte is missing: behind the reserved space it has the bytes that the
length field counts, of which there are at least five. -/
structure CompleteSndu (p : DvbNetPriv) (skb : SkBuff) : Prop where
  data : skb.data = ethHlen + ethAlen
  len : skb.len = p.uleSnduLen
  accepted : 5 ≤ p.uleSnduLen

/-! ## The condition on the bytes -/

/-- What the decoder counts in addition to the bytes from a header on: the CRC, and a destination address
that is not there any more. -/
def frameExcess (dbit : Bool) : Nat := if dbit then 4 else 4 + ethAlen

/-- The frame has a length field, which is not what the decoder takes for the length of the frame. -/
def LengthRejected (dbit : Bool) (frame : List UInt8) : Prop :=
  ntohs (Mem.ofList frame) 12 < 1536 ∧
    ntohs (Mem.ofList frame) 12 + ethHlen ≠ frame.length + frameExcess dbit

def bridgedTypeOff (dbit : Bool) : Nat := if dbit then 2 * ethAlen else 3 * ethAlen

/-- `bytes`, which begin with a header of the given type, hold the chain of extension headers: up to a
payload type or a header that has the SNDU discarded, every header lies in them. -/
inductive ChainFits (dbit : Bool) : Nat → List UInt8 → Prop
  | payload {type : Nat} {bytes : List UInt8} (htype : 1536 ≤ type) : ChainFits dbit type bytes
  /-- A Test SNDU, or a mandatory header that is not known. -/
  | mandatory {type : Nat} {bytes : List UInt8} (htype : type < 256) (hne : type ≠ 1) :
      ChainFits dbit type bytes
  | rejected {bytes : List UInt8} (hlen : ethHlen ≤ bytes.length)
      (hreject : LengthRejected dbit bytes) : ChainFits dbit 1 bytes
  /-- The walk does not move on from a bridged frame. -/
  | bridged {bytes : List UInt8} (hlen : bridgedTypeOff dbit + 2 ≤ bytes.length)
      (haccept : ¬ LengthRejected dbit bytes)
      (rest : ChainFits dbit (ntohs (Mem.ofList bytes) (bridgedTypeOff dbit)) bytes) :
      ChainFits dbit 1 bytes
  | optional {type : Nat} {bytes : List UInt8} (hge : 256 ≤ type) (hlt : type < 1536)
      (hlen : type / 256 * 2 ≤ bytes.length)
      (rest : ChainFits dbit (ntohs (Mem.ofList bytes) (type / 256 * 2 - 2)) (bytes.drop (type / 256 * 2))) :
      ChainFits dbit type bytes

/-- The address is there unless the D bit says otherwise, and so is, in an SNDU that is not dropped for
its address, the chain of extension headers. -/
def HeadersFit (dev : NetDevice) (p : DvbNetPriv) (payload : List UInt8) : Prop :=
  if p.uleDbit then ChainFits true p.uleSnduType payload
  else ethAlen ≤ payload.length ∧
    (dropsDest p dev (payload.take ethAlen) = false → ChainFits false p.uleSnduType (payload.drop ethAlen))

/-! ## One header -/

section Header

variable {p : DvbNetPriv} {skb : SkBuff} {bytes : List UInt8}

/-- `ule_next_hdr` points to `bytes`, which reach to the end of the payload. -/
structure AtHeader (skb : SkBuff) (p : DvbNetPriv) (bytes : List UInt8) : Prop where
  tail : p.uleNextHdr + bytes.length = skb.tail
  slice : skb.mem.slice p.uleNextHdr bytes.length = bytes
  len : p.uleSnduLen = skb.len + frameExcess p.uleDbit

theorem AtHeader.ntohs_eq (h : AtHeader skb p bytes) {i : Nat} (hi : i + 2 ≤ bytes.length) :
    ntohs skb.mem (p.uleNextHdr + i) = ntohs (Mem.ofList bytes) i :=
  ntohs_add_of_slice h.slice hi

def optionalStep (p : DvbNetPriv) (skb : SkBuff) : DvbNetPriv :=
  { p with
    uleSnduType := ntohs skb.mem (p.uleNextHdr + p.uleSnduType / 256 * 2 - 2)
    uleNextHdr := p.uleNextHdr + p.uleSnduType / 256 * 2 }

def bridgedStep (p : DvbNetPriv) (skb : SkBuff) : DvbNetPriv :=
  { p with
    uleSnduType := ntohs skb.mem (p.uleNextHdr + bridgedTypeOff p.uleDbit)
    uleBridged := true }

theorem one_optional (hge : 256 ≤ p.uleSnduType) (hlt : p.uleSnduType < 1536) :
    handleOneUleExtension p skb = (optionalStep p skb, ((p.uleSnduType / 256 * 2 : Nat) : Int)) ∧
      oneExtensionOps p skb = [.read (p.uleNextHdr + p.uleSnduType / 256 * 2 - 2) 2] := by
  have hmod : p.uleSnduType / 256 % 8 = p.uleSnduType / 256 := by omega
  have hpos : p.uleSnduType / 256 ≠ 0 := by omega
  unfold handleOneUleExtension oneExtensionOps
  simp only [hmod,if_neg hpos,and_true]
  rfl

theorem one_mandatory (hlt : p.uleSnduType < 256) (hne : p.uleSnduType ≠ 1) :
    handleOneUleExtension p skb = (p, -1) ∧ oneExtensionOps p skb = [] := by
  have hzero : p.uleSnduType / 256 % 8 = 0 := by omega
  have hmod : p.uleSnduType % 256 = p.uleSnduType := by omega
  unfold handleOneUleExtension oneExtensionOps
  simp only [hzero,hmod,if_true]
  rcases htype : p.uleSnduType with _ | _ | n
  · exact ⟨rfl,rfl⟩
  · exact absurd htype hne
  · exact ⟨rfl,rfl⟩

/-- `ule_bridged_sndu` does not accept the frame. -/
def FrameRejected (p : DvbNetPriv) (skb : SkBuff) : Prop :=
  ntohs skb.mem (p.uleNextHdr + 12) < 1536 ∧
    (p.uleSnduLen : Int) - ((p.uleNextHdr + ethHlen : Nat) - skb.data : Int) ≠
      (ntohs skb.mem (p.uleNextHdr + 12) : Nat)

theorem one_rejected (hone : p.uleSnduType = 1) (hreject : FrameRejected p skb) :
    handleOneUleExtension p skb = (p, -1) ∧
      oneExtensionOps p skb = [.read (p.uleNextHdr + 12) 2] := by
  have hhandler : uleMandatoryExtHandlers (1 % 256) = some uleBridgedSndu := rfl
  have hframe : uleBridgedSndu p skb = (p, -1) := if_pos hreject
  unfold handleOneUleExtension oneExtensionOps
  simp only [hone,hhandler,hframe]
  exact ⟨rfl,rfl⟩

theorem one_bridged (hone : p.uleSnduType = 1) (haccept : ¬ FrameRejected p skb) :
    handleOneUleExtension p skb = (bridgedStep p skb, 0) ∧
      oneExtensionOps p skb =
        [.read (p.uleNextHdr + 12) 2, .read (p.uleNextHdr + bridgedTypeOff p.uleDbit) 2] := by
  have hhandler : uleMandatoryExtHandlers (1 % 256) = some uleBridgedSndu := rfl
  have hframe : uleBridgedSndu p skb = ({ p with uleBridged := true }, 0) := if_neg haccept
  unfold handleOneUleExtension oneExtensionOps bridgedStep
  simp only [hone,hhandler,hframe]
  cases p.uleDbit with
  | false => exact ⟨rfl,rfl⟩
  | true => exact ⟨rfl,rfl⟩

theorem frameRejected_iff (h : AtHeader skb p bytes) (hlen : ethHlen ≤ bytes.length) :
    FrameRejected p skb ↔ LengthRejected p.uleDbit bytes := by
  unfold FrameRejected LengthRejected
  have htail := h.tail
  have hsndu := h.len
  rw [h.ntohs_eq hlen]
  unfold SkBuff.tail at htail
  constructor
  · rintro ⟨hlt,hne⟩
    exact ⟨hlt,by omega⟩
  · rintro ⟨hlt,hne⟩
    exact ⟨hlt,by omega⟩

theorem AtHeader.optional (h : AtHeader skb p bytes) (hlen : p.uleSnduType / 256 * 2 ≤ bytes.length) :
    AtHeader skb (optionalStep p skb) (bytes.drop (p.uleSnduType / 256 * 2)) where
  tail := by
    have htail := h.tail
    rw [length_drop,optionalStep]
    dsimp only
    omega
  slice := by
    rw [length_drop,optionalStep]
    dsimp only
    rw [← Mem.drop_slice _ _ _ _ hlen,h.slice]
  len := h.len

theorem AtHeader.bridged (h : AtHeader skb p bytes) : AtHeader skb (bridgedStep p skb) bytes :=
  ⟨h.tail, h.slice, h.len⟩

theorem optionalStep_type (h : AtHeader skb p bytes) (hge : 256 ≤ p.uleSnduType)
    (hlen : p.uleSnduType / 256 * 2 ≤ bytes.length) :
    (optionalStep p skb).uleSnduType = ntohs (Mem.ofList bytes) (p.uleSnduType / 256 * 2 - 2) := by
  have hoff : p.uleNextHdr + p.uleSnduType / 256 * 2 - 2 =
      p.uleNextHdr + (p.uleSnduType / 256 * 2 - 2) := by omega
  rw [optionalStep]
  dsimp only
  rw [hoff,h.ntohs_eq (by omega)]

theorem bridgedStep_type (h : AtHeader skb p bytes) (hlen : bridgedTypeOff p.uleDbit + 2 ≤ bytes.length) :
    (bridgedStep p skb).uleSnduType = ntohs (Mem.ofList bytes) (bridgedTypeOff p.uleDbit) :=
  h.ntohs_eq hlen

theorem ethHlen_le_bridged (dbit : Bool) : ethHlen ≤ bridgedTypeOff dbit + 2 := by
  cases dbit <;> decide

/-! ## The walk -/

/-- What is left of the loop when it comes to the header at `bytes`, with `total` bytes behind it: it
ends, reads the payload only, and the result counts no more than the bytes of the payload. -/
structure WalkInside (skb : SkBuff) (start : Nat) (p : DvbNetPriv) (total : Int) : Prop where
  ends : ExtensionsEnd skb p
  reads : ∀ fuel, ∀ op ∈ extensionLoopOps skb fuel p, op.Within start skb.tail
  total : ∀ fuel r, uleExtensionLoop skb fuel p total = some r → r.2 ≤ skb.len

variable {start : Nat} {q : DvbNetPriv} {total : Int}

theorem WalkInside.discard (hone : handleOneUleExtension p skb = (q, -1))
    (hops : ∀ op ∈ oneExtensionOps p skb, op.Within start skb.tail) :
    WalkInside skb start p total where
  ends := .discard (by rw [hone]; exact (by decide : (-1 : Int) < 0))
  reads fuel op hop := by
    cases fuel with
    | zero => cases hop
    | succ fuel =>
      rw [extensionLoopOps,hone] at hop
      simp only [if_pos (show (-1 : Int) < 0 by decide),append_nil] at hop
      exact hops op hop
  total fuel r hr := by
    cases fuel with
    | zero => cases hr
    | succ fuel =>
      rw [uleExtensionLoop,hone,if_pos (show (-1 : Int) < 0 by decide),Option.some.injEq] at hr
      rw [← hr]
      dsimp only
      omega

theorem WalkInside.step {l : Nat} (hone : handleOneUleExtension p skb = (q, (l : Int)))
    (hops : ∀ op ∈ oneExtensionOps p skb, op.Within start skb.tail)
    (hlast : 1536 ≤ q.uleSnduType → total + l ≤ skb.len)
    (hmore : q.uleSnduType < 1536 → WalkInside skb start q (total + l)) :
    WalkInside skb start p total where
  ends := by
    by_cases h : q.uleSnduType < 1536
    · exact .next (by rw [hone]; exact (hmore h).ends)
    · exact .payload (by rw [hone]; exact Nat.not_lt.mp h)
  reads fuel op hop := by
    cases fuel with
    | zero => cases hop
    | succ fuel =>
      rw [extensionLoopOps,hone] at hop
      simp only [if_neg (show ¬ (l : Int) < 0 by omega),mem_append] at hop
      rcases hop with hop | hop
      · exact hops op hop
      · split at hop
        next h => exact (hmore h).reads fuel op hop
        next => cases hop
  total fuel r hr := by
    cases fuel with
    | zero => cases hr
    | succ fuel =>
      rw [uleExtensionLoop,hone,if_neg (show ¬ (l : Int) < 0 by omega)] at hr
      split at hr
      next h => exact (hmore h).total fuel r hr
      next h =>
        rw [Option.some.injEq] at hr
        rw [← hr]
        exact hlast (Nat.not_lt.mp h)

theorem within_reads {ops : List SnduOp} (hstart : start ≤ p.uleNextHdr)
    (h : ∀ op ∈ ops, ∃ i, op = .read (p.uleNextHdr + i) 2 ∧ i + 2 ≤ bytes.length)
    (hat : AtHeader skb p bytes) : ∀ op ∈ ops, op.Within start skb.tail := by
  intro op hop
  obtain ⟨i,rfl,hi⟩ := h op hop
  have htail := hat.tail
  exact ⟨by omega,by omega⟩

theorem ChainFits.walkInside {dbit : Bool} {type : Nat}
    (h : ChainFits dbit type bytes) (hat : AtHeader skb p bytes) (hdbit : p.uleDbit = dbit)
    (htype : p.uleSnduType = type) (hext : type < 1536) (hstart : start ≤ p.uleNextHdr)
    (htotal : total = (p.uleNextHdr : Int) - skb.data) : WalkInside skb start p total := by
  induction h generalizing p total with
  | payload hge => omega
  | mandatory hlt hne =>
    obtain ⟨hone,hops⟩ := @one_mandatory p skb (htype ▸ hlt) (htype ▸ hne)
    apply WalkInside.discard hone
    rw [hops]
    exact fun op hop => absurd hop not_mem_nil
  | rejected hlen hreject =>
    rw [← hdbit,← frameRejected_iff hat hlen] at hreject
    obtain ⟨hone,hops⟩ := one_rejected htype hreject
    apply WalkInside.discard hone
    rw [hops]
    apply within_reads hstart _ hat
    intro op hop
    exact ⟨12,mem_singleton.mp hop,hlen⟩
  | bridged hlen haccept _ ih =>
    subst hdbit
    have hframe := Nat.le_trans (ethHlen_le_bridged p.uleDbit) hlen
    rw [← frameRejected_iff hat hframe] at haccept
    obtain ⟨hone,hops⟩ := one_bridged htype haccept
    have hnext := bridgedStep_type hat hlen
    have htail := hat.tail
    apply WalkInside.step (l := 0) hone
    · rw [hops]
      apply within_reads hstart _ hat
      intro op hop
      rcases mem_cons.mp hop with rfl | hop
      · exact ⟨12,rfl,hframe⟩
      · exact ⟨bridgedTypeOff p.uleDbit,mem_singleton.mp hop,hlen⟩
    · intro _
      unfold SkBuff.tail at htail
      omega
    · intro hmore
      rw [hnext] at hmore
      exact ih hat.bridged rfl hnext hmore hstart (by rw [htotal]; exact Int.add_zero _)
  | @optional type bytes hge hlt hlen _ ih =>
    subst htype
    obtain ⟨hone,hops⟩ := @one_optional p skb hge hlt
    have hnext := optionalStep_type hat hge hlen
    have htail := hat.tail
    apply WalkInside.step hone
    · rw [hops]
      apply within_reads hstart _ hat
      intro op hop
      refine ⟨p.uleSnduType / 256 * 2 - 2,?_,by omega⟩
      rw [mem_singleton.mp hop,Nat.add_sub_assoc (by omega)]
    · intro _
      unfold SkBuff.tail at htail
      omega
    · intro hmore
      rw [hnext] at hmore
      apply ih (hat.optional hlen) hdbit hnext hmore
      · rw [optionalStep]
        dsimp only
        omega
      · rw [htotal,optionalStep]
        dsimp only
        omega

theorem within_offset {i : Nat} (hat : AtHeader skb p bytes)
    (h : (SnduOp.read (p.uleNextHdr + i) 2).Within start skb.tail) : i + 2 ≤ bytes.length := by
  have htail := hat.tail
  have hend := h.2
  omega

theorem chainFits_of_step (hat : AtHeader skb p bytes) (hext : p.uleSnduType < 1536)
    (hops : ∀ op ∈ oneExtensionOps p skb, op.Within start skb.tail)
    (hrest : ∀ (q : DvbNetPriv) (l : Nat) (rest : List UInt8),
      handleOneUleExtension p skb = (q, (l : Int)) → AtHeader skb q rest →
      ChainFits q.uleDbit q.uleSnduType rest) :
    ChainFits p.uleDbit p.uleSnduType bytes := by
  by_cases hge : 256 ≤ p.uleSnduType
  · obtain ⟨hone,hread⟩ := @one_optional p skb hge hext
    have hmem : SnduOp.read (p.uleNextHdr + (p.uleSnduType / 256 * 2 - 2)) 2 ∈ oneExtensionOps p skb := by
      rw [hread,← Nat.add_sub_assoc (by omega)]
      exact mem_singleton_self _
    have hlen : p.uleSnduType / 256 * 2 ≤ bytes.length := by
      have hfits := within_offset hat (hops _ hmem)
      omega
    apply ChainFits.optional hge hext hlen
    rw [← optionalStep_type hat hge hlen]
    exact hrest _ _ _ hone (hat.optional hlen)
  by_cases hone : p.uleSnduType = 1
  · by_cases hreject : FrameRejected p skb
    · obtain ⟨-,hread⟩ := one_rejected hone hreject
      have hlen : ethHlen ≤ bytes.length :=
        within_offset hat (hops _ (by rw [hread]; exact mem_singleton_self _))
      rw [hone]
      exact .rejected hlen ((frameRejected_iff hat hlen).mp hreject)
    · obtain ⟨hstep,hread⟩ := one_bridged hone hreject
      have hlen : bridgedTypeOff p.uleDbit + 2 ≤ bytes.length :=
        within_offset hat (hops _ (by rw [hread]; simp))
      have hframe := Nat.le_trans (ethHlen_le_bridged p.uleDbit) hlen
      rw [hone]
      apply ChainFits.bridged hlen fun h => hreject ((frameRejected_iff hat hframe).mpr h)
      rw [← bridgedStep_type hat hlen]
      exact hrest _ 0 _ hstep hat.bridged
  · exact .mandatory (Nat.not_le.mp hge) hone

theorem chainFits_of_walk (hends : ExtensionsEnd skb p) (hat : AtHeader skb p bytes) (hext : p.uleSnduType < 1536)
    (hops : ∀ fuel, ∀ op ∈ extensionLoopOps skb fuel p, op.Within start skb.tail) :
    ChainFits p.uleDbit p.uleSnduType bytes := by
  have hfirst {p : DvbNetPriv}
      (hops : ∀ fuel, ∀ op ∈ extensionLoopOps skb fuel p, op.Within start skb.tail) :
      ∀ op ∈ oneExtensionOps p skb, op.Within start skb.tail := by
    intro op hop
    exact hops 1 op (mem_append_left _ hop)
  induction hends generalizing bytes with
  | discard hneg =>
    apply chainFits_of_step hat hext (hfirst hops)
    intro q l rest hone
    rw [hone] at hneg
    exact absurd hneg (by simp)
  | payload hlast =>
    apply chainFits_of_step hat hext (hfirst hops)
    intro q l rest hone _
    rw [hone] at hlast
    exact .payload hlast
  | @next p _ ih =>
    apply chainFits_of_step hat hext (hfirst hops)
    intro q l rest hone hat'
    rw [hone] at ih
    by_cases hmore : q.uleSnduType < 1536
    · apply ih hat' hmore
      intro fuel op hop
      apply hops (fuel + 1) op
      rw [extensionLoopOps,hone]
      simp only [if_neg (show ¬ (l : Int) < 0 by omega),if_pos hmore]
      exact mem_append_right _ hop
    · exact .payload (Nat.not_lt.mp hmore)

/-! ## The extension headers of an SNDU -/

/-- `skb` holds the bytes that the walk is about, behind room for an Ethernet header. -/
structure AtPayload (skb : SkBuff) (p : DvbNetPriv) : Prop where
  room : ethHlen ≤ skb.data
  len : p.uleSnduLen = skb.len + frameExcess p.uleDbit

theorem AtPayload.atHeader (h : AtPayload skb p) : AtHeader skb { p with uleNextHdr := skb.data } skb.contents where
  tail := by rw [SkBuff.length_contents]; rfl
  slice := by rw [SkBuff.length_contents]; rfl
  len := h.len

theorem within_ethHeader {tail : Nat} (hroom : ethHlen ≤ skb.data) :
    ∀ op ∈ ethHeaderOps q skb, op.Within start tail := by
  intro op hop
  unfold ethHeaderOps at hop
  split at hop
  · rw [mem_singleton.mp hop]
    exact hroom
  · cases hop

theorem data_le_pull (skb : SkBuff) (n : Nat) : skb.data ≤ (skb.pull n).data := by
  unfold SkBuff.pull
  split
  · exact Nat.le_refl _
  · exact Nat.le_add_right _ _

theorem extensions_inside_iff (h : AtPayload skb p) (hstart : start ≤ skb.data) :
    ((p.uleSnduType < 1536 → ExtensionsEnd skb { p with uleNextHdr := skb.data }) ∧
        ∀ fuel, ∀ op ∈ uleExtensionsOps fuel p skb, op.Within start skb.tail) ↔
      ChainFits p.uleDbit p.uleSnduType skb.contents := by
  constructor
  · rintro ⟨hends,hops⟩
    by_cases hext : p.uleSnduType < 1536
    · apply chainFits_of_walk (hends hext) h.atHeader hext
      intro fuel op hop
      apply hops fuel op
      rw [uleExtensionsOps,if_pos hext]
      exact mem_append_left _ hop
    · exact .payload (Nat.not_lt.mp hext)
  · intro hfits
    by_cases hext : p.uleSnduType < 1536
    · have hwalk := hfits.walkInside h.atHeader rfl rfl hext hstart (Int.sub_self _).symm
      refine ⟨fun _ => hwalk.ends,fun fuel op hop => ?_⟩
      rw [uleExtensionsOps,if_pos hext,mem_append] at hop
      rcases hop with hop | hop
      · exact hwalk.reads fuel op hop
      · split at hop
        next => cases hop
        next r hr =>
          have htotal := hwalk.total fuel r hr
          split at hop
          next => cases hop
          next =>
            rcases mem_cons.mp hop with rfl | hop
            · exact Int.toNat_le.mpr htotal
            · exact within_ethHeader (Nat.le_trans h.room (data_le_pull _ _)) op hop
    · refine ⟨fun hlt => absurd hlt hext,fun fuel op hop => ?_⟩
      rw [uleExtensionsOps,if_neg hext] at hop
      exact within_ethHeader h.room op hop

end Header

section Sndu

variable {dev : NetDevice} {p : DvbNetPriv} {skb : SkBuff}

theorem destOps_within {tail : Nat} (hlen : skb.data + ethAlen ≤ tail) :
    ∀ op ∈ destOps p skb, op.Within skb.data tail := by
  have hdest : (SnduOp.read skb.data ethAlen).Within skb.data tail := ⟨Nat.le_refl _,hlen⟩
  have hfirst : (SnduOp.read skb.data 1).Within skb.data tail :=
    ⟨Nat.le_refl _,Nat.le_trans (Nat.add_le_add_left (by decide) _) hlen⟩
  intro op hop
  unfold destOps at hop
  dsimp only at hop
  split at hop
  · rcases mem_cons.mp hop with rfl | hop
    · exact hfirst
    rcases mem_cons.mp hop with rfl | hop
    · exact hdest
    split at hop
    · obtain ⟨-,-,rfl⟩ := mem_map.mp hop
      exact hdest
    · cases hop
  · cases hop

theorem CompleteSndu.atPayload (h : CompleteSndu p skb) (hdbit : p.uleDbit = true) : AtPayload (skb.cut 4) p where
  room := by
    change ethHlen ≤ skb.data
    rw [h.data]
    decide
  len := by
    have hge := h.accepted
    have hlen := h.len
    rw [hdbit,SkBuff.cut,frameExcess,if_pos rfl]
    dsimp only
    omega

theorem CompleteSndu.atPayload_pull (h : CompleteSndu p skb) (hdbit : p.uleDbit = false)
    (haddr : ethAlen ≤ (skb.cut 4).len) : AtPayload ((skb.cut 4).pull ethAlen) p where
  room := by
    rw [SkBuff.data_pull haddr]
    change ethHlen ≤ skb.data + ethAlen
    rw [h.data]
    decide
  len := by
    have hge := h.accepted
    have hlen := h.len
    rw [SkBuff.pull,if_neg (Nat.not_lt.mpr haddr),hdbit,frameExcess,if_neg Bool.false_ne_true]
    rw [SkBuff.cut] at haddr ⊢
    dsimp only at haddr ⊢
    omega

theorem dest_read (hdbit : p.uleDbit = false) (hcrc : uleCrcOk p skb = true) :
    .read skb.data ethAlen ∈ uleCompleteOps 0 dev p skb := by
  unfold uleCompleteOps
  simp only [hcrc,hdbit,Bool.not_true,Bool.false_eq_true,if_false]
  by_cases hmode : p.rxMode = .promisc
  · have hkept (dest : List UInt8) : dropsDest p dev dest = false := if_neg (not_not_intro hmode)
    rw [hkept,if_neg Bool.false_ne_true]
    exact mem_append_right _ mem_cons_self
  · apply mem_append_left
    rw [destOps,if_pos hmode]
    exact mem_cons_of_mem _ mem_cons_self

theorem address_inside_iff (h : CompleteSndu p skb) (hcrc : uleCrcOk p skb = true)
    (hdbit : p.uleDbit = false) (haddr : ethAlen ≤ (skb.cut 4).len)
    (hkept : dropsDest p dev (skb.mem.slice skb.data ethAlen) = false) :
    StaysInside dev p skb ↔
      ChainFits false p.uleSnduType ((skb.cut 4).contents.drop ethAlen) := by
  have htest := @destOps_within p (skb.cut 4) _ (Nat.add_le_add_left haddr skb.data)
  have hiff := extensions_inside_iff (h.atPayload_pull hdbit haddr)
    (data_le_pull (skb.cut 4) ethAlen : skb.data ≤ _)
  rw [hdbit,SkBuff.contents_pull haddr,SkBuff.tail_pull haddr] at hiff
  have hkept' : dropsDest p dev ((skb.cut 4).mem.slice (skb.cut 4).data ethAlen) = false := hkept
  unfold StaysInside
  rw [complete_ends_iff,← hiff]
  unfold SnduEnds passedSkb uleCompleteOps
  simp only [hcrc,hdbit,hkept',Bool.not_true,Bool.false_eq_true,if_false,Option.some.injEq,forall_eq']
  constructor
  · rintro ⟨hends,hops⟩
    refine ⟨hends,fun fuel op hop => hops fuel op ?_⟩
    exact mem_append_right _ (mem_cons_of_mem _ (mem_cons_of_mem _ hop))
  · rintro ⟨hends,hops⟩
    refine ⟨hends,fun fuel op hop => ?_⟩
    rcases mem_append.mp hop with hop | hop
    · exact htest op hop
    rcases mem_cons.mp hop with rfl | hop
    · exact ⟨Nat.le_refl _,Nat.add_le_add_left haddr skb.data⟩
    rcases mem_cons.mp hop with rfl | hop
    · exact haddr
    · exact hops fuel op hop

theorem dropped_inside (hcrc : uleCrcOk p skb = true) (hdbit : p.uleDbit = false) (haddr : ethAlen ≤ (skb.cut 4).len)
    (hdrops : dropsDest p dev (skb.mem.slice skb.data ethAlen) = true) : StaysInside dev p skb := by
  have htest := @destOps_within p (skb.cut 4) _ (Nat.add_le_add_left haddr skb.data)
  have hdrops' : dropsDest p dev ((skb.cut 4).mem.slice (skb.cut 4).data ethAlen) = true := hdrops
  unfold StaysInside
  rw [complete_ends_iff]
  unfold SnduEnds passedSkb uleCompleteOps
  simp only [hcrc,hdbit,hdrops',Bool.not_true,Bool.false_eq_true,if_false,if_true,append_nil]
  exact ⟨by simp,fun _ => htest⟩

/-- The decoding of an SNDU whose CRC is correct ends and stays inside the SNDU if and only if the SNDU
has the address and the extension headers that its D bit and its type fields announce. -/
theorem sndu_staysInside_iff (h : CompleteSndu p skb) (hcrc : uleCrcOk p skb = true) :
    StaysInside dev p skb ↔ HeadersFit dev p (skb.cut 4).contents := by
  unfold HeadersFit
  cases hdbit : p.uleDbit with
  | true =>
    have hiff := extensions_inside_iff (h.atPayload hdbit) (Nat.le_refl skb.data)
    rw [hdbit] at hiff
    unfold StaysInside
    rw [complete_ends_iff, if_pos rfl, ← hiff]
    unfold SnduEnds passedSkb uleCompleteOps
    simp only [hcrc, hdbit, if_true]
    simp
  | false =>
    rw [if_neg Bool.false_ne_true, SkBuff.length_contents]
    by_cases haddr : ethAlen ≤ (skb.cut 4).len
    · have hdest : (skb.cut 4).contents.take ethAlen = skb.mem.slice skb.data ethAlen :=
        Mem.take_slice _ _ _ _ haddr
      rw [hdest]
      cases hdrops : dropsDest p dev (skb.mem.slice skb.data ethAlen) with
      | true => exact iff_of_true (dropped_inside hcrc hdbit haddr hdrops) ⟨haddr, by simp⟩
      | false =>
        rw [address_inside_iff h hcrc hdbit haddr hdrops]
        exact ⟨fun hfits => ⟨haddr, fun _ => hfits⟩, fun hfits => hfits.2 rfl⟩
    · refine iff_of_false ?_ fun hfit => haddr hfit.1
      rintro ⟨-, hops⟩
      have hend := (hops 0 _ (dest_read hdbit hcrc)).2
      change skb.data + ethAlen ≤ skb.data + (skb.cut 4).len at hend
      omega

/-- The state when the last byte of an SNDU of an interface that was just set up was copied. -/
def receivedPriv (dbit : Bool) (type : Nat) (payload : List UInt8) : DvbNetPriv :=
  { dvbNetAddIf with uleSnduLen := payload.length + 4, uleSnduType := type, uleDbit := dbit }

def receivedSkb (dbit : Bool) (type : Nat) (payload : List UInt8) : SkBuff :=
  let lengthField := payload.length + 4 + if dbit then 0x8000 else 0
  let crc := crc32Be 0xffffffff (htons lengthField ++ (htons type ++ payload))
  { mem := Mem.write (fun _ => 0) 20 (payload ++ htonl crc.toNat), data := 20, len := payload.length + 4 }

theorem received_complete (dbit : Bool) (type : Nat) {payload : List UInt8} (h : payload ≠ []) :
    CompleteSndu (receivedPriv dbit type payload) (receivedSkb dbit type payload) where
  data := rfl
  len := rfl
  accepted := Nat.add_le_add_right (List.length_pos_of_ne_nil h) 4

/-- A padding header of two bytes in front of an empty IPv4 payload. -/
theorem sndu_staysInside_padding :
    StaysInside someDevice (receivedPriv true 0x0100 [8, 0]) (receivedSkb true 0x0100 [8, 0]) := by
  apply (sndu_staysInside_iff (received_complete true 0x0100 (by decide)) (by decide +kernel)).mpr
  exact .optional (by decide) (by decide) (by decide) (.payload (by decide))

/-- An SNDU of five bytes without the D bit: the destination address is not there. -/
theorem sndu_read_outside : ¬ ∀ (dev : NetDevice) (p : DvbNetPriv) (skb : SkBuff), CompleteSndu p skb →
      uleCrcOk p skb = true → StaysInside dev p skb := by
  intro h
  have hcrc : uleCrcOk (receivedPriv false 0x0800 [2]) (receivedSkb false 0x0800 [2]) = true := by
    decide +kernel
  have hinside := h someDevice _ _ (received_complete false 0x0800 (by decide)) hcrc
  have hend := (hinside.2 0 _ (dest_read rfl hcrc)).2
  exact absurd hend (by decide)

end Sndu

end LinuxDvb.Net
