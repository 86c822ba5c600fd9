import LinuxDvb.DvbCore.Net.UleDecode
import LinuxDvb.DvbCore.Net.UlePass

/-!
# Receiving SNDUs from a cell

How the parts of a pass take up the bytes of well-formed SNDUs: the header, also when it is split between
two cells, the payload, and what follows a complete SNDU in its cell.
-/

namespace LinuxDvb.Net

structure Clear (p : DvbNetPriv) : Prop where
  uleSkb : p.uleSkb = none
  uleSnduLen : p.uleSnduLen = 0
  uleSnduType1 : p.uleSnduType1 = false
  uleSnduRemain : p.uleSnduRemain = 0
  uleBridged : p.uleBridged = false

/-- Only the first `k` bytes of the header of `u` are there, two or three. -/
structure HeaderSplit (u : Sndu) (k : Nat) (p : DvbNetPriv) : Prop extends Describes p u where
  uleSkb : p.uleSkb = none
  uleSnduRemain : p.uleSnduRemain = 0
  split : k = 2 ∧ p.uleSnduType1 = false ∨
    k = 3 ∧ p.uleSnduType1 = true ∧ p.uleSnduType = u.type / 256 * 256

/-- The header of `u` and `j` bytes of what follows it are there. -/
structure Filling (u : Sndu) (j : Nat) (skb : SkBuff) (p : DvbNetPriv) : Prop
    extends Describes p u where
  uleSkb : p.uleSkb = some skb
  contents : skb.contents = u.rest.take j
  headroom : ethHlen ≤ skb.data
  uleSnduType : p.uleSnduType = u.type
  uleSnduRemain : p.uleSnduRemain = u.length - j

/-- The bytes from `from_where` to the end of the cell. -/
structure At (c : UleCall) (s : UleLoop) (bytes : List UInt8) : Prop where
  tsRemain : s.tsRemain = bytes.length
  slice : c.buf.slice s.fromWhere bytes.length = bytes
  small : bytes.length < 256

/-- Between `s` and `s'` the SNDUs `us` were received: those that are passed on were passed on, in order,
and no error was counted. -/
structure Received (dev : NetDevice) (us : List Sndu) (s s' : UleLoop) : Prop where
  rx : s'.rx = s.rx ++ (us.filter (Sndu.passed dev s.priv)).map (Sndu.packet dev)
  errors : SameErrors s.priv.stats s'.priv.stats
  rxMode : s'.priv.rxMode = s.priv.rxMode
  multiMacs : s'.priv.multiMacs = s.priv.multiMacs

/-- A part of a pass that neither leaves the cell nor passes anything on. -/
structure SameCell (s s' : UleLoop) : Prop where
  ts : s'.ts = s.ts
  newTs : s'.newTs = s.newTs
  rx : s'.rx = s.rx

theorem SameCell.trans {s s' s'' : UleLoop} (h : SameCell s s') (h' : SameCell s' s'') : SameCell s s'' :=
  ⟨h'.ts.trans h.ts, h'.newTs.trans h.newTs, h'.rx.trans h.rx⟩

/-- A part of a pass that leaves synchronisation, statistics and address filter as they are. -/
structure SameLink (p q : DvbNetPriv) : Prop where
  needPusi : q.needPusi = p.needPusi
  tscc : q.tscc = p.tscc
  stats : q.stats = p.stats
  rxMode : q.rxMode = p.rxMode
  multiMacs : q.multiMacs = p.multiMacs

theorem SameLink.refl (p : DvbNetPriv) : SameLink p p := ⟨rfl, rfl, rfl, rfl, rfl⟩

theorem addressed_congr {dev : NetDevice} {p q : DvbNetPriv} (hmode : q.rxMode = p.rxMode)
    (hmacs : q.multiMacs = p.multiMacs) : Sndu.addressed dev q = Sndu.addressed dev p := by
  funext u
  unfold Sndu.addressed accepts
  rw [hmode,hmacs]

theorem passed_congr {dev : NetDevice} {p q : DvbNetPriv} (hmode : q.rxMode = p.rxMode)
    (hmacs : q.multiMacs = p.multiMacs) : Sndu.passed dev q = Sndu.passed dev p := by
  funext u
  rw [Sndu.passed,Sndu.passed,addressed_congr hmode hmacs]

theorem Received.trans {dev : NetDevice} {us vs : List Sndu} {s s' s'' : UleLoop}
    (h : Received dev us s s') (h' : Received dev vs s' s'') : Received dev (us ++ vs) s s'' where
  rx := by
    rw [h'.rx,h.rx,passed_congr h.rxMode h.multiMacs,filter_append,map_append,append_assoc]
  errors := h.errors.trans h'.errors
  rxMode := h'.rxMode.trans h.rxMode
  multiMacs := h'.multiMacs.trans h.multiMacs

theorem SameLink.received {dev : NetDevice} {s s' : UleLoop} (h : SameLink s.priv s'.priv)
    (hrx : s'.rx = s.rx) : Received dev [] s s' where
  rx := by simp [hrx]
  errors := h.stats ▸ .refl _
  rxMode := h.rxMode
  multiMacs := h.multiMacs

section Parts

variable {dev : NetDevice} {c : UleCall} {s : UleLoop} {u : Sndu}

theorem At.consume {xs ys : List UInt8} (h : At c s (xs ++ ys)) (s' : UleLoop)
    (hremain : s'.tsRemain = s.tsRemain) (hfrom : s'.fromWhere = s.fromWhere) :
    At c (s'.consume xs.length) ys where
  tsRemain := by
    have htotal := h.tsRemain
    have hsmall := h.small
    rw [length_append] at htotal hsmall
    simp only [UleLoop.consume,hremain]
    rw [subU8_of_le (by omega) (by omega)]
    omega
  slice := by
    simp only [UleLoop.consume,hfrom]
    exact ((Mem.slice_append_iff _ _ _ _).mp h.slice).2
  small := by
    have := h.small
    rw [length_append] at this
    omega

theorem At.slice_left {xs ys : List UInt8} (h : At c s (xs ++ ys)) : c.buf.slice s.fromWhere xs.length = xs :=
  ((Mem.slice_append_iff _ _ _ _).mp h.slice).1

def Sndu.lengthField (u : Sndu) : Nat := u.length + if u.dest.isNone then 0x8000 else 0

theorem Sndu.header_eq (u : Sndu) : u.header = htons u.lengthField ++ htons u.type := rfl

theorem Sndu.lengthField_mod (u : Sndu) : u.lengthField % 0x8000 = u.length := by
  have := u.length_lt
  unfold lengthField
  split <;> omega

theorem Sndu.lengthField_dbit (u : Sndu) : decide (u.lengthField ≥ 0x8000) = u.dest.isNone := by
  have := u.length_lt
  unfold lengthField
  cases u.dest.isNone with
  | true => simp
  | false => simpa using this

theorem uleLength_eq {more : List UInt8} (hclear : Clear s.priv) (hat : At c s (htons u.lengthField ++ more)) :
    ∃ s', uleLength c s = .ok s' ∧ At c s' more ∧ SameCell s s' ∧
      s'.priv = { s.priv with uleSnduLen := u.length, uleDbit := u.dest.isNone } := by
  have hremain : ¬ s.tsRemain < 2 := by
    have := hat.tsRemain
    simp at this
    omega
  have hfield : ntohs c.buf s.fromWhere = u.lengthField :=
    ntohs_of_slice u.lengthField_lt hat.slice_left
  refine ⟨_,?_,hat.consume { s.reads s.fromWhere 2 with
    priv := { s.priv with uleSnduLen := u.length, uleDbit := u.dest.isNone } } rfl rfl,
    ⟨rfl,rfl,rfl⟩,rfl⟩
  simp only [uleLength,if_neg hremain,if_pos hclear.uleSnduLen,hfield,u.lengthField_mod,
    if_neg (Nat.not_lt.mpr u.length_ge),u.lengthField_dbit]
  rfl

theorem uleType_eq {more : List UInt8} (hat : At c s (htons u.type ++ more)) (hfirst : s.priv.uleSnduType1 = false) :
    ∃ s', uleType c s = .ok s' ∧ At c s' more ∧ SameCell s s' ∧
      s'.priv = { s.priv with uleSnduType := u.type } := by
  have hremain : s.tsRemain = more.length + 2 := by
    rw [hat.tsRemain]
    simp [Nat.add_comm]
  have hfield : ntohs c.buf s.fromWhere = u.type := ntohs_of_slice u.type_lt hat.slice_left
  refine ⟨_,?_,hat.consume { s.reads s.fromWhere 2 with
    priv := { s.priv with uleSnduType := u.type } } rfl rfl,⟨rfl,rfl,rfl⟩,rfl⟩
  simp only [uleType,hfirst,hfield]
  rw [if_neg (by omega),if_neg (by omega)]
  rfl

theorem uleType_second {more : List UInt8} (hat : At c s ((htons u.type).drop 1 ++ more))
    (hmore : more ≠ []) (hfirst : s.priv.uleSnduType1 = true)
    (htype : s.priv.uleSnduType = u.type / 256 * 256) :
    ∃ s', uleType c s = .ok s' ∧ At c s' more ∧ SameCell s s' ∧
      s'.priv = { s.priv with uleSnduType := u.type } := by
  have hpos := length_pos_iff.mpr hmore
  have hremain : s.tsRemain = more.length + 1 := by
    rw [hat.tsRemain]
    simp [htons]
  have hbyte : (c.buf s.fromWhere).toNat = u.type % 256 := by
    have hslice := hat.slice_left
    simp only [htons,drop_succ_cons,drop_zero,length_cons,length_nil,
      Mem.slice,List.cons.injEq,and_true] at hslice
    rw [hslice,UInt8.toNat_ofNat']
  have hor : u.type / 256 * 256 ||| u.type % 256 = u.type := by
    have hlt : u.type % 256 < 2 ^ 8 := Nat.mod_lt _ (by decide)
    have hadd : 256 * (u.type / 256) + u.type % 256 = 256 * (u.type / 256) ||| u.type % 256 :=
      Nat.two_pow_add_eq_or_of_lt hlt _
    rw [Nat.mul_comm,← hadd]
    exact Nat.div_add_mod _ _
  refine ⟨_,?_,hat.consume { s.reads s.fromWhere 1 with
    priv := { s.priv with uleSnduType := u.type } } rfl rfl,⟨rfl,rfl,rfl⟩,rfl⟩
  simp only [uleType,hfirst,htype,hbyte,hor]
  rw [if_neg (by omega),if_neg (by omega)]
  rfl

theorem uleAlloc_eq (halloc : ∀ n, (c.alloc n).isSome) (hdesc : Describes s.priv u)
    (htype : s.priv.uleSnduType = u.type) :
    ∃ s' skb, uleAlloc c s = .ok s' ∧ Filling u 0 skb s'.priv ∧ SameCell s s' ∧
      SameLink s.priv s'.priv ∧ s'.tsRemain = s.tsRemain ∧ s'.fromWhere = s.fromWhere := by
  obtain ⟨mem,hmem⟩ := isSome_iff_exists.mp (halloc s.allocs)
  let skb : SkBuff := { mem := mem, data := 0, len := 0 }
  simp only [uleAlloc,hmem]
  refine ⟨_,skb.reserve (ethHlen + ethAlen),rfl,?_,⟨rfl,rfl,rfl⟩,⟨rfl,rfl,rfl,rfl,rfl⟩,rfl,rfl⟩
  exact {
    len := hdesc.len
    dbit := hdesc.dbit
    bridged := hdesc.bridged
    uleSkb := rfl
    contents := rfl
    headroom := Nat.le_of_ble_eq_true rfl
    uleSnduType := htype
    uleSnduRemain := hdesc.len }

theorem At.of_eq {s' : UleLoop} {bytes : List UInt8} (h : At c s bytes)
    (hremain : s'.tsRemain = s.tsRemain) (hfrom : s'.fromWhere = s.fromWhere) : At c s' bytes :=
  ⟨hremain.trans h.tsRemain, hfrom ▸ h.slice, h.small⟩

theorem uleHeader_whole {more : List UInt8} (halloc : ∀ n, (c.alloc n).isSome)
    (hclear : Clear s.priv) (hat : At c s (u.header ++ more)) :
    ∃ s' skb, uleHeader c s = .ok s' ∧ At c s' more ∧ Filling u 0 skb s'.priv ∧ SameCell s s' ∧
      SameLink s.priv s'.priv := by
  rw [u.header_eq,append_assoc] at hat
  obtain ⟨s₁,hlength,hat₁,hcell₁,hpriv₁⟩ := uleLength_eq hclear hat
  obtain ⟨s₂,htype,hat₂,hcell₂,hpriv₂⟩ := uleType_eq hat₁ (by rw [hpriv₁]; exact hclear.uleSnduType1)
  have hdesc : Describes s₂.priv u := by
    rw [hpriv₂,hpriv₁]
    exact ⟨rfl,rfl,hclear.uleBridged⟩
  obtain ⟨s₃,skb,hskb,hfilling,hcell₃,hlink₃,hremain,hfrom⟩ :=
    uleAlloc_eq halloc hdesc (by rw [hpriv₂])
  refine ⟨s₃,skb,?_,hat₂.of_eq hremain hfrom,hfilling,(hcell₁.trans hcell₂).trans hcell₃,?_⟩
  · simp only [uleHeader,hclear.uleSkb,isNone_none,if_true,hlength,htype,hskb,Pass.andThen_ok]
  · rw [hpriv₂,hpriv₁] at hlink₃
    exact ⟨hlink₃.needPusi,hlink₃.tscc,hlink₃.stats,hlink₃.rxMode,hlink₃.multiMacs⟩

theorem uleHeader_rest {k : Nat} {more : List UInt8} (halloc : ∀ n, (c.alloc n).isSome)
    (hsplit : HeaderSplit u k s.priv) (hat : At c s (u.header.drop k ++ more)) (hmore : more ≠ []) :
    ∃ s' skb, uleHeader c s = .ok s' ∧ At c s' more ∧ Filling u 0 skb s'.priv ∧ SameCell s s' ∧
      SameLink s.priv s'.priv := by
  have hlength : uleLength c s = .ok s := by
    have hpos := length_pos_iff.mpr hmore
    have hremain := hat.tsRemain
    have hge := u.length_ge
    have hk : k ≤ 3 := by
      have := hsplit.split
      omega
    simp only [length_append,length_drop,u.length_header] at hremain
    rw [uleLength,if_neg (by omega),if_neg (by rw [hsplit.len]; omega)]
  have htype : ∃ s', uleType c s = .ok s' ∧ At c s' more ∧ SameCell s s' ∧
      s'.priv = { s.priv with uleSnduType := u.type } := by
    rcases hsplit.split with ⟨rfl,hfirst⟩ | ⟨rfl,hfirst,htype⟩
    · exact uleType_eq hat hfirst
    · exact uleType_second hat hmore hfirst htype
  obtain ⟨s₂,htype,hat₂,hcell₂,hpriv₂⟩ := htype
  have hdesc : Describes s₂.priv u := by
    rw [hpriv₂]
    exact ⟨hsplit.len,hsplit.dbit,hsplit.bridged⟩
  obtain ⟨s₃,skb,hskb,hfilling,hcell₃,hlink₃,hremain,hfrom⟩ :=
    uleAlloc_eq halloc hdesc (by rw [hpriv₂])
  refine ⟨s₃,skb,?_,hat₂.of_eq hremain hfrom,hfilling,hcell₂.trans hcell₃,?_⟩
  · simp only [uleHeader,hsplit.uleSkb,isNone_none,if_true,hlength,htype,hskb,Pass.andThen_ok]
  · rw [hpriv₂] at hlink₃
    exact ⟨hlink₃.needPusi,hlink₃.tscc,hlink₃.stats,hlink₃.rxMode,hlink₃.multiMacs⟩

theorem uleHeader_cut {k : Nat} (hclear : Clear s.priv) (hk : k = 2 ∨ k = 3) (hat : At c s (u.header.take k)) :
    ∃ s', uleHeader c s = .error (.again s') ∧ HeaderSplit u k s'.priv ∧ s'.ts = s.ts + tsSz ∧
      s'.newTs = true ∧ s'.rx = s.rx ∧ SameLink s.priv s'.priv := by
  have hsplit : u.header.take k = htons u.lengthField ++ (htons u.type).take (k - 2) := by
    rcases hk with rfl | rfl <;> rfl
  rw [hsplit] at hat
  obtain ⟨s₁,hlength,hat₁,hcell₁,hpriv₁⟩ := uleLength_eq hclear hat
  have hdesc : Describes s₁.priv u := by
    rw [hpriv₁]
    exact ⟨rfl,rfl,hclear.uleBridged⟩
  have hlink : SameLink s.priv s₁.priv := by
    rw [hpriv₁]
    exact ⟨rfl,rfl,rfl,rfl,rfl⟩
  rcases hk with rfl | rfl
  · have hremain : s₁.tsRemain = 0 := hat₁.tsRemain
    refine ⟨{ s₁ with newTs := true }.nextCell,?_,?_,by rw [← hcell₁.ts]; rfl,rfl,hcell₁.rx,hlink⟩
    · simp only [uleHeader,hclear.uleSkb,isNone_none,if_true,hlength,Pass.andThen_ok,
        uleType,hremain,Pass.andThen_error]
    · refine { hdesc with
        uleSkb := ?_
        uleSnduRemain := ?_
        split := .inl ⟨rfl,?_⟩ }
      all_goals simp only [UleLoop.nextCell,hpriv₁]
      · exact hclear.uleSkb
      · exact hclear.uleSnduRemain
      · exact hclear.uleSnduType1
  · have hremain : s₁.tsRemain = 1 := hat₁.tsRemain
    have hbyte : (c.buf s₁.fromWhere).toNat = u.type / 256 := by
      have hslice : c.buf.slice s₁.fromWhere 1 = [UInt8.ofNat (u.type / 256)] := hat₁.slice
      simp only [Mem.slice,List.cons.injEq,and_true] at hslice
      have := u.type_lt
      rw [hslice,UInt8.toNat_ofNat',Nat.mod_eq_of_lt (by omega)]
    let type := (c.buf s₁.fromWhere).toNat * 256
    let priv := { s₁.priv with uleSnduType := type, uleSnduType1 := true }
    refine ⟨{ (s₁.reads s₁.fromWhere 1).consume 1 with priv := priv, newTs := true }.nextCell,?_,?_,
      by rw [← hcell₁.ts]; rfl,rfl,hcell₁.rx,?_⟩
    · simp only [uleHeader,hclear.uleSkb,isNone_none,if_true,hlength,Pass.andThen_ok,uleType,hremain]
      rfl
    · refine { hdesc with
        uleSkb := ?_
        uleSnduRemain := ?_
        split := .inr ⟨rfl,rfl,?_⟩ }
      · simp only [UleLoop.nextCell,priv,hpriv₁]
        exact hclear.uleSkb
      · simp only [UleLoop.nextCell,priv,hpriv₁]
        exact hclear.uleSnduRemain
      · simp only [UleLoop.nextCell,priv,type,hbyte]
    · exact ⟨hlink.needPusi,hlink.tscc,hlink.stats,hlink.rxMode,hlink.multiMacs⟩

theorem uleCopy_eq {skb : SkBuff} {xs more : List UInt8} (hskb : s.priv.uleSkb = some skb)
    (hat : At c s (xs ++ more)) (hmin : min s.priv.uleSnduRemain s.tsRemain = xs.length) :
    At c (uleCopy c s) more ∧ SameCell s (uleCopy c s) ∧
      (uleCopy c s).priv = { s.priv with
        uleSkb := some (skb.put xs), uleSnduRemain := s.priv.uleSnduRemain - xs.length } := by
  have hcopy : uleCopy c s = UleLoop.consume { s with
      priv := { s.priv with
        uleSkb := some (skb.put xs), uleSnduRemain := s.priv.uleSnduRemain - xs.length }
      ops := s.ops ++ [.read s.ts s.fromWhere xs.length,
        .snduRemainSub s.priv.uleSnduRemain xs.length] } xs.length := by
    simp only [uleCopy,hmin,hskb,map_some,hat.slice_left]
  rw [hcopy]
  exact ⟨hat.consume _ rfl rfl,⟨rfl,rfl,rfl⟩,rfl⟩

theorem uleCopy_part {fuel j : Nat} {skb : SkBuff} {bytes : List UInt8}
    (hfilling : Filling u j skb s.priv) (hat : At c s bytes)
    (hbytes : bytes = (u.rest.drop j).take bytes.length) (hlt : j + bytes.length < u.length) :
    ∃ s' skb', Pass.flow ((uleFinish fuel dev (uleCopy c s)).andThen fun s => .ok (uleNext c s)) =
        .again s' ∧ Filling u (j + bytes.length) skb' s'.priv ∧ s'.ts = s.ts + tsSz ∧
      s'.newTs = true ∧ s'.rx = s.rx ∧ SameLink s.priv s'.priv := by
  have hremain := hfilling.uleSnduRemain
  obtain ⟨hat',hcell,hpriv⟩ := @uleCopy_eq c s skb bytes [] hfilling.uleSkb
    (by rwa [append_nil]) (by rw [hat.tsRemain]; omega)
  have hskb' : (uleCopy c s).priv.uleSkb = some (skb.put bytes) := by rw [hpriv]
  have hremain' : (uleCopy c s).priv.uleSnduRemain ≠ 0 := by
    rw [hpriv]
    simp only
    omega
  have hfinish : uleFinish fuel dev (uleCopy c s) = .ok (uleCopy c s) := by
    simp only [uleFinish,hskb',if_neg hremain']
  have hzero : (uleCopy c s).tsRemain = 0 := hat'.tsRemain
  refine ⟨{ uleCopy c s with newTs := true }.nextCell,skb.put bytes,?_,?_,?_,rfl,hcell.rx,?_⟩
  · rw [hfinish,Pass.andThen_ok,Pass.flow_ok,uleNext]
    simp only [hzero,hskb',UleLoop.readsIf]
    simp
  · change Filling u (j + bytes.length) (skb.put bytes) (uleCopy c s).priv
    rw [hpriv]
    refine { hfilling with uleSkb := rfl, contents := ?_, uleSnduRemain := ?_ }
    · rw [SkBuff.contents_put,hfilling.contents,take_add,← hbytes]
    · simp only
      omega
  · change (uleCopy c s).ts + tsSz = s.ts + tsSz
    rw [hcell.ts]
  · change SameLink s.priv (uleCopy c s).priv
    rw [hpriv]
    exact ⟨rfl,rfl,rfl,rfl,rfl⟩

theorem uleCopy_whole {j : Nat} {skb : SkBuff} {more : List UInt8}
    (hfilling : Filling u j skb s.priv) (hat : At c s (u.rest.drop j ++ more))
    (hread : u.addressed dev s.priv = true → u.Readable) :
    ∃ s', uleFinish (u.headers.length + 1) dev (uleCopy c s) = .ok s' ∧ At c s' more ∧ Clear s'.priv ∧
      s'.ts = s.ts ∧ Received dev [u] s s' ∧ s'.priv.needPusi = s.priv.needPusi ∧
      s'.priv.tscc = s.priv.tscc := by
  have hremain := hfilling.uleSnduRemain
  have hlen : (u.rest.drop j).length = u.length - j := by rw [length_drop,u.length_rest]
  have htotal := hat.tsRemain
  rw [length_append] at htotal
  obtain ⟨hat',hcell,hpriv⟩ := uleCopy_eq hfilling.uleSkb hat (by omega)
  have hskb' : (uleCopy c s).priv.uleSkb = some (skb.put (u.rest.drop j)) := by rw [hpriv]
  have hzero : (uleCopy c s).priv.uleSnduRemain = 0 := by
    rw [hpriv]
    simp only
    omega
  have hcontents : (skb.put (u.rest.drop j)).contents = u.rest := by
    rw [SkBuff.contents_put,hfilling.contents,take_append_drop]
  have hdesc : Describes (uleCopy c s).priv u := by
    rw [hpriv]
    exact ⟨hfilling.len,hfilling.dbit,hfilling.bridged⟩
  have hmode : (uleCopy c s).priv.rxMode = s.priv.rxMode := by rw [hpriv]
  have hmacs : (uleCopy c s).priv.multiMacs = s.priv.multiMacs := by rw [hpriv]
  obtain ⟨r,hcomplete,hrx,herrors⟩ := @uleComplete_eq dev _ u _ hdesc
    (by rw [hpriv]; exact hfilling.uleSnduType) hcontents hfilling.headroom
    (by rw [addressed_congr hmode hmacs]; exact hread)
  have hreset := resetUle_complete hcomplete
  have hlink : resetUle r.1 = resetUle { s.priv with stats := r.1.stats } := by
    rw [hreset,hpriv]
    rfl
  let shown := !uleCrcOk (uleCopy c s).priv (skb.put (u.rest.drop j)) && (uleCopy c s).tsRemain > 2
  refine ⟨{ (uleCopy c s).readsIf shown (uleCopy c s).fromWhere 2 with
    priv := resetUle r.1, rx := (uleCopy c s).rx ++ r.2 },?_,hat'.of_eq rfl rfl,
    ⟨rfl,rfl,rfl,rfl,rfl⟩,hcell.ts,?_,?_,?_⟩
  · simp only [uleFinish,hskb',if_pos hzero,hcomplete]
    rfl
  · constructor
    case rx =>
      rw [hrx,hcell.rx,passed_congr hmode hmacs]
      cases hto : u.passed dev s.priv <;> simp [hto]
    case errors =>
      rw [hpriv] at herrors
      exact herrors
    case rxMode => rw [hlink]; rfl
    case multiMacs => rw [hlink]; rfl
  · rw [hlink]
    rfl
  · rw [hlink]
    rfl

theorem uleNext_more {more : List UInt8} (hclear : Clear s.priv) (hat : At c s (htons u.lengthField ++ more)) :
    (uleNext c s).newTs = false ∧ (uleNext c s).ts = s.ts ∧ (uleNext c s).rx = s.rx ∧
      At c (uleNext c s) (htons u.lengthField ++ more) ∧ Clear (uleNext c s).priv ∧
      SameLink s.priv (uleNext c s).priv := by
  have hremain : s.tsRemain ≥ 2 := by
    have := hat.tsRemain
    simp at this
    omega
  have hfield : ntohs c.buf s.fromWhere = u.lengthField :=
    ntohs_of_slice u.lengthField_lt hat.slice_left
  have hnext : s.tsRemain ≥ 2 ∧ ntohs c.buf s.fromWhere ≠ 0xffff :=
    ⟨hremain,by rw [hfield]; exact u.lengthField_ne⟩
  unfold uleNext
  rw [if_pos hnext]
  exact ⟨rfl,rfl,rfl,hat.of_eq rfl rfl,
    ⟨rfl,rfl,rfl,hclear.uleSnduRemain,hclear.uleBridged⟩,⟨rfl,rfl,rfl,rfl,rfl⟩⟩

theorem uleNext_padding {n : Nat} (hclear : Clear s.priv) (hat : At c s (List.replicate n 0xff)) :
    (uleNext c s).newTs = true ∧ (uleNext c s).ts = s.ts + tsSz ∧ Clear (uleNext c s).priv ∧
      (uleNext c s).priv.needPusi = true ∧ Received dev [] s (uleNext c s) := by
  have hnext : ¬ (s.tsRemain ≥ 2 ∧ ntohs c.buf s.fromWhere ≠ 0xffff) := by
    rintro ⟨hremain,hfield⟩
    have hn : s.tsRemain = n := by simpa using hat.tsRemain
    apply hfield
    apply ntohs_of_slice (by decide)
    have hslice := hat.slice
    rw [length_replicate] at hslice
    rw [← Mem.take_slice _ _ n 2 (by omega),hslice,List.take_replicate,Nat.min_eq_left (by omega)]
    rfl
  unfold uleNext
  simp only [if_neg hnext,hclear.uleSkb,isNone_none,if_true]
  exact ⟨rfl,rfl,⟨rfl,rfl,rfl,hclear.uleSnduRemain,hclear.uleBridged⟩,rfl,
    ⟨by simp [UleLoop.nextCell,UleLoop.readsIf],.refl _,rfl,rfl⟩⟩

end Parts

end LinuxDvb.Net
