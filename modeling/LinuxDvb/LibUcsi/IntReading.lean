import LinuxDvb.LibUcsi.IntSection

/-!
# Reading the loops of an IP/MAC notification table

From any byte on, the loops of the codec stay in front of the CRC and let no difference wrap exactly if what stands there
can be read: as complete pairs of loops up to the end, as far as a loop that one of the checks refuses, or up to an
operational loop whose last descriptor goes past the end.
-/

namespace LinuxDvb.Ucsi

open InPlace

/-- One of the checks refuses the loop: it has more bytes than there are from its word on, or not those of descriptors. -/
def LoopRefused (todo : List UInt8) : Prop :=
  ∃ (w : UInt16) (more : List UInt8), todo = be16 w.toNat ++ more ∧ (more.length + 2 < w.toNat % intLengthModulus ∨
    ∃ status, verifyDescriptors more 0 (w.toNat % intLengthModulus) = some status ∧ status ≠ 0)

def LoopOverruns (todo host : List UInt8) : Prop :=
  ∃ (w : UInt16) (more : List UInt8), todo = be16 w.toNat ++ more ∧ host = le16 w.toNat ++ more ∧
    more.length < w.toNat % intLengthModulus ∧ w.toNat % intLengthModulus ≤ more.length + 2 ∧
    verifyDescriptors more 0 (w.toNat % intLengthModulus) = some 0

/-- A reading of pairs of loops: `none` if a check refuses one of them, and else the bytes as they are decoded. -/
inductive IntReading : List UInt8 → Option (List UInt8) → Prop where
  | done : IntReading [] (some [])
  | target {xs : List UInt8} : LoopRefused xs → IntReading xs none
  | operational (l : LengthLoop intLengthModulus) {xs : List UInt8} :
      LoopRefused xs → IntReading (l.bytes .transmission ++ xs) none
  | overrun (l : LengthLoop intLengthModulus) {xs host : List UInt8} :
      LoopOverruns xs host → IntReading (l.bytes .transmission ++ xs) (some (l.bytes .host ++ host))
  | pair (t : IntTarget) {xs : List UInt8} {r : Option (List UInt8)} :
      IntReading xs r → IntReading (t.bytes .transmission ++ xs) (r.map (t.bytes .host ++ ·))

/-- What the codec has in front of the bytes it starts with: the platform, the length of its descriptors, and three bytes
that it leaves out. -/
structure IntFront where
  platformId : Field 4
  platformLength : UInt16
  leftOut : Field 3

def IntFront.bytes (order : ByteOrder) (front : IntFront) : List UInt8 :=
  order.field front.platformId.val ++ (order.word front.platformLength.toNat ++ front.leftOut.val)

def IntFront.size (front : IntFront) : Nat := front.platformLength.toNat % intLengthModulus

/-- A reading of what is between the header and the CRC, with the platform descriptors three bytes further on than they
are: `none` if a check refuses them or one of the loops, and else the bytes as they are decoded. -/
inductive IntReadingFurtherOn : List UInt8 → Option (List UInt8) → Prop where
  | room (front : IntFront) {xs : List UInt8} :
      xs.length < front.size → IntReadingFurtherOn (front.bytes .transmission ++ xs) none
  | platform (front : IntFront) {xs : List UInt8} {status : Int} : front.size ≤ xs.length →
      verifyDescriptors xs 0 front.size = some status → status ≠ 0 →
      IntReadingFurtherOn (front.bytes .transmission ++ xs) none
  | targets (front : IntFront) (ds : List Descriptor) {xs : List UInt8} {r : Option (List UInt8)} :
      (descriptorLoop ds).length = front.size → IntReading xs r →
      IntReadingFurtherOn (front.bytes .transmission ++ (descriptorLoop ds ++ xs))
        (r.map fun host => front.bytes .host ++ (descriptorLoop ds ++ host))

section Loops

variable {len : Nat} {left : List UInt8}

theorem verifyDescriptorsFrom_behind (pre buf : List UInt8) (size pos : Nat) :
    verifyDescriptorsFrom (pre ++ buf) pre.length size pos = verifyDescriptorsFrom buf 0 size pos := by
  fun_induction verifyDescriptorsFrom buf 0 size pos with
  | case1 pos hpos hshort => rw [verifyDescriptorsFrom,if_pos hpos,if_pos hshort]
  | case2 pos hpos hroom hnone =>
    rw [verifyDescriptorsFrom,if_pos hpos,if_neg hroom,Nat.add_assoc,getElem?_behind,← Nat.zero_add pos,
      Nat.add_assoc,← Nat.add_assoc 0,hnone]
  | case3 pos hpos hroom bytes hbytes ih =>
    rw [verifyDescriptorsFrom,if_pos hpos,if_neg hroom,Nat.add_assoc,getElem?_behind,← Nat.zero_add (pos + 1),
      ← Nat.add_assoc 0,hbytes]
    exact ih
  | case4 pos hpos hend => rw [verifyDescriptorsFrom,if_neg hpos,if_pos hend]
  | case5 pos hpos hend => rw [verifyDescriptorsFrom,if_neg hpos,if_neg hend]

theorem run_checks {α : Type} (c : Prop) [Decidable c] (f : List UInt8 → Option Int) (q : InPlace α) (buf : List UInt8) :
    (do
      refuseIf c
      let status ← look f
      refuseIf (status ≠ 0)
      q) buf =
    if c then some (none, buf) else (f buf).bind fun status => if status ≠ 0 then some (none, buf) else q buf := by
  by_cases hc : c
  · rw [bind_refuseIf_of hc,if_pos hc]
  · rw [bind_refuseIf_of_not hc,if_neg hc,bind_eq,look]
    cases f buf with
    | none => rfl
    | some status =>
      change (refuseIf (status ≠ 0) >>= fun _ => q) buf = if status ≠ 0 then _ else _
      by_cases hzero : status = 0
      · rw [bind_refuseIf_of_not (not_not_intro hzero),if_neg (not_not_intro hzero)]
      · rw [bind_refuseIf_of hzero,if_pos hzero]

theorem intLoop_eq (w : UInt16) (more : List UInt8) (hlen : left.length + (2 + more.length) = len) :
    intLoop exactSub len left.length (left ++ (be16 w.toNat ++ more)) =
      if more.length + 2 < w.toNat % intLengthModulus then some (none, left ++ (le16 w.toNat ++ more))
      else (verifyDescriptors more 0 (w.toNat % intLengthModulus)).bind fun status =>
        if status ≠ 0 then some (none, left ++ (le16 w.toNat ++ more))
        else some (some (left.length + 2 + w.toNat % intLengthModulus), left ++ (le16 w.toNat ++ more)) := by
  have hsize : lengthBits intLengthModulus (left ++ (le16 w.toNat ++ more)) left.length =
      some (w.toNat % intLengthModulus) := by
    rw [lengthBits,← Nat.add_zero left.length,word16_behind,word16_le16 w.toNat_lt]
    rfl
  have hroom : exactSub len left.length = some (more.length + 2) := by
    rw [exactSub,if_pos (by omega)]
    exact congrArg some (by omega)
  have hverify : verifyDescriptors (left ++ (le16 w.toNat ++ more)) (left.length + sizeofIntLoop)
      (w.toNat % intLengthModulus) = verifyDescriptors more 0 (w.toNat % intLengthModulus) := by
    have hbehind := verifyDescriptorsFrom_behind (left ++ le16 w.toNat) more (w.toNat % intLengthModulus) 0
    rwa [length_append,append_assoc] at hbehind
  rw [intLoop,bind_change (bswap16_be16 left w.toNat more),bind_look hsize,bind_look hroom,run_checks,hverify]
  rfl

theorem intLoop_short {sub : Nat → Nat → Option Nat} {buf : List UInt8} {pos : Nat} (h : buf.length ≤ pos + 1) :
    intLoop sub len pos buf = none := by
  have hswap : bswap16 buf pos = none := by
    cases hnone : bswap16 buf pos with
    | none => rfl
    | some buf' => exact absurd (lt_of_bswap16 hnone) (Nat.not_lt_of_le h)
  rw [intLoop,bind_eq,change,hswap]
  rfl

theorem verifyDescriptors_loop (ds : List Descriptor) (rest : List UInt8) :
    verifyDescriptors (descriptorLoop ds ++ rest) 0 (descriptorLoop ds).length = some 0 := by
  obtain ⟨status,hstatus,hverified⟩ := verifyDescriptors_spec [] (descriptorLoop ds) rest
  rw [hverified.mpr ⟨ds,rfl⟩] at hstatus
  exact hstatus

theorem loop_or_refused {xs : List UInt8} {size : Nat} (hroom : size ≤ xs.length) :
    (∃ (ds : List Descriptor) (rest : List UInt8), xs = descriptorLoop ds ++ rest ∧ (descriptorLoop ds).length = size) ∨
      ∃ status, verifyDescriptors xs 0 size = some status ∧ status ≠ 0 := by
  have htake : (xs.take size).length = size := by rw [length_take,Nat.min_eq_left hroom]
  obtain ⟨status,hstatus,hverified⟩ := verifyDescriptors_spec [] (xs.take size) (xs.drop size)
  rw [take_append_drop,htake] at hstatus
  by_cases hzero : status = 0
  · obtain ⟨ds,hds⟩ := hverified.mp hzero
    exact .inl ⟨ds,xs.drop size,by rw [← hds,take_append_drop],by rw [← hds,htake]⟩
  · exact .inr ⟨status,hstatus,hzero⟩

theorem intLoop_complete (l : LengthLoop intLengthModulus) (rest : List UInt8)
    (hlen : left.length + (l.bytes .transmission ++ rest).length = len) :
    intLoop exactSub len left.length (left ++ (l.bytes .transmission ++ rest)) =
      some (some (left ++ l.bytes .host).length, (left ++ l.bytes .host) ++ rest) := by
  rw [length_append,l.length_bytes] at hlen
  have hbytes : ∀ order, l.bytes order ++ rest = order.word l.word.toNat ++ (descriptorLoop l.descriptors ++ rest) :=
    fun _ => append_assoc _ _ _
  have hmore : (descriptorLoop l.descriptors ++ rest).length = (descriptorLoop l.descriptors).length + rest.length :=
    length_append
  have hverify := verifyDescriptors_loop l.descriptors rest
  rw [hbytes]
  change intLoop exactSub len left.length (left ++ (be16 l.word.toNat ++ _)) = _
  rw [intLoop_eq l.word _ (by omega),← l.length_eq,if_neg (by omega),hverify,bind_some,
    if_neg (not_not_intro rfl),append_assoc,hbytes,length_append,l.length_bytes,Nat.add_assoc]
  rfl

theorem intLoop_refused {todo : List UInt8} (h : LoopRefused todo) (hlen : left.length + todo.length = len) :
    ∃ buf, intLoop exactSub len left.length (left ++ todo) = some (none, buf) := by
  obtain ⟨w,more,rfl,hrefused⟩ := h
  rw [length_append,length_be16] at hlen
  rw [intLoop_eq w more hlen]
  split
  · exact ⟨_,rfl⟩
  · rename_i hfits
    obtain hlong | ⟨status,hstatus,hwrong⟩ := hrefused
    · exact absurd hlong hfits
    · rw [hstatus,bind_some,if_pos hwrong]
      exact ⟨_,rfl⟩

theorem intLoop_overrun {todo host : List UInt8} (h : LoopOverruns todo host) (hlen : left.length + todo.length = len) :
    ∃ pos, len < pos ∧ host.length = todo.length ∧
      intLoop exactSub len left.length (left ++ todo) = some (some pos, left ++ host) := by
  obtain ⟨w,more,rfl,rfl,hmore,hsize,hverify⟩ := h
  rw [length_append,length_be16] at hlen
  refine ⟨left.length + 2 + w.toNat % intLengthModulus,by omega,rfl,?_⟩
  rw [intLoop_eq w more hlen,if_neg (by omega),hverify,bind_some,if_neg (not_not_intro rfl)]

theorem intLoop_cases (todo : List UInt8) (hlen : left.length + todo.length = len) :
    (∃ (l : LengthLoop intLengthModulus) (rest : List UInt8), todo = l.bytes .transmission ++ rest) ∨
      LoopRefused todo ∨ (∃ host, LoopOverruns todo host) ∨
      intLoop exactSub len left.length (left ++ todo) = none := by
  match todo with
  | [] | [_] =>
    refine .inr (.inr (.inr (intLoop_short ?_)))
    rw [length_append]
    simp
  | high :: low :: more =>
    obtain ⟨w,hw⟩ := exists_uint16 high low
    have htodo : high :: low :: more = be16 w.toNat ++ more := congrArg (· ++ more) hw
    rw [htodo] at hlen ⊢
    rw [length_append,length_be16] at hlen
    by_cases hlong : more.length + 2 < w.toNat % intLengthModulus
    · exact .inr (.inl ⟨w,more,rfl,.inl hlong⟩)
    · cases hverify : verifyDescriptors more 0 (w.toNat % intLengthModulus) with
      | none =>
        refine .inr (.inr (.inr ?_))
        rw [intLoop_eq w more hlen,if_neg hlong,hverify]
        rfl
      | some status =>
        by_cases hzero : status = 0
        · subst hzero
          by_cases hover : more.length < w.toNat % intLengthModulus
          · exact .inr (.inr (.inl ⟨_,w,more,rfl,rfl,hover,by omega,hverify⟩))
          · -- the descriptors end inside, so that they are those of a loop
            obtain ⟨ds,rest,rfl,hds⟩ | ⟨status,hstatus,hwrong⟩ := loop_or_refused (Nat.le_of_not_lt hover)
            · exact .inl ⟨⟨w,ds,hds⟩,rest,(append_assoc _ _ _).symm⟩
            · exact absurd (some_inj.mp (hstatus.symm.trans hverify)) hwrong
        · exact .inr (.inl ⟨w,more,rfl,.inr ⟨status,hverify,hzero⟩⟩)

theorem length_behind {l : LengthLoop intLengthModulus} {rest : List UInt8}
    (hlen : left.length + (l.bytes .transmission ++ rest).length = len) :
    (left ++ l.bytes .host).length + rest.length = len := by
  rw [length_append,l.length_bytes] at hlen
  rw [length_append,l.length_bytes]
  omega

theorem intTargets_pass {fuel pos : Nat} (hpos : pos < len) :
    intTargets exactSub len (fuel + 1) pos = intLoop exactSub len pos >>= fun pos => intLoop exactSub len pos >>=
      intTargets exactSub len fuel := by
  rw [intTargets,if_pos hpos]

theorem intTargets_end {fuel pos : Nat} (hpos : len ≤ pos) : intTargets exactSub len (fuel + 1) pos = pure () := by
  rw [intTargets,if_neg (Nat.not_lt_of_le hpos)]

theorem lt_of_refused {todo : List UInt8} (h : LoopRefused todo) (hlen : left.length + todo.length = len) :
    left.length < len := by
  obtain ⟨w,more,rfl,-⟩ := h
  rw [length_append,length_be16] at hlen
  omega

theorem lt_of_loop {l : LengthLoop intLengthModulus} {rest : List UInt8}
    (hlen : left.length + (l.bytes .transmission ++ rest).length = len) : left.length < len := by
  rw [length_append,l.length_bytes] at hlen
  omega

theorem intTargets_of_reading {todo : List UInt8} {r : Option (List UInt8)} (h : IntReading todo r) {fuel : Nat}
    (hfuel : todo.length ≤ fuel) (hlen : left.length + todo.length = len) :
    ∃ buf, intTargets exactSub len (fuel + 1) left.length (left ++ todo) = some (r.map fun _ => (), buf) ∧
      ∀ host, r = some host → buf = left ++ host := by
  induction h generalizing left fuel with
  | done =>
    have hend : len ≤ left.length := Nat.le_of_eq hlen.symm
    refine ⟨left ++ [],?_,?_⟩
    · rw [intTargets_end hend]
      rfl
    · rintro host ⟨⟩
      rfl
  | target hrefused =>
    obtain ⟨buf,hrun⟩ := intLoop_refused hrefused hlen
    refine ⟨buf,?_,by rintro host ⟨⟩⟩
    rw [intTargets_pass (lt_of_refused hrefused hlen),bind_of_refused hrun]
    rfl
  | operational l hrefused =>
    obtain ⟨buf,hrun⟩ := intLoop_refused hrefused (length_behind hlen)
    refine ⟨buf,?_,by rintro host ⟨⟩⟩
    rw [intTargets_pass (lt_of_loop hlen),bind_of_some (intLoop_complete l _ hlen),bind_of_refused hrun]
    rfl
  | overrun l hoverruns =>
    rename_i xs host
    have hbehind := length_behind hlen
    obtain ⟨pos,hpos,hhost,hrun⟩ := intLoop_overrun hoverruns hbehind
    obtain ⟨w,more,rfl,-⟩ := id hoverruns
    rw [length_append,length_append,length_be16] at hfuel
    obtain ⟨fuel,rfl⟩ : ∃ k, fuel = k + 1 := ⟨fuel - 1,by omega⟩
    refine ⟨(left ++ l.bytes .host) ++ host,?_,?_⟩
    · rw [intTargets_pass (lt_of_loop hlen),bind_of_some (intLoop_complete l _ hlen),bind_of_some hrun,
        intTargets_end (Nat.le_of_lt hpos)]
      rfl
    · rintro _ ⟨⟩
      exact append_assoc _ _ _
  | pair t hrest ih =>
    rename_i xs r
    have hbytes : ∀ order, t.bytes order ++ xs = t.target.bytes order ++ (t.operational.bytes order ++ xs) :=
      fun _ => append_assoc _ _ _
    rw [hbytes] at hlen hfuel ⊢
    have hbehind := length_behind hlen
    rw [length_append,length_append,t.target.length_bytes,t.operational.length_bytes] at hfuel
    obtain ⟨fuel,rfl⟩ : ∃ k, fuel = k + 1 := ⟨fuel - 1,by omega⟩
    obtain ⟨buf,hrun,hbuf⟩ := @ih ((left ++ t.target.bytes .host) ++ t.operational.bytes .host) fuel
      (by omega) (length_behind hbehind)
    refine ⟨buf,?_,?_⟩
    · rw [intTargets_pass (lt_of_loop hlen),bind_of_some (intLoop_complete t.target _ hlen),
        bind_of_some (intLoop_complete t.operational _ hbehind),hrun,Option.map_map]
    · intro host hhost
      obtain ⟨host',hhost',rfl⟩ := map_eq_some_iff.mp hhost
      rw [hbuf host' hhost',IntTarget.bytes]
      simp only [append_assoc]

theorem exists_reading {fuel : Nat} {todo : List UInt8} (hlen : left.length + todo.length = len)
    (hrun : intTargets exactSub len fuel left.length (left ++ todo) ≠ none) : ∃ r, IntReading todo r := by
  induction fuel generalizing left todo with
  | zero => exact absurd rfl hrun
  | succ fuel ih =>
    by_cases hpos : left.length < len
    · rw [intTargets_pass hpos] at hrun
      obtain ⟨l,rest,rfl⟩ | hrefused | ⟨host,hoverruns⟩ | hnone := intLoop_cases todo hlen
      · have hbehind := length_behind hlen
        rw [bind_of_some (intLoop_complete l rest hlen)] at hrun
        obtain ⟨o,rest,rfl⟩ | hrefused | ⟨host,hoverruns⟩ | hnone := intLoop_cases rest hbehind
        · rw [bind_of_some (intLoop_complete o rest hbehind)] at hrun
          obtain ⟨r,hr⟩ := ih (length_behind hbehind) hrun
          have hpair := IntReading.pair ⟨l,o⟩ hr
          rw [IntTarget.bytes,append_assoc] at hpair
          exact ⟨_,hpair⟩
        · exact ⟨_,.operational l hrefused⟩
        · exact ⟨_,.overrun l hoverruns⟩
        · rw [bind_eq,hnone] at hrun
          exact absurd rfl hrun
      · exact ⟨_,.target hrefused⟩
      · -- behind a target loop that goes past the end there is no operational loop
        obtain ⟨pos,hpast,hhost,hfirst⟩ := intLoop_overrun hoverruns hlen
        have hshort : (left ++ host).length ≤ pos + 1 := by
          rw [length_append,hhost]
          omega
        rw [bind_of_some hfirst,bind_eq,intLoop_short hshort] at hrun
        exact absurd rfl hrun
      · rw [bind_eq,hnone] at hrun
        exact absurd rfl hrun
    · have hnil : todo = [] := eq_nil_of_length_eq_zero (by omega)
      rw [hnil]
      exact ⟨_,IntReading.done⟩

end Loops

section Sections

variable {header : List UInt8}

theorem IntFront.length_bytes (order : ByteOrder) (front : IntFront) : (front.bytes order).length = 9 := by
  rw [IntFront.bytes,length_append,length_append,length_fieldBytes,ByteOrder.length_word,
    front.leftOut.property]

theorem dvbIntSectionCodec_start (hheader : header.length = 8) (id : Field 4) (w : UInt16) (more : List UInt8) {len : Nat}
    (hlen : sectionExtLength (header ++ (id.val ++ (be16 w.toNat ++ more))) = some len) (hroom : sizeofIntSection ≤ len) :
    dvbIntSectionCodecWith exactSub (header ++ (id.val ++ (be16 w.toNat ++ more))) =
      (do
        let room ← look fun _ => exactSub len (8 + 9)
        refuseIf (room < w.toNat % intLengthModulus)
        let status ← look (verifyDescriptors · (8 + 9) (w.toNat % intLengthModulus))
        refuseIf (status ≠ 0)
        intTargets exactSub len (len + 1) (8 + 9 + w.toNat % intLengthModulus) : InPlace Unit)
      ((header ++ id.val.reverse) ++ (le16 w.toNat ++ more)) := by
  have htwelve : (header ++ id.val.reverse).length = 12 := by
    rw [length_append,length_reverse,hheader,id.property]
  have hid : bswap32 (header ++ (id.val ++ (be16 w.toNat ++ more))) 8 =
      some ((header ++ id.val.reverse) ++ (be16 w.toNat ++ more)) := by
    rw [append_assoc]
    exact swapBytes_field hheader id _
  have hword := bswap16_be16 (header ++ id.val.reverse) w.toNat more
  have hsize : lengthBits intLengthModulus ((header ++ id.val.reverse) ++ (le16 w.toNat ++ more)) 12 =
      some (w.toNat % intLengthModulus) := by
    rw [lengthBits,← htwelve,← Nat.add_zero (List.length _),word16_behind,word16_le16 w.toNat_lt]
    rfl
  rw [htwelve] at hword
  rw [dvbIntSectionCodecWith,bind_look hlen,bind_refuseIf_of_not (Nat.not_lt_of_le hroom),bind_change hid,
    bind_change hword,bind_look hsize]

theorem dvbIntSectionCodec_front (hheader : header.length = 8) (front : IntFront) (xs : List UInt8)
    (hlen : sectionExtLength (header ++ (front.bytes .transmission ++ xs)) = some (17 + xs.length)) :
    dvbIntSectionCodecWith exactSub (header ++ (front.bytes .transmission ++ xs)) =
      if xs.length < front.size then some (none, header ++ (front.bytes .host ++ xs))
      else (verifyDescriptors xs 0 front.size).bind fun status =>
        if status ≠ 0 then some (none, header ++ (front.bytes .host ++ xs))
        else intTargets exactSub (17 + xs.length) (17 + xs.length + 1) (17 + front.size)
          (header ++ (front.bytes .host ++ xs)) := by
  obtain ⟨id,w,leftOut⟩ := front
  have htransmission : header ++ (IntFront.bytes .transmission ⟨id,w,leftOut⟩ ++ xs) =
      header ++ (id.val ++ (be16 w.toNat ++ (leftOut.val ++ xs))) := by
    simp only [IntFront.bytes,ByteOrder.field,ByteOrder.word,append_assoc]
  have hhost : header ++ (IntFront.bytes .host ⟨id,w,leftOut⟩ ++ xs) =
      (header ++ id.val.reverse) ++ (le16 w.toNat ++ (leftOut.val ++ xs)) := by
    simp only [IntFront.bytes,ByteOrder.field,ByteOrder.word,append_assoc]
  have hroom : exactSub (17 + xs.length) (8 + 9) = some xs.length := by
    rw [exactSub,if_pos (Nat.le_add_right _ _)]
    exact congrArg some (Nat.add_sub_cancel_left 17 xs.length)
  have hverify : verifyDescriptors ((header ++ id.val.reverse) ++ (le16 w.toNat ++ (leftOut.val ++ xs))) (8 + 9)
      (w.toNat % intLengthModulus) = verifyDescriptors xs 0 (w.toNat % intLengthModulus) := by
    have hseventeen : ((header ++ id.val.reverse) ++ (le16 w.toNat ++ leftOut.val)).length = 8 + 9 := by
      simp only [length_append,length_reverse,hheader,id.property,length_le16,leftOut.property]
    have hbehind := verifyDescriptorsFrom_behind ((header ++ id.val.reverse) ++ (le16 w.toNat ++ leftOut.val)) xs
      (w.toNat % intLengthModulus) 0
    rwa [hseventeen,append_assoc (header ++ _),append_assoc (le16 _)] at hbehind
  rw [htransmission] at hlen ⊢
  rw [hhost,dvbIntSectionCodec_start hheader id w _ hlen (by rw [sizeofIntSection]; omega),bind_look hroom,run_checks,
    hverify]
  rfl

theorem dvbIntSectionCodec_of_reading {payload : List UInt8} {r : Option (List UInt8)} (hheader : header.length = 8)
    (h : IntReadingFurtherOn payload r) (hlen : sectionExtLength (header ++ payload) = some (8 + payload.length)) :
    ∃ buf, dvbIntSectionCodecWith exactSub (header ++ payload) = some (r.map fun _ => (), buf) ∧
      ∀ host, r = some host → buf = header ++ host := by
  have hext : ∀ (front : IntFront) (xs : List UInt8), 8 + (front.bytes .transmission ++ xs).length = 17 + xs.length := by
    intro front xs
    rw [length_append,front.length_bytes]
    omega
  cases h with
  | room front hshort =>
    rename_i xs
    rw [hext] at hlen
    refine ⟨header ++ (front.bytes .host ++ xs),?_,by rintro host ⟨⟩⟩
    rw [dvbIntSectionCodec_front hheader front _ hlen,if_pos hshort]
    rfl
  | platform front hroom hstatus hwrong =>
    rename_i xs status
    rw [hext] at hlen
    refine ⟨header ++ (front.bytes .host ++ xs),?_,by rintro host ⟨⟩⟩
    rw [dvbIntSectionCodec_front hheader front _ hlen,if_neg (Nat.not_lt_of_le hroom),hstatus,bind_some,
      if_pos hwrong]
    rfl
  | targets front ds hsize hreading =>
    rename_i xs r
    rw [hext] at hlen
    have hleft : (header ++ (front.bytes .host ++ descriptorLoop ds)).length = 17 + front.size := by
      rw [length_append,length_append,front.length_bytes,hheader,hsize]
      omega
    have hend : (header ++ (front.bytes .host ++ descriptorLoop ds)).length + xs.length =
        17 + (descriptorLoop ds ++ xs).length := by
      rw [hleft,length_append,hsize]
      omega
    have hfuel : xs.length ≤ 17 + (descriptorLoop ds ++ xs).length := by omega
    obtain ⟨buf,hrun,hbuf⟩ := intTargets_of_reading hreading hfuel hend
    refine ⟨buf,?_,?_⟩
    · have hroom : ¬ (descriptorLoop ds ++ xs).length < front.size := by
        rw [length_append,hsize]
        omega
      have hverify := verifyDescriptors_loop ds xs
      rw [hsize] at hverify
      rw [dvbIntSectionCodec_front hheader front _ hlen,if_neg hroom,hverify,bind_some,
        if_neg (not_not_intro rfl),Option.map_map]
      simp only [hleft,append_assoc] at hrun
      exact hrun
    · intro host hhost
      obtain ⟨host',hhost',rfl⟩ := map_eq_some_iff.mp hhost
      rw [hbuf host' hhost']
      simp only [append_assoc]

theorem exists_readingFurtherOn {payload : List UInt8} (hheader : header.length = 8) (hroom : 6 ≤ payload.length)
    (hlen : sectionExtLength (header ++ payload) = some (8 + payload.length))
    (hrun : dvbIntSectionCodecWith exactSub (header ++ payload) ≠ none) : ∃ r, IntReadingFurtherOn payload r := by
  have hsix : payload.length = 4 + (payload.length - 4) := by omega
  obtain ⟨id,rest,rfl,-⟩ := exists_field 4 (payload.length - 4) hsix
  rw [length_append,id.property] at hroom
  have htwo : rest.length = 2 + (rest.length - 2) := by omega
  obtain ⟨word,more,rfl,-⟩ := exists_field 2 (rest.length - 2) htwo
  obtain ⟨bytes,hword⟩ := word
  obtain ⟨high,low,rfl⟩ := List.length_eq_two.mp hword
  obtain ⟨w,hw⟩ := exists_uint16 high low
  simp only [hw] at hlen hrun ⊢
  have hlength : 8 + (id.val ++ (be16 w.toNat ++ more)).length = 14 + more.length := by
    rw [length_append,length_append,id.property,length_be16]
    omega
  rw [hlength] at hlen
  by_cases hthree : 3 ≤ more.length
  · have hmore : more.length = 3 + (more.length - 3) := by omega
    obtain ⟨leftOut,xs,rfl,-⟩ := exists_field 3 (more.length - 3) hmore
    have hfront : id.val ++ (be16 w.toNat ++ (leftOut.val ++ xs)) = IntFront.bytes .transmission ⟨id,w,leftOut⟩ ++ xs := by
      simp only [IntFront.bytes,ByteOrder.field,ByteOrder.word,append_assoc]
    rw [length_append,leftOut.property,← Nat.add_assoc] at hlen
    rw [hfront] at hlen hrun ⊢
    rw [dvbIntSectionCodec_front hheader _ xs hlen] at hrun
    by_cases hshort : xs.length < IntFront.size ⟨id,w,leftOut⟩
    · exact ⟨_,.room _ hshort⟩
    · have hroom' := Nat.le_of_not_lt hshort
      obtain ⟨ds,ys,rfl,hds⟩ | ⟨status,hstatus,hwrong⟩ := loop_or_refused hroom'
      · have hverify := verifyDescriptors_loop ds ys
        rw [hds] at hverify
        rw [if_neg hshort,hverify,bind_some,if_neg (not_not_intro rfl)] at hrun
        have hleft : (header ++ (IntFront.bytes .host ⟨id,w,leftOut⟩ ++ descriptorLoop ds)).length =
            17 + IntFront.size ⟨id,w,leftOut⟩ := by
          rw [length_append,length_append,IntFront.length_bytes,hheader,hds]
          omega
        have hend : (header ++ (IntFront.bytes .host ⟨id,w,leftOut⟩ ++ descriptorLoop ds)).length + ys.length =
            17 + (descriptorLoop ds ++ ys).length := by
          rw [hleft,length_append,hds]
          omega
        have hbuf : header ++ (IntFront.bytes .host ⟨id,w,leftOut⟩ ++ (descriptorLoop ds ++ ys)) =
            (header ++ (IntFront.bytes .host ⟨id,w,leftOut⟩ ++ descriptorLoop ds)) ++ ys := by
          simp only [append_assoc]
        rw [← hleft,hbuf] at hrun
        obtain ⟨r,hr⟩ := exists_reading hend hrun
        exact ⟨_,.targets _ ds hds hr⟩
      · exact ⟨_,.platform _ hroom' hstatus hwrong⟩
  · -- the difference wraps
    have hwraps : exactSub (14 + more.length) (8 + 9) = none := if_neg (by omega)
    rw [dvbIntSectionCodec_start hheader id w more hlen (by rw [sizeofIntSection]; omega),bind_eq,look,hwraps] at hrun
    exact absurd rfl hrun

end Sections

end LinuxDvb.Ucsi
