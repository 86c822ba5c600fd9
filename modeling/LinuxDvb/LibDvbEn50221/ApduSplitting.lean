import LinuxDvb.LibDvbEn50221.SessionHandshake

/-!
# APDUs of a package

The bytes behind the session number of a package are APDUs, one behind the other. They are taken apart as
long as a well-formed APDU is in front, and each is given to the resource of the session.
-/

namespace LinuxDvb.En50221

inductive LengthField : List UInt8 → Nat → Prop
  | short (b : UInt8) (h : b < 0x80) : LengthField [b] b.toNat
  | oneByte (low : UInt8) : LengthField [0x81, low] low.toNat
  | twoBytes (high low : UInt8) : LengthField [0x82, high, low] (256 * high.toNat + low.toNat)

def WellFormedApdu (apdu : List UInt8) : Prop :=
  ∃ tag field body, apdu = tag ++ (field ++ body) ∧ tag.length = 3 ∧ LengthField field body.length

def StartsWithApdu (data : List UInt8) : Prop :=
  ∃ apdu rest, data = apdu ++ rest ∧ WellFormedApdu apdu

theorem shortLength {b : UInt8} (h : b < 0x80) : (b &&& 0x7f).toNat = b.toNat := by
  have hlt : b.toNat < 128 := UInt8.lt_iff_toNat_lt.mp h
  rw [UInt8.toNat_and,show (0x7f : UInt8).toNat = 2 ^ 7 - 1 from rfl,Nat.and_two_pow_sub_one_eq_mod]
  exact Nat.mod_eq_of_lt hlt

theorem twoByteLength (high low : UInt8) : high.toNat <<< 8 ||| low.toNat = 256 * high.toNat + low.toNat := by
  have hlow : low.toNat < 2 ^ 8 := low.toNat_lt
  rw [Nat.shiftLeft_eq,Nat.mul_comm,← Nat.two_pow_add_eq_or_of_lt hlow]

theorem LengthField.decode {field : List UInt8} {length : Nat} (h : LengthField field length) (rest : List UInt8) :
    asn1Decode (field ++ rest) (field ++ rest).length = some (some (field.length, length)) := by
  cases h with
  | short b hshort =>
    have hlength := shortLength hshort
    simp only [asn1Decode,cons_append,nil_append,length_cons,getElem?_cons_zero,
      bind_eq_bind,bind_some]
    rw [if_neg (by omega),if_pos hshort,hlength]
    rfl
  | oneByte low =>
    simp [asn1Decode]
  | twoBytes high low =>
    simp [asn1Decode,twoByteLength]

theorem lengthField_of_decode {data : List UInt8} {used length : Nat}
    (h : asn1Decode data data.length = some (some (used, length))) :
    ∃ field rest, data = field ++ rest ∧ field.length = used ∧ LengthField field length := by
  match data with
  | [] => cases h
  | b :: bs =>
    unfold asn1Decode at h
    rw [if_neg (by simp)] at h
    simp only [getElem?_cons_zero,bind_eq_bind,bind_some] at h
    split at h
    · rename_i hshort
      cases h
      exact ⟨[b],bs,rfl,rfl,shortLength hshort ▸ .short b hshort⟩
    split at h
    · rename_i hone
      subst hone
      match bs with
      | [] => cases h
      | low :: cs =>
        rw [if_neg (by simp)] at h
        cases h
        exact ⟨[0x81, low],cs,rfl,rfl,.oneByte low⟩
    split at h
    · rename_i htwo
      subst htwo
      match bs with
      | [] => cases h
      | [_] => cases h
      | high :: low :: cs =>
        rw [if_neg (by simp)] at h
        cases h
        exact ⟨[0x82, high, low],cs,rfl,rfl,twoByteLength high low ▸ .twoBytes high low⟩
    · cases h

theorem WellFormedApdu.length_le {apdu : List UInt8} (h : WellFormedApdu apdu) : 3 ≤ apdu.length := by
  obtain ⟨tag,field,body,rfl,htag,-⟩ := h
  rw [length_append,htag]
  exact Nat.le_add_right ..

theorem WellFormedApdu.eq_of_append_eq {apdu apdu' rest rest' : List UInt8} (h : WellFormedApdu apdu)
    (h' : WellFormedApdu apdu') (heq : apdu ++ rest = apdu' ++ rest') : apdu = apdu' ∧ rest = rest' := by
  obtain ⟨tag,field,body,rfl,htag,hfield⟩ := h
  obtain ⟨tag',field',body',rfl,htag',hfield'⟩ := h'
  simp only [append_assoc] at heq
  obtain ⟨rfl,hbehind⟩ := append_inj heq (htag.trans htag'.symm)
  have hdecode := hfield.decode (body ++ rest)
  rw [hbehind,hfield'.decode,Option.some.injEq,Option.some.injEq,Prod.mk.injEq] at hdecode
  obtain ⟨rfl,hbody⟩ := append_inj hbehind hdecode.1.symm
  obtain ⟨rfl,hrest⟩ := append_inj hbody hdecode.2.symm
  exact ⟨rfl,hrest⟩

theorem splitApdus_append {apdu : List UInt8} (h : WellFormedApdu apdu) (fuel : Nat) (rest : List UInt8) :
    splitApdus (fuel + 1) (apdu ++ rest) = (splitApdus fuel rest).map (apdu :: ·) := by
  have hlength := h.length_le
  obtain ⟨tag,field,body,hparts,htag,hfield⟩ := h
  have hbehind : (apdu ++ rest).drop 3 = field ++ (body ++ rest) := by
    rw [hparts,append_assoc,append_assoc,← htag,drop_left]
  have hdecode : asn1Decode ((apdu ++ rest).drop 3) ((apdu ++ rest).length - 3) =
      some (some (field.length, body.length)) := by
    rw [← length_drop,hbehind]
    exact hfield.decode _
  have hapdu : 3 + field.length + body.length = apdu.length := by
    rw [hparts,length_append,length_append,htag,Nat.add_assoc]
  have hround : splitApdus (fuel + 1) (apdu ++ rest) =
      (splitApdus fuel ((apdu ++ rest).drop apdu.length)).bind fun others =>
        some ((apdu ++ rest).take apdu.length :: others) := by
    match hdata : apdu ++ rest with
    | [] =>
      have := congrArg List.length hdata
      rw [length_append,length_nil] at this
      omega
    | b :: bs =>
      rw [← hdata]
      rw [hdata,splitApdus,← hdata]
      dsimp only
      rw [if_neg (by rw [length_append]; omega),hdecode]
      dsimp only [bind_eq_bind,bind_some]
      rw [hapdu,if_neg (by rw [length_append]; omega)]
  rw [hround,drop_left,take_left]
  cases splitApdus fuel rest <;> rfl

theorem splitApdus_malformed {data : List UInt8} (h : ¬StartsWithApdu data) (fuel : Nat)
    (hfuel : data.length ≤ fuel) : splitApdus fuel data = some [] := by
  match data, fuel with
  | [], fuel => cases fuel <;> rfl
  | b :: bs, 0 => exact absurd hfuel (by simp)
  | b :: bs, fuel + 1 =>
    rw [splitApdus]
    dsimp only
    split
    · rfl
    rename_i hlong
    rw [← length_drop]
    obtain hfail | ⟨used,length,hdecode,-,-⟩ := asn1Decode_inside ((b :: bs).drop 3)
    · rw [hfail]
      rfl
    · rw [hdecode]
      dsimp only [bind_eq_bind,bind_some]
      split
      · rfl
      rename_i hinside
      -- the bytes of the length are there, so the data starts with an APDU
      obtain ⟨field,rest,hbehind,rfl,hfield⟩ := lengthField_of_decode hdecode
      have hlength := congrArg List.length hbehind
      rw [length_append,length_drop] at hlength
      have hbody : (rest.take length).length = length := by
        rw [length_take]
        omega
      refine absurd ⟨(b :: bs).take 3 ++ (field ++ rest.take length),rest.drop length,?_,?_⟩ h
      · rw [append_assoc,append_assoc,take_append_drop,← hbehind,take_append_drop]
      · refine ⟨(b :: bs).take 3,field,rest.take length,rfl,?_,hbody.symm ▸ hfield⟩
        rw [length_take]
        omega

theorem splitApdus_parses (fuel : Nat) (data : List UInt8) (hfuel : data.length ≤ fuel) :
    ∃ apdus rest, splitApdus fuel data = some apdus ∧ data = apdus.flatten ++ rest ∧
      (∀ apdu ∈ apdus, WellFormedApdu apdu) ∧ ¬StartsWithApdu rest := by
  induction fuel generalizing data with
  | zero =>
    have hempty := eq_nil_of_length_eq_zero (Nat.le_zero.mp hfuel)
    subst hempty
    refine ⟨[],[],rfl,rfl,forall_mem_nil _,?_⟩
    intro ⟨apdu,rest,heq,hwell⟩
    have hlength := congrArg List.length heq
    have hapdu := hwell.length_le
    rw [length_append,length_nil] at hlength
    omega
  | succ fuel ih =>
    by_cases hstarts : StartsWithApdu data
    · obtain ⟨apdu,behind,rfl,hwell⟩ := hstarts
      have hapdu := hwell.length_le
      rw [length_append] at hfuel
      obtain ⟨apdus,rest,hsplit,rfl,hall,hrest⟩ := ih behind (by omega)
      refine ⟨apdu :: apdus,rest,?_,(append_assoc ..).symm,?_,hrest⟩
      · rw [splitApdus_append hwell,hsplit]
        rfl
      · exact forall_mem_cons.mpr ⟨hwell,hall⟩
    · exact ⟨[],data,splitApdus_malformed hstarts _ hfuel,rfl,forall_mem_nil _,hstarts⟩

theorem prefix_of_parses (apdus others : List (List UInt8)) (rest rest' : List UInt8)
    (heq : others.flatten ++ rest' = apdus.flatten ++ rest) (hothers : ∀ apdu ∈ others, WellFormedApdu apdu)
    (hapdus : ∀ apdu ∈ apdus, WellFormedApdu apdu) (hrest : ¬StartsWithApdu rest) : others <+: apdus := by
  induction others generalizing apdus with
  | nil => exact nil_prefix
  | cons other others ih =>
    obtain ⟨hother,hothers⟩ := forall_mem_cons.mp hothers
    rw [flatten_cons,append_assoc] at heq
    cases apdus with
    | nil => exact absurd ⟨other,_,heq.symm,hother⟩ hrest
    | cons apdu apdus =>
      obtain ⟨hapdu,hbehindWell⟩ := forall_mem_cons.mp hapdus
      rw [flatten_cons,append_assoc] at heq
      obtain ⟨rfl,hbehind⟩ := hother.eq_of_append_eq hapdu heq
      exact List.prefix_cons_inj other |>.mpr (ih apdus hbehind hothers hbehindWell)

namespace SessionLayer

variable {maxSessions : Nat}

def delivered (sl : SessionLayer maxSessions) (n : Fin maxSessions) (apdus : List (List UInt8)) :
    List (SlEvent maxSessions) :=
  (sl.sessions n).callback.toList.flatMap fun callback =>
    apdus.map fun apdu => .resource callback (sl.sessions n).slotId n (sl.sessions n).resourceId apdu

/-- A package for an active session: the loop reads inside of the bytes behind the session number and ends
after at most as many rounds as there are bytes, and the resource is called once with each APDU of the
longest prefix that consists of well-formed APDUs, in order. -/
theorem handleSessionPackage_delivers (sl : SessionLayer maxSessions) (n : Fin maxSessions)
    (high low : UInt8) (data : List UInt8) (hnumber : sessionNumber high low = n)
    (hactive : (sl.sessions n).state = .active) :
    ∃ apdus rest, splitApdus data.length data = some apdus ∧
      data = apdus.flatten ++ rest ∧ (∀ apdu ∈ apdus, WellFormedApdu apdu) ∧
      (∀ others rest', data = others.flatten ++ rest' → (∀ apdu ∈ others, WellFormedApdu apdu) → others <+: apdus) ∧
      sl.handleSessionPackage (2 :: high :: low :: data) (sl.sessions n).slotId
        (sl.sessions n).connectionId = (sl, sl.delivered n apdus) := by
  obtain ⟨apdus, rest, hsplit, hdata, hwell, hrest⟩ := splitApdus_parses data.length data le_rfl
  refine ⟨apdus, rest, hsplit, hdata, hwell, ?_, ?_⟩
  · intro others rest' heq hothers
    exact prefix_of_parses apdus others rest rest' (heq.symm.trans hdata) hothers hwell hrest
  · have hfound : sl.onConnection (sessionNumber high low) (sl.sessions n).slotId
        (sl.sessions n).connectionId [.active] = some n :=
      hnumber ▸ onConnection_self ⟨rfl, rfl⟩ (List.mem_singleton.mpr hactive)
    unfold handleSessionPackage delivered
    dsimp only
    rw [if_neg (by decide), hfound]
    dsimp only
    rw [hsplit]
    cases (sl.sessions n).callback with
    | none => rfl
    | some callback => simp

def twoActive : SessionLayer 2 := ⟨false, false, 0, fun _ => ⟨.active, 0x00010041, 0, 1, some 5⟩⟩

/-- Two APDUs, and bytes that claim more than there is. -/
theorem handleSessionPackage_delivers_two : twoActive.handleSessionPackage
        [2, 0, 1, 0x9f, 0x80, 0x30, 0, 0x9f, 0x80, 0x32, 0x81, 1, 7, 0x9f, 0x80, 0x32, 9] 0 1 =
      (twoActive, [.resource 5 0 1 0x00010041 [0x9f, 0x80, 0x30, 0],
        .resource 5 0 1 0x00010041 [0x9f, 0x80, 0x32, 0x81, 1, 7]]) := by
  obtain ⟨apdus, rest, hsplit, -, -, -, hevents⟩ := twoActive.handleSessionPackage_delivers 1 0 1
    [0x9f, 0x80, 0x30, 0, 0x9f, 0x80, 0x32, 0x81, 1, 7, 0x9f, 0x80, 0x32, 9] (by decide) rfl
  have hloop : splitApdus 14 [0x9f, 0x80, 0x30, 0, 0x9f, 0x80, 0x32, 0x81, 1, 7, 0x9f, 0x80, 0x32, 9] =
      some [[0x9f, 0x80, 0x30, 0], [0x9f, 0x80, 0x32, 0x81, 1, 7]] := by
    decide
  obtain rfl : [[0x9f, 0x80, 0x30, 0], [0x9f, 0x80, 0x32, 0x81, 1, 7]] = apdus :=
    Option.some.inj (hloop.symm.trans hsplit)
  exact hevents

end SessionLayer

end LinuxDvb.En50221
