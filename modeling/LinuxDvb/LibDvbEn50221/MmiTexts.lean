import LinuxDvb.LibDvbEn50221.Mmi

/-!
# Texts in fragments

The texts of a menu or list come one behind the other, each as any number of fragments that say that there are more,
and one that is the last.
-/

namespace LinuxDvb.En50221

/-- A fragment of a text, with a length field that says its length. -/
structure TextFragment where
  field : List UInt8
  bytes : List UInt8
  decodes : ∀ rest, asn1Decode (field ++ rest) (field ++ rest).length = some (some (field.length, bytes.length))

def TextFragment.encode (f : TextFragment) (tag : Nat) : List UInt8 := tagBytes tag ++ f.field ++ f.bytes

structure FragmentedText where
  more : List TextFragment
  last : TextFragment

namespace FragmentedText

def encode (t : FragmentedText) : List UInt8 :=
  t.more.flatMap (fun f => f.encode tagTextMore) ++ t.last.encode tagTextLast

def joined (t : FragmentedText) : List UInt8 := t.more.flatMap TextFragment.bytes ++ t.last.bytes

theorem encode_nil (last : TextFragment) : encode ⟨[], last⟩ = last.encode tagTextLast := rfl

theorem encode_cons (f : TextFragment) (more : List TextFragment) (last : TextFragment) :
    encode ⟨f :: more, last⟩ = f.encode tagTextMore ++ encode ⟨more, last⟩ := by
  simp [encode]

theorem joined_cons (f : TextFragment) (more : List TextFragment) (last : TextFragment) :
    joined ⟨f :: more, last⟩ = f.bytes ++ joined ⟨more, last⟩ := by
  simp [joined]

def first : FragmentedText → TextFragment
  | ⟨[], last⟩ => last
  | ⟨f :: _, _⟩ => f

def StartsEmpty : FragmentedText → Prop
  | ⟨[], _⟩ => False
  | ⟨f :: more, last⟩ => f.bytes = [] ∧ (first ⟨more, last⟩).bytes = []

end FragmentedText

section Fragments

variable {fits : Nat → Bool} {text : HeapBlock} {f : TextFragment} {rest : List UInt8} {consumed : Nat}

theorem length_encode (f : TextFragment) (tag : Nat) : (f.encode tag).length = 3 + f.field.length + f.bytes.length := by
  simp [TextFragment.encode,tagBytes]
  omega

private theorem take_fragment (f : TextFragment) (rest : List UInt8) :
    ((f.field ++ (f.bytes ++ rest)).drop f.field.length).take f.bytes.length = f.bytes := by
  rw [drop_left,take_left]

private theorem drop_fragment (f : TextFragment) (rest : List UInt8) :
    (f.field ++ (f.bytes ++ rest)).drop (f.field.length + f.bytes.length) = rest := by
  rw [← append_assoc,← length_append,drop_left]

private theorem decode_fragment (f : TextFragment) (rest : List UInt8) :
    asn1Decode (f.field ++ (f.bytes ++ rest)) ((f.field ++ (f.bytes ++ rest)).length + 1 + 1 + 1 - 3) =
      some (some (f.field.length, f.bytes.length)) := f.decodes _

theorem defragmentText_more (hlength : (f.encode tagTextMore ++ rest).length < lengthModulus) :
    defragmentText fits (f.encode tagTextMore ++ rest) (f.encode tagTextMore ++ rest).length text consumed =
      growText text f.bytes f.bytes.length (fits (f.field ++ (f.bytes ++ rest)).length) fun bytes =>
        defragmentText fits rest rest.length (.block bytes) (consumed + (f.encode tagTextMore).length) := by
  have hbytes : f.encode tagTextMore ++ rest = 0x9f :: 0x88 :: 0x04 :: (f.field ++ (f.bytes ++ rest)) := by
    simp [TextFragment.encode,tagBytes,tagTextMore]
  have hleft : subU32 (f.encode tagTextMore ++ rest).length (3 + f.field.length + f.bytes.length) =
      rest.length := by
    rw [← length_encode f tagTextMore,subU32_of_le (by simp) hlength,length_append,Nat.add_sub_cancel_left]
  rw [length_encode f tagTextMore]
  rw [hbytes] at hleft ⊢
  rw [defragmentText,if_neg (by simp)]
  simp only [length_cons,decode_fragment,take_fragment,drop_fragment]
  rw [if_neg (by decide),if_pos (by decide)]
  simp only [length_cons] at hleft
  simp only [hleft]
  simp only [Nat.add_assoc]

theorem defragmentText_last :
    defragmentText fits (f.encode tagTextLast ++ rest) (f.encode tagTextLast ++ rest).length text consumed =
      if text = .null then .text ⟨f.bytes, f.bytes.length⟩ (consumed + (f.encode tagTextLast).length)
      else
        growText text f.bytes f.bytes.length (fits (f.field ++ (f.bytes ++ rest)).length) fun bytes =>
          .text ⟨bytes, bytes.length⟩ (consumed + (f.encode tagTextLast).length) := by
  have hbytes : f.encode tagTextLast ++ rest = 0x9f :: 0x88 :: 0x03 :: (f.field ++ (f.bytes ++ rest)) := by
    simp [TextFragment.encode,tagBytes,tagTextLast]
  rw [length_encode f tagTextLast,hbytes,defragmentText,if_neg (by simp)]
  simp only [length_cons,decode_fragment,take_fragment]
  rw [if_pos (show UInt8.toNat 0x9f <<< 16 ||| UInt8.toNat 0x88 <<< 8 ||| UInt8.toNat 0x03 = tagTextLast by decide)]
  simp only [Nat.add_assoc]

theorem growText_block {acc bytes : List UInt8} {next : List UInt8 → DefragmentedText}
    (hlength : acc.length + bytes.length < lengthModulus) :
    growText (.block acc) bytes bytes.length true next =
      if acc = [] ∧ bytes = [] then .undefined else next (acc ++ bytes) := by
  unfold growText
  rw [if_neg (Nat.lt_irrefl _)]
  by_cases hempty : acc = [] ∧ bytes = []
  · obtain ⟨rfl,rfl⟩ := hempty
    rfl
  · have hgrow : (HeapBlock.block acc).Growable bytes true := by
      refine ⟨fun _ => ?_,fun _ => hlength⟩
      simp only [HeapBlock.bytes,Nat.mod_eq_of_lt hlength]
      intro hzero
      refine hempty ⟨eq_nil_of_length_eq_zero ?_,eq_nil_of_length_eq_zero ?_⟩ <;> omega
    rw [HeapBlock.grow_of_growable (fun hcon => HeapBlock.noConfusion hcon) hgrow,if_neg hempty]
    rfl

theorem growText_null {bytes : List UInt8} {next : List UInt8 → DefragmentedText}
    (hlength : bytes.length < lengthModulus) : growText .null bytes bytes.length true next = next bytes := by
  unfold growText
  rw [if_neg (Nat.lt_irrefl _),
    HeapBlock.grow_of_growable (fun hcon => HeapBlock.noConfusion hcon) (HeapBlock.growable_null hlength)]
  rfl

end Fragments

theorem defragmentText_nonempty (t : FragmentedText) (rest : List UInt8) (consumed : Nat) {acc : List UInt8}
    (hacc : acc ≠ []) (hlength : acc.length + (t.encode ++ rest).length < lengthModulus) :
    defragmentText (fun _ => true) (t.encode ++ rest) (t.encode ++ rest).length (.block acc) consumed =
      .text ⟨acc ++ t.joined, (acc ++ t.joined).length⟩ (consumed + t.encode.length) := by
  obtain ⟨more,last⟩ := t
  induction more generalizing acc consumed with
  | nil =>
    have hlast := length_encode last tagTextLast
    rw [FragmentedText.encode_nil] at hlength ⊢
    rw [length_append] at hlength
    rw [defragmentText_last,if_neg (fun hcon => HeapBlock.noConfusion hcon),growText_block (by omega),
      if_neg (fun hcon => hacc hcon.1)]
    rfl
  | cons f more ih =>
    have hf := length_encode f tagTextMore
    rw [FragmentedText.encode_cons,append_assoc] at hlength ⊢
    rw [length_append] at hlength
    rw [defragmentText_more (by rw [length_append]; omega),growText_block (by omega),
      if_neg (fun hcon => hacc hcon.1),
      ih _ (fun hcon => hacc (append_eq_nil_iff.mp hcon).1) (by rw [length_append]; omega)]
    simp only [FragmentedText.joined_cons,append_assoc,length_append,Nat.add_assoc]

theorem defragmentText_block (t : FragmentedText) (rest : List UInt8) (consumed : Nat) {acc : List UInt8}
    (hlength : acc.length + (t.encode ++ rest).length < lengthModulus) :
    defragmentText (fun _ => true) (t.encode ++ rest) (t.encode ++ rest).length (.block acc) consumed =
      if acc = [] ∧ t.first.bytes = [] then .undefined
      else .text ⟨acc ++ t.joined, (acc ++ t.joined).length⟩ (consumed + t.encode.length) := by
  obtain ⟨more,last⟩ := t
  cases more with
  | nil =>
    have hlast := length_encode last tagTextLast
    rw [FragmentedText.encode_nil] at hlength ⊢
    rw [length_append] at hlength
    rw [defragmentText_last,if_neg (fun hcon => HeapBlock.noConfusion hcon),growText_block (by omega)]
    rfl
  | cons f more =>
    by_cases hacc : acc = []
    · subst hacc
      have hf := length_encode f tagTextMore
      rw [FragmentedText.encode_cons,append_assoc] at hlength ⊢
      rw [length_append] at hlength
      rw [defragmentText_more (by rw [length_append]; omega),growText_block (by omega)]
      by_cases hempty : f.bytes = []
      · rw [if_pos ⟨rfl,hempty⟩,if_pos ⟨rfl,hempty⟩]
      · rw [if_neg (fun hcon => hempty hcon.2),if_neg (fun hcon => hempty hcon.2),nil_append,
          defragmentText_nonempty _ _ _ hempty (by omega)]
        simp only [FragmentedText.joined_cons,nil_append,length_append,Nat.add_assoc]
    · rw [if_neg (fun hcon => hacc hcon.1),defragmentText_nonempty _ _ _ hacc hlength]

private theorem defragmentText_first (f : TextFragment) (t : FragmentedText) (rest : List UInt8)
    (hlength : (f.encode tagTextMore ++ (t.encode ++ rest)).length < lengthModulus) :
    defragmentText (fun _ => true) (f.encode tagTextMore ++ (t.encode ++ rest))
        (f.encode tagTextMore ++ (t.encode ++ rest)).length .null 0 =
      if f.bytes = [] ∧ t.first.bytes = [] then .undefined
      else .text ⟨f.bytes ++ t.joined, (f.bytes ++ t.joined).length⟩
        (0 + (f.encode tagTextMore).length + t.encode.length) := by
  have hf := length_encode f tagTextMore
  rw [defragmentText_more hlength]
  rw [length_append] at hlength
  rw [growText_null (by omega),defragmentText_block _ _ _ (by omega)]

theorem defragmentText_encode {t : FragmentedText} (ht : ¬t.StartsEmpty) (rest : List UInt8)
    (hlength : (t.encode ++ rest).length < lengthModulus) :
    defragmentText (fun _ => true) (t.encode ++ rest) (t.encode ++ rest).length .null 0 =
      .text ⟨t.joined, t.joined.length⟩ t.encode.length := by
  obtain ⟨more,last⟩ := t
  cases more with
  | nil =>
    rw [FragmentedText.encode_nil,defragmentText_last,if_pos rfl,Nat.zero_add]
    rfl
  | cons f more =>
    rw [FragmentedText.encode_cons,append_assoc] at hlength ⊢
    have hempty : ¬(f.bytes = [] ∧ (FragmentedText.first ⟨more,last⟩).bytes = []) := ht
    rw [defragmentText_first f ⟨more,last⟩ rest hlength,if_neg hempty,FragmentedText.joined_cons,Nat.zero_add,
      length_append]
    simp only [length_append]

theorem defragmentText_startsEmpty {t : FragmentedText} (ht : t.StartsEmpty) (rest : List UInt8)
    (hlength : (t.encode ++ rest).length < lengthModulus) :
    defragmentText (fun _ => true) (t.encode ++ rest) (t.encode ++ rest).length .null 0 = .undefined := by
  obtain ⟨more,last⟩ := t
  cases more with
  | nil => exact ht.elim
  | cons f more =>
    rw [FragmentedText.encode_cons,append_assoc] at hlength ⊢
    have hempty : f.bytes = [] ∧ (FragmentedText.first ⟨more,last⟩).bytes = [] := ht
    rw [defragmentText_first f ⟨more,last⟩ rest hlength,if_pos hempty]

structure TextObject where
  texts : List FragmentedText
  rest : List UInt8
  fits : (texts.flatMap FragmentedText.encode ++ rest).length < lengthModulus

def TextObject.encode (o : TextObject) : List UInt8 := o.texts.flatMap FragmentedText.encode ++ o.rest

/-- The texts are taken out of their object with all of their fragments exactly if none of them starts with
two empty fragments. -/
theorem extractTexts_encode_iff (o : TextObject) :
    extractTexts (fun _ => true) o.texts.length o.encode o.encode.length =
        .texts (o.texts.map fun t => ⟨t.joined, t.joined.length⟩) o.rest o.rest.length ↔
      ∀ t ∈ o.texts, ¬t.StartsEmpty := by
  obtain ⟨texts,rest,hfits⟩ := o
  unfold TextObject.encode
  dsimp only
  induction texts with
  | nil => simp [extractTexts]
  | cons t texts ih =>
    rw [flatMap_cons,append_assoc] at hfits ⊢
    rw [length_cons,extractTexts]
    by_cases ht : t.StartsEmpty
    · rw [defragmentText_startsEmpty ht _ hfits]
      refine iff_of_false (fun hcon => nomatch hcon) (fun hcon => hcon t mem_cons_self ht)
    · have hle : t.encode.length ≤ (t.encode ++ (texts.flatMap FragmentedText.encode ++ rest)).length := by
        rw [length_append]
        omega
      rw [defragmentText_encode ht _ hfits,forall_mem_cons]
      simp only [drop_left,subU32_of_le hle hfits]
      rw [length_append,Nat.add_sub_cancel_left]
      rw [← ih (by rw [length_append] at hfits; omega)]
      cases hrest : extractTexts (fun _ => true) texts.length (texts.flatMap FragmentedText.encode ++ rest)
          (texts.flatMap FragmentedText.encode ++ rest).length with
      | undefined => simp
      | failed r => simp
      | texts found data dataLength => simp [ht]

end LinuxDvb.En50221
