import LinuxDvb.LibDvbEn50221.MmiTexts
import LinuxDvb.LibDvbEn50221.ApduSplitting

/-!
# Texts inside of their object

The length field of a fragment is not compared with the bytes that are left of the object, so a text that is a single
fragment may be longer than what is there.
-/

namespace LinuxDvb.En50221

def IsTextTag (tag : Nat) : Prop := tag = tagTextLast ∨ tag = tagTextMore

def StartsText (data : List UInt8) : Prop :=
  ∃ tag field length behind, IsTextTag tag ∧ data = tagBytes tag ++ (field ++ behind) ∧
    LengthField field length

/-- The fragments of some texts, the first of which has the given block already: as long as there is a
fragment, its bytes are there, and a text does not start with two empty fragments. -/
inductive Inside : Nat → HeapBlock → List UInt8 → Prop
  | done {data : List UInt8} : Inside 0 .null data
  | ends {count : Nat} {text : HeapBlock} {data : List UInt8} (h : ¬StartsText data) :
      Inside (count + 1) text data
  | last {count : Nat} {text : HeapBlock} {f : TextFragment} {rest : List UInt8}
      (hgrow : text = .block [] → f.bytes ≠ []) (hrest : Inside count .null rest) :
      Inside (count + 1) text (f.encode tagTextLast ++ rest)
  | more {count : Nat} {text : HeapBlock} {f : TextFragment} {rest : List UInt8}
      (hgrow : text = .block [] → f.bytes ≠ [])
      (hrest : Inside (count + 1) (.block (text.bytes ++ f.bytes)) rest) :
      Inside (count + 1) text (f.encode tagTextMore ++ rest)

section Fragments

variable {fits : Nat → Bool} {text : HeapBlock} {consumed : Nat}

/-- What an object may start with: no fragment of a text, one with its bytes, or one with less bytes than its
length field says. -/
theorem startsText_cases (data : List UInt8) : ¬StartsText data ∨
      (∃ tag f rest, IsTextTag tag ∧ data = TextFragment.encode f tag ++ rest) ∨
      ∃ tag field length behind, IsTextTag tag ∧ data = tagBytes tag ++ (field ++ behind) ∧
        LengthField field length ∧ behind.length < length := by
  by_cases h : StartsText data
  · obtain ⟨tag,field,length,behind,htag,rfl,hfield⟩ := h
    by_cases hshort : behind.length < length
    · exact .inr (.inr ⟨tag,field,length,behind,htag,rfl,hfield,hshort⟩)
    · have hlength : (behind.take length).length = length := length_take_of_le (by omega)
      refine .inr (.inl ⟨tag,⟨field,behind.take length,fun rest => ?_⟩,behind.drop length,htag,?_⟩)
      · rw [hlength]
        exact hfield.decode rest
      · unfold TextFragment.encode
        dsimp only
        rw [append_assoc,append_assoc,take_append_drop]
  · exact .inl h

theorem defragmentText_ends {data : List UInt8} (h : ¬StartsText data) :
    ∃ r, defragmentText fits data data.length text consumed = .failed r := by
  by_cases hshort : data.length < 3
  · refine ⟨("Short data\n", []),?_⟩
    unfold defragmentText
    exact if_pos hshort
  match data with
  | [] | [_] | [_, _] => exact absurd (by simp) hshort
  | b₁ :: b₂ :: b₃ :: data =>
    rw [defragmentText,if_neg hshort]
    have hlength : (b₁ :: b₂ :: b₃ :: data).length - 3 = data.length := rfl
    simp only [hlength]
    rcases asn1Decode_inside data with hnone | ⟨used,length,hdecode,-,-⟩
    · rw [hnone]
      exact ⟨_,rfl⟩
    · obtain ⟨field,behind,rfl,rfl,hfield⟩ := lengthField_of_decode hdecode
      have hother (tag : Nat) (htag : IsTextTag tag) :
          b₁.toNat <<< 16 ||| b₂.toNat <<< 8 ||| b₃.toNat ≠ tag := by
        intro heq
        refine h ⟨tag,field,length,behind,htag,?_,hfield⟩
        rw [← eq_tagBytes heq]
        rfl
      rw [hdecode]
      dsimp only
      rw [if_neg (hother _ (.inl rfl)),if_neg (hother _ (.inr rfl))]
      exact ⟨_,rfl⟩

theorem defragmentText_over {tag : Nat} {field behind : List UInt8} {length : Nat} (htag : IsTextTag tag)
    (hfield : LengthField field length) (hshort : behind.length < length) :
    defragmentText fits (tagBytes tag ++ (field ++ behind)) (tagBytes tag ++ (field ++ behind)).length text
        consumed =
      if tag = tagTextLast ∧ text = .null then .text ⟨behind, length⟩ (consumed + 3 + field.length + length)
      else .undefined := by
  have hgrow (next : List UInt8 → DefragmentedText) (b : Bool) : growText text behind length b next = .undefined :=
    if_pos hshort
  have htake : ((field ++ behind).drop field.length).take length = behind := by
    rw [drop_left,take_of_length_le (by omega)]
  have hdecode : asn1Decode (field ++ behind) ((field ++ behind).length + 1 + 1 + 1 - 3) =
      some (some (field.length, length)) := hfield.decode behind
  rcases htag with rfl | rfl
  · have hbytes : tagBytes tagTextLast ++ (field ++ behind) = 0x9f :: 0x88 :: 0x03 :: (field ++ behind) := rfl
    rw [hbytes,defragmentText,if_neg (by simp)]
    simp only [length_cons,hdecode,htake,hgrow]
    rw [if_pos (show UInt8.toNat 0x9f <<< 16 ||| UInt8.toNat 0x88 <<< 8 ||| UInt8.toNat 0x03 = tagTextLast by
      decide)]
    by_cases hnull : text = .null
    · rw [if_pos hnull,if_pos ⟨trivial,hnull⟩]
    · rw [if_neg hnull,if_neg (fun hcon => hnull hcon.2)]
  · have hbytes : tagBytes tagTextMore ++ (field ++ behind) = 0x9f :: 0x88 :: 0x04 :: (field ++ behind) := rfl
    rw [hbytes,defragmentText,if_neg (by simp)]
    simp only [length_cons,hdecode,htake,hgrow]
    rw [if_neg (by decide),if_pos (by decide),if_neg (fun hcon => absurd hcon.1 (by decide))]

end Fragments

section Growth

variable {text : HeapBlock}

theorem growText_live {bytes : List UInt8} {b : Bool} {next : List UInt8 → DefragmentedText}
    (hlive : text ≠ .dangling) (hgrow : text = .block [] → bytes ≠ [])
    (hlength : text.bytes.length + bytes.length < lengthModulus) :
    growText text bytes bytes.length b next =
      if b then next (text.bytes ++ bytes) else .failed ranOutOfMemory := by
  have hgrowable : text.Growable bytes b := by
    refine ⟨fun hblock => ?_,fun _ => hlength⟩
    rw [Nat.mod_eq_of_lt hlength]
    intro hzero
    have hbytes : bytes = [] := eq_nil_of_length_eq_zero (by omega)
    have htext : text.bytes = [] := eq_nil_of_length_eq_zero (by omega)
    cases text with
    | null => exact hblock rfl
    | block acc =>
      obtain rfl : acc = [] := htext
      exact hgrow rfl hbytes
    | dangling => exact hlive rfl
  unfold growText
  rw [if_neg (Nat.lt_irrefl _),HeapBlock.grow_of_growable hlive hgrowable]
  cases b with
  | true => rfl
  | false =>
    cases text with
    | null => rfl
    | block acc => rfl
    | dangling => exact absurd rfl hlive

theorem growText_empty {b : Bool} {next : List UInt8 → DefragmentedText} :
    growText (.block []) [] 0 b next = .undefined := rfl

end Growth

section Defragmented

variable {fits : Nat → Bool}

theorem defragmentText_inside {n count : Nat} {text : HeapBlock} {data : List UInt8} (h : Inside n text data)
    (hn : n = count + 1) (hlive : text ≠ .dangling) (hlength : text.bytes.length + data.length < lengthModulus)
    (consumed : Nat) :
    (∃ r, defragmentText fits data data.length text consumed = .failed r) ∨
      ∃ t rest, data = FragmentedText.encode t ++ rest ∧ Inside count .null rest ∧
        defragmentText fits data data.length text consumed =
          .text ⟨text.bytes ++ t.joined, (text.bytes ++ t.joined).length⟩ (consumed + t.encode.length) := by
  induction h generalizing consumed with
  | done => cases hn
  | ends h => exact .inl (defragmentText_ends h)
  | @last k text f rest hgrow hrest _ =>
    obtain rfl : k = count := Nat.succ.inj hn
    rw [length_append,length_encode] at hlength
    rw [defragmentText_last]
    by_cases hnull : text = .null
    · subst hnull
      exact .inr ⟨⟨[],f⟩,rest,rfl,hrest,by rw [if_pos rfl]; rfl⟩
    · rw [if_neg hnull,growText_live hlive hgrow (by omega)]
      cases fits (f.field ++ (f.bytes ++ rest)).length with
      | false => exact .inl ⟨_,rfl⟩
      | true => exact .inr ⟨⟨[],f⟩,rest,rfl,hrest,rfl⟩
  | @more k text f rest hgrow hrest ih =>
    rw [length_append,length_encode] at hlength
    rw [defragmentText_more (by rw [length_append, length_encode]; omega),
      growText_live hlive hgrow (by omega)]
    cases fits (f.field ++ (f.bytes ++ rest)).length with
    | false => exact .inl ⟨_,rfl⟩
    | true =>
      have hblock : (HeapBlock.block (text.bytes ++ f.bytes)).bytes.length =
          text.bytes.length + f.bytes.length := length_append
      rcases ih hn (fun hcon => HeapBlock.noConfusion hcon) (by omega)
          (consumed + (f.encode tagTextMore).length) with ⟨r,hr⟩ | ⟨t,behind,rfl,hbehind,ht⟩
      · exact .inl ⟨r,hr⟩
      · refine .inr ⟨⟨f :: t.more,t.last⟩,behind,?_,hbehind,?_⟩
        · rw [FragmentedText.encode_cons,append_assoc]
        · have hbytes : (HeapBlock.block (text.bytes ++ f.bytes)).bytes = text.bytes ++ f.bytes := rfl
          rw [if_pos rfl,ht,FragmentedText.encode_cons,FragmentedText.joined_cons]
          simp only [hbytes,append_assoc,length_append,Nat.add_assoc]

/-- What the call returns when it does not stay inside: nothing that is defined, a text that goes on behind
the object, or the text in front of others that do not. -/
theorem defragmentText_outside {count : Nat} {text : HeapBlock} {data : List UInt8}
    (h : ¬Inside (count + 1) text data) (hlive : text ≠ .dangling)
    (hlength : text.bytes.length + data.length < lengthModulus) (consumed : Nat) :
    defragmentText (fun _ => true) data data.length text consumed = .undefined ∨
      (text = .null ∧ ∃ shown used, shown.text.length < shown.textLength ∧ data.length < used ∧
        used < lengthModulus ∧ used < data.length + 0x10000 ∧
        defragmentText (fun _ => true) data data.length text consumed = .text shown (consumed + used)) ∨
      ∃ t rest, data = FragmentedText.encode t ++ rest ∧ ¬Inside count .null rest ∧
        defragmentText (fun _ => true) data data.length text consumed =
          .text ⟨text.bytes ++ t.joined, (text.bytes ++ t.joined).length⟩ (consumed + t.encode.length) := by
  induction hsize : data.length using Nat.strongRecOn generalizing text data consumed with
  | ind size ih =>
    subst hsize
    rcases startsText_cases data with hends | ⟨tag,f,rest,htag,rfl⟩ |
        ⟨tag,field,length,behind,htag,rfl,hfield,hshort⟩
    · exact absurd (.ends hends) h
    · by_cases hgrow : text = .block [] → f.bytes ≠ []
      · rw [length_append,length_encode] at hlength
        rcases htag with rfl | rfl
        · -- the last fragment of the text: what comes behind it does not stay inside
          have hrest : ¬Inside count .null rest := fun hcon => h (.last hgrow hcon)
          refine .inr (.inr ⟨⟨[],f⟩,rest,rfl,hrest,?_⟩)
          rw [defragmentText_last]
          by_cases hnull : text = .null
          · subst hnull
            rw [if_pos rfl]
            rfl
          · rw [if_neg hnull,growText_live hlive hgrow (by omega)]
            rfl
        · have hrest : ¬Inside (count + 1) (.block (text.bytes ++ f.bytes)) rest :=
            fun hcon => h (.more hgrow hcon)
          have hbytes : (HeapBlock.block (text.bytes ++ f.bytes)).bytes = text.bytes ++ f.bytes := rfl
          rw [defragmentText_more (by rw [length_append, length_encode]; omega),
            growText_live hlive hgrow (by omega),if_pos rfl]
          rcases ih rest.length (by rw [length_append,length_encode]; omega) hrest
              (fun hcon => HeapBlock.noConfusion hcon) (by rw [hbytes,length_append]; omega)
              (consumed + (f.encode tagTextMore).length) rfl with
            hundefined | ⟨hnull,-⟩ | ⟨t,behind,rfl,hbehind,ht⟩
          · exact .inl hundefined
          · cases hnull
          · refine .inr (.inr ⟨⟨f :: t.more,t.last⟩,behind,?_,hbehind,?_⟩)
            · rw [FragmentedText.encode_cons,append_assoc]
            · rw [ht,FragmentedText.encode_cons,FragmentedText.joined_cons]
              simp only [hbytes,append_assoc,length_append,Nat.add_assoc]
      · obtain ⟨rfl,hempty⟩ := Classical.not_imp.mp hgrow
        have hbytes : f.bytes = [] := not_not.mp hempty
        rw [length_append] at hlength
        refine .inl ?_
        rcases htag with rfl | rfl
        · rw [defragmentText_last,if_neg (fun hcon => HeapBlock.noConfusion hcon),hbytes]
          exact growText_empty
        · rw [defragmentText_more (by rw [length_append]; omega),hbytes]
          exact growText_empty
    · have hlimit : length < 2 ^ 16 := asn1Decode_lt (hfield.decode behind)
      have hthree : (tagBytes tag).length = 3 := rfl
      rw [defragmentText_over htag hfield hshort]
      by_cases hshown : tag = tagTextLast ∧ text = .null
      · rw [if_pos hshown]
        refine .inr (.inl ⟨hshown.2,⟨behind,length⟩,3 + field.length + length,hshort,?_,?_,?_,?_⟩)
        · rw [length_append,length_append]
          omega
        · have hthree' : field.length ≤ 3 := by cases hfield <;> simp
          unfold lengthModulus
          omega
        · rw [length_append,length_append]
          omega
        · rw [Nat.add_assoc,Nat.add_assoc,Nat.add_assoc]
      · rw [if_neg hshown]
        exact .inl rfl

end Defragmented

section Extracted

def StaysInside (data : List UInt8) : ExtractedTexts → Prop
  | .undefined => False
  | .failed _ => True
  | .texts texts rest left =>
    left = rest.length ∧ ∃ found : List FragmentedText, data = found.flatMap FragmentedText.encode ++ rest ∧
      texts = found.map fun t => ⟨t.joined, t.joined.length⟩

theorem extractTexts_inside {fits : Nat → Bool} {count : Nat} {data : List UInt8} (h : Inside count .null data)
    (hlength : data.length < lengthModulus) :
    StaysInside data (extractTexts fits count data data.length) := by
  induction count generalizing data with
  | zero => exact ⟨rfl,[],rfl,rfl⟩
  | succ count ih =>
    rw [extractTexts]
    rcases @defragmentText_inside fits _ _ _ _ h rfl (fun hcon => HeapBlock.noConfusion hcon)
        (by change 0 + data.length < _; omega) 0 with ⟨r,hr⟩ | ⟨t,rest,rfl,hrest,ht⟩
    · rw [hr]
      exact trivial
    · have hle : t.encode.length ≤ (t.encode ++ rest).length := by
        rw [length_append]
        omega
      have hleft : subU32 (t.encode ++ rest).length t.encode.length = rest.length := by
        rw [subU32_of_le hle hlength,length_append,Nat.add_sub_cancel_left]
      rw [length_append] at hlength
      have hstays := ih hrest (by omega)
      rw [ht]
      simp only [Nat.zero_add,drop_left,hleft]
      cases hextract : extractTexts fits count rest rest.length with
      | undefined =>
        rw [hextract] at hstays
        exact hstays
      | failed r => exact trivial
      | texts texts behind left =>
        rw [hextract] at hstays
        obtain ⟨hbehind,found,rfl,rfl⟩ := hstays
        exact ⟨hbehind,t :: found,by rw [flatMap_cons,append_assoc],rfl⟩

theorem extractTexts_behind {count left : Nat} (hleft : 3 ≤ left) :
    extractTexts (fun _ => true) (count + 1) [] left = .undefined := by
  rw [extractTexts]
  have hundefined : defragmentText (fun _ => true) [] left .null 0 = .undefined := by
    unfold defragmentText
    exact if_neg (by omega)
  rw [hundefined]

theorem extractTexts_outside {count : Nat} {data : List UInt8} (h : ¬Inside count .null data)
    (hlength : data.length < lengthModulus) :
    extractTexts (fun _ => true) count data data.length = .undefined ∨
      ∃ texts rest left, extractTexts (fun _ => true) count data data.length = .texts texts rest left ∧
        ∃ t ∈ texts, t.text.length < t.textLength := by
  induction count generalizing data with
  | zero => exact absurd .done h
  | succ count ih =>
    rw [extractTexts]
    rcases defragmentText_outside h (fun hcon => HeapBlock.noConfusion hcon)
        (by change 0 + data.length < _; omega) 0 with
      hundefined | ⟨-,shown,used,hless,hover,hmodulus,hnear,hshown⟩ | ⟨t,rest,rfl,hrest,ht⟩
    · rw [hundefined]
      exact .inl rfl
    · have hdrop : data.drop (0 + used) = [] := drop_eq_nil_of_le (by omega)
      have hleft : subU32 data.length (0 + used) = data.length + lengthModulus - used := by
        unfold subU32
        rw [Nat.zero_add,Nat.mod_eq_of_lt hmodulus,Nat.mod_eq_of_lt (by omega)]
      have hfar : 0x10000 < lengthModulus - 3 := by decide
      rw [hshown]
      simp only [hdrop,hleft]
      cases count with
      | zero => exact .inr ⟨_,_,_,rfl,shown,mem_singleton_self shown,hless⟩
      | succ count =>
        rw [extractTexts_behind (by omega)]
        exact .inl rfl
    · have hle : t.encode.length ≤ (t.encode ++ rest).length := by
        rw [length_append]
        omega
      have hleft : subU32 (t.encode ++ rest).length t.encode.length = rest.length := by
        rw [subU32_of_le hle hlength,length_append,Nat.add_sub_cancel_left]
      rw [length_append] at hlength
      rw [ht]
      simp only [Nat.zero_add,drop_left,hleft]
      rcases ih hrest (by omega) with hundefined | ⟨texts,behind,left,hextract,t',ht',hless⟩
      · rw [hundefined]
        exact .inl rfl
      · rw [hextract]
        exact .inr ⟨_,_,_,rfl,t',mem_cons_of_mem _ ht',hless⟩

theorem extractTexts_stays_iff {count : Nat} {data : List UInt8} (hlength : data.length < lengthModulus) :
    (∀ fits, StaysInside data (extractTexts fits count data data.length)) ↔ Inside count .null data := by
  constructor
  · intro hstays
    by_contra h
    have hall := hstays fun _ => true
    rcases extractTexts_outside h hlength with hundefined | ⟨texts,rest,left,hextract,t,ht,hless⟩
    · rw [hundefined] at hall
      exact hall
    · rw [hextract] at hall
      obtain ⟨-,found,-,rfl⟩ := hall
      obtain ⟨t,-,rfl⟩ := mem_map.mp ht
      exact Nat.lt_irrefl _ hless
  · intro h fits
    exact extractTexts_inside h hlength

end Extracted

end LinuxDvb.En50221
