import LinuxDvb.LibDvbEn50221.MmiTextBounds

/-!
# Blocks of texts

The texts again, with the number of blocks that are allocated at each point. A text that has a block is
flagged with 2, and the caller frees the blocks of the flagged texts on every way out.
-/

namespace LinuxDvb.En50221

section Blocks

/-- `if (text) free(text)`: the blocks that are still allocated. -/
def freeText (text : HeapBlock) (live : Nat) : Nat := if text = .null then live else live - 1

/-- The end of `en50221_app_mmi_defragment_text`: the return value 1 or 2 with a text, and how many blocks
are allocated. -/
inductive TextEnd where
  | undefined
  | failed (r : Refusal) (live : Nat)
  | text (status : Nat) (text : MmiText) (consumed live : Nat)

def TextEnd.forget : TextEnd → DefragmentedText
  | undefined => .undefined
  | failed r _ => .failed r
  | text _ shown consumed _ => .text shown consumed

/-- `realloc` of a text and a copy; a text that has no block yet gets one. -/
def growTextLive (text : HeapBlock) (fragment : List UInt8) (asnDataLength : Nat) (fits : Bool) (live : Nat)
    (next : List UInt8 → Nat → TextEnd) : TextEnd :=
  if fragment.length < asnDataLength then .undefined
  else
    match text.grow fragment fits with
    | .undefined => .undefined
    | .refused .dangling => .undefined
    | .refused old => .failed ranOutOfMemory (freeText old live)
    | .grown bytes => next bytes (if text = .null then live + 1 else live)

/-- The loop of `en50221_app_mmi_defragment_text`. -/
def defragmentTextLive (fits : Nat → Bool) (data : List UInt8) (dataLength : Nat) (text : HeapBlock)
    (consumed live : Nat) : TextEnd :=
  if dataLength < 3 then .failed ("Short data\n", []) (freeText text live)
  else
    match data with
    | b₁ :: b₂ :: b₃ :: data =>
      let tag := b₁.toNat <<< 16 ||| b₂.toNat <<< 8 ||| b₃.toNat
      match asn1Decode data (dataLength - 3) with
      | none => .undefined
      | some none => .failed asn1DecodeError (freeText text live)
      | some (some (lengthFieldLen, asnDataLength)) =>
        let fragment := (data.drop lengthFieldLen).take asnDataLength
        let used := consumed + 3 + lengthFieldLen + asnDataLength
        if tag = tagTextLast then
          if text = .null then .text 1 ⟨fragment, asnDataLength⟩ used live
          else
            growTextLive text fragment asnDataLength (fits data.length) live fun bytes live =>
              .text 2 ⟨bytes, bytes.length⟩ used live
        else if tag = tagTextMore then
          growTextLive text fragment asnDataLength (fits data.length) live fun bytes live =>
            defragmentTextLive fits (data.drop (lengthFieldLen + asnDataLength))
              (subU32 dataLength (3 + lengthFieldLen + asnDataLength)) (.block bytes) used live
        else .failed ("Unknown MMI text tag\n", []) (freeText text live)
    | _ => .undefined
termination_by data.length

/-- The texts of an object, and what is left of it, with the flags of the texts. -/
inductive TextsEnd where
  | undefined
  | failed (r : Refusal) (flags : List Nat) (live : Nat)
  | texts (texts : List MmiText) (data : List UInt8) (dataLength : Nat) (flags : List Nat) (live : Nat)

def TextsEnd.forget : TextsEnd → ExtractedTexts
  | undefined => .undefined
  | failed r _ _ => .failed r
  | texts found data dataLength _ _ => .texts found data dataLength

/-- The loop over the texts in `en50221_app_mmi_parse_list_menu`. -/
def extractTextsLive (fits : Nat → Bool) : Nat → List UInt8 → Nat → List Nat → Nat → TextsEnd
  | 0, data, dataLength, flags, live => .texts [] data dataLength flags live
  | count + 1, data, dataLength, flags, live =>
    match defragmentTextLive fits data dataLength .null 0 live with
    | .undefined => .undefined
    | .failed r live => .failed r flags live
    | .text status text consumed live =>
      match extractTextsLive fits count (data.drop consumed) (subU32 dataLength consumed) (flags ++ [status])
          live with
      | .undefined => .undefined
      | .failed r flags live => .failed r flags live
      | .texts texts data dataLength flags live => .texts (text :: texts) data dataLength flags live

/-- The loop at `exit_cleanup`: the texts that are flagged with 2 are freed. -/
def cleanupTexts (flags : List Nat) (live : Nat) : Nat :=
  flags.foldl (fun live flag => if flag = 2 then live - 1 else live) live

end Blocks

section Forget

theorem forget_growTextLive (text : HeapBlock) (fragment : List UInt8) (asnDataLength : Nat) (fits : Bool)
    (live : Nat) (next : List UInt8 → Nat → TextEnd) (next' : List UInt8 → DefragmentedText)
    (hnext : ∀ bytes live, (next bytes live).forget = next' bytes) :
    (growTextLive text fragment asnDataLength fits live next).forget =
      growText text fragment asnDataLength fits next' := by
  unfold growTextLive growText
  by_cases hshort : fragment.length < asnDataLength
  · rw [if_pos hshort,if_pos hshort]
    rfl
  · rw [if_neg hshort,if_neg hshort]
    cases text.grow fragment fits with
    | undefined => rfl
    | refused old => cases old <;> rfl
    | grown bytes => exact hnext bytes _

theorem forget_defragmentTextLive (fits : Nat → Bool) (data : List UInt8) (dataLength : Nat) (text : HeapBlock)
    (consumed live : Nat) :
    (defragmentTextLive fits data dataLength text consumed live).forget =
      defragmentText fits data dataLength text consumed := by
  induction hsize : data.length using Nat.strongRecOn generalizing data dataLength text consumed live with
  | ind size ih =>
    subst hsize
    unfold defragmentTextLive defragmentText
    by_cases hshort : dataLength < 3
    · rw [if_pos hshort,if_pos hshort]
      rfl
    rw [if_neg hshort,if_neg hshort]
    match data with
    | [] | [_] | [_, _] => rfl
    | b₁ :: b₂ :: b₃ :: data =>
      dsimp only
      rcases asn1Decode data (dataLength - 3) with _ | _ | ⟨lengthFieldLen,asnDataLength⟩
      · rfl
      · rfl
      dsimp only
      by_cases hlast : b₁.toNat <<< 16 ||| b₂.toNat <<< 8 ||| b₃.toNat = tagTextLast
      · rw [if_pos hlast,if_pos hlast]
        by_cases hnull : text = .null
        · rw [if_pos hnull,if_pos hnull]
          rfl
        · rw [if_neg hnull,if_neg hnull]
          exact forget_growTextLive _ _ _ _ _ _ _ fun _ _ => rfl
      rw [if_neg hlast,if_neg hlast]
      by_cases hmore : b₁.toNat <<< 16 ||| b₂.toNat <<< 8 ||| b₃.toNat = tagTextMore
      · rw [if_pos hmore,if_pos hmore]
        refine forget_growTextLive _ _ _ _ _ _ _ fun bytes live => ih _ ?_ _ _ _ _ _ rfl
        rw [length_drop,length_cons,length_cons,length_cons]
        omega
      · rw [if_neg hmore,if_neg hmore]
        rfl

theorem forget_extractTextsLive (fits : Nat → Bool) (count : Nat) (data : List UInt8) (dataLength : Nat)
    (flags : List Nat) (live : Nat) :
    (extractTextsLive fits count data dataLength flags live).forget = extractTexts fits count data dataLength := by
  induction count generalizing data dataLength flags live with
  | zero => rfl
  | succ count ih =>
    rw [extractTextsLive,extractTexts,← forget_defragmentTextLive fits data dataLength .null 0 live]
    cases defragmentTextLive fits data dataLength .null 0 live with
    | undefined => rfl
    | failed r live => rfl
    | text status text consumed live =>
      dsimp only [TextEnd.forget]
      rw [← ih (data.drop consumed) (subU32 dataLength consumed) (flags ++ [status]) live]
      cases extractTextsLive fits count (data.drop consumed) (subU32 dataLength consumed) (flags ++ [status])
          live <;> rfl

end Forget

section Leaks

def TextEnd.Balanced (base : Nat) : TextEnd → Prop
  | undefined => True
  | failed _ live => live = base
  | text status _ _ live => live = base + if status = 2 then 1 else 0

theorem refused_cases {text old : HeapBlock} {fragment : List UInt8} {fits : Bool}
    (h : text.grow fragment fits = .refused old) : old = .dangling ∨ old = text := by
  unfold HeapBlock.grow at h
  dsimp only at h
  split at h
  · cases h
  split at h
  · exact .inl (Growth.refused.inj h).symm
  split at h
  · exact .inr (Growth.refused.inj h).symm
  split at h <;> cases h

theorem balanced_growTextLive {text : HeapBlock} {fragment : List UInt8} {asnDataLength : Nat} {fits : Bool}
    {base live : Nat} {next : List UInt8 → Nat → TextEnd} (hlive : live = base + if text = .null then 0 else 1)
    (hnext : ∀ bytes, (next bytes (base + 1)).Balanced base) :
    (growTextLive text fragment asnDataLength fits live next).Balanced base := by
  unfold growTextLive
  by_cases hshort : fragment.length < asnDataLength
  · rw [if_pos hshort]
    exact trivial
  rw [if_neg hshort]
  cases hgrow : text.grow fragment fits with
  | undefined => exact trivial
  | refused old =>
    rcases refused_cases hgrow with rfl | rfl
    · exact trivial
    · cases old with
      | null => exact hlive
      | block bytes =>
        change live - 1 = base
        rw [if_neg (fun hcon => HeapBlock.noConfusion hcon)] at hlive
        omega
      | dangling => exact trivial
  | grown bytes =>
    dsimp only
    have hone : (if text = .null then live + 1 else live) = base + 1 := by
      split at hlive
      · rename_i hnull
        rw [if_pos hnull]
        omega
      · rename_i hnull
        rw [if_neg hnull]
        omega
    rw [hone]
    exact hnext bytes

theorem freeText_eq {text : HeapBlock} {base live : Nat} (hlive : live = base + if text = .null then 0 else 1) :
    freeText text live = base := by
  unfold freeText
  split at hlive
  · rename_i hnull
    rw [if_pos hnull]
    omega
  · rename_i hnull
    rw [if_neg hnull]
    omega

theorem balanced_defragmentTextLive (fits : Nat → Bool) (data : List UInt8) (dataLength : Nat)
    {text : HeapBlock} (consumed : Nat) {base live : Nat}
    (hlive : live = base + if text = .null then 0 else 1) :
    (defragmentTextLive fits data dataLength text consumed live).Balanced base := by
  induction hsize : data.length using Nat.strongRecOn generalizing data dataLength text consumed live with
  | ind size ih =>
    subst hsize
    unfold defragmentTextLive
    by_cases hshort : dataLength < 3
    · rw [if_pos hshort]
      exact freeText_eq hlive
    rw [if_neg hshort]
    match data with
    | [] | [_] | [_, _] => exact trivial
    | b₁ :: b₂ :: b₃ :: data =>
      dsimp only
      rcases asn1Decode data (dataLength - 3) with _ | _ | ⟨lengthFieldLen,asnDataLength⟩
      · exact trivial
      · exact freeText_eq hlive
      dsimp only
      by_cases hlast : b₁.toNat <<< 16 ||| b₂.toNat <<< 8 ||| b₃.toNat = tagTextLast
      · rw [if_pos hlast]
        by_cases hnull : text = .null
        · rw [if_pos hnull] at hlive ⊢
          exact hlive
        · rw [if_neg hnull]
          exact balanced_growTextLive hlive fun _ => rfl
      rw [if_neg hlast]
      by_cases hmore : b₁.toNat <<< 16 ||| b₂.toNat <<< 8 ||| b₃.toNat = tagTextMore
      · rw [if_pos hmore]
        refine balanced_growTextLive hlive fun bytes => ih _ ?_ _ _ _ ?_ rfl
        · rw [length_drop,length_cons,length_cons,length_cons]
          omega
        · rw [if_neg (fun hcon => HeapBlock.noConfusion hcon)]
      · rw [if_neg hmore]
        exact freeText_eq hlive

def TextsEnd.Balanced (base : Nat) : TextsEnd → Prop
  | undefined => True
  | failed _ flags live | texts _ _ _ flags live => live = base + flags.count 2

theorem balanced_extractTextsLive (fits : Nat → Bool) (count : Nat) (data : List UInt8) (dataLength : Nat)
    {flags : List Nat} {base live : Nat} (hlive : live = base + flags.count 2) :
    (extractTextsLive fits count data dataLength flags live).Balanced base := by
  induction count generalizing data dataLength flags live with
  | zero => exact hlive
  | succ count ih =>
    have htext := balanced_defragmentTextLive fits data dataLength 0
      (show live = live + if HeapBlock.null = .null then 0 else 1 from rfl)
    rw [extractTextsLive]
    cases hend : defragmentTextLive fits data dataLength .null 0 live with
    | undefined => exact trivial
    | failed r after =>
      rw [hend] at htext
      obtain rfl : after = live := htext
      exact hlive
    | text status shown consumed after =>
      rw [hend] at htext
      have hnext : after = base + (flags ++ [status]).count 2 := by
        have hone : after = live + if status = 2 then 1 else 0 := htext
        rw [List.count_append,List.count_singleton]
        simp only [beq_iff_eq]
        omega
      have hrest := ih (data.drop consumed) (subU32 dataLength consumed) hnext
      dsimp only
      cases hothers : extractTextsLive fits count (data.drop consumed) (subU32 dataLength consumed)
          (flags ++ [status]) after with
      | undefined => exact trivial
      | failed r flags live =>
        rw [hothers] at hrest
        exact hrest
      | texts found rest left flags live =>
        rw [hothers] at hrest
        exact hrest

theorem cleanupTexts_count (flags : List Nat) (base : Nat) : cleanupTexts flags (base + flags.count 2) = base := by
  unfold cleanupTexts
  induction flags generalizing base with
  | nil => rfl
  | cons flag flags ih =>
    rw [foldl_cons,List.count_cons]
    by_cases htwo : flag = 2
    · subst htwo
      rw [if_pos rfl,beq_self_eq_true,if_pos rfl,← Nat.add_assoc,Nat.add_sub_cancel]
      exact ih base
    · rw [if_neg htwo,beq_eq_false_iff_ne.mpr htwo,if_neg Bool.false_ne_true,Nat.add_zero]
      exact ih base

end Leaks

/-- The texts lie inside of the object, what is left is what they leave, and no block is left allocated by
the caller on its way out. -/
def TextsInside (data : List UInt8) : TextsEnd → Prop
  | .undefined => False
  | .failed _ flags live => cleanupTexts flags live = 0
  | .texts texts rest left flags live =>
    cleanupTexts flags live = 0 ∧ StaysInside data (.texts texts rest left)

theorem textsInside_iff (fits : Nat → Bool) (count : Nat) (data : List UInt8) :
    TextsInside data (extractTextsLive fits count data data.length [] 0) ↔
      StaysInside data (extractTexts fits count data data.length) := by
  have hbalanced := balanced_extractTextsLive fits count data data.length (show 0 = 0 + List.count 2 ([] : List Nat) from rfl)
  rw [← forget_extractTextsLive fits count data data.length [] 0]
  cases hend : extractTextsLive fits count data data.length [] 0 with
  | undefined => exact Iff.rfl
  | failed r flags live =>
    rw [hend] at hbalanced
    obtain rfl : live = 0 + flags.count 2 := hbalanced
    exact iff_of_true (cleanupTexts_count flags 0) trivial
  | texts found rest left flags live =>
    rw [hend] at hbalanced
    obtain rfl : live = 0 + flags.count 2 := hbalanced
    exact and_iff_right (cleanupTexts_count flags 0)

end LinuxDvb.En50221
