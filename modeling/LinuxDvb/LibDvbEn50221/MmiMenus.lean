import LinuxDvb.LibDvbEn50221.MmiTextBlocks

/-!
# Menus and lists

What the application is told about a menu or list: the three texts in front of the choices and the choices.
The number of texts is counted in a byte, so an object with 253 or 254 choices is taken for one without texts
or with one text.
-/

namespace LinuxDvb.En50221

def FragmentedText.shown (t : FragmentedText) : MmiText := ⟨t.joined, t.joined.length⟩

section Inside

def MenuInside (data : List UInt8) (menu : MmiMenu) : Prop :=
  ∃ (title subTitle bottom : FragmentedText) (choices : List FragmentedText) (rest : List UInt8),
    data = (title :: subTitle :: bottom :: choices).flatMap FragmentedText.encode ++ rest ∧
    menu.title = some title.shown ∧ menu.subTitle = some subTitle.shown ∧ menu.bottom = some bottom.shown ∧
    menu.items.getD [] = choices.map FragmentedText.shown ∧
    (menu.itemsRaw = none ∨ menu.itemsRaw = some rest ∧ menu.itemRawLength = rest.length)

/-- The handling of an object is defined, and what the application is told lies inside of the object. -/
def HandsOverInside (data : List UInt8) : Option ObjectEnd → Prop
  | none => False
  | some e => ∀ cb slotId sessionNumber menu,
      AppEvent.callback cb slotId sessionNumber (.menu menu) ∈ e.events → MenuInside data menu

def ThreeTexts (choiceNb : UInt8) (data : List UInt8) : Prop :=
  3 ≤ (textCount choiceNb).toNat ∨
    ¬∃ (found : List FragmentedText) (rest : List UInt8), found.length = (textCount choiceNb).toNat ∧
      data = found.flatMap FragmentedText.encode ++ rest

theorem length_extractTexts {fits : Nat → Bool} {count : Nat} {data rest : List UInt8} {dataLength left : Nat}
    {texts : List MmiText} (h : extractTexts fits count data dataLength = .texts texts rest left) :
    texts.length = count := by
  induction count generalizing data dataLength texts with
  | zero =>
    obtain ⟨rfl,-,-⟩ := ExtractedTexts.texts.inj h
    rfl
  | succ count ih =>
    rw [extractTexts] at h
    cases htext : defragmentText fits data dataLength .null 0 with
    | undefined =>
      rw [htext] at h
      cases h
    | failed r =>
      rw [htext] at h
      cases h
    | text text consumed =>
      rw [htext] at h
      dsimp only at h
      cases hrest : extractTexts fits count (data.drop consumed) (subU32 dataLength consumed) with
      | undefined =>
        rw [hrest] at h
        cases h
      | failed r =>
        rw [hrest] at h
        cases h
      | texts found behind left' =>
        rw [hrest] at h
        obtain ⟨rfl,rfl,rfl⟩ := ExtractedTexts.texts.inj h
        rw [length_cons,ih hrest]

theorem extractTexts_startsEmpty {texts : List FragmentedText} (h : ∃ t ∈ texts, t.StartsEmpty)
    (rest : List UInt8) (hlength : (texts.flatMap FragmentedText.encode ++ rest).length < lengthModulus) :
    extractTexts (fun _ => true) texts.length (texts.flatMap FragmentedText.encode ++ rest)
      (texts.flatMap FragmentedText.encode ++ rest).length = .undefined := by
  induction texts with
  | nil =>
    obtain ⟨t,ht,-⟩ := h
    cases ht
  | cons t texts ih =>
    rw [flatMap_cons,append_assoc] at hlength ⊢
    rw [length_cons,extractTexts]
    by_cases ht : t.StartsEmpty
    · rw [defragmentText_startsEmpty ht _ hlength]
    · obtain ⟨t',ht',hempty⟩ := h
      have hmem : t' ∈ texts := by
        rcases mem_cons.mp ht' with rfl | hmem
        · exact absurd hempty ht
        · exact hmem
      have hle : t.encode.length ≤ (t.encode ++ (texts.flatMap FragmentedText.encode ++ rest)).length := by
        rw [length_append]
        omega
      rw [defragmentText_encode ht _ hlength]
      simp only [drop_left,subU32_of_le hle hlength]
      rw [length_append] at hlength
      rw [length_append,Nat.add_sub_cancel_left,ih ⟨t',hmem,hempty⟩ (by omega)]

theorem extractTexts_found (found : List FragmentedText) (rest : List UInt8)
    (hlength : (found.flatMap FragmentedText.encode ++ rest).length < lengthModulus) :
    let data := found.flatMap FragmentedText.encode ++ rest
    extractTexts (fun _ => true) found.length data data.length = .undefined ∨
      extractTexts (fun _ => true) found.length data data.length =
        .texts (found.map FragmentedText.shown) rest rest.length := by
  by_cases hempty : ∃ t ∈ found, t.StartsEmpty
  · exact .inl (extractTexts_startsEmpty hempty rest hlength)
  · exact .inr ((extractTexts_encode_iff ⟨found,rest,hlength⟩).mpr fun t ht hcon => hempty ⟨t,ht,hcon⟩)

variable {choiceNb : UInt8} {data : List UInt8}

theorem menuInside_menuArgs {texts : List MmiText} {rest : List UInt8} {left : Nat}
    (hstays : StaysInside data (.texts texts rest left)) (hcount : texts.length = (textCount choiceNb).toNat)
    (hthree : 3 ≤ (textCount choiceNb).toNat) : MenuInside data (menuArgs choiceNb texts rest left) := by
  obtain ⟨rfl,found,rfl,rfl⟩ := hstays
  match found with
  | [] | [_] | [_, _] =>
    rw [length_map] at hcount
    simp only [length_cons,length_nil] at hcount
    omega
  | title :: subTitle :: bottom :: choices =>
    refine ⟨title,subTitle,bottom,choices,rest,rfl,rfl,rfl,rfl,?_,?_⟩
    · unfold menuArgs
      dsimp only
      rw [length_map] at hcount
      by_cases hmore : textCount choiceNb > 3
      · rw [if_pos hmore]
        rfl
      · have hlimit : ¬3 < (textCount choiceNb).toNat := fun h => hmore (UInt8.lt_iff_toNat_lt.mpr h)
        have hnone : choices = [] := by
          simp only [length_cons] at hcount
          exact eq_nil_of_length_eq_zero (by omega)
        rw [if_neg hmore,hnone]
        rfl
    · unfold menuArgs
      dsimp only
      by_cases hraw : choiceNb = 0xff
      · rw [if_pos hraw,if_pos hraw]
        exact .inr ⟨rfl,rfl⟩
      · rw [if_neg hraw]
        exact .inl rfl

theorem of_menuInside {texts : List MmiText} {rest : List UInt8} {left : Nat}
    (hcount : texts.length = (textCount choiceNb).toNat)
    (h : MenuInside data (menuArgs choiceNb texts rest left)) :
    3 ≤ (textCount choiceNb).toNat ∧ ∀ t ∈ texts, t.textLength = t.text.length := by
  obtain ⟨title,subTitle,bottom,choices,-,-,htitle,hsubTitle,hbottom,hchoices,-⟩ := h
  match texts with
  | [] => cases htitle
  | [_] => cases hsubTitle
  | [_, _] => cases hbottom
  | a :: b :: c :: items =>
    obtain rfl : a = title.shown := Option.some.inj htitle
    obtain rfl : b = subTitle.shown := Option.some.inj hsubTitle
    obtain rfl : c = bottom.shown := Option.some.inj hbottom
    have hitems : items = choices.map FragmentedText.shown := by
      unfold menuArgs at hchoices
      dsimp only at hchoices
      by_cases hmore : textCount choiceNb > 3
      · rw [if_pos hmore] at hchoices
        exact hchoices
      · have hlimit : ¬3 < (textCount choiceNb).toNat := fun h => hmore (UInt8.lt_iff_toNat_lt.mpr h)
        rw [if_neg hmore] at hchoices
        simp only [length_cons] at hcount
        rw [eq_nil_of_length_eq_zero (by omega : items.length = 0)]
        exact hchoices
    refine ⟨by simp only [length_cons] at hcount; omega,?_⟩
    intro t ht
    rw [hitems] at ht
    rcases mem_cons.mp ht with rfl | ht
    · rfl
    rcases mem_cons.mp ht with rfl | ht
    · rfl
    rcases mem_cons.mp ht with rfl | ht
    · rfl
    obtain ⟨choice,-,rfl⟩ := mem_map.mp ht
    rfl

structure MmiIo.HasMemory (io : MmiIo) : Prop where
  text : io.text = fun _ => true
  textFlags : io.textFlags = true
  textData : io.textData = true
  textDataForUser : io.textDataForUser = true

theorem listMenu_eq (mmi : Mmi) (callback : MmiCallback) (slotId : UInt8) (sessionNumber : UInt16) {io : MmiIo}
    (h : io.HasMemory) :
    mmi.listMenu callback slotId sessionNumber (choiceNb :: data) io =
      match extractTexts (fun _ => true) (textCount choiceNb).toNat data data.length with
      | .undefined => none
      | .failed r => some ⟨false, -1, [.print r.1 r.2]⟩
      | .texts texts rest left =>
        some (mmi.tellObject callback slotId sessionNumber (.menu (menuArgs choiceNb texts rest left)) io) := by
  rw [Mmi.listMenu,h.textFlags,h.textData,h.textDataForUser,h.text]
  rfl

/-- The caller tells the application about texts of the object only, exactly if the texts stay inside and
there are three of them. -/
theorem listMenu_inside_iff (hlength : data.length < lengthModulus) : (∀ (mmi : Mmi) callback slotId sessionNumber io,
        HandsOverInside data (mmi.listMenu callback slotId sessionNumber (choiceNb :: data) io)) ↔
      Inside (textCount choiceNb).toNat .null data ∧ ThreeTexts choiceNb data := by
  constructor
  · intro h
    let mmi : Mmi := ⟨fun _ => some 0,ChainTable.empty,false⟩
    let io : MmiIo := ⟨⟨0,0,⟨true,true⟩⟩,fun _ => true,true,true,true⟩
    have hall := h mmi .menu 0 0 io
    have hmemory : io.HasMemory := ⟨rfl,rfl,rfl,rfl⟩
    rw [listMenu_eq mmi .menu 0 0 hmemory] at hall
    have hfound : ∀ r, extractTexts (fun _ => true) (textCount choiceNb).toNat data data.length = .failed r →
        ThreeTexts choiceNb data := by
      intro r hr
      refine .inr ?_
      rintro ⟨found,rest,hcount,rfl⟩
      rcases extractTexts_found found rest hlength with hundefined | htexts
      · rw [← hcount,hundefined] at hr
        cases hr
      · rw [← hcount,htexts] at hr
        cases hr
    have hinside (texts : List MmiText) (rest : List UInt8) (left : Nat)
        (hextract : extractTexts (fun _ => true) (textCount choiceNb).toNat data data.length = .texts texts rest left) :
        3 ≤ (textCount choiceNb).toNat ∧ ∀ t ∈ texts, t.textLength = t.text.length := by
      rw [hextract] at hall
      exact of_menuInside (length_extractTexts hextract) (hall 0 0 0 _ (mem_singleton_self _))
    constructor
    · by_contra houtside
      rcases extractTexts_outside houtside hlength with hundefined | ⟨texts,rest,left,hextract,t,ht,hless⟩
      · rw [hundefined] at hall
        exact hall
      · have hsame := (hinside texts rest left hextract).2 t ht
        omega
    · cases hextract : extractTexts (fun _ => true) (textCount choiceNb).toNat data data.length with
      | undefined =>
        rw [hextract] at hall
        exact hall.elim
      | failed r => exact hfound r hextract
      | texts texts rest left => exact .inl (hinside texts rest left hextract).1
  · rintro ⟨hinside,hthree⟩ mmi callback slotId sessionNumber io
    have hstays := @extractTexts_inside io.text _ _ hinside hlength
    unfold Mmi.listMenu
    dsimp only
    by_cases hmemory : (!io.textFlags || !io.textData) = true
    · rw [if_pos hmemory]
      intro cb slotId sessionNumber menu hmem
      cases hmem
    rw [if_neg hmemory]
    cases hextract : extractTexts io.text (textCount choiceNb).toNat data data.length with
    | undefined =>
      rw [hextract] at hstays
      exact hstays.elim
    | failed r =>
      intro cb slotId sessionNumber menu hmem
      cases mem_singleton.mp hmem
    | texts texts rest left =>
      rw [hextract] at hstays
      have hcount := length_extractTexts hextract
      have hthree' : 3 ≤ (textCount choiceNb).toNat := by
        refine hthree.resolve_right fun hnone => hnone ?_
        obtain ⟨-,found,hdata,hfound⟩ := hstays
        refine ⟨found,rest,?_,hdata⟩
        rw [← hcount,hfound,length_map]
      dsimp only
      split
      · intro cb slotId sessionNumber menu hmem
        cases hmem
      · unfold Mmi.tellObject
        cases mmi.callbacks callback with
        | none =>
          intro cb slotId sessionNumber menu hmem
          cases hmem
        | some registered =>
          intro cb slotId sessionNumber menu hmem
          obtain ⟨-,-,-,hargs⟩ := AppEvent.callback.inj (mem_singleton.mp hmem)
          obtain rfl := MmiArgs.menu.inj hargs
          exact menuInside_menuArgs hstays hcount hthree'

/-- For every object and every number of texts: whatever memory there is, the texts lie inside of the object
and no block is lost, and the caller tells the application about texts of the object only, exactly if the
bytes of all fragments that are read are there, no text starts with two empty fragments, and there are not
less than three texts. -/
theorem mmiTexts_inside_iff (count : Nat) (choiceNb : UInt8) {data : List UInt8}
    (hlength : data.length < lengthModulus) :
    ((∀ fits, TextsInside data (extractTextsLive fits count data data.length [] 0)) ∧
        ∀ (mmi : Mmi) callback slotId sessionNumber io,
          HandsOverInside data (mmi.listMenu callback slotId sessionNumber (choiceNb :: data) io)) ↔
      Inside count .null data ∧ Inside (textCount choiceNb).toNat .null data ∧ ThreeTexts choiceNb data := by
  rw [listMenu_inside_iff hlength, ← @extractTexts_stays_iff count data hlength]
  simp only [textsInside_iff]

def oneByte : TextFragment := ⟨[0x01], [0x41], (LengthField.short 0x01 (by decide)).decode⟩

theorem mmiTexts_inside_one : (∀ fits, TextsInside [0x9f, 0x88, 0x03, 0x01, 0x41]
        (extractTextsLive fits 1 [0x9f, 0x88, 0x03, 0x01, 0x41] 5 [] 0)) ∧
      ∀ (mmi : Mmi) callback slotId sessionNumber io, HandsOverInside [0x9f, 0x88, 0x03, 0x01, 0x41]
        (mmi.listMenu callback slotId sessionNumber [0x00, 0x9f, 0x88, 0x03, 0x01, 0x41] io) := by
  have hempty : ¬StartsText [] := by
    rintro ⟨tag, field, length, behind, -, hbytes, -⟩
    cases hbytes
  have hgrow : HeapBlock.null = .block [] → oneByte.bytes ≠ [] := fun hcon => HeapBlock.noConfusion hcon
  exact (mmiTexts_inside_iff 1 0x00 (by decide)).mpr
    ⟨Inside.last (f := oneByte) hgrow .done, Inside.last (f := oneByte) hgrow (.ends hempty), .inl (by decide)⟩

/-- A text that says that it has five bytes, of which one is there. -/
theorem mmiTexts_not_inside : ¬∀ fits, TextsInside [0x9f, 0x88, 0x03, 0x05, 0x41]
      (extractTextsLive fits 1 [0x9f, 0x88, 0x03, 0x05, 0x41] 5 [] 0) := by
  intro h
  have hstays := (textsInside_iff (fun _ => true) 1 [0x9f, 0x88, 0x03, 0x05, 0x41]).mp (h fun _ => true)
  have hover := @defragmentText_over (fun _ => true) .null 0 tagTextLast [0x05] [0x41] _ (.inl rfl)
    (LengthField.short 0x05 (by decide)) (by decide)
  rw [if_pos ⟨rfl, rfl⟩] at hover
  have hbytes : tagBytes tagTextLast ++ ([0x05] ++ [0x41]) = [0x9f, 0x88, 0x03, 0x05, 0x41] := rfl
  rw [hbytes] at hover
  rw [extractTexts, hover] at hstays
  obtain ⟨-, found, -, hfound⟩ := hstays
  cases found with
  | nil => cases hfound
  | cons t _ =>
    have hshown := (List.cons.inj hfound).1
    have htext : [0x41] = t.joined := congrArg MmiText.text hshown
    have hlength : 5 = t.joined.length := congrArg MmiText.textLength hshown
    rw [← htext] at hlength
    exact absurd hlength (by decide)

end Inside

section Complete

inductive MenuKind where
  | menu | list

def MenuKind.object : MenuKind → MmiObject
  | menu => .menu
  | list => .list

def MenuKind.callback : MenuKind → MmiCallback
  | menu => .menu
  | list => .list

/-- A menu or list: the number of choices, the texts in front of them, the choices, and what is behind
them. -/
structure MenuObject where
  choiceNb : UInt8
  title : FragmentedText
  subTitle : FragmentedText
  bottom : FragmentedText
  choices : List FragmentedText
  trailing : List UInt8
  counted : choices.length = choiceNb.toNat
  notRaw : choiceNb ≠ 0xff
  fits : ((title :: subTitle :: bottom :: choices).flatMap FragmentedText.encode ++ trailing).length < lengthModulus

namespace MenuObject

variable (o : MenuObject)

def texts : List FragmentedText := o.title :: o.subTitle :: o.bottom :: o.choices

def encode : List UInt8 := o.choiceNb :: (o.texts.flatMap FragmentedText.encode ++ o.trailing)

def menu : MmiMenu where
  title := some o.title.shown
  subTitle := some o.subTitle.shown
  bottom := some o.bottom.shown
  itemCount := o.choices.length
  items := if o.choices = [] then none else some (o.choices.map FragmentedText.shown)
  itemRawLength := 0
  itemsRaw := none

theorem toNat_textCount : (textCount o.choiceNb).toNat = (o.choices.length + 3) % 256 := by
  rw [textCount,if_neg o.notRaw,UInt8.toNat_add,o.counted]
  rfl

theorem length_choices_le : o.choices.length ≤ 254 := by
  have hlt := o.choiceNb.toNat_lt
  have hne : o.choiceNb.toNat ≠ 255 := fun h => o.notRaw (UInt8.toNat_inj.mp h)
  have hcounted := o.counted
  omega

theorem menuArgs_eq (h : o.choices.length ≤ 252) :
    menuArgs o.choiceNb (o.texts.map FragmentedText.shown) o.trailing o.trailing.length = o.menu := by
  have hcount := o.toNat_textCount
  rw [Nat.mod_eq_of_lt (by omega)] at hcount
  have hitems : textCount o.choiceNb > 3 ↔ o.choices ≠ [] := by
    rw [gt_iff_lt,UInt8.lt_iff_toNat_lt,hcount,← length_pos_iff]
    simp only [UInt8.reduceToNat]
    omega
  have hitemCount : subU32 (o.choices.length + 3) 3 = o.choices.length := by
    rw [subU32_of_le (by omega) (by unfold lengthModulus; omega),Nat.add_sub_cancel]
  unfold menuArgs menu
  rw [if_neg o.notRaw,if_neg o.notRaw,hcount,hitemCount]
  by_cases hnone : o.choices = []
  · rw [if_neg (hitems.not.mpr (not_not_intro hnone)),if_pos hnone]
    rfl
  · rw [if_pos (hitems.mpr hnone),if_neg hnone]
    rfl

theorem menuArgs_ne (h : 252 < o.choices.length) {texts : List MmiText} {rest : List UInt8} {left : Nat}
    (hcount : texts.length = (textCount o.choiceNb).toNat) : menuArgs o.choiceNb texts rest left ≠ o.menu := by
  intro hmenu
  have hlimit := o.length_choices_le
  rw [o.toNat_textCount] at hcount
  have hsubTitle : texts[1]? = some o.subTitle.shown := congrArg MmiMenu.subTitle hmenu
  obtain ⟨hone,-⟩ := List.getElem?_eq_some_iff.mp hsubTitle
  omega

end MenuObject

def Mmi.Receives (mmi : Mmi) (sessionNumber : UInt16) (kind : MmiObject) (data : List UInt8) (alloc : Allocation)
    (object : List UInt8) : Prop :=
  ∃ fragment behind, splitBody data = .ok (fragment, behind) ∧
    (mmi.defragment sessionNumber kind true fragment alloc = .single object ∨
      ∃ sessions, mmi.defragment sessionNumber kind true fragment alloc = .joined sessions object)

variable {mmi : Mmi} {sessionNumber : UInt16} {data : List UInt8} {io : MmiIo} {cb : Nat}

theorem parseObject_of_receives (slotId : UInt8) {kind : MenuKind} {object : List UInt8}
    (hunlocked : mmi.locked = false)
    (hreceives : mmi.Receives sessionNumber kind.object data io.alloc object) :
    ∃ sessions, mmi.parseObject slotId sessionNumber kind.object true data io =
      { mmi with sessions := sessions }.finish
        ({ mmi with sessions := sessions }.listMenu kind.callback slotId sessionNumber object io) := by
  obtain ⟨fragment,behind,hsplit,hcomplete⟩ := hreceives
  have hparse : mmi.parseObject slotId sessionNumber kind.object true data io =
      mmi.takeFragment slotId sessionNumber kind.object true fragment io := by
    unfold Mmi.parseObject AppOutcome.parsed AppOutcome.withLock
    rw [hsplit,hunlocked]
    rfl
  rw [hparse]
  unfold Mmi.takeFragment
  rcases hcomplete with hsingle | ⟨sessions,hjoined⟩
  · rw [hsingle]
    exact ⟨mmi.sessions,by cases kind <;> rfl⟩
  · rw [hjoined]
    exact ⟨sessions,by cases kind <;> rfl⟩

theorem parseObject_incomplete_of_many (o : MenuObject) (kind : MenuKind) (slotId : UInt8)
    (hunlocked : mmi.locked = false) (hcallback : mmi.callbacks kind.callback = some cb)
    (hmemory : io.HasMemory) (hreceives : mmi.Receives sessionNumber kind.object data io.alloc o.encode)
    (hmany : 252 < o.choices.length) (after : Mmi) :
    mmi.parseObject slotId sessionNumber kind.object true data io ≠
      .returned after io.callback [.callback cb slotId sessionNumber (.menu o.menu)] := by
  obtain ⟨sessions,hparse⟩ := parseObject_of_receives slotId hunlocked hreceives
  rw [hparse,MenuObject.encode,listMenu_eq _ _ _ _ hmemory]
  intro hreturned
  cases hextract : extractTexts (fun _ => true) (textCount o.choiceNb).toNat
      (o.texts.flatMap FragmentedText.encode ++ o.trailing)
      (o.texts.flatMap FragmentedText.encode ++ o.trailing).length with
  | undefined =>
    rw [hextract] at hreturned
    cases hreturned
  | failed r =>
    rw [hextract] at hreturned
    obtain ⟨-,-,hevents⟩ := AppOutcome.returned.inj hreturned
    cases (List.cons.inj hevents).1
  | texts texts rest left =>
    rw [hextract] at hreturned
    unfold Mmi.tellObject at hreturned
    rw [hcallback] at hreturned
    obtain ⟨-,-,hevents⟩ := AppOutcome.returned.inj hreturned
    obtain ⟨-,-,-,hargs⟩ := AppEvent.callback.inj (List.cons.inj hevents).1
    exact o.menuArgs_ne hmany (length_extractTexts hextract) (MmiArgs.menu.inj hargs)

/-- For every menu and every list that is received: the application is told its title, subtitle, bottom line
and choices in order, and how many choices there are, exactly if there are at most 252 of them and no text
starts with two empty fragments. -/
theorem parseObject_complete_iff (o : MenuObject) (kind : MenuKind) (slotId : UInt8)
    (hunlocked : mmi.locked = false) (hcallback : mmi.callbacks kind.callback = some cb)
    (hmemory : io.HasMemory) (hreceives : mmi.Receives sessionNumber kind.object data io.alloc o.encode) :
    (∃ after, mmi.parseObject slotId sessionNumber kind.object true data io =
        .returned after io.callback [.callback cb slotId sessionNumber (.menu o.menu)]) ↔
      o.choices.length ≤ 252 ∧ ∀ t ∈ o.texts, ¬t.StartsEmpty := by
  obtain ⟨sessions, hparse⟩ := parseObject_of_receives slotId hunlocked hreceives
  have hcount := o.toNat_textCount
  have hfits : (o.texts.flatMap FragmentedText.encode ++ o.trailing).length < lengthModulus := o.fits
  constructor
  · rintro ⟨after, hreturned⟩
    have hsmall : o.choices.length ≤ 252 := by
      by_contra hmany
      exact parseObject_incomplete_of_many o kind slotId hunlocked hcallback hmemory hreceives (by omega) after
        hreturned
    refine ⟨hsmall, fun t ht hempty => ?_⟩
    have hexact : (textCount o.choiceNb).toNat = o.texts.length := by
      rw [hcount, Nat.mod_eq_of_lt (by omega)]
      rfl
    rw [hparse, MenuObject.encode, listMenu_eq _ _ _ _ hmemory, hexact,
      extractTexts_startsEmpty ⟨t, ht, hempty⟩ o.trailing hfits] at hreturned
    cases hreturned
  · rintro ⟨hsmall, hnonempty⟩
    have hexact : (textCount o.choiceNb).toNat = o.texts.length := by
      rw [hcount, Nat.mod_eq_of_lt (by omega)]
      rfl
    have hextract := (extractTexts_encode_iff ⟨o.texts, o.trailing, hfits⟩).mpr hnonempty
    have hmenu := o.menuArgs_eq hsmall
    unfold TextObject.encode at hextract
    dsimp only at hextract
    rw [hparse, MenuObject.encode, listMenu_eq _ _ _ _ hmemory, hexact, hextract]
    unfold Mmi.tellObject
    rw [hcallback]
    unfold FragmentedText.shown at hmenu
    dsimp only
    rw [hmenu]
    exact ⟨_, rfl⟩

theorem splitBody_field {field body : List UInt8} (h : LengthField field body.length) :
    splitBody (field ++ body) = .ok (body, []) := by
  unfold splitBody decodeLength
  rw [h.decode]
  dsimp only [Option.join_some]
  rw [if_neg (by rw [length_append]; omega),drop_left,List.splitAt_eq,take_length,
    List.drop_length]

theorem receives_first (callbacks : MmiCallback → Option Nat) (kind : MmiObject) (alloc : Allocation)
    {field object : List UInt8} (h : LengthField field object.length) :
    Mmi.Receives ⟨callbacks, ChainTable.empty, false⟩ sessionNumber kind (field ++ object) alloc object :=
  ⟨object, [], splitBody_field h, .inl rfl⟩

def emptyText : FragmentedText := ⟨[], ⟨[0x00], [], (LengthField.short 0x00 (by decide)).decode⟩⟩

theorem length_encode_emptyText (n : Nat) :
    ((List.replicate n emptyText).flatMap FragmentedText.encode).length = 4 * n := by
  have hone : emptyText.encode.length = 4 := rfl
  induction n with
  | zero => rfl
  | succ n ih =>
    rw [List.replicate_succ,flatMap_cons,length_append,ih,hone]
    omega

theorem not_startsEmpty_emptyText : ¬emptyText.StartsEmpty := id

def emptyTexts (choiceNb : UInt8) (hraw : choiceNb ≠ 0xff) : MenuObject where
  choiceNb := choiceNb
  title := emptyText
  subTitle := emptyText
  bottom := emptyText
  choices := List.replicate choiceNb.toNat emptyText
  trailing := []
  counted := List.length_replicate
  notRaw := hraw
  fits := by
    have hlt := choiceNb.toNat_lt
    have hlength := length_encode_emptyText (choiceNb.toNat + 3)
    rw [List.append_nil]
    unfold lengthModulus
    simp only [List.replicate_succ] at hlength
    omega

/-- A list without choices. -/
theorem parseObject_complete_noChoices :
    ∃ after, Mmi.parseObject ⟨fun _ => some 7, ChainTable.empty, false⟩ 1 2 .list true
        (0x0d :: (emptyTexts 0 (by decide)).encode) ⟨⟨0, 0, ⟨true, true⟩⟩, fun _ => true, true, true, true⟩ =
      .returned after 0 [.callback 7 1 2 (.menu (emptyTexts 0 (by decide)).menu)] := by
  have hnonempty : ∀ t ∈ (emptyTexts 0 (by decide)).texts, ¬t.StartsEmpty := by
    intro t ht
    have hmember : t ∈ List.replicate 3 emptyText := ht
    rw [(List.mem_replicate.mp hmember).2]
    exact not_startsEmpty_emptyText
  exact (parseObject_complete_iff (emptyTexts 0 (by decide)) .list 1 rfl rfl ⟨rfl, rfl, rfl, rfl⟩
    (receives_first _ .list _ (.short 0x0d (by decide)))).mpr ⟨Nat.zero_le _, hnonempty⟩

/-- A menu with 253 choices, for which no text is read. -/
theorem parseObject_not_complete : ¬∃ after, Mmi.parseObject ⟨fun _ => some 7, ChainTable.empty, false⟩ 1 2 .menu true
        (0x82 :: 0x04 :: 0x01 :: (emptyTexts 253 (by decide)).encode)
        ⟨⟨0, 0, ⟨true, true⟩⟩, fun _ => true, true, true, true⟩ =
      .returned after 0 [.callback 7 1 2 (.menu (emptyTexts 253 (by decide)).menu)] := by
  rintro ⟨after, hreturned⟩
  have hlength : (emptyTexts 253 (by decide)).encode.length = 256 * 4 + 1 := by
    have htexts := length_encode_emptyText 256
    have hmenu : (emptyTexts 253 (by decide)).encode =
        0xfd :: ((List.replicate 256 emptyText).flatMap FragmentedText.encode ++ []) := by
      unfold MenuObject.encode MenuObject.texts
      exact congrArg (fun texts => 0xfd :: (texts ++ [])) rfl
    rw [hmenu, List.length_cons, List.append_nil, htexts]
  have hfield : LengthField [0x82, 0x04, 0x01] (emptyTexts 253 (by decide)).encode.length :=
    hlength ▸ .twoBytes 0x04 0x01
  have hmany : 252 < (emptyTexts 253 (by decide)).choices.length := by
    rw [(emptyTexts 253 (by decide)).counted]
    decide
  exact parseObject_incomplete_of_many (emptyTexts 253 (by decide)) .menu 1 rfl rfl ⟨rfl, rfl, rfl, rfl⟩
    (receives_first _ .menu _ hfield) hmany after hreturned

end Complete

end LinuxDvb.En50221
