import LinuxDvb.Framework.InPlace

/-!
# Texts

A text is a multiple string structure: a count of strings, each with a language and a count of segments, each with its
bytes behind their number.
-/

namespace LinuxDvb.Ucsi

open InPlace

structure AtscTextStringSegment where
  compressionType : UInt8
  mode : UInt8
  data : List UInt8
  fits : data.length < 256

def AtscTextStringSegment.bytes (s : AtscTextStringSegment) : List UInt8 :=
  [s.compressionType, s.mode, UInt8.ofNat s.data.length] ++ s.data

structure AtscTextString where
  languageCode : { bytes : List UInt8 // bytes.length = 3 }
  segments : List AtscTextStringSegment
  fits : segments.length < 256

def AtscTextString.bytes (s : AtscTextString) : List UInt8 :=
  s.languageCode.val ++ [UInt8.ofNat s.segments.length] ++ s.segments.flatMap AtscTextStringSegment.bytes

structure AtscText where
  strings : List AtscTextString
  fits : strings.length < 256

def AtscText.bytes (t : AtscText) : List UInt8 :=
  UInt8.ofNat t.strings.length :: t.strings.flatMap AtscTextString.bytes

/-- The bytes of a field for a text: there may be no text, and there may be something behind it. -/
def IsTextField (bytes : List UInt8) : Prop :=
  bytes = [] ∨ ∃ (text : AtscText) (rest : List UInt8), bytes = text.bytes ++ rest

/-- A field for a text, with its length in the byte in front of it. -/
structure AtscTextField where
  bytes : List UInt8
  fits : bytes.length < 256
  isTextField : IsTextField bytes

def AtscTextField.lengthBytes (t : AtscTextField) : List UInt8 := UInt8.ofNat t.bytes.length :: t.bytes

section Code

def validateSegment (limit segment : Nat) : InPlace Nat := do
  let pos ← skip limit 3 segment
  let numberBytes ← look (·[segment + 2]?)
  skip limit numberBytes.toNat pos

def validateString (limit string : Nat) : InPlace Nat := do
  let pos ← skip limit 4 string
  let numberSegments ← look (·[string + 3]?)
  times numberSegments.toNat (validateSegment limit) pos

/-- `atsc_text_validate(buf + off, len)`, which gives -1 where this refuses. -/
def atscTextValidate (off len : Nat) : InPlace Unit := do
  if len = 0 then return
  let numberStrings ← look (·[off]?)
  let _ ← times numberStrings.toNat (validateString (off + len)) (off + 1)

variable (len : Nat)

/-- The checks of a field for a text at `pos`: that it ends before `len`, and that it is valid. -/
def checkText (pos size : Nat) : InPlace Nat := do
  refuseIf (len < pos + size)
  atscTextValidate pos size
  return pos + size

/-- The same for a field behind its length, which is all there is in the structure at `start`. -/
def checkLengthText (start : Nat) : InPlace Nat := do
  let pos ← skip len 1 start
  let size ← look (·[start]?)
  checkText len pos size.toNat

end Code

section Parsing

variable {before : List UInt8 → Prop} {len : Nat}

def segmentFormat : Format AtscTextStringSegment := ⟨fun _ => AtscTextStringSegment.bytes, fun _ => rfl⟩

def stringFormat : Format AtscTextString := ⟨fun _ => AtscTextString.bytes, fun _ => rfl⟩

theorem count_eq {α : Type} {values : List α} {c : UInt8} (h : values.length = c.toNat) :
    UInt8.ofNat values.length = c ∧ values.length < 256 :=
  ⟨h ▸ UInt8.ofNat_toNat, h ▸ c.toNat_lt⟩

theorem parses_segment : Parses segmentFormat before len (validateSegment len) := by
  have hsegment : Parses ((Format.blockByte 2).andThen fun a => Format.block a.2.toNat) before len
      (validateSegment len) := Parses.lastByte fun c => Parses.skip c.toNat
  refine hsegment.of_bytes (fun s => ?_) fun a => ?_
  · have hcount : s.data.length = (UInt8.ofNat s.data.length).toNat := (UInt8.toNat_ofNat_of_lt s.fits).symm
    exact ⟨⟨⟨⟨[s.compressionType, s.mode],rfl⟩,UInt8.ofNat s.data.length⟩,s.data,hcount⟩,fun _ => rfl⟩
  · obtain ⟨⟨⟨front,hfront⟩,c⟩,data,hdata⟩ := a
    obtain ⟨type,mode,rfl⟩ := List.length_eq_two.mp hfront
    obtain ⟨rfl,hfits⟩ := count_eq hdata
    exact ⟨⟨type,mode,data,hfits⟩,fun _ => rfl⟩

theorem parses_string : Parses stringFormat before len (validateString len) := by
  have hstring : Parses ((Format.blockByte 3).andThen fun a => segmentFormat.times a.2.toNat) before len
      (validateString len) := Parses.lastByte fun c => parses_segment.times c.toNat
  refine hstring.of_bytes (fun s => ?_) fun a => ?_
  · have hcount : s.segments.length = (UInt8.ofNat s.segments.length).toNat := (UInt8.toNat_ofNat_of_lt s.fits).symm
    exact ⟨⟨⟨s.languageCode,UInt8.ofNat s.segments.length⟩,s.segments,hcount⟩,fun _ => rfl⟩
  · obtain ⟨⟨language,c⟩,segments,hsegments⟩ := a
    obtain ⟨rfl,hfits⟩ := count_eq hsegments
    exact ⟨⟨language,segments,hfits⟩,fun _ => rfl⟩

theorem atscTextValidate_spec (left xs right : List UInt8) :
    ∃ ok xs', atscTextValidate left.length xs.length (left ++ (xs ++ right)) = some (ok, left ++ (xs' ++ right)) ∧
      xs'.length = xs.length ∧ (ok.isSome ↔ IsTextField xs) ∧ (ok.isSome → xs' = xs) := by
  cases xs with
  | nil => exact ⟨some (),[],rfl,rfl,iff_of_true rfl (.inl rfl),fun _ => rfl⟩
  | cons count xs =>
    have hread : (left ++ (count :: xs ++ right))[left.length]? = some count := getElem?_behind left _ 0
    have hbuf : left ++ (count :: xs ++ right) = (left ++ [count]) ++ (xs ++ right) := (append_assoc _ [count] _).symm
    have hone : (left ++ [count]).length = left.length + 1 := length_append
    have hlen : (left ++ [count]).length + xs.length = left.length + (count :: xs).length := by
      rw [hone,length_cons]
      omega
    have hstrings : Parses (stringFormat.times count.toNat) (fun _ => True) (left.length + (count :: xs).length)
        (times count.toNat (validateString (left.length + (count :: xs).length))) := parses_string.times count.toNat
    have hpasses : atscTextValidate left.length (count :: xs).length = (look (·[left.length]?) >>= fun numberStrings =>
        times numberStrings.toNat (validateString (left.length + (count :: xs).length)) (left.length + 1) >>=
          fun _ => pure ()) := rfl
    -- what a run over the strings of a text gives
    have htakes : ∀ (text : AtscText) rest, count :: xs = text.bytes ++ rest →
        ∃ stop, times count.toNat (validateString (left.length + (count :: xs).length)) (left ++ [count]).length
          ((left ++ [count]) ++ (xs ++ right)) = some (some stop, (left ++ [count]) ++ (xs ++ right)) := by
      intro text rest heq
      injection heq with hcount hxs
      subst hcount hxs
      exact ⟨_,hstrings.takes ⟨text.strings,(UInt8.toNat_ofNat_of_lt text.fits).symm⟩ rest right trivial hlen⟩
    rw [hpasses,bind_look hread,hbuf,← hone]
    obtain ⟨strings,rest,hxs⟩ | ⟨xs',hlength,hrefused⟩ := hstrings.refuses xs right trivial hlen
    · obtain ⟨strings,hstringCount⟩ := strings
      obtain ⟨hcount,hfits⟩ := count_eq hstringCount
      have htext : count :: xs = AtscText.bytes ⟨strings,hfits⟩ ++ rest := by
        rw [hxs]
        exact congrArg (· :: (strings.flatMap AtscTextString.bytes ++ rest)) hcount.symm
      obtain ⟨stop,hrun⟩ := htakes _ _ htext
      refine ⟨some (),count :: xs,?_,rfl,iff_of_true rfl (.inr ⟨_,_,htext⟩),fun _ => rfl⟩
      rw [bind_of_some hrun,hbuf]
      rfl
    · refine ⟨none,count :: xs',?_,congrArg Nat.succ hlength,iff_of_false Bool.false_ne_true ?_,
        fun hok => absurd hok Bool.false_ne_true⟩
      · rw [bind_of_refused hrefused,append_assoc]
        rfl
      · rintro (hnil | ⟨text,rest,heq⟩)
        · cases hnil
        · obtain ⟨stop,hrun⟩ := htakes text rest heq
          rw [hrun] at hrefused
          cases hrefused

def textFormat (size : Nat) : Format { bytes : List UInt8 // bytes.length = size ∧ IsTextField bytes } :=
  ⟨fun _ t => t.val, fun _ => rfl⟩

def lengthTextFormat : Format AtscTextField := ⟨fun _ => AtscTextField.lengthBytes, fun _ => rfl⟩

theorem parses_text (size : Nat) : Parses (textFormat size) before len fun pos => checkText len pos size where
  takes := by
    intro left t rest right _ hlen
    obtain ⟨bytes,rfl,htext⟩ := t
    have hbytes : ∀ order, (textFormat bytes.length).bytes order ⟨bytes,rfl,htext⟩ = bytes := fun _ => rfl
    rw [hbytes,length_append] at hlen
    obtain ⟨ok,bytes',hrun,-,hok,hsame⟩ := atscTextValidate_spec left bytes (rest ++ right)
    obtain ⟨_,rfl⟩ := isSome_iff_exists.mp (hok.mpr htext)
    rw [hsame rfl,← append_assoc bytes] at hrun
    rw [hbytes,hbytes,checkText,bind_refuseIf_of_not (by omega),bind_of_some hrun]
    rfl
  refuses := by
    intro left todo right _ hlen
    by_cases hsize : size ≤ todo.length
    · obtain ⟨ok,bytes',hrun,hlength,hok,-⟩ := atscTextValidate_spec left (todo.take size) (todo.drop size ++ right)
      have htake : (todo.take size).length = size := by rw [length_take,Nat.min_eq_left hsize]
      rw [htake,← append_assoc (todo.take _),take_append_drop] at hrun
      by_cases htext : IsTextField (todo.take size)
      · exact .inl ⟨⟨todo.take size,htake,htext⟩,todo.drop size,(take_append_drop size todo).symm⟩
      · have hnone : ok = none := Option.not_isSome_iff_eq_none.mp fun h => htext (hok.mp h)
        subst hnone
        refine .inr ⟨bytes' ++ todo.drop size,?_,?_⟩
        · rw [length_append,hlength,htake,length_drop]
          omega
        · rw [checkText,bind_refuseIf_of_not (by omega),bind_of_refused hrun,append_assoc]
    · exact .inr ⟨todo,rfl,bind_refuseIf_of (by omega) _⟩

theorem parses_lengthText : Parses lengthTextFormat before len (checkLengthText len) := by
  have htext : Parses ((Format.blockByte 0).andThen fun a => textFormat a.2.toNat) before len (checkLengthText len) :=
    Parses.lastByte fun c => parses_text c.toNat
  refine htext.of_bytes (fun t => ?_) fun a => ?_
  · have hcount : t.bytes.length = (UInt8.ofNat t.bytes.length).toNat := (UInt8.toNat_ofNat_of_lt t.fits).symm
    exact ⟨⟨⟨⟨[],rfl⟩,UInt8.ofNat t.bytes.length⟩,t.bytes,hcount,t.isTextField⟩,fun _ => rfl⟩
  · obtain ⟨⟨⟨front,hfront⟩,c⟩,bytes,hbytes,htext⟩ := a
    obtain rfl := eq_nil_of_length_eq_zero hfront
    obtain ⟨rfl,hfits⟩ := count_eq hbytes
    exact ⟨⟨bytes,hfits,htext⟩,fun _ => rfl⟩

end Parsing

end LinuxDvb.Ucsi
