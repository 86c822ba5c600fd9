import LinuxDvb.Framework.Kernel
import LinuxDvb.Framework.Text

/-!
# Attribute memory of a CAM

`dvb_ca_en50221_parse_attributes` goes through the chain of tuples in the attribute memory of a CAM, and takes from it
where the configuration register is and what is written to it.
-/

namespace LinuxDvb.Cis

/-- What `read_attribute_mem` returns for an address: a byte, or an error below zero. -/
abbrev AttributeMem := Nat → { value : Int // value < 256 }

/-- Why a tuple is not parsed: with this status, by an access outside of it, or because the fuel is not enough. -/
inductive CisFault where
  | status (err : Int)
  | outside
  | hangs
deriving DecidableEq, Repr

/-- A tuple in the buffer; `next` is the address behind it. -/
structure Tuple where
  type : Nat
  bytes : List UInt8
  next : Nat
deriving DecidableEq, Repr

structure CamConfig where
  configBase : Nat
  configOption : UInt8
deriving DecidableEq, Repr

section Code

variable (mem : AttributeMem)

/-- An `int` that is stored in a `u8`. -/
def toU8 (value : Int) : UInt8 := UInt8.ofNat (value % 256).toNat

def readTuple (address : Nat) : Except CisFault Tuple :=
  let tupleType := (mem address).val
  if tupleType < 0 then .error (.status tupleType)
  else if tupleType = 0xff then .ok { type := 0xff, bytes := [], next := address + 2 }
  else
    let tupleLength := (mem (address + 2)).val
    if tupleLength < 0 then .error (.status tupleLength)
    else
      .ok
        { type := tupleType.toNat
          bytes := (List.range tupleLength.toNat).map fun i => toU8 (mem (address + 4 + i * 2)).val
          next := address + 4 + tupleLength.toNat * 2 }

/-- `tuple[i]` -/
def Tuple.get (t : Tuple) (i : Nat) : Except CisFault UInt8 :=
  match t.bytes[i]? with
  | some byte => .ok byte
  | none => .error .outside

/-- `!strncmp(haystack + i, needle, nlen)`, which reads up to the first difference. -/
def strncmpEq (haystack : List UInt8) : Nat → List UInt8 → Except CisFault Bool
  | _, [] => .ok true
  | i, c :: needle =>
    match haystack[i]? with
    | none => .error .outside
    | some byte =>
      if byte ≠ c then .ok false
      else if byte = 0 then .ok true
      else strncmpEq haystack (i + 1) needle

/-- The loop of `findstr`, for this many more positions from `i` on. -/
def findstrLoop (haystack needle : List UInt8) : Nat → Nat → Except CisFault (Option Nat)
  | 0, _ => .ok none
  | count + 1, i => do
    let equal ← strncmpEq haystack i needle
    if equal then return some i else findstrLoop haystack needle count (i + 1)

def findstr (haystack needle : List UInt8) : Except CisFault (Option Nat) :=
  if haystack.length < needle.length then .ok none
  else findstrLoop haystack needle (haystack.length - needle.length + 1) 0

def expectTuple (address type : Nat) : Except CisFault Tuple := do
  let t ← readTuple mem address
  if t.type ≠ type then throw (.status errInval) else return t

/-- The first `n` passes of the loop that puts `config_base` together. -/
def configBaseLoop (t : Tuple) : Nat → Except CisFault Nat
  | 0 => .ok 0
  | n + 1 => do
    let base ← configBaseLoop t n
    let byte ← t.get (2 + n)
    return base ||| byte.toNat <<< (8 * n)

/-- The manufacturer, the device, and the tuple for the configuration, behind the checks of the tuples in front of it. -/
def parseHead : Except CisFault (Nat × Nat × Tuple) := do
  let device0a ← expectTuple mem 0 0x1d
  let device0c ← expectTuple mem device0a.next 0x1c
  let vers1 ← expectTuple mem device0c.next 0x15
  let manfid ← expectTuple mem vers1.next 0x20
  if manfid.bytes.length ≠ 4 then throw (.status errInval)
  else
    let byte1 ← manfid.get 1
    let byte0 ← manfid.get 0
    let byte3 ← manfid.get 3
    let byte2 ← manfid.get 2
    let config ← expectTuple mem manfid.next 0x1a
    return (byte1.toNat <<< 8 ||| byte0.toNat, byte3.toNat <<< 8 ||| byte2.toNat, config)

def parseConfigBase (config : Tuple) : Except CisFault Nat :=
  if config.bytes.length < 3 then throw (.status errInval)
  else do
    let byte0 ← config.get 0
    let rasz := (byte0 &&& 3).toNat
    if config.bytes.length < 3 + rasz + 14 then throw (.status errInval)
    else configBaseLoop config (rasz + 1)

def checkVersion (config : Tuple) : Except CisFault Unit := do
  let found ← findstr config.bytes (bytes "DVB_CI_V")
  match found with
  | none => throw (.status errInval)
  | some dvbStr =>
    if config.bytes.length < dvbStr + 12 then throw (.status errInval)
    else
      let supported ← strncmpEq config.bytes (dvbStr + 8) (bytes "1.00")
      if supported then return () else throw (.status errInval)

structure EntryLoop where
  address : Nat
  gotCftableentry : Bool
  endChain : Bool
  slot : CamConfig

/-- A `CISTPL_CFTABLE_ENTRY`: whether it is the one that is used, and the slot. -/
def cftableEntry (t : Tuple) (got : Bool) (slot : CamConfig) : Except CisFault (Bool × CamConfig) :=
  if t.bytes.length < 2 + 11 + 17 then .ok (got, slot)
  else if got then .ok (got, slot)
  else do
    let byte0 ← t.get 0
    let slot := { slot with configOption := byte0 &&& 0x3f }
    let host ← findstr t.bytes (bytes "DVB_HOST")
    if host = none then return (got, slot)
    else
      let ciModule ← findstr t.bytes (bytes "DVB_CI_MODULE")
      if ciModule = none then return (got, slot) else return (true, slot)

/-- The `switch` in the loop. -/
def entryTuple (t : Tuple) (s : EntryLoop) : Except CisFault EntryLoop :=
  if t.type = 0x1b then do
    let r ← cftableEntry t s.gotCftableentry s.slot
    return { s with address := t.next, gotCftableentry := r.1, slot := r.2 }
  else if t.type = 0xff then .ok { s with address := t.next, endChain := true }
  else .ok { s with address := t.next }

/-- The loop over the `CFTABLE_ENTRY` tuples and any after those. -/
def entriesLoop : Nat → EntryLoop → EntryLoop × Option CisFault
  | 0, s => (s, some .hangs)
  | fuel + 1, s =>
    if !s.endChain && s.address < 0x1000 then
      match readTuple mem s.address with
      | .error fault => (s, some fault)
      | .ok t =>
        match entryTuple t s with
        | .error fault => (s, some fault)
        | .ok s => entriesLoop fuel s
    else (s, none)

/-- `dvb_ca_en50221_parse_attributes`: the slot, and the manufacturer and the device of a DVB CAM. -/
def parseAttributes (slot : CamConfig) : CamConfig × Except CisFault (Nat × Nat) :=
  match parseHead mem with
  | .error fault => (slot, .error fault)
  | .ok (manfid, devid, config) =>
    match parseConfigBase config with
    | .error fault => (slot, .error fault)
    | .ok base =>
      let slot := { slot with configBase := base }
      match checkVersion config with
      | .error fault => (slot, .error fault)
      | .ok () =>
        let r := entriesLoop mem 0x1001
          { address := config.next, gotCftableentry := false, endChain := false, slot := slot }
        match r.2 with
        | some fault => (r.1.slot, .error fault)
        | none =>
          if r.1.address > 0x1000 ∨ r.1.gotCftableentry = false then (r.1.slot, .error (.status errInval))
          else (r.1.slot, .ok (manfid, devid))

end Code

inductive TupleChain (mem : AttributeMem) : Nat → List Tuple → Prop
  | nil (address : Nat) : TupleChain mem address []
  | cons {address : Nat} {t : Tuple} {ts : List Tuple} (hread : readTuple mem address = .ok t)
      (hrest : TupleChain mem t.next ts) : TupleChain mem address (t :: ts)

def littleEndian : List UInt8 → Nat
  | [] => 0
  | byte :: rest => byte.toNat + 256 * littleEndian rest

def Tuple.configBase (t : Tuple) : Nat :=
  littleEndian ((t.bytes.drop 2).take (((t.bytes.getD 0 0) &&& 3).toNat + 1))

/-- A table entry that is long enough for the strings of a DVB CAM, and has them. -/
structure IsDvbEntry (t : Tuple) : Prop where
  type : t.type = 0x1b
  long : 2 + 11 + 17 ≤ t.bytes.length
  host : bytes "DVB_HOST" <:+: t.bytes
  ciModule : bytes "DVB_CI_MODULE" <:+: t.bytes

structure Parsed (mem : AttributeMem) (slot : CamConfig) (config : Tuple) (before : List Tuple) (entry : Tuple) : Prop where
  chain : ∃ device0a device0c vers1 manfid,
    TupleChain mem 0 (device0a :: device0c :: vers1 :: manfid :: config :: (before ++ [entry])) ∧
      device0a.type = 0x1d ∧ device0c.type = 0x1c ∧ vers1.type = 0x15 ∧ manfid.type = 0x20 ∧ config.type = 0x1a
  inside : ((config.bytes.getD 0 0) &&& 3).toNat + 17 ≤ config.bytes.length
  configBase : slot.configBase = config.configBase
  first : ∀ t ∈ before, ¬ IsDvbEntry t
  selected : IsDvbEntry entry
  configOption : slot.configOption = entry.bytes.getD 0 0 &&& 0x3f

/-- A part of the parser makes no access outside of a tuple and ends; its result has `q`, or its status is an error. -/
def Sound {α : Type} (m : Except CisFault α) (q : α → Prop) : Prop :=
  match m with
  | .ok a => q a
  | .error (.status err) => err < 0
  | .error _ => False

section Rules

variable {α β : Type} {q : α → Prop} {r : β → Prop}

theorem sound_pure {a : α} (h : q a) : Sound (pure a) q := h

theorem sound_refused : Sound (throw (.status errInval) : Except CisFault α) q := show errInval < 0 by decide

variable {m : Except CisFault α}

theorem Sound.bind {rest : α → Except CisFault β} (h : Sound m q)
    (hrest : ∀ a, q a → Sound (rest a) r) : Sound (m >>= rest) r := by
  cases m with
  | ok a => exact hrest a h
  | error fault => cases fault <;> exact h

theorem Sound.mono {q' : α → Prop} (h : Sound m q) (hq : ∀ a, q a → q' a) : Sound m q' := by
  cases m with
  | ok a => exact hq a h
  | error fault => cases fault <;> exact h

theorem Sound.of_ok {a : α} (h : Sound m q) (hm : m = .ok a) : q a := by
  subst hm
  exact h

theorem Sound.of_error {fault : CisFault} (h : Sound m q) (hm : m = .error fault) :
    ∃ err, fault = .status err ∧ err < 0 := by
  subst hm
  cases fault with
  | status err => exact ⟨err,rfl,h⟩
  | outside => exact h.elim
  | hangs => exact h.elim

end Rules

section Parts

variable {mem : AttributeMem}

theorem readTuple_sound (address : Nat) : Sound (readTuple mem address) fun t =>
    readTuple mem address = .ok t ∧ t.bytes.length ≤ 255 ∧ address + 2 ≤ t.next := by
  have hlength := (mem (address + 2)).property
  have hsound : ∀ t, readTuple mem address = .ok t → t.bytes.length ≤ 255 ∧ address + 2 ≤ t.next := by
    intro t ht
    unfold readTuple at ht
    dsimp only at ht
    split at ht
    · cases ht
    · split at ht
      · cases ht
        exact ⟨Nat.zero_le _,Nat.le_refl _⟩
      · split at ht
        · cases ht
        · cases ht
          dsimp only
          rw [length_map,length_range]
          omega
  have herror : ∀ fault, readTuple mem address = .error fault → ∃ err, fault = .status err ∧ err < 0 := by
    intro fault hfault
    unfold readTuple at hfault
    dsimp only at hfault
    split at hfault
    case isTrue htype =>
      cases hfault
      exact ⟨_,rfl,htype⟩
    case isFalse =>
      split at hfault
      · cases hfault
      · split at hfault
        case isTrue hneg =>
          cases hfault
          exact ⟨_,rfl,hneg⟩
        case isFalse => cases hfault
  cases hread : readTuple mem address with
  | ok t => exact ⟨rfl,hsound t hread⟩
  | error fault =>
    obtain ⟨err,rfl,herr⟩ := herror fault hread
    exact herr

variable {t : Tuple}

theorem get_sound {i : Nat} (h : i < t.bytes.length) : Sound (t.get i) fun byte => byte = t.bytes.getD i 0 := by
  rw [Tuple.get,getElem?_eq_getElem h,getD_eq_getElem?_getD,getElem?_eq_getElem h]
  exact rfl

theorem expectTuple_sound (address type : Nat) : Sound (expectTuple mem address type) fun t =>
    readTuple mem address = .ok t ∧ t.type = type := by
  refine (readTuple_sound address).bind fun t ht => ?_
  split
  case isTrue => exact sound_refused
  case isFalse htype => exact sound_pure ⟨ht.1,not_not.mp htype⟩

variable {haystack needle : List UInt8}

theorem strncmpEq_eq {i : Nat} (hzero : 0 ∉ needle) (hinside : i + needle.length ≤ haystack.length) :
    strncmpEq haystack i needle = .ok (decide (needle <+: haystack.drop i)) := by
  induction needle generalizing i with
  | nil => simp [strncmpEq]
  | cons c needle ih =>
    rw [mem_cons,not_or] at hzero
    rw [length_cons] at hinside
    have hi : i < haystack.length := by omega
    have hdrop : haystack.drop i = haystack[i] :: haystack.drop (i + 1) := List.drop_eq_getElem_cons hi
    rw [strncmpEq,getElem?_eq_getElem hi,hdrop]
    simp only [List.cons_prefix_cons]
    by_cases hc : haystack[i] = c
    · have hbyte : haystack[i] ≠ 0 := fun h => hzero.1 (h.symm.trans hc)
      rw [if_neg (not_not_intro hc),if_neg hbyte,ih hzero.2 (by omega)]
      simp [hc]
    · rw [if_pos hc]
      simp [Ne.symm hc]

theorem findstrLoop_sound (hzero : 0 ∉ needle) (count i : Nat)
    (hinside : i + count + needle.length ≤ haystack.length + 1) :
    Sound (findstrLoop haystack needle count i) fun found =>
      (∀ k ∈ found, k + needle.length ≤ haystack.length ∧ needle <+: haystack.drop k) ∧
        (found = none → ∀ k, i ≤ k → k < i + count → ¬ needle <+: haystack.drop k) := by
  induction count generalizing i with
  | zero => exact ⟨fun k hk => absurd hk (by simp),fun _ k hle hlt => absurd hlt (by omega)⟩
  | succ count ih =>
    rw [findstrLoop,strncmpEq_eq hzero (by omega)]
    change Sound (if decide (needle <+: haystack.drop i) = true then pure (some i)
      else findstrLoop haystack needle count (i + 1)) _
    by_cases hhere : needle <+: haystack.drop i
    · rw [if_pos (decide_eq_true hhere)]
      refine sound_pure ⟨fun k hk => ?_,fun hnone => absurd hnone (by simp)⟩
      cases hk
      exact ⟨by omega,hhere⟩
    · rw [if_neg (by simpa using hhere)]
      refine (ih (i + 1) (by omega)).mono fun found hrest => ⟨hrest.1,fun heq k hle hlt => ?_⟩
      cases Nat.eq_or_lt_of_le hle with
      | inl hk => exact hk ▸ hhere
      | inr hk => exact hrest.2 heq k hk (by omega)

theorem findstr_sound (hzero : 0 ∉ needle) : Sound (findstr haystack needle) fun found =>
      (∀ k ∈ found, k + needle.length ≤ haystack.length ∧ needle <+: haystack.drop k) ∧
        (found = none ↔ ¬ needle <:+: haystack) := by
  have hsubstring : ∀ k, needle <+: haystack.drop k → needle <:+: haystack := fun k hk =>
    hk.isInfix.trans (List.drop_suffix k haystack).isInfix
  have hsome : ∀ found : Option Nat, (∀ k ∈ found, needle <+: haystack.drop k) → ¬ needle <:+: haystack → found = none := by
    intro found hfound hnot
    cases found with
    | none => rfl
    | some k => exact absurd (hsubstring k (hfound k rfl)) hnot
  unfold findstr
  split
  case isTrue hshort =>
    refine ⟨fun k hk => absurd hk (by simp),iff_of_true rfl fun h => ?_⟩
    have hlength := h.length_le
    omega
  case isFalse hlong =>
    refine (findstrLoop_sound hzero (haystack.length - needle.length + 1) 0 (by omega)).mono fun found hloop => ?_
    obtain ⟨hfound,hnone⟩ := hloop
    refine ⟨hfound,fun h hhas => ?_,hsome found fun k hk => (hfound k hk).2⟩
    obtain ⟨left,right,hsplit⟩ := hhas
    have hlength := congrArg List.length hsplit
    rw [length_append,length_append] at hlength
    have hlt : left.length < 0 + (haystack.length - needle.length + 1) := by omega
    refine hnone h left.length (Nat.zero_le _) hlt ⟨right,?_⟩
    rw [← hsplit,append_assoc,drop_left]

theorem littleEndian_append_singleton (xs : List UInt8) (byte : UInt8) :
    littleEndian (xs ++ [byte]) = littleEndian xs + byte.toNat * 2 ^ (8 * xs.length) := by
  induction xs with
  | nil => simp [littleEndian]
  | cons x xs ih =>
    have hpow : 2 ^ (8 * (xs.length + 1)) = 256 * 2 ^ (8 * xs.length) := by
      rw [Nat.mul_add,Nat.pow_add,Nat.mul_comm]
    rw [cons_append,littleEndian,littleEndian,ih,length_cons,hpow,Nat.mul_add,Nat.add_assoc]
    congr 2
    rw [← Nat.mul_assoc,← Nat.mul_assoc,Nat.mul_comm 256]

theorem littleEndian_lt (xs : List UInt8) : littleEndian xs < 2 ^ (8 * xs.length) := by
  induction xs with
  | nil => exact Nat.zero_lt_one
  | cons x xs ih =>
    have hx := x.toNat_lt
    have hpow : 2 ^ (8 * (xs.length + 1)) = 256 * 2 ^ (8 * xs.length) := by
      rw [Nat.mul_add,Nat.pow_add,Nat.mul_comm]
    rw [littleEndian,length_cons,hpow]
    omega

theorem configBaseLoop_sound {n : Nat} (h : 2 + n ≤ t.bytes.length) :
    Sound (configBaseLoop t n) fun base => base = littleEndian ((t.bytes.drop 2).take n) := by
  induction n with
  | zero => exact rfl
  | succ n ih =>
    refine (ih (by omega)).bind fun base hbase => (get_sound (by omega)).bind fun byte hbyte => sound_pure ?_
    have hn : n < (t.bytes.drop 2).length := by
      rw [length_drop]
      omega
    have hlength : ((t.bytes.drop 2).take n).length = n := by
      rw [length_take]
      omega
    have hlast : (t.bytes.drop 2)[n] = byte := by
      rw [List.getElem_drop,hbyte,getD_eq_getElem?_getD,getElem?_eq_getElem (by omega)]
      rfl
    have hlow : base < 2 ^ (8 * n) := by
      have hlt := littleEndian_lt ((t.bytes.drop 2).take n)
      rwa [hlength,← hbase] at hlt
    rw [List.take_succ_eq_append_getElem hn,hlast,littleEndian_append_singleton,hlength,← hbase,Nat.or_comm,
      ← Nat.shiftLeft_add_eq_or_of_lt hlow,Nat.shiftLeft_eq,Nat.add_comm]

theorem parseHead_sound : Sound (parseHead mem) fun r =>
    ∃ device0a device0c vers1 manfid, TupleChain mem 0 [device0a, device0c, vers1, manfid, r.2.2] ∧
      device0a.type = 0x1d ∧ device0c.type = 0x1c ∧ vers1.type = 0x15 ∧ manfid.type = 0x20 ∧ r.2.2.type = 0x1a := by
  refine (expectTuple_sound 0 _).bind fun device0a ha => (expectTuple_sound _ _).bind fun device0c hc =>
    (expectTuple_sound _ _).bind fun vers1 hv => (expectTuple_sound _ _).bind fun manfid hm => ?_
  split
  case isTrue => exact sound_refused
  case isFalse hlength =>
    have hfour : manfid.bytes.length = 4 := not_not.mp hlength
    refine (get_sound (by omega)).bind fun byte1 _ => (get_sound (by omega)).bind fun byte0 _ =>
      (get_sound (by omega)).bind fun byte3 _ => (get_sound (by omega)).bind fun byte2 _ =>
      (expectTuple_sound _ _).bind fun config hconfig => sound_pure ⟨device0a,device0c,vers1,manfid,?_⟩
    exact ⟨.cons ha.1 (.cons hc.1 (.cons hv.1 (.cons hm.1 (.cons hconfig.1 (.nil _))))),ha.2,hc.2,hv.2,hm.2,hconfig.2⟩

theorem parseConfigBase_sound (config : Tuple) : Sound (parseConfigBase config) fun base =>
    ((config.bytes.getD 0 0) &&& 3).toNat + 17 ≤ config.bytes.length ∧ base = config.configBase := by
  unfold parseConfigBase
  split
  case isTrue => exact sound_refused
  case isFalse hthree =>
    refine (get_sound (by omega)).bind fun byte0 hbyte => ?_
    dsimp only
    split
    case isTrue => exact sound_refused
    case isFalse hlong =>
      rw [hbyte] at hlong ⊢
      exact (configBaseLoop_sound (by omega)).mono fun base hbase => ⟨by omega,hbase⟩

theorem checkVersion_sound (config : Tuple) : Sound (checkVersion config) fun _ => True := by
  have hversion : 0 ∉ bytes "DVB_CI_V" := by decide
  have hsupported : 0 ∉ bytes "1.00" := by decide
  have hlength : (bytes "1.00").length = 4 := by decide
  refine (findstr_sound hversion).bind fun found hfound => ?_
  split
  case h_1 => exact sound_refused
  case h_2 dvbStr _ =>
    split
    case isTrue => exact sound_refused
    case isFalse hlong =>
      rw [strncmpEq_eq hsupported (by rw [hlength]; omega)]
      change Sound (if _ then _ else _) _
      split
      · trivial
      · exact sound_refused

theorem cftableEntry_sound (htype : t.type = 0x1b) (got : Bool) (slot : CamConfig) :
    Sound (cftableEntry t got slot) fun r =>
      (got = true → r = (true, slot)) ∧ r.2.configBase = slot.configBase ∧
        (got = false → (r.1 = true ↔ IsDvbEntry t) ∧ (r.1 = true → r.2.configOption = t.bytes.getD 0 0 &&& 0x3f)) := by
  have hhostZero : 0 ∉ bytes "DVB_HOST" := by decide
  have hmoduleZero : 0 ∉ bytes "DVB_CI_MODULE" := by decide
  unfold cftableEntry
  split
  case isTrue hshort =>
    refine ⟨fun h => by rw [h],rfl,fun h => ⟨?_,fun hgot => absurd hgot (by simp [h])⟩⟩
    exact iff_of_false (by simp [h]) fun hentry => Nat.not_lt.mpr hentry.long hshort
  case isFalse hlong =>
    cases got with
    | true => exact ⟨fun _ => rfl,rfl,fun h => by cases h⟩
    | false =>
      rw [if_neg Bool.false_ne_true]
      refine (get_sound (by omega)).bind fun byte0 hbyte => (findstr_sound hhostZero).bind fun host hhost => ?_
      split
      case isTrue hnone =>
        refine ⟨(fun h => by cases h),rfl,fun _ => ⟨?_,(fun h => by cases h)⟩⟩
        exact iff_of_false Bool.false_ne_true fun hentry => hhost.2.mp hnone hentry.host
      case isFalse hsome =>
        have hhas : bytes "DVB_HOST" <:+: t.bytes := by
          by_contra hnot
          exact hsome (hhost.2.mpr hnot)
        refine (findstr_sound hmoduleZero).bind fun ciModule hmodule => ?_
        split
        case isTrue hnone =>
          refine ⟨(fun h => by cases h),rfl,fun _ => ⟨?_,(fun h => by cases h)⟩⟩
          exact iff_of_false Bool.false_ne_true fun hentry => hmodule.2.mp hnone hentry.ciModule
        case isFalse hsome' =>
          have hboth : bytes "DVB_CI_MODULE" <:+: t.bytes := by
            by_contra hnot
            exact hsome' (hmodule.2.mpr hnot)
          refine ⟨(fun h => by cases h),rfl,fun _ => ⟨iff_of_true rfl ⟨htype,Nat.not_lt.mp hlong,hhas,hboth⟩,fun _ => ?_⟩⟩
          exact congrArg (· &&& 0x3f) hbyte

theorem entryTuple_sound (t : Tuple) (s : EntryLoop) : Sound (entryTuple t s) fun s' =>
    s'.address = t.next ∧ s'.slot.configBase = s.slot.configBase ∧
      (s.gotCftableentry = true → s'.gotCftableentry = true ∧ s'.slot = s.slot) ∧
      (s.gotCftableentry = false → (s'.gotCftableentry = true ↔ IsDvbEntry t) ∧
        (s'.gotCftableentry = true → s'.slot.configOption = t.bytes.getD 0 0 &&& 0x3f)) := by
  have hother : t.type ≠ 0x1b → s.gotCftableentry = false →
      (s.gotCftableentry = true ↔ IsDvbEntry t) ∧
        (s.gotCftableentry = true → s.slot.configOption = t.bytes.getD 0 0 &&& 0x3f) := by
    intro htype hgot
    exact ⟨iff_of_false (by simp [hgot]) fun hentry => htype hentry.type,fun h => absurd h (by simp [hgot])⟩
  unfold entryTuple
  split
  case isTrue htype =>
    refine (cftableEntry_sound htype _ _).bind fun r hr => sound_pure ⟨rfl,hr.2.1,fun hgot => ?_,hr.2.2⟩
    rw [hr.1 hgot]
    exact ⟨rfl,rfl⟩
  case isFalse htype =>
    split
    · exact ⟨rfl,rfl,fun h => ⟨h,rfl⟩,hother htype⟩
    · exact ⟨rfl,rfl,fun h => ⟨h,rfl⟩,hother htype⟩

/-- What the loop has done when it ends: it went on without a look at the entries, or found the first DVB entry. -/
structure EntriesRead (mem : AttributeMem) (s s' : EntryLoop) : Prop where
  configBase : s'.slot.configBase = s.slot.configBase
  kept : s.gotCftableentry = true → s'.slot = s.slot
  found : s.gotCftableentry = false → s'.gotCftableentry = true → ∃ before entry,
    TupleChain mem s.address (before ++ [entry]) ∧ (∀ t ∈ before, ¬ IsDvbEntry t) ∧ IsDvbEntry entry ∧
      s'.slot.configOption = entry.bytes.getD 0 0 &&& 0x3f

theorem EntriesRead.refl (s : EntryLoop) : EntriesRead mem s s :=
  ⟨rfl, fun _ => rfl, fun hnot hgot => absurd hgot (by simp [hnot])⟩

theorem entriesLoop_spec (fuel : Nat) (s : EntryLoop) (hfuel : 0 < fuel) (henough : 0x1000 < fuel + s.address) :
    (∀ fault, (entriesLoop mem fuel s).2 = some fault → ∃ err, fault = .status err ∧ err < 0) ∧
      EntriesRead mem s (entriesLoop mem fuel s).1 := by
  induction fuel generalizing s with
  | zero => exact absurd hfuel (Nat.lt_irrefl 0)
  | succ fuel ih =>
    rw [entriesLoop]
    by_cases hgoes : (!s.endChain && decide (s.address < 0x1000)) = true
    · rw [if_pos hgoes]
      have hinside : s.address < 0x1000 := of_decide_eq_true (Bool.and_eq_true_iff.mp hgoes).2
      have hread : Sound (readTuple mem s.address) _ := readTuple_sound s.address
      cases hr : readTuple mem s.address with
      | error fault =>
        refine ⟨fun fault' h => ?_,.refl s⟩
        cases h
        exact hread.of_error hr
      | ok t =>
        have htuple := entryTuple_sound t s
        dsimp only
        cases ht : entryTuple t s with
        | error fault =>
          refine ⟨fun fault' h => ?_,.refl s⟩
          cases h
          exact htuple.of_error ht
        | ok s' =>
          obtain ⟨haddress,hbase,hkept,hfound⟩ := htuple.of_ok ht
          have hforward := (hread.of_ok hr).2.2
          obtain ⟨hfaults,hrest⟩ := ih s' (by omega) (by omega)
          refine ⟨hfaults,hrest.configBase.trans hbase,fun hgot => ?_,fun hnot hgot => ?_⟩
          · obtain ⟨hgot',hslot⟩ := hkept hgot
            exact (hrest.kept hgot').trans hslot
          · obtain ⟨hentry,hoption⟩ := hfound hnot
            cases hgot' : s'.gotCftableentry with
            | true =>
              refine ⟨[],t,.cons hr (.nil _),by simp,hentry.mp hgot',?_⟩
              rw [hrest.kept hgot']
              exact hoption hgot'
            | false =>
              obtain ⟨before,entry,hchain,hbefore,hselected,hoption'⟩ := hrest.found hgot' hgot
              refine ⟨t :: before,entry,.cons hr (haddress ▸ hchain),?_,hselected,hoption'⟩
              refine forall_mem_cons.mpr ⟨fun h => ?_,hbefore⟩
              rw [hentry.mpr h] at hgot'
              cases hgot'
    · rw [if_neg hgoes]
      exact ⟨fun fault h => (by cases h),.refl s⟩

theorem TupleChain.append {address : Nat} {ts us : List Tuple} {last : Tuple}
    (h : TupleChain mem address (ts ++ [last])) (hrest : TupleChain mem last.next us) :
    TupleChain mem address (ts ++ last :: us) := by
  induction ts generalizing address with
  | nil =>
    cases h with
    | cons hread hnil => exact .cons hread hrest
  | cons t ts ih =>
    cases h with
    | cons hread htail => exact .cons hread (ih htail)

end Parts

/-- Parsing ends, all accesses are inside the tuple in the buffer, which has at most 255 bytes, and if a DVB CAM is found,
its configuration is the one of the tuples. -/
theorem parseAttributes_spec (mem : AttributeMem) (slot : CamConfig) :
    (∀ fault, (parseAttributes mem slot).2 = .error fault → ∃ err, fault = .status err ∧ err < 0) ∧
      (∀ address t, readTuple mem address = .ok t → t.bytes.length ≤ 255) ∧
      (∀ ids, (parseAttributes mem slot).2 = .ok ids →
        ∃ config before entry, Parsed mem (parseAttributes mem slot).1 config before entry) := by
  have hsize : ∀ address t, readTuple mem address = .ok t → t.bytes.length ≤ 255 := fun address t h =>
    ((readTuple_sound address).of_ok h).2.1
  have hrefuses : ∀ fault : CisFault, (∃ err, fault = .status err ∧ err < 0) →
      ∀ fault', (Except.error fault : Except CisFault (Nat × Nat)) = .error fault' →
        ∃ err, fault' = .status err ∧ err < 0 := by
    intro fault h fault' heq
    cases heq
    exact h
  have hhead : Sound (parseHead mem) _ := parseHead_sound
  unfold parseAttributes
  cases heq : parseHead mem with
  | error fault => exact ⟨hrefuses fault (hhead.of_error heq), hsize, fun ids h => by cases h⟩
  | ok r =>
    obtain ⟨manfid, devid, config⟩ := r
    obtain ⟨device0a, device0c, vers1, manfidTuple, hchain, ha, hc, hv, hm, hconfig⟩ := hhead.of_ok heq
    have hbase := parseConfigBase_sound config
    dsimp only at hchain hconfig ⊢
    cases heq' : parseConfigBase config with
    | error fault => exact ⟨hrefuses fault (hbase.of_error heq'), hsize, fun ids h => by cases h⟩
    | ok base =>
      obtain ⟨hinside, hbase⟩ := hbase.of_ok heq'
      have hversion := checkVersion_sound config
      dsimp only
      cases heq'' : checkVersion config with
      | error fault => exact ⟨hrefuses fault (hversion.of_error heq''), hsize, fun ids h => by cases h⟩
      | ok _ =>
        obtain ⟨hfaults, hentries⟩ := @entriesLoop_spec mem 0x1001
          { address := config.next, gotCftableentry := false, endChain := false,
            slot := { slot with configBase := base } } (by decide) (by dsimp only; omega)
        dsimp only
        generalize entriesLoop mem 0x1001
          { address := config.next, gotCftableentry := false, endChain := false,
            slot := { slot with configBase := base } } = r at hfaults hentries
        obtain ⟨s', fault⟩ := r
        cases fault with
        | some fault => exact ⟨hrefuses fault (hfaults fault rfl), hsize, fun ids h => by cases h⟩
        | none =>
          dsimp only at hentries ⊢
          split
          · exact ⟨hrefuses _ ⟨errInval, rfl, by decide⟩, hsize, fun ids h => by cases h⟩
          case isFalse hok =>
            refine ⟨(fun fault h => by cases h), hsize, fun ids _ => ?_⟩
            have hgot : s'.gotCftableentry = true := by
              rw [not_or, Bool.not_eq_false] at hok
              exact hok.2
            obtain ⟨before, entry, hrest, hbefore, hselected, hoption⟩ := hentries.found rfl hgot
            refine ⟨config, before, entry, ⟨device0a, device0c, vers1, manfidTuple, ?_, ha, hc, hv, hm, hconfig⟩, hinside, ?_,
              hbefore, hselected, hoption⟩
            · have hfirst : TupleChain mem 0 ([device0a, device0c, vers1, manfidTuple] ++ [config]) := hchain
              exact hfirst.append hrest
            · exact hentries.configBase.trans hbase

/-- An attribute memory with these bytes at its even addresses, and the end of the chain behind them. -/
def memoryOf (bytes : List UInt8) : AttributeMem := fun address =>
  ⟨((bytes.getD (address / 2) 0xff).toNat : Int), by
    have h := (bytes.getD (address / 2) 0xff).toNat_lt
    omega⟩

def camTuples : List UInt8 :=
  [0x1d, 0, 0x1c, 0, 0x15, 0, 0x20, 4, 1, 2, 3, 4, 0x1a, 17, 0, 0, 0x40] ++ bytes "DVB_CI_V1.00" ++ [0, 0]

/-- A table entry with this option that has the strings, and `n` more bytes. -/
def dvbEntry (option : UInt8) (n : Nat) : List UInt8 :=
  [0x1b, UInt8.ofNat (22 + n), option] ++ bytes "DVB_HOST" ++ bytes "DVB_CI_MODULE" ++ List.replicate n 0

def shortEntryCam : AttributeMem := memoryOf (camTuples ++ dvbEntry 1 0 ++ dvbEntry 2 8)

def shortEntryHead : List Tuple :=
  [{ type := 0x1d, bytes := [], next := 4 }, { type := 0x1c, bytes := [], next := 8 }, { type := 0x15, bytes := [], next := 12 },
    { type := 0x20, bytes := [1, 2, 3, 4], next := 24 },
    { type := 0x1a, bytes := [0, 0, 0x40] ++ bytes "DVB_CI_V1.00" ++ [0, 0], next := 62 }]

/-- An entry that has the strings is passed over if it is shorter than 30 bytes: the option is not the one of the first
entry that has them. -/
theorem parseAttributes_short_entry :
    ∃ before entry, TupleChain shortEntryCam 0 (before ++ [entry]) ∧ (∀ t ∈ before, t.type ≠ 0x1b) ∧
      entry.type = 0x1b ∧ bytes "DVB_HOST" <:+: entry.bytes ∧ bytes "DVB_CI_MODULE" <:+: entry.bytes ∧
      parseAttributes shortEntryCam { configBase := 0, configOption := 0 } =
        ({ configBase := 0x40, configOption := 2 }, .ok (0x0201, 0x0403)) ∧
      entry.bytes.getD 0 0 &&& 0x3f = 1 := by
  refine ⟨shortEntryHead, { type := 0x1b, bytes := [1] ++ bytes "DVB_HOST" ++ bytes "DVB_CI_MODULE", next := 110 }, ?_, ?_⟩
  · refine .cons ?_ (.cons ?_ (.cons ?_ (.cons ?_ (.cons ?_ (.cons ?_ (.nil _))))))
    all_goals decide +kernel
  · decide +kernel

end LinuxDvb.Cis
