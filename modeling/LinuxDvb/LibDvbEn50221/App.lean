import LinuxDvb.Framework.BlockChains
import LinuxDvb.LibDvbEn50221.Asn1

/-!
# Application resources

What the resources of the host have in common: a resource parses the APDUs that come in on its sessions and tells the
application by callbacks.
-/

namespace LinuxDvb.En50221

/-- What a call prints, tells the application, and gives to the send functions. A callback with its argument
is known by a number. -/
inductive AppEvent (α : Type) where
  | print (format : String) (values : List Nat)
  | callback (callback : Nat) (slotId : UInt8) (sessionNumber : UInt16) (args : α)
  | send (sessionNumber : UInt16) (data : List UInt8)
  deriving DecidableEq

inductive AppOutcome (σ α : Type) where
  | returned (state : σ) (result : Int) (events : List (AppEvent α))
  /-- The call waits for a lock that is held. -/
  | blocks
  | undefined

/-- What a call meets: the result of the callback and of the send function, and the memory there is. -/
structure AppIo where
  callback : Int
  send : Int
  alloc : Allocation
  deriving DecidableEq

abbrev Refusal := String × List Nat

def receivedShortData : Refusal := ("Received short data\n", [])

def asn1DecodeError : Refusal := ("ASN.1 decode error\n", [])

def ranOutOfMemory : Refusal := ("Ran out of memory\n", [])

namespace AppOutcome

variable {σ α β : Type}

def stateFrom (old : σ) : AppOutcome σ α → σ
  | returned state _ _ => state
  | _ => old

def events : AppOutcome σ α → List (AppEvent α)
  | returned _ _ events => events
  | _ => []

def refuse (s : σ) (r : Refusal) : AppOutcome σ α := .returned s (-1) [.print r.1 r.2]

def parsed (s : σ) (p : Except Refusal β) (next : β → AppOutcome σ α) : AppOutcome σ α :=
  match p with
  | .error r => refuse s r
  | .ok b => next b

theorem parsed_ite (s : σ) (c : Prop) [Decidable c] (p q : Except Refusal β) (next : β → AppOutcome σ α) :
    parsed s (if c then p else q) next = if c then parsed s p next else parsed s q next := by
  split <;> rfl

/-- `pthread_mutex_lock` and what is done after it. -/
def withLock (locked : Bool) (next : AppOutcome σ α) : AppOutcome σ α :=
  if locked then .blocks else next

def tell (s : σ) (callback : Option Nat) (slotId : UInt8) (sessionNumber : UInt16) (args : α) (status : Int) :
    AppOutcome σ α :=
  match callback with
  | none => .returned s 0 []
  | some cb => .returned s status [.callback cb slotId sessionNumber args]

end AppOutcome

/-- `a - b` in `uint32_t`. -/
def subU32 (a b : Nat) : Nat := (a + lengthModulus - b % lengthModulus) % lengthModulus

theorem subU32_of_le {a b : Nat} (h : b ≤ a) (ha : a < lengthModulus) : subU32 a b = a - b := by
  unfold subU32
  rw [Nat.mod_eq_of_lt (Nat.lt_of_le_of_lt h ha),show a + lengthModulus - b = a - b + lengthModulus by omega,
    Nat.add_mod_right,Nat.mod_eq_of_lt (by omega)]

def takeTag : List UInt8 → Option (Nat × List UInt8)
  | b₁ :: b₂ :: b₃ :: rest => some (b₁.toNat <<< 16 ||| b₂.toNat <<< 8 ||| b₃.toNat, rest)
  | _ => none

def tagBytes (tag : Nat) : List UInt8 := [UInt8.ofNat (tag >>> 16), UInt8.ofNat (tag >>> 8), UInt8.ofNat tag]

theorem eq_tagBytes {b₁ b₂ b₃ : UInt8} {tag : Nat} (h : b₁.toNat <<< 16 ||| b₂.toNat <<< 8 ||| b₃.toNat = tag) :
    [b₁, b₂, b₃] = tagBytes tag := by
  have hsum : b₁.toNat <<< 16 ||| b₂.toNat <<< 8 ||| b₃.toNat =
      65536 * b₁.toNat + 256 * b₂.toNat + b₃.toNat := by
    have hb₃ : b₃.toNat < 2 ^ 8 := b₃.toNat_lt
    have hb₂ : b₂.toNat < 2 ^ 8 := b₂.toNat_lt
    rw [Nat.or_assoc,Nat.shiftLeft_eq,Nat.shiftLeft_eq,Nat.mul_comm b₂.toNat,
      ← Nat.two_pow_add_eq_or_of_lt hb₃,Nat.mul_comm b₁.toNat,← Nat.two_pow_add_eq_or_of_lt (by omega)]
    omega
  have hb₁ := b₁.toNat_lt
  have hb₂ := b₂.toNat_lt
  have hb₃ := b₃.toNat_lt
  rw [hsum] at h
  unfold tagBytes
  congr 1
  · apply UInt8.toNat_inj.mp
    rw [UInt8.toNat_ofNat',Nat.shiftRight_eq_div_pow]
    omega
  congr 1
  · apply UInt8.toNat_inj.mp
    rw [UInt8.toNat_ofNat',Nat.shiftRight_eq_div_pow]
    omega
  congr 1
  apply UInt8.toNat_inj.mp
  rw [UInt8.toNat_ofNat']
  omega

/-- `asn_1_decode` on the bytes that are there, which it never leaves: the number of bytes used and the
length. -/
def decodeLength (data : List UInt8) : Option (Nat × Nat) := (asn1Decode data data.length).join

/-- The length field is decoded and checked: as many bytes as it says, from behind it on, and the rest. -/
def splitBody (data : List UInt8) : Except Refusal (List UInt8 × List UInt8) :=
  match decodeLength data with
  | none => .error asn1DecodeError
  | some (used, length) =>
    if length > data.length - used then .error receivedShortData
    else .ok ((data.drop used).splitAt length)

theorem length_of_splitBody {data body rest : List UInt8} (h : splitBody data = .ok (body, rest)) :
    body.length < 2 ^ 16 := by
  unfold splitBody at h
  cases hd : decodeLength data with
  | none =>
    rw [hd] at h
    cases h
  | some p =>
    obtain ⟨used,length⟩ := p
    simp only [hd] at h
    split at h
    · cases h
    · have hlt := asn1Decode_lt (Option.join_eq_some_iff.mp hd)
      rw [List.splitAt_eq] at h
      obtain ⟨rfl,-⟩ := Prod.mk.inj (Except.ok.inj h)
      rw [length_take]
      omega

end LinuxDvb.En50221
