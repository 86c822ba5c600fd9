import LinuxDvb.LibDvbEn50221.Tpdu
import LinuxDvb.LibDvbEn50221.Connection

/-!
# The host and its modules

A module that answers every TPDU on a connection that exists at its side with the reply that belongs to it:
T_C_T_C_REPLY to T_CREATE_T_C, T_D_T_C_REPLY to T_DELETE_T_C, and a T_SB, behind some data perhaps, to data, polls and
T_RCV.
-/

namespace LinuxDvb.En50221

open TransportLayer

/-- A connection at the side of the module; `deleting` once it has sent T_DELETE_T_C. -/
inductive CamState where
  | absent | present | deleting
  deriving DecidableEq, Repr

abbrev Payload := { bytes : List UInt8 // bytes.length ≤ 65534 }

inductive CamTpdu where
  | createReply
  | deleteReply
  | delete
  | data (last : Bool) (payload : Payload)
  | sb (value : UInt8)
  deriving DecidableEq

namespace CamTpdu

def tag : CamTpdu → UInt8
  | .createReply => tCTCReply
  | .deleteReply => tDTCReply
  | .delete => tDeleteTC
  | .data last _ => if last then tDataLast else tDataMore
  | .sb _ => tSb

def payload : CamTpdu → Payload
  | .createReply | .deleteReply | .delete => ⟨[], by decide⟩
  | .data _ payload => payload
  | .sb value => ⟨[value], by simp⟩

def bytes (tpdu : CamTpdu) (id : UInt8) : List UInt8 :=
  tpdu.tag :: ((asn1Encode (UInt16.ofNat (tpdu.payload.val.length + 1)) 3).getD [] ++ id :: tpdu.payload.val)

theorem parse_bytes (tpdu : CamTpdu) (id : UInt8) :
    parseTpdu (tpdu.bytes id) (tpdu.bytes id).length = some (some ⟨tpdu.tag, id, tpdu.payload.val, []⟩) := by
  have hlength := toNat_tpduLength tpdu.payload.property
  obtain ⟨field,hfield,-,-⟩ := asn1Encode_isSome (UInt16.ofNat (tpdu.payload.val.length + 1))
  have hparse := parseTpdu_encode hfield tpdu.tag id [] hlength
  rw [append_nil] at hparse
  unfold bytes
  rw [hfield]
  exact hparse

end CamTpdu

/-- What the module chooses: data and the value of the T_SB, or to be silent on a connection that it is
deleting. -/
structure CamReply where
  silent : Bool
  data : List (Bool × Payload)
  sb : UInt8

def CamReply.tpdus (reply : CamReply) : List CamTpdu :=
  reply.data.map (fun d => .data d.1 d.2) ++ [.sb reply.sb]

/-- A connection as the module sees it, with the TPDUs under way to it and from it. -/
structure Wire where
  down : List (List UInt8)
  cam : CamState
  up : List CamTpdu

def IsData (msg : List UInt8) : Prop := msg.head? = some tDataLast ∨ msg.head? = some tRcv

instance (msg : List UInt8) : Decidable (IsData msg) := inferInstanceAs (Decidable (_ ∨ _))

namespace Wire

def reply (w : Wire) (msg : List UInt8) (reply : CamReply) : Wire :=
  if msg.head? = some tDeleteTC then { w with cam := .absent, up := w.up ++ [.deleteReply] }
  else if IsData msg then { w with up := w.up ++ reply.tpdus }
  else w

def answer (w : Wire) (reply : CamReply) : Wire :=
  match w.down with
  | [] => w
  | msg :: down =>
    let w := { w with down := down }
    match w.cam with
    | .absent =>
      if msg.head? = some tCreateTC then { w with cam := .present, up := w.up ++ [.createReply] } else w
    | .present => w.reply msg reply
    | .deleting =>
      if msg.head? = some tDTCReply then { w with cam := .absent }
      else if reply.silent then w
      else w.reply msg reply

def delete (w : Wire) : Wire :=
  if w.cam = .present then { w with cam := .deleting, up := w.up ++ [.delete] } else w

def carry (w : Wire) (evs : List ConnEvent) : Wire :=
  { w with down := w.down ++ evs.filterMap fun
      | .written data _ => some data
      | _ => none }

/-- What is left of the TPDUs under way once the module has taken those that it does not answer, being
silent on a connection that it is deleting. -/
def settle : CamState → List (List UInt8) → CamState × List (List UInt8)
  | cam, [] => (cam, [])
  | .absent, msg :: down =>
    if msg.head? = some tCreateTC then (.absent, msg :: down) else settle .absent down
  | .present, msg :: down =>
    if msg.head? = some tDeleteTC ∨ IsData msg then (.present, msg :: down) else settle .present down
  | .deleting, msg :: down =>
    settle (if msg.head? = some tDTCReply then .absent else .deleting) down

def Answered (w : Wire) : Prop := (settle w.cam w.down).2 = []

instance (w : Wire) : Decidable w.Answered := inferInstanceAs (Decidable (_ = _))

end Wire

structure System (slots conns : Nat) where
  tl : TransportLayer slots conns
  wire : Fin slots → Fin conns → Wire

/-- A call of the host, a step of a poll of the host, or a step of a module. The device takes everything
that is written. -/
inductive SystemInput (slots conns : Nat) where
  | registerSlot (caHndl : Nat) (slot : UInt8)
  | newTc (slotId : UInt8) (malloc : Bool)
  | delTc (slotId connectionId : UInt8) (malloc : Bool)
  | sendData (slotId connectionId : UInt8) (data : List UInt8) (malloc : Bool)
  | sendDatav (slotId connectionId : UInt8) (vector : List (List UInt8)) (malloc : Bool)
  | serve (s : Fin slots) (c : Fin conns) (pollElapsed responseElapsed : Bool)
  | read (s : Fin slots) (c : Fin conns) (realloc : Bool)
  | answer (s : Fin slots) (c : Fin conns) (reply : CamReply)
  | delete (s : Fin slots) (c : Fin conns)

variable {slots conns : Nat}

namespace System

def host (sys : System slots conns) (op : TlInput slots conns) :
    System slots conns × List (TlEvent slots conns) :=
  let r := tlStep sys.tl op
  ({ tl := r.1, wire := fun s c => (sys.wire s c).carry (connEvents s c r.2) }, r.2)

def updWire (sys : System slots conns) (s : Fin slots) (c : Fin conns) (w : Wire) : System slots conns :=
  { sys with wire := fun s' c' => if s' = s ∧ c' = c then w else sys.wire s' c' }

end System

def systemStep (sys : System slots conns) :
    SystemInput slots conns → System slots conns × List (TlEvent slots conns)
  | .registerSlot caHndl slot => sys.host (.call (.registerSlot caHndl slot))
  | .newTc slotId malloc => sys.host (.call (.newTc slotId malloc))
  | .delTc slotId connectionId malloc => sys.host (.call (.delTc slotId connectionId malloc))
  | .sendData slotId connectionId data malloc =>
    sys.host (.call (.sendData slotId connectionId data malloc))
  | .sendDatav slotId connectionId vector malloc =>
    sys.host (.call (.sendDatav slotId connectionId vector malloc))
  | .serve s c pollElapsed responseElapsed => sys.host (.serve s c ⟨true, pollElapsed, responseElapsed⟩)
  | .read s c realloc =>
    match (sys.wire s c).up with
    | [] => (sys, [])
    | tpdu :: up =>
      (sys.updWire s c { sys.wire s c with up := up }).host
        (.receive s (tpdu.bytes (UInt8.ofNat c)) ⟨true, true, realloc⟩)
  | .answer s c reply => (sys.updWire s c ((sys.wire s c).answer reply), [])
  | .delete s c => (sys.updWire s c (sys.wire s c).delete, [])

def systemCreate (slots conns : Nat) : System slots conns where
  tl := tlCreate slots conns
  wire := fun _ _ => { down := [], cam := .absent, up := [] }

namespace System

/-- A connection is deleted by the host only if it is active, with nothing queued and nothing left to
answer or to read but a T_DELETE_T_C of the module. -/
def DeletesSettled (sys : System slots conns) (s : Fin slots) (c : Fin conns) : Prop :=
  (sys.tl.conn s c).state = .active ∨ (sys.tl.conn s c).state = .inDeletion →
    (sys.tl.conn s c).state = .active ∧ (sys.tl.conn s c).sendQueue = [] ∧ (sys.wire s c).Answered ∧
      ∀ tpdu ∈ (sys.wire s c).up, tpdu = .delete

/-- No request to create or to delete a connection times out, while it may be answered or in the turn in
which it is sent. -/
def WaitsForReply (sys : System slots conns) (s : Fin slots) (c : Fin conns) : Prop :=
  ((sys.tl.conn s c).state = .inCreation ∨ (sys.tl.conn s c).state = .activeDeletequeued →
    (sys.tl.conn s c).txTime = none → (sys.tl.conn s c).sendQueue = []) ∧
  ((sys.tl.conn s c).state = .inCreation ∨ (sys.tl.conn s c).state = .inDeletion →
    (sys.tl.conn s c).txTime ≠ none → (sys.wire s c).Answered ∧ (sys.wire s c).up = [])

/-- Deletions do not cross with what is under way, the module is silent on a connection that it deletes,
and requests are given the time to be answered. -/
def Uncrossed (sys : System slots conns) : SystemInput slots conns → Prop
  | .delTc slotId connectionId malloc => malloc = true → ∀ s ∈ sys.tl.checkSlot slotId,
      ∀ c ∈ toFin? conns connectionId.toNat, sys.DeletesSettled s c
  | .serve s c _ responseElapsed => responseElapsed = true → sys.WaitsForReply s c
  | .read s c _ => (sys.wire s c).up.head? = some .delete →
      (sys.tl.conn s c).state ≠ .activeDeletequeued
  | .answer s c reply => (sys.wire s c).cam = .deleting → reply.silent = true
  | _ => True

instance (sys : System slots conns) (s : Fin slots) (c : Fin conns) : Decidable (sys.DeletesSettled s c) :=
  inferInstanceAs (Decidable (_ → _))

instance (sys : System slots conns) (s : Fin slots) (c : Fin conns) : Decidable (sys.WaitsForReply s c) :=
  inferInstanceAs (Decidable (_ ∧ _))

instance (sys : System slots conns) : ∀ op, Decidable (sys.Uncrossed op)
  | .delTc slotId connectionId malloc => inferInstanceAs (Decidable (malloc = true →
      ∀ s ∈ sys.tl.checkSlot slotId, ∀ c ∈ toFin? conns connectionId.toNat, sys.DeletesSettled s c))
  | .serve s c _ responseElapsed => inferInstanceAs (Decidable (responseElapsed = true → sys.WaitsForReply s c))
  | .read s c _ => inferInstanceAs (Decidable ((sys.wire s c).up.head? = some .delete →
      (sys.tl.conn s c).state ≠ .activeDeletequeued))
  | .answer s c reply => inferInstanceAs (Decidable ((sys.wire s c).cam = .deleting → reply.silent = true))
  | .registerSlot _ _ | .newTc _ _ | .sendData _ _ _ _ | .sendDatav _ _ _ _ | .delete _ _ => isTrue trivial

end System

end LinuxDvb.En50221
