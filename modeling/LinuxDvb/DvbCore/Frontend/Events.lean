import LinuxDvb.DvbCore.Frontend.Swzigzag
import LinuxDvb.Framework.DropQueue
import LinuxDvb.Framework.Memory

/-!
# Frontend events

`dvb_frontend_add_event` stores changes of the status in a ring, from which `FE_GET_EVENT` takes them; a full ring
loses its oldest event, and the reader is told by `-EOVERFLOW`.
-/

namespace LinuxDvb.Frontend

/-- `struct dvb_frontend_event`, without the members that are neither written nor looked at. -/
structure FrontendEvent (P : Type) where
  status : UInt32
  parameters : P
deriving DecidableEq, Repr

def maxEvent : Nat := 8

/-- What a call of `dvb_frontend_add_event` does next, with its locals. From `tuning` on the event that it adds is kept
along; the code has only its status and the slot. -/
inductive AddEvent (P : Type) where
  | idle
  | entering (status : UInt32)
  | locked (status : UInt32)
  | comparing (status : UInt32) (wp : Nat)
  | overflowing (status : UInt32) (wp : Nat)
  | dropping (status : UInt32) (wp : Nat)
  | choosing (status : UInt32) (wp : Nat)
  | copying (status : UInt32) (wp e : Nat)
  | tuning (ev : FrontendEvent P) (wp e : Nat)
  | publishing (ev : FrontendEvent P) (wp e : Nat)
  | releasing (ev : FrontendEvent P) (e : Nat)
  | reporting (ev : FrontendEvent P) (e : Nat)
deriving Repr

/-- What a call of `dvb_frontend_get_event` does next. -/
inductive GetEvent (P : Type) where
  | idle
  | clearing
  | comparing
  | entering
  | copying
  | advancing (ev : FrontendEvent P)
  | releasing
deriving Repr

/-- `struct dvb_fe_events` and the calls that use it. `emptying` is between the two writes of `dvb_frontend_open`. -/
structure FeEvents (P : Type) where
  events : Mem (FrontendEvent P)
  eventw : Nat
  eventr : Nat
  overflow : Bool
  semFree : Bool
  adder : AddEvent P
  reader : GetEvent P
  emptying : Bool

/-- What the steps of adding get from elsewhere. `getFrontend` is what the operation does to the parameters, if there is
one. -/
structure AddInput (P : Type) where
  status : UInt32
  interrupted : Bool
  parameters : P
  getFrontend : Option (P → P)

inductive EventInput (P : Type) where
  | add (io : AddInput P)
  | get (interrupted : Bool)
  | empty

variable {P : Type}

def tuned (status : UInt32) (getFrontend : Option (P → P)) (parameters : P) : P :=
  if status &&& feHasLock ≠ 0 then (getFrontend.getD id) parameters else parameters

/-- A step of `dvb_frontend_add_event`; without a call it is called. -/
def addEventStep (s : FeEvents P) (io : AddInput P) : FeEvents P × List (DropSignal (FrontendEvent P)) :=
  match s.adder with
  | .idle => ({ s with adder := .entering io.status }, [])
  | .entering status =>
    if s.semFree then ({ s with semFree := false, adder := .locked status }, [])
    else if io.interrupted then ({ s with adder := .idle }, [])
    else (s, [])
  | .locked status => ({ s with adder := .comparing status ((s.eventw + 1) % maxEvent) }, [])
  | .comparing status wp =>
    if wp = s.eventr then ({ s with adder := .overflowing status wp }, [])
    else ({ s with adder := .choosing status wp }, [])
  | .overflowing status wp => ({ s with overflow := true, adder := .dropping status wp }, [.dropped])
  | .dropping status wp =>
    ({ s with eventr := (s.eventr + 1) % maxEvent, adder := .choosing status wp }, [])
  | .choosing status wp => ({ s with adder := .copying status wp s.eventw }, [])
  | .copying status wp e =>
    ({ s with
        events := Function.update s.events e { s.events e with parameters := io.parameters }
        adder := .tuning { status := status, parameters := io.parameters } wp e }, [])
  | .tuning ev wp e =>
    let slot := { s.events e with parameters := tuned ev.status io.getFrontend (s.events e).parameters }
    let added := { ev with parameters := tuned ev.status io.getFrontend ev.parameters }
    ({ s with events := Function.update s.events e slot, adder := .publishing added wp e }, [])
  | .publishing ev wp e => ({ s with eventw := wp, adder := .releasing ev e }, [.added ev])
  | .releasing ev e => ({ s with semFree := true, adder := .reporting ev e }, [])
  | .reporting ev e =>
    ({ s with events := Function.update s.events e { s.events e with status := ev.status }, adder := .idle }, [])

/-- A step of `dvb_frontend_get_event` with `O_NONBLOCK`; without a call it is called. The event is returned with
the step that moves the position behind it. -/
def getEventStep (s : FeEvents P) (interrupted : Bool) : FeEvents P × List (DropSignal (FrontendEvent P)) :=
  match s.reader with
  | .idle =>
    if s.overflow then ({ s with reader := .clearing }, [])
    else ({ s with reader := .comparing }, [.passed])
  | .clearing => ({ s with overflow := false, reader := .idle }, [.overflow])
  | .comparing =>
    if s.eventw = s.eventr then ({ s with reader := .idle }, [.wouldBlock])
    else ({ s with reader := .entering }, [])
  | .entering =>
    if s.semFree then ({ s with semFree := false, reader := .copying }, [])
    else if interrupted then ({ s with reader := .idle }, [.interrupted])
    else (s, [])
  | .copying => ({ s with reader := .advancing (s.events s.eventr) }, [])
  | .advancing ev =>
    ({ s with eventr := (s.eventr + 1) % maxEvent, reader := .releasing }, [.returned ev])
  | .releasing => ({ s with semFree := true, reader := .idle }, [])

/-- The two writes of `dvb_frontend_open`. -/
def emptyStep (s : FeEvents P) : FeEvents P × List (DropSignal (FrontendEvent P)) :=
  if s.emptying then ({ s with eventr := 0, emptying := false }, [])
  else ({ s with eventw := 0, emptying := true }, [.emptied])

def eventStep (s : FeEvents P) : EventInput P → FeEvents P × List (DropSignal (FrontendEvent P))
  | .add io => addEventStep s io
  | .get interrupted => getEventStep s interrupted
  | .empty => emptyStep s

/-- `dvb_register_frontend`. -/
def FeEvents.initial (events : Mem (FrontendEvent P)) : FeEvents P :=
  { events := events
    eventw := 0
    eventr := 0
    overflow := false
    semFree := true
    adder := .idle
    reader := .idle
    emptying := false }

namespace AddEvent

def holds : AddEvent P → Bool
  | .idle => false
  | .entering _ => false
  | .reporting _ _ => false
  | _ => true

def moves : AddEvent P → Bool
  | .comparing _ _ => true
  | .overflowing _ _ => true
  | .dropping _ _ => true
  | .choosing _ _ => true
  | .copying _ _ _ => true
  | .tuning _ _ _ => true
  | .publishing _ _ _ => true
  | _ => false

def starts : AddEvent P → Bool
  | .locked _ => true
  | _ => false

def unreported : AddEvent P → Option Nat
  | .reporting _ e => some e
  | _ => none

end AddEvent

namespace GetEvent

def holds : GetEvent P → Bool
  | .copying => true
  | .advancing _ => true
  | .releasing => true
  | _ => false

def moves : GetEvent P → Bool
  | .entering => true
  | .copying => true
  | .advancing _ => true
  | _ => false

def starts : GetEvent P → Bool
  | .comparing => true
  | _ => false

def copies : GetEvent P → Bool
  | .copying => true
  | _ => false

end GetEvent

/-- The step does not meet the work of another call: the queue is emptied with no call at its positions and
no drops to be told of, no call reads them in between, and no event is copied before its status is written. -/
def Undisturbed (s : FeEvents P) : EventInput P → Prop
  | .add _ => s.emptying = true → s.adder.starts = false
  | .get _ =>
    (s.emptying = true → s.reader.starts = false) ∧
      (s.reader.copies = true → s.adder.unreported ≠ some s.eventr)
  | .empty =>
    s.adder.moves = false ∧ s.reader.moves = false ∧ (s.emptying = false → s.overflow = false)

instance Undisturbed.decidable (s : FeEvents P) : ∀ i, Decidable (Undisturbed s i)
  | .add _ => inferInstanceAs (Decidable (s.emptying = true → s.adder.starts = false))
  | .get _ => inferInstanceAs (Decidable ((s.emptying = true → s.reader.starts = false) ∧
      (s.reader.copies = true → s.adder.unreported ≠ some s.eventr)))
  | .empty => inferInstanceAs (Decidable (s.adder.moves = false ∧ s.reader.moves = false ∧
      (s.emptying = false → s.overflow = false)))

end LinuxDvb.Frontend
