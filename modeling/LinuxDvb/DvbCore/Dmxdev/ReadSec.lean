import LinuxDvb.DvbCore.Demux.SectionStream
import LinuxDvb.DvbCore.Ringbuffer.Fifo

/-!
# Reading sections

The buffer of a section filter of `dmxdev.c`: `dvb_dmxdev_section_callback` stores sections in it, and
`dvb_dmxdev_read_sec` takes them out, first the three bytes of the header and then the rest, whose length `todo`
counts down.
-/

namespace LinuxDvb.Dmxdev

open Ringbuffer Demux

/-- Where a call of `dvb_dmxdev_read_sec` stands; `count` is what is left of its argument. -/
inductive ReadAt where
  | idle
  /-- Before `dvb_dmxdev_buffer_read` for the header. -/
  | headerEntry (count : Nat)
  /-- In the loop of that call, with the bytes it has got. -/
  | header (count hcount : Nat) (buf : List UInt8)
  /-- Before `dvb_dmxdev_buffer_read` for the rest, with the bytes of the header. -/
  | bodyEntry (count : Nat) (done : List UInt8)
  | body (count : Nat) (done buf : List UInt8)
  deriving DecidableEq

/-- The part of `struct dmxdev_filter` that takes sections to the reader. `hasData` says that
`buffer.data` is not NULL. -/
structure SecReader where
  buffer : DvbRingbuffer
  hasData : Bool
  todo : Int
  secheader : Mem UInt8
  pos : ReadAt

inductive ReadEvent where
  /-- A section was written to the buffer. -/
  | delivered (sec : List UInt8)
  /-- A read has returned these bytes. -/
  | read (bytes : List UInt8)
  /-- A read has returned an error. -/
  | failed (err : Int)
  deriving DecidableEq

def dvbDmxdevBufferWrite (buf : DvbRingbuffer) (hasData : Bool) (src : List UInt8) : DvbRingbuffer × Int :=
  if src.length = 0 then (buf, 0)
  else if !hasData then (buf, 0)
  else if src.length > dvbRingbufferFree buf then (buf, errOverflow)
  else dvbRingbufferWrite buf src

/-- The part of `dvb_dmxdev_section_callback` that stores the section; `buffer2` is always empty. -/
def SecReader.store (r : SecReader) (buffer1 : List UInt8) : SecReader × List ReadEvent :=
  let w := dvbDmxdevBufferWrite r.buffer r.hasData buffer1
  let ret := if w.2 = buffer1.length then (dvbDmxdevBufferWrite w.1 r.hasData []).2 else w.2
  if ret < 0 then ({ r with buffer := { dvbRingbufferFlush w.1 with error := ret } }, [])
  else ({ r with buffer := w.1 }, if w.2 = buffer1.length then [.delivered buffer1] else [])

/-- `dvb_dmxdev_section_callback` for a filter in state GO. -/
def SecReader.callback (r : SecReader) (buffer1 : List UInt8) : SecReader × List ReadEvent :=
  if r.buffer.error ≠ 0 then (r, []) else r.store buffer1

/-- The checks before the loop of `dvb_dmxdev_buffer_read`; `none` means that the loop is entered. -/
def bufferReadEntry (src : DvbRingbuffer) (hasData : Bool) : DvbRingbuffer × Option Int :=
  if !hasData then (src, some 0)
  else if src.error ≠ 0 then (dvbRingbufferFlush src, some src.error)
  else (src, none)

/-- One turn of the loop: the bytes it has got so far, and the return value when it ends. -/
def bufferReadTurn (src : DvbRingbuffer) (count : Nat) (buf : List UInt8) :
    DvbRingbuffer × List UInt8 × Option Int :=
  let result : Int → Int := fun ret => if buf.length ≠ 0 then buf.length else ret
  if count ≤ buf.length then (src, buf, some (result 0))
  else if dvbRingbufferEmpty src then (src, buf, some (result errAgain))
  else if src.error ≠ 0 then (dvbRingbufferFlush src, buf, some (result src.error))
  else
    let avail := min (dvbRingbufferAvail src) (count - buf.length : Nat)
    let r := dvbRingbufferRead src avail.toNat true fun _ => false
    (r.1, buf ++ r.2.2, none)

def bodyLength (secheader : Mem UInt8) : Nat :=
  ((secheader 1).toNat <<< 8 ||| (secheader 2).toNat) &&& 0xfff

namespace SecReader

/-- What `dvb_dmxdev_read_sec` does with the result of reading the header. -/
def headerResult (r : SecReader) (count : Nat) (buf : List UInt8) (result : Int) :
    SecReader × List ReadEvent :=
  if result < 0 then ({ r with todo := 0, pos := .idle }, [.failed result])
  else
    let r := { r with
      secheader := r.secheader.write (-r.todo).toNat buf
      todo := r.todo - result }
    if r.todo > -3 then ({ r with pos := .idle }, [.read buf])
    else
      let r := { r with todo := bodyLength r.secheader }
      let count := count - buf.length
      if count = 0 then ({ r with pos := .idle }, [.read buf])
      else ({ r with pos := .bodyEntry count buf }, [])

def bodyResult (r : SecReader) (done buf : List UInt8) (result : Int) : SecReader × List ReadEvent :=
  if result < 0 then ({ r with pos := .idle }, [.failed result])
  else ({ r with todo := r.todo - result, pos := .idle }, [.read (done ++ buf)])

/-- One step of `dvb_dmxdev_read_sec`. -/
def resume (r : SecReader) : SecReader × List ReadEvent :=
  match r.pos with
  | .idle => (r, [])
  | .headerEntry count =>
    let e := bufferReadEntry r.buffer r.hasData
    let r := { r with buffer := e.1 }
    match e.2 with
    | some result => r.headerResult count [] result
    | none => ({ r with pos := .header count (min (3 + r.todo).toNat count) [] }, [])
  | .header count hcount buf =>
    let t := bufferReadTurn r.buffer hcount buf
    let r := { r with buffer := t.1 }
    match t.2.2 with
    | some result => r.headerResult count t.2.1 result
    | none => ({ r with pos := .header count hcount t.2.1 }, [])
  | .bodyEntry count done =>
    let e := bufferReadEntry r.buffer r.hasData
    let r := { r with buffer := e.1 }
    match e.2 with
    | some result => r.bodyResult done [] result
    | none => ({ r with pos := .body (min count r.todo.toNat) done [] }, [])
  | .body count done buf =>
    let t := bufferReadTurn r.buffer count buf
    let r := { r with buffer := t.1 }
    match t.2.2 with
    | some result => r.bodyResult done t.2.1 result
    | none => ({ r with pos := .body count done t.2.1 }, [])

end SecReader

inductive ReadInput where
  | deliver (sec : List UInt8) (isSection : IsSection sec)
  /-- A call of `dvb_dmxdev_read_sec`, if no other one is under way. -/
  | call (count : Nat)
  | resume

def readStep (r : SecReader) : ReadInput → SecReader × List ReadEvent
  | .deliver sec _ => r.callback sec
  | .call count =>
    if r.pos = .idle then
      ({ r with pos := if r.todo ≤ 0 then .headerEntry count else .bodyEntry count [] }, [])
    else (r, [])
  | .resume => r.resume

/-- A filter with a buffer of `size` bytes after its start. -/
def SecReader.init (data : Mem UInt8) (size : Nat) (secheader : Mem UInt8) : SecReader where
  buffer := dvbRingbufferInit data size
  hasData := true
  todo := 0
  secheader := secheader
  pos := .idle

/-- What a reader has still to expect: the rest of the section it is reading, and the sections behind it. -/
structure Unread where
  current : List UInt8
  queue : List (List UInt8)

namespace Unread

def line (u : Unread) : List UInt8 := if u.current = [] then u.queue.headD [] else u.current

def rest (u : Unread) : List (List UInt8) := if u.current = [] then u.queue.tail else u.queue

def next (u : Unread) : ReadEvent → Unread
  | .delivered sec => { u with queue := u.queue ++ [sec] }
  | .read bytes => if bytes = [] then u else { current := u.line.drop bytes.length, queue := u.rest }
  | .failed err => if err = errOverflow then { current := [], queue := [] } else u

def Continues (u : Unread) : ReadEvent → Prop
  | .read bytes => bytes <+: u.line
  | _ => True

end Unread

/-- Section alignment: every read continues the section of the reads before it up to its end, or starts
a new one, and after an overflow was reported the next one starts a new section. -/
def Aligned (events : List ReadEvent) : Prop :=
  Accepts Unread.next Unread.Continues { current := [], queue := [] } events

/-- When the rest of a section is to be read, a pending buffer error is met only if nothing is left of
the section. -/
def NothingOutstanding (r : SecReader) : ReadInput → Prop
  | .resume =>
    match r.pos with
    | .bodyEntry _ _ => r.buffer.error ≠ 0 → r.todo = 0
    | _ => True
  | _ => True

instance (r : SecReader) : DecidablePred (NothingOutstanding r)
  | .deliver _ _ => isTrue trivial
  | .call _ => isTrue trivial
  | .resume =>
    match h : r.pos with
    | .bodyEntry _ _ => decidable_of_iff (r.buffer.error ≠ 0 → r.todo = 0) (by simp only [NothingOutstanding,h])
    | .idle => isTrue (by simp only [NothingOutstanding,h])
    | .headerEntry _ => isTrue (by simp only [NothingOutstanding,h])
    | .header _ _ _ => isTrue (by simp only [NothingOutstanding,h])
    | .body _ _ _ => isTrue (by simp only [NothingOutstanding,h])

end LinuxDvb.Dmxdev
