import LinuxDvb.Framework.Loop

/-!
# I2C transfers of the Mantis bridge

A transfer writes commands to a register of the bridge, one for a byte of a message. After each it waits at most 50 ms
for the R-ACK bit of a status word.
-/

namespace LinuxDvb.Mantis

/-! ## The interrupt handler and the wait -/

def intI2crack : UInt32 := (0x01 : UInt32) <<< 26

def intI2cdone : UInt32 := 0x01

structure Irq where
  stat : UInt32
  mask : UInt32
  deriving DecidableEq

def Irq.Ours (q : Irq) : Prop := q.stat &&& q.mask ≠ 0

instance (q : Irq) : Decidable q.Ours := inferInstanceAs (Decidable (_ ≠ _))

def Irq.Acknowledges (q : Irq) : Prop := q.Ours ∧ q.stat &&& intI2crack ≠ 0

/-- The two I2C branches of `mantis_pci_irq`: what is in `mantis_int_stat` after it. -/
def mantisPciIrqI2c (intStat : UInt32) (q : Irq) : UInt32 :=
  if ¬ q.Ours then intStat
  else if q.stat &&& intI2crack ≠ 0 then q.stat
  else if q.stat &&& intI2cdone ≠ 0 then q.stat
  else intStat

/-- What can happen after the first test of `wait_event_interruptible_timeout`. -/
inductive WaitEvent where
  | irq (q : Irq)
  /-- The waiting process runs again and tests the condition. -/
  | wakeup
  | signal
  /-- The time is over. -/
  | timeout
  deriving DecidableEq

inductive WaitEnd where
  | acknowledged
  | signalled
  | timedOut
  deriving DecidableEq

/-- What the world does between a command and the next one: interrupts up to the first test of the condition
and events after it. Interrupts that come when the wait is over are still handled. `rxd` is what the data
register holds after the wait. -/
structure Wait where
  early : List Irq
  events : List WaitEvent
  rxd : UInt32
  deriving DecidableEq

/-- The rest of the wait after a test that failed. A signal ends it when the condition has been tested again. -/
def sleepEnd (intStat : UInt32) : List WaitEvent → WaitEnd
  | [] => .timedOut
  | .irq q :: events => sleepEnd (mantisPciIrqI2c intStat q) events
  | .wakeup :: events =>
    if intStat &&& intI2crack ≠ 0 then .acknowledged else sleepEnd intStat events
  | .signal :: _ => if intStat &&& intI2crack ≠ 0 then .acknowledged else .signalled
  | .timeout :: _ => .timedOut

def WaitEvent.irqs : WaitEvent → List Irq
  | .irq q => [q]
  | _ => []

def Wait.irqs (w : Wait) : List Irq := w.early ++ w.events.flatMap WaitEvent.irqs

def Wait.Acked (w : Wait) : Prop := ∃ q ∈ w.irqs, q.Acknowledges

/-- How `wait_event_interruptible_timeout` ends. -/
def Wait.ending (w : Wait) (intStat : UInt32) : WaitEnd :=
  let tested := w.early.foldl mantisPciIrqI2c intStat
  if tested &&& intI2crack ≠ 0 then .acknowledged else sleepEnd tested w.events

/-- `-EREMOTEIO` -/
def eRemoteIo : Int := -121

/-- `-EIO` -/
def eIo : Int := -5

def mantisAckWait (w : Wait) (intStat : UInt32) : Int :=
  if w.ending intStat = .signalled then eRemoteIo else 0

/-! ## Transfers -/

structure I2cMsg where
  addr : UInt16
  flags : UInt16
  buf : List UInt8
  fits : buf.length < 65536
  deriving DecidableEq

def I2cMsg.len (msg : I2cMsg) : Nat := msg.buf.length

def i2cMRd : UInt16 := 0x01

def i2cStop : UInt32 := (0x01 : UInt32) <<< 5

def i2cRate2 : UInt32 := (0x01 : UInt32) <<< 6

def i2cPgmode : UInt32 := (0x01 : UInt32) <<< 3

/-- One `mmwrite(…, MANTIS_I2CDATA_CTL)` with the wait behind it: the byte of a message that it is for, the word,
what the function returns when the wait fails, and whether it takes a byte from the data register. -/
structure Command where
  message : Nat
  byte : Nat
  word : UInt32
  error : Int
  reads : Bool
  fails : error < 0
  deriving DecidableEq

/-- The state word, with the commands that were written and the bytes that were read since the transfer began. -/
structure Bus where
  intStat : UInt32
  commands : List Command
  received : List (Nat × Nat × UInt8)
  deriving DecidableEq

abbrev World := Nat → Wait

def Bus.command (env : World) (b : Bus) (c : Command) : Int × Bus :=
  let w := env b.commands.length
  let written := { b with intStat := w.irqs.foldl mantisPciIrqI2c b.intStat, commands := b.commands ++ [c] }
  if mantisAckWait w b.intStat < 0 then (c.error, written)
  else if c.reads then
    (0, { written with received := b.received ++ [(c.message, c.byte, ((w.rxd >>> 8) &&& 0xff).toUInt8)] })
  else (0, written)

/-- The STOP bit of byte `i` in the page functions. -/
def pageStop (msg : I2cMsg) (i : Nat) : UInt32 := if i = msg.len - 1 then 0 else i2cStop

/-- A command of `mantis_i2c_pagewrite`. -/
def pagewriteCommand (message : Nat) (msg : I2cMsg) (i : Nat) : Command where
  message := message
  byte := i
  word := msg.addr.toUInt32 <<< 25 ||| (msg.buf.getD i 0).toUInt32 <<< 8 ||| i2cRate2 ||| pageStop msg i
    ||| i2cPgmode
  error := -1
  reads := false
  fails := by decide

/-- A command of `mantis_i2c_pageread`. -/
def pagereadCommand (message : Nat) (msg : I2cMsg) (i : Nat) : Command where
  message := message
  byte := i
  word := msg.addr.toUInt32 <<< 25 ||| (1 : UInt32) <<< 24 ||| i2cRate2 ||| pageStop msg i ||| i2cPgmode
  error := eIo
  reads := true
  fails := by decide

/-- The command of `mantis_i2c_writebyte`. -/
def writebyteCommand (message : Nat) (addr : UInt16) (subaddr data : UInt8) : Command where
  message := message
  byte := 0
  word := addr.toUInt32 <<< 25 ||| subaddr.toUInt32 <<< 16 ||| data.toUInt32 <<< 8 ||| i2cRate2
  error := eIo
  reads := false
  fails := by decide

/-- The command of `mantis_i2c_readbyte`; the byte is the first one of the second message. -/
def readbyteCommand (addr : UInt16) (subaddr : UInt8) : Command where
  message := 1
  byte := 0
  word := addr.toUInt32 <<< 25 ||| (1 : UInt32) <<< 24 ||| subaddr.toUInt32 <<< 16 ||| i2cRate2
  error := eIo
  reads := true
  fails := by decide

/-- The loop state of the page functions. The counter is a `u8`. -/
structure Page where
  i : UInt8
  bus : Bus
  retval : Int

/-- `i < msg->len` -/
def Page.Within (msg : I2cMsg) (p : Page) : Prop := p.i.toNat < msg.len

instance (msg : I2cMsg) : DecidablePred (Page.Within msg) := fun p => inferInstanceAs (Decidable (p.i.toNat < _))

/-- The loop body of the page functions, whose commands are `op`. -/
def pageBody (env : World) (op : Nat → Command) (_ : Nat) (p : Page) : Flow Page :=
  let r := p.bus.command env (op p.i.toNat)
  if r.1 < 0 then .leave { p with bus := r.2, retval := r.1 }
  else .again { p with i := p.i + 1, bus := r.2 }

def pageLoop (env : World) (msg : I2cMsg) (op : Nat → Command) (fuel : Nat) (b : Bus) : Option (Int × Bus) :=
  (runLoop (Page.Within msg) (pageBody env op) fuel ⟨0, b, 0⟩).map fun p => (p.retval, p.bus)

/-- `mantis_i2c_pagewrite`. What it first writes to the status register acknowledges interrupts that the handler has
not seen; `mantis_int_stat` stays. -/
def mantisI2cPagewrite (env : World) (message : Nat) (msg : I2cMsg) (fuel : Nat) (b : Bus) : Option (Int × Bus) :=
  pageLoop env msg (pagewriteCommand message msg) fuel b

def mantisI2cPageread (env : World) (message : Nat) (msg : I2cMsg) (fuel : Nat) (b : Bus) : Option (Int × Bus) :=
  pageLoop env msg (pagereadCommand message msg) fuel b

def mantisI2cWritebyte (env : World) (message : Nat) (addr : UInt16) (subaddr data : UInt8) (b : Bus) : Int × Bus :=
  b.command env (writebyteCommand message addr subaddr data)

def mantisI2cReadbyte (env : World) (addr : UInt16) (subaddr : UInt8) (b : Bus) : Int × Bus :=
  b.command env (readbyteCommand addr subaddr)

/-- The body of the loop of `mantis_i2c_xfer`, for one message. -/
def xferMessage (env : World) (fuel message : Nat) (msg : I2cMsg) (b : Bus) : Option (Int × Bus) :=
  if msg.flags = 0 then
    if msg.len = 2 then some (mantisI2cWritebyte env message msg.addr (msg.buf.getD 0 0) (msg.buf.getD 1 0) b)
    else mantisI2cPagewrite env message msg fuel b
  else mantisI2cPageread env message msg fuel b

/-- The loop of `mantis_i2c_xfer` over the messages from number `message` on. -/
def xferMessages (env : World) (fuel : Nat) (num : Int) : Nat → List I2cMsg → Bus → Option (Int × Bus)
  | _, [], b => some (num, b)
  | message, msg :: msgs, b =>
    (xferMessage env fuel message msg b).bind fun r =>
      if r.1 < 0 then some r else xferMessages env fuel num (message + 1) msgs r.2

def ReadsRegister (msg0 msg1 : I2cMsg) : Prop :=
  msg0.flags = 0 ∧ msg1.flags = i2cMRd ∧ msg0.len = 1 ∧ msg1.len = 1

instance (msg0 msg1 : I2cMsg) : Decidable (ReadsRegister msg0 msg1) := inferInstanceAs (Decidable (_ ∧ _))

/-- `mantis_i2c_xfer`; `none` is a loop that has not ended with this fuel. -/
def mantisI2cXfer (env : World) (fuel : Nat) (msgs : List I2cMsg) (b : Bus) : Option (Int × Bus) :=
  match msgs with
  | [msg0, msg1] =>
    if ReadsRegister msg0 msg1 then
      let r := mantisI2cReadbyte env msg0.addr (msg0.buf.getD 0 0) b
      some (if r.1 < 0 then r else (2, r.2))
    else xferMessages env fuel 2 0 [msg0, msg1] b
  | msgs => xferMessages env fuel msgs.length 0 msgs b

/-! ## The contract of a transfer -/

def messageCommands (message : Nat) (msg : I2cMsg) : List Command :=
  if msg.flags = 0 ∧ msg.len = 2 then
    [writebyteCommand message msg.addr (msg.buf.getD 0 0) (msg.buf.getD 1 0)]
  else if msg.flags = 0 then (List.range msg.len).map (pagewriteCommand message msg)
  else (List.range msg.len).map (pagereadCommand message msg)

/-- The commands for the messages from number `message` on, in message order. -/
def messagesCommands : Nat → List I2cMsg → List Command
  | _, [] => []
  | message, msg :: msgs => messageCommands message msg ++ messagesCommands (message + 1) msgs

def transferCommands (msgs : List I2cMsg) : List Command :=
  match msgs with
  | [msg0, msg1] =>
    if ReadsRegister msg0 msg1 then [readbyteCommand msg0.addr (msg0.buf.getD 0 0)]
    else messagesCommands 0 [msg0, msg1]
  | msgs => messagesCommands 0 msgs

/-- A call of `mantis_i2c_xfer`, with the interrupts that come between the call before and this one. -/
structure Transfer where
  idle : List Irq
  msgs : List I2cMsg
  env : World

def Transfer.statusAt (t : Transfer) (intStat : UInt32) : UInt32 := t.idle.foldl mantisPciIrqI2c intStat

def Transfer.Ends (t : Transfer) (intStat : UInt32) (r : Int × Bus) : Prop :=
  ∃ fuel, mantisI2cXfer t.env fuel t.msgs ⟨t.statusAt intStat, [], []⟩ = some r

/-- The result is the number of messages, all commands have been issued and all are acknowledged; or it is
negative, and the commands that have been issued are the first ones. -/
def Transfer.Reports (t : Transfer) (r : Int × Bus) : Prop :=
  (r.1 = t.msgs.length ∧ r.2.commands = transferCommands t.msgs ∧ ∀ k < r.2.commands.length, (t.env k).Acked) ∨
    (r.1 < 0 ∧ r.2.commands <+: transferCommands t.msgs)

def TransfersReport (intStat : UInt32) : List Transfer → Prop
  | [] => True
  | t :: ts => ∃ r, t.Ends intStat r ∧ t.Reports r ∧ TransfersReport r.2.intStat ts

/-! ## When it holds -/

/-- The status word after the interrupts that come with the first `k` commands. -/
def statusAfter (env : World) (intStat : UInt32) : Nat → UInt32
  | 0 => intStat
  | k + 1 => (env k).irqs.foldl mantisPciIrqI2c (statusAfter env intStat k)

/-- A signal ends the wait for command `k`. -/
def Interrupted (env : World) (intStat : UInt32) (k : Nat) : Prop :=
  (env k).ending (statusAfter env intStat k) = .signalled

/-- The number of commands up to the end, or up to byte 255 of the first message that is longer. -/
def reach : List I2cMsg → Nat
  | [] => 0
  | msg :: msgs => if 256 ≤ msg.len then 256 else (messageCommands 0 msg).length + reach msgs

/-- A signal ends the wait for a command within reach; or no message has more than 255 bytes and every command of the
transfer is acknowledged. -/
def Transfer.Sound (t : Transfer) (intStat : UInt32) : Prop :=
  (∃ k < reach t.msgs, k < (transferCommands t.msgs).length ∧ Interrupted t.env (t.statusAt intStat) k) ∨
    ((∀ msg ∈ t.msgs, msg.len < 256) ∧ ∀ k < (transferCommands t.msgs).length, (t.env k).Acked)

def TransfersSound (intStat : UInt32) : List Transfer → Prop
  | [] => True
  | t :: ts => t.Sound intStat ∧ ∀ r, t.Ends intStat r → TransfersSound r.2.intStat ts

end LinuxDvb.Mantis
