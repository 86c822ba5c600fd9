import LinuxDvb.Framework.Trace
import LinuxDvb.LibUcsi.TransportPacket

/-!
# Continuity over a sequence of packets

The packets of one PID are checked one after another. What the check accepted so far says which counter comes next and
how often the last one was repeated; one repetition is allowed.
-/

namespace LinuxDvb.Ucsi

structure PacketOf (pid : Nat) where
  packet : TransportPacket
  pid_eq : transportPacketPid packet = pid

variable {pid : Nat}

namespace PacketOf

def counter (pkt : PacketOf pid) : UInt8 := pkt.packet.continuityCounter

def payload (pkt : PacketOf pid) : Bool := pkt.packet.hasPayload

end PacketOf

/-- A call of the check: its arguments, what it returned and what it left in `*cstate`. -/
structure Checked (pid : Nat) where
  pkt : PacketOf pid
  discontinuity : Int
  before : UInt8
  ret : Int
  after : UInt8

def checkStep (cstate : UInt8) (i : PacketOf pid × Int) : UInt8 × List (Checked pid) :=
  let r := transportPacketContinuityCheck i.1.packet i.2 cstate
  (r.2, [⟨i.1, i.2, cstate, r.1, r.2⟩])

/-- The calls for a sequence of packets with their discontinuity indicators, from the initial state. -/
def checks (packets : List (PacketOf pid × Int)) : List (Checked pid) := (runTrace checkStep 0 packets).2

/-- The last counter of a stream, and how many payloads repeated it. -/
structure Progress where
  counter : UInt8
  duplicates : Nat
  deriving DecidableEq

def Progress.successor (p : Progress) : UInt8 := (p.counter + 1) &&& 0xf

def OutOfSequence (p : Option Progress) (i : PacketOf pid × Int) : Prop :=
  ∃ q ∈ p, i.1.payload = true ∧ i.2 = 0 ∧ i.1.counter ≠ q.successor ∧ ¬ (i.1.counter = q.counter ∧ q.duplicates = 0)

def Progress.accept (p : Option Progress) (i : PacketOf pid × Int) : Progress :=
  match p with
  | none => ⟨i.1.counter, 0⟩
  | some q =>
    if i.2 ≠ 0 then ⟨i.1.counter, 0⟩
    else if !i.1.payload then q
    else if i.1.counter = q.counter then { q with duplicates := q.duplicates + 1 }
    else ⟨i.1.counter, 0⟩

def Progress.next (p : Option Progress) (c : Checked pid) : Option Progress :=
  if c.ret = 0 then some (Progress.accept p (c.pkt, c.discontinuity)) else p

/-- What is asked of a check: packets out of sequence are reported, at most one duplicate was accepted since the
counter advanced, and a report leaves the state as it was. -/
def Checked.Lawful (p : Option Progress) (c : Checked pid) : Prop :=
  (OutOfSequence p (c.pkt, c.discontinuity) → c.ret ≠ 0) ∧
    (∀ q, Progress.next p c = some q → q.duplicates ≤ 1) ∧ (c.ret ≠ 0 → c.after = c.before)

@[simp] theorem outOfSequence_none (i : PacketOf pid × Int) : ¬ OutOfSequence none i := by
  rintro ⟨q,hq,-⟩
  cases hq

@[simp] theorem outOfSequence_some (q : Progress) (i : PacketOf pid × Int) :
    OutOfSequence (some q) i ↔ i.1.payload = true ∧ i.2 = 0 ∧ i.1.counter ≠ q.successor ∧
      ¬ (i.1.counter = q.counter ∧ q.duplicates = 0) := by
  constructor
  · rintro ⟨_,hq,h⟩
    cases hq
    exact h
  · exact fun h => ⟨q,rfl,h⟩

instance (p : Option Progress) (i : PacketOf pid × Int) : Decidable (OutOfSequence p i) :=
  match p with
  | none => isFalse (outOfSequence_none i)
  | some q => decidable_of_iff _ (outOfSequence_some q i).symm

/-- What the packets themselves say before a check: the progress of those in sequence, and whether the last of them
was followed by a packet without payload that carries the counter again. -/
structure Expected where
  progress : Option Progress
  filler : Bool
  deriving DecidableEq

def Expected.next (e : Expected) (i : PacketOf pid × Int) : Expected :=
  match e.progress with
  | none => ⟨some (Progress.accept none i), false⟩
  | some p =>
    if i.2 = 0 ∧ !i.1.payload then
      if i.1.counter = p.counter then { e with filler := true } else e
    else if OutOfSequence (some p) i then e
    else ⟨some (Progress.accept (some p) i), false⟩

/-- A packet out of sequence that is not told from one in sequence: the null PID is not checked, and a
duplicate looks like the first one behind a packet that repeats the counter without payload. -/
def Expected.Unseen (e : Expected) (i : PacketOf pid × Int) : Prop :=
  OutOfSequence e.progress i ∧
    (pid = transportNullPid ∨ (e.filler ∧ e.progress.map Progress.counter = some i.1.counter))

section Check

/-- `*cstate` behind an accepted packet. -/
def cstateOf (counter : UInt8) (dupe : Bool) : UInt8 :=
  counter ||| (if dupe then continuityValid ||| continuityDupeseen else continuityValid)

theorem cstateOf_facts : ∀ n < 16, ∀ dupe : Bool, cstateOf (UInt8.ofNat n) dupe &&& 0x0f = UInt8.ofNat n ∧
      cstateOf (UInt8.ofNat n) dupe &&& continuityValid ≠ 0 ∧
      (cstateOf (UInt8.ofNat n) dupe &&& continuityDupeseen = 0 ↔ dupe = false) := by
  decide +kernel

theorem exists_counter {counter : UInt8} (h : counter < 16) : ∃ n < 16, counter = UInt8.ofNat n :=
  ⟨counter.toNat, UInt8.lt_iff_toNat_lt.mp h, (UInt8.ofNat_toNat).symm⟩

theorem counter_lt (pkt : PacketOf pid) : pkt.counter < 16 := by
  have h : ∀ n < 256, UInt8.ofNat n &&& 0x0f < 16 := by decide +kernel
  have hbyte := h (pkt.packet.bytes.getD 3 0).toNat (pkt.packet.bytes.getD 3 0).toNat_lt
  rwa [UInt8.ofNat_toNat] at hbyte

variable (hpid : pid ≠ transportNullPid) (i : PacketOf pid × Int)
include hpid

theorem check_first : transportPacketContinuityCheck i.1.packet i.2 0 = (0, cstateOf i.1.counter false) := by
  have hnull : transportPacketPid i.1.packet ≠ transportNullPid := fun h => hpid (i.1.pid_eq.symm.trans h)
  rw [transportPacketContinuityCheck,if_neg hnull]
  rfl

theorem check_next {counter : UInt8} (hcounter : counter < 16) (dupe : Bool) :
    transportPacketContinuityCheck i.1.packet i.2 (cstateOf counter dupe) =
      if i.2 ≠ 0 ∨ (if i.1.payload then (counter + 1) &&& 0xf else counter) = i.1.counter then
        (0, cstateOf i.1.counter false)
      else if counter = i.1.counter ∧ dupe = false then (0, cstateOf i.1.counter true)
      else (-1, cstateOf counter dupe) := by
  have hnull : transportPacketPid i.1.packet ≠ transportNullPid := fun h => hpid (i.1.pid_eq.symm.trans h)
  obtain ⟨n,hn,rfl⟩ := exists_counter hcounter
  obtain ⟨hlow,hvalid,hdupe⟩ := cstateOf_facts n hn dupe
  simp only [transportPacketContinuityCheck,if_neg hnull,if_neg hvalid,hlow,hdupe,ite_or]
  rfl

end Check

/-- The state of the check, the progress of what was accepted and that of the packets in sequence. -/
structure ChecksLinked (pid : Nat) (cstate : UInt8) (p : Option Progress) (e : Expected) : Prop where
  same : e.progress = p
  once : ∀ q ∈ p, q.duplicates ≤ 1
  first : pid ≠ transportNullPid → p = none → cstate = 0
  later : pid ≠ transportNullPid → ∀ q ∈ p,
    q.counter < 16 ∧ cstate = cstateOf q.counter (q.duplicates = 1 && !e.filler)

theorem Progress.successor_ne (q : Progress) : q.successor ≠ q.counter := by
  have h : ∀ n < 256, (UInt8.ofNat n + 1) &&& 0xf ≠ UInt8.ofNat n := by decide +kernel
  have hcounter := h q.counter.toNat q.counter.toNat_lt
  rwa [UInt8.ofNat_toNat] at hcounter

theorem Progress.accept_once {p : Option Progress} {i : PacketOf pid × Int} (honce : ∀ q ∈ p, q.duplicates ≤ 1)
    (hin : ¬ OutOfSequence p i) : (Progress.accept p i).duplicates ≤ 1 := by
  cases p with
  | none => exact Nat.zero_le 1
  | some q =>
    simp only [accept]
    split_ifs with hdisc hpayload hcounter
    · exact Nat.zero_le 1
    · exact honce q rfl
    · have hfirst : q.duplicates = 0 := by
        by_contra hdup
        refine hin ⟨q,rfl,by simpa using hpayload,by simpa using hdisc,?_,fun h => hdup h.2⟩
        rw [hcounter]
        exact q.successor_ne.symm
      exact Nat.succ_le_succ (Nat.le_of_eq hfirst)
    · exact Nat.zero_le 1

theorem Expected.next_of_in {e : Expected} {i : PacketOf pid × Int} (hin : ¬ OutOfSequence e.progress i)
    (hcarries : i.2 = 0 → i.1.payload = true) : e.next i = ⟨some (Progress.accept e.progress i), false⟩ := by
  rw [next]
  cases hp : e.progress with
  | none => rfl
  | some q =>
    rw [hp] at hin
    have hfiller : ¬ (i.2 = 0 ∧ !i.1.payload) := by
      rintro ⟨hdisc,hpayload⟩
      simp [hcarries hdisc] at hpayload
    simp only [if_neg hfiller,if_neg hin]

theorem Expected.next_progress {e : Expected} {i : PacketOf pid × Int} (hin : ¬ OutOfSequence e.progress i) :
    (e.next i).progress = some (Progress.accept e.progress i) := by
  by_cases hcarries : i.2 = 0 → i.1.payload = true
  · rw [next_of_in hin hcarries]
  · obtain ⟨hdisc,hpayload⟩ := Classical.not_imp.mp hcarries
    rw [next]
    cases hp : e.progress with
    | none => rfl
    | some q =>
      simp only [Progress.accept,hdisc,hpayload]
      split_ifs <;> simp_all

theorem Expected.next_of_out {e : Expected} {i : PacketOf pid × Int} (hout : OutOfSequence e.progress i) :
    e.next i = e := by
  rw [next]
  cases hp : e.progress with
  | none =>
    rw [hp] at hout
    exact absurd hout (outOfSequence_none i)
  | some q =>
    rw [hp] at hout
    have hfiller : ¬ (i.2 = 0 ∧ !i.1.payload) := by simp [((outOfSequence_some q i).mp hout).1]
    simp only [if_neg hfiller,if_pos hout]

namespace ChecksLinked

variable {cstate : UInt8} {p : Option Progress} {e : Expected} {i : PacketOf pid × Int}

inductive Outcome (cstate : UInt8) (p : Option Progress) (e : Expected) (i : PacketOf pid × Int) : Int × UInt8 → Prop
  | base (hin : ¬ OutOfSequence p i) (haccept : Progress.accept p i = ⟨i.1.counter, 0⟩)
      (hnext : e.next i = ⟨some ⟨i.1.counter, 0⟩, false⟩) : Outcome cstate p e i (0, cstateOf i.1.counter false)
  | duplicate (hp : p = some ⟨i.1.counter, 0⟩) (hpayload : i.1.payload) (hdisc : i.2 = 0) :
      Outcome cstate p e i (0, cstateOf i.1.counter true)
  | filler (n : Nat) (hp : p = some ⟨i.1.counter, n⟩) (hpayload : i.1.payload = false) (hdisc : i.2 = 0) :
      Outcome cstate p e i (0, cstateOf i.1.counter false)
  | unseen (hunseen : e.Unseen i) (after : UInt8) : Outcome cstate p e i (0, after)
  | reported (hseen : ¬ e.Unseen i) (hnext : e.next i = e) : Outcome cstate p e i (-1, cstate)

theorem outcome (h : ChecksLinked pid cstate p e) (hpid : pid ≠ transportNullPid) :
    Outcome cstate p e i (transportPacketContinuityCheck i.1.packet i.2 cstate) := by
  obtain ⟨rfl,honce,hfirst,hlater⟩ := h
  cases hp : e.progress with
  | none =>
    rw [hfirst hpid hp,check_first hpid]
    refine .base (outOfSequence_none i) rfl ?_
    rw [Expected.next,hp]
    rfl
  | some q =>
    obtain ⟨hcounter,rfl⟩ := hlater hpid q hp
    have hdup : q.duplicates ≤ 1 := honce q hp
    have hsuccessor : (q.counter + 1) &&& 0xf = q.successor := rfl
    rw [check_next hpid i hcounter,hsuccessor]
    by_cases hdisc : i.2 = 0
    · cases hpayload : i.1.payload with
      | false =>
        by_cases hsame : q.counter = i.1.counter
        · simp only [Bool.false_eq_true,if_false,hsame,or_true,if_true]
          exact .filler q.duplicates (by rw [← hsame]) hpayload hdisc
        · simp only [Bool.false_eq_true,if_false,hsame,hdisc,ne_eq,not_true_eq_false,or_self,false_and]
          refine .reported ?_ ?_
          · simp [Expected.Unseen,hp,hpayload]
          · simp [Expected.next,hp,hpayload,hdisc,Ne.symm hsame]
      | true =>
        by_cases hnext : q.successor = i.1.counter
        · have hin : ¬ OutOfSequence (some q) i := by simp [hnext]
          have hadvance : i.1.counter ≠ q.counter := hnext ▸ q.successor_ne
          have haccept : Progress.accept (some q) i = ⟨i.1.counter,0⟩ := by
            simp [Progress.accept,hdisc,hpayload,hadvance]
          simp only [if_true,hnext,or_true]
          refine .base hin haccept ?_
          rw [Expected.next_of_in (hp ▸ hin) (fun _ => hpayload),hp,haccept]
        · by_cases hsame : q.counter = i.1.counter
          · simp only [if_true,hdisc,hnext,hsame,ne_eq,not_true_eq_false,or_self,if_false,true_and]
            by_cases hfirst : q.duplicates = 0
            · simp only [hfirst,Nat.zero_ne_one,decide_false,Bool.false_and,if_true]
              exact .duplicate (by rw [← hsame,← hfirst]) hpayload hdisc
            · have hone : q.duplicates = 1 := by omega
              have hout : OutOfSequence e.progress i := by simp [hp,hpayload,hdisc,Ne.symm hnext,hfirst]
              cases hfiller : e.filler with
              | true =>
                simp only [Bool.not_true,Bool.and_false,if_true]
                exact .unseen ⟨hout,Or.inr ⟨hfiller,by simp [hp,hsame]⟩⟩ _
              | false =>
                simp only [hone,decide_true,Bool.not_false,Bool.and_true,Bool.true_eq_false,if_false]
                refine .reported ?_ (Expected.next_of_out hout)
                simp [Expected.Unseen,hpid,hfiller]
          · have hout : OutOfSequence e.progress i := by simp [hp,hpayload,hdisc,Ne.symm hnext,Ne.symm hsame]
            simp only [if_true,hdisc,hnext,hsame,ne_eq,not_true_eq_false,or_self,if_false,false_and]
            refine .reported ?_ (Expected.next_of_out hout)
            simp [Expected.Unseen,hpid,hp,hsame]
    · rw [if_pos (Or.inl hdisc)]
      have hin : ¬ OutOfSequence (some q) i := by simp [hdisc]
      have haccept : Progress.accept (some q) i = ⟨i.1.counter,0⟩ := by simp only [Progress.accept,if_pos hdisc]
      refine .base hin haccept ?_
      rw [Expected.next_of_in (hp ▸ hin) (fun h => absurd h hdisc),hp,haccept]

theorem check_null (hpid : pid = transportNullPid) (i : PacketOf pid × Int) (cstate : UInt8) :
    transportPacketContinuityCheck i.1.packet i.2 cstate = (0, cstate) :=
  if_pos (i.1.pid_eq.trans hpid)

theorem lawful_accepted (honce : ∀ q ∈ p, q.duplicates ≤ 1) (before after : UInt8) :
    Checked.Lawful p ⟨i.1, i.2, before, 0, after⟩ ↔ ¬ OutOfSequence p i := by
  constructor
  · exact fun h hout => h.1 hout rfl
  · intro hin
    refine ⟨fun hout => absurd hout hin,?_,fun h => absurd rfl h⟩
    intro q hq
    cases hq
    exact Progress.accept_once honce hin

theorem lawful_reported (honce : ∀ q ∈ p, q.duplicates ≤ 1) : Checked.Lawful p ⟨i.1, i.2, cstate, -1, cstate⟩ :=
  ⟨fun _ h => (by cases h), honce, fun _ => rfl⟩

theorem lawful_iff (h : ChecksLinked pid cstate p e) :
    Accepts Progress.next Checked.Lawful p (checkStep cstate i).2 ↔ ¬ e.Unseen i := by
  rw [checkStep,accepts_cons,and_iff_left (accepts_nil _)]
  by_cases hpid : pid = transportNullPid
  · rw [check_null hpid,lawful_accepted h.once,← h.same,Expected.Unseen]
    simp [hpid]
  · have hout := h.outcome (i := i) hpid
    generalize transportPacketContinuityCheck i.1.packet i.2 cstate = r at hout ⊢
    cases hout with
    | base hin _ _ =>
      rw [lawful_accepted h.once]
      exact iff_of_true hin fun hunseen => hin (h.same ▸ hunseen.1)
    | duplicate hp _ _ =>
      have hin : ¬ OutOfSequence p i := by simp [hp]
      rw [lawful_accepted h.once]
      exact iff_of_true hin fun hunseen => hin (h.same ▸ hunseen.1)
    | filler n hp hpayload _ =>
      have hin : ¬ OutOfSequence p i := by simp [hp,hpayload]
      rw [lawful_accepted h.once]
      exact iff_of_true hin fun hunseen => hin (h.same ▸ hunseen.1)
    | unseen hunseen _ =>
      rw [lawful_accepted h.once]
      exact iff_of_false (fun hin => hin (h.same ▸ hunseen.1)) (fun hseen => hseen hunseen)
    | reported hseen _ => exact iff_of_true (lawful_reported h.once) hseen

theorem keep_accepted (h : ChecksLinked pid cstate p e) (hin : ¬ OutOfSequence p i) (before after : UInt8)
    (hlater : pid ≠ transportNullPid → (Progress.accept p i).counter < 16 ∧
      after = cstateOf (Progress.accept p i).counter ((Progress.accept p i).duplicates = 1 && !(e.next i).filler)) :
    ChecksLinked pid after (Progress.next p ⟨i.1, i.2, before, 0, after⟩) (e.next i) := by
  obtain ⟨rfl,honce,-,-⟩ := h
  refine ⟨Expected.next_progress hin,?_,fun _ hp => (by cases hp),?_⟩
  · intro q hq
    cases hq
    exact Progress.accept_once honce hin
  · intro hpid q hq
    cases hq
    exact hlater hpid

theorem keep (h : ChecksLinked pid cstate p e) (hseen : ¬ e.Unseen i) :
    ChecksLinked pid (checkStep cstate i).1 ((checkStep cstate i).2.foldl Progress.next p) (e.next i) := by
  rw [checkStep,foldl_cons,foldl_nil]
  by_cases hpid : pid = transportNullPid
  · rw [check_null hpid]
    refine h.keep_accepted ?_ _ _ (absurd hpid)
    exact fun hout => hseen ⟨h.same ▸ hout,Or.inl hpid⟩
  · have hout := h.outcome (i := i) hpid
    generalize transportPacketContinuityCheck i.1.packet i.2 cstate = r at hout ⊢
    cases hout with
    | base hin haccept hnext =>
      refine h.keep_accepted hin _ _ fun _ => ?_
      rw [haccept,hnext]
      exact ⟨counter_lt i.1,rfl⟩
    | duplicate hp hpayload hdisc =>
      have hin : ¬ OutOfSequence p i := by simp [hp]
      have hnext := Expected.next_of_in (e := e) (h.same ▸ hin) (fun _ => hpayload)
      refine h.keep_accepted hin _ _ fun _ => ?_
      rw [hnext,hp]
      simp [Progress.accept,hdisc,hpayload,counter_lt i.1]
    | filler n hp hpayload hdisc =>
      have hin : ¬ OutOfSequence p i := by simp [hp,hpayload]
      have hfiller : (e.next i).filler = true := by simp [Expected.next,h.same,hp,hpayload,hdisc]
      refine h.keep_accepted hin _ _ fun _ => ?_
      rw [hfiller,hp]
      simp [Progress.accept,hdisc,hpayload,counter_lt i.1]
    | unseen hunseen _ => exact absurd hunseen hseen
    | reported _ hnext =>
      rw [hnext]
      exact h

end ChecksLinked

/-- The check does what is asked of it along a sequence of packets exactly when none of them is out of sequence
without being seen to be so. -/
theorem checks_lawful_iff (packets : List (PacketOf pid × Int)) :
    Accepts Progress.next Checked.Lawful none (checks packets) ↔
      Accepts Expected.next (fun e i => ¬ e.Unseen i) ⟨none, false⟩ packets := by
  have hstart : ChecksLinked pid 0 none ⟨none, false⟩ :=
    ⟨rfl, fun q hq => (by cases hq), fun _ _ => rfl, fun _ q hq => (by cases hq)⟩
  rw [checks]
  refine runTrace_accepts_iff_inputs (ChecksLinked pid) ?_ ?_ hstart packets
  · exact fun _ _ _ _ h => h.lawful_iff
  · exact fun _ _ _ _ h hseen => h.keep hseen

section Filler

def payloadPacket (counter : UInt8) : TransportPacket :=
  ⟨[0x47, 0x01, 0x00, 0x10 ||| counter] ++ List.replicate 184 0xff, by rw [List.length_append,List.length_replicate]; rfl⟩

def fillerPacket (counter : UInt8) : TransportPacket :=
  ⟨[0x47, 0x01, 0x00, 0x20 ||| counter, 183, 0x00] ++ List.replicate 182 0xff, by rw [List.length_append,List.length_replicate]; rfl⟩

def maskedDuplicate : List (PacketOf 0x100 × Int) :=
  [(⟨payloadPacket 5, rfl⟩, 0), (⟨payloadPacket 5, rfl⟩, 0), (⟨fillerPacket 5, rfl⟩, 0), (⟨payloadPacket 5, rfl⟩, 0)]

/-- The second duplicate is accepted. -/
theorem checks_maskedDuplicate_not_lawful : ¬ Accepts Progress.next Checked.Lawful none (checks maskedDuplicate) := by
  rintro ⟨-, -, -, ⟨hreported, -, -⟩, -⟩
  exact hreported ⟨⟨5, 1⟩, rfl, rfl, rfl, by decide, by decide⟩ rfl

end Filler

end LinuxDvb.Ucsi
