import LinuxDvb.Framework.Trace
import LinuxDvb.LibDvbEn50221.Lowspeed

/-!
# Reassembly of the blocks to send

The send callback sees each block as a whole as long as no call comes after the clearing of a session that
has an entry, no empty fragment meets an allocated block without bytes, and the blocks are shorter than
2^16 bytes.
-/

namespace LinuxDvb.En50221

abbrev LowspeedInput := LowspeedCall × AppIo

def isSend : LowspeedEvent → Bool
  | .callback _ _ _ (.send _ _) => true
  | _ => false

def blockDue (callback : Option Nat) (slotId : UInt8) (sessionNumber : UInt16) : List UInt8 → List LowspeedEvent
  | [] => []
  | phaseId :: data =>
    match callback with
    | none => []
    | some cb => [.callback cb slotId sessionNumber (.send phaseId data)]

def sendsDue (callback : Option Nat) (slotId : UInt8) (sessionNumber : UInt16) : Collected → List LowspeedEvent
  | .object data => blockDue callback slotId sessionNumber data
  | _ => []

namespace LowspeedCall

def collect (call : LowspeedCall) (io : AppIo) (p : Pending UInt16 Unit) (callback : Option Nat) :
    Pending UInt16 Unit × List LowspeedEvent :=
  match call with
  | .message slotId sessionNumber data =>
    match lowspeedApdu data with
    | .ok (.fragment last fragment) =>
      let collected := p.collect sessionNumber () last fragment io.alloc
      (collected.1, sendsDue callback slotId sessionNumber collected.2)
    | _ => (p, [])
  | .clearSession sessionNumber => (p.clear sessionNumber, [])
  | _ => (p, [])

def locks : LowspeedCall → Bool
  | .message _ _ data => (lowspeedApdu data).isOk
  | .sendCommsReply .. => false
  | .sendCommsData .. => false
  | _ => true

end LowspeedCall

/-- A call returns, with the chains as they should be and the send callback called as it should be. -/
def Lowspeed.Meets (outcome : LowspeedOutcome) (due : Pending UInt16 Unit × List LowspeedEvent) : Prop :=
  ∃ state result events, outcome = .returned state result events ∧ Represents state.sessions due.1 ∧
    events.filter isSend = due.2

abbrev LowspeedRun := Lowspeed × Pending UInt16 Unit

def LowspeedRun.start : LowspeedRun := (lowspeedCreate, Pending.empty)

def LowspeedRun.step (s : LowspeedRun) (i : LowspeedInput) : LowspeedRun × List LowspeedEvent :=
  let outcome := s.1.call i.2 i.1
  ((outcome.stateFrom s.1, (i.1.collect i.2 s.2 s.1.sendCallback).1), outcome.events)

/-- The call reassembles: a last fragment makes the send callback see what its session has sent since the
last block or clearing, and no other chain changes. -/
def LowspeedRun.Reassembles (s : LowspeedRun) (i : LowspeedInput) : Prop :=
  Lowspeed.Meets (s.1.call i.2 i.1) (i.1.collect i.2 s.2 s.1.sendCallback)

/-- The lock is free if the call takes it. The chain of the session can take a fragment, and what goes to a
callback has a length of 16 bits. -/
def LowspeedRun.Admits (s : LowspeedRun) (i : LowspeedInput) : Prop :=
  (i.1.locks = true → s.1.locked = false) ∧
    match i.1 with
    | .message _ sessionNumber data =>
      match lowspeedApdu data with
      | .ok (.fragment last fragment) =>
        let chain := s.1.sessions.chain sessionNumber ()
        chain.Growable fragment i.2.alloc.block ∧
          (last = true → s.1.sendCallback.isSome → i.2.alloc.block = true →
            chain.bytes.length + fragment.length < 2 ^ 16)
      | _ => True
    | _ => True

theorem blockDue_inj {cb : Nat} {slotId : UInt8} {sessionNumber : UInt16} {xs ys : List UInt8} :
    blockDue (some cb) slotId sessionNumber xs = blockDue (some cb) slotId sessionNumber ys ↔ xs = ys := by
  cases xs <;> cases ys <;> simp [blockDue]

theorem length_of_lowspeedApdu {data fragment : List UInt8} {last : Bool}
    (h : lowspeedApdu data = .ok (.fragment last fragment)) : fragment.length < 2 ^ 16 := by
  have hbody : ∀ (rest : List UInt8) (last' : Bool),
      ((splitBody rest).map fun b => LowspeedApdu.fragment last' b.1) = .ok (.fragment last fragment) →
        fragment.length < 2 ^ 16 := by
    intro rest last' hmap
    cases hsplit : splitBody rest with
    | error r =>
      rw [hsplit] at hmap
      cases hmap
    | ok b =>
      rw [hsplit] at hmap
      cases hmap
      exact length_of_splitBody hsplit
  unfold lowspeedApdu at h
  split at h
  · cases h
  split at h
  · rename_i rest _ _
    cases hcommand : parsedCommand rest with
    | error r =>
      rw [hcommand] at h
      cases h
    | ok c =>
      rw [hcommand] at h
      cases h
  split at h
  · exact hbody _ _ h
  split at h
  · exact hbody _ _ h
  · cases h

namespace Lowspeed

variable {s : Lowspeed} {p : Pending UInt16 Unit} {slotId : UInt8} {sessionNumber : UInt16} {io : AppIo}

theorem sendBlock_returned (s : Lowspeed) (slotId : UInt8) (sessionNumber : UInt16) (data : List UInt8) (n : Nat)
    (io : AppIo) : ∃ result events, s.sendBlock slotId sessionNumber data n io = .returned s result events ∧
      events.filter isSend = blockDue s.sendCallback slotId sessionNumber (data.take n) := by
  unfold sendBlock
  cases data.take n with
  | nil => exact ⟨_,_,rfl,rfl⟩
  | cons phaseId data =>
    unfold AppOutcome.tell blockDue
    cases s.sendCallback with
    | none => exact ⟨_,_,rfl,rfl⟩
    | some cb => exact ⟨_,_,rfl,rfl⟩

theorem sendBlock_meets {q : Pending UInt16 Unit} {data : List UInt8} {n : Nat} (h : Represents s.sessions q) :
    Meets (s.sendBlock slotId sessionNumber data n io) (q, blockDue s.sendCallback slotId sessionNumber data) ↔
      (s.sendCallback.isSome → data.length ≤ n) := by
  obtain ⟨result,events,hsend,hevents⟩ := sendBlock_returned s slotId sessionNumber data n io
  rw [hsend]
  constructor
  · rintro ⟨state,result',events',heq,-,hdue⟩ hsome
    obtain ⟨cb,hcb⟩ := isSome_iff_exists.mp hsome
    obtain ⟨-,-,rfl⟩ := AppOutcome.returned.inj heq
    rw [hevents,hcb,blockDue_inj] at hdue
    have hlen := congrArg List.length hdue
    rw [length_take] at hlen
    omega
  · intro hle
    refine ⟨s,result,events,rfl,h,?_⟩
    rw [hevents]
    cases hcb : s.sendCallback with
    | none => cases data.take n <;> cases data <;> rfl
    | some cb =>
      rw [hcb] at hle
      rw [take_of_length_le (hle rfl)]

/-- A fragment is taken as it should be exactly if its chain can take it, and a block that is complete then
fits the 16 bits of its length. -/
theorem takeFragment_meets (slotId : UInt8) (sessionNumber : UInt16) (last : Bool) (io : AppIo)
    {fragment : List UInt8} (h : Represents s.sessions p) (hlength : fragment.length < 2 ^ 16) :
    let collected := p.collect sessionNumber () last fragment io.alloc
    let chain := s.sessions.chain sessionNumber ()
    Meets (s.takeFragment slotId sessionNumber last fragment io)
        (collected.1, sendsDue s.sendCallback slotId sessionNumber collected.2) ↔
      chain.Growable fragment io.alloc.block ∧
        (last = true → s.sendCallback.isSome → io.alloc.block = true →
          chain.bytes.length + fragment.length < 2 ^ 16) := by
  intro collected chain
  unfold takeFragment
  by_cases hgrow : chain.Growable fragment io.alloc.block
  · have hagrees := h.agrees last hgrow
    generalize s.sessions.defragment sessionNumber () last fragment io.alloc = d at hagrees ⊢
    generalize hc : p.collect sessionNumber () last fragment io.alloc = c at hagrees
    rw [show collected = c from hc]
    cases hagrees with
    | noMemory hrep hlast =>
      refine iff_of_true ⟨_,_,_,rfl,hrep,rfl⟩ ⟨hgrow,?_⟩
      intro hl _ hb
      rw [(hlast hl).2] at hb
      cases hb
    | kept hrep hlast =>
      refine iff_of_true ⟨_,_,_,rfl,hrep,rfl⟩ ⟨hgrow,?_⟩
      intro hl
      rw [hlast] at hl
      cases hl
    | single hrep hlast hfind =>
      refine iff_of_true ((sendBlock_meets hrep).mpr (fun _ => Nat.le_refl _)) ⟨hgrow,?_⟩
      intro _ _ _
      rw [show chain = .null from ChainTable.chain_of_find_eq_none hfind ()]
      simpa [HeapBlock.bytes] using hlength
    | joined hrep hlast hfind hblock =>
      refine Iff.trans (sendBlock_meets hrep) ?_
      rw [length_append,show s.sessions.chain sessionNumber () = chain from rfl]
      constructor
      · intro hle
        refine ⟨hgrow,fun _ hsome _ => ?_⟩
        have hfits := hle hsome
        omega
      · intro hok hsome
        have hfits := hok.2 hlast hsome hblock
        omega
  · have hlost := h.defragment_of_not_growable last (Nat.lt_trans hlength (by decide)) hgrow
    refine iff_of_false ?_ (fun hcon => hgrow hcon.1)
    rintro ⟨state,result,events,heq,hrep,-⟩
    obtain hund | ⟨t,ht,hdangling⟩ := hlost
    · rw [hund] at heq
      cases heq
    · rw [ht] at heq
      cases heq
      exact hrep.live sessionNumber () hdangling

theorem Meets.of_returned {result : Int} {events : List LowspeedEvent} (h : Represents s.sessions p)
    (hevents : events.filter isSend = []) : Meets (.returned s result events) (p, []) :=
  ⟨s, result, events, rfl, h, hevents⟩

theorem not_meets_blocks (due : Pending UInt16 Unit × List LowspeedEvent) : ¬Meets .blocks due := by
  rintro ⟨state,result,events,heq,-⟩
  cases heq

theorem meets_withLock {outcome : LowspeedOutcome} {due : Pending UInt16 Unit × List LowspeedEvent} {ok : Prop}
    (h : Meets outcome due ↔ ok) :
    Meets (.withLock s.locked outcome) due ↔ s.locked = false ∧ ok := by
  unfold AppOutcome.withLock
  cases s.locked with
  | false => simpa using h
  | true => simpa using not_meets_blocks due

theorem tell_meets (slotId : UInt8) (sessionNumber : UInt16) (commandId : UInt8) (command : LowspeedCommand)
    (status : Int) (h : Represents s.sessions p) :
    Meets (.tell s s.commandCallback slotId sessionNumber (.command commandId command) status) (p, []) := by
  unfold AppOutcome.tell
  cases s.commandCallback with
  | none => exact .of_returned h rfl
  | some cb => exact .of_returned h rfl

theorem clearSession_meets (h : Represents s.sessions p) (sessionNumber : UInt16) :
    Meets (s.clearSession sessionNumber) (p.clear sessionNumber, []) ↔ s.locked = false := by
  have hclear := h.clear sessionNumber
  unfold clearSession
  refine (meets_withLock (iff_true_intro ?_)).trans (and_iff_left trivial)
  cases hfind : s.sessions.find sessionNumber with
  | none =>
    rw [ChainTable.clear_of_find_eq_none hfind] at hclear
    exact .of_returned hclear rfl
  | some e =>
    have hlive := h.live sessionNumber ()
    rw [ChainTable.chain_of_find_eq_some hfind] at hlive
    simp only [hlive,if_false]
    exact ⟨_,_,_,rfl,hclear,rfl⟩

end Lowspeed

theorem LowspeedRun.reassembles_iff {s : LowspeedRun} (h : Represents s.1.sessions s.2) (i : LowspeedInput) :
    s.Reassembles i ↔ s.Admits i := by
  obtain ⟨call,io⟩ := i
  unfold Reassembles Admits Lowspeed.call LowspeedCall.collect LowspeedCall.locks
  cases call with
  | message slotId sessionNumber data =>
    simp only [Lowspeed.message_eq]
    cases hapdu : lowspeedApdu data with
    | error r => exact iff_of_true (.of_returned h rfl) ⟨fun hcon => Bool.noConfusion hcon,trivial⟩
    | ok apdu =>
      cases apdu with
      | command commandId command =>
        have htell := Lowspeed.tell_meets slotId sessionNumber commandId command io.callback h
        simpa [AppOutcome.parsed,Lowspeed.takeApdu,Except.isOk,Except.toBool] using
          Lowspeed.meets_withLock (iff_true_intro htell)
      | fragment last fragment =>
        have htake := Lowspeed.takeFragment_meets slotId sessionNumber last io h
          (length_of_lowspeedApdu hapdu)
        simpa [AppOutcome.parsed,Lowspeed.takeApdu,Except.isOk,Except.toBool] using
          Lowspeed.meets_withLock htake
  | clearSession sessionNumber => simpa using Lowspeed.clearSession_meets h sessionNumber
  | registerCommandCallback callback =>
    have hset : Lowspeed.Meets (.returned { s.1 with commandCallback := callback } 0 []) (s.2, []) :=
      .of_returned h rfl
    simpa [Lowspeed.registerCommandCallback] using Lowspeed.meets_withLock (iff_true_intro hset)
  | registerSendCallback callback =>
    have hset : Lowspeed.Meets (.returned { s.1 with sendCallback := callback } 0 []) (s.2, []) :=
      .of_returned h rfl
    simpa [Lowspeed.registerSendCallback] using Lowspeed.meets_withLock (iff_true_intro hset)
  | sendCommsReply sessionNumber commsReplyId returnValue =>
    exact iff_of_true (.of_returned h rfl) ⟨fun hcon => Bool.noConfusion hcon,trivial⟩
  | sendCommsData sessionNumber phaseId txData =>
    refine iff_of_true ?_ ⟨fun hcon => Bool.noConfusion hcon,trivial⟩
    unfold Lowspeed.sendCommsData
    dsimp only
    split
    · exact .of_returned h rfl
    split
    · exact .of_returned h rfl
    · exact .of_returned h rfl

theorem LowspeedRun.represents_step {s : LowspeedRun} {i : LowspeedInput} (h : s.Reassembles i) :
    Represents (s.step i).1.1.sessions (s.step i).1.2 := by
  obtain ⟨state,result,events,heq,hrep,-⟩ := h
  unfold step
  rw [heq]
  exact hrep

/-- All calls of a run reassemble exactly if all of them are admitted. -/
theorem lowspeed_reassembles_iff (calls : List LowspeedInput) :
    StepsMeet LowspeedRun.step LowspeedRun.Reassembles .start calls ↔
      StepsMeet LowspeedRun.step LowspeedRun.Admits .start calls := by
  refine stepsMeet_iff_of_invariant (fun s => Represents s.1.sessions s.2) ?_ ?_ Represents.empty calls
  · exact fun s i h => LowspeedRun.reassembles_iff h i
  · exact fun s i h hadmits => LowspeedRun.represents_step ((LowspeedRun.reassembles_iff h i).mpr hadmits)

/-- A session with an unfinished block is cleared, and the block of another session is never seen. -/
theorem lowspeed_not_reassembles : ¬StepsMeet LowspeedRun.step LowspeedRun.Reassembles .start
      [(.registerSendCallback (some 7), ⟨0, 0, ⟨true, true⟩⟩),
       (.message 0 1 [0x9f, 0x8c, 0x04, 0x01, 0x41], ⟨0, 0, ⟨true, true⟩⟩),
       (.clearSession 1, ⟨0, 0, ⟨true, true⟩⟩),
       (.message 0 2 [0x9f, 0x8c, 0x03, 0x01, 0x42], ⟨0, 0, ⟨true, true⟩⟩)] := by
  rintro ⟨-, -, -, ⟨state, result, events, heq, -⟩, -⟩
  cases heq

end LinuxDvb.En50221
