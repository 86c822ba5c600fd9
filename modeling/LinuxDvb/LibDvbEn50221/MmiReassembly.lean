import LinuxDvb.Framework.Trace
import LinuxDvb.LibDvbEn50221.MmiTexts

/-!
# Reassembly of MMI objects

An object is handled with all of its fragments as long as no call comes after the clearing of a session that has an
entry, no empty fragment meets an allocated block without bytes, and the texts of menus and lists do not leave their
object.
-/

namespace LinuxDvb.En50221

abbrev MmiInput := MmiCall × MmiIo

abbrev MmiRun := Mmi × Pending UInt16 MmiObject

def MmiCall.locks : MmiCall → Bool
  | .message _ _ data => (mmiApdu data).isOk
  | .clearSession _ => true
  | .register _ _ => true
  | _ => false

/-- How the handling of an object that is complete is to end, `none` if no object is. -/
def Mmi.objectDue (mmi : Mmi) (kind : MmiObject) (slotId : UInt8) (sessionNumber : UInt16) (io : MmiIo) :
    Collected → Option (Option ObjectEnd)
  | .object data => some (mmi.object kind slotId sessionNumber data io)
  | _ => none

def MmiCall.collect (call : MmiCall) (mmi : Mmi) (io : MmiIo) (p : Pending UInt16 MmiObject) :
    Pending UInt16 MmiObject × Option (Option ObjectEnd) :=
  match call with
  | .message slotId sessionNumber data =>
    match mmiApdu data with
    | .ok (.fragment kind last fragment) =>
      let collected := p.collect sessionNumber kind last fragment io.alloc
      (collected.1, mmi.objectDue kind slotId sessionNumber io collected.2)
    | _ => (p, none)
  | .clearSession sessionNumber => (p.clear sessionNumber, none)
  | _ => (p, none)

/-- A call returns with the chains as they should be, and an object that it completes is handled. -/
def Mmi.Meets (outcome : MmiOutcome) (due : Pending UInt16 MmiObject × Option (Option ObjectEnd)) : Prop :=
  ∃ state result events, outcome = .returned state result events ∧ Represents state.sessions due.1 ∧
    ∀ handled, due.2 = some handled → ∃ locked, handled = some ⟨locked, result, events⟩

def Readable (kind : MmiObject) (data : List UInt8) (io : MmiIo) : Prop :=
  kind = .menu ∨ kind = .list →
    match data with
    | [] => True
    | choiceNb :: data =>
      io.textFlags = true ∧ io.textData = true →
        extractTexts io.text (textCount choiceNb).toNat data data.length ≠ .undefined

namespace MmiRun

def start : MmiRun := (mmiCreate, Pending.empty)

def step (s : MmiRun) (i : MmiInput) : MmiRun × List MmiEvent :=
  let outcome := s.1.call i.2 i.1
  ((outcome.stateFrom s.1, (i.1.collect s.1 i.2 s.2).1), outcome.events)

/-- The call reassembles: the last fragment of an object has it handled with all that its session has sent
of the kind since the last object or clearing, and no other chain changes. The functions that send change
none. -/
def Reassembles (s : MmiRun) (i : MmiInput) : Prop :=
  match i.1 with
  | .message .. | .clearSession _ | .register .. => Mmi.Meets (s.1.call i.2 i.1) (i.1.collect s.1 i.2 s.2)
  | _ => Represents ((s.1.call i.2 i.1).stateFrom s.1).sessions s.2

/-- The lock is free if the call takes it. The chain of the session can take a fragment, and the texts of an
object that is complete then can be taken out of it. -/
def Admits (s : MmiRun) (i : MmiInput) : Prop :=
  (i.1.locks = true → s.1.locked = false) ∧
    match i.1 with
    | .message _ sessionNumber data =>
      match mmiApdu data with
      | .ok (.fragment kind last fragment) =>
        let chain := s.1.sessions.chain sessionNumber kind
        chain.Growable fragment i.2.alloc.block ∧
          (last = true → ((s.1.sessions.find sessionNumber).isSome → i.2.alloc.block = true) →
            Readable kind (chain.bytes ++ fragment) i.2)
      | _ => True
    | _ => True

end MmiRun

theorem length_of_objectApdu {data fragment : List UInt8} {kind k : MmiObject} {last l : Bool}
    (h : objectApdu k l data = .ok (.fragment kind last fragment)) : fragment.length < 2 ^ 16 := by
  unfold objectApdu at h
  cases hsplit : splitBody data with
  | error r =>
    rw [hsplit] at h
    cases h
  | ok b =>
    rw [hsplit] at h
    cases h
    exact length_of_splitBody hsplit

theorem mmiApdu_cases {P : Except Refusal MmiApdu → Prop} (data : List UInt8)
    (htold : ∀ callback (p : Except Refusal MmiArgs), P (p.map (MmiApdu.told callback)))
    (hobject : ∀ kind last data, P (objectApdu kind last data)) (hrefused : ∀ r, P (.error r)) :
    P (mmiApdu data) := by
  unfold mmiApdu
  cases takeTag data with
  | none => exact hrefused _
  | some t =>
    dsimp only
    iterate 15
      refine iteInduction (fun _ => ?_) (fun _ => ?_)
      · first
          | exact htold _ _
          | exact hobject _ _ _
    exact hrefused _

theorem length_of_mmiApdu {data fragment : List UInt8} {kind : MmiObject} {last : Bool}
    (h : mmiApdu data = .ok (.fragment kind last fragment)) : fragment.length < 2 ^ 16 := by
  revert h
  refine mmiApdu_cases (P := fun a => a = .ok (.fragment kind last fragment) → fragment.length < 2 ^ 16) data
    ?_ ?_ ?_
  · intro callback p hcon
    cases p <;> cases hcon
  · exact fun k l body h => length_of_objectApdu h
  · intro r hcon
    cases hcon

namespace Mmi

variable {s : Mmi} {p : Pending UInt16 MmiObject} {slotId : UInt8} {sessionNumber : UInt16} {io : MmiIo}

theorem object_isSome_iff (mmi : Mmi) (kind : MmiObject) (slotId : UInt8) (sessionNumber : UInt16)
    (data : List UInt8) (io : MmiIo) :
    (mmi.object kind slotId sessionNumber data io).isSome ↔ Readable kind data io := by
  have hlist : ∀ callback, (mmi.listMenu callback slotId sessionNumber data io).isSome ↔
      match data with
      | [] => True
      | choiceNb :: data =>
        io.textFlags = true ∧ io.textData = true →
          extractTexts io.text (textCount choiceNb).toNat data data.length ≠ .undefined := by
    intro callback
    unfold listMenu
    cases data with
    | nil => exact iff_of_true rfl trivial
    | cons choiceNb data =>
      cases io.textFlags <;> cases io.textData <;> simp
      cases extractTexts io.text (textCount choiceNb).toNat data data.length with
      | undefined => simp
      | failed r => simp
      | texts texts data dataLength => cases io.textDataForUser <;> simp
  unfold object Readable
  cases kind with
  | menu => simpa using hlist .menu
  | list => simpa using hlist .list
  | subtitleSegment => simp
  | subtitleDownload => simp

theorem finish_meets {q : Pending UInt16 MmiObject} {handled : Option ObjectEnd} (h : Represents s.sessions q) :
    Meets (s.finish handled) (q, some handled) ↔ handled.isSome := by
  cases handled with
  | none =>
    refine iff_of_false ?_ (fun hcon => Bool.noConfusion hcon)
    rintro ⟨state,result,events,heq,-⟩
    cases heq
  | some e =>
    refine iff_of_true ⟨_,_,_,rfl,h,?_⟩ rfl
    rintro _ ⟨⟩
    exact ⟨e.locked,rfl⟩

/-- A fragment is taken as it should be exactly if its chain can take it, and the texts of an object that is
complete then can be taken out of it. -/
theorem takeFragment_meets (slotId : UInt8) (sessionNumber : UInt16) (kind : MmiObject) (last : Bool)
    (io : MmiIo) {fragment : List UInt8} (h : Represents s.sessions p) (hlength : fragment.length < 2 ^ 16) :
    let collected := p.collect sessionNumber kind last fragment io.alloc
    let chain := s.sessions.chain sessionNumber kind
    Meets (s.takeFragment slotId sessionNumber kind last fragment io)
        (collected.1, s.objectDue kind slotId sessionNumber io collected.2) ↔
      chain.Growable fragment io.alloc.block ∧
        (last = true → ((s.sessions.find sessionNumber).isSome → io.alloc.block = true) →
          Readable kind (chain.bytes ++ fragment) io) := by
  intro collected chain
  unfold takeFragment defragment
  by_cases hgrow : chain.Growable fragment io.alloc.block
  · have hagrees := h.agrees last hgrow
    generalize s.sessions.defragment sessionNumber kind last fragment io.alloc = d at hagrees ⊢
    generalize hc : p.collect sessionNumber kind last fragment io.alloc = c at hagrees
    rw [show collected = c from hc]
    cases hagrees with
    | noMemory hrep hlast =>
      refine iff_of_true ⟨_,_,_,rfl,hrep,fun _ hcon => nomatch hcon⟩ ⟨hgrow,?_⟩
      intro hl hb
      obtain ⟨hsome,hblock⟩ := hlast hl
      rw [hb hsome] at hblock
      cases hblock
    | kept hrep hlast =>
      refine iff_of_true ⟨_,_,_,rfl,hrep,fun _ hcon => nomatch hcon⟩ ⟨hgrow,?_⟩
      intro hl
      rw [hlast] at hl
      cases hl
    | single hrep hlast hfind =>
      have hnull : chain.bytes = [] := by
        rw [show chain = .null from ChainTable.chain_of_find_eq_none hfind kind]
        rfl
      refine (finish_meets hrep).trans ((object_isSome_iff ..).trans ?_)
      rw [hnull,nil_append]
      refine ⟨fun hread => ⟨hgrow,fun _ _ => hread⟩,fun hok => hok.2 hlast ?_⟩
      intro hcon
      rw [hfind] at hcon
      cases hcon
    | joined hrep hlast hfind hblock =>
      refine Iff.trans (finish_meets hrep) ((object_isSome_iff ..).trans ?_)
      exact ⟨fun hread => ⟨hgrow,fun _ _ => hread⟩,fun hok => hok.2 hlast (fun _ => hblock)⟩
  · have hlost := h.defragment_of_not_growable last (Nat.lt_trans hlength (by decide)) hgrow
    refine iff_of_false ?_ (fun hcon => hgrow hcon.1)
    rintro ⟨state,result,events,heq,hrep,-⟩
    obtain hund | ⟨t,ht,hdangling⟩ := hlost
    · rw [hund] at heq
      cases heq
    · rw [ht] at heq
      cases heq
      exact hrep.live sessionNumber kind hdangling

theorem Meets.of_returned {result : Int} {events : List MmiEvent} (h : Represents s.sessions p) :
    Meets (.returned s result events) (p, none) :=
  ⟨s, result, events, rfl, h, fun _ hcon => nomatch hcon⟩

theorem meets_withLock {outcome : MmiOutcome} {due : Pending UInt16 MmiObject × Option (Option ObjectEnd)}
    {ok : Prop} (h : Meets outcome due ↔ ok) :
    Meets (.withLock s.locked outcome) due ↔ s.locked = false ∧ ok := by
  unfold AppOutcome.withLock
  cases s.locked with
  | false => simpa using h
  | true =>
    refine iff_of_false ?_ (fun hcon => Bool.noConfusion hcon.1)
    rintro ⟨state,result,events,heq,-⟩
    cases heq

theorem clearSession_meets (h : Represents s.sessions p) (sessionNumber : UInt16) :
    Meets (s.clearSession sessionNumber) (p.clear sessionNumber, none) ↔ s.locked = false := by
  have hclear := h.clear sessionNumber
  unfold clearSession
  refine (meets_withLock (iff_true_intro ?_)).trans (and_iff_left trivial)
  cases hfind : s.sessions.find sessionNumber with
  | none =>
    rw [ChainTable.clear_of_find_eq_none hfind] at hclear
    exact .of_returned hclear
  | some e =>
    have hlive : ∀ kind, e.chains kind ≠ .dangling := by
      intro kind
      rw [← ChainTable.chain_of_find_eq_some hfind]
      exact h.live sessionNumber kind
    simp only [hlive,or_self,if_false]
    exact ⟨_,_,_,rfl,hclear,fun _ hcon => nomatch hcon⟩

end Mmi

theorem MmiRun.reassembles_of_sends {s : MmiRun} (h : Represents s.1.sessions s.2) {i : MmiInput}
    (hsends : i.1.sends = true) : Represents ((s.1.call i.2 i.1).stateFrom s.1).sessions s.2 := by
  obtain hund | ⟨result,events,hret⟩ := s.1.call_of_sends i.2 hsends
  · rw [hund]
    exact h
  · rw [hret]
    exact h

theorem MmiRun.reassembles_iff {s : MmiRun} (h : Represents s.1.sessions s.2) (i : MmiInput) :
    s.Reassembles i ↔ s.Admits i := by
  obtain ⟨call,io⟩ := i
  cases call with
  | message slotId sessionNumber data =>
    unfold Reassembles Admits Mmi.call MmiCall.collect MmiCall.locks
    simp only [Mmi.message_eq]
    cases hapdu : mmiApdu data with
    | error r => exact iff_of_true (.of_returned h) ⟨fun hcon => Bool.noConfusion hcon,trivial⟩
    | ok apdu =>
      cases apdu with
      | told callback args =>
        have htell : Mmi.Meets (.tell s.1 (s.1.callbacks callback) slotId sessionNumber args io.callback)
            (s.2, none) := by
          unfold AppOutcome.tell
          cases s.1.callbacks callback with
          | none => exact .of_returned h
          | some cb => exact .of_returned h
        simpa [AppOutcome.parsed,Mmi.takeApdu,Except.isOk,Except.toBool] using
          Mmi.meets_withLock (iff_true_intro htell)
      | fragment kind last fragment =>
        have htake := Mmi.takeFragment_meets slotId sessionNumber kind last io h (length_of_mmiApdu hapdu)
        simpa [AppOutcome.parsed,Mmi.takeApdu,Except.isOk,Except.toBool] using Mmi.meets_withLock htake
  | clearSession sessionNumber =>
    have hclear := Mmi.clearSession_meets h sessionNumber
    simpa [Reassembles,Admits,Mmi.call,MmiCall.collect,MmiCall.locks] using hclear
  | register kind callback =>
    have hset : Mmi.Meets (.returned { s.1 with callbacks := Function.update s.1.callbacks kind callback } 0 [])
        (s.2, none) := .of_returned h
    simpa [Reassembles,Admits,Mmi.call,MmiCall.collect,MmiCall.locks,Mmi.register] using
      Mmi.meets_withLock (iff_true_intro hset)
  | _ => exact iff_of_true (reassembles_of_sends h rfl) ⟨fun hcon => Bool.noConfusion hcon,trivial⟩

theorem MmiRun.represents_step {s : MmiRun} {i : MmiInput} (h : s.Reassembles i) :
    Represents (s.step i).1.1.sessions (s.step i).1.2 := by
  have hmeets : Mmi.Meets (s.1.call i.2 i.1) (i.1.collect s.1 i.2 s.2) →
      Represents (s.step i).1.1.sessions (s.step i).1.2 := by
    rintro ⟨state,result,events,heq,hrep,-⟩
    unfold step
    rw [heq]
    exact hrep
  obtain ⟨call,io⟩ := i
  cases call with
  | message slotId sessionNumber data => exact hmeets h
  | clearSession sessionNumber => exact hmeets h
  | register kind callback => exact hmeets h
  | _ => exact h

/-- All calls of a run reassemble exactly if all of them are admitted, and the texts of an object come with
all of their fragments exactly if none starts with two empty ones. -/
theorem mmi_reassembles_iff (calls : List MmiInput) (o : TextObject) :
    (StepsMeet MmiRun.step MmiRun.Reassembles .start calls ↔ StepsMeet MmiRun.step MmiRun.Admits .start calls) ∧
      (extractTexts (fun _ => true) o.texts.length o.encode o.encode.length =
            .texts (o.texts.map fun t => ⟨t.joined, t.joined.length⟩) o.rest o.rest.length ↔
          ∀ t ∈ o.texts, ¬t.StartsEmpty) := by
  refine ⟨?_, extractTexts_encode_iff o⟩
  refine stepsMeet_iff_of_invariant (fun s => Represents s.1.sessions s.2) ?_ ?_ Represents.empty calls
  · exact fun s i h => MmiRun.reassembles_iff h i
  · exact fun s i h hadmits => MmiRun.represents_step ((MmiRun.reassembles_iff h i).mpr hadmits)

/-- A session with an unfinished list is cleared, and the subtitle of another session is never seen. -/
theorem mmi_not_reassembles : ¬StepsMeet MmiRun.step MmiRun.Reassembles .start
      [(.register .subtitleSegment (some 7), ⟨⟨0, 0, ⟨true, true⟩⟩, fun _ => true, true, true, true⟩),
       (.message 0 1 [0x9f, 0x88, 0x0d, 0x01, 0x41], ⟨⟨0, 0, ⟨true, true⟩⟩, fun _ => true, true, true, true⟩),
       (.clearSession 1, ⟨⟨0, 0, ⟨true, true⟩⟩, fun _ => true, true, true, true⟩),
       (.message 0 2 [0x9f, 0x88, 0x0e, 0x01, 0x42],
         ⟨⟨0, 0, ⟨true, true⟩⟩, fun _ => true, true, true, true⟩)] := by
  rintro ⟨-, -, -, ⟨state, result, events, heq, -⟩, -⟩
  cases heq

end LinuxDvb.En50221
