import LinuxDvb.LibDvbEn50221.LowspeedReassembly
import LinuxDvb.LibDvbEn50221.MmiReassembly

/-!
# Locks of the application resources

Every way out of the calls of the two resources releases the lock, except for the way out of the clearing of
a session that has an entry, and the way out of the handling of a menu or list when there is no memory for
the copy of its texts.
-/

namespace LinuxDvb.En50221

def AppOutcome.Releases {σ α : Type} (locked : σ → Bool) : AppOutcome σ α → Prop
  | .returned state _ _ => locked state = false
  | .blocks => False
  | .undefined => True

theorem releases_withLock {σ α : Type} {locked : σ → Bool} {outcome : AppOutcome σ α} {held : Bool}
    (h : held = false) : (AppOutcome.withLock held outcome).Releases locked ↔ outcome.Releases locked := by
  rw [h]
  rfl

theorem releases_tell {σ α : Type} {locked : σ → Bool} {s : σ} (h : locked s = false) (callback : Option Nat)
    (slotId : UInt8) (sessionNumber : UInt16) (args : α) (status : Int) :
    (AppOutcome.tell s callback slotId sessionNumber args status).Releases locked := by
  cases callback with
  | none => exact h
  | some cb => exact h

/-! ### Low-speed communication -/

def Lowspeed.step (s : Lowspeed) (i : LowspeedInput) : Lowspeed × List LowspeedEvent :=
  let outcome := s.call i.2 i.1
  (outcome.stateFrom s, outcome.events)

def Lowspeed.Releases (s : Lowspeed) (i : LowspeedInput) : Prop :=
  (s.call i.2 i.1).Releases Lowspeed.locked

def Lowspeed.ClearsEntry (s : Lowspeed) (i : LowspeedInput) : Prop :=
  match i.1 with
  | .clearSession sessionNumber =>
    (s.sessions.find sessionNumber).isSome ∧ s.sessions.chain sessionNumber () ≠ .dangling
  | _ => False

theorem Lowspeed.sendBlock_releases {s : Lowspeed} (h : s.locked = false) (slotId : UInt8)
    (sessionNumber : UInt16) (data : List UInt8) (n : Nat) (io : AppIo) :
    (s.sendBlock slotId sessionNumber data n io).Releases Lowspeed.locked := by
  unfold sendBlock
  split
  · exact h
  · exact releases_tell h ..

theorem Lowspeed.takeApdu_releases {s : Lowspeed} (h : s.locked = false) (slotId : UInt8)
    (sessionNumber : UInt16) (io : AppIo) (apdu : LowspeedApdu) :
    (s.takeApdu slotId sessionNumber io apdu).Releases Lowspeed.locked := by
  cases apdu with
  | command commandId command => exact releases_tell h ..
  | fragment last fragment =>
    unfold takeApdu takeFragment
    dsimp only
    cases s.sessions.defragment sessionNumber () last fragment io.alloc with
    | undefined => trivial
    | noMemory t => exact h
    | kept t => exact h
    | single data => exact sendBlock_releases h ..
    | joined t data => exact sendBlock_releases (s := { s with sessions := t }) h ..

theorem Lowspeed.clearSession_releases_iff {s : Lowspeed} (h : s.locked = false) (sessionNumber : UInt16) :
    (s.clearSession sessionNumber).Releases Lowspeed.locked ↔
      ¬((s.sessions.find sessionNumber).isSome ∧ s.sessions.chain sessionNumber () ≠ .dangling) := by
  unfold clearSession
  rw [releases_withLock h]
  cases hfind : s.sessions.find sessionNumber with
  | none => exact iff_of_true h (fun hcon => absurd hcon.1 Bool.false_ne_true)
  | some e =>
    rw [ChainTable.chain_of_find_eq_some hfind]
    by_cases hdangling : e.chains () = .dangling
    · simp only [hdangling,if_true]
      exact iff_of_true trivial (fun hcon => hcon.2 rfl)
    · simp only [hdangling,if_false]
      exact iff_of_false (fun hcon => Bool.noConfusion hcon) (fun hcon => hcon ⟨rfl,hdangling⟩)

theorem Lowspeed.releases_iff {s : Lowspeed} (h : s.locked = false) (i : LowspeedInput) :
    s.Releases i ↔ ¬s.ClearsEntry i := by
  obtain ⟨call,io⟩ := i
  unfold Releases Lowspeed.call ClearsEntry
  cases call with
  | message slotId sessionNumber data =>
    refine iff_of_true ?_ (fun hcon => hcon)
    simp only [message_eq]
    cases lowspeedApdu data with
    | error r => exact h
    | ok apdu => exact (releases_withLock h).mpr (takeApdu_releases h ..)
  | clearSession sessionNumber => exact clearSession_releases_iff h sessionNumber
  | registerCommandCallback callback => exact iff_of_true ((releases_withLock h).mpr h) (fun hcon => hcon)
  | registerSendCallback callback => exact iff_of_true ((releases_withLock h).mpr h) (fun hcon => hcon)
  | sendCommsReply sessionNumber commsReplyId returnValue => exact iff_of_true h (fun hcon => hcon)
  | sendCommsData sessionNumber phaseId txData =>
    refine iff_of_true ?_ (fun hcon => hcon)
    unfold sendCommsData
    dsimp only
    split
    · exact h
    split
    · exact h
    · exact h

/-! ### Man-machine interface -/

def Mmi.step (s : Mmi) (i : MmiInput) : Mmi × List MmiEvent :=
  let outcome := s.call i.2 i.1
  (outcome.stateFrom s, outcome.events)

def Mmi.Releases (s : Mmi) (i : MmiInput) : Prop := (s.call i.2 i.1).Releases Mmi.locked

def LacksUserTexts (kind : MmiObject) (data : List UInt8) (io : MmiIo) : Prop :=
  (kind = .menu ∨ kind = .list) ∧
    match data with
    | [] => False
    | choiceNb :: data =>
      io.textFlags = true ∧ io.textData = true ∧ io.textDataForUser = false ∧
        ∃ texts left n, extractTexts io.text (textCount choiceNb).toNat data data.length = .texts texts left n

def Mmi.completed (s : Mmi) (sessionNumber : UInt16) (kind : MmiObject) (last : Bool) (fragment : List UInt8)
    (alloc : Allocation) : Option (List UInt8) :=
  match s.defragment sessionNumber kind last fragment alloc with
  | .single data => some data
  | .joined _ data => some data
  | _ => none

/-- The call clears a session that has an entry, or lacks memory for the texts of the object it completes. -/
def Mmi.KeepsLock (s : Mmi) (i : MmiInput) : Prop :=
  match i.1 with
  | .clearSession sessionNumber =>
    (s.sessions.find sessionNumber).isSome ∧ ∀ kind, s.sessions.chain sessionNumber kind ≠ .dangling
  | .message _ sessionNumber data =>
    match mmiApdu data with
    | .ok (.fragment kind last fragment) =>
      ∃ data, s.completed sessionNumber kind last fragment i.2.alloc = some data ∧ LacksUserTexts kind data i.2
    | _ => False
  | _ => False

theorem Mmi.listMenu_releases_iff (s : Mmi) (callback : MmiCallback) (slotId : UInt8) (sessionNumber : UInt16)
    (data : List UInt8) (io : MmiIo) {kind : MmiObject} (hkind : kind = .menu ∨ kind = .list) :
    (s.finish (s.listMenu callback slotId sessionNumber data io)).Releases Mmi.locked ↔
      ¬LacksUserTexts kind data io := by
  unfold listMenu LacksUserTexts
  cases data with
  | nil => exact iff_of_true rfl (fun hcon => hcon.2)
  | cons choiceNb data =>
    dsimp only
    by_cases halloca : io.textFlags = true ∧ io.textData = true
    · obtain ⟨hflags,hdata⟩ := halloca
      simp only [hflags,hdata,Bool.not_true,Bool.or_self,Bool.false_eq_true,if_false,true_and]
      cases extractTexts io.text (textCount choiceNb).toNat data data.length with
      | undefined => exact iff_of_true trivial (by rintro ⟨-,-,texts,left,n,hcon⟩; cases hcon)
      | failed r => exact iff_of_true rfl (by rintro ⟨-,-,texts,left,n,hcon⟩; cases hcon)
      | texts texts left n =>
        dsimp only
        cases huser : io.textDataForUser with
        | false => exact iff_of_false (fun hcon => nomatch hcon) (fun hcon => hcon ⟨hkind,rfl,_,_,_,rfl⟩)
        | true =>
          refine iff_of_true ?_ (by rintro ⟨-,hcon,-⟩; cases hcon)
          unfold tellObject
          cases s.callbacks callback <;> rfl
    · have hfail : (!io.textFlags || !io.textData) = true := by
        rw [← Bool.not_and,Bool.not_eq_true',Bool.and_eq_false_iff]
        grind
      rw [if_pos hfail]
      exact iff_of_true rfl (by rintro ⟨-,hflags,hdata,-⟩; exact halloca ⟨hflags,hdata⟩)

theorem Mmi.object_releases_iff (s : Mmi) (kind : MmiObject) (slotId : UInt8) (sessionNumber : UInt16)
    (data : List UInt8) (io : MmiIo) :
    (s.finish (s.object kind slotId sessionNumber data io)).Releases Mmi.locked ↔
      ¬LacksUserTexts kind data io := by
  have htell : ∀ callback args,
      (s.finish (some (s.tellObject callback slotId sessionNumber args io))).Releases Mmi.locked := by
    intro callback args
    unfold tellObject
    cases s.callbacks callback <;> rfl
  unfold object
  cases kind with
  | menu => exact listMenu_releases_iff s .menu slotId sessionNumber data io (.inl rfl)
  | list => exact listMenu_releases_iff s .list slotId sessionNumber data io (.inr rfl)
  | subtitleSegment => exact iff_of_true (htell ..) (by rintro ⟨hcon | hcon,-⟩ <;> cases hcon)
  | subtitleDownload => exact iff_of_true (htell ..) (by rintro ⟨hcon | hcon,-⟩ <;> cases hcon)

theorem Mmi.takeFragment_releases_iff {s : Mmi} (h : s.locked = false) (slotId : UInt8) (sessionNumber : UInt16)
    (kind : MmiObject) (last : Bool) (fragment : List UInt8) (io : MmiIo) :
    (s.takeFragment slotId sessionNumber kind last fragment io).Releases Mmi.locked ↔
      ¬∃ data, s.completed sessionNumber kind last fragment io.alloc = some data ∧
        LacksUserTexts kind data io := by
  unfold takeFragment completed
  cases s.defragment sessionNumber kind last fragment io.alloc with
  | undefined => exact iff_of_true trivial (by rintro ⟨data,hcon,-⟩; cases hcon)
  | noMemory t => exact iff_of_true h (by rintro ⟨data,hcon,-⟩; cases hcon)
  | kept t => exact iff_of_true h (by rintro ⟨data,hcon,-⟩; cases hcon)
  | single data => simpa using s.object_releases_iff kind slotId sessionNumber data io
  | joined t data =>
    have hobject := Mmi.object_releases_iff { s with sessions := t } kind slotId sessionNumber data io
    exact hobject.trans (by simp)

theorem Mmi.clearSession_releases_iff {s : Mmi} (h : s.locked = false) (sessionNumber : UInt16) :
    (s.clearSession sessionNumber).Releases Mmi.locked ↔
      ¬((s.sessions.find sessionNumber).isSome ∧ ∀ kind, s.sessions.chain sessionNumber kind ≠ .dangling) := by
  unfold clearSession
  rw [releases_withLock h]
  cases hfind : s.sessions.find sessionNumber with
  | none => exact iff_of_true h (fun hcon => absurd hcon.1 Bool.false_ne_true)
  | some e =>
    have hall : (∀ kind, s.sessions.chain sessionNumber kind ≠ .dangling) ↔
        ¬(e.chains .menu = .dangling ∨ e.chains .list = .dangling ∨ e.chains .subtitleSegment = .dangling ∨
          e.chains .subtitleDownload = .dangling) := by
      simp only [ChainTable.chain_of_find_eq_some hfind,not_or]
      constructor
      · exact fun hall => ⟨hall .menu,hall .list,hall .subtitleSegment,hall .subtitleDownload⟩
      · intro hall kind
        cases kind with
        | menu => exact hall.1
        | list => exact hall.2.1
        | subtitleSegment => exact hall.2.2.1
        | subtitleDownload => exact hall.2.2.2
    rw [hall]
    dsimp only
    split
    · rename_i hdangling
      exact iff_of_true trivial (fun hcon => hcon.2 hdangling)
    · rename_i hlive
      exact iff_of_false (fun hcon => Bool.noConfusion hcon) (fun hcon => hcon ⟨rfl,hlive⟩)

theorem Mmi.releases_of_sends {s : Mmi} (h : s.locked = false) (io : MmiIo) {call : MmiCall}
    (hsends : call.sends = true) : (s.call io call).Releases Mmi.locked := by
  obtain hund | ⟨result,events,hret⟩ := s.call_of_sends io hsends
  · rw [hund]
    trivial
  · rw [hret]
    exact h

theorem Mmi.releases_iff {s : Mmi} (h : s.locked = false) (i : MmiInput) : s.Releases i ↔ ¬s.KeepsLock i := by
  obtain ⟨call,io⟩ := i
  unfold Releases KeepsLock
  cases call with
  | message slotId sessionNumber data =>
    simp only [Mmi.call,message_eq]
    cases mmiApdu data with
    | error r => exact iff_of_true h (fun hcon => hcon)
    | ok apdu =>
      refine (releases_withLock h).trans ?_
      cases apdu with
      | told callback args => exact iff_of_true (releases_tell h ..) (fun hcon => hcon)
      | fragment kind last fragment => exact takeFragment_releases_iff h slotId sessionNumber kind last fragment io
  | clearSession sessionNumber => exact clearSession_releases_iff h sessionNumber
  | register kind callback => exact iff_of_true ((releases_withLock h).mpr h) (fun hcon => hcon)
  | _ => exact iff_of_true (releases_of_sends h io rfl) (fun hcon => hcon)

/-! ### Runs -/

theorem AppOutcome.Releases.stateFrom {σ α : Type} {locked : σ → Bool} {outcome : AppOutcome σ α} {s : σ}
    (h : outcome.Releases locked) (hs : locked s = false) : locked (outcome.stateFrom s) = false := by
  cases outcome with
  | returned state result events => exact h
  | blocks => exact h.elim
  | undefined => exact hs

/-- From any state with a free lock, the locks of both resources are released by all calls of a run exactly
if no call clears a session that has an entry, or lacks memory for the copy of the texts of an object. -/
theorem resource_locks_released_iff (s : Lowspeed) (m : Mmi) : (s.locked = false → ∀ calls,
        StepsMeet Lowspeed.step Lowspeed.Releases s calls ↔
          StepsMeet Lowspeed.step (fun s i => ¬s.ClearsEntry i) s calls) ∧
      (m.locked = false → ∀ calls,
        StepsMeet Mmi.step Mmi.Releases m calls ↔ StepsMeet Mmi.step (fun s i => ¬s.KeepsLock i) m calls) := by
  constructor
  · intro hs calls
    refine stepsMeet_iff_of_invariant (fun s => s.locked = false) ?_ ?_ hs calls
    · exact fun s i h => Lowspeed.releases_iff h i
    · exact fun s i h hok => ((Lowspeed.releases_iff h i).mpr hok).stateFrom h
  · intro hm calls
    refine stepsMeet_iff_of_invariant (fun s => s.locked = false) ?_ ?_ hm calls
    · exact fun s i h => Mmi.releases_iff h i
    · exact fun s i h hok => ((Mmi.releases_iff h i).mpr hok).stateFrom h

/-- Clearing a session without an entry is harmless in new resources. -/
theorem resource_locks_released_create :
    StepsMeet Lowspeed.step Lowspeed.Releases lowspeedCreate [(.clearSession 1, ⟨0, 0, ⟨true, true⟩⟩)] ∧
      StepsMeet Mmi.step Mmi.Releases mmiCreate
        [(.clearSession 1, ⟨⟨0, 0, ⟨true, true⟩⟩, fun _ => true, true, true, true⟩)] :=
  have h := resource_locks_released_iff lowspeedCreate mmiCreate
  ⟨(h.1 rfl _).mpr ⟨fun hcon => Bool.noConfusion hcon.1, trivial⟩,
    (h.2 rfl _).mpr ⟨fun hcon => Bool.noConfusion hcon.1, trivial⟩⟩

/-- Clearing a session with an unfinished block leaves the lock held. -/
theorem lowspeed_lock_not_released : ¬StepsMeet Lowspeed.step Lowspeed.Releases lowspeedCreate
      [(.message 0 1 [0x9f, 0x8c, 0x04, 0x01, 0x41], ⟨0, 0, ⟨true, true⟩⟩),
       (.clearSession 1, ⟨0, 0, ⟨true, true⟩⟩)] := by
  rintro ⟨-, hcon, -⟩
  cases hcon

end LinuxDvb.En50221
