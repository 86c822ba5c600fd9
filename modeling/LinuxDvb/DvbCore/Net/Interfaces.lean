import LinuxDvb.Framework.Kernel
import LinuxDvb.Framework.Trace

/-!
# Network interfaces

The table of network interfaces of `dvb_net.c` and the ioctls on it. An entry is taken by its number in `state`, and
`device` holds the network device for it.
-/

namespace LinuxDvb.Interfaces

/-- `DVB_NET_DEVICES_MAX` -/
abbrev netDevicesMax : Nat := 10

abbrev IfNum := Fin netDevicesMax

def feedtypeMpe : UInt8 := 0
def feedtypeUle : UInt8 := 1

def errPerm : Int := -1
def errNotty : Int := -25

/-- What the table's functions use of a network device: whether it is registered, and its `dvb_net_priv`. -/
structure NetDevice where
  registered : Bool
  pid : UInt16
  feedtype : UInt8
  inUse : Int

structure DvbNet where
  state : IfNum → Bool
  device : IfNum → Option NetDevice

/-- `dvb_net_init`, in a structure of zeros. -/
def dvbNetInit : DvbNet := ⟨fun _ => false, fun _ => none⟩

structure DvbNetIf where
  pid : UInt16
  ifNum : UInt16
  feedtype : UInt8

structure DvbNetIfOld where
  pid : UInt16
  ifNum : UInt16

/-- What a call shows: the entry through which it follows the pointer to the device, what it writes into its argument,
and what it returns. A call that follows a null pointer ends there. -/
inductive NetOutput where
  | follows (ifNum : IfNum)
  | writes (dvbnetif : DvbNetIf)
  | writesOld (dvbnetif : DvbNetIfOld)
  | returns (result : Int)

/-- How `alloc_netdev` and `register_netdev` answer a request for a device. -/
structure NetAnswers where
  allocNetdev : Bool
  registerNetdev : Int

/-- Who calls: the file may be open for reading only, the caller may have no `CAP_SYS_ADMIN`, and the adapter's module
may be on its way out. -/
structure NetCaller where
  readOnly : Bool
  capable : Bool
  tryModuleGet : Bool

section Code

variable (dvbnet : DvbNet)

def getIf : Option (IfNum × DvbNet) :=
  ((List.finRange netDevicesMax).find? fun i => !dvbnet.state i).map fun i =>
    (i, { dvbnet with state := Function.update dvbnet.state i true })

def dvbNetAddIf (pid : UInt16) (feedtype : UInt8) (answers : NetAnswers) : DvbNet × Int :=
  if feedtype ≠ feedtypeMpe ∧ feedtype ≠ feedtypeUle then (dvbnet, errInval)
  else
    match getIf dvbnet with
    | none => (dvbnet, errInval)
    | some (ifNum, dvbnet) =>
      if !answers.allocNetdev then (dvbnet, errNomem)
      else
        let net : NetDevice := { registered := false, pid := pid, feedtype := feedtype, inUse := 0 }
        let dvbnet := { dvbnet with device := Function.update dvbnet.device ifNum (some net) }
        if answers.registerNetdev < 0 then
          ({ dvbnet with device := Function.update dvbnet.device ifNum none }, answers.registerNetdev)
        else
          ({ dvbnet with device := Function.update dvbnet.device ifNum (some { net with registered := true }) }, ifNum.val)

def dvbNetRemoveIf (num : IfNum) : DvbNet × List NetOutput :=
  if !dvbnet.state num then (dvbnet, [.returns errInval])
  else
    match dvbnet.device num with
    | none => (dvbnet, [.follows num])
    | some net =>
      if net.inUse ≠ 0 then (dvbnet, [.follows num, .returns errBusy])
      else
        ({ state := Function.update dvbnet.state num false, device := Function.update dvbnet.device num none },
          [.follows num, .returns 0])

def lookupIf (ifNum : UInt16) (write : NetDevice → NetOutput) : List NetOutput :=
  if h : ifNum.toNat < netDevicesMax then
    if !dvbnet.state ⟨ifNum.toNat, h⟩ then [.returns errInval]
    else
      match dvbnet.device ⟨ifNum.toNat, h⟩ with
      | none => [.follows ⟨ifNum.toNat, h⟩]
      | some net => [.follows ⟨ifNum.toNat, h⟩, write net, .returns 0]
  else [.returns errInval]

def addForCaller (caller : NetCaller) (pid : UInt16) (feedtype : UInt8) (answers : NetAnswers)
    (write : UInt16 → NetOutput) : DvbNet × List NetOutput :=
  if !caller.capable then (dvbnet, [.returns errPerm])
  else if !caller.tryModuleGet then (dvbnet, [.returns errPerm])
  else
    let added := dvbNetAddIf dvbnet pid feedtype answers
    if added.2 < 0 then (added.1, [.returns added.2])
    else (added.1, [write (UInt16.ofNat added.2.toNat), .returns 0])

end Code

inductive NetCommand where
  | netAddIf (dvbnetif : DvbNetIf) (answers : NetAnswers)
  | netGetIf (dvbnetif : DvbNetIf)
  | netRemoveIf (parg : Nat)
  | netAddIfOld (dvbnetif : DvbNetIfOld) (answers : NetAnswers)
  | netGetIfOld (dvbnetif : DvbNetIfOld)
  | other

def dvbNetDoIoctl (dvbnet : DvbNet) (caller : NetCaller) (cmd : NetCommand) : DvbNet × List NetOutput :=
  if caller.readOnly then (dvbnet, [.returns errPerm])
  else
    match cmd with
    | .netAddIf dvbnetif answers =>
      addForCaller dvbnet caller dvbnetif.pid dvbnetif.feedtype answers fun ifNum => .writes { dvbnetif with ifNum }
    | .netGetIf dvbnetif =>
      (dvbnet, lookupIf dvbnet dvbnetif.ifNum fun net =>
        .writes { dvbnetif with pid := net.pid, feedtype := net.feedtype })
    | .netRemoveIf parg =>
      if !caller.capable then (dvbnet, [.returns errPerm])
      else if h : parg < netDevicesMax then dvbNetRemoveIf dvbnet ⟨parg, h⟩
      else (dvbnet, [.returns errInval])
    | .netAddIfOld dvbnetif answers =>
      addForCaller dvbnet caller dvbnetif.pid feedtypeMpe answers fun ifNum => .writesOld { dvbnetif with ifNum }
    | .netGetIfOld dvbnetif =>
      (dvbnet, lookupIf dvbnet dvbnetif.ifNum fun net => .writesOld { dvbnetif with pid := net.pid })
    | .other => (dvbnet, [.returns errNotty])

def DvbNet.use (dvbnet : DvbNet) (ifNum : IfNum) (change : Int) : DvbNet :=
  { dvbnet with
    device := Function.update dvbnet.device ifNum
      ((dvbnet.device ifNum).map fun net => { net with inUse := net.inUse + change }) }

/-- Requests come from users, and the network stack opens and stops the devices. -/
inductive NetInput where
  | ioctl (caller : NetCaller) (cmd : NetCommand)
  | dvbNetOpen (ifNum : IfNum)
  | dvbNetStop (ifNum : IfNum)

def netStep (dvbnet : DvbNet) : NetInput → DvbNet × List NetOutput
  | .ioctl caller cmd => dvbNetDoIoctl dvbnet caller cmd
  | .dvbNetOpen ifNum => (dvbnet.use ifNum 1, [])
  | .dvbNetStop ifNum => (dvbnet.use ifNum (-1), [])

def DvbNet.Registered (dvbnet : DvbNet) (i : IfNum) : Prop :=
  ∃ net, dvbnet.device i = some net ∧ net.registered = true

def DvbNet.Consistent (dvbnet : DvbNet) : Prop :=
  ∀ i, dvbnet.state i = true ↔ dvbnet.Registered i

def FailureKeeps (dvbnet : DvbNet) (input : NetInput) : Prop :=
  ∀ result, .returns result ∈ (netStep dvbnet input).2 → result < 0 → (netStep dvbnet input).1 = dvbnet

def FollowsInUse (dvbnet : DvbNet) (input : NetInput) : Prop :=
  ∀ i, .follows i ∈ (netStep dvbnet input).2 → dvbnet.state i = true ∧ dvbnet.Registered i

/-- A request to add a device comes as far as `get_if`, finds a free entry, and gets no registered device for it. -/
def FailsBehindGetIf (dvbnet : DvbNet) (caller : NetCaller) (feedtype : UInt8) (answers : NetAnswers) : Prop :=
  caller.readOnly = false ∧ caller.capable = true ∧ caller.tryModuleGet = true ∧
    (feedtype = feedtypeMpe ∨ feedtype = feedtypeUle) ∧ (∃ i, dvbnet.state i = false) ∧
    (answers.allocNetdev = false ∨ answers.registerNetdev < 0)

def AddFinishes (dvbnet : DvbNet) : NetInput → Prop
  | .ioctl caller (.netAddIf dvbnetif answers) => ¬ FailsBehindGetIf dvbnet caller dvbnetif.feedtype answers
  | .ioctl caller (.netAddIfOld _ answers) => ¬ FailsBehindGetIf dvbnet caller feedtypeMpe answers
  | _ => True

section Steps

variable {dvbnet : DvbNet}

theorem getIf_eq_none (h : ∀ i, dvbnet.state i = true) : getIf dvbnet = none := by
  rw [getIf,find?_eq_none.mpr]
  · rfl
  · intro i _
    rw [h i]
    exact Bool.false_ne_true

theorem getIf_eq_some (h : ∃ i, dvbnet.state i = false) :
    ∃ i, dvbnet.state i = false ∧ getIf dvbnet = some (i, { dvbnet with state := Function.update dvbnet.state i true }) := by
  cases hfound : (List.finRange netDevicesMax).find? fun i => !dvbnet.state i with
  | none =>
    obtain ⟨i,hfree⟩ := h
    have htaken := find?_eq_none.mp hfound i (List.mem_finRange i)
    rw [hfree] at htaken
    exact absurd rfl htaken
  | some i =>
    have hfree := find?_some hfound
    exact ⟨i,by simpa using hfree,by rw [getIf,hfound]; rfl⟩

theorem dvbNetAddIf_cases (pid : UInt16) (feedtype : UInt8) (answers : NetAnswers) :
    dvbNetAddIf dvbnet pid feedtype answers = (dvbnet, errInval) ∧
        ¬ ((feedtype = feedtypeMpe ∨ feedtype = feedtypeUle) ∧ ∃ i, dvbnet.state i = false) ∨
      ∃ i, dvbnet.state i = false ∧ (feedtype = feedtypeMpe ∨ feedtype = feedtypeUle) ∧
        ((answers.allocNetdev = false ∧ dvbNetAddIf dvbnet pid feedtype answers =
            ({ dvbnet with state := Function.update dvbnet.state i true }, errNomem)) ∨
          (answers.registerNetdev < 0 ∧ dvbNetAddIf dvbnet pid feedtype answers =
            (DvbNet.mk (Function.update dvbnet.state i true) (Function.update dvbnet.device i none),
              answers.registerNetdev)) ∨
          (answers.allocNetdev = true ∧ ¬ answers.registerNetdev < 0 ∧ dvbNetAddIf dvbnet pid feedtype answers =
            (DvbNet.mk (Function.update dvbnet.state i true)
              (Function.update dvbnet.device i (some (NetDevice.mk true pid feedtype 0))), (i.val : Int)))) := by
  by_cases hfeed : feedtype = feedtypeMpe ∨ feedtype = feedtypeUle
  · have hknown : ¬ (feedtype ≠ feedtypeMpe ∧ feedtype ≠ feedtypeUle) := fun h => hfeed.elim h.1 h.2
    by_cases hfree : ∃ i, dvbnet.state i = false
    · obtain ⟨i,hi,hget⟩ := getIf_eq_some hfree
      refine .inr ⟨i,hi,hfeed,?_⟩
      rw [dvbNetAddIf,if_neg hknown,hget]
      cases halloc : answers.allocNetdev with
      | false => exact .inl ⟨rfl,rfl⟩
      | true =>
        by_cases hregister : answers.registerNetdev < 0
        · refine .inr (.inl ⟨hregister,?_⟩)
          simp only [Bool.not_true,Bool.false_eq_true,if_false,if_pos hregister,Function.update_idem]
        · refine .inr (.inr ⟨rfl,hregister,?_⟩)
          simp only [Bool.not_true,Bool.false_eq_true,if_false,if_neg hregister,Function.update_idem]
    · refine .inl ⟨?_,fun h => hfree h.2⟩
      have hall : ∀ i, dvbnet.state i = true := by
        intro i
        by_contra hi
        exact hfree ⟨i,eq_false_of_ne_true hi⟩
      rw [dvbNetAddIf,if_neg hknown,getIf_eq_none hall]
  · refine .inl ⟨?_,fun h => hfeed h.1⟩
    rw [dvbNetAddIf,if_pos (not_or.mp hfeed)]

theorem consistent_update_iff (h : dvbnet.Consistent) (i : IfNum) (taken : Bool) (device : Option NetDevice) :
    DvbNet.Consistent ⟨Function.update dvbnet.state i taken, Function.update dvbnet.device i device⟩ ↔
      (taken = true ↔ ∃ net, device = some net ∧ net.registered = true) := by
  unfold DvbNet.Consistent DvbNet.Registered
  constructor
  · intro hall
    simpa using hall i
  · intro hi j
    by_cases hj : j = i
    · subst hj
      simpa using hi
    · simpa [hj,DvbNet.Registered] using h j

theorem consistent_use (h : dvbnet.Consistent) (i : IfNum) (change : Int) : (dvbnet.use i change).Consistent := by
  have hupdate := consistent_update_iff h i (dvbnet.state i) ((dvbnet.device i).map fun net =>
    { net with inUse := net.inUse + change })
  rw [Function.update_eq_self] at hupdate
  refine hupdate.mpr ((h i).trans ?_)
  unfold DvbNet.Registered
  cases dvbnet.device i with
  | none => exact iff_of_false (fun hnone => by simp at hnone) (fun hnone => by simp at hnone)
  | some net => simp

theorem consistent_init : dvbNetInit.Consistent := by
  intro i
  refine iff_of_false Bool.false_ne_true fun hregistered => ?_
  obtain ⟨net,hnet,-⟩ := hregistered
  cases hnet

variable {caller : NetCaller} {pid : UInt16} {feedtype : UInt8} {answers : NetAnswers} {write : UInt16 → NetOutput}

theorem addForCaller_of_may (hcapable : caller.capable = true) (hmodule : caller.tryModuleGet = true) :
    (addForCaller dvbnet caller pid feedtype answers write).1 = (dvbNetAddIf dvbnet pid feedtype answers).1 := by
  simp only [addForCaller,hcapable,hmodule,Bool.not_true,Bool.false_eq_true,if_false]
  split
  · rfl
  · rfl

theorem addForCaller_of_not (hmay : ¬ (caller.capable = true ∧ caller.tryModuleGet = true)) :
    addForCaller dvbnet caller pid feedtype answers write = (dvbnet, [.returns errPerm]) := by
  unfold addForCaller
  cases hcapable : caller.capable with
  | false => rfl
  | true =>
    have hmodule : caller.tryModuleGet = false := eq_false_of_ne_true fun h => hmay ⟨hcapable,h⟩
    rw [hmodule]
    rfl

theorem addForCaller_consistent_iff (h : dvbnet.Consistent) (hread : caller.readOnly = false) :
    (addForCaller dvbnet caller pid feedtype answers write).1.Consistent ↔
      ¬ FailsBehindGetIf dvbnet caller feedtype answers := by
  by_cases hmay : caller.capable = true ∧ caller.tryModuleGet = true
  · rw [addForCaller_of_may hmay.1 hmay.2]
    obtain ⟨heq,hnot⟩ | ⟨i,hfree,hfeed,hadd⟩ := @dvbNetAddIf_cases dvbnet pid feedtype answers
    · rw [heq]
      exact iff_of_true h fun hfails => hnot ⟨hfails.2.2.2.1,hfails.2.2.2.2.1⟩
    · have hdevice : ¬ ∃ net, dvbnet.device i = some net ∧ net.registered = true := by
        intro hregistered
        have htaken := (h i).mpr hregistered
        rw [hfree] at htaken
        exact Bool.false_ne_true htaken
      obtain ⟨halloc,heq⟩ | ⟨hregister,heq⟩ | ⟨halloc,hregister,heq⟩ := hadd
      · have hupdate := consistent_update_iff h i true (dvbnet.device i)
        rw [Function.update_eq_self] at hupdate
        rw [heq,hupdate]
        exact iff_of_false (fun hiff => hdevice (hiff.mp rfl))
          (not_not_intro ⟨hread,hmay.1,hmay.2,hfeed,⟨i,hfree⟩,.inl halloc⟩)
      · rw [heq,consistent_update_iff h]
        refine iff_of_false (fun hiff => ?_) (not_not_intro ⟨hread,hmay.1,hmay.2,hfeed,⟨i,hfree⟩,.inr hregister⟩)
        obtain ⟨net,hnet,-⟩ := hiff.mp rfl
        cases hnet
      · rw [heq,consistent_update_iff h]
        refine iff_of_true (iff_of_true rfl ⟨_,rfl,rfl⟩) fun hfails => ?_
        obtain hnone | hnegative := hfails.2.2.2.2.2
        · rw [halloc] at hnone
          cases hnone
        · exact hregister hnegative
  · rw [addForCaller_of_not hmay]
    exact iff_of_true h fun hfails => hmay ⟨hfails.2.1,hfails.2.2.1⟩

theorem addForCaller_keeps (hread : caller.readOnly = false)
    (hfinishes : ¬ FailsBehindGetIf dvbnet caller feedtype answers) (hwrite : ∀ ifNum result, write ifNum ≠ .returns result)
    {result : Int} (hreturns : .returns result ∈ (addForCaller dvbnet caller pid feedtype answers write).2)
    (hnegative : result < 0) : (addForCaller dvbnet caller pid feedtype answers write).1 = dvbnet := by
  by_cases hmay : caller.capable = true ∧ caller.tryModuleGet = true
  · rw [addForCaller_of_may hmay.1 hmay.2]
    obtain ⟨heq,-⟩ | ⟨i,hfree,hfeed,hadd⟩ := @dvbNetAddIf_cases dvbnet pid feedtype answers
    · rw [heq]
    · have hfails : ∀ hanswer : answers.allocNetdev = false ∨ answers.registerNetdev < 0, False := fun hanswer =>
        hfinishes ⟨hread,hmay.1,hmay.2,hfeed,⟨i,hfree⟩,hanswer⟩
      obtain ⟨halloc,-⟩ | ⟨hregister,-⟩ | ⟨-,-,heq⟩ := hadd
      · exact (hfails (.inl halloc)).elim
      · exact (hfails (.inr hregister)).elim
      · have hcount : ¬ ((i.val : Int) < 0) := Int.not_lt.mpr (Int.natCast_nonneg _)
        simp only [addForCaller,hmay.1,hmay.2,Bool.not_true,Bool.false_eq_true,if_false,heq,if_neg hcount,
          mem_cons,not_mem_nil,or_false] at hreturns
        obtain hwritten | hzero := hreturns
        · exact absurd hwritten.symm (hwrite _ _)
        · cases hzero
          exact absurd hnegative (Int.lt_irrefl 0)
  · rw [addForCaller_of_not hmay]

theorem addForCaller_follows (hwrite : ∀ ifNum i, write ifNum ≠ .follows i) (i : IfNum) :
    .follows i ∉ (addForCaller dvbnet caller pid feedtype answers write).2 := by
  intro hfollows
  unfold addForCaller at hfollows
  dsimp only at hfollows
  split at hfollows
  · simp at hfollows
  · split at hfollows
    · simp at hfollows
    · split at hfollows
      · simp at hfollows
      · simp only [mem_cons,not_mem_nil,or_false,reduceCtorEq] at hfollows
        exact hwrite _ _ hfollows.symm

theorem dvbNetRemoveIf_cases (h : dvbnet.Consistent) (num : IfNum) :
    (dvbNetRemoveIf dvbnet num = (dvbnet, [.returns errInval])) ∨
      dvbnet.state num = true ∧ (dvbNetRemoveIf dvbnet num = (dvbnet, [.follows num, .returns errBusy]) ∨
        dvbNetRemoveIf dvbnet num = (⟨Function.update dvbnet.state num false, Function.update dvbnet.device num none⟩,
          [.follows num, .returns 0])) := by
  unfold dvbNetRemoveIf
  cases hstate : dvbnet.state num with
  | false => exact .inl rfl
  | true =>
    obtain ⟨net,hnet,-⟩ := (h num).mp hstate
    refine .inr ⟨rfl,?_⟩
    rw [hnet]
    by_cases huse : net.inUse ≠ 0
    · exact .inl (if_pos huse)
    · exact .inr (if_neg huse)

theorem lookupIf_follows (h : dvbnet.Consistent) {ifNum : UInt16} {write : NetDevice → NetOutput}
    (hwrite : ∀ net i, write net ≠ .follows i) {i : IfNum} (hfollows : .follows i ∈ lookupIf dvbnet ifNum write) :
    dvbnet.state i = true ∧ dvbnet.Registered i := by
  unfold lookupIf at hfollows
  split at hfollows
  case isFalse => simp at hfollows
  case isTrue hbound =>
    cases hstate : dvbnet.state ⟨ifNum.toNat,hbound⟩ with
    | false => simp [hstate] at hfollows
    | true =>
      have hregistered := (h ⟨ifNum.toNat,hbound⟩).mp hstate
      obtain ⟨net,hnet,-⟩ := hregistered
      rw [hstate,hnet] at hfollows
      simp only [Bool.not_true,Bool.false_eq_true,if_false,mem_cons,not_mem_nil,or_false,reduceCtorEq,
        NetOutput.follows.injEq] at hfollows
      obtain heq | hwritten := hfollows
      · subst heq
        exact ⟨hstate,(h _).mp hstate⟩
      · exact absurd hwritten.symm (hwrite _ _)

structure StepSpec (dvbnet : DvbNet) (input : NetInput) : Prop where
  consistent_iff : (netStep dvbnet input).1.Consistent ↔ AddFinishes dvbnet input
  keeps : AddFinishes dvbnet input → FailureKeeps dvbnet input
  follows : FollowsInUse dvbnet input

theorem StepSpec.of_same (h : dvbnet.Consistent) {input : NetInput} (hsame : (netStep dvbnet input).1 = dvbnet)
    (hfinishes : AddFinishes dvbnet input) (hfollows : FollowsInUse dvbnet input) : StepSpec dvbnet input where
  consistent_iff := by rw [hsame]; exact iff_of_true h hfinishes
  keeps := fun _ _ _ _ => hsame
  follows := hfollows

theorem StepSpec.of_refused (h : dvbnet.Consistent) {input : NetInput} {result : Int}
    (hrefused : netStep dvbnet input = (dvbnet, [.returns result])) (hfinishes : AddFinishes dvbnet input) :
    StepSpec dvbnet input := by
  refine .of_same h (congrArg Prod.fst hrefused) hfinishes fun i hfollows => ?_
  rw [hrefused] at hfollows
  simp at hfollows

theorem stepSpec_readOnly (h : dvbnet.Consistent) (hread : caller.readOnly = true) (cmd : NetCommand) :
    StepSpec dvbnet (.ioctl caller cmd) := by
  have hfails : ∀ feedtype answers, ¬ FailsBehindGetIf dvbnet caller feedtype answers := fun _ _ hfails =>
    Bool.false_ne_true (hfails.1.symm.trans hread)
  refine .of_refused h (if_pos hread) ?_
  cases cmd with
  | netAddIf dvbnetif answers => exact hfails _ _
  | netAddIfOld dvbnetif answers => exact hfails _ _
  | netGetIf => trivial
  | netRemoveIf => trivial
  | netGetIfOld => trivial
  | other => trivial

theorem StepSpec.of_add (h : dvbnet.Consistent) {input : NetInput} {write : UInt16 → NetOutput}
    (hread : caller.readOnly = false)
    (hstep : netStep dvbnet input = addForCaller dvbnet caller pid feedtype answers write)
    (hfinishes : AddFinishes dvbnet input ↔ ¬ FailsBehindGetIf dvbnet caller feedtype answers)
    (hreturns : ∀ ifNum result, write ifNum ≠ .returns result) (hfollows : ∀ ifNum i, write ifNum ≠ .follows i) :
    StepSpec dvbnet input := by
  constructor
  · rw [hstep,hfinishes]
    exact addForCaller_consistent_iff h hread
  · intro hok result
    rw [hstep]
    exact addForCaller_keeps hread (hfinishes.mp hok) hreturns
  · intro i hfollowed
    rw [hstep] at hfollowed
    exact absurd hfollowed (addForCaller_follows hfollows i)

theorem StepSpec.of_lookup (h : dvbnet.Consistent) {input : NetInput} {ifNum : UInt16} {write : NetDevice → NetOutput}
    (hstep : netStep dvbnet input = (dvbnet, lookupIf dvbnet ifNum write)) (hfinishes : AddFinishes dvbnet input)
    (hfollows : ∀ net i, write net ≠ .follows i) : StepSpec dvbnet input := by
  refine .of_same h (congrArg Prod.fst hstep) hfinishes fun i hfollowed => ?_
  rw [hstep] at hfollowed
  exact lookupIf_follows h hfollows hfollowed

theorem stepSpec_netRemoveIf (h : dvbnet.Consistent) (hread : caller.readOnly = false) (parg : Nat) :
    StepSpec dvbnet (.ioctl caller (.netRemoveIf parg)) := by
  have hstep : netStep dvbnet (.ioctl caller (.netRemoveIf parg)) =
      if !caller.capable then (dvbnet, [.returns errPerm])
      else if h : parg < netDevicesMax then dvbNetRemoveIf dvbnet ⟨parg,h⟩
      else (dvbnet, [.returns errInval]) := by
    rw [netStep,dvbNetDoIoctl,hread]
    rfl
  by_cases hcapable : (!caller.capable) = true
  · exact .of_refused h (hstep.trans (if_pos hcapable)) trivial
  · rw [if_neg hcapable] at hstep
    by_cases hbound : parg < netDevicesMax
    · rw [dif_pos hbound] at hstep
      have hnum : ∀ i, i = ⟨parg,hbound⟩ → dvbnet.state ⟨parg,hbound⟩ = true →
          dvbnet.state i = true ∧ dvbnet.Registered i := by
        intro i hi hstate
        subst hi
        exact ⟨hstate,(h _).mp hstate⟩
      obtain heq | ⟨hstate,heq | heq⟩ := dvbNetRemoveIf_cases h ⟨parg,hbound⟩
      · exact .of_refused h (hstep.trans heq) trivial
      · rw [heq] at hstep
        refine .of_same h (congrArg Prod.fst hstep) trivial fun i hfollows => hnum i ?_ hstate
        rw [hstep] at hfollows
        simpa using hfollows
      · rw [heq] at hstep
        refine ⟨iff_of_true ?_ trivial,fun _ result hreturns hnegative => ?_,fun i hfollows => hnum i ?_ hstate⟩
        · rw [hstep]
          exact (consistent_update_iff h _ _ _).mpr (iff_of_false Bool.false_ne_true fun hnone => by simp at hnone)
        · rw [hstep] at hreturns
          have hzero : result = 0 := by simpa using hreturns
          omega
        · rw [hstep] at hfollows
          simpa using hfollows
    · exact .of_refused h (hstep.trans (dif_neg hbound)) trivial

theorem stepSpec_ioctl (h : dvbnet.Consistent) (caller : NetCaller) (cmd : NetCommand) :
    StepSpec dvbnet (.ioctl caller cmd) := by
  cases hread : caller.readOnly with
  | true => exact stepSpec_readOnly h hread cmd
  | false =>
    have hstep : netStep dvbnet (.ioctl caller cmd) = dvbNetDoIoctl dvbnet caller cmd := rfl
    cases cmd with
    | netAddIf dvbnetif answers =>
      simp only [dvbNetDoIoctl,hread,Bool.false_eq_true,if_false] at hstep
      exact .of_add h hread hstep Iff.rfl (fun _ _ heq => by cases heq) (fun _ _ heq => by cases heq)
    | netAddIfOld dvbnetif answers =>
      simp only [dvbNetDoIoctl,hread,Bool.false_eq_true,if_false] at hstep
      exact .of_add h hread hstep Iff.rfl (fun _ _ heq => by cases heq) (fun _ _ heq => by cases heq)
    | netGetIf dvbnetif =>
      simp only [dvbNetDoIoctl,hread,Bool.false_eq_true,if_false] at hstep
      exact .of_lookup h hstep trivial (fun _ _ heq => by cases heq)
    | netGetIfOld dvbnetif =>
      simp only [dvbNetDoIoctl,hread,Bool.false_eq_true,if_false] at hstep
      exact .of_lookup h hstep trivial (fun _ _ heq => by cases heq)
    | netRemoveIf parg => exact stepSpec_netRemoveIf h hread parg
    | other =>
      simp only [dvbNetDoIoctl,hread,Bool.false_eq_true,if_false] at hstep
      exact .of_refused h hstep trivial

theorem stepSpec (h : dvbnet.Consistent) (input : NetInput) : StepSpec dvbnet input := by
  cases input with
  | ioctl caller cmd => exact stepSpec_ioctl h caller cmd
  | dvbNetOpen ifNum =>
    exact ⟨iff_of_true (consistent_use h ifNum 1) trivial,fun _ _ hreturns => absurd hreturns not_mem_nil,
      fun _ hfollows => absurd hfollows not_mem_nil⟩
  | dvbNetStop ifNum =>
    exact ⟨iff_of_true (consistent_use h ifNum (-1)) trivial,fun _ _ hreturns => absurd hreturns not_mem_nil,
      fun _ hfollows => absurd hfollows not_mem_nil⟩

end Steps

/-- In a run, the table stays consistent, failed requests leave it alone and pointers are followed for entries in use
only, exactly if no request to add a device fails behind `get_if`. -/
theorem interfaces_consistent_iff (inputs : List NetInput) :
    ((∀ pre, pre <+: inputs → (runTrace netStep dvbNetInit pre).1.Consistent) ∧
        StepsMeet netStep FailureKeeps dvbNetInit inputs ∧ StepsMeet netStep FollowsInUse dvbNetInit inputs) ↔
      StepsMeet netStep AddFinishes dvbNetInit inputs := by
  have hstates : (∀ pre, pre <+: inputs → (runTrace netStep dvbNetInit pre).1.Consistent) ↔
      StepsMeet netStep AddFinishes dvbNetInit inputs :=
    forall_prefix_iff_stepsMeet DvbNet.Consistent (fun _ input h => (stepSpec h input).consistent_iff) consistent_init
      inputs
  rw [hstates]
  refine and_iff_left_of_imp fun hfinishes => ⟨?_, ?_⟩
  · refine stepsMeet_of_invariant DvbNet.Consistent (fun dvbnet input h hok => ?_) consistent_init hfinishes
    exact ⟨(stepSpec h input).consistent_iff.mpr hok, (stepSpec h input).keeps hok⟩
  · refine stepsMeet_of_invariant DvbNet.Consistent (fun dvbnet input h hok => ?_) consistent_init hfinishes
    exact ⟨(stepSpec h input).consistent_iff.mpr hok, (stepSpec h input).follows⟩

def netAdmin : NetCaller := { readOnly := false, capable := true, tryModuleGet := true }

/-- A device whose registration fails leaves its entry taken, and a later request for it follows a null pointer. -/
theorem interfaces_not_consistent :
    ¬ ((runTrace netStep dvbNetInit [.ioctl netAdmin (.netAddIf ⟨256, 0, feedtypeMpe⟩ ⟨true, errNomem⟩)]).1.Consistent) ∧
      .follows 0 ∈ (runTrace netStep dvbNetInit [.ioctl netAdmin (.netAddIf ⟨256, 0, feedtypeMpe⟩ ⟨true, errNomem⟩),
        .ioctl netAdmin (.netGetIf ⟨0, 0, 0⟩)]).2 ∧
      (runTrace netStep dvbNetInit [.ioctl netAdmin (.netAddIf ⟨256, 0, feedtypeMpe⟩ ⟨true, errNomem⟩)]).1.device 0 = none := by
  refine ⟨fun hconsistent => ?_, ?_, rfl⟩
  · obtain ⟨net, hnet, -⟩ := (hconsistent 0).mp rfl
    cases hnet
  · exact List.mem_cons_of_mem _ List.mem_cons_self

end LinuxDvb.Interfaces
