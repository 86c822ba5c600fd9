import LinuxDvb.Framework.BlockChains
import LinuxDvb.LibDvbEn50221.Connection
import LinuxDvb.LibDvbEn50221.Tpdu

/-!
# Chained data

The fragments of a message on one connection, among everything else that the transport layer does. The chain buffer of
the connection is followed as a heap block:
-/

namespace LinuxDvb.En50221

open TransportLayer

variable {slots conns : Nat}

/-! ## What leaves a chain alone -/

def TlEvent.dataFor (s : Fin slots) (c : Fin conns) : TlEvent slots conns → Option (List UInt8)
  | .callback s' c' .data data => if s' = s ∧ c' = c.val then some data else none
  | _ => none

def dataCallbacks (s : Fin slots) (c : Fin conns) (evs : List (TlEvent slots conns)) : List (List UInt8) :=
  evs.filterMap (TlEvent.dataFor s c)

/-- The result has no data for the connection, and if the connection is active it was, with the same chain. -/
structure SparesChain (s : Fin slots) (c : Fin conns) (tl : TransportLayer slots conns)
    (r : TlResult slots conns) : Prop where
  silent : dataCallbacks s c r.2.1 = []
  same : (r.1.conn s c).state = .active →
    (tl.conn s c).state = .active ∧ (r.1.conn s c).chainBuffer = (tl.conn s c).chainBuffer

section Spares

variable {s s' : Fin slots} {c c' : Fin conns} {tl : TransportLayer slots conns}

theorem dataCallbacks_append (s : Fin slots) (c : Fin conns) (evs evs' : List (TlEvent slots conns)) :
    dataCallbacks s c (evs ++ evs') = dataCallbacks s c evs ++ dataCallbacks s c evs' := filterMap_append

theorem dataCallbacks_inPoll (s : Fin slots) (c : Fin conns) (r : TlResult slots conns) :
    dataCallbacks s c (inPoll r).2 = dataCallbacks s c r.2.1 := by
  unfold inPoll
  rw [dataCallbacks_append]
  split
  · exact append_nil _
  · exact append_nil _

theorem sparesChain_same (ret : Int) : SparesChain s c tl (tl, [], ret) := ⟨rfl, fun h => ⟨h, rfl⟩⟩

theorem sparesChain_fail (error ret : Int) (s' : Fin slots) : SparesChain s c tl (tl.fail s' error, [], ret) :=
  ⟨rfl, fun h => ⟨h, rfl⟩⟩

theorem sparesChain_failAny (error ret : Int) : SparesChain s c tl (tl.failAny error, [], ret) :=
  ⟨rfl, fun h => ⟨h, rfl⟩⟩

variable {evs : List (TlEvent slots conns)}

theorem SparesChain.fail {tl' : TransportLayer slots conns} {ret : Int}
    (h : SparesChain s c tl (tl', evs, ret)) (s' : Fin slots) (error ret' : Int) :
    SparesChain s c tl (tl'.fail s' error, evs, ret') := ⟨h.silent, h.same⟩

theorem sparesChain_updConn {g : Connection → Connection} (ret : Int) (hg : (g (tl.conn s' c')).state = .active →
      (tl.conn s' c').state = .active ∧ (g (tl.conn s' c')).chainBuffer = (tl.conn s' c').chainBuffer)
    (hevs : dataCallbacks s c evs = []) : SparesChain s c tl (tl.updConn s' c' g, evs, ret) := by
  refine ⟨hevs,?_⟩
  dsimp only
  rw [conn_updConn]
  split
  · next heq =>
    rw [heq.1,heq.2]
    exact hg
  · exact fun h => ⟨h,rfl⟩

theorem SparesChain.trans {r : TlResult slots conns} {tl' : TransportLayer slots conns} {ret : Int} (h : SparesChain s c tl r)
    (h' : SparesChain s c r.1 (tl', evs, ret)) : SparesChain s c tl (tl', r.2.1 ++ evs, ret) := by
  constructor
  · dsimp only
    rw [dataCallbacks_append,h.silent,h'.silent]
    rfl
  · intro hactive
    obtain ⟨hmid,hsame'⟩ := h'.same hactive
    obtain ⟨hfirst,hsame⟩ := h.same hmid
    exact ⟨hfirst,hsame'.trans hsame⟩

theorem sparesChain_andThen {r : TlResult slots conns}
    {next : TransportLayer slots conns → TlResult slots conns} (h : SparesChain s c tl r)
    (hnext : SparesChain s c r.1 (next r.1)) : SparesChain s c tl (andThen r next) := by
  unfold andThen
  split
  · exact h
  · exact h.trans hnext

theorem allocNewTc_sparesChain (ret : Int) : SparesChain s c tl (tl.allocNewTc s' c', [.allocated s' c'], ret) :=
  sparesChain_updConn ret (fun h => ConnState.noConfusion h) rfl

theorem queueMessage_sparesChain (data : List UInt8) (length : Nat) (ret : Int) :
    SparesChain s c tl (tl.queueMessage s' c' data length, [], ret) :=
  sparesChain_updConn ret (fun h => ⟨h, rfl⟩) rfl

theorem newTc_sparesChain (slotId : UInt8) (malloc : Bool) : SparesChain s c tl (tl.newTc slotId malloc) := by
  unfold newTc
  split
  · exact sparesChain_failAny _ _
  split
  · exact sparesChain_fail _ _ _
  dsimp only
  split
  · exact (allocNewTc_sparesChain 0).fail _ _ _
  · exact (allocNewTc_sparesChain 0).trans (queueMessage_sparesChain _ _ _)

theorem delTc_sparesChain (slotId connectionId : UInt8) (malloc : Bool) :
    SparesChain s c tl (tl.delTc slotId connectionId malloc) := by
  unfold delTc
  split
  · exact sparesChain_failAny _ _
  split
  · exact sparesChain_fail _ _ _
  split
  · exact sparesChain_fail _ _ _
  split
  · exact sparesChain_fail _ _ _
  · exact (queueMessage_sparesChain _ _ 0).trans (sparesChain_updConn 0 (fun h => ConnState.noConfusion h) rfl)

theorem sendBytes_sparesChain (slotId connectionId : UInt8) (dataSize : Nat) (bytes : List UInt8)
    (malloc : Bool) : SparesChain s c tl (tl.sendBytes slotId connectionId dataSize bytes malloc) := by
  unfold sendBytes
  split
  · exact sparesChain_failAny _ _
  split
  · exact sparesChain_fail _ _ _
  split
  · exact sparesChain_failAny _ _
  split
  · exact sparesChain_fail _ _ _
  split
  · exact sparesChain_fail _ _ _
  · exact queueMessage_sparesChain _ _ 0

theorem destroySlot_sparesChain (slotId : UInt8) : SparesChain s c tl (tl.destroySlot slotId) := by
  unfold destroySlot
  split
  · exact sparesChain_same 0
  next s' _ =>
  refine ⟨rfl,?_⟩
  unfold conn
  dsimp only
  by_cases hs : s = s'
  · subst hs
    rw [Function.update_self]
    exact fun h => ConnState.noConfusion h
  · rw [Function.update_of_ne hs]
    exact fun h => ⟨h,rfl⟩

theorem call_sparesChain (call : TlCall) : SparesChain s c tl (tl.call call) := by
  cases call with
  | newTc slotId malloc => exact newTc_sparesChain slotId malloc
  | delTc slotId connectionId malloc => exact delTc_sparesChain slotId connectionId malloc
  | sendData slotId connectionId data malloc => exact sendBytes_sparesChain slotId connectionId _ data malloc
  | sendDatav slotId connectionId vector malloc => exact sendBytes_sparesChain slotId connectionId _ _ malloc
  | registerSlot caHndl slot =>
    constructor
    · unfold call
      rw [registerSlot_events]
      rfl
    · unfold call
      rw [registerSlot_conn]
      exact fun h => ⟨h,rfl⟩
  | destroySlot slotId => exact destroySlot_sparesChain slotId

theorem serveConnection_sparesChain (io : ServiceIo) : SparesChain s c tl (tl.serveConnection s' c' io) := by
  unfold serveConnection
  split
  · exact sparesChain_same 0
  apply sparesChain_andThen
  · apply sparesChain_andThen
    · rcases sendQueued_cases tl s' c' io with ⟨heq,-⟩ | ⟨msg,rest,-,-,-,⟨-,heq⟩ | ⟨-,heq⟩⟩ <;> rw [heq]
      · exact sparesChain_same 0
      · exact (sparesChain_updConn 0 (fun h => ⟨h,rfl⟩) rfl).fail _ _ _
      · refine sparesChain_updConn 0 ?_ rfl
        unfold Connection.sent
        split
        · exact fun h => ConnState.noConfusion h
        · exact fun h => ⟨h,rfl⟩
    · rcases pollTc_cases (tl.sendQueued s' c' io).1 s' c' io with heq | ⟨-,-,⟨-,heq⟩ | ⟨-,heq⟩⟩ <;> rw [heq]
      · exact sparesChain_same 0
      · exact (sparesChain_updConn 0 (fun h => ⟨h,rfl⟩) rfl).fail _ _ _
      · exact sparesChain_updConn 0 (fun h => ⟨h,rfl⟩) rfl
  · generalize (andThen (tl.sendQueued s' c' io) fun tl => tl.pollTc s' c' io).1 = mid
    rcases checkTimeout_cases mid s' c' io with heq | ⟨use,-,-,⟨-,heq⟩ | ⟨-,heq⟩⟩ <;> rw [heq]
    · exact sparesChain_same 0
    · exact sparesChain_updConn 0 (fun h => ConnState.noConfusion h) rfl
    · exact ⟨rfl,fun h => ⟨h,rfl⟩⟩

theorem createTcReply_sparesChain (hactive : (tl.conn s c).state = .active) :
    SparesChain s c tl (tl.handleCreateTcReply s' c') := by
  unfold handleCreateTcReply
  split
  · next hcreation =>
    refine ⟨rfl,?_⟩
    dsimp only
    rw [conn_updConn]
    split
    · next heq =>
      obtain ⟨rfl,rfl⟩ := heq
      rw [hactive] at hcreation
      exact ConnState.noConfusion hcreation
    · exact fun h => ⟨h,rfl⟩
  · exact sparesChain_fail _ _ _

theorem deleteTc_sparesChain (io : ReceiveIo) : SparesChain s c tl (tl.handleDeleteTc s' c' io) := by
  unfold handleDeleteTc
  dsimp only
  split
  · split
    · exact (sparesChain_updConn 0 (fun h => ConnState.noConfusion h) rfl).fail _ _ _
    · exact sparesChain_updConn 0 (fun h => ConnState.noConfusion h) rfl
  · exact sparesChain_fail _ _ _

theorem deleteTcReply_sparesChain : SparesChain s c tl (tl.handleDeleteTcReply s' c') := by
  unfold handleDeleteTcReply
  split
  · exact sparesChain_updConn 0 (fun h => ConnState.noConfusion h) rfl
  · exact sparesChain_fail _ _ _

theorem requestTc_sparesChain (io : ReceiveIo) : SparesChain s c tl (tl.handleRequestTc s' c' io) := by
  unfold handleRequestTc
  split
  · split
    · exact sparesChain_fail _ _ _
    · exact sparesChain_updConn 0 (fun h => ⟨h,rfl⟩) rfl
  next conid _ =>
  have halloc : SparesChain s c tl (tl.allocNewTc s' conid, [.allocated s' conid], 0) :=
    allocNewTc_sparesChain 0
  have hidle (tl : TransportLayer slots conns) : SparesChain s c tl
      (tl.updConn s' conid fun con => { con with state := .idle }, [], 0) :=
    sparesChain_updConn 0 (fun h => ConnState.noConfusion h) rfl
  have hanswer : SparesChain s c (tl.allocNewTc s' conid)
      ((tl.allocNewTc s' conid).updConn s' c' fun con => { con with txTime := none },
        [.written s' c' [tNewTC, 2, UInt8.ofNat c', UInt8.ofNat conid] ((tl.allocNewTc s' conid).conn s' c').use], 0) :=
    sparesChain_updConn 0 (fun h => ⟨h,rfl⟩) rfl
  dsimp only
  split
  · exact (halloc.trans (hidle _)).fail _ _ _
  split
  · exact ((halloc.trans hanswer).trans (hidle _)).fail _ _ _
  · exact (halloc.trans hanswer).trans (sparesChain_updConn 0 (fun h => ⟨h,rfl⟩) rfl)

theorem sb_sparesChain (data : List UInt8) (io : ReceiveIo) : SparesChain s c tl (tl.handleSb s' c' data io) := by
  unfold handleSb
  dsimp only
  split
  · exact sparesChain_fail _ _ _
  split
  · split
    · split
      · exact sparesChain_fail _ _ _
      · exact sparesChain_updConn 0 (fun h => ⟨h,rfl⟩) rfl
    · exact sparesChain_updConn 0 (fun h => ⟨h,rfl⟩) rfl
  · exact sparesChain_fail _ _ _

theorem other_sparesChain (hne : ¬(s = s' ∧ c = c')) {g : Connection → Connection} (ret : Int) (hevs : dataCallbacks s c evs = []) :
    SparesChain s c tl (tl.updConn s' c' g, evs, ret) := by
  refine ⟨hevs,?_⟩
  dsimp only
  rw [conn_updConn,if_neg hne]
  exact fun h => ⟨h,rfl⟩

theorem dataMore_sparesChain (hne : ¬(s = s' ∧ c = c')) (data : List UInt8) (io : ReceiveIo) :
    SparesChain s c tl (tl.handleDataMore s' c' data io) := by
  unfold handleDataMore
  split
  · exact sparesChain_fail _ _ _
  dsimp only
  split
  · exact (other_sparesChain hne 0 rfl).fail _ _ _
  · rw [updConn_updConn]
    exact other_sparesChain hne 0 rfl

theorem dataLast_sparesChain (hne : ¬(s = s' ∧ c = c')) (data : List UInt8) (io : ReceiveIo) :
    SparesChain s c tl (tl.handleDataLast s' c' data io) := by
  have hsilent (sent : List UInt8) :
      dataCallbacks s c (if data = [] then [] else [.callback s' c' .data sent]) = [] := by
    have hother : ¬(s' = s ∧ c'.val = c.val) := fun heq => hne ⟨heq.1.symm,Fin.ext heq.2.symm⟩
    split
    · rfl
    · simp [dataCallbacks,TlEvent.dataFor,hother]
  unfold handleDataLast
  split
  · exact sparesChain_fail _ _ _
  dsimp only
  split
  · exact other_sparesChain hne 0 (hsilent data)
  split
  · exact (other_sparesChain hne 0 rfl).fail _ _ _
  · rw [updConn_updConn]
    exact other_sparesChain hne 0 (hsilent _)

theorem handleTpdu_sparesChain (hactive : (tl.conn s c).state = .active) {tpdu : Tpdu} (io : ReceiveIo)
    (hother : s = s' → c = c' → tpdu.tag ≠ tDataMore ∧ tpdu.tag ≠ tDataLast) :
    SparesChain s c tl (tl.handleTpdu s' c' tpdu io) := by
  have hne (htag : tpdu.tag = tDataMore ∨ tpdu.tag = tDataLast) : ¬(s = s' ∧ c = c') := by
    rintro ⟨hs,hc⟩
    obtain ⟨hmore,hlast⟩ := hother hs hc
    exact htag.elim hmore hlast
  unfold handleTpdu
  split
  · exact createTcReply_sparesChain hactive
  split
  · exact deleteTc_sparesChain io
  split
  · exact deleteTcReply_sparesChain
  split
  · exact requestTc_sparesChain io
  split
  · next htag => exact dataMore_sparesChain (hne (.inl htag)) _ io
  split
  · next htag => exact dataLast_sparesChain (hne (.inr htag)) _ io
  split
  · exact sb_sparesChain _ io
  · exact sparesChain_fail _ _ _

end Spares

/-! ## Fragments -/

structure ChainFragment where
  last : Bool
  data : List UInt8
  deriving DecidableEq

def Tpdu.fragment (tpdu : Tpdu) : Option ChainFragment :=
  if tpdu.tag = tDataMore then some ⟨false, tpdu.data⟩
  else if tpdu.tag = tDataLast then some ⟨true, tpdu.data⟩
  else none

def fragmentOf (s : Fin slots) (c : Fin conns) : TlInput slots conns → Option ChainFragment
  | .receive s' data _ =>
    if s' = s then
      (parseTpdu data data.length).join.bind fun tpdu =>
        if toFin? conns tpdu.connectionId.toNat = some c then tpdu.fragment else none
    else none
  | _ => none

theorem tlStep_spares {s : Fin slots} {c : Fin conns} {tl : TransportLayer slots conns}
    {i : TlInput slots conns} (hnone : fragmentOf s c i = none) (hbefore : (tl.conn s c).state = .active)
    (hafter : ((tlStep tl i).1.conn s c).state = .active) :
    dataCallbacks s c (tlStep tl i).2 = [] ∧
      ((tlStep tl i).1.conn s c).chainBuffer = (tl.conn s c).chainBuffer := by
  have hpoll {r : TlResult slots conns} (h : SparesChain s c tl r) (hactive : (r.1.conn s c).state = .active) :
      dataCallbacks s c (inPoll r).2 = [] ∧
        ((inPoll r).1.conn s c).chainBuffer = (tl.conn s c).chainBuffer := by
    rw [dataCallbacks_inPoll]
    exact ⟨h.silent,(h.same hactive).2⟩
  cases i with
  | call call =>
    have h : SparesChain s c tl (tl.call call) := call_sparesChain call
    exact ⟨h.silent,(h.same hafter).2⟩
  | serve s' c' io => exact hpoll (serveConnection_sparesChain io) hafter
  | readError s' =>
    cases s' with
    | none => exact hpoll ⟨rfl,fun h => ⟨h,rfl⟩⟩ hafter
    | some s' => exact hpoll (sparesChain_fail _ _ _) hafter
  | foreignSlot => exact hpoll (sparesChain_failAny _ _) hafter
  | receive s' data io =>
    unfold tlStep at hafter ⊢
    unfold fragmentOf at hnone
    dsimp only at hafter hnone ⊢
    cases hparse : parseTpdu data data.length with
    | none => exact ⟨rfl,rfl⟩
    | some parsed =>
      rw [hparse] at hafter hnone
      refine hpoll ?_ hafter
      unfold processTpdu
      cases parsed with
      | none => exact sparesChain_fail _ _ _
      | some tpdu =>
        dsimp only
        cases hconn : toFin? conns tpdu.connectionId.toNat with
        | none => exact sparesChain_fail _ _ _
        | some c' =>
          refine handleTpdu_sparesChain hbefore io ?_
          rintro rfl rfl
          rw [if_pos rfl] at hnone
          simp only [Option.join_some,bind_some,hconn,if_true,Tpdu.fragment] at hnone
          constructor
          · intro htag
            simp [htag] at hnone
          · intro htag
            simp [htag,tDataMore,tDataLast] at hnone

/-! ## The chain as a heap block -/

/-- What a chain comes to: a message for the callback, or a use of a freed block. -/
inductive ChainEvent where
  | message (data : List UInt8)
  | undefined
  deriving DecidableEq

/-- The `realloc` of a chain, which finds memory for every size that an `int` holds. -/
def growChain (chain : HeapBlock) (data : List UInt8) : Growth :=
  chain.grow data (decide (chain.bytes.length + data.length < 2 ^ 31))

def reallocFinds (chain : HeapBlock) (data : List UInt8) : Bool :=
  match growChain chain data with
  | .grown _ => true
  | _ => false

def chainStep (chain : HeapBlock) (f : ChainFragment) : HeapBlock × List ChainEvent :=
  if f.last ∧ chain = .null then (.null, if f.data = [] then [] else [.message f.data])
  else
    match growChain chain f.data with
    | .undefined => (.dangling, [.undefined])
    | .refused old => (old, [])
    | .grown bytes =>
      if f.last then (.null, if f.data = [] then [] else [.message bytes]) else (.block bytes, [])

/-- The transport layer, and what the chain buffer of the connection points to. -/
structure ChainWatch (slots conns : Nat) where
  tl : TransportLayer slots conns
  chain : HeapBlock

/-- A step of the transport layer, with the messages that it hands to the callback for the connection. -/
def watchStep (s : Fin slots) (c : Fin conns) (w : ChainWatch slots conns) (i : TlInput slots conns) :
    ChainWatch slots conns × List ChainEvent :=
  let r := tlStep w.tl i
  let messages := (dataCallbacks s c r.2).map ChainEvent.message
  match fragmentOf s c i with
  | none => (⟨r.1, w.chain⟩, messages)
  | some f =>
    if f.last ∧ w.chain = .null then (⟨r.1, .null⟩, messages)
    else
      match growChain w.chain f.data with
      | .undefined => (⟨r.1, .dangling⟩, [.undefined])
      | .refused old => (⟨r.1, old⟩, messages)
      | .grown bytes => (⟨r.1, if f.last then .null else .block bytes⟩, messages)

/-- The connection is active and stays so, and `realloc` answers as it does when there is memory. -/
structure ChainOk (s : Fin slots) (c : Fin conns) (w : ChainWatch slots conns) (i : TlInput slots conns) :
    Prop where
  before : (w.tl.conn s c).state = .active
  after : ((tlStep w.tl i).1.conn s c).state = .active
  realloc : ∀ s' data io, i = .receive s' data io → ∀ f ∈ fragmentOf s c i,
    io.realloc = reallocFinds w.chain f.data

def ChainShows : HeapBlock → Option (List UInt8) → Prop
  | .null, chainBuffer => chainBuffer = none
  | .block bytes, chainBuffer => chainBuffer = some bytes
  | .dangling, _ => True

section Watch

variable {s : Fin slots} {c : Fin conns} {w : ChainWatch slots conns} {i : TlInput slots conns}

variable {f : ChainFragment}

theorem fragmentOf_cases (h : fragmentOf s c i = some f) :
    ∃ data io tpdu, i = .receive s data io ∧ parseTpdu data data.length = some (some tpdu) ∧
      toFin? conns tpdu.connectionId.toNat = some c ∧ tpdu.fragment = some f := by
  unfold fragmentOf at h
  split at h
  · next s' data io =>
    split at h
    · next hs =>
      subst hs
      obtain ⟨tpdu,hparse,hfragment⟩ := bind_eq_some_iff.mp h
      split at hfragment
      · next hconn =>
        refine ⟨data,io,tpdu,rfl,?_,hconn,hfragment⟩
        cases hp : parseTpdu data data.length with
        | none =>
          rw [hp] at hparse
          cases hparse
        | some parsed =>
          rw [hp] at hparse
          exact congrArg some hparse
      · cases hfragment
    · cases h
  · cases h

theorem fragment_cases {tpdu : Tpdu} (h : tpdu.fragment = some f) :
    f = ⟨false, tpdu.data⟩ ∧ tpdu.tag = tDataMore ∨ f = ⟨true, tpdu.data⟩ ∧ tpdu.tag = tDataLast := by
  unfold Tpdu.fragment at h
  split at h
  · next htag =>
    cases h
    exact .inl ⟨rfl,htag⟩
  split at h
  · next htag =>
    cases h
    exact .inr ⟨rfl,htag⟩
  · cases h

theorem tlStep_fragment (h : fragmentOf s c i = some f) :
    ∃ io, (∀ tl : TransportLayer slots conns, tlStep tl i = inPoll (
        if f.last then tl.handleDataLast s c f.data io else tl.handleDataMore s c f.data io)) ∧
      ∃ data, i = .receive s data io := by
  obtain ⟨data,io,tpdu,rfl,hparse,hconn,hfragment⟩ := fragmentOf_cases h
  refine ⟨io,?_,data,rfl⟩
  intro tl
  unfold tlStep
  dsimp only
  rw [hparse]
  dsimp only
  rw [processTpdu,hconn]
  congr 1
  rcases fragment_cases hfragment with ⟨rfl,htag⟩ | ⟨rfl,htag⟩
  · simp [handleTpdu,htag,tDataMore,tCTCReply,tDeleteTC,tDTCReply,tRequestTC]
  · simp [handleTpdu,htag,tDataMore,tDataLast,tCTCReply,tDeleteTC,tDTCReply,tRequestTC]

theorem fragment_short (h : fragmentOf s c i = some f) : f.data.length ≤ 65534 := by
  obtain ⟨data,io,tpdu,-,hparse,-,hfragment⟩ := fragmentOf_cases h
  have hlength := parseTpdu_data_length hparse
  rcases fragment_cases hfragment with ⟨rfl,-⟩ | ⟨rfl,-⟩
  · exact hlength
  · exact hlength

variable {chain : HeapBlock} {data : List UInt8}

theorem growChain_refused {old : HeapBlock} (h : growChain chain data = .refused old) :
    old = .dangling ∨ old = chain := by
  unfold growChain HeapBlock.grow at h
  dsimp only at h
  split at h
  · cases h
  split at h
  · cases h
    exact .inl rfl
  split at h
  · cases h
    exact .inr rfl
  split at h
  · cases h
  · cases h

theorem growChain_grown {bytes : List UInt8} (h : growChain chain data = .grown bytes) :
    chain ≠ .dangling ∧ bytes = chain.bytes ++ data ∧ bytes.length < 2 ^ 31 := by
  unfold growChain HeapBlock.grow at h
  dsimp only at h
  split at h
  · cases h
  next hlive =>
  split at h
  · cases h
  split at h
  · cases h
  next hfits =>
  split at h
  · cases h
  · cases h
    refine ⟨hlive,rfl,?_⟩
    rw [length_append]
    simpa using hfits

theorem dataMore_chain {tl : TransportLayer slots conns} {io : ReceiveIo}
    (hactive : (tl.conn s c).state = .active) (hshows : ChainShows chain (tl.conn s c).chainBuffer)
    (hrealloc : io.realloc = reallocFinds chain data) :
    dataCallbacks s c (tl.handleDataMore s c data io).2.1 = [] ∧
      ∀ next, (growChain chain data = .refused next ∨
          ∃ bytes, growChain chain data = .grown bytes ∧ next = .block bytes) →
        ChainShows next ((tl.handleDataMore s c data io).1.conn s c).chainBuffer := by
  unfold handleDataMore
  rw [if_neg (not_not_intro hactive)]
  dsimp only
  constructor
  · split
    · rfl
    · rfl
  rintro next (hrefused | ⟨bytes,hgrown,rfl⟩)
  · have hfails : io.realloc = false := by
      rw [hrealloc,reallocFinds,hrefused]
    rw [hfails,if_pos (by rfl),conn_fail,conn_updConn_self]
    rcases growChain_refused hrefused with rfl | rfl
    · trivial
    · exact hshows
  · have hfinds : io.realloc = true := by
      rw [hrealloc,reallocFinds,hgrown]
    obtain ⟨hlive,rfl,-⟩ := growChain_grown hgrown
    rw [hfinds,if_neg (by decide),updConn_updConn,conn_updConn_self]
    cases chain with
    | null =>
      have hnone : (tl.conn s c).chainBuffer = none := hshows
      simp [ChainShows,hnone,HeapBlock.bytes]
    | block bytes =>
      have hsome : (tl.conn s c).chainBuffer = some bytes := hshows
      simp [ChainShows,hsome,HeapBlock.bytes]
    | dangling => exact absurd rfl hlive

theorem dataLast_single {tl : TransportLayer slots conns} (data : List UInt8) (io : ReceiveIo)
    (hactive : (tl.conn s c).state = .active) (hnone : (tl.conn s c).chainBuffer = none) :
    dataCallbacks s c (tl.handleDataLast s c data io).2.1 = (if data = [] then [] else [data]) ∧
      ((tl.handleDataLast s c data io).1.conn s c).chainBuffer = none := by
  unfold handleDataLast
  rw [if_neg (not_not_intro hactive)]
  dsimp only
  rw [conn_updConn_self,hnone]
  dsimp only
  rw [conn_updConn_self]
  refine ⟨?_,hnone⟩
  split
  · rfl
  · simp [dataCallbacks,TlEvent.dataFor]

theorem dataLast_chain {tl : TransportLayer slots conns} {chain : List UInt8} (data : List UInt8)
    (io : ReceiveIo) (hactive : (tl.conn s c).state = .active) (hsome : (tl.conn s c).chainBuffer = some chain) :
    dataCallbacks s c (tl.handleDataLast s c data io).2.1 =
        (if io.realloc = false ∨ data = [] then [] else [chain ++ data]) ∧
      ((tl.handleDataLast s c data io).1.conn s c).chainBuffer =
        if io.realloc then none else some chain := by
  unfold handleDataLast
  rw [if_neg (not_not_intro hactive)]
  dsimp only
  rw [conn_updConn_self,hsome]
  dsimp only
  cases io.realloc with
  | false =>
    rw [if_pos (by rfl),conn_fail,conn_updConn_self]
    exact ⟨rfl,hsome⟩
  | true =>
    rw [if_neg (by decide),updConn_updConn,conn_updConn_self]
    refine ⟨?_,rfl⟩
    by_cases hdata : data = []
    · simp [hdata,dataCallbacks]
    · simp [hdata,dataCallbacks,TlEvent.dataFor]

theorem watchStep_fragment (hshows : ChainShows w.chain (w.tl.conn s c).chainBuffer)
    (hok : ChainOk s c w i) (h : fragmentOf s c i = some f) :
    (watchStep s c w i).2 = (chainStep w.chain f).2 ∧ (watchStep s c w i).1.chain = (chainStep w.chain f).1 ∧
      ChainShows (watchStep s c w i).1.chain ((watchStep s c w i).1.tl.conn s c).chainBuffer := by
  obtain ⟨io,hstep,data,rfl⟩ := tlStep_fragment h
  have hrealloc := hok.realloc s data io rfl f h
  have hactive := hok.before
  unfold watchStep chainStep
  dsimp only
  rw [h,hstep,dataCallbacks_inPoll]
  dsimp only
  by_cases hsingle : f.last = true ∧ w.chain = .null
  · rw [if_pos hsingle,if_pos hsingle]
    have hnone : (w.tl.conn s c).chainBuffer = none := by
      rw [hsingle.2] at hshows
      exact hshows
    obtain ⟨hdata,hchain⟩ := dataLast_single f.data io hactive hnone
    rw [if_pos hsingle.1,hdata]
    refine ⟨?_,rfl,hchain⟩
    split
    · rfl
    · rfl
  rw [if_neg hsingle,if_neg hsingle]
  cases hlast : f.last with
  | false =>
    obtain ⟨hdata,hnext⟩ := dataMore_chain hactive hshows hrealloc
    rw [if_neg (by decide),hdata]
    cases hgrow : growChain w.chain f.data with
    | undefined => exact ⟨rfl,rfl,trivial⟩
    | refused old => exact ⟨rfl,rfl,hnext old (.inl hgrow)⟩
    | grown bytes => exact ⟨rfl,rfl,hnext (.block bytes) (.inr ⟨bytes,hgrow,rfl⟩)⟩
  | true =>
    rw [if_pos (by rfl)]
    cases hchain : w.chain with
    | null => exact absurd ⟨hlast,hchain⟩ hsingle
    | dangling => exact ⟨rfl,rfl,trivial⟩
    | block chain =>
      rw [hchain] at hshows hrealloc
      obtain ⟨hdata,hbuffer⟩ := dataLast_chain f.data io hactive hshows
      rw [hdata]
      unfold reallocFinds at hrealloc
      cases hgrow : growChain (.block chain) f.data with
      | undefined => exact ⟨rfl,rfl,trivial⟩
      | refused old =>
        rw [hgrow] at hrealloc
        dsimp only at hrealloc ⊢
        rw [hrealloc] at hbuffer ⊢
        refine ⟨rfl,rfl,?_⟩
        rcases growChain_refused hgrow with rfl | rfl
        · trivial
        · exact hbuffer
      | grown bytes =>
        rw [hgrow] at hrealloc
        dsimp only at hrealloc ⊢
        rw [hrealloc] at hbuffer ⊢
        obtain ⟨-,rfl,-⟩ := growChain_grown hgrow
        refine ⟨?_,rfl,hbuffer⟩
        by_cases hempty : f.data = []
        · simp [hempty]
        · simp [hempty,HeapBlock.bytes]

theorem watchStep_other (hok : ChainOk s c w i) (h : fragmentOf s c i = none) :
    (watchStep s c w i).2 = [] ∧ (watchStep s c w i).1.chain = w.chain ∧
      ((watchStep s c w i).1.tl.conn s c).chainBuffer = (w.tl.conn s c).chainBuffer := by
  obtain ⟨hsilent,hsame⟩ := tlStep_spares h hok.before hok.after
  unfold watchStep
  dsimp only
  rw [h,hsilent]
  exact ⟨rfl,rfl,hsame⟩

theorem watchRun_eq {is : List (TlInput slots conns)} (hshows : ChainShows w.chain (w.tl.conn s c).chainBuffer)
    (hok : StepsMeet (watchStep s c) (ChainOk s c) w is) :
    (runTrace (watchStep s c) w is).2 = (runTrace chainStep w.chain (is.filterMap (fragmentOf s c))).2 ∧
      ChainShows (runTrace chainStep w.chain (is.filterMap (fragmentOf s c))).1
        ((runTrace (watchStep s c) w is).1.tl.conn s c).chainBuffer := by
  induction is generalizing w with
  | nil => exact ⟨rfl,hshows⟩
  | cons i is ih =>
    obtain ⟨hfirst,hrest⟩ := hok
    rw [runTrace_cons]
    cases h : fragmentOf s c i with
    | none =>
      obtain ⟨hout,hchain,hbuffer⟩ := watchStep_other hfirst h
      obtain ⟨hevents,hend⟩ := ih (by rw [hchain,hbuffer]; exact hshows) hrest
      rw [List.filterMap_cons_none h,hout,hevents,hchain]
      rw [hchain] at hend
      exact ⟨rfl,hend⟩
    | some f =>
      obtain ⟨hout,hchain,hnext⟩ := watchStep_fragment hshows hfirst h
      obtain ⟨hevents,hend⟩ := ih hnext hrest
      rw [List.filterMap_cons_some h,runTrace_cons,hout,hevents,hchain]
      rw [hchain] at hend
      exact ⟨rfl,hend⟩

end Watch

/-! ## One message -/

def chained (more : List (List UInt8)) (last : List UInt8) : List ChainFragment :=
  more.map (ChainFragment.mk false) ++ [⟨true, last⟩]

def ChainStartsEmpty : List (List UInt8) → Prop
  | first :: second :: _ => first = [] ∧ second = []
  | _ => False

variable {data : List UInt8}

theorem growChain_eq {chain : HeapBlock} (hlive : chain ≠ .dangling)
    (hblock : chain = .null ∨ chain.bytes ++ data ≠ []) (hsize : (chain.bytes ++ data).length < 2 ^ 31) :
    growChain chain data = .grown (chain.bytes ++ data) := by
  rw [length_append] at hsize
  have hmod : (chain.bytes.length + data.length) % lengthModulus = chain.bytes.length + data.length :=
    Nat.mod_eq_of_lt (by unfold lengthModulus; omega)
  have hgrow : chain.Growable data (decide (chain.bytes.length + data.length < 2 ^ 31)) := by
    refine ⟨fun hne => ?_,fun _ => by unfold lengthModulus; omega⟩
    rw [hmod,← length_append]
    exact fun hzero => (hblock.resolve_left hne) (eq_nil_of_length_eq_zero hzero)
  unfold growChain
  rw [HeapBlock.grow_of_growable hlive hgrow,if_pos (by simpa using hsize)]

variable {last : List UInt8}

theorem chain_nonempty (more : List (List UInt8)) {bytes : List UInt8} (hbytes : bytes ≠ []) (hlast : last ≠ [])
    (hsize : (bytes ++ (more.flatten ++ last)).length < 2 ^ 31) :
    runTrace chainStep (.block bytes) (chained more last) =
      (.null, [.message (bytes ++ (more.flatten ++ last))]) := by
  induction more generalizing bytes with
  | nil =>
    have hgrown : growChain (.block bytes) last = .grown (bytes ++ last) :=
      growChain_eq (fun h => HeapBlock.noConfusion h)
        (.inr fun h => hbytes (append_eq_nil_iff.mp h).1) hsize
    simp [chained,runTrace,chainStep,hgrown,hlast]
  | cons data more ih =>
    have hassoc : bytes ++ ((data :: more).flatten ++ last) = bytes ++ data ++ (more.flatten ++ last) := by
      simp [append_assoc]
    rw [hassoc] at hsize ⊢
    have hgrown : growChain (.block bytes) data = .grown (bytes ++ data) := by
      refine growChain_eq (fun h => HeapBlock.noConfusion h)
        (.inr fun h => hbytes (append_eq_nil_iff.mp h).1) ?_
      rw [length_append] at hsize
      exact Nat.lt_of_le_of_lt (Nat.le_add_right _ _) hsize
    have hstep : chainStep (.block bytes) ⟨false,data⟩ = (.block (bytes ++ data), []) := by
      simp [chainStep,hgrown]
    have hrest := ih (fun h => hbytes (append_eq_nil_iff.mp h).1) hsize
    rw [chained,map_cons,cons_append,runTrace_cons,hstep]
    unfold chained at hrest
    rw [hrest]
    rfl

theorem chain_dangling (fs : List ChainFragment) (hne : fs ≠ []) :
    ChainEvent.undefined ∈ (runTrace chainStep .dangling fs).2 := by
  cases fs with
  | nil => exact absurd rfl hne
  | cons f fs =>
    have hstep : chainStep .dangling f = (.dangling, [.undefined]) := by
      simp [chainStep,growChain,HeapBlock.grow]
    rw [runTrace_cons,hstep]
    exact mem_cons_self

theorem chainStep_message {chain : HeapBlock} {f : ChainFragment}
    (h : ChainEvent.message data ∈ (chainStep chain f).2) :
    f.last = true ∧ f.data ≠ [] ∧ (chain = .null ∧ data = f.data ∨ data.length < 2 ^ 31) := by
  unfold chainStep at h
  split at h
  · next hsingle =>
    dsimp only at h
    split at h
    · cases h
    · next hne =>
      obtain ⟨rfl⟩ := mem_singleton.mp h
      exact ⟨hsingle.1,hne,.inl ⟨hsingle.2,rfl⟩⟩
  · split at h
    · cases mem_singleton.mp h
    · cases h
    · next bytes hgrown =>
      split at h
      · next hlast =>
        dsimp only at h
        split at h
        · cases h
        · next hne =>
          obtain ⟨rfl⟩ := mem_singleton.mp h
          exact ⟨hlast,hne,.inr (growChain_grown hgrown).2.2⟩
      · cases h

theorem more_silent (chain : HeapBlock) (more : List (List UInt8)) (data : List UInt8) :
    ChainEvent.message data ∉ (runTrace chainStep chain (more.map (ChainFragment.mk false))).2 := by
  induction more generalizing chain with
  | nil => exact not_mem_nil
  | cons first more ih =>
    rw [map_cons,runTrace_cons,mem_append]
    rintro (h | h)
    · exact Bool.noConfusion (chainStep_message h).1
    · exact ih _ h

theorem chainStep_null_more (hsize : data.length < 2 ^ 31) : chainStep .null ⟨false, data⟩ = (.block data, []) := by
  have hgrown : growChain .null data = .grown data :=
    growChain_eq (fun h => HeapBlock.noConfusion h) (.inl rfl) hsize
  simp [chainStep,hgrown]

/-- A message comes out only if its last fragment is not empty, the first two of several are not both empty,
and an `int` holds the length. -/
theorem chain_message_only {more : List (List UInt8)} (hshort : last.length < 2 ^ 31)
    (h : (runTrace chainStep .null (chained more last)).2 = [.message (more.flatten ++ last)]) :
    last ≠ [] ∧ ¬ ChainStartsEmpty more ∧ (more.flatten ++ last).length < 2 ^ 31 := by
  have hmem : ChainEvent.message (more.flatten ++ last) ∈ (runTrace chainStep .null (chained more last)).2 := by
    rw [h]
    exact mem_singleton_self _
  rw [chained,runTrace_append] at hmem
  obtain ⟨-,hlast,hsize⟩ := chainStep_message (f := ⟨true,last⟩) <| by
    rcases mem_append.mp hmem with hmore | hend
    · exact absurd hmore (more_silent _ _ _)
    · rw [runTrace_cons,runTrace_nil,append_nil] at hend
      exact hend
  refine ⟨hlast,?_,?_⟩
  · intro hempty
    match more, hempty with
    | first :: second :: more, hempty =>
      obtain ⟨rfl,rfl⟩ := hempty
      have hfreed : chainStep (.block []) ⟨false,[]⟩ = (.dangling, []) := by decide
      have hundefined := chain_dangling (chained more last) (by simp [chained])
      rw [chained,map_cons,map_cons,cons_append,cons_append,runTrace_cons,
        runTrace_cons,chainStep_null_more (by decide),hfreed] at h
      unfold chained at hundefined
      dsimp only at h
      rw [nil_append,nil_append] at h
      rw [h] at hundefined
      cases mem_singleton.mp hundefined
  · rcases hsize with ⟨-,heq⟩ | hsize
    · rw [heq]
      exact hshort
    · exact hsize

theorem chain_message {more : List (List UInt8)} (hlast : last ≠ [])
    (hstart : ¬ ChainStartsEmpty more) (hsize : (more.flatten ++ last).length < 2 ^ 31) :
    runTrace chainStep .null (chained more last) = (.null, [.message (more.flatten ++ last)]) := by
  cases more with
  | nil => simp [chained,runTrace,chainStep,hlast]
  | cons first more =>
    have hfirst : chainStep .null ⟨false,first⟩ = (.block first, []) := by
      apply chainStep_null_more
      simp only [flatten_cons,length_append] at hsize
      omega
    rw [chained,map_cons,cons_append,runTrace_cons,hfirst]
    by_cases hempty : first = []
    · subst hempty
      cases more with
      | nil =>
        have hgrown : growChain (.block []) last = .grown last :=
          growChain_eq (fun h => HeapBlock.noConfusion h) (.inr hlast) hsize
        simp [runTrace,chainStep,hgrown,hlast]
      | cons second more =>
        have hsecond : second ≠ [] := fun h => hstart ⟨rfl,h⟩
        have hgrown : growChain (.block []) second = .grown second := by
          refine growChain_eq (fun h => HeapBlock.noConfusion h) (.inr hsecond) ?_
          simp only [flatten_cons,length_append,nil_append] at hsize
          simp only [HeapBlock.bytes,nil_append]
          omega
        have hstep : chainStep (.block []) ⟨false,second⟩ = (.block second, []) := by
          simp [chainStep,hgrown]
        have hrest := chain_nonempty more hsecond hlast (by simpa [append_assoc] using hsize)
        rw [map_cons,cons_append,runTrace_cons,hstep]
        unfold chained at hrest
        rw [hrest]
        simp
    · have hrest := chain_nonempty more hempty hlast (by simpa [append_assoc] using hsize)
      unfold chained at hrest
      rw [hrest]
      simp

/-! ## Messages on a connection -/

/-- The callback is called once for the message, with exactly its bytes, and the chain buffer is empty again. -/
def Reassembled (s : Fin slots) (c : Fin conns) (tl : TransportLayer slots conns)
    (is : List (TlInput slots conns)) (message : List UInt8) : Prop :=
  let r := runTrace (watchStep s c) ⟨tl, .null⟩ is
  r.2 = [.message message] ∧ (r.1.tl.conn s c).chainBuffer = none

/-- In every run in which the fragments of a message come on an active connection, among anything else, the
message is handed over once and whole exactly if its last fragment is not empty, the first two of several are
not both empty, and an `int` holds its length. -/
theorem chained_data_iff (s : Fin slots) (c : Fin conns) (tl : TransportLayer slots conns)
    (hempty : (tl.conn s c).chainBuffer = none) (more : List (List UInt8)) (last : List UInt8)
    (is : List (TlInput slots conns)) (hfragments : is.filterMap (fragmentOf s c) = chained more last)
    (hok : StepsMeet (watchStep s c) (ChainOk s c) ⟨tl, .null⟩ is) :
    Reassembled s c tl is (more.flatten ++ last) ↔
      last ≠ [] ∧ ¬ ChainStartsEmpty more ∧ (more.flatten ++ last).length < 2 ^ 31 := by
  obtain ⟨hevents, hend⟩ := watchRun_eq (w := ⟨tl, .null⟩) hempty hok
  rw [hfragments] at hevents hend
  have hshort : last.length < 2 ^ 31 := by
    have hmem : (⟨true, last⟩ : ChainFragment) ∈ is.filterMap (fragmentOf s c) := by
      rw [hfragments, chained]
      exact List.mem_append_right _ (List.mem_singleton_self _)
    obtain ⟨i, -, hi⟩ := List.mem_filterMap.mp hmem
    have hle : last.length ≤ 65534 := fragment_short hi
    omega
  constructor
  · rintro ⟨hmessage, -⟩
    exact chain_message_only hshort (hevents.symm.trans hmessage)
  · rintro ⟨hlast, hstart, hsize⟩
    have hchain := chain_message hlast hstart hsize
    rw [hchain] at hevents hend
    exact ⟨hevents, hend⟩

theorem chainOk_receive {s : Fin slots} {c : Fin conns} {w : ChainWatch slots conns}
    {io : ReceiveIo} {f : ChainFragment} (hfragment : fragmentOf s c (.receive s data io) = some f)
    (hbefore : (w.tl.conn s c).state = .active)
    (hafter : ((tlStep w.tl (.receive s data io)).1.conn s c).state = .active)
    (hrealloc : io.realloc = reallocFinds w.chain f.data) : ChainOk s c w (.receive s data io) := by
  refine ⟨hbefore,hafter,?_⟩
  rintro s' data' io' ⟨⟩ f' hf'
  rw [hfragment] at hf'
  cases hf'
  exact hrealloc

theorem chainOk_serve {s s' : Fin slots} {c c' : Fin conns} {w : ChainWatch slots conns} {io : ServiceIo}
    (hbefore : (w.tl.conn s c).state = .active)
    (hafter : ((tlStep w.tl (.serve s' c' io)).1.conn s c).state = .active) :
    ChainOk s c w (.serve s' c' io) := by
  refine ⟨hbefore,hafter,?_⟩
  rintro _ _ _ ⟨⟩

/-- Two fragments come on the second connection, and the connection is served in between. -/
def twoFragments (more last : List UInt8) : List (TlInput 1 2) :=
  [.receive 0 more ⟨true, true, true⟩, .serve 0 1 ⟨true, true, false⟩, .receive 0 last ⟨true, true, true⟩]

theorem chained_data_two : Reassembled 0 1 oneActive (twoFragments [0xa1, 2, 1, 7] [0xa0, 2, 1, 9]) [7, 9] := by
  refine (chained_data_iff 0 1 oneActive rfl [[7]] [9] (twoFragments [0xa1, 2, 1, 7] [0xa0, 2, 1, 9])
    (by decide) ?_).mpr ⟨by decide, fun h => h, by decide⟩
  refine ⟨?_, chainOk_serve (by decide) (by decide), ?_, trivial⟩
  · exact chainOk_receive (f := ⟨false, [7]⟩) (by decide) (by decide) (by decide) (by decide +kernel)
  · exact chainOk_receive (f := ⟨true, [9]⟩) (by decide) (by decide +kernel) (by decide +kernel)
      (by decide +kernel)

/-- A message whose last fragment is empty is lost. -/
theorem chained_data_lost : (oneActive.conn 0 1).state = .active ∧ (oneActive.conn 0 1).chainBuffer = none ∧
      (twoFragments [0xa1, 2, 1, 7] [0xa0, 1, 1]).filterMap (fragmentOf 0 1) = chained [[7]] [] ∧
      StepsMeet (watchStep 0 1) (ChainOk 0 1) ⟨oneActive, .null⟩ (twoFragments [0xa1, 2, 1, 7] [0xa0, 1, 1]) ∧
      ¬ Reassembled 0 1 oneActive (twoFragments [0xa1, 2, 1, 7] [0xa0, 1, 1]) [7] := by
  refine ⟨rfl, rfl, by decide, ⟨?_, chainOk_serve (by decide) (by decide), ?_, trivial⟩, ?_⟩
  · exact chainOk_receive (f := ⟨false, [7]⟩) (by decide) (by decide) (by decide) (by decide +kernel)
  · exact chainOk_receive (f := ⟨true, []⟩) (by decide) (by decide +kernel) (by decide +kernel)
      (by decide +kernel)
  · intro h
    exact absurd h.1 (by decide +kernel)

end LinuxDvb.En50221
