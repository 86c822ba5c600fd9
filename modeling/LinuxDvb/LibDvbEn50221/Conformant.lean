import LinuxDvb.LibDvbEn50221.CamWire

/-!
# A conformant module is not accused

As long as deletions do not cross with other TPDUs, every step of the host keeps the two ends of its
connections together, and the host takes every TPDU of the module.
-/

namespace LinuxDvb.En50221

open TransportLayer Wire

variable {slots conns : Nat}

theorem head?_linkData {msg : Message} (h : msg.length = 3) : (linkData msg).head? = msg.data.head? := by
  rw [linkData,h,List.head?_take,if_neg (by decide)]

theorem plain_linkData {msg : Message} (h : msg.data.head? = some tDataLast) :
    Plain (linkData msg) ∧ (linkData msg).head? ≠ some tCreateTC := by
  unfold Plain linkData
  rw [List.head?_take]
  split
  · decide
  · rw [h]
    decide

theorem AllData.tail {msg : Message} {rest : List Message} (h : AllData (msg :: rest)) : AllData rest :=
  fun m hm => h m (mem_cons_of_mem _ hm)

theorem Fits.quiet_of_answered {con : Connection} {w : Wire} (h : Fits con w)
    (hstate : con.state = .inCreation ∨ con.state = .inDeletion) (hanswered : w.Answered)
    (hup : w.up = []) : w.Quiet := by
  unfold Answered at hanswered
  cases h with
  | waiting _ hwire hqueue => exact hwire
  | opening _ hwire htime hqueue =>
    rcases hwire with ⟨msg,hsettle,-⟩ | ⟨-,-,hreply⟩ | ⟨-,hreply⟩
    · rw [hsettle] at hanswered
      cases hanswered
    · rw [hup] at hreply
      cases hreply
    · rw [hup] at hreply
      cases hreply
  | deleting _ hwire hqueue =>
    rcases hwire with ⟨-,-,-,msg,hsettle,-⟩ | ⟨-,hreply⟩ | ⟨-,hreply⟩
    · rw [hsettle] at hanswered
      cases hanswered
    · rw [hup] at hreply
      cases hreply
    · rw [hup] at hreply
      cases hreply
  | idle hs | active hs | deleteQueued hs =>
    rw [hs] at hstate
    rcases hstate with hother | hother
    · cases hother
    · cases hother

section Serve

variable {tl : TransportLayer slots conns} {s : Fin slots} {c : Fin conns} {io : ServiceIo} {w : Wire}

theorem sent_of_data {con : Connection} {msg : Message} (h : msg.data.head? ≠ some tDeleteTC) (rest : List Message) :
    con.sent msg rest = { con with sendQueue := rest, txTime := some con.use } := by
  rw [Connection.sent,if_neg h]

theorem sendQueued_fits (h : Fits (tl.conn s c) w) (hwrite : io.write = true) :
    Fits ((tl.sendQueued s c io).1.conn s c) (w.carry (connEvents s c (tl.sendQueued s c io).2.1)) := by
  rcases sendQueued_cases tl s c io with
    ⟨heq,-⟩ | ⟨msg,rest,hsendable,hqueue,htime,⟨hfails,-⟩ | ⟨-,heq⟩⟩
  · rw [heq,connEvents_nil,carry_nil]
    exact h
  · rw [hwrite] at hfails
    cases hfails
  rw [heq,conn_updConn_self,connEvents_written_self,connEvents_nil,carry_written]
  have htag {tag : UInt8} (hmsg : msg.data.head? = some tag) (htag : tag ≠ tDeleteTC) :
      msg.data.head? ≠ some tDeleteTC := by
    rw [hmsg]
    exact fun heq => htag (Option.some.inj heq)
  cases h with
  | idle hstate hwire hdata =>
    rcases hsendable with hs | hs | hs
    · rw [hstate] at hs
      cases hs
    · rw [hstate] at hs
      cases hs
    · rw [hstate] at hs
      cases hs
  | waiting hstate hwire hcreate =>
    obtain ⟨queue,create,happend,hdata,hcreate⟩ := hcreate htime
    rw [hqueue] at happend
    cases queue with
    | cons first others =>
      -- data of an earlier use is sent, which the module passes over
      have hfirst := hdata first mem_cons_self
      obtain ⟨rfl,rfl⟩ := List.cons.inj happend
      rw [sent_of_data (htag hfirst (by decide))]
      exact .waiting hstate (hwire.plain (plain_linkData hfirst).2) fun hnone => nomatch hnone
    | nil =>
      rcases hcreate with rfl | ⟨create,rfl,hmsg,hlength⟩
      · cases happend
      · cases happend
        rw [sent_of_data (htag hmsg (by decide))]
        apply Fits.opening
        · exact hstate
        · apply hwire.create
          rw [head?_linkData hlength]
          exact hmsg
        · exact fun hnone => nomatch hnone
        · rfl
  | opening hstate hwire hwaits hempty => exact absurd htime hwaits
  | active hstate hwire hdata =>
    rw [hqueue] at hdata
    have hmsg := hdata msg mem_cons_self
    rw [sent_of_data (htag hmsg (by decide))]
    exact .active hstate (hwire.plain (plain_linkData hmsg).1) hdata.tail
  | deleteQueued hstate hwire hdelete =>
    obtain ⟨first,hsingle,hmsg,hlength⟩ := hdelete
    rw [hqueue] at hsingle
    cases hsingle
    rw [Connection.sent,if_pos hmsg]
    apply Fits.deleting rfl
    · apply hwire.close
      rw [head?_linkData hlength]
      exact hmsg
    · rfl
  | deleting hstate hwire hempty =>
    rw [hempty] at hqueue
    cases hqueue

theorem pollTc_fits (h : Fits (tl.conn s c) w) (hwrite : io.write = true) :
    Fits ((tl.pollTc s c io).1.conn s c) (w.carry (connEvents s c (tl.pollTc s c io).2.1)) := by
  rcases pollTc_cases tl s c io with heq | ⟨hstate,htime,⟨hfails,-⟩ | ⟨-,heq⟩⟩
  · rw [heq,connEvents_nil,carry_nil]
    exact h
  · rw [hwrite] at hfails
    cases hfails
  rw [heq,conn_updConn_self,connEvents_written_self,connEvents_nil,carry_written]
  cases h with
  | active _ hwire hdata => exact .active hstate (hwire.plain (by unfold Plain; simp; decide)) hdata
  | idle hs | waiting hs | opening hs | deleteQueued hs | deleting hs =>
    rw [hstate] at hs
    cases hs

theorem checkTimeout_fits (h : Fits (tl.conn s c) w) (hwait : io.responseElapsed = true →
      (tl.conn s c).state = .inCreation ∨ (tl.conn s c).state = .inDeletion → (tl.conn s c).txTime ≠ none →
      w.Answered ∧ w.up = []) :
    Fits ((tl.checkTimeout s c io).1.conn s c)
      (w.carry (connEvents s c (tl.checkTimeout s c io).2.1)) := by
  rcases checkTimeout_cases tl s c io with heq | ⟨use,htime,helapsed,⟨hstate,heq⟩ | ⟨-,heq⟩⟩
  · rw [heq,connEvents_nil,carry_nil]
    exact h
  · have htimer : (tl.conn s c).txTime ≠ none := by
      rw [htime]
      exact fun hnone => nomatch hnone
    obtain ⟨hanswered,hup⟩ := hwait helapsed hstate htimer
    rw [heq,conn_updConn_self,connEvents_nil,carry_nil]
    exact .idle rfl (h.quiet_of_answered hstate hanswered hup) fun hnone => absurd hnone htimer
  · rw [heq,conn_fail,connEvents_timedOut_self,connEvents_nil]
    have hcarry : w.carry [.timedOut use] = w := by
      simp [carry]
    rw [hcarry]
    exact h

theorem andThen_fits {r : TlResult slots conns} {next : TransportLayer slots conns → TlResult slots conns}
    (h : Fits (r.1.conn s c) (w.carry (connEvents s c r.2.1)))
    (hnext : Fits (r.1.conn s c) (w.carry (connEvents s c r.2.1)) → Fits ((next r.1).1.conn s c)
      ((w.carry (connEvents s c r.2.1)).carry (connEvents s c (next r.1).2.1))) :
    Fits ((andThen r next).1.conn s c) (w.carry (connEvents s c (andThen r next).2.1)) := by
  unfold TransportLayer.andThen
  split
  · exact h
  · dsimp only
    rw [connEvents_append,carry_append]
    exact hnext h

theorem pollTc_state : ((tl.pollTc s c io).1.conn s c).state = (tl.conn s c).state := by
  rcases pollTc_cases tl s c io with heq | ⟨-,-,⟨-,heq⟩ | ⟨-,heq⟩⟩
  · rw [heq]
  · rw [heq,conn_fail,conn_updConn_self]
  · rw [heq,conn_updConn_self]

theorem andThen_pollTc_state {r : TlResult slots conns} :
    ((andThen r fun tl => tl.pollTc s c io).1.conn s c).state = (r.1.conn s c).state := by
  unfold andThen
  split
  · rfl
  · exact pollTc_state

theorem sendQueued_active (h : Fits (tl.conn s c) w) (hwrite : io.write = true)
    (hturn : (tl.conn s c).state = .inCreation ∨ (tl.conn s c).state = .activeDeletequeued →
      (tl.conn s c).txTime = none → (tl.conn s c).sendQueue = []) :
    tl.sendQueued s c io = (tl, [], 0) ∨ ((tl.sendQueued s c io).1.conn s c).state = .active := by
  rcases sendQueued_cases tl s c io with
    ⟨heq,-⟩ | ⟨msg,rest,hsendable,hqueue,htime,⟨hfails,-⟩ | ⟨-,heq⟩⟩
  · exact .inl heq
  · rw [hwrite] at hfails
    cases hfails
  have hactive : (tl.conn s c).state = .active := by
    rcases hsendable with hs | hs | hs
    · rw [hturn (.inl hs) htime] at hqueue
      cases hqueue
    · exact hs
    · rw [hturn (.inr hs) htime] at hqueue
      cases hqueue
  right
  rw [heq,conn_updConn_self]
  cases h with
  | active _ _ hdata =>
    have hmsg := hdata msg (by rw [hqueue]; exact mem_cons_self)
    rw [sent_of_data (by rw [hmsg]; decide)]
    exact hactive
  | idle hs | waiting hs | opening hs | deleteQueued hs | deleting hs =>
    rw [hactive] at hs
    cases hs

theorem serveConnection_fits (h : Fits (tl.conn s c) w) (hwrite : io.write = true) (hturn : io.responseElapsed = true →
      (tl.conn s c).state = .inCreation ∨ (tl.conn s c).state = .activeDeletequeued →
      (tl.conn s c).txTime = none → (tl.conn s c).sendQueue = [])
    (hwait : io.responseElapsed = true →
      (tl.conn s c).state = .inCreation ∨ (tl.conn s c).state = .inDeletion → (tl.conn s c).txTime ≠ none →
      w.Answered ∧ w.up = []) :
    Fits ((tl.serveConnection s c io).1.conn s c)
      (w.carry (connEvents s c (tl.serveConnection s c io).2.1)) := by
  unfold serveConnection
  split
  · rw [connEvents_nil,carry_nil]
    exact h
  have hfirst : Fits
      ((andThen (tl.sendQueued s c io) fun tl => tl.pollTc s c io).1.conn s c)
      (w.carry (connEvents s c (andThen (tl.sendQueued s c io) fun tl => tl.pollTc s c io).2.1)) :=
    andThen_fits (sendQueued_fits h hwrite) fun hsent => pollTc_fits hsent hwrite
  apply andThen_fits hfirst
  intro hfits
  apply checkTimeout_fits hfits
  intro helapsed
  have hkeeps (hactive : ((tl.sendQueued s c io).1.conn s c).state = .active)
      (hstate : ((andThen (tl.sendQueued s c io) fun tl => tl.pollTc s c io).1.conn s c).state =
        .inCreation ∨ ((andThen (tl.sendQueued s c io) fun tl => tl.pollTc s c io).1.conn s c).state =
        .inDeletion) : False := by
    rw [andThen_pollTc_state,hactive] at hstate
    rcases hstate with hs | hs
    · cases hs
    · cases hs
  rcases sendQueued_active h hwrite (hturn helapsed) with hsend | hactive
  · rcases pollTc_cases tl s c io with hpoll | ⟨hactive,-⟩
    · have hnothing : (andThen (tl.sendQueued s c io) fun tl => tl.pollTc s c io) = (tl, [], 0) := by
        simp [andThen,hsend,hpoll]
      rw [hnothing,connEvents_nil,carry_nil]
      exact hwait helapsed
    · intro hstate
      exact (hkeeps (by rw [hsend]; exact hactive) hstate).elim
  · exact fun hstate => (hkeeps hactive hstate).elim

theorem serveConnection_error (hwrite : io.write = true) (h : (tl.serveConnection s c io).2.2 < 0) :
    (tl.serveConnection s c io).1.error = errTimeout := by
  have hsend : ¬(tl.sendQueued s c io).2.2 < 0 := by
    rcases sendQueued_cases tl s c io with ⟨heq,-⟩ | ⟨_,_,-,-,-,⟨hfails,-⟩ | ⟨-,heq⟩⟩
    · simp [heq]
    · rw [hwrite] at hfails
      cases hfails
    · simp [heq]
  have hpoll (tl : TransportLayer slots conns) : ¬(tl.pollTc s c io).2.2 < 0 := by
    rcases pollTc_cases tl s c io with heq | ⟨-,-,⟨hfails,-⟩ | ⟨-,heq⟩⟩
    · simp [heq]
    · rw [hwrite] at hfails
      cases hfails
    · simp [heq]
  unfold serveConnection at h ⊢
  split at h
  · cases h
  rename_i hidle
  rw [if_neg hidle]
  have htimeout (tl : TransportLayer slots conns) (hret : (tl.checkTimeout s c io).2.2 < 0) :
      (tl.checkTimeout s c io).1.error = errTimeout := by
    rcases checkTimeout_cases tl s c io with heq | ⟨_,-,-,⟨-,heq⟩ | ⟨-,heq⟩⟩
    · rw [heq] at hret
      cases hret
    · rw [heq] at hret
      cases hret
    · rw [heq]
      rfl
  unfold andThen at h ⊢
  simp only [if_neg hsend,if_neg (hpoll _)] at h ⊢
  exact htimeout _ h

end Serve

section Read

variable {tl : TransportLayer slots conns} {s : Fin slots} {c : Fin conns} {w : Wire}

def CamTpdu.parsed (tpdu : CamTpdu) (id : UInt8) : Tpdu := ⟨tpdu.tag, id, tpdu.payload.val, []⟩

theorem handleTpdu_data (last : Bool) (payload : Payload) (id : UInt8) (io : ReceiveIo) :
    tl.handleTpdu s c ((CamTpdu.data last payload).parsed id) io =
      if last then tl.handleDataLast s c payload.val io else tl.handleDataMore s c payload.val io := by
  cases last with
  | false => rfl
  | true => rfl

theorem handleTpdu_sb (value id : UInt8) (io : ReceiveIo) :
    tl.handleTpdu s c ((CamTpdu.sb value).parsed id) io = tl.handleSb s c [value] io := rfl

theorem handleTpdu_elsewhere (tpdu : CamTpdu) (id : UInt8) (io : ReceiveIo) :
    Elsewhere s c tl (tl.handleTpdu s c (tpdu.parsed id) io) := by
  cases tpdu with
  | createReply => exact handleCreateTcReply_elsewhere tl s c
  | deleteReply => exact handleDeleteTcReply_elsewhere tl s c
  | delete => exact handleDeleteTc_elsewhere tl s c io
  | data last payload =>
    rw [handleTpdu_data]
    split
    · exact handleDataLast_elsewhere tl s c payload.val io
    · exact handleDataMore_elsewhere tl s c payload.val io
  | sb value => exact handleSb_elsewhere tl s c [value] io

/-- Handled without an accusation: the ends are kept together, and a failure is one of memory. -/
def Accepted (s : Fin slots) (c : Fin conns) (w : Wire) (r : TlResult slots conns) : Prop :=
  Fits (r.1.conn s c) (w.carry (connEvents s c r.2.1)) ∧ (r.2.2 < 0 → r.1.error = errOutofmemory) ∧
    ∀ error, .pollFailed error ∉ r.2.1

theorem createReply_accepted (hstate : (tl.conn s c).state = .inCreation)
    (hqueue : (tl.conn s c).sendQueue = []) (hwire : w.Running) :
    Accepted s c w (tl.handleCreateTcReply s c) := by
  unfold handleCreateTcReply
  rw [if_pos hstate]
  refine ⟨?_,fun hret => (nomatch hret),by simp⟩
  rw [conn_updConn_self,connEvents_callback,connEvents_nil,carry_nil]
  apply Fits.active rfl hwire
  dsimp only
  rw [hqueue]
  exact fun _ hmsg => nomatch hmsg

theorem deleteReply_accepted (hstate : (tl.conn s c).state = .inDeletion)
    (hqueue : (tl.conn s c).sendQueue = []) (hwire : w.Quiet) :
    Accepted s c w (tl.handleDeleteTcReply s c) := by
  unfold handleDeleteTcReply
  rw [if_pos hstate]
  refine ⟨?_,fun hret => (nomatch hret),by simp⟩
  rw [conn_updConn_self,connEvents_nil,carry_nil]
  apply Fits.idle rfl hwire
  intro _
  dsimp only
  rw [hqueue]
  exact fun _ hmsg => nomatch hmsg

theorem delete_accepted {io : ReceiveIo} (hwrite : io.write = true)
    (hstate : (tl.conn s c).state = .active ∨ (tl.conn s c).state = .inDeletion)
    (hqueue : AllData (tl.conn s c).sendQueue) (hwire : w.Deleting []) :
    Accepted s c w (tl.handleDeleteTc s c io) := by
  unfold handleDeleteTc
  dsimp only
  rw [if_pos hstate,if_neg (by rw [hwrite]; decide)]
  refine ⟨?_,fun hret => (nomatch hret),by simp⟩
  rw [conn_updConn_self,connEvents_written_self,connEvents_callback,connEvents_nil,carry_written]
  exact .idle rfl (hwire.replied rfl) fun _ => hqueue

theorem answer_accepted {tpdu : CamTpdu} (htpdu : IsAnswer tpdu) (id : UInt8) {io : ReceiveIo}
    (hwrite : io.write = true) (hstate : (tl.conn s c).state = .active)
    (hqueue : AllData (tl.conn s c).sendQueue) (hwire : w.Running) :
    Accepted s c w (tl.handleTpdu s c (tpdu.parsed id) io) := by
  have hbusy : ¬(tl.conn s c).state ≠ .active := not_not.mpr hstate
  cases tpdu with
  | createReply | deleteReply | delete => exact htpdu.elim
  | data last payload =>
    rw [handleTpdu_data]
    cases last with
    | false =>
      rw [if_neg Bool.false_ne_true]
      unfold handleDataMore
      rw [if_neg hbusy]
      dsimp only
      split
      · refine ⟨?_,fun _ => rfl,by simp⟩
        rw [conn_fail,conn_updConn_self,connEvents_nil,carry_nil]
        exact .active hstate hwire hqueue
      · refine ⟨?_,fun hret => (nomatch hret),by simp⟩
        rw [updConn_updConn,conn_updConn_self,connEvents_nil,carry_nil]
        exact .active hstate hwire hqueue
    | true =>
      have hcallback (d : List UInt8) :
          connEvents s c (if payload.val = [] then [] else [.callback s c .data d]) = [] := by
        split <;> rfl
      rw [if_pos rfl]
      unfold handleDataLast
      rw [if_neg hbusy]
      dsimp only
      split
      · refine ⟨?_,fun hret => (nomatch hret),by simp⟩
        rw [conn_updConn_self,hcallback,carry_nil]
        exact .active hstate hwire hqueue
      split
      · refine ⟨?_,fun _ => rfl,by simp⟩
        rw [conn_fail,conn_updConn_self,connEvents_nil,carry_nil]
        exact .active hstate hwire hqueue
      · refine ⟨?_,fun hret => (nomatch hret),by simp⟩
        rw [updConn_updConn,conn_updConn_self,hcallback,carry_nil]
        exact .active hstate hwire hqueue
  | sb value =>
    rw [handleTpdu_sb]
    unfold handleSb
    dsimp only
    rw [if_neg hbusy]
    split
    · rw [if_neg (by rw [hwrite]; decide)]
      refine ⟨?_,fun hret => (nomatch hret),by simp⟩
      rw [conn_updConn_self,connEvents_written_self,connEvents_nil,carry_written]
      exact .active hstate (hwire.plain (by unfold Plain; simp; decide)) hqueue
    · refine ⟨?_,fun hret => (nomatch hret),by simp⟩
      rw [conn_updConn_self,connEvents_nil,carry_nil]
      exact .active hstate hwire hqueue

theorem read_accepted {tpdu : CamTpdu} {up : List CamTpdu} (io : ReceiveIo) (hwrite : io.write = true)
    (h : Fits (tl.conn s c) { w with up := tpdu :: up })
    (huncrossed : tpdu = .delete → (tl.conn s c).state ≠ .activeDeletequeued) (id : UInt8) :
    Accepted s c { w with up := up } (tl.handleTpdu s c (tpdu.parsed id) io) := by
  cases h with
  | idle hstate hwire hqueue => exact nomatch hwire.2
  | waiting hstate hwire hqueue => exact nomatch hwire.2
  | opening hstate hwire htime hqueue =>
    rcases hwire with ⟨_,-,hup⟩ | ⟨hcam,hdown,hup⟩ | ⟨hsettle,hup⟩
    · cases hup
    · cases hup
      apply createReply_accepted hstate hqueue
      refine .inl ⟨hcam,?_,fun _ h => nomatch h⟩
      dsimp only at hdown ⊢
      rw [hdown]
      exact fun _ h => nomatch h
    · cases hup
      apply createReply_accepted hstate hqueue
      exact .inr ⟨[],fun _ h => (nomatch h),hsettle,rfl⟩
  | active hstate hwire hqueue =>
    rcases hwire with ⟨hcam,hdown,hup⟩ | ⟨answers,hanswers,hsettle,hup⟩
    · apply answer_accepted (hup tpdu mem_cons_self) id hwrite hstate hqueue
      exact .inl ⟨hcam,hdown,fun t ht => hup t (mem_cons_of_mem _ ht)⟩
    · cases answers with
      | nil =>
        cases hup
        exact delete_accepted hwrite (.inl hstate) hqueue ⟨hsettle,rfl⟩
      | cons answer answers =>
        cases hup
        apply answer_accepted (hanswers tpdu mem_cons_self) id hwrite hstate hqueue
        exact .inr ⟨answers,fun t ht => hanswers t (mem_cons_of_mem _ ht),hsettle,rfl⟩
  | deleteQueued hstate hwire hqueue =>
    rcases hwire with ⟨-,-,-,hup⟩ | ⟨-,hup⟩
    · cases hup
    · cases hup
      exact absurd hstate (huncrossed rfl)
  | deleting hstate hwire hqueue =>
    rcases hwire with ⟨-,-,hup,-⟩ | ⟨hsettle,hup⟩ | ⟨hsettle,hup⟩
    · cases hup
    · cases hup
      exact deleteReply_accepted hstate hqueue ⟨hsettle,rfl⟩
    · cases hup
      refine delete_accepted hwrite (.inr hstate) ?_ ⟨hsettle,rfl⟩
      rw [hqueue]
      exact fun _ h => nomatch h

end Read

def System.Fit (sys : System slots conns) : Prop := ∀ s c, Fits (sys.tl.conn s c) (sys.wire s c)

def System.after (sys : System slots conns) (r : TlResult slots conns) : System slots conns :=
  { tl := r.1, wire := fun s c => (sys.wire s c).carry (connEvents s c r.2.1) }

namespace System

variable {sys : System slots conns} {s : Fin slots} {c : Fin conns}

theorem fit_at (h : ∀ s' c', ¬(s' = s ∧ c' = c) → Fits (sys.tl.conn s' c') (sys.wire s' c'))
    {r : TlResult slots conns} (hothers : Elsewhere s c sys.tl r)
    (hself : Fits (r.1.conn s c) ((sys.wire s c).carry (connEvents s c r.2.1))) : (sys.after r).Fit := by
  intro s' c'
  by_cases heq : s' = s ∧ c' = c
  · obtain ⟨rfl,rfl⟩ := heq
    exact hself
  · obtain ⟨hsame,hevs⟩ := hothers s' c' heq
    unfold after
    dsimp only
    rw [hsame,hevs,carry_nil]
    exact h s' c' heq

theorem Fit.at (h : sys.Fit) {r : TlResult slots conns} (hothers : Elsewhere s c sys.tl r)
    (hself : Fits (r.1.conn s c) ((sys.wire s c).carry (connEvents s c r.2.1))) : (sys.after r).Fit :=
  fit_at (fun s' c' _ => h s' c') hothers hself

theorem Fit.same (h : sys.Fit) {r : TlResult slots conns} (hsame : ∀ s c, r.1.conn s c = sys.tl.conn s c)
    (hevs : r.2.1 = []) : (sys.after r).Fit := by
  intro s c
  unfold after
  dsimp only
  rw [hsame,hevs,connEvents_nil,carry_nil]
  exact h s c

theorem Fit.updWire (h : sys.Fit) {w : Wire} (hw : Fits (sys.tl.conn s c) w) : (sys.updWire s c w).Fit := by
  intro s' c'
  unfold System.updWire
  dsimp only
  split
  · rename_i heq
    obtain ⟨rfl,rfl⟩ := heq
    exact hw
  · exact h s' c'

/-! ### Calls -/

theorem registerSlot_fit (h : sys.Fit) (caHndl : Nat) (slot : UInt8) :
    (sys.after (sys.tl.registerSlot caHndl slot)).Fit :=
  h.same (registerSlot_conn sys.tl caHndl slot) (registerSlot_events sys.tl caHndl slot)

theorem newTc_fit (h : sys.Fit) (slotId : UInt8) (malloc : Bool) : (sys.after (sys.tl.newTc slotId malloc)).Fit := by
  unfold newTc
  cases sys.tl.checkSlot slotId with
  | none => exact h.same (fun _ _ => rfl) rfl
  | some s =>
    dsimp only
    cases hfound : sys.tl.findIdle s with
    | none => exact h.same (fun _ _ => rfl) rfl
    | some c =>
      have hidle := findIdle_state hfound
      have hothers (s' : Fin slots) (c' : Fin conns) (hne : ¬(s' = s ∧ c' = c)) :
          connEvents s' c' [.allocated s c] = [] := connEvents_allocated_other hne []
      have hcarry (w : Wire) : w.carry [.allocated] = w := by
        simp [carry]
      have hself := h s c
      cases hself with
      | idle _ hwire hqueue =>
        dsimp only
        split
        · refine h.at ((elsewhere_updConn _ (-1) hothers).fail errOutofmemory) ?_
          rw [conn_fail,allocNewTc,conn_updConn_self,connEvents_allocated_self,connEvents_nil,hcarry]
          exact .waiting rfl hwire fun hnone => ⟨_,[],(append_nil _).symm,hqueue hnone,.inl rfl⟩
        · unfold queueMessage allocNewTc
          rw [updConn_updConn]
          refine h.at (elsewhere_updConn _ _ hothers) ?_
          rw [conn_updConn_self,connEvents_allocated_self,connEvents_nil,hcarry]
          exact .waiting rfl hwire fun hnone => ⟨_,_,rfl,hqueue hnone,.inr ⟨_,rfl,rfl,rfl⟩⟩
      | waiting hs | opening hs | active hs | deleteQueued hs | deleting hs =>
        rw [hidle] at hs
        cases hs

theorem sendBytes_fit (h : sys.Fit) (slotId connectionId : UInt8) (dataSize : Nat) (bytes : List UInt8)
    (malloc : Bool) : (sys.after (sys.tl.sendBytes slotId connectionId dataSize bytes malloc)).Fit := by
  by_cases htakes : sys.tl.TakesData slotId connectionId malloc
  · obtain ⟨hmalloc,s,c,hslot,hconn,hactive⟩ := htakes
    obtain ⟨field,-,-,hsend⟩ := sendBytes_taken hslot hconn hactive dataSize bytes
    rw [hmalloc,hsend]
    refine h.at (elsewhere_quiet _ 0) ?_
    rw [queueMessage,conn_updConn_self,connEvents_nil,carry_nil]
    have hself := h s c
    cases hself with
    | active _ hwire hqueue =>
      refine .active hactive hwire ?_
      intro msg hmsg
      rcases mem_append.mp hmsg with hold | hnew
      · exact hqueue msg hold
      · rw [mem_singleton.mp hnew]
        rfl
    | idle hs | waiting hs | opening hs | deleteQueued hs | deleting hs =>
      rw [hactive] at hs
      cases hs
  · obtain ⟨hret,hsame⟩ := sendBytes_refused htakes dataSize bytes
    exact h.same hsame (by rw [hret])

theorem delTc_fit (h : sys.Fit) (slotId connectionId : UInt8) (malloc : Bool)
    (hsettled : malloc = true → ∀ s ∈ sys.tl.checkSlot slotId, ∀ c ∈ toFin? conns connectionId.toNat,
      sys.DeletesSettled s c) :
    (sys.after (sys.tl.delTc slotId connectionId malloc)).Fit := by
  unfold delTc
  cases hslot : sys.tl.checkSlot slotId with
  | none => exact h.same (fun _ _ => rfl) rfl
  | some s =>
    cases hconn : toFin? conns connectionId.toNat with
    | none => exact h.same (fun _ _ => rfl) rfl
    | some c =>
      dsimp only
      split
      · exact h.same (fun _ _ => rfl) rfl
      split
      · exact h.same (fun _ _ => rfl) rfl
      rename_i hstate hmalloc
      rw [not_and_or,not_not,not_not] at hstate
      obtain ⟨hactive,hempty,hanswered,hup⟩ := hsettled (by simpa using hmalloc) s hslot c hconn hstate
      unfold queueMessage
      rw [updConn_updConn]
      refine h.at (elsewhere_quiet _ 0) ?_
      rw [conn_updConn_self,connEvents_nil,carry_nil]
      have hself := h s c
      cases hself with
      | active _ hwire _ =>
        refine .deleteQueued rfl (hwire.still hanswered hup)
          ⟨⟨[tDeleteTC, 1, connectionId],3,(sys.tl.conn s c).use⟩,?_,rfl,rfl⟩
        rw [hempty]
        rfl
      | idle hs | waiting hs | opening hs | deleteQueued hs | deleting hs =>
        rw [hactive] at hs
        cases hs

/-! ### Polls -/

theorem serve_fit (h : sys.Fit) (s : Fin slots) (c : Fin conns) (pollElapsed responseElapsed : Bool)
    (hwait : responseElapsed = true → sys.WaitsForReply s c) :
    (sys.after (sys.tl.serveConnection s c ⟨true, pollElapsed, responseElapsed⟩)).Fit := by
  apply h.at (serveConnection_elsewhere sys.tl s c _)
  exact serveConnection_fits (h s c) rfl (fun he => (hwait he).1) fun he => (hwait he).2

end System

def Accuses (error : Int) : Prop :=
  error = errBadcamdata ∨ error = errBadslotid ∨ error = errBadconnectionid

def Harmless (r : System slots conns × List (TlEvent slots conns)) : Prop :=
  r.1.Fit ∧ ∀ error, .pollFailed error ∈ r.2 → ¬Accuses error

theorem toFin?_id (hconns : conns ≤ 256) (c : Fin conns) : toFin? conns (UInt8.ofNat c.val).toNat = some c := by
  have hc := c.isLt
  have hid : (UInt8.ofNat c.val).toNat = c.val := by
    rw [UInt8.toNat_ofNat']
    omega
  unfold toFin?
  rw [dif_pos (by omega)]
  exact congrArg some (Fin.ext hid)

theorem receive_bytes (hconns : conns ≤ 256) (tl : TransportLayer slots conns) (tpdu : CamTpdu)
    (s : Fin slots) (c : Fin conns) (io : ReceiveIo) :
    tlStep tl (.receive s (tpdu.bytes (UInt8.ofNat c)) io) =
      inPoll (tl.handleTpdu s c (tpdu.parsed (UInt8.ofNat c)) io) := by
  unfold tlStep
  simp only [tpdu.parse_bytes,processTpdu,toFin?_id hconns c]
  rfl

theorem mem_inPoll {r : TlResult slots conns} (hnone : ∀ error, .pollFailed error ∉ r.2.1) {error : Int}
    (h : .pollFailed error ∈ (inPoll r).2) : r.2.2 < 0 ∧ error = r.1.error := by
  unfold inPoll at h
  rcases mem_append.mp h with hold | hnew
  · exact absurd hold (hnone error)
  · split at hnew
    · rename_i hret
      cases mem_singleton.mp hnew
      exact ⟨hret,rfl⟩
    · cases hnew

theorem call_pollFailed (tl : TransportLayer slots conns) (c : TlCall) (error : Int) :
    .pollFailed error ∉ (tl.call c).2.1 := by
  unfold TransportLayer.call
  cases c with
  | newTc slotId malloc =>
    dsimp only [newTc]
    split
    · simp
    split
    · simp
    split <;> simp
  | delTc slotId connectionId malloc => simp [delTc_events]
  | sendData slotId connectionId data malloc => simp [sendData,sendBytes_events]
  | sendDatav slotId connectionId vector malloc => simp [sendDatav,sendBytes_events]
  | registerSlot caHndl slot => simp [registerSlot_events]
  | destroySlot slotId =>
    dsimp only [destroySlot]
    split <;> simp

theorem serveConnection_pollFailed (tl : TransportLayer slots conns) (s : Fin slots) (c : Fin conns)
    (io : ServiceIo) (error : Int) : .pollFailed error ∉ (tl.serveConnection s c io).2.1 := by
  unfold serveConnection
  split
  · exact not_mem_nil
  intro h
  rcases mem_andThen h with hfirst | hlast
  · rcases mem_andThen hfirst with hsend | hpoll
    · rcases sendQueued_cases tl s c io with ⟨heq,-⟩ | ⟨_,_,-,-,-,⟨-,heq⟩ | ⟨-,heq⟩⟩ <;>
        simp [heq] at hsend
    · rcases pollTc_cases (tl.sendQueued s c io).1 s c io with heq | ⟨-,-,⟨-,heq⟩ | ⟨-,heq⟩⟩ <;>
        simp [heq] at hpoll
  · rcases checkTimeout_cases (andThen (tl.sendQueued s c io) fun tl => tl.pollTc s c io).1 s c io with
      heq | ⟨_,-,-,⟨-,heq⟩ | ⟨-,heq⟩⟩ <;> simp [heq] at hlast

namespace System

variable {sys : System slots conns}

theorem harmless_call (c : TlCall) (h : (sys.after (sys.tl.call c)).Fit) : Harmless (sys.host (.call c)) :=
  ⟨h, fun error hmem => absurd hmem (call_pollFailed sys.tl c error)⟩

theorem harmless_inPoll {op : TlInput slots conns} {r : TlResult slots conns}
    (hstep : tlStep sys.tl op = inPoll r) (h : (sys.after r).Fit) (hnone : ∀ error, .pollFailed error ∉ r.2.1)
    (herror : r.2.2 < 0 → ¬Accuses r.1.error) : Harmless (sys.host op) := by
  unfold Harmless host
  rw [hstep]
  dsimp only
  constructor
  · intro s c
    dsimp only
    rw [connEvents_inPoll]
    exact h s c
  · intro error hmem
    obtain ⟨hret,heq⟩ := mem_inPoll hnone hmem
    rw [heq]
    exact herror hret

theorem read_harmless (hconns : conns ≤ 256) (h : sys.Fit) {s : Fin slots} {c : Fin conns} {tpdu : CamTpdu}
    {up : List CamTpdu} (hup : (sys.wire s c).up = tpdu :: up) (realloc : Bool)
    (huncrossed : tpdu = .delete → (sys.tl.conn s c).state ≠ .activeDeletequeued) :
    Harmless ((sys.updWire s c { sys.wire s c with up := up }).host
      (.receive s (tpdu.bytes (UInt8.ofNat c)) ⟨true, true, realloc⟩)) := by
  have hself : Fits (sys.tl.conn s c) { sys.wire s c with up := tpdu :: up } := by
    rw [← hup]
    exact h s c
  obtain ⟨hfits,herror,hnone⟩ :=
    read_accepted ⟨true,true,realloc⟩ rfl hself huncrossed (UInt8.ofNat c)
  have hstep : tlStep (sys.updWire s c { sys.wire s c with up := up }).tl
      (.receive s (tpdu.bytes (UInt8.ofNat c)) ⟨true,true,realloc⟩) = _ :=
    receive_bytes hconns sys.tl tpdu s c _
  apply harmless_inPoll hstep _ hnone
  · intro hret
    rw [herror hret]
    unfold Accuses
    decide
  · apply fit_at _ (handleTpdu_elsewhere tpdu _ _)
    · unfold System.updWire
      dsimp only
      rw [if_pos ⟨rfl,rfl⟩]
      exact hfits
    · intro s' c' hne
      unfold System.updWire
      dsimp only
      rw [if_neg hne]
      exact h s' c'

theorem step_harmless (hconns : conns ≤ 256) (h : sys.Fit) {op : SystemInput slots conns}
    (hop : sys.Uncrossed op) : Harmless (systemStep sys op) := by
  cases op with
  | registerSlot caHndl slot => exact harmless_call _ (registerSlot_fit h caHndl slot)
  | newTc slotId malloc => exact harmless_call _ (newTc_fit h slotId malloc)
  | delTc slotId connectionId malloc => exact harmless_call _ (delTc_fit h slotId connectionId malloc hop)
  | sendData slotId connectionId data malloc =>
    exact harmless_call _ (sendBytes_fit h slotId connectionId _ data malloc)
  | sendDatav slotId connectionId vector malloc =>
    exact harmless_call _ (sendBytes_fit h slotId connectionId _ _ malloc)
  | serve s c pollElapsed responseElapsed =>
    apply harmless_inPoll rfl (serve_fit h s c pollElapsed responseElapsed hop)
    · exact serveConnection_pollFailed sys.tl s c _
    · intro hret
      rw [serveConnection_error rfl hret]
      unfold Accuses
      decide
  | read s c realloc =>
    unfold systemStep
    dsimp only
    cases hup : (sys.wire s c).up with
    | nil => exact ⟨h,fun _ hmem => nomatch hmem⟩
    | cons tpdu up => exact read_harmless hconns h hup realloc fun hdelete => hop (by rw [hup,hdelete]; rfl)
  | answer s c reply => exact ⟨h.updWire ((h s c).answer reply hop),fun _ hmem => nomatch hmem⟩
  | delete s c => exact ⟨h.updWire (h s c).delete,fun _ hmem => nomatch hmem⟩

end System

theorem fit_create (slots conns : Nat) : (systemCreate slots conns).Fit := by
  intro s c
  exact .idle rfl ⟨rfl,rfl⟩ fun _ _ hmsg => nomatch hmsg

theorem run_harmless (hconns : conns ≤ 256) {sys : System slots conns} (h : sys.Fit)
    {ops : List (SystemInput slots conns)} (hops : StepsMeet systemStep System.Uncrossed sys ops) :
    ∀ error, .pollFailed error ∈ (runTrace systemStep sys ops).2 → ¬Accuses error := by
  induction ops generalizing sys with
  | nil => exact fun _ hmem => nomatch hmem
  | cons op ops ih =>
    obtain ⟨hfit,hfirst⟩ := System.step_harmless hconns h hops.1
    intro error hmem
    rw [runTrace_cons] at hmem
    rcases mem_append.mp hmem with hnow | hlater
    · exact hfirst error hnow
    · exact ih hfit hops.2 error hlater

/-- A conformant module is not accused in a run in which nothing crosses. -/
theorem conformant_not_accused (hconns : conns ≤ 256) {ops : List (SystemInput slots conns)}
    (hops : StepsMeet systemStep System.Uncrossed (systemCreate slots conns) ops) :
    ∀ error, .pollFailed error ∈ (runTrace systemStep (systemCreate slots conns) ops).2 →
      error ≠ errBadcamdata ∧ error ≠ errBadslotid ∧ error ≠ errBadconnectionid := by
  intro error hmem
  have haccuses := run_harmless hconns (fit_create slots conns) hops error hmem
  unfold Accuses at haccuses
  exact ⟨fun h => haccuses (.inl h), fun h => haccuses (.inr (.inl h)), fun h => haccuses (.inr (.inr h))⟩

def deletedWhilePolling : List (SystemInput 1 2) :=
  [.registerSlot 3 0, .newTc 0 true, .serve 0 1 false false, .answer 0 1 ⟨true, [], 0⟩, .read 0 1 true,
    .serve 0 1 true false, .delTc 0 1 true, .answer 0 1 ⟨true, [], 0⟩, .read 0 1 true]

def deletedWhenAnswered : List (SystemInput 1 2) :=
  [.registerSlot 3 0, .newTc 0 true, .serve 0 1 false false, .answer 0 1 ⟨true, [], 0⟩, .read 0 1 true,
    .serve 0 1 true false, .answer 0 1 ⟨true, [], 0⟩, .read 0 1 true, .delTc 0 1 true,
    .serve 0 1 false false, .answer 0 1 ⟨true, [], 0⟩, .read 0 1 true]

theorem conformant_not_accused_answered :
    (2 ≤ 256 ∧ StepsMeet systemStep System.Uncrossed (systemCreate 1 2) deletedWhenAnswered) ∧
      ∀ error, .pollFailed error ∈ (runTrace systemStep (systemCreate 1 2) deletedWhenAnswered).2 →
        error ≠ errBadcamdata ∧ error ≠ errBadslotid ∧ error ≠ errBadconnectionid := by
  have hconns : 2 ≤ 256 := by decide
  have hops : StepsMeet systemStep System.Uncrossed (systemCreate 1 2) deletedWhenAnswered := by decide
  exact ⟨⟨hconns, hops⟩, conformant_not_accused hconns hops⟩

/-- The T_SB that answers the poll is taken for bad data of the module. -/
theorem conformant_accused :
    .pollFailed errBadcamdata ∈ (runTrace systemStep (systemCreate 1 2) deletedWhilePolling).2 := by
  decide

end LinuxDvb.En50221
