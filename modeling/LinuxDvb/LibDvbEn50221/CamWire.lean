import LinuxDvb.LibDvbEn50221.Cam

/-!
# The ends of a connection

What the module knows of a connection and the TPDUs under way in both directions, for each state of the
connection at the host, and how the steps of the module keep the two ends together.
-/

namespace LinuxDvb.En50221

open TransportLayer

variable {slots conns : Nat}

namespace Wire

def IsAnswer : CamTpdu → Prop
  | .data _ _ | .sb _ => True
  | _ => False

def Quiet (w : Wire) : Prop := settle w.cam w.down = (.absent, []) ∧ w.up = []

def Deleting (w : Wire) (up : List CamTpdu) : Prop := settle w.cam w.down = (.deleting, []) ∧ w.up = up

def Opening (w : Wire) : Prop :=
  (∃ msg, settle w.cam w.down = (.absent, [msg]) ∧ w.up = []) ∨
    (w.cam = .present ∧ w.down = [] ∧ w.up = [.createReply]) ∨ w.Deleting [.createReply, .delete]

def Plain (msg : List UInt8) : Prop := msg.head? ≠ some tDeleteTC ∧ msg.head? ≠ some tDTCReply

def Running (w : Wire) : Prop :=
  (w.cam = .present ∧ (∀ msg ∈ w.down, Plain msg) ∧ ∀ tpdu ∈ w.up, IsAnswer tpdu) ∨
    ∃ answers, (∀ tpdu ∈ answers, IsAnswer tpdu) ∧ w.Deleting (answers ++ [.delete])

def Still (w : Wire) : Prop :=
  (w.cam = .present ∧ settle w.cam w.down = (.present, []) ∧ (∀ msg ∈ w.down, Plain msg) ∧ w.up = []) ∨
    w.Deleting [.delete]

def Closing (w : Wire) : Prop :=
  (w.cam = .present ∧ (∀ msg ∈ w.down, msg.head? ≠ some tDTCReply) ∧ w.up = [] ∧
      ∃ msg, settle w.cam w.down = (.present, [msg]) ∧ msg.head? = some tDeleteTC) ∨
    (settle w.cam w.down = (.absent, []) ∧ w.up = [.deleteReply]) ∨ w.Deleting [.delete]

end Wire

def AllData (queue : List Message) : Prop := ∀ msg ∈ queue, msg.data.head? = some tDataLast

inductive Fits (con : Connection) (w : Wire) : Prop where
  | idle (hstate : con.state = .idle) (hwire : w.Quiet) (hqueue : con.txTime = none → AllData con.sendQueue)
  | waiting (hstate : con.state = .inCreation) (hwire : w.Quiet)
    (hqueue : con.txTime = none → ∃ queue create, con.sendQueue = queue ++ create ∧ AllData queue ∧
      (create = [] ∨ ∃ msg, create = [msg] ∧ msg.data.head? = some tCreateTC ∧ msg.length = 3))
  | opening (hstate : con.state = .inCreation) (hwire : w.Opening) (htime : con.txTime ≠ none)
    (hqueue : con.sendQueue = [])
  | active (hstate : con.state = .active) (hwire : w.Running) (hqueue : AllData con.sendQueue)
  | deleteQueued (hstate : con.state = .activeDeletequeued) (hwire : w.Still)
    (hqueue : ∃ msg, con.sendQueue = [msg] ∧ msg.data.head? = some tDeleteTC ∧ msg.length = 3)
  | deleting (hstate : con.state = .inDeletion) (hwire : w.Closing) (hqueue : con.sendQueue = [])

namespace Wire

/-! ### What is under way -/

theorem settle_append {cam : CamState} {down : List (List UInt8)} (msgs : List (List UInt8))
    {cam' : CamState} (h : settle cam down = (cam', [])) :
    settle cam (down ++ msgs) = settle cam' msgs := by
  fun_induction settle cam down with
  | case1 cam =>
    cases h
    rfl
  | case2 msg down hcreate => simp at h
  | case3 msg down hcreate ih =>
    rw [cons_append,settle,if_neg hcreate]
    exact ih h
  | case4 msg down hanswer => simp at h
  | case5 msg down hanswer ih =>
    rw [cons_append,settle,if_neg hanswer]
    exact ih h
  | case6 msg down ih =>
    rw [cons_append,settle]
    exact ih h

theorem settle_deleting {down : List (List UInt8)} (h : ∀ msg ∈ down, msg.head? ≠ some tDTCReply) :
    settle .deleting down = (.deleting, []) := by
  induction down with
  | nil => rfl
  | cons msg down ih =>
    rw [settle,if_neg (h msg mem_cons_self)]
    exact ih fun m hm => h m (mem_cons_of_mem _ hm)

theorem settle_present_fst (down : List (List UInt8)) : (settle .present down).1 = .present := by
  induction down with
  | nil => rfl
  | cons msg down ih =>
    rw [settle]
    split
    · rfl
    · exact ih

@[simp] theorem carry_nil (w : Wire) : w.carry [] = w := by
  simp [carry]

theorem carry_append (w : Wire) (evs evs' : List ConnEvent) : w.carry (evs ++ evs') = (w.carry evs).carry evs' := by
  simp [carry]

theorem carry_written (w : Wire) (data : List UInt8) (use : Nat) :
    w.carry [.written data use] = { w with down := w.down ++ [data] } := by
  simp [carry]

section Carry

variable {w : Wire} {msg : List UInt8}

theorem Quiet.plain (h : w.Quiet) (hmsg : msg.head? ≠ some tCreateTC) : Quiet { w with down := w.down ++ [msg] } := by
  refine ⟨?_,h.2⟩
  dsimp only
  rw [settle_append [msg] h.1,settle,if_neg hmsg]
  rfl

theorem Quiet.create (h : w.Quiet) (hmsg : msg.head? = some tCreateTC) :
    Opening { w with down := w.down ++ [msg] } := by
  refine .inl ⟨msg,?_,h.2⟩
  dsimp only
  rw [settle_append [msg] h.1,settle,if_pos hmsg]

theorem Deleting.plain {up : List CamTpdu} (h : w.Deleting up) (hmsg : msg.head? ≠ some tDTCReply) :
    Deleting { w with down := w.down ++ [msg] } up := by
  refine ⟨?_,h.2⟩
  dsimp only
  rw [settle_append [msg] h.1,settle,if_neg hmsg]
  rfl

theorem Deleting.replied (h : w.Deleting []) (hmsg : msg.head? = some tDTCReply) :
    Quiet { w with down := w.down ++ [msg] } := by
  refine ⟨?_,h.2⟩
  dsimp only
  rw [settle_append [msg] h.1,settle,if_pos hmsg]
  rfl

theorem Running.plain (h : w.Running) (hmsg : Plain msg) : Running { w with down := w.down ++ [msg] } := by
  rcases h with ⟨hcam,hdown,hup⟩ | ⟨answers,hanswers,hdeleting⟩
  · refine .inl ⟨hcam,?_,hup⟩
    intro m hm
    rcases mem_append.mp hm with hold | hnew
    · exact hdown m hold
    · rw [mem_singleton.mp hnew]
      exact hmsg
  · exact .inr ⟨answers,hanswers,hdeleting.plain hmsg.2⟩

theorem Still.close (h : w.Still) (hmsg : msg.head? = some tDeleteTC) : Closing { w with down := w.down ++ [msg] } := by
  have hreply : msg.head? ≠ some tDTCReply := by
    rw [hmsg]
    decide
  rcases h with ⟨hcam,hsettle,hdown,hup⟩ | hdeleting
  · refine .inl ⟨hcam,?_,hup,msg,?_,hmsg⟩
    · intro m hm
      rcases mem_append.mp hm with hold | hnew
      · exact (hdown m hold).2
      · rw [mem_singleton.mp hnew]
        exact hreply
    · dsimp only
      rw [settle_append [msg] hsettle,settle,if_pos (.inl hmsg)]
  · exact .inr (.inr (hdeleting.plain hreply))

theorem Running.still (h : w.Running) (hanswered : w.Answered) (hup : ∀ tpdu ∈ w.up, tpdu = .delete) : w.Still := by
  rcases h with ⟨hcam,hdown,hanswers⟩ | ⟨answers,hanswers,hsettle,hall⟩
  · refine .inl ⟨hcam,?_,hdown,?_⟩
    · unfold Answered at hanswered
      rw [hcam] at hanswered ⊢
      exact Prod.ext (settle_present_fst w.down) hanswered
    · rw [List.eq_nil_iff_forall_not_mem]
      intro tpdu htpdu
      have hanswer := hanswers tpdu htpdu
      rw [hup tpdu htpdu] at hanswer
      exact hanswer
  · have hnone : answers = [] := by
      rw [List.eq_nil_iff_forall_not_mem]
      intro tpdu htpdu
      have hanswer := hanswers tpdu htpdu
      rw [hup tpdu (by rw [hall]; exact mem_append_left _ htpdu)] at hanswer
      exact hanswer
    rw [hnone] at hall
    exact .inr ⟨hsettle,hall⟩

end Carry

/-! ### Steps of the module -/

/-- What the module does with the next TPDU: it passes it over, or it answers a TPDU that the connection
has to be answered. -/
theorem answer_cases (w : Wire) (reply : CamReply) (hsilent : w.cam = .deleting → reply.silent = true) :
    (settle (w.answer reply).cam (w.answer reply).down = settle w.cam w.down ∧
      (w.answer reply).up = w.up ∧ (w.cam = .present → (w.answer reply).cam = .present) ∧
      ∀ msg ∈ (w.answer reply).down, msg ∈ w.down) ∨
    ∃ msg down, w.down = msg :: down ∧
      ((w.cam = .absent ∧ msg.head? = some tCreateTC ∧
        w.answer reply = { down := down, cam := .present, up := w.up ++ [.createReply] }) ∨
      (w.cam = .present ∧ msg.head? = some tDeleteTC ∧
        w.answer reply = { down := down, cam := .absent, up := w.up ++ [.deleteReply] }) ∨
      (w.cam = .present ∧ IsData msg ∧
        w.answer reply = { down := down, cam := .present, up := w.up ++ reply.tpdus })) := by
  obtain ⟨down,cam,up⟩ := w
  cases down with
  | nil => exact .inl ⟨rfl,rfl,fun h => h,fun _ h => h⟩
  | cons msg down =>
    have htail : ∀ m ∈ down, m ∈ msg :: down := fun m hm => mem_cons_of_mem _ hm
    cases cam with
    | absent =>
      by_cases hcreate : msg.head? = some tCreateTC
      · exact .inr ⟨msg,down,rfl,.inl ⟨rfl,hcreate,by simp [answer,hcreate]⟩⟩
      · have hpass : answer ⟨msg :: down,.absent,up⟩ reply = ⟨down,.absent,up⟩ := by
          simp [answer,hcreate]
        rw [hpass,settle,if_neg hcreate]
        exact .inl ⟨rfl,rfl,fun h => (nomatch h),htail⟩
    | present =>
      by_cases hdelete : msg.head? = some tDeleteTC
      · exact .inr ⟨msg,down,rfl,.inr (.inl ⟨rfl,hdelete,by simp [answer,Wire.reply,hdelete]⟩)⟩
      by_cases hdata : IsData msg
      · exact .inr ⟨msg,down,rfl,.inr (.inr ⟨rfl,hdata,by simp [answer,Wire.reply,hdelete,hdata]⟩)⟩
      · have hpass : answer ⟨msg :: down,.present,up⟩ reply = ⟨down,.present,up⟩ := by
          simp [answer,Wire.reply,hdelete,hdata]
        rw [hpass,settle,if_neg (not_or.mpr ⟨hdelete,hdata⟩)]
        exact .inl ⟨rfl,rfl,fun _ => rfl,htail⟩
    | deleting =>
      left
      rw [settle]
      by_cases hreply : msg.head? = some tDTCReply
      · have hpass : answer ⟨msg :: down,.deleting,up⟩ reply = ⟨down,.absent,up⟩ := by
          simp [answer,hreply]
        rw [hpass,if_pos hreply]
        exact ⟨rfl,rfl,fun h => (nomatch h),htail⟩
      · have hpass : answer ⟨msg :: down,.deleting,up⟩ reply = ⟨down,.deleting,up⟩ := by
          simp [answer,hreply,hsilent rfl]
        rw [hpass,if_neg hreply]
        exact ⟨rfl,rfl,fun h => (nomatch h),htail⟩

theorem tpdus_isAnswer (reply : CamReply) : ∀ tpdu ∈ reply.tpdus, IsAnswer tpdu := by
  intro tpdu htpdu
  unfold CamReply.tpdus at htpdu
  rcases mem_append.mp htpdu with hdata | hsb
  · obtain ⟨d,-,rfl⟩ := mem_map.mp hdata
    trivial
  · rw [mem_singleton.mp hsb]
    trivial

section Answer

variable {w : Wire} (reply : CamReply) (hsilent : w.cam = .deleting → reply.silent = true)

include hsilent

theorem Answered.answer (h : w.Answered) : settle (w.answer reply).cam (w.answer reply).down = settle w.cam w.down ∧
      (w.answer reply).up = w.up ∧ (w.cam = .present → (w.answer reply).cam = .present) ∧
      ∀ msg ∈ (w.answer reply).down, msg ∈ w.down := by
  rcases answer_cases w reply hsilent with hpassed | ⟨msg,down,hdown,hanswer⟩
  · exact hpassed
  · unfold Answered at h
    rw [hdown] at h
    rcases hanswer with ⟨hcam,hmsg,-⟩ | ⟨hcam,hmsg,-⟩ | ⟨hcam,hmsg,-⟩
    · rw [hcam,settle,if_pos hmsg] at h
      cases h
    · rw [hcam,settle,if_pos (.inl hmsg)] at h
      cases h
    · rw [hcam,settle,if_pos (.inr hmsg)] at h
      cases h

theorem settled_answer {cam : CamState} {up : List CamTpdu} (h : settle w.cam w.down = (cam, []) ∧ w.up = up) :
    settle (w.answer reply).cam (w.answer reply).down = (cam, []) ∧ (w.answer reply).up = up := by
  have hanswered : w.Answered := by
    rw [Answered,h.1]
  obtain ⟨hsettle,hup,-,-⟩ := hanswered.answer reply hsilent
  exact ⟨hsettle.trans h.1,hup.trans h.2⟩

theorem Quiet.answer (h : w.Quiet) : (w.answer reply).Quiet := settled_answer reply hsilent h

theorem Deleting.answer {up : List CamTpdu} (h : w.Deleting up) : (w.answer reply).Deleting up :=
  settled_answer reply hsilent h

theorem Opening.answer (h : w.Opening) : (w.answer reply).Opening := by
  rcases h with ⟨create,hsettle,hup⟩ | ⟨hcam,hdown,hup⟩ | hdeleting
  · rcases answer_cases w reply hsilent with ⟨hsettle',hup',-,-⟩ | ⟨msg,down,hdown,hanswer⟩
    · exact .inl ⟨create,hsettle'.trans hsettle,hup'.trans hup⟩
    · rw [hdown] at hsettle
      rcases hanswer with ⟨hcam,hmsg,hw⟩ | ⟨hcam,hmsg,-⟩ | ⟨hcam,hmsg,-⟩
      · rw [hcam,settle,if_pos hmsg] at hsettle
        cases hsettle
        rw [hw,hup]
        exact .inr (.inl ⟨rfl,rfl,rfl⟩)
      · rw [hcam,settle,if_pos (.inl hmsg)] at hsettle
        cases hsettle
      · rw [hcam,settle,if_pos (.inr hmsg)] at hsettle
        cases hsettle
  · have hsame : w.answer reply = w := by
      unfold Wire.answer
      rw [hdown]
    rw [hsame]
    exact .inr (.inl ⟨hcam,hdown,hup⟩)
  · exact .inr (.inr (hdeleting.answer reply hsilent))

theorem Running.answer (h : w.Running) : (w.answer reply).Running := by
  rcases h with ⟨hcam,hdown,hup⟩ | ⟨answers,hanswers,hdeleting⟩
  · rcases answer_cases w reply hsilent with ⟨-,hup',hcam',hdown'⟩ | ⟨msg,down,hqueue,hanswer⟩
    · refine .inl ⟨hcam' hcam,fun msg hmsg => hdown msg (hdown' msg hmsg),?_⟩
      rw [hup']
      exact hup
    · rw [hqueue] at hdown
      rcases hanswer with ⟨hcam',-,-⟩ | ⟨-,hmsg,-⟩ | ⟨-,-,hw⟩
      · rw [hcam] at hcam'
        cases hcam'
      · exact absurd hmsg (hdown msg mem_cons_self).1
      · rw [hw]
        refine .inl ⟨rfl,fun m hm => hdown m (mem_cons_of_mem _ hm),?_⟩
        intro tpdu htpdu
        rcases mem_append.mp htpdu with hold | hnew
        · exact hup tpdu hold
        · exact tpdus_isAnswer reply tpdu hnew
  · exact .inr ⟨answers,hanswers,hdeleting.answer reply hsilent⟩

theorem Still.answer (h : w.Still) : (w.answer reply).Still := by
  rcases h with ⟨hcam,hsettle,hdown,hup⟩ | hdeleting
  · have hanswered : w.Answered := by
      rw [Answered,hsettle]
    obtain ⟨hsettle',hup',hcam',hdown'⟩ := hanswered.answer reply hsilent
    exact .inl ⟨hcam' hcam,hsettle'.trans hsettle,fun msg hmsg => hdown msg (hdown' msg hmsg),hup'.trans hup⟩
  · exact .inr (hdeleting.answer reply hsilent)

theorem Closing.answer (h : w.Closing) : (w.answer reply).Closing := by
  rcases h with ⟨hcam,hdown,hup,last,hsettle,hlast⟩ | ⟨hsettle,hup⟩ | hdeleting
  · rcases answer_cases w reply hsilent with ⟨hsettle',hup',hcam',hdown'⟩ | ⟨msg,down,hqueue,hanswer⟩
    · exact .inl ⟨hcam' hcam,fun msg hmsg => hdown msg (hdown' msg hmsg),hup'.trans hup,last,
        hsettle'.trans hsettle,hlast⟩
    · rw [hqueue,hcam] at hsettle
      rcases hanswer with ⟨hcam',-,-⟩ | ⟨-,hmsg,hw⟩ | ⟨-,hmsg,-⟩
      · rw [hcam] at hcam'
        cases hcam'
      · rw [settle,if_pos (.inl hmsg)] at hsettle
        cases hsettle
        rw [hw,hup]
        exact .inr (.inl ⟨rfl,rfl⟩)
      · -- the only TPDU to be answered is T_DELETE_T_C
        rw [settle,if_pos (.inr hmsg)] at hsettle
        cases hsettle
        unfold IsData at hmsg
        rw [hlast] at hmsg
        exact absurd hmsg (by decide)
  · exact .inr (.inl (settled_answer reply hsilent ⟨hsettle,hup⟩))
  · exact .inr (.inr (hdeleting.answer reply hsilent))

end Answer

section Delete

variable {w : Wire}

theorem delete_of_settled {cam : CamState} (hcam : cam ≠ .present) (h : (settle w.cam w.down).1 = cam) :
    w.delete = w := by
  unfold Wire.delete
  apply if_neg
  intro hpresent
  rw [hpresent,settle_present_fst] at h
  exact hcam h.symm

theorem delete_present (h : w.cam = .present) (hdown : ∀ msg ∈ w.down, msg.head? ≠ some tDTCReply) :
    w.delete.Deleting (w.up ++ [.delete]) := by
  unfold Wire.delete
  rw [if_pos h]
  exact ⟨settle_deleting hdown,rfl⟩

theorem Deleting.delete {up : List CamTpdu} (h : w.Deleting up) : w.delete.Deleting up := by
  rw [delete_of_settled (by decide) (congrArg Prod.fst h.1)]
  exact h

theorem Quiet.delete (h : w.Quiet) : w.delete.Quiet := by
  rw [delete_of_settled (by decide) (congrArg Prod.fst h.1)]
  exact h

theorem Opening.delete (h : w.Opening) : w.delete.Opening := by
  rcases h with ⟨create,hsettle,hup⟩ | ⟨hcam,hdown,hup⟩ | hdeleting
  · have hcam : (settle w.cam w.down).1 = .absent := congrArg Prod.fst hsettle
    rw [delete_of_settled (by decide) hcam]
    exact .inl ⟨create,hsettle,hup⟩
  · have hdelete := delete_present hcam (by rw [hdown]; exact fun _ h => nomatch h)
    rw [hup] at hdelete
    exact .inr (.inr hdelete)
  · exact .inr (.inr hdeleting.delete)

theorem Running.delete (h : w.Running) : w.delete.Running := by
  rcases h with ⟨hcam,hdown,hup⟩ | ⟨answers,hanswers,hdeleting⟩
  · exact .inr ⟨w.up,hup,delete_present hcam fun msg hmsg => (hdown msg hmsg).2⟩
  · exact .inr ⟨answers,hanswers,hdeleting.delete⟩

theorem Still.delete (h : w.Still) : w.delete.Still := by
  rcases h with ⟨hcam,-,hdown,hup⟩ | hdeleting
  · have hdelete := delete_present hcam fun msg hmsg => (hdown msg hmsg).2
    rw [hup] at hdelete
    exact .inr hdelete
  · exact .inr hdeleting.delete

theorem Closing.delete (h : w.Closing) : w.delete.Closing := by
  rcases h with ⟨hcam,hdown,hup,-⟩ | ⟨hsettle,hup⟩ | hdeleting
  · have hdelete := delete_present hcam hdown
    rw [hup] at hdelete
    exact .inr (.inr hdelete)
  · rw [delete_of_settled (by decide) (congrArg Prod.fst hsettle)]
    exact .inr (.inl ⟨hsettle,hup⟩)
  · exact .inr (.inr hdeleting.delete)

end Delete

end Wire

theorem Fits.answer {con : Connection} {w : Wire} (h : Fits con w) (reply : CamReply)
    (hsilent : w.cam = .deleting → reply.silent = true) : Fits con (w.answer reply) := by
  cases h with
  | idle hstate hwire hqueue => exact .idle hstate (hwire.answer reply hsilent) hqueue
  | waiting hstate hwire hqueue => exact .waiting hstate (hwire.answer reply hsilent) hqueue
  | opening hstate hwire htime hqueue => exact .opening hstate (hwire.answer reply hsilent) htime hqueue
  | active hstate hwire hqueue => exact .active hstate (hwire.answer reply hsilent) hqueue
  | deleteQueued hstate hwire hqueue => exact .deleteQueued hstate (hwire.answer reply hsilent) hqueue
  | deleting hstate hwire hqueue => exact .deleting hstate (hwire.answer reply hsilent) hqueue

theorem Fits.delete {con : Connection} {w : Wire} (h : Fits con w) : Fits con w.delete := by
  cases h with
  | idle hstate hwire hqueue => exact .idle hstate hwire.delete hqueue
  | waiting hstate hwire hqueue => exact .waiting hstate hwire.delete hqueue
  | opening hstate hwire htime hqueue => exact .opening hstate hwire.delete htime hqueue
  | active hstate hwire hqueue => exact .active hstate hwire.delete hqueue
  | deleteQueued hstate hwire hqueue => exact .deleteQueued hstate hwire.delete hqueue
  | deleting hstate hwire hqueue => exact .deleting hstate hwire.delete hqueue

end LinuxDvb.En50221
