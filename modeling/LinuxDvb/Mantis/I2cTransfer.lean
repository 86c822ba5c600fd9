import LinuxDvb.Mantis.I2c

/-!
# What an I2C transfer reports

A wait that runs out of time is no failure for `mantis_ack_wait`, so a transfer that no signal interrupts returns the
number of messages whatever the slave does; and the counter of the page functions never comes to a length above 255.
-/

namespace LinuxDvb.Mantis

/-! ## Commands one after the other -/

def Bus.Tracks (env : World) (intStat : UInt32) (b : Bus) : Prop :=
  b.intStat = statusAfter env intStat b.commands.length

section Command

variable {env : World} {intStat : UInt32} {b : Bus}

@[simp] theorem Bus.command_commands (c : Command) : (b.command env c).2.commands = b.commands ++ [c] := by
  unfold Bus.command
  dsimp only
  split_ifs <;> rfl

theorem Bus.command_intStat (c : Command) :
    (b.command env c).2.intStat = (env b.commands.length).irqs.foldl mantisPciIrqI2c b.intStat := by
  unfold Bus.command
  dsimp only
  split_ifs <;> rfl

theorem mantisAckWait_neg (w : Wait) (status : UInt32) : mantisAckWait w status < 0 ↔ w.ending status = .signalled := by
  unfold mantisAckWait
  split_ifs with h
  · exact iff_of_true (by decide) h
  · exact iff_of_false (by decide) h

theorem Bus.Tracks.command (h : b.Tracks env intStat) (c : Command) : (b.command env c).2.Tracks env intStat := by
  rw [Bus.Tracks,Bus.command_intStat,Bus.command_commands,length_append,h]
  rfl

theorem Bus.Tracks.command_neg (h : b.Tracks env intStat) (c : Command) :
    (b.command env c).1 < 0 ↔ Interrupted env intStat b.commands.length := by
  rw [Interrupted,← h,← mantisAckWait_neg]
  unfold Bus.command
  dsimp only
  split_ifs with hw hr
  · exact iff_of_true c.fails hw
  · exact iff_of_false (Int.lt_irrefl 0) hw
  · exact iff_of_false (Int.lt_irrefl 0) hw

theorem Bus.command_fst (c : Command) (h : ¬ (b.command env c).1 < 0) : (b.command env c).1 = 0 := by
  revert h
  unfold Bus.command
  dsimp only
  split_ifs with hw hr
  · exact fun h => absurd c.fails h
  · exact fun _ => rfl
  · exact fun _ => rfl

def Bus.issue (env : World) (b : Bus) : List Command → Int × Bus
  | [] => (0, b)
  | c :: cs => if (b.command env c).1 < 0 then b.command env c else (b.command env c).2.issue env cs

theorem Bus.Tracks.issue (h : b.Tracks env intStat) (cs : List Command) :
    ((∀ k < cs.length, ¬ Interrupted env intStat (b.commands.length + k)) ∧ (b.issue env cs).1 = 0 ∧
        (b.issue env cs).2.commands = b.commands ++ cs ∧ (b.issue env cs).2.Tracks env intStat) ∨
      ((∃ k < cs.length, Interrupted env intStat (b.commands.length + k)) ∧ (b.issue env cs).1 < 0 ∧
        (b.issue env cs).2.commands <+: b.commands ++ cs) := by
  induction cs generalizing b with
  | nil => exact .inl ⟨by simp,rfl,by simp [Bus.issue],h⟩
  | cons c cs ih =>
    have happend : b.commands ++ c :: cs = (b.command env c).2.commands ++ cs := by simp
    rw [Bus.issue]
    split_ifs with hc
    · refine .inr ⟨⟨0,by simp,(h.command_neg c).mp hc⟩,hc,?_⟩
      rw [happend]
      exact prefix_append _ _
    · have hnext : ∀ k, (b.command env c).2.commands.length + k = b.commands.length + (k + 1) := by
        intro k
        rw [Bus.command_commands,length_append,length_singleton]
        omega
      rw [happend]
      obtain ⟨hno,hissue⟩ | ⟨⟨k,hk,hint⟩,hissue⟩ := ih (h.command c)
      · refine .inl ⟨?_,hissue⟩
        intro k hk
        cases k with
        | zero => exact fun hint => hc ((h.command_neg c).mpr hint)
        | succ k =>
          rw [← hnext]
          exact hno k (by simpa using hk)
      · exact .inr ⟨⟨k + 1,by simpa using hk,hnext k ▸ hint⟩,hissue⟩

end Command

/-! ## The page loop -/

section PageLoop

variable {env : World} {msg : I2cMsg} {op : Nat → Command}

theorem pageBody_fuelMonotone : FuelMonotone (pageBody env op) := fun _ _ _ _ _ => rfl

/-- The loop ends in the way in which `p` is left. -/
def PageEnds (env : World) (msg : I2cMsg) (op : Nat → Command) (p q : Page) : Prop :=
  LoopEnds (Page.Within msg) (pageBody env op) p q

variable {p : Page}

theorem PageEnds.of_fail (hp : p.Within msg) (hneg : (p.bus.command env (op p.i.toNat)).1 < 0) :
    PageEnds env msg op p ⟨p.i, (p.bus.command env (op p.i.toNat)).2, (p.bus.command env (op p.i.toNat)).1⟩ :=
  .of_leave hp (show pageBody env op 0 p = _ by simp [pageBody,hneg])

theorem pageBody_again (env : World) (op : Nat → Command) (p : Page) (hneg : ¬ (p.bus.command env (op p.i.toNat)).1 < 0) :
    pageBody env op 0 p = .again { p with i := p.i + 1, bus := (p.bus.command env (op p.i.toNat)).2 } := by
  simp [pageBody,hneg]

theorem UInt8.ofNat_add_one (i : Nat) : UInt8.ofNat i + 1 = UInt8.ofNat (i + 1) :=
  (UInt8.ofNat_add i 1).symm

theorem pageLoop_issue (env : World) (msg : I2cMsg) (op : Nat → Command) (i n : Nat) (b : Bus) (hlen : i + n ≤ msg.len) (hbyte : i + n ≤ 256) :
    ((b.issue env ((List.range' i n).map op)).1 < 0 ∧ ∃ q, PageEnds env msg op ⟨UInt8.ofNat i, b, 0⟩ q ∧
          (q.retval, q.bus) = b.issue env ((List.range' i n).map op)) ∨
      (¬ (b.issue env ((List.range' i n).map op)).1 < 0 ∧
        LoopReaches (Page.Within msg) (pageBody env op) ⟨UInt8.ofNat i, b, 0⟩
          ⟨UInt8.ofNat (i + n), (b.issue env ((List.range' i n).map op)).2, 0⟩) := by
  induction n generalizing i b with
  | zero => exact .inr ⟨Int.lt_irrefl 0,.refl⟩
  | succ n ih =>
    have hi : (UInt8.ofNat i).toNat = i := by
      rw [UInt8.toNat_ofNat']
      exact Nat.mod_eq_of_lt (by omega)
    have hguard : Page.Within msg ⟨UInt8.ofNat i,b,0⟩ := by
      simp only [Page.Within,hi]
      omega
    rw [List.range'_succ,map_cons,Bus.issue]
    split_ifs with hc
    · refine .inl ⟨hc,_,.of_fail hguard (hi.symm ▸ hc),?_⟩
      simp only [hi]
    · have hbody := pageBody_again env op ⟨UInt8.ofNat i,b,0⟩ (hi.symm ▸ hc)
      simp only [hi,UInt8.ofNat_add_one] at hbody
      have hreach := LoopReaches.pass 0 .refl hguard hbody
      rw [show i + (n + 1) = i + 1 + n by omega] at hlen hbyte ⊢
      obtain ⟨hneg,q,hq,heq⟩ | ⟨hneg,hq⟩ := ih (i + 1) (b.command env (op i)).2 hlen hbyte
      · exact .inl ⟨hneg,q,hreach.ends pageBody_fuelMonotone hq,heq⟩
      · exact .inr ⟨hneg,hreach.trans hq⟩

theorem PageEnds.grows {q : Page} (h : PageEnds env msg op p q) : p.bus.commands <+: q.bus.commands := by
  obtain ⟨t,hreach,hexit⟩ := h.exit
  have ht : p.bus.commands <+: t.bus.commands := by
    apply hreach.invariant (fun t => p.bus.commands <+: t.bus.commands) _ (prefix_refl _)
    intro s s' fuel hs _ hpass
    unfold pageBody at hpass
    dsimp only at hpass
    split_ifs at hpass
    cases hpass
    rw [Bus.command_commands]
    exact hs.trans (prefix_append _ _)
  obtain ⟨_,rfl⟩ | ⟨_,fuel,hleave⟩ := hexit
  · exact ht
  · unfold pageBody at hleave
    dsimp only at hleave
    split_ifs at hleave
    cases hleave
    rw [Bus.command_commands]
    exact ht.trans (prefix_append _ _)

theorem PageEnds.first {q : Page} (h : PageEnds env msg op p q) (hp : p.Within msg) :
    p.bus.commands ++ [op p.i.toNat] <+: q.bus.commands := by
  have hcommands : (p.bus.command env (op p.i.toNat)).2.commands = p.bus.commands ++ [op p.i.toNat] :=
    Bus.command_commands _
  rw [← hcommands]
  by_cases hneg : (p.bus.command env (op p.i.toNat)).1 < 0
  · rw [h.unique pageBody_fuelMonotone (PageEnds.of_fail hp hneg)]
  · exact PageEnds.grows (h.tail pageBody_fuelMonotone hp (pageBody_again env op p hneg))

theorem Bus.issue_fst {b : Bus} (cs : List Command) (h : ¬ (b.issue env cs).1 < 0) : (b.issue env cs).1 = 0 := by
  induction cs generalizing b with
  | nil => rfl
  | cons c cs ih =>
    rw [Bus.issue] at h ⊢
    by_cases hc : (b.command env c).1 < 0
    · rw [if_pos hc] at h
      exact absurd hc h
    · rw [if_neg hc] at h ⊢
      exact ih h

theorem pageLoop_short (env : World) (op : Nat → Command) (b : Bus) (hlen : msg.len < 256) :
    ∃ q, PageEnds env msg op ⟨0, b, 0⟩ q ∧ (q.retval, q.bus) = b.issue env ((List.range' 0 msg.len).map op) := by
  obtain ⟨-,hend⟩ | ⟨hneg,hreach⟩ :=
    pageLoop_issue env msg op 0 msg.len b (by omega) (by omega)
  · exact hend
  · rw [Nat.zero_add] at hreach
    refine ⟨_,hreach.ends pageBody_fuelMonotone (.of_not_guard ?_),Prod.ext (Bus.issue_fst _ hneg).symm rfl⟩
    rw [Page.Within,UInt8.toNat_ofNat',Nat.mod_eq_of_lt hlen]
    exact Nat.lt_irrefl _

theorem exists_pageLoop_iff {b : Bus} {r : Int × Bus} : (∃ fuel, pageLoop env msg op fuel b = some r) ↔
      ∃ q, PageEnds env msg op ⟨0, b, 0⟩ q ∧ (q.retval, q.bus) = r := by
  simp only [pageLoop,map_eq_some_iff,PageEnds,LoopEnds]
  constructor
  · rintro ⟨fuel,q,hq,hr⟩
    exact ⟨q,⟨fuel,hq⟩,hr⟩
  · rintro ⟨q,⟨fuel,hq⟩,hr⟩
    exact ⟨fuel,q,hq,hr⟩

theorem pageLoop_mono {fuel fuel' : Nat} (hle : fuel ≤ fuel') {b : Bus} {r : Int × Bus}
    (h : pageLoop env msg op fuel b = some r) : pageLoop env msg op fuel' b = some r := by
  obtain ⟨q,hq,hr⟩ := map_eq_some_iff.mp h
  exact map_eq_some_iff.mpr ⟨q,runLoop_mono pageBody_fuelMonotone hle hq,hr⟩

end PageLoop

/-! ## Messages -/

section Messages

variable {env : World} {intStat : UInt32} {b : Bus}

theorem Bus.issue_singleton (c : Command) : b.issue env [c] = b.command env c := by
  rw [Bus.issue]
  split_ifs with hc
  · rfl
  · exact Prod.ext (Bus.command_fst c hc).symm rfl

theorem xferMessage_cases (message : Nat) (msg : I2cMsg) :
    (∃ c, c.message = message ∧ messageCommands message msg = [c] ∧ msg.len = 2 ∧
        ∀ env fuel b, xferMessage env fuel message msg b = some (b.command env c)) ∨
      (∃ op : Nat → Command, (∀ i, (op i).message = message ∧ (op i).byte = i) ∧
        messageCommands message msg = (List.range msg.len).map op ∧
        ∀ env fuel b, xferMessage env fuel message msg b = pageLoop env msg op fuel b) := by
  by_cases hflags : msg.flags = 0
  · by_cases hlen : msg.len = 2
    · refine .inl ⟨writebyteCommand message msg.addr (msg.buf.getD 0 0) (msg.buf.getD 1 0),rfl,?_,hlen,?_⟩
      · simp [messageCommands,hflags,hlen]
      · simp [xferMessage,hflags,hlen,mantisI2cWritebyte]
    · refine .inr ⟨pagewriteCommand message msg,fun i => ⟨rfl,rfl⟩,?_,?_⟩
      · simp [messageCommands,hflags,hlen]
      · simp [xferMessage,hflags,hlen,mantisI2cPagewrite]
  · refine .inr ⟨pagereadCommand message msg,fun i => ⟨rfl,rfl⟩,?_,?_⟩
    · simp [messageCommands,hflags]
    · simp [xferMessage,hflags,mantisI2cPageread]

def MessageEnds (env : World) (message : Nat) (msg : I2cMsg) (b : Bus) (r : Int × Bus) : Prop :=
  ∃ fuel, xferMessage env fuel message msg b = some r

variable {message : Nat}

theorem xferMessage_mono {msg : I2cMsg} {fuel fuel' : Nat} (hle : fuel ≤ fuel') {r : Int × Bus}
    (h : xferMessage env fuel message msg b = some r) : xferMessage env fuel' message msg b = some r := by
  obtain ⟨c,-,-,-,heq⟩ | ⟨op,-,-,heq⟩ := xferMessage_cases message msg
  · rw [heq] at h ⊢
    exact h
  · rw [heq] at h ⊢
    exact pageLoop_mono hle h

theorem MessageEnds.grows {msg : I2cMsg} {r : Int × Bus} (h : MessageEnds env message msg b r) :
    b.commands <+: r.2.commands := by
  obtain ⟨fuel,h⟩ := h
  obtain ⟨c,-,-,-,heq⟩ | ⟨op,-,-,heq⟩ := xferMessage_cases message msg
  · rw [heq,Option.some.injEq] at h
    rw [← h,Bus.command_commands]
    exact prefix_append _ _
  · rw [heq] at h
    obtain ⟨q,hq,rfl⟩ := exists_pageLoop_iff.mp ⟨fuel,h⟩
    exact hq.grows

theorem messageEnds_short (env : World) (message : Nat) (b : Bus) {msg : I2cMsg} (hlen : msg.len < 256) (r : Int × Bus) :
    MessageEnds env message msg b r ↔ r = b.issue env (messageCommands message msg) := by
  obtain ⟨c,-,hcommands,-,heq⟩ | ⟨op,-,hcommands,heq⟩ := xferMessage_cases message msg
  · rw [hcommands,Bus.issue_singleton]
    simp only [MessageEnds,heq,exists_const,Option.some.injEq,eq_comm]
  · simp only [MessageEnds,heq]
    rw [exists_pageLoop_iff,hcommands,List.range_eq_range']
    obtain ⟨q,hq,hissue⟩ := pageLoop_short env op b hlen
    rw [← hissue]
    constructor
    · rintro ⟨q',hq',rfl⟩
      rw [hq'.unique pageBody_fuelMonotone hq]
    · rintro rfl
      exact ⟨q,hq,rfl⟩

theorem messageEnds_long (env : World) (message : Nat) (b : Bus) {msg : I2cMsg} (hlen : 256 ≤ msg.len) :
    ((b.issue env ((messageCommands message msg).take 256)).1 < 0 ∧
        ∀ r, MessageEnds env message msg b r ↔ r = b.issue env ((messageCommands message msg).take 256)) ∨
      (¬ (b.issue env ((messageCommands message msg).take 256)).1 < 0 ∧ ∀ r, MessageEnds env message msg b r →
          ∃ c ∈ (messageCommands message msg).take 256,
            (b.issue env ((messageCommands message msg).take 256)).2.commands ++ [c] <+: r.2.commands) := by
  obtain ⟨c,-,-,htwo,-⟩ | ⟨op,-,hcommands,heq⟩ := xferMessage_cases message msg
  · omega
  · have htake : (messageCommands message msg).take 256 = (List.range' 0 256).map op := by
      rw [hcommands,← List.map_take,List.range_eq_range',List.take_range'_of_length_ge hlen]
    simp only [MessageEnds,heq,exists_pageLoop_iff,htake]
    obtain ⟨hneg,q,hq,hissue⟩ | ⟨hneg,hreach⟩ :=
      pageLoop_issue env msg op 0 256 b (by omega) (by omega)
    · refine .inl ⟨hneg,fun r => ?_⟩
      rw [← hissue]
      constructor
      · rintro ⟨q',hq',rfl⟩
        rw [hq'.unique pageBody_fuelMonotone hq]
      · rintro rfl
        exact ⟨q,hq,rfl⟩
    · refine .inr ⟨hneg,?_⟩
      rintro r ⟨q,hq,rfl⟩
      have hwrapped := (hreach.ends_iff pageBody_fuelMonotone).mp hq
      refine ⟨op 0,mem_map_of_mem (by simp),PageEnds.first hwrapped ?_⟩
      change (0 : Nat) < msg.len
      omega

theorem messageCommands_message {msg : I2cMsg} {c : Command}
    (hc : c ∈ messageCommands message msg) : c.message = message := by
  obtain ⟨c',hmessage,hcommands,-,-⟩ | ⟨op,hop,hcommands,-⟩ := xferMessage_cases message msg
  · rw [hcommands,mem_singleton] at hc
    rw [hc,hmessage]
  · rw [hcommands] at hc
    obtain ⟨i,-,rfl⟩ := mem_map.mp hc
    exact (hop i).1

theorem messageCommands_nodup (message : Nat) (msg : I2cMsg) : (messageCommands message msg).Nodup := by
  obtain ⟨c,-,hcommands,-,-⟩ | ⟨op,hop,hcommands,-⟩ := xferMessage_cases message msg
  · rw [hcommands]
    exact List.nodup_singleton c
  · rw [hcommands]
    apply List.Nodup.map _ List.nodup_range
    intro i j hij
    rw [← (hop i).2,← (hop j).2,hij]

theorem messageCommands_length (message : Nat) (msg : I2cMsg) :
    (messageCommands message msg).length = (messageCommands 0 msg).length := by
  simp only [messageCommands]
  split_ifs <;> simp

theorem le_messageCommands_length {msg : I2cMsg} (hlen : 256 ≤ msg.len) :
    256 ≤ (messageCommands message msg).length := by
  obtain ⟨c,-,-,htwo,-⟩ | ⟨op,-,hcommands,-⟩ := xferMessage_cases message msg
  · omega
  · rwa [hcommands,length_map,length_range]

theorem reach_le (message : Nat) (msgs : List I2cMsg) : reach msgs ≤ (messagesCommands message msgs).length := by
  induction msgs generalizing message with
  | nil => exact Nat.le_refl 0
  | cons msg msgs ih =>
    rw [reach,messagesCommands,length_append]
    split_ifs with hlen
    · exact Nat.le_add_right_of_le (le_messageCommands_length hlen)
    · rw [← messageCommands_length message msg]
      exact Nat.add_le_add_left (ih (message + 1)) _

theorem messagesCommands_message {msgs : List I2cMsg} {c : Command}
    (hc : c ∈ messagesCommands message msgs) : message ≤ c.message := by
  induction msgs generalizing message with
  | nil => cases hc
  | cons msg msgs ih =>
    rw [messagesCommands,mem_append] at hc
    obtain hc | hc := hc
    · exact Nat.le_of_eq (messageCommands_message hc).symm
    · exact Nat.le_of_succ_le (ih hc)

theorem messagesCommands_nodup (message : Nat) (msgs : List I2cMsg) : (messagesCommands message msgs).Nodup := by
  induction msgs generalizing message with
  | nil => exact List.nodup_nil
  | cons msg msgs ih =>
    apply (messageCommands_nodup message msg).append (ih (message + 1))
    intro c hc hc'
    have hlater := messagesCommands_message hc'
    rw [messageCommands_message hc] at hlater
    omega

theorem transferCommands_nodup (msgs : List I2cMsg) : (transferCommands msgs).Nodup := by
  unfold transferCommands
  split
  · split_ifs
    · exact List.nodup_singleton _
    · exact messagesCommands_nodup 0 _
  · exact messagesCommands_nodup 0 _

end Messages

/-! ## The loop over the messages -/

section XferMessages

variable {env : World} {intStat : UInt32} {num : Int}

def XferMessagesEnd (env : World) (num : Int) (message : Nat) (msgs : List I2cMsg) (b : Bus) (r : Int × Bus) : Prop :=
  ∃ fuel, xferMessages env fuel num message msgs b = some r

variable {message : Nat} {r : Int × Bus}

theorem xferMessagesEnd_nil {b : Bus} : XferMessagesEnd env num message [] b r ↔ r = (num, b) := by
  simp [XferMessagesEnd,xferMessages,eq_comm]

variable {msgs : List I2cMsg}

theorem xferMessages_mono {fuel fuel' : Nat} (hle : fuel ≤ fuel') {b : Bus} (h : xferMessages env fuel num message msgs b = some r) :
    xferMessages env fuel' num message msgs b = some r := by
  induction msgs generalizing message b with
  | nil => exact h
  | cons msg msgs ih =>
    obtain ⟨r',hmessage,hrest⟩ := bind_eq_some_iff.mp h
    refine bind_eq_some_iff.mpr ⟨r',xferMessage_mono hle hmessage,?_⟩
    split_ifs at hrest ⊢
    · exact hrest
    · exact ih hrest

theorem xferMessagesEnd_cons {msg : I2cMsg} {b : Bus} : XferMessagesEnd env num message (msg :: msgs) b r ↔
      ∃ r', MessageEnds env message msg b r' ∧
        if r'.1 < 0 then r = r' else XferMessagesEnd env num (message + 1) msgs r'.2 r := by
  constructor
  · rintro ⟨fuel,h⟩
    obtain ⟨r',hmessage,hrest⟩ := bind_eq_some_iff.mp h
    refine ⟨r',⟨fuel,hmessage⟩,?_⟩
    split_ifs at hrest ⊢
    · exact (Option.some.inj hrest).symm
    · exact ⟨fuel,hrest⟩
  · rintro ⟨r',⟨fuel,hmessage⟩,hrest⟩
    split_ifs at hrest with hneg
    · exact ⟨fuel,bind_eq_some_iff.mpr ⟨r',hmessage,by rw [if_pos hneg,hrest]⟩⟩
    · obtain ⟨fuel',hrest⟩ := hrest
      use max fuel fuel'
      apply bind_eq_some_iff.mpr
      refine ⟨r',xferMessage_mono (Nat.le_max_left _ _) hmessage,?_⟩
      rw [if_neg hneg]
      exact xferMessages_mono (Nat.le_max_right _ _) hrest

theorem XferMessagesEnd.grows {b : Bus}
    (h : XferMessagesEnd env num message msgs b r) : b.commands <+: r.2.commands := by
  induction msgs generalizing message b with
  | nil =>
    rw [xferMessagesEnd_nil.mp h]
  | cons msg msgs ih =>
    obtain ⟨r',hmessage,hrest⟩ := xferMessagesEnd_cons.mp h
    split_ifs at hrest
    · rw [hrest]
      exact hmessage.grows
    · exact hmessage.grows.trans (ih hrest)

variable {intStat : UInt32}

theorem xferMessages_interrupted (num : Int) (message : Nat) {b : Bus} (h : b.Tracks env intStat)
    (hint : ∃ k < reach msgs, Interrupted env intStat (b.commands.length + k)) :
    ∃ r, XferMessagesEnd env num message msgs b r ∧ r.1 < 0 ∧
      r.2.commands <+: b.commands ++ messagesCommands message msgs := by
  induction msgs generalizing message b with
  | nil =>
    obtain ⟨k,hk,-⟩ := hint
    exact absurd hk (Nat.not_lt_zero k)
  | cons msg msgs ih =>
    obtain ⟨k,hk,hint⟩ := hint
    rw [reach] at hk
    rw [messagesCommands,← append_assoc]
    split_ifs at hk with hlen
    · have htake : ((messageCommands message msg).take 256).length = 256 :=
        length_take_of_le (le_messageCommands_length hlen)
      obtain ⟨hno,-⟩ | ⟨-,hneg,hbefore⟩ := h.issue ((messageCommands message msg).take 256)
      · exact absurd hint (hno k (htake.symm ▸ hk))
      · obtain ⟨-,hends⟩ | ⟨hnot,-⟩ := messageEnds_long env message b hlen
        · refine ⟨_,xferMessagesEnd_cons.mpr ⟨_,(hends _).mpr rfl,if_pos hneg ▸ rfl⟩,hneg,?_⟩
          apply hbefore.trans (List.IsPrefix.trans _ (prefix_append _ _))
          exact (List.prefix_append_right_inj _).mpr (List.take_prefix _ _)
        · exact absurd hneg hnot
    · rw [← messageCommands_length message msg] at hk
      have hends := messageEnds_short env message b (Nat.lt_of_not_le hlen)
      obtain ⟨hno,hzero,hcommands,htracks⟩ | ⟨-,hneg,hbefore⟩ := h.issue (messageCommands message msg)
      · have hle : (messageCommands message msg).length ≤ k := Nat.le_of_not_lt fun hlt => hno k hlt hint
        obtain ⟨r,hr,hneg,hbefore⟩ := ih (message + 1) htracks
          ⟨k - (messageCommands message msg).length,by omega,by
            rw [hcommands,length_append,Nat.add_assoc,Nat.add_sub_cancel' hle]
            exact hint⟩
        refine ⟨r,xferMessagesEnd_cons.mpr ⟨_,(hends _).mpr rfl,?_⟩,hneg,hcommands ▸ hbefore⟩
        rw [if_neg (hzero.symm ▸ Int.lt_irrefl 0)]
        exact hr
      · exact ⟨_,xferMessagesEnd_cons.mpr ⟨_,(hends _).mpr rfl,if_pos hneg ▸ rfl⟩,hneg,
          hbefore.trans (prefix_append _ _)⟩

/-- Without one, all commands are issued if no message is long; a long one lets a command be issued twice, if
the loop ends at all. -/
theorem xferMessages_uninterrupted (num : Int) (message : Nat) {b : Bus} (h : b.Tracks env intStat)
    (hno : ∀ k < reach msgs, ¬ Interrupted env intStat (b.commands.length + k)) :
    ((∀ msg ∈ msgs, msg.len < 256) ∧ ∃ b', (∀ r, XferMessagesEnd env num message msgs b r ↔ r = (num, b')) ∧
        b'.commands = b.commands ++ messagesCommands message msgs) ∨
      (∃ msg ∈ msgs, 256 ≤ msg.len) ∧ ∀ r, XferMessagesEnd env num message msgs b r → ¬ r.2.commands.Nodup := by
  induction msgs generalizing message b with
  | nil => exact .inl ⟨by simp,b,fun r => xferMessagesEnd_nil,by simp [messagesCommands]⟩
  | cons msg msgs ih =>
    rw [reach] at hno
    split_ifs at hno with hlen
    · have htake : ((messageCommands message msg).take 256).length = 256 :=
        length_take_of_le (le_messageCommands_length hlen)
      obtain ⟨-,hzero,hcommands,-⟩ | ⟨⟨k,hk,hint⟩,-⟩ := h.issue ((messageCommands message msg).take 256)
      · obtain ⟨hneg,-⟩ | ⟨-,htwice⟩ := messageEnds_long env message b hlen
        · rw [hzero] at hneg
          exact absurd hneg (Int.lt_irrefl 0)
        · refine .inr ⟨⟨msg,mem_cons_self,hlen⟩,fun r hr hnodup => ?_⟩
          obtain ⟨r',hmessage,hrest⟩ := xferMessagesEnd_cons.mp hr
          obtain ⟨c,hc,hbefore⟩ := htwice r' hmessage
          have hgrows : r'.2.commands <+: r.2.commands := by
            split_ifs at hrest
            · rw [hrest]
            · exact hrest.grows
          have hsub := hnodup.sublist (hbefore.trans hgrows).sublist
          rw [hcommands] at hsub
          exact (nodup_append.mp hsub).2.2 c (mem_append_right _ hc) c (mem_singleton_self c) rfl
      · exact absurd hint (hno k (htake ▸ hk))
    · rw [← messageCommands_length message msg] at hno
      have hends := messageEnds_short env message b (Nat.lt_of_not_le hlen)
      obtain ⟨-,hzero,hcommands,htracks⟩ | ⟨⟨k,hk,hint⟩,-⟩ := h.issue (messageCommands message msg)
      · have hcons : ∀ r, XferMessagesEnd env num message (msg :: msgs) b r ↔
            XferMessagesEnd env num (message + 1) msgs (b.issue env (messageCommands message msg)).2 r := by
          intro r
          rw [xferMessagesEnd_cons]
          simp only [hends,exists_eq_left,hzero,Int.lt_irrefl,if_false]
        simp only [hcons]
        obtain ⟨hshort,b',hb',happend⟩ | ⟨⟨long,hmem,hlong⟩,htwice⟩ := ih (message + 1) htracks (by
          intro k hk hint
          rw [hcommands,length_append,Nat.add_assoc] at hint
          exact hno _ (by omega) hint)
        · refine .inl ⟨?_,b',hb',?_⟩
          · rw [forall_mem_cons]
            exact ⟨Nat.lt_of_not_le hlen,hshort⟩
          · rw [happend,hcommands,messagesCommands,append_assoc]
        · exact .inr ⟨⟨long,mem_cons_of_mem _ hmem,hlong⟩,htwice⟩
      · exact absurd hint (hno k (by omega))

end XferMessages

/-! ## Transfers -/

section Transfers

variable {t : Transfer} {intStat : UInt32}

def Transfer.bus (t : Transfer) (intStat : UInt32) : Bus := ⟨t.statusAt intStat, [], []⟩

theorem Transfer.ends_cases (t : Transfer) (intStat : UInt32) :
    (∃ c, t.msgs.length = 2 ∧ (∀ msg ∈ t.msgs, msg.len = 1) ∧ transferCommands t.msgs = [c] ∧
        ∀ r, t.Ends intStat r ↔ r = if ((t.bus intStat).command t.env c).1 < 0 then (t.bus intStat).command t.env c
          else (2, ((t.bus intStat).command t.env c).2)) ∨
      (transferCommands t.msgs = messagesCommands 0 t.msgs ∧
        ∀ r, t.Ends intStat r ↔ XferMessagesEnd t.env t.msgs.length 0 t.msgs (t.bus intStat) r) := by
  obtain ⟨idle,msgs,env⟩ := t
  unfold Transfer.Ends transferCommands
  dsimp only
  split
  next msg0 msg1 =>
    by_cases hreg : ReadsRegister msg0 msg1
    · refine .inl ⟨readbyteCommand msg0.addr (msg0.buf.getD 0 0),rfl,?_,if_pos hreg,?_⟩
      · simp [hreg.2.2.1,hreg.2.2.2]
      · intro r
        simp only [mantisI2cXfer,if_pos hreg,mantisI2cReadbyte,exists_const,Option.some.injEq]
        exact eq_comm
    · refine .inr ⟨if_neg hreg,fun r => ?_⟩
      simp only [mantisI2cXfer,if_neg hreg,XferMessagesEnd]
      rfl
  next hmsgs =>
    refine .inr ⟨rfl,fun r => ?_⟩
    have hxfer : ∀ fuel, mantisI2cXfer env fuel msgs ((Transfer.mk idle msgs env).bus intStat) =
        xferMessages env fuel msgs.length 0 msgs ((Transfer.mk idle msgs env).bus intStat) := by
      intro fuel
      unfold mantisI2cXfer
      split
      next => exact absurd rfl (hmsgs _ _)
      next => rfl
    exact exists_congr fun fuel => by rw [← hxfer]; rfl

theorem Transfer.tracks (t : Transfer) (intStat : UInt32) : (t.bus intStat).Tracks t.env (t.statusAt intStat) := rfl

theorem Transfer.ends_of_interrupted (hint : ∃ k < reach t.msgs, k < (transferCommands t.msgs).length ∧
    Interrupted t.env (t.statusAt intStat) k) :
    ∃ r, t.Ends intStat r ∧ r.1 < 0 ∧ r.2.commands <+: transferCommands t.msgs := by
  obtain ⟨k,hreach,hk,hint⟩ := hint
  obtain ⟨c,-,-,hcommands,hends⟩ | ⟨hcommands,hends⟩ := t.ends_cases intStat
  · rw [hcommands,length_singleton,Nat.lt_one_iff] at hk
    rw [hk] at hint
    have hneg := ((t.tracks intStat).command_neg c).mpr hint
    refine ⟨_,(hends _).mpr rfl,?_⟩
    rw [if_pos hneg,hcommands,Bus.command_commands]
    exact ⟨hneg,prefix_refl [c]⟩
  · obtain ⟨r,hr,hneg,hbefore⟩ := xferMessages_interrupted t.msgs.length 0 (t.tracks intStat)
      ⟨k,hreach,by rwa [Transfer.bus,length_nil,Nat.zero_add]⟩
    exact ⟨r,(hends r).mpr hr,hneg,hcommands ▸ hbefore⟩

/-- Without one, all commands are issued if no message is long; a long one lets a command be issued twice, if the
transfer ends at all. -/
theorem Transfer.ends_of_uninterrupted (hno : ¬ ∃ k < reach t.msgs, k < (transferCommands t.msgs).length ∧
    Interrupted t.env (t.statusAt intStat) k) :
    ((∀ msg ∈ t.msgs, msg.len < 256) ∧ ∃ b, (∀ r, t.Ends intStat r ↔ r = (↑t.msgs.length, b)) ∧
        b.commands = transferCommands t.msgs) ∨
      (∃ msg ∈ t.msgs, 256 ≤ msg.len) ∧ ∀ r, t.Ends intStat r → ¬ r.2.commands.Nodup := by
  obtain ⟨c,hlen,hone,hcommands,hends⟩ | ⟨hcommands,hends⟩ := t.ends_cases intStat
  · have hreach : 0 < reach t.msgs := by
      obtain ⟨msg0,msg1,hmsgs⟩ := List.length_eq_two.mp hlen
      rw [hmsgs,forall_mem_cons] at hone
      rw [hmsgs,reach,if_neg (by rw [hone.1]; decide)]
      apply Nat.add_pos_left
      obtain ⟨_,-,hc,-,-⟩ | ⟨_,-,hc,-⟩ := xferMessage_cases 0 msg0
      · rw [hc]
        exact Nat.one_pos
      · rw [hc,length_map,length_range,hone.1]
        exact Nat.one_pos
    have hneg : ¬ ((t.bus intStat).command t.env c).1 < 0 := by
      rw [(t.tracks intStat).command_neg]
      exact fun hint => hno ⟨0,hreach,by simp [hcommands],hint⟩
    refine .inl ⟨fun msg hmsg => by rw [hone msg hmsg]; decide,((t.bus intStat).command t.env c).2,fun r => ?_,?_⟩
    · rw [hends,if_neg hneg,hlen]
      rfl
    · rw [Bus.command_commands,hcommands]
      rfl
  · simp only [hends]
    rw [hcommands] at hno ⊢
    apply xferMessages_uninterrupted _ 0 (t.tracks intStat)
    intro k hk hint
    refine hno ⟨k,hk,Nat.lt_of_lt_of_le hk (reach_le 0 t.msgs),?_⟩
    rwa [Transfer.bus,length_nil,Nat.zero_add] at hint

/-- A transfer reports what happened just when a signal ends it within reach, or no message is long and every
command is acknowledged. -/
theorem Transfer.reports_iff (t : Transfer) (intStat : UInt32) :
    (∃ r, t.Ends intStat r ∧ t.Reports r) ↔ t.Sound intStat := by
  unfold Transfer.Sound
  by_cases hint : ∃ k < reach t.msgs, k < (transferCommands t.msgs).length ∧
      Interrupted t.env (t.statusAt intStat) k
  · obtain ⟨r,hends,hreports⟩ := Transfer.ends_of_interrupted hint
    exact iff_of_true ⟨r,hends,.inr hreports⟩ (.inl hint)
  · rw [or_iff_right hint]
    obtain ⟨hshort,b,hends,hcommands⟩ | ⟨⟨msg,hmsg,hlong⟩,htwice⟩ := Transfer.ends_of_uninterrupted hint
    · simp only [hends,exists_eq_left,Transfer.Reports,hcommands]
      constructor
      · rintro (⟨-,-,hacked⟩ | ⟨hneg,-⟩)
        · exact ⟨hshort,hacked⟩
        · exact absurd hneg (Int.not_lt.mpr (Int.natCast_nonneg _))
      · rintro ⟨-,hacked⟩
        exact .inl ⟨trivial,trivial,hacked⟩
    · apply iff_of_false
      · rintro ⟨r,hends,⟨-,hcommands,-⟩ | ⟨-,hbefore⟩⟩
        · exact htwice r hends (hcommands ▸ transferCommands_nodup t.msgs)
        · exact htwice r hends ((transferCommands_nodup t.msgs).sublist hbefore.sublist)
      · exact fun ⟨hshort,_⟩ => absurd (hshort msg hmsg) (Nat.not_lt.mpr hlong)

theorem Transfer.Ends.unique {r r' : Int × Bus} (h : t.Ends intStat r) (h' : t.Ends intStat r') : r = r' := by
  obtain ⟨c,-,-,-,hends⟩ | ⟨-,hends⟩ := t.ends_cases intStat
  · rw [(hends r).mp h,(hends r').mp h']
  · obtain ⟨fuel,h⟩ := (hends r).mp h
    obtain ⟨fuel',h'⟩ := (hends r').mp h'
    have hr := xferMessages_mono (Nat.le_max_left fuel fuel') h
    have hr' := xferMessages_mono (Nat.le_max_right fuel fuel') h'
    exact Option.some.inj (hr.symm.trans hr')

/-- The transfers of a sequence report what happened just when each is sound in the state that those before it
have left. -/
theorem i2c_transfers_report_iff (intStat : UInt32) (ts : List Transfer) :
    TransfersReport intStat ts ↔ TransfersSound intStat ts := by
  induction ts generalizing intStat with
  | nil => exact Iff.rfl
  | cons t ts ih =>
    simp only [TransfersReport, TransfersSound, ← t.reports_iff, ← ih]
    constructor
    · rintro ⟨r, hends, hreports, hrest⟩
      refine ⟨⟨r, hends, hreports⟩, fun r' hends' => ?_⟩
      rwa [hends'.unique hends]
    · rintro ⟨⟨r, hends, hreports⟩, hrest⟩
      exact ⟨r, hends, hreports, hrest r hends⟩

def silentWrite : Transfer where
  idle := []
  msgs := [⟨0x10, 0, [0x01, 0x02], by decide⟩]
  env := fun _ => ⟨[], [.timeout], 0⟩

theorem i2c_transfer_not_reported : ¬ TransfersReport 0 [silentWrite] := by
  rintro ⟨r, ⟨fuel, hr⟩, hreports, -⟩
  have hends : mantisI2cXfer silentWrite.env fuel silentWrite.msgs ⟨0, [], []⟩ =
      some (1, ⟨0, [writebyteCommand 0 0x10 0x01 0x02], []⟩) := rfl
  obtain rfl := Option.some.inj (hends.symm.trans hr)
  obtain ⟨-, -, hacked⟩ | ⟨hneg, -⟩ := hreports
  · obtain ⟨q, hq, -⟩ := hacked 0 Nat.one_pos
    cases hq
  · exact absurd hneg (by decide)

end Transfers

end LinuxDvb.Mantis
