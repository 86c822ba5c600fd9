import LinuxDvb.LibDvbSec.CommandMeaning

/-!
# Runs of documented commands

What `dvbsec_command` does with documented commands one after the other, and with one behind them that is not
documented.
-/

namespace LinuxDvb.Sec

def documentedRun : List Written → Option (List FeOp)
  | [] => some []
  | w :: ws => do return (← w.command.documented) ++ (← documentedRun ws)

/-- Written without white space before the parenthesis, and with the documented operations. -/
def Written.Faithful (w : Written) : Prop := w.gap.val = [] ∧ w.command.Faithful

def Implements (ws : List Written) (trailing : Blanks) : Prop :=
  ∀ overflowed, ∃ ops, documentedRun ws = some ops ∧
    dvbsecCommand overflowed (render ws ++ trailing.val) = .ok (0, ops)

/-- A command that is not documented is rejected with -1 when the ones before it are performed, without an
operation for it and whatever follows. -/
def Rejects (ws : List Written) (u : Unknown) : Prop :=
  ∀ overflowed rest, 0 ∉ rest → ∃ ops, documentedRun ws = some ops ∧
    dvbsecCommand overflowed (render ws ++ (u.text ++ rest)) = .ok (-1, ops)

section Run

variable (overflowed : Int32 → UInt32)

def performedRun : List Written → List FeOp
  | [] => []
  | w :: ws => w.command.performed overflowed ++ performedRun ws

theorem outcomeIn_refused {name : List UInt8} (args : List UInt8) {list : List (String × List ArgKind)}
    (h : ∀ command ∈ list, abbreviates name (bytes command.1) = false) : outcomeIn name args list = .refused := by
  induction list with
  | nil => rfl
  | cons command list ih =>
    obtain ⟨hfirst,hrest⟩ := forall_mem_cons.mp h
    obtain ⟨full,kinds⟩ := command
    rw [outcomeIn,hfirst,if_neg Bool.false_ne_true,ih hrest]

theorem outcome_gap (w : Written) (hgap : w.gap.val ≠ []) (args : List UInt8) :
    outcome (w.name ++ w.gap.val) args = .refused := by
  apply outcomeIn_refused
  intro command hcommand
  obtain ⟨c,gap,hc⟩ := exists_cons_of_ne_nil hgap
  have hblank : isspace c = true := w.gap.property c (by rw [hc]; exact mem_cons_self ..)
  by_contra habbreviates
  rw [Bool.not_eq_false,abbreviates,List.isPrefixOf_iff_prefix] at habbreviates
  have hmem : tolower c ∈ (bytes command.1).map tolower := by
    apply habbreviates.subset
    apply mem_map_of_mem
    rw [hc]
    exact mem_append_right _ (mem_cons_self ..)
  have hletter := (name_letters (mem_map_of_mem hcommand)).2 _ hmem
  rw [isspace_tolower hblank] at hletter
  cases hletter.2.2

theorem execute_written (w : Written) (hgap : w.gap.val = []) (rest : Option (List UInt8)) :
    execute overflowed ⟨w.name ++ w.gap.val, padArgs w.around w.command.args, rest⟩ =
      .ok (w.command.performed overflowed) := by
  have hzero := w.zero_not_mem
  rw [hgap,append_nil] at hzero ⊢
  have hfull : 0 ∉ bytes w.command.name := by
    intro hmem
    exact ((name_letters (name_mem w.command)).2 _ (mem_map_of_mem hmem)).1 rfl
  rw [execute_name overflowed w.isName hzero hfull,execute_args]

theorem parsefunction_command {blanks name args : List UInt8} (h : IsCommand blanks name args) (rest : List UInt8) :
    parsefunction (some (blanks ++ (name ++ ch '(' :: (args ++ [ch ')'])) ++ rest)) =
      .ok (some ⟨name, args, some rest⟩) := by
  have hparse := parsefunction_closed h rest
  simpa only [append_assoc,cons_append,nil_append] using hparse

theorem parsefunction_written (w : Written) (rest : List UInt8) : parsefunction (some (w.text ++ rest)) =
      .ok (some ⟨w.name ++ w.gap.val, padArgs w.around w.command.args, some rest⟩) :=
  parsefunction_command w.isCommand rest

theorem commandLoop_render {ws : List Written} (h : ∀ w ∈ ws, w.gap.val = []) (tail : List UInt8) (rounds : Nat) :
    commandLoop overflowed (rounds + ws.length) (some (render ws ++ tail)) =
      (commandLoop overflowed rounds (some tail)).map fun r => (r.1, performedRun overflowed ws ++ r.2) := by
  induction ws with
  | nil =>
    rw [render,nil_append,length_nil,Nat.add_zero]
    cases commandLoop overflowed rounds (some tail) <;> rfl
  | cons w ws ih =>
    obtain ⟨hgap,hrest⟩ := forall_mem_cons.mp h
    rw [render,append_assoc,length_cons,← Nat.add_assoc,
      commandLoop_succ overflowed (parsefunction_written w _),execute_written overflowed w hgap]
    dsimp only
    rw [ih hrest,performedRun]
    cases commandLoop overflowed rounds (some tail) with
    | error fault => rfl
    | ok r => simp only [Except.map,append_assoc]

theorem gap_of_commandLoop {ws : List Written} {tail : List UInt8} {rounds : Nat} {ops : List FeOp}
    (h : commandLoop overflowed rounds (some (render ws ++ tail)) = .ok (0, ops)) :
    ∀ w ∈ ws, w.gap.val = [] := by
  induction ws generalizing rounds ops with
  | nil => exact forall_mem_nil _
  | cons w ws ih =>
    cases rounds with
    | zero => cases h
    | succ rounds =>
      rw [render,append_assoc,commandLoop_succ overflowed (parsefunction_written w _)] at h
      by_cases hgap : w.gap.val = []
      · rw [execute_written overflowed w hgap] at h
        dsimp only at h
        cases hrest : commandLoop overflowed rounds (some (render ws ++ tail)) with
        | error fault =>
          rw [hrest] at h
          cases h
        | ok r =>
          rw [hrest] at h
          obtain ⟨ret,others⟩ := r
          obtain rfl := (Prod.mk.inj (Except.ok.inj h)).1
          exact forall_mem_cons.mpr ⟨hgap,ih hrest⟩
      · have hrefused := stopOutcome_execute overflowed
          ⟨w.name ++ w.gap.val,padArgs w.around w.command.args,some (render ws ++ tail)⟩ w.zero_not_mem
        rw [outcome_gap w hgap] at hrefused
        rw [eq_failed_of_refused hrefused] at h
        cases h

theorem length_render (ws : List Written) : ws.length ≤ (render ws).length := by
  induction ws with
  | nil => exact Nat.le_refl 0
  | cons w ws ih =>
    rw [render,Written.text]
    simp only [length_append,length_cons]
    omega

theorem dvbsecCommand_render {ws : List Written} (h : ∀ w ∈ ws, w.gap.val = []) (tail : List UInt8) :
    ∃ rounds, dvbsecCommand overflowed (render ws ++ tail) =
      (commandLoop overflowed (rounds + 2) (some tail)).map
        fun r => (r.1, performedRun overflowed ws ++ r.2) := by
  have hlength := length_render ws
  refine ⟨(render ws ++ tail).length - ws.length,?_⟩
  rw [← commandLoop_render overflowed h tail,dvbsecCommand]
  congr 1
  rw [length_append]
  omega

end Run

section Language

theorem documentedRun_of_faithful (overflowed : Int32 → UInt32) {ws : List Written}
    (h : ∀ w ∈ ws, w.Faithful) : documentedRun ws = some (performedRun overflowed ws) := by
  induction ws with
  | nil => rfl
  | cons w ws ih =>
    obtain ⟨hw,hws⟩ := forall_mem_cons.mp h
    rw [documentedRun,documented_of_faithful overflowed hw.2,ih hws]
    rfl

theorem documentedRun_cons {w : Written} {ws : List Written} {ops : List FeOp}
    (h : documentedRun (w :: ws) = some ops) :
    ∃ first others, w.command.documented = some first ∧ documentedRun ws = some others ∧
      ops = first ++ others := by
  rw [documentedRun] at h
  cases hfirst : w.command.documented with
  | none =>
    rw [hfirst] at h
    cases h
  | some first =>
    cases hothers : documentedRun ws with
    | none =>
      rw [hfirst,hothers] at h
      cases h
    | some others =>
      rw [hfirst,hothers] at h
      exact ⟨first,others,rfl,rfl,(Option.some.inj h).symm⟩

theorem length_performedRun_le (overflowed : Int32 → UInt32) {ws : List Written} {ops : List FeOp}
    (h : documentedRun ws = some ops) : (performedRun overflowed ws).length ≤ ops.length := by
  induction ws generalizing ops with
  | nil => exact Nat.zero_le _
  | cons w ws ih =>
    obtain ⟨first,others,hfirst,hothers,rfl⟩ := documentedRun_cons h
    have hlength := length_performed_le overflowed hfirst
    have hrest := ih hothers
    rw [performedRun,length_append,length_append]
    omega

/-- No command performs more than is documented, so if the operations are the same for all commands together,
they are the same for each of them. -/
theorem faithful_of_documentedRun {ws : List Written}
    (h : documentedRun ws = some (performedRun (fun _ => 0) ws)) : ∀ w ∈ ws, w.command.Faithful := by
  induction ws with
  | nil => exact forall_mem_nil _
  | cons w ws ih =>
    obtain ⟨first,others,hfirst,hothers,happend⟩ := documentedRun_cons h
    have hlength := length_performed_le (fun _ => 0) hfirst
    have hrest := length_performedRun_le (fun _ => 0) hothers
    rw [performedRun] at happend
    have htotal := congrArg List.length happend
    rw [length_append,length_append] at htotal
    obtain ⟨rfl,rfl⟩ := append_inj happend (by omega)
    exact forall_mem_cons.mpr ⟨faithful_of_documented hfirst,ih hothers⟩

theorem parsefunction_unknown (u : Unknown) (rest : List UInt8) :
    parsefunction (some (u.text ++ rest)) = .ok (some ⟨u.name, u.args, some rest⟩) :=
  parsefunction_command u.isCommand rest

theorem stopOutcome_unknown (overflowed : Int32 → UInt32) (u : Unknown) (rest : Option (List UInt8)) :
    stopOutcome (execute overflowed ⟨u.name, u.args, rest⟩) = outcome u.name u.args :=
  stopOutcome_execute overflowed _ fun h => u.noZero (mem_append_left _ h)

/-- For all documented commands, however they are written, and a command that is not documented: the documented
operations are performed with 0 at the end and -1 at the command that is not documented, exactly if the
commands are faithful and the one that is not documented is refused. -/
theorem dvbsecCommand_language_iff (ws : List Written) (trailing : Blanks) (u : Unknown) :
    Implements ws trailing ∧ Rejects ws u ↔
      (∀ w ∈ ws, w.Faithful) ∧ outcome u.name u.args = .refused := by
  constructor
  · rintro ⟨himplements, hrejects⟩
    obtain ⟨ops, hdocumented, hrun⟩ := himplements fun _ => 0
    have hgap := gap_of_commandLoop _ hrun
    obtain ⟨rounds, hrender⟩ := dvbsecCommand_render (fun _ => 0) hgap trailing.val
    rw [hrender, commandLoop, parsefunction_blank trailing.property] at hrun
    obtain rfl : performedRun (fun _ => 0) ws ++ [] = ops := (Prod.mk.inj (Except.ok.inj hrun)).2
    rw [List.append_nil] at hdocumented
    have hfaithful := faithful_of_documentedRun hdocumented
    refine ⟨fun w hw => ⟨hgap w hw, hfaithful w hw⟩, ?_⟩
    obtain ⟨ops, -, hrejected⟩ := hrejects (fun _ => 0) [] List.not_mem_nil
    obtain ⟨rounds, hrender⟩ := dvbsecCommand_render (fun _ => 0) hgap (u.text ++ [])
    rw [hrender, commandLoop_succ _ (parsefunction_unknown u [])] at hrejected
    rw [← stopOutcome_unknown (fun _ => 0) u (some [])]
    rcases hexecute : execute (fun _ => 0) ⟨u.name, u.args, some []⟩ with (_ | fault) | others
    · rfl
    · rw [hexecute] at hrejected
      cases hrejected
    · rw [hexecute] at hrejected
      cases hrejected
  · rintro ⟨hfaithful, hrefused⟩
    have hgap : ∀ w ∈ ws, w.gap.val = [] := fun w hw => (hfaithful w hw).1
    refine ⟨fun overflowed => ⟨_, documentedRun_of_faithful overflowed hfaithful, ?_⟩,
      fun overflowed rest _ => ⟨_, documentedRun_of_faithful overflowed hfaithful, ?_⟩⟩
    · obtain ⟨rounds, hrender⟩ := dvbsecCommand_render overflowed hgap trailing.val
      rw [hrender, commandLoop, parsefunction_blank trailing.property]
      change Except.ok ((0 : Int), performedRun overflowed ws ++ []) = _
      rw [List.append_nil]
    · obtain ⟨rounds, hrender⟩ := dvbsecCommand_render overflowed hgap (u.text ++ rest)
      have hfailed := eq_failed_of_refused ((stopOutcome_unknown overflowed u (some rest)).trans hrefused)
      rw [hrender, commandLoop_succ _ (parsefunction_unknown u rest), hfailed]
      change Except.ok ((-1 : Int), performedRun overflowed ws ++ []) = _
      rw [List.append_nil]

def noBlanks : Blanks := ⟨[], List.forall_mem_nil _⟩

def SecCommand.plainly (c : SecCommand) : Written :=
  ⟨c, noBlanks, bytes c.name, rfl, noBlanks, fun _ => (noBlanks, noBlanks)⟩

/-- The 22 kHz tone is switched off by the command that switches it on. -/
theorem dvbsecCommand_tone_on : render [(SecCommand.tone true).plainly] = bytes "tone(1)" ∧
    ¬Implements [(SecCommand.tone true).plainly] noBlanks := by
  have hrun : dvbsecCommand (fun _ => 0) (bytes "tone(1)") = .ok (0, [.set22kTone false]) := by
    decide +kernel
  refine ⟨rfl, fun h => ?_⟩
  obtain ⟨ops, hdocumented, hperformed⟩ := h fun _ => 0
  obtain rfl : [FeOp.set22kTone true] = ops := Option.some.inj hdocumented
  have hsame : dvbsecCommand (fun _ => 0) (bytes "tone(1)") = .ok (0, [.set22kTone true]) := hperformed
  rw [hrun] at hsame
  cases hsame

end Language

end LinuxDvb.Sec
