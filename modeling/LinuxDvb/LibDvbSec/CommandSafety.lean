import LinuxDvb.LibDvbSec.CommandOutcome

/-!
# Strings of SEC commands

Which strings can be given to `dvbsec_command`. A missing parenthesis makes the scan go on behind the string
unless the command is refused first, an empty argument leaves a variable as it was, and the command with a
fraction writes to the string.
-/

namespace LinuxDvb.Sec

/-- A command behind white space: the name up to the opening parenthesis, and the arguments up to the closing
one. -/
structure IsCommand (blanks name args : List UInt8) : Prop where
  skipped : ∀ c ∈ blanks, isspace c = true
  starts : ∀ c ∈ name.head?, isspace c = false
  opening : ch '(' ∉ name
  closing : ch ')' ∉ args

/-- The string consists of complete commands that are accepted, up to white space at the end, or up to a
command that is refused, which need not be closed. -/
inductive Robust : List UInt8 → Prop
  | blank {s : List UInt8} (h : ∀ c ∈ s, isspace c = true) : Robust s
  | refused {blanks name args rest : List UInt8} (h : IsCommand blanks name args)
      (hrest : rest = [] ∨ rest.head? = some (ch ')')) (hrefused : outcome name args = .refused) :
      Robust (blanks ++ (name ++ ch '(' :: (args ++ rest)))
  | accepted {blanks name args rest : List UInt8} (h : IsCommand blanks name args)
      (haccepted : outcome name args = .accepted) (hrest : Robust rest) :
      Robust (blanks ++ (name ++ ch '(' :: (args ++ ch ')' :: rest)))

section Scanners

theorem skipwhite_append {blanks : List UInt8} (h : ∀ c ∈ blanks, isspace c = true) (rest : List UInt8) :
    skipwhite (blanks ++ rest) = skipwhite rest := by
  induction blanks with
  | nil => rfl
  | cons c blanks ih =>
    obtain ⟨hc,hrest⟩ := forall_mem_cons.mp h
    rw [cons_append,skipwhite,if_pos hc,ih hrest]

theorem skipwhite_blank {blanks : List UInt8} (h : ∀ c ∈ blanks, isspace c = true) : skipwhite blanks = none := by
  have happend := skipwhite_append h []
  rwa [append_nil] at happend

theorem skipwhite_cons {c : UInt8} (h : isspace c = false) (rest : List UInt8) :
    skipwhite (c :: rest) = some (c :: rest) := by
  rw [skipwhite,if_neg (Bool.not_eq_true _ ▸ h)]

theorem skipwhite_cases (line : List UInt8) : ∃ blanks, (∀ c ∈ blanks, isspace c = true) ∧
      ((line = blanks ∧ skipwhite line = none) ∨
        ∃ c rest, line = blanks ++ c :: rest ∧ isspace c = false ∧ skipwhite line = some (c :: rest)) := by
  induction line with
  | nil => exact ⟨[],forall_mem_nil _,.inl ⟨rfl,rfl⟩⟩
  | cons c line ih =>
    cases hc : isspace c with
    | false => exact ⟨[],forall_mem_nil _,.inr ⟨c,line,rfl,hc,skipwhite_cons hc line⟩⟩
    | true =>
      obtain ⟨blanks,hblanks,hline⟩ := ih
      refine ⟨c :: blanks,forall_mem_cons.mpr ⟨hc,hblanks⟩,?_⟩
      rw [skipwhite,if_pos hc]
      rcases hline with ⟨rfl,hskip⟩ | ⟨d,rest,rfl,hd,hskip⟩
      · exact .inl ⟨rfl,hskip⟩
      · exact .inr ⟨d,rest,rfl,hd,hskip⟩

theorem getstringupto_stops {target : UInt8} {taken : List UInt8} (h : target ∉ taken) (rest : List UInt8) :
    getstringupto (taken ++ target :: rest) [target] = (taken, target :: rest) := by
  have hall : ∀ c ∈ taken, decide (c ∉ [target]) = true := by
    intro c hc
    rw [decide_eq_true_eq,mem_singleton]
    rintro rfl
    exact h hc
  unfold getstringupto
  rw [List.span_eq_takeWhile_dropWhile,List.takeWhile_append_of_pos hall,List.dropWhile_append_of_pos hall]
  simp

theorem getstringupto_ends {target : UInt8} {taken : List UInt8} (h : target ∉ taken) :
    getstringupto taken [target] = (taken, []) := by
  have hall : ∀ c ∈ taken, decide (c ∉ [target]) = true := by
    intro c hc
    rw [decide_eq_true_eq,mem_singleton]
    rintro rfl
    exact h hc
  unfold getstringupto
  rw [List.span_eq_takeWhile_dropWhile,List.takeWhile_eq_self_iff.mpr hall,List.dropWhile_eq_nil_iff.mpr hall]

theorem getstringupto_cases (target : UInt8) (line : List UInt8) : ∃ taken, target ∉ taken ∧
      ((line = taken ∧ getstringupto line [target] = (taken, [])) ∨ ∃ rest, line = taken ++ target :: rest ∧
          getstringupto line [target] = (taken, target :: rest)) := by
  by_cases h : target ∈ line
  · obtain ⟨taken,rest,rfl,htaken⟩ := List.eq_append_cons_of_mem h
    exact ⟨taken,htaken,.inr ⟨rest,rfl,getstringupto_stops htaken rest⟩⟩
  · exact ⟨line,h,.inl ⟨rfl,getstringupto_ends h⟩⟩

end Scanners

section Functions

variable {blanks name args : List UInt8}

theorem parsefunction_blank {s : List UInt8} (h : ∀ c ∈ s, isspace c = true) : parsefunction (some s) = .ok none := by
  unfold parsefunction
  dsimp only
  rw [skipwhite_blank h]
  rfl

theorem skipwhite_command (h : IsCommand blanks name args) (rest : List UInt8) :
    skipwhite (blanks ++ (name ++ ch '(' :: rest)) = some (name ++ ch '(' :: rest) := by
  rw [skipwhite_append h.skipped]
  cases name with
  | nil => exact skipwhite_cons (by decide) rest
  | cons c name => exact skipwhite_cons (h.starts c rfl) _

theorem parsefunction_open (h : IsCommand blanks name args) :
    parsefunction (some (blanks ++ (name ++ ch '(' :: args))) = .ok (some ⟨name, args, none⟩) := by
  unfold parsefunction
  dsimp only
  rw [skipwhite_command h]
  have hname : getstringupto (name ++ ch '(' :: args) (bytes "(") = (name, ch '(' :: args) :=
    getstringupto_stops h.opening args
  have hargs : getstringupto args (bytes ")") = (args, []) := getstringupto_ends h.closing
  simp only [hname,hargs,pure,Except.pure]

theorem parsefunction_closed (h : IsCommand blanks name args) (rest : List UInt8) :
    parsefunction (some (blanks ++ (name ++ ch '(' :: (args ++ ch ')' :: rest)))) =
      .ok (some ⟨name, args, some rest⟩) := by
  unfold parsefunction
  dsimp only
  rw [skipwhite_command h]
  have hname : getstringupto (name ++ ch '(' :: (args ++ ch ')' :: rest)) (bytes "(") =
      (name, ch '(' :: (args ++ ch ')' :: rest)) := getstringupto_stops h.opening _
  have hargs : getstringupto (args ++ ch ')' :: rest) (bytes ")") = (args, ch ')' :: rest) :=
    getstringupto_stops h.closing rest
  simp only [hname,hargs,pure,Except.pure]

theorem parsefunction_cases (s : List UInt8) : (∀ c ∈ s, isspace c = true) ∨ parsefunction (some s) = .error .overread ∨
      ∃ blanks name args, IsCommand blanks name args ∧
        (s = blanks ++ (name ++ ch '(' :: args) ∨
          ∃ rest, s = blanks ++ (name ++ ch '(' :: (args ++ ch ')' :: rest))) := by
  obtain ⟨blanks,hblanks,⟨rfl,-⟩ | ⟨c,line,rfl,hc,hskip⟩⟩ := skipwhite_cases s
  · exact .inl hblanks
  obtain ⟨name,hname,⟨heq,hends⟩ | ⟨behind,heq,-⟩⟩ := getstringupto_cases (ch '(') (c :: line)
  · refine .inr (.inl ?_)
    have hends' : getstringupto (c :: line) (bytes "(") = (name, []) := hends
    unfold parsefunction
    dsimp only
    rw [hskip]
    simp only [hends']
    rfl
  · have hfirst : ∀ d ∈ name.head?, isspace d = false := by
      intro d hd
      cases name with
      | nil => cases hd
      | cons e name =>
        obtain rfl := Option.some.inj hd
        obtain rfl := (List.cons.inj heq).1
        exact hc
    obtain ⟨args,hargs,⟨rfl,-⟩ | ⟨rest,rfl,-⟩⟩ := getstringupto_cases (ch ')') behind
    · exact .inr (.inr ⟨blanks,name,behind,⟨hblanks,hfirst,hname,hargs⟩,.inl (by rw [heq])⟩)
    · exact .inr (.inr ⟨blanks,name,args,⟨hblanks,hfirst,hname,hargs⟩,.inr ⟨rest,by rw [heq]⟩⟩)

end Functions

section Loop

variable (overflowed : Int32 → UInt32)

theorem eq_failed_of_refused {α : Type} {x : Except Stop α} (h : stopOutcome x = .refused) : x = .error .failed := by
  rcases x with (_ | fault) | a
  · rfl
  · cases h
  · cases h

theorem exists_of_accepted {α : Type} {x : Except Stop α} (h : stopOutcome x = .accepted) : ∃ a, x = .ok a := by
  rcases x with (_ | fault) | a
  · cases h
  · cases h
  · exact ⟨a,rfl⟩

theorem commandLoop_succ {line : Option (List UInt8)} {f : SecFunction}
    (hparse : parsefunction line = .ok (some f)) (rounds : Nat) :
    commandLoop overflowed (rounds + 1) line =
      match execute overflowed f with
      | .error .failed => .ok (-1, [])
      | .error (.fault fault) => .error fault
      | .ok ops => (commandLoop overflowed rounds f.rest).map fun r => (r.1, ops ++ r.2) := by
  rw [commandLoop,hparse]
  dsimp only [bind,Except.bind]
  rcases execute overflowed f with (_ | fault) | ops
  · rfl
  · rfl
  · dsimp only
    cases commandLoop overflowed rounds f.rest <;> rfl

theorem commandLoop_of_robust {s : List UInt8} (h : Robust s) (hzero : 0 ∉ s) (rounds : Nat)
    (hrounds : s.length < rounds) : ∃ r, commandLoop overflowed rounds (some s) = .ok r := by
  induction h generalizing rounds with
  | @blank s hblank =>
    obtain ⟨rounds,rfl⟩ : ∃ less, rounds = less + 1 := ⟨rounds - 1,by omega⟩
    rw [commandLoop,parsefunction_blank hblank]
    exact ⟨_,rfl⟩
  | @refused blanks name args rest hcommand hrest hrefused =>
    obtain ⟨rounds,rfl⟩ : ∃ less, rounds = less + 1 := ⟨rounds - 1,by omega⟩
    have hname : 0 ∉ name := fun h => hzero (mem_append_right _ (mem_append_left _ h))
    obtain ⟨behind,hparse⟩ : ∃ behind, parsefunction (some (blanks ++ (name ++ ch '(' :: (args ++ rest)))) =
        .ok (some ⟨name,args,behind⟩) := by
      rcases hrest with rfl | hclosed
      · rw [append_nil]
        exact ⟨none,parsefunction_open hcommand⟩
      · obtain ⟨rest,rfl⟩ := List.head?_eq_some_iff.mp hclosed
        exact ⟨some rest,parsefunction_closed hcommand rest⟩
    have hfailed := eq_failed_of_refused
      ((stopOutcome_execute overflowed ⟨name,args,behind⟩ hname).trans hrefused)
    rw [commandLoop_succ overflowed hparse,hfailed]
    exact ⟨_,rfl⟩
  | @accepted blanks name args rest hcommand haccepted _ ih =>
    obtain ⟨rounds,rfl⟩ : ∃ less, rounds = less + 1 := ⟨rounds - 1,by omega⟩
    have hname : 0 ∉ name := fun h => hzero (mem_append_right _ (mem_append_left _ h))
    have hbehind : 0 ∉ rest := fun h => hzero (mem_append_right _ (mem_append_right _
      (mem_cons_of_mem _ (mem_append_right _ (mem_cons_of_mem _ h)))))
    obtain ⟨ops,hops⟩ := exists_of_accepted
      ((stopOutcome_execute overflowed ⟨name,args,some rest⟩ hname).trans haccepted)
    obtain ⟨r,hr⟩ := ih hbehind rounds (by
      simp only [length_append,length_cons] at hrounds
      omega)
    rw [commandLoop_succ overflowed (parsefunction_closed hcommand rest),hops]
    dsimp only
    rw [hr]
    exact ⟨_,rfl⟩

theorem robust_of_commandLoop (rounds : Nat) {s : List UInt8} (hzero : 0 ∉ s) {r : Int × List FeOp}
    (h : commandLoop overflowed rounds (some s) = .ok r) : Robust s := by
  induction rounds generalizing s r with
  | zero => cases h
  | succ rounds ih =>
    rcases parsefunction_cases s with hblank | hover | ⟨blanks,name,args,hcommand,hsplit⟩
    · exact .blank hblank
    · rw [commandLoop,hover] at h
      cases h
    rcases hsplit with rfl | ⟨rest,rfl⟩
    · -- not closed: nothing may come behind it
      have hname : 0 ∉ name := fun hmem => hzero (mem_append_right _ (mem_append_left _ hmem))
      have houtcome := stopOutcome_execute overflowed ⟨name,args,none⟩ hname
      rw [commandLoop_succ overflowed (parsefunction_open hcommand)] at h
      rcases hexecute : execute overflowed ⟨name,args,none⟩ with (_ | fault) | ops
      · rw [hexecute] at houtcome
        have hrobust := Robust.refused hcommand (.inl rfl) houtcome.symm
        rwa [append_nil] at hrobust
      · rw [hexecute] at h
        cases h
      · rw [hexecute] at h
        cases rounds <;> cases h
    · have hname : 0 ∉ name := fun hmem => hzero (mem_append_right _ (mem_append_left _ hmem))
      have hbehind : 0 ∉ rest := fun h => hzero (mem_append_right _ (mem_append_right _
        (mem_cons_of_mem _ (mem_append_right _ (mem_cons_of_mem _ h)))))
      have houtcome := stopOutcome_execute overflowed ⟨name,args,some rest⟩ hname
      rw [commandLoop_succ overflowed (parsefunction_closed hcommand rest)] at h
      rcases hexecute : execute overflowed ⟨name,args,some rest⟩ with (_ | fault) | ops
      · rw [hexecute] at houtcome
        exact .refused hcommand (.inr rfl) houtcome.symm
      · rw [hexecute] at h
        cases h
      · rw [hexecute] at h houtcome
        dsimp only at h
        cases hrest : commandLoop overflowed rounds (some rest) with
        | error fault =>
          rw [hrest] at h
          cases h
        | ok r => exact .accepted hcommand houtcome.symm (ih hbehind hrest)

/-- For every command string, `dvbsec_command` ends without a read behind the terminating zero, without the
use of an argument that was not parsed and with the string unchanged exactly if the string is robust. -/
theorem dvbsecCommand_safe_iff (s : List UInt8) (hzero : 0 ∉ s) :
    (∃ ret ops, dvbsecCommand overflowed s = .ok (ret, ops)) ↔ Robust s := by
  constructor
  · rintro ⟨ret, ops, h⟩
    exact robust_of_commandLoop overflowed _ hzero h
  · intro h
    obtain ⟨⟨ret, ops⟩, hr⟩ := commandLoop_of_robust overflowed h hzero (s.length + 2) (by omega)
    exact ⟨ret, ops, hr⟩

/-- Two commands, and one that is not known and not closed. -/
theorem dvbsecCommand_safe_unknown : Robust (bytes "voltage(13) Dpower(0x10, 1) unknown(") :=
  (dvbsecCommand_safe_iff (fun _ => 0) (bytes "voltage(13) Dpower(0x10, 1) unknown(") (by decide)).mp
    ⟨-1, [.setVoltage .v13, .doDiseqcCommand [0xe0, 0x10, 0x03]], by decide +kernel⟩

/-- Without parentheses, the scan goes on behind the string. -/
theorem dvbsecCommand_unsafe : ¬∃ ret ops, dvbsecCommand (fun _ => 0) (bytes "tone") = .ok (ret, ops) := by
  have hrun : dvbsecCommand (fun _ => 0) (bytes "tone") = .error .overread := by decide +kernel
  rintro ⟨ret, ops, h⟩
  rw [hrun] at h
  cases h

end Loop

end LinuxDvb.Sec
