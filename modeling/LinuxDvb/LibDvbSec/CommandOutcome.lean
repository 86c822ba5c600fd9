import LinuxDvb.LibDvbSec.Command

/-!
# What becomes of a command

A command is taken for the first one in the list of names that its own name is the beginning of. Its arguments
decide whether it is refused, whether something happens that must not, or whether its operations are
performed.
-/

namespace LinuxDvb.Sec

inductive Outcome where
  | refused | faulty | accepted
  deriving DecidableEq

/-- The kinds of arguments; a voltage is a number of which three values are known. -/
inductive ArgKind where
  | int | voltage | char | float
  deriving DecidableEq

def commands : List (String × List ArgKind) :=
  [("tone", [.char]), ("voltage", [.voltage]), ("toneburst", [.char]), ("highvoltage", [.int]),
    ("dishnetworks", [.int]), ("wait", [.int]), ("Dreset", [.int, .int]), ("Dpower", [.int, .int]),
    ("Dcommitted", [.int, .char, .char, .char, .char]),
    ("Duncommitted", [.char, .char, .char, .char, .char]), ("Dfrequency", [.int, .int]),
    ("Dchannel", [.int, .int]), ("Dgotopreset", [.int, .int]), ("Dgotobearing", [.int, .float])]

def abbreviates (name full : List UInt8) : Bool := (name.map tolower).isPrefixOf (full.map tolower)

/-- The arguments are read one after the other. A missing one, or one that is no number where a number is
expected, refuses the command. An empty character, which is noted, or a fraction is faulty if the others are
there. -/
def argsOutcome : Bool → List ArgKind → List UInt8 → Outcome
  | empty, [], _ => if empty then .faulty else .accepted
  | empty, kind :: kinds, args =>
    match getarg args with
    | .error _ => .refused
    | .ok (arg, args) =>
      match kind with
      | .int => if sscanfInt (arg.take 31) = none then .refused else argsOutcome empty kinds args
      | .voltage =>
        if sscanfInt (arg.take 31) ∈ [some 0, some 13, some 18] then argsOutcome empty kinds args
        else .refused
      | .char => argsOutcome (empty || arg.isEmpty) kinds args
      | .float => .faulty

/-- The outcome for a name and arguments, by the first of some names that it abbreviates. -/
def outcomeIn (name args : List UInt8) : List (String × List ArgKind) → Outcome
  | [] => .refused
  | (full, kinds) :: others =>
    if abbreviates name (bytes full) then argsOutcome false kinds args else outcomeIn name args others

def outcome (name args : List UInt8) : Outcome := outcomeIn name args commands

section Names

theorem tolower_ne_zero {c : UInt8} (h : c ≠ 0) : tolower c ≠ 0 := by
  unfold tolower
  split
  · rename_i hupper
    intro hzero
    have hnat := congrArg UInt8.toNat hzero
    have hlow := UInt8.le_iff_toNat_le.mp hupper.1
    have hhigh := UInt8.le_iff_toNat_le.mp hupper.2
    rw [UInt8.toNat_add] at hnat
    simp only [UInt8.reduceToNat] at hnat hlow hhigh
    omega
  · exact h

theorem strncaseeq_iff {s t : List UInt8} (hs : 0 ∉ s) : strncaseeq s t s.length = abbreviates s t := by
  induction s generalizing t with
  | nil => rfl
  | cons a s ih =>
    obtain ⟨ha,hs⟩ := not_or.mp (mem_cons.not.mp hs)
    have hlower := tolower_ne_zero (Ne.symm ha)
    cases t with
    | nil =>
      rw [length_cons,strncaseeq]
      exact if_pos hlower
    | cons b t =>
      have hrest := ih (t := t) hs
      have hstep : strncaseeq (a :: s) (b :: t) (a :: s).length =
          if tolower a ≠ tolower b then false else if a = 0 then true else strncaseeq s t s.length := rfl
      rw [hstep]
      unfold abbreviates at hrest ⊢
      rw [map_cons,map_cons,List.isPrefixOf_cons_cons]
      by_cases hsame : tolower a = tolower b
      · rw [if_neg (not_not_intro hsame),if_neg (Ne.symm ha),hrest,hsame,beq_self_eq_true,Bool.true_and]
      · rw [if_pos hsame,beq_eq_false_iff_ne.mpr hsame,Bool.false_and]

end Names

section Arguments

variable {α : Type}

def stopOutcome : Except Stop α → Outcome
  | .error .failed => .refused
  | .error (.fault _) => .faulty
  | .ok _ => .accepted

theorem getarg_error {args : List UInt8} {stop : Stop} (h : getarg args = .error stop) : stop = .failed := by
  unfold getarg at h
  cases hskip : skipwhite args with
  | none =>
    rw [hskip] at h
    exact (Except.error.inj h).symm
  | some line =>
    rw [hskip] at h
    cases h

theorem stopOutcome_int {next : Int32 × List UInt8 → Except Stop α} {empty : Bool} {kinds : List ArgKind}
    (h : ∀ n args, stopOutcome (next (n, args)) = argsOutcome empty kinds args) (args : List UInt8) :
    stopOutcome (parseintarg args >>= next) = argsOutcome empty (.int :: kinds) args := by
  unfold parseintarg argsOutcome
  cases harg : getarg args with
  | error stop =>
    obtain rfl := getarg_error harg
    rfl
  | ok read =>
    obtain ⟨arg,rest⟩ := read
    cases hint : sscanfInt (arg.take 31) with
    | none => simp [hint,bind,Except.bind,throw,throwThe,MonadExceptOf.throw,stopOutcome]
    | some n =>
      have hnext := h n rest
      simpa [hint,bind,Except.bind,pure,Except.pure] using hnext

theorem stopOutcome_char {next : Option UInt8 × List UInt8 → Except Stop α} {empty : Bool} {kinds : List ArgKind}
    (h : ∀ c args, stopOutcome (next (c, args)) = argsOutcome (empty || c.isNone) kinds args)
    (args : List UInt8) :
    stopOutcome (parsechararg args >>= next) = argsOutcome empty (.char :: kinds) args := by
  unfold parsechararg argsOutcome
  cases harg : getarg args with
  | error stop =>
    obtain rfl := getarg_error harg
    rfl
  | ok read =>
    obtain ⟨arg,rest⟩ := read
    have hnext := h arg.head? rest
    cases arg <;> exact hnext

theorem stopOutcome_voltage {next : Int32 × List UInt8 → Except Stop α}
    (h : ∀ n args, stopOutcome (next (n, args)) = if n ∈ [0, 13, 18] then .accepted else .refused)
    (args : List UInt8) : stopOutcome (parseintarg args >>= next) = argsOutcome false [.voltage] args := by
  unfold parseintarg argsOutcome
  cases harg : getarg args with
  | error stop =>
    obtain rfl := getarg_error harg
    rfl
  | ok read =>
    obtain ⟨arg,rest⟩ := read
    cases hint : sscanfInt (arg.take 31) with
    | none => simp [hint,bind,Except.bind,throw,throwThe,MonadExceptOf.throw,stopOutcome]
    | some n =>
      have hnext := h n rest
      simpa [hint,bind,Except.bind,pure,Except.pure,argsOutcome] using hnext

theorem stopOutcome_float {next : List UInt8 → Except Stop α} (closed : Bool) (args : List UInt8) :
    stopOutcome (parsefloatarg args closed >>= next) = argsOutcome false [.float] args := by
  unfold parsefloatarg argsOutcome
  cases harg : getarg args with
  | error stop =>
    obtain rfl := getarg_error harg
    rfl
  | ok read =>
    obtain ⟨arg,rest⟩ := read
    dsimp only [bind,Except.bind]
    by_cases hwritten : closed = true ∨ ch ',' ∈ args ∨ 31 < arg.length
    · simp only [hwritten,if_true]
      rfl
    · simp only [hwritten,if_false]
      rfl

end Arguments

section Dispatch

theorem dispatch_cons {α : Type} {name args : List UInt8} (hname : 0 ∉ name) {full : String}
    {kinds : List ArgKind} {others : List (String × List ArgKind)} {taken passed : Except Stop α}
    (htaken : stopOutcome taken = argsOutcome false kinds args)
    (hpassed : stopOutcome passed = outcomeIn name args others) :
    stopOutcome (if strncaseeq name (bytes full) name.length then taken else passed) =
      outcomeIn name args ((full, kinds) :: others) := by
  rw [strncaseeq_iff hname,outcomeIn]
  split
  · exact htaken
  · exact hpassed

variable (overflowed : Int32 → UInt32)

theorem stopOutcome_execute (f : SecFunction) (hname : 0 ∉ f.name) :
    stopOutcome (execute overflowed f) = outcome f.name f.args := by
  unfold execute outcome commands
  refine dispatch_cons hname ?_ (dispatch_cons hname ?_ (dispatch_cons hname ?_ (dispatch_cons hname ?_
    (dispatch_cons hname ?_ (dispatch_cons hname ?_ (dispatch_cons hname ?_ (dispatch_cons hname ?_
      (dispatch_cons hname ?_ (dispatch_cons hname ?_ (dispatch_cons hname ?_ (dispatch_cons hname ?_
        (dispatch_cons hname ?_ (dispatch_cons hname ?_ rfl)))))))))))))
  · exact stopOutcome_char (by rintro (_ | c) _ <;> rfl) f.args
  · refine stopOutcome_voltage ?_ f.args
    intro n _
    by_cases hoff : n = 0
    · subst hoff
      rfl
    by_cases hlow : n = 13
    · subst hlow
      rfl
    by_cases hhigh : n = 18
    · subst hhigh
      rfl
    simp only [hoff,hlow,hhigh,if_false,mem_cons,not_mem_nil,or_self]
    rfl
  · exact stopOutcome_char (by rintro (_ | c) _ <;> rfl) f.args
  · exact stopOutcome_int (fun _ _ => rfl) f.args
  · exact stopOutcome_int (fun _ _ => rfl) f.args
  · exact stopOutcome_int (fun _ _ => rfl) f.args
  · exact stopOutcome_int (fun _ => stopOutcome_int fun _ _ => rfl) f.args
  · exact stopOutcome_int (fun _ => stopOutcome_int fun _ _ => rfl) f.args
  · refine stopOutcome_int (fun _ => stopOutcome_char fun c₁ => stopOutcome_char fun c₂ =>
      stopOutcome_char fun c₃ => stopOutcome_char fun c₄ _ => ?_) f.args
    cases c₁ <;> cases c₂ <;> cases c₃ <;> cases c₄ <;> rfl
  · refine stopOutcome_char (fun c => stopOutcome_char fun c₁ => stopOutcome_char fun c₂ =>
      stopOutcome_char fun c₃ => stopOutcome_char fun c₄ _ => ?_) f.args
    cases c <;> cases c₁ <;> cases c₂ <;> cases c₃ <;> cases c₄ <;> rfl
  · exact stopOutcome_int (fun _ => stopOutcome_int fun _ _ => rfl) f.args
  · exact stopOutcome_int (fun _ => stopOutcome_int fun _ _ => rfl) f.args
  · exact stopOutcome_int (fun _ => stopOutcome_int fun _ _ => rfl) f.args
  · exact stopOutcome_int (fun _ => stopOutcome_float _) f.args

end Dispatch

end LinuxDvb.Sec
