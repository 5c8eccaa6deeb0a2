/-
  Hmn.Playbook.Executor — running the phases of a playbook.

  `PlaybookExecutor.run` checks the risk and the phases and then renders and
  executes phase after phase, up to the first command that fails.  Which
  risks are allowed and which phases are run are arguments that may be left
  out; an empty one counts as left out.

  Main results: `run_calls` (what is executed), `run_executes_given_iff`
  (when that is what the arguments say).
-/
import Hmn.Playbook.Playbook
import Hmn.Tasks.Ssh

namespace Hmn

open Playbook

/-! ## §1. The executor. -/

/-- What `subprocess.run` answers. -/
structure Completed where
  returncode : Int
  stdout : String
  stderr : String

/-- `CommandResult`. -/
structure CommandResult where
  phase : Phase
  command : String
  exitCode : Int
  stdout : String
  stderr : String

def CommandResult.ok (result : CommandResult) : Bool := result.exitCode = 0

/-- `PlaybookRun`. -/
structure PlaybookRun where
  playbookId : String
  startedAt : Timestamp
  results : List CommandResult

/-- What ends a run early: an exception, or `PlaybookExecutionError`. -/
inductive PlaybookError where
  | raised (e : PyError)
  | execution (result : CommandResult)

/-- `PlaybookExecutor`. -/
structure PlaybookExecutor where
  dryRun : Bool := true
  timeoutSeconds : Int := 120

/-- A shell: what a command comes to within a timeout, given the commands that
were run before it. -/
abbrev Shell := Int → List String → String → Except PyError Completed

/-- What a run has done: the commands it executed, and those that reached the
shell. -/
structure Ran where
  calls : List (Phase × String) := []
  shell : List String := []

namespace PlaybookExecutor

/-- `_run_command`. -/
def runCommand (ex : PlaybookExecutor) (shell : Shell) (phase : Phase) (command : String)
    (ran : Ran) : Except PyError CommandResult × Ran :=
  let calls := ran.calls ++ [(phase, command)]
  if ex.dryRun then (.ok ⟨phase, command, 0, "", ""⟩, { ran with calls })
  else
    ((shell ex.timeoutSeconds ran.shell command).map fun completed =>
        ⟨phase, command, completed.returncode, completed.stdout, completed.stderr⟩,
      { calls, shell := ran.shell ++ [command] })

/-- The commands of one phase, rendered. -/
def runCommands (ex : PlaybookExecutor) (shell : Shell) (phase : Phase) :
    List String → List CommandResult → Ran → Except PlaybookError (List CommandResult) × Ran
  | [], results, ran => (.ok results, ran)
  | command :: commands, results, ran =>
    match ex.runCommand shell phase command ran with
    | (.error e, ran) => (.error (.raised e), ran)
    | (.ok result, ran) =>
      if result.ok then ex.runCommands shell phase commands (results ++ [result]) ran
      else (.error (.execution result), ran)

/-- The phases one after the other; each is rendered when its turn comes. -/
def runPhases (ex : PlaybookExecutor) (shell : Shell) (p : Playbook) (values : Values) :
    List Phase → List CommandResult → Ran → Except PlaybookError (List CommandResult) × Ran
  | [], results, ran => (.ok results, ran)
  | phase :: phases, results, ran =>
    match p.renderPhase phase values with
    | .error e => (.error (.raised e), ran)
    | .ok commands =>
      match ex.runCommands shell phase commands results ran with
      | (.error e, ran) => (.error e, ran)
      | (.ok results, ran) => ex.runPhases shell p values phases results ran

/-- The phases that are run by default. -/
def defaultPhases : List String := ["precheck", "backup", "action", "verify"]

/-- `argument or default`. -/
def orDefault (argument : Option (List String)) (default : List String) : List String :=
  match argument with
  | some (x :: xs) => x :: xs
  | _ => default

/-- `run`; `now` is the time at its end. -/
def run (ex : PlaybookExecutor) (shell : Shell) (now : Timestamp) (p : Playbook) (values : Values)
    (phases allowRisk : Option (List String)) : Except PlaybookError PlaybookRun × Ran :=
  let allowed := orDefault allowRisk safeRisks
  if p.risk ∉ allowed then
    (.error (.raised (.permission ("playbook risk '" ++ p.risk ++ "' is not allowed"))), {})
  else
    let selected := orDefault phases defaultPhases
    match selected.find? (fun phase => Phase.ofName? phase = none) with
    | some phase => (.error (.raised (.value ("unsupported phase: " ++ phase))), {})
    | none =>
      match ex.runPhases shell p values (selected.filterMap Phase.ofName?) [] {} with
      | (.error e, ran) => (.error e, ran)
      | (.ok results, ran) => (.ok ⟨p.id, now, results⟩, ran)

/-! ## §2. A gated prefix. -/

/-- The elements of a list up to and including the first that is not `good`,
given those before it. -/
def untilFailure {α : Type} (good : List α → α → Bool) (before : List α) : List α → List α
  | [] => []
  | x :: xs => if good before x then x :: untilFailure good (before ++ [x]) xs else [x]

/-- None is not `good`. -/
def allGood {α : Type} (good : List α → α → Bool) (before : List α) : List α → Bool
  | [] => true
  | x :: xs => good before x && allGood good (before ++ [x]) xs

/-- A command succeeds, given the commands executed before it. -/
def succeeds (ex : PlaybookExecutor) (shell : Shell) (before : List (Phase × String))
    (call : Phase × String) : Bool :=
  ex.dryRun ||
    match shell ex.timeoutSeconds (before.map Prod.snd) call.2 with
    | .ok completed => completed.returncode = 0
    | .error _ => false

/-- The rendered commands of phases, in order. -/
def rendered (p : Playbook) (values : Values) (phases : List Phase) : List (Phase × String) :=
  phases.flatMap fun phase => (p.commands phase).map fun command => (phase, render command values)

/-- The checks let a run pass: the risk is allowed, every phase is supported
and no required input is missing. -/
def Passes (p : Playbook) (values : Values) (allowed selected : List String) : Prop :=
  p.risk ∈ allowed ∧ (∀ phase ∈ selected, Phase.ofName? phase ≠ none) ∧ p.missing values = []

instance (p : Playbook) (values : Values) (allowed selected : List String) :
    Decidable (Passes p values allowed selected) := by
  unfold Passes
  infer_instance

/-- What is to be executed where `allowed` are the risks and `selected` the
phases. -/
def gatedPrefix (ex : PlaybookExecutor) (shell : Shell) (p : Playbook) (values : Values)
    (allowed selected : List String) : List (Phase × String) :=
  if Passes p values allowed selected then
    untilFailure (ex.succeeds shell) [] (rendered p values (selected.filterMap Phase.ofName?))
  else []

/-- **A run executes what its arguments say**, the defaults standing for the
arguments that are absent; what it executes reaches the shell unless it is a
dry run. -/
def ExecutesGiven (ex : PlaybookExecutor) (shell : Shell) (now : Timestamp) (p : Playbook)
    (values : Values) (phases allowRisk : Option (List String)) : Prop :=
  let ran := (ex.run shell now p values phases allowRisk).2
  ran.calls = ex.gatedPrefix shell p values (allowRisk.getD safeRisks) (phases.getD defaultPhases)
  ∧ ran.shell = if ex.dryRun then [] else ran.calls.map Prod.snd

/-- No argument that is given is empty, or nothing would be executed by
default either. -/
def NoEmptyArgument (p : Playbook) (values : Values) (phases allowRisk : Option (List String)) :
    Prop :=
  (phases ≠ some [] ∧ allowRisk ≠ some [])
  ∨ ¬ Passes p values (orDefault allowRisk safeRisks) (orDefault phases defaultPhases)
  ∨ ∀ phase ∈ (orDefault phases defaultPhases).filterMap Phase.ofName?, p.commands phase = []

/-! ## §3. Prefixes. -/

section Prefixes

variable {α : Type} {good : List α → α → Bool}

theorem untilFailure_append (before xs ys : List α) :
    untilFailure good before (xs ++ ys)
      = if allGood good before xs then xs ++ untilFailure good (before ++ xs) ys
        else untilFailure good before xs := by
  induction xs generalizing before with
  | nil => rw [List.nil_append, allGood, if_pos rfl, List.nil_append, List.append_nil]
  | cons x xs ih =>
    rw [List.cons_append, untilFailure, untilFailure, allGood]
    cases hx : good before x with
    | false => rfl
    | true =>
      rw [if_pos rfl, if_pos rfl, ih, Bool.true_and, List.append_assoc, List.singleton_append,
        List.cons_append]
      split_ifs <;> rfl

theorem allGood_append (before xs ys : List α) :
    allGood good before (xs ++ ys) = (allGood good before xs && allGood good (before ++ xs) ys) := by
  induction xs generalizing before with
  | nil => rw [List.nil_append, allGood, Bool.true_and, List.append_nil]
  | cons x xs ih =>
    rw [List.cons_append, allGood, allGood, ih, Bool.and_assoc, List.append_assoc,
      List.singleton_append]

theorem untilFailure_of_allGood {before xs : List α} (h : allGood good before xs = true) :
    untilFailure good before xs = xs := by
  have happend := @untilFailure_append _ good before xs []
  rwa [if_pos h, untilFailure, List.append_nil] at happend

theorem untilFailure_eq_nil {before xs : List α} : untilFailure good before xs = [] ↔ xs = [] := by
  cases xs with
  | nil => exact ⟨fun _ => rfl, fun _ => rfl⟩
  | cons x xs =>
    rw [untilFailure]
    split_ifs <;> simp

end Prefixes

/-! ## §4. What a run executes. -/

section Run

variable {ex : PlaybookExecutor} {shell : Shell}

/-- What reached the shell is what was executed, but for a dry run. -/
def Tidy (ex : PlaybookExecutor) (ran : Ran) : Prop :=
  ran.shell = if ex.dryRun then [] else ran.calls.map Prod.snd

/-- **One command**: it is executed, and its result is the one of the shell. -/
theorem runCommand_spec {phase : Phase} {command : String} {ran : Ran} (h : Tidy ex ran) :
    (ex.runCommand shell phase command ran).2.calls = ran.calls ++ [(phase, command)]
    ∧ Tidy ex (ex.runCommand shell phase command ran).2
    ∧ ((∃ result, (ex.runCommand shell phase command ran).1 = .ok result ∧ result.ok = true)
        ↔ ex.succeeds shell ran.calls (phase, command) = true) := by
  rw [Tidy] at h
  by_cases hdry : ex.dryRun = true
  · rw [if_pos hdry] at h
    simp [runCommand, Tidy, succeeds, hdry, h, CommandResult.ok]
  · rw [if_neg hdry] at h
    rw [Bool.not_eq_true] at hdry
    refine ⟨by simp [runCommand, hdry], by simp [runCommand, Tidy, hdry, h], ?_⟩
    simp only [runCommand, succeeds, hdry, h, Bool.false_eq_true, if_false, Bool.false_or]
    cases shell ex.timeoutSeconds (ran.calls.map Prod.snd) command with
    | error e => simp [Except.map]
    | ok completed => simp [Except.map, CommandResult.ok]

/-- What a loop over commands has done when it goes through `calls`. -/
structure Went (ex : PlaybookExecutor) (shell : Shell) (calls : List (Phase × String))
    (ran ran' : Ran) (returned : Bool) : Prop where
  executed : ran'.calls = ran.calls ++ untilFailure (ex.succeeds shell) ran.calls calls
  tidy : Tidy ex ran'
  returned : returned = allGood (ex.succeeds shell) ran.calls calls

theorem Went.nil {ran : Ran} (h : Tidy ex ran) : Went ex shell [] ran ran true :=
  ⟨by rw [untilFailure, List.append_nil], h, rfl⟩

/-- Two loops one after the other. -/
theorem Went.append {calls calls' : List (Phase × String)} {ran ran' ran'' : Ran} {returned : Bool}
    (h : Went ex shell calls ran ran' true) (h' : Went ex shell calls' ran' ran'' returned) :
    Went ex shell (calls ++ calls') ran ran'' returned := by
  have hgood := h.returned.symm
  have hcalls : ran'.calls = ran.calls ++ calls := by rw [h.executed, untilFailure_of_allGood hgood]
  refine ⟨?_, h'.tidy, ?_⟩
  · rw [h'.executed, hcalls, untilFailure_append, if_pos hgood, List.append_assoc]
  · rw [h'.returned, hcalls, allGood_append, hgood, Bool.true_and]

/-- A loop that fails goes no further. -/
theorem Went.failed {calls : List (Phase × String)} {ran ran' : Ran}
    (h : Went ex shell calls ran ran' false) (calls' : List (Phase × String)) :
    Went ex shell (calls ++ calls') ran ran' false := by
  have hgood : allGood (ex.succeeds shell) ran.calls calls = false := h.returned.symm
  refine ⟨?_, h.tidy, ?_⟩
  · rw [h.executed, untilFailure_append, if_neg (by rw [hgood]; decide)]
  · rw [allGood_append, hgood, Bool.false_and]

theorem runCommands_spec (phase : Phase) (commands : List String) (results : List CommandResult)
    {ran : Ran} (h : Tidy ex ran) :
    Went ex shell (commands.map fun command => (phase, command)) ran
      (ex.runCommands shell phase commands results ran).2
      (ex.runCommands shell phase commands results ran).1.isOk := by
  induction commands generalizing results ran with
  | nil => exact Went.nil h
  | cons command commands ih =>
    obtain ⟨hcalls, htidy, hresult⟩ := @runCommand_spec _ shell phase command _ h
    rw [List.map_cons, ← List.singleton_append, runCommands]
    rcases hrun : ex.runCommand shell phase command ran with ⟨answer, ran'⟩
    rw [hrun] at hcalls htidy hresult
    have hone : ∀ returned, (returned = true ↔ ex.succeeds shell ran.calls (phase, command) = true) →
        Went ex shell [(phase, command)] ran ran' returned := by
      intro returned hreturned
      refine ⟨?_, htidy, ?_⟩
      · rw [hcalls, untilFailure, untilFailure]
        split_ifs <;> rfl
      · rw [allGood, allGood, Bool.and_true]
        exact Bool.eq_iff_iff.mpr hreturned
    cases answer with
    | error e => exact (hone false (by rw [← hresult]; simp)).failed _
    | ok result =>
      dsimp only
      split_ifs with hok
      · exact (hone true (by rw [← hresult]; simpa using hok)).append (ih _ htidy)
      · exact (hone false (by rw [← hresult]; simpa using hok)).failed _

theorem runPhases_spec {p : Playbook} {values : Values} (hmissing : p.missing values = [])
    (phases : List Phase) (results : List CommandResult) {ran : Ran} (h : Tidy ex ran) :
    Went ex shell (rendered p values phases) ran
      (ex.runPhases shell p values phases results ran).2
      (ex.runPhases shell p values phases results ran).1.isOk := by
  induction phases generalizing results ran with
  | nil => exact Went.nil h
  | cons phase phases ih =>
    have hphase := @runCommands_spec ex shell phase
      ((p.commands phase).map (render · values)) results _ h
    rw [List.map_map] at hphase
    rw [rendered, List.flatMap_cons, ← rendered, runPhases, renderPhase, validateRequiredInputs,
      hmissing]
    dsimp only [bind, Except.bind, pure, Except.pure]
    rcases hrun : ex.runCommands shell phase ((p.commands phase).map (render · values)) results ran
      with ⟨answer, ran'⟩
    rw [hrun] at hphase
    cases answer with
    | error e => exact hphase.failed _
    | ok results' => exact hphase.append (ih results' hphase.tidy)

/-- Nothing is executed where a required input is missing. -/
theorem runPhases_missing {p : Playbook} {values : Values} (hmissing : p.missing values ≠ [])
    (phases : List Phase) (results : List CommandResult) (ran : Ran) :
    (ex.runPhases shell p values phases results ran).2 = ran := by
  cases phases with
  | nil => rfl
  | cons phase phases =>
    cases hnames : p.missing values with
    | nil => exact absurd hnames hmissing
    | cons name names =>
      rw [runPhases, renderPhase, validateRequiredInputs, hnames]
      rfl

/-- **What a run executes**: the gated prefix of the arguments, with the
defaults for the empty ones, too. -/
theorem run_calls (now : Timestamp) (p : Playbook) (values : Values)
    (phases allowRisk : Option (List String)) :
    (ex.run shell now p values phases allowRisk).2.calls
        = ex.gatedPrefix shell p values (orDefault allowRisk safeRisks)
            (orDefault phases defaultPhases)
    ∧ Tidy ex (ex.run shell now p values phases allowRisk).2 := by
  have hstart : Tidy ex {} := by simp [Tidy]
  rw [run, gatedPrefix]
  dsimp only
  by_cases hrisk : p.risk ∈ orDefault allowRisk safeRisks
  · rw [if_neg (not_not.mpr hrisk)]
    cases hfind : (orDefault phases defaultPhases).find? (fun phase => Phase.ofName? phase = none) with
    | some phase =>
      have hnone := List.find?_some hfind
      rw [if_neg fun hpass => hpass.2.1 phase (List.mem_of_find?_eq_some hfind)
        (of_decide_eq_true hnone)]
      exact ⟨rfl, hstart⟩
    | none =>
      have hsupported : ∀ phase ∈ orDefault phases defaultPhases, Phase.ofName? phase ≠ none :=
        fun phase hphase hnone => List.find?_eq_none.mp hfind phase hphase (decide_eq_true hnone)
      by_cases hmissing : p.missing values = []
      · have hphases := @runPhases_spec ex shell _ _ hmissing
          ((orDefault phases defaultPhases).filterMap Phase.ofName?) [] _ hstart
        rw [if_pos ⟨hrisk, hsupported, hmissing⟩]
        rcases hrun : ex.runPhases shell p values
          ((orDefault phases defaultPhases).filterMap Phase.ofName?) [] {} with ⟨answer, ran⟩
        rw [hrun] at hphases
        cases answer <;> exact ⟨hphases.executed, hphases.tidy⟩
      · have hphases := @runPhases_missing ex shell _ _ hmissing
          ((orDefault phases defaultPhases).filterMap Phase.ofName?) [] {}
        rw [if_neg fun hpass => hmissing hpass.2.2]
        rcases hrun : ex.runPhases shell p values
          ((orDefault phases defaultPhases).filterMap Phase.ofName?) [] {} with ⟨answer, ran⟩
        rw [hrun] at hphases
        cases answer <;> (dsimp only at hphases ⊢; rw [hphases]; exact ⟨rfl, hstart⟩)
  · rw [if_pos hrisk, if_neg fun hpass => hrisk hpass.1]
    exact ⟨rfl, hstart⟩

end Run

/-! ## §5. Empty arguments. -/

theorem orDefault_eq {argument : Option (List String)} (h : argument ≠ some [])
    (default : List String) : orDefault argument default = argument.getD default := by
  match argument, h with
  | none, _ => rfl
  | some [], h => exact absurd rfl h
  | some (x :: xs), _ => rfl

theorem rendered_eq_nil {p : Playbook} {values : Values} {phases : List Phase} :
    rendered p values phases = [] ↔ ∀ phase ∈ phases, p.commands phase = [] := by
  simp only [rendered, List.flatMap_eq_nil_iff, List.map_eq_nil_iff]

theorem gatedPrefix_eq_nil {ex : PlaybookExecutor} {shell : Shell} {p : Playbook} {values : Values}
    {allowed selected : List String} :
    ex.gatedPrefix shell p values allowed selected = []
      ↔ ¬ Passes p values allowed selected
        ∨ ∀ phase ∈ selected.filterMap Phase.ofName?, p.commands phase = [] := by
  rw [gatedPrefix]
  split_ifs with hpass
  · rw [untilFailure_eq_nil, rendered_eq_nil]
    exact ⟨Or.inr, fun h => h.resolve_left (not_not.mpr hpass)⟩
  · exact ⟨fun _ => Or.inl hpass, fun _ => rfl⟩

/-- With an empty argument there is nothing to execute. -/
theorem gatedPrefix_empty {ex : PlaybookExecutor} {shell : Shell} {p : Playbook} {values : Values}
    {phases allowRisk : Option (List String)} (h : phases = some [] ∨ allowRisk = some []) :
    ex.gatedPrefix shell p values (allowRisk.getD safeRisks) (phases.getD defaultPhases) = [] := by
  rw [gatedPrefix_eq_nil]
  rcases h with rfl | rfl
  · exact Or.inr fun phase hphase => by cases hphase
  · exact Or.inl fun hpass => by cases hpass.1

/-- **When a run executes what its arguments say**: exactly when no argument
that is given is empty, or nothing would be executed by default either. -/
theorem run_executes_given_iff (ex : PlaybookExecutor) (shell : Shell) (now : Timestamp)
    (p : Playbook) (values : Values) (phases allowRisk : Option (List String)) :
    ExecutesGiven ex shell now p values phases allowRisk
      ↔ NoEmptyArgument p values phases allowRisk := by
  obtain ⟨hcalls, htidy⟩ := @run_calls ex shell now p values phases allowRisk
  have hexecutes : ExecutesGiven ex shell now p values phases allowRisk
      ↔ ex.gatedPrefix shell p values (orDefault allowRisk safeRisks) (orDefault phases defaultPhases)
        = ex.gatedPrefix shell p values (allowRisk.getD safeRisks) (phases.getD defaultPhases) :=
    ⟨fun h => hcalls.symm.trans h.1, fun h => ⟨hcalls.trans h, htidy⟩⟩
  rw [hexecutes, NoEmptyArgument]
  by_cases hgiven : phases ≠ some [] ∧ allowRisk ≠ some []
  · rw [orDefault_eq hgiven.1, orDefault_eq hgiven.2]
    exact ⟨fun _ => Or.inl hgiven, fun _ => rfl⟩
  · have hempty : phases = some [] ∨ allowRisk = some [] := by
      by_contra hne
      exact hgiven ⟨fun h => hne (Or.inl h), fun h => hne (Or.inr h)⟩
    rw [gatedPrefix_empty hempty, gatedPrefix_eq_nil]
    exact ⟨Or.inr, fun h => h.resolve_left hgiven⟩

/-- A playbook of one command. -/
def onePlaybook : Playbook := { id := "demo.one", risk := "low", action := ["id"] }

/-- A shell in which every command succeeds. -/
def willing : Shell := fun _ _ _ => .ok ⟨0, "", ""⟩

/-- **Empty arguments execute**: no phase at all runs the default ones, and no
risk at all allows the safe ones. -/
theorem empty_arguments_execute :
    (run { dryRun := false } willing 0 onePlaybook ⟨[], by decide⟩ (some []) none).2.shell = ["id"]
    ∧ (run { dryRun := false } willing 0 onePlaybook ⟨[], by decide⟩ none (some [])).2.shell
        = ["id"]
    ∧ ¬ ExecutesGiven { dryRun := false } willing 0 onePlaybook ⟨[], by decide⟩ (some []) none
    ∧ ¬ ExecutesGiven { dryRun := false } willing 0 onePlaybook ⟨[], by decide⟩ none
        (some []) := by
  refine ⟨by decide +kernel, by decide +kernel, fun h => ?_, fun h => ?_⟩
  · have hcalls := h.1
    revert hcalls
    decide +kernel
  · have hcalls := h.1
    revert hcalls
    decide +kernel

end PlaybookExecutor

end Hmn
