/-
  Hmn.Playbook.Playbook — what a playbook is and how its commands are filled in.

  A phase of a playbook is a list of commands with placeholders.  Rendering
  puts the values of the inputs in, one input after the other, each in the two
  ways its placeholder can be written.
-/
import Hmn.Framework.Replace
import Hmn.Store.Store

namespace Hmn

open Framework

/-- The phases, as `SAFE_PHASES` names them. -/
inductive Phase where
  | precheck
  | backup
  | action
  | verify
  | rollbackHint
  deriving DecidableEq

def Phase.name : Phase → String
  | precheck => "precheck"
  | backup => "backup"
  | action => "action"
  | verify => "verify"
  | rollbackHint => "rollback_hint"

/-- The phase of a name; none for what is not in `SAFE_PHASES`. -/
def Phase.ofName? (name : String) : Option Phase :=
  [precheck, backup, action, verify, rollbackHint].find? fun phase => phase.name = name

/-- `Playbook`. -/
structure Playbook where
  id : String
  risk : String
  inputs : List (String × Dict) := []
  precheck : List String := []
  backup : List String := []
  action : List String := []
  verify : List String := []
  rollbackHint : List String := []

/-- The values of the inputs by name, in the order of the mapping. -/
structure Values where
  items : List (String × String)
  nodup : (items.map Prod.fst).Nodup

namespace Playbook

/-- `getattr(playbook, phase)`. -/
def commands (p : Playbook) : Phase → List String
  | .precheck => p.precheck
  | .backup => p.backup
  | .action => p.action
  | .verify => p.verify
  | .rollbackHint => p.rollbackHint

/-- The inputs that have to be there and are not. -/
def missing (p : Playbook) (values : Values) : List String :=
  (p.inputs.filter fun input =>
    input.2.has "required" && decide (input.1 ∉ values.items.map Prod.fst)).map Prod.fst

/-- `_validate_required_inputs`. -/
def validateRequiredInputs (p : Playbook) (values : Values) : Except PyError Unit :=
  match p.missing values with
  | [] => .ok ()
  | name :: _ => .error (.value ("missing required input: " ++ name))

/-- A placeholder with spaces. -/
def spaced (key : String) : String := "\x7b\x7b " ++ key ++ " \x7d\x7d"

/-- A placeholder without. -/
def tight (key : String) : String := "\x7b\x7b" ++ key ++ "\x7d\x7d"

/-- `_render`. -/
def render (command : String) (values : Values) : String :=
  values.items.foldl (fun rendered kv =>
    Replace.strReplace (Replace.strReplace rendered (spaced kv.1) kv.2) (tight kv.1) kv.2) command

/-- `render_phase`. -/
def renderPhase (p : Playbook) (phase : Phase) (values : Values) :
    Except PyError (List String) := do
  p.validateRequiredInputs values
  return (p.commands phase).map (render · values)

end Playbook

end Hmn
