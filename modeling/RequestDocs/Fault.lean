/-!
# Faults

The ways in which a generation step cannot be carried out at all.
-/

namespace RequestDocs

/-- What was attempted with the detached module. -/
inductive ModuleAction
  | attach
  | declare
  | importFrom
  | importInto
  | resolvePath
deriving DecidableEq

def ModuleAction.phrase : ModuleAction → String
  | attach => "attach a module to"
  | declare => "declare into"
  | importFrom => "import from"
  | importInto => "import into"
  | resolvePath => "resolve a path through"

inductive Fault
  /-- A type id that the graph does not hold. -/
  | foreignType (index : Nat)
  /-- A module id that the tree does not hold. -/
  | foreignModule (index : Nat)
  /-- Use of the detached module where a module of the tree is needed. -/
  | detached (action : ModuleAction)
  /-- A reference text without the form of a component reference. -/
  | malformedReference (text : String)
  /-- A walk that goes on beyond its bound. -/
  | exhausted
deriving DecidableEq

def Fault.message : Fault → String
  | foreignType index =>
    "UNREACHABLE: type #" ++ toString index ++ " does not belong to this graph"
  | foreignModule index =>
    "UNREACHABLE: module " ++ toString index ++ " does not belong to this graph"
  | detached action => "cannot " ++ action.phrase ++ " the detached sentinel module"
  | malformedReference text => "malformed reference " ++ text
  | exhausted => "UNREACHABLE: a walk has gone beyond its bound"

end RequestDocs
