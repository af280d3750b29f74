import RequestDocs.OpenApi.Reference
import RequestDocs.OpenApi.Schema
/-!
# API descriptions

The part of a description that requests are made from: paths with their operations, and the
components they refer to.
-/

namespace RequestDocs.OpenApi

/-- A value given in place or by reference. -/
inductive OrReference (α : Type)
  | reference (path : String)
  | object (value : α)

def OrReference.path? {α : Type} : OrReference α → Option String
  | reference path => some path
  | object _ => none

inductive ParameterPlace
  | path
  | query
  | header
  | cookie
deriving DecidableEq

structure ApiParameter where
  place : ParameterPlace
  name : String
deriving DecidableEq

/-- A request body: content types with their schemas, in key order. -/
structure ApiBody where
  content : List (String × Option Schema)

structure ApiOperation where
  operationId : Option String
  tags : List String
  parameters : List (OrReference ApiParameter)
  requestBody : Option (OrReference ApiBody)

/-- A path: its operations by verb, and the parameters they share. -/
structure ApiPath where
  operations : List (String × ApiOperation)
  parameters : List (OrReference ApiParameter)

/-- What references may point at, in key order. -/
structure ApiComponents where
  schemas : List (String × Schema)
  parameters : List (String × OrReference ApiParameter)
  requestBodies : List (String × OrReference ApiBody)

/-- A description. Security requirements are lists of scheme names. -/
structure Api where
  title : String
  security : List (List String)
  paths : List (String × ApiPath)
  components : ApiComponents

/-- The operations of an API with their path and verb: by path, and within a path in a fixed order
of verbs. -/
def Api.operations (api : Api) : List (String × String × ApiOperation) :=
  api.paths.flatMap fun (path, item) => item.operations.map fun (verb, op) => (path, verb, op)

/-- The object that a value stands for: itself, or what a chain of references to components of one
kind ends in. A chain longer than the table of components has no end. -/
def resolveIn {α : Type} (kind : String) (path? : α → Option String) (table : List (String × α)) :
    (fuel : Nat) → α → Except Fault (Option α)
  | 0, _ => return none
  | fuel + 1, value =>
    match path? value with
    | none => return some value
    | some path => do
      let reference ← Reference.parse path
      if reference.kind = kind then
        match table.lookup reference.name with
        | some target => resolveIn kind path? table fuel target
        | none => return none
      else return none

namespace ApiComponents

def resolveSchema (c : ApiComponents) (schema : Schema) : Except Fault (Option Schema) :=
  resolveIn "schemas" Schema.path? c.schemas (c.schemas.length + 1) schema

private def valueOf {α : Type} : Option (OrReference α) → Option α
  | some (.object value) => some value
  | _ => none

def resolveParameter (c : ApiComponents) (parameter : OrReference ApiParameter) :
    Except Fault (Option ApiParameter) := do
  return valueOf (← resolveIn "parameters" OrReference.path? c.parameters
    (c.parameters.length + 1) parameter)

def resolveBody (c : ApiComponents) (body : OrReference ApiBody) :
    Except Fault (Option ApiBody) := do
  return valueOf (← resolveIn "requestBodies" OrReference.path? c.requestBodies
    (c.requestBodies.length + 1) body)

end ApiComponents

end RequestDocs.OpenApi
