import RequestDocs.Fault
/-!
# Component references

References of the form `source#/components/kind/name`.
-/

namespace RequestDocs.OpenApi

structure Reference where
  kind : String
  name : String
deriving DecidableEq

namespace Reference

def kinds : List String :=
  ["schemas", "responses", "parameters", "examples", "requestBodies", "headers",
    "securitySchemes", "links", "callbacks"]

def componentsPath : List Char := "#/components/".toList

def dropLead? : (lead : List Char) → List Char → Option (List Char)
  | [], cs => some cs
  | _ :: _, [] => none
  | l :: ls, c :: cs => if l = c then dropLead? ls cs else none

/-- The reference that a text spells. The source is free of number signs and ignored, the kind is
free of slashes, and the name, taken as it is, is a single line. -/
def parse? (path : String) : Option Reference := do
  let rest ← dropLead? componentsPath (path.toList.dropWhile (· != '#'))
  let kind := rest.takeWhile (· != '/')
  match rest.drop kind.length with
  | [] => none
  | _ :: name =>
    if kind.isEmpty || name.isEmpty || name.contains '\n' then none
    else some ⟨String.ofList kind, String.ofList name⟩

def parse (path : String) : Except Fault Reference :=
  match parse? path with
  | some reference => .ok reference
  | none => .error (.malformedReference path)

/-- The name of the component that a reference inside the document points at. References to other
documents and to unknown kinds have none. -/
def localName? (path : String) : Except Fault (Option String) :=
  if "#/components".toList.isPrefixOf path.toList then do
    let reference ← parse path
    return if kinds.contains reference.kind then some reference.name else none
  else return none

end Reference

end RequestDocs.OpenApi
