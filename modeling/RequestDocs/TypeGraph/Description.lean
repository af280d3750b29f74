import RequestDocs.TypeGraph.Basic
import RequestDocs.Json.Printer
/-!
# Descriptions

The short text that stands for a type in a note. A type inside itself reads `...`.
-/

namespace RequestDocs

/-- The text of a literal: a string stands for itself. -/
def Json.plain : Json → String
  | .string text => text
  | value => value.print

/-- A step of a description. The state holds the ids that are being described. -/
abbrev Describing := StateT (List TypeId) (Except Fault)

/-- The description of a node. Only unions without a name and arrays describe what they refer to. -/
def TypeNode.describeWith (describe : TypeId → Describing String) : TypeNode → Describing String
  | scalar name => return name
  | literal value => return value.plain
  | record name _ _ => return name.getD "object"
  | union (some name) _ => return name
  | union none variants => return String.intercalate " | " (← variants.mapM describe)
  | array element => return (← describe element) ++ "[]"
  | unknown kind => return kind

namespace TypeGraph

/-- The description of an id. It joins the ids that are being described for as long as its node
is. -/
def describeVisiting (g : TypeGraph) : (fuel : Nat) → TypeId → Describing String
  | 0, _ => throw .exhausted
  | fuel + 1, id => do
    if id ∈ (← getThe (List TypeId)) then return "..."
    modify (id :: ·)
    let text ← (← g.get id).describeWith (g.describeVisiting fuel)
    modify (·.erase id)
    return text

/-- The description of an id. No more ids than the graph has are described at once. -/
def describe (g : TypeGraph) (id : TypeId) : Except Fault String :=
  (g.describeVisiting (g.size + 1) id).run' []

end TypeGraph

end RequestDocs
