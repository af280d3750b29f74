/-!
# YAML nodes

The nodes of a document with its aliases resolved. A scalar keeps its text and whether it was
written plain, because only plain scalars can be more than text.
-/

namespace RequestDocs

inductive Yaml
  | scalar (plain : Bool) (text : String)
  | list (items : List Yaml)
  /-- A map may repeat keys, and a key may be any node. -/
  | map (entries : List (Yaml × Yaml))
  | tagged (tag : String) (node : Yaml)
deriving Inhabited

namespace Yaml

def standardTag (name : String) : String := "tag:yaml.org,2002:" ++ name

/-- Whether a tag has a meaning only inside its document. -/
def isLocalTag (tag : String) : Bool := tag.toList.head? == some '!'

def empty : Yaml := .scalar true ""

def isEmpty : Yaml → Bool
  | scalar true text => text.isEmpty
  | _ => false

def text? : Yaml → Option String
  | scalar _ text => some text
  | tagged _ node => node.text?
  | _ => none

def depth : Yaml → Nat
  | scalar _ _ => 0
  | list items => depthItems items + 1
  | map entries => depthEntries entries + 1
  | tagged _ node => node.depth
where
  /-- The greatest depth of the items of a list. -/
  depthItems : List Yaml → Nat
    | [] => 0
    | item :: items => max item.depth (depthItems items)
  /-- The greatest depth of the keys and values of a map. -/
  depthEntries : List (Yaml × Yaml) → Nat
    | [] => 0
    | (key, value) :: entries => max (max key.depth value.depth) (depthEntries entries)

end Yaml

end RequestDocs
