import RequestDocs.Yaml.Basic
import RequestDocs.Yaml.Scalar
/-!
# Values of nodes

The JSON value of a node whose scalars are taken for what they look like. Local tags, keys that are
no text and integers out of range have no value.
-/

namespace RequestDocs.Yaml

def taggedValue? (tag : String) (text : String) : Option Json :=
  if tag == standardTag "bool" then (bool? text).map .bool
  else if tag == standardTag "int" then (int? text).bind int64?
  else if tag == standardTag "float" then float? text
  else if tag == standardTag "null" then if isNullText text then some .null else none
  else if isLocalTag tag then none
  else some (.string text)

mutual

def value? : Yaml → Option Json
  | scalar true text => plainValue? text
  | scalar false text => some (.string text)
  | list items => (itemValues? items).map .array
  | map entries => (entryValues? entries).map .object
  | tagged tag (scalar _ text) => taggedValue? tag text
  | tagged tag node => if isLocalTag tag then none else node.value?

def itemValues? : List Yaml → Option (List Json)
  | [] => some []
  | item :: items => do return (← item.value?) :: (← itemValues? items)

def entryValues? : List (Yaml × Yaml) → Option (List (String × Json))
  | [] => some []
  | (key, value) :: entries => do
    let key ← (← key.value?).text?
    return (key, ← value.value?) :: (← entryValues? entries)

end

end RequestDocs.Yaml
