import RequestDocs.OpenApi.Reading
import RequestDocs.Yaml.Document
import RequestDocs.Yaml.Value
/-!
# Descriptions in YAML

The JSON value that a node stands for where a form is expected. The upper parts of a description are
read by their form: where text belongs, a scalar is its text whatever it looks like. Below a place
that admits a reference, scalars are taken for what they look like.
-/

namespace RequestDocs.OpenApi

/-- Whether a node is a plain scalar that stands for nothing. -/
def isAbsent : Yaml → Bool
  | .scalar true text => text.isEmpty || Yaml.isNullText text
  | .tagged tag (.scalar true text) => tag == Yaml.standardTag "null" && Yaml.isNullText text
  | _ => false

mutual

def Form.value? : Form → Yaml → Option Json
  | .text, node => match node.text? with
    | some text => some (.string text)
    | none => node.value?
  | .list item, .list items => (itemValues? item items).map .array
  | .list item, .tagged _ (.list items) => (itemValues? item items).map .array
  | .list _, .scalar true "" => some (.array [])
  | .map value, .map entries => (entryValues? (fun _ => some (.must value)) entries).map .object
  | .map value, .tagged _ (.map entries) =>
    (entryValues? (fun _ => some (.must value)) entries).map .object
  | .map _, .scalar true "" => some (.object [])
  | .entity kind, .map entries => (entryValues? (kind.slots.lookup ·) entries).map .object
  | .entity kind, .tagged _ (.map entries) =>
    (entryValues? (kind.slots.lookup ·) entries).map .object
  | .entity _, .scalar true "" => some (.object [])
  | _, node => node.value?

def itemValues? (form : Form) : List Yaml → Option (List Json)
  | [] => some []
  | item :: items => do return (← form.value? item) :: (← itemValues? form items)

def entryValues? (slot? : String → Option Slot) :
    List (Yaml × Yaml) → Option (List (String × Json))
  | [] => some []
  | (key, node) :: entries => do
    let key ← key.text?
    let value ← match slot? key with
      | none => node.value?
      | some slot =>
        if slot.nullable && isAbsent node then some .null else slot.form.value? node
    return (key, value) :: (← entryValues? slot? entries)

end

def Api.ofYaml? (node : Yaml) : Option Api :=
  ((Form.entity .description).value? node).bind Api.read?

end RequestDocs.OpenApi
