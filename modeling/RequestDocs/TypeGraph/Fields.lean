import RequestDocs.TypeGraph.Basic
/-!
# Fields of records

The fields of a record with those it inherits, and the records reached from them.
-/

namespace RequestDocs.TypeGraph

/-- The own fields of the records on the base chain of an id, derived records first. The chain ends
at a record without a base, at an id that is no record and at an id already `seen`. -/
def baseChain (g : TypeGraph) : (fuel : Nat) → (seen : List TypeId) → TypeId →
    Except Fault (List (List Field))
  | 0, _, _ => .error .exhausted
  | fuel + 1, seen, id =>
    if id ∈ seen then .ok []
    else do
      match ← g.get id with
      | .record _ none fields => return [fields]
      | .record _ (some base) fields => return fields :: (← g.baseChain fuel (id :: seen) base)
      | _ => return []

/-- All fields of a record, inherited ones first. No chain has more records than the graph has
ids. -/
def allFields (g : TypeGraph) (id : TypeId) : Except Fault (List Field) := do
  return (← g.baseChain (g.size + 1) [] id).reverse.flatten

structure RecordSearch where
  visited : List TypeId
  found : List TypeId

/-- The search continued from an id through arrays and unions. -/
def searchRecords (g : TypeGraph) : (fuel : Nat) → RecordSearch → TypeId →
    Except Fault RecordSearch
  | 0, _, _ => .error .exhausted
  | fuel + 1, search, id =>
    if id ∈ search.visited then .ok search
    else do
      let node ← g.get id
      let search := { search with visited := id :: search.visited }
      match node with
      | .record .. => return { search with found := search.found ++ [id] }
      | .array element => g.searchRecords fuel search element
      | .union _ variants => variants.foldlM (g.searchRecords fuel) search
      | _ => return search

/-- The records that an id stands for: itself, or those in its elements and variants. -/
def recordsWithin (g : TypeGraph) (id : TypeId) : Except Fault (List TypeId) := do
  return (← g.searchRecords (g.size + 1) ⟨[], []⟩ id).found

/-- The other records in the fields of a record, each once in the order of first occurrence. -/
def nestedRecords (g : TypeGraph) (id : TypeId) : Except Fault (List TypeId) := do
  let found ← (← g.allFields id).mapM fun field => g.recordsWithin field.type
  return found.flatten.eraseDups.filter (· != id)

end RequestDocs.TypeGraph
