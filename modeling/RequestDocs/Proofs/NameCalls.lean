import RequestDocs.Proofs.Surveys
/-!
# Calls for names

Whatever types ask for names, in whatever order and with whatever hints: no two of them have the same
name, a name once given stays, and a new one is the form of the declared name or the hint, with the
smallest number that keeps it apart from the names in use.
-/

namespace RequestDocs

structure NameCall where
  graph : TypeGraph
  id : TypeId
  hint : String

namespace NameRegistry

variable {r : NameRegistry} {g : TypeGraph} {id : TypeId} {node : TypeNode}

/-- The registry after a call. A fault leaves it as it was. -/
def called [Spelling] (r : NameRegistry) (call : NameCall) : NameRegistry :=
  match r.nameFor call.graph call.id call.hint with
  | .ok (_, r') => r'
  | .error _ => r

def ofCalls [Spelling] (calls : List NameCall) : NameRegistry := calls.foldl called empty

theorem ofCalls_concat [Spelling] (calls : List NameCall) (call : NameCall) :
    ofCalls (calls ++ [call]) = (ofCalls calls).called call := by
  rw [ofCalls, List.foldl_append]
  rfl

theorem nameFor_of_unnamed [Spelling]
    (hnone : r.nameOf? id = none) (hnode : g.get id = .ok node) (hint : String) :
    ∃ name, r.nameFor g id hint = .ok (name, r.insert id name) ∧
      Naming.KeptApart r.used (Naming.typeName (node.declaredName?.getD hint)) name := by
  refine ⟨_, ?_, Naming.unique_keptApart _ r.used⟩
  rw [nameFor, hnone, hnode]
  rfl

/-- A call changes nothing, or it enters a type that had no name with the form of a text, kept apart from
the names in use. -/
theorem called_cases [Spelling] (r : NameRegistry) (call : NameCall) : r.called call = r ∨
    ∃ text name, r.called call = r.insert call.id name ∧ call.id ∉ r.named ∧
      Naming.KeptApart r.used (Naming.typeName text) name := by
  unfold called
  cases hname : r.nameOf? call.id with
  | some name =>
    rw [r.nameFor_of_named call.graph call.id call.hint hname]
    exact .inl rfl
  | none =>
    cases hnode : call.graph.get call.id with
    | error fault =>
      rw [nameFor, hname, hnode]
      exact .inl rfl
    | ok node =>
      obtain ⟨name, hnew, happart⟩ := nameFor_of_unnamed hname hnode call.hint
      rw [hnew]
      exact .inr ⟨_, name, rfl, nameOf?_eq_none_iff.1 hname, happart⟩

theorem called_keeps [Spelling] (r : NameRegistry) (call : NameCall) : r.Keeps (r.called call) := by
  unfold called
  split
  · next hnew => exact keeps_of_nameFor hnew
  · exact .refl r

theorem ofCalls_append_keeps [Spelling] (calls later : List NameCall) :
    (ofCalls calls).Keeps (ofCalls (calls ++ later)) := by
  induction later using List.reverseRecOn with
  | nil =>
    rw [List.append_nil]
    exact .refl _
  | append_singleton later call ih =>
    rw [← List.append_assoc, ofCalls_concat]
    exact ih.trans (called_keeps _ call)

structure Distinct (r : NameRegistry) : Prop where
  named : r.named.Nodup
  used : r.used.Nodup

namespace Distinct

theorem empty : Distinct .empty := ⟨List.nodup_nil, List.nodup_nil⟩

theorem called [Spelling] (h : r.Distinct) (call : NameCall) : (r.called call).Distinct := by
  rcases r.called_cases call with hsame | ⟨_, name, hnext, hid, happart⟩
  · rwa [hsame]
  · rw [hnext]
    constructor
    · rw [NameRegistry.named, names_insert, List.map_append, List.map_singleton,
        List.nodup_append_comm]
      exact List.nodup_cons.2 ⟨hid, h.named⟩
    · rw [used_insert, List.nodup_append_comm]
      exact List.nodup_cons.2 ⟨happart.not_mem, h.used⟩

theorem ofCalls [Spelling] (calls : List NameCall) : (NameRegistry.ofCalls calls).Distinct := by
  induction calls using List.reverseRecOn with
  | nil => exact .empty
  | append_singleton calls call ih =>
    rw [ofCalls_concat]
    exact ih.called call

theorem mem_used_iff (h : r.Distinct) (name : String) :
    name ∈ r.used ↔ ∃ id, r.nameOf? id = some name := by
  constructor
  · intro hname
    rw [r.inStep] at hname
    obtain ⟨⟨id, _⟩, hentry, rfl⟩ := List.mem_map.1 hname
    obtain ⟨before, after, heq⟩ := List.append_of_mem hentry
    have hnamed := h.named
    rw [NameRegistry.named, heq, List.map_append, List.map_cons, List.nodup_middle] at hnamed
    have hfirst : ∀ entry ∈ before, (id != entry.1) = true := by
      intro entry hbefore
      rw [bne_iff_ne]
      intro hid
      apply (List.nodup_cons.1 hnamed).1
      exact List.mem_append_left _ (List.mem_map.2 ⟨entry, hbefore, hid.symm⟩)
    exact ⟨id, List.lookup_eq_some_iff.2 ⟨before, after, heq, hfirst⟩⟩
  · rintro ⟨id, hname⟩
    exact mem_used_of_nameOf hname

end Distinct

/-- At any point, no two types have the same name, and the names in use are those that types have. A
type that has a name has it for ever: it is returned whenever the type asks again, and nothing changes.
A type that asks for the first time gets the form of its declared name, or of the hint if it has none,
kept apart from the names in use. -/
theorem ofCalls_names [Spelling] (calls : List NameCall) :
    (∀ id id' name, (ofCalls calls).nameOf? id = some name →
      (ofCalls calls).nameOf? id' = some name → id = id') ∧
    (∀ name, name ∈ (ofCalls calls).used ↔ ∃ id, (ofCalls calls).nameOf? id = some name) ∧
    (∀ id name, (ofCalls calls).nameOf? id = some name → ∀ later g hint,
      (ofCalls (calls ++ later)).nameOf? id = some name ∧
      (ofCalls (calls ++ later)).nameFor g id hint = .ok (name, ofCalls (calls ++ later))) ∧
    (∀ g id node hint, (ofCalls calls).nameOf? id = none → g.get id = .ok node →
      ∃ name, (ofCalls calls).nameFor g id hint = .ok (name, ofCalls (calls ++ [⟨g, id, hint⟩])) ∧
        (ofCalls (calls ++ [⟨g, id, hint⟩])).nameOf? id = some name ∧
        Naming.KeptApart (ofCalls calls).used (Naming.typeName (node.declaredName?.getD hint)) name) := by
  have h := Distinct.ofCalls calls
  refine ⟨fun id id' name => nameOf?_inj h.used, h.mem_used_iff, ?_, ?_⟩
  · intro id name hname later g hint
    have hkept := (ofCalls_append_keeps calls later).kept id name hname
    exact ⟨hkept, nameFor_of_named _ g id hint hkept⟩
  · intro g id node hint hnone hnode
    obtain ⟨name, hnew, happart⟩ := nameFor_of_unnamed hnone hnode hint
    have hnext : ofCalls (calls ++ [⟨g, id, hint⟩]) = (ofCalls calls).insert id name := by
      rw [ofCalls_concat, called, hnew]
    rw [hnext]
    exact ⟨name, hnew, nameOf?_insert_self hnone name, happart⟩

attribute [local instance] Spelling.plain

example : (ofCalls [⟨.ofList [.record (some "Address") none []], ⟨0⟩, ""⟩,
    ⟨.ofList [.scalar "string", .record none none []], ⟨1⟩, "address"⟩]).used =
      ["Address", "Address2"] := by decide +kernel

end NameRegistry

end RequestDocs
