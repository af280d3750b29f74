import RequestDocs.Proofs.FieldNames
import RequestDocs.Proofs.FilePaths
import RequestDocs.Proofs.NameCalls
/-!
# Names of types

However characters outside ASCII are spelled, and whatever puts words together, the name made from a
text has letters and digits of ASCII only and starts with a capital. So do all names that registries
give, numbers included.
-/

namespace RequestDocs

namespace Naming

/-- The name of a type, and with it whatever keeps it apart from other names. -/
theorem KeptApart.isTypeName {used : List String} {base name : String}
    (h : KeptApart used base name) (hbase : IsTypeName base) : IsTypeName name := by
  cases h with
  | unchanged => exact hbase
  | numbered n => exact hbase.append (isIdentifier_toString n)

end Naming

namespace NameRegistry

open Naming

theorem isTypeName_of_mem_used [Spelling] (calls : List NameCall) :
    ∀ name ∈ (ofCalls calls).used, IsTypeName name := by
  induction calls using List.reverseRecOn with
  | nil => exact nofun
  | append_singleton calls call ih =>
    rw [ofCalls_concat]
    rcases (ofCalls calls).called_cases call with hsame | ⟨text, new, hnext, -, happart⟩
    · rwa [hsame]
    · rw [hnext]
      intro name hname
      rw [used_insert, List.mem_append, List.mem_singleton] at hname
      rcases hname with hname | rfl
      · exact ih name hname
      · exact happart.isTypeName (isTypeName_typeName text)

theorem nameOf?_of_nameFor [Spelling]
    {r r' : NameRegistry} {g : TypeGraph} {id : TypeId} {hint name : String}
    (h : r.nameFor g id hint = .ok (name, r')) : r'.nameOf? id = some name := by
  unfold nameFor at h
  split at h
  · next hname =>
    cases h
    exact hname
  · next hnone =>
    cases hnode : g.get id with
    | error fault =>
      rw [hnode] at h
      cases h
    | ok node =>
      rw [hnode] at h
      cases h
      exact nameOf?_insert_self hnone _

/-- Every name is fit for identifiers and files: whatever text it is made from and however that is
spelled, also with the number that keeps it apart from the names in use; and so are the names that a
registry holds and gives after any calls. -/
theorem names_isTypeName [Spelling] :
    (∀ s, IsTypeName (typeName s)) ∧
    (∀ s used, IsTypeName (unique (typeName s) used)) ∧
    (∀ calls, ∀ name ∈ (ofCalls calls).used, IsTypeName name) ∧
    ∀ calls g id hint name r,
      (ofCalls calls).nameFor g id hint = .ok (name, r) → IsTypeName name := by
  refine ⟨isTypeName_typeName, fun s used => ?_, isTypeName_of_mem_used, ?_⟩
  · exact (unique_keptApart _ used).isTypeName (isTypeName_typeName s)
  · intro calls g id hint name r hname
    have hnext : ofCalls (calls ++ [⟨g, id, hint⟩]) = r := by rw [ofCalls_concat, called, hname]
    refine isTypeName_of_mem_used (calls ++ [⟨g, id, hint⟩]) name ?_
    rw [hnext]
    exact mem_used_of_nameOf (nameOf?_of_nameFor hname)

attribute [local instance] Spelling.plain

theorem monkeyNames_isTypeName :
    let g : TypeGraph := .ofList [.record none none [], .record none none [], .record none none []]
    let calls : List NameCall := [⟨g, ⟨0⟩, "12 monkeys"⟩, ⟨g, ⟨1⟩, "12_Monkeys"⟩]
    let r := (ofCalls calls).insert ⟨2⟩ "T12Monkeys3"
    typeName "12 monkeys" = "T12Monkeys" ∧ "T12Monkeys2" ∈ (ofCalls calls).used ∧
      (ofCalls calls).nameFor g ⟨2⟩ "12-monkeys" = .ok ("T12Monkeys3", r) ∧
      IsTypeName "T12Monkeys" ∧ IsTypeName "T12Monkeys2" ∧ IsTypeName "T12Monkeys3" := by
  intro g calls r
  have hspelled : typeName "12 monkeys" = "T12Monkeys" := by decide +kernel
  have hmem : "T12Monkeys2" ∈ (ofCalls calls).used := by decide +kernel
  have hgiven : (ofCalls calls).nameFor g ⟨2⟩ "12-monkeys" = .ok ("T12Monkeys3", r) := by
    decide +kernel
  obtain ⟨hname, -, hused, hnamed⟩ := names_isTypeName
  exact ⟨hspelled, hmem, hgiven, hspelled ▸ hname "12 monkeys", hused calls _ hmem,
    hnamed calls g ⟨2⟩ "12-monkeys" _ _ hgiven⟩

end NameRegistry

end RequestDocs
