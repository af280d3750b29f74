import RequestDocs.Proofs.ClosedGraphs
/-!
# Descriptions of types

The description of a type depends on the types it is inside of, and on nothing that was described
before it. One set of ids is carried through the whole walk; every description hands it on as it was.
-/

namespace RequestDocs

def TypeNode.text (part : TypeId → String) : TypeNode → String
  | scalar name => name
  | literal value => value.plain
  | record name _ _ => name.getD "object"
  | union (some name) _ => name
  | union none variants => String.intercalate " | " (variants.map part)
  | array element => part element ++ "[]"
  | unknown kind => kind

section Describing

variable {α β : Type} {path : List TypeId}

theorem run_mapM_describing {f : α → Describing β} {text : α → β} (xs : List α)
    (h : ∀ x ∈ xs, (f x).run path = .ok (text x, path)) :
    (xs.mapM f).run path = .ok (xs.map text, path) := by
  induction xs with
  | nil => rfl
  | cons x xs ih =>
    have hrest := ih fun x' hx' => h x' (List.mem_cons_of_mem x hx')
    rw [List.mapM_cons, StateT.run_bind, h x List.mem_cons_self]
    change (xs.mapM f >>= fun ys => pure (text x :: ys)).run path = _
    rw [StateT.run_bind, hrest]
    rfl

theorem TypeNode.run_describeWith {describe : TypeId → Describing String} {part : TypeId → String}
    {node : TypeNode} (h : ∀ r ∈ node.references, (describe r).run path = .ok (part r, path)) :
    (node.describeWith describe).run path = .ok (node.text part, path) := by
  cases node with
  | union name variants =>
    cases name with
    | some name => rfl
    | none =>
      rw [describeWith, StateT.run_bind, run_mapM_describing variants h]
      rfl
  | array element =>
    rw [describeWith, StateT.run_bind, h element (List.mem_singleton_self element)]
    rfl
  | scalar | literal | record | unknown => rfl

end Describing

namespace TypeGraph

variable {g : TypeGraph} {id : TypeId} {path : List TypeId} {node : TypeNode}

/-- The text for an id inside of the ids on a path. An id that the graph does not hold has none. -/
def description (g : TypeGraph) (path : List TypeId) (id : TypeId) : String :=
  if _hpath : id ∈ path then "..."
  else match _hnode : g.get id with
    | .ok node => node.text (g.description (id :: path))
    | .error _ => ""
termination_by g.unseen path
decreasing_by
  exact unseen_lt (has_of_get _hnode) _hpath (List.subset_cons_self _ path) List.mem_cons_self

theorem description_of_mem (hpath : id ∈ path) : g.description path id = "..." := by
  rw [description, dif_pos hpath]

theorem description_of_get (hpath : id ∉ path) (hnode : g.get id = .ok node) :
    g.description path id = node.text (g.description (id :: path)) := by
  rw [description, dif_neg hpath]
  split
  · next node' hnode' =>
    cases hnode.symm.trans hnode'
    rfl
  · next hfault => cases hnode.symm.trans hfault

/-- A node is described while its id is among the ids that are; afterwards the id is taken out. -/
private theorem run_describeVisiting_succ (g : TypeGraph) (fuel : Nat) (path : List TypeId)
    (id : TypeId) : (g.describeVisiting (fuel + 1) id).run path =
      if id ∈ path then .ok ("...", path)
      else do
        let node ← g.get id
        let (text, visiting) ← (node.describeWith (g.describeVisiting fuel)).run (id :: path)
        return (text, visiting.erase id) := by
  rw [describeVisiting, StateT.run_bind]
  change (ite (id ∈ path) _ _ : Describing String).run path = _
  split
  · rfl
  · cases g.get id <;> rfl

private theorem run_describeVisiting (hg : g.Closed) (fuel : Nat) (path : List TypeId) (id : TypeId)
    (hid : g.Has id) (hfuel : g.unseen path < fuel) :
    (g.describeVisiting fuel id).run path = .ok (g.description path id, path) := by
  induction fuel generalizing path id with
  | zero => omega
  | succ fuel ih =>
    rw [run_describeVisiting_succ]
    by_cases hpath : id ∈ path
    · rw [if_pos hpath, description_of_mem hpath]
    · obtain ⟨node, hnode, -⟩ := get_ok hid
      -- The parts are inside of one id more, so fewer are left for them than for the id itself.
      have hparts : ∀ r ∈ node.references, (g.describeVisiting fuel r).run (id :: path) =
          .ok (g.description (id :: path) r, id :: path) := by
        intro r hr
        exact ih (id :: path) r (hg.has_reference hnode hr) (unseen_cons_lt hid hpath hfuel)
      rw [if_neg hpath, hnode, description_of_get hpath hnode]
      change (node.describeWith (g.describeVisiting fuel)).run (id :: path) >>= _ = _
      rw [TypeNode.run_describeWith hparts]
      exact congrArg (fun visiting => Except.ok (_, visiting)) (List.erase_cons_head id path)

private theorem Closed.describe_eq (hg : g.Closed) (hid : g.Has id) :
    g.describe id = .ok (g.description [] id) := by
  rw [describe, StateT.run'_eq, run_describeVisiting hg (g.size + 1) [] id hid unseen_nil_lt]
  rfl

theorem Closed.describe_ok (hg : g.Closed) (hid : g.Has id) :
    Succeeds (g.describe id) fun _ => True :=
  ⟨g.description [] id, hg.describe_eq hid, trivial⟩

/-- The description of an id is found: it is the text for an id inside of no other. Ids that are
described one after the other inside of the same ids each read as if they were alone. -/
theorem Closed.describe_pathwise (hg : g.Closed) (hid : g.Has id) :
    g.describe id = .ok (g.description [] id) ∧
    ∀ path ids : List TypeId, (∀ x ∈ ids, g.Has x) →
      (ids.mapM (g.describeVisiting (g.size + 1))).run path =
        .ok (ids.map (g.description path), path) := by
  refine ⟨hg.describe_eq hid, fun path ids hids => ?_⟩
  apply run_mapM_describing
  intro x hx
  exact run_describeVisiting hg (g.size + 1) path x (hids x hx)
    (Nat.lt_succ_of_le (g.unseen_le_size path))

/-- A union that holds an array twice, whose elements lead back to the union and to a record that is
among its variants too. -/
def listGraph : TypeGraph := .ofList [
  .union none [⟨1⟩, ⟨2⟩, ⟨1⟩],
  .array ⟨3⟩,
  .record (some "Pet") none [],
  .union none [⟨2⟩, ⟨0⟩]]

theorem listGraph_describe : listGraph.Closed ∧ listGraph.Has ⟨0⟩ ∧
    listGraph.description [] ⟨0⟩ = "Pet | ...[] | Pet | Pet | ...[]" := by
  have hclosed : listGraph.Closed := by decide
  have hid : listGraph.Has ⟨0⟩ := by decide
  have hrun : listGraph.describe ⟨0⟩ = .ok "Pet | ...[] | Pet | Pet | ...[]" := by decide +kernel
  have hpathwise := (hclosed.describe_pathwise hid).1
  exact ⟨hclosed, hid, Except.ok.inj (hpathwise.symm.trans hrun)⟩

end TypeGraph

end RequestDocs
