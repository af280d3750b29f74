import RequestDocs.Proofs.Surveys
/-!
# What a sample shows of a type

A type other than a record has one line, made from its node and the names of the records that it
passes to directly. A record is opened below those that are open already, up to a depth.
-/

namespace RequestDocs

variable {g : TypeGraph} {names names' : NameRegistry} {id : TypeId}

/-- How a type reads in a note: a record by its name, everything else described. -/
def Reads (g : TypeGraph) (names : NameRegistry) (id : TypeId) (label : String) : Prop :=
  (g.IsRecord id ∧ names.nameOf? id = some label) ∨ (¬g.IsRecord id ∧ g.describe id = .ok label)

theorem Reads.mono {label : String} (h : Reads g names id label) (hkeeps : names.Keeps names') :
    Reads g names' id label :=
  h.imp_left fun ⟨hrecord, hname⟩ => ⟨hrecord, hkeeps.kept id label hname⟩

theorem Reads.unique {label label' : String} (h : Reads g names id label)
    (h' : Reads g names id label') : label = label' := by
  rcases h with ⟨hrecord, h⟩ | ⟨hother, h⟩ <;> rcases h' with ⟨hrecord', h'⟩ | ⟨hother', h'⟩
  · exact Option.some.inj (h.symm.trans h')
  · exact absurd hrecord hother'
  · exact absurd hrecord' hother
  · exact Except.ok.inj (h.symm.trans h')

/-- What the one line of a type other than a record shows. -/
inductive Shows (g : TypeGraph) (names : NameRegistry) (id : TypeId) : Sample.Leaf → Prop
  | scalar {name : String} (hnode : g.get id = .ok (.scalar name)) : Shows g names id (.scalar name)
  | literal {value : Json} (hnode : g.get id = .ok (.literal value)) :
      Shows g names id (.literal value)
  | union {name : Option String} {variants : List TypeId} {labels : List String}
      {direct : Option Json} (hnode : g.get id = .ok (.union name variants))
      (hlabels : List.Forall₂ (Reads g names) variants labels)
      (hdirect : Synthesis.firstLiteral? g variants = .ok direct) :
      Shows g names id (.union labels direct)
  | array {element : TypeId} {label : String} (hnode : g.get id = .ok (.array element))
      (hlabel : Reads g names element label) : Shows g names id (.array label)
  | unknown {kind : String} (hnode : g.get id = .ok (.unknown kind)) :
      Shows g names id (.unknown kind)

namespace Shows

variable {leaf leaf' : Sample.Leaf}

theorem mono (h : Shows g names id leaf) (hkeeps : names.Keeps names') : Shows g names' id leaf := by
  cases h with
  | scalar hnode => exact .scalar hnode
  | literal hnode => exact .literal hnode
  | union hnode hlabels hdirect => exact .union hnode (hlabels.imp fun _ _ h => h.mono hkeeps) hdirect
  | array hnode hlabel => exact .array hnode (hlabel.mono hkeeps)
  | unknown hnode => exact .unknown hnode

theorem exists_node (h : Shows g names id leaf) :
    ∃ node, g.get id = .ok node ∧ node.isRecord = false := by
  cases h with
  | scalar hnode | literal hnode | union hnode | array hnode | unknown hnode => exact ⟨_, hnode, rfl⟩

theorem not_isRecord (h : Shows g names id leaf) : ¬g.IsRecord id := by
  obtain ⟨node, hnode, hother⟩ := h.exists_node
  simp [TypeGraph.isRecord_iff_of_get hnode, hother]

theorem unique (h : Shows g names id leaf) (h' : Shows g names id leaf') : leaf = leaf' := by
  cases h with
  | scalar hnode | literal hnode | unknown hnode =>
    cases h' with
    | scalar hnode' | literal hnode' | union hnode' | array hnode' | unknown hnode' =>
      cases hnode.symm.trans hnode'
      try rfl
  | union hnode hlabels hdirect =>
    cases h' with
    | union hnode' hlabels' hdirect' =>
      cases hnode.symm.trans hnode'
      cases hdirect.symm.trans hdirect'
      rw [List.right_unique_forall₂' (fun _ _ _ h h' => h.unique h') hlabels hlabels']
    | scalar hnode' | literal hnode' | array hnode' | unknown hnode' => cases hnode.symm.trans hnode'
  | array hnode hlabel =>
    cases h' with
    | array hnode' hlabel' =>
      cases hnode.symm.trans hnode'
      rw [hlabel.unique hlabel']
    | scalar hnode' | literal hnode' | union hnode' | unknown hnode' => cases hnode.symm.trans hnode'

end Shows

namespace Synthesis

variable {s : SynthesisState}

theorem discover_named [Spelling] (hid : g.Has id) (hint : String) :
    Completes (discover g id hint) s fun name t =>
      t.registry.nameOf? id = some name ∧ s.registry.Keeps t.registry := by
  refine .get_bind (.lift_bind (s.registry.nameFor_ok hid hint) fun (name, registry) ⟨hkeeps, hname⟩ => ?_)
  exact .bind (M := fun _ t => t.registry = registry) (.set rfl) fun _ t ht =>
    .pure ⟨ht ▸ hname, ht ▸ hkeeps⟩

def Named (g : TypeGraph) (ids : List TypeId) (names : NameRegistry) : Prop :=
  ∀ id ∈ ids, g.IsRecord id → ∃ name, names.nameOf? id = some name

private theorem discoverIfRecord_named [Spelling] (hid : g.Has id) (hint : String) :
    Completes (discoverIfRecord g id hint) s fun _ t =>
      Named g [id] t.registry ∧ s.registry.Keeps t.registry := by
  refine .lift_bind (TypeGraph.get_ok hid) fun node hnode => ?_
  by_cases hrecord : node.isRecord
  · simp only [hrecord, if_true]
    refine .bind (discover_named hid hint) fun name t ⟨hname, hkeeps⟩ => .pure ⟨?_, hkeeps⟩
    intro id' hid' _
    rw [List.mem_singleton.1 hid']
    exact ⟨name, hname⟩
  · simp only [hrecord]
    refine .pure ⟨fun id' hid' h => ?_, .refl _⟩
    rw [List.mem_singleton.1 hid'] at h
    exact absurd ((TypeGraph.isRecord_iff_of_get hnode).1 h) hrecord

private theorem discoverVariants_named [Spelling]
    (variants : List TypeId) (hv : ∀ v ∈ variants, g.Has v) (hint : String) (place : Nat) :
    Completes (discoverVariants g hint place variants) s fun _ t =>
      Named g variants t.registry ∧ s.registry.Keeps t.registry := by
  induction variants generalizing place s with
  | nil => exact .pure ⟨by simp [Named], .refl _⟩
  | cons v vs ih =>
    obtain ⟨hfirst, hrest⟩ := List.forall_mem_cons.1 hv
    refine .bind (discoverIfRecord_named hfirst _) fun _ t ⟨hnamed, hkeeps⟩ => ?_
    refine (ih hrest (place + 1)).mono fun _ u ⟨hnamed', hkeeps'⟩ => ?_
    refine ⟨List.forall_mem_cons.2 ⟨fun hrecord => ?_, hnamed'⟩, hkeeps.trans hkeeps'⟩
    obtain ⟨name, hname⟩ := hnamed v (by simp) hrecord
    exact ⟨name, hkeeps'.kept v name hname⟩

private theorem label_reads (hg : g.Closed) (hid : g.Has id)
    (hnamed : g.IsRecord id → ∃ name, s.registry.nameOf? id = some name) :
    Completes (label g id) s fun text t => Reads g s.registry id text ∧ t = s := by
  have hdescribe (hother : ¬g.IsRecord id) :
      Completes (liftFault (g.describe id)) s fun text t => Reads g s.registry id text ∧ t = s :=
    .lift (hg.describe_ok hid).eqn fun text ⟨htext, _⟩ => ⟨.inr ⟨hother, htext⟩, rfl⟩
  refine .get_bind ?_
  split
  · next name hname =>
    refine .lift_bind (TypeGraph.get_ok hid) fun node hnode => ?_
    split
    · next hrecord => exact .pure ⟨.inl ⟨⟨node, hnode, hrecord⟩, hname⟩, rfl⟩
    · next hother => exact hdescribe fun hrecord => hother ((TypeGraph.isRecord_iff_of_get hnode).1 hrecord)
  · next hnone =>
    refine hdescribe fun hrecord => ?_
    obtain ⟨name, hname⟩ := hnamed hrecord
    cases hnone.symm.trans hname

private theorem labels_read (hg : g.Closed) (ids : List TypeId) (hids : ∀ id ∈ ids, g.Has id)
    (hnamed : Named g ids s.registry) :
    Completes (ids.mapM (label g)) s fun labels t =>
      List.Forall₂ (Reads g s.registry) ids labels ∧ t = s := by
  induction ids with
  | nil => exact .pure ⟨.nil, rfl⟩
  | cons id ids ih =>
    obtain ⟨hid, hrest⟩ := List.forall_mem_cons.1 hids
    obtain ⟨hname, hnames⟩ := List.forall_mem_cons.1 hnamed
    rw [List.mapM_cons]
    refine .bind (label_reads hg hid hname) fun text t ⟨htext, hsame⟩ => ?_
    subst hsame
    refine .bind (ih hrest hnames) fun texts u ⟨htexts, hsame⟩ => .pure ⟨.cons htext htexts, hsame⟩

abbrev ShowsLine (g : TypeGraph) (id : TypeId) (step : Synthesis Sample) (s : SynthesisState) : Prop :=
  Completes step s fun sample t =>
    s.registry.Keeps t.registry ∧ ∃ leaf, sample = .leaf leaf ∧ Shows g t.registry id leaf

private theorem scalarSample_shows {name : String} (hnode : g.get id = .ok (.scalar name))
    (path : String) : ShowsLine g id (scalarSample path name) s := by
  unfold scalarSample
  split
  · exact .bind (M := fun _ t => t.registry = s.registry) (.modify rfl) fun _ t ht =>
      .pure ⟨ht ▸ .refl _, _, rfl, .scalar hnode⟩
  · exact .pure ⟨.refl _, _, rfl, .scalar hnode⟩

private theorem unionSample_shows [Spelling]
    (hg : g.Closed) {name : Option String} {variants : List TypeId}
    (hnode : g.get id = .ok (.union name variants)) (hint path : String) :
    ShowsLine g id (unionSample g hint path variants) s := by
  have hv : ∀ v ∈ variants, g.Has v := fun v => hg.has_reference hnode
  refine .bind (discoverVariants_named variants hv hint 1) fun _ t ⟨hnamed, hkeeps⟩ => ?_
  refine .bind (labels_read hg variants hv hnamed) fun labels u ⟨hlabels, hsame⟩ => ?_
  subst hsame
  refine .lift_bind (firstLiteral_ok variants hv).eqn fun literal ⟨hliteral, _⟩ => ?_
  cases literal with
  | some value => exact .pure ⟨hkeeps, _, rfl, .union hnode hlabels hliteral⟩
  | none =>
    refine .bind (M := fun _ v => v.registry = u.registry) (.modify rfl) fun _ v hv => .pure ?_
    rw [hv]
    exact ⟨hkeeps, _, rfl, .union hnode hlabels hliteral⟩

private theorem arraySample_shows [Spelling] (hg : g.Closed) {element : TypeId}
    (hnode : g.get id = .ok (.array element)) (hint : String) :
    ShowsLine g id (arraySample g hint element) s := by
  have he : g.Has element := hg.has_reference hnode (List.mem_singleton_self element)
  refine .bind (discoverIfRecord_named he _) fun _ t ⟨hnamed, hkeeps⟩ => ?_
  refine .bind (label_reads hg he (hnamed element (by simp))) fun text u ⟨htext, hsame⟩ => ?_
  subst hsame
  exact .pure ⟨hkeeps, _, rfl, .array hnode htext⟩

/-- A type other than a record is sampled as the line that shows it. -/
theorem sampleBelow_shows [Spelling]
    (hg : g.Closed) (hid : g.Has id) (hother : ¬g.IsRecord id) (room : Nat)
    (above : List TypeId) (hint path : String) :
    ShowsLine g id (sampleBelow g room above hint path id) s := by
  unfold sampleBelow
  refine .lift_bind (TypeGraph.get_ok hid) fun node hnode => ?_
  cases node with
  | scalar name => exact scalarSample_shows hnode path
  | literal value => exact .pure ⟨.refl _, _, rfl, .literal hnode⟩
  | unknown kind => exact .pure ⟨.refl _, _, rfl, .unknown hnode⟩
  | union name variants => exact unionSample_shows hg hnode hint path
  | array element => exact arraySample_shows hg hnode hint
  | record name base fields => exact absurd ⟨_, hnode, rfl⟩ hother

theorem sampleBelow_of_not_isRecord [Spelling] (hother : ¬g.IsRecord id) (room room' : Nat)
    (above above' : List TypeId) (hint path : String) :
    sampleBelow g room above hint path id = sampleBelow g room' above' hint path id := by
  unfold sampleBelow
  cases hnode : g.get id with
  | error fault => rfl
  | ok node =>
    cases node with
    | record name base fields => exact absurd ⟨_, hnode, rfl⟩ hother
    | scalar | literal | union | array | unknown => rfl

def entryBelow [Spelling]
    (g : TypeGraph) (room : Nat) (above : List TypeId) (name : String) (field : Field) :
    Synthesis (String × Sample) := do
  let sample ← sampleBelow g room above (name ++ Naming.typeName field.name)
    (name ++ "." ++ field.name) field.type
  return (Naming.fieldName field.name, sample)

variable {above : List TypeId}

private theorem sampleBelow_record [Spelling]
    (hrecord : g.IsRecord id) (room : Nat) (above : List TypeId)
    (hint path : String) : sampleBelow g room above hint path id = do
      let name ← discover g id hint
      if id ∈ above then return .leaf (.recursive name)
      else match room with
        | 0 => return .leaf (.cutOff name)
        | room + 1 =>
          let fields ← liftFault (g.allFields id)
          let entries ← fields.mapM (entryBelow g room (id :: above) name)
          return .block name entries := by
  obtain ⟨node, hnode, hrecord⟩ := hrecord
  unfold sampleBelow
  rw [hnode]
  cases node with
  | record name base fields => rfl
  | scalar | literal | union | array | unknown => cases hrecord

theorem sampleBelow_recursive [Spelling]
    (hrecord : g.IsRecord id) (habove : id ∈ above) (room : Nat)
    (hint path : String) : sampleBelow g room above hint path id = do
      return .leaf (.recursive (← discover g id hint)) := by
  simp only [sampleBelow_record hrecord, habove, if_true]

theorem sampleBelow_cutOff [Spelling]
    (hrecord : g.IsRecord id) (habove : id ∉ above) (hint path : String) :
    sampleBelow g 0 above hint path id = do return .leaf (.cutOff (← discover g id hint)) := by
  simp only [sampleBelow_record hrecord, habove, if_false]

theorem sampleBelow_block [Spelling] (hrecord : g.IsRecord id) (habove : id ∉ above) (room : Nat)
    (hint path : String) : sampleBelow g (room + 1) above hint path id = do
      let name ← discover g id hint
      let fields ← liftFault (g.allFields id)
      let entries ← fields.mapM (entryBelow g room (id :: above) name)
      return .block name entries := by
  simp only [sampleBelow_record hrecord, habove, if_false]

theorem synthesize_of_sample [Spelling]
    {maxDepth : Nat} {hint : String} {root : TypeId} {tree : Sample}
    {t : SynthesisState} (h : sample g maxDepth hint root s = .ok tree t) :
    synthesize g maxDepth hint root s = .ok tree.lines t := by
  rw [synthesize, bind_eq_of_ok h]
  rfl

end Synthesis

end RequestDocs
