import RequestDocs.Proofs.SampleTexts
import RequestDocs.Proofs.ShownTypes
/-!
# Well-formed samples

The sample of a type is JSON apart from comments and trailing commas, unless one of the texts that
go into notes as they are has a line break, or a key that is written as it is a character that a
string literal may not have.
-/

namespace RequestDocs

open Json Relation

variable {g : TypeGraph} {id id' : TypeId}

theorem IsIdentifier.oneLine {s : String} (h : IsIdentifier s) : OneLine s := fun hmem =>
  absurd (h _ hmem) (by decide)

theorem IsIdentifier.stringBody {s : String} (h : IsIdentifier s) : StringBody s.toList := by
  refine Sample.stringBody_of_unescaped (List.all_eq_true.2 fun c hc => ?_)
  exact Text.of_isAlphanum (P := fun c => Sample.isUnescaped c) (by decide +kernel) (h c hc)

theorem Naming.stringBody_fieldName [Spelling]
    {s : String} (h : words s = [] → StringBody s.toList) :
    StringBody (fieldName s).toList := by
  by_cases hwords : words s = []
  · simpa [fieldName, hwords] using h hwords
  · exact (isIdentifier_fieldName hwords).stringBody

theorem Sample.oneLine_alternatives {labels : List String} (h : ∀ l ∈ labels, OneLine l) :
    OneLine (alternatives labels) := by
  unfold alternatives
  induction labels with
  | nil => decide
  | cons label labels ih =>
    obtain ⟨hlabel, hlabels⟩ := List.forall_mem_cons.1 h
    by_cases hnil : labels = []
    · simpa [hnil] using hlabel
    · rw [String.intercalate_cons_of_ne_nil hnil]
      exact (hlabel.append (by decide)).append (ih hlabels)

def NameRegistry.Plain (r : NameRegistry) : Prop := ∀ name ∈ r.used, IsIdentifier name

theorem NameRegistry.Keeps.plain {r r' : NameRegistry} (h : r.Keeps r') (hr : r.Plain) : r'.Plain :=
  fun name hname => (h.fresh name hname).elim (hr name) id

namespace TypeGraph

def HasField (g : TypeGraph) (id id' : TypeId) : Prop :=
  ∃ fields, g.allFields id = .ok fields ∧ ∃ field ∈ fields, field.type = id'

/-- What a sample of the type shows as it is: the name of a scalar, an unknown kind, and what
describes elements and variants other than records have no line break, and names of fields that have
no words may stand between quotes. -/
structure Legible [Spelling] (g : TypeGraph) (id : TypeId) : Prop where
  scalar : ∀ name, g.get id = .ok (.scalar name) → OneLine name
  unknown : ∀ kind, g.get id = .ok (.unknown kind) → OneLine kind
  label : ∀ id', g.Passes id id' → ¬g.IsRecord id' → ∀ text, g.describe id' = .ok text → OneLine text
  key : ∀ fields, g.allFields id = .ok fields → ∀ field ∈ fields, Naming.words field.name = [] →
    StringBody field.name.toList

/-- All types that a sample of the root may open are legible. -/
def Printable [Spelling] (g : TypeGraph) (root : TypeId) : Prop :=
  ∀ id, ReflTransGen g.HasField root id → g.Legible id

theorem Printable.legible [Spelling] (h : g.Printable id) : g.Legible id := h id .refl

theorem Printable.field [Spelling] (h : g.Printable id) (hfield : g.HasField id id') :
    g.Printable id' :=
  fun x hx => h x (.head hfield hx)

theorem Closed.printable [Spelling] (hg : g.Closed) (hlegible : ∀ id, g.Has id → g.Legible id)
    (hid : g.Has id) : g.Printable id := by
  intro id' hpath
  have hhas : g.Has id' := by
    induction hpath with
    | refl => exact hid
    | tail _ hfield ih =>
      obtain ⟨fields, hfields, field, hmem, rfl⟩ := hfield
      obtain ⟨fields', hfields', htypes⟩ := hg.allFields_ok ih
      cases hfields.symm.trans hfields'
      exact htypes field hmem
  exact hlegible id' hhas

end TypeGraph

theorem Reads.oneLine {names : NameRegistry} {label : String} (h : Reads g names id label)
    (hnames : names.Plain)
    (hdescribed : ¬g.IsRecord id → ∀ text, g.describe id = .ok text → OneLine text) :
    OneLine label := by
  rcases h with ⟨-, hname⟩ | ⟨hother, htext⟩
  · exact (hnames label (NameRegistry.mem_used_of_nameOf hname)).oneLine
  · exact hdescribed hother label htext

theorem Reads.oneLine_all {names : NameRegistry} {ids : List TypeId} {labels : List String}
    (h : List.Forall₂ (Reads g names) ids labels) (hnames : names.Plain)
    (hdescribed : ∀ id ∈ ids, ¬g.IsRecord id → ∀ text, g.describe id = .ok text → OneLine text) :
    ∀ label ∈ labels, OneLine label := by
  induction h with
  | nil => simp
  | cons hfirst _ ih =>
    obtain ⟨hdescribedFirst, hdescribedRest⟩ := List.forall_mem_cons.1 hdescribed
    exact List.forall_mem_cons.2 ⟨hfirst.oneLine hnames hdescribedFirst, ih hdescribedRest⟩

theorem Shows.oneLine_note [Spelling]
    {names : NameRegistry} {leaf : Sample.Leaf} (h : Shows g names id leaf)
    (hlegible : g.Legible id) (hnames : names.Plain) : OneLine leaf.note := by
  cases h with
  | scalar hnode => exact .append (by decide) (hlegible.scalar _ hnode)
  | @literal value hnode =>
    have hprinted : OneLine value.print := newline_not_mem_print value
    exact .append (by decide) hprinted
  | unknown hnode => exact .append (by decide) (hlegible.unknown _ hnode)
  | @union name variants labels direct hnode hlabels hdirect =>
    have hlines := Reads.oneLine_all hlabels hnames fun v hv =>
      hlegible.label v ⟨_, hnode, rfl, hv⟩
    have halternatives : OneLine ("Union type: " ++ Sample.alternatives labels) :=
      .append (by decide) (Sample.oneLine_alternatives hlines)
    cases direct with
    | some value => exact halternatives
    | none => exact halternatives.append (by decide)
  | array hnode hlabel =>
    exact .append (by decide) (hlabel.oneLine hnames
      (hlegible.label _ ⟨_, hnode, rfl, List.mem_singleton_self _⟩))

namespace Synthesis

variable {s : SynthesisState}

private theorem discover_oneLine [Spelling]
    (hid : g.Has id) (hint : String) (hs : s.registry.Plain) :
    Completes (discover g id hint) s fun name t => OneLine name ∧ s.registry.Keeps t.registry :=
  (discover_named hid hint).mono fun name _ ⟨hname, hkeeps⟩ =>
    ⟨(hkeeps.plain hs name (NameRegistry.mem_used_of_nameOf hname)).oneLine, hkeeps⟩

private theorem entries_clean [Spelling]
    {room : Nat} (above : List TypeId) (name : String) (fields : List Field) (hs : s.registry.Plain)
    (hkeys : ∀ field ∈ fields, StringBody (Naming.fieldName field.name).toList)
    (h : ∀ field ∈ fields, ∀ hint path {u : SynthesisState}, u.registry.Plain →
      Completes (sampleBelow g room above hint path field.type) u fun sample v =>
        sample.Clean ∧ u.registry.Keeps v.registry) :
    Completes (fields.mapM (entryBelow g room above name)) s fun entries t =>
      Sample.CleanEntries entries ∧ s.registry.Keeps t.registry := by
  have hall : Completes (fields.mapM (entryBelow g room above name)) s fun entries t =>
      (∀ entry ∈ entries, StringBody entry.1.toList ∧ entry.2.Clean) ∧
        s.registry.Keeps t.registry := by
    refine Ends.mapM (I := fun u => s.registry.Keeps u.registry) fields s (.refl _)
      fun field hfield u hu => ?_
    exact .bind (h field hfield _ _ (hu.plain hs)) fun sample v hv =>
      .pure ⟨⟨hkeys field hfield, hv.1⟩, hu.trans hv.2⟩
  exact hall.mono fun entries t ht => ⟨Sample.cleanEntries_of_forall ht.1, ht.2⟩

theorem sampleBelow_clean [Spelling]
    (hg : g.Closed) (room : Nat) (above : List TypeId) (hid : g.Has id)
    (hp : g.Printable id) (hint path : String) (hs : s.registry.Plain) :
    Completes (sampleBelow g room above hint path id) s fun sample t =>
      sample.Clean ∧ s.registry.Keeps t.registry := by
  induction room using Nat.strong_induction_on generalizing above id hint path s with
  | _ room ih =>
    by_cases hrecord : g.IsRecord id
    · have hnote {name : String} (hname : OneLine name) (tail : String) (htail : OneLine tail) :
          OneLine ("Model " ++ name ++ tail) := .append (.append (by decide) hname) htail
      by_cases habove : id ∈ above
      · rw [sampleBelow_recursive hrecord habove]
        exact .bind (discover_oneLine hid hint hs) fun name t ⟨hname, hkeeps⟩ =>
          .pure ⟨hnote hname _ (by decide), hkeeps⟩
      cases room with
      | zero =>
        rw [sampleBelow_cutOff hrecord habove]
        exact .bind (discover_oneLine hid hint hs) fun name t ⟨hname, hkeeps⟩ =>
          .pure ⟨hnote hname _ (by decide), hkeeps⟩
      | succ room =>
        rw [sampleBelow_block hrecord habove]
        refine .bind (discover_oneLine hid hint hs) fun name t ⟨hname, hkeeps⟩ => ?_
        refine .lift_bind (hg.allFields_ok hid).eqn fun fields ⟨hfields, htypes⟩ => ?_
        have hentries := entries_clean (id :: above) name fields (hkeeps.plain hs)
          (fun field hfield =>
            Naming.stringBody_fieldName (hp.legible.key fields hfields field hfield))
          fun field hfield hint path _ hu => ih room (Nat.lt_succ_self room) (id :: above)
            (htypes field hfield) (hp.field ⟨fields, hfields, field, hfield, rfl⟩) hint path hu
        exact .bind hentries fun entries u h => .pure ⟨⟨hname, h.1⟩, hkeeps.trans h.2⟩
    · refine (sampleBelow_shows hg hid hrecord room above hint path).mono ?_
      rintro _ t ⟨hkeeps, leaf, rfl, hshows⟩
      exact ⟨hshows.oneLine_note hp.legible (hkeeps.plain hs), hkeeps⟩

/-- The lines of a printable root, joined, are a JSON value apart from comments and trailing commas. -/
theorem synthesize_isText [Spelling] (hg : g.Closed) {root : TypeId} (hroot : g.Has root)
    (hp : g.Printable root) (maxDepth : Nat) (hint : String) (hs : s.registry.Plain) :
    ∃ lines t, synthesize g maxDepth hint root s = .ok lines t ∧
      IsText (strip (String.intercalate "\n" lines).toList) := by
  have hlines : Completes (synthesize g maxDepth hint root) s fun lines _ =>
      IsText (strip (String.intercalate "\n" lines).toList) :=
    .bind (sampleBelow_clean hg _ [] hroot hp hint hint hs) fun sample _ ⟨hclean, _⟩ =>
      .pure hclean.isText
  exact hlines.exists_ok

def moodGraph : TypeGraph := .ofList [
  .record (some "Pet") none [⟨"mood", ⟨1⟩⟩, ⟨"friend", ⟨0⟩⟩],
  .union none [⟨2⟩],
  .literal (.string "calm")]

attribute [local instance] Spelling.plain

private theorem moodGraph_printable : moodGraph.Printable ⟨0⟩ := by
  have hpet : moodGraph.allFields ⟨0⟩ = .ok [⟨"mood", ⟨1⟩⟩, ⟨"friend", ⟨0⟩⟩] := rfl
  have hmood : moodGraph.allFields ⟨1⟩ = .ok [] := rfl
  have hplain : ∀ field ∈ [Field.mk "mood" ⟨1⟩, ⟨"friend", ⟨0⟩⟩], StringBody field.name.toList := by
    simp only [List.forall_mem_cons]
    exact ⟨Sample.stringBody_of_unescaped (by decide), Sample.stringBody_of_unescaped (by decide), by simp⟩
  intro id hpath
  have hid : id = ⟨0⟩ ∨ id = ⟨1⟩ := by
    induction hpath with
    | refl => exact .inl rfl
    | tail _ hfield ih =>
      obtain ⟨fields, hfields, field, hmem, rfl⟩ := hfield
      rcases ih with rfl | rfl
      · cases hpet.symm.trans hfields
        simp only [List.mem_cons, List.not_mem_nil, or_false] at hmem
        rcases hmem with rfl | rfl <;> simp
      · cases hmood.symm.trans hfields
        cases hmem
  rcases hid with rfl | rfl
  · refine ⟨fun _ h => (nomatch h), fun _ h => (nomatch h), ?_, fun fields hfields field hmem _ => ?_⟩
    · rintro id' ⟨node, hnode, hother, -⟩
      cases hnode
      cases hother
    · cases hpet.symm.trans hfields
      exact hplain field hmem
  · refine ⟨fun _ h => (nomatch h), fun _ h => (nomatch h), ?_, fun fields hfields field hmem _ => ?_⟩
    · rintro id' ⟨node, hnode, -, hmem⟩ - text htext
      cases hnode
      obtain rfl : id' = ⟨2⟩ := List.mem_singleton.1 hmem
      cases htext
      decide
    · cases hmood.symm.trans hfields
      cases hmem

theorem moodGraph_isText :
    moodGraph.Closed ∧ moodGraph.Has ⟨0⟩ ∧ moodGraph.Printable ⟨0⟩ ∧
    SynthesisState.initial.registry.Plain ∧
    ∃ lines t, synthesize moodGraph 1 "Body" ⟨0⟩ .initial = .ok lines t ∧
      IsText (strip (String.intercalate "\n" lines).toList) := by
  have hclosed : moodGraph.Closed := by decide
  have hplain : SynthesisState.initial.registry.Plain := by
    simp [NameRegistry.Plain, SynthesisState.initial, NameRegistry.empty]
  have hroot : moodGraph.Has ⟨0⟩ := by decide
  exact ⟨hclosed, hroot, moodGraph_printable, hplain,
    synthesize_isText hclosed hroot moodGraph_printable 1 "Body" hplain⟩

def noteGraph : TypeGraph := .ofList [.union none [⟨1⟩], .literal (.string "a\nb")]

/-- The note on the union goes on to a second line, which is no comment. -/
theorem noteGraph_not_isText :
    noteGraph.Closed ∧ noteGraph.Has ⟨0⟩ ∧
    ∃ lines t, synthesize noteGraph 3 "Body" ⟨0⟩ .initial = .ok lines t ∧
      ¬IsText (strip (String.intercalate "\n" lines).toList) := by
  have hlast : (match synthesize noteGraph 3 "Body" ⟨0⟩ .initial with
      | .ok lines _ => (strip (String.intercalate "\n" lines).toList).getLast?
      | .error _ _ => none) = some 'b' := by
    decide +kernel
  have hclosed : noteGraph.Closed := by decide
  refine ⟨hclosed, by decide, ?_⟩
  split at hlast
  · next lines t hrun => exact ⟨lines, t, hrun, fun htext => absurd (htext.last hlast) (by decide)⟩
  · cases hlast

end Synthesis

end RequestDocs
