import Mathlib.Data.List.Nodup
import Mathlib.Logic.Relation
import RequestDocs.Proofs.ModuleTrees
import RequestDocs.Proofs.ServiceFiles
/-!
# Forests of modules

Every module of a tree except the root is declared once, by a module created before it. Rendering
follows the declarations, so that it comes to every module once, and to a module before those below.
-/

namespace RequestDocs

open Relation

namespace Module

variable (m : Module) (d : Declaration)

theorem children_declaring (index : Nat) :
    (m.declaring index).children = m.children ++ [.node index] := by
  simp [declaring, children]

theorem children_own (h : isNested d = false) :
    ({ m with declarations := m.declarations ++ [d] } : Module).children = m.children := by
  cases d with
  | line | block => simp [children]
  | module => simp [isNested] at h

end Module

namespace ModuleTree

def declared (t : ModuleTree) : List ModuleId := t.modules.toList.flatMap Module.children

def Declares (t : ModuleTree) (p i : Nat) : Prop :=
  ∃ m, t.modules[p]? = some m ∧ .node i ∈ m.children

/-- Every module but the root is declared once, by an earlier one that its path leads through. -/
structure Forest (t : ModuleTree) : Prop where
  once : t.declared.Perm ((List.range' 1 (t.modules.size - 1)).map .node)
  parents : ∀ (p : Nat) (m : Module) (i : Nat), t.modules[p]? = some m → .node i ∈ m.children →
    p < i ∧ ∃ n, t.modules[i]? = some n ∧ n.path = m.path.enter [n.name]

variable {t : ModuleTree} {p q i j x y : Nat} {m n : Module}

private theorem exists_declared (hm : t.modules[i]? = some m) : ∃ before later, ∀ n,
    t.declared = before ++ m.children ++ later ∧ (t.set i n).declared = before ++ n.children ++ later := by
  have hi := lt_size hm
  have hset (n : Module) : (t.set i n).modules.toList =
      t.modules.toList.take i ++ n :: t.modules.toList.drop (i + 1) := by
    simp [set, List.set_eq_take_append_cons_drop, hi]
  have hdeclared (n : Module) : (t.set i n).declared = (t.modules.toList.take i).flatMap Module.children ++
      n.children ++ (t.modules.toList.drop (i + 1)).flatMap Module.children := by
    rw [declared, hset]
    simp
  refine ⟨_, _, fun n => ⟨?_, hdeclared n⟩⟩
  rw [← hdeclared, set_self hm]

theorem declared_set (hm : t.modules[i]? = some m) (hn : n.children = m.children) :
    (t.set i n).declared = t.declared := by
  obtain ⟨before, later, hdeclared⟩ := exists_declared hm
  rw [(hdeclared n).1, (hdeclared n).2, hn]

theorem declared_attached (hm : t.modules[i]? = some m) {child : Module} (hchild : child.children = []) :
    (t.attached i m child).declared.Perm (t.declared ++ [.node t.modules.size]) := by
  obtain ⟨before, later, hdeclared⟩ := exists_declared hm
  have hnew : (t.attached i m child).declared =
      (t.set i (m.declaring t.modules.size)).declared ++ child.children := by
    simp [declared, attached]
  rw [hnew, hchild, (hdeclared (m.declaring t.modules.size)).1,
    (hdeclared (m.declaring t.modules.size)).2, m.children_declaring]
  simp only [List.append_nil, List.append_assoc]
  exact (List.perm_append_comm.append_left _).append_left _

theorem empty_forest : empty.Forest where
  once := List.Perm.refl []
  parents p m i hm hi := by
    obtain ⟨-, rfl⟩ := empty_cases hm
    simp [Module.root, Module.fresh, Module.children] at hi

theorem Forest.set (h : t.Forest) (hm : t.modules[i]? = some m) (hname : n.name = m.name)
    (hpath : n.path = m.path) (hchildren : n.children = m.children) : (t.set i n).Forest where
  once := by
    rw [declared_set hm hchildren, size_set]
    exact h.once
  parents p m' j hm' hj := by
    have hplace : ∃ m, t.modules[p]? = some m ∧ m'.path = m.path ∧ m'.children = m.children := by
      rcases set_cases hm' with ⟨rfl, rfl⟩ | hm'
      · exact ⟨m, hm, hpath, hchildren⟩
      · exact ⟨m', hm', rfl, rfl⟩
    obtain ⟨parent, hparent, hpath', hchildren'⟩ := hplace
    rw [hchildren'] at hj
    obtain ⟨hlt, child, hchild, hentered⟩ := h.parents p parent j hparent hj
    refine ⟨hlt, ?_⟩
    by_cases hji : j = i
    · subst hji
      cases hm.symm.trans hchild
      refine ⟨n, getElem?_set_self (lt_size hm), ?_⟩
      rw [hpath, hname, hpath', hentered]
    · refine ⟨child, ?_, ?_⟩
      · rwa [getElem?_set_ne hji]
      · rw [hpath', hentered]

theorem Forest.attached (h : t.Forest) (hm : t.modules[i]? = some m) (name : String)
    (group extension : Option String) :
    (t.attached i m (.fresh name (m.path.enter [name]) group extension)).Forest where
  once := by
    have hsize : t.modules.size = t.modules.size - 1 + 1 := by
      have hi := lt_size hm
      omega
    have hplaces : (List.range' 1 (t.modules.size - 1 + 1)).map ModuleId.node =
        (List.range' 1 (t.modules.size - 1)).map .node ++ [.node t.modules.size] := by
      rw [List.range'_1_concat, List.map_append, Nat.add_comm 1, ← hsize]
      rfl
    rw [size_attached, Nat.add_sub_cancel]
    rw [hsize, hplaces]
    have hchild : (Module.fresh name (m.path.enter [name]) group extension).children = [] := rfl
    have hdeclared := declared_attached hm hchild
    exact hdeclared.trans (h.once.append_right _)
  parents p m' j hm' hj := by
    have hold {j : Nat} {n : Module} (hn : t.modules[j]? = some n) : ∃ n',
        (t.attached i m (.fresh name (m.path.enter [name]) group extension)).modules[j]? = some n' ∧
        n'.path = n.path ∧ n'.name = n.name := by
      rw [getElem?_attached_old (lt_size hn)]
      by_cases hji : j = i
      · subst hji
        cases hm.symm.trans hn
        exact ⟨_, getElem?_set_self (lt_size hm), rfl, rfl⟩
      · exact ⟨n, by rwa [getElem?_set_ne hji], rfl, rfl⟩
    have hdeclared (parent : Module) (hp : t.modules[p]? = some parent)
        (hj : .node j ∈ parent.children) : p < j ∧ ∃ n,
          (t.attached i m (.fresh name (m.path.enter [name]) group extension)).modules[j]? = some n ∧
          n.path = parent.path.enter [n.name] := by
      obtain ⟨hlt, n, hn, hpath⟩ := h.parents p parent j hp hj
      obtain ⟨n', hn', hpath', hname'⟩ := hold hn
      exact ⟨hlt, n', hn', by rw [hpath', hname', hpath]⟩
    rcases attached_cases hm' with ⟨-, rfl⟩ | ⟨rfl, rfl⟩ | hm'
    · simp [Module.fresh, Module.children] at hj
    · rw [m.children_declaring] at hj
      rcases List.mem_append.1 hj with hj | hj
      · exact hdeclared m hm hj
      · cases List.mem_singleton.1 hj
        exact ⟨lt_size hm, _, getElem?_attached_new, rfl⟩
    · exact hdeclared m' hm' hj

/-- The module stands before the other, depth first in the order of declaration: it is above it, or
both are at or below modules that one module declares in this order. -/
inductive Precedes (t : ModuleTree) : Nat → Nat → Prop
  | above {x y : Nat} (h : TransGen t.Declares x y) : Precedes t x y
  | beside {p a b x y : Nat} {m : Module} (hm : t.modules[p]? = some m)
      (h : [.node a, .node b].Sublist m.children) (hx : ReflTransGen t.Declares a x)
      (hy : ReflTransGen t.Declares b y) : Precedes t x y

namespace Forest

theorem nodup_declared (h : t.Forest) : t.declared.Nodup := by
  rw [h.once.nodup_iff]
  exact List.Nodup.map (fun _ _ => ModuleId.node.inj) (List.nodup_range' 1)

theorem lt (h : t.Forest) (hi : t.Declares p i) : p < i := by
  obtain ⟨m, hm, hi⟩ := hi
  exact (h.parents p m i hm hi).1

theorem le (h : t.Forest) (hx : ReflTransGen t.Declares p x) : p ≤ x := by
  induction hx with
  | refl => exact Nat.le_refl p
  | tail _ hlast ih => exact Nat.le_trans ih (Nat.le_of_lt (h.lt hlast))

theorem nodup_children (h : t.Forest) (hm : t.modules[p]? = some m) : m.children.Nodup := by
  have hmem : m ∈ t.modules.toList := List.mem_of_getElem? (by simpa using hm)
  exact (List.nodup_flatMap.1 h.nodup_declared).1 m hmem

theorem parent_unique (h : t.Forest) (hp : t.Declares p i) (hq : t.Declares q i) : p = q := by
  have hordered {p q : Nat} (hpq : p < q) (hp : t.Declares p i) (hq : t.Declares q i) : False := by
    obtain ⟨m, hm, hi⟩ := hp
    obtain ⟨n, hn, hi'⟩ := hq
    have hdisjoint := List.pairwise_iff_getElem.1 (List.nodup_flatMap.1 h.nodup_declared).2
    obtain ⟨hp, rfl⟩ := Array.getElem?_eq_some_iff.1 hm
    obtain ⟨hq, rfl⟩ := Array.getElem?_eq_some_iff.1 hn
    exact hdisjoint p q hp hq hpq hi hi'
  rcases Nat.lt_trichotomy p q with hlt | heq | hgt
  · exact (hordered hlt hp hq).elim
  · exact heq
  · exact (hordered hgt hq hp).elim

theorem above_total (h : t.Forest) (hx : ReflTransGen t.Declares p x)
    (hx' : ReflTransGen t.Declares q x) :
    ReflTransGen t.Declares p q ∨ ReflTransGen t.Declares q p := by
  have hunique : Relator.RightUnique (Function.swap t.Declares) := fun _ _ _ => h.parent_unique
  have htotal := ReflTransGen.total_of_right_unique hunique (reflTransGen_swap.2 hx)
    (reflTransGen_swap.2 hx')
  exact htotal.symm.imp reflTransGen_swap.1 reflTransGen_swap.1

theorem siblings_apart (h : t.Forest) (hi : t.Declares p i) (hj : t.Declares p j)
    (hx : ReflTransGen t.Declares i x) (hx' : ReflTransGen t.Declares j x) : i = j := by
  -- A way from one to the other would lead through their parent, which is above both.
  have hway {i j : Nat} (hi : t.Declares p i) (hj : t.Declares p j)
      (hij : ReflTransGen t.Declares i j) : i = j := by
    rcases hij.cases_tail with heq | ⟨q, hiq, hqj⟩
    · exact heq.symm
    · rw [h.parent_unique hqj hj] at hiq
      have hlt := h.lt hi
      have hle := h.le hiq
      omega
  rcases h.above_total hx hx' with hij | hji
  · exact hway hi hj hij
  · exact (hway hj hi hji).symm

theorem lt_of_above (h : t.Forest) (hxy : TransGen t.Declares x y) : x < y := by
  obtain ⟨z, hxz, hzy⟩ := TransGen.head'_iff.1 hxy
  exact Nat.lt_of_lt_of_le (h.lt hxz) (h.le hzy)

private theorem pair_apart (h : t.Forest) (hm : t.modules[p]? = some m)
    (hpair : [.node i, .node j].Sublist m.children) (hx : ReflTransGen t.Declares i x)
    (hx' : ReflTransGen t.Declares j x) : False := by
  have hi : t.Declares p i := ⟨m, hm, hpair.subset (by simp)⟩
  have hj : t.Declares p j := ⟨m, hm, hpair.subset (by simp)⟩
  have hnodup := (h.nodup_children hm).sublist hpair
  simp [h.siblings_apart hi hj hx hx'] at hnodup

private theorem pair_order (h : t.Forest) (hm : t.modules[p]? = some m)
    (hij : [.node i, .node j].Sublist m.children) : ¬[.node j, .node i].Sublist m.children := by
  intro hji
  have hsorted : m.children.Pairwise fun a b => m.children.idxOf a < m.children.idxOf b := by
    rw [List.pairwise_iff_getElem]
    intro k l hk hl hkl
    rwa [(h.nodup_children hm).idxOf_getElem, (h.nodup_children hm).idxOf_getElem]
  have hlt := hsorted.sublist hij
  have hgt := hsorted.sublist hji
  simp only [List.pairwise_pair] at hlt hgt
  omega

private theorem pairs_meet (h : t.Forest) {a b : Nat} (hm : t.modules[p]? = some m)
    (hpair : [.node a, .node b].Sublist m.children) (hax : ReflTransGen t.Declares a x)
    (hby : ReflTransGen t.Declares b y) (hpq : ReflTransGen t.Declares p q)
    (hqx : ReflTransGen t.Declares q x) (hqy : ReflTransGen t.Declares q y) : p = q := by
  rcases hpq.cases_head with heq | ⟨e, hpe, heq⟩
  · exact heq
  · -- Otherwise one child of the upper module would be above both, and so be each of the pair.
    have ha : t.Declares p a := ⟨m, hm, hpair.subset (by simp)⟩
    have hae := h.siblings_apart ha hpe hax (heq.trans hqx)
    rw [hae] at hpair
    exact (h.pair_apart hm hpair (heq.trans hqy) hby).elim

theorem precedes_asymm (h : t.Forest) (hxy : t.Precedes x y) : ¬t.Precedes y x := by
  intro hyx
  cases hxy with
  | above hxy =>
    cases hyx with
    | above hyx => exact Nat.lt_asymm (h.lt_of_above hxy) (h.lt_of_above hyx)
    | beside hm hpair hy hx => exact h.pair_apart hm hpair hy (hx.trans hxy.to_reflTransGen)
  | @beside p a b _ _ m hm hpair hx hy =>
    cases hyx with
    | above hyx => exact h.pair_apart hm hpair hx (hy.trans hyx.to_reflTransGen)
    | @beside q c d _ _ n hn hpair' hy' hx' =>
      have ha : t.Declares p a := ⟨m, hm, hpair.subset (by simp)⟩
      have hb : t.Declares p b := ⟨m, hm, hpair.subset (by simp)⟩
      have hc : t.Declares q c := ⟨n, hn, hpair'.subset (by simp)⟩
      have hd : t.Declares q d := ⟨n, hn, hpair'.subset (by simp)⟩
      have hpq : p = q := by
        rcases h.above_total (hx.head ha) (hx'.head hd) with hpq | hqp
        · exact h.pairs_meet hm hpair hx hy hpq (hx'.head hd) (hy'.head hc)
        · exact (h.pairs_meet hn hpair' hy' hx' hqp (hy.head hb) (hx.head ha)).symm
      subst hpq
      cases hm.symm.trans hn
      rw [h.siblings_apart hc hb hy' hy, h.siblings_apart hd ha hx' hx] at hpair'
      exact h.pair_order hm hpair hpair'

theorem below_root (h : t.Forest) (hx : x < t.modules.size) : ReflTransGen t.Declares 0 x := by
  induction x using Nat.strongRecOn with
  | _ x ih =>
    rcases Nat.eq_zero_or_pos x with rfl | hpos
    · exact .refl
    · have hmem : ModuleId.node x ∈ t.declared := by
        rw [h.once.mem_iff]
        simp only [List.mem_map, List.mem_range'_1]
        exact ⟨x, by omega, rfl⟩
      obtain ⟨m, hm, hx'⟩ := List.mem_flatMap.1 hmem
      obtain ⟨p, hp⟩ := List.getElem?_of_mem hm
      have hdeclares : t.Declares p x := ⟨m, by simpa using hp, hx'⟩
      have hlt := h.lt hdeclares
      exact (ih p hlt (by omega)).tail hdeclares

theorem count_declared (h : t.Forest) (hpos : 0 < i) (hi : i < t.modules.size) :
    t.declared.count (.node i) = 1 := by
  apply List.count_eq_one_of_mem h.nodup_declared
  rw [h.once.mem_iff]
  simp only [List.mem_map, List.mem_range'_1]
  exact ⟨i, by omega, rfl⟩

theorem exists_parent (h : t.Forest) (hpos : 0 < i) (hn : t.modules[i]? = some n) : ∃ p m, p < i ∧
    t.modules[p]? = some m ∧ .node i ∈ m.children ∧ n.path.segments = m.path.segments ++ [n.name] := by
  have hbelow := h.below_root (lt_size hn)
  rcases hbelow.cases_tail with heq | ⟨p, -, m, hm, hi⟩
  · omega
  · obtain ⟨hlt, n', hn', hpath⟩ := h.parents p m i hm hi
    cases hn.symm.trans hn'
    exact ⟨p, m, hlt, hm, hi, congrArg TreePath.segments hpath⟩

end Forest

/-- The module is a file: it has content and is not the root. -/
def HasFile (t : ModuleTree) (i : Nat) : Prop := i ≠ 0 ∧ ∃ m, t.modules[i]? = some m ∧ m.hasContent

def IsFileOf (t : ModuleTree) (i : Nat) (file : RenderedFile) : Prop :=
  ∃ m, t.modules[i]? = some m ∧ file.path = m.filePath ∧ t.contents (.node i) m = .ok file.contents

/-- The files are those of a module and of the modules below it, in the order of the modules. -/
structure RendersAt (t : ModuleTree) (root : Nat) (order : List Nat) (files : List RenderedFile) :
    Prop where
  files : List.Forall₂ t.IsFileOf order files
  mem_order : ∀ x, x ∈ order ↔ t.HasFile x ∧ ReflTransGen t.Declares root x
  sorted : order.Pairwise t.Precedes

private theorem ownFile_renders {addresses : String → Prop} (h : t.InRange addresses)
    (hm : t.modules[i]? = some m) : Succeeds (t.ownFile (.node i) m) fun files =>
      ∃ own : List Nat, List.Forall₂ t.IsFileOf own files ∧ (∀ x, x ∈ own ↔ x = i ∧ t.HasFile x) ∧
        own.Pairwise t.Precedes := by
  have hroot : ModuleId.node i = root ↔ i = 0 := ⟨ModuleId.node.inj, congrArg ModuleId.node⟩
  have hsame : t.HasFile i ↔ i ≠ 0 ∧ m.hasContent = true := by
    simp [HasFile, hm]
  unfold ownFile
  split
  · next hnone =>
    refine .pure ⟨[], .nil, fun x => ?_, .nil⟩
    simp only [List.not_mem_nil, false_iff, not_and]
    rintro rfl
    rw [hsame]
    simp only [Bool.or_eq_true, decide_eq_true_eq, hroot, Bool.not_eq_true'] at hnone
    rcases hnone with hnone | hnone <;> simp [hnone]
  · next hfile =>
    have hfile' : i ≠ 0 ∧ m.hasContent = true := by
      simpa [hroot] using hfile
    have hcontents := contents_ok ⟨i, lt_size hm, rfl⟩ (h.modules i m hm)
    refine .bind hcontents.eqn fun text ⟨htext, _⟩ => .pure ⟨[i], ?_, fun x => ?_, ?_⟩
    · exact .cons ⟨m, hm, rfl, htext⟩ .nil
    · rw [List.mem_singleton]
      constructor
      · rintro rfl
        exact ⟨rfl, hsame.2 hfile'⟩
      · exact And.left
    · exact List.pairwise_singleton _ _

private theorem children_render {ids : List ModuleId} {results : List (List RenderedFile)}
    (hm : t.modules[p]? = some m) (hsublist : ids.Sublist m.children)
    (h : List.Forall₂ (fun id files => ∃ i order, id = .node i ∧ t.RendersAt i order files) ids results) :
    ∃ order, List.Forall₂ t.IsFileOf order results.flatten ∧ order.Pairwise t.Precedes ∧
      ∀ x, x ∈ order ↔ t.HasFile x ∧ ∃ i, .node i ∈ ids ∧ ReflTransGen t.Declares i x := by
  induction h with
  | nil => exact ⟨[], .nil, .nil, by simp⟩
  | @cons id files ids results hfirst _ ih =>
    obtain ⟨i, order, rfl, hrenders⟩ := hfirst
    obtain ⟨orders, hfiles, hsorted, hmem⟩ := ih ((List.sublist_cons_self _ _).trans hsublist)
    refine ⟨order ++ orders, List.rel_append hrenders.files hfiles, ?_, fun x => ?_⟩
    · refine List.pairwise_append.2 ⟨hrenders.sorted, hsorted, fun x hx y hy => ?_⟩
      obtain ⟨-, j, hj, hy⟩ := (hmem y).1 hy
      have hpair : [ModuleId.node i, .node j].Sublist (.node i :: ids) :=
        (List.singleton_sublist.2 hj).cons_cons _
      exact .beside hm (hpair.trans hsublist) ((hrenders.mem_order x).1 hx).2 hy
    · rw [List.mem_append, hrenders.mem_order, hmem]
      simp [List.mem_cons, or_and_right, exists_or, and_or_left]

private theorem renderBelow_renders {addresses : String → Prop} (hrange : t.InRange addresses)
    (fuel : Nat) (hi : i < t.modules.size) (hfuel : t.modules.size < i + fuel) :
    Succeeds (t.renderBelow fuel (.node i)) fun files => ∃ order, t.RendersAt i order files := by
  induction fuel generalizing i with
  | zero => omega
  | succ fuel ih =>
    obtain ⟨m, hm⟩ : ∃ m, t.modules[i]? = some m := ⟨t.modules[i], by simp [hi]⟩
    rw [renderBelow_of_get (get_node hm)]
    refine .bind (ownFile_renders hrange hm) fun file ⟨own, hfile, hown, hownsorted⟩ => ?_
    have hchildren : Succeeds (m.children.mapM (t.renderBelow fuel)) (List.Forall₂ (fun id files =>
        ∃ i order, id = .node i ∧ t.RendersAt i order files) m.children) := by
      refine .mapM_forall₂ m.children fun id hid => ?_
      -- A child comes later, so that fewer modules are ahead of it.
      obtain ⟨j, hj, hlt, rfl⟩ := (hrange.modules i m hm).children id hid
      refine (ih hj (by omega)).mono fun files ⟨order, horder⟩ => ?_
      exact ⟨j, order, rfl, horder⟩
    refine .bind hchildren fun results hresults => .pure ?_
    obtain ⟨orders, hfiles, hsorted, hmem⟩ := children_render hm (List.Sublist.refl _) hresults
    refine ⟨own ++ orders, List.rel_append hfile hfiles, fun x => ?_, ?_⟩
    · rw [List.mem_append, hown, hmem, ReflTransGen.cases_head_iff]
      constructor
      · rintro (⟨rfl, hx⟩ | ⟨hx, j, hj, hjx⟩)
        · exact ⟨hx, .inl rfl⟩
        · exact ⟨hx, .inr ⟨j, ⟨m, hm, hj⟩, hjx⟩⟩
      · rintro ⟨hx, rfl | ⟨j, ⟨n, hn, hj⟩, hjx⟩⟩
        · exact .inl ⟨rfl, hx⟩
        · cases hm.symm.trans hn
          exact .inr ⟨hx, j, hj, hjx⟩
    · refine List.pairwise_append.2 ⟨hownsorted, hsorted, fun x hx y hy => ?_⟩
      obtain ⟨rfl, -⟩ := (hown x).1 hx
      obtain ⟨-, j, hj, hjy⟩ := (hmem y).1 hy
      exact .above (.head' ⟨m, hm, hj⟩ hjy)

/-- The files of a forest: one for each module that has one, depth first in the order of
declaration. -/
theorem Forest.renders {addresses : String → Prop} (h : t.Forest) (hrange : t.InRange addresses) :
    Succeeds t.render fun files => ∃ order : List Nat, order.Nodup ∧ (∀ x, x ∈ order ↔ t.HasFile x) ∧
      order.Pairwise t.Precedes ∧ List.Forall₂ t.IsFileOf order files := by
  have hsize : 0 < t.modules.size := by
    obtain ⟨j, m, hroot, hm, -⟩ := hrange.root
    cases hroot
    exact lt_size hm
  refine (renderBelow_renders hrange _ hsize (by omega)).mono fun files ⟨order, horder⟩ => ?_
  have hnodup : order.Nodup := by
    refine horder.sorted.imp fun hxy heq => ?_
    subst heq
    exact h.precedes_asymm hxy hxy
  refine ⟨order, hnodup, fun x => ?_, horder.sorted, horder.files⟩
  rw [horder.mem_order]
  constructor
  · exact And.left
  · intro hx
    have hx' := hx
    obtain ⟨-, m, hm, -⟩ := hx'
    exact ⟨hx, h.below_root (lt_size hm)⟩

end ModuleTree

end RequestDocs
