import Mathlib.Data.List.Perm.Basic
import Mender.Source.Tree

namespace Mender.Source

namespace Tree

open scoped List

/-- A property of all trees is proved of a node from what holds of its children. -/
@[elab_as_elim, induction_eliminator]
theorem induction {motive : Tree → Prop} (node : ∀ f ts, (∀ t ∈ ts, motive t) → motive (node f ts)) (t : Tree) :
    motive t :=
  @Tree.rec motive (fun ts => ∀ t ∈ ts, motive t) node (List.forall_mem_nil _)
    (fun _ _ here later => List.forall_mem_cons.mpr ⟨here, later⟩) t

section Rows

variable {α β : Type}

@[simp] theorem besideLevels_nil (left : List (List α)) : besideLevels left [] = left := by
  cases left <;> rfl

@[simp] theorem nil_besideLevels (right : List (List α)) : besideLevels [] right = right := by
  cases right <;> rfl

theorem besideLevels_assoc (a b c : List (List α)) :
    besideLevels (besideLevels a b) c = besideLevels a (besideLevels b c) := by
  induction a generalizing b c with
  | nil => simp
  | cons row a ih =>
    cases b with
    | nil => simp
    | cons row' b =>
      cases c with
      | nil => simp
      | cons row'' c => simp [besideLevels, ih]

theorem map_besideLevels {g : List α → List β} (append : ∀ l m, g (l ++ m) = g l ++ g m)
    (left right : List (List α)) : (besideLevels left right).map g = besideLevels (left.map g) (right.map g) := by
  induction left generalizing right with
  | nil => simp
  | cons row left ih =>
    cases right with
    | nil => simp
    | cons row' right => simp [besideLevels, ih, append]

theorem map_flatMap_besideLevels (g : α → List β) (left right : List (List α)) :
    (besideLevels left right).map (List.flatMap g) =
      besideLevels (left.map (List.flatMap g)) (right.map (List.flatMap g)) :=
  map_besideLevels (fun _ _ => List.flatMap_append) left right

theorem flatten_besideLevels (left right : List (List α)) :
    (besideLevels left right).flatten.Perm (left.flatten ++ right.flatten) := by
  induction left generalizing right with
  | nil => simp
  | cons row left ih =>
    cases right with
    | nil => simp
    | cons row' right =>
      rw [besideLevels, List.flatten_cons, List.flatten_cons, List.flatten_cons, List.append_assoc, List.append_assoc]
      refine List.Perm.append_left row ?_
      calc row' ++ (besideLevels left right).flatten
        _ ~ row' ++ (left.flatten ++ right.flatten) := (ih right).append_left row'
        _ ~ left.flatten ++ (row' ++ right.flatten) := List.perm_append_comm_assoc _ _ _

end Rows

theorem forestLevels_append (ts us : List Tree) :
    forestLevels (ts ++ us) = besideLevels (forestLevels ts) (forestLevels us) := by
  induction ts with
  | nil => rw [List.nil_append, forestLevels, nil_besideLevels]
  | cons t ts ih => rw [List.cons_append, forestLevels, forestLevels, ih, besideLevels_assoc]

mutual

/-- The nodes of a tree, each before what stands below it. -/
def nodes : Tree → List Tree
  | node f ts => node f ts :: forestNodes ts

/-- The nodes of a row of trees, one tree after the other. -/
def forestNodes : List Tree → List Tree
  | [] => []
  | t :: ts => nodes t ++ forestNodes ts

end

theorem forestNodes_eq_flatMap (ts : List Tree) : forestNodes ts = ts.flatMap nodes := by
  induction ts with
  | nil => rfl
  | cons t ts ih => rw [forestNodes, ih, List.flatMap_cons]

theorem nodes_node (f : Form) (ts : List Tree) : (node f ts).nodes = node f ts :: ts.flatMap nodes := by
  rw [nodes, forestNodes_eq_flatMap]

theorem mem_nodes_self (t : Tree) : t ∈ t.nodes := by
  cases t
  rw [nodes]
  exact List.mem_cons_self

/-- The walk meets every node of the tree as often as it stands there. -/
theorem walk_perm_nodes (t : Tree) : t.walk.Perm t.nodes := by
  induction t with
  | node f ts ih =>
    have forest : (forestLevels ts).flatten.Perm (ts.flatMap nodes) := by
      induction ts with
      | nil => exact .nil
      | cons t ts later =>
        obtain ⟨first, rest⟩ := List.forall_mem_cons.mp ih
        exact (flatten_besideLevels _ _).trans (first.append (later rest))
    rw [walk, levels, nodes_node]
    exact forest.cons _

theorem mem_walk {s t : Tree} : s ∈ t.walk ↔ s ∈ t.nodes := t.walk_perm_nodes.mem_iff

theorem forestLevels_perm (ts : List Tree) : (forestLevels ts).flatten.Perm (ts.flatMap nodes) := by
  have whole := (node .other ts).walk_perm_nodes
  rw [walk, levels, nodes_node] at whole
  exact whole.cons_inv

/-- What is read off the nodes one by one is read off the rows. -/
theorem flatMap_rows {α β : Type} (g : α → List β) (rows : List (List α)) :
    (rows.map (List.flatMap g)).flatten = rows.flatten.flatMap g := by
  induction rows with
  | nil => rfl
  | cons row rows ih => rw [List.map_cons, List.flatten_cons, List.flatten_cons, List.flatMap_append, ih]

def forms (t : Tree) : List Form := t.nodes.map form

theorem forms_node (f : Form) (ts : List Tree) : (node f ts).forms = f :: ts.flatMap forms := by
  rw [forms, nodes_node, List.map_cons, List.map_flatMap]
  rfl

theorem mem_forms {t : Tree} {f : Form} : f ∈ t.forms ↔ ∃ s ∈ t.nodes, s.form = f := List.mem_map

/-- What holds of the form of a node that the walk meets holds of a form in the tree. -/
theorem exists_mem_walk {t : Tree} {p : Form → Prop} : (∃ s ∈ t.walk, p s.form) ↔ ∃ f ∈ t.forms, p f := by
  constructor
  · rintro ⟨s, met, holds⟩
    exact ⟨s.form, mem_forms.mpr ⟨s, mem_walk.mp met, rfl⟩, holds⟩
  · rintro ⟨f, inside, holds⟩
    obtain ⟨s, met, rfl⟩ := mem_forms.mp inside
    exact ⟨s, mem_walk.mpr met, holds⟩

end Tree

end Mender.Source
