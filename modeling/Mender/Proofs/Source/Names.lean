import Mathlib.Data.List.Induction
import Mathlib.Data.List.TakeWhile
import Mender.Source.Names
import Mender.Proofs.Source.Walk

namespace Mender

/-- The text is the part of a dotted name in front of the first point. -/
def Text.IsFirstPart (first dotted : Text) : Prop :=
  CodePoint.ofChar '.' ∉ first ∧ (dotted = first ∨ ∃ rest, dotted = first ++ CodePoint.ofChar '.' :: rest)

theorem Text.isFirstPart_iff {first dotted : Text} : first.IsFirstPart dotted ↔ dotted.before '.' = first := by
  have pass {t : Text} (plain : CodePoint.ofChar '.' ∉ t) : ∀ c ∈ t, (c != CodePoint.ofChar '.') = true :=
    fun c member => bne_iff_ne.mpr fun here => plain (here ▸ member)
  constructor
  · rintro ⟨plain, rfl | ⟨rest, rfl⟩⟩
    · exact List.takeWhile_eq_self_iff.mpr (pass plain)
    · rw [before, List.takeWhile_append_of_pos (pass plain)]
      simp
  · rintro rfl
    refine ⟨fun member => ?_, ?_⟩
    · simpa using List.mem_takeWhile_imp member
    · have parts : dotted.before '.' ++ dotted.dropWhile (· != CodePoint.ofChar '.') = dotted :=
        List.takeWhile_append_dropWhile
      cases rest : dotted.dropWhile (· != CodePoint.ofChar '.') with
      | nil =>
        rw [rest, List.append_nil] at parts
        exact Or.inl parts.symm
      | cons c rest' =>
        have stop := List.head?_dropWhile_not (· != CodePoint.ofChar '.') dotted
        rw [rest] at stop parts
        have point : c = CodePoint.ofChar '.' := by simpa using stop
        exact Or.inr ⟨rest', (point ▸ parts).symm⟩

namespace Source

namespace Form

inductive Binds : Form → Text → Prop
  | stored (n place) : Binds (.name n .store place) n
  | defined (n) : Binds (.definition n) n
  | given (n) : Binds (.parameter n) n
  | renamed (dotted n) : Binds (.alias dotted (some n)) n
  | imported {dotted n} (first : n.IsFirstPart dotted) : Binds (.alias dotted none) n
  | caught (n) : Binds (.handler (some n)) n
  | declared {names n} (listed : n ∈ names) : Binds (.scope names) n
  | captured (n) : Binds (.capture (some n)) n
  | rest (n) : Binds (.mapping (some n)) n

/-- The names that are collected are the ones that a node binds, but for the rest of a mapping pattern. -/
theorem mem_binds {f : Form} {n : Text} : n ∈ f.binds ↔ f.Binds n ∧ f ≠ .mapping (some n) := by
  constructor
  · intro member
    match f, member with
    | .name _ .store place, member =>
      cases List.mem_singleton.mp member
      exact ⟨.stored n place, nofun⟩
    | .definition _, member =>
      cases List.mem_singleton.mp member
      exact ⟨.defined n, nofun⟩
    | .parameter _, member =>
      cases List.mem_singleton.mp member
      exact ⟨.given n, nofun⟩
    | .alias dotted (some _), member =>
      cases List.mem_singleton.mp member
      exact ⟨.renamed dotted _, nofun⟩
    | .alias _ none, member =>
      cases List.mem_singleton.mp member
      exact ⟨.imported (Text.isFirstPart_iff.mpr rfl), nofun⟩
    | .handler _, member =>
      cases Option.mem_toList.mp member
      exact ⟨.caught n, nofun⟩
    | .scope _, member => exact ⟨.declared member, nofun⟩
    | .capture _, member =>
      cases Option.mem_toList.mp member
      exact ⟨.captured n, nofun⟩
    | .name _ .load _, member | .name _ .delete _, member | .importing _ _, member | .mapping _, member
    | .assignment, member | .word _, member | .other, member => cases member
  · rintro ⟨binds, collected⟩
    cases binds with
    | stored | defined | given | renamed => exact List.mem_singleton_self n
    | imported first => exact List.mem_singleton.mpr (Text.isFirstPart_iff.mp first).symm
    | caught | captured => exact Option.mem_toList.mpr rfl
    | declared listed => exact listed
    | rest => exact (collected rfl).elim

theorem loads?_eq_some {f : Form} {n : Text} {place : Position} :
    f.loads? = some (n, place) ↔ f = .name n .load place := by
  constructor
  · intro loads
    unfold loads? at loads
    split at loads <;> cases loads
    rfl
  · rintro rfl
    rfl

def word? : Form → Option Text
  | .word value => some value
  | _ => none

theorem word?_eq_some {f : Form} {n : Text} : f.word? = some n ↔ f = .word n := by
  constructor
  · intro word
    unfold word? at word
    split at word <;> cases word
    rfl
  · rintro rfl
    rfl

end Form

namespace Tree

/-- A node somewhere in the tree binds the name. -/
def Binds (t : Tree) (n : Text) : Prop := ∃ f ∈ t.forms, f.Binds n

def Loads (t : Tree) (n : Text) : Prop := ∃ place, Form.name n .load place ∈ t.forms

/-- The tree uses a name: it is loaded or deleted somewhere, or it is a word anywhere in the value of an assignment
that has the list of exports among its targets. -/
inductive Uses (t : Tree) (n : Text) : Prop
  | loaded {place} (load : Form.name n .load place ∈ t.forms)
  | deleted {place} (delete : Form.name n .delete place ∈ t.forms)
  | exported {targets value target use place} (assigned : node .assignment (targets ++ [value]) ∈ t.nodes)
      (listed : target ∈ targets) (exports : target.form = .name "__all__" use place)
      (word : Form.word n ∈ value.forms)

theorem mem_boundNames_iff_forms {t : Tree} {n : Text} : n ∈ t.boundNames ↔ ∃ f ∈ t.forms, n ∈ f.binds := by
  rw [boundNames, List.mem_flatMap, exists_mem_walk (p := fun f => n ∈ f.binds)]

/-- Every form that binds a name is seen but the rest of a mapping. -/
theorem mem_boundNames {t : Tree} {n : Text} :
    n ∈ t.boundNames ↔ ∃ f ∈ t.forms, f.Binds n ∧ f ≠ .mapping (some n) := by
  rw [mem_boundNames_iff_forms]
  exact exists_congr fun f => and_congr_right fun _ => Form.mem_binds

theorem isExportList_iff {t : Tree} : t.isExportList ↔ ∃ use place, t.form = .name "__all__" use place := by
  constructor
  · intro exports
    unfold isExportList at exports
    split at exports
    next n use place _ =>
      rw [of_decide_eq_true exports]
      exact ⟨use, place, rfl⟩
    next => cases exports
  · rintro ⟨use, place, form⟩
    cases t with
    | node f ts =>
      cases form
      simp [isExportList]

theorem exported_assignment (targets : List Tree) (value : Tree) :
    (node .assignment (targets ++ [value])).exported =
      if targets.any isExportList then value.walk.filterMap fun s => s.form.word? else [] := by
  rw [exported, List.dropLast_concat, List.getLast?_concat, Option.toList_some, List.flatMap_singleton]
  rfl

theorem exported_of_ne {f : Form} (other : f ≠ .assignment) (ts : List Tree) : (node f ts).exported = [] := by
  unfold exported
  split
  next equal =>
    cases equal
    exact (other rfl).elim
  next => rfl

theorem mem_words {t : Tree} {n : Text} : (n ∈ t.walk.filterMap fun s => s.form.word?) ↔ .word n ∈ t.forms := by
  rw [List.mem_filterMap, exists_mem_walk (p := fun f => f.word? = some n)]
  simp only [Form.word?_eq_some, exists_eq_right]

/-- The words that an assignment exports. -/
theorem mem_exported {t : Tree} {n : Text} :
    n ∈ t.exported ↔ ∃ targets value, t = node .assignment (targets ++ [value]) ∧
      (∃ target ∈ targets, target.isExportList) ∧ .word n ∈ value.forms := by
  constructor
  · intro member
    cases t with
    | node f ts =>
      by_cases assigns : f = .assignment
      · cases assigns
        cases ts using List.reverseRecOn with
        | nil => cases member
        | append_singleton targets value =>
          rw [exported_assignment, List.mem_ite_nil_right] at member
          exact ⟨targets, value, rfl, List.any_eq_true.mp member.1, mem_words.mp member.2⟩
      · rw [exported_of_ne assigns] at member
        cases member
  · rintro ⟨targets, value, rfl, exports, word⟩
    rw [exported_assignment, List.mem_ite_nil_right]
    exact ⟨List.any_eq_true.mpr exports, mem_words.mpr word⟩

/-- A node uses a name by loading it, deleting it or exporting it. -/
theorem mem_uses {t : Tree} {n : Text} :
    n ∈ t.uses ↔ (∃ place, t.form = .name n .load place) ∨ (∃ place, t.form = .name n .delete place) ∨
      n ∈ t.exported := by
  obtain ⟨f, ts⟩ := t
  match f with
  | .name id .load place | .name id .delete place | .name id .store place => simp [uses, form, exported, eq_comm]
  | .definition _ | .parameter _ | .importing _ _ | .alias _ _ | .handler _ | .scope _ | .capture _ | .mapping _
  | .assignment | .word _ | .other => simp [uses, form]

theorem mem_usedNames {t : Tree} {n : Text} : n ∈ t.usedNames ↔ t.Uses n := by
  rw [usedNames, List.mem_flatMap]
  constructor
  · rintro ⟨s, met, used⟩
    have inside : s.form ∈ t.forms := mem_forms.mpr ⟨s, mem_walk.mp met, rfl⟩
    obtain ⟨place, load⟩ | ⟨place, delete⟩ | exported := mem_uses.mp used
    · exact .loaded (load ▸ inside)
    · exact .deleted (delete ▸ inside)
    · obtain ⟨targets, value, rfl, ⟨target, listed, exports⟩, word⟩ := mem_exported.mp exported
      obtain ⟨use, place, form⟩ := isExportList_iff.mp exports
      exact .exported (mem_walk.mp met) listed form word
  · intro uses
    cases uses with
    | loaded load =>
      obtain ⟨s, met, form⟩ := mem_forms.mp load
      exact ⟨s, mem_walk.mpr met, mem_uses.mpr (.inl ⟨_, form⟩)⟩
    | deleted delete =>
      obtain ⟨s, met, form⟩ := mem_forms.mp delete
      exact ⟨s, mem_walk.mpr met, mem_uses.mpr (.inr (.inl ⟨_, form⟩))⟩
    | exported assigned listed exports word =>
      have member := mem_exported.mpr ⟨_, _, rfl, ⟨_, listed, isExportList_iff.mpr ⟨_, _, exports⟩⟩, word⟩
      exact ⟨_, mem_walk.mpr assigned, mem_uses.mpr (.inr (.inr member))⟩

/-- What a tree uses is used by its root or below. -/
theorem mem_usedNames_node {f : Form} {ts : List Tree} {n : Text} :
    n ∈ (node f ts).usedNames ↔ n ∈ (node f ts).uses ∨ ∃ t ∈ ts, n ∈ t.usedNames := by
  have below : ∀ t : Tree, n ∈ t.usedNames ↔ ∃ s ∈ t.nodes, n ∈ s.uses := by
    intro t
    rw [usedNames, List.mem_flatMap]
    exact exists_congr fun s => and_congr_left fun _ => mem_walk
  rw [below, nodes_node, List.exists_mem_cons_iff]
  refine or_congr_right ?_
  constructor
  · rintro ⟨s, member, used⟩
    obtain ⟨t, child, inside⟩ := List.mem_flatMap.mp member
    exact ⟨t, child, (below t).mpr ⟨s, inside, used⟩⟩
  · rintro ⟨t, child, used⟩
    obtain ⟨s, inside, used⟩ := (below t).mp used
    exact ⟨s, List.mem_flatMap.mpr ⟨t, child, inside⟩, used⟩

theorem uses_of_ne {f : Form} (other : f ≠ .assignment) (ts us : List Tree) : (node f ts).uses = (node f us).uses := by
  unfold uses
  rw [exported_of_ne other, exported_of_ne other]
  rfl

theorem isExportList_congr {t u : Tree} (alike : t.form = u.form) : t.isExportList = u.isExportList := by
  obtain ⟨f, ts⟩ := t
  obtain ⟨g, us⟩ := u
  cases alike
  cases f <;> rfl

/-- What an assignment exports depends on the forms of its targets and on the words in its value. -/
theorem mem_exported_congr {t u : Tree} (alike : t.form = u.form)
    (words : ∀ n, Form.word n ∈ t.forms ↔ Form.word n ∈ u.forms) (before after : List Tree) {n : Text} :
    n ∈ (node .assignment (before ++ t :: after)).exported ↔
      n ∈ (node .assignment (before ++ u :: after)).exported := by
  cases after using List.reverseRecOn with
  | nil =>
    rw [exported_assignment, exported_assignment, List.mem_ite_nil_right, List.mem_ite_nil_right, mem_words, mem_words,
      words n]
  | append_singleton after value =>
    have same : (before ++ t :: after).any isExportList = (before ++ u :: after).any isExportList := by
      rw [List.any_append, List.any_append, List.any_cons, List.any_cons, isExportList_congr alike]
    rw [← List.cons_append, ← List.cons_append, ← List.append_assoc, ← List.append_assoc, exported_assignment,
      exported_assignment, same]

instance (t : Tree) (n : Text) : Decidable (t.Uses n) := decidable_of_iff _ mem_usedNames

end Tree

end Source

end Mender
