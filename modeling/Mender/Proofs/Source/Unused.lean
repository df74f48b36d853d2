import Mender.Proofs.Source.Names
import Mender.Proofs.Source.Report

namespace Mender.Source

/-- A name in an import, with what is imported from, where the import stands, and the new name. -/
structure ImportedName where
  origin : Option Text
  place : Position
  dotted : Text
  renamed : Option Text

namespace ImportedName

def bound (a : ImportedName) : Text := Form.aliasName a.dotted a.renamed

def IsStar (a : ImportedName) : Prop := a.dotted = "*"

/-- A name from here is a feature, which its import turns on. -/
def IsFeature (a : ImportedName) : Prop := a.origin = some "__future__"

def defect (a : ImportedName) : Defect := unusedDefect a.bound a.place

instance (a : ImportedName) : Decidable a.IsStar := inferInstanceAs (Decidable (_ = _))

instance (a : ImportedName) : Decidable a.IsFeature := inferInstanceAs (Decidable (_ = _))

/-- What is known to be bound by it, and where. -/
def known? (a : ImportedName) : Option (Text × Position) := if a.IsStar then none else some (a.bound, a.place)

end ImportedName

namespace Tree

def importedHere : Tree → List ImportedName
  | node (.importing origin place) aliases =>
    aliases.filterMap fun s =>
      match s.form with
      | .alias dotted renamed => some ⟨origin, place, dotted, renamed⟩
      | _ => none
  | _ => []

def importedNames (t : Tree) : List ImportedName := t.nodes.flatMap importedHere

/-- The name is not the star, and the tree does not use what it binds. -/
def Idle (t : Tree) (a : ImportedName) : Prop := ¬a.IsStar ∧ ¬t.Uses a.bound

instance (t : Tree) (a : ImportedName) : Decidable (t.Idle a) := inferInstanceAs (Decidable (_ ∧ _))

theorem imported_eq (s : Tree) : s.imported = s.importedHere.filterMap ImportedName.known? := by
  obtain ⟨f, ts⟩ := s
  cases f with
  | importing origin place =>
    rw [imported, importedHere, List.filterMap_filterMap]
    refine List.filterMap_congr fun s _ => ?_
    cases s.form <;> rfl
  | _ => rfl

end Tree

theorem unusedImports_eq (t : Tree) : unusedImports t =
    ((t.walk.flatMap Tree.importedHere).filter fun a => t.Idle a).map ImportedName.defect := by
  have known : t.walk.flatMap Tree.imported = (t.walk.flatMap Tree.importedHere).filterMap ImportedName.known? := by
    rw [List.filterMap_flatMap]
    exact List.flatMap_congr fun s _ => s.imported_eq
  rw [unusedImports, known]
  induction t.walk.flatMap Tree.importedHere with
  | nil => rfl
  | cons a names ih =>
    by_cases star : a.IsStar
    · have none : a.known? = none := if_pos star
      have busy : ¬t.Idle a := fun idle => idle.1 star
      rw [List.filterMap_cons_none none, List.filter_cons_of_neg (by simpa using busy), ih]
    · have some : a.known? = some (a.bound, a.place) := if_neg star
      rw [List.filterMap_cons_some some]
      by_cases used : t.Uses a.bound
      · have busy : ¬t.Idle a := fun idle => idle.2 used
        rw [List.filter_cons_of_neg (by simpa using Tree.mem_usedNames.mpr used),
          List.filter_cons_of_neg (by simpa using busy), ih]
      · have idle : t.Idle a := ⟨star, used⟩
        rw [List.filter_cons_of_pos (by simpa using mt Tree.mem_usedNames.mp used),
          List.filter_cons_of_pos (by simpa using idle), List.map_cons, List.map_cons, ih]
        rfl

/-- The defects of the names that are imported and idle, as often as they stand in the tree. -/
theorem unusedImports_perm (t : Tree) :
    (unusedImports t).Perm ((t.importedNames.filter fun a => t.Idle a).map ImportedName.defect) := by
  rw [unusedImports_eq]
  exact ((t.walk_perm_nodes.flatMap_right _).filter _).map _

/-- The names told to be unused are the idle ones, as often as they are imported, but for features. -/
def TellsUnused (t : Tree) (found : List Defect) : Prop :=
  (underRule "unused-binding" found).Perm
    ((t.importedNames.filter fun a => t.Idle a ∧ ¬a.IsFeature).map ImportedName.defect)

instance (t : Tree) (found : List Defect) : Decidable (TellsUnused t found) :=
  inferInstanceAs (Decidable (List.Perm _ _))

/-- A name that is told to be unused is not used. -/
theorem not_uses_of_mem_unusedImports {t : Tree} {n : Text} {place : Position}
    (member : unusedDefect n place ∈ unusedImports t) : ¬t.Uses n := by
  rw [(unusedImports_perm t).mem_iff] at member
  obtain ⟨a, told, same⟩ := List.mem_map.mp member
  obtain ⟨rfl, rfl⟩ := unusedDefect_inj.mp same
  have idle : t.Idle a := of_decide_eq_true (List.mem_filter.mp told).2
  exact idle.2

theorem unused_of_check_perm {blanks : Bool} {t : Tree} {text : Text} {found : List Defect}
    (checked : check blanks (.tree t) text = .ok found) :
    (underRule "unused-binding" found).Perm ((t.importedNames.filter fun a => t.Idle a).map ImportedName.defect) := by
  rw [unused_of_check checked]
  exact (byPlace_perm _).trans (unusedImports_perm t)

/-- The report on a module tells exactly the idle names of its imports. So it tells no feature just when none is
idle. -/
theorem check_tellsUnused_iff (t : Tree) (blanks : Bool) (text : Text) :
    ∃ found, check blanks (.tree t) text = .ok found ∧
      (underRule "unused-binding" found).Perm ((t.importedNames.filter fun a => t.Idle a).map ImportedName.defect) ∧
      (TellsUnused t found ↔ ∀ a ∈ t.importedNames, t.Idle a → ¬a.IsFeature) := by
  have checked := check_tree blanks t text
  have told := unused_of_check_perm checked
  have apart : (t.importedNames.filter fun a => t.Idle a ∧ ¬a.IsFeature) =
      (t.importedNames.filter fun a => t.Idle a).filter fun a => ¬a.IsFeature := by
    rw [List.filter_filter]
    exact List.filter_congr fun a _ => by simp [and_comm]
  refine ⟨_, checked, told, ?_, ?_⟩
  · intro tells a member idle
    have length := (told.symm.trans tells).length_eq
    rw [apart, List.length_map, List.length_map] at length
    have plain := List.length_filter_eq_length_iff.mp length.symm
    exact of_decide_eq_true (plain a (List.mem_filter.mpr ⟨member, decide_eq_true idle⟩))
  · intro plain
    have all : ((t.importedNames.filter fun a => t.Idle a).filter fun a => ¬a.IsFeature) =
        t.importedNames.filter fun a => t.Idle a := by
      refine List.filter_eq_self.mpr fun a kept => decide_eq_true ?_
      obtain ⟨member, idle⟩ := List.mem_filter.mp kept
      exact plain a member (of_decide_eq_true idle)
    rwa [TellsUnused, apart, all]

/-- An import of names, with or without new ones. -/
def importStatement (origin : Option Text) (place : Position) (aliases : List (Text × Option Text)) : Tree :=
  .node (.importing origin place) (aliases.map fun a => .node (.alias a.1 a.2) [])

/-- A module that turns on a feature. -/
def featureModule : Tree :=
  .node .other [importStatement (some "__future__") .textStart [("annotations", none)]]

theorem featureModule_told : ∃ found,
    check true (.tree featureModule) "from __future__ import annotations\n" = .ok found ∧
      found = [unusedDefect "annotations" .textStart] ∧ ¬TellsUnused featureModule found :=
  ⟨_, rfl, by decide +kernel, by decide +kernel⟩

end Mender.Source
