import Mender.Proofs.Source.Names
import Mender.Proofs.Source.Report

namespace Mender.Source

theorem firstUnknown_eq (known : List Text) (loads : List (Text × Position)) :
    firstUnknown known loads = firstByKey Prod.fst known loads := by
  induction loads generalizing known with
  | nil => rfl
  | cons p loads ih =>
    rw [firstUnknown, firstByKey, ih, ih]
    by_cases old : p.1 ∈ known
    · rw [if_pos old, if_pos old]
    · rw [if_neg old, if_neg old]

/-- The loads of names in the order of the walk. -/
def Tree.loadedNames (t : Tree) : List (Text × Position) := t.walk.filterMap fun s => s.form.loads?

theorem Tree.mem_loadedNames {t : Tree} {n : Text} {place : Position} :
    (n, place) ∈ t.loadedNames ↔ .name n .load place ∈ t.forms := by
  rw [loadedNames, List.mem_filterMap, exists_mem_walk (p := fun f => f.loads? = some (n, place))]
  simp only [Form.loads?_eq_some, exists_eq_right]

/-- The first load of each name that is unknown. -/
def Tree.missing (t : Tree) : List (Text × Position) :=
  firstByKey Prod.fst (t.boundNames ++ builtinNames) t.loadedNames

theorem unboundNames_eq (t : Tree) : unboundNames t = t.missing.map fun p => unboundDefect p.1 p.2 := by
  rw [unboundNames, firstUnknown_eq]
  rfl

section Tell

variable {t : Tree} {n : Text} {place : Position}

theorem Tree.nodup_missing (t : Tree) : (t.missing.map Prod.fst).Nodup := nodup_map_firstByKey _ _ _

theorem Tree.of_mem_missing (member : (n, place) ∈ t.missing) :
    Form.name n .load place ∈ t.forms ∧ n ∉ builtinNames ∧ n ∉ t.boundNames := by
  have unknown : n ∉ t.boundNames ++ builtinNames := notMem_of_mem_firstByKey member
  rw [List.mem_append, not_or] at unknown
  exact ⟨mem_loadedNames.mp (mem_of_mem_firstByKey member), unknown.2, unknown.1⟩

theorem Tree.exists_mem_missing :
    (∃ place, (n, place) ∈ t.missing) ↔ t.Loads n ∧ n ∉ builtinNames ∧ n ∉ t.boundNames := by
  constructor
  · rintro ⟨place, member⟩
    obtain ⟨load, unknown⟩ := of_mem_missing member
    exact ⟨⟨place, load⟩, unknown⟩
  · rintro ⟨⟨place, load⟩, builtin, bound⟩
    have unknown : n ∉ t.boundNames ++ builtinNames := by
      rw [List.mem_append, not_or]
      exact ⟨bound, builtin⟩
    have any : t.loadedNames.Pairwise fun _ _ => True := List.pairwise_of_forall fun _ _ => trivial
    obtain ⟨⟨n', place'⟩, kept, same, -⟩ := exists_mem_firstByKey Prod.fst any (mem_loadedNames.mpr load) unknown
    cases same
    exact ⟨place', kept⟩

theorem unboundDefect_mem_unboundNames : unboundDefect n place ∈ unboundNames t ↔ (n, place) ∈ t.missing := by
  rw [unboundNames_eq, List.mem_map]
  constructor
  · rintro ⟨⟨n', place'⟩, member, same⟩
    obtain ⟨rfl, rfl⟩ := unboundDefect_inj.mp same
    exact member
  · intro member
    exact ⟨_, member, rfl⟩

theorem nodup_message_unboundNames (t : Tree) : ((unboundNames t).map Defect.message).Nodup := by
  let message (n : Text) : Text := "Cannot find name '" ++ n ++ "'"
  have distinct : message.Injective := fun n n' same => List.append_cancel_left (List.append_cancel_right same)
  have messages : (unboundNames t).map Defect.message = (t.missing.map Prod.fst).map message := by
    rw [unboundNames_eq, List.map_map, List.map_map]
    rfl
  rw [messages]
  exact t.nodup_missing.map distinct

theorem Tree.notMem_boundNames_iff :
    n ∉ t.boundNames ↔ ∀ f ∈ t.forms, f.Binds n → f = .mapping (some n) := by
  rw [mem_boundNames]
  constructor
  · intro unbound f inside binds
    by_contra other
    exact unbound ⟨f, inside, binds, other⟩
  · rintro rests ⟨f, inside, binds, other⟩
    exact other (rests f inside binds)

end Tell

/-- Each name told to be missing is loaded there, is no builtin name, and is told once. -/
structure TellsLoads (t : Tree) (found : List Defect) : Prop where
  loaded : ∀ d ∈ underRule "missing-binding" found, ∃ n place, d = unboundDefect n place ∧
    Form.name n .load place ∈ t.forms ∧ n ∉ builtinNames
  once : ((underRule "missing-binding" found).map Defect.message).Nodup

/-- And nothing in the tree binds it. -/
structure TellsUnbound (t : Tree) (found : List Defect) : Prop extends TellsLoads t found where
  unbound : ∀ n place, unboundDefect n place ∈ found → ¬t.Binds n

/-- No other defect tells the same name. -/
theorem TellsLoads.alone {t : Tree} {front back : List Defect} {n : Text} {place : Position}
    (tells : TellsLoads t (front ++ unboundDefect n place :: back)) (other : Position) :
    unboundDefect n other ∉ front ++ back := by
  intro again
  have here : underRule "missing-binding" [unboundDefect n place] = [unboundDefect n place] :=
    underRule_self (List.forall_mem_singleton.mpr rfl)
  have once := tells.once
  rw [← List.singleton_append, underRule_append, underRule_append, here, List.singleton_append, List.map_append,
    List.map_cons, List.nodup_middle, List.nodup_cons, ← List.map_append, ← underRule_append] at once
  exact once.1 (List.mem_map.mpr ⟨_, mem_underRule.mpr ⟨again, rfl⟩, rfl⟩)

section Check

variable {blanks : Bool} {t : Tree} {text : Text} {found : List Defect}

theorem unboundDefect_mem_check (checked : check blanks (.tree t) text = .ok found) {n : Text} {place : Position} :
    unboundDefect n place ∈ found ↔ (n, place) ∈ t.missing := by
  rw [← unboundDefect_mem_unboundNames, ← (byPlace_perm (unboundNames t)).mem_iff, ← unbound_of_check checked,
    mem_underRule]
  exact (and_iff_left rfl).symm

theorem tellsLoads_of_check (checked : check blanks (.tree t) text = .ok found) : TellsLoads t found where
  loaded := by
    intro d member
    rw [unbound_of_check checked, (byPlace_perm _).mem_iff, unboundNames_eq] at member
    obtain ⟨⟨n, place⟩, missing, rfl⟩ := List.mem_map.mp member
    obtain ⟨load, builtin, -⟩ := Tree.of_mem_missing missing
    exact ⟨n, place, rfl, load, builtin⟩
  once := by
    rw [unbound_of_check checked, ((byPlace_perm _).map _).nodup_iff]
    exact nodup_message_unboundNames t

theorem exists_unboundDefect_mem_check (checked : check blanks (.tree t) text = .ok found) {n : Text} :
    (∃ place, unboundDefect n place ∈ found) ↔
      t.Loads n ∧ n ∉ builtinNames ∧ ∀ f ∈ t.forms, f.Binds n → f = .mapping (some n) := by
  rw [← Tree.notMem_boundNames_iff, ← Tree.exists_mem_missing]
  exact exists_congr fun place => unboundDefect_mem_check checked

end Check

/-- The report on a module tells exactly the names that are loaded, are no builtin names and have no binding but
rests of mapping patterns. So it tells none that is bound just when every name that is a rest and could be told has
another binding. -/
theorem check_tellsUnbound_iff (t : Tree) (blanks : Bool) (text : Text) :
    ∃ found, check blanks (.tree t) text = .ok found ∧ TellsLoads t found ∧
      (∀ n, (∃ place, unboundDefect n place ∈ found) ↔
        t.Loads n ∧ n ∉ builtinNames ∧ ∀ f ∈ t.forms, f.Binds n → f = .mapping (some n)) ∧
      (TellsUnbound t found ↔ ∀ n, t.Loads n → n ∉ builtinNames → Form.mapping (some n) ∈ t.forms →
        ∃ f ∈ t.forms, f.Binds n ∧ f ≠ .mapping (some n)) := by
  have checked := check_tree blanks t text
  have told := fun n => exists_unboundDefect_mem_check checked (n := n)
  refine ⟨_, checked, tellsLoads_of_check checked, told, ?_, ?_⟩
  · intro sound n loads builtin rest
    by_contra alone
    have rests : ∀ f ∈ t.forms, f.Binds n → f = .mapping (some n) := by
      intro f inside binds
      by_contra other
      exact alone ⟨f, inside, binds, other⟩
    obtain ⟨place, member⟩ := (told n).mpr ⟨loads, builtin, rests⟩
    exact sound.unbound n place member ⟨_, rest, .rest n⟩
  · intro others
    refine { tellsLoads_of_check checked with unbound := ?_ }
    rintro n place member ⟨f, inside, binds⟩
    obtain ⟨loads, builtin, rests⟩ := (told n).mp ⟨place, member⟩
    obtain ⟨g, inside', binds', other⟩ := others n loads builtin (rests f inside binds ▸ inside)
    exact other (rests g inside' binds')

def loadTree (n : Text) (place : Position) : Tree := .node (.name n .load place) [.node .other []]

/-- A match statement whose one pattern binds the rest of a mapping, which its body prints. -/
def restMatch : Tree :=
  let print := loadTree "print" (.behind 2 8)
  let rest := loadTree "rest" (.behind 2 14)
  let body := Tree.node .other [.node .other [print, rest]]
  .node .other [.node .other [.node .other [], .node .other [.node (.mapping (some "rest")) [], body]]]

theorem restMatch_told : ∃ found,
    check true (.tree restMatch) "match \x7b\x7d:\n    case \x7b**rest\x7d:\n        print(rest)\n" = .ok found ∧
      restMatch.Binds "rest" ∧ unboundDefect "rest" ⟨3, 15, by decide, by decide⟩ ∈ found ∧
      ¬TellsUnbound restMatch found := by
  have binds : restMatch.Binds "rest" := ⟨.mapping (some "rest"), by decide +kernel, .rest _⟩
  have told : ((("rest" : Text), ⟨3, 15, by decide, by decide⟩) : Text × Position) ∈ restMatch.missing := by
    decide +kernel
  have checked := check_tree true restMatch "match \x7b\x7d:\n    case \x7b**rest\x7d:\n        print(rest)\n"
  have member := (unboundDefect_mem_check checked).mpr told
  exact ⟨_, checked, binds, member, fun sound => sound.unbound _ _ member binds⟩

end Mender.Source
