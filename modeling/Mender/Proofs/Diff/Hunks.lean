import Mender.Proofs.Diff.Pieces

namespace Mender.Diff

/-- The hunks after an open one, which are cut where a run that stayed the same is long. -/
inductive Hunked : Nat → Nat → Hunk → List (Piece Text) → List Hunk → Prop
  | ended {i j h} : Hunked i j h [] [h]
  | last {i j h items} : Hunked i j h [.same items] [h.add (.same (items.take context))]
  | cut {i j h items ps hs} : 2 * context < items.length →
      Hunked (i + items.length) (j + items.length)
        ⟨i + items.length - context, j + items.length - context, [.same (items.drop (items.length - context))]⟩ ps hs →
      Hunked i j h (.same items :: ps) (h.add (.same (items.take context)) :: hs)
  | grown {i j h p ps hs} : Hunked (i + p.old.length) (j + p.new.length) (h.add p) ps hs → Hunked i j h (p :: ps) hs

theorem hunked_hunksAfter (i j : Nat) (h : Hunk) (ps : List (Piece Text)) : Hunked i j h ps (hunksAfter i j h ps) := by
  induction i, j, h, ps using hunksAfter.induct with
  | case1 i j h => exact .ended
  | case2 i j h items => exact .last
  | case3 i j h items rest more iNext jNext =>
    rename_i long ih
    rw [hunksAfter, if_pos long]
    · exact .cut long ih
    · exact more
  | case4 i j h items rest more iNext jNext =>
    rename_i short ih
    rw [hunksAfter, if_neg short]
    · exact .grown ih
    · exact more
  | case5 i j h removed added rest ih => exact .grown ih

theorem Hunked.ne_nil {i j : Nat} {h : Hunk} {ps : List (Piece Text)} {hs : List Hunk} (hunked : Hunked i j h ps hs) :
    hs ≠ [] := by
  induction hunked with
  | ended | last | cut => exact List.cons_ne_nil _ _
  | grown _ ih => exact ih

/-- There is nothing to show exactly for texts with at most one piece, a common one. -/
theorem hunks_eq_nil_iff {ps : List (Piece Text)} : hunks ps = [] ↔ ps = [] ∨ ∃ items, ps = [.same items] := by
  unfold hunks
  split
  · simp
  · simp
  next items rest more =>
    refine iff_of_false (hunked_hunksAfter _ _ _ _).ne_nil ?_
    rintro (none | ⟨items', one⟩)
    · cases none
    · cases one
      exact more rfl
  next none one _ =>
    refine iff_of_false (hunked_hunksAfter _ _ _ _).ne_nil ?_
    rintro (rfl | ⟨items', rfl⟩)
    · exact none rfl
    · exact one items' rfl

/-- Without hunks there is no change. -/
theorem flatMap_old_eq_new_of_hunks_eq_nil {ps : List (Piece Text)} (none : hunks ps = []) :
    ps.flatMap Piece.old = ps.flatMap Piece.new := by
  rcases hunks_eq_nil_iff.mp none with rfl | ⟨items, rfl⟩ <;> rfl

section Cut

/-- What holds of pieces and stays so where a run that stayed the same is cut short or starts late. -/
structure Trimmable (good : List (Piece Text) → Prop) : Prop where
  closing : ∀ {before items after}, good (before ++ .same items :: after) →
    good (before ++ [.same (items.take context)])
  opening : ∀ {before items after}, good (before ++ .same items :: after) →
    good (.same (items.drop (items.length - context)) :: after)

variable {good : List (Piece Text) → Prop}

theorem Hunked.forall_mem (trimmable : Trimmable good) {i j : Nat} {h : Hunk} {ps : List (Piece Text)} {hs : List Hunk}
    (hunked : Hunked i j h ps hs) (sound : good (h.pieces ++ ps)) : ∀ h' ∈ hs, good h'.pieces := by
  induction hunked with
  | ended => exact List.forall_mem_singleton.mpr (by rwa [List.append_nil] at sound)
  | last => exact List.forall_mem_singleton.mpr (trimmable.closing sound)
  | cut _ _ ih => exact List.forall_mem_cons.mpr ⟨trimmable.closing sound, ih (trimmable.opening sound)⟩
  | grown _ ih => exact ih (by rwa [Hunk.add, List.append_assoc])

/-- What holds of the pieces of a diff and outlives trimming holds of the pieces of each hunk. -/
theorem forall_mem_hunks (trimmable : Trimmable good) {ps : List (Piece Text)} (sound : good ps) :
    ∀ h ∈ hunks ps, good h.pieces := by
  unfold hunks
  split
  · exact List.forall_mem_nil _
  · exact List.forall_mem_nil _
  · exact (hunked_hunksAfter _ _ _ _).forall_mem trimmable
      (trimmable.opening (show good ([] ++ .same _ :: _) from sound))
  · exact (hunked_hunksAfter _ _ _ _).forall_mem trimmable sound

end Cut

/-- A hunk before another one ends with lines of both texts. -/
theorem Hunked.exists_last_same {i j : Nat} {h : Hunk} {ps : List (Piece Text)} {hs : List Hunk}
    (hunked : Hunked i j h ps hs) :
    ∀ h' ∈ hs.dropLast, ∃ before items, h'.pieces = before ++ [.same items] ∧ items ≠ [] := by
  induction hunked with
  | ended | last => exact List.forall_mem_nil _
  | @cut _ _ h items ps hs long later ih =>
    rw [List.dropLast_cons_of_ne_nil later.ne_nil]
    refine List.forall_mem_cons.mpr ⟨⟨h.pieces, items.take context, rfl, ?_⟩, ih⟩
    rw [← List.length_pos_iff_ne_nil, List.length_take]
    exact Nat.lt_min.mpr ⟨by decide, by omega⟩
  | grown _ ih => exact ih

/-- Every hunk but the last closes with lines that both texts have. -/
theorem exists_last_same_of_mem_dropLast_hunks (ps : List (Piece Text)) :
    ∀ h ∈ (hunks ps).dropLast, ∃ before items, h.pieces = before ++ [.same items] ∧ items ≠ [] := by
  unfold hunks
  split
  · exact List.forall_mem_nil _
  · exact List.forall_mem_nil _
  · exact (hunked_hunksAfter _ _ _ _).exists_last_same
  · exact (hunked_hunksAfter _ _ _ _).exists_last_same

section Shown

/-- The second line may be shown after the first: what follows an added line is an added one or one of both texts. -/
def Follows (x y : Text) : Prop :=
  x.head? = some (CodePoint.ofChar '+') →
    y.head? = some (CodePoint.ofChar '+') ∨ y.head? = some (CodePoint.ofChar ' ')

theorem trimmable_isChain : Trimmable fun ps => ps.IsChain Piece.Precedes where
  closing {before items after} chain := by
    obtain ⟨front, -, boundary⟩ := List.isChain_append.mp chain
    refine List.isChain_append.mpr ⟨front, .singleton _, ?_⟩
    rintro p last q first
    cases Option.some.inj first
    have beside := boundary p last _ rfl
    cases p with
    | same => trivial
    | change => exact fun none => beside ((List.take_eq_nil_iff.mp none).resolve_left (by decide))
  opening chain := by
    obtain ⟨-, back, -⟩ := List.isChain_append.mp chain
    exact List.isChain_cons.mpr ⟨fun _ _ => trivial, (List.isChain_cons.mp back).2⟩

theorem isChain_of_head?_ne {lines : List Text} (quiet : ∀ x ∈ lines, x.head? ≠ some (CodePoint.ofChar '+')) :
    lines.IsChain Follows :=
  (List.pairwise_of_forall_mem_list fun x member _ _ plus => (quiet x member plus).elim).isChain

theorem head?_of_mem_kept {items : List Text} {x : Text} (member : x ∈ (Piece.same items).body) :
    x.head? = some (CodePoint.ofChar ' ') := by
  obtain ⟨line, -, rfl⟩ := List.mem_map.mp member
  rfl

theorem isChain_body (p : Piece Text) : p.body.IsChain Follows := by
  cases p with
  | same items =>
    refine isChain_of_head?_ne fun x member plus => ?_
    rw [head?_of_mem_kept member] at plus
    cases plus
  | change removed added =>
    have front : ∀ x ∈ removed.map fun (line : Text) => "-" ++ line, x.head? ≠ some (CodePoint.ofChar '+') := by
      intro x member plus
      obtain ⟨line, -, rfl⟩ := List.mem_map.mp member
      cases plus
    have back : (added.map fun (line : Text) => "+" ++ line).IsChain Follows := by
      refine (List.pairwise_of_forall_mem_list fun _ _ y member _ => Or.inl ?_).isChain
      obtain ⟨line, -, rfl⟩ := List.mem_map.mp member
      rfl
    exact List.isChain_append.mpr ⟨isChain_of_head?_ne front, back,
      fun x last _ _ plus => (front x (List.mem_of_getLast? last) plus).elim⟩

/-- Behind an added line stands an added one or one of both texts, never a removed one. -/
theorem isChain_bodies {ps : List (Piece Text)} (chain : ps.IsChain Piece.Precedes) :
    (ps.flatMap Piece.body).IsChain Follows := by
  induction ps with
  | nil => exact .nil
  | cons p ps ih =>
    obtain ⟨next, later⟩ := List.isChain_cons.mp chain
    refine List.isChain_append.mpr ⟨isChain_body p, ih later, fun x last y first plus => ?_⟩
    cases ps with
    | nil => cases first
    | cons q ps =>
      have beside := next q rfl
      cases p with
      | same items =>
        rw [head?_of_mem_kept (List.mem_of_getLast? last)] at plus
        cases plus
      | change =>
        cases q with
        | change => exact beside.elim
        | same items =>
          obtain ⟨line, items, rfl⟩ := List.exists_cons_of_ne_nil beside
          cases first
          exact Or.inr rfl

/-- The hunks show no added line right before a removed one or a header. -/
theorem isChain_flatMap_render {ps : List (Piece Text)} (chain : ps.IsChain Piece.Precedes) :
    ((hunks ps).flatMap Hunk.render).IsChain Follows := by
  have inside := forall_mem_hunks trimmable_isChain chain
  have between := exists_last_same_of_mem_dropLast_hunks ps
  generalize hunks ps = hs at inside between
  induction hs with
  | nil => exact .nil
  | cons h hs ih =>
    obtain ⟨here, later⟩ := List.forall_mem_cons.mp inside
    have rendered : h.render.IsChain Follows :=
      List.isChain_cons.mpr ⟨fun _ _ plus => (by cases plus), isChain_bodies here⟩
    by_cases last : hs = []
    · rw [last, List.flatMap_singleton]
      exact rendered
    · rw [List.dropLast_cons_of_ne_nil last] at between
      obtain ⟨⟨before, items, pieces, some⟩, others⟩ := List.forall_mem_cons.mp between
      refine List.isChain_append.mpr ⟨rendered, ih later others, fun x final y _ plus => ?_⟩
      have kept : x ∈ (Piece.same items).body := by
        have filled : (Piece.same items).body ≠ [] := mt List.map_eq_nil_iff.mp some
        have bodies : h.pieces.flatMap Piece.body = before.flatMap Piece.body ++ (Piece.same items).body := by
          rw [pieces, List.flatMap_append, List.flatMap_singleton]
        rw [Hunk.render, bodies, ← List.cons_append, List.getLast?_append_of_ne_nil _ filled] at final
        exact List.mem_of_getLast? final
      rw [head?_of_mem_kept kept] at plus
      cases plus

end Shown

end Mender.Diff
