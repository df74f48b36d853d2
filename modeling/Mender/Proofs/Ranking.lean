import Mender.Ranking
import Mender.Proofs.Json.Written

namespace Mender

section StableSort

variable {α : Type} {le : α → α → Bool} (trans : ∀ a b c, le a b → le b c → le a c)
  (total : ∀ a b, le a b || le b a)

include trans total

/-- A stable sort can be done before or after a part of the list is left out. -/
theorem filter_mergeSort (p : α → Bool) (l : List α) :
    (l.mergeSort le).filter p = (l.filter p).mergeSort le := by
  induction l with
  | nil => simp
  | cons a l ih =>
    obtain ⟨front, back, sorted, rest, worse⟩ := List.mergeSort_cons trans total a l
    have order := List.pairwise_mergeSort trans total (a :: l)
    rw [sorted, List.pairwise_append, List.pairwise_cons] at order
    by_cases keep : p a
    · obtain ⟨front', back', sorted', rest', worse'⟩ := List.mergeSort_cons trans total a (l.filter p)
      have order' := List.pairwise_mergeSort trans total (a :: l.filter p)
      rw [sorted', List.pairwise_append, List.pairwise_cons] at order'
      have same : front.filter p ++ back.filter p = front' ++ back' := by
        rw [← List.filter_append, ← rest, ih, rest']
      -- The inserted item stands behind all that are better and before all others.
      have cut : ∀ xs ys : List α, (∀ b ∈ xs, !le a b) → (∀ b ∈ ys, le a b) →
          (xs ++ ys).filter (!le a ·) = xs ∧ (xs ++ ys).filter (le a ·) = ys := by
        intro xs ys better other
        rw [List.filter_append, List.filter_append, List.filter_eq_self.mpr better,
          List.filter_eq_self.mpr other]
        constructor
        · rw [List.filter_eq_nil_iff.mpr (by simpa using other), List.append_nil]
        · rw [List.filter_eq_nil_iff.mpr (by simpa using better), List.nil_append]
      have here := cut (front.filter p) (back.filter p)
        (fun b member => worse b (List.mem_filter.mp member).1)
        (fun b member => order.2.1.1 b (List.mem_filter.mp member).1)
      have there := cut front' back' worse' order'.2.1.1
      rw [same] at here
      rw [List.filter_cons_of_pos keep, sorted, sorted', List.filter_append, List.filter_cons_of_pos keep,
        ← here.1, ← here.2, there.1, there.2]
    · rw [List.filter_cons_of_neg keep, ← ih, sorted, rest, List.filter_append, List.filter_append,
        List.filter_cons_of_neg keep]

/-- A sorted list has in front what comes before an item, then what stands beside it and then what comes after it. -/
theorem sorted_eq_parts (pivot : α) {l : List α} (sorted : l.Pairwise (le · ·)) :
    l = l.filter (!le pivot ·) ++ l.filter (fun a => le pivot a && le a pivot) ++ l.filter (!le · pivot) := by
  induction l with
  | nil => rfl
  | cons a l ih =>
    obtain ⟨least, rest⟩ := List.pairwise_cons.mp sorted
    by_cases reached : le pivot a
    · have noneBefore : l.filter (!le pivot ·) = [] :=
        List.filter_eq_nil_iff.mpr fun b member => by simp [trans pivot a b reached (least b member)]
      by_cases beside : le a pivot
      · have later := ih rest
        rw [noneBefore, List.nil_append] at later
        simpa [reached, beside, noneBefore] using later
      · have allAfter : ∀ b ∈ l, le b pivot = false := fun b member =>
          Bool.eq_false_iff.mpr fun here => beside (trans a b pivot (least b member) here)
        have noneBeside : l.filter (fun b => le pivot b && le b pivot) = [] :=
          List.filter_eq_nil_iff.mpr fun b member => by simp [allAfter b member]
        have kept : l.filter (!le · pivot) = l :=
          List.filter_eq_self.mpr fun b member => by simp [allAfter b member]
        simp [reached, beside, noneBefore, noneBeside, kept]
    · have before : le a pivot := by simpa [reached] using total a pivot
      simpa [reached, before] using ih rest

/-- A stable sort leaves items together that stand beside each other, and sorts the others as it does without
them. -/
theorem mergeSort_block (pivot : α) (xs ys : List α) {block : List α}
    (beside : ∀ a ∈ block, le pivot a ∧ le a pivot) :
    ∃ front back, (xs ++ block ++ ys).mergeSort le = front ++ block ++ back ∧
      (xs ++ ys).mergeSort le = front ++ back := by
  have parts : ∀ l : List α, l.mergeSort le = (l.filter (!le pivot ·)).mergeSort le ++
      l.filter (fun a => le pivot a && le a pivot) ++ (l.filter (!le · pivot)).mergeSort le := by
    intro l
    have level : (l.filter fun a => le pivot a && le a pivot).Pairwise (le · ·) := by
      refine List.pairwise_of_forall_mem_list fun a here b there => ?_
      have left := (List.mem_filter.mp here).2
      have right := (List.mem_filter.mp there).2
      rw [Bool.and_eq_true] at left right
      exact trans a pivot b left.2 right.1
    have cut := sorted_eq_parts trans total pivot (List.pairwise_mergeSort trans total l)
    rwa [filter_mergeSort trans total, filter_mergeSort trans total, filter_mergeSort trans total,
      List.mergeSort_of_pairwise level] at cut
  have before : block.filter (!le pivot ·) = [] :=
    List.filter_eq_nil_iff.mpr fun a member => by simp [(beside a member).1]
  have kept : block.filter (fun a => le pivot a && le a pivot) = block :=
    List.filter_eq_self.mpr fun a member => by simp [beside a member]
  have after : block.filter (!le · pivot) = [] :=
    List.filter_eq_nil_iff.mpr fun a member => by simp [(beside a member).2]
  refine ⟨((xs ++ ys).filter (!le pivot ·)).mergeSort le ++ xs.filter (fun a => le pivot a && le a pivot),
    ys.filter (fun a => le pivot a && le a pivot) ++ ((xs ++ ys).filter (!le · pivot)).mergeSort le, ?_, ?_⟩
  · rw [parts]
    simp only [List.filter_append, before, kept, after, List.nil_append, List.append_assoc]
  · rw [parts]
    simp only [List.filter_append, List.append_assoc]

/-- A stable sort puts the earliest of the best items first. -/
theorem head?_mergeSort {l : List α} {best : α} (first : (l.mergeSort le).head? = some best) :
    ∃ earlier later, l = earlier ++ best :: later ∧ (∀ a ∈ earlier, le a best = false) ∧
      ∀ a ∈ later, le best a := by
  induction l with
  | nil => simp at first
  | cons a l ih =>
    obtain ⟨front, back, sorted, rest, worse⟩ := List.mergeSort_cons trans total a l
    have order := List.pairwise_mergeSort trans total (a :: l)
    rw [sorted] at first order
    cases front with
    | nil =>
      cases first
      refine ⟨[], l, rfl, by simp, fun b member => ?_⟩
      rw [List.nil_append, List.pairwise_cons] at order
      have sortedMember : b ∈ l.mergeSort le := List.mem_mergeSort.mpr member
      rw [rest] at sortedMember
      exact order.1 b sortedMember
    | cons b front =>
      cases first
      obtain ⟨earlier, later, rfl, before, after⟩ := ih (by rw [rest]; rfl)
      refine ⟨a :: earlier, later, rfl, ?_, after⟩
      intro c member
      rcases List.mem_cons.mp member with rfl | member
      · simpa using worse best List.mem_cons_self
      · exact before c member

end StableSort

section Keys

variable {α β κ : Type} [DecidableEq κ] {key : α → κ}

/-- Keeping the first item of each key can be done before or after a part of the list is left out, if
items of one key stay or go together. -/
theorem filter_firstByKey {p : α → Bool} (together : ∀ a b, key a = key b → p a = p b) (seen seen' : List κ)
    (l : List α) (same : ∀ a ∈ l, p a → (key a ∈ seen ↔ key a ∈ seen')) :
    (firstByKey key seen l).filter p = firstByKey key seen' (l.filter p) := by
  induction l generalizing seen seen' with
  | nil => rfl
  | cons a l ih =>
    have later := fun b member => same b (List.mem_cons_of_mem a member)
    by_cases keep : p a
    · have known := same a List.mem_cons_self keep
      rw [List.filter_cons_of_pos keep]
      by_cases old : key a ∈ seen
      · rw [firstByKey, if_pos old, firstByKey, if_pos (known.mp old)]
        exact ih seen seen' later
      · rw [firstByKey, if_neg old, firstByKey, if_neg (mt known.mpr old), List.filter_cons_of_pos keep]
        refine congrArg (a :: ·) (ih _ _ fun b member keepB => ?_)
        rw [List.mem_cons, List.mem_cons, later b member keepB]
    · rw [List.filter_cons_of_neg keep]
      by_cases old : key a ∈ seen
      · rw [firstByKey, if_pos old]
        exact ih seen seen' later
      · rw [firstByKey, if_neg old, List.filter_cons_of_neg keep]
        refine ih _ _ fun b member keepB => ?_
        have other : key b ≠ key a := by
          intro alike
          rw [together b a alike] at keepB
          exact keep keepB
        rw [List.mem_cons, or_iff_right other, later b member keepB]

theorem firstByKey_map {keyOf : β → κ} {f : α → β} (kept : ∀ a, keyOf (f a) = key a) (seen : List κ)
    (l : List α) : firstByKey keyOf seen (l.map f) = (firstByKey key seen l).map f := by
  induction l generalizing seen with
  | nil => rfl
  | cons a l ih =>
    rw [List.map_cons, firstByKey, firstByKey, kept]
    split
    · exact ih seen
    · rw [List.map_cons, ih]

theorem mem_of_mem_firstByKey {seen : List κ} {l : List α} {a : α} (member : a ∈ firstByKey key seen l) :
    a ∈ l := by
  fun_induction firstByKey key seen l with
  | case1 => exact member
  | case2 _ _ _ _ ih => exact List.mem_cons_of_mem _ (ih member)
  | case3 _ b rest _ ih =>
    rcases List.mem_cons.mp member with rfl | later
    · exact List.mem_cons_self
    · exact List.mem_cons_of_mem _ (ih later)

theorem head?_firstByKey (key : α → κ) (l : List α) : (firstByKey key [] l).head? = l.head? := by
  cases l with
  | nil => rfl
  | cons a l => rw [firstByKey, if_neg List.not_mem_nil, List.head?_cons, List.head?_cons]

end Keys

theorem Fix.atLeast_trans (f g h : Fix) (first : f.confidence.atLeast g.confidence)
    (second : g.confidence.atLeast h.confidence) : f.confidence.atLeast h.confidence := by
  simp only [Confidence.atLeast, decide_eq_true_eq] at first second ⊢
  omega

theorem Fix.atLeast_total (f g : Fix) :
    f.confidence.atLeast g.confidence || g.confidence.atLeast f.confidence := by
  simp only [Confidence.atLeast, Bool.or_eq_true, decide_eq_true_eq]
  omega

/-- Fixes have the same signature only if they have the same edits. -/
theorem Fix.edits_eq_of_signature {f g : Fix} (same : f.signature = g.signature) : f.edits = g.edits :=
  (List.map_inj_right fun _ _ alike => Edit.compact_toJson_delimits.injective alike).mp same

/-- The fix without the name it was received under. -/
def Fix.unnamed (f : Fix) : Fix := { f with name := none }

/-- The property of a fix depends on its edits only. -/
def Fix.ByEdits {γ : Type} (of : Fix → γ) : Prop := ∀ f g : Fix, f.edits = g.edits → of f = of g

theorem filter_bySureness (p : Fix → Bool) (fixes : List Fix) :
    (bySureness fixes).filter p = bySureness (fixes.filter p) := by
  unfold bySureness
  rw [filter_mergeSort Fix.atLeast_trans Fix.atLeast_total, List.filter_filter, List.filter_filter]
  simp only [Bool.and_comm]

/-- A filter that looks at edits only may be put before or after the ranking. -/
theorem filter_rankFixes {p : Fix → Bool} (byEdits : Fix.ByEdits p) (fixes : List Fix) :
    (rankFixes fixes).filter p = rankFixes (fixes.filter p) := by
  unfold rankFixes
  rw [filter_firstByKey (fun f g same => byEdits f g (Fix.edits_eq_of_signature same)) [] []
    _ (fun _ _ _ => Iff.rfl), filter_bySureness]

theorem mem_bySureness {fixes : List Fix} {f : Fix} : f ∈ bySureness fixes ↔ f ∈ fixes ∧ f.edits ≠ [] := by
  rw [bySureness, List.mem_mergeSort, List.mem_filter, Bool.not_eq_true', List.isEmpty_eq_false_iff]

theorem pairwise_bySureness (fixes : List Fix) :
    (bySureness fixes).Pairwise fun f g => f.confidence.atLeast g.confidence :=
  List.pairwise_mergeSort Fix.atLeast_trans Fix.atLeast_total _

theorem mem_of_mem_rankFixes {fixes : List Fix} {f : Fix} (member : f ∈ rankFixes fixes) : f ∈ fixes :=
  (mem_bySureness.mp (mem_of_mem_firstByKey member)).1

theorem bySureness_unnamed (fixes : List Fix) :
    bySureness (fixes.map Fix.unnamed) = (bySureness fixes).map Fix.unnamed := by
  unfold bySureness
  have sorted := List.map_mergeSort (f := Fix.unnamed) (r := fun f g => f.confidence.atLeast g.confidence)
    (s := fun f g => f.confidence.atLeast g.confidence) (l := fixes.filter fun f => !f.edits.isEmpty)
    fun _ _ _ _ => rfl
  rw [sorted, List.filter_map]
  rfl

/-- Names play no part in the ranking. -/
theorem rankFixes_unnamed (fixes : List Fix) :
    rankFixes (fixes.map Fix.unnamed) = (rankFixes fixes).map Fix.unnamed := by
  unfold rankFixes
  have kept : ∀ f : Fix, f.unnamed.signature = f.signature := fun _ => rfl
  rw [bySureness_unnamed, firstByKey_map kept]

/-- With no empty fixes, sorting by confidence is all that happens. -/
theorem bySureness_of_edited {fixes : List Fix} (edited : ∀ f ∈ fixes, f.edits ≠ []) :
    bySureness fixes = fixes.mergeSort fun f g => f.confidence.atLeast g.confidence := by
  have all : fixes.filter (fun f => !f.edits.isEmpty) = fixes :=
    List.filter_eq_self.mpr fun f member => by simpa using edited f member
  rw [bySureness, all]

theorem eq_nil_of_rankFixes {fixes : List Fix} (none : rankFixes fixes = [])
    (edited : ∀ f ∈ fixes, f.edits ≠ []) : fixes = [] := by
  have empty : (bySureness fixes).head? = .none := by
    rw [← head?_firstByKey Fix.signature, ← rankFixes, none, List.head?_nil]
  rw [bySureness_of_edited edited, List.head?_eq_none_iff] at empty
  rw [← List.length_eq_zero_iff, ← List.length_mergeSort, empty, List.length_nil]

/-- The first ranked fix is the surest of all with edits, and the earliest of those that are as sure. -/
theorem head?_rankFixes {fixes : List Fix} {best : Fix} (first : (rankFixes fixes).head? = some best)
    (edited : ∀ f ∈ fixes, f.edits ≠ []) :
    ∃ earlier later, fixes = earlier ++ best :: later ∧
      (∀ f ∈ earlier, f.confidence.atLeast best.confidence = false) ∧
      ∀ f ∈ later, best.confidence.atLeast f.confidence := by
  rw [rankFixes, head?_firstByKey, bySureness_of_edited edited] at first
  exact head?_mergeSort Fix.atLeast_trans Fix.atLeast_total first

end Mender
