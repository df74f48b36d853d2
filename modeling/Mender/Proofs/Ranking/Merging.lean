import Mender.Application
import Mender.Proofs.Ranking.Order

namespace Mender

section Merge

variable {α κ : Type} [DecidableEq κ] {key : α → κ} {le : α → α → Bool}

theorem firstByKey_cons_of_mem {seen : List κ} {a : α} (old : key a ∈ seen) (l : List α) :
    firstByKey key seen (a :: l) = firstByKey key seen l := by
  rw [firstByKey, if_pos old]

theorem firstByKey_cons_of_notMem {seen : List κ} {a : α} (new : key a ∉ seen) (l : List α) :
    firstByKey key seen (a :: l) = a :: firstByKey key (key a :: seen) l := by
  rw [firstByKey, if_neg new]

/-- Behind an item, its key has been seen. -/
theorem firstByKey_cons_congr {seen : List κ} {a : α} {l m : List α}
    (same : ∀ known, seen ⊆ known → key a ∈ known → firstByKey key known l = firstByKey key known m) :
    firstByKey key seen (a :: l) = firstByKey key seen (a :: m) := by
  by_cases old : key a ∈ seen
  · rw [firstByKey_cons_of_mem old, firstByKey_cons_of_mem old, same seen (List.Subset.refl seen) old]
  · rw [firstByKey_cons_of_notMem old, firstByKey_cons_of_notMem old,
      same _ (List.subset_cons_self _ _) List.mem_cons_self]

theorem firstByKey_firstByKey {seen known : List κ} (sub : known ⊆ seen) (l : List α) :
    firstByKey key seen (firstByKey key known l) = firstByKey key seen l := by
  induction l generalizing seen known with
  | nil => rfl
  | cons a l ih =>
    by_cases old : key a ∈ known
    · rw [firstByKey_cons_of_mem old, firstByKey_cons_of_mem (sub old), ih sub]
    · rw [firstByKey_cons_of_notMem old]
      by_cases seenBefore : key a ∈ seen
      · rw [firstByKey_cons_of_mem seenBefore, firstByKey_cons_of_mem seenBefore]
        exact ih (List.cons_subset.mpr ⟨seenBefore, sub⟩)
      · rw [firstByKey_cons_of_notMem seenBefore, firstByKey_cons_of_notMem seenBefore,
          ih (List.cons_subset_cons _ sub)]

/-- What all items of a list go behind comes first in a merge with it. -/
theorem merge_cons_of_not_le {xs ys : List α} {y : α} (behind : ∀ x ∈ xs, ¬le x y) :
    xs.merge (y :: ys) le = y :: xs.merge ys le := by
  cases xs with
  | nil => rw [List.nil_merge, List.nil_merge]
  | cons x xs => exact List.cons_merge_cons_neg _ _ _ (behind x List.mem_cons_self)

theorem cons_merge_of_le {xs ys : List α} {x : α} (behind : ∀ y ∈ ys, le x y) :
    (x :: xs).merge ys le = x :: xs.merge ys le := by
  cases ys with
  | nil => rw [List.merge_right, List.merge_right]
  | cons y ys => exact List.cons_merge_cons_pos _ _ _ (behind y List.mem_cons_self)

variable (trans : ∀ a b c, le a b → le b c → le a c)

include trans

/-- An item of a key that was seen before makes no difference on the left side of a merge. -/
theorem firstByKey_cons_merge {seen : List κ} {x : α} {xs : List α} (sorted : (x :: xs).Pairwise (le · ·))
    (old : key x ∈ seen) (ys : List α) :
    firstByKey key seen ((x :: xs).merge ys le) = firstByKey key seen (xs.merge ys le) := by
  induction ys generalizing seen with
  | nil => rw [List.merge_right, List.merge_right, firstByKey_cons_of_mem old]
  | cons y ys ih =>
    by_cases front : le x y
    · rw [List.cons_merge_cons_pos _ _ _ front, firstByKey_cons_of_mem old]
    · have behind : ∀ z ∈ xs, ¬le z y := fun z member before =>
        front (trans x z y (List.rel_of_pairwise_cons sorted member) before)
      rw [List.cons_merge_cons_neg _ _ _ front, merge_cons_of_not_le behind]
      exact firstByKey_cons_congr fun known sub _ => ih (sub old)

/-- An item of a key that was seen before makes no difference on the right side of a merge. -/
theorem firstByKey_merge_cons {seen : List κ} {y : α} {ys : List α} (sorted : (y :: ys).Pairwise (le · ·))
    (old : key y ∈ seen) (xs : List α) :
    firstByKey key seen (xs.merge (y :: ys) le) = firstByKey key seen (xs.merge ys le) := by
  induction xs generalizing seen with
  | nil => rw [List.nil_merge, List.nil_merge, firstByKey_cons_of_mem old]
  | cons x xs ih =>
    by_cases front : le x y
    · have behind : ∀ z ∈ ys, le x z := fun z member =>
        trans x y z front (List.rel_of_pairwise_cons sorted member)
      rw [List.cons_merge_cons_pos _ _ _ front, cons_merge_of_le behind]
      exact firstByKey_cons_congr fun known sub _ => ih (sub old)
    · rw [List.cons_merge_cons_neg _ _ _ front, firstByKey_cons_of_mem old]

/-- Where the first item of each key of a merge is kept, the same may be done to both parts before. -/
theorem firstByKey_merge {seen left right : List κ} (leftSub : left ⊆ seen) (rightSub : right ⊆ seen)
    {xs ys : List α} (xsSorted : xs.Pairwise (le · ·)) (ysSorted : ys.Pairwise (le · ·)) :
    firstByKey key seen ((firstByKey key left xs).merge (firstByKey key right ys) le) =
      firstByKey key seen (xs.merge ys le) := by
  induction xs generalizing seen left right ys with
  | nil =>
    rw [List.nil_merge]
    exact (congrArg _ (List.nil_merge _)).trans (firstByKey_firstByKey rightSub ys)
  | cons x xs atLeft =>
    by_cases xOld : key x ∈ left
    · rw [firstByKey_cons_merge trans xsSorted (leftSub xOld), firstByKey_cons_of_mem xOld]
      exact atLeft leftSub rightSub xsSorted.of_cons ysSorted
    · induction ys generalizing seen right with
      | nil =>
        rw [List.merge_right]
        exact (congrArg _ (List.merge_right _)).trans (firstByKey_firstByKey leftSub (x :: xs))
      | cons y ys atRight =>
        by_cases yOld : key y ∈ right
        · rw [firstByKey_merge_cons trans ysSorted (rightSub yOld), firstByKey_cons_of_mem yOld]
          exact atRight leftSub rightSub ysSorted.of_cons
        · -- Both heads are still there, so the same one goes first in both merges.
          have left_cons := firstByKey_cons_of_notMem xOld xs
          have right_cons := firstByKey_cons_of_notMem yOld ys
          rw [left_cons, right_cons]
          by_cases front : le x y
          · rw [List.cons_merge_cons_pos _ _ _ front, List.cons_merge_cons_pos _ _ _ front, ← right_cons]
            refine firstByKey_cons_congr fun known sub here => ?_
            exact atLeft (List.cons_subset.mpr ⟨here, List.Subset.trans leftSub sub⟩) (List.Subset.trans rightSub sub)
              xsSorted.of_cons ysSorted
          · rw [List.cons_merge_cons_neg _ _ _ front, List.cons_merge_cons_neg _ _ _ front, ← left_cons]
            refine firstByKey_cons_congr fun known sub here => ?_
            exact atRight (List.Subset.trans leftSub sub) (List.cons_subset.mpr ⟨here, List.Subset.trans rightSub sub⟩)
              ysSorted.of_cons

omit [DecidableEq κ] trans in
/-- Where the items come from does not matter to a stable sort, only their order. -/
theorem map_fst_mergeSort_zipIdx (start : Nat) (l : List α) :
    ((l.zipIdx start).mergeSort (List.zipIdxLE le)).map Prod.fst = l.mergeSort le := by
  have shifted := List.map_snd_add_zipIdx_eq_zipIdx (l := l) (n := start) (k := 0)
  rw [Nat.add_zero] at shifted
  rw [← shifted, ← List.map_mergeSort (r := List.zipIdxLE le), List.map_map]
  · exact List.mergeSort_zipIdx
  · intro p _ q _
    simp [List.zipIdxLE]

omit trans in
/-- With a place of its own for each item, the sorted list of the items is the only one. -/
theorem eq_of_sorted_places {l m : List (α × Nat)} (places : (l.map Prod.snd).Nodup) (perm : l.Perm m)
    (sorted : l.Pairwise (List.zipIdxLE le · ·)) (sorted' : m.Pairwise (List.zipIdxLE le · ·)) : l = m := by
  refine perm.eq_of_pairwise (fun p q inL inM before after => ?_) sorted sorted'
  refine List.inj_on_of_nodup_map places inL (perm.mem_iff.mpr inM) ?_
  simp only [List.zipIdxLE] at before after
  split_ifs at before after with pq qp
  · simp only [decide_eq_true_eq] at before after
    omega

variable (total : ∀ a b, le a b || le b a)

include total

/-- A stable sort of two lists in a row merges the sorted lists. -/
theorem mergeSort_append (xs ys : List α) :
    (xs ++ ys).mergeSort le = (xs.mergeSort le).merge (ys.mergeSort le) le := by
  have apart : ∀ p q, p ∈ xs.zipIdx.mergeSort (List.zipIdxLE le) →
      q ∈ (ys.zipIdx xs.length).mergeSort (List.zipIdxLE le) → p.2 ≤ q.2 := by
    intro p q inFront behind
    have front := List.snd_lt_of_mem_zipIdx (List.mem_mergeSort.mp inFront)
    have back := List.le_snd_of_mem_zipIdx (List.mem_mergeSort.mp behind)
    omega
  have sorted := List.pairwise_mergeSort (List.zipIdxLE_trans trans) (List.zipIdxLE_total total)
  have merged : (xs ++ ys).zipIdx.mergeSort (List.zipIdxLE le) =
      (xs.zipIdx.mergeSort (List.zipIdxLE le)).merge ((ys.zipIdx xs.length).mergeSort (List.zipIdxLE le))
        (List.zipIdxLE le) := by
    refine eq_of_sorted_places (nodup_places _ _) ?_ (sorted _)
      (List.pairwise_merge (List.zipIdxLE_trans trans) (List.zipIdxLE_total total) _ _ (sorted _) (sorted _))
    have parts := (List.mergeSort_perm xs.zipIdx (List.zipIdxLE le)).append
      (List.mergeSort_perm (ys.zipIdx xs.length) (List.zipIdxLE le))
    have whole := List.mergeSort_perm (xs ++ ys).zipIdx (List.zipIdxLE le)
    rw [List.zipIdx_append, Nat.zero_add] at whole ⊢
    exact whole.trans (parts.symm.trans (List.merge_perm_append _).symm)
  rw [← map_fst_mergeSort_zipIdx 0 (xs ++ ys), merged, List.merge_stable _ _ apart, map_fst_mergeSort_zipIdx,
    map_fst_mergeSort_zipIdx]

end Merge

theorem bySureness_append (first second : List Fix) :
    bySureness (first ++ second) = (bySureness first).merge (bySureness second)
      fun f g => f.confidence.atLeast g.confidence := by
  unfold bySureness
  rw [List.filter_append, mergeSort_append Fix.atLeast_trans Fix.atLeast_total]

/-- The ranking of candidates in two parts is the merged rankings of both. -/
theorem rankFixes_append (first second : List Fix) :
    rankFixes (first ++ second) = firstByKey Fix.signature [] ((rankFixes first).merge (rankFixes second)
      fun f g => f.confidence.atLeast g.confidence) := by
  rw [rankFixes, bySureness_append]
  exact (firstByKey_merge Fix.atLeast_trans (List.Subset.refl []) (List.Subset.refl [])
    (pairwise_bySureness first) (pairwise_bySureness second)).symm

/-- Candidates with the same ranking are as good as each other beside others, on either side of them. -/
theorem rankFixes_append_congr {first first' second second' : List Fix}
    (sameFirst : rankFixes first = rankFixes first') (sameSecond : rankFixes second = rankFixes second') :
    rankFixes (first ++ second) = rankFixes (first' ++ second') := by
  rw [rankFixes_append, rankFixes_append first', sameFirst, sameSecond]

/-- Fixes that are ranked already are tried in the order in which they are given. -/
theorem applyFixes_rankFixes {ω : Type} {candidates : List Fix} (writable : ∀ f ∈ candidates, f.Writable)
    (o : Oracle ω) (limit : Limit) (t : Text) :
    applyFixes o limit t (rankFixes candidates) =
      Except.mapError ApplyError.oracle <$> applyInOrder o limit t (rankFixes candidates) := by
  rw [applyFixes, rankFixes?_rankFixes writable, map_eq_pure_bind]
  refine congrArg (applyInOrder o limit t (rankFixes candidates) >>= ·) (funext fun tried => ?_)
  cases tried <;> rfl

/-- Candidates that can be written out come in two parts. Whether they are ranked together, put together before, or
put together with a part that was ranked early, the ranking is the same. So a ranking that is ranked again stays as
it is, and its fixes are tried in the order in which they stand there. -/
theorem rankings_merge {first second : List Fix} (writable : ∀ f ∈ first ++ second, f.Writable) :
    ∃ early late all, rankFixes? first = .ok early ∧ rankFixes? second = .ok late ∧
      rankFixes? [first, second].flatten = .ok all ∧ rankFixes? [first ++ second].flatten = .ok all ∧
      rankFixes? [early, second].flatten = .ok all ∧ rankFixes? [first, late].flatten = .ok all ∧
      rankFixes? [early].flatten = .ok early ∧
      ∀ {ω : Type} (o : Oracle ω) (limit : Limit) (t : Text),
        applyFixes o limit t early = Except.mapError ApplyError.oracle <$> applyInOrder o limit t early := by
  have inFirst : ∀ f ∈ first, f.Writable := fun f member => writable f (List.mem_append_left _ member)
  have inSecond : ∀ f ∈ second, f.Writable := fun f member => writable f (List.mem_append_right _ member)
  have inEarly : ∀ f ∈ rankFixes first, f.Writable := fun f member => inFirst f (mem_of_mem_rankFixes member)
  have inLate : ∀ f ∈ rankFixes second, f.Writable := fun f member => inSecond f (mem_of_mem_rankFixes member)
  have ranked {a b : List Fix} (inA : ∀ f ∈ a, f.Writable) (inB : ∀ f ∈ b, f.Writable)
      (sameA : rankFixes a = rankFixes first) (sameB : rankFixes b = rankFixes second) :
      rankFixes? [a, b].flatten = .ok (rankFixes (first ++ second)) := by
    rw [List.flatten_cons, List.flatten_singleton, ← rankFixes_append_congr sameA sameB]
    exact rankFixes?_of_writable (List.forall_mem_append.mpr ⟨inA, inB⟩)
  refine ⟨rankFixes first, rankFixes second, rankFixes (first ++ second), rankFixes?_of_writable inFirst,
    rankFixes?_of_writable inSecond, ranked inFirst inSecond rfl rfl, ?_,
    ranked inEarly inSecond (rankFixes_rankFixes first) rfl, ranked inFirst inLate rfl (rankFixes_rankFixes second),
    ?_, applyFixes_rankFixes inFirst⟩
  · rw [List.flatten_singleton]
    exact rankFixes?_of_writable writable
  · rw [List.flatten_singleton]
    exact rankFixes?_rankFixes inFirst

/-- The rivals come again in the reverse order, so that each meets another one with its edits, and two as sure as
each other have changed places. -/
theorem rivals_merge :
    (∀ f ∈ rivals.flatten ++ rivals.flatten.reverse, f.Writable) ∧
      ∃ early late all, rankFixes? rivals.flatten = .ok early ∧ rankFixes? rivals.flatten.reverse = .ok late ∧
        rankFixes? [rivals.flatten, rivals.flatten.reverse].flatten = .ok all ∧
        rankFixes? [rivals.flatten ++ rivals.flatten.reverse].flatten = .ok all ∧
        rankFixes? [early, rivals.flatten.reverse].flatten = .ok all ∧
        rankFixes? [rivals.flatten, late].flatten = .ok all ∧ rankFixes? [early].flatten = .ok early ∧
        ∀ {ω : Type} (o : Oracle ω) (limit : Limit) (t : Text),
          applyFixes o limit t early = Except.mapError ApplyError.oracle <$> applyInOrder o limit t early := by
  have writable : ∀ f ∈ rivals.flatten ++ rivals.flatten.reverse, f.Writable := by
    simp only [Fix.Writable]
    decide
  exact ⟨writable, rankings_merge writable⟩

end Mender
