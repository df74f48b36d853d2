import Mathlib.Algebra.BigOperators.Group.List.Lemmas
import Mathlib.Algebra.GroupWithZero.Nat
import Mathlib.Data.List.Count
import Mathlib.Data.List.Dedup
import Mender.Analysis
import Mender.Proofs.Ranking.Order

namespace Mender

/-- A stable sort keeps the order of items that are equally good. -/
theorem pairwise_mergeSort_of_pairwise {α : Type} {le : α → α → Bool} {before : α → α → Prop}
    (trans : ∀ a b c, le a b → le b c → le a c) (total : ∀ a b, le a b || le b a) {l : List α}
    (order : l.Pairwise before) : (l.mergeSort le).Pairwise fun a b => le a b ∧ (le b a → before a b) := by
  have sorted : (l.zipIdx.mergeSort (List.zipIdxLE le)).map Prod.fst = l.mergeSort le := List.mergeSort_zipIdx
  rw [← sorted, List.pairwise_map]
  refine (pairwise_places trans total l).imp_of_mem ?_
  rintro p q here here' ⟨better, earlier⟩
  refine ⟨better, fun alike => ?_⟩
  have atPlace := List.mem_zipIdx_iff_getElem?.mp (List.mem_mergeSort.mp here)
  have atPlace' := List.mem_zipIdx_iff_getElem?.mp (List.mem_mergeSort.mp here')
  obtain ⟨inside, first⟩ := List.getElem?_eq_some_iff.mp atPlace
  obtain ⟨inside', second⟩ := List.getElem?_eq_some_iff.mp atPlace'
  rw [← first, ← second]
  exact List.pairwise_iff_getElem.mp order p.2 q.2 inside inside' (earlier alike)

section Tally

variable {α : Type} [DecidableEq α] [BEq α] [LawfulBEq α] {l : List α} {a b : α} {n : Nat}

/-- Counting from the front: the first item with its count in the whole list, then the tally of the
rest without it. -/
theorem tally_cons (a : α) (l : List α) :
    tally (a :: l) = (a, (a :: l).count a) :: (tally l).filter fun p => p.1 ≠ a := by
  cases lawful_beq_subsingleton ‹BEq α› instBEqOfDecidableEq
  rw [tally]

theorem mem_tally : (a, n) ∈ tally l ↔ a ∈ l ∧ n = l.count a := by
  induction l with
  | nil => simp [tally]
  | cons b l ih =>
    rw [tally_cons, List.mem_cons, List.mem_filter, ih]
    by_cases same : a = b
    · subst same
      simp
    · have other : b ≠ a := Ne.symm same
      simp [same, other]

theorem mem_map_fst_tally : a ∈ (tally l).map Prod.fst ↔ a ∈ l := by
  rw [List.mem_map]
  constructor
  · rintro ⟨⟨a, n⟩, entry, rfl⟩
    exact (mem_tally.mp entry).1
  · exact fun member => ⟨(a, l.count a), mem_tally.mpr ⟨member, rfl⟩, rfl⟩

omit [BEq α] [LawfulBEq α] in
theorem nodup_tally (l : List α) : ((tally l).map Prod.fst).Nodup := by
  induction l with
  | nil => exact .nil
  | cons b l ih =>
    rw [tally_cons, List.map_cons, List.nodup_cons]
    refine ⟨?_, ih.sublist (List.filter_sublist.map _)⟩
    simp

/-- The counts of all entries add up to the length. -/
theorem sum_tally (l : List α) : ((tally l).map Prod.snd).sum = l.length := by
  have counts : (tally l).map Prod.snd = ((tally l).map Prod.fst).map fun a => l.count a := by
    rw [List.map_map]
    exact List.map_congr_left fun p entry => (mem_tally.mp entry).2
  have items : ((tally l).map Prod.fst).Perm l.dedup := by
    refine (List.perm_ext_iff_of_nodup (nodup_tally l) l.nodup_dedup).mpr fun a => ?_
    rw [mem_map_fst_tally, List.mem_dedup]
  rw [counts, (items.map _).sum_eq]
  cases lawful_beq_subsingleton ‹BEq α› instBEqOfDecidableEq
  exact List.sum_map_count_dedup_eq_length l

/-- The entries stand in the order in which their items occur first. -/
theorem tally_pairwise (l : List α) : (tally l).Pairwise fun p q => l.idxOf p.1 < l.idxOf q.1 := by
  induction l with
  | nil => exact .nil
  | cons b l ih =>
    have later : ∀ p ∈ (tally l).filter fun p => p.1 ≠ b, (b :: l).idxOf p.1 = l.idxOf p.1 + 1 := fun p entry =>
      List.idxOf_cons_ne _ (Ne.symm (of_decide_eq_true (List.mem_filter.mp entry).2))
    rw [tally_cons, List.pairwise_cons]
    refine ⟨fun p entry => ?_, (ih.filter _).imp_of_mem fun {p q} first second order => ?_⟩
    · rw [later p entry, List.idxOf_cons_self]
      exact Nat.succ_pos _
    · rw [later p first, later q second]
      exact Nat.succ_lt_succ order

/-- An entry goes before another one: its item is more frequent, or as frequent and met earlier. -/
def CountedBefore (l : List α) (a b : α) : Prop :=
  l.count b < l.count a ∨ l.count b = l.count a ∧ l.idxOf a < l.idxOf b

theorem idxOf_lt_of_filter {p : α → Bool} (kept : p a) (kept' : p b)
    (earlier : (l.filter p).idxOf a < (l.filter p).idxOf b) : l.idxOf a < l.idxOf b := by
  induction l with
  | nil => exact earlier
  | cons c l ih => grind

theorem idxOf_map_some (l : List α) (a : α) : (l.map some).idxOf (some a) = l.idxOf a := by
  induction l with
  | nil => rfl
  | cons b l ih => grind

/-- What is left out of a list does not change the order of what stays in it. -/
theorem CountedBefore.of_filter {p : α → Bool} (kept : p a) (kept' : p b) (before : CountedBefore (l.filter p) a b) :
    CountedBefore l a b := by
  rw [CountedBefore, List.count_filter kept, List.count_filter kept'] at before
  exact before.imp_right fun tie => ⟨tie.1, idxOf_lt_of_filter kept kept' tie.2⟩

theorem CountedBefore.map_some (before : CountedBefore l a b) : CountedBefore (l.map some) (some a) (some b) := by
  have count (c : α) : (l.map some).count (some c) = l.count c :=
    List.count_map_of_injective l some (fun _ _ => Option.some.inj) c
  simpa only [CountedBefore, count, idxOf_map_some] using before

omit [DecidableEq α] [BEq α] [LawfulBEq α] in
theorem mem_byCount {counts : List (α × Nat)} {p : α × Nat} : p ∈ byCount counts ↔ p ∈ counts := List.mem_mergeSort

/-- Sorted by count, a tally keeps items of one count in the order in which they are first met. -/
theorem byCount_tally_pairwise (l : List α) :
    (byCount (tally l)).Pairwise fun p q => CountedBefore l p.1 q.1 := by
  have trans : ∀ p q r : α × Nat, decide (q.2 ≤ p.2) → decide (r.2 ≤ q.2) → decide (r.2 ≤ p.2) := by
    intro p q r first second
    simp only [decide_eq_true_eq] at first second ⊢
    omega
  have total : ∀ p q : α × Nat, decide (q.2 ≤ p.2) || decide (p.2 ≤ q.2) := by
    intro p q
    simp only [Bool.or_eq_true, decide_eq_true_eq]
    omega
  refine (pairwise_mergeSort_of_pairwise trans total (tally_pairwise l)).imp_of_mem ?_
  rintro ⟨a, m⟩ ⟨b, n⟩ entry entry' ⟨better, earlier⟩
  have count := (mem_tally.mp (mem_byCount.mp entry)).2
  have count' := (mem_tally.mp (mem_byCount.mp entry')).2
  simp only [decide_eq_true_eq] at better earlier
  simp only [CountedBefore]
  omega

theorem count_add_count_le (l : List α) (differ : a ≠ b) : l.count a + l.count b ≤ l.length := by
  induction l with
  | nil => simp
  | cons c l ih =>
    simp only [List.count_cons, List.length_cons, beq_iff_eq]
    split_ifs with here there
    · exact absurd (here.symm.trans there) differ
    all_goals omega

/-- The first entry by falling count belongs to an item of more than half of the list if there is one. -/
theorem head?_byCount_tally_iff :
    (∃ n, (byCount (tally l)).head? = some (a, n) ∧ l.length < 2 * n) ↔ l.length < 2 * l.count a := by
  constructor
  · rintro ⟨n, first, most⟩
    obtain ⟨-, rfl⟩ := mem_tally.mp (mem_byCount.mp (List.mem_of_head? first))
    exact most
  · intro most
    have occurs : a ∈ l := List.count_pos_iff.mp (by omega)
    have entry := mem_byCount.mpr (mem_tally.mpr ⟨occurs, rfl⟩)
    cases sorted : byCount (tally l) with
    | nil =>
      rw [sorted] at entry
      cases entry
    | cons p rest =>
      have order := byCount_tally_pairwise l
      rw [sorted] at entry order
      rcases List.mem_cons.mp entry with first | later
      · exact ⟨_, congrArg some first.symm, most⟩
      · -- What goes before the majority would have to be a majority too.
        have before : CountedBefore l p.1 a := (List.pairwise_cons.mp order).1 _ later
        have differ : p.1 ≠ a := by
          rintro rfl
          unfold CountedBefore at before
          omega
        have both := count_add_count_le l differ
        unfold CountedBefore at before
        omega

end Tally

end Mender
