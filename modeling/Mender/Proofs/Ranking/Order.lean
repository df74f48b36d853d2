import Mathlib.Data.List.Nodup
import Mender.Proofs.Ranking.Writable

namespace Mender

section Keys

variable {α κ : Type} [DecidableEq κ]

theorem firstByKey_sublist (key : α → κ) (seen : List κ) (l : List α) : (firstByKey key seen l).Sublist l := by
  fun_induction firstByKey key seen l with
  | case1 => exact .slnil
  | case2 _ a _ _ ih => exact ih.cons a
  | case3 _ a _ _ ih => exact ih.cons_cons a

theorem notMem_of_mem_firstByKey {key : α → κ} {seen : List κ} {l : List α} {a : α}
    (member : a ∈ firstByKey key seen l) : key a ∉ seen := by
  fun_induction firstByKey key seen l with
  | case1 => cases member
  | case2 _ _ _ _ ih => exact ih member
  | case3 _ _ _ new ih =>
    rcases List.mem_cons.mp member with rfl | later
    · exact new
    · exact fun old => ih later (List.mem_cons_of_mem _ old)

/-- One item is kept for each key. -/
theorem nodup_map_firstByKey (key : α → κ) (seen : List κ) (l : List α) :
    ((firstByKey key seen l).map key).Nodup := by
  fun_induction firstByKey key seen l with
  | case1 => exact .nil
  | case2 _ _ _ _ ih => exact ih
  | case3 _ a rest _ ih =>
    rw [List.map_cons, List.nodup_cons]
    refine ⟨fun again => ?_, ih⟩
    obtain ⟨b, member, same⟩ := List.mem_map.mp again
    exact notMem_of_mem_firstByKey member (same ▸ List.mem_cons_self)

theorem firstByKey_of_nodup {key : α → κ} {seen : List κ} {l : List α} (distinct : (l.map key).Nodup)
    (new : ∀ a ∈ l, key a ∉ seen) : firstByKey key seen l = l := by
  induction l generalizing seen with
  | nil => rfl
  | cons a l ih =>
    rw [List.map_cons, List.nodup_cons] at distinct
    rw [firstByKey, if_neg (new a List.mem_cons_self), ih distinct.2]
    intro b member old
    rcases List.mem_cons.mp old with same | old
    · exact distinct.1 (same ▸ List.mem_map_of_mem member)
    · exact new b (List.mem_cons_of_mem a member) old

/-- Only which of the keys have been seen matters, not in which order. -/
theorem firstByKey_congr {key : α → κ} {seen seen' : List κ} {l : List α}
    (same : ∀ a ∈ l, key a ∈ seen ↔ key a ∈ seen') : firstByKey key seen l = firstByKey key seen' l := by
  have all := filter_firstByKey (p := fun _ => true) (fun _ _ _ => rfl) seen seen' l fun a member _ => same a member
  rwa [List.filter_true, List.filter_true] at all

/-- One more key that is known takes away what has this key. -/
theorem firstByKey_of_known {key : α → κ} {seen seen' : List κ} {l : List α} {k : κ}
    (known : ∀ a ∈ l, key a ∈ seen' ↔ key a = k ∨ key a ∈ seen) :
    firstByKey key seen' l = (firstByKey key seen l).filter fun a => key a ≠ k := by
  have together : ∀ a b, key a = key b → decide (key a ≠ k) = decide (key b ≠ k) := fun a b same => by rw [same]
  have less := filter_firstByKey together seen seen' l fun a member other => by
    rw [known a member, or_iff_right (of_decide_eq_true other)]
  have same := filter_firstByKey together seen' seen' l fun _ _ _ => Iff.rfl
  have new : ∀ a ∈ firstByKey key seen' l, decide (key a ≠ k) = true := fun a kept =>
    decide_eq_true fun here => notMem_of_mem_firstByKey kept ((known a (mem_of_mem_firstByKey kept)).mpr (Or.inl here))
  rw [less, ← same, List.filter_eq_self.mpr new]

/-- What is left out stands behind something with its key. -/
theorem exists_mem_firstByKey (key : α → κ) {before : α → α → Prop} {seen : List κ} {l : List α} {a : α}
    (order : l.Pairwise before) (member : a ∈ l) (new : key a ∉ seen) :
    ∃ b ∈ firstByKey key seen l, key b = key a ∧ (b = a ∨ before b a) := by
  induction l generalizing seen with
  | nil => cases member
  | cons c l ih =>
    obtain ⟨first, order⟩ := List.pairwise_cons.mp order
    by_cases same : key c = key a
    · refine ⟨c, ?_, same, ?_⟩
      · rw [firstByKey, if_neg (same ▸ new)]
        exact List.mem_cons_self
      · rcases List.mem_cons.mp member with here | later
        · exact Or.inl here.symm
        · exact Or.inr (first a later)
    · have later : a ∈ l := List.mem_of_ne_of_mem (fun here => same (here ▸ rfl)) member
      by_cases old : key c ∈ seen
      · rw [firstByKey, if_pos old]
        exact ih order later new
      · have unseen : key a ∉ key c :: seen := by
          rw [List.mem_cons, not_or]
          exact ⟨Ne.symm same, new⟩
        obtain ⟨b, kept, alike, front⟩ := ih order later unseen
        rw [firstByKey, if_neg old]
        exact ⟨b, List.mem_cons_of_mem c kept, alike, front⟩

end Keys

theorem nodup_places {α : Type} (l : List α) (le : α × Nat → α × Nat → Bool) :
    ((l.zipIdx.mergeSort le).map Prod.snd).Nodup := by
  rw [((List.mergeSort_perm _ _).map Prod.snd).nodup_iff, List.zipIdx_map_snd]
  exact List.nodup_range'

/-- Of two items that a stable sort holds to be equally good, the one that comes first stood first. -/
theorem pairwise_places {α : Type} {le : α → α → Bool} (trans : ∀ a b c, le a b → le b c → le a c)
    (total : ∀ a b, le a b || le b a) (l : List α) :
    (l.zipIdx.mergeSort (List.zipIdxLE le)).Pairwise fun p q => le p.1 q.1 ∧ (le q.1 p.1 → p.2 < q.2) := by
  have sorted := List.pairwise_mergeSort (List.zipIdxLE_trans trans) (List.zipIdxLE_total total) l.zipIdx
  have places : (l.zipIdx.mergeSort (List.zipIdxLE le)).Pairwise fun p q => p.2 ≠ q.2 :=
    List.pairwise_map.mp (nodup_places l _)
  refine (sorted.and places).imp ?_
  rintro p q ⟨order, apart⟩
  unfold List.zipIdxLE at order
  split_ifs at order with better alike
  · have earlier : p.2 ≤ q.2 := of_decide_eq_true order
    exact ⟨better, fun _ => by omega⟩
  · exact ⟨better, fun back => absurd back alike⟩

/-- A candidate goes before another one: it is surer, or as sure and proposed earlier. Each comes with its place
among the candidates. -/
def Fix.Before (p q : Fix × Nat) : Prop :=
  q.1.confidence.value.rank < p.1.confidence.value.rank ∨
    q.1.confidence.value.rank = p.1.confidence.value.rank ∧ p.2 < q.2

/-- The ranked fixes, each with its place among the candidates. -/
structure Ranked (candidates : List Fix) (ranked : List (Fix × Nat)) : Prop where
  proposed : ∀ p ∈ ranked, candidates[p.2]? = some p.1 ∧ p.1.edits ≠ []
  ordered : ranked.Pairwise Fix.Before
  distinct : ranked.Pairwise fun p q => p.1.edits ≠ q.1.edits
  kept : ∀ p ∈ candidates.zipIdx, p.1.edits ≠ [] → ∃! q, q ∈ ranked ∧ q.1.edits = p.1.edits
  best : ∀ q ∈ ranked, ∀ p ∈ candidates.zipIdx, p.1.edits = q.1.edits → q = p ∨ Fix.Before q p

theorem Fix.signature_eq_iff {f g : Fix} : f.signature = g.signature ↔ f.edits = g.edits := by
  refine ⟨edits_eq_of_signature, fun same => ?_⟩
  rw [signature, signature, same]

/-- The candidates with edits in the order of ranking, with their places. -/
def placedBySureness (candidates : List Fix) : List (Fix × Nat) :=
  (candidates.zipIdx.mergeSort (List.zipIdxLE fun f g => f.confidence.atLeast g.confidence)).filter fun p =>
    !p.1.edits.isEmpty

/-- The ranked fixes with their places among the candidates. -/
def rankedPlaces (candidates : List Fix) : List (Fix × Nat) :=
  firstByKey (fun p => p.1.signature) [] (placedBySureness candidates)

section Places

variable {candidates : List Fix}

theorem mem_placedBySureness {p : Fix × Nat} :
    p ∈ placedBySureness candidates ↔ p ∈ candidates.zipIdx ∧ p.1.edits ≠ [] := by
  rw [placedBySureness, List.mem_filter, List.mem_mergeSort, Bool.not_eq_true', List.isEmpty_eq_false_iff]

theorem map_fst_placedBySureness : (placedBySureness candidates).map Prod.fst = bySureness candidates := by
  have sorted : (candidates.zipIdx.mergeSort (List.zipIdxLE fun f g => f.confidence.atLeast g.confidence)).map
      Prod.fst = candidates.mergeSort fun f g => f.confidence.atLeast g.confidence := List.mergeSort_zipIdx
  have through := List.filter_map (f := Prod.fst) (p := fun f : Fix => !f.edits.isEmpty)
    (l := candidates.zipIdx.mergeSort (List.zipIdxLE fun f g => f.confidence.atLeast g.confidence))
  rw [placedBySureness, bySureness, ← filter_mergeSort Fix.atLeast_trans Fix.atLeast_total, ← sorted]
  exact through.symm

theorem placedBySureness_before : (placedBySureness candidates).Pairwise Fix.Before := by
  refine ((pairwise_places Fix.atLeast_trans Fix.atLeast_total candidates).filter _).imp ?_
  rintro ⟨f, i⟩ ⟨g, j⟩ ⟨better, earlier⟩
  simp only [Confidence.atLeast, decide_eq_true_eq] at better earlier
  simp only [Fix.Before]
  omega

theorem map_fst_rankedPlaces : (rankedPlaces candidates).map Prod.fst = rankFixes candidates := by
  rw [rankFixes, ← map_fst_placedBySureness]
  exact (firstByKey_map (fun _ => rfl) [] _).symm

theorem rankedPlaces_sublist : (rankedPlaces candidates).Sublist (placedBySureness candidates) :=
  firstByKey_sublist _ _ _

theorem nodup_rankedPlaces : ((rankedPlaces candidates).map fun p => p.1.signature).Nodup :=
  nodup_map_firstByKey _ _ _

/-- Every candidate with edits has one in its place: itself, or one that goes before it. -/
theorem exists_rankedPlaces {p : Fix × Nat} (member : p ∈ candidates.zipIdx) (edited : p.1.edits ≠ []) :
    ∃ q ∈ rankedPlaces candidates, q.1.edits = p.1.edits ∧ (q = p ∨ Fix.Before q p) := by
  obtain ⟨q, kept, same, front⟩ := exists_mem_firstByKey (fun p : Fix × Nat => p.1.signature)
    placedBySureness_before (mem_placedBySureness.mpr ⟨member, edited⟩) List.not_mem_nil
  exact ⟨q, kept, Fix.signature_eq_iff.mp same, front⟩

/-- No two ranked places hold the same edits. -/
theorem eq_of_mem_rankedPlaces {p q : Fix × Nat} (member : p ∈ rankedPlaces candidates)
    (member' : q ∈ rankedPlaces candidates) (same : p.1.edits = q.1.edits) : p = q :=
  List.inj_on_of_nodup_map nodup_rankedPlaces member member' (Fix.signature_eq_iff.mpr same)

theorem ranked_rankedPlaces (candidates : List Fix) : Ranked candidates (rankedPlaces candidates) where
  proposed := by
    intro p kept
    obtain ⟨member, edited⟩ := mem_placedBySureness.mp (rankedPlaces_sublist.subset kept)
    exact ⟨List.mem_zipIdx_iff_getElem?.mp member, edited⟩
  ordered := placedBySureness_before.sublist rankedPlaces_sublist
  distinct := (List.pairwise_map.mp nodup_rankedPlaces).imp fun differ same =>
    differ (Fix.signature_eq_iff.mpr same)
  kept := by
    intro p member edited
    obtain ⟨q, kept, same, _⟩ := exists_rankedPlaces member edited
    refine ⟨q, ⟨kept, same⟩, fun r other => ?_⟩
    exact eq_of_mem_rankedPlaces other.1 kept (other.2.trans same.symm)
  best := by
    intro q kept p member same
    have edited := (mem_placedBySureness.mp (rankedPlaces_sublist.subset kept)).2
    obtain ⟨r, kept', same', front⟩ := exists_rankedPlaces member (same ▸ edited)
    cases eq_of_mem_rankedPlaces kept' kept (same'.trans same)
    exact front

end Places

/-- Ranking what is ranked changes nothing. -/
theorem rankFixes_rankFixes (candidates : List Fix) : rankFixes (rankFixes candidates) = rankFixes candidates := by
  have part := firstByKey_sublist Fix.signature [] (bySureness candidates)
  have edited : ∀ f ∈ rankFixes candidates, f.edits ≠ [] := fun f member =>
    (mem_bySureness.mp (part.subset member)).2
  have still : bySureness (rankFixes candidates) = rankFixes candidates := by
    rw [bySureness_of_edited edited]
    exact List.mergeSort_of_pairwise ((pairwise_bySureness candidates).sublist part)
  rw [rankFixes, still]
  exact firstByKey_of_nodup (nodup_map_firstByKey _ _ _) fun _ _ => List.not_mem_nil

/-- Ranking a ranked list changes nothing. -/
theorem rankFixes?_rankFixes {candidates : List Fix} (writable : ∀ f ∈ candidates, f.Writable) :
    rankFixes? (rankFixes candidates) = .ok (rankFixes candidates) := by
  rw [rankFixes?_of_writable fun f member => writable f (mem_of_mem_rankFixes member), rankFixes_rankFixes]

/-- Batches of candidates whose edits can be written out are ranked, one batch after the other: there is one
fix for each list of edits that was proposed, the surest one with these edits, and of equally sure ones the
earliest. What counts as the same list of edits is told from their JSON texts, and these differ where the
edits do. -/
theorem batches_ranked {batches : List (List Fix)} (writable : ∀ batch ∈ batches, ∀ f ∈ batch, f.Writable) :
    (∃ ranked, rankFixes? batches.flatten = .ok (ranked.map Prod.fst) ∧ Ranked batches.flatten ranked) ∧
      ∀ f g : Fix, f.signature = g.signature ↔ f.edits = g.edits := by
  refine ⟨⟨_, ?_, ranked_rankedPlaces batches.flatten⟩, fun f g => Fix.signature_eq_iff⟩
  rw [map_fst_rankedPlaces]
  refine rankFixes?_of_writable fun f member => ?_
  obtain ⟨batch, listed, member⟩ := List.mem_flatten.mp member
  exact writable batch listed f member

/-- An insertion is proposed twice, first without confidence; an insertion of no text and one of the empty text
are proposed once each. -/
def rivals : List (List Fix) :=
  let half : Confidence := ⟨Binary64.ofFraction false 1 2, by decide, by decide⟩
  let proposal (title : Text) (text : Option Text) (confidence : Confidence) : Fix :=
    ⟨none, title, "", [⟨.insert, Position.textStart, none, text⟩], confidence, .rule⟩
  [[proposal "unsure" (some "x") Confidence.zero, proposal "no text" none half],
    [⟨none, "no edits", "", [], half, .rule⟩, proposal "sure" (some "x") half,
      proposal "empty text" (some "") half]]

theorem rivals_ranked :
    (∀ batch ∈ rivals, ∀ f ∈ batch, f.Writable) ∧
      (∃ ranked, rankFixes? rivals.flatten = .ok (ranked.map Prod.fst) ∧ Ranked rivals.flatten ranked) ∧
      ∀ f g : Fix, f.signature = g.signature ↔ f.edits = g.edits := by
  have writable : ∀ batch ∈ rivals, ∀ f ∈ batch, f.Writable := by
    simp only [Fix.Writable]
    decide
  exact ⟨writable, batches_ranked writable⟩

end Mender
