import Mender.Generator.KnownNames
import Mender.Proofs.Ranking.Order
import Mender.Proofs.Similarity

namespace Mender.KnownNames

/-- A known name goes before another one: it is more similar to the identifier, or as similar and listed earlier. Each
comes with its place in the list. -/
def Before (identifier : Text) (p q : Text × Nat) : Prop :=
  (similarity identifier q.1).rank < (similarity identifier p.1).rank ∨
    (similarity identifier q.1).rank = (similarity identifier p.1).rank ∧ p.2 < q.2

/-- The name is another one than the identifier, and its similarity is above the threshold. -/
def Qualifies (threshold : Amount) (identifier name : Text) : Prop :=
  name ≠ identifier ∧ threshold.lt (.real (similarity identifier name))

/-- The best of the names that qualify, as many as the limit allows, each with its place in the list. -/
structure Chosen (names : List Text) (threshold : Amount) (limit : Nat) (identifier : Text)
    (chosen : List (Text × Nat)) : Prop where
  listed : ∀ p ∈ chosen, names[p.2]? = some p.1 ∧ Qualifies threshold identifier p.1
  ordered : chosen.Pairwise (Before identifier)
  atMost : chosen.length ≤ limit
  best : ∀ p ∈ names.zipIdx, Qualifies threshold identifier p.1 → p ∉ chosen → ∀ q ∈ chosen, Before identifier q p
  full : chosen.length < limit → ∀ p ∈ names.zipIdx, Qualifies threshold identifier p.1 → p ∈ chosen

def withSimilarity (identifier name : Text) : Text × Binary64 := (name, similarity identifier name)

def qualifies (threshold : Amount) (identifier name : Text) : Bool :=
  name ≠ identifier && threshold.lt (.real (similarity identifier name))

/-- The program's test is the strict bound on likeness, the name itself left out. -/
theorem qualifies_iff {threshold : Amount} {identifier name : Text} :
    qualifies threshold identifier name ↔ Qualifies threshold identifier name := by
  simp [qualifies, Qualifies]

/-- The first name is at least as similar to the identifier as the second. -/
def atLeastAs (identifier name other : Text) : Bool :=
  (similarity identifier other).rank ≤ (similarity identifier name).rank

theorem atLeastAs_trans (identifier a b c : Text) (first : atLeastAs identifier a b)
    (second : atLeastAs identifier b c) : atLeastAs identifier a c := by
  simp only [atLeastAs, decide_eq_true_eq] at first second ⊢
  omega

theorem atLeastAs_total (identifier a b : Text) : atLeastAs identifier a b || atLeastAs identifier b a := by
  simp only [atLeastAs, Bool.or_eq_true, decide_eq_true_eq]
  omega

section Places

variable {names : List Text} {threshold : Amount} {identifier : Text}

/-- The names that qualify, in the order of suggestion, with their places. -/
def placedByLikeness (names : List Text) (threshold : Amount) (identifier : Text) : List (Text × Nat) :=
  (names.zipIdx.mergeSort (List.zipIdxLE (atLeastAs identifier))).filter fun p => qualifies threshold identifier p.1

theorem mem_placedByLikeness {p : Text × Nat} :
    p ∈ placedByLikeness names threshold identifier ↔ p ∈ names.zipIdx ∧ Qualifies threshold identifier p.1 := by
  rw [placedByLikeness, List.mem_filter, List.mem_mergeSort, qualifies_iff]

/-- Names of equal likeness keep the order of the list they come from. -/
theorem placedByLikeness_before : (placedByLikeness names threshold identifier).Pairwise (Before identifier) := by
  have sorted := pairwise_places (atLeastAs_trans identifier) (atLeastAs_total identifier) names
  refine (sorted.filter _).imp ?_
  rintro ⟨name, i⟩ ⟨other, j⟩ ⟨better, earlier⟩
  simp only [atLeastAs, decide_eq_true_eq] at better earlier
  simp only [Before]
  omega

theorem above_scored (names : List Text) (threshold : Amount) (identifier : Text) :
    above (.fit threshold) (scored names identifier) =
      .ok ((names.filter (qualifies threshold identifier)).map (withSimilarity identifier)) := by
  have through := List.filter_map (f := withSimilarity identifier) (p := fun p => threshold.lt (.real p.2))
    (l := names.filter (· ≠ identifier))
  rw [List.filter_filter] at through
  rw [above, scored]
  refine congrArg Except.ok (through.trans (congrArg (List.map _) (List.filter_congr fun name _ => ?_)))
  exact Bool.and_comm _ _

theorem byLikeness_map (names : List Text) (identifier : Text) :
    byLikeness (names.map (withSimilarity identifier)) =
      (names.mergeSort (atLeastAs identifier)).map (withSimilarity identifier) := by
  have sorted := List.map_mergeSort (f := withSimilarity identifier) (r := atLeastAs identifier)
    (s := fun p q : Text × Binary64 => q.2.rank ≤ p.2.rank) (l := names) fun _ _ _ _ => rfl
  exact sorted.symm

theorem map_fst_placedByLikeness :
    (placedByLikeness names threshold identifier).map Prod.fst =
      (names.filter (qualifies threshold identifier)).mergeSort (atLeastAs identifier) := by
  have sorted : (names.zipIdx.mergeSort (List.zipIdxLE (atLeastAs identifier))).map Prod.fst =
      names.mergeSort (atLeastAs identifier) := List.mergeSort_zipIdx
  have through := List.filter_map (f := Prod.fst) (p := qualifies threshold identifier)
    (l := names.zipIdx.mergeSort (List.zipIdxLE (atLeastAs identifier)))
  rw [placedByLikeness, ← filter_mergeSort (atLeastAs_trans identifier) (atLeastAs_total identifier), ← sorted]
  exact through.symm

/-- The suggestions are the first names by likeness, as many as the limit lets through. -/
theorem suggest_eq (names : List Text) (threshold : Amount) (limit : Nat) (identifier : Text) :
    suggest ⟨names, .fit threshold, .fit (some limit)⟩ identifier =
      .ok (((placedByLikeness names threshold identifier).take limit).map fun p => withSimilarity identifier p.1) := by
  have places : ((placedByLikeness names threshold identifier).take limit).map (fun p => withSimilarity identifier p.1) =
      (((placedByLikeness names threshold identifier).map Prod.fst).map (withSimilarity identifier)).take limit := by
    rw [List.map_map, List.map_take]
    rfl
  have kept : ∀ l : List (Text × Binary64), takeTo l limit = l.take limit := fun l => by simp [takeTo]
  rw [places, map_fst_placedByLikeness, ← byLikeness_map, ← kept]
  unfold suggest
  rw [above_scored]
  rfl

/-- The front of the sorted list is the best choice: a name left out is no better than any taken. -/
theorem chosen_placedByLikeness (names : List Text) (threshold : Amount) (limit : Nat) (identifier : Text) :
    Chosen names threshold limit identifier ((placedByLikeness names threshold identifier).take limit) where
  listed := by
    intro p member
    obtain ⟨here, good⟩ := mem_placedByLikeness.mp (List.mem_of_mem_take member)
    exact ⟨List.mem_zipIdx_iff_getElem?.mp here, good⟩
  ordered := placedByLikeness_before.sublist (List.take_sublist _ _)
  atMost := List.length_take_le _ _
  best := by
    intro p here good out q chosen
    have member := mem_placedByLikeness.mpr ⟨here, good⟩
    have order : (placedByLikeness names threshold identifier).Pairwise (Before identifier) := placedByLikeness_before
    rw [← List.take_append_drop limit (placedByLikeness names threshold identifier)] at member order
    have later := (List.mem_append.mp member).resolve_left out
    exact (List.pairwise_append.mp order).2.2 q chosen p later
  full := by
    intro short p here good
    rw [List.length_take] at short
    rw [List.take_of_length_le (by omega)]
    exact mem_placedByLikeness.mpr ⟨here, good⟩

end Places

/-- A name makes a fix with its similarity as confidence, wherever it is put. -/
theorem fixOf?_withSimilarity (p : Position) (start : Nat) (identifier name : Text) :
    ∃ f, fixOf? p start identifier (withSimilarity identifier name) = .ok f ∧
      f.confidence.value = similarity identifier name := by
  obtain ⟨confidence, accepted, value⟩ := ofBinary64?_similarity identifier name
  exact ⟨_, by rw [fixOf?, withSimilarity, accepted], value⟩

/-- What is suggested for an identifier are the best of the known names that differ from it and are above the
threshold: the more similar ones first, of equally similar ones those listed earlier, and no more than the limit. The
exact similarity lies from zero to one and is below one for another name. What is worked with is its rounding, which
keeps the order, and for which no fix is refused. -/
theorem suggest_best (names : List Text) (threshold : Amount) (limit : Nat) (identifier : Text) :
    (∃ chosen, suggest ⟨names, .fit threshold, .fit (some limit)⟩ identifier =
        .ok (chosen.map fun p => (p.1, similarity identifier p.1)) ∧
      Chosen names threshold limit identifier chosen) ∧
    ∀ name, 0 ≤ likeness identifier name ∧ likeness identifier name ≤ 1 ∧
      (name ≠ identifier → likeness identifier name < 1) ∧
      (∃ num den : Nat, likeness identifier name = num / den ∧
        similarity identifier name = Binary64.ofFraction false num den) ∧
      (∀ other, likeness identifier name ≤ likeness identifier other →
        (similarity identifier name).rank ≤ (similarity identifier other).rank) ∧
      ∀ p start, ∃ f, fixOf? p start identifier (name, similarity identifier name) = .ok f ∧
        f.confidence.value = similarity identifier name := by
  constructor
  · exact ⟨_, suggest_eq names threshold limit identifier, chosen_placedByLikeness names threshold limit identifier⟩
  · intro name
    obtain ⟨num, den, -, -, exact, rounded⟩ := similarity_rounds identifier name
    refine ⟨likeness_nonneg _ _, likeness_le_one _ _, fun differ => likeness_lt_one differ.symm,
      ⟨num, den, exact, rounded⟩, fun other => similarity_mono, fun p start => ?_⟩
    exact fixOf?_withSimilarity p start identifier name

end Mender.KnownNames
