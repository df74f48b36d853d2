import Mender.Proofs.Analysis.Tally
import Mender.Proofs.Number.PowerOfTwo

namespace Mender

/-- The rules of some defects without those that are missing or empty. -/
def namedRules (rules : List (Option Text)) : List Text :=
  rules.filterMap fun rule => rule.filter fun r => !r.isEmpty

section NamedRules

variable {rules : List (Option Text)} {r r' : Text}

theorem map_some_namedRules (rules : List (Option Text)) :
    (namedRules rules).map some = rules.filter fun rule => rule.any fun r => !r.isEmpty := by
  induction rules with
  | nil => rfl
  | cons rule rules ih =>
    cases rule with
    | none => exact ih
    | some r =>
      cases r with
      | nil => exact ih
      | cons c r => exact congrArg (some (c :: r) :: ·) ih

theorem any_named_iff : ((some r).any fun r => !r.isEmpty) = true ↔ r ≠ [] := by
  simp

theorem mem_namedRules : r ∈ namedRules rules ↔ r ≠ [] ∧ some r ∈ rules := by
  rw [← List.mem_map_of_injective (fun _ _ => Option.some.inj), map_some_namedRules, List.mem_filter, any_named_iff,
    and_comm]

theorem count_namedRules (named : r ≠ []) : (namedRules rules).count r = rules.count (some r) := by
  rw [← List.count_map_of_injective _ some (fun _ _ => Option.some.inj), map_some_namedRules,
    List.count_filter (any_named_iff.mpr named)]

theorem CountedBefore.of_namedRules (named : r ≠ []) (named' : r' ≠ [])
    (before : CountedBefore (namedRules rules) r r') : CountedBefore rules (some r) (some r') := by
  have before' := before.map_some
  rw [map_some_namedRules] at before'
  exact before'.of_filter (any_named_iff.mpr named) (any_named_iff.mpr named')

end NamedRules

namespace Analysis

def manyErrorsText : Text :=
  "Many errors reported: review the overall code structure before fixing individual defects"

def focusText (category : Text) : Text :=
  "Most defects are " ++ category ++ " issues: focus on " ++ category ++ " fixes first"

def automaticText : Text := "Most defects are automatically fixable: run auto-heal"

def bulkText (rule : Text) : Text := "Fix all " ++ rule ++ " defects in bulk"

def patternText (rule : Text) (count : Nat) : Text :=
  "Repeated " ++ rule ++ " defects (" ++ Text.ofNat count ++ " occurrences)"

section Texts

variable {category category' rule : Text}

theorem focusText_inj : focusText category = focusText category' ↔ category = category' := by
  refine ⟨fun same => ?_, congrArg focusText⟩
  have size : category.length = category'.length := by
    have sizes := congrArg List.length same
    simp only [focusText, List.length_append] at sizes
    omega
  simp only [focusText, List.append_assoc, List.append_cancel_left_eq] at same
  exact (List.append_inj same size).1

theorem focusText_ne_manyErrorsText : focusText category ≠ manyErrorsText := by
  intro same
  have second : (focusText category)[1]? = manyErrorsText[1]? := congrArg (·[1]?) same
  have left : (focusText category)[1]? = some (CodePoint.ofChar 'o') := rfl
  rw [left] at second
  exact absurd second (by decide)

theorem focusText_ne_automaticText : focusText category ≠ automaticText := by
  intro same
  have last : (focusText category).getLast? = automaticText.getLast? := congrArg List.getLast? same
  have left : (focusText category).getLast? = some (CodePoint.ofChar 't') := by
    rw [focusText, List.getLast?_append]
    rfl
  rw [left] at last
  exact absurd last (by decide)

theorem ne_bulkText {t : Text} (start : t.head? ≠ some (CodePoint.ofChar 'F')) : t ≠ bulkText rule := by
  rintro rfl
  exact start rfl

end Texts

/-- A count exceeds the whole number in place of an amount exactly when it exceeds the amount. -/
theorem wholeThreshold_lt_iff {most n : Nat} (counted : n ≤ most) (a : Amount) :
    wholeThreshold most a < n ↔ a.lt (.whole n) = true := by
  cases a with
  | whole m => simp [wholeThreshold, Amount.lt]
  | real x =>
    have below : (0 : Int) < x.fraction.2 := mod_cast Binary64.twoTo_pos _
    by_cases finite : x.isFinite = true
    · simp only [wholeThreshold, Amount.lt, finite, Binary64.isNan_of_isFinite finite,
        Binary64.isInfinite_of_isFinite finite, Bool.false_eq_true, if_true, if_false, decide_eq_true_eq]
      rw [Int.fdiv_eq_ediv_of_nonneg _ below.le, Int.ediv_lt_iff_lt_mul below]
      split_ifs <;> simp
    · have beyond : x.isFinite = false := Bool.eq_false_of_not_eq_true finite
      simp only [wholeThreshold, Amount.lt, beyond, Binary64.isNan_of_not_isFinite beyond]
      cases x.isInfinite <;> cases x.negative <;> simp <;> omega

section Parts

variable {defects : List Defect} {r : Text} {n : Nat} {threshold : Int}

theorem repeatedRules_eq (defects : List Defect) (threshold : Int) :
    repeatedRules defects threshold =
      (byCount (tally (namedRules (defects.map Defect.rule)))).filter fun p => threshold < p.2 := by
  rw [repeatedRules, namedRules, List.filterMap_map]
  rfl

/-- A rule is listed exactly when it has a name and stands with more defects than the threshold; the
number beside it is how many. -/
theorem mem_repeatedRules :
    (r, n) ∈ repeatedRules defects threshold ↔
      (r ≠ [] ∧ some r ∈ defects.map Defect.rule ∧ threshold < n) ∧ n = (defects.map Defect.rule).count (some r) := by
  rw [repeatedRules_eq, List.mem_filter, mem_byCount, mem_tally, mem_namedRules, decide_eq_true_eq]
  constructor
  · rintro ⟨⟨⟨named, occurs⟩, rfl⟩, most⟩
    exact ⟨⟨named, occurs, most⟩, count_namedRules named⟩
  · rintro ⟨⟨named, occurs, most⟩, rfl⟩
    exact ⟨⟨⟨named, occurs⟩, (count_namedRules named).symm⟩, most⟩

/-- Repeated rules stand by falling count, and rules of one count by where they are first met. -/
theorem repeatedRules_pairwise (defects : List Defect) (threshold : Int) :
    (repeatedRules defects threshold).Pairwise fun p q =>
      CountedBefore (defects.map Defect.rule) (some p.1) (some q.1) := by
  rw [repeatedRules_eq]
  refine ((byCount_tally_pairwise _).filter _).imp_of_mem fun {p q} entry entry' before => ?_
  have named (p : Text × Nat) (entry : p ∈ (byCount (tally (namedRules (defects.map Defect.rule)))).filter
      fun p => threshold < p.2) : p.1 ≠ [] := by
    rw [← repeatedRules_eq] at entry
    exact (mem_repeatedRules.mp entry).1.1
  exact before.of_namedRules (named p entry) (named q entry')

/-- The main category is the one of more than half of the defects. -/
theorem mainCategory?_eq_some_iff {category : Text} :
    mainCategory? defects = some category ↔
      2 ≤ defects.length ∧ defects.length < 2 * (defects.map Defect.category).count category := by
  have most := head?_byCount_tally_iff (l := defects.map Defect.category) (a := category)
  rw [List.length_map] at most
  rw [← most, mainCategory?]
  split_ifs with few
  · exact iff_of_false nofun fun both => absurd both.1 (by omega)
  · cases byCount (tally (defects.map Defect.category)) with
    | nil => simp
    | cons p rest =>
      obtain ⟨first, n⟩ := p
      dsimp only
      constructor
      · intro main
        split_ifs at main with majority
        cases main
        exact ⟨by omega, n, rfl, majority⟩
      · rintro ⟨-, m, first, majority⟩
        cases first
        exact if_pos majority

/-- Every defect has one severity, so the counts for the severities add up to all defects. -/
theorem sum_severities (defects : List Defect) :
    (Severity.all.map fun s => defects.countP fun d => d.severity = s).sum = defects.length := by
  induction defects with
  | nil => rfl
  | cons d defects ih =>
    simp only [Severity.all, List.map_cons, List.map_nil, List.sum_cons, List.sum_nil, List.countP_cons,
      List.length_cons] at ih ⊢
    cases d.severity <;> simp <;> omega

theorem mem_severities {word : Text} :
    (word, n) ∈ Severity.all.map (fun s => (s.word, defects.countP fun d => d.severity = s)) ↔
      ∃ s : Severity, word = s.word ∧ n = (defects.map Defect.severity).count s := by
  have count (s : Severity) : (defects.map Defect.severity).count s = defects.countP fun d => d.severity = s := by
    rw [List.count, List.countP_map]
    rfl
  have every (s : Severity) : s ∈ Severity.all := by cases s <;> decide
  simp only [List.mem_map, every, true_and, Prod.mk.injEq, count, eq_comm]

/-- The number of defects that an analysis calls unfixable. -/
theorem unfixable_eq (defects : List Defect) :
    defects.length - defects.countP (fun d => d.fixable = some true) =
      defects.countP fun d => d.fixable ≠ some true := by
  have parts := List.length_eq_countP_add_countP (fun d : Defect => decide (d.fixable = some true)) (l := defects)
  simp only [decide_eq_true_eq] at parts
  exact Nat.sub_eq_of_eq_add (parts.trans (Nat.add_comm _ _))

/-- The recommendations before those to fix a rule in bulk. -/
def general (defects : List Defect) (many : Int) : List Text :=
  (if many < defects.countP fun d => d.severity = .error then [manyErrorsText] else []) ++
    (mainCategory? defects).toList.map focusText ++
    if defects.length - defects.countP (fun d => d.fixable = some true) <
      defects.countP fun d => d.fixable = some true then [automaticText] else []

/-- The advice is the general advice first, then one text for each repeated rule, in the order of
the rules. -/
theorem recommendations_eq (defects : List Defect) (repeated many : Int) :
    (ofDefects defects repeated many).recommendations =
      general defects many ++ ((repeatedRules defects repeated).map Prod.fst).map bulkText := by
  rw [ofDefects, general, List.map_map]
  cases mainCategory? defects <;> rfl

theorem of_mem_general {t : Text} {many : Int} (member : t ∈ general defects many) :
    t = manyErrorsText ∨ (∃ category, mainCategory? defects = some category ∧ t = focusText category) ∨
      t = automaticText := by
  simp only [general, List.mem_append, List.mem_ite_nil_right, List.mem_singleton, List.mem_map,
    Option.mem_toList] at member
  obtain (⟨-, rfl⟩ | ⟨category, main, rfl⟩) | ⟨-, rfl⟩ := member
  · exact Or.inl rfl
  · exact Or.inr (Or.inl ⟨category, main, rfl⟩)
  · exact Or.inr (Or.inr rfl)

theorem ne_bulkText_of_mem_general {t : Text} {many : Int} (member : t ∈ general defects many) (rule : Text) :
    t ≠ bulkText rule := by
  refine ne_bulkText ?_
  obtain rfl | ⟨category, -, rfl⟩ | rfl := of_mem_general member
  all_goals exact nofun

/-- The focus is advised for the main category and for no other: the remaining advice never reads
like it. -/
theorem focusText_mem_iff {category : Text} {repeated many : Int} :
    focusText category ∈ (ofDefects defects repeated many).recommendations ↔ mainCategory? defects = some category := by
  rw [recommendations_eq, List.mem_append]
  constructor
  · rintro (member | member)
    · obtain same | ⟨other, main, same⟩ | same := of_mem_general member
      · exact absurd same focusText_ne_manyErrorsText
      · rw [main, focusText_inj.mp same]
      · exact absurd same focusText_ne_automaticText
    · obtain ⟨rule, -, same⟩ := List.mem_map.mp member
      exact absurd same.symm (ne_bulkText nofun)
  · intro main
    exact Or.inl (by simp [general, main])

end Parts

/-- An analysis tells the truth about some defects. The counts of each kind add up to the number of defects, a rule is
repeated if it has a name and occurs more often than an amount, and the recommendations end with the repeated rules. -/
structure Tallies (defects : List Defect) (repeated : Amount) (a : Analysis) : Prop where
  total : a.total = defects.length
  sums : ∀ counts ∈ [a.byCategory, a.bySeverity, a.byFixability], (counts.map Prod.snd).sum = a.total
  distinct : ∀ counts ∈ [a.byCategory, a.bySeverity, a.byFixability], (counts.map Prod.fst).Nodup
  categories : ∀ category n, (category, n) ∈ a.byCategory ↔
    category ∈ defects.map Defect.category ∧ n = (defects.map Defect.category).count category
  severities : ∀ word n, (word, n) ∈ a.bySeverity ↔
    ∃ s : Severity, word = s.word ∧ n = (defects.map Defect.severity).count s
  fixabilities : ∀ word n, (word, n) ∈ a.byFixability ↔
    word = "fixable" ∧ n = defects.countP (fun d => d.fixable = some true) ∨
      word = "unfixable" ∧ n = defects.countP fun d => d.fixable ≠ some true
  rules : ∃ rules : List Text,
    (∀ rule, rule ∈ rules ↔ rule ≠ [] ∧ some rule ∈ defects.map Defect.rule ∧
      repeated.lt (.whole ((defects.map Defect.rule).count (some rule)))) ∧
    rules.Pairwise (fun rule rule' => CountedBefore (defects.map Defect.rule) (some rule) (some rule')) ∧
    a.repeatedPatterns = rules.map (fun rule => patternText rule ((defects.map Defect.rule).count (some rule))) ∧
    ∃ general, a.recommendations = general ++ rules.map bulkText ∧ ∀ t ∈ general, ∀ rule, t ≠ bulkText rule
  focus : ∀ category, focusText category ∈ a.recommendations ↔
    2 ≤ defects.length ∧ defects.length < 2 * (defects.map Defect.category).count category

theorem ofDefects_tallies (defects : List Defect) (repeated : Amount) (many : Int) :
    (ofDefects defects (wholeThreshold defects.length repeated) many).Tallies defects repeated where
  total := rfl
  sums := by
    simp only [List.forall_mem_cons]
    refine ⟨(sum_tally _).trans (List.length_map _), ?_, ?_, nofun⟩
    · exact (congrArg List.sum (List.map_map ..)).trans (sum_severities defects)
    · have most : defects.countP (fun d => d.fixable = some true) ≤ defects.length := List.countP_le_length
      exact Nat.add_sub_cancel' most
  distinct := by
    simp only [List.forall_mem_cons]
    refine ⟨nodup_tally _, ?_, ?_, nofun⟩
    · exact (by decide : (Severity.all.map Severity.word).Nodup)
    · exact (by decide : (["fixable", "unfixable"] : List Text).Nodup)
  categories _ _ := mem_tally
  severities _ _ := mem_severities
  fixabilities word n := by
    rw [← unfixable_eq]
    simp [ofDefects]
  rules := by
    refine ⟨(repeatedRules defects (wholeThreshold defects.length repeated)).map Prod.fst, fun rule => ?_,
      List.pairwise_map.mpr (repeatedRules_pairwise ..), ?_, _, recommendations_eq .., ?_⟩
    · have counted : (defects.map Defect.rule).count (some rule) ≤ defects.length :=
        List.count_le_length.trans_eq (List.length_map _)
      rw [List.mem_map, ← wholeThreshold_lt_iff counted]
      constructor
      · rintro ⟨⟨rule, n⟩, entry, rfl⟩
        obtain ⟨holds, rfl⟩ := mem_repeatedRules.mp entry
        exact holds
      · exact fun holds => ⟨(rule, _), mem_repeatedRules.mpr ⟨holds, rfl⟩, rfl⟩
    · rw [List.map_map]
      refine List.map_congr_left ?_
      rintro ⟨rule, n⟩ entry
      rw [(mem_repeatedRules.mp entry).2]
      rfl
    · exact fun t => ne_bulkText_of_mem_general
  focus _ := focusText_mem_iff.trans mainCategory?_eq_some_iff

section Thresholds

variable {repeated many : Json} {least most : Amount} (defects : List Defect)
  (first : Loose.amount repeated = .fit least) (second : Loose.amount many = .fit most)

include first second

/-- Thresholds of any kind of number become whole ones first, and none of them is refused. -/
theorem ofDefectsLoosely_eq : ofDefectsLoosely defects repeated many =
    .ok (ofDefects defects (wholeThreshold defects.length least) (wholeThreshold defects.length most)) := by
  rw [ofDefectsLoosely, threshold, threshold, first, second]
  rfl

/-- The analysis of any defects with any two amounts tells the truth about them. -/
theorem ofDefectsLoosely_tallies :
    ∃ a, ofDefectsLoosely defects repeated many = .ok a ∧ a.Tallies defects least :=
  ⟨_, ofDefectsLoosely_eq defects first second, ofDefects_tallies defects least _⟩

end Thresholds

/-- A component without a key, twice, and a remark without a rule. -/
def keyless : List Defect :=
  [⟨"Missing key", .error, some (.behind 3 4), some "react/jsx-key", some true⟩, ⟨"Long file", .info, none, none, none⟩,
    ⟨"Missing key", .error, some (.behind 7 4), some "react/jsx-key", some true⟩]

theorem keyless_tallies :
    ∃ a, ofDefectsLoosely keyless (.int 1) (.int 5) = .ok a ∧ a.Tallies keyless (.whole 1) ∧
      (("react" : Text), 2) ∈ a.byCategory ∧ focusText "react" ∈ a.recommendations := by
  obtain ⟨a, made, tallies⟩ : ∃ a, ofDefectsLoosely keyless (.int 1) (.int 5) = .ok a ∧ a.Tallies keyless (.whole 1) :=
    ofDefectsLoosely_tallies keyless rfl rfl
  exact ⟨a, made, tallies, (tallies.categories "react" 2).mpr (by decide), (tallies.focus "react").mpr (by decide)⟩

end Analysis

end Mender
