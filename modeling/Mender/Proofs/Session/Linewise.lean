import Mender.Proofs.Session.RulesAlone
import Mender.Proofs.Session.Task

namespace Mender

variable {ω : Type}

/-- Where a defect is, and what is said about it. -/
def Defect.remark (d : Defect) : Option Nat × Option Text × Text × Severity := (d.line, d.identity)

/-- A fault of lines: which lines have it, and what is said of one that has. All of it depends on what stands
in the line alone, and an empty line does not have the fault. -/
structure LineFault where
  rule : Text
  faulty : Text → Bool
  message : Text → Text
  severity : Text → Severity
  faulty_nil : faulty [] = false

namespace LineFault

/-- What is said of a line with the fault, wherever it stands. -/
def identity (k : LineFault) (l : Text) : Option Text × Text × Severity := (some k.rule, k.message l, k.severity l)

/-- What there is to remark on a text: one thing for each line with the fault, in the order of the lines. -/
def remarks (k : LineFault) (t : Text) : List (Option Nat × Option Text × Text × Severity) :=
  (t.lines.zipIdx.filter fun p => k.faulty p.1).map fun p => (some (p.2 + 1), k.identity p.1)

/-- The lines that come in the place of a line. -/
def mendLine (k : LineFault) (others : Text → List Text) (l : Text) : List Text :=
  if k.faulty l then others l else [l]

def mend (k : LineFault) (others : Text → List Text) (t : Text) : Text :=
  Text.ofLines (t.lines.flatMap (k.mendLine others))

variable {k : LineFault} {others : Text → List Text} {t l : Text} {front back ls : List Text} {i : Nat}

theorem map_snd_remarks (k : LineFault) (t : Text) :
    (k.remarks t).map Prod.snd = (t.lines.filter k.faulty).map k.identity := by
  have lines := List.filter_map (f := Prod.fst) (p := k.faulty) (l := t.lines.zipIdx)
  rw [List.zipIdx_map_fst] at lines
  rw [lines, remarks, List.map_map, List.map_map]
  rfl

theorem exists_at_of_mem_remarks {remark : Option Nat × Option Text × Text × Severity}
    (member : remark ∈ k.remarks t) : ∃ i front l back, t.At i front l back ∧ k.faulty l = true ∧
      remark = (some (i + 1), k.identity l) := by
  obtain ⟨⟨l, i⟩, found, rfl⟩ := List.mem_map.mp member
  obtain ⟨listed, faulty⟩ := List.mem_filter.mp found
  obtain ⟨front, back, cut⟩ := Text.exists_at_of_getElem? (List.mem_zipIdx_iff_getElem?.mp listed)
  exact ⟨i, front, l, back, cut, faulty, rfl⟩

theorem filter_lines_ofLines (unbroken : ∀ l ∈ ls, Text.lineFeed ∉ l) :
    (Text.ofLines ls).lines.filter k.faulty = ls.filter k.faulty := by
  -- A text put together from no lines has one line, which is empty: the fault does not tell it from none.
  by_cases none : ls = []
  · rw [none]
    exact List.filter_cons_of_neg (by simp [k.faulty_nil])
  · rw [Text.lines_ofLines unbroken none]

theorem mend_ofLines (unbroken : ∀ l ∈ ls, Text.lineFeed ∉ l) :
    k.mend others (Text.ofLines ls) = Text.ofLines (ls.flatMap (k.mendLine others)) := by
  by_cases none : ls = []
  · have empty : k.mendLine others [] = [[]] := if_neg (by simp [k.faulty_nil])
    rw [none, mend]
    exact congrArg (fun mended => Text.ofLines (mended ++ [])) empty
  · rw [mend, Text.lines_ofLines unbroken none]

theorem mend_eq_self (none : t.lines.filter k.faulty = []) : k.mend others t = t := by
  have kept : ∀ l ∈ t.lines, k.mendLine others l = [l] := fun l member =>
    if_neg (List.filter_eq_nil_iff.mp none l member)
  have same : t.lines.flatMap (k.mendLine others) = t.lines := by
    rw [List.flatMap_congr kept, List.flatMap_singleton']
  rw [mend, same, Text.ofLines_lines]

end LineFault

/-- The repair for the fault puts other lines in the place of a line that has it, and with those there is
nothing wrong. -/
structure Repair.Mends (r : Repair) (k : LineFault) (fits : Text → Prop) (others : Text → List Text) : Prop where
  repairs : Repair.ofRule? k.rule = some r
  needsPosition : r.needsPosition = true
  faultless : ∀ l, ∀ m ∈ others l, k.faulty m = false
  unbroken : ∀ l, Text.lineFeed ∉ l → ∀ m ∈ others l, Text.lineFeed ∉ m
  edits : ∀ {t i front l back} {p : Position}, fits t → t.At i front l back → p.line = i + 1 → k.faulty l = true →
    ∃ e, r.lineEdits p l = [e] ∧ e.Fits t ∧ (∀ u ∈ e.text, u.isWritable) ∧
      e.onText t = Text.ofLines (front ++ others l ++ back) ∧ fits (e.onText t)

namespace LineFault

variable {k : LineFault} {r : Repair} {fits : Text → Prop} {others : Text → List Text} {t : Text}
  {found : List Defect}

/-- To mend the text line by line. -/
def task (k : LineFault) (fits : Text → Prop) (others : Text → List Text) : Task where
  fits := fits
  finds t found := (found.map Defect.remark).Perm (k.remarks t)
  goal := k.mend others

theorem finds_identity (finds : (k.task fits others).finds t found) :
    (found.map Defect.identity).Perm ((t.lines.filter k.faulty).map k.identity) := by
  have said := finds.map Prod.snd
  rwa [map_snd_remarks, List.map_map] at said

theorem finds_length (finds : (k.task fits others).finds t found) : found.length = t.lines.countP k.faulty := by
  have same := (finds_identity finds).length_eq
  rwa [List.length_map, List.length_map, ← List.countP_eq_length_filter] at same

/-- The lines that come in the place of a faulty one are left alone from then on. -/
theorem flatMap_mendLine_others (mends : r.Mends k fits others) (l : Text) :
    (others l).flatMap (k.mendLine others) = others l := by
  have kept : ∀ m ∈ others l, k.mendLine others m = [m] := fun m member =>
    if_neg (by simp [mends.faultless l m member])
  rw [List.flatMap_congr kept, List.flatMap_singleton']

section OneLine

variable {l : Text} {front back : List Text} {i : Nat}

theorem unbroken_mended (mends : r.Mends k fits others) (cut : t.At i front l back) :
    ∀ m ∈ front ++ others l ++ back, Text.lineFeed ∉ m := by
  intro m member
  rcases List.mem_append.mp member with member | after
  · rcases List.mem_append.mp member with before | here
    · exact cut.unbroken.1 m before
    · exact mends.unbroken l cut.unbroken.2.1 m here
  · exact cut.unbroken.2.2 m after

theorem filter_mended (mends : r.Mends k fits others) (cut : t.At i front l back) :
    (Text.ofLines (front ++ others l ++ back)).lines.filter k.faulty =
      front.filter k.faulty ++ back.filter k.faulty := by
  have faultless : (others l).filter k.faulty = [] :=
    List.filter_eq_nil_iff.mpr fun m member => by simp [mends.faultless l m member]
  rw [filter_lines_ofLines (unbroken_mended mends cut), List.filter_append, List.filter_append, faultless,
    List.append_nil]

/-- A text comes to the same whether one of its lines is mended before or with the others. -/
theorem mend_mended (mends : r.Mends k fits others) (cut : t.At i front l back) (faulty : k.faulty l = true) :
    k.mend others (Text.ofLines (front ++ others l ++ back)) = k.mend others t := by
  have here : k.mendLine others l = others l := if_pos faulty
  rw [mend_ofLines (unbroken_mended mends cut), mend, cut.lines, List.flatMap_append, List.flatMap_append,
    List.flatMap_append, List.flatMap_cons, flatMap_mendLine_others mends, here, List.append_assoc]

/-- To mend one line is a step of the task. -/
theorem step_mended (mends : r.Mends k fits others) (cut : t.At i front l back) (faulty : k.faulty l = true)
    {u : Text} (mended : u = Text.ofLines (front ++ others l ++ back)) (fit : fits u) {after : List Defect}
    (finds : (k.task fits others).finds t found) (finds' : (k.task fits others).finds u after) :
    (k.task fits others).Step t found u after := by
  subst mended
  have before : t.lines.filter k.faulty = front.filter k.faulty ++ l :: back.filter k.faulty := by
    rw [cut.lines, List.filter_append, List.filter_cons_of_pos faulty]
  refine ⟨fit, finds', mend_mended mends cut faulty, ?_, ?_⟩
  · have many := finds_length finds
    have fewer := finds_length finds'
    rw [List.countP_eq_length_filter, before, List.length_append, List.length_cons] at many
    rw [List.countP_eq_length_filter, filter_mended mends cut, List.length_append] at fewer
    omega
  · refine List.Subset.trans (finds_identity finds').subset
      (List.Subset.trans ?_ (finds_identity finds).symm.subset)
    rw [filter_mended mends cut, before]
    refine List.map_subset _ (List.append_subset.mpr ⟨List.subset_append_left _ _, ?_⟩)
    exact List.subset_append_of_subset_right _ (List.subset_cons_self _ _)

/-- For a defect on a line, the rules have one fix if the repair has one edit for the line. -/
theorem fixesByRule_of_line (mends : r.Mends k fits others) {template : Loose Text} {d : Defect} {p : Position}
    {e : Edit} (cut : t.At i front l back) (rule : d.rule = some k.rule) (position : d.position = some p)
    (line : p.line = i + 1) (edits : r.lineEdits p l = [e]) : fixesByRule template d t = [r.fixOf d [e]] := by
  have here : t.lines[p.line - 1]? = some l := by
    rw [cut.lines, line, ← cut.index]
    simp
  have found : r.edits? template d t.lines = .ok (some [e]) := by
    simp only [Repair.edits?, mends.needsPosition, if_true, position, here, edits]
  have made : ruleFixes template d t = .ok ([r.fixOf d [e]], none) := by
    rw [ruleFixes, rule, Option.bind_some, mends.repairs]
    simp only [found]
    rfl
  rw [fixesByRule, made]

end OneLine

/-- For every defect that is found, the rules have one fix, and it advances the task. -/
theorem fixesByRule_advances (mends : r.Mends k fits others) (template : Loose Text) (fit : fits t)
    (finds : (k.task fits others).finds t found) {d : Defect} (member : d ∈ found) :
    ∃ f, fixesByRule template d t = [f] ∧ (k.task fits others).Advances t found f := by
  obtain ⟨i, front, l, back, cut, faulty, remark⟩ :=
    exists_at_of_mem_remarks (finds.subset (List.mem_map_of_mem member))
  have rule : d.rule = some k.rule := congrArg (fun remark => remark.2.1) remark
  obtain ⟨p, position, line⟩ := Option.map_eq_some_iff.mp (congrArg Prod.fst remark)
  obtain ⟨e, edits, inside, whole, mended, fit'⟩ := mends.edits fit cut line faulty
  have writable : (r.fixOf d [e]).Writable := by
    intro e' listed
    cases List.mem_singleton.mp listed
    exact whole
  refine ⟨r.fixOf d [e], ?_, writable, e.onText t, applyEdits_singleton inside, fit', ?_⟩
  · exact fixesByRule_of_line mends cut rule position line edits
  · exact fun after finds' => step_mended mends cut faulty mended fit' finds finds'

end LineFault

namespace Session.RulesAlone

variable {s : Session ω} {k : LineFault} {r : Repair} {fits : Text → Prop} {others : Text → List Text}
  {tuning : Tuning} {manual : Text} {client : Option (Client ω)}

theorem upTo (alone : s.RulesAlone tuning manual client) (mends : r.Mends k fits others)
    (reports : ∀ t w, fits t → ∃ found, (s.oracle.judge t w).1 = .ok found ∧
      (found.map Defect.remark).Perm (k.remarks t)) : s.UpTo (k.task fits others) where
  keepable := alone.judges
  quiet := alone.quiet
  judged := reports
  done t _ finds := by
    have none := LineFault.finds_length finds
    rw [List.length_nil, List.countP_eq_length_filter] at none
    exact LineFault.mend_eq_self (List.length_eq_zero_iff.mp none.symm)
  proposed := by
    intro t found fit finds unclean b
    obtain ⟨d, rest, rfl⟩ := List.exists_cons_of_ne_nil unclean
    obtain ⟨f, fixes, _⟩ := LineFault.fixesByRule_advances mends (.text tuning.bindingTemplate) fit finds
      List.mem_cons_self
    have offered : f ∈ fixesByRule (.text tuning.bindingTemplate) d t := fixes ▸ List.mem_singleton_self f
    rw [alone.candidates_eq]
    exact List.ne_nil_of_mem (List.mem_flatMap.mpr ⟨d, List.mem_mergeSort.mpr List.mem_cons_self, offered⟩)
  advances := by
    intro t found fit finds b f member
    rw [alone.candidates_eq] at member
    obtain ⟨d, listed, offered⟩ := List.mem_flatMap.mp member
    obtain ⟨g, fixes, advances⟩ := LineFault.fixesByRule_advances mends (.text tuning.bindingTemplate) fit finds
      (List.mem_mergeSort.mp listed)
    rw [fixes] at offered
    cases List.mem_singleton.mp offered
    exact advances

/-- The rules alone mend a text line by line in one iteration, with one fix for each line with the fault. -/
theorem run_mends (alone : s.RulesAlone tuning manual client) (mends : r.Mends k fits others)
    (reports : ∀ t w, fits t → ∃ found, (s.oracle.judge t w).1 = .ok found ∧
      (found.map Defect.remark).Perm (k.remarks t)) (fit : fits s.text) (budget : 1 ≤ s.maxIterations) {w : ω}
    (going : s.cancelled w = false) :
    (s.run (Bench.fresh w)).1.AtOnce (k.mend others s.text) (s.text.lines.countP k.faulty) := by
  have forgetful : (Bench.fresh w).memo.Finds (k.task fits others) := fun _ _ _ known => by cases known
  obtain ⟨found, finds, once⟩ := (alone.upTo mends reports).run_atOnce fit forgetful budget going
  rwa [LineFault.finds_length finds] at once

end Session.RulesAlone

end Mender
