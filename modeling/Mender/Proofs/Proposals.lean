import Mender.Generator.Standard
import Mender.Proofs.Record
import Mender.Proofs.Session.Inert
import Mender.Proofs.Session.SearchLog
import Mender.Proofs.Text.Template

namespace Mender

variable {ω : Type}

/-- For a defect whose message can be written out, on a text that can, all that the generator proposes can. -/
def Generator.Writes (g : Generator ω) : Prop :=
  ∀ d t x, d.message.isWritable → t.isWritable → ∀ f ∈ (g.propose d t x).1.fixes, f.Writable

theorem Reply.fixes_ofFixes (fixes : List Fix) : (Reply.ofFixes fixes).fixes = fixes := by
  simp [Reply.ofFixes, Reply.fixes, Generator.fixesOf, List.filterMap_map]

namespace Repair

theorem bindingOf_isWritable {template : Json} {name binding : Text} (given : template.Writable)
    (named : name.isWritable) (bound : bindingOf (.text template) name = .ok binding) : binding.isWritable := by
  cases template with
  | text t =>
    refine Template.fill_isWritable (Json.writable_text.mp given) ?_ (Except.mapError_eq_ok_iff.mp bound)
    exact List.forall_mem_singleton.mpr named
  | _ => cases bound

theorem bindingEdits_writable {template : Json} {message : Text} {lines : List Text} {edits : List Edit}
    (given : template.Writable) (said : message.isWritable)
    (made : bindingEdits (.text template) message lines = .ok edits) :
    ∀ e ∈ edits, ∀ t ∈ e.text, Text.isWritable t := by
  unfold bindingEdits at made
  split at made
  · cases made
    exact nofun
  next name found =>
    have named : name.isWritable := by
      rcases Option.or_eq_some_iff.mp found with missing | ⟨_, quoted⟩
      · exact Text.isWritable_of_subset said (Text.missingName?_subset missing)
      · exact Text.isWritable_of_subset said (Text.quotedName?_subset quoted)
    obtain ⟨binding, bound, made⟩ := Except.bind_eq_ok_iff.mp made
    have whole := bindingOf_isWritable given named bound
    split_ifs at made
    · cases made
      exact nofun
    · cases made
      simpa using whole

theorem lineEdits_writable {r : Repair} {p : Position} {line : Text} (whole : line.isWritable) :
    ∀ e ∈ r.lineEdits p line, ∀ t ∈ e.text, Text.isWritable t := by
  have trimmed := Text.isWritable_of_subset whole (Text.trimRight_subset line)
  have closers := Text.isWritable_missingClosers line
  cases r with
  | removeLine => simp [lineEdits]
  | addBinding => simp [lineEdits]
  | stripTrailing | addColon | closeBrackets =>
    simp only [lineEdits]
    split_ifs <;> simp [contentEdit, trimmed, closers]

/-- Every text a repair puts in comes from the defect, the template or the text itself. -/
theorem edits?_writable {r : Repair} {template : Json} {d : Defect} {t : Text} {edits : List Edit}
    (given : template.Writable) (said : d.message.isWritable) (whole : t.isWritable)
    (made : r.edits? (.text template) d t.lines = .ok (some edits)) :
    ∀ e ∈ edits, ∀ u ∈ e.text, Text.isWritable u := by
  unfold edits? at made
  split_ifs at made
  · split at made
    · cases made
    · split at made
      · cases made
      next line here =>
        cases made
        exact lineEdits_writable (Text.isWritable_of_mem_lines whole (List.mem_of_getElem? here))
  · obtain ⟨found, bound, same⟩ := Except.map_eq_ok_iff.mp made
    cases same
    exact bindingEdits_writable given said bound

end Repair

theorem ruleFixes_writable {template : Json} {d : Defect} {t : Text} {fixes : List Fix} {homeless : Option Repair}
    (given : template.Writable) (said : d.message.isWritable) (whole : t.isWritable)
    (made : ruleFixes (.text template) d t = .ok (fixes, homeless)) : ∀ f ∈ fixes, f.Writable := by
  unfold ruleFixes at made
  split at made
  · cases made
    exact nofun
  next r _ =>
    obtain ⟨edits, found, made⟩ := Except.bind_eq_ok_iff.mp made
    split at made
    · cases made
      exact nofun
    · cases made
      exact nofun
    next edits _ =>
      cases made
      exact List.forall_mem_singleton.mpr (Repair.edits?_writable given said whole found)

def fixesByRule (template : Loose Text) (d : Defect) (t : Text) : List Fix :=
  match ruleFixes template d t with
  | .ok (fixes, _) => fixes
  | .error _ => []

theorem fixes_ruleGenerator (template : Loose Text) (d : Defect) (t : Text) (x : Desk ω) :
    ((ruleGenerator ω template).propose d t x).1.fixes = fixesByRule template d t := by
  obtain ⟨reply, y, run⟩ : ∃ reply y, (ruleGenerator ω template).propose d t x = (reply, y) := ⟨_, _, rfl⟩
  rw [run]
  unfold ruleGenerator at run
  unfold fixesByRule
  cases made : ruleFixes template d t with
  | error f =>
    simp only [made] at run
    cases run
    rfl
  | ok found =>
    obtain ⟨fixes, homeless⟩ := found
    simp only [made] at run
    have same : reply = .ofFixes fixes := by
      cases homeless <;> cases run <;> rfl
    rw [same, Reply.fixes_ofFixes]

/-- Rules propose only what can be written out, if their template can. -/
theorem ruleGenerator_writes {template : Json} (given : template.Writable) :
    (ruleGenerator ω (.text template)).Writes := by
  intro d t x said whole
  rw [fixes_ruleGenerator]
  unfold fixesByRule
  split
  next fixes homeless made => exact ruleFixes_writable given said whole made
  · exact nofun

theorem Except.exists_of_mem_mapM {ε α β : Type} {work : α → Except ε β} {l : List α} {results : List β}
    (run : l.mapM work = .ok results) : ∀ b ∈ results, ∃ a ∈ l, work a = .ok b := by
  induction l generalizing results with
  | nil =>
    cases run
    exact nofun
  | cons a l ih =>
    rw [List.mapM_cons] at run
    obtain ⟨b, here, run⟩ := Except.bind_eq_ok_iff.mp run
    obtain ⟨later, others, run⟩ := Except.bind_eq_ok_iff.mp run
    cases run
    refine List.forall_mem_cons.mpr ⟨⟨a, List.mem_cons_self, here⟩, fun c member => ?_⟩
    obtain ⟨a', listed, made⟩ := ih others c member
    exact ⟨a', List.mem_cons_of_mem a listed, made⟩

namespace KnownNames

/-- What is suggested are known names other than the identifier, with how similar they are. -/
theorem suggest_scored {known : KnownNames} {identifier : Text} {found : List (Text × Binary64)}
    (suggested : known.suggest identifier = .ok found) :
    ∀ p ∈ found, p.1 ∈ known.names ∧ p.1 ≠ identifier ∧ p.2 = similarity identifier p.1 := by
  obtain ⟨kept, above, suggested⟩ := Except.bind_eq_ok_iff.mp suggested
  have scores : ∀ p ∈ kept, p.1 ∈ known.names ∧ p.1 ≠ identifier ∧ p.2 = similarity identifier p.1 := by
    intro p member
    have among : p ∈ scored known.names identifier := by
      unfold KnownNames.above at above
      split at above
      · cases above
        exact (List.mem_filter.mp member).1
      · split_ifs at above
        cases above
        cases member
    obtain ⟨name, listed, rfl⟩ := List.mem_map.mp among
    obtain ⟨listed, other⟩ := List.mem_filter.mp listed
    exact ⟨listed, of_decide_eq_true other, rfl⟩
  have ordered : ∀ p ∈ byLikeness kept, p.1 ∈ known.names ∧ p.1 ≠ identifier ∧ p.2 = similarity identifier p.1 :=
    fun p member => scores p (List.mem_mergeSort.mp member)
  split at suggested
  · cases suggested
    exact ordered
  · cases suggested
    intro p member
    unfold takeTo at member
    split_ifs at member <;> exact ordered p (List.mem_of_mem_take member)
  · cases suggested

theorem fixOf?_writable {p : Position} {start : Nat} {identifier : Text} {suggestion : Text × Binary64} {f : Fix}
    (named : suggestion.1.isWritable) (made : fixOf? p start identifier suggestion = .ok f) : f.Writable := by
  unfold fixOf? at made
  split at made
  split at made
  · cases made
  · cases made
    intro e member u text
    cases List.mem_singleton.mp member
    cases text
    exact named

/-- Fixes come from the suggestions for the identifier that the message quotes, if it stands on the line of the
defect. -/
theorem exists_suggestions_of_find {known : KnownNames} {d : Defect} {t : Text} {fs : List Fix}
    (found : known.find d t = .ok (.fixes fs)) (some : fs ≠ []) :
    ∃ p identifier line start suggestions, d.position = .some p ∧ d.message.quotedName? = .some identifier ∧
      t.lines[p.line - 1]? = .some line ∧ nameStart? line identifier p.column = .some start ∧
      known.suggest identifier = .ok suggestions ∧ suggestions.mapM (fixOf? p start identifier) = .ok fs := by
  unfold KnownNames.find at found
  split at found
  · cases found
    exact (some rfl).elim
  next p position =>
    split_ifs at found
    · cases found
      exact (some rfl).elim
    split at found
    next identifier line quoted here =>
      split at found
      · cases found
      next start starts =>
        obtain ⟨suggestions, suggested, found⟩ := Except.bind_eq_ok_iff.mp found
        obtain ⟨fixes, made, same⟩ := Except.map_eq_ok_iff.mp found
        cases same
        exact ⟨p, identifier, line, start, suggestions, position, quoted, here, starts, suggested, made⟩
    · cases found
      exact (some rfl).elim

theorem find_writable {known : KnownNames} {d : Defect} {t : Text} {fs : List Fix}
    (names : ∀ n ∈ known.names, Text.isWritable n) (found : known.find d t = .ok (.fixes fs)) :
    ∀ f ∈ fs, f.Writable := by
  intro f member
  obtain ⟨p, identifier, line, start, suggestions, -, -, -, -, suggested, made⟩ :=
    exists_suggestions_of_find found (List.ne_nil_of_mem member)
  obtain ⟨suggestion, listed, fix⟩ := Except.exists_of_mem_mapM made f member
  exact fixOf?_writable (names _ (suggest_scored suggested _ listed).1) fix

end KnownNames

/-- The fixes of the generator of known names are those that known names give, if there are any. -/
theorem mem_fixes_knownNamesGenerator {known : Option KnownNames} {d : Defect} {t : Text} {x : Desk ω} {f : Fix} :
    f ∈ ((knownNamesGenerator ω known).propose d t x).1.fixes ↔
      ∃ k ∈ known, ∃ fs, k.find d t = .ok (.fixes fs) ∧ f ∈ fs := by
  cases known with
  | none => exact iff_of_false nofun nofun
  | some k =>
    have reply : ((knownNamesGenerator ω (some k)).propose d t x).1.fixes =
        match k.find d t with
        | .ok (.fixes fs) => fs
        | _ => [] := by
      unfold knownNamesGenerator
      cases found : k.find d t with
      | error f =>
        simp only [found]
        rfl
      | ok finding =>
        simp only [found]
        cases finding with
        | fixes fs => exact Reply.fixes_ofFixes fs
        | notOnLine identifier line => rfl
    rw [reply]
    constructor
    · intro member
      split at member
      next fs found => exact ⟨k, rfl, fs, found, member⟩
      · cases member
    · rintro ⟨k', same, fs, found, member⟩
      cases same
      rwa [found]

/-- Known names that can be written out give fixes that can. -/
theorem knownNamesGenerator_writes {known : Option KnownNames}
    (names : ∀ k ∈ known, ∀ n ∈ k.names, Text.isWritable n) : (knownNamesGenerator ω known).Writes := by
  intro d t x said whole f proposed
  obtain ⟨k, present, fs, found, member⟩ := mem_fixes_knownNamesGenerator.mp proposed
  exact KnownNames.find_writable (names k present) found f member

namespace ModelSetup

variable {setup : ModelSetup} {client : Client ω}

/-- Whatever a model replies, the fixes that are taken from it can be written out. -/
theorem suggest_writable {d : Defect} {r : Request} {x y : Desk ω} {fixes : List Fix}
    (run : setup.suggest client d r x = (some fixes, y)) : ∀ f ∈ fixes, f.Writable := by
  obtain ⟨reply, x₁, asked, run⟩ := StateM.bind_eq_iff.mp run
  cases reply with
  | cut => cases run
  | raised f =>
    cases run
    exact nofun
  | value said =>
    have read := Suggestion.ofReply_yields said
    cases checked : Suggestion.ofReply said with
    | faulty problems =>
      simp only [checked, Checked.toExcept] at run
      cases run
      exact nofun
    | valid suggestions =>
      simp only [checked, Checked.toExcept] at run
      cases run
      rw [checked] at read
      intro f member
      obtain ⟨s, kept, rfl⟩ := List.mem_map.mp member
      exact read s (List.mem_filter.mp kept).1

theorem generator_writes : (setup.generator client).Writes := by
  intro d t x said whole
  obtain ⟨reply, y, run⟩ : ∃ reply y, (setup.generator client).propose d t x = (reply, y) := ⟨_, _, rfl⟩
  rw [run]
  unfold generator at run
  cases asked : setup.request d t with
  | error f =>
    simp only [asked] at run
    cases run
    exact nofun
  | ok r =>
    simp only [asked] at run
    obtain ⟨fixes?, x₁, suggested, run⟩ := StateM.bind_eq_iff.mp run
    cases fixes? with
    | none =>
      cases run
      exact nofun
    | some fixes =>
      cases run
      rw [Reply.fixes_ofFixes]
      exact suggest_writable suggested

end ModelSetup

/-- The standard generators bring no surrogate into a text that none of their sources has. -/
theorem standardGenerators_write {tuning : Tuning} {manual : Text} {names : Option (List Text)}
    {client : Option (Client ω)} (template : tuning.bindingTemplate.Writable)
    (known : ∀ ns ∈ names, ∀ n ∈ ns, Text.isWritable n) :
    ∀ g ∈ standardGenerators tuning manual names client, g.Writes := by
  intro g member
  obtain ⟨standard, listed, rfl⟩ := List.mem_map.mp member
  rcases List.mem_append.mp listed with always | asked
  · rcases List.mem_cons.mp always with rfl | always
    · exact ruleGenerator_writes template
    · rcases List.mem_singleton.mp always with rfl
      refine knownNamesGenerator_writes fun k present n listed => ?_
      obtain ⟨ns, given, rfl⟩ := Option.map_eq_some_iff.mp present
      exact known ns given n (mem_of_mem_firstByKey listed)
  · split_ifs at asked
    · rcases List.mem_singleton.mp asked with rfl
      cases client with
      | none => exact fun _ _ _ _ _ => nofun
      | some client => exact ModelSetup.generator_writes
    · cases asked

theorem exists_of_forall₂ {α β : Type} {related : α → β → Prop} {l : List α} {m : List β}
    (both : List.Forall₂ related l m) {b : β} (member : b ∈ m) : ∃ a ∈ l, related a b := by
  induction both with
  | nil => cases member
  | cons here _ ih =>
    rcases List.mem_cons.mp member with rfl | later
    · exact ⟨_, List.mem_cons_self, here⟩
    · obtain ⟨a, listed, holds⟩ := ih later
      exact ⟨a, List.mem_cons_of_mem _ listed, holds⟩

/-- What is proposed in a search was proposed in a call of a generator for a defect. -/
theorem Generator.exists_of_mem_proposals {gs : List (Generator ω)} {limit : Limit} {t : Text}
    {defects : List Defect} {x : Desk ω} {f : Fix}
    (member : f ∈ (proposals gs limit t defects x).1.flatten.flatten) :
    ∃ d ∈ defects, ∃ g ∈ gs, ∃ y, f ∈ (g.propose d t y).1.fixes := by
  obtain ⟨fixes, inRow, here⟩ := List.mem_flatten.mp member
  obtain ⟨row, inTable, inRow⟩ := List.mem_flatten.mp inRow
  obtain ⟨d, listed, rows⟩ := exists_of_forall₂ (proposals_forall₂ gs limit t defects x) inTable
  obtain ⟨g, working, y, rfl⟩ := exists_of_forall₂ rows inRow
  have called := g.fixes_called limit d t y
  generalize (g.fixes limit d t y).1 = found, (g.fixes limit d t y).2 = last at called here
  cases called with
  | refused => cases here
  | @replied start => exact ⟨d, listed, g, working, start, here⟩

end Mender
