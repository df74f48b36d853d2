import Mathlib.Data.List.TakeDrop
import Mender.Json.Reader
import Mender.Proofs.Text.Writable

namespace Mender

theorem CodePoint.val_of_ofNat? {n : Nat} {c : CodePoint} (coded : ofNat? n = some c) : c.val = n := by
  unfold ofNat? at coded
  split at coded
  · exact congrArg val (Option.some.inj coded).symm
  · cases coded

theorem Text.encodingFault?_eq_none_iff {t : Text} : t.encodingFault? = none ↔ t.isWritable := by
  have runs : ∀ place, t.surrogatesFrom? (fun _ => false) place = none ↔ t.isWritable := by
    induction t with
    | nil => exact fun _ => ⟨fun _ => rfl, fun _ => rfl⟩
    | cons c rest ih =>
      intro place
      unfold surrogatesFrom?
      cases surrogate : c.isSurrogate with
      | false => simp [surrogate, ih]
      | true => simp [surrogate]
  rw [encodingFault?, encodingFaultExcept?, Option.map_eq_none_iff]
  exact runs 0

namespace Json

def Writable (v : Json) : Prop := v.encodingFault? = none

theorem writable_text {t : Text} : (text t).Writable ↔ t.isWritable := Text.encodingFault?_eq_none_iff

theorem writable_array {items : List Json} : (array items).Writable ↔ ∀ v ∈ items, v.Writable := by
  change itemsFault? items = none ↔ _
  induction items with
  | nil => exact ⟨fun _ => nofun, fun _ => rfl⟩
  | cons v items ih => rw [itemsFault?, Option.or_eq_none_iff, ih, List.forall_mem_cons]; rfl

theorem writable_object {fields : List (Text × Json)} :
    (object fields).Writable ↔ ∀ p ∈ fields, p.1.isWritable ∧ p.2.Writable := by
  change fieldsFault? fields = none ↔ _
  induction fields with
  | nil => exact ⟨fun _ => nofun, fun _ => rfl⟩
  | cons p fields ih =>
    obtain ⟨name, v⟩ := p
    rw [fieldsFault?, Option.or_eq_none_iff, Option.or_eq_none_iff, ih, List.forall_mem_cons, and_assoc]
    rw [Text.encodingFault?_eq_none_iff]
    rfl

theorem mem_of_field? {fields : List (Text × Json)} {name : Text} {v : Json}
    (found : field? fields name = some v) : ∃ p ∈ fields, p.2 = v := by
  have lookUp : ∀ before : Option Json,
      fields.foldl (fun found p => if p.1 = name then some p.2 else found) before = some v →
      before = some v ∨ ∃ p ∈ fields, p.2 = v := by
    clear found
    induction fields with
    | nil => exact fun before same => Or.inl same
    | cons p fields ih =>
      intro before same
      rcases ih _ same with here | ⟨q, member, value⟩
      · dsimp only at here
        split_ifs at here
        · exact Or.inr ⟨p, List.mem_cons_self, Option.some.inj here⟩
        · exact Or.inl here
      · exact Or.inr ⟨q, List.mem_cons_of_mem p member, value⟩
  rcases lookUp none found with none | present
  · cases none
  · exact present

theorem Writable.field? {fields : List (Text × Json)} (writable : (object fields).Writable) {name : Text}
    {v : Json} (found : Json.field? fields name = some v) : v.Writable := by
  obtain ⟨p, member, rfl⟩ := mem_of_field? found
  exact (writable_object.mp writable p member).2

theorem Writable.putField {fields : List (Text × Json)} (writable : (object fields).Writable) {name : Text}
    {v : Json} (named : name.isWritable) (valued : v.Writable) :
    (object (Json.putField fields name v)).Writable := by
  rw [writable_object] at writable ⊢
  unfold Json.putField
  split_ifs
  · intro p member
    obtain ⟨⟨key, old⟩, present, rfl⟩ := List.mem_map.mp member
    obtain ⟨keyed, kept⟩ := writable _ present
    refine ⟨keyed, ?_⟩
    dsimp only
    split_ifs
    · exact valued
    · exact kept
  · refine List.forall_mem_append.mpr ⟨writable, ?_⟩
    exact List.forall_mem_singleton.mpr ⟨named, valued⟩

/-- From a text that can be written out the reader reads what satisfies `P`, and leaves such a text. -/
def Reads {α : Type} (P : α → Prop) (read : Text → Option (α × Text)) : Prop :=
  ∀ ⦃t a rest⦄, t.isWritable → read t = some (a, rest) → P a ∧ rest.isWritable

theorem skipBlanks_isWritable {t : Text} (whole : t.isWritable) : (skipBlanks t).isWritable :=
  Text.isWritable_of_subset whole (List.dropWhile_sublist _).subset

theorem shortEscape?_plain {c unit : CodePoint} (read : shortEscape? c = some unit) :
    unit.isSurrogate = false := by
  unfold shortEscape? at read
  split_ifs at read with same
  · cases read
    simp only [Bool.or_eq_true, decide_eq_true_eq] at same
    rw [CodePoint.isSurrogate, Bool.and_eq_false_iff]
    exact Or.inl (decide_eq_false (by omega))
  all_goals cases read; rfl

/-- Only an escape can bring a surrogate into a string. -/
theorem readUnits_reads :
    Reads (fun units => ∀ u ∈ units, u.1 = false → u.2.isSurrogate = false) readUnits := by
  intro t units rest whole read
  fun_induction readUnits t generalizing units rest with
  | case1 => cases read
  | case2 t =>
    cases read
    simp only [Text.isWritable_cons, Bool.and_eq_true] at whole
    exact ⟨nofun, whole.2⟩
  | case3 => cases read
  | case4 c _ _ h₁ h₂ h₃ h₄ t ih =>
    simp only [Text.isWritable_cons, Bool.and_eq_true] at whole
    obtain ⟨code, _, read⟩ := Option.bind_eq_some_iff.mp read
    obtain ⟨unit, _, read⟩ := Option.bind_eq_some_iff.mp read
    obtain ⟨⟨units, rest⟩, more, read⟩ := Option.bind_eq_some_iff.mp read
    cases read
    obtain ⟨plain, left⟩ := ih whole.2.2.2.2.2.2 more
    exact ⟨List.forall_mem_cons.mpr ⟨nofun, plain⟩, left⟩
  | case5 => cases read
  | case6 c _ _ e t _ ih =>
    simp only [Text.isWritable_cons, Bool.and_eq_true] at whole
    obtain ⟨unit, escape, read⟩ := Option.bind_eq_some_iff.mp read
    obtain ⟨⟨units, rest⟩, more, read⟩ := Option.bind_eq_some_iff.mp read
    cases read
    obtain ⟨plain, left⟩ := ih whole.2.2 more
    exact ⟨List.forall_mem_cons.mpr ⟨fun _ => shortEscape?_plain escape, plain⟩, left⟩
  | case7 => cases read
  | case8 c t _ _ _ ih =>
    simp only [Text.isWritable_cons, Bool.and_eq_true, Bool.not_eq_true'] at whole
    obtain ⟨⟨units, rest⟩, more, read⟩ := Option.bind_eq_some_iff.mp read
    cases read
    obtain ⟨plain, left⟩ := ih whole.2 more
    exact ⟨List.forall_mem_cons.mpr ⟨fun _ => whole.1, plain⟩, left⟩

/-- Surrogates that came as escapes are joined in pairs or refused, so none is left alone. -/
theorem joinPairs_isWritable {units : List (Bool × CodePoint)} {t : Text}
    (plain : ∀ u ∈ units, u.1 = false → u.2.isSurrogate = false) (joined : joinPairs false units = some t) :
    t.isWritable := by
  fun_induction joinPairs false units generalizing t with
  | case1 =>
    cases joined
    rfl
  | case2 escaped c _ d more halves ih =>
    obtain ⟨_, later⟩ := List.forall_mem_cons.mp plain
    obtain ⟨_, later⟩ := List.forall_mem_cons.mp later
    obtain ⟨pair, coded, joined⟩ := Option.bind_eq_some_iff.mp joined
    obtain ⟨u, rest, joined⟩ := Option.bind_eq_some_iff.mp joined
    cases joined
    have beyond : pair.isSurrogate = false := by
      have high : 0x10000 ≤ pair.val := by
        rw [CodePoint.val_of_ofNat? coded, Nat.add_assoc]
        exact Nat.le_add_right _ _
      rw [CodePoint.isSurrogate, Bool.and_eq_false_iff]
      exact Or.inr (decide_eq_false (by omega))
    simp [beyond, ih later rest]
  | case3 | case5 => contradiction
  | case4 | case6 => cases joined
  | case7 escaped c rest other ih =>
    obtain ⟨here, later⟩ := List.forall_mem_cons.mp plain
    obtain ⟨u, rest, rfl⟩ := Option.map_eq_some_iff.mp joined
    have beyond : c.isSurrogate = false := by
      cases escaped with
      | false => exact here rfl
      | true => simpa using other
    simp [beyond, ih later rest]

theorem readString_reads : Reads (fun t => t.isWritable) (readString false) := by
  intro t u rest whole read
  obtain ⟨⟨units, rest⟩, taken, read⟩ := Option.bind_eq_some_iff.mp read
  obtain ⟨u, joined, read⟩ := Option.bind_eq_some_iff.mp read
  cases read
  obtain ⟨plain, left⟩ := readUnits_reads whole taken
  exact ⟨joinPairs_isWritable plain joined, left⟩

theorem readDigits_reads : Reads (fun _ => True) readDigits := by
  intro t digits rest whole read
  unfold readDigits at read
  rw [List.span_eq_takeWhile_dropWhile] at read
  split at read
  · cases read
  · obtain ⟨_, rfl⟩ := Prod.mk.inj (Option.some.inj read)
    exact ⟨trivial, Text.isWritable_of_subset whole (List.dropWhile_sublist _).subset⟩

theorem readPower_reads : Reads (fun _ => True) readPower := by
  intro t power rest whole read
  unfold readPower at read
  split at read
  · cases read
    exact ⟨trivial, rfl⟩
  next e more =>
    by_cases mark : e = 'e' || e = 'E'
    · rw [if_pos mark] at read
      simp only [Text.isWritable_cons, Bool.and_eq_true] at whole
      split at read
      next sign after signed =>
      have afterWhole : after.isWritable := by
        split at signed
        next c more =>
          have moreWhole : Text.isWritable more := (Bool.and_eq_true _ _ ▸ whole.2 : _ ∧ _).2
          split_ifs at signed
          · obtain ⟨_, rfl⟩ := Prod.mk.inj signed
            exact moreWhole
          · obtain ⟨_, rfl⟩ := Prod.mk.inj signed
            exact moreWhole
          · obtain ⟨_, rfl⟩ := Prod.mk.inj signed
            exact whole.2
        · obtain ⟨_, rfl⟩ := Prod.mk.inj signed
          rfl
      obtain ⟨⟨digits, rest⟩, run, read⟩ := Option.map_eq_some_iff.mp read
      cases read
      exact readDigits_reads afterWhole run
    · rw [if_neg mark] at read
      cases read
      exact ⟨trivial, whole⟩

theorem readPlaces_reads : Reads (fun _ => True) readPlaces := by
  intro t places rest whole read
  unfold readPlaces at read
  split at read
  · cases read
    exact ⟨trivial, rfl⟩
  next point more =>
    split_ifs at read
    · obtain ⟨⟨digits, rest⟩, run, read⟩ := Option.map_eq_some_iff.mp read
      cases read
      simp only [Text.isWritable_cons, Bool.and_eq_true] at whole
      exact readDigits_reads whole.2 run
    · cases read
      exact ⟨trivial, whole⟩

theorem eq_some_of_unless {α : Type} {p : Prop} [Decidable p] {next : PUnit → Option α} {a : α}
    (run : (if p then none >>= next else next ()) = some a) : next () = some a := by
  split_ifs at run
  · cases run
  · exact run

theorem readNumber_reads (limit : Option Nat) (negative : Bool) : Reads Writable (readNumber limit negative) := by
  intro t v rest whole read
  unfold readNumber at read
  obtain ⟨⟨digits, rest⟩, run, read⟩ := Option.bind_eq_some_iff.mp read
  have left := (readDigits_reads whole run).2
  have read := eq_some_of_unless (eq_some_of_unless read)
  obtain ⟨⟨places, rest⟩, run, read⟩ := Option.bind_eq_some_iff.mp read
  have left := (readPlaces_reads left run).2
  obtain ⟨⟨power, rest⟩, run, read⟩ := Option.bind_eq_some_iff.mp read
  have left := (readPower_reads left run).2
  dsimp only at read
  split at read
  · cases read
    exact ⟨rfl, left⟩
  · cases read
    exact ⟨rfl, left⟩

theorem readScalar_reads (limit : Option Nat) : Reads Writable (readScalar limit) := by
  intro t v rest whole read
  unfold readScalar at read
  dsimp only at read
  split at read
  next found named =>
    obtain ⟨⟨name, value⟩, member, taken⟩ := List.exists_of_findSome?_eq_some named
    dsimp only at taken
    split_ifs at taken
    cases taken
    cases read
    have plain : ∀ p ∈ names, p.2.Writable := by
      intro p member
      simp only [names, List.mem_cons, List.not_mem_nil, or_false] at member
      rcases member with rfl | rfl | rfl | rfl | rfl | rfl <;> rfl
    exact ⟨plain _ member, Text.isWritable_of_subset whole (List.drop_subset _ _)⟩
  · split at read
    · cases read
    · simp only [Text.isWritable_cons, Bool.and_eq_true] at whole
      split at read
      · exact readNumber_reads limit true whole.2 read
      · exact readNumber_reads limit false (by simpa using whole) read

section Nesting

variable {dialect : Dialect} {fuel : Nat}

/-- One more unit of fuel: a value is read from readers of items and fields that keep to whole text.
-/
theorem readValue_step (strict : dialect.keepsLoneSurrogates = false)
    (items : ∀ level, Reads (fun items => (array items).Writable) (readItems dialect level fuel))
    (fields : ∀ level, Reads (fun fields => (object fields).Writable) (readFields dialect level fuel []))
    (level : Nat) : Reads Writable (readValue dialect level (fuel + 1)) := by
  intro t v rest whole read
  unfold readValue at read
  have startWhole := skipBlanks_isWritable whole
  split at read
  · cases read
  next c more start =>
    rw [start, Text.isWritable_cons, Bool.and_eq_true] at startWhole
    have moreWhole := skipBlanks_isWritable startWhole.2
    split at read
    · rw [strict] at read
      obtain ⟨⟨s, rest⟩, found, read⟩ := Option.map_eq_some_iff.mp read
      cases read
      obtain ⟨plain, left⟩ := readString_reads startWhole.2 found
      exact ⟨writable_text.mpr plain, left⟩
    split at read
    · split at read
      · cases read
      next d after inside =>
        rw [inside] at moreWhole
        split_ifs at read
        · cases read
          exact ⟨rfl, ((Bool.and_eq_true _ _).mp moreWhole).2⟩
        · obtain ⟨⟨found, rest⟩, run, read⟩ := Option.map_eq_some_iff.mp read
          cases read
          exact items _ moreWhole run
    split at read
    · split at read
      · cases read
      next d after inside =>
        rw [inside] at moreWhole
        split_ifs at read
        · cases read
          exact ⟨rfl, ((Bool.and_eq_true _ _).mp moreWhole).2⟩
        · obtain ⟨⟨found, rest⟩, run, read⟩ := Option.map_eq_some_iff.mp read
          cases read
          exact fields _ moreWhole run
    · exact readScalar_reads dialect.integerSpan (start ▸ skipBlanks_isWritable whole) read

theorem readItems_step (values : ∀ level, Reads Writable (readValue dialect level fuel))
    (items : ∀ level, Reads (fun items => (array items).Writable) (readItems dialect level fuel))
    (level : Nat) : Reads (fun items => (array items).Writable) (readItems dialect level (fuel + 1)) := by
  intro t found rest whole read
  unfold readItems at read
  obtain ⟨⟨item, rest⟩, run, read⟩ := Option.bind_eq_some_iff.mp read
  obtain ⟨plain, left⟩ := values level whole run
  have leftWhole := skipBlanks_isWritable left
  dsimp only at read
  split at read
  · cases read
  next c more start =>
    rw [start, Text.isWritable_cons, Bool.and_eq_true] at leftWhole
    split_ifs at read
    · cases read
      exact ⟨writable_array.mpr (List.forall_mem_singleton.mpr plain), leftWhole.2⟩
    · obtain ⟨⟨later, rest⟩, run, read⟩ := Option.bind_eq_some_iff.mp read
      cases read
      obtain ⟨others, left⟩ := items level leftWhole.2 run
      exact ⟨writable_array.mpr (List.forall_mem_cons.mpr ⟨plain, writable_array.mp others⟩), left⟩

theorem readFields_step (strict : dialect.keepsLoneSurrogates = false)
    (values : ∀ level, Reads Writable (readValue dialect level fuel))
    (fields : ∀ level before, (object before).Writable →
      Reads (fun fields => (object fields).Writable) (readFields dialect level fuel before))
    (level : Nat) {before : List (Text × Json)} (kept : (object before).Writable) :
    Reads (fun fields => (object fields).Writable) (readFields dialect level (fuel + 1) before) := by
  intro t found rest whole read
  unfold readFields at read
  have startWhole := skipBlanks_isWritable whole
  split at read
  · cases read
  next quote more start =>
    rw [start, Text.isWritable_cons, Bool.and_eq_true] at startWhole
    split_ifs at read
    obtain ⟨⟨name, rest⟩, run, read⟩ := Option.bind_eq_some_iff.mp read
    rw [strict] at run
    obtain ⟨named, left⟩ := readString_reads startWhole.2 run
    have leftWhole := skipBlanks_isWritable left
    dsimp only at read
    split at read
    · cases read
    next colon more start =>
      rw [start, Text.isWritable_cons, Bool.and_eq_true] at leftWhole
      split_ifs at read
      obtain ⟨⟨value, rest⟩, run, read⟩ := Option.bind_eq_some_iff.mp read
      obtain ⟨valued, left⟩ := values level leftWhole.2 run
      have fieldsWhole := kept.putField named valued
      have leftWhole := skipBlanks_isWritable left
      dsimp only at read
      split at read
      · cases read
      next c more start =>
        rw [start, Text.isWritable_cons, Bool.and_eq_true] at leftWhole
        split_ifs at read
        · cases read
          exact ⟨fieldsWhole, leftWhole.2⟩
        · exact fields level _ fieldsWhole leftWhole.2 read

/-- All three readers keep to whole text, by induction on the fuel they share. -/
theorem readers_read (strict : dialect.keepsLoneSurrogates = false) (fuel : Nat) :
    (∀ level, Reads Writable (readValue dialect level fuel)) ∧
      (∀ level, Reads (fun items => (array items).Writable) (readItems dialect level fuel)) ∧
      ∀ level before, (object before).Writable →
        Reads (fun fields => (object fields).Writable) (readFields dialect level fuel before) := by
  induction fuel with
  | zero => exact ⟨fun _ _ _ _ _ => nofun, fun _ _ _ _ _ => nofun, fun _ _ _ _ _ _ _ => nofun⟩
  | succ fuel ih =>
    obtain ⟨values, items, fields⟩ := ih
    refine ⟨readValue_step strict items fun level => fields level [] rfl, readItems_step values items, ?_⟩
    exact fun level before kept => readFields_step strict values fields level kept

end Nesting

/-- What is read strictly from a text that can be written out can be written out itself. -/
theorem read?_writable {t : Text} {v : Json} (whole : t.isWritable) (read : read? .strict t = some v) :
    v.Writable := by
  obtain ⟨⟨value, rest⟩, run, read⟩ := Option.bind_eq_some_iff.mp read
  dsimp only at read
  split_ifs at read
  cases read
  have strict : Dialect.strict.keepsLoneSurrogates = false := rfl
  exact ((readers_read strict _).1 _ whole run).1

end Json
end Mender
