import Mender.Generator.Model
import Mender.Proofs.Json.Read

namespace Mender

namespace Checked

variable {α β : Type}

/-- The value satisfies `P`, if there is one. -/
def Yields (P : α → Prop) : Checked α → Prop
  | valid a => P a
  | faulty _ => True

variable {P : α → Prop} {Q : β → Prop} {x : Checked α}

theorem Yields.mono {P' : α → Prop} (yields : x.Yields P) (weaker : ∀ a, P a → P' a) : x.Yields P' := by
  cases x with
  | valid a => exact weaker a yields
  | faulty => trivial

theorem Yields.any : x.Yields fun _ => True := by
  cases x <;> trivial

theorem Yields.map {f : α → β} (yields : x.Yields fun a => Q (f a)) : (x.map f).Yields Q := by
  cases x with
  | valid a => exact yields
  | faulty => trivial

theorem Yields.apply {f : Checked (α → β)} (function : f.Yields fun f => ∀ a, P a → Q (f a))
    (argument : x.Yields P) : (f.apply x).Yields Q := by
  cases f with
  | valid f =>
    cases x with
    | valid a => exact function a argument
    | faulty => trivial
  | faulty => cases x <;> trivial

theorem Yields.applyAny {f : Checked (α → β)} (function : f.Yields fun f => ∀ a, Q (f a)) :
    (f.apply x).Yields Q :=
  (function.mono fun _ holds a _ => holds a).apply .any

theorem Yields.andThen {f : α → Checked β} (first : x.Yields P) (next : ∀ a, P a → (f a).Yields Q) :
    (x.andThen f).Yields Q := by
  cases x with
  | valid a => exact next a first
  | faulty => trivial

theorem Yields.below {step : Step} (yields : x.Yields P) : (Checked.below step x).Yields P := by
  cases x with
  | valid a => exact yields
  | faulty => trivial

theorem Yields.all {xs : List (Checked α)} (yields : ∀ x ∈ xs, x.Yields P) :
    (Checked.all xs).Yields fun items => ∀ a ∈ items, P a := by
  induction xs with
  | nil => exact nofun
  | cons x xs ih =>
    obtain ⟨here, later⟩ := List.forall_mem_cons.mp yields
    refine Yields.apply (.map ?_) (ih later)
    exact here.mono fun a held items others => List.forall_mem_cons.mpr ⟨held, others⟩

end Checked

namespace Record

open Checked

variable {α : Type} {P : α → Prop} {read : Json → Checked α}

theorem fields_yields {record : Text} {v : Json} {read : List (Text × Json) → Checked α} (writable : v.Writable)
    (yields : ∀ r, (Json.object r).Writable → (read r).Yields P) : (fields record v read).Yields P := by
  unfold fields
  split
  · exact yields _ writable
  · trivial

theorem defaulted_yields {r : List (Text × Json)} {name : Text} {default : α} (writable : (Json.object r).Writable)
    (standard : P default) (yields : ∀ v, v.Writable → (read v).Yields P) :
    (defaulted r name default read).Yields P := by
  unfold defaulted
  cases found : Json.field? r name with
  | none => exact standard
  | some v => exact Yields.below (yields v (writable.field? found))

theorem nullable_yields {v : Json} (writable : v.Writable) (yields : ∀ v, v.Writable → (read v).Yields P) :
    (nullable read v).Yields fun o => ∀ a ∈ o, P a := by
  unfold nullable
  split
  · exact nofun
  · refine Yields.map ((yields v writable).mono fun a held b same => ?_)
    cases same
    exact held

theorem text_yields {v : Json} (writable : v.Writable) : (text v).Yields fun t => t.isWritable := by
  cases v with
  | text t => exact Json.writable_text.mp writable
  | _ => trivial

theorem list_yields {v : Json} (writable : v.Writable) (yields : ∀ v, v.Writable → (read v).Yields P) :
    (list read v).Yields fun items => ∀ a ∈ items, P a := by
  cases v with
  | array items =>
    refine Yields.all fun x member => ?_
    obtain ⟨i, inside, rfl⟩ := List.mem_mapIdx.mp member
    exact Yields.below (yields _ (Json.writable_array.mp writable _ (List.getElem_mem inside)))
  | _ => trivial

theorem ofText_yields (t : Text) : (ofText t).Yields Json.Writable := by
  unfold ofText
  split_ifs with whole
  · cases read : Json.read? .strict t with
    | none => trivial
    | some v => exact Json.read?_writable whole read
  · trivial

end Record

open Record Checked

/-- An edit that is read can be written out. -/
theorem Edit.check_yields {v : Json} (writable : v.Writable) :
    (Edit.check v).Yields fun e => ∀ t ∈ e.text, Text.isWritable t := by
  refine fields_yields writable fun r recorded => ?_
  have text : (defaulted r "text" none (nullable Record.text)).Yields fun o => ∀ t ∈ o, Text.isWritable t :=
    defaulted_yields recorded nofun fun v writable => nullable_yields writable fun v => text_yields
  refine Yields.apply (.applyAny (.applyAny (.applyAny ?_))) text
  exact fun kind start stop text plain => plain

theorem Suggestion.check_yields {excess : Excess} {v : Json} (writable : v.Writable) :
    (Suggestion.check excess v).Yields fun s => ∀ e ∈ s.edits, ∀ t ∈ e.text, Text.isWritable t := by
  refine fields_yields writable fun r recorded => ?_
  have edits : (defaulted r "edits" [] (list Edit.check)).Yields
      fun edits => ∀ e ∈ edits, ∀ t ∈ e.text, Text.isWritable t :=
    defaulted_yields recorded nofun fun v writable => list_yields writable fun v => Edit.check_yields
  refine Yields.apply (.applyAny (.applyAny (.applyAny ?_))) edits
  exact fun title description confidence edits plain => plain

theorem Suggestion.ofReply_yields (t : Text) :
    (Suggestion.ofReply t).Yields fun ss => ∀ s ∈ ss, ∀ e ∈ s.edits, ∀ t ∈ e.text, Text.isWritable t := by
  refine (ofText_yields t).andThen fun v writable => ?_
  refine fields_yields writable fun r recorded => ?_
  refine defaulted_yields recorded nofun fun v writable => ?_
  exact list_yields writable fun v writable => Suggestion.check_yields writable

end Mender
