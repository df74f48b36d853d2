import Mender.Generator.Standard
import Mender.Proofs.Record
import Mender.Proofs.Retry

namespace Mender

namespace Checked

variable {α β : Type}

theorem map_eq_valid_iff {f : α → β} {x : Checked α} {b : β} : x.map f = valid b ↔ ∃ a, x = valid a ∧ f a = b := by
  cases x <;> simp [map]

theorem apply_eq_valid_iff {f : Checked (α → β)} {x : Checked α} {b : β} :
    f.apply x = valid b ↔ ∃ g a, f = valid g ∧ x = valid a ∧ g a = b := by
  cases f <;> cases x <;> simp [apply]

theorem andThen_eq_valid_iff {x : Checked α} {f : α → Checked β} {b : β} :
    x.andThen f = valid b ↔ ∃ a, x = valid a ∧ f a = valid b := by
  cases x <;> simp [andThen]

theorem below_eq_valid_iff {step : Step} {x : Checked α} {a : α} : below step x = valid a ↔ x = valid a := by
  cases x <;> simp [below]

/-- A list is read if all of its items are. -/
theorem all_eq_valid_iff {xs : List (Checked α)} {items : List α} :
    all xs = valid items ↔ List.Forall₂ (fun x a => x = valid a) xs items := by
  induction xs generalizing items with
  | nil => simp [all, eq_comm]
  | cons x xs ih =>
    simp only [all, apply_eq_valid_iff, map_eq_valid_iff, ih, List.forall₂_cons_left_iff]
    constructor
    · rintro ⟨_, rest, ⟨a, first, rfl⟩, later, rfl⟩
      exact ⟨a, rest, first, later, rfl⟩
    · rintro ⟨a, rest, first, later, rfl⟩
      exact ⟨_, rest, ⟨a, first, rfl⟩, later, rfl⟩

end Checked

namespace Record

open Checked

variable {α : Type} {read : Json → Checked α}

theorem list_eq_valid_iff {v : Json} {items : List α} :
    list read v = valid items ↔ ∃ vs, v = .array vs ∧ List.Forall₂ (fun v a => read v = valid a) vs items := by
  cases v with
  | array vs =>
    simp only [list, all_eq_valid_iff, Json.array.injEq, exists_eq_left', List.forall₂_iff_get, List.length_mapIdx,
      List.get_eq_getElem, List.getElem_mapIdx, below_eq_valid_iff]
  | _ => simp [list, flaw]

theorem defaulted_eq_valid_iff {r : List (Text × Json)} {name : Text} {default a : α} :
    defaulted r name default read = valid a ↔
      Json.field? r name = none ∧ a = default ∨ ∃ v, Json.field? r name = some v ∧ read v = valid a := by
  unfold defaulted
  cases Json.field? r name with
  | none => simp [eq_comm]
  | some v => simp [below_eq_valid_iff]

theorem fields_eq_valid_iff {record : Text} {v : Json} {read : List (Text × Json) → Checked α} {a : α} :
    fields record v read = valid a ↔ ∃ r, v = .object r ∧ read r = valid a := by
  cases v <;> simp [fields, flaw]

end Record

/-- A text holds some suggestions: it is an object, and if it has a list of suggestions each of them can be read. -/
def Suggestion.Reads (said : Text) (suggestions : List Suggestion) : Prop :=
  ∃ fields, Record.ofText said = .valid (.object fields) ∧
    (Json.field? fields "suggestions" = none ∧ suggestions = [] ∨
      ∃ items, Json.field? fields "suggestions" = some (.array items) ∧
        List.Forall₂ (fun v s => Suggestion.check .infinite v = .valid s) items suggestions)

/-- The checks of a reply accept exactly the replies that read as suggestions. -/
theorem Suggestion.ofReply_eq_valid_iff {said : Text} {suggestions : List Suggestion} :
    ofReply said = .valid suggestions ↔ Reads said suggestions := by
  simp only [ofReply, checkAll, Checked.andThen_eq_valid_iff, Record.fields_eq_valid_iff, Record.defaulted_eq_valid_iff,
    Record.list_eq_valid_iff, Reads]
  constructor
  · rintro ⟨_, read, fields, rfl, absent | ⟨_, found, items, rfl, each⟩⟩
    · exact ⟨fields, read, Or.inl absent⟩
    · exact ⟨fields, read, Or.inr ⟨items, found, each⟩⟩
  · rintro ⟨fields, read, absent | ⟨items, found, each⟩⟩
    · exact ⟨_, read, fields, rfl, Or.inl absent⟩
    · exact ⟨_, read, fields, rfl, Or.inr ⟨_, found, items, rfl, each⟩⟩

/-- A reply without a text holds no suggestions. -/
theorem Suggestion.not_reads_nil (suggestions : List Suggestion) : ¬Reads [] suggestions := by
  rintro ⟨fields, read, -⟩
  have unread : Record.ofText [] = .flaw (.text []) .invalidJson := rfl
  cases unread.symm.trans read

/-- A fix proposes just what a suggestion says. -/
structure Suggestion.ProposedAs (s : Suggestion) (f : Fix) : Prop where
  title : f.title = s.title
  description : f.description = s.description
  edits : f.edits = s.edits
  confidence : f.confidence = s.confidence
  strategy : f.strategy = .model

/-- The limit is a positive time that binary64 can hold. -/
def Limit.Positive (limit : Limit) : Prop :=
  ∃ a, limit.amount? = some a ∧ (Amount.whole 0).lt a = true ∧ a.isHuge = false

theorem Amount.not_blank_of_pos {a : Amount} (positive : (Amount.whole 0).lt a = true) :
    (a.isZero || a.isNegative) = false := by
  cases a with
  | whole n =>
    simp only [lt, isZero, isNegative, decide_eq_true_eq, Bool.or_eq_false_iff, decide_eq_false_iff_not] at positive ⊢
    omega
  | real x =>
    have some : x.code ≠ 0 := by
      intro zero
      simp [lt, Binary64.isNan, Binary64.isInfinite, Binary64.fraction, Binary64.significand, zero,
        infinityCode] at positive
    simp only [lt, isZero, isNegative, some] at positive ⊢
    cases number : x.isNan <;> cases bounded : x.isInfinite <;> cases sign : x.negative <;>
      simp [number, bounded, sign] at positive ⊢
    omega

theorem Limit.fault?_of_positive {limit : Limit} (positive : limit.Positive) : limit.fault? = Option.none := by
  obtain ⟨a, given, some, finite⟩ := positive
  simp [Limit.fault?, given, Amount.not_blank_of_pos some, finite]

namespace Fault

/-- The families of trouble with a connection. -/
def connectionFamilies : List Text :=
  ["ConnectionError", "BrokenPipeError", "ConnectionAbortedError", "ConnectionRefusedError", "ConnectionResetError"]

/-- Only the families under a connection error lie within it. -/
theorem mem_connectionFamilies {family : Text} {fuel : Nat} (within : liesWithin "ConnectionError" fuel family = true) :
    family ∈ connectionFamilies := by
  have closed : ∀ p ∈ widerFamilies, p.2 ∈ connectionFamilies → p.1 ∈ connectionFamilies := by decide +kernel
  have top : ("ConnectionError" : Text) ∈ connectionFamilies := List.mem_cons_self
  induction fuel generalizing family with
  | zero => exact of_decide_eq_true within ▸ top
  | succ fuel ih =>
    rw [liesWithin, Bool.or_eq_true, decide_eq_true_eq] at within
    rcases within with rfl | wider
    · exact top
    · cases found : widerFamilies.find? (·.1 = family) with
      | none =>
        rw [found] at wider
        cases wider
      | some p =>
        rw [found] at wider
        have here := List.find?_some found
        obtain rfl : p.1 = family := by simpa using here
        exact closed p (List.mem_of_find?_eq_some found) (ih wider)

/-- Trouble with a connection is trouble of the system. -/
theorem isA_oSError_of_connection {f : Fault} (connection : f.isA "ConnectionError" = true) :
    f.isA "OSError" = true := by
  have within : ∀ kind ∈ connectionFamilies, liesWithin "OSError" 8 kind = true := by decide +kernel
  obtain ⟨kind, member, lies⟩ := List.any_eq_true.mp connection
  exact List.any_eq_true.mpr ⟨kind, member, within kind (mem_connectionFamilies lies)⟩

/-- What may pass is a timeout or trouble of the system. -/
theorem isTransient_iff (f : Fault) :
    f.isTransient = true ↔ f.isA "TimeoutError" = true ∨ f.isA "OSError" = true := by
  rw [isTransient, Bool.or_eq_true, Bool.or_eq_true]
  constructor
  · rintro ((timeout | connection) | system)
    · exact Or.inl timeout
    · exact Or.inr (isA_oSError_of_connection connection)
    · exact Or.inr system
  · rintro (timeout | system)
    · exact Or.inl (Or.inl timeout)
    · exact Or.inr system

end Fault

namespace ModelReply

/-- The reply is passing trouble: the request takes too long, or the fault that leaves it is a timeout or trouble of the
system. Families that others have made from these count as well. -/
def IsTrouble : ModelReply → Prop
  | text _ => False
  | raised f => f.leavingCall.isA "TimeoutError" = true ∨ f.leavingCall.isA "OSError" = true
  | stalled => True

instance : DecidablePred IsTrouble
  | text _ => inferInstanceAs (Decidable False)
  | raised f =>
    inferInstanceAs (Decidable (f.leavingCall.isA "TimeoutError" = true ∨ f.leavingCall.isA "OSError" = true))
  | stalled => inferInstanceAs (Decidable True)

/-- The end of a request as an attempt. -/
def attempt : ModelReply → Attempt Text
  | text t => .value (t.getD [])
  | raised f => .raised f
  | stalled => .raised .timeout

theorem settles_attempt (reply : ModelReply) : reply.attempt.settles Fault.isTransient = decide ¬reply.IsTrouble := by
  cases reply with
  | text t => rfl
  | raised f => simp [attempt, Attempt.settles, IsTrouble, ← Fault.isTransient_iff]
  | stalled => decide +kernel

end ModelReply

/-- The replies to a request that is made so many times. -/
def Client.replies {ω : Type} (client : Client ω) (r : Request) : Nat → ω → List ModelReply
  | 0, _ => []
  | n + 1, w => (client r w).1 :: replies client r n (client r w).2

/-- The first reply that is no passing trouble. -/
def ModelReply.first? (replies : List ModelReply) : Option ModelReply := replies.find? fun reply => ¬reply.IsTrouble

section First

variable {reply : ModelReply} {replies : List ModelReply}

theorem ModelReply.first?_cons (settled : ¬reply.IsTrouble) : first? (reply :: replies) = some reply :=
  List.find?_cons_of_pos (decide_eq_true settled)

theorem ModelReply.first?_cons_of_trouble (trouble : reply.IsTrouble) : first? (reply :: replies) = first? replies :=
  List.find?_cons_of_neg (by simpa using trouble)

end First

/-- An attempt ends as a reply does, or without one it fails. -/
def Attempt.EndsBy (attempt : Attempt Text) : Option ModelReply → Prop
  | some reply => attempt = reply.attempt.leaving
  | none => ∃ f, attempt = .raised f

theorem Attempt.EndsBy.ne_cut {attempt : Attempt Text} {first : Option ModelReply} (ends : attempt.EndsBy first) :
    attempt ≠ .cut := by
  cases first with
  | none =>
    obtain ⟨f, rfl⟩ := ends
    nofun
  | some reply =>
    obtain rfl : attempt = reply.attempt.leaving := ends
    cases reply <;> nofun

/-- Nothing cuts a wait off that has a limit of its own. -/
theorem Desk.sitOut_of_calm {ω : Type} {limit : Limit} {d : Desk ω} (ends : limit.seconds? ≠ none)
    (calm : d.patience = none) : sitOut limit d = (true, d) := by
  obtain ⟨time, given⟩ := Option.ne_none_iff_exists'.mp ends
  simp only [sitOut, modifyGet, MonadStateOf.modifyGet, StateT.modifyGet, given, calm]
  rfl

namespace ModelSetup

variable {ω : Type} {s : ModelSetup} {client : Client ω} {r : Request} {d : Desk ω}

theorem ask_eq (possible : s.timeout.fault? = none) (calm : d.patience = none)
    (ends : (client r d.world).1 = .stalled → s.timeout.seconds? ≠ none) :
    s.ask client r d = ((client r d.world).1.attempt, { d with world := (client r d.world).2 }) := by
  unfold ask
  simp only [possible]
  refine StateM.bind_eq_iff.mpr ⟨_, _, rfl, ?_⟩
  cases reply : (client r d.world).1 with
  | text t => rfl
  | raised f => rfl
  | stalled =>
    have waited : Desk.sitOut s.timeout { d with world := (client r d.world).2 } = (true, _) :=
      Desk.sitOut_of_calm (ends reply) calm
    exact StateM.bind_eq_iff.mpr ⟨_, _, waited, rfl⟩

theorem ask_of_trouble (possible : s.timeout.fault? = none) (calm : d.patience = none)
    (ends : (client r d.world).1 = .stalled → s.timeout.seconds? ≠ none) (trouble : (client r d.world).1.IsTrouble) :
    ∃ f, s.ask client r d = (.raised f, { d with world := (client r d.world).2 }) ∧
      f.leavingCall.isTransient = true := by
  have settles := (client r d.world).1.settles_attempt
  rw [decide_eq_false (not_not_intro trouble)] at settles
  obtain ⟨f, raised, again⟩ := exists_of_not_settles settles
  exact ⟨f, by rw [ask_eq possible calm ends, raised], again⟩

variable {retries : Loose Int} {label : Text} {total : Int} {left made : Nat}

/-- A reply that is no trouble ends the retries at once, whether it is good or bad. -/
theorem retryFrom_ask_settled (possible : s.timeout.fault? = none) (calm : d.patience = none)
    (ends : (client r d.world).1 = .stalled → s.timeout.seconds? ≠ none) (settled : ¬(client r d.world).1.IsTrouble) :
    retryFrom (.standard retries) Fault.isTransient label (s.ask client r) total left made d =
      ((client r d.world).1.attempt.leaving, { d with world := (client r d.world).2 }) := by
  have settles := (client r d.world).1.settles_attempt
  rw [decide_eq_true settled] at settles
  exact retryFrom_settled (ask_eq possible calm ends) settles

/-- A model is asked again while its replies are passing trouble and retries are left. Its first other reply decides. -/
theorem exists_retryFrom_ask (possible : s.timeout.fault? = none) (calm : d.patience = none)
    (inRange : made + left ≤ 1024)
    (ends : ∀ reply ∈ client.replies r (left + 1) d.world, reply = .stalled → s.timeout.seconds? ≠ none) :
    ∃ attempt d', retryFrom (.standard retries) Fault.isTransient label (s.ask client r) total left made d =
        (attempt, d') ∧ attempt.EndsBy (ModelReply.first? (client.replies r (left + 1) d.world)) := by
  induction left generalizing made d with
  | zero =>
    have stalls := ends _ List.mem_cons_self
    by_cases trouble : (client r d.world).1.IsTrouble
    · obtain ⟨f, asked, again⟩ := ask_of_trouble possible calm stalls trouble
      obtain ⟨line, spent⟩ := retryFrom_spent (.standard retries) label total made asked again
      rw [spent, Client.replies, ModelReply.first?_cons_of_trouble trouble]
      exact ⟨_, _, rfl, _, rfl⟩
    · rw [retryFrom_ask_settled possible calm stalls trouble, Client.replies, ModelReply.first?_cons trouble]
      exact ⟨_, _, rfl, rfl⟩
  | succ left ih =>
    have stalls := ends _ List.mem_cons_self
    by_cases trouble : (client r d.world).1.IsTrouble
    · obtain ⟨f, asked, again⟩ := ask_of_trouble possible calm stalls trouble
      have pause := RetryPolicy.standard_delay (by omega : made < 1024) retries
      obtain ⟨line, next⟩ := retryFrom_again label total left asked again pause
      rw [next, Client.replies, ModelReply.first?_cons_of_trouble trouble]
      exact ih calm (by omega) fun reply member => ends reply (List.mem_cons_of_mem _ member)
    · rw [retryFrom_ask_settled possible calm stalls trouble, Client.replies, ModelReply.first?_cons trouble]
      exact ⟨_, _, rfl, rfl⟩

/-- The fixes that come of an attempt to have a text from a model. -/
def fixesOf : Attempt Text → List Fix
  | .value said =>
    match Suggestion.ofReply said with
    | .valid suggestions => worthwhile suggestions
    | .faulty _ => []
  | .raised _ | .cut => []

theorem exists_suggest_eq {attempt : Attempt Text} {d' : Desk ω} (defect : Defect)
    (ran : retry (.standard s.maxRetries) Fault.isTransient "gemini-fix-suggestion" (s.ask client r) d = (attempt, d'))
    (uncut : attempt ≠ .cut) : ∃ last, s.suggest client defect r d = (some (fixesOf attempt), last) := by
  obtain ⟨given, last, start⟩ : ∃ given last, s.suggest client defect r d = (given, last) := ⟨_, _, rfl⟩
  have run := start
  unfold suggest at run
  obtain ⟨_, _, ran', run⟩ := StateM.bind_eq_iff.mp run
  cases ran.symm.trans ran'
  refine ⟨last, start.trans (congrArg (·, last) ?_)⟩
  cases attempt with
  | cut => exact absurd rfl uncut
  | raised f =>
    cases run
    rfl
  | value said =>
    rw [fixesOf]
    cases read : Suggestion.ofReply said <;> simp only [read, Checked.toExcept] at run <;> cases run <;> rfl

/-- What comes of the first reply that is no passing trouble. If it holds suggestions, those that edit anything are
proposed, and otherwise nothing is. -/
structure Suggests (first : Option ModelReply) (fixes : List Fix) : Prop where
  read : ∀ said suggestions, first = some (.text (some said)) → Suggestion.Reads said suggestions →
    List.Forall₂ Suggestion.ProposedAs (suggestions.filter fun s => s.edits ≠ []) fixes
  unread : (∀ said suggestions, first = some (.text (some said)) → ¬Suggestion.Reads said suggestions) → fixes = []

/-- Suggestions without edits are left out, the others become fixes one by one. -/
theorem worthwhile_forall₂ (suggestions : List Suggestion) :
    List.Forall₂ Suggestion.ProposedAs (suggestions.filter fun s => s.edits ≠ []) (worthwhile suggestions) := by
  have kept : suggestions.filter (fun s => !s.edits.isEmpty) = suggestions.filter fun s => s.edits ≠ [] := by
    refine List.filter_congr fun s _ => ?_
    cases s.edits <;> rfl
  rw [worthwhile, kept, List.forall₂_map_right_iff]
  exact List.forall₂_same.mpr fun s _ => ⟨rfl, rfl, rfl, rfl, rfl⟩

theorem fixesOf_unread {said : Text} (unread : ∀ suggestions, ¬Suggestion.Reads said suggestions) :
    fixesOf (.value said) = [] := by
  rw [fixesOf]
  cases read : Suggestion.ofReply said with
  | valid suggestions => exact absurd (Suggestion.ofReply_eq_valid_iff.mp read) (unread suggestions)
  | faulty => rfl

/-- What the retries end with decides the fixes: a readable reply gives its suggestions, any other
none. -/
theorem suggests_of_endsBy {attempt : Attempt Text} {first : Option ModelReply} (ends : attempt.EndsBy first) :
    Suggests first (fixesOf attempt) := by
  constructor
  · rintro said suggestions rfl reads
    obtain rfl : attempt = .value said := ends
    rw [fixesOf, Suggestion.ofReply_eq_valid_iff.mpr reads]
    exact worthwhile_forall₂ suggestions
  · intro unread
    cases first with
    | none =>
      obtain ⟨f, rfl⟩ := ends
      rfl
    | some reply =>
      obtain rfl : attempt = reply.attempt.leaving := ends
      cases reply with
      | raised | stalled => rfl
      | text t =>
        cases t with
        | none => exact fixesOf_unread Suggestion.not_reads_nil
        | some said => exact fixesOf_unread fun suggestions => unread said suggestions rfl

theorem exists_request {radius : Int} (context : s.contextLines = .int radius) (defect : Defect) (t : Text) :
    ∃ r, s.request defect t = .ok r := by
  obtain ⟨excerpt, shown⟩ : ∃ excerpt, Excerpt.aroundLoosely t (defect.line.map fun n => (n : Int)) s.contextLines =
      .ok excerpt := by
    rw [context]
    cases defect.line <;> exact ⟨_, rfl⟩
  rw [request, Prompt.ofDefect, shown]
  exact ⟨_, rfl⟩

/-- Under a positive limit of time, and with as many retries as the doubled waits allow, the generator that asks a model
always gives fixes, whatever the replies are. The first reply that is no passing trouble decides which ones. -/
theorem generator_suggests (client : Client ω) {radius : Int} {retries : Nat} (context : s.contextLines = .int radius)
    (positive : s.timeout.Positive) (often : s.maxRetries = .fit retries) (most : retries ≤ 1024)
    (calm : d.patience = none) (defect : Defect) (t : Text) :
    ∃ r, s.request defect t = .ok r ∧
      ((∀ reply ∈ client.replies r (retries + 1) d.world, reply = .stalled → s.timeout.seconds? ≠ none) →
        ∃ fixes last, (s.generator client).propose defect t d = (.ofFixes fixes, last) ∧
          Suggests (ModelReply.first? (client.replies r (retries + 1) d.world)) fixes) := by
  obtain ⟨r, made⟩ := exists_request context defect t
  refine ⟨r, made, fun ends => ?_⟩
  have possible := Limit.fault?_of_positive positive
  obtain ⟨attempt, d', ran, decided⟩ : ∃ attempt d', retry (.standard s.maxRetries) Fault.isTransient
      "gemini-fix-suggestion" (s.ask client r) d = (attempt, d') ∧ attempt.EndsBy _ := by
    rw [often]
    exact exists_retryFrom_ask possible calm (by omega : 0 + retries ≤ 1024) ends
  obtain ⟨last, suggested⟩ := exists_suggest_eq defect ran decided.ne_cut
  refine ⟨fixesOf attempt, last, ?_, suggests_of_endsBy decided⟩
  simp only [generator, made]
  exact StateM.bind_eq_iff.mpr ⟨_, _, suggested, rfl⟩

end ModelSetup

/-- Two suggestions, and only the first one edits anything. -/
def spareReply : Text :=
  "\x7b\"suggestions\": [\x7b\"title\": \"drop it\", \"confidence\": 0.5, \"edits\": [\x7b\"kind\": \"delete\", \"start\": \x7b\"line\": 1\x7d\x7d]\x7d, \x7b\"title\": \"keep it\", \"confidence\": 1\x7d]\x7d"

/-- The fault of an address that nobody knows. Its family is made from the one for trouble of the system. -/
def unknownAddress : Fault := ⟨⟨"gaierror", ["OSError"]⟩, "[Errno -2] Name or service not known"⟩

/-- A model that stalls, then cannot be found, and then replies. -/
def hesitant : Client Nat := fun _ calls =>
  (if calls = 0 then .stalled else if calls = 1 then .raised unknownAddress else .text (some spareReply), calls + 1)

theorem spareReply_reads : ∃ suggestions, Suggestion.Reads spareReply suggestions ∧
    (suggestions.filter fun s => s.edits ≠ []).map Suggestion.title = (["drop it"] : List Text) := by
  have kept : (match Suggestion.ofReply spareReply with
    | .valid suggestions => (suggestions.filter fun s => s.edits ≠ []).map Suggestion.title
    | .faulty _ => []) = (["drop it"] : List Text) := by decide +kernel
  cases read : Suggestion.ofReply spareReply with
  | valid suggestions =>
    rw [read] at kept
    exact ⟨suggestions, Suggestion.ofReply_eq_valid_iff.mp read, kept⟩
  | faulty =>
    rw [read] at kept
    cases kept

/-- A note about the second line of a text that has one line only. -/
def strayNote : Defect := ⟨"unused", .info, some (.behind 1 0), none, none⟩

/-- The third reply is the first one that is no passing trouble, and one of its suggestions is proposed. -/
theorem hesitant_suggests :
    ∃ fixes last, (((Tuning.standard.modelSetup "").generator hesitant).propose strayNote "x" (Desk.fresh 0) =
        (.ofFixes fixes, last)) ∧ fixes.map Fix.title = (["drop it"] : List Text) := by
  have positive : (Tuning.standard.modelSetup "").timeout.Positive := ⟨_, rfl, by decide, by decide⟩
  have limited : (Tuning.standard.modelSetup "").timeout.seconds? ≠ none := by decide
  have calm : (Desk.fresh 0).patience = none := rfl
  obtain ⟨r, -, suggests⟩ :=
    ModelSetup.generator_suggests hesitant rfl positive rfl (by decide : 3 ≤ 1024) calm strayNote "x"
  obtain ⟨fixes, last, proposed, decided⟩ := suggests fun _ _ _ => limited
  have stalled : ModelReply.stalled.IsTrouble := trivial
  have lost : (ModelReply.raised unknownAddress).IsTrouble := Or.inr (by decide +kernel)
  have settled : ¬(ModelReply.text (some spareReply)).IsTrouble := id
  have first : ModelReply.first? (hesitant.replies r 4 0) = some (.text (some spareReply)) :=
    (ModelReply.first?_cons_of_trouble stalled).trans
      ((ModelReply.first?_cons_of_trouble lost).trans (ModelReply.first?_cons settled))
  obtain ⟨suggestions, reads, kept⟩ := spareReply_reads
  have titles : List.Forall₂ (· = ·) ((suggestions.filter fun s => s.edits ≠ []).map Suggestion.title)
      (fixes.map Fix.title) := by
    rw [List.forall₂_map_left_iff, List.forall₂_map_right_iff]
    exact (decided.read spareReply suggestions first reads).imp fun s f same => same.title.symm
  rw [List.forall₂_eq_eq_eq] at titles
  exact ⟨fixes, last, proposed, titles.symm.trans kept⟩

end Mender
