import Mender.Proofs.Session.Unexpected

namespace Mender

variable {ω : Type}

namespace Generator

variable {gs : List (Generator ω)} {limit : Limit} {d : Defect} {t : Text}

/-- If the proposals are decided, so are the fixes of a call that can be made. -/
theorem fixes_decided {g : Generator ω} {fixes : List Fix} (keepable : limit.fault? = none)
    (decided : ∀ x, (g.propose d t x).1.fixes = fixes) (x : Desk ω) : (g.fixes limit d t x).1 = fixes := by
  have called := g.fixes_called limit d t x
  generalize (g.fixes limit d t x).1 = found, (g.fixes limit d t x).2 = last at called
  cases called with
  | refused unkept => exact (unkept keepable).elim
  | replied => exact decided _

theorem fixesForAll_decided {fixes : Defect → List Fix} {defects : List Defect}
    (decided : ∀ d x, (fixesForDefect gs limit d t x).1 = fixes d) (x : Desk ω) :
    (fixesForAll gs limit t defects x).1 = defects.flatMap fixes := by
  induction defects generalizing x with
  | nil => rfl
  | cons d defects ih =>
    rw [List.flatMap_cons, ← decided d x, ← ih (fixesForDefect gs limit d t x).2]
    rfl

end Generator

/-- Without a model or a client the standard generators are the rules and the known names. -/
theorem standardGenerators_modelless {tuning : Tuning} {client : Option (Client ω)} (manual : Text)
    (modelless : (!tuning.usesModel.isBlank && client.isSome) = false) :
    standardGenerators tuning manual none client =
      [ruleGenerator ω (.text tuning.bindingTemplate), knownNamesGenerator ω none] := by
  unfold standardGenerators StandardGenerator.all
  rw [modelless]
  rfl

namespace Session

/-- A session with the standard generators, without known names and without a model, whose calls can be made
under their limits. -/
structure RulesAlone (s : Session ω) (tuning : Tuning) (manual : Text) (client : Option (Client ω)) : Prop
    extends s.Standard tuning manual none client where
  modelless : (!tuning.usesModel.isBlank && client.isSome) = false
  judges : s.oracleLimit.faultUnlessBlank? = none
  proposes : s.generatorLimit.fault? = none

/-- The candidates are then decided by defects and text. -/
theorem RulesAlone.candidates_eq {s : Session ω} {tuning : Tuning} {manual : Text} {client : Option (Client ω)}
    (alone : s.RulesAlone tuning manual client) (defects : List Defect) (t : Text) (b : Bench ω) :
    (s.candidates defects t b).1 = defects.flatMap fun d => fixesByRule (.text tuning.bindingTemplate) d t := by
  have listed := alone.generators.trans (standardGenerators_modelless manual alone.modelless)
  refine Generator.fixesForAll_decided (fun d x => ?_) b.desk
  have rules (y : Desk ω) : ((ruleGenerator ω (.text tuning.bindingTemplate)).fixes s.generatorLimit d t y).1 =
      fixesByRule (.text tuning.bindingTemplate) d t :=
    Generator.fixes_decided alone.proposes (fixes_ruleGenerator _ d t) y
  have names (y : Desk ω) : ((knownNamesGenerator ω none).fixes s.generatorLimit d t y).1 = [] :=
    Generator.fixes_decided alone.proposes (fun _ => rfl) y
  rw [listed]
  refine (congrArg₂ (· ++ ·) (rules x) (congrArg (· ++ []) (names _))).trans ?_
  rw [List.append_nil, List.append_nil]

end Session

/-- A session of one iteration with the standard tuning, in which the rules work alone. -/
def unassisted (t : Text) (oracle : Oracle Unit) : Session Unit where
  id := "s"
  text := t
  oracle := oracle
  generators := standardGenerators Tuning.standard "" none none
  maxIterations := 1
  oracleLimit := Tuning.standard.oracleLimit
  generatorLimit := Tuning.standard.generatorLimit
  manual := ""
  cancelled := fun _ => false
  atRanking := fun w => (none, w)

theorem unassisted_rulesAlone (t : Text) (oracle : Oracle Unit) :
    (unassisted t oracle).RulesAlone Tuning.standard "" none where
  generators := rfl
  quiet _ := rfl
  modelless := rfl
  judges := by
    change Tuning.standard.oracleLimit.faultUnlessBlank? = none
    decide
  proposes := by
    change Tuning.standard.generatorLimit.fault? = none
    decide

end Mender
