import Mender.Convergence
import Mender.Generator.Basic
import Mender.Oracle.Memo
import Mender.Ranking

namespace Mender

/-- What a session works with. -/
structure Session (ω : Type) where
  id : Text
  text : Text
  oracle : Oracle ω
  generators : List (Generator ω)
  maxIterations : Int
  oracleLimit : Limit
  generatorLimit : Limit
  /-- The address of the manual that explains the flaws of records. -/
  manual : Text
  /-- Somebody has asked for the session to end. -/
  cancelled : ω → Bool
  /-- What goes wrong when a ranking starts, if anything does. -/
  atRanking : ω → Option Fault × ω
  /-- The number of iterations as the journal shows it. -/
  budgetText : Text := Text.ofInt maxIterations

/-- Why a session could not finish. -/
inductive Failure where
  | oracle (e : OracleError)
  | unexpected (f : Fault)

namespace Failure

def reason : Failure → StopReason
  | oracle _ => .oracleFailure
  | unexpected _ => .error

/-- What went wrong; `manual` explains the flaws of records. -/
def message (manual : Text) : Failure → Text
  | oracle e => e.message manual
  | unexpected f => f.describe

end Failure

/-- The result of a walk over ranked fixes on a text with `count` defects. -/
inductive Walk (count : Nat) where
  | accepted (fix : Fix) (healed : Text) (remaining : List Defect) (fewer : remaining.length < count)
  | exhausted
  | failed (e : OracleError)

/-- How the accepting of fixes in an iteration ends. -/
inductive PassEnd where
  | finished
  | failed (f : Failure)

/-- What an iteration has done: the text it arrived at, the defects of that text, and the fixes it
accepted in order. -/
structure Pass where
  current : Text
  remaining : List Defect
  applied : List Fix
  ending : PassEnd

/-- What an iteration came to. -/
inductive Round where
  | cancelled
  | unjudged (e : OracleError)
  | clean
  | worked (reported : List Defect) (pass : Pass)

/-- How far a session has come. -/
structure Course where
  current : Text
  iterations : Nat
  steps : List HealingStep

/-- How the iterations of a session end. -/
inductive Ending where
  | stopped (reason : StopReason)
  | failed (f : Failure)

theorem Defect.length_prioritize (defects : List Defect) :
    (Defect.prioritize defects).length = defects.length :=
  List.length_mergeSort defects

def HealingStep.record (iteration : Nat) (defects : List Defect) (applied : List Fix) : HealingStep :=
  { iteration := iteration
    defectsFound := defects.length
    fixesApplied := applied.length
    textChanged := !applied.isEmpty
    defects := defects
    appliedFixes := applied }

/-- The step that records an iteration. One that failed is recorded only if it had accepted a fix. -/
def Round.step? (iteration : Nat) : Round → Option HealingStep
  | cancelled | unjudged _ | clean => none
  | worked reported pass =>
    match pass.ending, pass.applied with
    | .failed _, [] => none
    | _, applied => some (.record iteration reported applied)

/-- The ending that an iteration brings, with the steps after it; none if the session goes on. -/
def Round.ending? (maxIterations : Int) (steps : List HealingStep) : Round → Option Ending
  | cancelled => some (.stopped .cancelled)
  | unjudged e => some (.failed (.oracle e))
  | clean => some (.stopped .converged)
  | worked _ pass =>
    match pass.ending with
    | .failed f => some (.failed f)
    | .finished => (stopReason? steps maxIterations pass.remaining.length).map .stopped

/-- The course after one more iteration. An iteration that was cancelled does not count. -/
def Course.after (course : Course) (round : Round) : Course :=
  let iteration := course.iterations + 1
  { current :=
      match round with
      | .worked _ pass => pass.current
      | _ => course.current
    iterations :=
      match round with
      | .cancelled => course.iterations
      | _ => iteration
    steps := course.steps ++ (round.step? iteration).toList }

/-- Some remaining defect was not reported before, wherever it stands. -/
def hasFresh (remaining reported : List Defect) : Bool :=
  remaining.any fun d => d.identity ∉ reported.map Defect.identity

def countChange (before after : Nat) : Text :=
  Text.ofNat before ++ " → " ++ Text.ofNat after ++ " defects"

namespace Session

variable {ω : Type}

def say (s : Session ω) (level : Level) (message : Text) : StateM (Bench ω) Unit :=
  Bench.write level .session ("Session " ++ s.id ++ ": " ++ message)

def verdict (s : Session ω) (t : Text) : StateM (Bench ω) (Except OracleError (List Defect)) :=
  Bench.verdict s.oracle s.oracleLimit t

def candidates (s : Session ω) (defects : List Defect) (t : Text) : StateM (Bench ω) (List Fix) :=
  Bench.atDesk (Generator.fixesForAll s.generators s.generatorLimit t defects)

/-- The candidates in the order in which they are tried. -/
def ranked (s : Session ω) (found : List Fix) : StateM (Bench ω) (Except Fault (List Fix)) := do
  match ← Bench.atDesk (Desk.turn s.atRanking) with
  | some f => pure (.error f)
  | none => pure (rankFixes? found)

def noteRejected (f : Fix) (why : Text) : StateM (Bench ω) Unit :=
  Bench.write .debug .session ("Rejected '" ++ f.title ++ "': " ++ why)

/-- Walks over ranked fixes for a text with `count` defects, up to the first one that lowers the
number of defects. A fix that does not apply or changes nothing is passed over; for any other the
verdict on the text is looked up once more. -/
def firstImproving (s : Session ω) (current : Text) (count : Nat) :
    List Fix → StateM (Bench ω) (Walk count)
  | [] => pure .exhausted
  | fix :: rest => do
    match fix.apply current with
    | .error e =>
      noteRejected fix e.message
      firstImproving s current count rest
    | .ok candidate =>
      if candidate = current then
        noteRejected fix "no change"
        firstImproving s current count rest
      else
        Bench.revisit s.oracleLimit
        match ← s.verdict candidate with
        | .error e => pure (.failed e)
        | .ok after =>
          if fewer : after.length < count then pure (.accepted fix candidate after fewer)
          else
            noteRejected fix (countChange count after.length)
            firstImproving s current count rest

/-- Accepts fixes for a text with the given defects, one after the other, each on the result of the
one before. It stops when no candidate helps, when the text is clean, or when a defect remains that
the iteration did not report at its start. -/
def acceptFixes (s : Session ω) (iteration : Nat) (reported : List Defect) (current : Text)
    (defects : List Defect) (applied : List Fix) : StateM (Bench ω) Pass := do
  if defects.isEmpty then pure ⟨current, defects, applied, .finished⟩
  else
    let found ← s.candidates defects current
    match ← s.ranked found with
    | .error f => pure ⟨current, defects, applied, .failed (.unexpected f)⟩
    | .ok fixes =>
      match ← s.firstImproving current defects.length fixes with
      | .failed e => pure ⟨current, defects, applied, .failed (.oracle e)⟩
      | .exhausted => pure ⟨current, defects, applied, .finished⟩
      | .accepted fix healed after _ =>
        let remaining := Defect.prioritize after
        s.say .info
          ("accepted '" ++ fix.title ++ "' (" ++ fix.strategy.word ++ ") — "
            ++ countChange defects.length after.length)
        if hasFresh remaining reported then
          s.say .info ("new defects surfaced, ending iteration " ++ Text.ofNat iteration)
          pure ⟨healed, remaining, applied ++ [fix], .finished⟩
        else acceptFixes s iteration reported healed remaining (applied ++ [fix])
termination_by defects.length
decreasing_by
  simp only [Defect.length_prioritize]
  assumption

/-- One iteration: the text is judged, and fixes are accepted if it has defects. -/
def round (s : Session ω) (iteration : Nat) (current : Text) : StateM (Bench ω) Round := do
  if s.cancelled (← get).desk.world then
    s.say .info ("cancelled before iteration " ++ Text.ofNat iteration)
    pure .cancelled
  else
    match ← s.verdict current with
    | .error e => pure (.unjudged e)
    | .ok [] =>
      s.say .info ("no defects at iteration " ++ Text.ofNat iteration)
      pure .clean
    | .ok (d :: more) =>
      let reported := Defect.prioritize (d :: more)
      s.say .info
        ("iteration " ++ Text.ofNat iteration ++ "/" ++ s.budgetText ++ " — "
          ++ Text.ofNat reported.length ++ " defects")
      let pass ← s.acceptFixes iteration reported current reported []
      pure (.worked reported pass)

/-- Notes in the journal that a session stops after an iteration that accepted what it could. -/
def noteStop (s : Session ω) : Round → Ending → StateM (Bench ω) Unit
  | .worked _ _, .stopped reason => s.say .info ("stopping — " ++ reason.word)
  | _, _ => pure ()

/-- The iterations after a course, `left` of them at most. -/
def iterate (s : Session ω) : (left : Nat) → Course → StateM (Bench ω) (Course × Ending)
  | 0, course => pure (course, .stopped .maxIterations)
  | left + 1, course => do
    let round ← s.round (course.iterations + 1) course.current
    match round.ending? s.maxIterations (course.after round).steps with
    | some ending =>
      s.noteStop round ending
      pure (course.after round, ending)
    | none => iterate s left (course.after round)

def total (count : HealingStep → Int) : List HealingStep → Int
  | [] => 0
  | step :: steps => count step + total count steps

def outcome (s : Session ω) (course : Course) (final : Option (List Defect)) (reason : StopReason)
    (confidence : Confidence) (error : Option Text) : Outcome :=
  { session := s.id
    success := final.any List.isEmpty
    given := s.text
    healed := course.current
    iterations := course.iterations
    totalDefects := total HealingStep.defectsFound course.steps
    totalFixes := total HealingStep.fixesApplied course.steps
    steps := course.steps
    final := final
    confidence := confidence
    stopReason := reason
    duration := Binary64.ofCode false 0
    error := error }

/-- How sure the result of a session is that finished. -/
def finishedConfidence (clean : Bool) (steps : List HealingStep) : Confidence :=
  ((healingConfidence clean (total HealingStep.defectsFound steps)
      (total HealingStep.fixesApplied steps) steps.length).toOption.bind
    Confidence.ofBinary64?).getD Confidence.zero

def fail (s : Session ω) (course : Course) (f : Failure) : StateM (Bench ω) Outcome := do
  let what : Text :=
    match f with
    | .oracle _ => "oracle failure — "
    | .unexpected _ => "unexpected failure — "
  s.say .error (what ++ f.message s.manual)
  pure (s.outcome course none f.reason Confidence.zero (some (f.message s.manual)))

/-- Ends a session with the verdict on the text it arrived at. -/
def finish (s : Session ω) (course : Course) (reason : StopReason) (final : List Defect) :
    StateM (Bench ω) Outcome := do
  let confidence := finishedConfidence final.isEmpty course.steps
  let result := s.outcome course (some final) reason confidence none
  s.say .info
    ("finished — success=" ++ (Json.bool result.success).shown ++ ", iterations="
      ++ Text.ofInt result.iterations ++ ", fixes=" ++ Text.ofInt result.totalFixes
      ++ ", remaining=" ++ Text.ofNat final.length ++ ", reason=" ++ reason.word
      ++ ", confidence=" ++ confidence.value.fixed 2)
  pure result

def announce (s : Session ω) : StateM (Bench ω) Unit :=
  s.say .info
    ("starting auto-heal — " ++ Text.ofNat s.text.length ++ " chars, generators="
      ++ shownList (s.generators.map fun g => g.name.shown) ++ ", max_iterations=" ++ s.budgetText)

def run (s : Session ω) : StateM (Bench ω) Outcome := do
  s.announce
  let (course, ending) ← s.iterate s.maxIterations.toNat ⟨s.text, 0, []⟩
  match ending with
  | .failed f => s.fail course f
  | .stopped reason =>
    match ← s.verdict course.current with
    | .error e => s.fail course (.oracle e)
    | .ok final => s.finish course reason final

/-- Runs a session with a number of iterations that was given loosely. Without a number that can be
counted to, the session fails before the first iteration. -/
def runLoosely (s : Session ω) (budget : Json) : StateM (Bench ω) Outcome := do
  let s : Session ω := { s with budgetText := budget.plain }
  match Loose.integer budget with
  | .fit n =>
    let s : Session ω := { s with maxIterations := n }
    s.run
  | .odd v =>
    s.announce
    let why : Fault :=
      match v with
      | .real _ => .notCounted v
      | v => .notAdded v
    s.fail ⟨s.text, 0, []⟩ (.unexpected why)

end Session

end Mender
