import Mender.Session

namespace Mender

structure Tape where
  /-- The answers that are still to be played, in order. -/
  answers : List Answer
  /-- The text whose answer was not on the tape. -/
  asked : Option Text

namespace Tape

/-- The oracle that plays a tape. Where the tape is over, the call stalls. -/
def oracle : Oracle Tape := fun t tape =>
  match tape.answers with
  | answer :: rest => (answer, { tape with answers := rest })
  | [] => (.trouble .stalled, { tape with asked := some t })

end Tape

/-- What work comes to when the answers on a tape are used up: a question to the oracle or the end of
the work, with the turn in which this happens. -/
inductive Milestone where
  | question (t : Text) (turn : Nat)
  | done (outcome : Outcome) (turn : Nat)

namespace Milestone

def turn : Milestone → Nat
  | question _ turn => turn
  | done _ turn => turn

/-- Where work is when it has had these answers. -/
def after (answers : List Answer) (work : StateM (Bench Tape) Outcome) : Milestone :=
  let (outcome, bench) := work (.fresh ⟨answers, none⟩)
  match bench.desk.world.asked with
  | some t => question t bench.desk.turns
  | none => done outcome bench.desk.turns

end Milestone

end Mender
