import Z80Atlas.Analysis.Walk
import Z80Atlas.Session.Basic

namespace Z80Atlas

-- Does the instruction choose between two ways? Conditional returns do, and conditional branches
-- that name their condition.
def Instruction.isDecision (instruction : Instruction) : Bool :=
  instruction.flow.conditional &&
    ((instruction.flow.branch && instruction.template.contains ',') || instruction.flow.ret)

namespace Session

-- The walk through the code of a routine, which ends where another subroutine begins.
def routine (session : Session) : Walk where
  admits := session.memory.isAssigned
  exits address :=
    let instruction := session.instructionAt address
    let inside (target : Address) : Bool := !session.labels.kindIs target Kind.isSubroutine
    ((instruction.fallThrough? address).toList ++ instruction.jump?.toList).filter inside

def tally (statistics : Statistics) (instruction : Instruction) : Statistics where
  size := statistics.size + instruction.length.toNat
  instructions := statistics.instructions + 1
  complexity := statistics.complexity + if instruction.isDecision then 1 else 0

def statisticsAt (session : Session) (address : Address) : Statistics :=
  ((session.routine.visited address).map session.instructionAt).foldl tally {}

-- Count the label with a number, if it is a top-level label in loaded memory. A restart that is not
-- followed counts for nothing.
def countLabel (session : Session) (id : LabelId) : Session :=
  match session.labels.get? id with
  | none => session
  | some label =>
    if label.isEqu || !label.kind.isTopLevel then session
    else if label.kind = .restart ∧ session.config.deniedRestarts.contains label.address then
      { session with statistics := session.statistics.insert id {} }
    else
      let sums := session.statisticsAt label.address
      let statistics := { sums with complexity := sums.complexity + 1 }
      { session with
        statistics := session.statistics.insert id statistics
        leastStatistics := session.leastStatistics.min statistics
        greatestStatistics := session.greatestStatistics.max statistics }

def countStatistics (session : Session) : Session :=
  session.labels.ids.foldl countLabel session

end Session

end Z80Atlas
