import Z80Atlas.Analysis.Locality
import Z80Atlas.Report.Dot
import Z80Atlas.Report.Operand

namespace Z80Atlas

inductive ChartItem where
  | start (routine : Address)
  | enter (routine : Address)
  | finish (routine : Address)
  | run (first : Address) (instructions : List Address)
  | branch (run target : Address)
  | next (run target : Address)
  | leave (run routine : Address)

inductive ChartStep where
  | draw (item : ChartItem)
  | visit (address : Address)

namespace Session

-- The instructions of a run from `address` on. It ends before a label and before memory that is not
-- loaded, and behind a branch, a return or where control does not fall through.
def runFrom (session : Session) (address : Address) : List Address :=
  match _h : address.next? (session.instructionAt address).size with
  | none => [address]
  | some following =>
    let flow := (session.instructionAt address).flow
    if session.labels.hasLabel following || !session.memory.isAssigned following ||
        flow.branch || flow.ret || flow.stop then [address]
    else address :: session.runFrom following
termination_by addressCount - address.toNat
decreasing_by
  have hlt : address.toNat + (session.instructionAt address).size < addressCount := by
    unfold Address.next? at _h
    split at _h
    · assumption
    · cases _h
  have heq : following.toNat = address.toNat + (session.instructionAt address).size := by
    unfold Address.next? at _h
    rw [if_pos hlt] at _h
    cases _h
    exact UInt16.toNat_ofNat_of_lt' hlt
  have := (session.instructionAt address).size_pos
  omega

-- What follows a run whose last instruction is at `last`: the branch, the next run and the end.
def stepsBehind (session : Session) (routine : Address) (members : Addresses)
    (first last : Address) : List ChartStep :=
  let instruction := session.instructionAt last
  let follow (target : Option Address) (edge : Address → ChartItem) : List ChartStep :=
    match target.filter members.contains with
    | some target => [.draw (edge target), .visit target]
    | none => []
  follow instruction.target? (.branch first) ++
    follow (instruction.fallThrough? last) (.next first) ++
    if instruction.flow.stop || instruction.flow.ret then [.draw (.leave first routine)] else []

-- Carry out the steps of a chart. A run is drawn unless its first instruction was drawn before.
def chartFrom (session : Session) (routine : Address) (members : Addresses) (drawn : AddressSet)
    (items : Array ChartItem) : List ChartStep → Array ChartItem
  | [] => items
  | .draw item :: steps => session.chartFrom routine members drawn (items.push item) steps
  | .visit address :: steps =>
    if drawn.contains address then session.chartFrom routine members drawn items steps
    else
      let run := session.runFrom address
      session.chartFrom routine members (run.foldl (·.insert ·) (drawn.insert address))
        (items.push (.run address run))
        (session.stepsBehind routine members address (run.getLastD address) ++ steps)
termination_by steps => (drawn.absent, steps.length)
decreasing_by
  · exact Prod.Lex.right _ (Nat.lt_succ_self _)
  · exact Prod.Lex.right _ (Nat.lt_succ_self _)
  · next h =>
    refine Prod.Lex.left _ _ (Nat.lt_of_le_of_lt ?_ (AddressSet.absent_insert_lt (by simpa using h)))
    generalize session.runFrom address = run
    generalize drawn.insert address = drawn
    induction run generalizing drawn with
    | nil => exact Nat.le_refl _
    | cons a run ih => exact Nat.le_trans (ih _) (drawn.absent_insert_le a)

def routineChart (session : Session) (routine : Address) : List ChartItem :=
  let members : Addresses := (session.block routine).foldl (·.insert ·) ∅
  [.start routine, .enter routine, .finish routine] ++
    (session.chartFrom routine members ∅ #[] [.visit routine]).toList

def runName (address : Address) : String := "b" ++ Text.hex4 address

def chartLine (session : Session) : ChartItem → String
  | .start routine =>
    let name := (session.nameAt? routine).getD ("0x" ++ Text.hex4 routine)
    runName routine ++ "start [label=\"" ++ Report.escapeDot name ++
      "\", fillcolor=lightgray, style=filled, shape=tab];\n"
  | .enter routine => runName routine ++ "start -> " ++ runName routine ++ ";\n"
  | .finish routine => runName routine ++ "end [label=\"end\", shape=doublecircle];\n"
  | .run first instructions =>
    let texts := instructions.map fun address =>
      Report.escapeDot (session.instructionText (session.instructionAt address) false).1
    runName first ++ " [label=\"" ++ "\\l".intercalate texts ++ "\\l\"];\n"
  | .branch run target =>
    runName run ++ " -> " ++ runName target ++ " [headport=\"n\", tailport=\"e\"];\n"
  | .next run target => runName run ++ " -> " ++ runName target ++ ";\n"
  | .leave run routine => runName run ++ " -> " ++ runName routine ++ "end;\n"

def flowChart (session : Session) (routines : List Address) : String :=
  String.join <|
    ["digraph FlowChart \x7b\n\nnode [shape=box];\n"] ++
      (routines.flatMap session.routineChart).map session.chartLine ++ ["\n\x7d\n"]

end Session

end Z80Atlas
