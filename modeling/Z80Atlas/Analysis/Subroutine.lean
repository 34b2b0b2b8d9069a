import Z80Atlas.Analysis.Walk
import Z80Atlas.Session.Basic

namespace Z80Atlas

namespace Session

-- The walk through loaded code that falls through and jumps but makes no calls.
def callFree (session : Session) : Walk where
  admits := session.memory.isAssigned
  exits address :=
    let instruction := session.instructionAt address
    (instruction.fallThrough? address).toList ++ instruction.jump?.toList

def returns (session : Session) (address : Address) : Bool :=
  session.callFree.meets
    (fun address =>
      session.labels.kindIs address Kind.isSubroutine || (session.instructionAt address).flow.ret)
    address

def promoteReturning (session : Session) (id : LabelId) : Session :=
  match session.labels.get? id with
  | none => session
  | some label =>
    if label.kind = .label ∧ session.returns label.address then
      (session.note ("Turned " ++ Text.hex4 label.address ++ "h into a subroutine")).modifyLabel id
        ({ · with kind := .subroutine })
    else session

-- Jump labels from which a return, or another subroutine, is reached without a call.
def promoteSubroutines (session : Session) : Session :=
  session.labels.ids.foldl promoteReturning session

end Session

end Z80Atlas
