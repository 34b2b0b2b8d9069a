import Z80Atlas.Session.Basic

namespace Z80Atlas

namespace Session

-- The first jump label or subroutine that control falls into from `address`, with the address of
-- the instruction in front of it.
def flowsInto? (session : Session) (address : Address) : Option (LabelId × Address) :=
  if !session.memory.isAssigned address then none
  else
    match _h : (session.instructionAt address).fallThrough? address with
    | none => none
    | some following =>
      match session.labels.at? following with
      | some label =>
        if label.kind = .label ∨ label.kind = .subroutine then some (label.id, address)
        else session.flowsInto? following
      | none => session.flowsInto? following
termination_by addressCount - address.toNat
decreasing_by
  all_goals
    have := Instruction.lt_of_fallThrough? _h
    have := following.toNat_lt
    omega

def linkFlowThrough (session : Session) (id : LabelId) : Session :=
  match session.labels.get? id with
  | none => session
  | some label =>
    if !label.kind.isTopLevel then session
    else
      match session.flowsInto? label.address with
      | none => session
      | some (found, reference) =>
        if found = id then session
        else session.modifyLabel found fun label =>
          { label with references := label.references.insert reference }

-- Code that falls into the code of the next label refers to that label, although no operand does.
def linkFlowThroughs (session : Session) : Session :=
  session.labels.ids.foldl linkFlowThrough session

end Session

end Z80Atlas
