import Z80Atlas.Analysis.Subroutine

namespace Z80Atlas

namespace Session

-- The first of the ascending addresses that follow one another without a gap from `expected` on,
-- each where the instruction before it ends.
def coherent (session : Session) (expected : Option Address) : List Address → List Address
  | [] => []
  | address :: rest =>
    if expected = some address then
      address :: session.coherent (address.next? (session.instructionAt address).size) rest
    else []

-- The unbroken run of instructions from the entry of a routine that belong to it.
def block (session : Session) (address : Address) : List Address :=
  let reached : Addresses := (session.callFree.visited address).foldl (·.insert ·) ∅
  session.coherent (some address) (reached.toList.filter (address ≤ ·))

-- The kind of a local label: one used from at most 128 bytes behind it is a loop.
def localKind (label : Label) : Kind :=
  if label.references.any fun reference =>
      label.address ≤ reference && reference.toNat - label.address.toNat ≤ 128 then .localLoop
  else .localLabel

-- Make a label local if it is a jump label or a subroutine that is not fixed and is used from the
-- block only.
def demote (block : Addresses) (label : Label) : Label :=
  if (label.kind = .label ∨ label.kind = .subroutine) ∧ !label.isFixed ∧
      label.references.all block.contains then
    { label with kind := localKind label }
  else label

def localizeWithin (session : Session) (id : LabelId) : Session :=
  match session.labels.get? id with
  | none => session
  | some owner =>
    if !owner.kind.isTopLevel then session
    else
      let block := session.block owner.address
      let members : Addresses := block.foldl (·.insert ·) ∅
      let inner := block.filter (· != owner.address)
      { session with
        labels := inner.foldl (fun labels a => labels.modifyAt a (demote members)) session.labels }

def localize (session : Session) : Session :=
  session.labels.ids.foldl localizeWithin session

end Session

end Z80Atlas
