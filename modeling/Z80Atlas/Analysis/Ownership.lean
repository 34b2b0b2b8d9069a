import Z80Atlas.Analysis.Walk
import Z80Atlas.Session.Basic

namespace Z80Atlas

namespace Session

-- The walk of a label through the code that it can own: code without an owner, outside other
-- top-level labels. Calls are followed too.
def territory (session : Session) (id : LabelId) : Walk where
  admits address :=
    session.memory.isAssigned address && (session.owners.get address).isNone &&
      !(session.labels.at? address).any fun label => label.id != id && label.kind.isTopLevel
  exits address :=
    let instruction := session.instructionAt address
    (instruction.fallThrough? address).toList ++ instruction.target?.toList

def claim (session : Session) (id : LabelId) (address : Address) : Session :=
  let reached := (session.territory id).visited address
  { session with
    owners := reached.foldl (fun owners a => owners.set a (some id)) session.owners }

def claimFor (session : Session) (id : LabelId) : Session :=
  match session.labels.get? id with
  | some label => if label.kind.isTopLevel then session.claim id label.address else session
  | none => session

-- The address belongs to the label itself, and the instruction there is no call.
def isInnerReference (session : Session) (id : LabelId) (reference : Address) : Bool :=
  session.owners.get reference == some id && !(session.instructionAt reference).flow.call

-- Forget references that a label makes to itself other than by a call. A subroutine that only calls
-- itself is worth a warning.
def dropInnerReferences (session : Session) (id : LabelId) : Session :=
  match session.labels.get? id with
  | none => session
  | some label =>
    let outside := label.references.any fun reference => session.owners.get reference != some id
    let references := label.references.filter fun reference =>
      !session.isInnerReference id reference
    let session := session.modifyLabel id ({ · with references })
    if !outside && label.kind.isSubroutine && !references.isEmpty then
      (session.warn .selfRecursiveSubroutine (some label.address)
        ("Address: " ++ Text.hex4 label.address ++
          "h. A subroutine was found that calls itself recursively but is not called from any " ++
          "other location.")).highlight (.address label.address) "lightblue"
    else session

-- Each top-level label in ascending order owns the code that it is the first to reach.
def claimAll (session : Session) : Session := session.labels.ids.foldl claimFor session

def assignOwners (session : Session) : Session :=
  let session := session.claimAll
  session.labels.ids.foldl dropInnerReferences session

def linkCallers (session : Session) (id : LabelId) : Session :=
  match session.labels.get? id with
  | none => session
  | some label =>
    if !label.kind.isTopLevel then session
    else
      let callers := label.references.toList.filterMap session.owners.get
      callers.foldl
        (fun session caller =>
          session.modifyLabel caller fun label => { label with calls := label.calls.push id })
        session

def linkCalls (session : Session) : Session := session.labels.ids.foldl linkCallers session

end Session

end Z80Atlas
