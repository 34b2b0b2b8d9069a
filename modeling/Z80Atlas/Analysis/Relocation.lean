import Z80Atlas.Analysis.Discovery

namespace Z80Atlas

namespace Session

def isRelocatable (kind : Kind) : Bool := kind.isCode || kind == .data

def isInside (session : Session) (label : Label) : Bool :=
  session.memory.isCode label.address && !session.memory.isFirst label.address

-- The beginning of the instruction around an address, at most four bytes before it.
def instructionStart? (session : Session) (address : Address) : Option Address :=
  [address - 1, address - 2, address - 3, address - 4].find? session.memory.isFirst

-- A label on a later byte of an instruction moves to its first byte, and the distance is kept for
-- the display of operands.
def relocateLabel (session : Session) (id : LabelId) : Session :=
  match session.labels.get? id with
  | none => session
  | some label =>
    match session.instructionStart? label.address with
    | none => session
    | some start =>
      let session := session.meet start label.references.toList label.kind
      let session := { session with
        labels := session.labels.erase label.address
        offsets := session.offsets.insert label.address (start.toNat - label.address.toNat) }
      session.note
        ("Moved label " ++ Text.hex4 label.address ++ "h to " ++ Text.hex4 start ++ "h")

def relocate (session : Session) : Session :=
  let moving := session.labels.live.filter fun label =>
    isRelocatable label.kind && session.isInside label
  (moving.map (·.id)).foldl relocateLabel session

end Session

end Z80Atlas
