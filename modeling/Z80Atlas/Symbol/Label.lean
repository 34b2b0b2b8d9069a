import Std.Data.TreeSet
import Z80Atlas.Address.Basic
import Z80Atlas.Machine.Kind

namespace Z80Atlas

-- Given to a label at its creation and never used again.
abbrev LabelId := Nat

abbrev Addresses := Std.TreeSet Address compare

structure Label where
  id : LabelId
  address : Address
  kind : Kind
  name : Option String := none
  references : Addresses := ∅
  -- Labels called from the code that this label owns, once for each call.
  calls : Array LabelId := #[]
  isEqu : Bool := false
  -- The user has set name and kind.
  isFixed : Bool := false
  belongsToInterrupt : Bool := false

namespace Label

def text (label : Label) : String := label.name.getD ""

-- A label does not refer to itself.
def addReferences (label : Label) (references : List Address) : Label :=
  { label with
    references := (references.filter (· != label.address)).foldl (·.insert ·) label.references }

def promote (label : Label) (kind : Kind) : Label := { label with kind := label.kind.promote kind }

end Label

end Z80Atlas
