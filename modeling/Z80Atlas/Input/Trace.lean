import Z80Atlas.Analysis.Discovery
import Z80Atlas.Text.Lines

namespace Z80Atlas

namespace Trace

def readLine? (line : List Char) : Option (Address × List Char) :=
  match line with
  | a :: b :: c :: d :: ':' :: text =>
    (Text.ofNumeral? 16 addressCount [a, b, c, d]).map fun value => (UInt16.ofNat value, text)
  | _ => none

def isIndirectJump (text : List Char) : Bool := " jp   (hl)".toList.isPrefixOf text

-- Go on by one line: label the target of an indirect jump in the line before, which `jump` holds,
-- and tell whether this line is one.
def useLine (state : Session × Option Address) (line : Address × List Char) :
    Session × Option Address :=
  let (session, jump) := state
  let (address, text) := line
  let session :=
    match jump with
    | some reference => session.meet address [reference] .label
    | none => session
  (session, if session.memory.isAssigned address && isIndirectJump text then some address else none)

-- Each line begins with the address that was executed, so the address is known to be code; an
-- indirect jump leads to the address of the next line.
def use (session : Session) (trace : String) : Session :=
  let lines := (Text.lines trace.toList).filterMap readLine?
  let addresses := ((lines.map (·.1)).foldl (·.insert ·) (∅ : Addresses)).toList
  let session := (lines.foldl useLine (session, none)).1
  let session := session.note
    ("Trace contains " ++ Text.decimal addresses.length ++ " addresses")
  addresses.foldl Session.enqueue session

end Trace

end Z80Atlas
