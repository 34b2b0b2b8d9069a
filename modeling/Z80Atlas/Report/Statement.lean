import Z80Atlas.Config
import Z80Atlas.Machine.Memory
import Z80Atlas.Text.Width

namespace Z80Atlas

def Columns.fitStatement (columns : Columns) : Bool :=
  columns.address ≤ Text.fieldLimit && columns.bytes ≤ Text.fieldLimit &&
    columns.operation - 1 ≤ Text.fieldLimit && columns.statement ≤ Text.fieldLimit

namespace Report

def byteColumn (memory : Memory) (address : Address) (size : Nat) : String :=
  String.join ((address.range size).map fun a => Text.hex2 (memory.byte a) ++ " ")

-- The text of a statement with its first word brought to a width. The space behind the word counts
-- for the width.
def alignOperation (width : Nat) (text : String) : String :=
  let operation := text.toList.takeWhile (· != ' ')
  let operands := text.toList.dropWhile (· != ' ')
  Text.padRight (width - 1) (String.ofList operation) ++ String.ofList operands ++ " "

-- Without a memory no bytes are written.
def statementLine (memory : Option Memory) (columns : Columns) (address : Address) (size : Nat)
    (text : String) : String :=
  let place :=
    if columns.address > 0 then Text.padRight columns.address (Text.hex4 address ++ " ") else ""
  let bytes := (memory.map (byteColumn · address size)).getD ""
  place ++ Text.padRight columns.bytes bytes ++
    Text.padRight columns.statement (alignOperation columns.operation text)

def statementLine? (memory : Option Memory) (columns : Columns) (address : Address) (size : Nat)
    (text : String) : Option String :=
  if columns.fitStatement then some (statementLine memory columns address size text) else none

end Report

end Z80Atlas
