import Z80Atlas.Address.Basic
import Z80Atlas.Text.Numeral

namespace Z80Atlas

inductive WarningKind where
  | unassignedMemory
  | ambiguousDisassembly
  | selfRecursiveSubroutine
  | noDisassembly
  deriving DecidableEq, Repr

structure Warning where
  kind : WarningKind
  address : Option Address
  message : String
  deriving DecidableEq, Repr

def Warning.report (warning : Warning) : String :=
  match warning.address with
  | some address => "warning[" ++ Text.hex4 address ++ "h]: " ++ warning.message ++ "\n"
  | none => "warning: " ++ warning.message ++ "\n"

inductive Event where
  | note (text : String)
  | warning (warning : Warning)

end Z80Atlas
