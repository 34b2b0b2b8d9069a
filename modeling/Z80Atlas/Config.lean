import Z80Atlas.Address.Basic

namespace Z80Atlas

-- First parts of generated names. Those of local labels follow the name of their owner.
structure NameStems where
  subroutine : String := "SUB"
  label : String := "LBL"
  restart : String := "RST"
  data : String := "DATA"
  selfModifying : String := "SELF_MOD"
  localLabel : String := "_l"
  localLoop : String := "_loop"
  interrupt : String := "INTRPT"
  deriving DecidableEq, Repr

structure Columns where
  -- The address; width 0 leaves it out.
  address : Nat := 5
  bytes : Nat := 13
  operation : Nat := 5
  statement : Nat := 12
  deriving DecidableEq, Repr

structure Config where
  stems : NameStems := {}
  lowerCase : Bool := true
  blockGap : Nat := 2
  showBytes : Bool := true
  columns : Columns := {}
  -- Start at address 0 or at the start of a snapshot, and label special places.
  automaticAddresses : Bool := true
  disableComments : Bool := false
  allowUnassigned : Bool := false
  deniedRestarts : List Address := []
  graphAttributes : String := "rankdir=TB;"
  nodeFormat : String := "$\x7blabel\x7d\\n0x$\x7baddress\x7d\\nSize=$\x7bsize\x7d\\n"
  deriving DecidableEq, Repr

end Z80Atlas
