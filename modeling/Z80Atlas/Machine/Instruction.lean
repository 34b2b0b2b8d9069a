import Z80Atlas.Machine.Kind
import Z80Atlas.Machine.Memory
import Z80Atlas.Text.LowerCase
import Z80Atlas.Text.Numeral
import Z80Atlas.Text.Replace

namespace Z80Atlas

structure Flow where
  branch : Bool := false
  call : Bool := false
  stop : Bool := false
  ret : Bool := false
  conditional : Bool := false
  loadsStack : Bool := false
  deriving DecidableEq, Repr, Inhabited

structure Instruction where
  length : UInt8
  -- Capital letters, with `#` for the operand.
  template : String
  -- Relative jumps carry their target, displacements are sign extended.
  value : Option UInt16 := none
  kind : Kind := .none
  flow : Flow := {}
  comment : Option String := none
  deriving DecidableEq, Repr, Inhabited

-- Any function that finds an instruction at every address.
abbrev Decoder := Memory → Address → Instruction

namespace Instruction

def size (instruction : Instruction) : Nat := max instruction.length.toNat 1

def target? (instruction : Instruction) : Option Address :=
  if instruction.flow.branch then instruction.value else none

def jump? (instruction : Instruction) : Option Address :=
  if instruction.flow.call then none else instruction.target?

def fallThrough? (instruction : Instruction) (address : Address) : Option Address :=
  if instruction.flow.stop then none else address.next? instruction.size

theorem size_pos (instruction : Instruction) : 0 < instruction.size := by
  unfold size; omega

-- Falling through leads to a higher address.
theorem lt_of_fallThrough? {instruction : Instruction} {a b : Address}
    (h : instruction.fallThrough? a = some b) : a.toNat < b.toNat := by
  unfold fallThrough? Address.next? at h
  have hsize := instruction.size_pos
  split at h
  · cases h
  · split at h
    · next hlt =>
      cases h
      rw [UInt16.toNat_ofNat_of_lt' hlt]
      omega
    · cases h

def operandText (instruction : Instruction) : String :=
  match instruction.value with
  | none => ""
  | some value =>
    match instruction.kind with
    | .displacement => Text.displacement value.toInt16.toInt
    | .restart | .byte | .port => Text.hex2 value.toUInt8 ++ "h"
    | _ => Text.hex4 value ++ "h"

def render (instruction : Instruction) (lowerCase : Bool) (operand : String) : String :=
  let template := if lowerCase then Text.toLower instruction.template else instruction.template
  String.ofList (Text.replaceFirst '#' operand.toList template.toList)

def mnemonic (instruction : Instruction) : String :=
  instruction.render false instruction.operandText

end Instruction

end Z80Atlas
