import Z80Atlas.Machine.Instruction
import Z80Atlas.Machine.Z80.Page

namespace Z80Atlas.Z80

namespace Opcode

def flow (opcode : Opcode) : Flow :=
  let conditional := opcode.isConditional
  match opcode.mnemonic with
  | .call => { branch := true, call := true, conditional }
  | .jp =>
    if opcode.immediate?.isSome then { branch := true, conditional, stop := !conditional }
    else { stop := true }
  | .jr => { branch := true, conditional, stop := !conditional }
  | .djnz => { branch := true, conditional := true }
  | .ret => { ret := true, conditional, stop := !conditional }
  | .retn | .reti => { ret := true, stop := true }
  | .rst => { branch := true, call := true }
  | .ld => { loadsStack := opcode.operands == [.sp, .word] }
  | _ => {}

def immediateKind (opcode : Opcode) : Operand → Kind
  | .word =>
    match opcode.mnemonic with
    | .call => .subroutine
    | .jp => .label
    | _ => if opcode.flow.loadsStack then .data else .word
  | .memory => .data
  | .byte => .byte
  | .port => .port
  | .distance => .localLabel
  | .restart => .restart
  | _ => .none

end Opcode

def Operand.width : Operand → Nat
  | .word | .memory => 2
  | .byte | .port | .distance => 1
  | _ => 0

def signExtend (byte : UInt8) : UInt16 := byte.toInt8.toInt16.toUInt16

-- The value of an operand of the operation `code` at `address`, where `offset` bytes precede the
-- operand. Distances count from the end of the instruction.
def Operand.value (memory : Memory) (address : Address) (code : UInt8) (offset : Nat) :
    Operand → UInt16
  | .word | .memory => memory.word (address.plus offset)
  | .distance =>
    address.plus (offset + 1) + signExtend (memory.byte (address.plus offset))
  | .restart => (code &&& 0x38).toUInt16
  | _ => (memory.byte (address.plus offset)).toUInt16

-- The instruction at `address` for an operation whose opcode is `code`, with `offset` bytes in
-- front of its operand. A displacement is the third byte. It is the operand unless the operation
-- has another one, and then it becomes part of the text.
def Opcode.instruction (opcode : Opcode) (memory : Memory) (address : Address) (code : UInt8)
    (offset : Nat) : Instruction :=
  let byte := memory.byte (address.plus 2)
  match opcode.immediate? with
  | some operand =>
    { length := UInt8.ofNat (offset + operand.width)
      template := opcode.text (Text.displacement byte.toInt8.toInt)
      value := some (operand.value memory address code offset)
      kind := opcode.immediateKind operand
      flow := opcode.flow
      comment := if opcode.flow.loadsStack then some "top of stack" else none }
  | none =>
    { length := UInt8.ofNat offset
      template := opcode.text "#"
      value := if opcode.isDisplaced then some (signExtend byte) else none
      kind := if opcode.isDisplaced then .displacement else .none
      flow := opcode.flow }

-- An index prefix that another prefix follows has no effect.
def overridden (next : UInt8) : Instruction :=
  { length := 1
    template := "[NOP]"
    comment := some ("because of following 0x" ++ Text.hex2 next) }

def invalid : Instruction :=
  { length := 2
    template := "INVALID INSTRUCTION"
    comment := some "mostly equivalent to NOP." }

def decodeIndexed (register : Index) (memory : Memory) (address : Address) : Instruction :=
  let next := memory.byte (address.plus 1)
  if next = 0xCB then
    let code := memory.byte (address.plus 3)
    ((bitPage code).withIndexBit register).instruction memory address code 4
  else if next = 0xDD ∨ next = 0xED ∨ next = 0xFD then overridden next
  else
    let opcode := (mainPage next).withIndex register
    opcode.instruction memory address next (if opcode.isDisplaced then 3 else 2)

-- DD and FD put an index register in the place of HL; CB opens the page of bit operations and ED
-- the extended page.
def decode (memory : Memory) (address : Address) : Instruction :=
  let code := memory.byte address
  let next := memory.byte (address.plus 1)
  if code = 0xCB then (bitPage next).instruction memory address next 2
  else if code = 0xED then
    match extendedPage? next with
    | some opcode => opcode.instruction memory address next 2
    | none => invalid
  else if code = 0xDD then decodeIndexed .ix memory address
  else if code = 0xFD then decodeIndexed .iy memory address
  else (mainPage code).instruction memory address code 1

end Z80Atlas.Z80
