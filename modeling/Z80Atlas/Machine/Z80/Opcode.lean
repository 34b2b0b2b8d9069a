namespace Z80Atlas.Z80

inductive Condition where
  | nz | z | nc | c | po | pe | p | m
  deriving DecidableEq, Repr

inductive Index where
  | ix | iy
  deriving DecidableEq, Repr

inductive Mnemonic where
  | nop | ld | inc | dec | push | pop | ex | exx
  | add | adc | sub | sbc | and | xor | or | cp | neg
  | daa | cpl | scf | ccf | halt | di | ei | im
  | rlca | rrca | rla | rra | rrd | rld
  | rlc | rrc | rl | rr | sla | sra | sll | srl | bit | res | set
  | djnz | jr | jp | call | ret | retn | reti | rst
  | input | output
  | ldi | cpi | ini | outi | ldd | cpd | ind | outd
  | ldir | cpir | inir | otir | lddr | cpdr | indr | otdr
  deriving DecidableEq, Repr

inductive Operand where
  | a | b | c | d | e | h | l | i | r | f
  | af | afAlternate | bc | de | hl | sp
  -- The byte or word that a register points at, or the port that it names.
  | atBC | atDE | atHL | atSP | atC
  | digit (n : Nat)
  | condition (which : Condition)
  | byte
  | word
  | port
  | memory
  | distance
  | restart
  | index (register : Index)
  | indexHigh (register : Index)
  | indexLow (register : Index)
  | atIndex (register : Index)
  | displaced (register : Index)
  deriving DecidableEq, Repr

structure Opcode where
  mnemonic : Mnemonic
  operands : List Operand := []
  deriving DecidableEq, Repr

namespace Condition

def text : Condition → String
  | nz => "NZ" | z => "Z" | nc => "NC" | c => "C" | po => "PO" | pe => "PE" | p => "P" | m => "M"

end Condition

namespace Index

def text : Index → String
  | ix => "IX" | iy => "IY"

end Index

namespace Mnemonic

def text : Mnemonic → String
  | nop => "NOP" | ld => "LD" | inc => "INC" | dec => "DEC" | push => "PUSH" | pop => "POP"
  | ex => "EX" | exx => "EXX" | add => "ADD" | adc => "ADC" | sub => "SUB" | sbc => "SBC"
  | and => "AND" | xor => "XOR" | or => "OR" | cp => "CP" | neg => "NEG" | daa => "DAA"
  | cpl => "CPL" | scf => "SCF" | ccf => "CCF" | halt => "HALT" | di => "DI" | ei => "EI"
  | im => "IM" | rlca => "RLCA" | rrca => "RRCA" | rla => "RLA" | rra => "RRA" | rrd => "RRD"
  | rld => "RLD" | rlc => "RLC" | rrc => "RRC" | rl => "RL" | rr => "RR" | sla => "SLA"
  | sra => "SRA" | sll => "SLL" | srl => "SRL" | bit => "BIT" | res => "RES" | set => "SET"
  | djnz => "DJNZ" | jr => "JR" | jp => "JP" | call => "CALL" | ret => "RET" | retn => "RETN"
  | reti => "RETI" | rst => "RST" | input => "IN" | output => "OUT" | ldi => "LDI"
  | cpi => "CPI" | ini => "INI" | outi => "OUTI" | ldd => "LDD" | cpd => "CPD" | ind => "IND"
  | outd => "OUTD" | ldir => "LDIR" | cpir => "CPIR" | inir => "INIR" | otir => "OTIR"
  | lddr => "LDDR" | cpdr => "CPDR" | indr => "INDR" | otdr => "OTDR"

end Mnemonic

namespace Operand

-- The text of an operand. What follows the opcode is written `#`, and `displacement` is written
-- where a displacement stands.
def text (displacement : String) : Operand → String
  | a => "A" | b => "B" | c => "C" | d => "D" | e => "E" | h => "H" | l => "L"
  | i => "I" | r => "R" | f => "F"
  | af => "AF" | afAlternate => "AF'" | bc => "BC" | de => "DE" | hl => "HL" | sp => "SP"
  | atBC => "(BC)" | atDE => "(DE)" | atHL => "(HL)" | atSP => "(SP)" | atC => "(C)"
  | digit n => String.ofList (Nat.toDigits 10 n)
  | condition which => which.text
  | byte | word | distance | restart => "#"
  | port | memory => "(#)"
  | index register => register.text
  | indexHigh register => register.text ++ "H"
  | indexLow register => register.text ++ "L"
  | atIndex register => "(" ++ register.text ++ ")"
  | displaced register => "(" ++ register.text ++ displacement ++ ")"

def isDisplaced : Operand → Bool
  | displaced _ => true
  | _ => false

def isCondition : Operand → Bool
  | condition _ => true
  | _ => false

def isImmediate : Operand → Bool
  | byte | word | port | memory | distance | restart => true
  | _ => false

-- The operand under an index prefix: the index register takes the place of HL. Its halves take the
-- place of H and L unless the operation reads memory through the pair.
def withIndex (register : Index) (throughPair : Bool) : Operand → Operand
  | hl => index register
  | atHL => displaced register
  | h => if throughPair then h else indexHigh register
  | l => if throughPair then l else indexLow register
  | operand => operand

end Operand

namespace Opcode

def text (opcode : Opcode) (displacement : String) : String :=
  match opcode.operands with
  | [] => opcode.mnemonic.text
  | operands =>
    opcode.mnemonic.text ++ " " ++ ",".intercalate (operands.map (·.text displacement))

def immediate? (opcode : Opcode) : Option Operand := opcode.operands.find? (·.isImmediate)

def isDisplaced (opcode : Opcode) : Bool := opcode.operands.any (·.isDisplaced)

def isConditional (opcode : Opcode) : Bool := opcode.operands.any (·.isCondition)

-- Does the operation read or write memory through HL? A jump to the address in HL does not.
def readsPair (opcode : Opcode) : Bool :=
  opcode.mnemonic != .jp && opcode.operands.contains .atHL

-- The operation under an index prefix. The exchange of DE and HL keeps its registers, and a jump to
-- the address in HL becomes one to the address in the index register.
def withIndex (opcode : Opcode) (register : Index) : Opcode :=
  match opcode.mnemonic, opcode.operands with
  | .ex, [.de, .hl] => opcode
  | .jp, [.atHL] => ⟨.jp, [.atIndex register]⟩
  | mnemonic, operands =>
    ⟨mnemonic, operands.map (·.withIndex register opcode.readsPair)⟩

-- The bit operation under an index prefix: it works on displaced memory, and unless it only tests a
-- bit the result is also put into the register that it names.
def withIndexBit (opcode : Opcode) (register : Index) : Opcode :=
  let kept := opcode.operands.dropLast
  let last := opcode.operands.getLast?.toList.filter fun operand =>
    operand != .atHL && opcode.mnemonic != .bit
  ⟨opcode.mnemonic, kept ++ .displaced register :: last⟩

end Opcode

end Z80Atlas.Z80
