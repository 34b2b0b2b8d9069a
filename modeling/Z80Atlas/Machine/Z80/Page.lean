import Z80Atlas.Machine.Z80.Opcode

namespace Z80Atlas.Z80

def register : Nat → Operand
  | 0 => .b | 1 => .c | 2 => .d | 3 => .e | 4 => .h | 5 => .l | 6 => .atHL | _ => .a

def pair : Nat → Operand
  | 0 => .bc | 1 => .de | 2 => .hl | _ => .sp

def stackPair : Nat → Operand
  | 0 => .bc | 1 => .de | 2 => .hl | _ => .af

def condition : Nat → Condition
  | 0 => .nz | 1 => .z | 2 => .nc | 3 => .c | 4 => .po | 5 => .pe | 6 => .p | _ => .m

-- The arithmetic operation numbered by three bits. Some name the accumulator, some do not.
def arithmetic (operand : Operand) : Nat → Opcode
  | 0 => ⟨.add, [.a, operand]⟩
  | 1 => ⟨.adc, [.a, operand]⟩
  | 2 => ⟨.sub, [operand]⟩
  | 3 => ⟨.sbc, [.a, operand]⟩
  | 4 => ⟨.and, [operand]⟩
  | 5 => ⟨.xor, [operand]⟩
  | 6 => ⟨.or, [operand]⟩
  | _ => ⟨.cp, [operand]⟩

def rotation : Nat → Mnemonic
  | 0 => .rlc | 1 => .rrc | 2 => .rl | 3 => .rr | 4 => .sla | 5 => .sra | 6 => .sll | _ => .srl

def accumulator : Nat → Mnemonic
  | 0 => .rlca | 1 => .rrca | 2 => .rla | 3 => .rra | 4 => .daa | 5 => .cpl | 6 => .scf | _ => .ccf

def lowPage (y z : Nat) : Opcode :=
  match z with
  | 0 =>
    match y with
    | 0 => ⟨.nop, []⟩
    | 1 => ⟨.ex, [.af, .afAlternate]⟩
    | 2 => ⟨.djnz, [.distance]⟩
    | 3 => ⟨.jr, [.distance]⟩
    | _ => ⟨.jr, [.condition (condition (y - 4)), .distance]⟩
  | 1 => if y % 2 = 0 then ⟨.ld, [pair (y / 2), .word]⟩ else ⟨.add, [.hl, pair (y / 2)]⟩
  | 2 =>
    match y with
    | 0 => ⟨.ld, [.atBC, .a]⟩
    | 1 => ⟨.ld, [.a, .atBC]⟩
    | 2 => ⟨.ld, [.atDE, .a]⟩
    | 3 => ⟨.ld, [.a, .atDE]⟩
    | 4 => ⟨.ld, [.memory, .hl]⟩
    | 5 => ⟨.ld, [.hl, .memory]⟩
    | 6 => ⟨.ld, [.memory, .a]⟩
    | _ => ⟨.ld, [.a, .memory]⟩
  | 3 => if y % 2 = 0 then ⟨.inc, [pair (y / 2)]⟩ else ⟨.dec, [pair (y / 2)]⟩
  | 4 => ⟨.inc, [register y]⟩
  | 5 => ⟨.dec, [register y]⟩
  | 6 => ⟨.ld, [register y, .byte]⟩
  | _ => ⟨accumulator y, []⟩

-- Main page, high bits 3: jumps, calls, returns, the stack and immediate arithmetic. The bytes that
-- open another page stand here for no operation.
def highPage (y z : Nat) : Opcode :=
  match z with
  | 0 => ⟨.ret, [.condition (condition y)]⟩
  | 1 =>
    match y with
    | 1 => ⟨.ret, []⟩
    | 3 => ⟨.exx, []⟩
    | 5 => ⟨.jp, [.atHL]⟩
    | 7 => ⟨.ld, [.sp, .hl]⟩
    | _ => ⟨.pop, [stackPair (y / 2)]⟩
  | 2 => ⟨.jp, [.condition (condition y), .word]⟩
  | 3 =>
    match y with
    | 0 => ⟨.jp, [.word]⟩
    | 1 => ⟨.nop, []⟩
    | 2 => ⟨.output, [.port, .a]⟩
    | 3 => ⟨.input, [.a, .port]⟩
    | 4 => ⟨.ex, [.atSP, .hl]⟩
    | 5 => ⟨.ex, [.de, .hl]⟩
    | 6 => ⟨.di, []⟩
    | _ => ⟨.ei, []⟩
  | 4 => ⟨.call, [.condition (condition y), .word]⟩
  | 5 =>
    match y with
    | 1 => ⟨.call, [.word]⟩
    | 3 | 5 | 7 => ⟨.nop, []⟩
    | _ => ⟨.push, [stackPair (y / 2)]⟩
  | 6 => arithmetic .byte y
  | _ => ⟨.rst, [.restart]⟩

-- The byte falls into three fields: two high bits, and two groups of three bits that often number a
-- register.
def mainPage (code : UInt8) : Opcode :=
  let y := code.toNat / 8 % 8
  let z := code.toNat % 8
  match code.toNat / 64 with
  | 0 => lowPage y z
  | 1 => if y = 6 ∧ z = 6 then ⟨.halt, []⟩ else ⟨.ld, [register y, register z]⟩
  | 2 => arithmetic (register z) y
  | _ => highPage y z

def bitPage (code : UInt8) : Opcode :=
  let y := code.toNat / 8 % 8
  let operand := register (code.toNat % 8)
  match code.toNat / 64 with
  | 0 => ⟨rotation y, [operand]⟩
  | 1 => ⟨.bit, [.digit y, operand]⟩
  | 2 => ⟨.res, [.digit y, operand]⟩
  | _ => ⟨.set, [.digit y, operand]⟩

def block (y z : Nat) : Option Mnemonic :=
  match y, z with
  | 4, 0 => some .ldi | 4, 1 => some .cpi | 4, 2 => some .ini | 4, 3 => some .outi
  | 5, 0 => some .ldd | 5, 1 => some .cpd | 5, 2 => some .ind | 5, 3 => some .outd
  | 6, 0 => some .ldir | 6, 1 => some .cpir | 6, 2 => some .inir | 6, 3 => some .otir
  | 7, 0 => some .lddr | 7, 1 => some .cpdr | 7, 2 => some .indr | 7, 3 => some .otdr
  | _, _ => none

def extendedLow (y z : Nat) : Option Opcode :=
  match z with
  | 0 => some ⟨.input, [if y = 6 then .f else register y, .atC]⟩
  | 1 => some ⟨.output, [.atC, if y = 6 then .digit 0 else register y]⟩
  | 2 => some ⟨if y % 2 = 0 then .sbc else .adc, [.hl, pair (y / 2)]⟩
  | 3 => some ⟨.ld, if y % 2 = 0 then [.memory, pair (y / 2)] else [pair (y / 2), .memory]⟩
  | 4 => some ⟨.neg, []⟩
  | 5 => some ⟨if y = 1 then .reti else .retn, []⟩
  | 6 => some ⟨.im, [.digit (if y % 4 < 2 then 0 else y % 4 - 1)]⟩
  | _ =>
    match y with
    | 0 => some ⟨.ld, [.i, .a]⟩
    | 1 => some ⟨.ld, [.r, .a]⟩
    | 2 => some ⟨.ld, [.a, .i]⟩
    | 3 => some ⟨.ld, [.a, .r]⟩
    | 4 => some ⟨.rrd, []⟩
    | 5 => some ⟨.rld, []⟩
    | _ => none

def extendedPage? (code : UInt8) : Option Opcode :=
  let y := code.toNat / 8 % 8
  let z := code.toNat % 8
  match code.toNat / 64 with
  | 1 => extendedLow y z
  | 2 => (block y z).map (⟨·, []⟩)
  | _ => none

end Z80Atlas.Z80
