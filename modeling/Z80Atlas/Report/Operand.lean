import Z80Atlas.Report.Conversion
import Z80Atlas.Session.Basic

namespace Z80Atlas

namespace Session

def nameAt? (session : Session) (address : Address) : Option String :=
  (session.labels.at? address).bind (·.name)

-- An address as an operand: its label, a label nearby with the distance to it, or a number.
def symbolFor (session : Session) (address : Address) : String :=
  match session.nameAt? address with
  | some name => name
  | none =>
    let offset := session.offsets.getD address 0
    let base := UInt16.ofInt (address.toNat + offset)
    match if offset = 0 then none else session.nameAt? base with
    | some name => name ++ Text.displacement (-offset)
    | none => Report.addressView address

-- The text of the operand of an instruction and what is remarked about it. With `checked`, branches
-- into an instruction and accesses to code are pointed out.
def operandText (session : Session) (instruction : Instruction) (value : UInt16) (checked : Bool) :
    String × String :=
  let marks := session.memory.marks value
  match instruction.kind with
  | .label | .localLabel | .localLoop | .subroutine =>
    let alert :=
      if checked && marks.assigned && !marks.first then
        ", WARNING: Branches into the middle of an opcode!"
      else ""
    (session.symbolFor value, Report.addressView value ++ alert)
  | .data =>
    let alert :=
      if checked && marks.assigned && marks.code then ", WARNING: Instruction accesses code!"
      else ""
    (session.symbolFor value, Report.addressView value ++ alert)
  | .displacement | .restart => (instruction.operandText, "")
  | .byte | .port => (instruction.operandText, Report.byteView value.toUInt8)
  | _ => (instruction.operandText, Report.wordView value)

def instructionText (session : Session) (instruction : Instruction) (checked : Bool) :
    String × String :=
  let lowerCase := session.config.lowerCase
  match instruction.value with
  | none => (instruction.render lowerCase "", instruction.comment.getD "")
  | some value =>
    let (operand, remark) := session.operandText instruction value checked
    let remark :=
      match instruction.comment with
      | none => remark
      | some comment => if remark.isEmpty then comment else remark ++ ", " ++ comment
    (instruction.render lowerCase operand, remark)

end Session

end Z80Atlas
