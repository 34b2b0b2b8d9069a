import Z80Atlas.Text.Numeral
import Z80Atlas.Text.Padding

namespace Z80Atlas

inductive FaultCode where
  | unexpectedLine
  | expectedAddress
  | expectedAfterComment
  | cannotReadFile
  | unknownInputFormat
  | snapshotTooShort
  | invalidAddress
  | unknownGraphLabel
  deriving DecidableEq, Repr

def FaultCode.text : FaultCode → String
  | unexpectedLine => "E001"
  | expectedAddress => "E002"
  | expectedAfterComment => "E003"
  | cannotReadFile => "E100"
  | unknownInputFormat => "E101"
  | snapshotTooShort => "E102"
  | invalidAddress => "E103"
  | unknownGraphLabel => "E200"

structure FileLine where
  file : String
  line : Nat
  content : String
  deriving DecidableEq, Repr

structure Fault where
  code : FaultCode
  message : String
  location : Option FileLine := none
  hint : Option String := none
  deriving DecidableEq, Repr

namespace Fault

def summary (fault : Fault) : String := "[" ++ fault.code.text ++ "] " ++ fault.message

def report (fault : Fault) : String :=
  let header := "error[" ++ fault.code.text ++ "]: " ++ fault.message ++ "\n"
  let (gutter, place) :=
    match fault.location with
    | none => ("", "")
    | some location =>
      let number := Text.decimal location.line
      let gutter := Text.padLeft ' ' number.length ""
      (gutter, "  --> " ++ location.file ++ ":" ++ number ++ "\n" ++ gutter ++ " |\n" ++
        number ++ " | " ++ location.content ++ "\n")
  let hint :=
    match fault.hint with
    | none => ""
    | some hint => gutter ++ " = hint: " ++ hint ++ "\n"
  header ++ place ++ hint

end Fault

end Z80Atlas
