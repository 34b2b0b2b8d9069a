import Z80Atlas.Address.Basic
import Z80Atlas.Diagnostic.Fault
import Z80Atlas.Text.Blank
import Z80Atlas.Text.Numeral

namespace Z80Atlas

namespace AddressText

-- The digits of an address and their base. A mark in front counts before one behind.
def digits (text : List Char) : List Char × Nat :=
  match text with
  | '0' :: 'x' :: hex => (hex, 16)
  | '0' :: 'X' :: hex => (hex, 16)
  | '$' :: hex => (hex, 16)
  | _ =>
    match text.getLast? with
    | some 'h' | some 'H' => (text.dropLast, 16)
    | _ => (text, 10)

def invalid (text : String) : Fault :=
  { code := .invalidAddress
    message := "Invalid address: \"" ++ text ++ "\""
    hint := some "Use 0x8000, $8000, 8000h or 32768" }

def read (text : String) : Except Fault Address :=
  let trimmed := Text.trim text.toList
  let (digits, base) := digits trimmed
  match Text.ofNumeral? base addressCount digits with
  | some value => .ok (UInt16.ofNat value)
  | none => .error (invalid (String.ofList trimmed))

end AddressText

end Z80Atlas
