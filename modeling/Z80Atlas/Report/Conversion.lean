import Z80Atlas.Text.Numeral
import Z80Atlas.Text.Padding

namespace Z80Atlas.Report

def addressView (value : UInt16) : String := Text.hex4 value ++ "h"

-- A byte in decimal, as a signed number if it is negative, and as a printable character.
def byteView (value : UInt8) : String :=
  let signed :=
    if value < 0x80 then "" else ", " ++ Text.padLeft ' ' 4 (Text.signedDecimal value.toInt8.toInt)
  let character :=
    if 32 ≤ value && value ≤ 126 then ", '" ++ String.singleton (Char.ofNat value.toNat) ++ "'"
    else ""
  Text.decimal value.toNat ++ signed ++ character

def wordView (value : UInt16) : String :=
  let signed :=
    if value < 0x8000 then ""
    else ", " ++ Text.padLeft ' ' 6 (Text.signedDecimal value.toInt16.toInt)
  Text.decimal value.toNat ++ signed

end Z80Atlas.Report
