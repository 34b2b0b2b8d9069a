import Z80Atlas.Text.Numeral
import Z80Atlas.Text.Padding

namespace Z80Atlas.Text

-- Beyond its bound a width has no result, however long the text is.
def fieldLimit : Nat := 65535

def sizeLimit : Nat := 0x7FFFFFFFFFFFFFFF

-- The greatest number of lines in a row, each of which takes 24 bytes beside its text.
def lineLimit : Nat := sizeLimit / 24

def padRight? (width : Nat) (text : String) : Option String :=
  if width ≤ fieldLimit then some (padRight width text) else none

-- Fill up a text on the left, which is bound by its size alone.
def padLeft? (fill : Char) (width : Nat) (text : String) : Option String :=
  if width - text.length ≤ sizeLimit then some (padLeft fill width text) else none

def hex? (n width : Nat) : Option String :=
  if width ≤ fieldLimit then some (hex n width) else none

end Z80Atlas.Text
