import Z80Atlas.Text.Replace

namespace Z80Atlas.Report

-- In the order of their replacement: as backslashes come first, no escape is escaped again.
def dotEscapes : List (Char × List Char) :=
  [('\\', ['\\', '\\']), ('"', ['\\', '"']), ('\n', ['\\', 'n']), ('\r', []),
    ('<', ['\\', '<']), ('>', ['\\', '>'])]

def escapeDotChars (text : List Char) : List Char :=
  dotEscapes.foldl (fun text (c, replacement) => Text.replaceChar c replacement text) text

def escapeDot (text : String) : String := String.ofList (escapeDotChars text.toList)

end Z80Atlas.Report
