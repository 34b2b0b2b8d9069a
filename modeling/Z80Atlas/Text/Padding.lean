namespace Z80Atlas.Text

-- Widths count characters. A text that is wide enough stays as it is.
def padLeft (fill : Char) (width : Nat) (text : String) : String :=
  String.ofList (List.replicate (width - text.length) fill) ++ text

def padRight (width : Nat) (text : String) : String :=
  text ++ String.ofList (List.replicate (width - text.length) ' ')

end Z80Atlas.Text
