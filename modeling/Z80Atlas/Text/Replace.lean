namespace Z80Atlas.Text

def replaceChar (c : Char) (replacement : List Char) (text : List Char) : List Char :=
  text.flatMap fun d => if d == c then replacement else [d]

def replaceFirst (c : Char) (replacement : List Char) : List Char → List Char
  | [] => []
  | d :: rest => if d == c then replacement ++ rest else d :: replaceFirst c replacement rest

-- Replace every occurrence of a part; the next `skip` characters belong to one just replaced.
def replaceFrom (part replacement : List Char) : Nat → List Char → List Char
  | _, [] => []
  | skip + 1, _ :: rest => replaceFrom part replacement skip rest
  | 0, c :: rest =>
    if part.isPrefixOf (c :: rest) then
      replacement ++ replaceFrom part replacement (part.length - 1) rest
    else c :: replaceFrom part replacement 0 rest

def replace (part replacement text : String) : String :=
  String.ofList (replaceFrom part.toList replacement.toList 0 text.toList)

end Z80Atlas.Text
