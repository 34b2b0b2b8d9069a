namespace Z80Atlas

inductive InputFormat where
  | binary
  | snapshot
  | trace
  deriving DecidableEq, Repr

namespace InputFormat

-- The name of the file that a path leads to. The path's empty parts and points do not count.
def fileName? (path : String) : Option (List Char) :=
  let parts := (path.splitOn "/").filter fun part => !part.isEmpty && part != "."
  match parts.getLast? with
  | none => none
  | some ".." => none
  | some name => some name.toList

def extension? (name : List Char) : Option (List Char) :=
  let ending := (name.reverse.takeWhile (· != '.')).reverse
  if ending.length + 1 < name.length then some ending else none

def ofPath (path : String) : InputFormat :=
  match (fileName? path).bind extension? with
  | none => .binary
  | some ending =>
    match String.ofList (ending.map Char.toLower) with
    | "sna" => .snapshot
    | "tr" => .trace
    | _ => .binary

end InputFormat

end Z80Atlas
