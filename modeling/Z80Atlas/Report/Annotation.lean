import Z80Atlas.Report.Conversion
import Z80Atlas.Session.Basic

namespace Z80Atlas

def Kind.isMain (kind : Kind) : Bool := kind.isTopLevel || kind == .data

def Kind.title : Kind → String
  | .subroutine => "Subroutine"
  | .restart => "Restart"
  | .data => "Data"
  | _ => "Label"

-- Words in a row, ended by a point; a dash if there are none.
def enumerated (words : List String) : String :=
  ", ".intercalate words ++ if words.isEmpty then "-" else "."

namespace Session

def nameOfId (session : Session) (id : LabelId) : String :=
  ((session.labels.get? id).map (·.text)).getD ""

def callerText (session : Session) (label : Label) (reference : Address) : String :=
  let place := Report.addressView reference
  match session.owners.get reference with
  | none => place
  | some owner =>
    (if owner = label.id then "self" else session.nameOfId owner) ++ "[" ++ place ++ "]"

def accessText (session : Session) (reference : Address) : String :=
  let place := Report.addressView reference
  match session.owners.get reference with
  | none => place
  | some owner => place ++ "(in " ++ session.nameOfId owner ++ ")"

def isRecursive (session : Session) (label : Label) : Bool :=
  label.references.any fun reference => session.owners.get reference == some label.id

def subroutineRemarks (session : Session) (label : Label) : List String :=
  let summary :=
    match session.statistics[label.id]? with
    | some statistics =>
      label.kind.title ++ ": " ++ (if session.isRecursive label then "Recursive, " else "") ++
        "Size=" ++ Text.decimal statistics.size ++ ", CC=" ++
        Text.decimal statistics.complexity ++ "."
    | none => label.kind.title ++ "."
  let callers := label.references.toList.map (session.callerText label)
  let callees := label.calls.toList.eraseDups.map session.nameOfId
  [summary, "Called by: " ++ enumerated callers] ++
    if label.isEqu then [] else ["Calls: " ++ enumerated callees]

def accessRemarks (session : Session) (label : Label) : List String :=
  if label.references.isEmpty then [label.kind.title ++ " not accessed."]
  else
    [label.kind.title ++ " accessed by:",
      ", ".intercalate (label.references.toList.map session.accessText)]

-- The generated comment of the label at an address. Beside a constant it fits in one line.
def labelComment? (session : Session) (address : Address) : Option Comment :=
  (session.labels.at? address).map fun label =>
    let remarks :=
      if label.kind.isSubroutine then session.subroutineRemarks label
      else session.accessRemarks label
    if label.isEqu then
      { beside := some
          ("; " ++ Text.decimal address.toNat ++ ". " ++ " ".intercalate remarks) }
    else { before := remarks.map ("; " ++ ·) }

-- The comment of an address, or the generated one of its label; none if they are not wanted.
def commentFor? (session : Session) (address : Address) : Option Comment :=
  if session.config.disableComments then none
  else session.comments[address]?.or (session.labelComment? address)

def commentLabel (session : Session) (id : LabelId) : Session :=
  match session.labels.get? id with
  | none => session
  | some label =>
    if !label.kind.isMain || session.comments.contains label.address then session
    else
      match session.commentFor? label.address with
      | some comment => session.setComment label.address comment
      | none => session

def commentLabels (session : Session) : Session :=
  session.labels.ids.foldl commentLabel session

end Session

end Z80Atlas
