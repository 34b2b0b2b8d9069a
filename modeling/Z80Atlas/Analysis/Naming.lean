import Z80Atlas.Session.Basic

namespace Z80Atlas

inductive NameCategory where
  | subroutine
  | label
  | data
  | selfModifying
  deriving DecidableEq, Repr

def paddedNumber (number width : Nat) : String := Text.padLeft '0' width (Text.decimal number)

def digitCount (number : Nat) : Nat := (Text.decimal number).length

namespace Session

-- Data inside an instruction is modified code.
def nameCategory? (session : Session) (label : Label) : Option NameCategory :=
  match label.kind with
  | .subroutine => some .subroutine
  | .label => some .label
  | .data => some (if session.memory.isCode label.address then .selfModifying else .data)
  | _ => none

def stem (session : Session) : NameCategory → String
  | .subroutine => session.config.stems.subroutine
  | .label => session.config.stems.label
  | .data => session.config.stems.data
  | .selfModifying => session.config.stems.selfModifying

def nameLabel (session : Session) (id : LabelId) (name : String) : Session :=
  session.modifyLabel id fun label => { label with name := label.name.or (some name) }

-- Name the labels of a category. Code of an interrupt takes part in the numbering but is named
-- alike.
def nameNumbered (session : Session) (category : NameCategory) : Session :=
  let members := session.labels.live.filter fun label =>
    session.nameCategory? label == some category
  let width := digitCount members.length
  let unnamed := members.filter (·.name.isNone)
  let isCode := category == .subroutine || category == .label
  unnamed.zipIdx.foldl
    (fun session (label, index) =>
      session.nameLabel label.id
        (if label.belongsToInterrupt && isCode then session.config.stems.interrupt
        else session.stem category ++ paddedNumber (index + 1) width))
    session

def nameRestarts (session : Session) : Session :=
  (session.labels.live.filter (·.kind == .restart)).foldl
    (fun session label =>
      session.nameLabel label.id
        (session.config.stems.restart ++ Text.hex2 label.address.toUInt8))
    session

def localsOf (session : Session) (kind : Kind) (owner : LabelId) : List Label :=
  session.labels.live.filter fun label =>
    label.kind == kind && session.owners.get label.address == some owner

def ownersOf (session : Session) (kind : Kind) : List LabelId :=
  let owners := (session.labels.live.filter (·.kind == kind)).filterMap fun label =>
    session.owners.get label.address
  (owners.foldl (·.insert ·) (∅ : Std.TreeSet LabelId compare)).toList

-- A single local label gets no number.
def nameLocalsOf (session : Session) (kind : Kind) (suffix : String) (owner : LabelId) : Session :=
  let members := session.localsOf kind owner
  let ownerName := Text.toLower (((session.labels.get? owner).map (·.text)).getD "")
  let width := digitCount members.length
  members.zipIdx.foldl
    (fun session (label, index) =>
      session.nameLabel label.id
        ("." ++ ownerName ++ suffix ++
          if members.length > 1 then paddedNumber (index + 1) width else ""))
    session

def nameLocals (session : Session) (kind : Kind) (suffix : String) : Session :=
  (session.ownersOf kind).foldl (·.nameLocalsOf kind suffix ·) session

def nameByFunction (session : Session) (nameOf : Address → String) : Session :=
  session.labels.live.foldl
    (fun session label =>
      session.modifyLabel label.id ({ · with name := some (nameOf label.address) }))
    session

-- Name every label that needs a name. A function for names overrides all others.
def nameLabels (session : Session) : Session :=
  match session.nameOf with
  | some nameOf => session.nameByFunction nameOf
  | none =>
    let session := session.nameNumbered .subroutine
    let session := session.nameNumbered .label
    let session := session.nameNumbered .data
    let session := session.nameNumbered .selfModifying
    let session := session.nameRestarts
    let session := session.nameLocals .localLabel session.config.stems.localLabel
    session.nameLocals .localLoop session.config.stems.localLoop

end Session

end Z80Atlas
