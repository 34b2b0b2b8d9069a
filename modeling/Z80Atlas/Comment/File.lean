import Z80Atlas.Address.Basic
import Z80Atlas.Comment.Basic
import Z80Atlas.Diagnostic.Fault
import Z80Atlas.Text.Alphanumeric
import Z80Atlas.Text.Blank
import Z80Atlas.Text.Lines
import Z80Atlas.Text.Numeral

namespace Z80Atlas

structure CommentEntry where
  address : Address
  label : Option String
  comment : Comment
  deriving DecidableEq, Repr

inductive AddressLineError where
  | expectedAddress
  | unexpectedLine
  -- The second byte of the text ends inside a character, so no `0x` can be looked for.
  | splitCharacter
  deriving DecidableEq, Repr

inductive CommentFileError where
  | fault (fault : Fault)
  | splitCharacter
  deriving DecidableEq, Repr

namespace CommentFile

def isLabelChar (c : Char) : Bool := Text.isAlphanumeric c || c == '_' || c == '.'

def splitsCharacter : List Char → Bool
  | [] => false
  | [c] => c.utf8Size > 2
  | c :: d :: _ => c.utf8Size > 2 || (c.utf8Size == 1 && d.utf8Size > 1)

def dropHexMark : List Char → List Char
  | '0' :: 'x' :: rest => rest
  | '0' :: 'X' :: rest => rest
  | text => text

def isHexDigit (c : Char) : Bool := (Text.digitValue? 16 c).isSome

def readLabel (text : List Char) : Except AddressLineError (Option String) :=
  match text with
  | [] => .ok none
  | c :: _ =>
    if !Text.isBlank c then .error .unexpectedLine
    else
      let label := Text.trim text
      if label.isEmpty then .ok none
      else if label.all isLabelChar then .ok (some (String.ofList label))
      else .error .unexpectedLine

def readAddressLine (text : List Char) : Except AddressLineError (Address × Option String) :=
  let text := Text.trim text
  if splitsCharacter text then .error .splitCharacter
  else
    let text := dropHexMark text
    let digits := text.takeWhile isHexDigit
    let rest := text.dropWhile isHexDigit
    match Text.ofDigits? 16 addressCount digits with
    | none => .error .expectedAddress
    | some value =>
      let rest := match rest with
        | ':' :: rest => rest
        | rest => rest
      (readLabel rest).map fun label => (UInt16.ofNat value, label)

inductive Line where
  | blank
  | comment (text : String)
  | address (text : List Char) (comment : Option String)

-- Tell the parts of a line: a comment begins at the first semicolon, and an address stands before
-- it.
def Line.ofChars (line : List Char) : Line :=
  let line := Text.trimStart line
  let address := line.takeWhile (· != ';')
  let comment := line.dropWhile (· != ';')
  let comment? := if comment.isEmpty then none else some (String.ofList comment)
  if address.all Text.isBlank then
    match comment? with
    | none => .blank
    | some comment => .comment comment
  else .address address comment?

-- The entry that is being read: comment lines, and the address once it was met.
structure Draft where
  before : Array String := #[]
  beside : Option String := none
  after : Array String := #[]
  place : Option (Address × Option String) := none

def Draft.comment (draft : Draft) : Comment :=
  ⟨draft.before.toList, draft.beside, draft.after.toList⟩

def Draft.entries (draft : Draft) : List CommentEntry :=
  match draft.place with
  | none => []
  | some (address, label) => [⟨address, label, draft.comment⟩]

def Draft.addLine (draft : Draft) (text : String) : Draft :=
  match draft.place with
  | none => { draft with before := draft.before.push text }
  | some _ => { draft with after := draft.after.push text }

def faultAt (file : String) (number : Nat) (line : String) (code : FaultCode) (what : String)
    (hint : Option String) : CommentFileError :=
  .fault
    { code
      message := what ++ ": \"" ++ line ++ "\""
      location := some ⟨file, number, line⟩
      hint }

def Draft.addAddress (draft : Draft) (file : String) (number : Nat) (line : String)
    (text : List Char) (comment : Option String) : Except CommentFileError Draft :=
  match draft.place with
  | some _ =>
    .error (faultAt file number line .expectedAfterComment "Expected \"after\"-comment or newline"
      (some "Separate entries by an empty line"))
  | none =>
    match readAddressLine text with
    | .ok place => .ok { draft with beside := comment, place := some place }
    | .error .unexpectedLine =>
      .error (faultAt file number line .unexpectedLine "Unexpected line" none)
    | .error .expectedAddress =>
      .error (faultAt file number line .expectedAddress "Expected an address" none)
    | .error .splitCharacter => .error .splitCharacter

-- The entries of the lines from number `number` on, after those that made up `draft`. The end of
-- the file ends the last entry.
def readLines (file : String) (number : Nat) (draft : Draft) :
    List (List Char) → Except CommentFileError (List CommentEntry)
  | [] => .ok draft.entries
  | line :: rest =>
    match Line.ofChars line with
    | .blank => (readLines file (number + 1) {} rest).map (draft.entries ++ ·)
    | .comment text => readLines file (number + 1) (draft.addLine text) rest
    | .address text comment => do
      let draft ← draft.addAddress file number (String.ofList line) text comment
      readLines file (number + 1) draft rest

end CommentFile

-- A file is a row of entries with blank lines between them. An entry holds comment lines, one line
-- with an address, which may also hold a label and a comment, and further comment lines.
def readCommentFile (text file : String) : Except CommentFileError (List CommentEntry) :=
  CommentFile.readLines file 1 {} (Text.lines text.toList)

end Z80Atlas
