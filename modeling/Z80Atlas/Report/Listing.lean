import Z80Atlas.Report.Annotation
import Z80Atlas.Report.Operand
import Z80Atlas.Report.Statement

namespace Z80Atlas

-- A listing is laid out first, as a row of items, which are then written as lines.
inductive ListingItem where
  | constantsHeading
  | constant (label : Label)
  | blank
  | origin (address : Address)
  | label (label : Label)
  | instruction (address : Address) (size : Nat)
  | byte (address : Address)
  | gap

def ListingItem.fits (columns : Columns) : ListingItem → Bool
  | .constant _ => columns.bytes - 1 ≤ Text.fieldLimit
  | .origin _ => columns.bytes ≤ Text.sizeLimit
  | .label _ => columns.address ≤ Text.fieldLimit
  | .instruction .. | .byte _ => columns.fitStatement
  | .constantsHeading | .blank | .gap => true

structure ListingState where
  -- Empty lines were written and no statement since.
  spaced : Bool := false
  -- The previous statement was data, or there is none.
  inData : Bool := true
  owner : Option LabelId := none

namespace Session

def blockGap (session : Session) : List ListingItem :=
  List.replicate session.config.blockGap .blank

def statementSize (session : Session) (address : Address) : Nat :=
  if session.memory.isCode address then (session.instructionAt address).size else 1

theorem statementSize_pos (session : Session) (address : Address) :
    0 < session.statementSize address := by
  unfold statementSize
  split
  · exact Instruction.size_pos _
  · exact Nat.one_pos

-- Does a block begin at the address? Another label owns it, or it has a main label.
def beginsBlock (session : Session) (state : ListingState) (address : Address) : Bool :=
  session.owners.get address != state.owner ||
    (session.labels.at? address).any (·.kind.isMain)

def beginsData (session : Session) (state : ListingState) (address : Address) : Bool :=
  !session.memory.isCode address && !state.inData

-- The items of one address: its label and its statement, with empty lines where a block begins, and
-- behind the label where only data begins.
def itemsAt (session : Session) (state : ListingState) (address : Address) : List ListingItem :=
  let block := session.beginsBlock state address
  let size := session.statementSize address
  let following := address.toNat + size
  (if block then session.blockGap else []) ++
    ((session.labels.at? address).map .label).toList ++
    (if !block && session.beginsData state address then session.blockGap else []) ++
    [if session.memory.isCode address then .instruction address size else .byte address] ++
    if following < addressCount && !session.config.disableComments &&
        !session.memory.isAssigned (UInt16.ofNat following) then
      [.gap, .gap, .gap]
    else []

def stateAfter (session : Session) (state : ListingState) (address : Address) : ListingState where
  spaced := session.beginsBlock state address || session.beginsData state address
  inData := !session.memory.isCode address || (session.memory.marks address).data
  owner := session.owners.get address

-- Lay out the loaded memory from `position` on. The result is where the area ends, whether empty
-- lines were just written, and the items.
def layOutArea (session : Session) (position : Nat) (state : ListingState)
    (items : Array ListingItem) : Nat × Bool × Array ListingItem :=
  if position < addressCount ∧ session.memory.isAssigned (UInt16.ofNat position) then
    let address := UInt16.ofNat position
    session.layOutArea (position + session.statementSize address)
      (session.stateAfter state address) (items ++ session.itemsAt state address)
  else (position, state.spaced, items)
termination_by addressCount - position
decreasing_by
  have := session.statementSize_pos (UInt16.ofNat position)
  omega

structure ListingLayout where
  finish : Nat := 0
  spaced : Bool := false
  items : Array ListingItem := #[]

def layOutLabel (session : Session) (layout : ListingLayout) (label : Label) : ListingLayout :=
  if label.isEqu || label.address.toNat < layout.finish then layout
  else
    let heading :=
      (if layout.spaced then [] else session.blockGap) ++ [ListingItem.origin label.address]
    let (finish, spaced, items) :=
      session.layOutArea label.address.toNat { spaced := true } (layout.items ++ heading)
    { finish, spaced, items }

def memoryItems (session : Session) : Array ListingItem :=
  (session.labels.live.foldl session.layOutLabel {}).items

def constantItems (session : Session) : List ListingItem :=
  match session.labels.live.filter (·.isEqu) with
  | [] => []
  | labels => .constantsHeading :: labels.map .constant

def inCase (session : Session) (word : String) : String :=
  if session.config.lowerCase then Text.toLower word else word

def surround (session : Session) (address : Address) (statement : String) : List String :=
  commented session.comments[address]? statement session.config.disableComments

-- A statement and the remark beside it. A comment of the user takes the place of the remark, unless
-- it went to the label of the address.
def remarked (session : Session) (address : Address) (line remark : String) : List String :=
  if session.comments.contains address && !session.labels.hasLabel address then
    session.surround address line
  else if session.config.disableComments || remark.isEmpty then [line]
  else [line ++ "\t; " ++ remark]

def statementLine (session : Session) (address : Address) (size : Nat) (text : String) : String :=
  Report.statementLine (if session.config.showBytes then some session.memory else none)
    session.config.columns address size text

def itemLines (session : Session) : ListingItem → List String
  | .constantsHeading =>
    if session.config.disableComments then []
    else
      ["; EQU:",
        "; Data addresses used by the opcodes that point to uninitialized memory areas."]
  | .constant label =>
    session.surround label.address
      (Text.padRight (session.config.columns.bytes - 1) (label.text ++ ":") ++ " " ++
        session.inCase "EQU " ++ Text.padLeft ' ' 5 (Text.hex4 label.address) ++ "h")
  | .blank => [""]
  | .origin address =>
    let line :=
      Text.padRight session.config.columns.bytes "" ++ session.inCase "ORG " ++
        Text.hex4 address ++ "h"
    [if session.config.disableComments then line
      else line ++ "; " ++ Report.addressView address]
  | .label label =>
    let place :=
      if session.config.columns.address > 0 then
        Text.padRight session.config.columns.address (Text.hex4 label.address)
      else ""
    session.surround label.address (place ++ label.text ++ ":")
  | .instruction address size =>
    let (text, remark) := session.instructionText (session.instructionAt address) true
    session.remarked address (session.statementLine address size text) remark
  | .byte address =>
    let value := session.memory.byte address
    session.remarked address
      (session.statementLine address 1 (session.inCase "DEFB " ++ Text.hex2 value ++ "h"))
      (Report.byteView value)
  | .gap => ["; ..."]

def memoryLines (session : Session) : List String :=
  session.memoryItems.toList.flatMap session.itemLines

def constantLines (session : Session) : List String :=
  session.constantItems.flatMap session.itemLines

-- The listing does not begin with empty lines.
def listingLines (session : Session) : List String :=
  (session.constantLines ++ session.memoryLines).dropWhile (·.isEmpty)

def linesOf? (session : Session) (items : List ListingItem) : Option (List String) :=
  if items.all (·.fits session.config.columns) then some (items.flatMap session.itemLines) else none

-- Every area begins with the empty lines between blocks.
def gapFits (session : Session) : Bool :=
  session.config.blockGap ≤ Text.lineLimit || session.labels.live.all (·.isEqu)

def memoryLines? (session : Session) : Option (List String) :=
  if session.gapFits then session.linesOf? session.memoryItems.toList else none

def constantLines? (session : Session) : Option (List String) :=
  session.linesOf? session.constantItems

def listingLines? (session : Session) : Option (List String) := do
  return ((← session.constantLines?) ++ (← session.memoryLines?)).dropWhile (·.isEmpty)

theorem eq_flatMap_of_linesOf? {session : Session} {items : List ListingItem}
    {lines : List String} (h : session.linesOf? items = some lines) :
    lines = items.flatMap session.itemLines := by
  unfold linesOf? at h
  split at h
  · exact (Option.some.inj h).symm
  · cases h

theorem eq_memoryLines_of_memoryLines? {session : Session} {lines : List String}
    (h : session.memoryLines? = some lines) : lines = session.memoryLines := by
  unfold memoryLines? at h
  split at h
  · exact eq_flatMap_of_linesOf? h
  · cases h

theorem eq_constantLines_of_constantLines? {session : Session} {lines : List String}
    (h : session.constantLines? = some lines) : lines = session.constantLines :=
  eq_flatMap_of_linesOf? h

-- A listing that can be written is the listing.
theorem eq_listingLines_of_listingLines? {session : Session} {lines : List String}
    (h : session.listingLines? = some lines) : lines = session.listingLines := by
  obtain ⟨constants, hconstants, h⟩ := Option.bind_eq_some_iff.mp h
  obtain ⟨memory, hmemory, h⟩ := Option.bind_eq_some_iff.mp h
  rw [← Option.some.inj h, eq_constantLines_of_constantLines? hconstants,
    eq_memoryLines_of_memoryLines? hmemory, listingLines]

def mainLabels (session : Session) : String :=
  String.join <|
    (session.labels.live.filter (·.kind.isMain)).map fun label =>
      let lines := commented (session.commentFor? label.address)
        (Text.hex4 label.address ++ "\t" ++ label.text) session.config.disableComments
      "\n".intercalate lines ++ "\n\n"

end Session

end Z80Atlas
