import Z80Atlas.Diagnostic.Fault
import Z80Atlas.Report.Dot
import Z80Atlas.Session.Basic

namespace Z80Atlas

-- Marking an unmarked place leaves one fewer unmarked.
private theorem countP_unmarked_lt {seen : Array Bool} {id : Nat} (h : seen[id]? = some false) :
    (seen.setIfInBounds id true).countP (!·) < seen.countP (!·) := by
  obtain ⟨hid, hfalse⟩ := Array.getElem?_eq_some_iff.mp h
  have hpos : 0 < seen.countP (!·) :=
    Array.countP_pos_iff.mpr ⟨false, hfalse ▸ Array.getElem_mem hid, rfl⟩
  rw [Array.setIfInBounds_def, dif_pos hid, Array.countP_set, hfalse]
  simp only [Bool.not_false, if_true, Bool.not_true, Bool.false_eq_true, if_false]
  omega

namespace LabelStore

-- Visit the pending labels and all that they call, depth first, and put those not yet seen behind
-- `chosen`. A call of a label that was seen is not kept.
def callOrder (store : LabelStore) (seen : Array Bool) (chosen : Array LabelId) :
    List LabelId → Array LabelId
  | [] => chosen
  | id :: pending =>
    if _h : seen[id]? = some false then
      let seen := seen.setIfInBounds id true
      let calls := ((store.get? id).map (·.calls.toList)).getD []
      store.callOrder seen (chosen.push id) (calls.filter (seen[·]? != some true) ++ pending)
    else store.callOrder seen chosen pending
termination_by pending => (seen.countP (!·), pending.length)
decreasing_by
  · exact Prod.Lex.left _ _ (countP_unmarked_lt _h)
  · exact Prod.Lex.right _ (Nat.lt_succ_self _)

def reachableCalls (store : LabelStore) (id : LabelId) : List LabelId :=
  (store.callOrder (Array.replicate store.arena.size false) #[] [id]).toList

end LabelStore

namespace Session

def unknownLabel (what name : String) : Fault :=
  { code := .unknownGraphLabel
    message := "Could not find " ++ what ++ "\"" ++ name ++ "\" while creating graph." }

def resolve (session : Session) (target : Target) : Except Fault LabelId :=
  match target with
  | .address address =>
    match session.labels.idAt? address with
    | some id => .ok id
    | none => .error (unknownLabel "address for " ("0x" ++ Text.hex4 address))
  | .name name =>
    match session.addressOfName[name]? with
    | none => .error (unknownLabel "" name)
    | some address =>
      match session.labels.idAt? address with
      | some id => .ok id
      | none => .error (unknownLabel "address for " name)

def graphLabels (session : Session) (target : Target) : Except Fault (List LabelId) :=
  (session.resolve target).map session.labels.reachableCalls

-- The size of the text of a node, between 13 and 40 by the complexity among all routines.
def fontSize (session : Session) (complexity : Nat) : Int :=
  let least := session.leastStatistics.complexity
  let range := max (session.greatestStatistics.complexity - least) 8
  let factor := 27.0 / (UInt64.ofNat range).toFloat
  let above := (UInt64.ofNat complexity).toFloat - (UInt64.ofNat least).toFloat
  (13.0 + factor * above).round.toInt64.toInt

-- A count in the text of a node; what is unknown or zero is written as a question mark.
def knownCount (count : Nat) : String := if count = 0 then "?" else Text.decimal count

def nodeText (session : Session) (label : Label) (statistics : Statistics) : String :=
  let fields : List (String × String) :=
    [("label", Report.escapeDot label.text),
      ("id", Text.decimal label.id),
      ("address", Text.hex4 label.address),
      ("CC", knownCount statistics.complexity),
      ("size", knownCount statistics.size),
      ("instructions", knownCount statistics.instructions)]
  fields.foldl
    (fun text (field, value) => Text.replace ("$\x7b" ++ field ++ "\x7d") value text)
    session.config.nodeFormat

def highlightOf? (session : Session) (label : Label) : Option String :=
  session.highlights[Target.address label.address]?.or session.highlights[Target.name label.text]?

def quoted (text : String) : String := "\"" ++ text ++ "\""

def constantNode (session : Session) (label : Label) : List String :=
  let name := Report.escapeDot label.text
  let color := (session.highlightOf? label).getD "lightgray"
  [name ++ " [fontsize=\"13\"];\n",
    name ++ " [label=" ++ quoted (session.nodeText label {}) ++ "];\n",
    quoted name ++ " [fillcolor=" ++ color ++ ", style=filled];\n"]

-- The colour of a node that nothing refers to, or of a jump label.
def nodeColor? (session : Session) (label : Label) : Option String :=
  (session.highlightOf? label).or
    (if label.references.isEmpty || label.kind == .label then some "lightyellow" else none)

def routineNode (session : Session) (label : Label) : List String :=
  let name := quoted (Report.escapeDot label.text)
  let statistics := session.statistics.getD label.id {}
  let callees := label.calls.toList.eraseDups.map fun id =>
    quoted (Report.escapeDot (((session.labels.get? id).map (·.text)).getD ""))
  [name ++ " [fontsize=" ++
      quoted (Text.signedDecimal (session.fontSize statistics.complexity)) ++ "];\n",
    name ++ " [label=" ++ quoted (session.nodeText label statistics) ++ "];\n"] ++
    (if callees.isEmpty then []
      else [name ++ " -> \x7b " ++ " ".intercalate callees ++ " \x7d;\n"]) ++
    (match session.nodeColor? label with
      | some color => [name ++ " [fillcolor=" ++ color ++ ", style=filled];\n"]
      | none => [])

def rankLines (labels : List Label) : List String :=
  if labels.isEmpty then []
  else
    let names := labels.map fun label => quoted (Report.escapeDot label.text)
    ["\n\x7b rank=same; " ++ ", ".intercalate names ++ " \x7d;\n\n"]

-- The call graph of labels. Only top-level labels are drawn. Those without references stand in one
-- row, jump labels in another.
def callGraph (session : Session) (ids : List LabelId) : String :=
  let labels := (ids.filterMap session.labels.get?).filter (·.kind.isTopLevel)
  let routines := labels.filter (!·.isEqu)
  let uncalled := routines.filter (·.references.isEmpty)
  let jumps := routines.filter fun label => !label.references.isEmpty && label.kind == .label
  String.join <|
    ["digraph Callgraph \x7b\n\n" ++ session.config.graphAttributes ++ "\n"] ++
      labels.flatMap (fun label =>
        if label.isEqu then session.constantNode label else session.routineNode label) ++
      rankLines uncalled ++ rankLines jumps ++ ["\x7d\n"]

end Session

end Z80Atlas
