import Mathlib.Data.List.Forall2
import Z80Atlas.Proofs.Machine.Extent
import Z80Atlas.Proofs.Text.Numeral
import Z80Atlas.Report.Listing

namespace Z80Atlas

namespace Text

def words (line : List Char) : List (List Char) := (line.splitOn ' ').filter (!·.isEmpty)

theorem words_append_blank (front rest : List Char) :
    words (front ++ ' ' :: rest) = words front ++ words rest := by
  rw [words, List.splitOn_eq_splitOnP, List.splitOnP_append_cons _ _ (by simp), List.filter_append]
  rfl

theorem words_append_space (front rest : List Char) :
    words (front ++ (" ".toList ++ rest)) = words front ++ words rest :=
  words_append_blank front rest

theorem words_blanks_append (count : Nat) (rest : List Char) :
    words (List.replicate count ' ' ++ rest) = words rest := by
  induction count with
  | zero => rfl
  | succ count ih =>
      have hfirst := words_append_blank [] (List.replicate count ' ' ++ rest)
      rwa [ih] at hfirst

theorem words_append_blanks (front : List Char) (count : Nat) :
    words (front ++ List.replicate count ' ') = words front := by
  cases count with
  | zero => rw [List.replicate_zero, List.append_nil]
  | succ count =>
      have hrest := words_blanks_append count []
      rw [List.append_nil] at hrest
      rw [List.replicate_succ, words_append_blank, hrest]
      exact List.append_nil _

theorem words_of_solid {word : List Char} (hne : word ≠ []) (h : ' ' ∉ word) :
    words word = [word] := by
  have hsplit : word.splitOnP (· == ' ') = [word] := by
    apply List.splitOnP_eq_singleton
    intro c hc
    simpa using ne_of_mem_of_not_mem hc h
  rw [words, List.splitOn_eq_splitOnP, hsplit]
  simpa using hne

theorem IsHex.blank_not_mem {width value : Nat} {digits : List Char}
    (h : IsHex width digits value) : ' ' ∉ digits := by
  intro hblank
  have hdigit := h.spells.isSome_digitValue? (by decide) (by decide) ' ' hblank
  exact absurd hdigit (by decide)

theorem IsHex.words_eq {width value : Nat} {digits : List Char} (h : IsHex width digits value)
    (hwidth : 0 < width) : words digits = [digits] := by
  apply words_of_solid _ h.blank_not_mem
  intro hempty
  rw [← h.length_eq, hempty] at hwidth
  exact Nat.lt_irrefl 0 hwidth

-- Whatever the width of the first word, the words of a text stay the same.
theorem words_alignOperation (width : Nat) (text : String) :
    words (Report.alignOperation width text).toList = words text.toList := by
  have hsplit := List.takeWhile_append_dropWhile (p := (· != ' ')) (l := text.toList)
  simp only [Report.alignOperation, padRight, String.toList_append, String.toList_ofList]
  generalize text.toList.takeWhile (· != ' ') = operation at hsplit
  cases hoperands : text.toList.dropWhile (· != ' ') with
  | nil =>
      rw [hoperands, List.append_nil] at hsplit
      rw [List.append_nil, ← List.append_nil " ".toList, words_append_space, words_append_blanks,
        hsplit]
      exact List.append_nil _
  | cons c operands =>
      have hc : c = ' ' := by
        have hhead := List.head?_dropWhile_not (· != ' ') text.toList
        rw [hoperands] at hhead
        simpa using hhead
      rw [hoperands, hc] at hsplit
      rw [hc, ← List.append_nil " ".toList, words_append_space, words_append_blank,
        words_append_blanks, ← hsplit, words_append_blank]
      exact List.append_nil _

end Text

theorem Address.range_eq_map (a : Address) (count : Nat) :
    a.range count = (List.range count).map a.plus := by
  induction count generalizing a with
  | zero => rfl
  | succ count ih =>
      rw [Address.range, ih, List.range_succ_eq_map, List.map_cons, List.map_map, Address.plus_zero]
      exact congrArg _ (List.map_congr_left fun i _ => a.plus_succ i)

-- The text is a template in which the operand takes the place of the first mark.
inductive Fills (operand : List Char) : List Char → List Char → Prop
  | marked (front back : List Char) (h : '#' ∉ front) :
      Fills operand (front ++ '#' :: back) (front ++ operand ++ back)
  | unmarked (template : List Char) (h : '#' ∉ template) : Fills operand template template

theorem fills_replaceFirst (operand template : List Char) :
    Fills operand template (Text.replaceFirst '#' operand template) := by
  induction template with
  | nil => exact .unmarked [] List.not_mem_nil
  | cons c rest ih =>
      rw [Text.replaceFirst]
      by_cases hc : c = '#'
      · rw [hc]
        exact .marked [] rest List.not_mem_nil
      · rw [if_neg (by simpa using hc)]
        generalize Text.replaceFirst '#' operand rest = text at ih ⊢
        cases ih with
        | marked front back h => exact .marked (c :: front) back (by simp [h, Ne.symm hc])
        | unmarked _ h => exact .unmarked _ (by simp [h, Ne.symm hc])

-- A remark is kept off by a tabulator or begins with a semicolon.
def IsRemark (remark : String) : Prop :=
  remark = "" ∨ ∃ text, remark = "\t" ++ text ∨ remark = "; " ++ text

theorem Comment.exists_annotate (comment : Comment) (line : String) :
    ∃ remark, IsRemark remark ∧ comment.annotate line = line ++ remark := by
  have hempty : ∃ remark, IsRemark remark ∧ line = line ++ remark :=
    ⟨"", .inl rfl, String.append_empty.symm⟩
  unfold Comment.annotate
  split
  · exact hempty
  · next text _ =>
    split
    · exact hempty
    · exact ⟨"\t" ++ text, .inr ⟨text, .inl rfl⟩, String.append_assoc⟩

namespace Session

def keyword (session : Session) (small capital : String) : String :=
  if session.config.lowerCase then small else capital

def ShowsAddress (session : Session) (a : Address) (words : List (List Char)) : Prop :=
  if 0 < session.config.columns.address then
    ∃ digits, Text.IsHex 4 digits a.toNat ∧ words = [digits]
  else words = []

def ShowsBytes (session : Session) (a : Address) (n : Nat) (words : List (List Char)) : Prop :=
  if session.config.showBytes then
    List.Forall₂ (fun i digits => Text.IsHex 2 digits (session.memory.byte (a.plus i)).toNat)
      (List.range n) words
  else words = []

-- The line of a statement: its address, its bytes and the words of its text.
def ShowsStatement (session : Session) (a : Address) (n : Nat) (text line : String) : Prop :=
  ∃ place bytes, Text.words line.toList = place ++ bytes ++ Text.words text.toList ∧
    session.ShowsAddress a place ∧ session.ShowsBytes a n bytes

def InstructionText (session : Session) (a : Address) (operand text : String) : Prop :=
  let template := (session.instructionAt a).template
  Fills operand.toList (if session.config.lowerCase then Text.toLower template else template).toList
    text.toList

def Shows (session : Session) (line : String) : ListingItem → Prop
  | .origin a => ∃ digits, Text.IsHex 4 digits a.toNat ∧
      Text.words line.toList = [(session.keyword "org" "ORG").toList, digits ++ ['h']]
  | .instruction a n => ∃ operand text, session.InstructionText a operand text ∧
      session.ShowsStatement a n text line
  | .byte a => ∃ digits, Text.IsHex 2 digits (session.memory.byte a).toNat ∧
      session.ShowsStatement a 1
        (session.keyword "defb " "DEFB " ++ String.ofList digits ++ "h") line
  | .label label => ∃ place, session.ShowsAddress label.address (Text.words place.toList) ∧
      line = place ++ label.text ++ ":"
  | .constant label => ∃ gap digits, Text.words gap.toList = [] ∧ gap ≠ "" ∧
      Text.IsHex 4 digits label.address.toNat ∧
      line = label.text ++ ":" ++ gap ++ session.keyword "equ  " "EQU  " ++
        String.ofList digits ++ "h"
  | .blank | .gap | .constantsHeading => False

def IsCommentLine (session : Session) (a : Address) (line : String) : Prop :=
  ∃ comment, session.comments[a]? = some comment ∧ line ∈ comment.before ++ comment.after

-- One of the lines is as wanted, apart from a remark. The others are comment lines of the address.
def Carries (session : Session) (a : Address) (wanted : String → Prop) (lines : List String) :
    Prop :=
  ∃ before line remark after, lines = before ++ (line ++ remark) :: after ∧ wanted line ∧
    IsRemark remark ∧ ∀ other ∈ before ++ after, session.IsCommentLine a other

def Writes (session : Session) (lines : List String) (item : ListingItem) : Prop :=
  match item with
  | .constantsHeading => ∀ line ∈ lines, ∃ text, line = "; " ++ text
  | .blank => lines = [""]
  | .gap => lines = ["; ..."]
  | .origin _ => ∃ line remark, lines = [line ++ remark] ∧ session.Shows line item ∧ IsRemark remark
  | .constant label | .label label => session.Carries label.address (session.Shows · item) lines
  | .instruction a _ | .byte a => session.Carries a (session.Shows · item) lines

section Columns

variable (session : Session)

-- What follows the column of the address begins a new word.
theorem words_place_append (a : Address) (rest : List Char) :
    ∃ place, session.ShowsAddress a place ∧
      Text.words ((if session.config.columns.address > 0 then
        Text.padRight session.config.columns.address (Text.hex4 a ++ " ") else "").toList ++ rest) =
      place ++ Text.words rest := by
  have hdigits := Text.isHex_hex4 a
  unfold ShowsAddress
  split
  · refine ⟨[(Text.hex4 a).toList], ⟨_, hdigits, rfl⟩, ?_⟩
    simp only [Text.padRight, String.toList_append, String.toList_ofList, List.append_assoc]
    rw [Text.words_append_space, Text.words_blanks_append, hdigits.words_eq (by decide)]
  · exact ⟨[], rfl, rfl⟩

theorem words_byteColumn_append (memory : Memory) (as : List Address) (rest : List Char) :
    Text.words ((String.join (as.map fun a => Text.hex2 (memory.byte a) ++ " ")).toList ++ rest) =
      as.map (fun a => (Text.hex2 (memory.byte a)).toList) ++ Text.words rest := by
  induction as with
  | nil => rfl
  | cons a as ih =>
      have hdigits := (Text.isHex_hex2 (memory.byte a)).words_eq (by decide)
      simp only [List.map_cons, String.join_cons, String.toList_append, List.append_assoc]
      rw [Text.words_append_space, hdigits, ih]
      rfl

theorem words_bytes_append (a : Address) (n : Nat) (rest : List Char) :
    ∃ bytes, session.ShowsBytes a n bytes ∧
      Text.words ((Text.padRight session.config.columns.bytes
        (((if session.config.showBytes then some session.memory else none).map
          (Report.byteColumn · a n)).getD "")).toList ++ rest) = bytes ++ Text.words rest := by
  unfold ShowsBytes
  simp only [Text.padRight, String.toList_append, String.toList_ofList, List.append_assoc]
  split
  · refine ⟨(a.range n).map fun b => (Text.hex2 (session.memory.byte b)).toList, ?_, ?_⟩
    · rw [Address.range_eq_map, List.map_map, List.forall₂_map_right_iff, List.forall₂_same]
      exact fun i _ => Text.isHex_hex2 _
    · change Text.words ((Report.byteColumn session.memory a n).toList ++ _) = _
      rw [Report.byteColumn, words_byteColumn_append, Text.words_blanks_append]
  · exact ⟨[], rfl, Text.words_blanks_append _ _⟩

theorem showsStatement_statementLine (a : Address) (n : Nat) (text : String) :
    session.ShowsStatement a n text (session.statementLine a n text) := by
  have htext : Text.words (Text.padRight session.config.columns.statement
      (Report.alignOperation session.config.columns.operation text)).toList =
      Text.words text.toList := by
    rw [Text.padRight, String.toList_append, String.toList_ofList, Text.words_append_blanks,
      Text.words_alignOperation]
  obtain ⟨bytes, hbytes, hrest⟩ := session.words_bytes_append a n
    (Text.padRight session.config.columns.statement
      (Report.alignOperation session.config.columns.operation text)).toList
  obtain ⟨place, hplace, hline⟩ := session.words_place_append a
    ((Text.padRight session.config.columns.bytes
      (((if session.config.showBytes then some session.memory else none).map
        (Report.byteColumn · a n)).getD "")).toList ++
    (Text.padRight session.config.columns.statement
      (Report.alignOperation session.config.columns.operation text)).toList)
  refine ⟨place, bytes, ?_, hplace, hbytes⟩
  rw [statementLine, Report.statementLine, String.toList_append, String.toList_append,
    List.append_assoc, hline, hrest, htext, List.append_assoc]

end Columns

section Carries

variable {session : Session} {wanted : String → Prop} {line : String}

theorem carries_append (a : Address) (h : wanted line) {remark : String}
    (hremark : IsRemark remark) : session.Carries a wanted [line ++ remark] :=
  ⟨[], line, remark, [], rfl, h, hremark, fun _ hother => absurd hother List.not_mem_nil⟩

theorem carries_self (a : Address) (h : wanted line) : session.Carries a wanted [line] := by
  have happend : session.Carries a wanted [line ++ ""] := carries_append a h (.inl rfl)
  rwa [String.append_empty] at happend

theorem carries_surround (a : Address) (h : wanted line) :
    session.Carries a wanted (session.surround a line) := by
  unfold surround commented
  split
  case h_1 comment hcomment =>
      split
      · exact carries_self a h
      · obtain ⟨remark, hremark, hannotate⟩ := Comment.exists_annotate comment line
        refine ⟨comment.before, line, remark, comment.after, ?_, h, hremark, ?_⟩
        · rw [Comment.surround, hannotate]
        · exact fun other hother => ⟨comment, hcomment, hother⟩
  case h_2 => exact carries_self a h

theorem carries_remarked (a : Address) (h : wanted line) (remark : String) :
    session.Carries a wanted (session.remarked a line remark) := by
  unfold remarked
  split
  · exact carries_surround a h
  · split
    · exact carries_self a h
    · rw [String.append_assoc]
      exact carries_append a h (.inr ⟨"; " ++ remark, .inl rfl⟩)

end Carries

section Items

variable (session : Session)

theorem inCase_org : session.inCase "ORG " = session.keyword "org" "ORG" ++ " " := by
  unfold inCase keyword
  split <;> decide +kernel

theorem inCase_defb : session.inCase "DEFB " = session.keyword "defb " "DEFB " := by
  unfold inCase keyword
  split
  · decide +kernel
  · rfl

theorem inCase_equ : session.inCase "EQU " ++ " " = session.keyword "equ  " "EQU  " := by
  unfold inCase keyword
  split <;> decide +kernel

theorem instructionText_render (a : Address) (operand : String) :
    session.InstructionText a operand
      ((session.instructionAt a).render session.config.lowerCase operand) := by
  rw [InstructionText, Instruction.render, String.toList_ofList]
  exact fills_replaceFirst _ _

theorem exists_instructionText (a : Address) (checked : Bool) :
    ∃ operand, session.InstructionText a operand
      (session.instructionText (session.instructionAt a) checked).1 := by
  unfold instructionText
  split
  · exact ⟨_, session.instructionText_render a _⟩
  · exact ⟨_, session.instructionText_render a _⟩

theorem shows_instruction (a : Address) (n : Nat) :
    session.Shows (session.statementLine a n
      (session.instructionText (session.instructionAt a) true).1) (.instruction a n) := by
  obtain ⟨operand, htext⟩ := session.exists_instructionText a true
  exact ⟨operand, _, htext, session.showsStatement_statementLine a n _⟩

theorem shows_byte (a : Address) :
    session.Shows (session.statementLine a 1
      (session.inCase "DEFB " ++ Text.hex2 (session.memory.byte a) ++ "h")) (.byte a) := by
  refine ⟨_, Text.isHex_hex2 _, ?_⟩
  rw [inCase_defb, String.ofList_toList]
  exact session.showsStatement_statementLine a 1 _

theorem shows_origin (a : Address) :
    session.Shows (Text.padRight session.config.columns.bytes "" ++ session.inCase "ORG " ++
      Text.hex4 a ++ "h") (.origin a) := by
  have hdigits := Text.isHex_hex4 a
  refine ⟨_, hdigits, ?_⟩
  have hword : Text.words (session.keyword "org" "ORG").toList =
      [(session.keyword "org" "ORG").toList] := by
    unfold keyword
    split <;> exact Text.words_of_solid (by decide) (by decide)
  have haddress : Text.words ((Text.hex4 a).toList ++ ['h']) = [(Text.hex4 a).toList ++ ['h']] :=
    Text.words_of_solid (by simp) (by simp [hdigits.blank_not_mem])
  rw [inCase_org, Text.padRight]
  simp only [String.toList_append, String.toList_ofList, List.append_assoc]
  change Text.words (List.replicate _ ' ' ++ (_ ++ (" ".toList ++ (_ ++ ['h'])))) = _
  rw [Text.words_blanks_append, Text.words_append_space, hword, haddress]
  rfl

theorem shows_label (label : Label) :
    session.Shows ((if session.config.columns.address > 0 then
      Text.padRight session.config.columns.address (Text.hex4 label.address) else "") ++
      label.text ++ ":") (.label label) := by
  have hdigits := Text.isHex_hex4 label.address
  refine ⟨_, ?_, rfl⟩
  unfold ShowsAddress
  split
  · refine ⟨_, hdigits, ?_⟩
    rw [Text.padRight, String.toList_append, String.toList_ofList, Text.words_append_blanks,
      hdigits.words_eq (by decide)]
  · rfl

theorem shows_constant (label : Label) :
    session.Shows (Text.padRight (session.config.columns.bytes - 1) (label.text ++ ":") ++ " " ++
      session.inCase "EQU " ++ Text.padLeft ' ' 5 (Text.hex4 label.address) ++ "h")
      (.constant label) := by
  have hdigits := Text.isHex_hex4 label.address
  have hlength : (Text.hex4 label.address).length = 4 := by
    rw [← String.length_toList, hdigits.length_eq]
  refine ⟨String.ofList (List.replicate (session.config.columns.bytes - 1 -
    (label.text ++ ":").length) ' ') ++ " ", _, ?_, ?_, hdigits, ?_⟩
  · rw [String.toList_append, String.toList_ofList, ← List.append_nil " ".toList,
      Text.words_append_space]
    have hblanks := Text.words_blanks_append (session.config.columns.bytes - 1 -
      (label.text ++ ":").length) []
    rw [List.append_nil] at hblanks
    rw [hblanks]
    rfl
  · intro hempty
    have hlist := congrArg String.toList hempty
    simp at hlist
  · rw [Text.padLeft, hlength, ← inCase_equ, Text.padRight, String.ofList_toList]
    change _ ++ (" " ++ _) ++ _ = _
    simp only [String.append_assoc]

-- Every item is written as its kind asks for.
theorem writes_itemLines (item : ListingItem) : session.Writes (session.itemLines item) item := by
  cases item with
  | constantsHeading =>
      intro line hline
      rw [itemLines] at hline
      split at hline
      · cases hline
      · rcases List.mem_cons.mp hline with rfl | hline
        · exact ⟨"EQU:", rfl⟩
        · rw [List.mem_singleton.mp hline]
          exact ⟨"Data addresses used by the opcodes that point to uninitialized memory areas.", rfl⟩
  | constant label => exact carries_surround _ (session.shows_constant label)
  | blank => rfl
  | origin a =>
      have hshows := session.shows_origin a
      rw [Writes, itemLines]
      split
      · exact ⟨_, "", by rw [String.append_empty], hshows, .inl rfl⟩
      · exact ⟨_, "; " ++ Report.addressView a, by rw [← String.append_assoc], hshows,
          .inr ⟨_, .inr rfl⟩⟩
  | label label => exact carries_surround _ (session.shows_label label)
  | instruction a n => exact carries_remarked _ (session.shows_instruction a n) _
  | byte a => exact carries_remarked _ (session.shows_byte a) _
  | gap => rfl

end Items

end Session

end Z80Atlas
