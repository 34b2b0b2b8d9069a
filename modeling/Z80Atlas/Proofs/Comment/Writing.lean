import Z80Atlas.Proofs.Comment.AddressLine
import Z80Atlas.Proofs.Comment.Composition

namespace Z80Atlas

namespace CommentFile

-- A comment that fits on a line: with its semicolon, and nothing in it that would end the line.
structure IsCommentText (text : String) : Prop where
  semicolon : text.toList.head? = some ';'
  feed : '\n' ∉ text.toList
  carriage : text.toList.getLast? ≠ some '\r'

end CommentFile

namespace CommentEntry

structure Writable (entry : CommentEntry) : Prop where
  before : ∀ line ∈ entry.comment.before, CommentFile.IsCommentText line
  beside : ∀ text, entry.comment.beside = some text → CommentFile.IsCommentText text
  after : ∀ line ∈ entry.comment.after, CommentFile.IsCommentText line
  label : ∀ label, entry.label = some label →
    label ≠ "" ∧ ∀ c ∈ label.toList, CommentFile.isLabelChar c

def addressLine (numeral : Address → String) (entry : CommentEntry) : String :=
  numeral entry.address ++ entry.label.elim "" (" " ++ ·) ++ entry.comment.beside.elim "" (" " ++ ·)

def lines (numeral : Address → String) (entry : CommentEntry) : List String :=
  entry.comment.before ++ entry.addressLine numeral :: entry.comment.after ++ [""]

end CommentEntry

def writeComments (numeral : Address → String) (entries : List CommentEntry) : String :=
  String.join ((entries.flatMap (·.lines numeral)).map (· ++ "\n"))

namespace CommentFile

section Comments

variable {text : String}

-- A line falls into what stands before its first semicolon and the comment from there on.
theorem ofChars_append {front : List Char} {comment : Option String}
    (hfirst : ∀ c, (front ++ comment.elim [] (·.toList)).head? = some c → ¬Text.isBlank c)
    (hfront : ∀ c ∈ front, c ≠ ';')
    (hcomment : ∀ text, comment = some text → text.toList.head? = some ';') :
    Line.ofChars (front ++ comment.elim [] (·.toList)) =
      if front.all Text.isBlank then comment.elim .blank .comment else .address front comment := by
  have hrun : ∀ c ∈ front, (c != ';') = true := by simpa using hfront
  have hstop : ∀ c, (comment.elim [] (·.toList)).head? = some c → ¬(c != ';') = true := by
    cases comment with
    | none => simp
    | some text =>
        rw [Option.elim_some, hcomment text rfl]
        intro c hc
        cases hc
        decide
  have hsome : (if (comment.elim [] (·.toList)).isEmpty then none
      else some (String.ofList (comment.elim [] (·.toList)))) = comment := by
    cases comment with
    | none => rfl
    | some text =>
        obtain ⟨rest, hrest⟩ := List.head?_eq_some_iff.mp (hcomment text rfl)
        rw [if_neg (by simp [hrest]), Option.elim_some, String.ofList_toList]
  unfold Line.ofChars
  dsimp only
  rw [Text.trimStart_eq_self hfirst, Text.takeWhile_run hrun hstop, Text.dropWhile_run hrun hstop, hsome]
  cases comment <;> rfl

theorem ofChars_of_isCommentText (h : IsCommentText text) : Line.ofChars text.toList = .comment text := by
  have hfirst : ∀ c, ([] ++ (some text).elim [] (·.toList)).head? = some c → ¬Text.isBlank c := by
    rw [List.nil_append, Option.elim_some, h.semicolon]
    intro c hc
    cases hc
    decide
  have hcomment : ∀ other, some text = some other → other.toList.head? = some ';' := by
    intro other hother
    cases hother
    exact h.semicolon
  exact ofChars_append hfirst (by simp) hcomment

-- Before the address line they go to one place, behind it to the other.
theorem foldl_addLine (draft : Draft) (texts : List String) :
    texts.foldl Draft.addLine draft =
      match draft.place with
      | none => { draft with before := draft.before ++ texts.toArray }
      | some _ => { draft with after := draft.after ++ texts.toArray } := by
  induction texts generalizing draft with
  | nil => rcases draft with ⟨before, beside, after, _ | place⟩ <;> simp
  | cons text texts ih =>
      rw [List.foldl_cons, ih, Draft.addLine]
      cases draft.place <;> simp

-- Comment lines are added to the draft one by one.
theorem readLines_comments {texts : List String} (h : ∀ text ∈ texts, IsCommentText text)
    (file : String) (number : Nat) (draft : Draft) (rest : List (List Char)) :
    readLines file number draft (texts.map (·.toList) ++ rest) =
      readLines file (number + texts.length) (texts.foldl Draft.addLine draft) rest := by
  induction texts generalizing number draft with
  | nil => rfl
  | cons text texts ih =>
      have hrest := ih fun other hother => h other (List.mem_cons_of_mem text hother)
      rw [List.map_cons, List.cons_append,
        readLines_of_comment (ofChars_of_isCommentText (h text List.mem_cons_self)), hrest,
        List.length_cons, List.foldl_cons, Nat.add_assoc, Nat.add_comm 1]

end Comments

theorem utf8Size_of_hex {c : Char} (h : c ∈ hexChars) : c.utf8Size = 1 := by
  have hall : hexChars.all (·.utf8Size == 1) := by decide
  simpa using List.all_eq_true.mp hall c h

theorem not_isBlank_of_hex {c : Char} (h : c ∈ hexChars) : ¬Text.isBlank c := by
  have hall : hexChars.all (!Text.isBlank ·) := by decide
  simpa using List.all_eq_true.mp hall c h

section Numerals

variable {address : Address} {digits : List Char} (h : Text.IsHex 4 digits address.toNat)

include h

theorem mem_hexChars_of_isHex {c : Char} (hc : c ∈ digits) : c ∈ hexChars :=
  (isHexDigit_iff c).mp (h.spells.isSome_digitValue? (by decide) (by decide) c hc)

theorem exists_cons_of_isHex :
    ∃ c d rest, digits = c :: d :: rest ∧ c ∈ hexChars ∧ d ∈ hexChars := by
  have hlength := h.length_eq
  match digits with
  | [] => simp at hlength
  | [c] => simp at hlength
  | c :: d :: rest =>
      exact ⟨c, d, rest, rfl, mem_hexChars_of_isHex h (by simp), mem_hexChars_of_isHex h (by simp)⟩

-- A numeral has no mark, and nothing stands in the way of looking for one.
theorem unmarked_of_isHex (tail : List Char) : Unmarked (digits ++ tail) (digits ++ tail) := by
  obtain ⟨c, d, rest, hdigits, -, hd⟩ := exists_cons_of_isHex h
  rw [hdigits]
  refine .bare _ ?_ ?_
  · intro other heq
    cases heq
    exact absurd hd (by decide)
  · intro other heq
    cases heq
    exact absurd hd (by decide)

theorem cutsAtTwo_of_isHex (tail : List Char) : CutsAtTwo (digits ++ tail) := by
  obtain ⟨c, d, rest, hdigits, hc, hd⟩ := exists_cons_of_isHex h
  by_contra hsplit
  rw [← splitsCharacter_iff, hdigits, List.cons_append, List.cons_append, splitsCharacter,
    utf8Size_of_hex hc, utf8Size_of_hex hd] at hsplit
  exact absurd hsplit (by decide)

theorem isAddressLine_of_isHex {tail : List Char} {label : Option String}
    (htail : LabelPart tail label) : IsAddressLine (digits ++ tail) address label := by
  refine ⟨_, digits, tail, tail, unmarked_of_isHex h tail,
    ⟨rfl, fun c => mem_hexChars_of_isHex h, ?_⟩, ?_, h.spells, .inl rfl, htail⟩
  · intro c hc hhex
    cases htail with
    | missing => cases hc
    | word blanks label hblanks hlabel =>
        rw [List.head?_append_of_ne_nil _ hblanks.1] at hc
        exact not_isBlank_of_hex hhex (hblanks.2 c (List.mem_of_head? hc))
  · obtain ⟨c, d, rest, hdigits, -⟩ := exists_cons_of_isHex h
    simp [hdigits]

theorem solid_of_isHex {tail : List Char} {label : Option String}
    (htail : LabelPart tail label) : Solid (digits ++ tail) := by
  intro c hc
  cases htail with
  | missing =>
      rw [List.append_nil] at hc
      exact not_isBlank_of_hex (mem_hexChars_of_isHex h (List.mem_of_getLast? hc))
  | word blanks label hblanks hlabel =>
      rw [← List.append_assoc, List.getLast?_append_of_ne_nil _ hlabel.1] at hc
      exact not_isBlank_of_isLabelChar (hlabel.2 c (List.mem_of_getLast? hc))

-- A numeral, a label or nothing, and blanks are read as what they stand for.
theorem readAddressLine_of_isHex {tail blanks : List Char} {label : Option String}
    (htail : LabelPart tail label) (hblanks : ∀ c ∈ blanks, Text.isBlank c) :
    readAddressLine (digits ++ tail ++ blanks) = .ok (address, label) := by
  obtain ⟨c, d, rest, hdigits, hc, -⟩ := exists_cons_of_isHex h
  have hfirst : ∀ e, (digits ++ tail).head? = some e → ¬Text.isBlank e := by
    rw [hdigits]
    intro e he
    cases he
    exact not_isBlank_of_hex hc
  have htrim : Text.trim (digits ++ tail ++ blanks) = digits ++ tail :=
    Text.trim_append_blanks hfirst (solid_of_isHex h htail) (by simp [hdigits]) hblanks
  apply readAddressLine_of_isAddressLine
  · rw [htrim]
    exact cutsAtTwo_of_isHex h tail
  · rw [htrim]
    exact isAddressLine_of_isHex h htail

end Numerals

section Entries

variable {numeral : Address → String} {entry : CommentEntry}

theorem labelPart_of_writable (hentry : entry.Writable) :
    LabelPart (entry.label.elim [] (' ' :: ·.toList)) entry.label := by
  cases hlabel : entry.label with
  | none => exact .missing
  | some label =>
      obtain ⟨hne, hchars⟩ := hentry.label label hlabel
      have hblank : ∀ c ∈ [' '], Text.isBlank c := by
        simp only [List.mem_singleton, forall_eq]
        decide
      have hpart := LabelPart.word [' '] label.toList ⟨by simp, hblank⟩ ⟨by simpa using hne, hchars⟩
      rwa [String.ofList_toList] at hpart

-- What an address line holds before its comment: the digits, the label, and the blank that keeps the
-- comment off.
def heading (numeral : Address → String) (entry : CommentEntry) : List Char :=
  (numeral entry.address).toList ++ entry.label.elim [] (' ' :: ·.toList) ++
    entry.comment.beside.elim [] fun _ => [' ']

theorem toList_addressLine (numeral : Address → String) (entry : CommentEntry) :
    (entry.addressLine numeral).toList =
      heading numeral entry ++ entry.comment.beside.elim [] (·.toList) := by
  unfold CommentEntry.addressLine heading
  cases entry.label <;> cases entry.comment.beside <;> simp

section Numbered

variable (hnumeral : ∀ address, Text.IsHex 4 (numeral address).toList address.toNat)
  (hentry : entry.Writable)

include hnumeral hentry

-- No character of the heading ends it, or the line.
theorem ne_of_mem_heading {c : Char} (hc : c ∈ heading numeral entry) :
    c ≠ ';' ∧ c ≠ '\n' ∧ c ≠ '\r' := by
  have hchar : c ∈ hexChars ∨ c = ' ' ∨ isLabelChar c := by
    simp only [heading, List.mem_append] at hc
    rcases hc with (hdigit | hlabel) | hblank
    · exact .inl (mem_hexChars_of_isHex (hnumeral entry.address) hdigit)
    · cases hname : entry.label with
      | none => simp [hname] at hlabel
      | some label =>
          rw [hname, Option.elim_some, List.mem_cons] at hlabel
          exact .inr (hlabel.imp_right ((hentry.label label hname).2 c))
    · cases hbeside : entry.comment.beside with
      | none => simp [hbeside] at hblank
      | some text => exact .inr (.inl (by simpa [hbeside] using hblank))
  rcases hchar with hhex | rfl | hlabel
  · refine ⟨?_, ?_, ?_⟩ <;> rintro rfl <;> revert hhex <;> decide
  · decide
  · refine ⟨?_, ?_, ?_⟩ <;> rintro rfl <;> revert hlabel <;> decide +kernel

theorem readAddressLine_heading :
    readAddressLine (heading numeral entry) = .ok (entry.address, entry.label) := by
  apply readAddressLine_of_isHex (hnumeral entry.address) (labelPart_of_writable hentry)
  cases entry.comment.beside with
  | none => simp
  | some text =>
      simp only [Option.elim_some, List.mem_singleton, forall_eq]
      decide

theorem ofChars_addressLine :
    Line.ofChars (entry.addressLine numeral).toList =
      .address (heading numeral entry) entry.comment.beside := by
  obtain ⟨c, d, rest, htext, hc, -⟩ := exists_cons_of_isHex (hnumeral entry.address)
  obtain ⟨more, hmore⟩ : ∃ more, heading numeral entry = c :: more := by
    simp [heading, htext]
  have hblank := not_isBlank_of_hex hc
  rw [toList_addressLine, ofChars_append, if_neg]
  · simp [hmore, hblank]
  · rw [hmore]
    intro e he
    cases he
    exact hblank
  · exact fun e he => (ne_of_mem_heading hnumeral hentry he).1
  · exact fun text htext => (hentry.beside text htext).semicolon

-- The lines of an entry up to the empty one are read as that entry.
theorem readLines_entry (file : String) (number : Nat) :
    readLines file number {}
        ((entry.comment.before ++ entry.addressLine numeral :: entry.comment.after).map (·.toList)) =
      .ok [entry] := by
  have hafter := readLines_comments hentry.after file
  rw [List.map_append, List.map_cons, readLines_comments hentry.before,
    foldl_addLine, readLines_of_address (ofChars_addressLine hnumeral hentry),
    Draft.addAddress, readAddressLine_heading hnumeral hentry]
  dsimp only [Except.bind]
  rw [← List.append_nil (entry.comment.after.map _), hafter, foldl_addLine, readLines]
  simp [Draft.entries, Draft.comment]

theorem line_of_entry {line : String} (hline : line ∈ entry.lines numeral) :
    '\n' ∉ line.toList ∧ line.toList.getLast? ≠ some '\r' := by
  simp only [CommentEntry.lines, List.mem_append, List.mem_cons, List.not_mem_nil, or_false] at hline
  rcases hline with (hbefore | rfl | hafter) | rfl
  · exact ⟨(hentry.before line hbefore).feed, (hentry.before line hbefore).carriage⟩
  · have hheading := fun c => ne_of_mem_heading (c := c) hnumeral hentry
    rw [toList_addressLine]
    cases hbeside : entry.comment.beside with
    | none =>
        rw [Option.elim_none, List.append_nil]
        exact ⟨fun h => (hheading _ h).2.1 rfl,
          fun h => (hheading _ (List.mem_of_getLast? h)).2.2 rfl⟩
    | some text =>
        have htext := hentry.beside text hbeside
        have hne : text.toList ≠ [] := by
          intro hnil
          simpa [hnil] using htext.semicolon
        rw [Option.elim_some, List.mem_append, List.getLast?_append_of_ne_nil _ hne]
        exact ⟨fun h => h.elim (fun h => (hheading _ h).2.1 rfl) htext.feed, htext.carriage⟩
  · exact ⟨(hentry.after line hafter).feed, (hentry.after line hafter).carriage⟩
  · simp

end Numbered

theorem toList_writeComments (numeral : Address → String) (entries : List CommentEntry) :
    (writeComments numeral entries).toList =
      ((entries.flatMap (·.lines numeral)).map (·.toList)).flatMap (· ++ ['\n']) := by
  simp [writeComments, String.toList_join, List.flatMap_map]

-- Each empty line ends an entry, so that the next one is read from the start.
theorem readLines_entries (hnumeral : ∀ address, Text.IsHex 4 (numeral address).toList address.toNat)
    {entries : List CommentEntry} (hentries : ∀ entry ∈ entries, entry.Writable) (file : String)
    (number : Nat) :
    readLines file number {} ((entries.flatMap (·.lines numeral)).map (·.toList)) = .ok entries := by
  induction entries generalizing number with
  | nil => rfl
  | cons entry entries ih =>
      have hrest := ih fun other hother => hentries other (List.mem_cons_of_mem entry hother)
      have hentry := readLines_entry hnumeral (hentries entry List.mem_cons_self) file number
      rw [List.flatMap_cons, CommentEntry.lines, List.map_append, List.map_append, List.map_singleton,
        List.append_assoc, List.singleton_append, String.toList_empty,
        readLines_append_blank _ _ _ _ _ ofChars_nil, hentry, hrest]
      rfl

end Entries

end CommentFile

-- Entries that are written to a file are read from it again, all of them and in order.
theorem readCommentFile_writeComments (numeral : Address → String)
    (hnumeral : ∀ address : Address, Text.IsHex 4 (numeral address).toList address.toNat)
    (entries : List CommentEntry) (hentries : ∀ entry ∈ entries, entry.Writable) (file : String) :
    readCommentFile (writeComments numeral entries) file = .ok entries := by
  have hlines : Text.lines (writeComments numeral entries).toList =
      (entries.flatMap (·.lines numeral)).map (·.toList) := by
    rw [CommentFile.toList_writeComments]
    apply Text.lines_flatMap
    intro text htext
    obtain ⟨line, hline, rfl⟩ := List.mem_map.mp htext
    obtain ⟨entry, hentry, hline⟩ := List.mem_flatMap.mp hline
    exact CommentFile.line_of_entry hnumeral (hentries entry hentry) hline
  rw [readCommentFile, hlines]
  exact CommentFile.readLines_entries hnumeral hentries file 1

-- An entry with everything, a semicolon and a carriage return inside its comments, and a bare one.
theorem readCommentFile_writeComments_two_entries :
    let first : CommentEntry := ⟨0xAB, some "ä_1.x", ⟨["; one", ";"], some ";; a\r b", [";c"]⟩⟩
    let second : CommentEntry := ⟨0x8000, none, {}⟩
    writeComments Text.hex4 [first, second] =
        "; one\n;\n00AB ä_1.x ;; a\r b\n;c\n\n8000\n\n" ∧
      readCommentFile (writeComments Text.hex4 [first, second]) "c.txt" = .ok [first, second] := by
  intro first second
  refine ⟨by decide +kernel, ?_⟩
  apply readCommentFile_writeComments Text.hex4 Text.isHex_hex4
  have hlabel : "ä_1.x".toList.all CommentFile.isLabelChar := by decide +kernel
  have hfirst : first.Writable := by
    constructor
    · simp only [first, List.forall_mem_cons, List.not_mem_nil, false_implies, implies_true, and_true]
      exact ⟨⟨by decide, by decide, by decide⟩, ⟨by decide, by decide, by decide⟩⟩
    · rintro text ⟨⟩
      exact ⟨by decide, by decide, by decide⟩
    · simp only [first, List.forall_mem_cons, List.not_mem_nil, false_implies, implies_true, and_true]
      exact ⟨by decide, by decide, by decide⟩
    · rintro label ⟨⟩
      exact ⟨by decide, List.all_eq_true.mp hlabel⟩
  have hsecond : second.Writable := by
    constructor <;> simp [second]
  simp only [List.forall_mem_cons, List.not_mem_nil, false_implies, implies_true, and_true]
  exact ⟨hfirst, hsecond⟩

end Z80Atlas
