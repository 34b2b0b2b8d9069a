import Z80Atlas.Comment.File
import Z80Atlas.Proofs.Text.Reading

namespace Z80Atlas

-- The same error in a file where `count` more lines stand before it.
def CommentFileError.later (count : Nat) : CommentFileError → CommentFileError
  | .fault cause =>
    .fault { cause with
      location := cause.location.map fun place => { place with line := place.line + count } }
  | .splitCharacter => .splitCharacter

namespace CommentFile

section Lines

variable {file : String} {number : Nat} {draft : Draft} {line : List Char} {rest : List (List Char)}

theorem readLines_of_blank (h : Line.ofChars line = .blank) :
    readLines file number draft (line :: rest) =
      (readLines file (number + 1) {} rest).map (draft.entries ++ ·) := by
  rw [readLines, h]

theorem readLines_of_comment {text : String} (h : Line.ofChars line = .comment text) :
    readLines file number draft (line :: rest) =
      readLines file (number + 1) (draft.addLine text) rest := by
  rw [readLines, h]

theorem readLines_of_address {text : List Char} {comment : Option String}
    (h : Line.ofChars line = .address text comment) :
    readLines file number draft (line :: rest) =
      (draft.addAddress file number (String.ofList line) text comment).bind
        fun draft => readLines file (number + 1) draft rest := by
  rw [readLines, h]
  rfl

end Lines

theorem ofChars_nil : Line.ofChars [] = .blank := rfl

-- Where lines count from does not matter but for the numbers in faults.
theorem addAddress_later (draft : Draft) (file : String) (number count : Nat) (line : String)
    (text : List Char) (comment : Option String) :
    draft.addAddress file (number + count) line text comment =
      (draft.addAddress file number line text comment).mapError (·.later count) := by
  unfold Draft.addAddress
  cases draft.place with
  | some place => rfl
  | none =>
      cases readAddressLine text with
      | ok place => rfl
      | error error => cases error <;> rfl

theorem readLines_later (file : String) (number count : Nat) (draft : Draft)
    (lines : List (List Char)) :
    readLines file (number + count) draft lines =
      (readLines file number draft lines).mapError (·.later count) := by
  induction lines generalizing number draft with
  | nil => rfl
  | cons line rest ih =>
      have hnext : number + count + 1 = number + 1 + count := by omega
      cases hline : Line.ofChars line with
      | blank =>
          rw [readLines_of_blank hline, readLines_of_blank hline, hnext, ih]
          cases readLines file (number + 1) {} rest <;> rfl
      | comment text =>
          rw [readLines_of_comment hline, readLines_of_comment hline, hnext, ih]
      | address text comment =>
          rw [readLines_of_address hline, readLines_of_address hline, hnext, addAddress_later]
          cases draft.addAddress file number (String.ofList line) text comment with
          | error error => rfl
          | ok draft => exact ih (number + 1) draft

-- A blank line ends what came before it: nothing is carried over.
theorem readLines_append_blank (file : String) (number : Nat) (draft : Draft)
    (front rest : List (List Char)) {line : List Char} (hline : Line.ofChars line = .blank) :
    readLines file number draft (front ++ line :: rest) =
      (readLines file number draft front).bind fun entries =>
        (readLines file (number + front.length + 1) {} rest).map (entries ++ ·) := by
  induction front generalizing number draft with
  | nil => exact readLines_of_blank hline
  | cons first front ih =>
      have hnext : number + (first :: front).length = number + 1 + front.length := by
        rw [List.length_cons]
        omega
      rw [List.cons_append, hnext]
      cases hfirst : Line.ofChars first with
      | blank =>
          rw [readLines_of_blank hfirst, readLines_of_blank hfirst, ih]
          cases readLines file (number + 1) {} front with
          | error error => rfl
          | ok entries =>
              cases readLines file (number + 1 + front.length + 1) {} rest with
              | error error => rfl
              | ok more => simp [Except.bind, Except.map]
      | comment text => rw [readLines_of_comment hfirst, readLines_of_comment hfirst, ih]
      | address text comment =>
          rw [readLines_of_address hfirst, readLines_of_address hfirst]
          cases draft.addAddress file number (String.ofList first) text comment with
          | error error => rfl
          | ok draft => exact ih (number + 1) draft

-- More blank lines change nothing but the numbers of lines.
theorem readLines_replicate_blank (file : String) (number count : Nat) (rest : List (List Char)) :
    readLines file number {} (List.replicate count [] ++ rest) =
      readLines file (number + count) {} rest := by
  induction count generalizing number with
  | zero => rfl
  | succ count ih =>
      rw [List.replicate_succ, List.cons_append, readLines_of_blank ofChars_nil, ih,
        show number + 1 + count = number + (count + 1) by omega]
      cases readLines file (number + (count + 1)) {} rest <;> rfl

-- A fault names the line that it was found in.
theorem addAddress_located {draft : Draft} {file : String} {number : Nat} {line : String}
    {text : List Char} {comment : Option String} {cause : Fault}
    (h : draft.addAddress file number line text comment = .error (.fault cause)) :
    cause.location = some ⟨file, number, line⟩ := by
  unfold Draft.addAddress at h
  split at h
  · cases h
    rfl
  · split at h <;> cases h <;> rfl

theorem readLines_located {file : String} {number : Nat} {draft : Draft} {lines : List (List Char)}
    {cause : Fault} (h : readLines file number draft lines = .error (.fault cause)) :
    ∃ i line, lines[i]? = some line ∧
      cause.location = some ⟨file, number + i, String.ofList line⟩ := by
  induction lines generalizing number draft with
  | nil => cases h
  | cons line rest ih =>
      -- a fault further down, found by the induction hypothesis
      have hbelow : ∀ draft, readLines file (number + 1) draft rest = .error (.fault cause) →
          ∃ i found, (line :: rest)[i]? = some found ∧
            cause.location = some ⟨file, number + i, String.ofList found⟩ := by
        intro draft hrest
        obtain ⟨i, found, hfound, hplace⟩ := ih hrest
        exact ⟨i + 1, found, hfound, by rw [hplace, Nat.add_assoc, Nat.add_comm 1 i]⟩
      cases hline : Line.ofChars line with
      | blank =>
          rw [readLines_of_blank hline] at h
          cases hrest : readLines file (number + 1) {} rest with
          | ok entries =>
              rw [hrest] at h
              cases h
          | error error =>
              rw [hrest] at h
              cases h
              exact hbelow {} hrest
      | comment text =>
          rw [readLines_of_comment hline] at h
          exact hbelow _ h
      | address text comment =>
          rw [readLines_of_address hline] at h
          cases hadd : draft.addAddress file number (String.ofList line) text comment with
          | ok next =>
              rw [hadd] at h
              exact hbelow next h
          | error error =>
              rw [hadd] at h
              cases h
              exact ⟨0, line, rfl, addAddress_located hadd⟩

section Remarks

def IsRemark (line : List Char) : Prop := ∀ c ∈ line.takeWhile (· != ';'), Text.isBlank c

theorem ofChars_of_isRemark {line : List Char} (h : IsRemark line) :
    Line.ofChars line = .blank ∨ ∃ text, Line.ofChars line = .comment text := by
  have hblanks : ∀ c ∈ line.takeWhile Text.isBlank, (c != ';') = true := by
    intro c hc
    have hblank := List.all_eq_true.mp List.all_takeWhile c hc
    rw [bne_iff_ne]
    rintro rfl
    exact absurd hblank (by decide)
  have hall : ((Text.trimStart line).takeWhile (· != ';')).all Text.isBlank := by
    rw [List.all_eq_true]
    intro c hc
    apply h c
    rw [← List.takeWhile_append_dropWhile (p := Text.isBlank) (l := line),
      List.takeWhile_append_of_pos hblanks]
    exact List.mem_append_right _ hc
  unfold Line.ofChars
  dsimp only
  rw [if_pos hall]
  split
  · exact .inl rfl
  · next text _ => exact .inr ⟨text, rfl⟩

-- Comment lines without an address line are read as nothing.
theorem readLines_of_remarks {lines : List (List Char)} (h : ∀ line ∈ lines, IsRemark line)
    (file : String) (number : Nat) {draft : Draft} (hplace : draft.place = none) :
    readLines file number draft lines = .ok [] := by
  have hentries : ∀ draft : Draft, draft.place = none → draft.entries = [] := by
    intro draft hplace
    rw [Draft.entries, hplace]
  induction lines generalizing number draft with
  | nil => rw [readLines, hentries draft hplace]
  | cons line rest ih =>
      have hrest : ∀ other ∈ rest, IsRemark other := fun other hother =>
        h other (List.mem_cons_of_mem line hother)
      rcases ofChars_of_isRemark (h line List.mem_cons_self) with hline | ⟨text, hline⟩
      · rw [readLines_of_blank hline, ih hrest _ rfl, hentries draft hplace]
        rfl
      · rw [readLines_of_comment hline]
        apply ih hrest
        simp [Draft.addLine, hplace]

end Remarks

-- Two texts with a blank line between them are read one after the other.
theorem readCommentFile_append {first second : String} (h : first.toList.getLast? ≠ some '\r')
    (file : String) :
    readCommentFile (first ++ "\n\n" ++ second) file =
      (readCommentFile first file).bind fun entries =>
        ((readCommentFile second file).mapError (·.later (first.toList.count '\n' + 2))).map
          (entries ++ ·) := by
  obtain ⟨count, hlines, hcount⟩ := Text.lines_append_feeds first.toList second.toList h
  have htext : (first ++ "\n\n" ++ second).toList =
      first.toList ++ '\n' :: '\n' :: second.toList := by
    simp
  have hnumber : 1 + (Text.lines first.toList).length + 1 + count =
      1 + (first.toList.count '\n' + 2) := by
    omega
  rw [readCommentFile, htext, hlines, readLines_append_blank _ _ _ _ _ ofChars_nil,
    readLines_replicate_blank, hnumber, readLines_later]
  rfl

end CommentFile

-- Comment files can be put together with a blank line between them: each part is read as it would be
-- alone, and a fault in the second part moves with its line. So comment lines without an address line
-- of their own belong to no entry of another part.
theorem readCommentFile_composes (file : String) :
    (∀ first second : String, first.toList.getLast? ≠ some '\r' →
      let joined := readCommentFile (first ++ "\n\n" ++ second) file
      (∀ entries, readCommentFile first file = .ok entries →
        (∀ more, readCommentFile second file = .ok more → joined = .ok (entries ++ more)) ∧
        ∀ error, readCommentFile second file = .error error →
          joined = .error (error.later (first.toList.count '\n' + 2))) ∧
      (∀ error, readCommentFile first file = .error error → joined = .error error) ∧
      ((∀ line ∈ Text.lines first.toList, CommentFile.IsRemark line) →
        ∀ more, readCommentFile second file = .ok more → joined = .ok more) ∧
      ((∀ line ∈ Text.lines second.toList, CommentFile.IsRemark line) →
        joined = readCommentFile first file)) ∧
    ∀ text cause, readCommentFile text file = .error (.fault cause) →
      ∃ i line, (Text.lines text.toList)[i]? = some line ∧
        cause.location = some ⟨file, i + 1, String.ofList line⟩ := by
  have hremarks : ∀ text : String, (∀ line ∈ Text.lines text.toList, CommentFile.IsRemark line) →
      readCommentFile text file = .ok [] := fun text h =>
    CommentFile.readLines_of_remarks h file 1 rfl
  refine ⟨?_, ?_⟩
  · intro first second hreturn joined
    have hjoined : joined = _ := CommentFile.readCommentFile_append hreturn file
    refine ⟨?_, ?_, ?_, ?_⟩
    · intro entries hfirst
      rw [hfirst] at hjoined
      refine ⟨?_, ?_⟩
      · intro more hsecond
        rw [hjoined, hsecond]
        rfl
      · intro error hsecond
        rw [hjoined, hsecond]
        rfl
    · intro error hfirst
      rw [hjoined, hfirst]
      rfl
    · intro hlines more hsecond
      rw [hjoined, hremarks first hlines, hsecond]
      rfl
    · intro hlines
      rw [hjoined, hremarks second hlines]
      cases readCommentFile first file with
      | error error => rfl
      | ok entries => simp [Except.bind, Except.map, Except.mapError]
  · intro text cause h
    obtain ⟨i, line, hline, hplace⟩ := CommentFile.readLines_located h
    exact ⟨i, line, hline, by rw [hplace, Nat.add_comm]⟩

-- A remark that belongs to nothing, an entry, and a line with two words for a label.
theorem readCommentFile_composes_stray_remark :
    readCommentFile ("; stray" ++ "\n\n" ++ "8000 MAIN ; start\n; end") "c.txt" =
        .ok [⟨0x8000, some "MAIN", ⟨[], some "; start", ["; end"]⟩⟩] ∧
      readCommentFile ("8000 MAIN ; start\n; end" ++ "\n\n" ++ "; next\n9000 A B") "c.txt" =
        .error (.fault ⟨.unexpectedLine, "Unexpected line: \"9000 A B\"",
          some ⟨"c.txt", 5, "9000 A B"⟩, none⟩) := by
  have hentry : readCommentFile "8000 MAIN ; start\n; end" "c.txt" =
      .ok [⟨0x8000, some "MAIN", ⟨[], some "; start", ["; end"]⟩⟩] := by decide +kernel
  have hfault : readCommentFile "; next\n9000 A B" "c.txt" =
      .error (.fault ⟨.unexpectedLine, "Unexpected line: \"9000 A B\"",
        some ⟨"c.txt", 2, "9000 A B"⟩, none⟩) := by decide +kernel
  have hstray : ∀ line ∈ Text.lines "; stray".toList, CommentFile.IsRemark line := by
    simp [CommentFile.IsRemark, Text.lines, Text.linesFrom]
  have hcount : "8000 MAIN ; start\n; end".toList.count '\n' = 1 := by decide
  obtain ⟨hjoin, -⟩ := readCommentFile_composes "c.txt"
  refine ⟨?_, ?_⟩
  · exact (hjoin "; stray" _ (by decide)).2.2.1 hstray _ hentry
  · have hmoved := ((hjoin "8000 MAIN ; start\n; end" _ (by decide)).1 _ hentry).2 _ hfault
    rw [hcount] at hmoved
    exact hmoved

end Z80Atlas
