import Z80Atlas.Proofs.Text.Spelling
import Z80Atlas.Text.Alphanumeric
import Z80Atlas.Text.Blank
import Z80Atlas.Text.Lines

namespace Z80Atlas.Text

section Runs

variable {p : Char → Bool} {run rest text : List Char}

-- A run ends where the text does not go on with it.
theorem takeWhile_run (hrun : ∀ c ∈ run, p c) (hstop : ∀ c, rest.head? = some c → ¬p c) :
    (run ++ rest).takeWhile p = run := by
  rw [List.takeWhile_append_of_pos hrun]
  cases rest with
  | nil => simp
  | cons c rest => simp [hstop c rfl]

theorem dropWhile_run (hrun : ∀ c ∈ run, p c) (hstop : ∀ c, rest.head? = some c → ¬p c) :
    (run ++ rest).dropWhile p = rest := by
  rw [List.dropWhile_append_of_pos hrun]
  cases rest with
  | nil => rfl
  | cons c rest => simp [hstop c rfl]

theorem not_of_head?_dropWhile {c : Char} (h : (text.dropWhile p).head? = some c) : ¬p c := by
  have hnot := List.head?_dropWhile_not p text
  rw [h] at hnot
  simpa using hnot

end Runs

section Blanks

variable {text : List Char}

theorem trimStart_eq_self (h : ∀ c, text.head? = some c → ¬isBlank c) : trimStart text = text := by
  have hrun : ∀ c ∈ ([] : List Char), isBlank c := by simp
  exact dropWhile_run hrun h

theorem trimEnd_eq_self (h : ∀ c, text.getLast? = some c → ¬isBlank c) : trimEnd text = text := by
  have hreverse : text.reverse.dropWhile isBlank = text.reverse := by
    apply trimStart_eq_self
    simpa using h
  rw [trimEnd, hreverse, List.reverse_reverse]

theorem not_isBlank_of_getLast?_trim {c : Char} (h : (trim text).getLast? = some c) : ¬isBlank c := by
  rw [trim, trimEnd, List.getLast?_reverse] at h
  exact not_of_head?_dropWhile h

-- Blanks behind a text go away, and blanks inside stay.
theorem trim_append_blanks {blanks : List Char} (hfirst : ∀ c, text.head? = some c → ¬isBlank c)
    (hlast : ∀ c, text.getLast? = some c → ¬isBlank c) (hne : text ≠ [])
    (hblanks : ∀ c ∈ blanks, isBlank c) : trim (text ++ blanks) = text := by
  have hstart : trimStart (text ++ blanks) = text ++ blanks := by
    apply trimStart_eq_self
    rwa [List.head?_append_of_ne_nil _ hne]
  have hend : (text ++ blanks).reverse.dropWhile isBlank = text.reverse := by
    rw [List.reverse_append]
    apply dropWhile_run
    · simpa using hblanks
    · simpa using hlast
  rw [trim, hstart, trimEnd, hend, List.reverse_reverse]

-- No range of one list meets a range of the other.
def rangesApart (ranges others : List (Nat × Nat)) : Bool :=
  ranges.all fun range => others.all fun other => range.2.blt other.1 || other.2.blt range.1

theorem not_inRanges_of_apart {ranges others : List (Nat × Nat)} (h : rangesApart ranges others)
    {c : Char} (hc : inRanges ranges c) : ¬inRanges others c := by
  simp only [rangesApart, List.all_eq_true, Bool.or_eq_true, Nat.blt_eq] at h
  simp only [inRanges, List.any_eq_true, Bool.and_eq_true, decide_eq_true_eq] at hc ⊢
  obtain ⟨range, hrange, hlow, hhigh⟩ := hc
  rintro ⟨other, hother, hlow', hhigh'⟩
  have hapart := h range hrange other hother
  omega

theorem not_isBlank_of_isAlphanumeric {c : Char} (h : isAlphanumeric c) : ¬isBlank c :=
  not_inRanges_of_apart (by decide +kernel) h

end Blanks

section Lines

theorem dropReturn_eq_self {line : List Char} (h : line.getLast? ≠ some '\r') :
    dropReturn line = line := by
  unfold dropReturn
  split
  · next hreturn => exact absurd hreturn h
  · rfl

-- A feed behind a text ends its last line, or makes up an empty one if the text had ended its own.
theorem linesFrom_append_feed (line text rest : List Char)
    (h : (line.reverse ++ text).getLast? ≠ some '\r') :
    ∃ count, linesFrom line (text ++ '\n' :: rest) =
        linesFrom line text ++ (List.replicate count [] ++ lines rest) ∧
      (linesFrom line text).length + count = text.count '\n' + 1 := by
  induction text generalizing line with
  | nil =>
      rw [List.append_nil] at h
      rw [List.nil_append, linesFrom, linesFrom, dropReturn_eq_self h]
      by_cases hempty : line = []
      · exact ⟨1, by simp [hempty, lines], by simp [hempty]⟩
      · exact ⟨0, by simp [hempty, lines], by simp [hempty]⟩
  | cons c text ih =>
      by_cases hc : c = '\n'
      · subst hc
        have hlast : ([].reverse ++ text).getLast? ≠ some '\r' := by
          cases text with
          | nil => simp
          | cons d text => simpa using h
        obtain ⟨count, hlines, hcount⟩ := ih [] hlast
        refine ⟨count, ?_, ?_⟩
        · rw [List.cons_append, linesFrom, linesFrom, hlines, List.cons_append]
        · rw [linesFrom, List.length_cons, List.count_cons_self]
          omega
      · obtain ⟨count, hlines, hcount⟩ := ih (c :: line) (by simpa using h)
        refine ⟨count, ?_, ?_⟩
        · rw [List.cons_append, linesFrom, linesFrom, hlines] <;> exact hc
        · rw [linesFrom, List.count_cons_of_ne hc, hcount]
          exact hc

-- Two feeds between texts stand for at least one empty line.
theorem lines_append_feeds (text rest : List Char) (h : text.getLast? ≠ some '\r') :
    ∃ count, lines (text ++ '\n' :: '\n' :: rest) =
        lines text ++ ([] :: (List.replicate count [] ++ lines rest)) ∧
      (lines text).length + (count + 1) = text.count '\n' + 2 := by
  obtain ⟨count, hlines, hcount⟩ := linesFrom_append_feed [] text ('\n' :: rest) h
  have hempty : List.replicate count [] ++ lines ('\n' :: rest) =
      [] :: (List.replicate count [] ++ lines rest) := by
    have hlast : lines ('\n' :: rest) = [] :: lines rest := rfl
    rw [hlast, List.append_cons, ← List.replicate_succ', List.replicate_succ, List.cons_append]
  rw [← lines, ← lines, hempty] at hlines
  rw [← lines] at hcount
  exact ⟨count, hlines, by omega⟩

theorem linesFrom_of_not_mem {text : List Char} (h : '\n' ∉ text) (line rest : List Char) :
    linesFrom line (text ++ rest) = linesFrom (text.reverse ++ line) rest := by
  induction text generalizing line with
  | nil => rfl
  | cons c text ih =>
      rw [List.mem_cons, not_or] at h
      rw [List.cons_append, linesFrom, ih h.2]
      · simp
      · exact Ne.symm h.1

-- Lines that are written are read.
theorem lines_flatMap {texts : List (List Char)}
    (h : ∀ text ∈ texts, '\n' ∉ text ∧ text.getLast? ≠ some '\r') :
    lines (texts.flatMap (· ++ ['\n'])) = texts := by
  induction texts with
  | nil => rfl
  | cons text texts ih =>
      obtain ⟨hfeed, hreturn⟩ := h text List.mem_cons_self
      have hrest := ih fun other hother => h other (List.mem_cons_of_mem text hother)
      rw [List.flatMap_cons, List.append_assoc, List.singleton_append, lines,
        linesFrom_of_not_mem hfeed, List.append_nil, linesFrom, List.reverse_reverse,
        dropReturn_eq_self hreturn, ← lines, hrest]

end Lines

end Z80Atlas.Text
