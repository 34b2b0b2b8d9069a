import Mathlib.Data.Set.Function
import Z80Atlas.Report.Dot

namespace Z80Atlas.Report

def dotSpelling : Char → List Char
  | '\\' => ['\\', '\\']
  | '"' => ['\\', '"']
  | '\n' => ['\\', 'n']
  | '\r' => []
  | '<' => ['\\', '<']
  | '>' => ['\\', '>']
  | c => [c]

section Substitution

-- Replacements one after another act on each character alone.
theorem foldl_replaceChar (replacements : List (Char × List Char)) (text : List Char) :
    replacements.foldl (fun text r => Text.replaceChar r.1 r.2 text) text =
      text.flatMap fun c =>
        replacements.foldl (fun text r => Text.replaceChar r.1 r.2 text) [c] := by
  induction replacements generalizing text with
  | nil => simp
  | cons first replacements ih =>
      simp only [List.foldl_cons]
      rw [ih, Text.replaceChar, List.flatMap_assoc]
      congr 1
      funext c
      rw [ih (Text.replaceChar first.1 first.2 [c]), Text.replaceChar, List.flatMap_singleton]

-- No replacement puts in a character that a later one looks for.
theorem escapeDotChars_singleton (c : Char) : escapeDotChars [c] = dotSpelling c := by
  unfold dotSpelling
  split
  all_goals simp_all [escapeDotChars, dotEscapes, Text.replaceChar]

theorem escapeDotChars_eq (text : List Char) :
    escapeDotChars text = text.flatMap dotSpelling := by
  have heach : escapeDotChars text = text.flatMap fun c => escapeDotChars [c] :=
    foldl_replaceChar dotEscapes text
  simpa only [escapeDotChars_singleton] using heach

theorem toList_escapeDot (text : String) :
    (escapeDot text).toList = text.toList.flatMap dotSpelling := by
  rw [escapeDot, String.toList_ofList, escapeDotChars_eq]

theorem escapeDot_append (s t : String) : escapeDot (s ++ t) = escapeDot s ++ escapeDot t := by
  rw [← String.toList_inj, String.toList_append]
  simp only [toList_escapeDot, String.toList_append, List.flatMap_append]

end Substitution

def pairMeaning (c : Char) : Char := if c = 'n' then '\n' else c

-- A character is left out, escaped by a pair that stands for it, or harmless and written as it is.
theorem dotSpelling_cases (c : Char) :
    (c = '\r' ∧ dotSpelling c = []) ∨
    (c ≠ '\r' ∧ ∃ d ∉ ['\n', '\r'], pairMeaning d = c ∧ dotSpelling c = ['\\', d]) ∨
    (c ∉ ['\\', '"', '\n', '\r'] ∧ dotSpelling c = [c]) := by
  unfold dotSpelling
  split
  · exact .inr (.inl ⟨by decide, '\\', by simp, rfl, rfl⟩)
  · exact .inr (.inl ⟨by decide, '"', by simp, rfl, rfl⟩)
  · exact .inr (.inl ⟨by decide, 'n', by simp, rfl, rfl⟩)
  · exact .inl ⟨rfl, rfl⟩
  · exact .inr (.inl ⟨by decide, '<', by simp, rfl, rfl⟩)
  · exact .inr (.inl ⟨by decide, '>', by simp, rfl, rfl⟩)
  · next hslash hquote hfeed hreturn _ _ =>
    refine .inr (.inr ⟨?_, rfl⟩)
    simp only [List.mem_cons, List.not_mem_nil, or_false, not_or]
    exact ⟨hslash, hquote, hfeed, hreturn⟩

-- What can stand inside quotes: single characters without a meaning of their own, and pairs of a
-- backslash and any character, all of it on one line.
inductive Quotable : List Char → Prop
  | nil : Quotable []
  | plain {c : Char} {rest : List Char} (hc : c ∉ ['\\', '"', '\n', '\r']) (hrest : Quotable rest) :
      Quotable (c :: rest)
  | pair {c : Char} {rest : List Char} (hc : c ∉ ['\n', '\r']) (hrest : Quotable rest) :
      Quotable ('\\' :: c :: rest)

theorem quotable_flatMap (text : List Char) : Quotable (text.flatMap dotSpelling) := by
  induction text with
  | nil => exact .nil
  | cons c text ih =>
      rw [List.flatMap_cons]
      rcases dotSpelling_cases c with ⟨-, hnone⟩ | ⟨-, d, hd, -, hpair⟩ | ⟨hc, hplain⟩
      · rw [hnone]
        exact ih
      · rw [hpair]
        exact .pair hd ih
      · rw [hplain]
        exact .plain hc ih

theorem Quotable.single_line {text : List Char} (h : Quotable text) :
    '\n' ∉ text ∧ '\r' ∉ text := by
  induction h with
  | nil => simp
  | plain hc _ ih =>
      simp only [List.mem_cons, List.not_mem_nil, or_false, not_or] at hc ih ⊢
      exact ⟨⟨Ne.symm hc.2.2.1, ih.1⟩, Ne.symm hc.2.2.2, ih.2⟩
  | pair hc _ ih =>
      simp only [List.mem_cons, List.not_mem_nil, or_false, not_or] at hc ih ⊢
      exact ⟨⟨by decide, Ne.symm hc.1, ih.1⟩, by decide, Ne.symm hc.2, ih.2⟩

def lastBackslashes (text : List Char) : Nat := (text.reverse.takeWhile (· = '\\')).length

section Backslashes

variable {text front back : List Char} {c : Char}

-- Only what stands behind another character counts.
theorem lastBackslashes_append_cons (hc : c ≠ '\\') (before text : List Char) :
    lastBackslashes (before ++ c :: text) = lastBackslashes text := by
  rw [lastBackslashes, List.reverse_append, List.reverse_cons, List.append_assoc,
    List.takeWhile_append]
  split
  · next hall => simp [hc, lastBackslashes, hall]
  · rfl

-- Two backslashes in front are both counted or not at all.
theorem lastBackslashes_cons_cons_mod (text : List Char) :
    lastBackslashes ('\\' :: '\\' :: text) % 2 = lastBackslashes text % 2 := by
  rw [lastBackslashes, List.reverse_cons, List.reverse_cons, List.append_assoc,
    List.takeWhile_append]
  split
  · next hall => simp [lastBackslashes, hall]
  · rfl

-- A quote is the second part of a pair, and in front of the pair stand backslashes in pairs.
theorem Quotable.odd_lastBackslashes (h : Quotable text) (hquote : text = front ++ '"' :: back) :
    lastBackslashes front % 2 = 1 := by
  induction h generalizing front with
  | nil => simp at hquote
  | @plain c rest hc _ ih =>
      simp only [List.mem_cons, List.not_mem_nil, or_false, not_or] at hc
      rcases List.cons_eq_append_iff.mp hquote with ⟨rfl, hhead⟩ | ⟨front, rfl, hrest⟩
      · cases hhead
        exact absurd rfl hc.2.1
      · have hstop := lastBackslashes_append_cons hc.1 [] front
        rw [List.nil_append] at hstop
        rw [hstop]
        exact ih hrest
  | @pair c rest hc _ ih =>
      rcases List.cons_eq_append_iff.mp hquote with ⟨rfl, hhead⟩ | ⟨front, rfl, hsecond⟩
      · cases hhead
      · rcases List.cons_eq_append_iff.mp hsecond with ⟨rfl, hhead⟩ | ⟨front, rfl, hrest⟩
        · rfl
        · by_cases hslash : c = '\\'
          · rw [hslash, lastBackslashes_cons_cons_mod]
            exact ih hrest
          · have hstop := lastBackslashes_append_cons hslash ['\\'] front
            rw [List.singleton_append] at hstop
            rw [hstop]
            exact ih hrest

end Backslashes

-- Read a text up to the quote that ends it. A backslash takes the next character with it, so that a
-- quote behind it ends nothing. The second component is what follows the text.
def unquote? : List Char → Option (List Char × List Char)
  | [] => none
  | '"' :: rest => some ([], rest)
  | '\\' :: c :: rest => (unquote? rest).map (Prod.map (pairMeaning c :: ·) id)
  | c :: rest => (unquote? rest).map (Prod.map (c :: ·) id)

section Reading

variable {c : Char} {text rest : List Char}

theorem unquote?_plain (hc : c ∉ ['\\', '"', '\n', '\r']) :
    unquote? (c :: rest) = (unquote? rest).map (Prod.map (c :: ·) id) := by
  simp only [List.mem_cons, List.not_mem_nil, or_false, not_or] at hc
  rw [unquote?.eq_4]
  · exact hc.2.1
  · intro _ _ hslash
    exact absurd hslash hc.1

-- The reader comes to the end of an escaped text and no further, with the text in its hands.
theorem unquote?_flatMap (text rest : List Char) :
    unquote? (text.flatMap dotSpelling ++ '"' :: rest) = some (text.filter (· ≠ '\r'), rest) := by
  induction text with
  | nil => rfl
  | cons c text ih =>
      rw [List.flatMap_cons, List.append_assoc]
      rcases dotSpelling_cases c with ⟨rfl, hnone⟩ | ⟨hne, d, -, hmeaning, hpair⟩ | ⟨hc, hplain⟩
      · rw [hnone, List.nil_append, ih]
        rfl
      · rw [hpair, List.cons_append, List.singleton_append, unquote?, ih, hmeaning,
          List.filter_cons_of_pos (by simpa using hne)]
        rfl
      · have hne : c ≠ '\r' := by
          rintro rfl
          simp at hc
        rw [hplain, List.singleton_append, unquote?_plain hc, ih,
          List.filter_cons_of_pos (by simpa using hne)]
        rfl

theorem unquote?_escapeDot (text : String) (rest : List Char) :
    unquote? ((escapeDot text).toList ++ '"' :: rest) =
      some (text.toList.filter (· ≠ '\r'), rest) := by
  rw [toList_escapeDot, unquote?_flatMap]

-- What can be read back was not confused with anything else.
theorem escapeDot_injOn : Set.InjOn escapeDot {text | '\r' ∉ text.toList} := by
  have hkeeps : ∀ text : String, '\r' ∉ text.toList →
      text.toList.filter (· ≠ '\r') = text.toList := by
    intro text htext
    rw [List.filter_eq_self]
    intro c hc
    simpa using ne_of_mem_of_not_mem hc htext
  intro s hs t ht heq
  have hread := unquote?_escapeDot s []
  rw [heq, unquote?_escapeDot, hkeeps s hs, hkeeps t ht] at hread
  simp only [Option.some.injEq, Prod.mk.injEq, and_true] at hread
  exact String.toList_inj.mp hread.symm

end Reading

-- Escaping replaces each character by its spelling, all at once. So it respects the joining of texts,
-- and but for carriage returns a text can be read back; an escaped text stays on one line, and no
-- quote in it ends the quotes around it.
theorem escapeDot_substitutes_at_once :
    (∀ text : String, escapeDot text = String.ofList (text.toList.flatMap dotSpelling)) ∧
    (escapeDot "" = "" ∧ ∀ s t : String, escapeDot (s ++ t) = escapeDot s ++ escapeDot t) ∧
    Set.InjOn escapeDot {text | '\r' ∉ text.toList} ∧
    ∀ text : String,
      '\n' ∉ (escapeDot text).toList ∧ '\r' ∉ (escapeDot text).toList ∧
      (∀ front back, (escapeDot text).toList = front ++ '"' :: back →
        lastBackslashes front % 2 = 1) ∧
      ∀ rest, unquote? ((escapeDot text).toList ++ '"' :: rest) =
        some (text.toList.filter (· ≠ '\r'), rest) := by
  refine ⟨?_, ⟨rfl, escapeDot_append⟩, escapeDot_injOn, ?_⟩
  · intro text
    rw [← toList_escapeDot, String.ofList_toList]
  · intro text
    have hquotable : Quotable (escapeDot text).toList := by
      rw [toList_escapeDot]
      exact quotable_flatMap text.toList
    exact ⟨hquotable.single_line.1, hquotable.single_line.2,
      fun front back hquote => hquotable.odd_lastBackslashes hquote, unquote?_escapeDot text⟩

end Z80Atlas.Report
