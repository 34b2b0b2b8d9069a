import Z80Atlas.Comment.File
import Z80Atlas.Proofs.Text.Numeral
import Z80Atlas.Proofs.Text.Reading

namespace Z80Atlas.CommentFile

section Grammar

def hexChars : List Char := "0123456789abcdefABCDEF".toList

-- What stands behind the hexadecimal mark, which is taken wherever it stands first.
inductive Unmarked : List Char → List Char → Prop
  | small (rest : List Char) : Unmarked ('0' :: 'x' :: rest) rest
  | capital (rest : List Char) : Unmarked ('0' :: 'X' :: rest) rest
  | bare (text : List Char) (hsmall : ∀ rest, text ≠ '0' :: 'x' :: rest)
      (hcapital : ∀ rest, text ≠ '0' :: 'X' :: rest) : Unmarked text text

structure HexRun (text digits rest : List Char) : Prop where
  text_eq : text = digits ++ rest
  hex : ∀ c ∈ digits, c ∈ hexChars
  longest : ∀ c, rest.head? = some c → c ∉ hexChars

inductive LabelPart : List Char → Option String → Prop
  | missing : LabelPart [] none
  | word (blanks label : List Char) (hblanks : blanks ≠ [] ∧ ∀ c ∈ blanks, Text.isBlank c)
      (hlabel : label ≠ [] ∧ ∀ c ∈ label, isLabelChar c) :
      LabelPart (blanks ++ label) (some (String.ofList label))

-- A line with an address: digits behind an optional mark, an optional colon, and a label or nothing.
def IsAddressLine (line : List Char) (address : Address) (label : Option String) : Prop :=
  ∃ body digits rest tail, Unmarked line body ∧ HexRun body digits rest ∧ digits ≠ [] ∧
    Text.Spells 16 digits address.toNat ∧ (rest = tail ∨ rest = ':' :: tail) ∧ LabelPart tail label

-- A line that has no digits where its address should stand, or digits of a number that is no address.
def LacksAddress (line : List Char) : Prop :=
  ∃ body digits rest, Unmarked line body ∧ HexRun body digits rest ∧
    (digits = [] ∨ ∃ value, Text.Spells 16 digits value ∧ 0xFFFF < value)

-- The first two bytes of the text can be cut off, or there are less.
def CutsAtTwo (line : List Char) : Prop :=
  (String.ofList line).utf8ByteSize < 2 ∨ String.Pos.Raw.IsValid (String.ofList line) ⟨2⟩

end Grammar

-- Two bytes are one character of two bytes, or two characters of one byte each.
theorem exists_two_bytes_iff (c d : Char) (rest : List Char) :
    (∃ i, 2 = String.utf8Len ((c :: d :: rest).take i)) ↔
      c.utf8Size = 2 ∨ (c.utf8Size = 1 ∧ d.utf8Size = 1) := by
  have hc := c.utf8Size_pos
  have hd := d.utf8Size_pos
  constructor
  · rintro ⟨i, hi⟩
    match i with
    | 0 => cases hi
    | 1 =>
        simp only [List.take_succ_cons, List.take_zero, String.utf8Len_cons, String.utf8Len_nil] at hi
        omega
    | i + 2 =>
        simp only [List.take_succ_cons, String.utf8Len_cons] at hi
        omega
  · rintro (htwo | ⟨hone, hother⟩)
    · exact ⟨1, by simp [htwo]⟩
    · exact ⟨2, by simp [hone, hother]⟩

theorem splitsCharacter_iff (line : List Char) : splitsCharacter line ↔ ¬CutsAtTwo line := by
  have hcuts : CutsAtTwo line ↔ String.utf8Len line < 2 ∨ ∃ i, 2 = String.utf8Len (line.take i) := by
    rw [CutsAtTwo, String.Pos.Raw.isValid_ofList, String.utf8ByteSize_ofList]
    simp only [String.utf8ByteSize_ofList]
  rw [hcuts]
  match line with
  | [] => simp [splitsCharacter]
  | [c] =>
      have hone : (∃ i, 2 = String.utf8Len ([c].take i)) ↔ c.utf8Size = 2 := by
        constructor
        · rintro ⟨_ | i, hi⟩
          · cases hi
          · simpa using hi.symm
        · exact fun h => ⟨1, by simp [h]⟩
      have hpos := c.utf8Size_pos
      simp only [hone, splitsCharacter, decide_eq_true_eq, String.utf8Len_cons, String.utf8Len_nil]
      omega
  | c :: d :: rest =>
      have hc := c.utf8Size_pos
      have hd := d.utf8Size_pos
      simp only [exists_two_bytes_iff, splitsCharacter, Bool.or_eq_true, Bool.and_eq_true,
        decide_eq_true_eq, beq_iff_eq, String.utf8Len_cons]
      omega

theorem not_splitsCharacter {line : List Char} (h : CutsAtTwo line) : ¬splitsCharacter line :=
  fun hsplit => (splitsCharacter_iff line).mp hsplit h

theorem unmarked_iff (text body : List Char) : Unmarked text body ↔ body = dropHexMark text := by
  constructor
  · rintro (_ | _ | ⟨_, hsmall, hcapital⟩)
    · rfl
    · rfl
    · unfold dropHexMark
      split
      · exact absurd rfl (hsmall _)
      · exact absurd rfl (hcapital _)
      · rfl
  · rintro rfl
    unfold dropHexMark
    split
    · exact .small _
    · exact .capital _
    · next hsmall hcapital => exact .bare _ hsmall hcapital

theorem toNat_lt_of_isHexDigit {c : Char} (h : isHexDigit c) : c.toNat < 128 := by
  simp only [isHexDigit, Text.digitValue?, Char.le_def, UInt32.le_iff_toNat_le] at h
  by_contra hlarge
  rw [if_neg, if_neg, if_neg] at h
  · cases h
  -- each kind of digit ends below 128
  all_goals
    rintro ⟨-, hle⟩
    exact hlarge (Nat.lt_of_le_of_lt hle (by decide))

theorem isHexDigit_iff (c : Char) : isHexDigit c ↔ c ∈ hexChars := by
  have hascii : ∀ n < 128, (isHexDigit (Char.ofNat n) ↔ Char.ofNat n ∈ hexChars) := by decide +kernel
  by_cases hc : c.toNat < 128
  · simpa using hascii c.toNat hc
  · refine ⟨fun h => absurd (toNat_lt_of_isHexDigit h) hc, fun h => absurd ?_ hc⟩
    have hall : hexChars.all (·.toNat < 128) := by decide
    simpa using List.all_eq_true.mp hall c h

theorem hexRun_iff (text digits rest : List Char) :
    HexRun text digits rest ↔ digits = text.takeWhile isHexDigit ∧ rest = text.dropWhile isHexDigit := by
  constructor
  · rintro ⟨rfl, hhex, hlongest⟩
    have hdigits : ∀ c ∈ digits, isHexDigit c := fun c hc => (isHexDigit_iff c).mpr (hhex c hc)
    have hstop : ∀ c, rest.head? = some c → ¬isHexDigit c := fun c hc h =>
      hlongest c hc ((isHexDigit_iff c).mp h)
    exact ⟨(Text.takeWhile_run hdigits hstop).symm, (Text.dropWhile_run hdigits hstop).symm⟩
  · rintro ⟨rfl, rfl⟩
    refine ⟨List.takeWhile_append_dropWhile.symm, ?_, ?_⟩
    · intro c hc
      exact (isHexDigit_iff c).mp (List.all_eq_true.mp List.all_takeWhile c hc)
    · intro c hc h
      exact Text.not_of_head?_dropWhile hc ((isHexDigit_iff c).mpr h)

def dropColon : List Char → List Char
  | ':' :: rest => rest
  | rest => rest

theorem not_isBlank_of_isLabelChar {c : Char} (h : isLabelChar c) : ¬Text.isBlank c := by
  simp only [isLabelChar, Bool.or_eq_true, beq_iff_eq] at h
  rcases h with (halphanumeric | rfl) | rfl
  · exact Text.not_isBlank_of_isAlphanumeric halphanumeric
  · decide
  · decide

def Solid (text : List Char) : Prop := ∀ c, text.getLast? = some c → ¬Text.isBlank c

theorem Solid.of_append {front tail : List Char} (h : Solid (front ++ tail)) : Solid tail := by
  intro c hc
  apply h c
  rw [List.getLast?_append, hc, Option.some_or]

theorem Solid.trim_eq {text : List Char} (h : Solid text) :
    Text.trim text = text.dropWhile Text.isBlank := by
  rw [← List.takeWhile_append_dropWhile (p := Text.isBlank) (l := text)] at h
  exact Text.trimEnd_eq_self h.of_append

theorem Solid.dropWhile_ne_nil {text : List Char} (h : Solid text) (hne : text ≠ []) :
    text.dropWhile Text.isBlank ≠ [] := by
  intro hnil
  have hblanks : text.takeWhile Text.isBlank = text := by
    simpa [hnil] using List.takeWhile_append_dropWhile (p := Text.isBlank) (l := text)
  have hall : ∀ c ∈ text, Text.isBlank c := by
    rw [← hblanks]
    exact List.all_eq_true.mp List.all_takeWhile
  have hlast := List.getLast?_eq_some_getLast hne
  exact h _ hlast (hall _ (List.mem_of_getLast? hlast))

section Labels

variable {tail : List Char} {label : Option String}

theorem readLabel_of_labelPart (h : LabelPart tail label) : readLabel tail = .ok label := by
  cases h with
  | missing => rfl
  | word blanks label hblanks hlabel =>
      obtain ⟨b, blanks, rfl⟩ := List.exists_cons_of_ne_nil hblanks.1
      have hsolid : ∀ c ∈ label, ¬Text.isBlank c := fun c hc => not_isBlank_of_isLabelChar (hlabel.2 c hc)
      have htrim : Text.trim (b :: blanks ++ label) = label := by
        rw [Text.trim, Text.trimStart, Text.dropWhile_run hblanks.2]
        · exact Text.trimEnd_eq_self fun c hc => hsolid c (List.mem_of_getLast? hc)
        · exact fun c hc => hsolid c (List.mem_of_head? hc)
      rw [List.cons_append] at htrim ⊢
      unfold readLabel
      have hall : label.all isLabelChar := List.all_eq_true.mpr hlabel.2
      simp [htrim, hblanks.2 b List.mem_cons_self, hlabel.1, hall]

theorem labelPart_of_readLabel (hsolid : Solid tail) (h : readLabel tail = .ok label) :
    LabelPart tail label := by
  unfold readLabel at h
  split at h
  · cases h
    exact .missing
  · next c rest =>
    have hne := hsolid.dropWhile_ne_nil (List.cons_ne_nil c rest)
    have hsum := List.takeWhile_append_dropWhile (p := Text.isBlank) (l := c :: rest)
    rw [hsolid.trim_eq] at h
    generalize (c :: rest).dropWhile Text.isBlank = word at h hne hsum
    by_cases hblank : Text.isBlank c
    · by_cases hall : word.all isLabelChar
      · obtain rfl : some (String.ofList word) = label := by simpa [hblank, hall, hne] using h
        rw [← hsum]
        refine .word _ _ ⟨?_, List.all_eq_true.mp List.all_takeWhile⟩ ⟨hne, List.all_eq_true.mp hall⟩
        simp [hblank]
      · simp only [hblank, hall, hne, Bool.not_true, Bool.false_eq_true, if_false, List.isEmpty_iff,
          reduceCtorEq] at h
    · simp [hblank] at h

theorem readLabel_error {error : AddressLineError} (h : readLabel tail = .error error) :
    error = .unexpectedLine := by
  unfold readLabel at h
  grind

end Labels

-- Only one way to take a colon leaves a label or nothing behind it.
theorem exists_tail_iff (rest : List Char) (label : Option String) :
    (∃ tail, (rest = tail ∨ rest = ':' :: tail) ∧ LabelPart tail label) ↔
      LabelPart (dropColon rest) label := by
  have hcolon : ∀ tail, ¬LabelPart (':' :: tail) label := by
    intro tail h
    have hread := readLabel_of_labelPart h
    rw [readLabel, show Text.isBlank ':' = false by decide] at hread
    cases hread
  constructor
  · rintro ⟨tail, rfl | rfl, h⟩
    · unfold dropColon
      split
      · exact absurd h (hcolon _)
      · exact h
    · exact h
  · intro h
    unfold dropColon at h
    split at h
    · exact ⟨_, .inr rfl, h⟩
    · exact ⟨_, .inl rfl, h⟩

section Reading

variable {text : List Char}

theorem exists_append_dropHexMark (line : List Char) : ∃ front, line = front ++ dropHexMark line := by
  unfold dropHexMark
  split
  · exact ⟨['0', 'x'], rfl⟩
  · exact ⟨['0', 'X'], rfl⟩
  · exact ⟨[], rfl⟩

theorem exists_append_dropColon (rest : List Char) : ∃ front, rest = front ++ dropColon rest := by
  unfold dropColon
  split
  · exact ⟨[':'], rfl⟩
  · exact ⟨[], rfl⟩

def addressDigits (line : List Char) : List Char := (dropHexMark line).takeWhile isHexDigit

def addressTail (line : List Char) : List Char :=
  dropColon ((dropHexMark line).dropWhile isHexDigit)

-- Nothing that is read ends in a blank, since the line does not.
theorem solid_addressTail (text : List Char) : Solid (addressTail (Text.trim text)) := by
  obtain ⟨mark, hmark⟩ := exists_append_dropHexMark (Text.trim text)
  obtain ⟨colon, hcolon⟩ :=
    exists_append_dropColon ((dropHexMark (Text.trim text)).dropWhile isHexDigit)
  have hline : Solid (Text.trim text) := fun c hc => Text.not_isBlank_of_getLast?_trim hc
  rw [hmark, ← List.takeWhile_append_dropWhile (p := isHexDigit) (l := dropHexMark _), hcolon] at hline
  exact hline.of_append.of_append.of_append

theorem lacksAddress_iff (line : List Char) :
    LacksAddress line ↔ Text.ofDigits? 16 addressCount (addressDigits line) = none := by
  have hdigits : ∀ c ∈ addressDigits line, (Text.digitValue? 16 c).isSome :=
    List.all_eq_true.mp List.all_takeWhile
  rw [Text.ofDigits?_eq_none_iff (by decide) (by decide) (by decide) hdigits]
  simp only [LacksAddress, unmarked_iff, hexRun_iff]
  constructor
  · rintro ⟨body, digits, rest, rfl, ⟨rfl, rfl⟩, h⟩
    exact h
  · exact fun h => ⟨_, _, _, rfl, ⟨rfl, rfl⟩, h⟩

theorem isAddressLine_iff (line : List Char) (address : Address) (label : Option String) :
    IsAddressLine line address label ↔
      Text.ofDigits? 16 addressCount (addressDigits line) = some address.toNat ∧
        LabelPart (addressTail line) label := by
  rw [Text.ofDigits?_eq_some_iff (by decide) (by decide) (by decide), addressTail, ← exists_tail_iff]
  simp only [IsAddressLine, unmarked_iff, hexRun_iff]
  constructor
  · rintro ⟨body, digits, rest, tail, rfl, ⟨rfl, rfl⟩, hne, hvalue, htail⟩
    exact ⟨⟨hne, hvalue, address.toNat_lt⟩, tail, htail⟩
  · rintro ⟨⟨hne, hvalue, -⟩, tail, htail⟩
    exact ⟨_, _, _, tail, rfl, ⟨rfl, rfl⟩, hne, hvalue, htail⟩

theorem readAddressLine_of_not_cutsAtTwo (h : ¬CutsAtTwo (Text.trim text)) :
    readAddressLine text = .error .splitCharacter := by
  unfold readAddressLine
  dsimp only
  rw [if_pos ((splitsCharacter_iff _).mpr h)]

section Cutting

variable (hcuts : CutsAtTwo (Text.trim text))

include hcuts

theorem readAddressLine_of_lacksAddress (h : LacksAddress (Text.trim text)) :
    readAddressLine text = .error .expectedAddress := by
  rw [lacksAddress_iff] at h
  unfold readAddressLine
  dsimp only
  rw [if_neg (not_splitsCharacter hcuts), ← addressDigits, h]

-- With an address, reading the line is reading the label behind it.
theorem readAddressLine_of_digits {value : Nat}
    (h : Text.ofDigits? 16 addressCount (addressDigits (Text.trim text)) = some value) :
    readAddressLine text = (readLabel (addressTail (Text.trim text))).map
      fun label => (UInt16.ofNat value, label) := by
  unfold readAddressLine
  dsimp only
  rw [if_neg (not_splitsCharacter hcuts), ← addressDigits, h]
  rfl

theorem readAddressLine_of_isAddressLine {address : Address} {label : Option String}
    (h : IsAddressLine (Text.trim text) address label) :
    readAddressLine text = .ok (address, label) := by
  obtain ⟨hdigits, hlabel⟩ := (isAddressLine_iff _ _ _).mp h
  rw [readAddressLine_of_digits hcuts hdigits, readLabel_of_labelPart hlabel, UInt16.ofNat_toNat]
  rfl

-- A line that is read is an address line.
theorem isAddressLine_of_readAddressLine {address : Address} {label : Option String}
    (h : readAddressLine text = .ok (address, label)) :
    IsAddressLine (Text.trim text) address label := by
  cases hdigits : Text.ofDigits? 16 addressCount (addressDigits (Text.trim text)) with
  | none =>
      rw [readAddressLine_of_lacksAddress hcuts ((lacksAddress_iff _).mpr hdigits)] at h
      cases h
  | some value =>
      rw [readAddressLine_of_digits hcuts hdigits] at h
      have hlt := ((Text.ofDigits?_eq_some_iff (by decide) (by decide) (by decide) _ _).mp hdigits).2.2
      cases hlabel : readLabel (addressTail (Text.trim text)) with
      | error error =>
          rw [hlabel] at h
          cases h
      | ok label =>
          rw [hlabel] at h
          cases h
          refine (isAddressLine_iff _ _ _).mpr ⟨?_, ?_⟩
          · rw [UInt16.toNat_ofNat_of_lt' hlt]
            exact hdigits
          · exact labelPart_of_readLabel (solid_addressTail text) hlabel

theorem readAddressLine_of_no_label (h : ¬LacksAddress (Text.trim text))
    (hnone : ∀ address label, ¬IsAddressLine (Text.trim text) address label) :
    readAddressLine text = .error .unexpectedLine := by
  cases hread : readAddressLine text with
  | ok place => exact absurd (isAddressLine_of_readAddressLine hcuts hread) (hnone place.1 place.2)
  | error error =>
      obtain ⟨value, hdigits⟩ := Option.ne_none_iff_exists'.mp (mt (lacksAddress_iff _).mpr h)
      rw [readAddressLine_of_digits hcuts hdigits] at hread
      cases hlabel : readLabel (addressTail (Text.trim text)) with
      | ok label =>
          rw [hlabel] at hread
          cases hread
      | error refusal =>
          rw [hlabel] at hread
          cases hread
          rw [readLabel_error hlabel]

end Cutting

end Reading

-- Reading an address line accepts what the grammar describes, and tells what is wrong otherwise.
theorem readAddressLine_follows_grammar (text : List Char) :
    let line := Text.trim text
    (∀ address label, readAddressLine text = .ok (address, label) ↔
      CutsAtTwo line ∧ IsAddressLine line address label) ∧
    (readAddressLine text = .error .expectedAddress ↔ CutsAtTwo line ∧ LacksAddress line) ∧
    (readAddressLine text = .error .unexpectedLine ↔
      CutsAtTwo line ∧ ¬LacksAddress line ∧ ∀ address label, ¬IsAddressLine line address label) ∧
    (readAddressLine text = .error .splitCharacter ↔ ¬CutsAtTwo line) := by
  intro line
  by_cases hcuts : CutsAtTwo line
  · have haccepts : ∀ address label, readAddressLine text = .ok (address, label) ↔
        IsAddressLine line address label := fun address label =>
      ⟨isAddressLine_of_readAddressLine hcuts, readAddressLine_of_isAddressLine hcuts⟩
    refine ⟨fun address label => by simp [haccepts, hcuts], ?_⟩
    by_cases hlacks : LacksAddress line
    · have hread := readAddressLine_of_lacksAddress hcuts hlacks
      simp [hread, hcuts, hlacks]
    · by_cases hnone : ∀ address label, ¬IsAddressLine line address label
      · have hread := readAddressLine_of_no_label hcuts hlacks hnone
        simp [hread, hcuts, hlacks, hnone]
      · obtain ⟨address, label, hline⟩ : ∃ address label, IsAddressLine line address label := by
          simpa using hnone
        have hread := (haccepts address label).mpr hline
        simp only [hread, hcuts, hlacks, hnone, reduceCtorEq, and_false, not_true]
        trivial
  · simp [readAddressLine_of_not_cutsAtTwo hcuts, hcuts]

end Z80Atlas.CommentFile
