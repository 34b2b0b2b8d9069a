import Z80Atlas.Input.AddressText
import Z80Atlas.Proofs.Text.Numeral
import Z80Atlas.Proofs.Text.Reading

namespace Z80Atlas

namespace Text

section Numerals

-- At least one digit, which one plus sign may precede.
def IsNumeral (base : Nat) (text : List Char) (value : Nat) : Prop :=
  ∃ digits, digits ≠ [] ∧ (text = digits ∨ text = '+' :: digits) ∧ Spells base digits value

def IsTrimmed (text trimmed : List Char) : Prop :=
  (∃ before after, text = before ++ trimmed ++ after ∧ (∀ c ∈ before, isBlank c) ∧
    ∀ c ∈ after, isBlank c) ∧
  (∀ c, trimmed.head? = some c → ¬isBlank c) ∧ ∀ c, trimmed.getLast? = some c → ¬isBlank c

variable {base limit : Nat}

theorem ofNumeral?_eq_some_iff (hpos : 0 < base) (hbase : base ≤ 16) (hlimit : 0 < limit)
    (text : List Char) (value : Nat) :
    ofNumeral? base limit text = some value ↔ IsNumeral base text value ∧ value < limit := by
  have hread : ∀ digits, ofDigits? base limit digits = some value ↔
      digits ≠ [] ∧ Spells base digits value ∧ value < limit :=
    fun digits => ofDigits?_eq_some_iff hpos hbase hlimit digits value
  have hplus : ∀ digits, ¬Spells base ('+' :: digits) value := by
    intro digits hspells
    have hnone : ∀ base < 17, ¬(digitValue? base '+').isSome := by decide
    exact hnone base (by omega) (hspells.isSome_digitValue? hpos hbase '+' List.mem_cons_self)
  unfold ofNumeral?
  split
  · next digits =>
    rw [hread]
    constructor
    · rintro ⟨hne, hspells, hlt⟩
      exact ⟨⟨digits, hne, .inr rfl, hspells⟩, hlt⟩
    · rintro ⟨⟨others, hne, rfl | hsame, hspells⟩, hlt⟩
      · exact absurd hspells (hplus digits)
      · cases hsame
        exact ⟨hne, hspells, hlt⟩
  · next hother =>
    rw [hread]
    constructor
    · rintro ⟨hne, hspells, hlt⟩
      exact ⟨⟨text, hne, .inl rfl, hspells⟩, hlt⟩
    · rintro ⟨⟨digits, hne, rfl | rfl, hspells⟩, hlt⟩
      · exact ⟨hne, hspells, hlt⟩
      · exact absurd rfl (hother digits)

end Numerals

section Blanks

theorem isTrimmed_trim (text : List Char) : IsTrimmed text (trim text) := by
  have hstart := List.takeWhile_append_dropWhile (p := isBlank) (l := text)
  have hend := List.takeWhile_append_dropWhile (p := isBlank) (l := (trimStart text).reverse)
  have hsplit : trimStart text =
      trim text ++ ((trimStart text).reverse.takeWhile isBlank).reverse := by
    rw [trim, trimEnd, ← List.reverse_append, hend, List.reverse_reverse]
  refine ⟨⟨text.takeWhile isBlank, ((trimStart text).reverse.takeWhile isBlank).reverse, ?_, ?_, ?_⟩,
    ?_, fun c => not_isBlank_of_getLast?_trim⟩
  · rw [List.append_assoc, ← hsplit, trimStart, hstart]
  · exact List.all_eq_true.mp List.all_takeWhile
  · intro c hc
    exact List.all_eq_true.mp List.all_takeWhile c (List.mem_reverse.mp hc)
  · intro c hc
    have hhead : (text.dropWhile isBlank).head? = some c := by
      rw [← trimStart, hsplit, List.head?_append, hc]
      rfl
    exact not_of_head?_dropWhile hhead

theorem trim_eq_self {text : List Char} (h : ∀ c ∈ text, ¬isBlank c) : trim text = text := by
  rw [trim, trimStart_eq_self, trimEnd_eq_self]
  · exact fun c hc => h c (List.mem_of_getLast? hc)
  · exact fun c hc => h c (List.mem_of_mem_head? hc)

end Blanks

end Text

namespace AddressText

def frontMarks : List (List Char) := [['0', 'x'], ['0', 'X'], ['$']]

def endMarks : List Char := ['h', 'H']

def IsFrontMarked (text : List Char) : Prop := ∃ mark ∈ frontMarks, mark <+: text

def IsEndMarked (text : List Char) : Prop := ∃ mark ∈ endMarks, [mark] <:+ text

-- How an address is written: hexadecimal behind a mark, hexadecimal in front of a mark unless there
-- is a mark in front too, or decimal where there is no mark.
inductive IsAddress : List Char → Address → Prop
  | front (mark digits : List Char) (address : Address) (hmark : mark ∈ frontMarks)
      (h : Text.IsNumeral 16 digits address.toNat) : IsAddress (mark ++ digits) address
  | behind (digits : List Char) (mark : Char) (address : Address) (hmark : mark ∈ endMarks)
      (hfront : ¬IsFrontMarked (digits ++ [mark])) (h : Text.IsNumeral 16 digits address.toNat) :
      IsAddress (digits ++ [mark]) address
  | decimal (digits : List Char) (address : Address) (hfront : ¬IsFrontMarked digits)
      (hend : ¬IsEndMarked digits) (h : Text.IsNumeral 10 digits address.toNat) :
      IsAddress digits address

section Marks

theorem digits_front {mark : List Char} (hmark : mark ∈ frontMarks) (rest : List Char) :
    digits (mark ++ rest) = (rest, 16) := by
  simp only [frontMarks, List.mem_cons, List.not_mem_nil, or_false] at hmark
  rcases hmark with rfl | rfl | rfl <;> rfl

theorem digits_of_not_front {text : List Char} (h : ¬IsFrontMarked text) :
    digits text =
      match text.getLast? with
      | some 'h' | some 'H' => (text.dropLast, 16)
      | _ => (text, 10) := by
  unfold digits
  split
  · next hex => exact absurd ⟨['0', 'x'], by decide, hex, rfl⟩ h
  · next hex => exact absurd ⟨['0', 'X'], by decide, hex, rfl⟩ h
  · next hex => exact absurd ⟨['$'], by decide, hex, rfl⟩ h
  · rfl

theorem digits_behind {front : List Char} {mark : Char} (hmark : mark ∈ endMarks)
    (h : ¬IsFrontMarked (front ++ [mark])) : digits (front ++ [mark]) = (front, 16) := by
  rw [digits_of_not_front h, List.getLast?_concat, List.dropLast_concat]
  simp only [endMarks, List.mem_cons, List.not_mem_nil, or_false] at hmark
  rcases hmark with rfl | rfl <;> rfl

theorem digits_unmarked {text : List Char} (h : ¬IsFrontMarked text) (hend : ¬IsEndMarked text) :
    digits text = (text, 10) := by
  rw [digits_of_not_front h]
  split
  · next hlast =>
    obtain ⟨front, rfl⟩ := List.getLast?_eq_some_iff.mp hlast
    exact absurd ⟨'h', by decide, front, rfl⟩ hend
  · next hlast =>
    obtain ⟨front, rfl⟩ := List.getLast?_eq_some_iff.mp hlast
    exact absurd ⟨'H', by decide, front, rfl⟩ hend
  · rfl

-- The grammar chooses digits and base as reading does.
theorem isAddress_iff (text : List Char) (address : Address) :
    IsAddress text address ↔ Text.IsNumeral (digits text).2 (digits text).1 address.toNat := by
  constructor
  · rintro (⟨mark, rest, _, hmark, h⟩ | ⟨front, mark, _, hmark, hfront, h⟩ | ⟨_, _, hfront, hend, h⟩)
    · rwa [digits_front hmark]
    · rwa [digits_behind hmark hfront]
    · rwa [digits_unmarked hfront hend]
  · intro h
    by_cases hfront : IsFrontMarked text
    · obtain ⟨mark, hmark, rest, rfl⟩ := hfront
      rw [digits_front hmark] at h
      exact .front mark rest address hmark h
    by_cases hend : IsEndMarked text
    · obtain ⟨mark, hmark, front, rfl⟩ := hend
      rw [digits_behind hmark hfront] at h
      exact .behind front mark address hmark hfront h
    · rw [digits_unmarked hfront hend] at h
      exact .decimal text address hfront hend h

theorem digits_base (text : List Char) : (digits text).2 = 16 ∨ (digits text).2 = 10 := by
  unfold digits
  split
  · exact .inl rfl
  · exact .inl rfl
  · exact .inl rfl
  split
  · exact .inl rfl
  · exact .inl rfl
  · exact .inr rfl

end Marks

section Reading

theorem numeral_iff (text : List Char) (value : Nat) :
    Text.ofNumeral? (digits text).2 addressCount (digits text).1 = some value ↔
      Text.IsNumeral (digits text).2 (digits text).1 value ∧ value < addressCount := by
  rcases digits_base text with hbase | hbase <;> rw [hbase]
  · exact Text.ofNumeral?_eq_some_iff (by decide) (by decide) (by decide) _ value
  · exact Text.ofNumeral?_eq_some_iff (by decide) (by decide) (by decide) _ value

theorem read_eq_ok_iff (text : String) (address : Address) :
    read text = .ok address ↔ IsAddress (Text.trim text.toList) address := by
  rw [isAddress_iff, read]
  dsimp only
  cases hvalue : Text.ofNumeral? (digits (Text.trim text.toList)).2 addressCount
      (digits (Text.trim text.toList)).1 with
  | some value =>
      obtain ⟨hnumeral, hlt⟩ := (numeral_iff _ value).mp hvalue
      have htoNat : (UInt16.ofNat value).toNat = value := UInt16.toNat_ofNat_of_lt' hlt
      constructor
      · intro h
        rw [← Except.ok.inj h, htoNat]
        exact hnumeral
      · intro h
        rw [(numeral_iff _ address.toNat).mpr ⟨h, address.toNat_lt⟩] at hvalue
        change Except.ok (UInt16.ofNat value) = Except.ok address
        rw [← Option.some.inj hvalue, UInt16.ofNat_toNat]
  | none =>
      refine iff_of_false (by simp) fun h => ?_
      rw [(numeral_iff _ address.toNat).mpr ⟨h, address.toNat_lt⟩] at hvalue
      cases hvalue

theorem read_eq_error {text : String} (h : ∀ address, read text ≠ .ok address) :
    read text = .error (invalid (String.ofList (Text.trim text.toList))) := by
  unfold read at h ⊢
  dsimp only at h ⊢
  split
  · next value hvalue =>
    rw [hvalue] at h
    exact absurd rfl (h _)
  · rfl

end Reading

section Writing

def isUnmarked (c : Char) : Bool := !Text.isBlank c && !(['x', 'X', '$', 'h', 'H'].contains c)

theorem isUnmarked_of_spells {base : Nat} (hpos : 0 < base) (hbase : base ≤ 16)
    {digits : List Char} {value : Nat} (h : Text.Spells base digits value) {c : Char}
    (hc : c ∈ digits) : isUnmarked c := by
  have hall : ∀ d < 16, isUnmarked d.digitChar ∧ isUnmarked d.digitChar.toUpper := by
    decide +kernel
  obtain ⟨d, hd⟩ := Option.isSome_iff_exists.mp (h.isSome_digitValue? hpos hbase c hc)
  obtain ⟨hlt, rfl | rfl⟩ := Text.isDigitFor_of_digitValue? hbase hd
  · exact (hall d (Nat.lt_of_lt_of_le hlt hbase)).1
  · exact (hall d (Nat.lt_of_lt_of_le hlt hbase)).2

theorem isUnmarked_iff (c : Char) :
    isUnmarked c ↔ ¬Text.isBlank c ∧ c ∉ ['x', 'X', '$'] ∧ c ∉ endMarks := by
  simp [isUnmarked, endMarks, and_assoc]

theorem exists_mark_of_isFrontMarked {text : List Char} (h : IsFrontMarked text) :
    ∃ c ∈ text, c ∈ ['x', 'X', '$'] := by
  obtain ⟨mark, hmark, rest, rfl⟩ := h
  simp only [frontMarks, List.mem_cons, List.not_mem_nil, or_false] at hmark
  rcases hmark with rfl | rfl | rfl <;> simp

variable {digits : List Char} {address : Address}

theorem read_front (mark : List Char) (hmark : mark ∈ frontMarks) (hne : digits ≠ [])
    (h : Text.Spells 16 digits address.toNat) :
    read (String.ofList (mark ++ digits)) = .ok address := by
  have hmarks : frontMarks.all fun mark => mark.all fun c => !Text.isBlank c := by decide +kernel
  have hsolid : ∀ c ∈ mark ++ digits, ¬Text.isBlank c := by
    intro c hc
    rcases List.mem_append.mp hc with hc | hc
    · simpa using List.all_eq_true.mp (List.all_eq_true.mp hmarks mark hmark) c hc
    · exact ((isUnmarked_iff c).mp (isUnmarked_of_spells (by decide) (by decide) h hc)).1
  rw [read_eq_ok_iff, String.toList_ofList, Text.trim_eq_self hsolid]
  exact .front mark digits address hmark ⟨digits, hne, .inl rfl, h⟩

theorem read_behind (mark : Char) (hmark : mark ∈ endMarks) (hne : digits ≠ [])
    (h : Text.Spells 16 digits address.toNat) :
    read (String.ofList (digits ++ [mark])) = .ok address := by
  have hmarks : endMarks.all fun c => !Text.isBlank c && !(['x', 'X', '$'].contains c) := by
    decide +kernel
  have hother : ∀ c ∈ digits ++ [mark], ¬Text.isBlank c ∧ c ∉ ['x', 'X', '$'] := by
    intro c hc
    rcases List.mem_append.mp hc with hc | hc
    · obtain ⟨hblank, hfront, -⟩ :=
        (isUnmarked_iff c).mp (isUnmarked_of_spells (by decide) (by decide) h hc)
      exact ⟨hblank, hfront⟩
    · rw [List.mem_singleton.mp hc]
      simpa using List.all_eq_true.mp hmarks mark hmark
  rw [read_eq_ok_iff, String.toList_ofList, Text.trim_eq_self fun c hc => (hother c hc).1]
  refine .behind digits mark address hmark (fun hfront => ?_) ⟨digits, hne, .inl rfl, h⟩
  obtain ⟨c, hc, hx⟩ := exists_mark_of_isFrontMarked hfront
  exact (hother c hc).2 hx

theorem read_decimal (hne : digits ≠ []) (h : Text.Spells 10 digits address.toNat) :
    read (String.ofList digits) = .ok address := by
  have hunmarked := fun c (hc : c ∈ digits) =>
    (isUnmarked_iff c).mp (isUnmarked_of_spells (by decide) (by decide) h hc)
  rw [read_eq_ok_iff, String.toList_ofList, Text.trim_eq_self fun c hc => (hunmarked c hc).1]
  refine .decimal digits address (fun hfront => ?_) (fun hend => ?_) ⟨digits, hne, .inl rfl, h⟩
  · obtain ⟨c, hc, hx⟩ := exists_mark_of_isFrontMarked hfront
    exact (hunmarked c hc).2.1 hx
  · obtain ⟨mark, hmark, front, rfl⟩ := hend
    exact (hunmarked mark (by simp)).2.2 hmark

end Writing

-- Reading takes a text exactly if it is an address between blanks, and otherwise quotes what stands
-- between them. However an address is written, it is read back.
theorem read_follows_grammar (text : String) :
    let trimmed := Text.trim text.toList
    Text.IsTrimmed text.toList trimmed ∧
    (∀ address, read text = .ok address ↔ IsAddress trimmed address) ∧
    ((¬∃ address, IsAddress trimmed address) → ∃ fault, read text = .error fault ∧
      fault.code.text = "E103" ∧
      fault.message = "Invalid address: \"" ++ String.ofList trimmed ++ "\"") ∧
    ∀ address : Address,
      read ("0x" ++ Text.hex4 address) = .ok address ∧
      read ("$" ++ Text.hex4 address) = .ok address ∧
      (∀ width, read (Text.hex address.toNat width ++ "h") = .ok address) ∧
      read (Text.lowerHex address.toNat ++ "h") = .ok address ∧
      read (Text.decimal address.toNat) = .ok address := by
  intro trimmed
  refine ⟨Text.isTrimmed_trim text.toList, read_eq_ok_iff text, ?_, ?_⟩
  · intro hnone
    have hrefused : ∀ address, read text ≠ .ok address := fun address hread =>
      hnone ⟨address, (read_eq_ok_iff text address).mp hread⟩
    exact ⟨_, read_eq_error hrefused, rfl, rfl⟩
  · intro address
    have hhex := Text.spells_hex address.toNat
    have hne := Text.hex_ne_nil address.toNat
    refine ⟨?_, ?_, fun width => ?_, ?_, ?_⟩
    · have hread := read_front ['0', 'x'] (by decide) (hne 4) (hhex 4)
      rwa [String.ofList_append, String.ofList_toList] at hread
    · have hread := read_front ['$'] (by decide) (hne 4) (hhex 4)
      rwa [String.ofList_append, String.ofList_toList] at hread
    · have hread := read_behind 'h' (by decide) (hne width) (hhex width)
      rwa [String.ofList_append, String.ofList_toList] at hread
    · have hread := read_behind 'h' (by decide) Nat.toDigits_ne_nil
        (Text.spells_plain (by decide) address.toNat)
      rwa [String.ofList_append] at hread
    · exact read_decimal Nat.toDigits_ne_nil (Text.spells_plain (by decide) address.toNat)

end AddressText

end Z80Atlas
