import Mathlib.Data.List.Induction
import Mathlib.Data.String.Basic
import Z80Atlas.Text.Numeral

namespace Z80Atlas.Text

def IsDigitFor (base : Nat) (c : Char) (d : Nat) : Prop :=
  d < base ∧ (c = d.digitChar ∨ c = d.digitChar.toUpper)

-- The characters are digits of a base, and a value is what they stand for by their places.
inductive Spells (base : Nat) : List Char → Nat → Prop
  | nothing : Spells base [] 0
  | digit {digits : List Char} {value : Nat} (h : Spells base digits value) {c : Char} {d : Nat}
      (hc : IsDigitFor base c d) : Spells base (digits ++ [c]) (value * base + d)

structure IsHex (width : Nat) (digits : List Char) (value : Nat) : Prop where
  length_eq : digits.length = width
  spells : Spells 16 digits value

section Reading

theorem eq_ofNat_of_toNat {c : Char} {n : Nat} (h : c.toNat = n) : c = Char.ofNat n := by
  rw [← h, Char.ofNat_toNat]

theorem isDigitFor_of_digitValue? {base : Nat} (hbase : base ≤ 16) {c : Char} {d : Nat}
    (h : digitValue? base c = some d) : IsDigitFor base c d := by
  have hdecimal : ∀ d < 10, Char.ofNat (d + 48) = d.digitChar := by decide
  have hsmall : ∀ d < 16, 10 ≤ d → Char.ofNat (d + 87) = d.digitChar := by decide
  have hcapital : ∀ d < 16, 10 ≤ d → Char.ofNat (d + 55) = d.digitChar.toUpper := by decide
  simp only [digitValue?, Option.filter_eq_some_iff, decide_eq_true_eq, Char.le_def,
    UInt32.le_iff_toNat_le] at h
  obtain ⟨hvalue, hlt⟩ := h
  refine ⟨hlt, ?_⟩
  have hd : d < 16 := Nat.lt_of_lt_of_le hlt hbase
  -- each kind of digit begins at a place of its own among the characters
  split at hvalue
  · next hrange =>
    have hlow : 48 ≤ c.toNat := hrange.1
    have hhigh : c.toNat ≤ 57 := hrange.2
    have heq : c.toNat - 48 = d := Option.some.inj hvalue
    exact .inl ((eq_ofNat_of_toNat (by omega)).trans (hdecimal d (by omega)))
  split at hvalue
  · next hrange =>
    have hlow : 97 ≤ c.toNat := hrange.1
    have heq : c.toNat - 97 + 10 = d := Option.some.inj hvalue
    exact .inl ((eq_ofNat_of_toNat (by omega)).trans (hsmall d hd (by omega)))
  split at hvalue
  · next hrange =>
    have hlow : 65 ≤ c.toNat := hrange.1
    have heq : c.toNat - 65 + 10 = d := Option.some.inj hvalue
    exact .inr ((eq_ofNat_of_toNat (by omega)).trans (hcapital d hd (by omega)))
  · cases hvalue

theorem digitValue?_of_isDigitFor {base : Nat} (hbase : base ≤ 16) {c : Char} {d : Nat}
    (h : IsDigitFor base c d) : digitValue? base c = some d := by
  have hall : ∀ d < 16, ∀ base < 17, d < base → digitValue? base d.digitChar = some d ∧
      digitValue? base d.digitChar.toUpper = some d := by decide +kernel
  obtain ⟨hlt, hc⟩ := h
  have hboth := hall d (Nat.lt_of_lt_of_le hlt hbase) base (Nat.lt_succ_of_le hbase) hlt
  rcases hc with rfl | rfl
  · exact hboth.1
  · exact hboth.2

variable {base limit : Nat}

theorem readDigits?_append (base limit value : Nat) (digits rest : List Char) :
    readDigits? base limit value (digits ++ rest) =
      (readDigits? base limit value digits).bind fun value => readDigits? base limit value rest := by
  induction digits generalizing value with
  | nil => rfl
  | cons c digits ih =>
      rw [List.cons_append, readDigits?, readDigits?]
      cases digitValue? base c with
      | none => rfl
      | some d =>
          dsimp only [Option.bind_some]
          split
          · exact ih _
          · rfl

theorem isSome_digitValue?_of_readDigits? {base limit value result : Nat} {digits : List Char}
    (h : readDigits? base limit value digits = some result) :
    ∀ c ∈ digits, (digitValue? base c).isSome := by
  induction digits generalizing value with
  | nil => simp
  | cons c digits ih =>
      rw [readDigits?, Option.bind_eq_some_iff] at h
      obtain ⟨d, hd, hrest⟩ := h
      dsimp only at hrest
      split at hrest
      · simpa [hd] using ih hrest
      · cases hrest

theorem spells_nil_iff (value : Nat) : Spells base [] value ↔ value = 0 := by
  constructor
  · intro h
    generalize htext : ([] : List Char) = text at h
    cases h with
    | nothing => rfl
    | digit h hc => simp at htext
  · rintro rfl
    exact .nothing

theorem spells_concat_iff (digits : List Char) (c : Char) (value : Nat) :
    Spells base (digits ++ [c]) value ↔
      ∃ front d, Spells base digits front ∧ IsDigitFor base c d ∧ value = front * base + d := by
  constructor
  · intro h
    generalize htext : digits ++ [c] = text at h
    cases h with
    | nothing => simp at htext
    | digit hfront hc =>
        obtain ⟨rfl, hsame⟩ := List.append_inj' htext rfl
        cases hsame
        exact ⟨_, _, hfront, hc, rfl⟩
  · rintro ⟨front, d, hfront, hc, rfl⟩
    exact .digit hfront hc

-- Reading stops early only at values that are too large, so that it gives what the digits spell.
theorem readDigits?_eq_some_iff (hpos : 0 < base) (hbase : base ≤ 16) (hlimit : 0 < limit)
    (digits : List Char) (value : Nat) :
    readDigits? base limit 0 digits = some value ↔ Spells base digits value ∧ value < limit := by
  induction digits using List.reverseRecOn generalizing value with
  | nil =>
      rw [readDigits?, spells_nil_iff, Option.some.injEq]
      omega
  | append_singleton digits c ih =>
      rw [readDigits?_append, Option.bind_eq_some_iff, spells_concat_iff]
      constructor
      · rintro ⟨front, hfront, hlast⟩
        rw [readDigits?, Option.bind_eq_some_iff] at hlast
        obtain ⟨d, hd, hlast⟩ := hlast
        dsimp only at hlast
        split at hlast
        · next hlt =>
          cases hlast
          have hspells := ((ih front).mp hfront).1
          exact ⟨⟨front, d, hspells, isDigitFor_of_digitValue? hbase hd, rfl⟩, hlt⟩
        · cases hlast
      · rintro ⟨⟨front, d, hfront, hc, rfl⟩, hlt⟩
        have hle : front ≤ front * base := Nat.le_mul_of_pos_right front hpos
        refine ⟨front, (ih front).mpr ⟨hfront, by omega⟩, ?_⟩
        simp [readDigits?, digitValue?_of_isDigitFor hbase hc, hlt]

theorem Spells.isSome_digitValue? (hpos : 0 < base) (hbase : base ≤ 16) {digits : List Char}
    {value : Nat} (h : Spells base digits value) : ∀ c ∈ digits, (digitValue? base c).isSome :=
  isSome_digitValue?_of_readDigits?
    ((readDigits?_eq_some_iff hpos hbase (Nat.succ_pos value) digits value).mpr
      ⟨h, Nat.lt_succ_self value⟩)

theorem Spells.unique (hpos : 0 < base) (hbase : base ≤ 16) {digits : List Char} {value other : Nat}
    (h : Spells base digits value) (h' : Spells base digits other) : value = other := by
  have hread : ∀ n, Spells base digits n → n ≤ max value other →
      readDigits? base (max value other + 1) 0 digits = some n := fun n hn hle =>
    (readDigits?_eq_some_iff hpos hbase (Nat.succ_pos _) digits n).mpr ⟨hn, Nat.lt_succ_of_le hle⟩
  have hvalue := hread value h (Nat.le_max_left ..)
  rw [hread other h' (Nat.le_max_right ..)] at hvalue
  exact (Option.some.inj hvalue).symm

theorem exists_spells (hbase : base ≤ 16) {digits : List Char}
    (h : ∀ c ∈ digits, (digitValue? base c).isSome) : ∃ value, Spells base digits value := by
  induction digits using List.reverseRecOn with
  | nil => exact ⟨0, .nothing⟩
  | append_singleton digits c ih =>
      obtain ⟨value, hvalue⟩ := ih fun d hd => h d (List.mem_append_left _ hd)
      obtain ⟨d, hd⟩ := Option.isSome_iff_exists.mp (h c (by simp))
      exact ⟨_, .digit hvalue (isDigitFor_of_digitValue? hbase hd)⟩

theorem ofDigits?_eq_some_iff (hpos : 0 < base) (hbase : base ≤ 16) (hlimit : 0 < limit)
    (digits : List Char) (value : Nat) :
    ofDigits? base limit digits = some value ↔
      digits ≠ [] ∧ Spells base digits value ∧ value < limit := by
  rw [ofDigits?]
  by_cases hempty : digits = []
  · simp [hempty]
  · simp [hempty, readDigits?_eq_some_iff hpos hbase hlimit]

-- Digits are refused only where there are none, or where they spell too large a number.
theorem ofDigits?_eq_none_iff (hpos : 0 < base) (hbase : base ≤ 16) (hlimit : 0 < limit)
    {digits : List Char} (h : ∀ c ∈ digits, (digitValue? base c).isSome) :
    ofDigits? base limit digits = none ↔
      digits = [] ∨ ∃ value, Spells base digits value ∧ limit ≤ value := by
  have hsome := ofDigits?_eq_some_iff hpos hbase hlimit digits
  obtain ⟨value, hvalue⟩ := exists_spells hbase h
  rw [Option.eq_none_iff_forall_ne_some]
  constructor
  · intro hnone
    by_cases hempty : digits = []
    · exact .inl hempty
    · refine .inr ⟨value, hvalue, Nat.le_of_not_lt fun hlt => ?_⟩
      exact hnone value ((hsome value).mpr ⟨hempty, hvalue, hlt⟩)
  · rintro (hempty | ⟨large, hlarge, hle⟩) other hread
    · exact ((hsome other).mp hread).1 hempty
    · obtain ⟨-, hother, hlt⟩ := (hsome other).mp hread
      rw [hother.unique hpos hbase hlarge] at hlt
      exact Nat.not_lt.mpr hle hlt

end Reading

section Writing

variable {base : Nat}

-- Numbers are written in digits that spell them, whichever letter case is chosen.
theorem spells_toDigits (hbase : 1 < base) (change : Char → Char)
    (hchange : ∀ d < base, change d.digitChar = d.digitChar ∨
      change d.digitChar = d.digitChar.toUpper) (n : Nat) :
    Spells base ((Nat.toDigits base n).map change) n := by
  induction n using Nat.strongRecOn with
  | ind n ih =>
      rw [Nat.toDigits_eq_if hbase]
      split
      · next hsmall =>
        have hlast := Spells.digit .nothing ⟨hsmall, hchange n hsmall⟩
        simpa using hlast
      · next hlarge =>
        have hmod : n % base < base := Nat.mod_lt n (by omega)
        have hlast := Spells.digit (ih (n / base) (Nat.div_lt_self (by omega) hbase))
          ⟨hmod, hchange _ hmod⟩
        rw [Nat.div_add_mod'] at hlast
        simpa using hlast

theorem Spells.leadingZeros (hpos : 0 < base) {digits : List Char} {value : Nat}
    (h : Spells base digits value) (count : Nat) :
    Spells base (List.replicate count '0' ++ digits) value := by
  induction h with
  | nothing =>
      induction count with
      | zero => exact .nothing
      | succ count ih =>
          have hzero : IsDigitFor base '0' 0 := ⟨hpos, .inl rfl⟩
          simpa [List.replicate_succ'] using Spells.digit ih hzero
  | digit _ hc ih =>
      rw [← List.append_assoc]
      exact .digit ih hc

theorem spells_hex (n width : Nat) : Spells 16 (hex n width).toList n := by
  rw [hex, String.toList_ofList]
  exact (spells_toDigits (by decide) Char.toUpper (fun _ _ => .inr rfl) n).leadingZeros
    (by decide) _

theorem spells_plain {base : Nat} (hbase : 1 < base) (n : Nat) :
    Spells base (Nat.toDigits base n) n := by
  simpa using spells_toDigits hbase id (fun _ _ => .inl rfl) n

theorem hex_ne_nil (n width : Nat) : (hex n width).toList ≠ [] := by
  rw [hex, String.toList_ofList, hexDigits]
  simp [Nat.toDigits_ne_nil]

theorem hex_inj {n m width : Nat} (h : hex n width = hex m width) : n = m := by
  have hspells := spells_hex n width
  rw [h] at hspells
  exact hspells.unique (by decide) (by decide) (spells_hex m width)

theorem length_hex {n width : Nat} (hwidth : 0 < width) (h : n < 16 ^ width) :
    (hex n width).toList.length = width := by
  have hlength : (hexDigits n).length ≤ width := by
    rw [hexDigits, List.length_map, Nat.length_toDigits_le_iff (by decide) hwidth]
    exact h
  rw [hex, String.toList_ofList, List.length_append, List.length_replicate]
  omega

theorem isHex_hex4 (n : UInt16) : IsHex 4 (hex4 n).toList n.toNat :=
  ⟨length_hex (by decide) n.toNat_lt, spells_hex n.toNat 4⟩

theorem isHex_hex2 (n : UInt8) : IsHex 2 (hex2 n).toList n.toNat :=
  ⟨length_hex (by decide) n.toNat_lt, spells_hex n.toNat 2⟩

end Writing

end Z80Atlas.Text
