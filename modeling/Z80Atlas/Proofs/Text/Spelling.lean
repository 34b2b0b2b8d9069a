import Mathlib.Data.String.Basic
import Z80Atlas.Text.LowerCase
import Z80Atlas.Text.Numeral
import Z80Atlas.Text.Padding

namespace Z80Atlas.Text

section Decimal

theorem toList_decimal (n : Nat) : (decimal n).toList = Nat.toDigits 10 n := String.toList_ofList

theorem isDigit_of_mem_decimal {n : Nat} {c : Char} (h : c ∈ (decimal n).toList) : c.isDigit := by
  rw [toList_decimal] at h
  exact Nat.isDigit_of_mem_toDigits (by decide) (by decide) h

theorem decimal_inj {n m : Nat} (h : decimal n = decimal m) : n = m := by
  have hvalue := congrArg (fun text => Nat.ofDigitChars 10 text.toList 0) h
  simpa only [toList_decimal, Nat.ofDigitChars_ten_toDigits] using hvalue

theorem length_decimal_mono {n m : Nat} (h : n ≤ m) :
    (decimal n).length ≤ (decimal m).length := by
  rw [← String.length_toList, ← String.length_toList, toList_decimal, toList_decimal,
    Nat.length_toDigits_le_iff (by decide) Nat.length_toDigits_pos]
  have hm := (Nat.length_toDigits_le_iff (b := 10) (n := m) (by decide)
    Nat.length_toDigits_pos).mp (Nat.le_refl _)
  omega

theorem digit_bounds {c : Char} (h : c.isDigit) : 48 ≤ c.toNat ∧ c.toNat ≤ 57 :=
  Char.isDigit_iff_toNat.mp h

theorem ofDigitChars_cons_eq (c : Char) (rest : List Char) :
    Nat.ofDigitChars 10 (c :: rest) 0 =
      10 ^ rest.length * (c.toNat - 48) + Nat.ofDigitChars 10 rest 0 := by
  rw [Nat.ofDigitChars_cons, Nat.ofDigitChars_eq_ofDigitChars_zero, Nat.mul_zero, Nat.zero_add]
  rfl

-- Digits are worth less than the next power of ten.
theorem ofDigitChars_lt {digits : List Char} (h : ∀ c ∈ digits, c.isDigit) :
    Nat.ofDigitChars 10 digits 0 < 10 ^ digits.length := by
  induction digits with
  | nil => simp
  | cons c rest ih =>
      obtain ⟨-, hc⟩ := digit_bounds (h c List.mem_cons_self)
      have hrest := ih fun d hd => h d (List.mem_cons_of_mem c hd)
      have hfirst : 10 ^ rest.length * (c.toNat - 48) ≤ 10 ^ rest.length * 9 :=
        Nat.mul_le_mul_left _ (by omega)
      rw [ofDigitChars_cons_eq, List.length_cons, Nat.pow_succ]
      omega

-- Texts of as many digits are in the order of their values.
theorem lt_iff_ofDigitChars_lt {digits others : List Char} (h : ∀ c ∈ digits, c.isDigit)
    (h' : ∀ c ∈ others, c.isDigit) (hlength : digits.length = others.length) :
    digits < others ↔ Nat.ofDigitChars 10 digits 0 < Nat.ofDigitChars 10 others 0 := by
  induction digits generalizing others with
  | nil =>
      rw [List.eq_nil_of_length_eq_zero hlength.symm]
      simp
  | cons c rest ih =>
      cases others with
      | nil => cases hlength
      | cons d rest' =>
          obtain ⟨hc, -⟩ := digit_bounds (h c List.mem_cons_self)
          obtain ⟨hd, -⟩ := digit_bounds (h' d List.mem_cons_self)
          have hrest := fun e he => h e (List.mem_cons_of_mem c he)
          have hrest' := fun e he => h' e (List.mem_cons_of_mem d he)
          have hlength' : rest.length = rest'.length := Nat.succ.inj hlength
          have hlt := ofDigitChars_lt hrest
          have hlt' := ofDigitChars_lt hrest'
          rw [List.cons_lt_cons_iff, ih hrest hrest' hlength', ofDigitChars_cons_eq,
            ofDigitChars_cons_eq, ← hlength']
          rw [← hlength'] at hlt'
          rcases Nat.lt_trichotomy c.toNat d.toNat with hcd | hcd | hcd
          · have hstep : 10 ^ rest.length * (c.toNat - 48 + 1) ≤ 10 ^ rest.length * (d.toNat - 48) :=
              Nat.mul_le_mul_left _ (by omega)
            rw [Nat.mul_succ] at hstep
            exact iff_of_true (.inl (Char.lt_def.mpr hcd)) (by omega)
          · rw [Char.toNat_inj.mp hcd]
            simp
          · have hstep : 10 ^ rest.length * (d.toNat - 48 + 1) ≤ 10 ^ rest.length * (c.toNat - 48) :=
              Nat.mul_le_mul_left _ (by omega)
            rw [Nat.mul_succ] at hstep
            refine iff_of_false ?_ (by omega)
            rintro (hless | ⟨rfl, -⟩)
            · exact absurd (Char.lt_def.mp hless) (Nat.lt_asymm hcd)
            · exact Nat.lt_irrefl _ hcd

end Decimal

section Padding

theorem toList_padded (n width : Nat) : (padLeft '0' width (decimal n)).toList =
    List.replicate (width - (decimal n).length) '0' ++ Nat.toDigits 10 n := by
  rw [padLeft, String.toList_append, String.toList_ofList, toList_decimal]

theorem isDigit_of_mem_padded {n width : Nat} {c : Char}
    (h : c ∈ (padLeft '0' width (decimal n)).toList) : c.isDigit := by
  rw [padLeft, String.toList_append, String.toList_ofList, List.mem_append] at h
  rcases h with hzero | hdigit
  · rw [List.eq_of_mem_replicate hzero]
    decide
  · exact isDigit_of_mem_decimal hdigit

theorem length_padded {n width : Nat} (h : (decimal n).length ≤ width) :
    (padLeft '0' width (decimal n)).length = width := by
  rw [padLeft, String.length_append, String.length_ofList, List.length_replicate]
  omega

theorem ofDigitChars_padded (n width : Nat) :
    Nat.ofDigitChars 10 (padLeft '0' width (decimal n)).toList 0 = n := by
  rw [toList_padded, Nat.ofDigitChars_append, Nat.ofDigitChars_replicate_zero, Nat.mul_zero,
    Nat.ofDigitChars_ten_toDigits]

theorem padded_inj {n m width : Nat}
    (h : padLeft '0' width (decimal n) = padLeft '0' width (decimal m)) : n = m := by
  rw [← ofDigitChars_padded n width, h, ofDigitChars_padded]

-- Numbers padded to one width are in the order of their texts.
theorem padded_lt_iff {n m width : Nat} (hn : (decimal n).length ≤ width)
    (hm : (decimal m).length ≤ width) :
    padLeft '0' width (decimal n) < padLeft '0' width (decimal m) ↔ n < m := by
  rw [String.lt_iff_toList_lt, lt_iff_ofDigitChars_lt (fun _ => isDigit_of_mem_padded)
    (fun _ => isDigit_of_mem_padded), ofDigitChars_padded, ofDigitChars_padded]
  rw [String.length_toList, String.length_toList, length_padded hn, length_padded hm]

end Padding

section Plain

def isPlain (c : Char) : Bool := c.isUpper || c.isDigit || c == '_'

def IsPlain (text : String) : Prop := ∀ c ∈ text.toList, isPlain c

theorem isPlain_of_all {text : String} (h : text.toList.all isPlain) : IsPlain text :=
  List.all_eq_true.mp h

theorem IsPlain.append {text other : String} (h : IsPlain text) (h' : IsPlain other) :
    IsPlain (text ++ other) := by
  intro c hc
  rw [String.toList_append, List.mem_append] at hc
  exact hc.elim (h c) (h' c)

theorem isPlain_of_isDigit {c : Char} (h : c.isDigit) : isPlain c := by
  simp [isPlain, h]

theorem isPlain_decimal (n : Nat) : IsPlain (decimal n) :=
  fun _ hc => isPlain_of_isDigit (isDigit_of_mem_decimal hc)

theorem isPlain_padded (n width : Nat) : IsPlain (padLeft '0' width (decimal n)) :=
  fun _ hc => isPlain_of_isDigit (isDigit_of_mem_padded hc)

theorem isPlain_of_mem_hexDigits {n : Nat} {c : Char} (h : c ∈ hexDigits n) : isPlain c := by
  have hdigit : ∀ d < 16, isPlain d.digitChar.toUpper := by decide
  induction n using Nat.strongRecOn with
  | ind n ih =>
      rw [hexDigits, Nat.toDigits_eq_if (by decide)] at h
      split at h
      · next hsmall =>
        rw [List.map_singleton, List.mem_singleton] at h
        rw [h]
        exact hdigit n hsmall
      · rw [List.map_append, List.mem_append] at h
        rcases h with hrest | hlast
        · exact ih (n / 16) (by omega) hrest
        · rw [List.map_singleton, List.mem_singleton] at hlast
          rw [hlast]
          exact hdigit (n % 16) (Nat.mod_lt n (by decide))

theorem isPlain_hex (n width : Nat) : IsPlain (hex n width) := by
  intro c hc
  rw [hex, String.toList_ofList, List.mem_append] at hc
  rcases hc with hzero | hdigit
  · rw [List.eq_of_mem_replicate hzero]
    decide
  · exact isPlain_of_mem_hexDigits hdigit

-- A property of plain characters can be checked one by one, since they are below 128.
theorem forall_plain {P : Char → Prop} (h : ∀ n < 128, isPlain (Char.ofNat n) → P (Char.ofNat n))
    {c : Char} (hc : isPlain c) : P c := by
  have hlt : c.toNat < 128 := by
    unfold isPlain at hc
    simp only [Bool.or_eq_true, beq_iff_eq] at hc
    rcases hc with (hupper | hdigit) | rfl
    · have hrange : 'A'.val ≤ c.val ∧ c.val ≤ 'Z'.val := of_decide_eq_true hupper
      have hle : c.toNat ≤ 90 := UInt32.le_iff_toNat_le.mp hrange.2
      omega
    · have := digit_bounds hdigit
      omega
    · decide
  have hchar := h c.toNat hlt
  rw [Char.ofNat_toNat] at hchar
  exact hchar hc

theorem lowerChar_of_isPlain {c : Char} (h : isPlain c) :
    lowerChar c = [c.toLower] ∧ c.toNat ≠ 0x3A3 ∧ c.toLower.toUpper = c :=
  forall_plain (P := fun c => lowerChar c = [c.toLower] ∧ c.toNat ≠ 0x3A3 ∧ c.toLower.toUpper = c)
    (by decide +kernel) h

theorem lowerFrom_of_isPlain (before : List Char) {text : List Char} (h : ∀ c ∈ text, isPlain c) :
    lowerFrom before text = text.map Char.toLower := by
  induction text generalizing before with
  | nil => rfl
  | cons c rest ih =>
      obtain ⟨hlower, hsigma, -⟩ := lowerChar_of_isPlain (h c List.mem_cons_self)
      have hrest := ih (c :: before) fun d hd => h d (List.mem_cons_of_mem c hd)
      rw [lowerFrom, hrest, hlower, List.map_cons]
      simp [hsigma]

-- Plain names differ in lower case too.
theorem toLower_inj {text other : String} (h : IsPlain text) (h' : IsPlain other)
    (heq : toLower text = toLower other) : text = other := by
  have hback : ∀ name : String, IsPlain name →
      (toLower name).toList.map Char.toUpper = name.toList := by
    intro name hname
    rw [toLower, String.toList_ofList, lowerFrom_of_isPlain [] hname, List.map_map]
    conv_rhs => rw [← List.map_id name.toList]
    exact List.map_congr_left fun c hc => (lowerChar_of_isPlain (hname c hc)).2.2
  rw [← String.toList_inj, ← hback text h, ← hback other h', heq]

-- The digits at the end of a text and the character in front of them are determined.
theorem append_digits_inj {front front' digits digits' : List Char} {c c' : Char}
    (hdigits : ∀ d ∈ digits, d.isDigit) (hdigits' : ∀ d ∈ digits', d.isDigit) (hc : ¬c.isDigit)
    (hc' : ¬c'.isDigit) (h : front ++ c :: digits = front' ++ c' :: digits') :
    front = front' ∧ c = c' ∧ digits = digits' := by
  rcases List.append_eq_append_iff.mp h with ⟨middle, hfront, hrest⟩ | ⟨middle, hfront, hrest⟩
  · cases middle with
    | nil =>
        rw [List.nil_append, List.cons.injEq] at hrest
        exact ⟨by rw [hfront, List.append_nil], hrest⟩
    | cons d middle =>
        rw [List.cons_append, List.cons.injEq] at hrest
        refine absurd (hdigits c' ?_) hc'
        rw [hrest.2]
        simp
  · cases middle with
    | nil =>
        rw [List.nil_append, List.cons.injEq] at hrest
        exact ⟨by rw [hfront, List.append_nil], hrest.1.symm, hrest.2.symm⟩
    | cons d middle =>
        rw [List.cons_append, List.cons.injEq] at hrest
        refine absurd (hdigits' c ?_) hc
        rw [hrest.2]
        simp

end Plain

end Z80Atlas.Text
