namespace Z80Atlas.Text

def hexDigits (n : Nat) : List Char := (Nat.toDigits 16 n).map Char.toUpper

def hex (n width : Nat) : String :=
  let digits := hexDigits n
  String.ofList (List.replicate (width - digits.length) '0' ++ digits)

def hex4 (n : UInt16) : String := hex n.toNat 4

def hex2 (n : UInt8) : String := hex n.toNat 2

def lowerHex (n : Nat) : String := String.ofList (Nat.toDigits 16 n)

def decimal (n : Nat) : String := String.ofList (Nat.toDigits 10 n)

def signedDecimal (n : Int) : String :=
  if n < 0 then "-" ++ decimal n.natAbs else decimal n.natAbs

def displacement (n : Int) : String :=
  if n < 0 then signedDecimal n else "+" ++ signedDecimal n

-- What a digit is worth in a base of at most 36.
def digitValue? (base : Nat) (c : Char) : Option Nat :=
  let value? :=
    if '0' ≤ c ∧ c ≤ '9' then some (c.toNat - '0'.toNat)
    else if 'a' ≤ c ∧ c ≤ 'z' then some (c.toNat - 'a'.toNat + 10)
    else if 'A' ≤ c ∧ c ≤ 'Z' then some (c.toNat - 'A'.toNat + 10)
    else none
  value?.filter (· < base)

-- The value of a text that holds digits only, read after a part worth `value`. Reading stops as
-- soon as the value is not below `limit`, since more digits do not make it smaller.
def readDigits? (base limit : Nat) : Nat → List Char → Option Nat
  | value, [] => some value
  | value, c :: rest =>
    (digitValue? base c).bind fun d =>
      let value := value * base + d
      if value < limit then readDigits? base limit value rest else none

def ofDigits? (base limit : Nat) (text : List Char) : Option Nat :=
  if text.isEmpty then none else readDigits? base limit 0 text

-- The value of a non-empty text of digits, which one plus sign may precede, if it is below `limit`.
def ofNumeral? (base limit : Nat) (text : List Char) : Option Nat :=
  match text with
  | '+' :: digits => ofDigits? base limit digits
  | digits => ofDigits? base limit digits

end Z80Atlas.Text
