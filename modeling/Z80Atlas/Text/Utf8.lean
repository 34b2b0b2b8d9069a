namespace Z80Atlas.Text

def replacement : Char := Char.ofNat 0xFFFD

-- How a character of several bytes goes on: how many bytes follow, what the first byte adds to the
-- code point, and between which bounds the second byte lies.
structure Utf8Lead where
  following : Nat
  value : Nat
  low : Nat
  high : Nat

def utf8Lead? (byte : Nat) : Option Utf8Lead :=
  if byte < 0xC2 then none
  else if byte < 0xE0 then some ⟨1, byte - 0xC0, 0x80, 0xBF⟩
  else if byte < 0xF0 then
    some ⟨2, byte - 0xE0, if byte = 0xE0 then 0xA0 else 0x80, if byte = 0xED then 0x9F else 0xBF⟩
  else if byte < 0xF5 then
    some ⟨3, byte - 0xF0, if byte = 0xF0 then 0x90 else 0x80, if byte = 0xF4 then 0x8F else 0xBF⟩
  else none

-- Read the remaining bytes of a character worth `value` so far, of which `used` were read. The
-- result is the character and the number of bytes read after the first.
def readFollowing (value used low high : Nat) : Nat → List UInt8 → Char × Nat
  | 0, _ => (Char.ofNat value, used)
  | _ + 1, [] => (replacement, used)
  | count + 1, byte :: rest =>
    if low ≤ byte.toNat && byte.toNat ≤ high then
      readFollowing (value * 64 + (byte.toNat - 0x80)) (used + 1) 0x80 0xBF count rest
    else (replacement, used)

-- Read a character. The result tells how many bytes were read after the first.
def readUtf8 (byte : UInt8) (rest : List UInt8) : Char × Nat :=
  if byte.toNat < 0x80 then (Char.ofNat byte.toNat, 0)
  else
    match utf8Lead? byte.toNat with
    | some lead => readFollowing lead.value 0 lead.low lead.high lead.following rest
    | none => (replacement, 0)

-- The characters of bytes, of which the next `skip` belong to a character read before, in front of
-- the characters read so far; latest first.
def decodeFrom (text : List Char) : Nat → List UInt8 → List Char
  | _, [] => text
  | skip + 1, _ :: rest => decodeFrom text skip rest
  | 0, byte :: rest =>
    let (c, used) := readUtf8 byte rest
    decodeFrom (c :: text) used rest

-- Each longest beginning of a character that does not go on as it must becomes one replacement
-- character, and so does any other stray byte.
def decodeUtf8 (bytes : List UInt8) : String := String.ofList (decodeFrom [] 0 bytes).reverse

end Z80Atlas.Text
