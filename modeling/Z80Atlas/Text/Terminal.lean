namespace Z80Atlas.Text

inductive Control where
  | plain
  | escape
  | between
  | sequence
  | device
  | deviceParameter
  | deviceBetween
  -- The content of a string, which the byte of the string terminator ends.
  | content
  -- A command to the system of the terminal, which a bell ends.
  | command
  deriving DecidableEq, Repr

def isWithin (low high c : Char) : Bool := low ≤ c && c ≤ high

-- Controls that are shown: they move to another place, but draw no more than blanks.
def isSpacing (c : Char) : Bool := c == '\t' || c == '\n' || c == '\x0c' || c == '\r'

def isControl (c : Char) : Bool := c < ' ' || c == '\x7f'

-- Is the byte of the string terminator among the bytes of the character?
def endsContent (c : Char) : Bool := (String.utf8EncodeChar c).contains 0x9C

namespace Control

def afterEscape (c : Char) : Control :=
  if isWithin ' ' '/' c then between
  else if c == '[' then sequence
  else if c == ']' then command
  else if c == 'P' then device
  else if c == 'X' || c == '^' || c == '_' then content
  else if isWithin '0' '~' c then plain
  else escape

-- What follows a character that is not shown. An escape character begins a sequence anywhere, and
-- the controls for cancel and substitute end one anywhere.
def next (control : Control) (c : Char) : Control :=
  if c == '\x1b' then escape
  else if c == '\x18' || c == '\x1a' then plain
  else
    match control with
    | plain => plain
    | escape => afterEscape c
    | between => if isWithin '0' '~' c then plain else between
    | sequence => if isWithin '@' '~' c then plain else sequence
    | device =>
      if isWithin ' ' '/' c then deviceBetween
      else if isWithin '0' '?' c then deviceParameter
      else if isWithin '@' '~' c then content
      else device
    | deviceParameter =>
      if isWithin ' ' '/' c then deviceBetween
      else if isWithin '<' '~' c then content
      else deviceParameter
    | deviceBetween => if isWithin '0' '~' c then content else deviceBetween
    | content => if endsContent c then plain else content
    | command => if c == '\x07' then plain else command

-- Is a character shown? Spacing is shown also inside of sequences, but not inside of strings.
def shows (control : Control) (c : Char) : Bool :=
  match control with
  | plain => !isControl c || isSpacing c
  | escape | between | sequence => isSpacing c
  | device | deviceParameter | deviceBetween | content | command => false

-- What the next character is taken for: plain text goes on behind a character that is shown.
def reading (control : Control) (showing : Bool) : Control := if showing then plain else control

end Control

-- What is shown of a text. Behind a character that is shown (`showing`) plain text goes on, even if
-- that character interrupted a sequence; the next control character takes the sequence up again,
-- unless a character beyond ASCII was shown in between.
def plainFrom (showing : Bool) (control : Control) : List Char → List Char
  | [] => []
  | c :: rest =>
    if (control.reading showing).shows c then
      c :: plainFrom true (if c.toNat < 0x80 then control else .plain) rest
    else plainFrom false (control.next c) rest

def plain (text : String) : String := String.ofList (plainFrom false .plain text.toList)

theorem plainFrom_sublist (showing : Bool) (control : Control) (text : List Char) :
    (plainFrom showing control text).Sublist text := by
  induction text generalizing showing control with
  | nil => exact .slnil
  | cons c rest ih =>
    unfold plainFrom
    split
    · exact (ih _ _).cons_cons c
    · exact (ih _ _).cons c

theorem plainFrom_eq_self (showing : Bool) (text : List Char)
    (h : ∀ c ∈ text, isControl c = false) : plainFrom showing .plain text = text := by
  induction text generalizing showing with
  | nil => rfl
  | cons c rest ih =>
    have hc : Control.plain.shows c = true := by simp [Control.shows, h c List.mem_cons_self]
    have hrest := ih true fun d hd => h d (List.mem_cons_of_mem c hd)
    have hreading : Control.plain.reading showing = .plain := by cases showing <;> rfl
    simp [plainFrom, hreading, hc, hrest]

end Z80Atlas.Text
