namespace Z80Atlas

inductive Kind where
  | none
  | data
  | port
  | localLabel
  | localLoop
  | label
  | subroutine
  | restart
  | displacement
  | byte
  | word
  | bigEndianWord
  deriving DecidableEq, Repr, Inhabited

namespace Kind

def rank : Kind → Nat
  | none => 0
  | data => 1
  | port => 2
  | localLabel => 3
  | localLoop => 4
  | label => 5
  | subroutine => 6
  | restart => 7
  | displacement => 8
  | byte => 9
  | word => 10
  | bigEndianWord => 11

def all : List Kind :=
  [none, data, port, localLabel, localLoop, label, subroutine, restart, displacement, byte, word,
    bigEndianWord]

-- A label that is met in several roles keeps the highest.
def promote (kind other : Kind) : Kind := if kind.rank < other.rank then other else kind

def isCode : Kind → Bool
  | localLabel | localLoop | label | subroutine | restart => true
  | _ => false

def isTopLevel : Kind → Bool
  | label | subroutine | restart => true
  | _ => false

def isSubroutine : Kind → Bool
  | subroutine | restart => true
  | _ => false

def isLocal : Kind → Bool
  | localLabel | localLoop => true
  | _ => false

def name : Kind → String
  | none => "NONE"
  | data => "DATA_LBL"
  | port => "PORT_LBL"
  | localLabel => "CODE_LOCAL_LBL"
  | localLoop => "CODE_LOCAL_LOOP"
  | label => "CODE_LBL"
  | subroutine => "CODE_SUB"
  | restart => "CODE_RST"
  | displacement => "RELATIVE_INDEX"
  | byte => "NUMBER_BYTE"
  | word => "NUMBER_WORD"
  | bigEndianWord => "NUMBER_WORD_BIG_ENDIAN"

theorem rank_inj {a b : Kind} (h : a.rank = b.rank) : a = b := by
  revert h; cases a <;> cases b <;> decide

theorem rank_promote (a b : Kind) : (a.promote b).rank = max a.rank b.rank := by
  unfold promote; split <;> omega

end Kind

end Z80Atlas
