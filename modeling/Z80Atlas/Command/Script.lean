namespace Z80Atlas.Command

inductive Ending where
  | success
  | failure (code : UInt8)
  | usage
  | breakOff
  deriving DecidableEq, Repr

def Ending.code : Ending → UInt8
  | success => 0
  | failure code => code
  | usage => 2
  | breakOff => 101

-- What a run does to the world, as data. Reading and writing can fail, with the reason that the
-- system gives.
inductive Script where
  | exit (ending : Ending)
  | print (text : String) (next : Script)
  | report (text : String) (next : Script)
  | read (path : String) (next : Except String (List UInt8) → Script)
  | write (path text : String) (next : Option String → Script)

end Z80Atlas.Command
