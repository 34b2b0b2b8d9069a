namespace Z80Atlas

structure Comment where
  before : List String := []
  beside : Option String := none
  after : List String := []
  deriving DecidableEq, Repr, Inhabited

def Comment.annotate (comment : Comment) (statement : String) : String :=
  match comment.beside with
  | none => statement
  | some text => if text.isEmpty then statement else statement ++ "\t" ++ text

def Comment.surround (comment : Comment) (statement : String) : List String :=
  comment.before ++ comment.annotate statement :: comment.after

-- The statement among its comment lines, or alone if it has none or none are wanted.
def commented (comment : Option Comment) (statement : String) (disabled : Bool) : List String :=
  match comment with
  | some comment => if disabled then [statement] else comment.surround statement
  | none => [statement]

end Z80Atlas
