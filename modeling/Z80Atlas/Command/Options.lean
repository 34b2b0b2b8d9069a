import Z80Atlas.Input.AddressText

namespace Z80Atlas.Command

structure Options where
  input : String
  origin : Address := 0
  starts : List Address := []
  tables : List (Address × Nat) := []
  trace : Option String := none
  comments : Option String := none
  deniedRestarts : List Address := []
  output : Option String := none
  callGraph : Option String := none
  graphLabel : Option String := none
  flowChart : Option String := none
  chartStarts : List Address := []
  mainLabels : Option String := none
  upperCase : Bool := false
  hideBytes : Bool := false
  hideComments : Bool := false
  verbose : Bool := false
  deriving Repr

inductive Flag where
  | origin | start | table | trace | comments | denyRestart | output | callGraph | graphLabel
  | flowChart | chartStart | mainLabels | upperCase | hideBytes | hideComments | verbose
  | version | help
  deriving DecidableEq, Repr

namespace Flag

def ofLong? : String → Option Flag
  | "org" => some origin
  | "start" => some start
  | "jmp-table" => some table
  | "trace" => some trace
  | "comments" => some comments
  | "no-follow-rst" => some denyRestart
  | "output" => some output
  | "callgraph" => some callGraph
  | "graph-label" => some graphLabel
  | "flowchart" => some flowChart
  | "flowchart-start" => some chartStart
  | "main-labels" => some mainLabels
  | "uppercase" => some upperCase
  | "no-opcode-bytes" => some hideBytes
  | "no-comments" => some hideComments
  | "verbose" => some verbose
  | "version" => some version
  | "help" => some help
  | _ => none

def ofLetter? : Char → Option Flag
  | 'o' => some output
  | 'v' => some verbose
  | 'V' => some version
  | 'h' => some help
  | _ => none

def takesValue : Flag → Bool
  | upperCase | hideBytes | hideComments | verbose | version | help => false
  | _ => true

def isRepeatable : Flag → Bool
  | start | table | denyRestart | chartStart => true
  | _ => false

end Flag

inductive Refusal where
  | usage
  | version
  | help
  deriving DecidableEq, Repr

structure Draft where
  options : Options := { input := "" }
  hasInput : Bool := false
  given : List Flag := []
  awaiting : Option Flag := none
  plain : Bool := false

def readAddress (text : String) : Except Refusal Address :=
  match AddressText.read text with
  | .ok address => .ok address
  | .error _ => .error .usage

-- Read the address and the length of a table. The length has at most 64 bits.
def readTable (text : String) : Except Refusal (Address × Nat) := do
  let address := text.toList.takeWhile (· != ':')
  match text.toList.dropWhile (· != ':') with
  | [] => .error .usage
  | _ :: count =>
    match Text.ofNumeral? 10 0x10000000000000000 count with
    | some count => return (← readAddress (String.ofList address), count)
    | none => .error .usage

def readPath (text : String) : Except Refusal (Option String) :=
  if text.isEmpty then .error .usage else .ok (some text)

def Options.set (options : Options) (flag : Flag) (value : String) : Except Refusal Options :=
  match flag with
  | .origin => do return { options with origin := ← readAddress value }
  | .start => do return { options with starts := options.starts ++ [← readAddress value] }
  | .table => do return { options with tables := options.tables ++ [← readTable value] }
  | .trace => do return { options with trace := ← readPath value }
  | .comments => do return { options with comments := ← readPath value }
  | .denyRestart => do
    return { options with deniedRestarts := options.deniedRestarts ++ [← readAddress value] }
  | .output => do return { options with output := ← readPath value }
  | .callGraph => do return { options with callGraph := ← readPath value }
  | .graphLabel => .ok { options with graphLabel := some value }
  | .flowChart => do return { options with flowChart := ← readPath value }
  | .chartStart => do
    return { options with chartStarts := options.chartStarts ++ [← readAddress value] }
  | .mainLabels => do return { options with mainLabels := ← readPath value }
  | .upperCase => .ok { options with upperCase := true }
  | .hideBytes => .ok { options with hideBytes := true }
  | .hideComments => .ok { options with hideComments := true }
  | .verbose => .ok { options with verbose := true }
  | .version => .error .version
  | .help => .error .help

namespace Draft

-- Only some options may be given again.
def use (draft : Draft) (flag : Flag) (value : String) : Except Refusal Draft := do
  let options ← draft.options.set flag value
  if draft.given.contains flag && !flag.isRepeatable then .error .usage
  else return { draft with options, given := flag :: draft.given, awaiting := none }

-- Use an argument that is no option: the input, of which there is one.
def useInput (draft : Draft) (argument : String) : Except Refusal Draft :=
  if draft.hasInput || argument.isEmpty then .error .usage
  else .ok { draft with options := { draft.options with input := argument }, hasInput := true }

-- Use a long option, with its value if an equals sign joins one to it.
def useLong (draft : Draft) (text : List Char) : Except Refusal Draft :=
  match Flag.ofLong? (String.ofList (text.takeWhile (· != '='))), text.dropWhile (· != '=') with
  | none, _ => .error .usage
  | some flag, [] =>
    if flag.takesValue then .ok { draft with awaiting := some flag } else draft.use flag ""
  | some flag, _ :: value =>
    if flag.takesValue then draft.use flag (String.ofList value) else .error .usage

-- Use options given by letters. The rest behind an option with a value is the value.
def useLetters (draft : Draft) : List Char → Except Refusal Draft
  | [] => .ok draft
  | c :: rest =>
    match Flag.ofLetter? c with
    | none => .error .usage
    | some flag =>
      if flag.takesValue then
        match rest with
        | [] => .ok { draft with awaiting := some flag }
        | '=' :: value => draft.use flag (String.ofList value)
        | value => draft.use flag (String.ofList value)
      else do (← draft.use flag "").useLetters rest

-- Use one argument. An option that waits for a value takes what does not look like an option.
def useArgument (draft : Draft) (argument : String) : Except Refusal Draft :=
  match draft.awaiting with
  | some flag =>
    match argument.toList with
    | '-' :: _ :: _ => .error .usage
    | _ => draft.use flag argument
  | none =>
    if draft.plain then draft.useInput argument
    else
      match argument.toList with
      | ['-', '-'] => .ok { draft with plain := true }
      | '-' :: '-' :: text => draft.useLong text
      | '-' :: c :: text => draft.useLetters (c :: text)
      | _ => draft.useInput argument

def finish (draft : Draft) : Except Refusal Options :=
  if draft.awaiting.isSome || !draft.hasInput then .error .usage else .ok draft.options

end Draft

-- Arguments are read from left to right, and the first one that is wrong, or that asks for
-- something else than a run, decides.
def Options.read (arguments : List String) : Except Refusal Options := do
  (← arguments.foldlM Draft.useArgument {}).finish

end Z80Atlas.Command
