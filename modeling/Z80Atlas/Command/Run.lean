import Z80Atlas.Command.Options
import Z80Atlas.Command.Script
import Z80Atlas.Input.Format
import Z80Atlas.Input.Snapshot
import Z80Atlas.Input.Trace
import Z80Atlas.Report.CallGraph
import Z80Atlas.Report.FlowChart
import Z80Atlas.Session.Analysis
import Z80Atlas.Text.Replace
import Z80Atlas.Text.Terminal
import Z80Atlas.Text.Utf8

namespace Z80Atlas.Command

def programName : String := "zdisasm"

def programVersion : String := "0.1.0"

-- A record of the log. Where its text goes on in a new line, that line is indented. Controls of a
-- terminal are left out.
def logText (level text : String) : String :=
  Text.plain ("[" ++ level ++ "] " ++ Text.replace "\n" "\n    " text ++ "\n")

-- What is reported of an entry of the journal. Notes are for the curious only.
def eventText (verbose : Bool) : Event → String
  | .note text => if verbose then logText "DEBUG" text else ""
  | .warning warning =>
    (if verbose then logText "DEBUG" ("warning: " ++ warning.message) else "") ++ warning.report

def infoText (text : String) : String := logText "INFO " text

def flush (options : Options) (session : Session) (next : Session → Script) : Script :=
  .report (String.join (session.journal.toList.map (eventText options.verbose)))
    (next { session with journal := #[] })

def fail (options : Options) (session : Session) (fault : Fault) (code : UInt8) : Script :=
  flush options session fun _ => .report fault.report (.exit (.failure code))

def readInput (options : Options) (session : Session) (path : String)
    (next : List UInt8 → Script) : Script :=
  .read path fun
    | .ok bytes => next bytes
    | .error reason =>
      fail options session
        { code := .cannotReadFile, message := "Cannot read '" ++ path ++ "': " ++ reason } 3

def loadImage (options : Options) (session : Session) (next : Session → Script) : Script :=
  match InputFormat.ofPath options.input with
  | .trace =>
    fail options session
      { code := .unknownInputFormat
        message := "'" ++ options.input ++ "' is a trace, not a memory image"
        hint := some "Pass traces with --trace next to the binary" } 2
  | .binary =>
    readInput options session options.input fun bytes =>
      next ((session.load options.origin bytes).note
        ("Loaded " ++ Text.decimal bytes.length ++ " bytes at " ++ Text.hex4 options.origin ++ "h"))
  | .snapshot =>
    readInput options session options.input fun bytes =>
      match Snapshot.load session bytes with
      | .ok (session, _) => next session
      | .error fault => fail options session fault 3

def useStarts (options : Options) (session : Session) : Session :=
  let session := options.starts.foldl (·.fixLabel · none) session
  options.tables.foldl (fun session (address, count) => session.fixTable address count) session

def useTrace (options : Options) (session : Session) (next : Session → Script) : Script :=
  match options.trace with
  | none => next session
  | some path =>
    readInput options session path fun bytes => next (Trace.use session (Text.decodeUtf8 bytes))

def useComments (options : Options) (session : Session) (next : Session → Script) : Script :=
  match options.comments with
  | none => next session
  | some path =>
    readInput options session path fun bytes =>
      match readCommentFile (Text.decodeUtf8 bytes) path with
      | .ok entries =>
        next ((session.note
          ("Read " ++ Text.decimal entries.length ++ " comment entries")).useEntries entries)
      | .error (.fault fault) => fail options session fault 3
      | .error .splitCharacter => flush options session fun _ => .exit .breakOff

def writeOutput (path text : String) (next : Script) : Script :=
  .write path text fun
    | none => next
    | some reason =>
      .report ("Error: Cannot write " ++ path ++ ": " ++ reason ++ "\n") (.exit (.failure 1))

def writeWanted (path : Option String) (text : Unit → String) (next : Script) : Script :=
  match path with
  | none => next
  | some path => writeOutput path (text ()) next

def graphSelection (options : Options) (session : Session) : Except Fault (List LabelId) :=
  match options.graphLabel with
  | none => .ok session.labels.ids
  | some text =>
    match AddressText.read text with
    | .ok address => session.graphLabels (.address address)
    | .error _ => session.graphLabels (.name text)

def writeCallGraph (options : Options) (session : Session) (next : Script) : Script :=
  match options.callGraph with
  | none => next
  | some path =>
    match graphSelection options session with
    | .ok ids => writeOutput path (session.callGraph ids) next
    | .error fault => .report fault.report (.exit (.failure 1))

def chartRoutines (options : Options) (session : Session) : List Address :=
  if options.chartStarts.isEmpty then
    (session.labels.live.filter fun label => !label.isEqu && label.kind.isTopLevel).map (·.address)
  else options.chartStarts

def writeListing (options : Options) (session : Session) (next : Script) : Script :=
  let listing := "\n".intercalate session.readListing.2 ++ "\n"
  match options.output with
  | some path => writeOutput path listing next
  | none => .print listing next

def writeAll (options : Options) (session : Session) : Script :=
  writeListing options session <|
    writeCallGraph options session <|
      writeWanted options.flowChart
        (fun _ => session.flowChart (chartRoutines options session)) <|
        writeWanted options.mainLabels (fun _ => session.mainLabels) <|
          match options.output with
          | some path =>
            .report
              (infoText ("Disassembled " ++ options.input ++ " -> " ++ path ++ " (" ++
                Text.decimal session.labels.size ++ " labels)"))
              (.exit .success)
          | none => .exit .success

def Options.config (options : Options) : Config :=
  { lowerCase := !options.upperCase
    showBytes := !options.hideBytes
    disableComments := options.hideComments
    deniedRestarts := options.deniedRestarts }

def Options.script (options : Options) : Script :=
  loadImage options { config := options.config } fun session =>
    useTrace options (useStarts options session) fun session =>
      useComments options session fun session =>
        flush options session fun session =>
          .report (infoText ("Disassembling " ++ options.input ++ "...")) <|
            flush options session.disassemble (writeAll options)

def script (arguments : List String) : Script :=
  match Options.read arguments with
  | .ok options => options.script
  | .error .version => .print (programName ++ " " ++ programVersion ++ "\n") (.exit .success)
  | .error .help => .print ("Usage: " ++ programName ++ " [OPTIONS] <INPUT>\n") (.exit .success)
  | .error .usage => .report "error: invalid arguments\n" (.exit .usage)

end Z80Atlas.Command
