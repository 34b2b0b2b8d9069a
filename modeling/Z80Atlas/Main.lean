import Z80Atlas.Command.Folder
import Z80Atlas.Command.Run

namespace Z80Atlas.Command

def reasonOfCode (code : UInt32) (details : String) : String :=
  let code := if code < 0x80000000 then code else -code
  match code with
  | 2 => Folder.missing
  | 13 => "Permission denied (os error 13)"
  | 20 => Folder.notFolder
  | 21 => Folder.isFolder
  | 28 => Folder.noSpace
  | 36 => Folder.nameTooLong
  | _ => details ++ " (os error " ++ Text.decimal code.toNat ++ ")"

def reasonOf (error : IO.Error) : String :=
  match error with
  | .noFileOrDirectory _ code details => reasonOfCode code details
  | .permissionDenied _ code details => reasonOfCode code details
  | .inappropriateType _ code details => reasonOfCode code details
  | .invalidArgument _ code details => reasonOfCode code details
  | .resourceExhausted _ code details => reasonOfCode code details
  | .otherError code details => reasonOfCode code details
  | error => toString error

def Script.perform : Script → IO UInt32
  | .exit ending => return ending.code.toUInt32
  | .print text next => do
    IO.print text
    next.perform
  | .report text next => do
    IO.eprint text
    next.perform
  | .read path next => do
    match ← (IO.FS.readBinFile path).toBaseIO with
    | .ok bytes => (next (.ok bytes.toList)).perform
    | .error error => (next (.error (reasonOf error))).perform
  | .write path text next => do
    match ← (IO.FS.writeFile path text).toBaseIO with
    | .ok () => (next none).perform
    | .error error => (next (some (reasonOf error))).perform

end Z80Atlas.Command

def main (arguments : List String) : IO UInt32 := (Z80Atlas.Command.script arguments).perform
