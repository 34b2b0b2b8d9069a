import Z80Atlas.Command.Script

namespace Z80Atlas.Command

-- Files by name. The folder has no folders inside; outside there are those that every system has,
-- with the usual devices and no files but those that a script writes, which have their paths as
-- names.
structure Folder where
  files : List (String × List UInt8) := []

inductive Way where
  | above (levels : Nat)
  | root
  | top (name : String)
  deriving DecidableEq, Repr

inductive Device where
  | null
  | full
  | output
  | errors
  deriving DecidableEq, Repr

inductive Place where
  | folder (way : Way)
  | entry (name : String)
  | device (device : Device)
  deriving DecidableEq, Repr

def Device.ofName? : String → Option Device
  | "null" | "stdin" => some null
  | "full" => some full
  | "stdout" => some output
  | "stderr" => some errors
  | _ => none

namespace Way

def topNames : List String :=
  ["bin", "dev", "etc", "home", "lib", "media", "mnt", "opt", "proc", "root", "run", "sbin", "srv",
    "sys", "tmp", "usr", "var"]

def parent : Way → Way
  | above levels => above (levels + 1)
  | root | top _ => root

def child (name : String) : Way → Place
  | above levels => .entry (String.join (List.replicate levels "../") ++ name)
  | root => if topNames.contains name then .folder (top name) else .entry ("/" ++ name)
  | top folder =>
    match (if folder == "dev" then Device.ofName? name else none) with
    | some device => .device device
    | none => .entry ("/" ++ folder ++ "/" ++ name)

end Way

namespace Folder

def missing : String := "No such file or directory (os error 2)"

def notFolder : String := "Not a directory (os error 20)"

def isFolder : String := "Is a directory (os error 21)"

def noSpace : String := "No space left on device (os error 28)"

def nameTooLong : String := "File name too long (os error 36)"

def nameLimit : Nat := 255

def pathLimit : Nat := 4095

def find? (folder : Folder) (name : String) : Option (List UInt8) :=
  (folder.files.find? (·.1 == name)).map (·.2)

def put (folder : Folder) (name : String) (content : List UInt8) : Folder :=
  ⟨(name, content) :: folder.files.filter (·.1 != name)⟩

-- Only folders hold anything.
def enter (folder : Folder) (place : Place) (name : String) : Except String Place :=
  match place with
  | .entry file => .error (if (folder.find? file).isSome then notFolder else missing)
  | .device _ => .error notFolder
  | .folder way =>
    if name == "." then .ok (.folder way)
    else if name == ".." then .ok (.folder way.parent)
    else if name.utf8ByteSize > nameLimit then .error nameTooLong
    else .ok (way.child name)

def names (path : String) : List String := (path.splitOn "/").filter (!·.isEmpty)

def follow (folder : Folder) (path : String) (names : List String) : Except String Place :=
  if path.utf8ByteSize > pathLimit then .error nameTooLong
  else names.foldlM folder.enter (.folder (if path.startsWith "/" then .root else .above 0))

def locate (folder : Folder) (path : String) : Except String Place :=
  folder.follow path (names path)

def locateFolder (folder : Folder) (path : String) : Except String Place :=
  folder.follow path ((names path).dropLast ++ ["."])

-- A slash behind the name of a file asks for a folder.
def read (folder : Folder) (path : String) : Except String (List UInt8) := do
  match ← folder.locate path with
  | .folder _ => .error isFolder
  | .device _ => if path.endsWith "/" then .error notFolder else .ok []
  | .entry name =>
    match folder.find? name with
    | none => .error missing
    | some content => if path.endsWith "/" then .error notFolder else .ok content

end Folder

structure Scene where
  folder : Folder
  output : String := ""
  errors : String := ""

namespace Scene

def writeDevice (scene : Scene) (text : String) : Device → Except String Scene
  | .null => .ok scene
  | .full => if text.isEmpty then .ok scene else .error Folder.noSpace
  | .output => .ok { scene with output := scene.output ++ text }
  | .errors => .ok { scene with errors := scene.errors ++ text }

-- Write a file, or tell the reason why that cannot be. A slash behind its name asks for a folder,
-- which is refused without a look at the name.
def write (scene : Scene) (path text : String) : Except String Scene := do
  if path.endsWith "/" then
    let _ ← scene.folder.locateFolder path
    .error Folder.isFolder
  else
    match ← scene.folder.locate path with
    | .folder _ => .error Folder.isFolder
    | .device device => scene.writeDevice text device
    | .entry name =>
      .ok { scene with folder := scene.folder.put name text.toUTF8.toList }

end Scene

structure Outcome extends Scene where
  ending : Ending

def Script.runFrom (scene : Scene) : Script → Outcome
  | .exit ending => ⟨scene, ending⟩
  | .print text next => next.runFrom { scene with output := scene.output ++ text }
  | .report text next => next.runFrom { scene with errors := scene.errors ++ text }
  | .read path next => (next (scene.folder.read path)).runFrom scene
  | .write path text next =>
    match scene.write path text with
    | .ok scene => (next none).runFrom scene
    | .error reason => (next (some reason)).runFrom scene

def Script.runIn (script : Script) (folder : Folder) : Outcome := script.runFrom ⟨folder, "", ""⟩

end Z80Atlas.Command
