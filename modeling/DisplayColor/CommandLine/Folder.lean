import DisplayColor.CommandLine.Place
import DisplayColor.CommandLine.Program

/-! # Folders

A folder in memory that a run of the program can be given as its surroundings, with variables beside
it.  Of what lies outside the folder only the folders above it, the usual folders at the root and
the empty device are known. -/

namespace DisplayColor.CommandLine

/-- Files by their path, and variables by their name. -/
structure Folder where
  files : List (String × ByteArray)
  environment : List (String × String)

namespace Folder

inductive Content
  | file (bytes : ByteArray)
  | directory
  | nothing

/-- The device that is always empty. -/
def emptyDevice : String := "/dev/null"

def usualDirectories : List String := ["bin", "dev", "etc", "home", "tmp", "usr", "var"]

def content (folder : Folder) (place : Place) : Content :=
  let known := (emptyDevice, ByteArray.empty) :: folder.files
  -- Only files are kept, so a directory is a place with a file somewhere below it.
  if place.names.isEmpty || known.any fun file => (Place.ofPath file.1).isBelow place then
    .directory
  else if usualDirectories.any fun name => place == ⟨.root, [name]⟩ then .directory
  else
    match known.find? fun file => Place.ofPath file.1 == place with
    | some file => .file file.2
    | none => .nothing

def lookup (folder : Folder) (place : Place) (step : String) : Except PathError Content :=
  if Place.isDots step then .ok .directory
  else if longestName < step.utf8ByteSize then .error .nameTooLong
  else .ok (folder.content (place.step step))

def walk (folder : Folder) (place : Place) : List String → Except PathError Place
  | [] => .ok place
  | step :: rest => do
    match ← folder.lookup place step with
    | .directory => walk folder (place.step step) rest
    | .file _ => .error .notDirectory
    | .nothing => .error .noSuchFile

def find (folder : Folder) (path : String) : Except PathError Content := do
  if longestPath < path.utf8ByteSize then .error .nameTooLong
  else
    let steps := Place.steps path
    let place ← folder.walk (Place.start path) steps.dropLast
    match steps.getLast? with
    | some step => folder.lookup place step
    | none => .ok .directory

/-- Tells why no file can be created at a path, if none can.  A path that ends in a slash is no path
of a file. -/
def checkCreation (folder : Folder) (path : String) : Except PathError Unit := do
  let steps := Place.steps path
  if longestPath < path.utf8ByteSize then .error .nameTooLong
  else
    let place ← folder.walk (Place.start path) steps.dropLast
    match steps.getLast? with
    | none => .error .isDirectory
    | some step =>
      if path.endsWith "/" || Place.isDots step then .error .isDirectory
      else
        match ← folder.lookup place step with
        | .directory => .error .isDirectory
        | _ => .ok ()

/-- Creates an empty file. -/
def createFile (path : String) : StateM Folder (Except String Unit) := do
  let folder ← get
  match folder.checkCreation path with
  | .error cause => pure (.error cause.message)
  | .ok () =>
    let others := folder.files.filter fun file => Place.ofPath file.1 != Place.ofPath path
    set { folder with files := (path, ByteArray.empty) :: others }
    pure (.ok ())

/-- What is at a path; nothing is at a path that leads nowhere, nor at one of a file that ends in a
slash. -/
def readFile (path : String) : StateM Folder (Option (Except String ByteArray)) := do
  match (← get).find path with
  | .ok .directory => pure (some (.error PathError.isDirectory.message))
  | .ok (.file bytes) => pure (if path.endsWith "/" then none else some (.ok bytes))
  | _ => pure none

def readVariable (name : String) : StateM Folder (Option String) := do
  pure ((← get).environment.lookup name)

def surroundings : Surroundings (StateM Folder) := ⟨createFile, readFile, readVariable⟩

def run (folder : Folder) (arguments : List String) : Outcome :=
  (CommandLine.run surroundings arguments folder).1

end Folder

end DisplayColor.CommandLine
