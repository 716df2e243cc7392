import Rio.CommandLine.Session

/-!
# A modelled disk

Files and folders under a working folder, enough to carry out a run of the program without a real
disk. Places are lists of names from the working folder; `..` leads out of it, and the folders out
there exist.
-/

namespace Rio.CommandLine

/-- A place on the disk. -/
abbrev Place := List String

/-- The folders that were made and the files with their contents. -/
structure Disk where
  folders : List Place := []
  files : List (Place × List UInt8) := []
deriving Repr, DecidableEq

namespace Disk

/-- The content of a file. -/
def file? (d : Disk) (place : Place) : Option (List UInt8) :=
  d.files.lookup place

/-- Whether a place is a folder. The working folder and the ones around it always are. -/
def isFolder (d : Disk) (place : Place) : Bool :=
  place.all (· == "..") || d.folders.contains place

/-- The place above another one. -/
def parent (place : Place) : Place :=
  if place.all (· == "..") then place ++ [".."] else place.dropLast

/-- Follows names from a folder; every name on the way has to be a folder. -/
def follow? (d : Disk) (place : Place) : List String → Option Place
  | [] => some place
  | name :: names =>
    if d.isFolder place then
      if name == ".." then follow? d (parent place) names else follow? d (place ++ [name]) names
    else none

/-- The place that a path leads to. Absolute paths lead nowhere. -/
def place? (d : Disk) (path : String) : Option Place :=
  match path.toList with
  | '/' :: _ => none
  | _ => d.follow? [] (pathParts path)

/-- Whether a path can only be a folder, by its ending. -/
def endsInFolder (path : String) : Bool :=
  match path.toList.reverse with
  | '/' :: _ => true
  | '.' :: '/' :: _ => true
  | _ => false

/-- The content of the file at a path. -/
def read (d : Disk) (path : String) : Option (List UInt8) :=
  if endsInFolder path then none
  else
    match d.place? path with
    | some place => if d.isFolder place then none else d.file? place
    | none => none

/-- Puts a file at a place, in front of an older one. -/
def put (d : Disk) (place : Place) (content : List UInt8) : Disk :=
  { d with files := (place, content) :: d.files.filter (·.1 != place) }

/-- Writes a file at a path; its folder has to be there. -/
def write (d : Disk) (path : String) (content : List UInt8) : Option Disk :=
  if endsInFolder path then none
  else
    match d.place? path with
    | some place => if d.isFolder place then none else some (d.put place content)
    | none => none

/-- Follows names from a folder and makes the folders that are missing. -/
def createFrom (d : Disk) (place : Place) : List String → Option Disk
  | [] => some d
  | name :: names =>
    let next := if name == ".." then parent place else place ++ [name]
    if d.isFolder next then createFrom d next names
    else if (d.file? next).isSome then none
    else createFrom { d with folders := next :: d.folders } next names

/-- Makes the folder at a path and those above it. -/
def createDir (d : Disk) (path : String) : Option Disk :=
  match path.toList with
  | '/' :: _ => none
  | _ => d.createFrom [] (pathParts path)

/-- A disk with the given files, and the folders that they need. -/
def ofFiles (files : List (String × List UInt8)) : Disk :=
  files.foldl (fun d (path, content) =>
    let place := pathParts path
    let d := (d.createFrom [] place.dropLast).getD d
    d.put place content) {}

/-- Access to a modelled disk. -/
def access : FileAccess (StateM Disk) where
  read path := return (← get).read path
  write path text := do
    match (← get).write path text.toUTF8.data.toList with
    | some d => set d; return true
    | none => return false
  createDir path := do
    match (← get).createDir path with
    | some d => set d; return true
    | none => return false

/-- The files that are new or changed against an older disk, by their paths. Files outside the
working folder are left out. -/
def changesSince (d old : Disk) : List (String × List UInt8) :=
  (d.files.filter fun (place, content) =>
    place.head? != some ".." && old.file? place != some content).map
      fun (place, content) => ("/".intercalate place, content)

end Disk

end Rio.CommandLine
