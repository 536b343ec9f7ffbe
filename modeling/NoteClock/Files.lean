/-!
Files and directories, the paths that lead to them, and what reading and writing them can run into. A
path is walked part by part, from the working directory or from the root of all directories.
-/

namespace NoteClock

/-- What reading and writing run into. A file is denied when it is there and may not be opened, and
barred when a directory on the way to it may not be searched. -/
inductive FileFault where
  | notFound
  | notADirectory
  | isADirectory
  | alreadyExists
  | nameTooLong
  | barred
  | denied
  | notText
  deriving DecidableEq, Repr

namespace FileFault

def code? : FileFault → Option Nat
  | notFound => some 2
  | alreadyExists => some 17
  | notADirectory => some 20
  | isADirectory => some 21
  | nameTooLong => some 36
  | barred | denied => some 13
  | notText => none

def describe : FileFault → String
  | notFound => "No such file or directory"
  | notADirectory => "Not a directory"
  | isADirectory => "Is a directory"
  | alreadyExists => "File exists"
  | nameTooLong => "File name too long"
  | barred | denied => "Permission denied"
  | notText => "stream did not contain valid UTF-8"

def message (fault : FileFault) : String :=
  match fault.code? with
  | some code => s!"{fault.describe} (os error {code})"
  | none => fault.describe

def isPresent : FileFault → Bool
  | isADirectory | denied | notText => true
  | notFound | notADirectory | alreadyExists | nameTooLong | barred => false

end FileFault

structure Path where
  absolute : Bool
  parts : List String
  deriving DecidableEq, Repr

namespace Path

def splitParts (chars : List Char) : List String := (chars.splitOn '/').map String.ofList

def ofString (path : String) : Path :=
  match path.toList with
  | '/' :: rest => ⟨true, splitParts rest⟩
  | chars => ⟨false, splitParts chars⟩

def maxSize : Nat := 4095

def maxNameSize : Nat := 255

instance : ToString Path :=
  ⟨fun path => (if path.absolute then "/" else "") ++ "/".intercalate path.parts⟩

def isTooLong (path : Path) : Bool := maxSize < (toString path).utf8ByteSize

def staysAt (part : String) : Bool := part = "" || part = "."

def withoutTail (parts : List String) : List String := (parts.reverse.dropWhile staysAt).reverse

def parent (path : Path) : Path :=
  { path with parts := withoutTail (withoutTail path.parts).dropLast }

end Path

/-- What the names of a place count from: the root of all directories, or the directory so many levels
above the working directory. -/
inductive Base where
  | root
  | above (levels : Nat)
  deriving DecidableEq, Repr

structure Place where
  base : Base
  names : List String
  deriving DecidableEq, Repr

namespace Place

def parent (place : Place) : Place :=
  match place.base, place.names with
  | .root, [] => place
  | .above levels, [] => ⟨.above (levels + 1), []⟩
  | _, _ :: _ => { place with names := place.names.dropLast }

def child (place : Place) (name : String) : Place := { place with names := place.names ++ [name] }

def contains (place other : Place) : Bool :=
  place.base = other.base && place.names.isPrefixOf other.names

end Place

def Path.start (path : Path) : Place := if path.absolute then ⟨.root, []⟩ else ⟨.above 0, []⟩

structure Files where
  contents : List (Place × ByteArray)
  directories : List Place

namespace Files

abbrev Reader := String → Except FileFault ByteArray

def empty : Files := ⟨[], []⟩

def find? (files : Files) (place : Place) : Option ByteArray := files.contents.lookup place

def isDirectory (files : Files) (place : Place) : Bool :=
  place.names.isEmpty ||
    files.contents.any (fun file => place.contains file.1 && place ≠ file.1) ||
    files.directories.any place.contains

def step (files : Files) (place : Place) (part : String) : Except FileFault Place :=
  if (files.find? place).isSome then .error .notADirectory
  else if !files.isDirectory place then .error .notFound
  else if Path.staysAt part then .ok place
  else if part = ".." then .ok place.parent
  else if Path.maxNameSize < part.utf8ByteSize then .error .nameTooLong
  else .ok (place.child part)

def walk (files : Files) (path : Path) : Except FileFault Place :=
  if path.isTooLong then .error .nameTooLong else path.parts.foldlM files.step path.start

def read (files : Files) (path : String) : Except FileFault ByteArray := do
  if path = "" then throw .notFound
  let place ← files.walk (.ofString path)
  match files.find? place with
  | some bytes => return bytes
  | none => throw (if files.isDirectory place then .isADirectory else .notFound)

inductive WriteFault where
  | directory (fault : FileFault)
  | file (fault : FileFault)
  deriving DecidableEq, Repr

/-- Walks along the parts and makes the directories that are missing. A file in the way exists already
where a directory is to be made: at the last part, and everywhere once one has been made. -/
def makeDirectories (files : Files) (place : Place) (making : Bool) :
    List String → Option FileFault × Files
  | [] => (none, files)
  | part :: rest =>
      match files.step place part with
      | .error fault => (some fault, files)
      | .ok next =>
          let occupied := (files.find? next).isSome
          if occupied && (making || rest.isEmpty) then (some .alreadyExists, files)
          else if occupied || files.isDirectory next then files.makeDirectories next making rest
          else makeDirectories { files with directories := next :: files.directories } next true rest

def makeDirectory (files : Files) (path : Path) : Option FileFault × Files :=
  if path.isTooLong then (some .nameTooLong, files)
  else files.makeDirectories path.start false path.parts

def put (files : Files) (place : Place) (bytes : ByteArray) : Files :=
  { files with contents := (place, bytes) :: files.contents.filter (·.1 ≠ place) }

def placeToWrite (files : Files) (path : Path) : Except FileFault Place := do
  if path.isTooLong then throw .nameTooLong
  let parts := (path.parts.reverse.dropWhile (· = "")).reverse
  let above ← parts.dropLast.foldlM files.step path.start
  let last := if parts.length < path.parts.length then "." else parts.getLastD "."
  let place ← files.step above last
  if files.isDirectory place then throw .isADirectory
  return place

/-- Writes a file and makes the directories above it. These stay when only the file fails. -/
def write (files : Files) (path : String) (bytes : ByteArray) : Option WriteFault × Files :=
  let path := Path.ofString path
  match files.makeDirectory path.parent with
  | (some fault, files) => (some (.directory fault), files)
  | (none, files) =>
      match files.placeToWrite path with
      | .error fault => (some (.file fault), files)
      | .ok place => (none, files.put place bytes)

end Files

end NoteClock
