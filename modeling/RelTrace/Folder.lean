import RelTrace.Keyed

/-!
# Folders

The files that a command can read and write: the folder that it works in, with the texts of the
files, and the directories that are there. Paths are resolved as on a file system without links.
The working folder, the folders above it and the root are always there. Their own names are not
known, and nothing is refused for want of rights or of room.

## Main definitions

* `Folder`: files under their paths, and directories.
* `Folder.read`, `Folder.write`: the text of a file, and the folder with a new text for it.
* `Folder.inside`: the files in and below the working folder.
* `FileError`: why reading and writing can fail.
-/

namespace RelTrace

/-- Why a file cannot be read or written. -/
inductive FileError where
  /-- The system refuses, with a number and a description. -/
  | system (code : Nat) (description : String)
  | nulInName
  | notText
deriving DecidableEq

namespace FileError

/-- There is no such file, or no such folder for it. -/
def notFound : FileError := system 2 "No such file or directory"

/-- A file stands where a folder is needed. -/
def notDirectory : FileError := system 20 "Not a directory"

/-- A folder stands where a file is needed. -/
def isDirectory : FileError := system 21 "Is a directory"

/-- A name or a whole path has too many bytes. -/
def nameTooLong : FileError := system 36 "File name too long"

/-- The text of the error. -/
def message : FileError → String
  | system code description => description ++ " (os error " ++ toString code ++ ")"
  | nulInName => "file name contained an unexpected NUL byte"
  | notText => "stream did not contain valid UTF-8"

end FileError

/-- Texts of files under their paths, and the paths of directories. A directory that something lies
in need not be among them. -/
structure Folder where
  files : Keyed String
  directories : List String

namespace Folder

/-- Files without further directories. -/
def ofList (files : List (String × String)) : Folder := ⟨.ofList files, []⟩

/-- No files. -/
def empty : Folder := ofList []

/-- The text of the file with a path, from the working folder or from the root. -/
def find? (folder : Folder) (path : String) : Option String := folder.files.find? path

/-- A text under a path. -/
def insert (folder : Folder) (path text : String) : Folder :=
  { folder with files := folder.files.insert path text }

/-- The paths of files and directories, with a slash after those of directories. -/
def paths (folder : Folder) : List String :=
  folder.files.names ++ folder.directories.map fun path => path ++ "/"

/-- The names between the slashes of a path. -/
def components (path : String) : List String :=
  ((path.toList.splitBy fun a b => a ≠ '/' ∧ b ≠ '/').filter (· ≠ ['/'])).map String.ofList

/-- A name in a folder has at most this many bytes. -/
def longestName : Nat := 255

/-- A path has at most this many bytes. -/
def longestPath : Nat := 4095

/-- Places are lists of names: those above the working folder start with two dots for each level,
and those below the root with an empty name. Their paths are the names joined by slashes. -/
def pathOf (place : List String) : String := "/".intercalate place

/-- A path leads to a place in or below the working folder. -/
def isInside (path : String) : Bool :=
  !("../".toList.isPrefixOf path.toList || ['/'].isPrefixOf path.toList)

/-- The files in and below the working folder. -/
def inside (folder : Folder) : List (String × String) :=
  folder.files.entries.filter fun (path, _) => isInside path

/-- The working folder, a folder above it or the root. -/
def isGiven (place : List String) : Bool := place = [""] || place.all (· = "..")

/-- The folder that holds a place. The root holds itself. -/
def parent (place : List String) : List String :=
  if place = [""] then place
  else if place.all (· = "..") then place ++ [".."]
  else place.dropLast

/-- There is a file at a place. -/
def isFile (folder : Folder) (place : List String) : Bool := (folder.find? (pathOf place)).isSome

/-- A place is given, or it is a directory or has something below it. -/
def isDirectory (folder : Folder) (place : List String) : Bool :=
  isGiven place || folder.paths.any fun path => (pathOf place ++ "/").toList.isPrefixOf path.toList

/-- Follows names from a place; every name but the last has to be a directory. -/
def follow (folder : Folder) (place : List String) : List String → Except FileError (List String)
  | [] => .ok place
  | "." :: rest => follow folder place rest
  | ".." :: rest => follow folder (parent place) rest
  | name :: rest =>
    let next := place ++ [name]
    if longestName < name.utf8ByteSize then .error .nameTooLong
    else if rest.isEmpty || isDirectory folder next then follow folder next rest
    else if isFile folder next then .error .notDirectory
    else .error .notFound

/-- The place that a path leads to, from the root if the path starts with a slash. -/
def resolve (folder : Folder) (path : String) : Except FileError (List String) := do
  if path.toList.contains '\x00' then .error .nulInName
  if longestPath < path.utf8ByteSize then .error .nameTooLong
  if path.isEmpty then .error .notFound
  let start := if path.toList.head? = some '/' then [""] else []
  follow folder start (components path)

/-- A path that ends in a slash asks for a directory. -/
def asksForDirectory (path : String) : Bool := path.toList.getLast? = some '/'

/-- The text of a file. -/
def read (folder : Folder) (path : String) : Except FileError String := do
  let place ← resolve folder path
  if isDirectory folder place then .error .isDirectory
  match folder.find? (pathOf place) with
  | some text => if asksForDirectory path then .error .notDirectory else return text
  | none => .error .notFound

/-- The folder with a text in a file, which need not have been there. -/
def write (folder : Folder) (path text : String) : Except FileError Folder := do
  let place ← resolve folder path
  if isDirectory folder place || asksForDirectory path then .error .isDirectory
  return folder.insert (pathOf place) text

/-- A path below another one; an absolute path stands alone. -/
def join (directory name : String) : String :=
  if name.toList.head? = some '/' || directory.isEmpty then name
  else if directory.toList.getLast? = some '/' then directory ++ name
  else directory ++ "/" ++ name

end Folder

end RelTrace
