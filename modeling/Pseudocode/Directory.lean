/-!
# Directories

The files that a program can be read from. A directory is held as the files in it
and in the folders below it, so that finding a file is a function like any other.

A path is followed part by part, from folder to folder. An empty part and the
part `.` stay in a folder, and the part `..` leads back to the folder around it.
A file stands only at the end of a path, and nothing outside of the directory can
be reached.
-/

set_option autoImplicit false

namespace Pseudocode

/-- Why a file could not be read. -/
inductive FileError where
  | missing
  /-- The path goes on behind a file. -/
  | notDirectory
  /-- The path ends at a folder. -/
  | isDirectory
  /-- The file may not be read. -/
  | denied
  /-- The content is not UTF-8. -/
  | notText
  | other (reason : String)

/-- The reason in words. -/
def FileError.reason : FileError → String
  | missing => "No such file or directory (os error 2)"
  | notDirectory => "Not a directory (os error 20)"
  | isDirectory => "Is a directory (os error 21)"
  | denied => "Permission denied (os error 13)"
  | notText => "stream did not contain valid UTF-8"
  | other reason => reason

/-- The content of a file as text. -/
def textOf (content : Except FileError ByteArray) : Except FileError String := do
  match String.fromUTF8? (← content) with
  | some text => return text
  | none => throw .notText

/-- A file or a folder, as the names that lead to it from the directory. -/
abbrev Location := List String

/-- The files of a directory with their contents. -/
structure Directory where
  files : List (Location × ByteArray)

namespace Directory

/-- The directory with files under the given paths, each written as names with
slashes between them. -/
def ofFiles (files : List (String × ByteArray)) : Directory :=
  ⟨files.map fun (path, content) => (path.splitOn "/", content)⟩

/-- The content of the file at a location. -/
def contentAt? (directory : Directory) (location : Location) : Option ByteArray :=
  directory.files.lookup location

/-- Whether there is a folder at a location: some file is below it. -/
def hasFolder (directory : Directory) (location : Location) : Bool :=
  directory.files.any fun (file, _) =>
    location.isPrefixOf file && location.length < file.length

/-- Follows the parts of a path from a folder. -/
def follow (directory : Directory) (folder : Location) : List String → Except FileError ByteArray
  | [] => .error .isDirectory
  | part :: rest =>
    if part == "" || part == "." then directory.follow folder rest
    else if part == ".." then
      if folder.isEmpty then .error .missing else directory.follow folder.dropLast rest
    else
      let location := folder ++ [part]
      match directory.contentAt? location with
      | some content => if rest.isEmpty then .ok content else .error .notDirectory
      | none =>
        if directory.hasFolder location then directory.follow location rest
        else .error .missing

/-- The content of the file that a path leads to. A path from the root of all
files leads out of the directory. -/
def read (directory : Directory) (path : String) : Except FileError ByteArray :=
  if path.startsWith "/" then .error .missing else directory.follow [] (path.splitOn "/")

end Directory

end Pseudocode
