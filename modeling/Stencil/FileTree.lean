import Stencil.Text.Cut

/-!
# Files

What can go wrong when a file is read, and a directory of files held in memory. A path is followed
component by component from the directory; only a directory has components below it. Outside the
directory there is nothing but the directories that lead to it.
-/

namespace Stencil

/-- Why a file could not be read. -/
inductive ReadFault where
  | notFound
  | isDirectory
  | notDirectory
  | nameTooLong
  | permissionDenied
  /-- The path holds a character that no path can hold. -/
  | badPath
  /-- The file is not text in UTF-8. -/
  | notText
deriving DecidableEq, Repr

namespace ReadFault

/-- The number of a fault of the system, the name of its kind and its wording. -/
def system? : ReadFault → Option (Nat × String × String)
  | notFound => some (2, "NotFound", "No such file or directory")
  | isDirectory => some (21, "IsADirectory", "Is a directory")
  | notDirectory => some (20, "NotADirectory", "Not a directory")
  | nameTooLong => some (36, "InvalidFilename", "File name too long")
  | permissionDenied => some (13, "PermissionDenied", "Permission denied")
  | badPath | notText => none

/-- The name of the kind and the wording of a fault that is not one of the system. -/
def other : ReadFault → String × String
  | badPath => ("InvalidInput", "file name contained an unexpected NUL byte")
  | _ => ("InvalidData", "stream did not contain valid UTF-8")

/-- The wording of a fault. -/
def message (fault : ReadFault) : String :=
  match fault.system? with
  | some (number, _, wording) => s!"{wording} (os error {number})"
  | none => fault.other.2

/-- The parts of a fault, for those who look for its cause. -/
def details (fault : ReadFault) : String :=
  match fault.system? with
  | some (number, kind, wording) =>
    s!"Os \x7b code: {number}, kind: {kind}, message: \"{wording}\" \x7d"
  | none =>
    let (kind, wording) := fault.other
    s!"Error \x7b kind: {kind}, message: \"{wording}\" \x7d"

end ReadFault

/-- Files by the paths at which they lie. -/
structure FileTree where
  files : List (List String × ByteArray)

namespace FileTree

/-- The most bytes of a path. -/
def maxPath : Nat := 4095

/-- The most bytes of a component of a path. -/
def maxName : Nat := 255

/-- The components of a path. -/
def components (path : String) : List String :=
  path.splitOn "/"

/-- Whether a component stays in the directory that it is looked up in. -/
def stays (name : String) : Bool :=
  name = "" || name = "."

/-- Files by the texts of their paths. -/
def ofFiles (files : List (String × ByteArray)) : FileTree :=
  ⟨files.map fun (path, content) => ((components path).filter (!stays ·), content)⟩

variable (tree : FileTree)

/-- Whether a file lies at a path. -/
def file? (path : List String) : Option ByteArray :=
  tree.files.lookup path

/-- Whether a directory lies at a path: the tree itself, or the path of a file goes through it. -/
def hasDirectory (path : List String) : Bool :=
  path.isEmpty || tree.files.any fun (file, _) => path.isPrefixOf file && path.length < file.length

/-- What components lead to outside the tree. -/
def outside (names : List String) : ReadFault :=
  if names.all fun name => stays name || name = ".." then .isDirectory else .notFound

/-- Follows components from a directory to a file. -/
def follow (directory : List String) : List String → Except ReadFault ByteArray
  | [] => .error .isDirectory
  | name :: rest =>
    if stays name then follow directory rest
    else if name = ".." then
      if directory.isEmpty then .error (outside rest) else follow directory.dropLast rest
    else if maxName < name.utf8ByteSize then .error .nameTooLong
    else if tree.hasDirectory (directory ++ [name]) then follow (directory ++ [name]) rest
    else match tree.file? (directory ++ [name]) with
      | none => .error .notFound
      | some content => if rest.isEmpty then .ok content else .error .notDirectory

/-- The content of the file at a path. -/
def content (path : String) : Except ReadFault ByteArray :=
  if path.toList.contains (Char.ofNat 0) then .error .badPath
  else if path = "" then .error .notFound
  else if maxPath < path.utf8ByteSize then .error .nameTooLong
  else if path.toList.head? = some '/' then .error (outside (components path))
  else tree.follow [] (components path)

/-- The text of the file at a path. -/
def read (path : String) : Except ReadFault String := do
  match String.fromUTF8? (← tree.content path) with
  | some text => return text
  | none => throw .notText

end FileTree

end Stencil
