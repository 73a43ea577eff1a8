set_option relaxedAutoImplicit false
set_option autoImplicit false

/-!
# Sources of text

A command reads one file. Reading fails if there is no such file, if a file stands where the path
wants a directory, if a directory stands in the file's place, or if the bytes are not text in
UTF-8. A tree of files held in memory resolves paths as a file system does.

## Main definitions

* `TxTree.Command.ReadError` — why a path has no text.
* `TxTree.Command.decode` — the text of the bytes of a file.
* `TxTree.Command.FileTree` — files by place; `TxTree.Command.FileTree.read` reads one by its path.
-/

namespace TxTree.Command

/-- Why a path has no text. -/
inductive ReadError where
  | notFound
  | notDirectory
  | isDirectory
  | notText
  /-- Any other reason, in the words of the system. -/
  | other (reason : String)
deriving DecidableEq, Repr

/-- The wording of a reason. -/
def ReadError.message : ReadError → String
  | .notFound => "No such file or directory (os error 2)"
  | .notDirectory => "Not a directory (os error 20)"
  | .isDirectory => "Is a directory (os error 21)"
  | .notText => "stream did not contain valid UTF-8"
  | .other reason => reason

/-- The text of the bytes of a file. A mark of byte order at the front is part of the text. -/
def decode (bytes : ByteArray) : Except ReadError String :=
  match String.fromUTF8? bytes with
  | some text => .ok text
  | none => .error .notText

/-- A place in a tree of files: the names that lead to it from the root. -/
abbrev Place : Type := List String

/-- Files by place. The directories are the places above the files and above the place where paths
start; that place is a directory too. -/
structure FileTree where
  /-- The files, with their bytes. -/
  files : List (Place × ByteArray)
  /-- The place where a path starts unless a slash stands at its front. -/
  here : Place := []

/-- What stands at a place. -/
inductive Entry where
  | file (bytes : ByteArray)
  | directory

namespace FileTree

/-- What stands at a place, if anything does. -/
def entry? (tree : FileTree) (place : Place) : Option Entry :=
  match tree.files.lookup place with
  | some bytes => some (.file bytes)
  | none =>
    if (tree.here :: tree.files.map (·.1)).any place.isPrefixOf then some .directory else none

/-- One name of a path further from a place, which has to be a directory. An empty name and one
point stay there, two points lead one up, and above the root is the root. -/
def enter (tree : FileTree) (place : Place) (name : String) : Except ReadError Place :=
  match tree.entry? place with
  | none => .error .notFound
  | some (.file _) => .error .notDirectory
  | some .directory =>
    if name == "" || name == "." then .ok place
    else if name == ".." then .ok place.dropLast
    else .ok (place ++ [name])

/-- The place that a path leads to. -/
def resolve (tree : FileTree) (path : String) : Except ReadError Place :=
  (path.splitOn "/").foldlM tree.enter (if path.startsWith "/" then [] else tree.here)

/-- **The text of the file at a path.** The empty path leads nowhere. -/
def read (tree : FileTree) (path : String) : Except ReadError String := do
  if path.isEmpty then .error .notFound
  else
    match tree.entry? (← tree.resolve path) with
    | none => .error .notFound
    | some .directory => .error .isDirectory
    | some (.file bytes) => decode bytes

end FileTree

end TxTree.Command
