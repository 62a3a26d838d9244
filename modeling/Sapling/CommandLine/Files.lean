/-!
# Files

What can go wrong when a file is read as text, and a tree of files to read from.  A path is followed
name by name from the top of the tree; what lies outside the tree is unknown.  Names and paths have
a greatest length.

## Main definitions

* `ReadError` — why a file cannot be read, with the wording.
* `FileTree`, `FileTree.read` — files and directories by their paths.
-/

namespace Sapling.CommandLine

/-- Why a file cannot be read as text. -/
inductive ReadError where
  /-- There is no such file. -/
  | notFound
  /-- The path leads to a directory. -/
  | isDirectory
  /-- The path goes on after a file. -/
  | notDirectory
  /-- The path, or a name on it, is longer than the system allows. -/
  | nameTooLong
  /-- The content is not UTF-8. -/
  | notText
  /-- Something else, in the words of the system. -/
  | other (reason : String)
  deriving DecidableEq, Repr, Inhabited

/-- The message for a read error. -/
def ReadError.message : ReadError → String
  | notFound => "No such file or directory (os error 2)"
  | isDirectory => "Is a directory (os error 21)"
  | notDirectory => "Not a directory (os error 20)"
  | nameTooLong => "File name too long (os error 36)"
  | notText => "stream did not contain valid UTF-8"
  | other reason => reason

/-- The text that some bytes encode. -/
def textOfBytes (bytes : ByteArray) : Except ReadError String :=
  match String.fromUTF8? bytes with
  | some text => .ok text
  | none => .error .notText

/-- What stands under a path. -/
inductive Entry where
  /-- A file with its bytes. -/
  | file (content : ByteArray)
  /-- A directory. -/
  | directory

/-- Files and directories by the names on their paths. -/
abbrev FileTree := List (List String × Entry)

/-- The names on a path, from the top down. -/
def pathNames (path : List Char) : List String :=
  match path with
  | [] => [""]
  | c :: rest =>
    if c = '/' then "" :: pathNames rest
    else
      match pathNames rest with
      | [] => [c.toString]
      | name :: names => (c.toString ++ name) :: names

namespace FileTree

/-- What stands under some names: an entry of the tree, or a directory on the way to one. -/
def entry? (tree : FileTree) (names : List String) : Option Entry :=
  match tree.lookup names with
  | some entry => some entry
  | none =>
    if names.isEmpty || tree.any (fun e => names.isPrefixOf e.1) then some .directory else none

/-- The greatest number of bytes in a name. -/
def longestName : Nat := 255

/-- The greatest number of bytes in a path. -/
def longestPath : Nat := 4095

/-- What stands under names outside the tree, where directories are known only by their place. -/
def outside (names : List String) : Except ReadError Entry :=
  match names.find? fun name => name ∉ ["", ".", ".."] with
  | none => .ok .directory
  | some name => .error (if longestName < name.utf8ByteSize then .nameTooLong else .notFound)

/-- Follows names from a place in the tree to an entry.  The place is given by the names that lead
to it, the last one first. -/
def follow (tree : FileTree) (place : List String) : List String → Except ReadError Entry
  | [] =>
    match tree.entry? place.reverse with
    | some entry => .ok entry
    | none => .error .notFound
  | name :: names =>
    match tree.entry? place.reverse with
    | none => .error .notFound
    | some (.file _) => .error .notDirectory
    | some .directory =>
      if name = "" || name = "." then tree.follow place names
      else if name = ".." then
        match place with
        | [] => outside names
        | _ :: place => tree.follow place names
      else if longestName < name.utf8ByteSize then .error .nameTooLong
      else tree.follow (name :: place) names

/-- Reads the file under a path as text. -/
def read (tree : FileTree) (path : String) : Except ReadError String :=
  let names := pathNames path.toList
  let found :=
    if path = "" then .error .notFound
    else if longestPath < path.utf8ByteSize then .error .nameTooLong
    else if path.toList.head? = some '/' then outside names
    else tree.follow [] names
  match found with
  | .error e => .error e
  | .ok .directory => .error .isDirectory
  | .ok (.file content) => textOfBytes content

end FileTree

end Sapling.CommandLine
