import HexConsole.Machine.Program

/-! # Files

A path is a row of names, and following it leads from place to place: an empty name and a
dot stay, two dots go up, and every other name goes down. A tree of files knows what lies at
the places below its root. What is above the root is a directory that holds nothing that is
known.
-/

namespace HexConsole.Launcher

/-- Why a file cannot be opened or read: the words of the error and its number, if it has
one. -/
structure FileError where
  words : String
  code : Option Nat
  deriving DecidableEq, Repr

namespace FileError

/-- Nothing has that name. -/
def notFound : FileError := ⟨"No such file or directory", some 2⟩

/-- Something below a file was asked for. -/
def notDirectory : FileError := ⟨"Not a directory", some 20⟩

/-- A directory was read. -/
def isDirectory : FileError := ⟨"Is a directory", some 21⟩

/-- A path or one of its names has too many bytes. -/
def nameTooLong : FileError := ⟨"File name too long", some 36⟩

/-- A path with a zero character cannot be passed on. -/
def zeroInPath : FileError := ⟨"file name contained an unexpected NUL byte", none⟩

/-- The text of an error: its words and its number. -/
def text (e : FileError) : String :=
  match e.code with
  | some code => e.words ++ " (os error " ++ toString code ++ ")"
  | none => e.words

end FileError

/-- What a path can lead to. -/
inductive Node where
  | directory
  | file (bytes : List UInt8)
  deriving DecidableEq, Repr

/-- A place that a path has reached: at some names below the root, or above it. -/
inductive Place where
  | inside (names : List String)
  | above
  deriving DecidableEq, Repr

namespace Place

/-- The root of the tree. -/
def root : Place := .inside []

/-- Whether a name leads nowhere or up, whatever the tree. -/
def isRelative (name : String) : Bool := name = "" || name = "." || name = ".."

/-- The place to which a name leads. -/
def next (place : Place) (name : String) : Place :=
  if name = "" ∨ name = "." then place
  else
    match place with
    | .above => .above
    | .inside names =>
      if name ≠ ".." then .inside (names ++ [name])
      else if names.isEmpty then .above
      else .inside names.dropLast

/-- The place at the end of a row of names, and the places before it: the latest first, ahead
of those that were passed already. -/
def trail (place : Place) (passed : List Place) : List String → Place × List Place
  | [] => (place, passed)
  | name :: names => (place.next name).trail (place :: passed) names

end Place

/-- The most bytes of a path. -/
def longestPath : Nat := 4095

/-- The most bytes of a name. -/
def longestName : Nat := 255

/-- The names of a path; a name is empty between two slashes and after the last. -/
def pathNames (path : String) : List String := path.splitOn "/"

/-- Why a path cannot be followed, whatever the tree. -/
def pathError? (path : String) : Option FileError :=
  if path.toList.contains '\x00' then some .zeroInPath
  else if path.isEmpty then some .notFound
  else if path.utf8ByteSize > longestPath then some .nameTooLong
  else none

/-- What lies at the places below a root; of two nodes at one place the first counts. -/
structure FileTree where
  entries : List (Place × Node)
  deriving DecidableEq, Repr

namespace FileTree

/-- A tree without files. -/
def empty : FileTree := ⟨[]⟩

/-- A node is put at the end of a path, and directories at the places on the way to it. -/
def insert (t : FileTree) (path : String) (node : Node) : FileTree :=
  let (place, passed) := Place.root.trail [] (pathNames path)
  ⟨(place, node) :: passed.map (·, .directory) ++ t.entries⟩

/-- The tree of some paths and what lies there. -/
def ofList (entries : List (String × Node)) : FileTree :=
  entries.foldl (fun t entry => t.insert entry.1 entry.2) empty

/-- What lies at a place below the root. -/
def nodeAt? (t : FileTree) (place : Place) : Option Node :=
  match place with
  | .above => none
  | .inside _ => t.entries.lookup place

/-- One name of a path is followed from a directory. -/
def enter (t : FileTree) (place : Place) (name : String) : Except FileError (Place × Node) :=
  let next := place.next name
  if Place.isRelative name then .ok (next, .directory)
  else if name.utf8ByteSize > longestName then .error .nameTooLong
  else
    match t.nodeAt? next with
    | some node => .ok (next, node)
    | none => .error .notFound

/-- The names of a path are followed one after another; nothing lies below a file. -/
def follow (t : FileTree) (place : Place) (node : Node) : List String → Except FileError Node
  | [] => .ok node
  | name :: names =>
    match node with
    | .file _ => .error .notDirectory
    | .directory => do
      let (place, node) ← t.enter place name
      t.follow place node names

/-- What lies at the end of a path; a path that begins with a slash starts above the tree. -/
def open? (t : FileTree) (path : String) : Except FileError Node :=
  match pathError? path with
  | some error => .error error
  | none =>
    let start := if path.startsWith "/" then Place.above else .root
    t.follow start .directory (pathNames path)

end FileTree

/-- What reading the opened thing gives: a directory breaks at once. -/
def Node.source : Node → Source
  | .file bytes => .whole bytes
  | .directory => .broken [] FileError.isDirectory.text

end HexConsole.Launcher
