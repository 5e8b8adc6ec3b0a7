import VariantSelector.Text.Basic

/-!
Reading text files. A file tree stands for a directory of known contents; it answers as a file
system would, walking a path name by name. Nothing is known of what lies outside of it.
-/

namespace VariantSelector

/-- Why a file cannot be read as text. -/
inductive ReadFault
  | notFound
  | notDirectory
  | isDirectory
  | notUtf8
  deriving DecidableEq, Repr

/-- The fault in words. -/
def ReadFault.reason : ReadFault → Text
  | .notFound => "No such file or directory (os error 2)".toList
  | .notDirectory => "Not a directory (os error 20)".toList
  | .isDirectory => "Is a directory (os error 21)".toList
  | .notUtf8 => "stream did not contain valid UTF-8".toList

/-- Decodes UTF-8. -/
def decodeText (bytes : ByteArray) : Except ReadFault Text :=
  match String.fromUTF8? bytes with
  | some s => .ok s.toList
  | none => .error .notUtf8

/-- What a name in a file tree stands for. -/
inductive FileNode
  | file (bytes : ByteArray)
  | directory

/-- The contents of a directory: paths with what they stand for. -/
structure FileTree where
  nodes : List (Text × FileNode) := []

namespace FileTree

/-- The names between the slashes of a path; two slashes with nothing between them give the empty
name. -/
def names (path : Text) : List Text :=
  path.foldr (fun c rest => if c = '/' then [] :: rest else (c :: rest.headD []) :: rest.tail) [[]]

/-- What stands at a place in the tree, given by the names that lead to it. -/
def node? (t : FileTree) (place : List Text) : Option FileNode :=
  if place.isEmpty then some .directory
  else
    match t.nodes.find? fun (path, _) => names path = place with
    | some (_, node) => some node
    | none =>
      if t.nodes.any fun (path, _) => place.isPrefixOf (names path) then some .directory else none

/-- Walks on from a place, which is `none` outside of the tree. Each name but the last must stand
for a directory; the empty name and `.` stay in it, and `..` leaves it. -/
def walk (t : FileTree) : Option (List Text) → List Text → Except ReadFault FileNode
  | none, [] => .ok .directory
  | none, name :: rest =>
    if name = [] || name = ['.'] || name = ['.', '.'] then t.walk none rest else .error .notFound
  | some place, later =>
    match t.node? place, later with
    | none, _ => .error .notFound
    | some node, [] => .ok node
    | some (.file _), _ :: _ => .error .notDirectory
    | some .directory, name :: rest =>
      if name = [] || name = ['.'] then t.walk (some place) rest
      else if name = ['.', '.'] then
        t.walk (if place.isEmpty then none else some place.dropLast) rest
      else t.walk (some (place ++ [name])) rest

/-- Reads the text of a file. -/
def read (t : FileTree) (path : Text) : Except ReadFault Text := do
  let start := if path.head? = some '/' then none else some []
  match ← t.walk start (names path) with
  | .file bytes => decodeText bytes
  | .directory => .error .isDirectory

end FileTree

end VariantSelector
