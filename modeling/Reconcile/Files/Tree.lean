import Reconcile.Files
import Reconcile.Text.Blank
import Reconcile.Text.Utf8

namespace Reconcile

open Text

inductive FileTree
  | file (content : List UInt8)
  | directory (entries : List (List Char × FileTree))

namespace FileTree

def empty : FileTree := .directory []

def entries : FileTree → List (List Char × FileTree)
  | .file _ => []
  | .directory entries => entries

def set (name : List Char) (tree : FileTree) (entries : List (List Char × FileTree)) : FileTree :=
  .directory ((name, tree) :: entries.filter (·.1 != name))

def names (path : String) : List (List Char) :=
  (splitOn '/' path.toList).filter fun name => name != [] && name != ['.']

/-- The tree with another one at a list of names; directories on the way are made, and a directory
that is there is kept when an empty one is put in its place. -/
def insertAt (tree new : FileTree) : List (List Char) → FileTree
  | [] =>
    match new, tree with
    | .directory [], .directory entries => .directory entries
    | _, _ => new
  | name :: names =>
    let inner := (tree.entries.lookup name).getD empty
    set name (inner.insertAt new names) tree.entries

def insert (tree new : FileTree) (path : String) : FileTree := tree.insertAt new (names path)

def removeAt (tree : FileTree) : List (List Char) → FileTree
  | [] => tree
  | [name] => .directory (tree.entries.filter (·.1 != name))
  | name :: names =>
    match tree.entries.lookup name with
    | some inner => set name (inner.removeAt names) tree.entries
    | none => tree

def remove (tree : FileTree) (path : String) : FileTree := tree.removeAt (names path)

/-- Follows names from a directory; `above` holds the directories above it, the nearest first. -/
def follow (above : List FileTree) (tree : FileTree) : List (List Char) → Except FileError FileTree
  | [] => .ok tree
  | name :: names =>
    match tree with
    | .file _ => .error .notDirectory
    | .directory entries =>
      if name = [] ∨ name = ['.'] then follow above tree names
      else if name = ['.', '.'] then
        match above with
        | [] => follow [] empty names
        | upper :: above => follow above upper names
      else if 255 < (Utf8.encode name).length then .error .nameTooLong
      else match entries.lookup name with
        | some inner => follow (tree :: above) inner names
        | none => .error .notFound

def find (tree : FileTree) (path : String) : Except FileError FileTree :=
  let chars := path.toList
  if chars.contains '\x00' then .error .zeroByte
  else if chars.isEmpty then .error .notFound
  else if 4096 ≤ (Utf8.encode chars).length then .error .nameTooLong
  else
    let start := if chars.head? = some '/' then empty else tree
    follow [] start (splitOn '/' chars)

def toEntry : FileTree → Entry
  | .file content => .file content
  | .directory _ => .directory

def files (tree : FileTree) : Files where
  lookup path := (tree.find path).map toEntry

end FileTree

end Reconcile
