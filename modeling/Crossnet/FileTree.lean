import Crossnet.Bytes

/-!
# File trees

Folders and files under one root, and `find?`, which follows a path from a
working folder.  A place is the list of names on the way to it from the root,
so the root is `[]`.  Only the places that are given hold something, and every
place on the way to one of them is a folder.

A path is followed name by name.  Each name, even an empty one, has to be looked
up in a folder; so a path through a file, or one that ends in a slash after a
file, leads nowhere.
-/

namespace Crossnet

/-- The names on the way from the root. -/
abbrev Place := List String

/-- Where a name in a path leads from a place. -/
def Place.next (place : Place) (name : String) : Place :=
  if name = "" ∨ name = "." then place
  else if name = ".." then place.dropLast
  else place ++ [name]

namespace FileTree

/-- What is at a place. -/
inductive Node
  | folder
  | file (content : Bytes)
deriving DecidableEq

end FileTree

/-- The places that are known to hold something. -/
structure FileTree where
  nodes : List (Place × FileTree.Node)

namespace FileTree

/-- A path of more bytes than this is not followed. -/
def longestPath : Nat := 4095

/-- What is at a place: what is given there, or a folder on the way to something given. -/
def node? (t : FileTree) (place : Place) : Option Node :=
  match t.nodes.find? fun entry => entry.1 = place with
  | some (_, node) => some node
  | none =>
    if place = [] ∨ t.nodes.any fun entry => place.isPrefixOf entry.1 then some .folder else none

/-- What is found by following the names from a place. -/
def follow? (t : FileTree) (place : Place) : List String → Option Node
  | [] => t.node? place
  | name :: names =>
    match t.node? place with
    | some .folder => t.follow? (place.next name) names
    | _ => none

/-- What a path leads to: from the root when it starts with a slash, else from the working
folder. -/
def find? (t : FileTree) (working : Place) (path : String) : Option Node :=
  if path.isEmpty ∨ longestPath < path.utf8ByteSize then none
  else t.follow? (if path.startsWith "/" then [] else working) (path.splitOn "/")

end FileTree

end Crossnet
