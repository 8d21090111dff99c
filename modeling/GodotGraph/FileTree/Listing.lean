import GodotGraph.FileTree

/-!
Contract: what a walk through a directory sees.

Owns: trees of files and directories in which links are left alone or followed.

Where links are followed, one that leads to a directory on the way to it is a loop and
cannot be entered. So no walk goes on for ever.
-/

set_option autoImplicit false

namespace GodotGraph.FileTree

inductive Listing where
  | file
  /-- Neither a file nor a directory. -/
  | other
  /-- It cannot be entered. -/
  | fault (message : String)
  | directory (entries : List (String × Listing))
  deriving Repr

/-- A directory on the way: its place, and the path on which the walk came there. -/
structure Ancestor where
  place : List String
  path : String
  deriving DecidableEq, Repr

/-- What becomes of a link, given the directories on the way to it and its path. -/
abbrev LinkRule := List Ancestor → String → Listing

mutual

/-- What a walk sees at a node. The nearest directory on the way comes first. -/
def listing (rule : LinkRule) (above : List Ancestor) (place : List String) (path : String) :
    Node → Listing
  | .file _ => .file
  | .link _ => rule above path
  | .directory entries =>
      .directory (entryListings rule (⟨place, path⟩ :: above) place path entries)

def entryListings (rule : LinkRule) (above : List Ancestor) (place : List String)
    (path : String) : List (String × Node) → List (String × Listing)
  | [] => []
  | (name, node) :: rest =>
      (name, listing rule above (place ++ [name]) (Path.join path name) node) ::
        entryListings rule above place path rest

end

mutual

def directoryCount : Node → Nat
  | .directory entries => entryCount entries + 1
  | _ => 0

def entryCount : List (String × Node) → Nat
  | [] => 0
  | (_, node) :: rest => directoryCount node + entryCount rest

end

def ignoreLinks : LinkRule := fun _ _ => .other

def brokenMessage (path : String) (fault : Fault) : String :=
  "IO error for operation on " ++ path ++ ": " ++ fault.system.text

def loopMessage (path : String) (ancestor : Ancestor) : String :=
  "File system loop found: " ++ path ++ " points to an ancestor " ++ ancestor.path

/-- Links are followed, at most so many on one way. The way from the root of the file
system to a link counts for the limit on links as well. -/
def followLinks (tree : FileTree) : Nat → LinkRule
  | 0 => fun _ path => .fault (brokenMessage path .tooManyLinks)
  | links + 1 => fun above path =>
      match tree.place? path with
      | .error fault => .fault (brokenMessage path fault)
      | .ok found =>
          match tree.root.at? found with
          | some (.directory entries) =>
              match above.find? fun ancestor => ancestor.place = found with
              | some ancestor => .fault (loopMessage path ancestor)
              | none => listing (followLinks tree links) above found path (.directory entries)
          | some _ => .file
          | none => .fault (brokenMessage path .missing)

/-- What a walk sees from a place on. Each directory on a way is entered through at most
one link, so there are no more links to follow than directories. -/
def listingAt (tree : FileTree) (followed : Bool) (place : List String) : Listing :=
  let rule := if followed then followLinks tree (directoryCount tree.root) else ignoreLinks
  match tree.root.at? place with
  | some node => listing rule [] place (pathOf place) node
  | none => .other

end GodotGraph.FileTree
