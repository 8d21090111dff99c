import GodotGraph.FileTree
import GodotGraph.Language

/-!
Contract: file trees taken from the file system of the machine.

Owns:
- the parts of the file system that some paths lead through;
- everything below a directory, with or without what links lead to.

What is in the tree already stays there. Below a directory only files of a known language
are read, unless a link of another name could lead to them.
-/

set_option autoImplicit false

namespace GodotGraph.FileTree.Snapshot

/-- The names from the root of the file system to something in it. -/
abbrev Place := List String

/-- A path that no file has. -/
def nowhere : String := "/\x00"

def faultOf : IO.Error → SystemFault
  | .permissionDenied _ _ _ => ⟨true, "Permission denied (os error 13)"⟩
  | error => ⟨false, toString error⟩

def contentAt (path : String) : IO Content := do
  match ← (IO.FS.readBinFile path).toBaseIO with
  | .ok bytes => return Content.ofBytes bytes
  | .error error => return .unreadable (faultOf error)

/-- Where a link leads in the end. -/
def targetOf (path : String) : IO String := do
  match ← (IO.FS.realPath path).toBaseIO with
  | .ok target => return toString target
  | .error _ => return nowhere

def kind? (place : Place) (name : String) : IO (Option IO.FS.FileType) := do
  let entry : IO.FS.DirEntry := ⟨pathOf place, name⟩
  match ← entry.path.symlinkMetadata.toBaseIO with
  | .ok metadata => return some metadata.type
  | .error _ => return none

def namesAt (place : Place) : IO (List String) := do
  match ← (do (← IO.FS.realPath (pathOf place)).readDir).toBaseIO with
  | .ok entries => return entries.toList.map fun entry => entry.fileName
  | .error _ => return []

/-! ## Paths -/

/-- An entry of a directory, without what is below it. -/
def entryAt? (place : Place) (name : String) : IO (Option Node) := do
  let path := pathOf (place ++ [name])
  match ← kind? place name with
  | none => return none
  | some .dir => return some (.directory [])
  | some .symlink => return some (.link (← targetOf path))
  | some _ => return some (.file (← contentAt path))

/-- Adds all that a path leads through. -/
partial def addPath (tree : FileTree) (path : String) : IO FileTree := do
  match tree.stopOf path with
  | .absent place name _ =>
      match ← entryAt? place name with
      | some node => addPath (tree.put (place ++ [name]) node) path
      | none => return tree
  | _ => return tree

/-! ## Directories -/

/-- A directory with all that is below it. Links are kept as they are. Either all files are
read or only those of a known language. -/
partial def directoryAt (readsAll : Bool) (known : Node) (place : Place) : IO Node := do
  let names ← namesAt place
  let entries ← names.filterMapM fun name => do
    let path := pathOf (place ++ [name])
    match known.entry? name, ← kind? place name with
    | some (.file content), _ => return some (name, .file content)
    | _, none => return none
    | below, some .dir =>
        return some (name, ← directoryAt readsAll (below.getD (.directory [])) (place ++ [name]))
    | _, some .symlink => return some (name, .link (← targetOf path))
    | _, some _ =>
        let wanted := readsAll || (Language.ofPath? path).isSome
        return some (name, .file (← if wanted then contentAt path else pure (.text "")))
  return .directory entries

mutual

/-- The paths that links at and below a node lead to. -/
def targets : Node → List String
  | .file _ => []
  | .link target => [target]
  | .directory entries => entryTargets entries

def entryTargets : List (String × Node) → List String
  | [] => []
  | (_, node) :: rest => targets node ++ entryTargets rest

end

/-- Adds everything below some paths, and below the targets of links there if links are
followed. What is below a place that was visited is there already. -/
partial def addBelow (followed : Bool) (tree : FileTree) (visited : List Place) :
    List String → IO FileTree
  | [] => return tree
  | path :: rest => do
      let tree ← addPath tree path
      match tree.place? path with
      | .error _ => addBelow followed tree visited rest
      | .ok place =>
          match tree.root.at? place with
          | some (.directory entries) =>
              if visited.any fun above => above.isPrefixOf place then
                addBelow followed tree visited rest
              else
                let node ← directoryAt followed (.directory entries) place
                let next := if followed then targets node else []
                addBelow followed (tree.put place node) (place :: visited) (next ++ rest)
          | _ => addBelow followed tree visited rest

/-- Nothing but the working directory. -/
def workingDirectory : IO FileTree := do
  let path ← IO.FS.realPath (← IO.currentDir)
  let place := (Text.segments (toString path)).filter fun segment => segment ≠ ""
  return FileTree.put ⟨.directory [], place⟩ place (.directory [])

end GodotGraph.FileTree.Snapshot
