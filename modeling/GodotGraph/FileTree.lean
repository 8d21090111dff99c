import GodotGraph.Path
import GodotGraph.Problem

/-!
Contract: a file system as a value.

Owns:
- files, symbolic links and directories;
- the limits on names, paths and links;
- the place that a path leads to, with links followed;
- the place at the end of a path where something can be made;
- reading a file, creating directories and saving a file.

Places are lists of names from the root of the file system downwards. Paths that do not
start at the root start at the working directory.
-/

set_option autoImplicit false

namespace GodotGraph

inductive FileTree.Content where
  | text (s : String)
  | unreadable (fault : SystemFault)
  deriving DecidableEq, Repr

inductive FileTree.Node where
  | file (content : FileTree.Content)
  | link (target : String)
  | directory (entries : List (String × FileTree.Node))
  deriving Repr

/-- The root directory, and the place of the working directory. -/
structure FileTree where
  root : FileTree.Node
  here : List String
  deriving Repr

namespace FileTree

inductive Fault where
  | missing
  | exists
  | notDirectory
  | isDirectory
  | tooManyLinks
  | tooLong
  | zeroCharacter
  deriving DecidableEq, Repr

def Fault.system : Fault → SystemFault
  | missing => ⟨false, "No such file or directory (os error 2)"⟩
  | .exists => ⟨false, "File exists (os error 17)"⟩
  | notDirectory => ⟨false, "Not a directory (os error 20)"⟩
  | isDirectory => ⟨false, "Is a directory (os error 21)"⟩
  | tooManyLinks => ⟨false, "Too many levels of symbolic links (os error 40)"⟩
  | tooLong => ⟨false, "File name too long (os error 36)"⟩
  | zeroCharacter => ⟨false, "file name contained an unexpected NUL byte"⟩

def Content.ofBytes (bytes : ByteArray) : Content :=
  match String.fromUTF8? bytes with
  | some s => .text s
  | none => .unreadable ⟨false, "stream did not contain valid UTF-8"⟩

/-! ## Nodes -/

namespace Node

def entry? (name : String) : Node → Option Node
  | directory entries => entries.lookup name
  | _ => none

def at? : List String → Node → Option Node
  | [], node => some node
  | name :: names, node => (node.entry? name).bind (at? names)

/-- Entries with a node under a name, over the one that was there. -/
def setEntry (name : String) (node : Node) : List (String × Node) → List (String × Node)
  | [] => [(name, node)]
  | entry :: rest =>
      if entry.1 = name then (name, node) :: rest else entry :: setEntry name node rest

/-- Puts a node below some names. Directories on the way come up as needed. -/
def put (new : Node) : List String → Node → Node
  | [], _ => new
  | name :: names, directory entries =>
      directory (setEntry name (put new names ((entries.lookup name).getD (directory []))) entries)
  | name :: names, _ => directory [(name, put new names (directory []))]

/-- A node that was put somewhere is there. -/
theorem at?_put (new : Node) (names : List String) (node : Node) :
    (put new names node).at? names = some new := by
  have lookup_setEntry (name : String) (added : Node) (entries : List (String × Node)) :
      (setEntry name added entries).lookup name = some added := by
    induction entries with
    | nil => simp [setEntry]
    | cons entry rest inductionHypothesis =>
        unfold setEntry
        split
        · simp
        · next different =>
            obtain ⟨key, held⟩ := entry
            have other : (name == key) = false := by
              simpa using fun same : name = key => different same.symm
            simp [List.lookup_cons, other, inductionHypothesis]
  induction names generalizing node with
  | nil => simp [put, at?]
  | cons name names inductionHypothesis =>
      cases node <;> simp [put, at?, entry?, lookup_setEntry, inductionHypothesis]

end Node

/-! ## Limits -/

/-- A name has at most so many bytes. -/
def nameLimit : Nat := 255

/-- A path has fewer bytes than this. -/
def pathLimit : Nat := 4096

/-- The system follows so many links on one path. -/
def linkLimit : Nat := 40

def isTooLong (name : String) : Bool := nameLimit < name.utf8ByteSize

/-- Why a path leads nowhere, whatever the tree holds. -/
def pathFault? (path : String) : Option Fault :=
  if path.toList.contains '\x00' then some .zeroCharacter
  else if path = "" then some .missing
  else if pathLimit ≤ path.utf8ByteSize then some .tooLong
  else none

/-! ## Where a path leads -/

/-- Where a walk along segments stops. -/
inductive Stop where
  | found (place : List String)
  /-- Nothing has the name; some segments were not looked at. -/
  | absent (place : List String) (name : String) (rest : List String)
  /-- A link has to be followed before the other segments. -/
  | link (place : List String) (target : String) (rest : List String)
  | fault (fault : Fault)
  deriving DecidableEq, Repr

/-- Walks along segments from the place of a directory up to the first link. -/
def advance (root : Node) : List String → List String → Stop
  | place, [] => .found place
  | place, segment :: rest =>
      if segment = "" || segment = "." then advance root place rest
      else if segment = ".." then advance root place.dropLast rest
      else if isTooLong segment then .fault .tooLong
      else
        match root.at? (place ++ [segment]) with
        | none => .absent place segment rest
        | some (.directory _) => advance root (place ++ [segment]) rest
        | some (.file _) =>
            if rest.isEmpty then .found (place ++ [segment]) else .fault .notDirectory
        | some (.link target) => .link place target rest

/-- The place where the way along a path begins, seen from some directory. -/
def startOf (path : String) (directory : List String) : List String :=
  if Path.isAbsolute path then [] else directory

/-- Walks along segments and follows so many links. Where that ends, and how many links
are left. -/
def follow (root : Node) : Nat → List String → List String → Stop × Nat
  | links, place, segments =>
      match advance root place segments with
      | .link above target rest =>
          match links with
          | 0 => (.fault .tooManyLinks, 0)
          | links + 1 =>
              if target = "" then (.fault .missing, links)
              else follow root links (startOf target above) (Text.segments target ++ rest)
      | stop => (stop, links)

def stopOf (tree : FileTree) (path : String) : Stop :=
  match pathFault? path with
  | some fault => .fault fault
  | none => (follow tree.root linkLimit (startOf path tree.here) (Text.segments path)).1

/-- The place at which a walk stops, if it is the end of the walk. -/
def Stop.place? : Stop → Except Fault (List String)
  | .found place => .ok place
  | .absent _ _ _ => .error .missing
  | .link _ _ _ => .error .tooManyLinks
  | .fault cause => .error cause

def place? (tree : FileTree) (path : String) : Except Fault (List String) :=
  (tree.stopOf path).place?

def node? (tree : FileTree) (path : String) : Except Fault Node := do
  let place ← tree.place? path
  match tree.root.at? place with
  | some node => .ok node
  | none => .error .missing

def exists? (tree : FileTree) (path : String) : Bool :=
  match tree.node? path with
  | .ok _ => true
  | .error _ => false

def isDirectory (tree : FileTree) (path : String) : Bool :=
  match tree.node? path with
  | .ok (.directory _) => true
  | _ => false

def isFile (tree : FileTree) (path : String) : Bool :=
  match tree.node? path with
  | .ok (.file _) => true
  | _ => false

def pathOf (place : List String) : String := "/" ++ Text.joinSegments place

/-! ## The end of a path

A directory or a link is made under the last name of a path, which nothing must have yet.
A file is written where a link with that name leads. -/

/-- A path for making something: the segments before the last name, the name, and
whether a slash follows it. -/
structure Ending where
  parents : List String
  name : String
  slash : Bool
  deriving DecidableEq, Repr

namespace Ending

/-- The ending of some segments. There is none if they have no names. -/
def ofSegments? (segments : List String) : Option Ending :=
  let reversed := segments.reverse
  match reversed.dropWhile fun segment => segment = "" with
  | [] => none
  | name :: parents => some ⟨parents.reverse, name, reversed.head? = some ""⟩

/-- The name is that of a directory which is there anyhow. -/
def isDots (ending : Ending) : Bool := ending.name = "." || ending.name = ".."

/-- The directory for the last name, and how many links are left. -/
def directory (ending : Ending) (root : Node) (links : Nat) (start : List String) :
    Except Fault (List String × Nat) := do
  let (stop, links) := follow root links start (ending.parents ++ ["."])
  return (← stop.place?, links)

end Ending

/-- The place at the end of some segments under which nothing is yet. -/
def freePlace (root : Node) (start segments : List String) : Except Fault (List String) :=
  match Ending.ofSegments? segments with
  | none => .error .exists
  | some ending => do
      let (above, _) ← ending.directory root linkLimit start
      let place := above ++ [ending.name]
      if ending.isDots || (root.at? place).isSome then .error .exists
      else if isTooLong ending.name then .error .tooLong
      else return place

/-- The place at the end of some segments where a file can be written. The first number
bounds the links at the end, the second one all links on the way. -/
def filePlace (root : Node) : Nat → Nat → List String → List String → Except Fault (List String)
  | 0, _, _, _ => .error .tooManyLinks
  | ends + 1, links, start, segments =>
      match Ending.ofSegments? segments with
      | none => .error .isDirectory
      | some ending => do
          let (above, links) ← ending.directory root links start
          let place := above ++ [ending.name]
          if ending.slash || ending.isDots then .error .isDirectory
          else if isTooLong ending.name then .error .tooLong
          else
            match root.at? place, links with
            | none, _ => return place
            | some (.file _), _ => return place
            | some (.directory _), _ => .error .isDirectory
            | some (.link _), 0 => .error .tooManyLinks
            | some (.link target), links + 1 =>
                if target = "" then .error .missing
                else filePlace root ends links (startOf target above) (Text.segments target)

/-! ## Reading and writing -/

def read (tree : FileTree) (path : String) : Except SystemFault String :=
  match tree.node? path with
  | .ok (.file (.text s)) => .ok s
  | .ok (.file (.unreadable fault)) => .error fault
  | .ok (.directory _) => .error Fault.isDirectory.system
  | .ok (.link _) => .error Fault.tooManyLinks.system
  | .error fault => .error fault.system

def put (tree : FileTree) (place : List String) (node : Node) : FileTree :=
  { tree with root := Node.put node place tree.root }

/-- Creates a file, or writes over one. Its directory must be there. -/
def save (tree : FileTree) (path : String) (content : Content) : Except Fault FileTree :=
  match pathFault? path with
  | some fault => .error fault
  | none => do
      let place ← filePlace tree.root (linkLimit + 1) linkLimit (startOf path tree.here)
        (Text.segments path)
      return tree.put place (.file content)

/-- Creates something at the end of a path. The directory above it must be there. -/
def create (tree : FileTree) (path : String) (node : Node) : Except Fault FileTree :=
  match pathFault? path with
  | some fault => .error fault
  | none => do
      let place ← freePlace tree.root (startOf path tree.here) (Text.segments path)
      return tree.put place node

/-- Creates one directory. The directory above it must be there. -/
def makeDirectory (tree : FileTree) (path : String) : Except Fault FileTree :=
  tree.create path (.directory [])

/-- Creates a directory after those above it. A directory that is there already is
fine. The budget counts the directories above. -/
def makeDirectoriesWithin (budget : Nat) (tree : FileTree) (path : String) :
    Except Fault FileTree :=
  if path = "" || tree.isDirectory path then .ok tree
  else
    match tree.makeDirectory path, budget, Path.parent? path with
    | .error .missing, budget + 1, some above => do
        let tree ← makeDirectoriesWithin budget tree above
        if tree.isDirectory path then .ok tree else tree.makeDirectory path
    | result, _, _ => result

def makeDirectories (tree : FileTree) (path : String) : Except Fault FileTree :=
  makeDirectoriesWithin path.length tree path

/-- A path without segments leads to the place where it starts. -/
theorem advance_nil (root : Node) (place : List String) :
    advance root place [] = .found place := rfl

end FileTree

end GodotGraph
