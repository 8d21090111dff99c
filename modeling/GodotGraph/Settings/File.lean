import GodotGraph.FileTree
import GodotGraph.Settings.Document
import GodotGraph.Settings.Source
import GodotGraph.Settings.Template

/-!
Contract: settings from files.

Owns:
- reading a settings file, and the source that it makes;
- the places where a settings file is looked for;
- creating the file that new users start from.
-/

set_option autoImplicit false

namespace GodotGraph.Settings

/-- A settings file, and how messages name it. -/
structure File where
  path : String
  name : String
  deriving DecidableEq, Repr

/-- The directories of a user in which settings files are looked for. -/
structure UserDirectories where
  home : Option String
  configuration : Option String
  deriving DecidableEq, Repr

namespace File

/-- The path of the file in the working directory. -/
def standardPath : String := ".gdscan.toml"

def standard : File := ⟨standardPath, "default config file"⟩

def named (path : String) : File := ⟨path, "config file (" ++ path ++ ")"⟩

/-! ## Reading -/

def read (tree : FileTree) (path : String) : Except Problem Layer :=
  if tree.exists? path then
    match tree.read path with
    | .ok content => Document.load path content
    | .error fault => .error (.settingsRead path fault)
  else .error (.settingsNotFound path)

/-- Reads the file, which must not be a directory. -/
def load (tree : FileTree) (file : File) : Except Problem Layer :=
  if tree.isFile file.path then read tree file.path else .error (.settingsNotFound file.path)

def source (tree : FileTree) (file : File) : Source where
  name := file.name
  priority := 10
  available := tree.isFile file.path
  load := file.load tree

/-! ## Places -/

/-- The places where a file is looked for, the best one first. -/
def candidates (directories : UserDirectories) : List String :=
  standardPath ::
    (directories.home.map (Path.join · standardPath)).toList ++
    (directories.configuration.map fun path =>
      Path.join (Path.join path "gdscan") "config.toml").toList

/-- Reads the first file that is there. Without one nothing is decided. -/
def loadFirst (tree : FileTree) (paths : List String) : Except Problem Layer :=
  match paths.find? tree.isFile with
  | some path => read tree path
  | none => .ok Layer.empty

/-! ## Creating -/

/-- Creates the file that new users start from, and the directories above it. -/
def create (tree : FileTree) (path : String) : Except Problem FileTree := do
  let above := (Path.parent? path).getD ""
  let tree ←
    if above = "" || tree.exists? above then .ok tree
    else (tree.makeDirectories above).mapError fun fault => Problem.system fault.system
  (tree.save path (.text Template.text)).mapError fun fault => Problem.system fault.system

/-- A file that is not there decides nothing as a source. -/
theorem overlay_source_of_missing {tree : FileTree} {file : File} (below : Layer)
    (missing : tree.isFile file.path = false) :
    (file.source tree).overlay below = .ok below :=
  Source.overlay_of_unavailable below missing

end File

/-- The directories of a user according to environment variables. -/
def UserDirectories.ofVariables (bindings : List (String × String)) : UserDirectories :=
  let home := (bindings.lookup "HOME").filter fun path => path ≠ ""
  { home := home
    configuration := ((bindings.lookup "XDG_CONFIG_HOME").filter Path.isAbsolute).or
      (home.map (Path.join · ".config")) }

end GodotGraph.Settings
