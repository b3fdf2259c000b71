import TimingDiagram.Command.Files

namespace TimingDiagram

-- What stands at a place of a file tree.
inductive FileNode where
  | directory
  | file (content : ByteArray)

-- The names that lead from the working directory to a place.
abbrev Place := List String

-- The files and directories below the working directory. Every directory is listed.
structure FileTree where
  nodes : List (Place × FileNode) := []

namespace FileTree

-- The directories above the working directory, and the topmost one.
def isAbove (place : Place) : Bool := place == ["/"] || place.all (· == "..")

-- Of the places that are not below the working directory only those above it are known.
def find? (t : FileTree) (place : Place) : Option FileNode :=
  if isAbove place then some .directory else t.nodes.lookup place

def put (t : FileTree) (place : Place) (node : FileNode) : FileTree :=
  ⟨(place, node) :: t.nodes.filter fun entry => entry.1 ≠ place⟩

def parent (place : Place) : Place :=
  if place = ["/"] then place else if isAbove place then place ++ [".."] else place.dropLast

-- How many bytes a name in a path, and a whole path, may have.
def maxName : Nat := 255

def maxPath : Nat := 4095

-- Takes one step from a place, which must be a directory. Nothing need stand where it leads to.
def step (t : FileTree) (place : Place) (name : String) : Except FileError Place :=
  match t.find? place with
  | none => .error .notFound
  | some (.file _) => .error .notDirectory
  | some .directory =>
    if maxName < name.utf8ByteSize then .error .nameTooLong
    else if name = "" || name = "." then .ok place
    else if name = ".." then .ok (parent place)
    else .ok (place ++ [name])

-- The place that names lead to. A path from the topmost directory starts with an empty name.
def walk (t : FileTree) : List String → Except FileError Place
  | "" :: names => names.foldlM t.step ["/"]
  | names => names.foldlM t.step []

-- What can be wrong with a path whatever there is to be found.
def checkForm (path : String) : Except FileError Unit := do
  checkPath path
  if path.isEmpty then throw .notFound
  if maxPath < path.utf8ByteSize then throw .nameTooLong

-- The place that a path leads to.
def locate (t : FileTree) (path : String) : Except FileError Place := do
  checkForm path
  t.walk (path.splitOn "/")

def isPresent (t : FileTree) (path : String) : Bool :=
  match t.locate path with
  | .ok place => (t.find? place).isSome
  | .error _ => false

def readText (t : FileTree) (path : String) : Except FileError String := do
  match t.find? (← t.locate path) with
  | none => .error .notFound
  | some .directory => .error .isDirectory
  | some (.file content) =>
    match String.fromUTF8? content with
    | some text => .ok text
    | none => .error .notText

-- The names on the way to the directory that should hold what a path leads to.
def namesAbove (path : String) : List String :=
  let trimmed := String.ofList (path.toList.reverse.dropWhile (· == '/')).reverse
  (trimmed.splitOn "/").dropLast

-- Writes a file. Its directory must exist. A path that ends in a slash can only be meant for a
-- directory, whether there is one or not.
def writeText (t : FileTree) (path text : String) : Except FileError FileTree := do
  if path.endsWith "/" then
    checkForm path
    let _ ← t.step (← t.walk (namesAbove path)) "."
    throw .isDirectory
  else
    let place ← t.locate path
    match t.find? place with
    | some .directory => throw .isDirectory
    | _ => return t.put place (.file text.toUTF8)

-- Adds a file or a directory together with the directories on the way to it.
def add (t : FileTree) (path : String) (node : FileNode) : FileTree :=
  let place := (path.splitOn "/").filter fun name => name ≠ "" && name ≠ "."
  let ways := (List.range place.length).drop 1 |>.map place.take
  (ways.foldl (fun t way => t.put way .directory) t).put place node

-- Runs an operation on the tree, which stays as it is.
def ask {α : Type} (f : FileTree → α) : StateM FileTree α := do return f (← get)

instance : Files (StateM FileTree) where
  isPresent path := ask (isPresent · path)
  readText path := ask (readText · path)
  writeText path text := do
    match (← get).writeText path text with
    | .ok t =>
      set t
      return .ok ()
    | .error e => return .error e

end FileTree

end TimingDiagram
