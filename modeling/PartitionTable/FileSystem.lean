import PartitionTable.Node

/-! A small file system that serves as a host. Places form a tree and lead to numbered nodes.
A path names a place, and every place on the way there has to be a directory. An open file is
the number of its node, so it outlives the removal of its name and sees what is written into
it later. -/
namespace PartitionTable

/-- A place is the list of names from the root down to it. -/
structure FileSystem where
  places : List (List String × Nat)
  nodes : Array Node

namespace FileSystem

def root : List String := []

/-- The working directory, where relative paths start. Its name and that of the directory above
cannot be spelled in a path, so a path that leaves it upwards does not find back. -/
def home : List String := ["", ""]

def empty : FileSystem := ⟨[(home, 0), (home.dropLast, 0), (root, 0)], #[.directory]⟩

/-- The longest path and the longest name that a path may have, in bytes. -/
def pathLimit : Nat := 4095

def nameLimit : Nat := 255

/-- Numbers are only given out for nodes, and nodes are never taken away. -/
def node (fs : FileSystem) (number : Nat) : Node := fs.nodes.getD number .directory

def look (fs : FileSystem) (place : List String) : Except HostError (Nat × Node) :=
  match fs.places.lookup place with
  | some number => .ok (number, fs.node number)
  | none => .error .noSuchFile

/-- One name of a path, from a place on. The root is its own parent. -/
def step (place : List String) (name : String) : Except HostError (List String) :=
  if name = "" ∨ name = "." then .ok place
  else if name = ".." then .ok place.dropLast
  else if nameLimit < name.utf8ByteSize then .error .nameTooLong
  else .ok (place ++ [name])

/-- The names of a path one after the other. Whatever the next name is, it is looked for in a
directory; what stands at the last place is left open. -/
def walk (fs : FileSystem) (place : List String) : List String → Except HostError (List String)
  | [] => .ok place
  | name :: rest => do
    match (← fs.look place).2 with
    | .directory => fs.walk (← step place name) rest
    | .file _ => .error .notDirectory

def locate (fs : FileSystem) (path : String) : Except HostError (List String) :=
  if path.contains (Char.ofNat 0) then .error .nulInPath
  else if path = "" then .error .noSuchFile
  else if pathLimit < path.utf8ByteSize then .error .nameTooLong
  else fs.walk (if path.startsWith "/" then root else home) (path.splitOn "/")

def resolve (fs : FileSystem) (path : String) : Except HostError Nat := do
  let place ← fs.locate path
  return (← fs.look place).1

def put (fs : FileSystem) (place : List String) (node : Node) : FileSystem :=
  ⟨(place, fs.nodes.size) :: fs.places, fs.nodes.push node⟩

/-- Replaces the contents of a file where it stands, or makes a new file. -/
def write (fs : FileSystem) (path : String) (contents : Image) : Except HostError FileSystem := do
  let place ← fs.locate path
  match fs.look place with
  | .ok (_, .directory) => .error .isDirectory
  | .ok (number, .file _) =>
    return { fs with nodes := fs.nodes.setIfInBounds number (.file contents) }
  | .error _ => return fs.put place (.file contents)

/-- Takes the name of a file away. The file stays for those who have it open. -/
def remove (fs : FileSystem) (path : String) : Except HostError FileSystem := do
  let place ← fs.locate path
  match (← fs.look place).2 with
  | .directory => .error .isDirectory
  | .file _ => return { fs with places := fs.places.filter (·.1 ≠ place) }

/-- Makes the directories that are missing at a place and above it. -/
def makeDirectories (fs : FileSystem) (place : List String) : FileSystem :=
  (List.range (place.length + 1)).foldl (fun fs depth =>
    match fs.look (place.take depth) with
    | .ok _ => fs
    | .error _ => fs.put (place.take depth) .directory) fs

/-- Furnishes the file system: puts a node under the working directory. -/
def add (fs : FileSystem) (path : String) (node : Node) : FileSystem :=
  let place := home ++ (path.splitOn "/").filter fun name => name ≠ "" ∧ name ≠ "."
  match node with
  | .directory => fs.makeDirectories place
  | .file _ => (fs.makeDirectories place.dropLast).put place node

def host : Host FileSystem where
  openPath path fs := (fs.resolve path, fs)
  size number fs := (.ok (fs.node number).size, fs)
  readAt number position wanted fs := ((fs.node number).read position wanted, fs)
  interruptions _ := 0
  interruptions_le _ := Nat.le_refl 0
  interruptions_lt interrupted :=
    (Node.read_ne_interrupted _ _ _ (congrArg Prod.fst interrupted)).elim

end FileSystem
end PartitionTable
