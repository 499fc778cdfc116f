/-!
Files as the command sees them: it reads some and creates one. `FileTree` is a directory in
memory that can be used in place of the real one.
-/

namespace ArmConsole.CommandLine

inductive FileError where
  | notFound
  | notDirectory
  | isDirectory
  | nameTooLong
  | invalidText
  | other (text : String)
  deriving DecidableEq, Inhabited

def FileError.message : FileError → String
  | notFound => "No such file or directory (os error 2)"
  | notDirectory => "Not a directory (os error 20)"
  | isDirectory => "Is a directory (os error 21)"
  | nameTooLong => "File name too long (os error 36)"
  | invalidText => "stream did not contain valid UTF-8"
  | other text => text

structure FileAccess (m : Type → Type) where
  read : String → m (Except FileError ByteArray)
  /-- Creates an empty file, in place of one that is there. -/
  create : String → m (Except FileError Unit)

inductive FileEntry where
  | file (bytes : ByteArray)
  | directory

/--
Entries by their path, which is the list of names that lead to them. A path outside the tree
starts with one `..` for each directory above the root.
-/
structure FileTree where
  entries : List (List String × FileEntry)

namespace FileTree

def empty : FileTree := ⟨[]⟩

instance : Inhabited FileTree := ⟨empty⟩

/-- The most bytes of one name. -/
def maxNameSize : Nat := 255

/-- The most bytes of a whole path. -/
def maxPathSize : Nat := 4095

/--
The entry at a path. The root and what is above it are directories, and so is what has entries
below it.
-/
def find? (t : FileTree) (path : List String) : Option FileEntry :=
  match t.entries.lookup path with
  | some entry => some entry
  | none =>
    if path.all (· == "..") || t.entries.any fun (p, _) => path.isPrefixOf p then some .directory
    else none

def parent (here : List String) : List String :=
  if here.all (· == "..") then here ++ [".."] else here.dropLast

/--
Follows names from a place. Each is looked up in a directory, and only there is its size checked.
-/
def walk (t : FileTree) (here : List String) : List String → Except FileError (List String)
  | [] => .ok here
  | name :: names =>
    match t.find? here with
    | none => .error .notFound
    | some (.file _) => .error .notDirectory
    | some .directory =>
      if name == ".." then t.walk (parent here) names
      else if name == "." || name.isEmpty then t.walk here names
      else if name.utf8ByteSize > maxNameSize then .error .nameTooLong
      else t.walk (here ++ [name]) names

def splitPath (path : String) : Except FileError (List String) :=
  if path.utf8ByteSize > maxPathSize then .error .nameTooLong else .ok (path.splitOn "/")

def readFile (t : FileTree) (path : String) : Except FileError ByteArray := do
  let place ← t.walk [] (← splitPath path)
  match t.find? place with
  | none => throw .notFound
  | some .directory => throw .isDirectory
  | some (.file bytes) => return bytes

/--
A path with a slash at its end can only be that of a directory, whatever its last name is and even
if nothing is there.
-/
def createFile (t : FileTree) (path : String) : Except FileError FileTree := do
  let names := (← splitPath path).filter fun name => !name.isEmpty
  if path.endsWith "/" then
    let _ ← t.walk [] (names.dropLast ++ ["."])
    throw .isDirectory
  let place ← t.walk [] names
  if t.find? place matches some .directory then throw .isDirectory
  else return ⟨(place, .file .empty) :: t.entries.filter fun (p, _) => p != place⟩

def access : FileAccess (StateM FileTree) where
  read path := return (← get).readFile path
  create path := do
    match (← get).createFile path with
    | .ok t => set t; return .ok ()
    | .error e => return .error e

end FileTree

end ArmConsole.CommandLine
