import Frond.Files.Basic
import Frond.Text.Characters

/-!
A tree of files and directories held as a value, and the paths that lead through it: from the
root, or from the directory that a run works in.
-/

namespace Frond

/-- What a place of the tree holds. -/
inductive FileNode where
  | file (content : ByteArray)
  | directory
  /-- Reads as empty, and passes on what is written. -/
  | stream (written : String)
  /-- A device on which there is no room. -/
  | full

/-- The names that lead from the root to a place. -/
abbrev Place := List String

structure FileTree where
  nodes : List (Place × FileNode) := []
  /-- Where paths start that do not start at the root. -/
  home : Place := []

namespace FileTree

/-- What lies at a place; the root is a directory. -/
def find? (tree : FileTree) : Place → Option FileNode
  | [] => some .directory
  | place => tree.nodes.lookup place

/-- The tree with a node at a place, in place of what lay there. -/
def put (tree : FileTree) (place : Place) (node : FileNode) : FileTree :=
  { tree with nodes := tree.nodes.filter (·.1 != place) ++ [(place, node)] }

theorem lookup_filter_ne (nodes : List (Place × FileNode)) (place : Place) :
    (nodes.filter (·.1 != place)).lookup place = none := by
  rw [List.lookup_eq_none_iff]
  intro entry held
  have apart : entry.1 ≠ place := by simpa using (List.mem_filter.mp held).2
  simpa using apart.symm

theorem lookup_filter_of_ne (nodes : List (Place × FileNode)) {place other : Place}
    (different : other ≠ place) :
    (nodes.filter (·.1 != place)).lookup other = nodes.lookup other := by
  induction nodes with
  | nil => rfl
  | cons entry rest ih =>
    obtain ⟨key, node⟩ := entry
    by_cases same : key = place
    · have apart : (other == place) = false := by simpa using different
      simp [same, List.lookup_cons, apart, ih]
    · simp [same, List.lookup_cons, ih]

theorem find?_put_self (tree : FileTree) {place : Place} (node : FileNode)
    (below : place ≠ []) : (tree.put place node).find? place = some node := by
  cases place with
  | nil => exact absurd rfl below
  | cons name rest => simp [find?, put, List.lookup_append, lookup_filter_ne]

theorem find?_put_of_ne (tree : FileTree) {place other : Place} (node : FileNode)
    (different : other ≠ place) : (tree.put place node).find? other = tree.find? other := by
  cases other with
  | nil => rfl
  | cons name rest =>
    have apart : (name :: rest == place) = false := by simpa using different
    simp [find?, put, List.lookup_append, lookup_filter_of_ne tree.nodes different,
      List.lookup_cons, apart]

/-- What lies below the home of a tree, by the places as seen from there: each directory followed
by what it holds, and names in the order of their characters. -/
def listing (tree : FileTree) : List (Place × FileNode) :=
  let below := tree.nodes.filterMap fun (place, node) =>
    if place != tree.home && tree.home.isPrefixOf place then
      some (place.drop tree.home.length, node)
    else none
  below.mergeSort fun a b => !b.1.lex a.1 precedes

/-- No name has more bytes than this. -/
def maxNameSize : Nat := 255

/-- No path has more bytes than this. -/
def maxPathSize : Nat := 4095

/-- Goes from a directory to one that it names. Nothing lies above the root. -/
def enter (tree : FileTree) (place : Place) (name : String) : Except FileError Place :=
  if Files.isStill name then .ok place
  else if name == ".." then .ok place.dropLast
  else if maxNameSize < name.utf8ByteSize then .error .nameTooLong
  else match tree.find? (place ++ [name]) with
    | some .directory => .ok (place ++ [name])
    | some _ => .error .notDirectory
    | none => .error .notFound

/-- Where a path starts, and the names on it. -/
def names (tree : FileTree) (path : String) : Except FileError (Place × List String) :=
  if maxPathSize < path.utf8ByteSize then .error .nameTooLong
  else match Files.pieces path with
    | [""] => .error .notFound
    | "" :: names => .ok ([], names)
    | names => .ok (tree.home, names)

/-- The names before the slashes at the end of a path. -/
def withoutSlashes (names : List String) : List String :=
  (names.reverse.dropWhile (· == "")).reverse

/-- The directory that a path leads into, and the last name on it if that can name a file. -/
def approach (tree : FileTree) (start : Place) (names : List String) :
    Except FileError (Place × Option String) := do
  let directory ← names.dropLast.foldlM tree.enter start
  match names.getLast? with
  | none => return (directory, none)
  | some name => return (directory, if Files.isStill name || name == ".." then none else name)

/-- The place of a name in a directory. -/
def named (directory : Place) (name : String) : Except FileError Place :=
  if maxNameSize < name.utf8ByteSize then .error .nameTooLong else .ok (directory ++ [name])

def read (tree : FileTree) (path : String) : Except FileError ByteArray := do
  let (start, names) ← tree.names path
  match ← tree.approach start names with
  | (_, none) => throw .isDirectory
  | (directory, some name) =>
    match tree.find? (← named directory name) with
    | some (.file content) => return content
    | some .directory => throw .isDirectory
    | some (.stream _) | some .full => return .empty
    | none => throw .notFound

/-- A slash at the end asks for a directory, and those are not written. -/
def write (tree : FileTree) (path text : String) : Except FileError FileTree := do
  let (start, names) ← tree.names path
  match ← tree.approach start (withoutSlashes names), names.getLast? with
  | (_, none), _ | _, some "" => throw .isDirectory
  | (directory, some name), _ =>
    let place ← named directory name
    match tree.find? place with
    | some .directory => throw .isDirectory
    | some .full => throw .noSpace
    | some (.stream written) => return tree.put place (.stream (written ++ text))
    | some (.file _) | none => return tree.put place (.file text.toUTF8)

def isDirectory (tree : FileTree) (path : String) : Bool :=
  match tree.names path with
  | .ok (start, names) => (names.foldlM tree.enter start).isOk
  | .error _ => false

def makeDirectory (tree : FileTree) (path : String) : Except FileError FileTree := do
  let (start, names) ← tree.names path
  match ← tree.approach start (withoutSlashes names) with
  | (_, none) => throw .occupied
  | (directory, some name) =>
    let place ← named directory name
    match tree.find? place with
    | some _ => throw .occupied
    | none => return tree.put place .directory

/-- The tree with a node at a place, and the directories that lead there. -/
def plant (tree : FileTree) (place : Place) (node : FileNode) : FileTree :=
  let above := (List.range place.length).map (place.take ·)
  let grown := above.foldl (fun tree place =>
    if (tree.find? place).isSome then tree else tree.put place .directory) tree
  grown.put place node

/-- What a change of the tree comes to, and the tree after it. -/
def commit (tree : FileTree) : Except FileError FileTree → Except FileError Unit × FileTree
  | .ok next => (.ok (), next)
  | .error e => (.error e, tree)

instance : Files (StateM FileTree) where
  read path tree := (tree.read path, tree)
  write path text tree := tree.commit (tree.write path text)
  isDirectory path tree := (tree.isDirectory path, tree)
  makeDirectory path tree := tree.commit (tree.makeDirectory path)

end FileTree

end Frond
