/-
Files and directories held in memory, and the way a path leads through them from the root.
-/
import SJava.Source.Lookup

namespace SJava

inductive FileTree.Entry where
  | file (content : ByteArray)
  | directory

/-- The entries of a tree with the names that lead to each from the root.  Of two entries
at one place the first counts. -/
structure FileTree where
  entries : List (List Text × FileTree.Entry)

namespace FileTree

def empty : FileTree := ⟨[]⟩

/-- Where one part of a path leads.  Above the root there are only places outside the
tree. -/
def step (here : List Text) (part : Text) : List Text :=
  if part = [] ∨ part = ['.'] then here
  else if part = ['.', '.'] then
    if here.getLast?.all (· = ['.', '.']) then here ++ [part] else here.dropLast
  else here ++ [part]

/-- The places that a path leads through, the last one first. -/
def places (path : Text) : List (List Text) :=
  (Path.parts path).foldl (fun visited part => step (visited.headD []) part :: visited) [[]]

/-- Adds an entry, with the directories on the way to it. -/
def add (t : FileTree) (path : Text) (entry : Entry) : FileTree :=
  match places path with
  | [] => t
  | place :: way => ⟨(place, entry) :: t.entries ++ way.map fun p => (p, .directory)⟩

def entry? (t : FileTree) (place : List Text) : Option Entry :=
  if place = [] then some .directory
  else (t.entries.find? fun e => e.1 = place).map fun e => e.2

/-- What is found by going on from a place along the parts of a path.  Only directories
lead on. -/
def follow (t : FileTree) (here : List Text) : List Text → Lookup
  | [] =>
    match t.entry? here with
    | none => .missing
    | some .directory => .notRegular
    | some (.file content) => .regular content
  | part :: rest =>
    match t.entry? here with
    | none => .missing
    | some .directory => follow t (step here part) rest
    | some (.file _) => .notADirectory

/-- What is found at a path from the root.  No path holds a zero character, and one that
is empty or begins with a slash does not start from the root. -/
def lookup (t : FileTree) (path : Text) : Lookup :=
  if path.contains '\x00' then .invalidPath
  else if path.head?.all (· = '/') then .missing
  else t.follow [] (Path.parts path)

end FileTree
end SJava
