import BlobLifecycle.Text.Path

/-! A directory tree as far as it can stand in the way of new directories: its plain files
and its directories, by their places. -/
namespace BlobLifecycle

/-- Names from the root downwards. Each `..` in front stands for one level above the root. -/
abbrev Place := List String

namespace Place

def parent (here : Place) : Place :=
  if here.all (· = "..") then ".." :: here else here.dropLast

def enter (here : Place) (component : String) : Place :=
  if component = ".." then here.parent else here ++ [component]

def ofPath (path : String) : Place := (Path.components path).foldl enter []

end Place

structure FileTree where
  files : List Place
  directories : List Place
  deriving DecidableEq, Repr

namespace FileTree

def empty : FileTree := ⟨[], []⟩

/-- The root and all above it always exist. -/
def isDirectory (t : FileTree) (place : Place) : Bool :=
  place.all (· = "..") || t.directories.contains place

/-- The most bytes of a name and of a whole path. -/
def nameLimit : Nat := 255
def pathLimit : Nat := 4095

/-- Makes the directories on a way from `here` that do not exist yet. -/
def makeAlong (t : FileTree) (here : Place) : List String → Option FileTree
  | [] => some t
  | component :: rest =>
    let next := here.enter component
    if nameLimit < component.utf8ByteSize ∨ next ∈ t.files then none
    else if t.isDirectory next then makeAlong t next rest
    else makeAlong { t with directories := next :: t.directories } next rest

/-- Makes the directory of a path with all its parents. A path that ends in a dot means
a directory that must exist, and no path has a zero character. -/
def makeDirectory (t : FileTree) (path : String) : Option FileTree :=
  let components := Path.components path
  if '\x00' ∈ path.toList ∨ pathLimit < path.utf8ByteSize then none
  else if Path.endsInDot path ∧ components.getLast? ≠ some ".." ∧
    !t.isDirectory (Place.ofPath path) then none
  else t.makeAlong [] components

def addFile (t : FileTree) (path : String) : FileTree :=
  let t := (t.makeAlong [] (Path.components path).dropLast).getD t
  { t with files := Place.ofPath path :: t.files }

def ofFiles (paths : List String) : FileTree := paths.foldl addFile empty

/-- Whether a plain file, or a name that is too long, stands on the way to a path. -/
def blocks (t : FileTree) (path : String) : Bool :=
  '\x00' ∈ path.toList || (t.makeAlong [] (Path.components path)).isNone

end FileTree

end BlobLifecycle
