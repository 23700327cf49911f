import BlobLifecycle.Bytes

/-! Paths as texts whose components are separated by slashes. -/
namespace BlobLifecycle.Path

/-- Appends a component to a byte path. An absolute one replaces the path, and a
separator is put in only where none stands. -/
def joinBytes (base component : Bytes) : Bytes :=
  if component.head? = some 47 then component
  else if base = [] ∨ base.getLast? = some 47 then base ++ component
  else base ++ 47 :: component

def join (base component : String) : String :=
  if component.toList.head? = some '/' then component
  else if base = "" ∨ base.toList.getLast? = some '/' then base ++ component
  else base ++ "/" ++ component

/-- The components of a relative path, without the empty ones and those that stand for
the directory itself. -/
def components (path : String) : List String :=
  ((path.toList.splitOn '/').map String.ofList).filter fun c => c ≠ "" ∧ c ≠ "."

/-- Whether the last component stands for the directory itself, as in `a/.`. -/
def endsInDot (path : String) : Bool :=
  ((path.toList.splitOn '/').filter (· ≠ [])).getLast? = some ['.']

def directory (path : String) : String := "/".intercalate (components path).dropLast

end BlobLifecycle.Path
