import BlobLifecycle.Sql.Token

/-! Parts of database statements: names, groups in brackets, definitions of columns. -/
namespace BlobLifecycle.Sql

/-- Words that no name can be without quotes. -/
def reserved : List String :=
  ["add", "all", "alter", "and", "as", "autoincrement", "between", "case", "check", "collate",
    "commit", "constraint", "create", "default", "deferrable", "delete", "distinct", "drop",
    "else", "escape", "exists", "foreign", "from", "group", "having", "in", "index", "insert",
    "into", "is", "isnull", "limit", "not", "notnull", "null", "on", "or", "order", "primary",
    "references", "returning", "select", "set", "table", "then", "to", "transaction", "union",
    "unique", "update", "using", "values", "when", "where"]

def Token.name? : Token → Option String
  | word s => if s ∈ reserved then none else some s
  | name s | text s => some s
  | _ => none

structure QualifiedName where
  schema : Option String
  name : String

def readQualified : List Token → Option (QualifiedName × List Token)
  | a :: .mark '.' :: b :: rest => do return (⟨some (← a.name?), ← b.name?⟩, rest)
  | a :: rest => do return (⟨none, ← a.name?⟩, rest)
  | [] => none

/-- Whether the condition comes first that the object does not exist. The word that begins
it is no name here. -/
def readUnlessExists : List Token → Option (Bool × List Token)
  | .word "if" :: .word "not" :: .word "exists" :: rest => some (true, rest)
  | .word "if" :: _ => none
  | rest => some (false, rest)

def readIfExists : List Token → Option (Bool × List Token)
  | .word "if" :: .word "exists" :: rest => some (true, rest)
  | .word "if" :: _ => none
  | rest => some (false, rest)

/-- The tokens up to the bracket that closes one open at the given depth, and the rest. -/
def readGroup (depth : Nat) : List Token → Option (List Token × List Token)
  | [] => none
  | .mark ')' :: rest =>
    match depth with
    | 0 => some ([], rest)
    | depth + 1 => (readGroup depth rest).map fun (g, rest) => (.mark ')' :: g, rest)
  | .mark '(' :: rest =>
    (readGroup (depth + 1) rest).map fun (g, rest) => (.mark '(' :: g, rest)
  | t :: rest => (readGroup depth rest).map fun (g, rest) => (t :: g, rest)

def splitParts : (depth : Nat) → (part : List Token) → List Token → List (List Token)
  | _, part, [] => [part.reverse]
  | 0, part, .mark ',' :: rest => part.reverse :: splitParts 0 [] rest
  | depth, part, .mark '(' :: rest => splitParts (depth + 1) (.mark '(' :: part) rest
  | depth, part, .mark ')' :: rest => splitParts (depth - 1) (.mark ')' :: part) rest
  | depth, part, t :: rest => splitParts depth (t :: part) rest

def startsConstraint (part : List Token) : Bool :=
  part.head? ∈
    ["constraint", "primary", "unique", "check", "foreign"].map fun s => some (Token.word s)

/-- Whether constraints of a column come here, each whole. The first argument bounds their
number. -/
def areConstraints : Nat → List Token → Bool
  | 0, _ => false
  | _, [] => true
  | bound + 1, .word w :: rest =>
    match w, rest with
    | "constraint", _ :: rest | "collate", _ :: rest => areConstraints bound rest
    | "primary", .word "key" :: rest =>
      areConstraints bound (rest.dropWhile fun t =>
        [Token.word "asc", .word "desc", .word "autoincrement"].contains t)
    | "not", .word "null" :: rest | "not", .word "deferrable" :: rest => areConstraints bound rest
    | "null", rest | "unique", rest | "deferrable", rest | "stored", rest | "virtual", rest
    | "generated", .word "always" :: rest => areConstraints bound rest
    | "default", .mark '-' :: .number :: rest | "default", .mark '+' :: .number :: rest =>
      areConstraints bound rest
    | "check", .mark '(' :: rest | "as", .mark '(' :: rest | "default", .mark '(' :: rest =>
      match readGroup 0 rest with
      | some (_ :: _, rest) => areConstraints bound rest
      | _ => false
    | "default", .mark _ :: _ => false
    | "default", _ :: rest => areConstraints bound rest
    | "references", owner :: .mark '(' :: rest =>
      match readGroup 0 rest with
      | some (_, rest) => owner.name?.isSome && areConstraints bound rest
      | none => false
    | "references", owner :: rest => owner.name?.isSome && areConstraints bound rest
    | "on", .word "conflict" :: _ :: rest | "match", _ :: rest
    | "initially", _ :: rest => areConstraints bound rest
    | "on", .word _ :: .word "set" :: _ :: rest | "on", .word _ :: .word "no" :: _ :: rest
    | "on", .word _ :: .word _ :: rest => areConstraints bound rest
    | _, _ => false
  | _, _ => false

/-- Words of a type that also begin a constraint. -/
def isConstraintWord (t : Token) : Bool :=
  t = .word "generated" || t.name?.isNone

/-- Whether a column may be defined so: its name, the words of its type, perhaps with a size
in brackets, and its constraints. -/
def isDefinition (part : List Token) : Bool :=
  let rest := (part.drop 1).dropWhile fun t => !isConstraintWord t
  let rest? : Option (List Token) := match rest with
    | .mark '(' :: rest => (readGroup 0 rest).map (·.2)
    | rest => some rest
  (part.head?.bind Token.name?).isSome &&
    rest?.any fun rest => areConstraints (rest.length + 1) rest

/-- The columns that the parts of a table's body define: one at least, all different, and
before all constraints. -/
def columns? (parts : List (List Token)) : Option (List String) := do
  let definitions := parts.takeWhile fun part => !startsConstraint part
  let names ← definitions.mapM fun part => part.head?.bind Token.name?
  if names = [] ∨ names.eraseDups ≠ names ∨ !definitions.all isDefinition ∨
    !(parts.drop names.length).all startsConstraint then none
  return names

def areOptions (body options : List Token) : Bool :=
  options = [] || (splitParts 0 [] options).all fun part =>
    part = [.word "strict"] ||
      (part = [.word "without", .word "rowid"] && body.contains (.word "primary"))

def isQuery (query : List Token) : Bool :=
  query.head? ∈ ["select", "values", "with"].map (fun s => some (Token.word s)) && 2 ≤ query.length

def isInternal (name : String) : Bool := "sqlite_".toList.isPrefixOf name.toList

end BlobLifecycle.Sql
