import BlobLifecycle.Sql.Statement

/-! Database scripts as far as they make, rename and remove tables, views and indexes. A
script ends at its first faulty statement; what came before it stays. -/
namespace BlobLifecycle.Sql

/-- A trigger's statements belong to it, up to the word for the end. -/
def isTrigger : List Token → Bool
  | .word "create" :: .word "trigger" :: _ => true
  | .word "create" :: _ :: .word "trigger" :: _ => true
  | _ => false

def splitStatement (hasBody : Bool) : List Token → List Token × List Token
  | [] => ([], [])
  | .word "end" :: .mark ';' :: rest => ([.word "end"], rest)
  | t :: rest =>
    if t = .mark ';' ∧ !hasBody then ([], rest)
    else
      let (statement, rest) := splitStatement hasBody rest
      (t :: statement, rest)

/-- Runs statement after statement up to the first faulty one; the first argument bounds
their number. -/
def runTokens : Nat → State → List Token → State
  | 0, s, _ => s
  | bound + 1, s, ts =>
    if ts = [] then s
    else
      let (statement, rest) := splitStatement (isTrigger ts) ts
      match execute? s statement with
      | some s => runTokens bound s rest
      | none => s

/-- The permanent objects that a script leaves behind. What it does not commit is undone. -/
def run (script : String) : Catalog :=
  let ts := tokens script
  (runTokens (ts.length + 1) .empty ts).rollback.catalog.filter (·.schema = mainSchema)

end BlobLifecycle.Sql
