import BlobLifecycle.Toml.Datetime

/-! Tables that stand for a date and time: their first key is a reserved one, whose value
spells it. Their other keys do not matter. -/
namespace BlobLifecycle.Toml

namespace Table

def reservedKey : String := "$__toml_private_datetime"

/-- The value of the reserved key if it is the first: of the keys in the order in which they
came, or in the later edition in the order of their bytes. -/
def reserved? (edition : Edition) (t : Table) : Option Value :=
  match edition with
  | .v10 =>
    match t with
    | (key, value) :: _ => if key = reservedKey then some value else none
    | [] => none
  | .v11 => if t.all fun entry => reservedKey ≤ entry.1 then t.lookup reservedKey else none

/-- The date and time for which a table stands; none of it if it stands for none. -/
def datetime? (edition : Edition) (t : Table) : Option (Option Value) :=
  match t.reserved? edition with
  | none => some none
  | some (.text s) =>
    (Toml.datetime? (.quoted edition) s.toList).map fun s => some (.datetime s)
  | some _ => none

end Table

mutual

/-- Replaces the tables in a value that stand for a date and time; one that spells none
spoils the whole. -/
def Value.settle? (edition : Edition) : Value → Option Value
  | .array elements => (settleElements? edition elements).map .array
  | .table origin entries => do
    match ← Table.datetime? edition entries with
    | some value => return value
    | none => return .table origin (← settleEntries? edition entries)
  | .tables elements => (settleTables? edition elements).map .array
  | value => some value

def settleElements? (edition : Edition) : List Value → Option (List Value)
  | [] => some []
  | value :: rest => do return (← value.settle? edition) :: (← settleElements? edition rest)

def settleEntries? (edition : Edition) : List (String × Value) → Option (List (String × Value))
  | [] => some []
  | (key, value) :: rest => do
    return (key, ← value.settle? edition) :: (← settleEntries? edition rest)

def settleTables? (edition : Edition) : List (List (String × Value)) → Option (List Value)
  | [] => some []
  | entries :: rest => do
    let value ← match ← Table.datetime? edition entries with
      | some value => pure value
      | none => (settleEntries? edition entries).map (.table .header)
    return value :: (← settleTables? edition rest)

end

end BlobLifecycle.Toml
