import BlobLifecycle.Settings
import BlobLifecycle.Toml.Document

/-! Settings read from a complete TOML document. No value is converted. -/
namespace BlobLifecycle.Settings

def integer? (t : Toml.Table) (key : String) : Option Int :=
  match t.lookup key with
  | some (.integer n) => some n
  | _ => none

def natural? (t : Toml.Table) (key : String) : Option Nat :=
  match t.lookup key with
  | some (.integer n) => if 0 ≤ n then some n.toNat else none
  | _ => none

/-- A date serves as the text that spells it. -/
def text? (t : Toml.Table) (key : String) : Option String :=
  match t.lookup key with
  | some (.text s) | some (.datetime s) => some s
  | _ => none

/-- Every setting must be there with its own type; other keys do not matter. -/
def ofDocument? : Toml.Value → Option Settings
  | .table _ t => do
    return {
      inlineMaxBytes := ← integer? t "inline_max_bytes"
      mediumMaxBytes := ← integer? t "medium_max_bytes"
      graceInterval := ← integer? t "grace_interval_ms"
      batchSize := ← natural? t "sweep_batch_size"
      sweepInterval := ← natural? t "sweep_interval_ms"
      databasePath := ← text? t "database_path"
      largeStoreDirectory := ← text? t "large_store_dir" }
  | _ => none

end BlobLifecycle.Settings
