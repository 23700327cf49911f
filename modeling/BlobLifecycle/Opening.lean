import BlobLifecycle.Event
import BlobLifecycle.FileTree
import BlobLifecycle.Registry
import BlobLifecycle.Sql.Script
import BlobLifecycle.Store.Large

/-! Opening a vault in a directory, and the log file beside it: what is made in which
order, what stands in the way, and what is logged. -/
namespace BlobLifecycle

structure Site where
  root : String
  tree : FileTree
  /-- What was in the database before the vault's own tables. -/
  catalog : Sql.Catalog
  /-- Whether the vault's own tables exist. -/
  isMigrated : Bool
  deriving DecidableEq, Repr

inductive OpeningFault where
  | databaseDirectory
  | databasePath
  | migration
  | largeStoreDirectory
  | registry (fault : RegistryFault)
  deriving DecidableEq, Repr

def OpeningFault.message : OpeningFault → String
  | databaseDirectory => "Database initialization failed: Failed to create DB directory"
  | databasePath => "Database initialization failed: Invalid database path"
  | migration => "Database initialization failed: Failed to initialize DB: Migration failed"
  | largeStoreDirectory => "Blob storage initialization failed: Failed to create directory"
  | registry fault => s!"Invalid tier configuration: {fault.message}"

namespace Site

def ownNames : List String :=
  ["incubation_ledger", "idx_incubation_ledger_write_ts", "medium_blob"]

/-- The table that notes which migrations were made. -/
def recordName : String := "__diesel_schema_migrations"

/-- A table that is there before must have the column for the notes. -/
def admitsRecord (o : Sql.SchemaObject) : Bool :=
  o.kind = .table && (o.columns.getD ["version"]).contains "version"

/-- Whether the vault's tables can be made, or were made before. -/
def admitsMigration (s : Site) : Bool :=
  s.isMigrated ||
    (ownNames.all (fun name => (s.catalog.find? Sql.mainSchema name).isNone) &&
      ((s.catalog.find? Sql.mainSchema recordName).map admitsRecord).getD true)

/-- A database has two more files beside its own while it is open. -/
def databaseFiles (database : String) : List String :=
  ["", "-wal", "-shm"].map (database ++ ·)

structure Opening where
  events : List Event
  outcome : Except OpeningFault Site

/-- Makes the database and its tables, then the directory of the bulk store, and checks the
thresholds last. A database path that is no text is given as none. -/
def openVault (s : Site) (database : Option String) (largeStore : String)
    (thresholds : Thresholds) : Opening :=
  match database with
  | none => ⟨[], .error .databasePath⟩
  | some database =>
    match s.tree.makeDirectory (Path.directory database) with
    | none => ⟨[], .error .databaseDirectory⟩
    | some tree =>
      if !s.admitsMigration then ⟨[.migrating], .error .migration⟩
      else
        let migrated := [Event.migrating, .migrated]
        let tree := (databaseFiles database).foldl FileTree.addFile tree
        match tree.makeDirectory largeStore with
        | none => ⟨migrated, .error .largeStoreDirectory⟩
        | some tree =>
          match Registry.ofThresholds thresholds with
          | .error fault => ⟨migrated, .error (.registry fault)⟩
          | .ok _ =>
            ⟨migrated ++ [.vaultReady (Path.join s.root database) (Path.join s.root largeStore)
              thresholds], .ok { s with isMigrated := true, tree }⟩

def blocksObjects (s : Site) (largeStore : String) : Bool :=
  s.tree.blocks (LargeStore.objectsIn largeStore)

end Site

/-- The process-wide logger, which is set up once. -/
structure LogSetup where
  hasFile : Bool
  isSet : Bool
  deriving DecidableEq, Repr

inductive LogFileFault where
  | io
  | alreadyOpen
  deriving DecidableEq, Repr

def LogFileFault.message : LogFileFault → String
  | io => "io"
  | alreadyOpen => "Tracing log guard already initialized"

namespace LogSetup

def initial : LogSetup := ⟨false, false⟩

structure Result where
  setup : LogSetup
  error : Option String
  fileFault : Option LogFileFault
  fileExists : Bool

def secondLogger : String := "a global default trace dispatcher has already been set"

/-- Sets up logging, with a file if a directory for it is named. Without a file the logger
still writes to the standard output. A second logger is refused, but only after the
directory and the file were made. -/
def initialise (l : LogSetup) (tree : FileTree) (directory : Option String) : Result :=
  let error := if l.isSet then some secondLogger else none
  match directory with
  | none => ⟨{ l with isSet := true }, error, none, false⟩
  | some directory =>
    if (tree.makeDirectory directory).isSome then
      ⟨⟨true, true⟩, error, if l.hasFile then some .alreadyOpen else none, true⟩
    else ⟨{ l with isSet := true }, error, some .io, false⟩

end LogSetup

end BlobLifecycle
