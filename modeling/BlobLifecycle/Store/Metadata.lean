import BlobLifecycle.Ledger.Entry
import BlobLifecycle.Text.Json

/-! The metadata that lies beside the content of a large object, and its JSON text. -/
namespace BlobLifecycle

structure Metadata where
  mediaType : String
  size : Int
  createdAt : Timestamp
  deriving DecidableEq, Repr

namespace Metadata

open Json

/-- What has been read of the three members so far. -/
structure Members where
  mediaType : Option String
  size : Option Int
  createdAt : Option Int

def Members.complete? (m : Members) : Option Metadata := do
  return ⟨← m.mediaType, ← m.size, ← m.createdAt⟩

def member (name : String) (value : Text) : Text := quote name ++ ':' :: value

def integer (n : Int) : Text := (toString n).toList

def render (m : Metadata) : String :=
  String.ofList ('\x7b' :: member "media_type" (quote m.mediaType) ++
    ',' :: member "size_bytes" (integer m.size) ++
    ',' :: member "created_at_ms" (integer m.createdAt) ++ ['\x7d'])

/-- Reads the value of one member. A known member may come once; others are passed over. -/
def readMember (name : String) (m : Members) (text : Text) : Option (Members × Text) :=
  if name = "media_type" then
    if m.mediaType.isSome then none
    else (readString text).map fun (s, rest) => ({ m with mediaType := some s }, rest)
  else if name = "size_bytes" then
    if m.size.isSome then none
    else (readInteger text).map fun (n, rest) => ({ m with size := some n }, rest)
  else if name = "created_at_ms" then
    if m.createdAt.isSome then none
    else (readInteger text).map fun (n, rest) => ({ m with createdAt := some n }, rest)
  else (skipValue (2 * text.length + 2) text).map fun rest => (m, rest)

def readMembers : Nat → Members → Text → Option (Members × Text)
  | 0, _, _ => none
  | bound + 1, m, text => do
    let (name, rest) ← readString text
    let rest ← expect ':' rest
    let (m, rest) ← readMember name m rest
    match ← separator '\x7d' rest with
    | .closed rest => some (m, rest)
    | .next rest => readMembers bound m rest

/-- The three values in order, for metadata written as an array. -/
def readTuple (text : Text) : Option (Metadata × Text) := do
  let (mediaType, rest) ← readString text
  let rest ← expect ',' rest
  let (size, rest) ← readInteger rest
  let rest ← expect ',' rest
  let (createdAt, rest) ← readInteger rest
  let rest ← expect ']' rest
  return (⟨mediaType, size, createdAt⟩, rest)

def readMetadata (text : Text) : Option (Metadata × Text) :=
  match skipBlanks text with
  | '[' :: rest => readTuple rest
  | '\x7b' :: rest => do
    let (m, rest) ← match skipBlanks rest with
      | '\x7d' :: rest => some (⟨none, none, none⟩, rest)
      | rest => readMembers rest.length ⟨none, none, none⟩ rest
    return (← m.complete?, rest)
  | _ => none

/-- Nothing but blanks may follow. -/
def parse? (text : String) : Option Metadata := do
  let (m, rest) ← readMetadata text.toList
  if skipBlanks rest = [] then some m else none

end Metadata

end BlobLifecycle
