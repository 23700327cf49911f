import BlobLifecycle.Program
import BlobLifecycle.Store.Large
import BlobLifecycle.Store.Medium

/-! The state that requests read and change, and the answer to each request. -/
namespace BlobLifecycle

structure Vault where
  ledger : Ledger
  medium : MediumStore
  large : LargeStore
  clock : Timestamp
  isSweeping : Bool
  /-- The locators to be issued, in order. -/
  supply : Nat → Locator
  issued : Nat
  repository : Repository
  events : List Event

namespace Vault

def empty (root : String) (isBlocked : Bool) (clock : Timestamp) : Vault :=
  ⟨∅, ∅, ⟨root, isBlocked, ∅⟩, clock, false, fun _ => [], 0, .empty, []⟩

/-- A sink for new content. Stored tiers issue the next locator. -/
def openWrite (v : Vault) (tier : Tier) (mediaType : String) : Sink × Vault :=
  match tier with
  | .inline => (⟨.inline, [], mediaType, v.clock, [], false⟩, v)
  | .medium | .large =>
    (⟨tier, v.supply v.issued, mediaType, v.clock, [], false⟩, { v with issued := v.issued + 1 })

/-- Gives a bulk sink its file if it has none yet. -/
def openFile (v : Vault) (sink : Sink) : Except BlobError (Sink × Vault) :=
  if sink.tier = .large ∧ sink.isOpen = false then
    match v.large.beginContent sink.locator with
    | .ok large => .ok ({ sink with isOpen := true }, { v with large })
    | .error e => .error e
  else .ok (sink, v)

def append (v : Vault) (sink : Sink) (chunk : Bytes) : Except BlobError Sink × Vault :=
  match v.openFile sink with
  | .ok (sink, v) => (.ok { sink with content := sink.content ++ chunk }, v)
  | .error e => (.error e, v)

/-- Makes the content durable under the locator that the handle must carry. -/
def commit (v : Vault) (sink : Sink) : Except BlobError Locator × Vault :=
  match sink.tier with
  | .inline => (.ok sink.content, v)
  | .medium =>
    match v.medium.insertNew sink.locator ⟨sink.mediaType, sink.content, sink.createdAt⟩ with
    | .ok medium => (.ok sink.locator, { v with medium })
    | .error e => (.error e, v)
  | .large =>
    match v.openFile sink with
    | .error e => (.error e, v)
    | .ok (sink, v) =>
      let metadata := ⟨sink.mediaType, sink.content.length, sink.createdAt⟩
      let (result, large) := v.large.publish sink.locator metadata sink.content
      (result.map fun _ => sink.locator, { v with large })

/-- Inline content is read from the locator itself. -/
def read (v : Vault) (tier : Tier) (locator : Locator) : Except BlobError Bytes :=
  match tier with
  | .inline => .ok locator
  | .medium => v.medium.read locator
  | .large => v.large.read locator

def delete (v : Vault) (tier : Tier) (locator : Locator) : Except BlobError Unit × Vault :=
  match tier with
  | .inline => (.ok (), v)
  | .medium =>
    let (result, medium) := v.medium.delete locator
    (result, { v with medium })
  | .large =>
    let (result, large) := v.large.delete locator
    (result, { v with large })

def answer : (request : Request) → StateM Vault request.Reply
  | .now => fun v => (v.clock, v)
  | .log event => fun v => ((), { v with events := v.events ++ [event] })
  | .beginSweep => fun v => (!v.isSweeping, { v with isSweeping := true })
  | .endSweep => fun v => ((), { v with isSweeping := false })
  | .incubate locator tier time => fun v =>
    match v.ledger.incubate locator tier time with
    | .ok ledger => (.ok (), { v with ledger })
    | .error e => (.error e, v)
  | .entry locator => fun v => (v.ledger.get locator, v)
  | .claim locator holder time => fun v =>
    let (outcome, ledger) := v.ledger.claim locator holder time
    (outcome, { v with ledger })
  | .unclaim locator holder => fun v =>
    let (done, ledger) := v.ledger.unclaim locator holder
    (.ok done, { v with ledger })
  | .release locator holder => fun v =>
    let (done, ledger) := v.ledger.release locator holder
    (.ok done, { v with ledger })
  | .condemn observed time => fun v =>
    let (done, ledger) := v.ledger.condemn observed time
    (.ok done, { v with ledger })
  | .remove locator => fun v =>
    let (done, ledger) := v.ledger.remove locator
    (.ok done, { v with ledger })
  | .listExpired cutoff cursor limit => fun v => (v.ledger.listExpired cutoff cursor limit, v)
  | .openWrite tier mediaType => fun v =>
    let (sink, v) := v.openWrite tier mediaType
    (.ok sink, v)
  | .append sink chunk => fun v => v.append sink chunk
  | .commit sink => fun v => v.commit sink
  | .openRead tier locator => fun v => (v.read tier locator, v)
  | .delete tier locator => fun v => v.delete tier locator
  | .fieldType field => fun v => (v.repository.fieldType field, v)
  | .readField record version field => fun v => (v.repository.readField record version field, v)
  | .fieldHistory record field => fun v => (v.repository.fieldHistory record field, v)

def run (v : Vault) (p : Program α) : α × Vault := p.interpret answer v

end Vault

end BlobLifecycle
