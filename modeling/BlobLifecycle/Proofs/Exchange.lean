import BlobLifecycle.Proofs.Effect

/-! What the answer to a request does: the effect it leaves happened to the state, and a
request that leaves none changes nothing outside the stores. -/
namespace BlobLifecycle

def Request.effect? : (r : Request) → r.Reply → Option Effect
  | .now => fun time => some (.read time)
  | .beginSweep => fun free => if free then some .locked else none
  | .endSweep => fun _ => some .unlocked
  | .incubate locator tier time => fun reply =>
    match reply with
    | .ok () => some (.entered locator tier time)
    | .error _ => none
  | .entry locator => fun reply =>
    match reply with
    | .ok (some e) => some (.found e)
    | .ok none => some (.missed locator)
    | .error _ => none
  | .claim locator holder time => fun reply =>
    match reply with
    | .ok .claimed => some (.claimed locator holder time)
    | .ok .renewed => some (.renewed locator holder time)
    | _ => none
  | .unclaim locator holder => fun reply =>
    match reply with
    | .ok true => some (.unclaimed locator holder)
    | _ => none
  | .release locator holder => fun reply =>
    match reply with
    | .ok true => some (.released locator holder)
    | _ => none
  | .condemn e time => fun reply =>
    match reply with
    | .ok true => some (.condemned e time)
    | _ => none
  | .remove locator => fun reply =>
    match reply with
    | .ok _ => some (.removed locator)
    | .error _ => none
  | .openWrite _ _ => fun reply =>
    match reply with
    | .ok sink => if sink.tier.isStored then some (.issued sink.locator) else none
    | .error _ => none
  | .commit sink => fun reply =>
    match reply with
    | .ok locator => some (.published sink.tier locator sink.content)
    | .error _ => none
  | .delete tier locator => fun reply =>
    match reply with
    | .ok () => some (.deleted tier locator)
    | .error _ => none
  | .fieldHistory record field => fun reply =>
    match reply with
    | .ok values => some (.asked ⟨record, field⟩ values)
    | .error _ => none
  | _ => fun _ => none

/-- A request is answered by the vault, or fails without any effect. -/
inductive Request.Outcome (v : Vault) (r : Request) : r.Reply → Vault → Prop
  | served : Outcome v r (v.answer r).1 (v.answer r).2
  | failed (failure : r.failure? e = some reply) : Outcome v r reply v

/-- What a reply says whatever the state is. -/
def Request.Credible : (r : Request) → r.Reply → Prop
  | .entry locator => fun reply => ∀ e, reply = .ok (some e) → e.locator = locator
  | .openWrite tier _ => fun reply => ∀ sink, reply = .ok sink → sink.tier = tier ∧ sink.content = []
  | .append sink chunk => fun reply => ∀ sink', reply = .ok sink' →
      sink'.tier = sink.tier ∧ sink'.locator = sink.locator ∧ sink'.content = sink.content ++ chunk
  | .commit sink => fun reply => ∀ locator, reply = .ok locator →
      sink.tier.isStored = true → locator = sink.locator
  | _ => fun _ => True

def Vault.row (v : Vault) (locator : Locator) : Option LedgerRow := v.ledger.find? locator

def Effect.Seen (v : Vault) : Effect → Prop
  | .read time => time = v.clock
  | .locked => v.isSweeping = false
  | .issued locator => locator = v.supply v.issued
  | .found e => v.row e.locator = some e.row
  | .missed locator => v.row locator = none
  | .asked holder values => v.repository.fieldHistory holder.record holder.field = .ok values
  | _ => True

/-- Whether a sweep holds the lock after an effect. -/
def Effect.lock : Effect → Bool → Bool
  | .locked, _ => true
  | .unlocked, _ => false
  | _, held => held

def Effect.supplied : Effect → Nat
  | .issued _ => 1
  | _ => 0

structure Vault.Keeps (v v' : Vault) : Prop where
  clock : v'.clock = v.clock
  supply : v'.supply = v.supply
  repository : v'.repository = v.repository

/-- Nothing happened that others can see outside the stores. -/
structure Vault.Rests (v v' : Vault) : Prop extends v.Keeps v' where
  ledger : v'.ledger = v.ledger
  issued : v'.issued = v.issued
  lock : v'.isSweeping = v.isSweeping

structure Effect.Happens (v : Vault) (d : Effect) (v' : Vault) : Prop extends v.Keeps v' where
  seen : d.Seen v
  ledger : v.ledger.Follows d v'.ledger
  issued : v'.issued = v.issued + d.supplied
  lock : v'.isSweeping = d.lock v.isSweeping

def Effect.IsQuiet (d : Effect) : Prop := d.target? = none ∧ d.supplied = 0 ∧ d.lock = id

theorem Vault.Rests.happens {v v' : Vault} {d : Effect} (rests : v.Rests v') (quiet : d.IsQuiet)
    (seen : d.Seen v) : d.Happens v v' where
  toKeeps := rests.toKeeps
  seen := seen
  ledger := by rw [rests.ledger]; exact Ledger.follows_self quiet.1
  issued := by rw [rests.issued, quiet.2.1, Nat.add_zero]
  lock := by rw [rests.lock, quiet.2.2]; rfl

namespace Vault

theorem Rests.refl (v : Vault) : v.Rests v := ⟨⟨rfl, rfl, rfl⟩, rfl, rfl, rfl⟩

theorem openFile_rests {v v' : Vault} {sink sink' : Sink}
    (opened : v.openFile sink = .ok (sink', v')) : v.Rests v' := by
  unfold openFile at opened
  split at opened
  · cases begun : v.large.beginContent sink.locator with
    | error e => simp [begun] at opened
    | ok large =>
      simp only [begun, Except.ok.injEq, Prod.mk.injEq] at opened
      rw [← opened.2]
      exact ⟨⟨rfl, rfl, rfl⟩, rfl, rfl, rfl⟩
  · simp only [Except.ok.injEq, Prod.mk.injEq] at opened
    rw [← opened.2]
    exact .refl v

theorem append_rests (v : Vault) (sink : Sink) (chunk : Bytes) : v.Rests (v.append sink chunk).2 := by
  unfold append
  cases opened : v.openFile sink with
  | error e => exact .refl v
  | ok result => exact openFile_rests opened

theorem commit_rests (v : Vault) (sink : Sink) : v.Rests (v.commit sink).2 := by
  unfold commit
  cases sink.tier with
  | inline => exact .refl v
  | medium =>
    dsimp only
    split
    · exact ⟨⟨rfl, rfl, rfl⟩, rfl, rfl, rfl⟩
    · exact .refl v
  | large =>
    dsimp only
    cases opened : v.openFile sink with
    | error e => exact .refl v
    | ok result =>
      have rests := openFile_rests opened
      exact ⟨⟨rests.clock, rests.supply, rests.repository⟩, rests.ledger, rests.issued, rests.lock⟩

theorem openFile_sink {v v' : Vault} {sink sink' : Sink}
    (opened : v.openFile sink = .ok (sink', v')) :
    sink'.tier = sink.tier ∧ sink'.locator = sink.locator ∧ sink'.content = sink.content := by
  unfold openFile at opened
  split at opened
  · cases begun : v.large.beginContent sink.locator with
    | error e => simp [begun] at opened
    | ok large =>
      simp only [begun, Except.ok.injEq, Prod.mk.injEq] at opened
      rw [← opened.1]
      exact ⟨rfl, rfl, rfl⟩
  · simp only [Except.ok.injEq, Prod.mk.injEq] at opened
    rw [← opened.1]
    exact ⟨rfl, rfl, rfl⟩

theorem append_sink {v : Vault} {sink sink' : Sink} {chunk : Bytes}
    (answer : (v.append sink chunk).1 = .ok sink') :
    sink'.tier = sink.tier ∧ sink'.locator = sink.locator ∧
      sink'.content = sink.content ++ chunk := by
  unfold append at answer
  cases opened : v.openFile sink with
  | error e => simp [opened] at answer
  | ok result =>
    obtain ⟨sameTier, sameLocator, sameContent⟩ := openFile_sink opened
    simp only [opened, Except.ok.injEq] at answer
    rw [← answer]
    exact ⟨sameTier, sameLocator, by rw [sameContent]⟩

theorem commit_locator {v : Vault} {sink : Sink} {locator : Locator}
    (answer : (v.commit sink).1 = .ok locator) (stored : sink.tier.isStored = true) :
    locator = sink.locator := by
  unfold commit at answer
  cases tier : sink.tier with
  | inline => simp [tier, Tier.isStored] at stored
  | medium =>
    simp only [tier] at answer
    split at answer <;> simp at answer
    exact answer.symm
  | large =>
    simp only [tier] at answer
    cases opened : v.openFile sink with
    | error e => simp [opened] at answer
    | ok result =>
      have same := (openFile_sink opened).2.1
      simp only [opened] at answer
      cases published : (result.2.large.publish result.1.locator
          ⟨result.1.mediaType, result.1.content.length, result.1.createdAt⟩ result.1.content).1 with
      | error e => simp [published, Except.map] at answer
      | ok _ =>
        simp only [published, Except.map, Except.ok.injEq] at answer
        rw [← answer, same]

theorem delete_rests (v : Vault) (tier : Tier) (locator : Locator) :
    v.Rests (v.delete tier locator).2 := by
  unfold delete
  cases tier with
  | inline => exact .refl v
  | medium => exact ⟨⟨rfl, rfl, rfl⟩, rfl, rfl, rfl⟩
  | large => exact ⟨⟨rfl, rfl, rfl⟩, rfl, rfl, rfl⟩

end Vault

namespace Request

def Leaves (v : Vault) (d? : Option Effect) (v' : Vault) : Prop :=
  match d? with
  | some d => d.Happens v v'
  | none => v.Rests v'

theorem leaves_seen {v : Vault} {d : Effect} (quiet : d.IsQuiet) (seen : d.Seen v) :
    Leaves v (some d) v := (Vault.Rests.refl v).happens quiet seen

/-- An effect that changes rows and nothing else. -/
theorem leaves_ledger {v : Vault} {d : Effect} {ledger : Ledger} (follows : v.ledger.Follows d ledger)
    (seen : d.Seen v) (supplied : d.supplied = 0) (lock : d.lock = id) :
    Leaves v (some d) { v with ledger } :=
  ⟨⟨rfl, rfl, rfl⟩, seen, follows, by rw [supplied]; rfl, by rw [lock]; rfl⟩

/-- A request whose answer says whether it had the effect. -/
theorem leaves_flag {v : Vault} {d : Effect} {result : Bool × Ledger} (d? : Bool → Option Effect)
    (follows : v.ledger.FollowsIf d result) (done : d? true = some d) (undone : d? false = none)
    (seen : d.Seen v) (supplied : d.supplied = 0) (lock : d.lock = id) :
    Leaves v (d? result.1) { v with ledger := result.2 } := by
  obtain ⟨flag, after⟩ := result
  cases flag with
  | true =>
    rw [done]
    exact leaves_ledger follows seen supplied lock
  | false =>
    have same : after = v.ledger := follows
    rw [undone, same]
    exact .refl v

theorem entry_leaves (v : Vault) (locator : Locator) :
    Leaves v ((entry locator).effect? (v.ledger.get locator)) v := by
  simp only [Ledger.get, effect?]
  cases present : v.ledger.find? locator with
  | none =>
    have seen : (Effect.missed locator).Seen v := present
    exact leaves_seen ⟨rfl, rfl, rfl⟩ seen
  | some row =>
    dsimp only
    cases read : row.toEntry locator with
    | error e => exact Vault.Rests.refl v
    | ok e =>
      obtain ⟨rfl, rfl⟩ := LedgerRow.toEntry_eq_ok.1 read
      have seen : (Effect.found e).Seen v := present
      exact leaves_seen ⟨rfl, rfl, rfl⟩ seen

theorem claim_leaves (v : Vault) (locator : Locator) (holder : RecordField) (time : Timestamp) :
    Leaves v ((claim locator holder time).effect? (v.ledger.claim locator holder time).1)
      { v with ledger := (v.ledger.claim locator holder time).2 } := by
  have follows := v.ledger.claim_follows locator holder time
  split at follows
  · next after answer => rw [answer]; exact leaves_ledger follows trivial rfl rfl
  · next after answer => rw [answer]; exact leaves_ledger follows trivial rfl rfl
  · next outcome after unclaimed unrenewed answer =>
    rw [answer]
    subst follows
    cases outcome with
    | error e => exact .refl v
    | ok outcome =>
      cases outcome with
      | claimed => exact (unclaimed rfl).elim
      | renewed => exact (unrenewed rfl).elim
      | missing => exact .refl v
      | conflict entry => exact .refl v

theorem answer_leaves (v : Vault) (r : Request) :
    Leaves v (r.effect? (v.answer r).1) (v.answer r).2 := by
  cases r with
  | now => exact leaves_seen ⟨rfl, rfl, rfl⟩ rfl
  | log event => exact ⟨⟨rfl, rfl, rfl⟩, rfl, rfl, rfl⟩
  | beginSweep =>
    by_cases held : v.isSweeping = true
    · simp only [Vault.answer, effect?, held, Bool.not_true, Bool.false_eq_true, if_false]
      exact ⟨⟨rfl, rfl, rfl⟩, rfl, rfl, held.symm⟩
    · simp only [Vault.answer, effect?, held, Bool.not_false, if_true]
      exact ⟨⟨rfl, rfl, rfl⟩, Bool.eq_false_iff.2 held, Ledger.follows_self rfl, rfl, rfl⟩
  | endSweep => exact ⟨⟨rfl, rfl, rfl⟩, trivial, Ledger.follows_self rfl, rfl, rfl⟩
  | incubate locator tier time =>
    simp only [Vault.answer]
    cases entered : v.ledger.incubate locator tier time with
    | error e => exact .refl v
    | ok ledger => exact leaves_ledger (Ledger.incubate_follows entered) trivial rfl rfl
  | entry locator => exact entry_leaves v locator
  | claim locator holder time => exact claim_leaves v locator holder time
  | unclaim locator holder =>
    exact leaves_flag (fun done => effect? (.unclaim locator holder) (.ok done))
      (v.ledger.unclaim_follows locator holder) rfl rfl trivial rfl rfl
  | release locator holder =>
    exact leaves_flag (fun done => effect? (.release locator holder) (.ok done))
      (v.ledger.release_follows locator holder) rfl rfl trivial rfl rfl
  | condemn e time =>
    exact leaves_flag (fun done => effect? (.condemn e time) (.ok done))
      (v.ledger.condemn_follows e time) rfl rfl trivial rfl rfl
  | remove locator => exact leaves_ledger (v.ledger.remove_follows locator) trivial rfl rfl
  | listExpired cutoff cursor limit => exact .refl v
  | openWrite tier mediaType =>
    simp only [Vault.answer, effect?, Vault.openWrite]
    cases tier with
    | inline => exact .refl v
    | medium => exact ⟨⟨rfl, rfl, rfl⟩, rfl, Ledger.follows_self rfl, rfl, rfl⟩
    | large => exact ⟨⟨rfl, rfl, rfl⟩, rfl, Ledger.follows_self rfl, rfl, rfl⟩
  | append sink chunk => exact v.append_rests sink chunk
  | commit sink =>
    have rests := v.commit_rests sink
    simp only [Vault.answer, effect?]
    split
    · exact rests.happens ⟨rfl, rfl, rfl⟩ trivial
    · exact rests
  | openRead tier locator => exact .refl v
  | delete tier locator =>
    have rests := v.delete_rests tier locator
    simp only [Vault.answer, effect?]
    split
    · exact rests.happens ⟨rfl, rfl, rfl⟩ trivial
    · exact rests
  | fieldType field => exact .refl v
  | readField record version field => exact .refl v
  | fieldHistory record field =>
    simp only [Vault.answer, effect?]
    cases answer : v.repository.fieldHistory record field with
    | error e => exact .refl v
    | ok values => exact leaves_seen ⟨rfl, rfl, rfl⟩ answer

def row? : Request → Option Locator
  | incubate locator _ _ | claim locator _ _ | unclaim locator _ | release locator _
  | remove locator => some locator
  | condemn e _ => some e.locator
  | _ => none

theorem target_of_effect? {r : Request} {reply : r.Reply} {d : Effect} {locator : Locator}
    (effect : r.effect? reply = some d) (aims : d.target? = some locator) : r.row? = some locator := by
  unfold effect? at effect
  repeat' split at effect
  all_goals cases effect
  all_goals exact aims

/-- A request leaves every row but its own. -/
theorem row_other {v : Vault} {r : Request} {locator : Locator} (aside : r.row? ≠ some locator) :
    (v.answer r).2.row locator = v.row locator := by
  have leaves := r.answer_leaves v
  unfold Leaves at leaves
  split at leaves
  · next d effect =>
    exact (leaves.ledger locator).unmoved fun aims => aside (target_of_effect? effect aims)
  · rw [Vault.row, Vault.row, leaves.ledger]

theorem effect?_of_failure {r : Request} {e : BlobError} {reply : r.Reply}
    (failure : r.failure? e = some reply) : r.effect? reply = none := by
  cases r <;> simp only [failure?, Option.some.injEq, reduceCtorEq] at failure <;> subst failure <;>
    rfl

/-- What an exchange does, and all it does outside the stores. -/
theorem Outcome.leaves {v v' : Vault} {r : Request} {reply : r.Reply}
    (outcome : r.Outcome v reply v') : Leaves v (r.effect? reply) v' := by
  cases outcome with
  | served => exact answer_leaves v r
  | failed failure => rw [effect?_of_failure failure]; exact .refl v

theorem Outcome.keeps {v v' : Vault} {r : Request} {reply : r.Reply}
    (outcome : r.Outcome v reply v') : v.Keeps v' := by
  have leaves := outcome.leaves
  unfold Leaves at leaves
  split at leaves
  · exact leaves.toKeeps
  · exact leaves.toKeeps

theorem answer_credible (v : Vault) (r : Request) : r.Credible (v.answer r).1 := by
  cases r <;> try exact trivial
  case entry locator =>
    intro e answer
    simp only [Vault.answer, Ledger.get] at answer
    split at answer
    · simp at answer
    · next row present =>
      cases read : row.toEntry locator with
      | error e => simp [read, Except.map] at answer
      | ok e' =>
        simp only [read, Except.map, Except.ok.injEq, Option.some.injEq] at answer
        rw [← answer]
        exact (LedgerRow.toEntry_eq_ok.1 read).1
  case openWrite tier mediaType =>
    intro sink answer
    cases tier <;> simp only [Vault.answer, Vault.openWrite, Except.ok.injEq] at answer <;>
      subst answer <;> exact ⟨rfl, rfl⟩
  case append sink chunk =>
    intro sink' answer
    exact Vault.append_sink answer
  case commit sink =>
    intro locator answer stored
    exact Vault.commit_locator answer stored

theorem failure_credible {r : Request} {e : BlobError} {reply : r.Reply}
    (failure : r.failure? e = some reply) : r.Credible reply := by
  cases r <;> simp only [failure?, Option.some.injEq, reduceCtorEq] at failure <;>
    subst failure <;> first | exact trivial | (intro _ impossible; cases impossible)

theorem Outcome.credible {v v' : Vault} {r : Request} {reply : r.Reply}
    (outcome : r.Outcome v reply v') : r.Credible reply := by
  cases outcome with
  | served => exact answer_credible v r
  | failed failure => exact failure_credible failure

end Request

end BlobLifecycle
