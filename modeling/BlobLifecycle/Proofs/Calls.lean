import BlobLifecycle.Proofs.Confirmation
import BlobLifecycle.Proofs.Fate
import BlobLifecycle.Proofs.WholeWriting

/-! Whole calls, one after another: writes that may stay open meanwhile, reservations,
confirmations, deletions and sweeps, in any order and with any arguments. -/
namespace BlobLifecycle

structure CallState where
  vault : Vault
  /-- The open writes. -/
  sessions : Nat → Option WriteSession
  /-- The handles that writers were given. -/
  returned : List Handle
  /-- All effects, newest first. -/
  effects : List Effect

inductive Call where
  /-- Opens a write under a free number. -/
  | openWrite (n : Nat) (thresholds : Thresholds) (spec : BlobSpec)
  | write (n : Nat) (chunk : Bytes)
  | finish (n : Nat)
  | abandon (n : Nat)
  | reserve (references : List Reference)
  | confirm (references : List Reference)
  | plan (record : RecordId) (changes : List FieldChange)
  | discard (handles : List Handle)
  | sweep (settings : SweepSettings) (pages : Nat)
  /-- The clock is set to any time. -/
  | setClock (time : Timestamp)
  /-- The records are changed by others. -/
  | setRecords (repository : Repository)

namespace CallState

def result (d : CallState) (p : Program α) : α := (d.vault.run p).1

def did (d : CallState) (p : Program α) : CallState :=
  { d with vault := (d.vault.run p).2, effects := p.effects d.vault [] ++ d.effects }

def keep (d : CallState) (n : Nat) (session : Option WriteSession) : CallState :=
  { d with sessions := fun m => if m = n then session else d.sessions m }

def openWrite (d : CallState) (n : Nat) (thresholds : Thresholds) (spec : BlobSpec) : CallState :=
  let p := (BlobLifecycle.openWrite thresholds spec).run
  match d.result p with
  | .ok s => (d.did p).keep n (some s)
  | .error _ => d.did p

/-- A chunk that is refused leaves the session as it was. -/
def write (d : CallState) (n : Nat) (s : WriteSession) (chunk : Bytes) : CallState :=
  let p := (s.write chunk).run
  match d.result p with
  | .ok s' => (d.did p).keep n (some s')
  | .error _ => d.did p

def finish (d : CallState) (n : Nat) (s : WriteSession) : CallState :=
  let p := s.finish.run
  let d' := (d.did p).keep n none
  match d.result p with
  | .ok h => { d' with returned := h :: d.returned }
  | .error _ => d'

def perform (d : CallState) : Call → CallState
  | .openWrite n thresholds spec =>
    match d.sessions n with
    | none => d.openWrite n thresholds spec
    | some _ => d
  | .write n chunk =>
    match d.sessions n with
    | some s => d.write n s chunk
    | none => d
  | .finish n =>
    match d.sessions n with
    | some s => d.finish n s
    | none => d
  | .abandon n => d.keep n none
  | .reserve references => d.did (BlobLifecycle.reserve references).run
  | .confirm references => d.did (BlobLifecycle.confirm references).run
  | .plan record changes => d.did (planMutation record changes)
  | .discard handles => d.did (deleteNow handles)
  | .sweep settings pages => d.did (runSweep settings pages).run
  | .setClock time => { d with vault := { d.vault with clock := time } }
  | .setRecords repository => { d with vault := { d.vault with repository } }

def after (d : CallState) (calls : List Call) : CallState := calls.foldl perform d

/-- No content and no entry; locators are never issued twice. -/
structure Initial (d : CallState) : Prop where
  ledger : d.vault.ledger = ∅
  medium : d.vault.medium = ∅
  large : d.vault.large.objects = ∅
  distinct : Function.Injective d.vault.supply
  sessions : ∀ n, d.sessions n = none
  returned : d.returned = []
  effects : d.effects = []

def Writing (d : CallState) (locator : Locator) : Prop :=
  ∃ n s, d.sessions n = some s ∧ s.tier.isStored = true ∧ s.locator = locator

end CallState

theorem Fate.mono {locator : Locator} {v v' : Vault} {own own' : List Effect}
    (fate : Fate locator v own v') (grown : own ⊆ own') : Fate locator v own' v' :=
  fate.trans (.refl v' own') grown

namespace CallState

variable {d d' : CallState} {call : Call}

/-- What a call that begins no write does to the entry and the content of a locator. -/
inductive Change (locator : Locator) (call : Call) (d : CallState) (effects : List Effect)
    (v : Vault) : Prop
  | kept (same : v.row locator = d.vault.row locator)
      (objects : ∀ tier, v.object? tier locator = d.vault.object? tier locator)
  /-- A write went on. -/
  | written {n : Nat} {s : WriteSession} (running : d.sessions n = some s)
      (stored : s.tier.isStored = true) (here : s.locator = locator)
      (same : v.row locator = d.vault.row locator)
      (objects : ∀ tier, tier ≠ s.sink.tier → v.object? tier locator = d.vault.object? tier locator)
  | claimed {row : LedgerRow} {holder : RecordField} {time : Timestamp}
      (before : d.vault.row locator = some row) (grants : row.Grants holder)
      (after : v.row locator = some (row.claimFor holder time))
      (objects : ∀ tier, v.object? tier locator = d.vault.object? tier locator)
  | released {row : LedgerRow} {holder : RecordField} (before : d.vault.row locator = some row)
      (held : row.HeldFor holder) (gone : v.row locator = none)
      (told : .released locator holder ∈ effects)
      (objects : ∀ tier, v.object? tier locator = d.vault.object? tier locator)
  | discarded {handles : List Handle} (called : call = .discard handles)
      (same : v.row locator = d.vault.row locator)
      (objects : ∀ tier, v.object? tier locator = d.vault.object? tier locator ∨
        (v.object? tier locator = none ∧ Places handles tier locator))
  | swept {settings : SweepSettings} {pages : Nat} (called : call = .sweep settings pages)
      (fate : Fate locator d.vault effects v)

/-- A stored write was opened under a free number. -/
structure Begins (d : CallState) (n : Nat) (s : WriteSession) (d' : CallState) : Prop where
  opens : ∃ own, d.vault.Opens s own d'.vault ∧ d'.effects = own ++ d.effects
  sound : d.vault.large.Sound → d'.vault.large.Sound
  idle : d.sessions n = none
  sessions : ∀ m, d'.sessions m = if m = n then some s else d.sessions m
  returned : d'.returned = d.returned

structure Proceeds (d : CallState) (call : Call) (d' : CallState) : Prop where
  stands : ∃ own, d.vault.Stands own d'.vault ∧ d'.effects = own ++ d.effects
  sound : d.vault.large.Sound → d'.vault.large.Sound
  sessions : ∀ n s', d'.sessions n = some s' →
    (s'.tier.isStored = false ∧ s'.sink.tier = s'.tier) ∨
      ∃ s, d.sessions n = some s ∧ s'.tier = s.tier ∧ s'.locator = s.locator ∧
        s'.sink.tier = s.sink.tier
  returned : d'.returned = d.returned ∨ ∃ h, d'.returned = h :: d.returned ∧
    (h.tier.isStored = true → ∃ n s, d.sessions n = some s ∧ d'.sessions n = none ∧
      h.tier = s.tier ∧ h.locator = s.locator ∧
      ∃ content, d'.vault.read h.tier h.locator = .ok content)
  changes : ∀ locator, Change locator call d d'.effects d'.vault

structure Sound (d : CallState) : Prop where
  distinct : Function.Injective d.vault.supply
  named : d.vault.large.Sound
  supplied : ∀ tier locator, Entered d.effects tier locator →
    ∃ n < d.vault.issued, d.vault.supply n = locator
  once : ∀ tier tier' locator, Entered d.effects tier locator → Entered d.effects tier' locator →
    tier = tier'
  rows : ∀ locator row, d.vault.row locator = some row →
    ∃ tier, Entered d.effects tier locator ∧ row.IsOf tier
  released : ∀ locator holder, .released locator holder ∈ d.effects →
    d.vault.row locator = none ∧ ∃ tier, Entered d.effects tier locator
  contents : ∀ tier locator, d.vault.Holds tier locator → Entered d.effects tier locator
  sessions : ∀ n s, d.sessions n = some s → s.sink.tier = s.tier ∧
    (s.tier.isStored = true → Entered d.effects s.tier s.locator)
  apart : ∀ n m s s', d.sessions n = some s → d.sessions m = some s' → s.tier.isStored = true →
    s'.tier.isStored = true → s.locator = s'.locator → n = m
  given : ∀ h ∈ d.returned, h.tier.isStored = true →
    Entered d.effects h.tier h.locator ∧ ¬d.Writing h.locator
  unique : ∀ h ∈ d.returned, ∀ h' ∈ d.returned, h.tier.isStored = true → h'.tier.isStored = true →
    h.locator = h'.locator → h = h'

theorem Initial.sound (initial : d.Initial) : Sound d where
  distinct := initial.distinct
  named := by
    intro locator object present
    rw [initial.large] at present
    cases present
  supplied := by simp [Entered, initial.effects]
  once := by simp [Entered, initial.effects]
  rows := by
    intro locator row present
    rw [Vault.row, initial.ledger] at present
    cases present
  released := by simp [initial.effects]
  contents := by
    intro tier locator holds
    refine (holds ?_).elim
    cases tier with
    | inline => rfl
    | medium =>
      simp only [Vault.object?, initial.medium]
      rfl
    | large =>
      refine Option.eq_none_iff_forall_ne_some.2 fun o present => ?_
      obtain ⟨d, -, present⟩ := Vault.object?_large.1 present
      have unblocked := LargeStore.unblocked_of_directory present
      simp only [LargeStore.object?, unblocked, initial.large] at present
      cases present
  sessions := by simp [initial.sessions]
  apart := by simp [initial.sessions]
  given := by simp [initial.returned]
  unique := by simp [initial.returned]

theorem Sound.wellFormed (sound : Sound d) : d.vault.ledger.WellFormed := by
  intro locator row present
  obtain ⟨tier, -, kind⟩ := sound.rows locator row present
  exact kind.wellFormed

/-- The next locator to be issued was not entered. -/
theorem Sound.unentered (sound : Sound d) (tier : Tier) :
    ¬Entered d.effects tier (d.vault.supply d.vault.issued) := by
  intro entered
  obtain ⟨n, before, same⟩ := sound.supplied tier _ entered
  exact absurd (sound.distinct same) (Nat.ne_of_lt before)

theorem Sound.next_free (sound : Sound d) : d.vault.row (d.vault.supply d.vault.issued) = none := by
  refine Option.eq_none_iff_forall_ne_some.2 fun row present => ?_
  obtain ⟨tier, entered, -⟩ := sound.rows _ row present
  exact sound.unentered tier entered

theorem entered_append {own : List Effect} (unentered : ∀ tier locator, ¬Entered own tier locator)
    {effects : List Effect} {tier : Tier} {locator : Locator} :
    Entered (own ++ effects) tier locator ↔ Entered effects tier locator := by
  constructor
  · rintro ⟨time, member⟩
    rcases List.mem_append.1 member with new | old
    · exact (unentered tier locator ⟨time, new⟩).elim
    · exact ⟨time, old⟩
  · rintro ⟨time, member⟩
    exact ⟨time, List.mem_append_right _ member⟩

theorem Begins.entered {n : Nat} {s : WriteSession} (begins : d.Begins n s d') {tier : Tier}
    {locator : Locator} : Entered d'.effects tier locator ↔
      (tier = s.tier ∧ locator = s.locator) ∨ Entered d.effects tier locator := by
  obtain ⟨own, opens, effects⟩ := begins.opens
  rw [effects, opens.effects]
  simp [Entered, exists_or, and_comm]

theorem Begins.running {n m : Nat} {s s' : WriteSession} (begins : d.Begins n s d')
    (running : d'.sessions m = some s') : (m = n ∧ s' = s) ∨ d.sessions m = some s' := by
  rw [begins.sessions] at running
  split at running
  · next here => exact .inl ⟨here, (Option.some.inj running).symm⟩
  · exact .inr running

/-- The locator of a new write was neither entered nor written to. -/
theorem Begins.fresh {n : Nat} {s : WriteSession} (begins : d.Begins n s d') (sound : Sound d) :
    (∀ tier, ¬Entered d.effects tier s.locator) ∧ ¬d.Writing s.locator := by
  obtain ⟨own, opens, -⟩ := begins.opens
  have unentered (tier : Tier) : ¬Entered d.effects tier s.locator := by
    rw [opens.locator]
    exact sound.unentered tier
  refine ⟨unentered, ?_⟩
  rintro ⟨m, s', running, stored, here⟩
  exact unentered s'.tier (here ▸ (sound.sessions m s' running).2 stored)

theorem Begins.keeps {n : Nat} {s : WriteSession} (begins : d.Begins n s d') (sound : Sound d) :
    Sound d' := by
  obtain ⟨own, opens, effects⟩ := begins.opens
  obtain ⟨unentered, unwritten⟩ := begins.fresh sound
  refine {
    distinct := ?distinct, named := begins.sound sound.named, supplied := ?supplied, once := ?once,
    rows := ?rows, released := ?released, contents := ?contents, sessions := ?sessions,
    apart := ?apart, given := ?given, unique := ?unique }
  case distinct =>
    rw [opens.supply]
    exact sound.distinct
  case supplied =>
    intro tier locator entered
    rw [opens.supply, opens.issued]
    rcases begins.entered.1 entered with ⟨-, rfl⟩ | before
    · exact ⟨d.vault.issued, Nat.lt_succ_self _, opens.locator.symm⟩
    · exact (sound.supplied tier locator before).imp fun m h => ⟨Nat.lt_succ_of_lt h.1, h.2⟩
  case once =>
    intro tier tier' locator first second
    rcases begins.entered.1 first with ⟨rfl, rfl⟩ | first
    · rcases begins.entered.1 second with ⟨rfl, -⟩ | second
      · rfl
      · exact (unentered tier' second).elim
    · rcases begins.entered.1 second with ⟨rfl, rfl⟩ | second
      · exact (unentered tier first).elim
      · exact sound.once tier tier' locator first second
  case rows =>
    intro locator row present
    rw [opens.rows] at present
    split at present
    · next here =>
      cases present
      exact ⟨s.tier, begins.entered.2 (.inl ⟨rfl, here⟩), rfl, opens.stored, .inl ⟨rfl, rfl, rfl⟩⟩
    · exact (sound.rows locator row present).imp fun tier h => ⟨begins.entered.2 (.inr h.1), h.2⟩
  case released =>
    intro locator holder member
    rw [effects, opens.effects] at member
    have before : .released locator holder ∈ d.effects := by simpa using member
    obtain ⟨gone, tier, entered⟩ := sound.released locator holder before
    have apart : locator ≠ s.locator := fun same => unentered tier (same ▸ entered)
    rw [opens.rows, if_neg apart]
    exact ⟨gone, tier, begins.entered.2 (.inr entered)⟩
  case contents =>
    intro tier locator holds
    rw [Vault.Holds, opens.objects] at holds
    exact begins.entered.2 (.inr (sound.contents tier locator holds))
  case sessions =>
    intro m s' running
    rcases begins.running running with ⟨-, rfl⟩ | before
    · exact ⟨opens.sorted, fun _ => begins.entered.2 (.inl ⟨rfl, rfl⟩)⟩
    · exact (sound.sessions m s' before).imp id fun h stored => begins.entered.2 (.inr (h stored))
  case apart =>
    intro m m' s' s'' running running' stored stored' same
    rcases begins.running running with ⟨rfl, rfl⟩ | before
    · rcases begins.running running' with ⟨rfl, -⟩ | before'
      · rfl
      · exact (unwritten ⟨m', s'', before', stored', same.symm⟩).elim
    · rcases begins.running running' with ⟨rfl, rfl⟩ | before'
      · exact (unwritten ⟨m, s', before, stored, same⟩).elim
      · exact sound.apart m m' s' s'' before before' stored stored' same
  case given =>
    intro h member stored
    rw [begins.returned] at member
    obtain ⟨entered, idle⟩ := sound.given h member stored
    refine ⟨begins.entered.2 (.inr entered), ?_⟩
    rintro ⟨m, s', running, stored', here⟩
    rcases begins.running running with ⟨-, rfl⟩ | before
    · exact unentered h.tier (here ▸ entered)
    · exact idle ⟨m, s', before, stored', here⟩
  case unique =>
    rw [begins.returned]
    exact sound.unique

/-- A change brings new content only where a write goes on. -/
theorem Change.object {locator : Locator} {effects : List Effect} {v : Vault}
    (change : Change locator call d effects v) (tier : Tier) :
    v.object? tier locator = d.vault.object? tier locator ∨ v.object? tier locator = none ∨
      ∃ n s, d.sessions n = some s ∧ s.tier.isStored = true ∧ s.locator = locator ∧
        s.sink.tier = tier := by
  cases change with
  | kept same objects => exact .inl (objects tier)
  | @written n s running stored here same objects =>
    by_cases own : tier = s.sink.tier
    · exact .inr (.inr ⟨n, s, running, stored, here, own.symm⟩)
    · exact .inl (objects tier own)
  | claimed before grants after objects => exact .inl (objects tier)
  | released before held gone told objects => exact .inl (objects tier)
  | discarded called same objects => exact (objects tier).imp id fun gone => .inl gone.1
  | swept called fate => exact (fate.object tier).imp id .inl

theorem Proceeds.entered (proceeds : d.Proceeds call d') {tier : Tier} {locator : Locator} :
    Entered d'.effects tier locator ↔ Entered d.effects tier locator := by
  obtain ⟨own, stands, effects⟩ := proceeds.stands
  rw [effects]
  exact entered_append stands.unentered

theorem Proceeds.writing (proceeds : d.Proceeds call d') {locator : Locator}
    (writing : d'.Writing locator) : d.Writing locator := by
  obtain ⟨n, s', running, stored, here⟩ := writing
  rcases proceeds.sessions n s' running with ⟨inlined, -⟩ | ⟨s, before, tier, same, -⟩
  · exact nomatch inlined.symm.trans stored
  · exact ⟨n, s, before, tier ▸ stored, same ▸ here⟩

/-- A handle that is newly given is the one of a write that has ended. -/
structure Proceeds.Gives (d : CallState) (h : Handle) (d' : CallState) : Prop where
  entered : Entered d.effects h.tier h.locator
  writing : d.Writing h.locator
  idle : ¬d'.Writing h.locator

theorem Proceeds.given (proceeds : d.Proceeds call d') (sound : Sound d) {h : Handle}
    (member : h ∈ d'.returned) (stored : h.tier.isStored = true) :
    h ∈ d.returned ∨ (d'.returned = h :: d.returned ∧ Proceeds.Gives d h d') := by
  rcases proceeds.returned with same | ⟨h', grown, given⟩
  · exact .inl (same ▸ member)
  · rw [grown, List.mem_cons] at member
    rcases member with rfl | old
    · obtain ⟨n, s, running, closed, tier, here, -⟩ := given stored
      have stored' : s.tier.isStored = true := tier ▸ stored
      refine .inr ⟨grown, ?_, ⟨n, s, running, stored', here.symm⟩, ?_⟩
      · rw [tier, here]
        exact (sound.sessions n s running).2 stored'
      · rintro ⟨m, s₁, running₁, stored₁, here₁⟩
        rcases proceeds.sessions m s₁ running₁ with ⟨inlined, -⟩ | ⟨s₂, before, tier₂, same₂, -⟩
        · exact nomatch inlined.symm.trans stored₁
        · obtain rfl := sound.apart m n s₂ s before running (tier₂ ▸ stored₁) stored'
            (same₂.symm.trans (here₁.trans here))
          exact nomatch closed.symm.trans running₁
    · exact .inl old

theorem Proceeds.keeps (proceeds : d.Proceeds call d') (sound : Sound d) : Sound d' := by
  obtain ⟨own, stands, effects⟩ := proceeds.stands
  refine {
    distinct := ?distinct, named := proceeds.sound sound.named, supplied := ?supplied,
    once := ?once, rows := ?rows, released := ?released, contents := ?contents,
    sessions := ?sessions, apart := ?apart, given := ?given, unique := ?unique }
  case distinct =>
    rw [stands.supply]
    exact sound.distinct
  case supplied =>
    intro tier locator entered
    rw [stands.supply, stands.issued]
    exact sound.supplied tier locator (proceeds.entered.1 entered)
  case once =>
    intro tier tier' locator first second
    exact sound.once tier tier' locator (proceeds.entered.1 first) (proceeds.entered.1 second)
  case rows =>
    intro locator row' present
    obtain ⟨row, before, kind⟩ := stands.kinds locator row' present
    exact (sound.rows locator row before).imp fun tier h =>
      ⟨proceeds.entered.2 h.1, kind tier h.2⟩
  case released =>
    intro locator holder member
    rw [effects] at member
    rcases List.mem_append.1 member with new | old
    · obtain ⟨⟨row, present⟩, gone⟩ := stands.released locator holder new
      exact ⟨gone, (sound.rows locator row present).imp fun tier h => proceeds.entered.2 h.1⟩
    · obtain ⟨gone, tier, entered⟩ := sound.released locator holder old
      exact ⟨stands.gone gone, tier, proceeds.entered.2 entered⟩
  case contents =>
    intro tier locator holds
    rw [proceeds.entered]
    rcases (proceeds.changes locator).object tier with same | gone | ⟨n, s, running, stored, rfl, rfl⟩
    · exact sound.contents tier locator (by rw [Vault.Holds, ← same]; exact holds)
    · exact (holds gone).elim
    · obtain ⟨sorted, entered⟩ := sound.sessions n s running
      rw [sorted]
      exact entered stored
  case sessions =>
    intro n s' running
    rcases proceeds.sessions n s' running with ⟨inlined, sorted⟩ | ⟨s, before, tier, same, sort⟩
    · exact ⟨sorted, fun stored => nomatch inlined.symm.trans stored⟩
    · obtain ⟨sorted, entered⟩ := sound.sessions n s before
      rw [tier, same, sort, proceeds.entered]
      exact ⟨sorted, entered⟩
  case apart =>
    intro n m s₁ s₂ running running' stored stored' same
    rcases proceeds.sessions n s₁ running with ⟨inlined, -⟩ | ⟨s, before, tier, here, -⟩
    · exact nomatch inlined.symm.trans stored
    · rcases proceeds.sessions m s₂ running' with ⟨inlined, -⟩ | ⟨s', before', tier', here', -⟩
      · exact nomatch inlined.symm.trans stored'
      · exact sound.apart n m s s' before before' (tier ▸ stored) (tier' ▸ stored')
          (here.symm.trans (same.trans here'))
  case given =>
    intro h member stored
    rw [proceeds.entered]
    rcases proceeds.given sound member stored with old | ⟨-, gives⟩
    · exact (sound.given h old stored).imp id fun idle writing => idle (proceeds.writing writing)
    · exact ⟨gives.entered, gives.idle⟩
  case unique =>
    intro h member h' member' stored stored' same
    -- No former handle has the locator of a write that was still open.
    rcases proceeds.given sound member stored with old | ⟨grown, gives⟩
    · rcases proceeds.given sound member' stored' with old' | ⟨-, gives'⟩
      · exact sound.unique h old h' old' stored stored' same
      · exact ((sound.given h old stored).2 (same ▸ gives'.writing)).elim
    · rcases proceeds.given sound member' stored' with old' | ⟨grown', -⟩
      · exact ((sound.given h' old' stored').2 (same ▸ gives.writing)).elim
      · exact (List.cons.inj (grown.symm.trans grown')).1

/-- A program that begins no write, run whole. -/
theorem proceeds_did {p : Program α} {promise : List Effect → α → Prop}
    (obeys : p.Obeys standingRule promise [])
    (changes : ∀ locator, Change locator call d (d.did p).effects (d.did p).vault) :
    d.Proceeds call (d.did p) where
  stands := ⟨_, Program.ensures_iff.1 (obeys.stands d.vault), rfl⟩
  sound := fun sound =>
    have ensured : p.Ensures _ d.vault [] := p.ensures_sound sound
    Program.ensures_iff.1 ensured
  sessions := fun _ s running => .inr ⟨s, running, rfl, rfl, rfl⟩
  returned := .inl rfl
  changes := changes

theorem effects_did (p : Program α) (d : CallState) : p.effects d.vault [] ⊆ (d.did p).effects :=
  List.subset_append_left _ _

theorem Sound.reserves (sound : Sound d) (references : List Reference) :
    (d.result (BlobLifecycle.reserve references).run = .ok () ∧ d.vault.Reserves d.vault.clock
        references (d.did (BlobLifecycle.reserve references).run).vault) ∨
      ((∃ refusal, d.result (BlobLifecycle.reserve references).run =
          .error (.invalidRecord refusal)) ∧
        d.vault.Restores d.vault.clock (d.did (BlobLifecycle.reserve references).run).vault) := by
  have ensured : Program.Ensures _ _ d.vault [] := reserve_ensures sound.wellFormed references
  rcases Program.ensures_iff.1 ensured with ⟨ok, -, reserves⟩ |
    ⟨_, _, _, refusal, -, failed, -, -, reverts⟩
  · exact .inl ⟨ok, reserves⟩
  · exact .inr ⟨⟨refusal, failed⟩, reverts.restores⟩

theorem Sound.reserves_of_ok (sound : Sound d) {references : List Reference}
    (done : d.result (BlobLifecycle.reserve references).run = .ok ()) :
    d.vault.Reserves d.vault.clock references (d.perform (.reserve references)).vault := by
  rcases sound.reserves references with ⟨-, reserves⟩ | ⟨⟨refusal, failed⟩, -⟩
  · exact reserves
  · exact nomatch failed.symm.trans done

/-- A reservation claims rows that were free or held by the same, or renews such claims. -/
theorem proceeds_reserve (sound : Sound d) (references : List Reference) :
    d.Proceeds call (d.did (BlobLifecycle.reserve references).run) := by
  have obeys : (BlobLifecycle.reserve references).run.Obeys standingRule anything [] :=
    (reserve_obeys references).mono (fun own effect allowed => by
      cases effect <;> first | rfl | exact allowed.elim) fun _ _ _ => trivial
  refine proceeds_did obeys fun locator => ?_
  have only := Program.ensures_iff.1 ((reserve_asks references).ledgerOnly d.vault [])
  have kept (same : (d.did (BlobLifecycle.reserve references).run).vault.row locator =
      d.vault.row locator) : Change locator call d
        (d.did (BlobLifecycle.reserve references).run).effects
        (d.did (BlobLifecycle.reserve references).run).vault :=
    .kept same fun tier => only.object? tier locator
  rcases sound.reserves references with ⟨-, reserves⟩ | ⟨-, restores⟩
  · by_cases named : ∃ r ∈ storedReferences references, r.handle.locator = locator
    · obtain ⟨r, member, rfl⟩ := named
      obtain ⟨row, before, grants, after⟩ := reserves.granted r member
      exact .claimed before grants after fun tier => only.object? tier _
    · exact kept (reserves.untouched locator (by simpa using named))
  · rcases restores locator with same | ⟨row, holder, before, held, after⟩
    · exact kept same
    · exact .claimed before (.inr held) after fun tier => only.object? tier locator

theorem proceeds_confirm (references : List Reference) :
    d.Proceeds call (d.did (BlobLifecycle.confirm references).run) := by
  have obeys : (BlobLifecycle.confirm references).run.Obeys standingRule anything [] :=
    (confirm_obeys references).mono (fun own effect allowed => by
      cases effect <;> first | rfl | exact allowed.elim) fun _ _ _ => trivial
  refine proceeds_did obeys fun locator => ?_
  have only := Program.ensures_iff.1 ((confirm_asks references).ledgerOnly d.vault [])
  rcases Program.ensures_iff.1 (confirm_releases references d.vault) locator with
    same | ⟨row, holder, before, held, gone, told⟩
  · exact .kept same fun tier => only.object? tier locator
  · exact .released before held gone (effects_did _ d told) fun tier => only.object? tier locator

theorem proceeds_sweep (sound : Sound d) (settings : SweepSettings) (pages : Nat) :
    d.Proceeds (.sweep settings pages) (d.did (runSweep settings pages).run) := by
  have obeys : (runSweep settings pages).run.Obeys standingRule anything [] :=
    (runSweep_obeys (Int.le_refl _) pages).mono (fun own effect allowed => by
      cases effect <;> first | rfl | exact allowed.2.elim) fun _ _ _ => trivial
  refine proceeds_did obeys fun locator => .swept rfl ?_
  exact (Program.ensures_iff.1 (runSweep_disposes locator settings pages d.vault [] sound.named)).mono
    (effects_did _ d)

theorem proceeds_discard (sound : Sound d) (handles : List Handle) :
    d.Proceeds (.discard handles) (d.did (deleteNow handles)) := by
  have asks := deleteNow_asks handles
  refine proceeds_did asks.standing fun locator => ?_
  refine .discarded rfl (congrFun (Program.ensures_iff.1 (asks.rows d.vault [])) locator) fun tier => ?_
  by_cases listed : Places handles tier locator
  · have deletes := deleteAll_asks (List.Subset.refl (handles.filter (·.tier.isStored)))
    exact (Program.ensures_iff.1 (deletes.deleting sound.named [] tier locator)).imp id (⟨·, listed⟩)
  · exact .inl (Program.ensures_iff.1 (asks.objects d.vault [] listed))

theorem proceeds_plan (record : RecordId) (changes : List FieldChange) :
    d.Proceeds call (d.did (planMutation record changes)) := by
  have asks := planMutation_asks record changes
  refine proceeds_did asks.standing fun locator => .kept ?_ fun tier => ?_
  · exact congrFun (Program.ensures_iff.1 (asks.rows d.vault [])) locator
  · exact Program.ensures_iff.1 (asks.objects d.vault [] id)

theorem Proceeds.refl (d : CallState) : d.Proceeds call d where
  stands := ⟨[], .refl _, rfl⟩
  sound := id
  sessions := fun _ s running => .inr ⟨s, running, rfl, rfl, rfl⟩
  returned := .inl rfl
  changes := fun _ => .kept rfl fun _ => rfl

/-- The session of a number ends or is replaced. -/
theorem Proceeds.keep {d₁ : CallState} (proceeds : d.Proceeds call d₁) (n : Nat)
    (session : Option WriteSession) (follows : ∀ s', session = some s' → (s'.tier.isStored = false ∧ s'.sink.tier = s'.tier) ∨
      ∃ s, d.sessions n = some s ∧ s'.tier = s.tier ∧ s'.locator = s.locator ∧
        s'.sink.tier = s.sink.tier) (same : d₁.returned = d.returned) :
    d.Proceeds call (d₁.keep n session) where
  stands := proceeds.stands
  sound := proceeds.sound
  sessions := by
    intro m s' running
    simp only [CallState.keep] at running
    split at running
    · next here => exact here ▸ follows s' running
    · exact proceeds.sessions m s' running
  returned := .inl same
  changes := proceeds.changes

/-- A program that changes the object of an open session only. -/
theorem proceeds_session {n : Nat} {s : WriteSession} {p : Program α} (sound : Sound d)
    (running : d.sessions n = some s) (asks : p.Asks (Request.Touches s.Place)) :
    d.Proceeds call (d.did p) := by
  have sorted := (sound.sessions n s running).1
  have rows (locator : Locator) : (d.did p).vault.row locator = d.vault.row locator :=
    congrFun (Program.ensures_iff.1 (asks.rows d.vault [])) locator
  have objects (tier : Tier) (locator : Locator) (aside : ¬s.Place tier locator) :
      (d.did p).vault.object? tier locator = d.vault.object? tier locator :=
    Program.ensures_iff.1 (asks.objects d.vault [] aside)
  refine proceeds_did asks.standing fun locator => ?_
  by_cases here : s.tier.isStored = true ∧ s.locator = locator
  · exact .written running here.1 here.2 (rows locator) fun tier apart =>
      objects tier locator fun place => apart place.1
  · refine .kept (rows locator) fun tier => ?_
    by_cases place : s.Place tier locator
    · obtain ⟨rfl, rfl⟩ := place
      have inlined : s.sink.tier = .inline := by
        rw [sorted]
        cases sort : s.tier with
        | inline => rfl
        | medium => exact (here ⟨by rw [sort]; rfl, rfl⟩).elim
        | large => exact (here ⟨by rw [sort]; rfl, rfl⟩).elim
      rw [inlined]
      rfl
    · exact objects tier locator place

theorem proceeds_write {n : Nat} {s : WriteSession} (sound : Sound d) (running : d.sessions n = some s)
    (chunk : Bytes) : d.Proceeds call (d.write n s chunk) := by
  have did : d.Proceeds call _ := proceeds_session sound running (s.write_asks chunk)
  have goesOn := Program.ensures_iff.1 (s.write_ensures chunk d.vault [])
  unfold write
  dsimp only
  split
  · next s' ok => exact did.keep n _ (by rintro _ ⟨⟩; exact .inr ⟨s, running, goesOn s' ok⟩) rfl
  · exact did

theorem proceeds_finish {n : Nat} {s : WriteSession} (sound : Sound d)
    (running : d.sessions n = some s) : d.Proceeds call (d.finish n s) := by
  have did : d.Proceeds call _ :=
    (proceeds_session sound running s.finish_asks).keep n none nofun rfl
  have gives := Program.ensures_iff.1
    (s.finish_ensures sound.named (sound.sessions n s running).1 [])
  unfold finish
  dsimp only
  split
  · next h ok =>
    refine ⟨did.stands, did.sound, did.sessions, .inr ⟨h, rfl, fun stored => ?_⟩, did.changes⟩
    obtain ⟨tier, here, read⟩ := gives h ok stored
    exact ⟨n, s, running, by simp [keep], tier, here, read⟩
  · exact did

theorem openWrite_kinds {n : Nat} (sound : Sound d) (idle : d.sessions n = none)
    (thresholds : Thresholds) (spec : BlobSpec) :
    (∃ s, d.Begins n s (d.openWrite n thresholds spec)) ∨
      d.Proceeds call (d.openWrite n thresholds spec) := by
  have named : d.vault.large.Sound →
      (d.did (BlobLifecycle.openWrite thresholds spec).run).vault.large.Sound := fun sound =>
    have ensured : Program.Ensures _ _ d.vault [] :=
      (BlobLifecycle.openWrite thresholds spec).run.ensures_sound sound
    Program.ensures_iff.1 ensured
  have opened := Program.ensures_iff.1 (openWrite_ensures sound.next_free thresholds spec)
  unfold openWrite
  dsimp only
  split
  · next s ok =>
    rcases opened with ⟨s', ok', opens⟩ | ⟨inlined, vault, own⟩
    · obtain rfl : s = s' := Except.ok.inj (ok.symm.trans ok')
      exact .inl ⟨s, ⟨_, opens, rfl⟩, named, idle, fun _ => rfl, rfl⟩
    · have same : d.did (BlobLifecycle.openWrite thresholds spec).run = d := by
        simp only [did, vault, own, List.nil_append]
      rw [same]
      exact .inr ((Proceeds.refl d).keep n _ (by rintro _ ⟨⟩; exact .inl (inlined s ok)) rfl)
  · next e failed =>
    rcases opened with ⟨s', ok', -⟩ | ⟨-, vault, own⟩
    · exact nomatch failed.symm.trans ok'
    · have same : d.did (BlobLifecycle.openWrite thresholds spec).run = d := by
        simp only [did, vault, own, List.nil_append]
      rw [same]
      exact .inr (.refl d)

/-- Only the clock or the records changed. -/
theorem proceeds_outside {v : Vault} (supply : v.supply = d.vault.supply)
    (issued : v.issued = d.vault.issued) (ledger : v.ledger = d.vault.ledger)
    (medium : v.medium = d.vault.medium) (large : v.large = d.vault.large) :
    d.Proceeds call { d with vault := v } where
  stands := ⟨[], .of_same supply issued (by unfold Vault.row; rw [ledger]), rfl⟩
  sound := by
    dsimp only
    rw [large]
    exact id
  sessions := fun _ s running => .inr ⟨s, running, rfl, rfl, rfl⟩
  returned := .inl rfl
  changes := fun locator => .kept (by unfold Vault.row; rw [ledger]) fun tier => by
    simp only [Vault.object?, medium, large]

/-- Whatever the call is, it opens a write or goes on with what there is. -/
theorem perform_kinds (sound : Sound d) (call : Call) :
    (∃ n s, d.Begins n s (d.perform call)) ∨ d.Proceeds call (d.perform call) := by
  cases call with
  | openWrite n thresholds spec =>
    dsimp only [perform]
    split
    · next idle => exact (openWrite_kinds sound idle thresholds spec).imp (⟨n, ·⟩) id
    · exact .inr (.refl d)
  | write n chunk =>
    dsimp only [perform]
    split
    · next s running => exact .inr (proceeds_write sound running chunk)
    · exact .inr (.refl d)
  | finish n =>
    dsimp only [perform]
    split
    · next s running => exact .inr (proceeds_finish sound running)
    · exact .inr (.refl d)
  | abandon n => exact .inr ((Proceeds.refl d).keep n none nofun rfl)
  | reserve references => exact .inr (proceeds_reserve sound references)
  | confirm references => exact .inr (proceeds_confirm references)
  | plan record changes => exact .inr (proceeds_plan record changes)
  | discard handles => exact .inr (proceeds_discard sound handles)
  | sweep settings pages => exact .inr (proceeds_sweep sound settings pages)
  | setClock time => exact .inr (proceeds_outside rfl rfl rfl rfl rfl)
  | setRecords repository => exact .inr (proceeds_outside rfl rfl rfl rfl rfl)

theorem Sound.perform (sound : Sound d) (call : Call) : Sound (d.perform call) := by
  rcases perform_kinds sound call with ⟨n, s, begins⟩ | proceeds
  · exact begins.keeps sound
  · exact proceeds.keeps sound

theorem Sound.after (sound : Sound d) (calls : List Call) : Sound (d.after calls) := by
  induction calls generalizing d with
  | nil => exact sound
  | cons call rest ih => exact ih (sound.perform call)

section

variable {locator : Locator}

/-- The row of an entered locator stays when a write begins. -/
theorem Begins.row_entered {n : Nat} {s : WriteSession} (begins : d.Begins n s d') (sound : Sound d)
    {tier : Tier} (entered : Entered d.effects tier locator) :
    d'.vault.row locator = d.vault.row locator := by
  obtain ⟨own, opens, -⟩ := begins.opens
  rw [opens.rows, if_neg]
  rintro rfl
  rw [opens.locator] at entered
  exact sound.unentered tier entered

/-- The locator was entered and has no entry. -/
def Spent (d : CallState) (locator : Locator) : Prop :=
  (∃ tier, Entered d.effects tier locator) ∧ d.vault.row locator = none

theorem Spent.perform (sound : Sound d) (spent : d.Spent locator) (call : Call) :
    (d.perform call).Spent locator := by
  obtain ⟨⟨tier, entered⟩, gone⟩ := spent
  rcases perform_kinds sound call with ⟨n, s, begins⟩ | proceeds
  · exact ⟨⟨tier, begins.entered.2 (.inr entered)⟩, (begins.row_entered sound entered).trans gone⟩
  · obtain ⟨own, stands, -⟩ := proceeds.stands
    exact ⟨⟨tier, proceeds.entered.2 entered⟩, stands.gone gone⟩

theorem Spent.after (sound : Sound d) (spent : d.Spent locator) (calls : List Call) :
    (d.after calls).Spent locator := by
  induction calls generalizing d with
  | nil => exact spent
  | cons call rest ih => exact ih (sound.perform call) (spent.perform sound call)

/-- What was entered stays entered. -/
theorem entered_after (sound : Sound d) {tier : Tier} (entered : Entered d.effects tier locator)
    (calls : List Call) : Entered (d.after calls).effects tier locator := by
  induction calls generalizing d with
  | nil => exact entered
  | cons call rest ih =>
    refine ih (sound.perform call) ?_
    rcases perform_kinds sound call with ⟨n, s, begins⟩ | proceeds
    · exact begins.entered.2 (.inr entered)
    · exact proceeds.entered.2 entered

end

theorem after_append (d : CallState) (calls calls' : List Call) :
    d.after (calls ++ calls') = (d.after calls).after calls' := List.foldl_append

def numbered (clock : Timestamp) : CallState := ⟨.numbered clock, fun _ => none, [], []⟩

theorem numbered_initial {clock : Timestamp} (least : Word.least ≤ clock) :
    (numbered clock).Initial where
  ledger := rfl
  medium := rfl
  large := rfl
  distinct := (Vault.numbered_initial least).distinct
  sessions := fun _ => rfl
  returned := rfl
  effects := rfl

end CallState

end BlobLifecycle
