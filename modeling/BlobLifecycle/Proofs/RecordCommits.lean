import BlobLifecycle.Proofs.RecordEdits
import BlobLifecycle.Proofs.ReturnedHandles
import BlobLifecycle.Reading
import Mathlib.Logic.Function.Basic
import Mathlib.Logic.Relation

/-! Records and the commits that change them. A commit reserves what it brings into a record,
writes the record, confirms, and deletes what it frees. Between commits, the content of a handle
that was ever in a record exists exactly while a record holds the handle. -/
namespace BlobLifecycle

/-- A write, a sweep or a change of the clock. -/
def Call.isAside : Call → Bool
  | openWrite .. | write .. | finish _ | abandon _ | sweep .. | setClock _ => true
  | _ => false

variable {scopes : FieldTypeId → Scope}

structure CommitState (scopes : FieldTypeId → Scope) where
  state : CallState
  records : RecordId → RecordValues scopes

/-- The plan of an edit. Only changes of fields are planned by the engine as a whole. -/
def Edit.prepare (record : RecordId) (d : CallState) : Edit → BlobPlan × CallState
  | .set changes | .append changes | .overwrite _ changes =>
    (d.result (planMutation record changes), d.perform (.plan record changes))
  | .dropVersion _ values others => (⟨[], freedByVersion values others⟩, d)
  | .dropRecord values => (⟨[], freedByRecord values⟩, d)

def Edit.planning (record : RecordId) : Edit → List Call
  | .set changes | .append changes | .overwrite _ changes => [.plan record changes]
  | .dropVersion .. | .dropRecord _ => []

namespace CommitState

def Carries (s : CommitState scopes) (holder : RecordField) (h : Handle) : Prop :=
  (s.records holder.record).Holds holder.field h

def repository (records : RecordId → RecordValues scopes) (before : Repository) : Repository :=
  { before with fieldHistory := fun record field => .ok ((records record).values field) }

def revised (s : CommitState scopes) (record : RecordId) (e : Edit) : RecordId → RecordValues scopes :=
  Function.update s.records record (e.apply (s.records record))

/-- Plan, reserve, write, confirm, delete. Where the reservation fails nothing is written. -/
def commit (s : CommitState scopes) (record : RecordId) (e : Edit) : CommitState scopes :=
  let (plan, planned) := e.prepare record s.state
  let reserved := planned.perform (.reserve plan.toReserve)
  match planned.result (reserve plan.toReserve).run with
  | .error _ => { s with state := reserved }
  | .ok () =>
    let records := s.revised record e
    let written := reserved.perform (.setRecords (repository records reserved.vault.repository))
    let confirmed := written.perform (.confirm plan.toReserve)
    match written.result (confirm plan.toReserve).run with
    | .error _ => ⟨confirmed, records⟩
    | .ok () => ⟨confirmed.perform (.discard plan.toDelete), records⟩

/-- The stored handles of the new values were given by writes, as they are. -/
def Genuine (d : CallState) (e : Edit) : Prop :=
  ∀ c ∈ e.changes, ∀ h, Hold c.after.toList h → h.tier.isStored = true → h ∈ d.returned

inductive Step (s : CommitState scopes) : CommitState scopes → Prop
  | aside (call : Call) (aside : call.isAside = true) : Step s { s with state := s.state.perform call }
  | commit (record : RecordId) (e : Edit) (fits : e.Fits (s.records record))
      (genuine : Genuine s.state e) : Step s (s.commit record e)

abbrev Leads : CommitState scopes → CommitState scopes → Prop := Relation.ReflTransGen Step

/-- Nothing was written, and no record has values. -/
structure Initial (s : CommitState scopes) : Prop where
  state : s.state.Initial
  records : ∀ record, s.records record = .none

def Reached (s : CommitState scopes) : Prop :=
  ∃ start : CommitState scopes, start.Initial ∧ start.Leads s

structure Invariant (s : CommitState scopes) : Prop where
  sound : CallState.Sound s.state
  claimables : s.state.ClaimableReadable
  settled : ∀ holder h, h.tier.isStored = true → s.Carries holder h → s.state.Settled h
  readable : ∀ holder h, h.tier.isStored = true → s.Carries holder h → s.state.Readable h
  single : ∀ holder holder' h, h.tier.isStored = true → s.Carries holder h →
    s.Carries holder' h → holder = holder'

variable {s s' : CommitState scopes} {h : Handle} {record : RecordId} {e : Edit} {calls : List Call}

/-- The state goes on while the records stay. -/
theorem Invariant.after (invariant : Invariant s) (noDiscards : NoDiscards calls) :
    Invariant { s with state := s.state.after calls } where
  sound := invariant.sound.after calls
  claimables := invariant.claimables.after invariant.sound noDiscards
  settled := fun holder h stored carried =>
    ((invariant.settled holder h stored carried).after invariant.sound noDiscards).1
  readable := by
    intro holder h stored carried
    have settled := invariant.settled holder h stored carried
    exact (invariant.readable holder h stored carried).of_object invariant.sound
      (invariant.sound.after calls) stored (settled.after invariant.sound noDiscards).2
  single := invariant.single

theorem prepare_eq (e : Edit) (record : RecordId) (d : CallState) :
    e.prepare record d = (e.plan record, d.after (e.planning record)) := by
  cases e <;> rfl

theorem noDiscards_planning (e : Edit) (record : RecordId) : NoDiscards (e.planning record) := by
  cases e <;> simp [NoDiscards, Edit.planning]

theorem noDiscards_planned (e : Edit) (record : RecordId) (noDiscards : NoDiscards calls) :
    NoDiscards (e.planning record ++ calls) :=
  List.forall_mem_append.2 ⟨noDiscards_planning e record, noDiscards⟩

structure Attached (s : CommitState scopes) (references : List Reference) (d : CallState) : Prop where
  settled : ∀ r ∈ references, r.handle.tier.isStored = true →
    d.Settled r.handle ∧ d.Readable r.handle
  fresh : ∀ r ∈ references, r.handle.tier.isStored = true → ∀ holder, ¬s.Carries holder r.handle
  agreed : ∀ r ∈ references, ∀ r' ∈ references, r.handle.tier.isStored = true →
    r.handle = r'.handle → r.holder = r'.holder

theorem genuine_given (genuine : Genuine s.state e) {r : Reference}
    (member : r ∈ (e.plan record).toReserve) (stored : r.handle.tier.isStored = true) :
    r.handle ∈ s.state.returned := by
  have introduced {changes : List FieldChange} (same : e.changes = changes)
      (member : r ∈ (BlobPlan.ofChanges record changes).toReserve) : r.handle ∈ s.state.returned := by
    obtain ⟨c, listed, new, -⟩ := BlobPlan.mem_toReserve.1 member
    exact genuine c (same ▸ listed) r.handle
      (FieldChange.mem_introduced.1 new).1 stored
  cases e with
  | set changes => exact introduced rfl member
  | append changes => exact introduced rfl member
  | overwrite n changes => exact introduced rfl member
  | dropVersion n values others => cases member
  | dropRecord values => cases member

/-- Granted references are confirmed after the record was written. -/
theorem Invariant.attach {references : List Reference} (invariant : Invariant s)
    (given : ∀ r ∈ references, r.handle.tier.isStored = true → r.handle ∈ s.state.returned)
    (granted : s.state.result (reserve references).run = .ok ()) (repository : Repository) :
    let written := s.state.after [.reserve references, .setRecords repository]
    written.result (confirm references).run = .ok () ∧
      s.Attached references (written.perform (.confirm references)) := by
  intro written
  have reserves := invariant.sound.reserves_of_ok granted
  have listed {r : Reference} (member : r ∈ references) (stored : r.handle.tier.isStored = true) :
      r ∈ storedReferences references := List.mem_filter.2 ⟨member, stored⟩
  have noDiscards : NoDiscards [.reserve references, .setRecords repository] := by simp [NoDiscards]
  have sound : CallState.Sound written := invariant.sound.after _
  have claimables : written.ClaimableReadable := invariant.claimables.after invariant.sound noDiscards
  have there : ∀ r ∈ storedReferences references, written.Readable r.handle ∧
      ∃ row, written.vault.row r.handle.locator = some row ∧ row.HeldFor r.holder := by
    intro r member
    obtain ⟨row, -, grants, after⟩ := reserves.granted r member
    obtain ⟨member, stored⟩ := List.mem_filter.1 member
    have present : written.vault.row r.handle.locator =
        some (row.claimFor r.holder s.state.vault.clock) := after
    have given := CallState.given_after invariant.sound (given r member stored)
      [.reserve references, .setRecords repository]
    exact ⟨claimables r.handle given stored _ present grants.held.2.2, _, present, grants.held⟩
  have confirmed : (confirm references).run.Ensures _ written.vault [] :=
    confirm_ensures (fun r member => (there r member).1) fun r member => .inr (there r member).2
  obtain ⟨done, confirmed⟩ := Program.ensures_iff.1 confirmed
  refine ⟨done, fun r member stored => ?_, fun r member stored holder carried => ?_, ?_⟩
  · have given := CallState.given_after invariant.sound (given r member stored)
      [.reserve references, .setRecords repository, .confirm references]
    refine ⟨⟨stored, given, ?_⟩, ?_⟩
    · exact (confirmed.rows r.handle.locator).trans (if_pos ⟨r, listed member stored, rfl⟩)
    · exact (there r (listed member stored)).1.of_object sound (sound.perform _) stored
        (confirmed.only.object? _ _)
  · obtain ⟨row, present, -⟩ := reserves.granted r (listed member stored)
    exact nomatch (invariant.settled holder _ stored carried).gone.symm.trans present
  · intro r member r' member' stored same
    exact reserves.holder_eq (listed member stored) (listed member' (same ▸ stored))
      (congrArg Handle.locator same)

/-- A commit is refused, or it attaches what it reserved and then deletes what it frees. -/
theorem Invariant.commit_cases (invariant : Invariant s) (genuine : Genuine s.state e)
    (record : RecordId) :
    ∃ calls, NoDiscards calls ∧ (s.commit record e = { s with state := s.state.after calls } ∨
      (s.Attached (e.plan record).toReserve (s.state.after calls) ∧
        s.commit record e = ⟨(s.state.after calls).perform (.discard (e.plan record).toDelete),
          s.revised record e⟩)) := by
  let planned := s.state.after (e.planning record)
  let references := (e.plan record).toReserve
  have invariantPlanned : Invariant { s with state := planned } :=
    invariant.after (noDiscards_planning e record)
  unfold commit
  rw [prepare_eq]
  dsimp only
  cases granted : planned.result (reserve references).run with
  | error failure =>
    refine ⟨e.planning record ++ [.reserve references], ?_, .inl ?_⟩
    · exact noDiscards_planned e record (by simp [NoDiscards])
    · rw [CallState.after_append]
      rfl
  | ok done =>
    let reserved := planned.perform (.reserve references)
    let records := repository (s.revised record e) reserved.vault.repository
    have given : ∀ r ∈ references, r.handle.tier.isStored = true → r.handle ∈ planned.returned :=
      fun r member stored => CallState.given_after invariant.sound (genuine_given genuine member stored) _
    obtain ⟨confirmed, attached⟩ := invariantPlanned.attach given granted records
    refine ⟨e.planning record ++ [.reserve references, .setRecords records, .confirm references],
      ?_, .inr ⟨?_, ?_⟩⟩
    · exact noDiscards_planned e record (by simp [NoDiscards])
    · rw [CallState.after_append]
      exact ⟨attached.settled, attached.fresh, attached.agreed⟩
    · rw [CallState.after_append]
      dsimp only
      split
      · next failed => exact nomatch failed.symm.trans confirmed
      · rfl

theorem records_commit (granted : (s.state.after (e.planning record)).result
      (reserve (e.plan record).toReserve).run = .ok ()) :
    (s.commit record e).records = s.revised record e := by
  unfold commit
  rw [prepare_eq]
  dsimp only
  rw [granted]
  dsimp only
  split <;> rfl

theorem revised_cases {holder : RecordField}
    (held : (s.revised record e holder.record).Holds holder.field h) :
    (holder.record ≠ record ∧ s.Carries holder h) ∨
      (holder.record = record ∧ (e.apply (s.records record)).Holds holder.field h) := by
  unfold revised at held
  by_cases here : holder.record = record
  · rw [here, Function.update_self] at held
    exact .inr ⟨here, held⟩
  · rw [Function.update_of_ne here] at held
    exact .inl ⟨here, held⟩

theorem Invariant.single_record (invariant : Invariant s) (record : RecordId) :
    (s.records record).Single := by
  intro f f' h stored held held'
  have same : (⟨record, f⟩ : RecordField) = ⟨record, f'⟩ := invariant.single _ _ h stored held held'
  cases same
  rfl

theorem Invariant.balance (invariant : Invariant s) (fits : e.Fits (s.records record)) :
    RecordValues.Balance record (s.records record) (e.plan record) (e.apply (s.records record)) :=
  fits.balance (invariant.single_record record) record

/-- A handle in the new records was in the old ones at the same place, or was attached. -/
theorem Invariant.carried_before (invariant : Invariant s) (fits : e.Fits (s.records record))
    {holder : RecordField} (stored : h.tier.isStored = true)
    (held : (s.revised record e holder.record).Holds holder.field h) :
    s.Carries holder h ∨ ⟨h, holder.record, holder.field⟩ ∈ (e.plan record).toReserve := by
  rcases revised_cases held with ⟨-, old⟩ | ⟨rfl, held⟩
  · exact .inl old
  · exact (invariant.balance fits).gained _ h stored held

/-- What a plan deletes was in the record, and is nowhere in the new records. -/
theorem Invariant.deleted_uncarried (invariant : Invariant s) (fits : e.Fits (s.records record))
    {d : CallState} (attached : s.Attached (e.plan record).toReserve d)
    (deleted : h ∈ (e.plan record).toDelete) (stored : h.tier.isStored = true) :
    (∃ holder, s.Carries holder h) ∧
      ∀ holder : RecordField, ¬(s.revised record e holder.record).Holds holder.field h := by
  obtain ⟨⟨f, held⟩, reserved⟩ := (invariant.balance fits).freed h deleted stored
  have carried : s.Carries ⟨record, f⟩ h := held
  refine ⟨⟨_, carried⟩, fun holder held' => ?_⟩
  rcases revised_cases held' with ⟨apart, old⟩ | ⟨here, held'⟩
  · exact apart (congrArg RecordField.record (invariant.single _ _ h stored old carried))
  · exact attached.fresh _ (reserved _ held') stored _ carried

/-- A commit that is not refused. -/
theorem Invariant.revised (invariant : Invariant s) (fits : e.Fits (s.records record))
    (noDiscards : NoDiscards calls)
    (attached : s.Attached (e.plan record).toReserve (s.state.after calls)) :
    Invariant ⟨(s.state.after calls).perform (.discard (e.plan record).toDelete),
      s.revised record e⟩ := by
  let d := s.state.after calls
  have before : Invariant { s with state := d } := invariant.after noDiscards
  have sound : CallState.Sound d := before.sound
  -- What the new records carry is settled, readable and not among the deleted.
  have carried {holder : RecordField} {h : Handle} (stored : h.tier.isStored = true)
      (carries : Carries ⟨d, s.revised record e⟩ holder h) :
      d.Settled h ∧ d.Readable h ∧ Call.Spares (.discard (e.plan record).toDelete) h := by
    have known : d.Settled h ∧ d.Readable h := by
      rcases invariant.carried_before fits stored carries with old | new
      · exact ⟨before.settled holder h stored old, before.readable holder h stored old⟩
      · exact attached.settled _ new stored
    refine ⟨known.1, known.2, ?_⟩
    rintro handles ⟨⟩ ⟨h', deleted, tier, here⟩
    have stored' : h'.tier.isStored = true := tier ▸ stored
    obtain ⟨⟨holder', old⟩, uncarried⟩ :=
      invariant.deleted_uncarried fits attached deleted stored'
    obtain rfl := sound.unique h' (before.settled holder' h' stored' old).given h known.1.given
      stored' stored here
    exact uncarried holder carries
  have sound' := sound.perform (.discard (e.plan record).toDelete)
  constructor
  · exact sound'
  · refine before.claimables.perform sound _ fun h given stored present => ?_
    rintro handles ⟨⟩ ⟨h', deleted, tier, here⟩
    have stored' : h'.tier.isStored = true := tier ▸ stored
    obtain ⟨holder', old⟩ := (invariant.deleted_uncarried fits attached deleted stored').1
    exact present (here ▸ (before.settled holder' h' stored' old).gone)
  · intro holder h stored carries
    exact ((carried stored carries).1.perform sound (.discard (e.plan record).toDelete)).1
  · intro holder h stored carries
    obtain ⟨settled, readable, spares⟩ := carried stored carries
    refine readable.of_object sound sound' stored ?_
    have kept_or_deleted := (settled.perform sound (.discard (e.plan record).toDelete)).2
    exact kept_or_deleted.resolve_right fun changed => changed.2 spares
  · intro holder holder' h stored carries carries'
    rcases invariant.carried_before fits stored carries with old | new
    · rcases invariant.carried_before fits stored carries' with old' | new'
      · exact invariant.single holder holder' h stored old old'
      · exact (attached.fresh _ new' stored holder old).elim
    · rcases invariant.carried_before fits stored carries' with old' | new'
      · exact (attached.fresh _ new stored holder' old').elim
      · exact attached.agreed _ new _ new' stored rfl

theorem noDiscards_aside {call : Call} (aside : call.isAside = true) : NoDiscards [call] := by
  rintro call' member handles rfl
  obtain rfl := List.mem_singleton.1 member
  cases aside

theorem Invariant.step (invariant : Invariant s) (step : Step s s') : Invariant s' := by
  cases step with
  | aside call aside => exact invariant.after (noDiscards_aside aside)
  | commit record e fits genuine =>
    obtain ⟨calls, noDiscards, same | ⟨attached, same⟩⟩ := invariant.commit_cases genuine record
    · rw [same]
      exact invariant.after noDiscards
    · rw [same]
      exact invariant.revised fits noDiscards attached

theorem not_carries {holder : RecordField} (empty : s.records holder.record = .none) :
    ¬s.Carries holder h := by
  unfold Carries
  rw [empty]
  exact RecordValues.holds_none

theorem Initial.invariant (initial : s.Initial) : Invariant s where
  sound := initial.state.sound
  claimables := by
    intro h given
    rw [initial.state.returned] at given
    cases given
  settled := fun _ _ _ carried => (not_carries (initial.records _) carried).elim
  readable := fun _ _ _ carried => (not_carries (initial.records _) carried).elim
  single := fun _ _ _ _ carried => (not_carries (initial.records _) carried).elim

theorem Invariant.leads (invariant : Invariant s) (leads : s.Leads s') : Invariant s' := by
  induction leads with
  | refl => exact invariant
  | tail _ step ih => exact ih.step step

theorem leads_aside (s : CommitState scopes) {calls : List Call}
    (aside : ∀ call ∈ calls, call.isAside = true) :
    s.Leads { s with state := s.state.after calls } := by
  induction calls generalizing s with
  | nil => exact .refl
  | cons call rest ih =>
    obtain ⟨first, others⟩ := List.forall_mem_cons.1 aside
    exact .head (.aside call first) (ih { s with state := s.state.perform call } others)

theorem Reached.invariant (reached : s.Reached) : Invariant s := by
  obtain ⟨start, initial, leads⟩ := reached
  exact initial.invariant.leads leads

/-- A handle that was in a record once: it is in one still, or its content is gone. -/
structure OnceCarried (s : CommitState scopes) (h : Handle) : Prop where
  settled : s.state.Settled h
  fate : (∃ holder, s.Carries holder h) ∨ s.state.vault.object? h.tier h.locator = none

theorem OnceCarried.after (once : s.OnceCarried h) (invariant : Invariant s)
    (noDiscards : NoDiscards calls) : OnceCarried { s with state := s.state.after calls } h := by
  obtain ⟨settled, same⟩ := once.settled.after invariant.sound noDiscards
  exact ⟨settled, once.fate.imp id same.trans⟩

/-- What a commit takes out of the records it deletes. -/
theorem OnceCarried.revised (once : s.OnceCarried h) (invariant : Invariant s)
    (fits : e.Fits (s.records record)) (noDiscards : NoDiscards calls) :
    OnceCarried ⟨(s.state.after calls).perform (.discard (e.plan record).toDelete), s.revised record e⟩
      h := by
  have sound := invariant.sound.after calls
  obtain ⟨settled, fate⟩ := once.after invariant noDiscards
  obtain ⟨settled', changed⟩ := settled.perform sound (.discard (e.plan record).toDelete)
  refine ⟨settled', ?_⟩
  rcases fate with ⟨holder, carried⟩ | gone
  · have stays : Carries ⟨(s.state.after calls).perform (.discard (e.plan record).toDelete),
        s.revised record e⟩ holder h ∨ h ∈ (e.plan record).toDelete := by
      unfold Carries CommitState.revised
      dsimp only
      by_cases here : holder.record = record
      · rw [here, Function.update_self]
        exact (invariant.balance fits).lost holder.field h settled.stored (here ▸ carried)
      · rw [Function.update_of_ne here]
        exact .inl carried
    refine stays.imp (⟨holder, ·⟩) fun deleted => ?_
    have gone : (deleteNow (e.plan record).toDelete).Ensures _ (s.state.after calls).vault [] :=
      deleteNow_ensures sound.named _ []
    exact Program.ensures_iff.1 gone h deleted settled.stored
  · exact .inr (changed.elim (·.trans gone) And.left)

theorem OnceCarried.step (once : s.OnceCarried h) (invariant : Invariant s) (step : Step s s') :
    s'.OnceCarried h := by
  cases step with
  | aside call aside => exact once.after invariant (noDiscards_aside aside)
  | commit record e fits genuine =>
    obtain ⟨calls, noDiscards, same | ⟨-, same⟩⟩ := invariant.commit_cases genuine record
    · rw [same]
      exact once.after invariant noDiscards
    · rw [same]
      exact once.revised invariant fits noDiscards

theorem OnceCarried.leads (once : s.OnceCarried h) (invariant : Invariant s) (leads : s.Leads s') :
    s'.OnceCarried h := by
  induction leads with
  | refl => exact once
  | tail leads step ih => exact ih.step (invariant.leads leads) step

end CommitState

/-- Records change by commits that do not overlap, with writes, sweeps and changes of the clock
between them. What was ever in a record can be read exactly while some record holds it. -/
theorem content_exists_while_carried {s s' : CommitState scopes} (reached : s.Reached)
    {holder : RecordField} {h : Handle} (stored : h.tier.isStored = true)
    (carried : s.Carries holder h) (leads : s.Leads s') :
    (∃ content, s'.state.result (openRead h).run = .ok content) ↔
      ∃ holder', s'.Carries holder' h := by
  have invariant := reached.invariant
  have invariant' := invariant.leads leads
  have once : s.OnceCarried h :=
    ⟨invariant.settled holder h stored carried, .inl ⟨holder, carried⟩⟩
  have once' := once.leads invariant leads
  constructor
  · rintro ⟨content, read⟩
    have readable : s'.state.Readable h := ⟨content, read⟩
    exact once'.fate.resolve_right (readable.holds invariant'.sound stored)
  · rintro ⟨holder', carried'⟩
    exact invariant'.readable holder' h stored carried'

namespace Sample

def received : CommitState fun _ => .versionedMutable :=
  ⟨(CallState.numbered 1000000).after
    [.openWrite 0 ⟨0, 200⟩ ⟨"", "", 1⟩, .write 0 [7], .finish 0], fun _ => .none⟩

def full : FieldValue := .paths [[note], [note, handle]]
def cut : FieldValue := .paths [[note], [note]]

def attaching : Edit :=
  .append [⟨field, .versionedMutable, none, some full, .newVersion, []⟩]

/-- Takes the handle out of the latest version, while an older one has it. -/
def overwriting : Edit :=
  .overwrite 0 [⟨field, .versionedMutable, some full, some cut, .inPlace, [full]⟩]

def attached : CommitState fun _ => .versionedMutable := received.commit record attaching
def carriedOver : CommitState fun _ => .versionedMutable := attached.commit record (.append [])
def overwritten : CommitState fun _ => .versionedMutable := carriedOver.commit record overwriting
def dropped : CommitState fun _ => .versionedMutable :=
  overwritten.commit record (.dropRecord [cut, full])

theorem records_attached : attached.records = received.revised record attaching :=
  CommitState.records_commit (by decide +kernel)

theorem records_carriedOver : carriedOver.records = attached.revised record (.append []) :=
  CommitState.records_commit (by decide +kernel)

theorem records_overwritten : overwritten.records = carriedOver.revised record overwriting :=
  CommitState.records_commit (by decide +kernel)

theorem records_dropped : dropped.records = overwritten.revised record (.dropRecord [cut, full]) :=
  CommitState.records_commit (by decide +kernel)

theorem record_carriedOver :
    carriedOver.records record = (Edit.append []).apply (attaching.apply .none) := by
  rw [records_carriedOver, CommitState.revised, records_attached, CommitState.revised]
  rfl

theorem values_overwritten (f : FieldTypeId) :
    (overwritten.records record).values f = if f = field then [cut, full] else [] := by
  rw [records_overwritten, CommitState.revised, Function.update_self, record_carriedOver]
  by_cases here : f = field
  · subst here
    rfl
  · simp [RecordValues.values, Edit.apply, overwriting, attaching, Fields.assign,
      RecordValues.latest, RecordValues.none, here, Ne.symm here]

theorem empty_dropped (other : RecordId) : dropped.records other = .none := by
  rw [records_dropped, CommitState.revised, records_overwritten, CommitState.revised,
    records_carriedOver, CommitState.revised, records_attached, CommitState.revised]
  by_cases here : other = record
  · rw [here, Function.update_self]
    rfl
  · simp only [Function.update_of_ne here]
    rfl

theorem reached_received : received.Reached :=
  ⟨⟨.numbered 1000000, fun _ => .none⟩, ⟨CallState.numbered_initial (by decide), fun _ => rfl⟩,
    CommitState.leads_aside _ (by decide)⟩

theorem step_attached : CommitState.Step received attached := by
  refine .commit record attaching (.append ⟨?_, ?_, ?_, ?_⟩ ?_) ?_
  · exact List.pairwise_singleton _ _
  · simp
  · simp only [List.forall_mem_singleton]
    rfl
  · simp
  · simp
  · simp only [CommitState.Genuine, attaching, Edit.changes, List.forall_mem_singleton]
    intro h holds stored
    obtain rfl := eq_handle (by decide) holds stored
    decide +kernel

theorem step_carriedOver : CommitState.Step attached carriedOver := by
  refine .commit record (.append []) (.append ⟨List.nodup_nil, ?_, ?_, ?_⟩ ?_) ?_
  all_goals exact fun _ listed => (List.not_mem_nil listed).elim

theorem step_overwritten : CommitState.Step carriedOver overwritten := by
  refine .commit record overwriting ?_ ?_
  · rw [record_carriedOver]
    refine .overwrite rfl ⟨?_, ?_, ?_, ?_⟩ ?_ ?_
    · exact List.pairwise_singleton _ _
    · simp
    · simp only [List.forall_mem_singleton]
      rfl
    · simp
    · simp
    · simp only [List.forall_mem_singleton]
      exact fun v => Iff.rfl
  · simp only [CommitState.Genuine, overwriting, Edit.changes, List.forall_mem_singleton]
    intro h holds stored
    obtain rfl := eq_handle (by decide) holds stored
    decide +kernel

theorem step_dropped : CommitState.Step overwritten dropped := by
  refine .commit record (.dropRecord [cut, full]) (.dropRecord fun v => ?_) ?_
  · simp [values_overwritten]
  · exact fun _ listed => (List.not_mem_nil listed).elim

theorem carries_overwritten : overwritten.Carries ⟨record, field⟩ handle := by
  refine ⟨full, ?_, by decide⟩
  simp [values_overwritten]

end Sample

open Sample in
/-- The content of a handle in a hierarchy stays when the latest version loses it and an older one
has it, and goes with the record. -/
theorem shared_content_dropped_last :
    overwritten.Reached ∧ overwritten.Carries ⟨record, field⟩ handle ∧
      overwritten.Leads dropped ∧
      (∃ content, overwritten.state.result (openRead handle).run = .ok content) ∧
      ¬∃ content, dropped.state.result (openRead handle).run = .ok content := by
  have reached : overwritten.Reached := by
    obtain ⟨start, initial, leads⟩ := reached_received
    exact ⟨start, initial, ((leads.tail step_attached).tail step_carriedOver).tail step_overwritten⟩
  have leads : overwritten.Leads dropped := .single step_dropped
  have exists_iff := fun s' (leads : overwritten.Leads s') =>
    content_exists_while_carried reached rfl carries_overwritten leads
  refine ⟨reached, carries_overwritten, leads, ?_, fun read => ?_⟩
  · exact (exists_iff overwritten .refl).2 ⟨_, carries_overwritten⟩
  · obtain ⟨holder, carried⟩ := (exists_iff dropped leads).1 read
    exact CommitState.not_carries (empty_dropped holder.record) carried

end BlobLifecycle
