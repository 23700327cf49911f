import BlobLifecycle.Proofs.Timing

/-! Granted claims. Claims carry no owner, so the reservation that newly made a claim may
take it back although another one of the same holder has renewed it since. -/
namespace BlobLifecycle

def World.Owes (w : World) (a : Actor) (locator : Locator) (holder : RecordField) : Prop :=
  undone (w.own a) locator holder < made (w.own a) locator holder

theorem World.Owes.claimed {w : World} {a : Actor} {locator : Locator} {holder : RecordField}
    (owes : w.Owes a locator holder) : ∃ time, (a, .claimed locator holder time) ∈ w.history := by
  obtain ⟨time, member⟩ := claimed_of_made (Nat.lt_of_le_of_lt (Nat.zero_le _) owes)
  exact ⟨time, World.mem_own.1 member⟩

structure Makers (w : World) : Prop where
  once : ∀ a locator holder,
    made (w.own a) locator holder ≤ undone (w.own a) locator holder + 1
  taken : ∀ a locator holder row, w.Owes a locator holder → w.vault.row locator = some row →
    ¬row.Claimable
  unique : ∀ a b locator holder holder', w.Owes a locator holder → w.Owes b locator holder' →
    a = b ∧ holder = holder'

/-- Effects that neither make nor take back this claim do not count. -/
theorem World.owes_cons {w w' : World} {a b : Actor} {d : Effect} {locator : Locator}
    {holder : RecordField} (history : w'.history = (a, d) :: w.history)
    (unmade : d.isClaim locator holder = false) (kept : d ≠ .unclaimed locator holder) :
    w'.Owes b locator holder ↔ w.Owes b locator holder := by
  by_cases same : b = a
  · subst same
    simp [Owes, own_cons_self history, unmade, kept]
  · simp [Owes, own_cons_other history same]

namespace Makers

variable {s : Setting} {w w' : World} {a b : Actor} {d : Effect} {locator : Locator}
  {holder : RecordField}

theorem transfer (makers : Makers w) (unmoved : w.Unmoved w')
    (counts : ∀ a locator holder, made (w'.own a) locator holder = made (w.own a) locator holder ∧
      undone (w'.own a) locator holder = undone (w.own a) locator holder) : Makers w' := by
  have owes (a : Actor) (locator : Locator) (holder : RecordField) :
      w'.Owes a locator holder ↔ w.Owes a locator holder := by
    simp [World.Owes, counts]
  constructor
  · simpa [counts] using makers.once
  · simpa [owes, unmoved.row] using makers.taken
  · simpa [owes] using makers.unique

theorem free {row : LedgerRow} (makers : Makers w) (present : w.vault.row locator = some row)
    (claimable : row.Claimable) (a : Actor) (holder : RecordField) : ¬w.Owes a locator holder :=
  fun owes => makers.taken a locator holder row owes present claimable

theorem claimed_acts {time : Timestamp} (makers : Makers w)
    (acts : w.Acts s a (.claimed locator holder time) w') (b : Actor) (holder' : RecordField)
    (owes : w'.Owes b locator holder') : b = a ∧ holder' = holder := by
  obtain ⟨row, present, claimable, _⟩ := (acts.row locator).of_claimed
  have before := makers.free present claimable b holder'
  by_cases here : b = a
  · by_cases same : holder' = holder
    · exact ⟨here, same⟩
    · rw [World.owes_cons acts.history (by simp [Effect.isClaim, Ne.symm same]) (by simp)] at owes
      exact (before owes).elim
  · simp only [World.Owes, World.own_cons_other acts.history here] at owes
    exact (before owes).elim

/-- Only the maker takes its claim back, and then owes it no more. -/
theorem unclaimed_acts (makers : Makers w) (acts : w.Acts s a (.unclaimed locator holder) w')
    (b : Actor) (holder' : RecordField) : ¬w'.Owes b locator holder' := by
  intro owes
  have maker : w.Owes a locator holder := acts.unclaiming.1
  by_cases same : b = a ∧ holder' = holder
  · obtain ⟨rfl, rfl⟩ := same
    have once := makers.once b locator holder'
    simp [World.Owes, World.own_cons_self acts.history, Effect.isClaim] at owes
    simp only [World.Owes] at maker
    omega
  · have before : w.Owes b locator holder' := by
      by_cases here : b = a
      · have apart : holder' ≠ holder := fun equal => same ⟨here, equal⟩
        exact (World.owes_cons acts.history rfl (by simp [apart.symm])).1 owes
      · simpa only [World.Owes, World.own_cons_other acts.history here] using owes
    exact same (makers.unique b a locator holder' holder before maker)

/-- An effect makes the claims of a locator, takes them back, or leaves them as they were. -/
theorem owes_acts (makers : Makers w) (acts : w.Acts s a d w') (locator : Locator) :
    (∃ holder time, d = .claimed locator holder time ∧
      ∀ b holder', w'.Owes b locator holder' → b = a ∧ holder' = holder) ∨
    (∀ b holder, ¬w'.Owes b locator holder) ∨
    ((∀ holder time, d ≠ .claimed locator holder time) ∧ (∀ holder, d ≠ .unclaimed locator holder) ∧
      ∀ b holder, w'.Owes b locator holder ↔ w.Owes b locator holder) := by
  by_cases claimed : ∃ holder time, d = .claimed locator holder time
  · obtain ⟨holder, time, rfl⟩ := claimed
    exact .inl ⟨holder, time, rfl, makers.claimed_acts acts⟩
  · by_cases unclaimed : ∃ holder, d = .unclaimed locator holder
    · obtain ⟨holder, rfl⟩ := unclaimed
      exact .inr (.inl (makers.unclaimed_acts acts))
    · have unmade (holder : RecordField) (time : Timestamp) : d ≠ .claimed locator holder time :=
        fun same => claimed ⟨holder, time, same⟩
      have kept (holder : RecordField) : d ≠ .unclaimed locator holder :=
        fun same => unclaimed ⟨holder, same⟩
      refine .inr (.inr ⟨unmade, kept, fun b holder => World.owes_cons acts.history ?_ (kept holder)⟩)
      cases d <;> simp_all [Effect.isClaim]

theorem once_acts (makers : Makers w) (acts : w.Acts s a d w') (b : Actor) (locator : Locator)
    (holder : RecordField) :
    made (w'.own b) locator holder ≤ undone (w'.own b) locator holder + 1 := by
  have once := makers.once b locator holder
  by_cases here : b = a
  · subst here
    rw [World.own_cons_self acts.history, made_cons, undone_cons]
    cases claim : d.isClaim locator holder with
    | false => simp; omega
    | true =>
      obtain ⟨time, rfl⟩ : ∃ time, d = .claimed locator holder time := by
        cases d <;> simp_all [Effect.isClaim]
      obtain ⟨row, present, free, _⟩ := (acts.row locator).of_claimed
      have owed := makers.free present free b holder
      simp only [World.Owes] at owed
      simp
      omega
  · rw [World.own_cons_other acts.history here]
    exact once

/-- The row of a claim that is owed is taken after every effect. -/
theorem taken_acts (tracked : Tracked w) (makers : Makers w) (acts : w.Acts s a d w')
    {row' : LedgerRow} (owes : w'.Owes b locator holder)
    (present : w'.vault.row locator = some row') : ¬row'.Claimable := by
  intro claimable
  have step := acts.row locator
  rw [present] at step
  rcases makers.owes_acts acts locator with ⟨holder', time, rfl, _⟩ | none | ⟨unmade, kept, same⟩
  · obtain ⟨_, _, _, after, held, _⟩ := step.of_claims (.inl rfl)
    cases after
    exact nomatch held.1.symm.trans claimable.1
  · exact none b holder owes
  · have before := (same b holder).1 owes
    have taken := fun row => makers.taken b locator holder row before
    generalize w.vault.row locator = row? at step taken
    cases step with
    | other apart => exact taken row' rfl claimable
    | entered stored =>
      obtain ⟨time, member⟩ := before.claimed
      obtain ⟨tier, enters⟩ := tracked.claims b _ locator holder time member (.inl rfl)
      exact tracked.fresh acts tier enters
    | claimed free => exact unmade _ _ rfl
    | renewed held => exact nomatch held.1.symm.trans claimable.1
    | unclaimed held => exact kept _ rfl
    | condemned here unchanged => exact nomatch claimable.2

theorem acts (tracked : Tracked w) (makers : Makers w) (acts : w.Acts s a d w') : Makers w' := by
  constructor
  · exact makers.once_acts acts
  · exact fun b locator holder row owes present => makers.taken_acts tracked acts owes present
  · intro b c locator holder holder' owes owes'
    rcases makers.owes_acts acts locator with ⟨_, time, _, only⟩ | none | ⟨_, _, same⟩
    · obtain ⟨rfl, rfl⟩ := only b holder owes
      obtain ⟨rfl, rfl⟩ := only c holder' owes'
      exact ⟨rfl, rfl⟩
    · exact (none b holder owes).elim
    · exact makers.unique b c locator holder holder' ((same b holder).1 owes)
        ((same c holder').1 owes')

end Makers

theorem World.Persists.counts {s : Setting} {w w' : World} {a : Actor} {record : RecordId}
    {changes : List FieldChange} (persists : w.Persists s a record changes w') (b : Actor)
    (locator : Locator) (holder : RecordField) :
    made (w'.own b) locator holder = made (w.own b) locator holder ∧
      undone (w'.own b) locator holder = undone (w.own b) locator holder := by
  by_cases here : b = a
  · subst here
    simp [World.own_cons_self persists.history, Effect.isClaim]
  · simp [World.own_cons_other persists.history here]

theorem Reachable.makers {s : Setting} {w : World} (reached : Reachable s w) : Makers w := by
  refine reached.induction ?_ ?_
  · intro w started
    have own (a : Actor) : w.own a = [] := by simp [World.own, started.history]
    exact ⟨by simp [own, made], by simp [World.Owes, own, made], by simp [World.Owes, own, made]⟩
  · intro w w' before makers step
    rcases step.kinds before.lawful with still | ⟨a, d, acts⟩ | ⟨a, record, changes, persists⟩
    · exact makers.transfer still.unmoved (by simp [World.own, still.history])
    · exact makers.acts before.tracked acts
    · exact makers.transfer persists.unmoved persists.counts

/-- How a claim of `holder` came to an end, where `effect` by `a` made or renewed it with `time`,
before the effects in `later` and after those in `earlier`. -/
inductive Ended (w : World) (grace : Int) (a : Actor) (effect : Effect)
    (later earlier : List (Actor × Effect)) (locator : Locator) (holder : RecordField)
    (time : Timestamp) : Prop
  | released {b : Actor} (member : (b, .released locator holder) ∈ later)
  | expired {b : Actor} {e : Entry} {now stamp : Timestamp} (here : e.locator = locator)
      (condemned : (b, .condemned e stamp) ∈ later) (read : (b, .read now) ∈ w.history)
      (late : time + grace < now)
  /-- Condemned by the time of a renewal that another began before this claim. -/
  | backdated {b c : Actor} {e : Entry} {now stamp claimed : Timestamp} (here : e.locator = locator)
      (condemned : (b, .condemned e stamp) ∈ later) (read : (b, .read now) ∈ w.history)
      (other : c ≠ a) (renewed : (c, .renewed locator holder claimed) ∈ later)
      (older : claimed < time) (late : claimed + grace < now)
  /-- Taken back by another, who had newly made the claim that was only renewed here. -/
  | undone {b : Actor} {claimed : Timestamp} (other : b ≠ a) (renewal : effect = .renewed locator holder time)
      (unclaimed : (b, .unclaimed locator holder) ∈ later)
      (maker : (b, .claimed locator holder claimed) ∈ earlier)

/-- The claim is in force, and can be taken back only by its actor or by an earlier maker. -/
structure Stands (w : World) (a : Actor) (effect : Effect) (later earlier : List (Actor × Effect))
    (locator : Locator) (holder : RecordField) (time : Timestamp) : Prop where
  held : ∃ row claimed, w.vault.row locator = some row ∧ row.HeldFor holder ∧
    row.claimedAt = some claimed ∧ (claimed = time ∨ ∃ c, (c, .renewed locator holder claimed) ∈ later)
  owed : ∀ b, w.Owes b locator holder → b = a ∨
    (effect = .renewed locator holder time ∧ ∃ claimed, (b, .claimed locator holder claimed) ∈ earlier)

section

variable {s : Setting} {w w' : World} {a b : Actor} {d effect : Effect}
  {later earlier : List (Actor × Effect)} {locator : Locator} {holder : RecordField} {time : Timestamp}

theorem Ended.mono {later' : List (Actor × Effect)} (history : w.history ⊆ w'.history)
    (grown : later ⊆ later') (ended : Ended w s.grace a effect later earlier locator holder time) :
    Ended w' s.grace a effect later' earlier locator holder time := by
  cases ended with
  | released member => exact .released (grown member)
  | expired here condemned read late => exact .expired here (grown condemned) (history read) late
  | backdated here condemned read other renewed older late =>
    exact .backdated here (grown condemned) (history read) other (grown renewed) older late
  | undone other renewal unclaimed maker => exact .undone other renewal (grown unclaimed) maker

/-- A claim that is condemned is old, or had an older time from another who renewed it. -/
theorem Stands.condemned {e : Entry} {stamp : Timestamp} (reached : Reachable s w)
    (acts : w.Acts s b (.condemned e stamp) w')
    (split : w.history = later ++ (a, effect) :: earlier) (claims : effect.Claims e.locator holder time)
    (stands : Stands w a effect later earlier e.locator holder time) :
    Ended w' s.grace a effect ((b, .condemned e stamp) :: later) earlier e.locator holder time := by
  have timed := reached.timed
  obtain ⟨⟨row, claimed, present, held, claimedAt, origin⟩, _⟩ := stands
  obtain ⟨row', present', unchanged, _⟩ := (acts.row e.locator).of_condemned
  cases present.symm.trans present'
  obtain ⟨claimed', now, _, same, read, late, _⟩ :=
    timed.condemned_late reached.tracked acts present held unchanged
  cases claimedAt.symm.trans same
  rcases origin with rfl | ⟨c, renewed⟩
  · exact .expired rfl List.mem_cons_self (acts.grows read) late
  · by_cases older : claimed < time
    · refine .backdated rfl List.mem_cons_self (acts.grows read) ?_ (List.mem_cons_of_mem _ renewed)
        older late
      rintro rfl
      have first := timed.claimed c effect _ holder time (by simp [split]) claims
      have second := timed.claimed c _ e.locator holder claimed (by simp [split, renewed]) (.inr rfl)
      rw [timed.single c _ _ first second] at older
      exact Int.lt_irrefl _ older
    · have later := Int.add_le_add_right (Int.not_lt.1 older) s.grace
      exact .expired rfl List.mem_cons_self (acts.grows read) (Int.lt_of_le_of_lt later late)

/-- What the last effect makes of a claim that was in force. -/
theorem Stands.acts (reached : Reachable s w) (acts : w.Acts s b d w')
    (split : w.history = later ++ (a, effect) :: earlier) (claims : effect.Claims locator holder time)
    (stands : Stands w a effect later earlier locator holder time) :
    Stands w' a effect ((b, d) :: later) earlier locator holder time ∨
      Ended w' s.grace a effect ((b, d) :: later) earlier locator holder time ∨
      (b = a ∧ d = .unclaimed locator holder) := by
  have step := acts.row locator
  have whole := stands
  obtain ⟨⟨row, claimed, present, held, stamp, origin⟩, owed⟩ := stands
  have origin' : claimed = time ∨ ∃ c, (c, .renewed locator holder claimed) ∈ (b, d) :: later :=
    origin.imp_right fun ⟨c, member⟩ => ⟨c, List.mem_cons_of_mem _ member⟩
  have keeps (other : ∀ time, d ≠ .claimed locator holder time) (c : Actor)
      (owes : w'.Owes c locator holder) : c = a ∨ (effect = .renewed locator holder time ∧
        ∃ claimed, (c, .claimed locator holder claimed) ∈ earlier) := by
    apply owed
    rcases reached.makers.owes_acts acts locator with ⟨_, time, rfl, only⟩ | none | ⟨_, _, same⟩
    · obtain ⟨rfl, rfl⟩ := only c holder owes
      exact (other time rfl).elim
    · exact (none c holder owes).elim
    · exact (same c holder).1 owes
  rw [present] at step
  generalize after : w'.vault.row locator = row'? at step
  cases step with
  | other apart =>
    refine .inl ⟨⟨row, claimed, after, held, stamp, origin'⟩, keeps fun time same => ?_⟩
    subst same
    exact apart rfl
  | claimed free => exact nomatch held.1.symm.trans free.1
  | @renewed row holder' time' held' =>
    obtain rfl := held'.unique held
    exact .inl ⟨⟨_, time', after, held, rfl, .inr ⟨b, List.mem_cons_self⟩⟩, keeps (by simp)⟩
  | unclaimed held' =>
    obtain rfl := held'.unique held
    rcases owed b acts.unclaiming.1 with rfl | ⟨renewal, claimed, maker⟩
    · exact .inr (.inr ⟨rfl, rfl⟩)
    · by_cases same : b = a
      · exact .inr (.inr ⟨same, rfl⟩)
      · exact .inr (.inl (.undone same renewal List.mem_cons_self maker))
  | released held' =>
    obtain rfl := held'.unique held
    exact .inr (.inl (.released List.mem_cons_self))
  | @condemned row e stamp' here unchanged =>
    subst here
    exact .inr (.inl (whole.condemned reached acts split claims))
  | removed =>
    obtain ⟨e, rfl, doomed⟩ := acts.removing
    exact ((reached.marked.gone doomed).unheld present holder held).elim

theorem Stands.begins (makers : Makers w) (acts : w.Acts s a effect w')
    (claims : effect.Claims locator holder time) :
    Stands w' a effect [] w.history locator holder time := by
  obtain ⟨_, row', _, after, held, stamp⟩ := (acts.row locator).of_claims claims
  refine ⟨⟨row', time, after, held, stamp, .inl rfl⟩, fun b owes => ?_⟩
  rcases claims with rfl | rfl
  · exact .inl (makers.claimed_acts acts b holder owes).1
  · rw [World.owes_cons acts.history rfl (by simp)] at owes
    exact .inr ⟨rfl, World.Owes.claimed owes⟩

/-- Only the ledger and the counts matter to a claim in force. -/
theorem Stands.transfer {later' : List (Actor × Effect)} (unmoved : w.Unmoved w')
    (counts : ∀ b, made (w'.own b) locator holder = made (w.own b) locator holder ∧
      undone (w'.own b) locator holder = undone (w.own b) locator holder) (grown : later ⊆ later')
    (stands : Stands w a effect later earlier locator holder time) :
    Stands w' a effect later' earlier locator holder time := by
  obtain ⟨⟨row, claimed, present, held, stamp, origin⟩, owed⟩ := stands
  refine ⟨⟨row, claimed, ?_, held, stamp, origin.imp_right fun ⟨c, member⟩ => ⟨c, grown member⟩⟩, ?_⟩
  · rwa [unmoved.row]
  · intro b owes
    apply owed
    simpa only [World.Owes, counts] using owes

def Accounted (s : Setting) (w : World) : Prop :=
  ∀ later a effect earlier locator holder time, w.history = later ++ (a, effect) :: earlier →
    effect.Claims locator holder time →
    Stands w a effect later earlier locator holder time ∨
      Ended w s.grace a effect later earlier locator holder time ∨
      (a, .unclaimed locator holder) ∈ later

theorem Accounted.acts (reached : Reachable s w) (accounted : Accounted s w)
    (acts : w.Acts s b d w') : Accounted s w' := by
  intro later a effect earlier locator holder time split claims
  rw [acts.history] at split
  cases later with
  | nil =>
    obtain ⟨same, rfl⟩ := List.cons.inj split
    cases same
    exact .inl (Stands.begins reached.makers acts claims)
  | cons first later =>
    obtain ⟨rfl, before⟩ := List.cons.inj split
    rcases accounted later a effect earlier locator holder time before claims with
      stands | ended | unclaimed
    · rcases stands.acts reached acts before claims with stands | ended | ⟨rfl, rfl⟩
      · exact .inl stands
      · exact .inr (.inl ended)
      · exact .inr (.inr List.mem_cons_self)
    · exact .inr (.inl (ended.mono acts.grows (List.subset_cons_self _ _)))
    · exact .inr (.inr (List.mem_cons_of_mem _ unclaimed))

theorem Accounted.persists {record : RecordId} {changes : List FieldChange}
    (accounted : Accounted s w) (persists : w.Persists s b record changes w') : Accounted s w' := by
  intro later a effect earlier locator holder time split claims
  rw [persists.history] at split
  cases later with
  | nil =>
    obtain ⟨same, rfl⟩ := List.cons.inj split
    cases same
    rcases claims with impossible | impossible <;> cases impossible
  | cons first later =>
    obtain ⟨rfl, before⟩ := List.cons.inj split
    have history : w.history ⊆ w'.history := by simp [persists.history]
    rcases accounted later a effect earlier locator holder time before claims with
      stands | ended | unclaimed
    · exact .inl (stands.transfer persists.unmoved (fun b => persists.counts b locator holder)
        (List.subset_cons_self _ _))
    · exact .inr (.inl (ended.mono history (List.subset_cons_self _ _)))
    · exact .inr (.inr (List.mem_cons_of_mem _ unclaimed))

theorem Reachable.accounted (reached : Reachable s w) : Accounted s w := by
  refine reached.induction ?_ ?_
  · intro w started later a effect earlier locator holder time split
    simp [started.history] at split
  · intro w w' before accounted step
    rcases step.kinds before.lawful with still | ⟨a, d, acts⟩ | ⟨a, record, changes, persists⟩
    · intro later a effect earlier locator holder time split claims
      rw [still.history] at split
      rcases accounted later a effect earlier locator holder time split claims with
        stands | ended | unclaimed
      · exact .inl (stands.transfer still.unmoved (by simp [World.own, still.history]) fun _ => id)
      · exact .inr (.inl (ended.mono (by simp [still.history]) fun _ => id))
      · exact .inr (.inr unclaimed)
    · exact accounted.acts before acts
    · exact accounted.persists persists

/-- A reservation that has returned does nothing more. -/
theorem Step.reserved {references : List Reference} {result : Except BlobError Unit}
    (step : Step s w w') (busy : w.own a ≠ [])
    (returned : w.tasks a = some ⟨.reserving references, .done result⟩ ∨ w.tasks a = none) :
    w'.own a = w.own a ∧
      (w'.tasks a = some ⟨.reserving references, .done result⟩ ∨ w'.tasks a = none) := by
  have unlike {task : Task} (running : w.tasks a = some task)
      (different : task ≠ ⟨.reserving references, .done result⟩) : False := by
    rw [running] at returned
    rcases returned with same | absent
    · exact different (Option.some.inj same)
    · cases absent
  cases step with
  | @start b w task admitted idle fresh starts =>
    have other : a ≠ b := by rintro rfl; exact busy fresh
    exact ⟨rfl, by rwa [World.tasks_assign_other _ other]⟩
  | @exchange w b stage r next reply vault running outcome =>
    have other : a ≠ b := by rintro rfl; exact unlike running (by rintro ⟨⟩)
    exact ⟨World.own_note_other _ other, by rwa [World.tasks_assign_other _ other]⟩
  | @turn task w b task' running turns =>
    have other : a ≠ b := by
      rintro rfl
      refine unlike running ?_
      rintro rfl
      cases turns with
      | write ready => cases ready
      | finish ready => cases ready
    exact ⟨rfl, by rwa [World.tasks_assign_other _ other]⟩
  | @deliver w b accepted h running =>
    have other : a ≠ b := by rintro rfl; exact unlike running (by rintro ⟨⟩)
    exact ⟨rfl, by rwa [World.tasks_assign_other _ other]⟩
  | @persist record changes repository w b plan running timely written =>
    have other : a ≠ b := by rintro rfl; exact unlike running (by rintro ⟨⟩)
    exact ⟨World.own_note_other _ other, by rwa [World.tasks_assign_other _ other]⟩
  | @stop task w b running =>
    by_cases same : a = b
    · subst same
      exact ⟨rfl, .inr (World.tasks_assign_self _)⟩
    · exact ⟨rfl, by rwa [World.tasks_assign_other _ same]⟩
  | tick later => exact ⟨rfl, returned⟩
  | edit allowed => exact ⟨rfl, returned⟩

theorem Leads.reserved {references : List Reference} {result : Except BlobError Unit}
    (leads : Leads s w w') (busy : w.own a ≠ [])
    (returned : w.tasks a = some ⟨.reserving references, .done result⟩) : w'.own a = w.own a := by
  suffices stays : w'.own a = w.own a ∧
      (w'.tasks a = some ⟨.reserving references, .done result⟩ ∨ w'.tasks a = none) from stays.1
  induction leads with
  | refl => exact ⟨rfl, .inl returned⟩
  | tail leads step ih =>
    obtain ⟨same, returned⟩ := ih
    obtain ⟨same', returned⟩ := step.reserved (by rwa [same]) returned
    exact ⟨same'.trans same, returned⟩

/-- After a reservation has succeeded, each of its claims is held until the entry is released or
condemned, or another reservation takes back the claim that was renewed here. -/
theorem granted_claim_stands {references : List Reference} {r : Reference}
    (reached : Reachable s w)
    (granted : w.tasks a = some ⟨.reserving references, .done (.ok ())⟩)
    (listed : r ∈ storedReferences references) (leads : Leads s w w') :
    ∃ effect time later earlier, effect.Claims r.handle.locator r.holder time ∧
      w'.history = later ++ (a, effect) :: earlier ∧
      ((∃ row, w'.vault.row r.handle.locator = some row ∧ row.HeldFor r.holder) ∨
        Ended w' s.grace a effect later earlier r.handle.locator r.holder time) := by
  obtain ⟨_, _, _, promised⟩ := reached.lawful a _ granted
  obtain ⟨steady, claims⟩ := promised rfl
  obtain ⟨time, effect, member, claim⟩ := claims r listed
  have own := leads.reserved (List.ne_nil_of_mem member) granted
  rw [← own] at member steady
  obtain ⟨later, earlier, split⟩ := List.append_of_mem (World.mem_own.1 member)
  refine ⟨effect, time, later, earlier, claim, split, ?_⟩
  rcases (reached.leads leads).accounted later a effect earlier _ _ time split claim with stands | ended | unclaimed
  · obtain ⟨row, _, present, held, _⟩ := stands.held
    exact .inl ⟨row, present, held⟩
  · exact .inr ended
  · exact (steady _ _ (World.mem_own.2 (by rw [split]; exact List.mem_append_left _ unclaimed))).elim

end

/-- Anyone in any interleaving, with records that change at will. -/
def Setting.contended (grace : Int) : Setting where
  grace := grace
  admits := fun _ => True
  edits := True
  conflicts := fun _ _ => False
  discards := fun _ _ => True
  persists := fun _ _ _ _ _ => True

namespace Contended

open Sample

def absent : Reference := { reference with handle := { handle with locator := [1] } }

def claim (w : World) (n : Nat) (references : List Reference) : World :=
  w.launch (.caller n) ⟨.reserving references, reserve references⟩ 3

def lapsed : World :=
  ((claim opened 0 [reference]).wait 2000000).launch (.sweep 0) ⟨.sweeping, sweep ⟨1000, 2⟩ 1⟩ 5

def renewed : World := claim (claim opened 0 [reference, absent]) 1 [reference]

def undone : World := renewed.serveAll (.caller 0) 2

theorem reached_opened : Reachable (.contended 1000) opened := Sample.reached_opened trivial

theorem leads_claim {w : World} {n : Nat} (references : List Reference)
    (idle : w.tasks (.caller n) = none) (fresh : w.own (.caller n) = []) :
    Leads (.contended 1000) w (claim w n references) :=
  World.leads_start trivial idle fresh .reserve 3

theorem leads_lapsed : Leads (.contended 1000) (claim opened 0 [reference]) lapsed := by
  have later : (claim opened 0 [reference]).vault.clock ≤ 2000000 := by decide
  exact (Relation.ReflTransGen.single (.tick later)).trans
    (World.leads_start trivial rfl rfl (.sweep (Int.le_refl _)) 5)

end Contended

/-- A claim that nobody confirms ends when a sweep condemns it. -/
theorem unconfirmed_claim_ends :
    ∃ w w', Reachable (.contended 1000) w ∧ Leads (.contended 1000) w w' ∧
      w.tasks (.caller 0) = some ⟨.reserving [Sample.reference], .done (.ok ())⟩ ∧
      ∃ effect time later earlier, w'.history = later ++ (.caller 0, effect) :: earlier ∧
        Ended w' 1000 (.caller 0) effect later earlier [0] Sample.reference.holder time := by
  refine ⟨_, _, Contended.reached_opened.leads (Contended.leads_claim [Sample.reference] rfl rfl),
    Contended.leads_lapsed, rfl, ?_⟩
  obtain ⟨effect, time, later, earlier, _, split, ⟨row, present, held⟩ | ended⟩ :=
    granted_claim_stands (a := .caller 0) (r := Sample.reference)
      (Contended.reached_opened.leads (Contended.leads_claim [Sample.reference] rfl rfl)) rfl
      (List.mem_singleton_self _) Contended.leads_lapsed
  · have condemned : Contended.lapsed.vault.row [0] =
        some ⟨"medium", 1000000, some ⟨"r"⟩, some ⟨"f"⟩, some 1000000, some 2000000⟩ := rfl
    cases condemned.symm.trans present
    exact nomatch held.2.2
  · exact ⟨effect, time, later, earlier, split, ended⟩

/-- A reservation was told that it holds the entry; another one of the same holder fails, and
leaves the entry free. -/
theorem renewed_claim_undone :
    ∃ w w', Reachable (.contended 1000) w ∧ Leads (.contended 1000) w w' ∧
      w.tasks (.caller 1) = some ⟨.reserving [Sample.reference], .done (.ok ())⟩ ∧
      w'.vault.row [0] = some (.fresh .medium 1000000) ∧
      ∀ b d, (b, d) ∈ w'.history → d ≠ .released [0] Sample.reference.holder ∧
        ∀ e time, d ≠ .condemned e time := by
  have claimed := Contended.reached_opened.leads
    (Contended.leads_claim (n := 0) [Sample.reference, Contended.absent] rfl rfl)
  refine ⟨Contended.renewed, Contended.undone,
    claimed.leads (Contended.leads_claim [Sample.reference] rfl rfl),
    World.leads_serveAll _ _ _ 2, rfl, rfl, ?_⟩
  have history : Contended.undone.history =
      [(.caller 0, .unclaimed [0] Sample.reference.holder),
        (.caller 1, .renewed [0] Sample.reference.holder 1000000), (.caller 1, .read 1000000),
        (.caller 0, .claimed [0] Sample.reference.holder 1000000), (.caller 0, .read 1000000),
        (.writer 0, .entered [0] .medium 1000000), (.writer 0, .read 1000000),
        (.writer 0, .issued [0])] := rfl
  intro b d member
  rw [history] at member
  simp only [List.mem_cons, List.not_mem_nil, Prod.mk.injEq] at member
  rcases member with ⟨_, rfl⟩ | ⟨_, rfl⟩ | ⟨_, rfl⟩ | ⟨_, rfl⟩ | ⟨_, rfl⟩ | ⟨_, rfl⟩ | ⟨_, rfl⟩ |
    ⟨_, rfl⟩ | ⟨⟨⟩⟩ <;> simp

end BlobLifecycle
