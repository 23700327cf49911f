import BlobLifecycle.Proofs.Storing

/-! Programs that run whole, with nothing between their requests: what they ensure of the
result, of their effects and of the state after them. -/
namespace BlobLifecycle

/-- What a store holds under a locator, published or not. -/
inductive StoredObject where
  | row (blob : MediumBlob)
  | directory (d : ObjectDirectory)
  deriving DecidableEq, Repr

def StoredObject.content? : StoredObject → Option Bytes
  | row blob => some blob.content
  | directory d => d.content

namespace Vault

/-- The object of this tier and locator; a partial directory is one. -/
def object? (v : Vault) (tier : Tier) (locator : Locator) : Option StoredObject :=
  match tier with
  | .inline => none
  | .medium => (v.medium.find? locator).map .row
  | .large =>
    match v.large.object? locator with
    | some (.directory d) => some (.directory d)
    | _ => none

def Holds (v : Vault) (tier : Tier) (locator : Locator) : Prop := v.object? tier locator ≠ none

variable {v : Vault} {tier : Tier} {locator : Locator}

theorem object?_large {o : StoredObject} : v.object? .large locator = some o ↔
    ∃ d, o = .directory d ∧ v.large.object? locator = some (.directory d) := by
  unfold object?
  dsimp only
  split
  · next d present => simp [present, eq_comm]
  · next apart =>
    simp only [reduceCtorEq, false_iff, not_exists, not_and]
    exact fun d _ present => apart d present

/-- What is read is what the object holds. -/
theorem read_eq_ok {content : Bytes} (sound : v.large.Sound) (stored : tier.isStored = true) :
    v.read tier locator = .ok content ↔
      ∃ o, v.object? tier locator = some o ∧ o.content? = some content := by
  cases tier with
  | inline => cases stored
  | medium =>
    simp only [read, MediumStore.read_eq_ok, object?, Option.map_eq_some_iff]
    constructor
    · rintro ⟨blob, present, rfl⟩
      exact ⟨_, ⟨blob, present, rfl⟩, rfl⟩
    · rintro ⟨_, ⟨blob, present, rfl⟩, same⟩
      exact ⟨blob, present, Option.some.inj same⟩
  | large =>
    simp only [read, LargeStore.read_eq_ok, object?_large]
    constructor
    · rintro ⟨-, d, present, published⟩
      exact ⟨_, ⟨d, rfl, present⟩, published⟩
    · rintro ⟨_, ⟨d, rfl, present⟩, published⟩
      exact ⟨sound.named present, d, present, published⟩

theorem delete_object (v : Vault) (sound : v.large.Sound) (tier : Tier) (locator : Locator) :
    (v.delete tier locator).2.object? tier locator = none := by
  cases tier with
  | inline => rfl
  | medium =>
    show ((v.medium.delete locator).2.find? locator).map _ = none
    unfold MediumStore.delete
    split
    · rw [LocatorMap.find?_erase, if_pos rfl]
      rfl
    · next absent =>
      have gone : v.medium.find? locator = none := by simpa [LocatorMap.contains] using absent
      simp [gone]
  | large =>
    refine Option.eq_none_iff_forall_ne_some.2 fun o present => ?_
    obtain ⟨d, -, present⟩ := object?_large.1 present
    simp only [delete, LargeStore.delete] at present
    cases named : v.large.directoryOf locator with
    | error e =>
      simp only [named] at present
      have name := sound.named present
      unfold LargeStore.directoryOf at named
      cases unnamed : Uuid.text? locator with
      | none => simp [unnamed] at name
      | some text => simp [unnamed] at named
    | ok path =>
      simp only [named] at present
      split at present
      · next d' there =>
        have unblocked := LargeStore.unblocked_of_directory there
        simp [LargeStore.object?, unblocked, LocatorMap.find?_erase] at present
      · next there => cases there.symm.trans present
      · next there => cases there.symm.trans present

end Vault

def Request.place? : Request → Option (Tier × Locator)
  | .append sink _ | .commit sink => some (sink.tier, sink.locator)
  | .delete tier locator => some (tier, locator)
  | _ => none

namespace LargeStore

variable {store store' : LargeStore} {key locator : Locator}

theorem put_other (object : LargeObject) (apart : locator ≠ key) :
    (store.put key object).object? locator = store.object? locator := by
  simp [put, object?, LocatorMap.find?_insert, apart]

theorem beginContent_other (begun : store.beginContent key = .ok store') (apart : locator ≠ key) :
    store'.object? locator = store.object? locator := by
  unfold beginContent directoryOf at begun
  cases name : Uuid.text? key with
  | none => simp [name, bind, Except.bind] at begun
  | some name' =>
    simp only [name, bind, Except.bind] at begun
    split at begun
    · cases begun
    · cases begun
      exact put_other _ apart

theorem publish_other (store : LargeStore) (metadata : Metadata) (content : Bytes)
    (apart : locator ≠ key) :
    (store.publish key metadata content).2.object? locator = store.object? locator := by
  unfold publish
  split
  · dsimp only
    split
    · exact put_other _ apart
    · exact put_other _ apart
  · rfl

theorem delete_other (store : LargeStore) (apart : locator ≠ key) :
    (store.delete key).2.object? locator = store.object? locator := by
  unfold delete
  split
  · rfl
  · split
    · simp [object?, LocatorMap.find?_erase, apart]
    · rfl
    · rfl

end LargeStore

namespace Vault

variable {v v' : Vault} {locator : Locator} {sink : Sink}

/-- A file is made in the bulk store, at the sink's own locator. -/
theorem openFile_other {sink' : Sink} (opened : v.openFile sink = .ok (sink', v')) :
    v'.medium = v.medium ∧ ∀ locator, (sink.tier, sink.locator) ≠ (.large, locator) →
      v'.large.object? locator = v.large.object? locator := by
  unfold openFile at opened
  split at opened
  · next bulk =>
    cases begun : v.large.beginContent sink.locator with
    | error e => simp [begun] at opened
    | ok large =>
      simp only [begun, Except.ok.injEq, Prod.mk.injEq] at opened
      rw [← opened.2]
      refine ⟨rfl, fun locator aside => LargeStore.beginContent_other begun fun same => aside ?_⟩
      rw [bulk.1, same]
  · simp only [Except.ok.injEq, Prod.mk.injEq] at opened
    rw [← opened.2]
    exact ⟨rfl, fun _ _ => rfl⟩

theorem append_other (chunk : Bytes) : (v.append sink chunk).2.medium = v.medium ∧
    ∀ locator, (sink.tier, sink.locator) ≠ (.large, locator) →
      (v.append sink chunk).2.large.object? locator = v.large.object? locator := by
  unfold append
  cases opened : v.openFile sink with
  | error e => exact ⟨rfl, fun _ _ => rfl⟩
  | ok result => exact openFile_other opened

theorem commit_medium_other (aside : (sink.tier, sink.locator) ≠ (.medium, locator)) :
    (v.commit sink).2.medium.find? locator = v.medium.find? locator := by
  unfold commit
  cases sort : sink.tier with
  | inline => rfl
  | medium =>
    dsimp only
    split
    · next medium inserted =>
      have apart : locator ≠ sink.locator := fun same => aside (by rw [sort, same])
      unfold MediumStore.insertNew at inserted
      split at inserted
      · cases inserted
      · cases inserted
        simp [LocatorMap.find?_insert, apart]
    · rfl
  | large =>
    dsimp only
    cases opened : v.openFile sink with
    | error e => rfl
    | ok result => exact congrArg (·.find? locator) (openFile_other opened).1

theorem commit_large_other (aside : (sink.tier, sink.locator) ≠ (.large, locator)) :
    (v.commit sink).2.large.object? locator = v.large.object? locator := by
  unfold commit
  cases sort : sink.tier with
  | inline => rfl
  | medium =>
    dsimp only
    split <;> rfl
  | large =>
    dsimp only
    cases opened : v.openFile sink with
    | error e => rfl
    | ok result =>
      have apart : locator ≠ result.1.locator := by
        rw [(openFile_sink opened).2.1]
        exact fun same => aside (by rw [sort, same])
      exact (LargeStore.publish_other _ _ _ apart).trans ((openFile_other opened).2 _ aside)

theorem delete_medium_other {tier : Tier} {locator' : Locator}
    (aside : (tier, locator') ≠ (.medium, locator)) :
    (v.delete tier locator').2.medium.find? locator = v.medium.find? locator := by
  unfold delete
  cases tier with
  | medium =>
    have apart : locator ≠ locator' := fun same => aside (by rw [same])
    simp only [MediumStore.delete]
    split
    · rw [LocatorMap.find?_erase, if_neg apart]
    · rfl
  | _ => rfl

theorem delete_large_other {tier : Tier} {locator' : Locator}
    (aside : (tier, locator') ≠ (.large, locator)) :
    (v.delete tier locator').2.large.object? locator = v.large.object? locator := by
  unfold delete
  cases tier with
  | large => exact LargeStore.delete_other _ fun same => aside (by rw [same])
  | _ => rfl

end Vault

namespace Request

variable {v : Vault} {r : Request} {tier : Tier} {locator : Locator}

theorem apart_of_place {place place' : Tier × Locator} (here : r.place? = some place)
    (aside : r.place? ≠ some place') : place ≠ place' :=
  fun same => aside (by rw [here, same])

/-- A request leaves every row of the table store but its own. -/
theorem medium_other (aside : r.place? ≠ some (.medium, locator)) :
    (v.answer r).2.medium.find? locator = v.medium.find? locator := by
  cases r with
  | append sink chunk =>
    exact congrArg (·.find? locator) (Vault.append_other chunk).1
  | commit sink => exact Vault.commit_medium_other (apart_of_place rfl aside)
  | delete tier' locator' => exact Vault.delete_medium_other (apart_of_place rfl aside)
  | incubate locator' tier' time =>
    simp only [Vault.answer]
    split <;> rfl
  | openWrite tier' mediaType => cases tier' <;> rfl
  | _ => rfl

theorem large_other (aside : r.place? ≠ some (.large, locator)) :
    (v.answer r).2.large.object? locator = v.large.object? locator := by
  cases r with
  | append sink chunk => exact (Vault.append_other chunk).2 _ (apart_of_place rfl aside)
  | commit sink => exact Vault.commit_large_other (apart_of_place rfl aside)
  | delete tier' locator' => exact Vault.delete_large_other (apart_of_place rfl aside)
  | incubate locator' tier' time =>
    simp only [Vault.answer]
    split <;> rfl
  | openWrite tier' mediaType => cases tier' <;> rfl
  | _ => rfl

theorem object_other (aside : r.place? ≠ some (tier, locator)) :
    (v.answer r).2.object? tier locator = v.object? tier locator := by
  cases tier with
  | inline => rfl
  | medium => simp only [Vault.object?, medium_other aside]
  | large => simp only [Vault.object?, large_other aside]

/-- An answer without an effect leaves all rows. -/
theorem row_silent {reply : r.Reply} (answer : (v.answer r).1 = reply)
    (silent : r.effect? reply = none) : (v.answer r).2.row = v.row := by
  have leaves := r.answer_leaves v
  rw [answer, silent] at leaves
  unfold Vault.row
  rw [leaves.ledger]

end Request

namespace Program

variable {v : Vault} {own : List Effect}

def effects : Program α → Vault → List Effect → List Effect
  | done _, _, own => own
  | call r next, v, own =>
    (next (v.answer r).1).effects (v.answer r).2 (r.recall (v.answer r).1 own)

/-- Run whole after these effects the program ends so. -/
def Ensures (post : α → List Effect → Vault → Prop) : Program α → Vault → List Effect → Prop
  | done a, v, own => post a own v
  | call r next, v, own =>
    (next (v.answer r).1).Ensures post (v.answer r).2 (r.recall (v.answer r).1 own)

theorem ensures_iff {p : Program α} {post : α → List Effect → Vault → Prop} :
    p.Ensures post v own ↔ post (v.run p).1 (p.effects v own) (v.run p).2 := by
  induction p generalizing v own with
  | done a => exact Iff.rfl
  | call r next ih => exact ih (v.answer r).1

/-- The first request is answered so. -/
theorem Ensures.answered {r : Request} {next : r.Reply → Program α} {reply : r.Reply}
    {post : α → List Effect → Vault → Prop} (answer : (v.answer r).1 = reply)
    (rest : (next reply).Ensures post (v.answer r).2 (r.recall reply own)) :
    (Program.call r next).Ensures post v own := by
  subst answer
  exact rest

/-- The first request is answered so and leads to this state. -/
theorem Ensures.leading {r : Request} {next : r.Reply → Program α} {reply : r.Reply} {v' : Vault}
    {post : α → List Effect → Vault → Prop} (answer : v.answer r = (reply, v'))
    (rest : (next reply).Ensures post v' (r.recall reply own)) :
    (Program.call r next).Ensures post v own := by
  refine .answered (congrArg Prod.fst answer) ?_
  rw [answer]
  exact rest

theorem Ensures.bind {p : Program α} {f : α → Program β} {post : α → List Effect → Vault → Prop}
    {goal : β → List Effect → Vault → Prop} (first : p.Ensures post v own)
    (rest : ∀ a own v, post a own v → (f a).Ensures goal v own) :
    (p >>= f).Ensures goal v own := by
  induction p generalizing v own with
  | done a => exact rest a own v first
  | call r next ih => exact ih (v.answer r).1 first

theorem Ensures.mono {p : Program α} {post goal : α → List Effect → Vault → Prop}
    (ensures : p.Ensures post v own) (implies : ∀ a own v, post a own v → goal a own v) :
    p.Ensures goal v own :=
  ensures_iff.2 (implies _ _ _ (ensures_iff.1 ensures))

theorem Ensures.and {p : Program α} {post post' : α → List Effect → Vault → Prop}
    (first : p.Ensures post v own) (second : p.Ensures post' v own) :
    p.Ensures (fun a own v => post a own v ∧ post' a own v) v own :=
  ensures_iff.2 ⟨ensures_iff.1 first, ensures_iff.1 second⟩

/-- What allowed effects keep holds after a whole run, and the promise is kept. -/
theorem Obeys.ensures {p : Program α} {rule : Rule} {promise : List Effect → α → Prop}
    (obeys : p.Obeys rule promise own) (kept : List Effect → Vault → Prop) (now : kept own v)
    (rests : ∀ own v v', kept own v → v.Rests v' → kept own v')
    (keeps : ∀ own v v' d, kept own v → rule own d → d.Happens v v' → kept (d :: own) v') :
    p.Ensures (fun a own v => kept own v ∧ promise own a) v own := by
  induction p generalizing v own with
  | done a => exact ⟨now, obeys⟩
  | call r next ih =>
    obtain ⟨allowed, continues⟩ := obeys _ (r.answer_credible v)
    refine ih _ continues ?_
    have leaves := r.answer_leaves v
    cases effect : r.effect? (v.answer r).1 with
    | none =>
      rw [effect] at leaves
      simpa [Request.recall, effect] using rests own v _ now leaves
    | some d =>
      rw [effect] at leaves
      simpa [Request.recall, effect] using keeps own v _ d now (allowed d effect) leaves

/-- All its requests are of this kind, whatever it is answered. -/
def Asks (kind : Request → Prop) : Program α → Prop
  | done _ => True
  | call r next => kind r ∧ ∀ reply, r.Credible reply → (next reply).Asks kind

theorem Asks.bind {kind : Request → Prop} {p : Program α} {f : α → Program β} (first : p.Asks kind)
    (rest : ∀ a, (f a).Asks kind) : (p >>= f).Asks kind := by
  induction p with
  | done a => exact rest a
  | call r next ih => exact ⟨first.1, fun reply credible => ih reply (first.2 reply credible)⟩

theorem Asks.mono {kind kind' : Request → Prop} {p : Program α} (asks : p.Asks kind)
    (implies : ∀ r, kind r → kind' r) : p.Asks kind' := by
  induction p with
  | done a => trivial
  | call r next ih =>
    exact ⟨implies r asks.1, fun reply credible => ih reply (asks.2 reply credible)⟩

/-- What every answer keeps holds after a whole run. -/
theorem ensures_kept (p : Program α) (kept : Vault → Prop) (now : kept v)
    (keeps : ∀ v r, kept v → kept (v.answer r).2) : p.Ensures (fun _ _ v => kept v) v own := by
  induction p generalizing v own with
  | done a => exact now
  | call r next ih => exact ih _ (keeps v r now)

theorem ensures_sound (p : Program α) (sound : v.large.Sound) :
    p.Ensures (fun _ _ v => v.large.Sound) v own :=
  p.ensures_kept (·.large.Sound) sound fun v r => (r.answer_stores v).sound

theorem ensures_grown (p : Program α) (v : Vault) (own : List Effect) :
    p.Ensures (fun _ own' _ => own ⊆ own') v own := by
  induction p generalizing v own with
  | done a => exact List.Subset.refl own
  | call r next ih =>
    exact (ih _ _ _).mono fun _ _ _ grown d member => grown (List.mem_append_right _ member)

theorem Asks.ensures {kind : Request → Prop} {p : Program α} (asks : p.Asks kind)
    (kept : Vault → Prop) (now : kept v)
    (keeps : ∀ v r, kind r → kept v → kept (v.answer r).2) :
    p.Ensures (fun _ _ v => kept v) v own := by
  induction p generalizing v own with
  | done a => exact now
  | call r next ih => exact ih _ (asks.2 _ (r.answer_credible v)) (keeps v r asks.1 now)

def Avoids (locator : Locator) (r : Request) : Prop :=
  r.row? ≠ some locator ∧ ∀ tier, r.place? ≠ some (tier, locator)

end Program

namespace Operation

variable {v : Vault} {own : List Effect}

theorem ensures_bind {x : Operation α} {f : α → Operation β}
    {post : Except BlobError α → List Effect → Vault → Prop}
    {goal : Except BlobError β → List Effect → Vault → Prop} (first : x.run.Ensures post v own)
    (fails : ∀ e own v, post (.error e) own v → goal (.error e) own v)
    (rest : ∀ a own v, post (.ok a) own v → (f a).run.Ensures goal v own) :
    (x >>= f).run.Ensures goal v own := by
  rw [ExceptT.run_bind]
  apply first.bind
  intro result own v reached
  cases result with
  | ok a => exact rest a own v reached
  | error e => exact fails e own v reached

theorem asks_bind {kind : Request → Prop} {x : Operation α} {f : α → Operation β}
    (first : x.run.Asks kind) (rest : ∀ a, (f a).run.Asks kind) : (x >>= f).run.Asks kind := by
  rw [ExceptT.run_bind]
  apply first.bind
  intro result
  cases result with
  | ok a => exact rest a
  | error e => trivial

end Operation

end BlobLifecycle
