import BlobLifecycle.Proofs.Tracking

/-! Published content. It is read back as it was written until someone deletes it. -/
namespace BlobLifecycle

namespace LargeStore

variable {store store' : LargeStore} {locator key : Locator} {content : Bytes}

/-- Objects stand below identifiers only. -/
def Sound (store : LargeStore) : Prop :=
  ∀ locator object, store.objects.find? locator = some object → (Uuid.text? locator).isSome = true

theorem read_eq_ok : store.read locator = .ok content ↔
    (Uuid.text? locator).isSome = true ∧
      ∃ d, store.object? locator = some (.directory d) ∧ d.content = some content := by
  unfold read directoryOf
  cases Uuid.text? locator with
  | none => simp [bind, Except.bind]
  | some name =>
    cases store.object? locator with
    | none => simp [bind, Except.bind]
    | some object =>
      cases object with
      | plainFile => simp [bind, Except.bind]
      | directory d =>
        cases published : d.content <;> simp [bind, Except.bind, published]

theorem object?_put (object : LargeObject) (unblocked : store.isBlocked = false) :
    (store.put key object).object? locator =
      if locator = key then some object else store.object? locator := by
  simp [put, object?, unblocked, LocatorMap.find?_insert]

theorem Sound.put (sound : store.Sound) (object : LargeObject)
    (named : (Uuid.text? key).isSome = true) : (store.put key object).Sound := by
  intro locator object' present
  rw [LargeStore.put, LocatorMap.find?_insert] at present
  split at present
  · next same => rw [same]; exact named
  · exact sound locator object' present

theorem unblocked_of_directory {d : ObjectDirectory}
    (present : store.object? locator = some (.directory d)) : store.isBlocked = false := by
  unfold object? at present
  split at present
  · cases present
  · next open_ => exact Bool.eq_false_iff.2 open_

/-- What is read after a directory was written. -/
theorem read_put {d : ObjectDirectory} (unblocked : store.isBlocked = false)
    (named : (Uuid.text? key).isSome = true) :
    (store.put key (.directory d)).read locator = .ok content ↔
      if locator = key then d.content = some content else store.read locator = .ok content := by
  rw [read_eq_ok, object?_put _ unblocked]
  by_cases here : locator = key
  · subst here
    simp [named]
  · simp only [if_neg here]
    exact read_eq_ok.symm

/-- A directory whose content stays is read as before. -/
theorem read_put_same {d : ObjectDirectory} (unblocked : store.isBlocked = false)
    (named : (Uuid.text? key).isSome = true)
    (same : d.content = (LargeObject.toDirectory (store.object? key)).content) :
    (store.put key (.directory d)).read locator = .ok content ↔ store.read locator = .ok content := by
  rw [read_put unblocked named]
  by_cases here : locator = key
  · subst here
    rw [if_pos rfl, same, read_eq_ok]
    unfold LargeObject.toDirectory
    split
    · next d present => simp [present, named]
    · next absent =>
      simp only [reduceCtorEq, named, true_and, false_iff]
      rintro ⟨d, present, _⟩
      exact absent d present
  · rw [if_neg here]

theorem beginContent_keeps (begun : store.beginContent key = .ok store') :
    (store.Sound → store'.Sound) ∧ ∀ locator content,
      store'.read locator = .ok content ↔ store.read locator = .ok content := by
  unfold beginContent directoryOf at begun
  cases name : Uuid.text? key with
  | none => simp [name, bind, Except.bind] at begun
  | some name' =>
    have named : (Uuid.text? key).isSome = true := by simp [name]
    simp only [name, bind, Except.bind] at begun
    split at begun
    · cases begun
    · next apart =>
      cases begun
      have unblocked : store.isBlocked = false := by
        cases blocked : store.isBlocked with
        | false => rfl
        | true => exact (apart (by simp [object?, blocked])).elim
      exact ⟨fun sound => sound.put _ named, fun locator content => read_put_same unblocked named rfl⟩

theorem Sound.named {d : ObjectDirectory} (sound : store.Sound)
    (present : store.object? locator = some (.directory d)) : (Uuid.text? locator).isSome = true := by
  have unblocked := unblocked_of_directory present
  simp only [object?, unblocked, Bool.false_eq_true, if_false] at present
  exact sound locator _ present

theorem publish_keeps (sound : store.Sound) (key : Locator) (metadata : Metadata) (content : Bytes) :
    (store.publish key metadata content).2.Sound ∧
      ((store.publish key metadata content).1 = .ok () →
        (store.publish key metadata content).2.read key = .ok content) ∧
      ∀ locator content', ((store.publish key metadata content).1 = .ok () → locator ≠ key) →
        ((store.publish key metadata content).2.read locator = .ok content' ↔
          store.read locator = .ok content') := by
  unfold publish
  split
  · next d present =>
    have unblocked := unblocked_of_directory present
    have named := sound.named present
    dsimp only
    split
    · refine ⟨sound.put _ named, fun _ => ?_, fun locator content' apart => ?_⟩
      · rw [read_put unblocked named, if_pos rfl]
      · rw [read_put unblocked named, if_neg (apart rfl)]
    · refine ⟨sound.put _ named, (fun done => nomatch done), fun locator content' _ => ?_⟩
      exact read_put_same unblocked named (by rw [present]; rfl)
  · exact ⟨sound, (fun done => nomatch done), fun _ _ _ => Iff.rfl⟩

theorem delete_keeps (store : LargeStore) (key : Locator) :
    (store.Sound → (store.delete key).2.Sound) ∧ ∀ locator content,
      (store.delete key).2.read locator = .ok content ↔
        store.read locator = .ok content ∧ ¬((store.delete key).1 = .ok () ∧ locator = key) := by
  unfold delete
  split
  · exact ⟨id, fun locator content => by simp⟩
  · split
    · next d present =>
      have unblocked := unblocked_of_directory present
      constructor
      · intro sound locator object present'
        rw [LocatorMap.find?_erase] at present'
        split at present'
        · cases present'
        · exact sound locator object present'
      · intro locator content
        rw [read_eq_ok, read_eq_ok]
        by_cases here : locator = key
        · simp [object?, unblocked, LocatorMap.find?_erase, here]
        · simp [object?, unblocked, LocatorMap.find?_erase, here]
    · exact ⟨id, fun locator content => by simp⟩
    · exact ⟨id, fun locator content => by simp⟩

end LargeStore

namespace MediumStore

theorem read_eq_ok {store : MediumStore} {locator : Locator} {content : Bytes} :
    store.read locator = .ok content ↔
      ∃ blob, store.find? locator = some blob ∧ blob.content = content := by
  unfold read
  cases store.find? locator <;> simp

theorem insertNew_read {store store' : MediumStore} {key : Locator} {blob : MediumBlob}
    (inserted : store.insertNew key blob = .ok store') (locator : Locator) (content : Bytes) :
    store'.read locator = .ok content ↔
      if locator = key then blob.content = content else store.read locator = .ok content := by
  unfold insertNew at inserted
  split at inserted
  · cases inserted
  · cases inserted
    rw [read_eq_ok, LocatorMap.find?_insert]
    by_cases here : locator = key
    · simp [here]
    · simp only [if_neg here]
      exact read_eq_ok.symm

theorem delete_read (store : MediumStore) (key locator : Locator) (content : Bytes) :
    (store.delete key).2.read locator = .ok content ↔
      store.read locator = .ok content ∧ ¬((store.delete key).1 = .ok () ∧ locator = key) := by
  unfold delete
  split
  · rw [read_eq_ok, read_eq_ok, LocatorMap.find?_erase]
    by_cases here : locator = key <;> simp [here]
  · simp

end MediumStore

/-- What an effect does to the stores: one that is published is read from then on, all others as
before unless they were deleted. -/
structure Vault.Stores (v : Vault) (d? : Option Effect) (v' : Vault) : Prop where
  sound : v.large.Sound → v'.large.Sound
  published : ∀ tier locator content, d? = some (.published tier locator content) →
    tier.isStored = true → v.large.Sound → v'.read tier locator = .ok content
  kept : ∀ tier locator content, tier.isStored = true → v.large.Sound →
    (∀ content, d? ≠ some (.published tier locator content)) →
    (v'.read tier locator = .ok content ↔
      v.read tier locator = .ok content ∧ d? ≠ some (.deleted tier locator))

namespace Vault

variable {v v' : Vault} {d? : Option Effect}

/-- Whatever leaves both stores as they were publishes and deletes nothing. -/
theorem Stores.rest (medium : v'.medium = v.medium) (large : v'.large = v.large)
    (silent : ∀ tier locator, tier.isStored = true → d? ≠ some (.deleted tier locator) ∧
      ∀ content, d? ≠ some (.published tier locator content)) : v.Stores d? v' where
  sound := by rw [large]; exact id
  published := fun tier locator content same stored =>
    ((silent tier locator stored).2 content same).elim
  kept := by
    intro tier locator content stored _ _
    simp only [(silent tier locator stored).1, ne_eq, not_false_eq_true, and_true]
    cases tier <;> simp only [read, medium, large]

/-- A file that is opened changes no published content. -/
theorem openFile_stores {sink sink' : Sink} (opened : v.openFile sink = .ok (sink', v')) :
    v.Stores none v' := by
  unfold openFile at opened
  split at opened
  · cases begun : v.large.beginContent sink.locator with
    | error e => simp [begun] at opened
    | ok large =>
      obtain ⟨sound, same⟩ := LargeStore.beginContent_keeps begun
      simp only [begun, Except.ok.injEq, Prod.mk.injEq] at opened
      rw [← opened.2]
      refine ⟨sound, (fun _ _ _ impossible => nomatch impossible), ?_⟩
      intro tier locator content _ _ _
      cases tier with
      | large => simpa [read] using same locator content
      | _ => simp [read]
  · simp only [Except.ok.injEq, Prod.mk.injEq] at opened
    rw [← opened.2]
    exact .rest rfl rfl (by simp)

theorem append_stores (v : Vault) (sink : Sink) (chunk : Bytes) :
    v.Stores none (v.append sink chunk).2 := by
  unfold append
  cases opened : v.openFile sink with
  | error e => exact .rest rfl rfl (by simp)
  | ok result => exact openFile_stores opened

theorem commit_medium_stores {v : Vault} {sink : Sink} (sort : sink.tier = .medium) :
    v.Stores ((Request.commit sink).effect? (v.commit sink).1) (v.commit sink).2 := by
  unfold commit
  simp only [sort]
  split
  · next medium inserted =>
    have reads := MediumStore.insertNew_read inserted
    refine ⟨id, ?_, ?_⟩
    · intro tier locator content same _ _
      simp only [Request.effect?, sort, Option.some.injEq, Effect.published.injEq] at same
      obtain ⟨rfl, rfl, rfl⟩ := same
      exact (reads _ _).2 (by rw [if_pos rfl])
    · intro tier locator content _ _ unpublished
      cases tier with
      | medium =>
        have apart : locator ≠ sink.locator := by
          rintro rfl
          exact unpublished sink.content (by simp [Request.effect?, sort])
        simpa [read, Request.effect?, apart] using reads locator content
      | _ => simp [read, Request.effect?]
  · exact .rest rfl rfl (by simp [Request.effect?])

theorem commit_large_stores {v : Vault} {sink : Sink} (sort : sink.tier = .large) :
    v.Stores ((Request.commit sink).effect? (v.commit sink).1) (v.commit sink).2 := by
  unfold commit
  simp only [sort]
  cases opened : v.openFile sink with
  | error e => exact .rest rfl rfl (by simp [Request.effect?])
  | ok result =>
    obtain ⟨sink', v'⟩ := result
    have begun := openFile_stores opened
    obtain ⟨_, sameLocator, sameContent⟩ := openFile_sink opened
    have keeps (sound : v.large.Sound) := LargeStore.publish_keeps (begun.sound sound) sink'.locator
      ⟨sink'.mediaType, sink'.content.length, sink'.createdAt⟩ sink'.content
    dsimp only
    generalize v'.large.publish sink'.locator _ sink'.content = published at keeps
    obtain ⟨result, large⟩ := published
    refine ⟨fun sound => (keeps sound).1, ?_, ?_⟩
    · intro tier locator content same _ sound
      cases result with
      | error e => cases same
      | ok _ =>
        cases same
        rw [sort, ← sameContent]
        exact (keeps sound).2.1 rfl
    · intro tier locator content stored sound unpublished
      have kept := begun.kept tier locator content stored sound (by simp)
      have undeleted : (Request.commit sink).effect? (result.map fun _ => sink'.locator) ≠
          some (.deleted tier locator) := by
        cases result <;> simp [Request.effect?, Except.map]
      simp only [undeleted, ne_eq, reduceCtorEq, not_false_eq_true, and_true] at kept ⊢
      rw [← kept]
      cases tier with
      | large =>
        refine (keeps sound).2.2 locator content ?_
        rintro rfl rfl
        exact unpublished sink.content (by simp [Request.effect?, Except.map, sort])
      | _ => exact Iff.rfl

theorem commit_stores (v : Vault) (sink : Sink) :
    v.Stores ((Request.commit sink).effect? (v.commit sink).1) (v.commit sink).2 := by
  cases sort : sink.tier with
  | inline =>
    unfold commit
    simp only [sort]
    refine .rest rfl rfl fun tier locator stored => ⟨by simp [Request.effect?], fun content => ?_⟩
    simp only [Request.effect?, sort, ne_eq, Option.some.injEq, Effect.published.injEq, not_and]
    rintro rfl
    cases stored
  | medium => exact commit_medium_stores sort
  | large => exact commit_large_stores sort

theorem delete_stores (v : Vault) (tier : Tier) (locator : Locator) :
    v.Stores ((Request.delete tier locator).effect? (v.delete tier locator).1)
      (v.delete tier locator).2 := by
  have silent (result : Except BlobError Unit) (tier' : Tier) (locator' : Locator) (content : Bytes) :
      (Request.delete tier locator).effect? result ≠ some (.published tier' locator' content) := by
    cases result <;> simp [Request.effect?]
  have deletes (result : Except BlobError Unit) (tier' : Tier) (locator' : Locator) :
      (Request.delete tier locator).effect? result = some (.deleted tier' locator') ↔
        result = .ok () ∧ tier = tier' ∧ locator' = locator := by
    cases result <;> simp [Request.effect?, eq_comm]
  unfold delete
  cases tier with
  | inline =>
    refine .rest rfl rfl fun tier locator stored => ⟨?_, silent _ _ _⟩
    rw [ne_eq, deletes]
    rintro ⟨_, rfl, _⟩
    cases stored
  | medium =>
    refine ⟨id, fun _ _ _ same => (silent _ _ _ _ same).elim, ?_⟩
    intro tier locator' content _ _ _
    cases tier with
    | medium => simpa [deletes, read] using v.medium.delete_read locator locator' content
    | _ => simp [deletes, read]
  | large =>
    obtain ⟨sound, reads⟩ := v.large.delete_keeps locator
    refine ⟨sound, fun _ _ _ same => (silent _ _ _ _ same).elim, ?_⟩
    intro tier locator' content _ _ _
    cases tier with
    | large => simpa [deletes, read] using reads locator' content
    | _ => simp [deletes, read]

end Vault

namespace Request

/-- Nothing is published but by a commit, and nothing deleted but by a deletion. -/
theorem effect?_elsewhere {r : Request} (uncommitted : ∀ sink, r ≠ .commit sink)
    (undeleted : ∀ tier locator, r ≠ .delete tier locator) (reply : r.Reply) (tier : Tier)
    (locator : Locator) : r.effect? reply ≠ some (.deleted tier locator) ∧
      ∀ content, r.effect? reply ≠ some (.published tier locator content) := by
  cases r <;> simp only [effect?] <;> first
    | (split <;> simp; done)
    | exact (uncommitted _ rfl).elim
    | exact (undeleted _ _ rfl).elim
    | simp

theorem answer_stores (v : Vault) (r : Request) : v.Stores (r.effect? (v.answer r).1) (v.answer r).2 := by
  have silent (uncommitted : ∀ sink, r ≠ .commit sink)
      (undeleted : ∀ tier locator, r ≠ .delete tier locator) (tier : Tier) (locator : Locator)
      (_ : tier.isStored = true) : r.effect? (v.answer r).1 ≠ some (.deleted tier locator) ∧
        ∀ content, r.effect? (v.answer r).1 ≠ some (.published tier locator content) :=
    effect?_elsewhere uncommitted undeleted _ tier locator
  cases r with
  | append sink chunk => exact v.append_stores sink chunk
  | commit sink => exact v.commit_stores sink
  | delete tier locator => exact v.delete_stores tier locator
  | incubate locator tier time =>
    refine .rest ?_ ?_ (silent (by simp) (by simp)) <;> simp only [Vault.answer] <;> split <;> rfl
  | openWrite tier mediaType =>
    refine .rest ?_ ?_ (silent (by simp) (by simp)) <;> cases tier <;> rfl
  | _ => exact .rest rfl rfl (silent (by simp) (by simp))

theorem Outcome.stores {v v' : Vault} {r : Request} {reply : r.Reply} (outcome : r.Outcome v reply v') :
    v.Stores (r.effect? reply) v' := by
  cases outcome with
  | served => exact answer_stores v r
  | failed failure =>
    rw [effect?_of_failure failure]
    exact .rest rfl rfl (by simp)

end Request

/-- Every step does to the stores what its effect does, if it is one. -/
theorem Step.stores {s : Setting} {w w' : World} (step : Step s w w') :
    ∃ a d?, w'.history = (d?.toList.map fun d => (a, d)) ++ w.history ∧
      w.vault.Stores d? w'.vault := by
  have quiet (w w' : World) (history : w'.history = w.history)
      (medium : w'.vault.medium = w.vault.medium) (large : w'.vault.large = w.vault.large) :
      ∃ a d?, w'.history = (d?.toList.map fun d => (a, d)) ++ w.history ∧
        w.vault.Stores d? w'.vault :=
    ⟨.sweep 0, none, by simp [history], .rest medium large (by simp)⟩
  cases step with
  | exchange running outcome => exact ⟨_, _, rfl, outcome.stores⟩
  | persist running timely written => exact ⟨_, some _, rfl, .rest rfl rfl (by simp)⟩
  | _ => exact quiet _ _ rfl rfl rfl

structure Shelved (w : World) : Prop where
  sound : w.vault.large.Sound
  publisher : ∀ a tier locator content, (a, .published tier locator content) ∈ w.history →
    tier.isStored = true → Entered (w.own a) tier locator
  reads : ∀ later a tier locator content earlier,
    w.history = later ++ (a, .published tier locator content) :: earlier → tier.isStored = true →
    ∀ content', w.vault.read tier locator = .ok content' ↔
      content = content' ∧ ∀ b, (b, .deleted tier locator) ∉ later

theorem World.Acts.publishing {s : Setting} {w w' : World} {a : Actor} {tier : Tier}
    {locator : Locator} {content : Bytes} (acts : w.Acts s a (.published tier locator content) w') :
    (tier.isStored = true → Entered (w.own a) tier locator) ∧
      ∀ tier locator content, .published tier locator content ∉ w.own a := by
  obtain ⟨⟨stage, rest⟩, running, _, allowed⟩ := acts.allowed
  cases stage with
  | finishing => exact allowed
  | monitoring => exact allowed.2.elim
  | _ => exact allowed.elim

namespace Shelved

variable {s : Setting} {w w' : World} {a b : Actor} {tier : Tier} {locator : Locator}
  {content content' : Bytes}

/-- Only the writer that entered a locator publishes below it, and once. -/
theorem once (tracked : Tracked w) (shelved : Shelved w)
    (acts : w.Acts s a (.published tier locator content) w') (stored : tier.isStored = true)
    (before : (b, .published tier locator content') ∈ w.history) : False := by
  obtain ⟨entered, unpublished⟩ := acts.publishing
  obtain rfl := tracked.same_enterer (entered stored)
    (shelved.publisher b tier locator content' before stored)
  exact unpublished tier locator content' (World.mem_own.2 before)

theorem reads_step (reached : Reachable s w) (shelved : Shelved w) (step : Step s w w')
    {later earlier : List (Actor × Effect)}
    (split : w'.history = later ++ (a, .published tier locator content) :: earlier)
    (stored : tier.isStored = true) (content' : Bytes) :
    w'.vault.read tier locator = .ok content' ↔
      content = content' ∧ ∀ b, (b, .deleted tier locator) ∉ later := by
  obtain ⟨c, d?, history, stores⟩ := step.stores
  rw [split] at history
  cases d? with
  | none =>
    rw [stores.kept tier locator content' stored shelved.sound (by simp),
      shelved.reads later a tier locator content earlier history.symm stored]
    simp
  | some d =>
    cases later with
    | nil =>
      obtain ⟨same, _⟩ := List.cons.inj history
      cases same
      rw [stores.published tier locator content rfl stored shelved.sound]
      simp
    | cons first later =>
      replace history : first :: (later ++ (a, .published tier locator content) :: earlier) =
        (c, d) :: w.history := history
      obtain ⟨rfl, before⟩ := List.cons.inj history
      have old : (a, .published tier locator content) ∈ w.history := by
        rw [← before]
        exact List.mem_append_right _ List.mem_cons_self
      have other (content' : Bytes) : some d ≠ some (.published tier locator content') := by
        rintro ⟨⟩
        exact shelved.once reached.tracked
          (step.acts reached.lawful (split.trans (by rw [← before]; rfl)) (by simp)) stored old
      rw [stores.kept tier locator content' stored shelved.sound other,
        shelved.reads later a tier locator content earlier before.symm stored]
      simp only [ne_eq, Option.some.injEq, List.mem_cons, Prod.mk.injEq, not_or, not_and]
      constructor
      · rintro ⟨⟨same, kept⟩, undeleted⟩
        exact ⟨same, fun b => ⟨fun _ same => undeleted same.symm, kept b⟩⟩
      · rintro ⟨same, kept⟩
        exact ⟨⟨same, fun b => (kept b).2⟩, fun same => (kept c).1 rfl same.symm⟩

theorem step (reached : Reachable s w) (shelved : Shelved w) (step : Step s w w') : Shelved w' := by
  have lawful := reached.lawful
  have grown := step.grows lawful
  obtain ⟨c, d?, history, stores⟩ := step.stores
  constructor
  · exact stores.sound shelved.sound
  · intro b tier locator content member stored
    have mine : Entered (w.own b) tier locator := by
      rw [history, List.mem_append] at member
      rcases member with new | before
      · cases d? with
        | none => cases new
        | some d =>
          cases List.mem_singleton.1 new
          exact (step.acts lawful history (by simp)).publishing.1 stored
      · exact shelved.publisher b tier locator content before stored
    exact mine.imp fun time entered => World.mem_own.2 (grown (World.mem_own.1 entered))
  · exact fun later a tier locator content earlier split stored =>
      shelved.reads_step reached step split stored

end Shelved

theorem Reachable.shelved {s : Setting} {w : World} (reached : Reachable s w) : Shelved w := by
  refine reached.induction ?_ fun w w' before shelved step => shelved.step before step
  intro w started
  refine ⟨?_, by simp [started.history], by simp [started.history]⟩
  intro locator object present
  rw [started.large] at present
  cases present

end BlobLifecycle
