import BlobLifecycle.Proofs.Contest
import BlobLifecycle.Proofs.Whole

/-! Writes and deletions that run whole. Opening a write enters a new locator; from then on
it changes the object of that locator only, and no other call enters anything. -/
namespace BlobLifecycle

def Effect.begins : Effect → Bool
  | .issued _ | .entered .. => true
  | _ => false

def standingRule : Rule := fun _ d => d.begins = false

/-- What a run without a new write leaves of the ledger. -/
structure Vault.Stands (v : Vault) (own : List Effect) (v' : Vault) : Prop where
  supply : v'.supply = v.supply
  issued : v'.issued = v.issued
  unentered : ∀ tier locator, ¬Entered own tier locator
  kinds : ∀ locator row', v'.row locator = some row' →
    ∃ row, v.row locator = some row ∧ ∀ tier, row.IsOf tier → row'.IsOf tier
  released : ∀ locator holder, .released locator holder ∈ own →
    (∃ row, v.row locator = some row) ∧ v'.row locator = none

namespace Vault.Stands

variable {v v' : Vault} {own : List Effect}

theorem refl (v : Vault) : v.Stands [] v where
  supply := rfl
  issued := rfl
  unentered := by simp [Entered]
  kinds := fun _ row present => ⟨row, present, fun _ => id⟩
  released := by simp

theorem gone (stands : v.Stands own v') {locator : Locator} (gone : v.row locator = none) :
    v'.row locator = none := by
  refine Option.eq_none_iff_forall_ne_some.2 fun row' present => ?_
  obtain ⟨row, before, -⟩ := stands.kinds locator row' present
  exact nomatch gone.symm.trans before

theorem of_same (supply : v'.supply = v.supply) (issued : v'.issued = v.issued)
    (rows : v'.row = v.row) : v.Stands [] v' where
  supply := supply
  issued := issued
  unentered := by simp [Entered]
  kinds := fun _ row present => ⟨row, by rw [← rows]; exact present, fun _ => id⟩
  released := by simp

theorem rests {v'' : Vault} (stands : v.Stands own v') (rests : v'.Rests v'') : v.Stands own v'' := by
  obtain ⟨supply, issued, unentered, kinds, released⟩ := stands
  have rows : v''.row = v'.row := by
    unfold Vault.row
    rw [rests.ledger]
  rw [← rows] at kinds released
  exact ⟨rests.supply.trans supply, rests.issued.trans issued, unentered, kinds, released⟩

theorem happens {v'' : Vault} {d : Effect} (stands : v.Stands own v') (standing : d.begins = false)
    (happens : d.Happens v' v'') : v.Stands (d :: own) v'' := by
  have unentered (tier : Tier) (time : Timestamp) (locator : Locator) :
      d ≠ .entered locator tier time := by
    rintro rfl
    cases standing
  constructor
  · exact happens.supply.trans stands.supply
  · have none : d.supplied = 0 := by cases d <;> first | rfl | cases standing
    rw [happens.issued, none, stands.issued, Nat.add_zero]
  · rintro tier locator ⟨time, member⟩
    rcases List.mem_cons.1 member with same | member
    · exact unentered tier time locator same.symm
    · exact stands.unentered tier locator ⟨time, member⟩
  · intro locator row'' present
    have step : RowStep locator d (v'.row locator) (v''.row locator) := happens.ledger locator
    rw [present] at step
    cases before : v'.row locator with
    | none =>
      rw [before] at step
      exact nomatch step.gone_stays fun tier time => unentered tier time locator
    | some row' =>
      rw [before] at step
      obtain ⟨row, present', kind⟩ := stands.kinds locator row' before
      exact ⟨row, present', fun tier isOf => step.isOf (kind tier isOf)⟩
  · intro locator holder member
    have step : RowStep locator d (v'.row locator) (v''.row locator) := happens.ledger locator
    rcases List.mem_cons.1 member with rfl | member
    · obtain ⟨row', before, -, gone⟩ := step.of_released
      obtain ⟨row, present, -⟩ := stands.kinds locator row' before
      exact ⟨⟨row, present⟩, gone⟩
    · obtain ⟨present, gone⟩ := stands.released locator holder member
      rw [gone] at step
      exact ⟨present, step.gone_stays fun tier time => unentered tier time locator⟩

end Vault.Stands

namespace Program

variable {own : List Effect}

theorem Obeys.stands {p : Program α} {promise : List Effect → α → Prop}
    (obeys : p.Obeys standingRule promise []) (v : Vault) :
    p.Ensures (fun _ own v' => v.Stands own v') v [] :=
  (obeys.ensures v.Stands (.refl v) (fun _ _ _ stands => stands.rests)
    fun _ _ _ _ stands standing => stands.happens standing).mono fun _ _ _ reached => reached.1

/-- Requests tell which effects there may be. -/
theorem Asks.obeys {kind : Request → Prop} {rule : Rule} {p : Program α} (asks : p.Asks kind)
    (allowed : ∀ own r reply d, kind r → Request.effect? r reply = some d → rule own d) :
    p.Obeys rule anything own := by
  induction p generalizing own with
  | done a => trivial
  | call r next ih =>
    exact fun reply credible =>
      ⟨fun d => allowed own r reply d asks.1, ih reply (asks.2 reply credible)⟩

end Program

/-- A request that neither begins a write nor changes a row, and no object but these. -/
def Request.Touches (places : Tier → Locator → Prop) (r : Request) : Prop :=
  (∀ tier mediaType, r ≠ .openWrite tier mediaType) ∧ r.row? = none ∧
    ∀ tier locator, r.place? = some (tier, locator) → places tier locator

theorem Request.touches_log (places : Tier → Locator → Prop) (event : Event) :
    Touches places (.log event) := ⟨nofun, rfl, nofun⟩

namespace Program

variable {v : Vault} {own : List Effect} {places : Tier → Locator → Prop} {p : Program α}

theorem Asks.standing (asks : p.Asks (Request.Touches places)) :
    p.Obeys standingRule anything own := by
  refine asks.obeys fun own r reply d touches effect => ?_
  have untargeted (locator : Locator) (aims : d.target? = some locator) : False :=
    nomatch touches.2.1.symm.trans (Request.target_of_effect? effect aims)
  cases d with
  | entered locator tier time => exact (untargeted locator rfl).elim
  | issued locator =>
    cases r with
    | openWrite tier mediaType => exact (touches.1 tier mediaType rfl).elim
    | _ => simp only [Request.effect?] at effect; first | (split at effect <;> cases effect) | cases effect
  | _ => rfl

theorem Asks.rows (asks : p.Asks (Request.Touches places)) (v : Vault) (own : List Effect) :
    p.Ensures (fun _ _ v' => v'.row = v.row) v own :=
  asks.ensures (·.row = v.row) rfl fun v' r touches same => by
    rw [← same]
    exact funext fun locator => Request.row_other (by rw [touches.2.1]; nofun)

theorem Asks.objects (asks : p.Asks (Request.Touches places)) (v : Vault) (own : List Effect)
    {tier : Tier} {locator : Locator} (aside : ¬places tier locator) :
    p.Ensures (fun _ _ v' => v'.object? tier locator = v.object? tier locator) v own :=
  asks.ensures (fun v' => v'.object? tier locator = v.object? tier locator) rfl
    fun _ _ touches same =>
      (Request.object_other fun here => aside (touches.2.2 tier locator here)).trans same

end Program

/-- A locator without a row is entered. -/
theorem Vault.answer_incubate {v : Vault} {tier : Tier} {locator : Locator}
    (stored : tier.isStored = true) (absent : v.row locator = none) (time : Timestamp) :
    v.answer (.incubate locator tier time) =
      (.ok (), { v with ledger := v.ledger.insert locator (.fresh tier time) }) := by
  have absent : v.ledger.contains locator = false := by
    simp only [LocatorMap.contains, Option.isSome_eq_false_iff, Option.isNone_iff_eq_none]
    exact absent
  simp only [answer, Ledger.incubate, LedgerRow.ofWrite, stored, absent, if_true,
    Bool.false_eq_true, if_false]
  rfl

/-- What a newly opened write leaves: an entry under the next locator. -/
structure Vault.Opens (v : Vault) (s : WriteSession) (own : List Effect) (v' : Vault) : Prop where
  stored : s.tier.isStored = true
  sorted : s.sink.tier = s.tier
  locator : s.locator = v.supply v.issued
  rows : ∀ key, v'.row key = if key = s.locator then some (.fresh s.tier v.clock) else v.row key
  objects : ∀ tier key, v'.object? tier key = v.object? tier key
  supply : v'.supply = v.supply
  issued : v'.issued = v.issued + 1
  effects : own = [.entered s.locator s.tier v.clock, .read v.clock, .issued s.locator]

/-- A write is opened with an entry, or inline, or not at all. -/
theorem openWrite_ensures {v : Vault} (fresh : v.row (v.supply v.issued) = none)
    (thresholds : Thresholds) (spec : BlobSpec) :
    (openWrite thresholds spec).run.Ensures (fun result own v' =>
      (∃ s, result = .ok s ∧ v.Opens s own v') ∨
      ((∀ s, result = .ok s → s.tier.isStored = false ∧ s.sink.tier = s.tier) ∧ v' = v ∧ own = []))
      v [] := by
  have entered (tier : Tier) (stored : tier.isStored = true) :=
    Vault.answer_incubate (v := { v with issued := v.issued + 1 }) stored fresh v.clock
  have rows (tier : Tier) (key : Locator) :
      (v.ledger.insert (v.supply v.issued) (.fresh tier v.clock)).find? key =
        if key = v.supply v.issued then some (.fresh tier v.clock) else v.ledger.find? key :=
    LocatorMap.find?_insert ..
  unfold openWrite
  split
  · exact .inr ⟨by rintro s ⟨⟩, rfl, rfl⟩
  · generalize thresholds.select spec.size = tier
    cases tier with
    | inline => exact .inr ⟨by rintro s ⟨⟩; exact ⟨rfl, rfl⟩, rfl, rfl⟩
    | medium =>
      refine .answered rfl (.answered rfl (.leading (entered .medium rfl) ?_))
      exact .inl ⟨_, rfl, ⟨rfl, rfl, rfl, rows .medium, fun _ _ => rfl, rfl, rfl, rfl⟩⟩
    | large =>
      refine .answered rfl (.answered rfl (.leading (entered .large rfl) ?_))
      exact .inl ⟨_, rfl, ⟨rfl, rfl, rfl, rows .large, fun _ _ => rfl, rfl, rfl, rfl⟩⟩

def WriteSession.Place (s : WriteSession) (tier : Tier) (locator : Locator) : Prop :=
  tier = s.sink.tier ∧ locator = s.locator

theorem WriteSession.write_asks (s : WriteSession) (chunk : Bytes) :
    (s.write chunk).run.Asks (Request.Touches s.Place) := by
  show Program.Asks _ (ExceptT.run (if s.spec.size < s.written + chunk.length then _ else _))
  split
  · trivial
  · refine ⟨⟨nofun, rfl, ?_⟩, fun reply _ => ?_⟩
    · rintro tier locator ⟨⟩
      exact ⟨rfl, rfl⟩
    · cases reply <;> trivial

theorem WriteSession.finish_asks (s : WriteSession) : s.finish.run.Asks (Request.Touches s.Place) := by
  have made (tier : Tier) (locator : Locator) :
      (do
        if locator ≠ s.locator then throw (.storage (.foreignLocator tier))
        .ofExcept (Handle.stored s.spec tier locator) : Operation Handle).run.Asks
          (Request.Touches s.Place) := by
    show Program.Asks _ (ExceptT.run (if locator ≠ s.locator then _ else _))
    split <;> trivial
  obtain ⟨spec, tier, sink, written⟩ := s
  show Program.Asks _ (ExceptT.run (if written ≠ spec.size then _ else _))
  split
  · trivial
  · refine ⟨⟨nofun, rfl, ?_⟩, fun reply _ => ?_⟩
    · rintro tier locator ⟨⟩
      exact ⟨rfl, rfl⟩
    · cases reply with
      | error e => trivial
      | ok locator =>
        cases tier with
        | inline => trivial
        | medium => exact ⟨Request.touches_log _ _, fun _ _ => made .medium locator⟩
        | large => exact ⟨Request.touches_log _ _, fun _ _ => made .large locator⟩

def Request.Deletes (handles : List Handle) (r : Request) : Prop :=
  (∃ event, r = .log event) ∨ ∃ h ∈ handles, r = .delete h.tier h.locator

theorem Handle.deleteContent_asks {handles : List Handle} {h : Handle} (listed : h ∈ handles) :
    h.deleteContent.Asks (Request.Deletes handles) := by
  refine ⟨.inr ⟨h, listed, rfl⟩, fun reply _ => ?_⟩
  cases reply with
  | ok done => trivial
  | error e => exact ⟨.inl ⟨_, rfl⟩, fun _ _ => trivial⟩

theorem deleteAll_asks {handles rest : List Handle} (listed : rest ⊆ handles) :
    (deleteAll rest).Asks (Request.Deletes handles) := by
  induction rest with
  | nil => trivial
  | cons h rest ih =>
    obtain ⟨member, listed⟩ := List.cons_subset.1 listed
    exact (h.deleteContent_asks member).bind fun _ => (ih listed).bind fun _ => trivial

/-- Where a deletion of these handles may change the stores. -/
def Places (handles : List Handle) (tier : Tier) (locator : Locator) : Prop :=
  ∃ h ∈ handles, h.tier = tier ∧ h.locator = locator

theorem deleteNow_asks (handles : List Handle) :
    (deleteNow handles).Asks (Request.Touches (Places handles)) := by
  refine (deleteAll_asks List.filter_sublist.subset).mono ?_
  rintro r (⟨event, rfl⟩ | ⟨h, member, rfl⟩)
  · exact Request.touches_log _ event
  · refine ⟨nofun, rfl, ?_⟩
    rintro tier locator ⟨⟩
    exact ⟨h, member, rfl, rfl⟩

theorem planMutation_asks (record : RecordId) (changes : List FieldChange) :
    (planMutation record changes).Asks (Request.Touches fun _ _ => False) :=
  ⟨Request.touches_log _ _, fun _ _ => trivial⟩

/-- A deletion leaves an object or takes it away. -/
theorem Program.Asks.deleting {handles : List Handle} {p : Program α}
    (asks : p.Asks (Request.Deletes handles)) {v : Vault} (sound : v.large.Sound) (own : List Effect)
    (tier : Tier) (locator : Locator) :
    p.Ensures (fun _ _ v' => v'.object? tier locator = v.object? tier locator ∨
      v'.object? tier locator = none) v own := by
  refine (asks.ensures (fun v' => v'.large.Sound ∧ (v'.object? tier locator = v.object? tier locator ∨
    v'.object? tier locator = none)) ⟨sound, .inl rfl⟩ ?_).mono fun _ _ _ => And.right
  rintro v' r deletes ⟨sound, before⟩
  refine ⟨(r.answer_stores v').sound sound, ?_⟩
  by_cases aside : r.place? = some (tier, locator)
  · rcases deletes with ⟨event, rfl⟩ | ⟨h, -, rfl⟩
    · cases aside
    · cases aside
      exact .inr (v'.delete_object sound h.tier h.locator)
  · rw [Request.object_other aside]
    exact before

/-- The session goes on at the same place. -/
theorem WriteSession.write_ensures (s : WriteSession) (chunk : Bytes) (v : Vault) (own : List Effect) :
    (s.write chunk).run.Ensures (fun result _ _ => ∀ s', result = .ok s' →
      s'.tier = s.tier ∧ s'.locator = s.locator ∧ s'.sink.tier = s.sink.tier) v own := by
  show Program.Ensures _
    (ExceptT.run (if s.spec.size < s.written + chunk.length then _ else _)) _ _
  split
  · exact nofun
  · cases answer : (v.answer (.append s.sink chunk)).1 with
    | error e => exact .answered answer nofun
    | ok sink =>
      obtain ⟨sameTier, sameLocator, -⟩ := Vault.append_sink answer
      refine .answered answer ?_
      rintro s' ⟨⟩
      exact ⟨rfl, sameLocator, sameTier⟩

/-- A handle that is given names content that can be read. -/
theorem WriteSession.finish_ensures {s : WriteSession} {v : Vault} (sound : v.large.Sound)
    (sorted : s.sink.tier = s.tier) (own : List Effect) :
    s.finish.run.Ensures (fun result _ v' => ∀ h, result = .ok h → h.tier.isStored = true →
      h.tier = s.tier ∧ h.locator = s.locator ∧ ∃ content, v'.read h.tier h.locator = .ok content)
      v own := by
  obtain ⟨spec, tier, sink, written⟩ := s
  show Program.Ensures _ (ExceptT.run (if written ≠ spec.size then _ else _)) _ _
  split
  · exact nofun
  · have stores := v.commit_stores sink
    cases answer : (v.answer (.commit sink)).1 with
    | error e => exact .answered answer nofun
    | ok locator =>
      rw [show (v.commit sink).1 = .ok locator from answer] at stores
      have given (tier : Tier) (own : List Effect) (v' : Vault)
          (read : ∃ content, v'.read tier locator = .ok content) (here : locator = sink.locator) :
          (do
            if locator ≠ sink.locator then throw (.storage (.foreignLocator tier))
            .ofExcept (Handle.stored spec tier locator) : Operation Handle).run.Ensures
              (fun result _ v' => ∀ h, result = .ok h → h.tier.isStored = true → h.tier = tier ∧
                h.locator = sink.locator ∧ ∃ content, v'.read h.tier h.locator = .ok content)
              v' own := by
        show Program.Ensures _ (ExceptT.run (if locator ≠ sink.locator then _ else _)) _ _
        rw [if_neg (not_not_intro here)]
        intro h made _
        obtain ⟨rfl, rfl⟩ := Handle.stored_fields made
        exact ⟨rfl, here, read⟩
      have committed (stored : sink.tier.isStored = true) : locator = sink.locator ∧
          ∃ content, (v.commit sink).2.read sink.tier locator = .ok content :=
        ⟨Vault.commit_locator answer stored, _, stores.published _ _ _ rfl stored sound⟩
      refine .answered answer ?_
      dsimp only at sorted
      rw [sorted] at committed
      cases tier with
      | inline =>
        rintro h ⟨⟩ stored
        cases stored
      | medium => exact given .medium _ _ (committed rfl).2 (committed rfl).1
      | large => exact given .large _ _ (committed rfl).2 (committed rfl).1

theorem deleteAll_ensures {v : Vault} (sound : v.large.Sound) (handles : List Handle)
    (own : List Effect) :
    (deleteAll handles).Ensures (fun _ _ v' => ∀ h ∈ handles,
      v'.object? h.tier h.locator = none) v own := by
  induction handles generalizing v own with
  | nil => exact nofun
  | cons h rest ih =>
    have first : h.deleteContent.Ensures (fun _ _ v' => v'.object? h.tier h.locator = none) v own := by
      have deleted := v.delete_object sound h.tier h.locator
      cases answer : (v.answer (.delete h.tier h.locator)).1 with
      | ok done => exact .answered answer deleted
      | error e => exact .answered answer deleted
    refine (first.and (h.deleteContent.ensures_sound sound)).bind ?_
    rintro _ own v ⟨gone, sound⟩
    have deletes := deleteAll_asks (List.Subset.refl rest)
    refine ((ih sound own).and (deletes.deleting sound own h.tier h.locator)).bind ?_
    rintro _ own v ⟨others, same | gone'⟩ h' member
    · rcases List.mem_cons.1 member with rfl | member
      · exact same.trans gone
      · exact others h' member
    · rcases List.mem_cons.1 member with rfl | member
      · exact gone'
      · exact others h' member

/-- What is listed is not there any more. -/
theorem deleteNow_ensures {v : Vault} (sound : v.large.Sound) (handles : List Handle)
    (own : List Effect) :
    (deleteNow handles).Ensures (fun _ _ v' => ∀ h ∈ handles, h.tier.isStored = true →
      v'.object? h.tier h.locator = none) v own :=
  (deleteAll_ensures sound _ own).mono fun _ _ _ gone h member stored =>
    gone h (by simp [member, stored])

end BlobLifecycle
