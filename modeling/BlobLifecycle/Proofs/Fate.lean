import BlobLifecycle.Proofs.Whole

/-! What a whole sweep does to one entry and its content: it keeps both, marks the entry,
releases it for a record that holds the content, or takes both away. -/
namespace BlobLifecycle

inductive Fate (locator : Locator) (v : Vault) (own : List Effect) (v' : Vault) : Prop
  | kept (same : v'.row locator = v.row locator)
      (objects : ∀ tier, v'.object? tier locator = v.object? tier locator)
  /-- Condemned, with its content perhaps deleted. -/
  | marked {row : LedgerRow} {time : Timestamp} (before : v.row locator = some row)
      (after : v'.row locator = some { row with condemnedAt := some time })
      (objects : ∀ tier, v'.object? tier locator = v.object? tier locator ∨
        v'.object? tier locator = none)
  | released {row : LedgerRow} {holder : RecordField} (before : v.row locator = some row)
      (held : row.HeldFor holder) (gone : v'.row locator = none)
      (told : .released locator holder ∈ own)
      (objects : ∀ tier, v'.object? tier locator = v.object? tier locator)
  | reaped {row : LedgerRow} {tier : Tier} (before : v.row locator = some row)
      (named : row.tier = tier.name) (gone : v'.row locator = none)
      (deleted : v'.object? tier locator = none)
      (objects : ∀ tier, v'.object? tier locator = v.object? tier locator ∨
        v'.object? tier locator = none)

namespace Fate

variable {locator : Locator} {v v' v'' : Vault} {own own' : List Effect}

theorem refl (v : Vault) (own : List Effect) : Fate locator v own v := .kept rfl fun _ => rfl

/-- Nothing new comes to the stores. -/
theorem object (fate : Fate locator v own v') (tier : Tier) :
    v'.object? tier locator = v.object? tier locator ∨ v'.object? tier locator = none := by
  cases fate with
  | kept same objects => exact .inl (objects tier)
  | marked before after objects => exact objects tier
  | released before held gone told objects => exact .inl (objects tier)
  | reaped before named gone deleted objects => exact objects tier

/-- An entry that is gone leaves a sweep nothing to do. -/
theorem of_gone (fate : Fate locator v own v') (gone : v.row locator = none) :
    v'.row locator = none ∧ ∀ tier, v'.object? tier locator = v.object? tier locator := by
  cases fate with
  | kept same objects => exact ⟨same.trans gone, objects⟩
  | marked before | released before | reaped before => exact nomatch gone.symm.trans before

theorem either (first : ∀ tier, v'.object? tier locator = v.object? tier locator ∨
      v'.object? tier locator = none) (second : Fate locator v' own v'') (tier : Tier) :
    v''.object? tier locator = v.object? tier locator ∨ v''.object? tier locator = none := by
  rcases second.object tier with same | none
  · rw [same]
    exact first tier
  · exact .inr none

theorem trans (first : Fate locator v own v') (second : Fate locator v' own' v'')
    (grown : own ⊆ own') : Fate locator v own' v'' := by
  cases first with
  | kept same objects =>
    cases second with
    | kept same' objects' =>
      exact .kept (same'.trans same) fun tier => (objects' tier).trans (objects tier)
    | marked before after objects' =>
      exact .marked (same ▸ before) after fun tier => objects tier ▸ objects' tier
    | released before held gone told objects' =>
      exact .released (same ▸ before) held gone told fun tier => (objects' tier).trans (objects tier)
    | reaped before named gone deleted objects' =>
      exact .reaped (same ▸ before) named gone deleted fun tier => objects tier ▸ objects' tier
  | marked before after objects =>
    have either := either objects second
    cases second with
    | kept same _ => exact .marked before (same.trans after) either
    | marked before' after' _ =>
      cases Option.some.inj (after.symm.trans before')
      exact .marked before after' either
    | released before' held =>
      cases Option.some.inj (after.symm.trans before')
      exact nomatch held.2.2
    | reaped before' named gone deleted _ =>
      cases Option.some.inj (after.symm.trans before')
      exact .reaped before named gone deleted either
  | released before held gone told objects =>
    obtain ⟨gone', objects'⟩ := second.of_gone gone
    exact .released before held gone' (grown told) fun tier => (objects' tier).trans (objects tier)
  | reaped before named gone deleted objects =>
    obtain ⟨gone', objects'⟩ := second.of_gone gone
    exact .reaped before named gone' ((objects' _).trans deleted) (either objects second)

end Fate

/-- Whatever state it starts from, a whole run leaves the locator to one of the fates. -/
def Program.Disposes (locator : Locator) (p : Program α) : Prop :=
  ∀ v own, v.large.Sound → p.Ensures (fun _ own' v' => Fate locator v own' v') v own

namespace Program

variable {locator : Locator}

theorem Disposes.done (a : α) : (Program.done a).Disposes locator := fun v own _ => .refl v own

theorem Disposes.bind {p : Program α} {f : α → Program β} (first : p.Disposes locator)
    (rest : ∀ a, (f a).Disposes locator) : (p >>= f).Disposes locator := by
  intro v own sound
  refine ((first v own sound).and (p.ensures_sound sound)).bind ?_
  rintro a own' v' ⟨fate, sound'⟩
  exact ((rest a v' own' sound').and ((f a).ensures_grown v' own')).mono
    fun _ _ _ reached => fate.trans reached.1 reached.2

/-- Requests about others leave the locator alone. -/
theorem Disposes.of_avoids {p : Program α} (asks : p.Asks (Avoids locator)) : p.Disposes locator := by
  intro v own _
  refine (asks.ensures (fun v' => v'.row locator = v.row locator ∧
    ∀ tier, v'.object? tier locator = v.object? tier locator) ⟨rfl, fun _ => rfl⟩ ?_).mono
      fun _ _ _ same => .kept same.1 same.2
  rintro v' r ⟨otherRow, otherPlace⟩ ⟨row, objects⟩
  exact ⟨(Request.row_other otherRow).trans row,
    fun tier => (Request.object_other (otherPlace tier)).trans (objects tier)⟩

theorem Disposes.ask {r : Request} (avoids : Avoids locator r) : (ask r).Disposes locator :=
  .of_avoids ⟨avoids, fun _ _ => trivial⟩

theorem Disposes.log (event : Event) : (log event).Disposes locator := .ask ⟨nofun, nofun⟩

end Program

theorem Operation.disposes_bind {locator : Locator} {x : Operation α} {f : α → Operation β}
    (first : x.run.Disposes locator) (rest : ∀ a, (f a).run.Disposes locator) :
    (x >>= f).run.Disposes locator := by
  rw [ExceptT.run_bind]
  apply first.bind
  intro result
  cases result with
  | ok a => exact rest a
  | error e => exact .done _

theorem Operation.disposes_lift {locator : Locator} {p : Program α} {f : α → Operation β}
    (first : p.Disposes locator) (rest : ∀ a, (f a).run.Disposes locator) :
    (ExceptT.lift p >>= f).run.Disposes locator := by
  rw [run_lift_bind]
  exact first.bind rest

namespace Entry

open Program

variable {v : Vault} {own : List Effect} {e : Entry}

/-- Content and row of a condemned entry go, unless the store refuses. -/
theorem reap_fate {time : Timestamp} {row : LedgerRow} (sound : v.large.Sound)
    (before : v.row e.locator = some { row with condemnedAt := some time })
    (named : row.tier = e.tier.name) :
    e.reap.run.Ensures (fun _ own' v' => Fate e.locator v own' v') v own := by
  have deleted := v.delete_object sound e.tier e.locator
  have others (tier : Tier) : (v.delete e.tier e.locator).2.object? tier e.locator =
      v.object? tier e.locator ∨ (v.delete e.tier e.locator).2.object? tier e.locator = none := by
    by_cases same : tier = e.tier
    · exact .inr (same ▸ deleted)
    · have aside : (Request.delete e.tier e.locator).place? ≠ some (tier, e.locator) :=
        fun place => same (Prod.mk.inj (Option.some.inj place)).1.symm
      exact .inl (Request.object_other aside)
  have row₁ : (v.delete e.tier e.locator).2.row = v.row := by
    unfold Vault.row
    rw [(v.delete_rests e.tier e.locator).ledger]
  have removal (own : List Effect) (outcome : EntryOutcome) :
      (do
        let _ ← Operation.ofReply (.ask (.remove e.locator))
        Operation.log (.reaped e.locator e.tier)
        return outcome : Operation EntryOutcome).run.Ensures (fun _ own' v' =>
          Fate e.locator v own' v') (v.delete e.tier e.locator).2 own := by
    have gone : ((v.delete e.tier e.locator).2.ledger.erase e.locator).find? e.locator = none := by
      rw [LocatorMap.find?_erase, if_pos rfl]
    exact .reaped before named gone deleted others
  cases answer : (v.answer (.delete e.tier e.locator)).1 with
  | ok done => exact .answered answer (removal _ .reaped)
  | error error =>
    refine .answered answer ?_
    show Ensures _ (ExceptT.run (if error.isNotFound = true then _ else _)) _ _
    split
    · exact removal _ .staleRemoved
    · exact .marked before (row₁ ▸ before) others

theorem condemnAndReap_fate (sound : v.large.Sound) (present : v.row e.locator = some e.row)
    (now : Timestamp) :
    (e.condemnAndReap now).run.Ensures (fun _ own' v' => Fate e.locator v own' v') v own := by
  have leaves := Request.answer_leaves v (.condemn e now)
  have objects (tier : Tier) : (v.answer (.condemn e now)).2.object? tier e.locator =
      v.object? tier e.locator := Request.object_other nofun
  have sound' : (v.answer (.condemn e now)).2.large.Sound := sound
  cases answer : (v.answer (.condemn e now)).1 with
  | error error =>
    exact .answered answer (.kept (congrFun (Request.row_silent answer rfl) _) objects)
  | ok condemned =>
    cases condemned with
    | false => exact .answered answer (.kept (congrFun (Request.row_silent answer rfl) _) objects)
    | true =>
      rw [answer] at leaves
      obtain ⟨row, before, -, after⟩ := (leaves.ledger e.locator).of_condemned
      cases Option.some.inj (present.symm.trans before)
      refine .answered answer ?_
      refine ((reap_fate sound' after rfl).and (e.reap.run.ensures_grown _ _)).mono ?_
      intro _ _ _ reached
      exact Fate.trans (.marked before after fun tier => .inl (objects tier)) reached.1 reached.2

theorem confirmLate_fate (holder : RecordField) :
    (e.confirmLate holder).run.Ensures (fun _ own' v' => Fate e.locator v own' v') v own := by
  have leaves := Request.answer_leaves v (.release e.locator holder)
  have objects (tier : Tier) : (v.answer (.release e.locator holder)).2.object? tier e.locator =
      v.object? tier e.locator := Request.object_other nofun
  cases answer : (v.answer (.release e.locator holder)).1 with
  | error error =>
    exact .answered answer (.kept (congrFun (Request.row_silent answer rfl) _) objects)
  | ok released =>
    cases released with
    | false => exact .answered answer (.kept (congrFun (Request.row_silent answer rfl) _) objects)
    | true =>
      rw [answer] at leaves
      obtain ⟨row, before, held, gone⟩ := (leaves.ledger e.locator).of_released
      exact .answered answer (.released before held gone List.mem_cons_self objects)

theorem judge_fate (sound : v.large.Sound) (present : v.row e.locator = some e.row)
    (now : Timestamp) :
    (e.judge now).run.Ensures (fun _ own' v' => Fate e.locator v own' v') v own := by
  unfold judge
  split
  · next marked =>
    obtain ⟨time, condemned⟩ := Option.isSome_iff_exists.1 marked
    have before : v.row e.locator = some { e.row with condemnedAt := some time } := by
      rw [present, ← condemned]
      rfl
    exact reap_fate sound before rfl
  · split
    · exact condemnAndReap_fate sound present now
    · next holder held =>
      cases answer : (v.answer (.fieldHistory holder.record holder.field)).1 with
      | error error => exact .answered answer (.refl v _)
      | ok values =>
        refine .answered answer ?_
        show Ensures _
          (ExceptT.run (if values.any (·.holdsObject e.tier e.locator) = true then _ else _)) _ _
        split
        · exact confirmLate_fate holder
        · exact condemnAndReap_fate sound present now

def Concern (e : Entry) : Request → Prop
  | .log _ => True
  | .condemn observed _ => observed = e
  | .remove locator | .release locator _ => locator = e.locator
  | .delete tier locator => tier = e.tier ∧ locator = e.locator
  | .fieldHistory record field => e.claim = some ⟨record, field⟩
  | _ => False

theorem Concern.avoids {r : Request} {locator : Locator} (concern : e.Concern r)
    (apart : e.locator ≠ locator) : Avoids locator r := by
  cases r with
  | log => exact ⟨nofun, nofun⟩
  | condemn | remove | release =>
    cases concern
    exact ⟨by simp [Request.row?, apart], nofun⟩
  | delete =>
    obtain ⟨rfl, rfl⟩ := concern
    exact ⟨nofun, by simp [Request.place?, apart]⟩
  | fieldHistory => exact ⟨nofun, nofun⟩
  | _ => exact concern.elim

theorem reap_asks (e : Entry) : e.reap.run.Asks e.Concern := by
  have removal (outcome : EntryOutcome) :
      (do
        let _ ← Operation.ofReply (.ask (.remove e.locator))
        Operation.log (.reaped e.locator e.tier)
        return outcome : Operation EntryOutcome).run.Asks e.Concern := by
    refine ⟨rfl, fun reply _ => ?_⟩
    cases reply with
    | error error => trivial
    | ok removed => exact ⟨trivial, fun _ _ => trivial⟩
  refine ⟨⟨rfl, rfl⟩, fun reply _ => ?_⟩
  cases reply with
  | ok done => exact removal .reaped
  | error error =>
    show Asks _ (ExceptT.run (if error.isNotFound = true then _ else _))
    split
    · exact removal .staleRemoved
    · trivial

theorem condemnAndReap_asks (e : Entry) (now : Timestamp) :
    (e.condemnAndReap now).run.Asks e.Concern := by
  refine ⟨rfl, fun reply _ => ?_⟩
  match reply with
  | .error error => trivial
  | .ok true => exact e.reap_asks
  | .ok false => trivial

theorem judge_asks (e : Entry) (now : Timestamp) : (e.judge now).run.Asks e.Concern := by
  unfold judge
  split
  · exact e.reap_asks
  · split
    · exact e.condemnAndReap_asks now
    · next holder held =>
      refine ⟨held, fun reply _ => ?_⟩
      cases reply with
      | error error => trivial
      | ok values =>
        show Asks _
          (ExceptT.run (if values.any (·.holdsObject e.tier e.locator) = true then _ else _))
        split
        · refine ⟨rfl, fun reply _ => ?_⟩
          cases reply with
          | error error => trivial
          | ok released => exact ⟨trivial, fun _ _ => trivial⟩
        · exact e.condemnAndReap_asks now

/-- A listed entry concerns its own locator only. -/
theorem process_avoids {listed : Entry} {locator : Locator} (apart : listed.locator ≠ locator)
    (cutoff now : Timestamp) : (listed.process cutoff now).run.Asks (Avoids locator) := by
  refine ⟨⟨nofun, nofun⟩, fun reply credible => ?_⟩
  match reply with
  | .error error => trivial
  | .ok none => trivial
  | .ok (some e) =>
    have here : e.locator = listed.locator := credible e rfl
    show Asks _ (ExceptT.run (if e.isFresh cutoff = true then _ else _))
    split
    · trivial
    · exact (e.judge_asks now).mono fun r concern => concern.avoids (here ▸ apart)

theorem process_disposes (listed : Entry) (cutoff now : Timestamp) (locator : Locator) :
    (listed.process cutoff now).run.Disposes locator := by
  by_cases apart : listed.locator = locator
  · subst apart
    intro v own sound
    have leaves := Request.answer_leaves v (.entry listed.locator)
    cases answer : (v.answer (.entry listed.locator)).1 with
    | error error => exact .answered answer (.refl v _)
    | ok found =>
      cases found with
      | none => exact .answered answer (.refl v _)
      | some e =>
        have here := Request.answer_credible v (.entry listed.locator) e answer
        rw [answer] at leaves
        have present : v.row e.locator = some e.row := leaves.seen
        refine .answered answer ?_
        show Ensures _ (ExceptT.run (if e.isFresh cutoff = true then _ else _)) _ _
        split
        · exact .refl v _
        · rw [← here]
          exact judge_fate sound present now
  · exact .of_avoids (process_avoids apart cutoff now)

end Entry

section

open Program

variable (locator : Locator)

theorem sweepPage_disposes (cutoff now : Timestamp) (page : List Entry) (report : SweepReport) :
    (sweepPage cutoff now page report).Disposes locator := by
  induction page generalizing report with
  | nil => exact .done report
  | cons e rest ih =>
    refine (e.process_disposes cutoff now locator).bind fun outcome => ?_
    cases outcome with
    | ok outcome => exact ih _
    | error error => exact (Disposes.log _).bind fun _ => ih _

theorem sweepPages_disposes (batchSize : Nat) (cutoff now : Timestamp) (pages : Nat)
    (cursor : Option Locator) (report : SweepReport) :
    (sweepPages batchSize cutoff now pages cursor report).run.Disposes locator := by
  induction pages generalizing cursor report with
  | zero => exact .done _
  | succ pages ih =>
    refine Operation.disposes_bind (.ask ⟨nofun, nofun⟩) fun page => ?_
    refine Operation.disposes_lift (sweepPage_disposes locator cutoff now page report) fun report => ?_
    split
    · exact .done _
    · split
      · exact .done _
      · exact ih _ _

/-- A sweep leaves every locator to one of the fates, whether it gets the lock or not. -/
theorem runSweep_disposes (settings : SweepSettings) (pages : Nat) :
    (runSweep settings pages).run.Disposes locator := by
  have swept : (sweep settings pages).run.Disposes locator := by
    refine Operation.disposes_lift (.ask ⟨nofun, nofun⟩) fun now => ?_
    refine Operation.disposes_bind (sweepPages_disposes locator _ _ now pages none .zero)
      fun report => ?_
    dsimp only
    split
    · exact Operation.disposes_lift (.log _) fun _ => .done _
    · exact .done _
  refine Disposes.bind (.ask ⟨nofun, nofun⟩) fun free => ?_
  cases free with
  | false => exact (Disposes.log _).bind fun _ => .done _
  | true =>
    refine swept.bind fun result => ?_
    exact Disposes.bind (.ask ⟨nofun, nofun⟩) fun _ => .done _

end

end BlobLifecycle
