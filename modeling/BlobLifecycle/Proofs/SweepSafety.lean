import BlobLifecycle.Proofs.Attachment

/-! Sweeps against commits, writers and other sweeps: no live content is deleted. -/
namespace BlobLifecycle

/-- Sweeps, writers and record commits in any interleaving: no commit overlaps another of the
same record, and each persists what it reserved within the grace interval of its claims. -/
def Setting.shared (grace : Int) : Setting where
  grace := grace
  admits := fun a => ∀ n, a ≠ .caller n
  edits := False
  conflicts := fun record other => record = other
  discards := fun _ _ => True
  persists := fun _ record changes before after => before.Writes record changes after

theorem Setting.shared_commits (grace : Int) : (shared grace).Commits :=
  ⟨fun n admitted => admitted n rfl, id, fun _ => rfl, id⟩

/-- No sweep deletes content that a live version of a record holds. -/
theorem sweep_deletes_unreferenced {grace : Int} {w : World} {a : Actor} {tier : Tier}
    {locator : Locator} (reached : Reachable (.shared grace) w) (sweeps : a.sweeps = true)
    (deleting : w.pending? a = some (.delete tier locator)) (holder : RecordField) :
    ¬w.Live holder tier locator := by
  obtain ⟨e, rfl, rfl, doomed⟩ := reached.lawful.deletes sweeps deleting
  exact ((reached.attached (Setting.shared_commits grace)).dead_of_doomed doomed).unheld holder

namespace LateConfirm

open Sample

def value : FieldValue := .list [note, handle]

def reserved : World := opened.attach record 0 [setting value] plan 3

def persisted : World :=
  reserved.persist record 0 [setting value] plan (records (some value))

def swept : World := (abandon persisted).launch (.sweep 0) ⟨.sweeping, sweep ⟨1000, 2⟩ 1⟩ 8

theorem leads_reserved : Leads (.shared 1000) opened reserved := by
  refine World.leads_attach (plan_eq rfl) (by simp [Setting.shared]) rfl rfl ?_ 3
  exact fun _ _ _ running => by cases running

theorem leads_persisted : Leads (.shared 1000) reserved persisted := by
  have writes := Sample.writes none (some value)
  rw [records_none] at writes
  refine .single (.persist rfl ?_ writes)
  have own : reserved.own (.commit record 0) =
      [.claimed [0] ⟨record, field⟩ 1000000, .read 1000000] := rfl
  have clock : reserved.vault.clock = 1000000 := rfl
  have grace : (Setting.shared 1000).grace = 1000 := rfl
  rw [own, clock, grace]
  rintro d member locator holder time (rfl | rfl)
  · obtain ⟨_, _, rfl⟩ : locator = [0] ∧ holder = ⟨record, field⟩ ∧ time = 1000000 := by
      simpa using member
    decide
  · simp at member

theorem live : swept.Live ⟨record, field⟩ .medium [0] :=
  ⟨handle, ⟨[value], rfl, value, List.mem_singleton_self _, by decide⟩, rfl, rfl⟩

theorem leads_swept : Leads (.shared 1000) persisted swept := by
  have waiting : Leads (.shared 1000) persisted (abandon persisted) :=
    Sample.leads_abandon (by simp [Setting.shared]) rfl rfl (by decide)
  exact waiting.trans
    (World.leads_start (by simp [Setting.shared]) rfl rfl (.sweep (Int.le_refl _)) 8)

theorem reached : Reachable (.shared 1000) swept :=
  (reached_opened (by simp [Setting.shared])).leads
    ((leads_reserved.trans leads_persisted).trans leads_swept)

end LateConfirm

/-- A sweep keeps the content of a commit that never confirmed, and deletes an abandoned write. -/
theorem abandoned_write_unreferenced :
    ∃ w, Reachable (.shared 1000) w ∧ w.pending? (.sweep 0) = some (.delete .medium [0, 0]) ∧
      w.Live ⟨Sample.record, Sample.field⟩ .medium [0] ∧
      ∀ holder, ¬w.Live holder .medium [0, 0] :=
  ⟨LateConfirm.swept, LateConfirm.reached, rfl,
    LateConfirm.live,
    sweep_deletes_unreferenced (a := .sweep 0) LateConfirm.reached rfl rfl⟩

end BlobLifecycle
