import BlobLifecycle.Proofs.WellFormed
import BlobLifecycle.Proofs.WholeWriting
import BlobLifecycle.Reading

/-! One write from its opening to its handle, among others. Chunks are accepted as far as the
declared size goes, nothing can be read before the end, and then exactly what was accepted. -/
namespace BlobLifecycle

def Request.ends? : Request → Option Locator
  | release locator _ | remove locator => some locator
  | _ => none

namespace RowStep

theorem of_gone {locator : Locator} {d : Effect} {row : LedgerRow}
    (step : RowStep locator d (some row) none) :
    (∃ holder, d = .released locator holder) ∨ d = .removed locator := by
  cases step with
  | released held => exact .inl ⟨_, rfl⟩
  | removed => exact .inr rfl

end RowStep

namespace Request

variable {v : Vault} {r : Request} {tier : Tier} {locator : Locator}

theorem ends?_of_gone {reply : r.Reply} {d : Effect} {row : LedgerRow}
    (effect : r.effect? reply = some d) (gone : RowStep locator d (some row) none) :
    r.ends? = some locator := by
  rcases gone.of_gone with ⟨holder, rfl⟩ | rfl
  all_goals
    unfold effect? at effect
    repeat' split at effect
    all_goals cases effect
    all_goals rfl

theorem row_stays {row : LedgerRow} (present : v.row locator = some row)
    (kept : r.ends? ≠ some locator) :
    ∃ row', (v.answer r).2.row locator = some row' ∧ row'.tier = row.tier := by
  have leaves := r.answer_leaves v
  unfold Leaves at leaves
  split at leaves
  · next d effect =>
    have step : RowStep locator d (v.row locator) ((v.answer r).2.row locator) :=
      leaves.ledger locator
    rw [present] at step
    cases after : (v.answer r).2.row locator with
    | some row' =>
      rw [after] at step
      exact ⟨row', rfl, step.origin.1⟩
    | none =>
      rw [after] at step
      exact (kept (ends?_of_gone effect step)).elim
  · exact ⟨row, by rw [Vault.row, leaves.ledger]; exact present, rfl⟩

theorem read_other {content : Bytes}
    (aside : tier.isStored = true → r.place? ≠ some (tier, locator))
    (read : v.read tier locator = .ok content) :
    (v.answer r).2.read tier locator = .ok content := by
  cases tier with
  | inline => exact read
  | medium =>
    have read := MediumStore.read_eq_ok.1 read
    rw [← medium_other (aside rfl)] at read
    exact MediumStore.read_eq_ok.2 read
  | large =>
    have read := LargeStore.read_eq_ok.1 read
    rw [← large_other (aside rfl)] at read
    exact LargeStore.read_eq_ok.2 read

end Request

/-- What stands at the place of a write that is not finished: nothing that can be read. -/
structure Vault.Awaits (v : Vault) (sink : Sink) : Prop where
  named : sink.tier.isStored = true → (Uuid.text? sink.locator).isSome = true
  unsaved : sink.tier = .medium → v.medium.find? sink.locator = none
  unpublished : sink.tier = .large → v.large.object? sink.locator =
    if sink.isOpen then some (.directory ⟨none, true, none⟩) else none

namespace Vault.Awaits

variable {v : Vault} {sink : Sink}

theorem notFound (awaits : v.Awaits sink) (stored : sink.tier.isStored = true) :
    v.read sink.tier sink.locator = .error (.notFound sink.tier sink.locator) := by
  obtain ⟨name, named⟩ := Option.isSome_iff_exists.1 (awaits.named stored)
  cases tier : sink.tier with
  | inline => cases tier ▸ stored
  | medium => simp only [read, MediumStore.read, awaits.unsaved tier]
  | large =>
    simp only [read, LargeStore.read, LargeStore.directoryOf, named, awaits.unpublished tier]
    cases sink.isOpen <;> rfl

/-- Other requests leave the place as it is. -/
theorem request {r : Request} (awaits : v.Awaits sink) (aside : sink.tier.isStored = true →
    r.place? ≠ some (sink.tier, sink.locator)) : (v.answer r).2.Awaits sink where
  named := awaits.named
  unsaved tier := by
    rw [tier] at aside
    exact (Request.medium_other (aside rfl)).trans (awaits.unsaved tier)
  unpublished tier := by
    rw [tier] at aside
    exact (Request.large_other (aside rfl)).trans (awaits.unpublished tier)

/-- The file of a bulk write is made if there is none, and holds nothing to read. -/
theorem openFile (awaits : v.Awaits sink) : ∃ isOpen v',
    v.openFile sink = .ok ({ sink with isOpen }, v') ∧ v'.Awaits { sink with isOpen } ∧
      (sink.tier = .large → isOpen = true) := by
  by_cases first : sink.tier = .large ∧ sink.isOpen = false
  · obtain ⟨large, closed⟩ := first
    have stored : sink.tier.isStored = true := by rw [large]; rfl
    obtain ⟨name, named⟩ := Option.isSome_iff_exists.1 (awaits.named stored)
    have nothing : v.large.object? sink.locator = none := by
      rw [awaits.unpublished large, closed]
      rfl
    -- A blocked store shows something at every place, so this one is not.
    have unblocked : v.large.isBlocked = false := by
      cases blocked : v.large.isBlocked with
      | false => rfl
      | true => simp [LargeStore.object?, blocked] at nothing
    have begun : v.large.beginContent sink.locator =
        .ok (v.large.put sink.locator (.directory ⟨none, true, none⟩)) := by
      simp only [LargeStore.beginContent, LargeStore.directoryOf, named, nothing]
      rfl
    refine ⟨true, { v with large := v.large.put sink.locator (.directory ⟨none, true, none⟩) },
      ?_, ⟨awaits.named, awaits.unsaved, fun _ => ?_⟩, fun _ => rfl⟩
    · simp only [Vault.openFile, large, closed, and_self, if_true, begun]
    · show LargeStore.object? (v.large.put sink.locator _) sink.locator = _
      rw [LargeStore.object?_put _ unblocked, if_pos rfl]
      rfl
  · refine ⟨sink.isOpen, v, if_neg first, awaits, fun large => ?_⟩
    simpa [large] using first

theorem append (awaits : v.Awaits sink) (chunk : Bytes) : ∃ isOpen v',
    v.append sink chunk = (.ok { sink with content := sink.content ++ chunk, isOpen }, v') ∧
      v'.Awaits { sink with content := sink.content ++ chunk, isOpen } := by
  obtain ⟨isOpen, v', opened, awaits', -⟩ := awaits.openFile
  refine ⟨isOpen, v', by simp only [Vault.append, opened], ?_⟩
  exact ⟨awaits'.named, awaits'.unsaved, awaits'.unpublished⟩

/-- What is committed can be read at once. Inline content is its own locator. -/
theorem commit (awaits : v.Awaits sink) : ∃ locator v', v.commit sink = (.ok locator, v') ∧
    locator = (if sink.tier.isStored then sink.locator else sink.content) ∧
    v'.read sink.tier locator = .ok sink.content := by
  cases tier : sink.tier with
  | inline => exact ⟨sink.content, v, by simp only [Vault.commit, tier], rfl, rfl⟩
  | medium =>
    have absent := awaits.unsaved tier
    have free : v.medium.contains sink.locator = false := by simp [LocatorMap.contains, absent]
    let blob : MediumBlob := ⟨sink.mediaType, sink.content, sink.createdAt⟩
    refine ⟨sink.locator, { v with medium := v.medium.insert sink.locator blob }, ?_, rfl, ?_⟩
    · simp only [Vault.commit, tier, MediumStore.insertNew, free, Bool.false_eq_true, if_false]
      rfl
    · refine MediumStore.read_eq_ok.2 ⟨blob, ?_, rfl⟩
      show (v.medium.insert sink.locator blob).find? sink.locator = _
      rw [LocatorMap.find?_insert, if_pos rfl]
  | large =>
    obtain ⟨isOpen, v', opened, awaits', isFile⟩ := awaits.openFile
    have partly : v'.large.object? sink.locator = some (.directory ⟨none, true, none⟩) := by
      have there := awaits'.unpublished tier
      rw [isFile tier] at there
      exact there
    let metadata : Metadata := ⟨sink.mediaType, sink.content.length, sink.createdAt⟩
    let published : ObjectDirectory := ⟨some sink.content, false, some metadata.render⟩
    refine ⟨sink.locator, { v' with large := v'.large.put sink.locator (.directory published) },
      ?_, rfl, ?_⟩
    · simp only [Vault.commit, tier, opened, LargeStore.publish, partly, if_true]
      rfl
    · refine LargeStore.read_eq_ok.2 ⟨awaits.named (by rw [tier]; rfl), published, ?_, rfl⟩
      show LargeStore.object? (v'.large.put sink.locator _) sink.locator = _
      rw [LargeStore.object?_put _ (LargeStore.unblocked_of_directory partly), if_pos rfl]

end Vault.Awaits

theorem Vault.run_answered {v v' : Vault} {r : Request} {reply : r.Reply}
    (next : r.Reply → Program α) (answered : v.answer r = (reply, v')) :
    v.run (.call r next) = v'.run (next reply) := by
  show (next (v.answer r).1).interpret Vault.answer (v.answer r).2 = _
  rw [answered]
  rfl

theorem Handle.stored_whole {spec : BlobSpec} {tier : Tier} {locator : Locator} {size : Nat}
    (stored : tier.isStored = true) (whole : (size : Int) = spec.size)
    (bounded : size < Handle.sizeLimit) (named : (Uuid.text? locator).isSome = true) :
    Handle.stored spec tier locator =
      .ok ⟨spec.mediaType, size, spec.displayName, tier, locator⟩ := by
  have external : tier ≠ .inline := by rintro rfl; cases stored
  have located : locator ≠ [] := by rintro rfl; cases named
  have natural : spec.size.toNat = size := by omega
  have positive : ¬spec.size < 0 := by omega
  simp only [Handle.stored, external, positive, natural, Nat.not_le.2 bounded, located, if_false]

/-- What happens beside a write: a request of others, or the clock goes on and records change. -/
inductive Meanwhile where
  | request (r : Request)
  | elsewhere (clock : Timestamp) (repository : Repository)

def Vault.meanwhile (v : Vault) : Meanwhile → Vault
  | .request r => (v.answer r).2
  | .elsewhere clock repository => { v with clock, repository }

namespace Meanwhile

/-- The object of this place is not asked to change. -/
def Spares (tier : Tier) (locator : Locator) : Meanwhile → Prop
  | request r => r.place? ≠ some (tier, locator)
  | elsewhere .. => True

def Keeps (locator : Locator) : Meanwhile → Prop
  | request r => r.ends? ≠ some locator
  | elsewhere .. => True

end Meanwhile

namespace Vault

variable {v : Vault} {tier : Tier} {locator : Locator} {content : Bytes}

theorem row_meanwhile {m : Meanwhile} {row : LedgerRow} (present : v.row locator = some row)
    (kept : m.Keeps locator) :
    ∃ row', (v.meanwhile m).row locator = some row' ∧ row'.tier = row.tier := by
  cases m with
  | request r => exact Request.row_stays present kept
  | elsewhere clock repository => exact ⟨row, present, rfl⟩

theorem read_meanwhile {m : Meanwhile} (spared : tier.isStored = true → m.Spares tier locator)
    (read : v.read tier locator = .ok content) :
    (v.meanwhile m).read tier locator = .ok content := by
  cases m with
  | request r => exact Request.read_other spared read
  | elsewhere clock repository => cases tier <;> exact read

theorem read_later {later : List Meanwhile}
    (spared : tier.isStored = true → ∀ m ∈ later, m.Spares tier locator)
    (read : v.read tier locator = .ok content) :
    (later.foldl meanwhile v).read tier locator = .ok content := by
  induction later generalizing v with
  | nil => exact read
  | cons m later ih =>
    refine ih (fun stored m' member => ?_) (read_meanwhile (fun stored => ?_) read)
    · exact spared stored m' (List.mem_cons_of_mem m member)
    · exact spared stored m List.mem_cons_self

end Vault

theorem Vault.Awaits.meanwhile {v : Vault} {sink : Sink} {m : Meanwhile} (awaits : v.Awaits sink)
    (aside : sink.tier.isStored = true → m.Spares sink.tier sink.locator) :
    (v.meanwhile m).Awaits sink := by
  cases m with
  | request r => exact awaits.request aside
  | elsewhere clock repository =>
    exact ⟨awaits.named, awaits.unsaved, awaits.unpublished⟩

/-- What happens while a write is open: it is offered a chunk, or something else happens. -/
inductive Turn where
  | chunk (bytes : Bytes)
  | meanwhile (m : Meanwhile)

namespace Turn

def accept (size : Int) (content : Bytes) : Turn → Bytes
  | chunk bytes =>
    if (content.length + bytes.length : Int) ≤ size then content ++ bytes else content
  | meanwhile _ => content

def accepted (size : Int) (turns : List Turn) : Bytes := turns.foldl (accept size) []

def chunk? : Turn → Option Bytes
  | chunk bytes => some bytes
  | meanwhile _ => none

def offered (turns : List Turn) : Nat := (turns.filterMap chunk?).flatten.length

def Spares (tier : Tier) (locator : Locator) : Turn → Prop
  | chunk _ => True
  | meanwhile m => m.Spares tier locator

def Keeps (locator : Locator) : Turn → Prop
  | chunk _ => True
  | meanwhile m => m.Keeps locator

theorem length_accepted_le (size : Int) (turns : List Turn) :
    (accepted size turns).length ≤ offered turns := by
  -- Over any content to begin with, since each chunk is measured against what came before it.
  have grown (content : Bytes) :
      (turns.foldl (accept size) content).length ≤ content.length + offered turns := by
    induction turns generalizing content with
    | nil => exact Nat.le_add_right _ _
    | cons turn turns ih =>
      have rest := ih (turn.accept size content)
      rw [List.foldl_cons]
      cases turn with
      | meanwhile m => exact rest
      | chunk bytes =>
        have more : offered (chunk bytes :: turns) = bytes.length + offered turns :=
          List.length_append
        have first :
            (accept size content (chunk bytes)).length ≤ content.length + bytes.length := by
          simp only [accept]
          split <;> simp
        omega
  have total := grown []
  rwa [List.length_nil, Nat.zero_add] at total

end Turn

namespace WriteSession

def turn (state : WriteSession × Vault) : Turn → WriteSession × Vault
  | .chunk bytes =>
    match state.2.run (state.1.write bytes).run with
    | (.ok s, v) => (s, v)
    | (.error _, v) => (state.1, v)
  | .meanwhile m => (state.1, state.2.meanwhile m)

/-- Committed inline content is its own handle. -/
theorem finish_inline {s : WriteSession} {v v' : Vault} {content : Bytes}
    (complete : s.written = s.spec.size) (inline : s.tier = .inline)
    (answered : v.commit s.sink = (.ok content, v')) :
    v.run s.finish.run = (.ok (.inline s.spec.mediaType s.spec.displayName content), v') := by
  obtain ⟨spec, tier, sink, written⟩ := s
  obtain rfl : tier = .inline := inline
  show v.run (ExceptT.run (if written ≠ spec.size then _ else _)) = _
  rw [if_neg (not_not_intro complete)]
  exact Vault.run_answered (r := .commit sink) _ answered

/-- Stored content that was committed gets its handle, and all is read as right after the commit. -/
theorem finish_stored {s : WriteSession} {v v' : Vault} {h : Handle}
    (complete : s.written = s.spec.size) (stored : s.tier.isStored = true)
    (answered : v.commit s.sink = (.ok s.locator, v'))
    (made : Handle.stored s.spec s.tier s.locator = .ok h) :
    ∃ v'', v.run s.finish.run = (.ok h, v'') ∧
      ∀ tier locator, v''.read tier locator = v'.read tier locator := by
  obtain ⟨spec, tier, sink, written⟩ := s
  -- Both stores end alike, after a message of their own.
  have delivered (v : Vault) : v.run (do
      if sink.locator ≠ sink.locator then throw (.storage (.foreignLocator tier))
      .ofExcept (Handle.stored spec tier sink.locator) : Operation Handle).run = (.ok h, v) := by
    show v.run (ExceptT.run (if sink.locator ≠ sink.locator then _ else _)) = _
    rw [if_neg (not_not_intro rfl)]
    exact congrArg (·, v) made
  have logged (event : Event) :
      ∀ tier locator, { v' with events := v'.events ++ [event] }.read tier locator =
        v'.read tier locator := by
    intro tier locator
    cases tier <;> rfl
  show ∃ v'', v.run (ExceptT.run (if written ≠ spec.size then _ else _)) = _ ∧ _
  rw [if_neg (not_not_intro complete)]
  cases tier with
  | inline => cases stored
  | medium =>
    refine ⟨_, ?_, logged (.mediumStored sink.locator sink.content.length)⟩
    refine (Vault.run_answered (r := .commit sink) _ answered).trans ?_
    exact (Vault.run_answered (r := .log _) _ rfl).trans (delivered _)
  | large =>
    refine ⟨_, ?_, logged (.largeStored sink.locator sink.content.length)⟩
    refine (Vault.run_answered (r := .commit sink) _ answered).trans ?_
    exact (Vault.run_answered (r := .log _) _ rfl).trans (delivered _)

/-- A session of this specification and place, with the content that it has accepted. -/
structure Going (opened : WriteSession) (content : Bytes) (s : WriteSession) (v : Vault) :
    Prop where
  spec : s.spec = opened.spec
  tier : s.tier = opened.tier
  locator : s.locator = opened.locator
  sorted : s.sink.tier = s.tier
  held : s.sink.content = content
  written : s.written = content.length
  awaits : v.Awaits s.sink

namespace Going

variable {opened s : WriteSession} {content chunk : Bytes} {v : Vault}

theorem rejects (going : opened.Going content s v)
    (exceeds : opened.spec.size < content.length + chunk.length) :
    v.run (s.write chunk).run =
      (.error (.sizeMismatch opened.spec.size (content.length + chunk.length)), v) := by
  have exceeds' : s.spec.size < s.written + chunk.length := by
    rw [going.spec, going.written]
    exact exceeds
  show v.run (ExceptT.run (if s.spec.size < s.written + chunk.length then _ else _)) = _
  rw [if_pos exceeds', going.spec, going.written]
  rfl

theorem accepts (going : opened.Going content s v)
    (fits : (content.length + chunk.length : Int) ≤ opened.spec.size) :
    ∃ s' v', v.run (s.write chunk).run = (.ok s', v') ∧
      opened.Going (content ++ chunk) s' v' ∧ v'.row = v.row := by
  obtain ⟨isOpen, v', answered, awaits⟩ := going.awaits.append chunk
  have within : ¬s.spec.size < s.written + chunk.length := by
    rw [going.spec, going.written]
    exact Int.not_lt.2 fits
  let sink : Sink := { s.sink with content := s.sink.content ++ chunk, isOpen }
  have rows : v'.row = v.row := by
    have silent := Request.row_silent (r := .append s.sink chunk) (v := v) rfl rfl
    rwa [show v.answer (.append s.sink chunk) = _ from answered] at silent
  refine ⟨{ s with sink, written := s.written + chunk.length }, v', ?_, ⟨going.spec, going.tier,
    going.locator, going.sorted, congrArg (· ++ chunk) going.held, ?_, awaits⟩, rows⟩
  · show v.run (ExceptT.run (if s.spec.size < s.written + chunk.length then _ else _)) = _
    rw [if_neg within]
    exact Vault.run_answered (r := .append s.sink chunk) _ answered
  · show s.written + chunk.length = _
    rw [going.written, List.length_append]
    rfl

theorem turn (going : opened.Going content s v) {t : Turn}
    (aside : opened.tier.isStored = true → t.Spares opened.tier opened.locator) :
    opened.Going (t.accept opened.spec.size content) (WriteSession.turn (s, v) t).1
      (WriteSession.turn (s, v) t).2 := by
  cases t with
  | chunk bytes =>
    simp only [Turn.accept, WriteSession.turn]
    split
    · next fits =>
      obtain ⟨s', v', run, going', -⟩ := going.accepts fits
      rw [run]
      exact going'
    · next exceeds =>
      rw [going.rejects (Int.not_le.1 exceeds)]
      exact going
  | meanwhile m =>
    refine { going with awaits := going.awaits.meanwhile fun stored => ?_ }
    rw [going.sorted, going.tier] at stored ⊢
    rw [show s.sink.locator = opened.locator from going.locator]
    exact aside stored

/-- A turn that does not end a row keeps it; chunks do not touch rows. -/
theorem turn_row (going : opened.Going content s v) {t : Turn} {locator : Locator}
    {row : LedgerRow} (present : v.row locator = some row) (kept : t.Keeps locator) :
    ∃ row', (WriteSession.turn (s, v) t).2.row locator = some row' ∧ row'.tier = row.tier := by
  cases t with
  | chunk bytes =>
    refine ⟨row, ?_, rfl⟩
    simp only [WriteSession.turn]
    by_cases fits : (content.length + bytes.length : Int) ≤ opened.spec.size
    · obtain ⟨s', v', run, -, rows⟩ := going.accepts fits
      rw [run]
      exact (congrFun rows locator).trans present
    · rw [going.rejects (Int.not_le.1 fits)]
      exact present
  | meanwhile m => exact Vault.row_meanwhile present kept

theorem turns (going : opened.Going content s v) {ts : List Turn}
    (aside : opened.tier.isStored = true → ∀ t ∈ ts, t.Spares opened.tier opened.locator) :
    opened.Going (ts.foldl (Turn.accept opened.spec.size) content)
      (ts.foldl WriteSession.turn (s, v)).1 (ts.foldl WriteSession.turn (s, v)).2 := by
  induction ts generalizing content s v with
  | nil => exact going
  | cons t ts ih =>
    refine ih (going.turn fun stored => ?_) fun stored t' member => ?_
    · exact aside stored t List.mem_cons_self
    · exact aside stored t' (List.mem_cons_of_mem t member)

theorem turns_row (going : opened.Going content s v) {ts : List Turn} {locator : Locator}
    {row : LedgerRow} (present : v.row locator = some row)
    (aside : opened.tier.isStored = true → ∀ t ∈ ts, t.Spares opened.tier opened.locator)
    (kept : ∀ t ∈ ts, t.Keeps locator) :
    ∃ row', (ts.foldl WriteSession.turn (s, v)).2.row locator = some row' ∧
      row'.tier = row.tier := by
  induction ts generalizing content s v row with
  | nil => exact ⟨row, present, rfl⟩
  | cons t ts ih =>
    have first : ∃ row', (WriteSession.turn (s, v) t).2.row locator = some row' ∧
        row'.tier = row.tier := going.turn_row present (kept t List.mem_cons_self)
    obtain ⟨row', present', same⟩ := first
    obtain ⟨row'', present'', same'⟩ := ih
      (going.turn fun stored => aside stored t List.mem_cons_self) present'
      (fun stored t' member => aside stored t' (List.mem_cons_of_mem t member))
      (fun t' member => kept t' (List.mem_cons_of_mem t member))
    exact ⟨row'', present'', same'.trans same⟩

theorem refuses (going : opened.Going content s v)
    (short : (content.length : Int) ≠ opened.spec.size) :
    v.run s.finish.run = (.error (.sizeMismatch opened.spec.size content.length), v) := by
  have short' : s.written ≠ s.spec.size := by
    rw [going.spec, going.written]
    exact short
  show v.run (ExceptT.run (if s.written ≠ s.spec.size then _ else _)) = _
  rw [if_pos short', going.spec, going.written]
  rfl

theorem finishes (going : opened.Going content s v)
    (whole : (content.length : Int) = opened.spec.size)
    (bounded : content.length < Handle.sizeLimit) :
    ∃ h v', v.run s.finish.run = (.ok h, v') ∧
      h = ⟨opened.spec.mediaType, content.length, opened.spec.displayName, opened.tier,
        if opened.tier.isStored then opened.locator else content⟩ ∧
      v'.read h.tier h.locator = .ok content := by
  obtain ⟨locator, v', answered, located, read⟩ := going.awaits.commit
  have named := going.awaits.named
  obtain ⟨sameSpec, sameTier, sameLocator, sorted, rfl, complete, -⟩ := going
  have done : s.written = s.spec.size := by rw [complete, whole, sameSpec]
  rw [sorted] at located read named
  rw [← sameTier, ← sameLocator, ← sameSpec]
  cases stored : s.tier.isStored with
  | false =>
    rw [stored] at located
    obtain rfl : locator = s.sink.content := located
    have inline : s.tier = .inline := Tier.isStored_eq_false.1 stored
    refine ⟨_, v', finish_inline done inline answered, ?_, rfl⟩
    rw [inline]
    rfl
  | true =>
    rw [stored] at located
    obtain rfl : locator = s.locator := located
    have made : Handle.stored s.spec s.tier s.locator = .ok
        ⟨s.spec.mediaType, s.sink.content.length, s.spec.displayName, s.tier, s.locator⟩ :=
      Handle.stored_whole stored (whole.trans (congrArg _ sameSpec.symm)) bounded (named stored)
    obtain ⟨v'', run, same⟩ := finish_stored done stored answered made
    exact ⟨_, v'', run, rfl, (same _ _).trans read⟩

end Going

structure Exact (opened : WriteSession) (content : Bytes) (s : WriteSession) (v : Vault) :
    Prop where
  rejects : ∀ chunk : Bytes, opened.spec.size < content.length + chunk.length →
    v.run (s.write chunk).run =
      (.error (.sizeMismatch opened.spec.size (content.length + chunk.length)), v)
  accepts : ∀ chunk : Bytes, content.length + chunk.length ≤ opened.spec.size →
    ∃ s' v', v.run (s.write chunk).run = (.ok s', v')
  hidden : opened.tier.isStored = true →
    ∀ h : Handle, h.tier = opened.tier → h.locator = opened.locator →
      v.run (openRead h).run = (.error (.notFound opened.tier opened.locator), v)
  refuses : content.length ≠ opened.spec.size →
    v.run s.finish.run = (.error (.sizeMismatch opened.spec.size content.length), v)
  delivers : content.length = opened.spec.size → ∃ h v', v.run s.finish.run = (.ok h, v') ∧
    h.tier = opened.tier ∧ h.size = opened.spec.size ∧ h.mediaType = opened.spec.mediaType ∧
    h.displayName = opened.spec.displayName ∧
    (h.tier.isStored = true → h.locator = opened.locator) ∧
    ∀ later : List Meanwhile,
      (h.tier.isStored = true → ∀ m ∈ later, m.Spares h.tier h.locator) →
      ((later.foldl Vault.meanwhile v').run (openRead h).run).1 = .ok content

theorem Going.exact {opened s : WriteSession} {content : Bytes} {v : Vault}
    (going : opened.Going content s v) (bounded : content.length < Handle.sizeLimit) :
    opened.Exact content s v where
  rejects _ exceeds := going.rejects exceeds
  accepts _ fits := by
    obtain ⟨s', v', run, -, -⟩ := going.accepts fits
    exact ⟨s', v', run⟩
  hidden stored h sameTier sameLocator := by
    have unread := going.awaits.notFound (by rwa [going.sorted, going.tier])
    rw [going.sorted, going.tier, show s.sink.locator = opened.locator from going.locator] at unread
    show (v.read h.tier h.locator, v) = _
    rw [sameTier, sameLocator, unread]
  refuses := going.refuses
  delivers whole := by
    obtain ⟨h, v', run, rfl, read⟩ := going.finishes whole bounded
    exact ⟨_, v', run, rfl, whole, rfl, rfl, fun stored => if_pos stored,
      fun later spared => Vault.read_later spared read⟩

end WriteSession

structure Vault.Unused (v : Vault) (locator : Locator) : Prop where
  named : (Uuid.text? locator).isSome = true
  row : v.row locator = none
  medium : v.medium.find? locator = none
  large : v.large.object? locator = none

theorem Vault.Unused.awaits {v v' : Vault} {sink : Sink} (unused : v.Unused sink.locator)
    (medium : v'.medium = v.medium) (large : v'.large = v.large) (closed : sink.isOpen = false) :
    v'.Awaits sink where
  named _ := unused.named
  unsaved _ := by rw [medium]; exact unused.medium
  unpublished _ := by rw [large, closed]; exact unused.large

theorem openWrite_going {v : Vault} {thresholds : Thresholds} {spec : BlobSpec}
    (declared : 0 ≤ spec.size) (fresh : (thresholds.select spec.size).isStored = true →
      v.Unused (v.supply v.issued)) :
    ∃ s v', v.run (openWrite thresholds spec).run = (.ok s, v') ∧ s.spec = spec ∧
      s.tier = thresholds.select spec.size ∧ (s.tier.isStored = true →
        s.locator = v.supply v.issued ∧ v'.row s.locator = some (.fresh s.tier v.clock)) ∧
      s.Going [] s v' := by
  show ∃ s v', v.run (ExceptT.run (if spec.size < 0 then _ else _)) = _ ∧ _
  rw [if_neg (Int.not_lt.2 declared)]
  generalize thresholds.select spec.size = tier at fresh
  cases stored : tier.isStored with
  | false =>
    obtain rfl := Tier.isStored_eq_false.1 stored
    refine ⟨_, v, rfl, rfl, rfl, nofun, ⟨rfl, rfl, rfl, rfl, rfl, rfl, ?_⟩⟩
    exact ⟨nofun, nofun, nofun⟩
  | true =>
    have unused := fresh stored
    let sink : Sink := ⟨tier, v.supply v.issued, spec.mediaType, v.clock, [], false⟩
    let issued : Vault := { v with issued := v.issued + 1 }
    let ledger : Ledger := v.ledger.insert sink.locator (.fresh tier v.clock)
    let events : List Event := v.events ++ [.incubating sink.locator]
    have opened : v.answer (.openWrite tier spec.mediaType) = (.ok sink, issued) := by
      cases tier with
      | inline => cases stored
      | _ => rfl
    have entered : issued.answer (.incubate sink.locator tier v.clock) =
        (.ok (), { issued with ledger }) :=
      Vault.answer_incubate (v := issued) stored unused.row v.clock
    have present : ledger.find? sink.locator = some (.fresh tier v.clock) :=
      (LocatorMap.find?_insert ..).trans (if_pos rfl)
    have awaits : ({ issued with ledger, events } : Vault).Awaits sink :=
      Vault.Unused.awaits (v := v) unused rfl rfl rfl
    refine ⟨⟨spec, tier, sink, 0⟩, { issued with ledger, events },
      (Vault.run_answered _ opened).trans ?_, rfl, rfl, fun _ => ⟨rfl, present⟩,
      rfl, rfl, rfl, rfl, rfl, rfl, awaits⟩
    refine (Vault.run_answered (v := issued) (r := .now) _ rfl).trans ?_
    exact (Vault.run_answered _ entered).trans (Vault.run_answered (r := .log _) _ rfl)

/-- A write of a negative size is refused. Any other write is opened, with an entry if it is stored,
and whatever it is offered from then on, in chunks that fit or do not fit, it accepts no more than
was declared, gives nothing to read before its end, and ends with all its content or not at all.
What was written is read until its own object is asked for. -/
theorem writes_exact (thresholds : Thresholds) (spec : BlobSpec) (v : Vault)
    (fresh : 0 ≤ spec.size → (thresholds.select spec.size).isStored = true →
      v.Unused (v.supply v.issued)) :
    if spec.size < 0 then
      v.run (openWrite thresholds spec).run = (.error (.sizeMismatch spec.size 0), v)
    else ∃ s v', v.run (openWrite thresholds spec).run = (.ok s, v') ∧ s.spec = spec ∧
      s.tier = thresholds.select spec.size ∧
      (s.tier.isStored = true → s.locator = v.supply v.issued) ∧
      ∀ turns : List Turn, Turn.offered turns < Handle.sizeLimit →
        (s.tier.isStored = true → ∀ t ∈ turns, t.Spares s.tier s.locator) →
        let reached := turns.foldl WriteSession.turn (s, v')
        s.Exact (Turn.accepted spec.size turns) reached.1 reached.2 ∧
          (s.tier.isStored = true → (∀ t ∈ turns, t.Keeps s.locator) →
            ∃ row, reached.2.row s.locator = some row ∧ row.tier = s.tier.name) := by
  split
  · next negative =>
    show v.run (ExceptT.run (if spec.size < 0 then _ else _)) = _
    rw [if_pos negative]
    rfl
  · next declared =>
    have declared : 0 ≤ spec.size := Int.not_lt.1 declared
    obtain ⟨s, v', run, rfl, sorted, placed, going⟩ := openWrite_going declared (fresh declared)
    refine ⟨s, v', run, rfl, sorted, fun stored => (placed stored).1, fun turns few aside => ?_⟩
    have bounded := Nat.lt_of_le_of_lt (Turn.length_accepted_le s.spec.size turns) few
    refine ⟨(going.turns aside).exact bounded, fun stored kept => ?_⟩
    exact going.turns_row (placed stored).2 aside kept

namespace Sample

def shelf : Vault :=
  { Vault.empty "" false 1000000 with supply := fun n => List.replicate 15 0 ++ [UInt8.ofNat n] }

def volume : BlobSpec := ⟨"text/plain", "volume", 5⟩

def neighbour : Meanwhile :=
  .request (.commit ⟨.medium, List.replicate 16 1, "text/plain", 1000000, [9], false⟩)

def chapters : List Turn :=
  [.chunk [1, 2], .meanwhile neighbour, .chunk [3, 4, 5, 6], .chunk [], .chunk [3, 4, 5]]

end Sample

theorem long_chapter_skipped :
    (0 ≤ Sample.volume.size → ((⟨2, 4⟩ : Thresholds).select Sample.volume.size).isStored = true →
      Sample.shelf.Unused (Sample.shelf.supply Sample.shelf.issued)) ∧
    ∃ s v', Sample.shelf.run (openWrite ⟨2, 4⟩ Sample.volume).run = (.ok s, v') ∧
      ∃ h v'', (Sample.chapters.foldl WriteSession.turn (s, v')).2.run
          (Sample.chapters.foldl WriteSession.turn (s, v')).1.finish.run = (.ok h, v'') ∧
        h.tier = .large ∧
        ((v''.meanwhile Sample.neighbour).run (openRead h).run).1 = .ok [1, 2, 3, 4, 5] := by
  have fresh : Sample.shelf.Unused (Sample.shelf.supply Sample.shelf.issued) :=
    ⟨by decide +kernel, rfl, rfl, rfl⟩
  refine ⟨fun _ _ => fresh, ?_⟩
  have written := writes_exact ⟨2, 4⟩ Sample.volume Sample.shelf fun _ _ => fresh
  rw [if_neg (by decide)] at written
  obtain ⟨s, v', run, spec, tier, placed, promised⟩ := written
  have large : s.tier = .large := tier
  have locator : s.locator = List.replicate 16 0 := placed (by rw [large]; rfl)
  have apart : Sample.neighbour.Spares s.tier s.locator := by
    rw [large, locator]
    show some (Tier.medium, _) ≠ some (Tier.large, _)
    simp
  have aside : ∀ t ∈ Sample.chapters, t.Spares s.tier s.locator := by
    simp only [Sample.chapters, List.forall_mem_cons, Turn.Spares, true_and]
    exact ⟨apart, List.forall_mem_nil _⟩
  obtain ⟨h, v'', finished, sorted, -, -, -, same, read⟩ :=
    (promised Sample.chapters (by decide) fun _ => aside).1.delivers (by rw [spec]; decide)
  refine ⟨s, v', run, h, v'', finished, sorted.trans large, ?_⟩
  refine read [Sample.neighbour] fun stored m member => ?_
  rw [List.mem_singleton.1 member, sorted, same stored]
  exact apart

end BlobLifecycle
