import BlobLifecycle.Proofs.WellFormed

/-! Reservations that run whole. A reservation claims all it was asked for or leaves no new claim. -/
namespace BlobLifecycle

structure Vault.LedgerOnly (v v' : Vault) : Prop extends v.Keeps v' where
  medium : v'.medium = v.medium
  large : v'.large = v.large
  issued : v'.issued = v.issued
  lock : v'.isSweeping = v.isSweeping

def Request.IsLedgerWork : Request → Prop
  | .now | .log _ | .entry _ | .claim .. | .unclaim .. | .release .. | .openRead .. => True
  | _ => False

namespace Vault.LedgerOnly

variable {v v' v'' : Vault}

theorem refl (v : Vault) : v.LedgerOnly v := ⟨⟨rfl, rfl, rfl⟩, rfl, rfl, rfl, rfl⟩

theorem trans (first : v.LedgerOnly v') (second : v'.LedgerOnly v'') : v.LedgerOnly v'' :=
  ⟨⟨second.clock.trans first.clock, second.supply.trans first.supply,
    second.repository.trans first.repository⟩, second.medium.trans first.medium,
    second.large.trans first.large, second.issued.trans first.issued, second.lock.trans first.lock⟩

theorem object? (only : v.LedgerOnly v') (tier : Tier) (locator : Locator) :
    v'.object? tier locator = v.object? tier locator := by
  simp only [Vault.object?, only.medium, only.large]

end Vault.LedgerOnly

theorem Request.IsLedgerWork.answer {r : Request} (work : r.IsLedgerWork) (v : Vault) :
    v.LedgerOnly (v.answer r).2 := by
  cases r <;> first | exact work.elim | exact ⟨⟨rfl, rfl, rfl⟩, rfl, rfl, rfl, rfl⟩

theorem Program.Asks.ledgerOnly {p : Program α} (asks : p.Asks Request.IsLedgerWork) (v : Vault)
    (own : List Effect) : p.Ensures (fun _ _ v' => v.LedgerOnly v') v own :=
  asks.ensures v.LedgerOnly (.refl v) fun _ _ work before => before.trans (work.answer _)

section

open Program

theorem Reference.claim_asks (r : Reference) (now : Timestamp) :
    (r.claim now).run.Asks Request.IsLedgerWork := by
  refine ⟨trivial, fun reply _ => ?_⟩
  cases reply with
  | error e => trivial
  | ok outcome => cases outcome <;> first | exact ⟨trivial, fun _ _ => trivial⟩ | trivial

theorem undoAll_asks (claimed : List Reference) : (undoAll claimed).Asks Request.IsLedgerWork := by
  induction claimed with
  | nil => trivial
  | cons r rest ih =>
    refine Asks.bind ⟨trivial, fun reply _ => ?_⟩ fun _ => ih
    cases reply with
    | error e => exact ⟨trivial, fun _ _ => trivial⟩
    | ok done => cases done <;> first | exact ⟨trivial, fun _ _ => trivial⟩ | trivial

theorem claimAll_asks (now : Timestamp) (rest claimed : List Reference) :
    (claimAll now rest claimed).run.Asks Request.IsLedgerWork := by
  induction rest generalizing claimed with
  | nil => trivial
  | cons r rest ih =>
    refine (r.claim_asks now).bind fun result => ?_
    match result with
    | .ok true => exact ih _
    | .ok false => exact ih _
    | .error e => exact (undoAll_asks claimed).bind fun _ => trivial

theorem reserve_asks (references : List Reference) :
    (reserve references).run.Asks Request.IsLedgerWork :=
  ⟨trivial, fun _ _ => claimAll_asks _ _ _⟩

theorem Reference.confirm_asks (r : Reference) : r.confirm.run.Asks Request.IsLedgerWork := by
  have lost (obstacle : Obstacle) : (r.lost obstacle).run.Asks Request.IsLedgerWork :=
    ⟨trivial, fun _ _ => trivial⟩
  refine ⟨trivial, fun reply _ => ?_⟩
  match reply with
  | .error e => trivial
  | .ok true => trivial
  | .ok false =>
    refine ⟨trivial, fun reply _ => ?_⟩
    match reply with
    | .error e => trivial
    | .ok (some e) => exact lost _
    | .ok none =>
      refine ⟨trivial, fun content _ => ?_⟩
      cases content with
      | ok content => exact ⟨trivial, fun _ _ => trivial⟩
      | error e =>
        show Asks _ (ExceptT.run (if e.isNotFound = true then _ else _))
        split
        · exact lost _
        · trivial

theorem confirm_asks (references : List Reference) :
    (confirm references).run.Asks Request.IsLedgerWork := by
  unfold confirm
  induction storedReferences references with
  | nil => trivial
  | cons r rest ih => exact Operation.asks_bind r.confirm_asks fun _ => ih

end

def LedgerRow.Grants (row : LedgerRow) (holder : RecordField) : Prop :=
  row.Claimable ∨ row.HeldFor holder

namespace LedgerRow

variable {row : LedgerRow} {holder holder' : RecordField} {now : Timestamp}

theorem HeldFor.renew (held : row.HeldFor holder) (now : Timestamp) :
    { row with claimedAt := some now } = row.claimFor holder now := by
  simp only [claimFor, ← held.1, ← held.2.1]

theorem Grants.held (grants : row.Grants holder) : (row.claimFor holder now).HeldFor holder :=
  ⟨rfl, rfl, grants.elim (·.2) (·.2.2)⟩

theorem not_claimable_claimFor : ¬(row.claimFor holder now).Claimable := fun free => nomatch free.1

theorem holder_of_claimFor (held : (row.claimFor holder now).HeldFor holder') : holder = holder' := by
  obtain ⟨record, field⟩ := holder
  obtain ⟨record', field'⟩ := holder'
  obtain ⟨sameRecord, sameField, -⟩ := held
  cases sameRecord
  cases sameField
  rfl

theorem Claimable.unheld (free : row.Claimable) : ¬row.HeldFor holder :=
  fun held => nomatch free.1.symm.trans held.1

end LedgerRow

namespace Vault

variable {v v' : Vault} {locator : Locator} {holder : RecordField} {time : Timestamp}

def Sets (v : Vault) (locator : Locator) (row : LedgerRow) (v' : Vault) : Prop :=
  ∀ key, v'.row key = if key = locator then some row else v.row key

theorem modify_sets {row : LedgerRow} {f : LedgerRow → LedgerRow} (present : v.row locator = some row) :
    v.Sets locator (f row) { v with ledger := v.ledger.modify locator f } := by
  intro key
  show (v.ledger.modify locator f).find? key = _
  have found : v.ledger.find? locator = some row := present
  rw [LocatorMap.find?_modify, found]
  rfl

/-- A claim on a well-formed ledger: newly granted, renewed or refused. -/
theorem claim_cases (wellFormed : v.ledger.WellFormed) (locator : Locator)
    (holder : RecordField) (time : Timestamp) :
    (∃ row, v.row locator = some row ∧ row.Claimable ∧
        (v.answer (.claim locator holder time)).1 = .ok .claimed ∧
        v.Sets locator (row.claimFor holder time) (v.answer (.claim locator holder time)).2) ∨
      (∃ row, v.row locator = some row ∧ row.HeldFor holder ∧
        (v.answer (.claim locator holder time)).1 = .ok .renewed ∧
        v.Sets locator (row.claimFor holder time) (v.answer (.claim locator holder time)).2) ∨
      ((v.answer (.claim locator holder time)).2.row = v.row ∧
        (∀ row, v.row locator = some row → ¬row.Grants holder) ∧
        ((v.answer (.claim locator holder time)).1 = .ok .missing ∨
          ∃ e, (v.answer (.claim locator holder time)).1 = .ok (.conflict e))) := by
  simp only [answer, Ledger.claim]
  cases present : v.ledger.find? locator with
  | none =>
    refine .inr (.inr ⟨rfl, fun row found => ?_, .inl rfl⟩)
    cases present.symm.trans found
  | some row =>
    dsimp only
    by_cases free : row.Claimable
    · rw [if_pos free]
      exact .inl ⟨row, present, free, rfl, modify_sets present⟩
    · rw [if_neg free]
      by_cases held : row.HeldFor holder
      · rw [if_pos held]
        refine .inr (.inl ⟨row, present, held, rfl, ?_⟩)
        rw [← held.renew time]
        exact modify_sets present
      · rw [if_neg held]
        obtain ⟨e, here, -, read⟩ := (wellFormed locator row present).entry locator
        refine .inr (.inr ⟨rfl, ?_, .inr ⟨e, ?_⟩⟩)
        · intro row' found
          cases present.symm.trans found
          exact fun grants => grants.elim free held
        rw [LedgerRow.toEntry_eq_ok.2 ⟨here, read⟩]
        rfl

theorem unclaim_held {row : LedgerRow} (present : v.row locator = some row) (held : row.HeldFor holder) :
    (v.answer (.unclaim locator holder)).1 = .ok true ∧
      v.Sets locator row.unclaim (v.answer (.unclaim locator holder)).2 := by
  have found : v.ledger.find? locator = some row := present
  simp only [answer, Ledger.unclaim, found, held, if_true]
  exact ⟨trivial, modify_sets present⟩

theorem Sets.wellFormed {row : LedgerRow} (sets : v.Sets locator row v')
    (before : v.ledger.WellFormed) (kind : row.WellFormed) : v'.ledger.WellFormed := by
  intro key row' present
  have found := (sets key).symm.trans present
  split at found
  · cases found
    exact kind
  · exact before key row' found

end Vault

/-- The references of a reservation that were claimed so far, and what became of the rows: those
newly claimed stand in a list of their own. -/
structure Claiming (v : Vault) (now : Timestamp) (done claimed : List Reference) (v' : Vault) :
    Prop where
  wellFormed : v'.ledger.WellFormed
  granted : ∀ r ∈ done, ∃ row, v.row r.handle.locator = some row ∧ row.Grants r.holder ∧
    v'.row r.handle.locator = some (row.claimFor r.holder now)
  untouched : ∀ locator, (∀ r ∈ done, r.handle.locator ≠ locator) → v'.row locator = v.row locator
  mine : ∀ r ∈ claimed, r ∈ done
  free : ∀ r ∈ done, ∀ row, v.row r.handle.locator = some row →
    (row.Claimable ↔ ∃ r' ∈ claimed, r'.handle.locator = r.handle.locator)
  distinct : claimed.Pairwise fun r r' => r.handle.locator ≠ r'.handle.locator

/-- What the references held before has a new claim time, and every other row is as it was. -/
structure Vault.Reverts (v : Vault) (now : Timestamp) (references : List Reference) (v' : Vault) :
    Prop where
  renewed : ∀ r ∈ references, ∀ row, v.row r.handle.locator = some row → row.HeldFor r.holder →
    v'.row r.handle.locator = some { row with claimedAt := some now }
  others : ∀ locator, (∀ r ∈ references, r.handle.locator = locator →
    ∀ row, v.row locator = some row → ¬row.HeldFor r.holder) → v'.row locator = v.row locator

def Vault.Restores (v : Vault) (now : Timestamp) (v' : Vault) : Prop :=
  ∀ locator, v'.row locator = v.row locator ∨ ∃ row holder, v.row locator = some row ∧
    row.HeldFor holder ∧ v'.row locator = some (row.claimFor holder now)

theorem Vault.Reverts.restores {v v' : Vault} {now : Timestamp} {references : List Reference}
    (reverts : v.Reverts now references v') : v.Restores now v' := by
  intro locator
  by_cases renewed : ∃ r ∈ references, r.handle.locator = locator ∧
      ∃ row, v.row locator = some row ∧ row.HeldFor r.holder
  · obtain ⟨r, member, rfl, row, before, held⟩ := renewed
    refine .inr ⟨row, r.holder, before, held, ?_⟩
    rw [reverts.renewed r member row before held, held.renew]
  · exact .inl (reverts.others locator fun r member here row before held =>
      renewed ⟨r, member, here, row, before, held⟩)

def Vault.Offers (v : Vault) (r : Reference) : Prop :=
  ∃ row, v.row r.handle.locator = some row ∧ row.Grants r.holder

/-- Each reference finds an entry it may claim, and no two want one entry for two holders. -/
structure Vault.Reservable (v : Vault) (references : List Reference) : Prop where
  offers : ∀ r ∈ references, v.Offers r
  agree : ∀ r ∈ references, ∀ r' ∈ references, r.handle.locator = r'.handle.locator →
    r.holder = r'.holder

theorem Vault.Reservable.of_subset {v : Vault} {some all : List Reference}
    (reservable : v.Reservable all) (part : some ⊆ all) : v.Reservable some :=
  ⟨fun r member => reservable.offers r (part member),
    fun r member r' member' => reservable.agree r (part member) r' (part member')⟩

structure Vault.Reserves (v : Vault) (now : Timestamp) (references : List Reference) (v' : Vault) :
    Prop where
  granted : ∀ r ∈ storedReferences references, ∃ row, v.row r.handle.locator = some row ∧
    row.Grants r.holder ∧ v'.row r.handle.locator = some (row.claimFor r.holder now)
  untouched : ∀ locator, (∀ r ∈ storedReferences references, r.handle.locator ≠ locator) →
    v'.row locator = v.row locator

/-- A row stands claimed for one holder. -/
theorem holder_eq_of_claimed {v : Vault} {row row' : LedgerRow} {now : Timestamp} {r r' : Reference}
    (claimed : v.row r.handle.locator = some (row.claimFor r.holder now))
    (claimed' : v.row r'.handle.locator = some (row'.claimFor r'.holder now))
    (grants : row'.Grants r'.holder) (same : r.handle.locator = r'.handle.locator) :
    r.holder = r'.holder := by
  rw [same, claimed'] at claimed
  have held : (row.claimFor r.holder now).HeldFor r'.holder := by
    rw [← Option.some.inj claimed]
    exact grants.held
  exact LedgerRow.holder_of_claimFor held

/-- One reservation grants a locator to one holder. -/
theorem Vault.Reserves.holder_eq {v v' : Vault} {now : Timestamp} {references : List Reference}
    {r r' : Reference} (reserves : v.Reserves now references v')
    (member : r ∈ storedReferences references) (member' : r' ∈ storedReferences references)
    (same : r.handle.locator = r'.handle.locator) : r.holder = r'.holder := by
  obtain ⟨row, -, -, claimed⟩ := reserves.granted r member
  obtain ⟨row', -, grants', claimed'⟩ := reserves.granted r' member'
  exact holder_eq_of_claimed claimed claimed' grants' same

namespace Claiming

variable {v v' v'' : Vault} {now : Timestamp} {done claimed : List Reference} {r : Reference}

theorem start (wellFormed : v.ledger.WellFormed) : Claiming v now [] [] v :=
  ⟨wellFormed, by simp, fun _ _ => rfl, by simp, by simp, .nil⟩

/-- What a reference finds: its row is untouched, or was claimed before for some holder. -/
theorem found {row : LedgerRow} {locator : Locator} (claiming : Claiming v now done claimed v')
    (present : v'.row locator = some row) :
    (v.row locator = some row ∧ ∀ r ∈ done, r.handle.locator ≠ locator) ∨
      ∃ r ∈ done, r.handle.locator = locator ∧ ∃ row₀, v.row locator = some row₀ ∧
        row₀.Grants r.holder ∧ row = row₀.claimFor r.holder now := by
  by_cases touched : ∃ r ∈ done, r.handle.locator = locator
  · obtain ⟨r, member, rfl⟩ := touched
    obtain ⟨row₀, before, grants, after⟩ := claiming.granted r member
    exact .inr ⟨r, member, rfl, row₀, before, grants, Option.some.inj (present.symm.trans after)⟩
  · have aside : ∀ r ∈ done, r.handle.locator ≠ locator := by simpa using touched
    exact .inl ⟨(claiming.untouched locator aside).symm.trans present, aside⟩

theorem transfer (claiming : Claiming v now done claimed v') (same : v''.row = v'.row) :
    Claiming v now done claimed v'' := by
  obtain ⟨wellFormed, granted, untouched, mine, free, distinct⟩ := claiming
  rw [← same] at granted untouched
  refine ⟨fun locator row present => ?_, granted, untouched, mine, free, distinct⟩
  exact wellFormed locator row ((congrFun same locator).symm.trans present)

theorem reservable (claiming : Claiming v now done claimed v') : v.Reservable done where
  offers r member := by
    obtain ⟨row, before, grants, -⟩ := claiming.granted r member
    exact ⟨row, before, grants⟩
  agree r member r' member' same := by
    obtain ⟨row, -, -, claimed⟩ := claiming.granted r member
    obtain ⟨row', -, grants', claimed'⟩ := claiming.granted r' member'
    exact holder_eq_of_claimed claimed claimed' grants' same

/-- What is refused after these could not be claimed together with them. -/
theorem not_reservable (claiming : Claiming v now done claimed v')
    (refused : ∀ row, v'.row r.handle.locator = some row → ¬row.Grants r.holder) :
    ¬v.Reservable (done ++ [r]) := by
  intro reservable
  have last : r ∈ done ++ [r] := by simp
  by_cases touched : ∃ r' ∈ done, r'.handle.locator = r.handle.locator
  · obtain ⟨r', member, here⟩ := touched
    have alike := reservable.agree r' (List.mem_append_left _ member) r last here
    obtain ⟨row, -, grants, after⟩ := claiming.granted r' member
    rw [here] at after
    exact refused _ after (.inr (alike ▸ grants.held))
  · have aside : ∀ r' ∈ done, r'.handle.locator ≠ r.handle.locator := by simpa using touched
    obtain ⟨row, before, grants⟩ := reservable.offers r last
    exact refused row ((claiming.untouched _ aside).trans before) grants

theorem granted_next {row row₀ : LedgerRow} (claiming : Claiming v now done claimed v')
    (sets : v'.Sets r.handle.locator (row.claimFor r.holder now) v'')
    (before : v.row r.handle.locator = some row₀) (grants : row₀.Grants r.holder)
    (same : row.claimFor r.holder now = row₀.claimFor r.holder now)
    (alike : ∀ r' ∈ done, r'.handle.locator = r.handle.locator → r'.holder = r.holder) :
    (∀ r' ∈ done ++ [r], ∃ row, v.row r'.handle.locator = some row ∧ row.Grants r'.holder ∧
        v''.row r'.handle.locator = some (row.claimFor r'.holder now)) ∧
      ∀ locator, (∀ r' ∈ done ++ [r], r'.handle.locator ≠ locator) →
        v''.row locator = v.row locator := by
  constructor
  · intro r' member
    rw [sets]
    split
    · next here =>
      rcases List.mem_append.1 member with old | new
      · exact ⟨row₀, here ▸ before, alike r' old here ▸ grants, by rw [alike r' old here, same]⟩
      · obtain rfl := List.mem_singleton.1 new
        exact ⟨row₀, before, grants, by rw [same]⟩
    · next aside =>
      rcases List.mem_append.1 member with old | new
      · exact claiming.granted r' old
      · exact (aside (by rw [List.mem_singleton.1 new])).elim
  · intro locator aside
    rw [sets, if_neg (Ne.symm (aside r (by simp)))]
    exact claiming.untouched locator fun r' member => aside r' (by simp [member])

theorem claimedNew {row : LedgerRow} (claiming : Claiming v now done claimed v')
    (present : v'.row r.handle.locator = some row) (free : row.Claimable)
    (sets : v'.Sets r.handle.locator (row.claimFor r.holder now) v'') :
    Claiming v now (done ++ [r]) (claimed ++ [r]) v'' := by
  rcases claiming.found present with ⟨before, aside⟩ | ⟨r', -, -, row₀, -, -, rfl⟩
  · obtain ⟨granted, untouched⟩ := claiming.granted_next sets before (.inl free) rfl
      fun r' member here => (aside r' member here).elim
    have kind := claiming.wellFormed r.handle.locator row present
    refine ⟨sets.wellFormed claiming.wellFormed (kind.claimFor _ _), granted, untouched, ?_, ?_, ?_⟩
    · intro r' member
      rcases List.mem_append.1 member with old | new
      · exact List.mem_append_left _ (claiming.mine r' old)
      · exact List.mem_append_right _ new
    · intro r' member row' present'
      rcases List.mem_append.1 member with old | new
      · have apart := aside r' old
        rw [claiming.free r' old row' present']
        simp [or_and_right, exists_or, Ne.symm apart]
      · obtain rfl := List.mem_singleton.1 new
        cases Option.some.inj (before.symm.trans present')
        simp [free]
    · refine List.pairwise_append.2 ⟨claiming.distinct, List.pairwise_singleton _ _, ?_⟩
      intro r' member r'' last
      rw [List.mem_singleton.1 last]
      exact aside r' (claiming.mine r' member)
  · exact (LedgerRow.not_claimable_claimFor free).elim

theorem claimedAgain {row : LedgerRow} (claiming : Claiming v now done claimed v')
    (present : v'.row r.handle.locator = some row) (held : row.HeldFor r.holder)
    (sets : v'.Sets r.handle.locator (row.claimFor r.holder now) v'') :
    Claiming v now (done ++ [r]) claimed v'' := by
  have kind := claiming.wellFormed r.handle.locator row present
  have wellFormed := sets.wellFormed claiming.wellFormed (kind.claimFor _ _)
  have mine : ∀ r' ∈ claimed, r' ∈ done ++ [r] :=
    fun r' member => List.mem_append_left _ (claiming.mine r' member)
  rcases claiming.found present with ⟨before, aside⟩ | ⟨r', member, here, row₀, before, grants, rfl⟩
  · obtain ⟨granted, untouched⟩ := claiming.granted_next sets before (.inr held) rfl
      fun r' member here => (aside r' member here).elim
    refine ⟨wellFormed, granted, untouched, mine, ?_, claiming.distinct⟩
    intro r' member row' present'
    rcases List.mem_append.1 member with old | new
    · exact claiming.free r' old row' present'
    · obtain rfl := List.mem_singleton.1 new
      cases Option.some.inj (before.symm.trans present')
      refine ⟨fun free => (free.unheld held).elim, ?_⟩
      rintro ⟨r', member, here⟩
      exact (aside r' (claiming.mine r' member) here).elim
  · have sameHolder := LedgerRow.holder_of_claimFor held
    obtain ⟨granted, untouched⟩ := claiming.granted_next sets before (sameHolder ▸ grants) rfl <| by
      intro r'' old there
      obtain ⟨row₁, before', grants', after⟩ := claiming.granted r'' old
      rw [there, present] at after
      rw [Option.some.inj after] at held
      exact LedgerRow.holder_of_claimFor held
    refine ⟨wellFormed, granted, untouched, mine, ?_, claiming.distinct⟩
    intro r'' old row' present'
    rcases List.mem_append.1 old with old | new
    · exact claiming.free r'' old row' present'
    · obtain rfl := List.mem_singleton.1 new
      rw [← here] at present' ⊢
      exact claiming.free r' member row' present'

end Claiming

section

open Program

variable {v v' : Vault} {own : List Effect} {now : Timestamp}

/-- Every reference is taken back whose row its holder still has. -/
theorem undoAll_ensures {claimed : List Reference}
    (held : ∀ r ∈ claimed, ∃ row, v.row r.handle.locator = some row ∧ row.HeldFor r.holder)
    (distinct : claimed.Pairwise fun r r' => r.handle.locator ≠ r'.handle.locator) :
    (undoAll claimed).Ensures (fun _ _ v' => ∀ locator, v'.row locator =
      if ∃ r ∈ claimed, r.handle.locator = locator then (v.row locator).map LedgerRow.unclaim
      else v.row locator) v own := by
  induction claimed generalizing v own with
  | nil =>
    intro locator
    simp
  | cons r rest ih =>
    obtain ⟨row, present, heldHere⟩ := held r List.mem_cons_self
    obtain ⟨done, sets⟩ := Vault.unclaim_held present heldHere
    obtain ⟨apart, distinct⟩ := List.pairwise_cons.1 distinct
    have undone : r.undo.Ensures
        (fun _ _ v' => v.Sets r.handle.locator row.unclaim v') v own := .answered done sets
    refine undone.bind fun _ own v' sets => ?_
    have heldStill : ∀ r' ∈ rest, ∃ row, v'.row r'.handle.locator = some row ∧
        row.HeldFor r'.holder := by
      intro r' member
      rw [sets, if_neg (Ne.symm (apart r' member))]
      exact held r' (List.mem_cons_of_mem _ member)
    refine (ih heldStill distinct).mono fun _ _ v'' after locator => ?_
    rw [after, sets]
    by_cases here : locator = r.handle.locator
    · subst here
      have last : ¬∃ r' ∈ rest, r'.handle.locator = r.handle.locator := by
        rintro ⟨r', member, same⟩
        exact apart r' member same.symm
      simp [last, present]
    · have aside : r.handle.locator ≠ locator := Ne.symm here
      simp [here, aside]

/-- A reference is claimed newly or again, or refused with the ledger unchanged. -/
theorem Reference.claim_ensures (wellFormed : v.ledger.WellFormed) (r : Reference) (now : Timestamp) :
    (r.claim now).run.Ensures (fun result _ v' =>
      (∃ row, v.row r.handle.locator = some row ∧ v.Sets r.handle.locator (row.claimFor r.holder now) v' ∧
        ((row.Claimable ∧ result = .ok true) ∨ (row.HeldFor r.holder ∧ result = .ok false))) ∨
      (v'.row = v.row ∧ (∀ row, v.row r.handle.locator = some row → ¬row.Grants r.holder) ∧
        ∃ refusal, result = .error (.invalidRecord refusal))) v own := by
  rcases v.claim_cases wellFormed r.handle.locator r.holder now with
    ⟨row, present, free, answer, sets⟩ | ⟨row, present, held, answer, sets⟩ |
    ⟨same, refused, answer | ⟨e, answer⟩⟩
  · exact .answered answer (.inl ⟨row, present, sets, .inl ⟨free, rfl⟩⟩)
  · exact .answered answer (.inl ⟨row, present, sets, .inr ⟨held, rfl⟩⟩)
  · exact .answered answer (.inr ⟨same, refused, _, rfl⟩)
  · exact .answered answer (.inr ⟨same, refused, _, rfl⟩)

/-- What was newly claimed before a refusal is taken back. -/
theorem Claiming.undo_ensures {done claimed : List Reference} (wellFormed : v.ledger.WellFormed)
    (claiming : Claiming v now done claimed v') :
    (undoAll claimed).Ensures (fun _ _ v'' => v.Reverts now done v'') v' own := by
  refine (undoAll_ensures ?_ claiming.distinct).mono fun _ _ v'' after => ⟨?_, ?_⟩
  · intro r member
    obtain ⟨row, -, grants, present⟩ := claiming.granted r (claiming.mine r member)
    exact ⟨_, present, grants.held⟩
  · intro r member row before held
    obtain ⟨row', before', -, present⟩ := claiming.granted r member
    cases before.symm.trans before'
    have kept : ¬∃ r' ∈ claimed, r'.handle.locator = r.handle.locator := fun newly =>
      ((claiming.free r member row before).2 newly).unheld held
    rw [after, if_neg kept, present, held.renew]
  · intro locator unheld
    rw [after]
    by_cases touched : ∃ r ∈ done, r.handle.locator = locator
    · obtain ⟨r, member, rfl⟩ := touched
      obtain ⟨row, before, grants, present⟩ := claiming.granted r member
      have free : row.Claimable := grants.resolve_right (unheld r member rfl row before)
      have kind := wellFormed r.handle.locator row before
      rw [if_pos ((claiming.free r member row before).1 free), present, before, Option.map_some,
        kind.unclaim_claimFor free]
    · have aside : ∀ r ∈ done, r.handle.locator ≠ locator := by simpa using touched
      have kept : ¬∃ r ∈ claimed, r.handle.locator = locator := by
        rintro ⟨r, member, here⟩
        exact aside r (claiming.mine r member) here
      rw [if_neg kept]
      exact claiming.untouched locator aside

/-- The claims go through, or one is refused and those before it are taken back. -/
theorem claimAll_ensures {rest done claimed : List Reference} (wellFormed : v.ledger.WellFormed)
    (claiming : Claiming v now done claimed v') :
    (claimAll now rest claimed).run.Ensures (fun result _ v'' =>
      (result = .ok () ∧ ∃ claimed, Claiming v now (done ++ rest) claimed v'') ∨
      ∃ before r after refusal, done ++ rest = before ++ r :: after ∧
        result = .error (.invalidRecord refusal) ∧ v.Reservable before ∧
        ¬v.Reservable (before ++ [r]) ∧ v.Reverts now before v'') v' own := by
  -- On the references that are left; `Claiming` accounts for those that are done.
  induction rest generalizing done claimed v' own with
  | nil =>
    rw [List.append_nil]
    exact .inl ⟨rfl, claimed, claiming⟩
  | cons r rest ih =>
    refine (r.claim_ensures claiming.wellFormed now).bind fun result own v'' claim => ?_
    rcases claim with ⟨row, present, sets, ⟨free, rfl⟩ | ⟨held, rfl⟩⟩ | ⟨same, refused, refusal, rfl⟩
    · rw [List.append_cons done r rest]
      exact ih (claiming.claimedNew present free sets)
    · rw [List.append_cons done r rest]
      exact ih (claiming.claimedAgain present held sets)
    · refine (Claiming.undo_ensures wellFormed (claiming.transfer same)).bind fun _ own v reverts => ?_
      exact .inr ⟨done, r, rest, refusal, rfl, rfl, claiming.reservable,
        claiming.not_reservable refused, reverts⟩

/-- A reservation claims everything, or fails as an invalid record at the first reference that
cannot be claimed with those before it. -/
theorem reserve_ensures (wellFormed : v.ledger.WellFormed) (references : List Reference) :
    (reserve references).run.Ensures (fun result _ v' =>
      (result = .ok () ∧ v.Reservable (storedReferences references) ∧
        v.Reserves v.clock references v') ∨
      ∃ before r after refusal, storedReferences references = before ++ r :: after ∧
        result = .error (.invalidRecord refusal) ∧ v.Reservable before ∧
        ¬v.Reservable (before ++ [r]) ∧ v.Reverts v.clock before v') v own := by
  refine (claimAll_ensures wellFormed (Claiming.start wellFormed)).mono fun result own v' claimed => ?_
  rcases claimed with ⟨ok, _, claiming⟩ | failed
  · exact .inl ⟨ok, claiming.reservable, claiming.granted, claiming.untouched⟩
  · exact .inr failed

end

/-- Reservations are all or nothing. One succeeds exactly if its stored references can be claimed
together, and then claims their entries and nothing else. A failed one leaves what it found, but
entries that were held already, and whose references stand before the one that failed, have the
time of the call. -/
theorem reserve_all_or_nothing {v : Vault} (wellFormed : v.ledger.WellFormed)
    (references : List Reference) :
    let stored := storedReferences references
    let result := (v.run (reserve references).run).1
    let v' := (v.run (reserve references).run).2
    v.LedgerOnly v' ∧ (result = .ok () ↔ v.Reservable stored) ∧
      (result = .ok () → v.Reserves v.clock references v') ∧
      (result ≠ .ok () → ∃ before r after refusal, stored = before ++ r :: after ∧
        result = .error (.invalidRecord refusal) ∧ v.Reservable before ∧
        ¬v.Reservable (before ++ [r]) ∧ v.Reverts v.clock before v') := by
  intro stored result v'
  have only : v.LedgerOnly v' :=
    Program.ensures_iff.1 ((reserve_asks references).ledgerOnly v [])
  have ensured : Program.Ensures _ _ v [] := reserve_ensures wellFormed references
  rcases Program.ensures_iff.1 ensured with ⟨ok, reservable, reserves⟩ |
    ⟨before, r, after, refusal, split, failed, settled⟩
  · exact ⟨only, ⟨fun _ => reservable, fun _ => ok⟩, fun _ => reserves, fun fails => (fails ok).elim⟩
  · have fails : result ≠ .ok () := fun ok => nomatch failed.symm.trans ok
    have unreservable : ¬v.Reservable stored := fun reservable =>
      settled.2.1 (reservable.of_subset (by simp [stored, split]))
    exact ⟨only, ⟨fun ok => (fails ok).elim, fun reservable => (unreservable reservable).elim⟩,
      fun ok => (fails ok).elim, fun _ => ⟨before, r, after, refusal, split, failed, settled⟩⟩

namespace Sample

/-- A free entry, one held from before claims were stamped, and one that another field holds. -/
def partlyHeld : Vault :=
  { Vault.numbered 1000000 with
    ledger := (((∅ : Ledger).insert [0] (.fresh .medium 5)).insert [1] unstamped).insert [2]
      ((LedgerRow.fresh .large 5).claimFor ⟨record, ⟨"g"⟩⟩ 6) }

theorem partlyHeld_wellFormed : partlyHeld.ledger.WellFormed :=
  ((Ledger.WellFormed.empty.insert [0] (.fresh rfl 5)).insert [1]
    ⟨.inr rfl, by decide, by decide⟩).insert [2] (.claimFor (.fresh rfl 5) _ 6)

def wish (tier : Tier) (locator : Locator) : Reference := ⟨⟨"", 1, "", tier, locator⟩, record, field⟩

def wishes : List Reference :=
  [wish .inline [9], wish .medium [0], wish .large [1], wish .medium [0], wish .large [2]]

end Sample

/-- The free entry is free again, and the one that was held before has got a time. -/
theorem refused_reservation_reverted :
    let v' := (Sample.partlyHeld.run (reserve Sample.wishes).run).2
    Sample.partlyHeld.ledger.WellFormed ∧
      (¬Sample.partlyHeld.Reservable (storedReferences Sample.wishes)) ∧
      (∃ before r after refusal, storedReferences Sample.wishes = before ++ r :: after ∧
        (Sample.partlyHeld.run (reserve Sample.wishes).run).1 = .error (.invalidRecord refusal) ∧
        Sample.partlyHeld.Reservable before ∧ ¬Sample.partlyHeld.Reservable (before ++ [r]) ∧
        Sample.partlyHeld.Reverts 1000000 before v') ∧
      v'.row [0] = some (.fresh .medium 5) ∧
      v'.row [1] = some { Sample.unstamped with claimedAt := some 1000000 } ∧
      v'.row [2] = Sample.partlyHeld.row [2] := by
  obtain ⟨-, succeeds, -, reverts⟩ :=
    reserve_all_or_nothing Sample.partlyHeld_wellFormed Sample.wishes
  have refused : (Sample.partlyHeld.run (reserve Sample.wishes).run).1.isOk = false := by
    decide +kernel
  have fails : (Sample.partlyHeld.run (reserve Sample.wishes).run).1 ≠ .ok () := fun ok =>
    nomatch refused.symm.trans (congrArg Except.isOk ok)
  exact ⟨Sample.partlyHeld_wellFormed, fun reservable => fails (succeeds.2 reservable),
    reverts fails, by decide +kernel, by decide +kernel, by decide +kernel⟩

end BlobLifecycle
