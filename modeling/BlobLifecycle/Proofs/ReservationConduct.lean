import BlobLifecycle.Proofs.SweepConduct
import BlobLifecycle.Reservation

/-! What reservations and confirmations may do. A reservation claims with its one reading
of the clock, takes back no more claims than it newly made, and none if it succeeds. -/
namespace BlobLifecycle

def Effect.isClaim (locator : Locator) (holder : RecordField) : Effect → Bool
  | .claimed l h _ => l = locator ∧ h = holder
  | _ => false

def made (own : List Effect) (locator : Locator) (holder : RecordField) : Nat :=
  own.countP (Effect.isClaim locator holder)

def undone (own : List Effect) (locator : Locator) (holder : RecordField) : Nat :=
  own.count (.unclaimed locator holder)

def Reference.Aims (r : Reference) (locator : Locator) (holder : RecordField) : Prop :=
  r.handle.locator = locator ∧ r.holder = holder

instance (r : Reference) (locator : Locator) (holder : RecordField) :
    Decidable (r.Aims locator holder) := inferInstanceAs (Decidable (_ ∧ _))

def Effect.Claims (locator : Locator) (holder : RecordField) (time : Timestamp) (d : Effect) : Prop :=
  d = .claimed locator holder time ∨ d = .renewed locator holder time

def Steady (own : List Effect) : Prop := ∀ locator holder, .unclaimed locator holder ∉ own

def reserveRule (references : List Reference) : Rule := fun own d =>
  match d with
  | .read _ => First own
  | .claimed locator holder time | .renewed locator holder time =>
    .read time ∈ own ∧ Steady own ∧ ∃ r ∈ storedReferences references, r.Aims locator holder
  | .unclaimed locator holder =>
    undone own locator holder < made own locator holder ∧
      ∃ r ∈ storedReferences references, r.Aims locator holder
  | _ => False

def confirmRule : Rule := fun _ d =>
  match d with
  | .released .. | .found _ | .missed _ => True
  | _ => False

/-- Every stored handle was claimed and no claim was taken back. -/
structure Granted (references : List Reference) (own : List Effect) : Prop where
  steady : Steady own
  claims : ∀ r ∈ storedReferences references, ∃ time, ∃ d ∈ own,
    d.Claims r.handle.locator r.holder time

/-- Every stored handle's entry was released, or gone. -/
def Settled (references : List Reference) (own : List Effect) : Prop :=
  ∀ r ∈ storedReferences references,
    .released r.handle.locator r.holder ∈ own ∨ .missed r.handle.locator ∈ own

variable {references : List Reference} {own : List Effect}

@[simp] theorem made_cons (d : Effect) (locator : Locator) (holder : RecordField) :
    made (d :: own) locator holder =
      made own locator holder + if d.isClaim locator holder then 1 else 0 := List.countP_cons

@[simp] theorem undone_cons (d : Effect) (locator : Locator) (holder : RecordField) :
    undone (d :: own) locator holder =
      undone own locator holder + if d = .unclaimed locator holder then 1 else 0 := by
  simp [undone, List.count_cons]

theorem Steady.cons {d : Effect} (steady : Steady own)
    (other : ∀ locator holder, d ≠ .unclaimed locator holder) : Steady (d :: own) := by
  intro locator holder member
  rcases List.mem_cons.1 member with same | member
  · exact other locator holder same.symm
  · exact steady locator holder member

theorem claimed_of_made {locator : Locator} {holder : RecordField}
    (positive : 0 < made own locator holder) : ∃ time, .claimed locator holder time ∈ own := by
  obtain ⟨d, member, claim⟩ := List.countP_pos_iff.1 positive
  cases d with
  | claimed l h time =>
    simp only [Effect.isClaim, decide_eq_true_eq] at claim
    obtain ⟨rfl, rfl⟩ := claim
    exact ⟨time, member⟩
  | _ => cases claim

/-- The claims still to be taken back are claims that were newly made. -/
def Owed (rest : List Reference) (own : List Effect) : Prop :=
  ∀ locator holder, undone own locator holder + rest.countP (·.Aims locator holder) ≤
    made own locator holder

theorem Reference.undo_obeys {r : Reference} (stored : r ∈ storedReferences references)
    {rest : List Reference} (owed : Owed (r :: rest) own) :
    r.undo.Obeys (reserveRule references) (fun own' _ => Owed rest own') own := by
  have here := owed r.handle.locator r.holder
  have fewer : Owed rest own := by
    intro locator holder
    have bound := owed locator holder
    rw [List.countP_cons] at bound
    omega
  refine fun reply _ => ⟨?_, ?_⟩
  · intro d effect
    have owes : undone own r.handle.locator r.holder < made own r.handle.locator r.holder := by
      rw [List.countP_cons, if_pos (by simp [Aims])] at here
      omega
    cases reply with
    | error e => cases effect
    | ok free =>
      cases free with
      | false => cases effect
      | true =>
        cases effect
        exact ⟨owes, r, stored, rfl, rfl⟩
  · cases reply with
    | error e => exact .silent (fun _ => rfl) fun _ _ => fewer
    | ok free =>
      cases free with
      | false => exact .silent (fun _ => rfl) fun _ _ => fewer
      | true =>
        intro locator holder
        have bound := owed locator holder
        rw [List.countP_cons] at bound
        show undone (.unclaimed r.handle.locator r.holder :: own) locator holder + _ ≤
          made (.unclaimed r.handle.locator r.holder :: own) locator holder
        by_cases aims : r.Aims locator holder
        · obtain ⟨rfl, rfl⟩ := aims
          simp [Aims, Effect.isClaim] at bound ⊢
          omega
        · have apart : ¬(r.handle.locator = locator ∧ r.holder = holder) := aims
          simp [apart, aims, Effect.isClaim] at bound ⊢
          omega

theorem undoAll_obeys {claimed : List Reference}
    (stored : ∀ r ∈ claimed, r ∈ storedReferences references) (owed : Owed claimed own) :
    (undoAll claimed).Obeys (reserveRule references) anything own := by
  induction claimed generalizing own with
  | nil => trivial
  | cons r rest ih =>
    apply (Reference.undo_obeys (stored r List.mem_cons_self) owed).bind
    intro own' _ owed'
    exact ih (fun r member => stored r (List.mem_cons_of_mem _ member)) owed'

/-- A claim that succeeds is newly made or renewed; one that fails leaves no effect. -/
theorem Reference.claim_obeys {r : Reference} {now : Timestamp}
    (stored : r ∈ storedReferences references) (timed : .read now ∈ own) (steady : Steady own) :
    (r.claim now).run.Obeys (reserveRule references) (fun own' result =>
      match result with
      | .ok true => own' = .claimed r.handle.locator r.holder now :: own
      | .ok false => own' = .renewed r.handle.locator r.holder now :: own
      | .error _ => own' = own) own := by
  refine fun reply _ => ⟨?_, ?_⟩
  · intro d effect
    cases reply with
    | error e => cases effect
    | ok outcome =>
      cases outcome <;> cases effect <;> exact ⟨timed, steady, r, stored, rfl, rfl⟩
  · cases reply with
    | error e => exact rfl
    | ok outcome =>
      cases outcome with
      | claimed => exact .silent (fun _ => rfl) fun _ _ => rfl
      | renewed => exact .silent (fun _ => rfl) fun _ _ => rfl
      | missing => exact rfl
      | conflict entry => exact rfl

def Taken (rest : List Reference) (own own' : List Effect) : Prop :=
  Steady own' ∧ own ⊆ own' ∧ ∀ r ∈ rest, ∃ time, ∃ d ∈ own',
    d.Claims r.handle.locator r.holder time

theorem Taken.cons {rest : List Reference} {r : Reference} {d : Effect} {own' : List Effect}
    {time : Timestamp} (taken : Taken rest (d :: own) own')
    (claims : d.Claims r.handle.locator r.holder time) : Taken (r :: rest) own own' := by
  obtain ⟨steady, grown, others⟩ := taken
  refine ⟨steady, fun d member => grown (List.mem_cons_of_mem _ member), ?_⟩
  intro r' member
  rcases List.mem_cons.1 member with rfl | member
  · exact ⟨time, d, grown List.mem_cons_self, claims⟩
  · exact others r' member

theorem claimAll_obeys {now : Timestamp} (rest claimed : List Reference)
    (stored : ∀ r ∈ rest, r ∈ storedReferences references)
    (before : ∀ r ∈ claimed, r ∈ storedReferences references)
    (timed : .read now ∈ own) (steady : Steady own) (owed : Owed claimed own) :
    (claimAll now rest claimed).run.Obeys (reserveRule references)
      (fun own' result => result = .ok () → Taken rest own own') own := by
  induction rest generalizing own claimed with
  | nil => exact fun _ => ⟨steady, fun _ member => member, by simp⟩
  | cons r rest ih =>
    have here := stored r List.mem_cons_self
    have others : ∀ r ∈ rest, r ∈ storedReferences references :=
      fun r member => stored r (List.mem_cons_of_mem _ member)
    apply (Reference.claim_obeys here timed steady).bind
    intro own' result promised
    match result with
    | .ok true =>
      subst promised
      refine (ih (claimed ++ [r]) others ?_ (List.mem_cons_of_mem _ timed)
        (steady.cons (by simp)) ?_).promising ?_
      · intro r' member
        rcases List.mem_append.1 member with member | member
        · exact before r' member
        · rw [List.mem_singleton.1 member]; exact here
      · intro locator holder
        have bound := owed locator holder
        rw [List.countP_append, List.countP_singleton]
        by_cases aims : r.Aims locator holder
        · obtain ⟨rfl, rfl⟩ := aims
          simp [Reference.Aims, Effect.isClaim] at bound ⊢
          omega
        · simp [aims] at bound ⊢
          omega
      · exact fun _ _ taken done => (taken done).cons (.inl rfl)
    | .ok false =>
      subst promised
      refine (ih claimed others before (List.mem_cons_of_mem _ timed)
        (steady.cons (by simp)) ?_).promising ?_
      · intro locator holder
        simpa [Effect.isClaim] using owed locator holder
      · exact fun _ _ taken done => (taken done).cons (.inr rfl)
    | .error e =>
      subst promised
      apply (undoAll_obeys before owed).bind
      intro own' _ _ done
      cases done

theorem reserve_obeys (references : List Reference) :
    (reserve references).run.Obeys (reserveRule references)
      (fun own result => result = .ok () → Granted references own) [] := by
  refine fun now _ => ⟨?_, ?_⟩
  · intro d effect
    cases effect
    exact ⟨by simp, by simp⟩
  · have steady : Steady [Effect.read now] := by simp [Steady]
    have nothing : Owed [] [Effect.read now] := by
      intro locator holder
      simp [undone, made]
    refine (claimAll_obeys (storedReferences references) [] (fun _ member => member) (by simp)
      List.mem_cons_self steady nothing).promising ?_
    intro own result taken done
    obtain ⟨steady, _, claims⟩ := taken done
    exact ⟨steady, claims⟩

theorem Reference.lost_obeys (r : Reference) (obstacle : Obstacle) :
    (r.lost obstacle).run.Obeys confirmRule (fun _ result => ∃ e, result = .error e) own :=
  .silent (fun _ => rfl) fun _ _ => ⟨_, rfl⟩

theorem Reference.checkConfirmed_obeys (r : Reference) :
    r.checkConfirmed.run.Obeys confirmRule
      (fun own' result => result = .ok () → .missed r.handle.locator ∈ own') own := by
  have failing (own : List Effect) (obstacle : Obstacle) :
      (r.lost obstacle).run.Obeys confirmRule
        (fun own' result => result = .ok () → .missed r.handle.locator ∈ own') own :=
    (r.lost_obeys obstacle).promising fun _ _ failed done => by
      obtain ⟨e, same⟩ := failed
      rw [same] at done
      cases done
  refine fun reply _ => ⟨?_, ?_⟩
  · intro d effect
    cases reply with
    | error e => cases effect
    | ok entry => cases entry <;> cases effect <;> trivial
  · cases reply with
    | error e => intro done; cases done
    | ok entry =>
      cases entry with
      | some entry => exact failing _ _
      | none =>
        refine .silent (fun _ => rfl) fun content _ => ?_
        cases content with
        | ok content => exact .silent (fun _ => rfl) fun _ _ => fun _ => List.mem_cons_self
        | error e =>
          show Program.Obeys _ _ (ExceptT.run (if e.isNotFound = true then _ else _)) _
          split
          · exact failing _ _
          · intro done; cases done

theorem Reference.confirm_obeys (r : Reference) :
    r.confirm.run.Obeys confirmRule (fun own' result => result = .ok () →
      .released r.handle.locator r.holder ∈ own' ∨ .missed r.handle.locator ∈ own') own := by
  refine fun reply _ => ⟨?_, ?_⟩
  · intro d effect
    cases reply with
    | error e => cases effect
    | ok released => cases released <;> cases effect; trivial
  · cases reply with
    | error e => intro done; cases done
    | ok released =>
      cases released with
      | true => exact fun _ => .inl List.mem_cons_self
      | false => exact r.checkConfirmed_obeys.promising fun _ _ missed done => .inr (missed done)

theorem confirmAll_obeys (rest : List Reference) :
    (confirmAll rest).run.Obeys confirmRule (fun own' result => result = .ok () → ∀ r ∈ rest,
      .released r.handle.locator r.holder ∈ own' ∨ .missed r.handle.locator ∈ own') own := by
  induction rest generalizing own with
  | nil => exact fun _ => by simp
  | cons r rest ih =>
    refine Operation.obeys_bind _ r.confirm_obeys ?_ ?_
    · intro _ _ _ done
      cases done
    · intro own' _ here
      refine ih.growing.promising ?_
      intro own'' result rest' done r' member
      rcases List.mem_cons.1 member with rfl | member
      · exact (here rfl).imp (fun m => rest'.1.subset m) (fun m => rest'.1.subset m)
      · exact rest'.2 done r' member

theorem confirm_obeys (references : List Reference) :
    (confirm references).run.Obeys confirmRule
      (fun own' result => result = .ok () → Settled references own') own :=
  confirmAll_obeys _

end BlobLifecycle
