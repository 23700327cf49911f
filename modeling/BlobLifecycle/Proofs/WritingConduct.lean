import BlobLifecycle.Deletion
import BlobLifecycle.Proofs.Conduct
import BlobLifecycle.Writing

/-! What writers and commits may do. A writer enters the locator it was issued, once, and
publishes below it what it accepted, once; a commit deletes what its plan frees. -/
namespace BlobLifecycle

def silentRule : Rule := fun _ _ => False

def openRule : Rule := fun own d =>
  match d with
  | .issued _ => True
  | .read _ => First own
  | .entered locator _ _ => .issued locator ∈ own ∧ ∀ tier time, .entered locator tier time ∉ own
  | _ => False

/-- The locator was entered for content of this tier. -/
def Entered (own : List Effect) (tier : Tier) (locator : Locator) : Prop :=
  ∃ time, .entered locator tier time ∈ own

def publishRule : Rule := fun own d =>
  match d with
  | .published tier locator _ =>
    (tier.isStored = true → Entered own tier locator) ∧
      ∀ tier locator content, .published tier locator content ∉ own
  | _ => False

def discardRule (handles : HandleSet) : Rule := fun _ d =>
  match d with
  | .deleted tier locator =>
    ∃ h ∈ handles, h.tier = tier ∧ h.locator = locator ∧ tier.isStored = true
  | _ => False

structure Holding (own : List Effect) (s : WriteSession) (accepted : Bytes) : Prop where
  tier : s.sink.tier = s.tier
  content : s.sink.content = accepted
  entered : s.tier.isStored = true → Entered own s.tier s.locator
  unpublished : ∀ tier locator content, .published tier locator content ∉ own

/-- The handle names the content that was accepted, published where it was entered. -/
structure Delivered (own : List Effect) (h : Handle) (accepted : Bytes) : Prop where
  entered : Entered own h.tier h.locator
  published : .published h.tier h.locator accepted ∈ own

variable {own : List Effect}

theorem openWrite_obeys (thresholds : Thresholds) (spec : BlobSpec) :
    (openWrite thresholds spec).run.Obeys openRule
      (fun own result => ∀ s, result = .ok s → Holding own s []) [] := by
  show Program.Obeys _ _ (ExceptT.run (if spec.size < 0 then _ else _)) _
  split
  · intro s done
    cases done
  · refine fun reply credible => ⟨?_, ?_⟩
    · intro d effect
      cases reply with
      | error e => cases effect
      | ok sink =>
        simp only [Request.effect?] at effect
        split at effect
        · cases effect; trivial
        · cases effect
    · cases reply with
      | error e => intro s done; cases done
      | ok sink =>
        obtain ⟨sameTier, empty⟩ := credible sink rfl
        show Program.Obeys _ _
          (ExceptT.run (if (thresholds.select spec.size).isStored = true then _ else _)) _
        split
        · next stored =>
          refine fun now _ => ⟨(fun d effect => ?_), ?_⟩
          · cases effect
            simp [openRule, First, Request.recall, Request.effect?, sameTier, stored]
          have issued : Effect.issued sink.locator ∈ (Request.now.recall now
              ((Request.openWrite (thresholds.select spec.size) spec.mediaType).recall
                (.ok sink) [])) := by
            simp [Request.recall, Request.effect?, sameTier, stored]
          refine fun reply _ => ⟨?_, ?_⟩
          · intro d effect
            cases reply with
            | error e => cases effect
            | ok _ =>
              cases effect
              exact ⟨issued, by simp [Request.recall, Request.effect?, sameTier, stored]⟩
          · cases reply with
            | error e => intro s done; cases done
            | ok _ =>
              refine .silent (fun _ => rfl) fun _ _ => ?_
              intro s done
              cases done
              refine ⟨sameTier, empty, fun _ => ⟨now, List.mem_cons_self⟩, ?_⟩
              simp [Request.recall, Request.effect?, sameTier, stored]
        · next inlined =>
          intro s done
          cases done
          refine ⟨sameTier, empty, fun stored => absurd stored inlined, ?_⟩
          simp [Request.recall, Request.effect?, sameTier, inlined]

theorem WriteSession.write_obeys {s : WriteSession} {accepted : Bytes}
    (holding : Holding own s accepted) (chunk : Bytes) :
    (s.write chunk).run.Obeys silentRule
      (fun own' result => own' = own ∧ ∀ s', result = .ok s' → Holding own' s' (accepted ++ chunk))
      own := by
  show Program.Obeys _ _ (ExceptT.run (if s.spec.size < s.written + chunk.length then _ else _)) _
  split
  · exact ⟨rfl, fun s' done => by cases done⟩
  · refine .silent (fun _ => rfl) fun reply credible => ?_
    cases reply with
    | error e => exact ⟨rfl, fun s' done => by cases done⟩
    | ok sink =>
      obtain ⟨sameTier, sameLocator, grown⟩ := credible sink rfl
      refine ⟨rfl, fun s' done => ?_⟩
      cases done
      refine ⟨sameTier.trans holding.tier, by rw [grown, holding.content], ?_, holding.unpublished⟩
      intro stored
      rw [WriteSession.locator, sameLocator]
      exact holding.entered stored

/-- A stored handle carries the tier and locator it was made for. -/
theorem Handle.stored_fields {spec : BlobSpec} {tier : Tier} {locator : Locator} {h : Handle}
    (made : Handle.stored spec tier locator = .ok h) : h.tier = tier ∧ h.locator = locator := by
  unfold stored at made
  repeat' split at made
  all_goals cases made
  exact ⟨rfl, rfl⟩

/-- The handle is made only if the content was committed under the session's locator. -/
theorem WriteSession.deliver_obeys {s : WriteSession} {tier : Tier} {locator : Locator}
    {accepted : Bytes} (entered : Entered own tier locator)
    (published : .published tier locator accepted ∈ own) :
    (do
      if locator ≠ s.locator then throw (.storage (.foreignLocator tier))
      .ofExcept (Handle.stored s.spec tier locator) : Operation Handle).run.Obeys publishRule
        (fun own' result => ∀ h, result = .ok h → h.tier.isStored = true → Delivered own' h accepted)
        own := by
  show Program.Obeys _ _ (ExceptT.run (if locator ≠ s.locator then _ else _)) _
  split
  · intro h done
    cases done
  · intro h done _
    obtain ⟨rfl, rfl⟩ := Handle.stored_fields done
    exact ⟨entered, published⟩

theorem WriteSession.finish_obeys {s : WriteSession} {accepted : Bytes}
    (holding : Holding own s accepted) :
    s.finish.run.Obeys publishRule (fun own' result =>
      ∀ h, result = .ok h → h.tier.isStored = true → Delivered own' h accepted) own := by
  obtain ⟨spec, tier, ⟨sinkTier, here, mediaType, createdAt, content, isOpen⟩, written⟩ := s
  obtain ⟨sameTier, sameContent, entered, unpublished⟩ := holding
  dsimp only [WriteSession.locator] at sameTier sameContent entered
  subst sameTier sameContent
  show Program.Obeys _ _ (ExceptT.run (if written ≠ spec.size then _ else _)) _
  split
  · intro h done
    cases done
  · refine fun reply credible => ⟨?_, ?_⟩
    · intro d effect
      cases reply with
      | error e => cases effect
      | ok locator =>
        cases effect
        refine ⟨fun stored => ?_, unpublished⟩
        rw [credible locator rfl stored]
        exact entered stored
    · cases reply with
      | error e => intro h done; cases done
      | ok locator =>
        cases sinkTier with
        | inline =>
          intro h done stored
          cases done
          simp [Handle.inline, Tier.isStored] at stored
        | medium =>
          obtain rfl := credible locator rfl rfl
          obtain ⟨time, member⟩ := entered rfl
          exact .silent (fun _ => rfl) fun _ _ =>
            deliver_obeys ⟨time, List.mem_cons_of_mem _ member⟩ List.mem_cons_self
        | large =>
          obtain rfl := credible locator rfl rfl
          obtain ⟨time, member⟩ := entered rfl
          exact .silent (fun _ => rfl) fun _ _ =>
            deliver_obeys ⟨time, List.mem_cons_of_mem _ member⟩ List.mem_cons_self

theorem planMutation_obeys (record : RecordId) (changes : List FieldChange) :
    (planMutation record changes).Obeys silentRule
      (fun own' plan => own' = own ∧ plan = .ofChanges record changes) own :=
  .silent (fun _ => rfl) fun _ _ => ⟨rfl, rfl⟩

theorem Handle.deleteContent_obeys {handles : HandleSet} {h : Handle} (listed : h ∈ handles)
    (stored : h.tier.isStored = true) :
    h.deleteContent.Obeys (discardRule handles) anything own := by
  refine fun reply _ => ⟨?_, ?_⟩
  · intro d effect
    cases reply with
    | error e => cases effect
    | ok _ => cases effect; exact ⟨h, listed, rfl, rfl, stored⟩
  · cases reply with
    | ok _ => trivial
    | error e => exact .silent (fun _ => rfl) fun _ _ => trivial

theorem deleteAll_obeys {handles : HandleSet} (rest : List Handle)
    (listed : ∀ h ∈ rest, h ∈ handles ∧ h.tier.isStored = true) :
    (deleteAll rest).Obeys (discardRule handles) anything own := by
  induction rest generalizing own with
  | nil => trivial
  | cons h rest ih =>
    obtain ⟨member, stored⟩ := listed h List.mem_cons_self
    apply (h.deleteContent_obeys member stored).bind
    intro own' _ _
    apply (ih fun h member => listed h (List.mem_cons_of_mem _ member)).bind
    exact fun _ _ _ => trivial

theorem deleteNow_obeys (handles : HandleSet) :
    (deleteNow handles).Obeys (discardRule handles) anything own := by
  apply deleteAll_obeys
  intro h member
  simpa using member

end BlobLifecycle
