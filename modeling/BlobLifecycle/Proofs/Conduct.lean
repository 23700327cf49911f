import BlobLifecycle.Proofs.Exchange

/-! What a program does whatever it is answered. A rule says which effect is allowed after
which effects of one's own; a program that keeps it keeps it under any interference, since
no answer is excluded but those that no state gives. -/
namespace BlobLifecycle

/-- Which effects are allowed after one's own effects so far, newest first. -/
abbrev Rule := List Effect → Effect → Prop

/-- The clock is read once, and before any history is asked for. -/
def First (own : List Effect) : Prop :=
  (∀ time, .read time ∉ own) ∧ ∀ holder values, .asked holder values ∉ own

def anything (_ : List Effect) (_ : α) : Prop := True

def Request.recall (r : Request) (reply : r.Reply) (own : List Effect) : List Effect :=
  (r.effect? reply).toList ++ own

namespace Program

variable {rule : Rule} {own : List Effect}

/-- Every effect is allowed when it comes, and the result is as promised. -/
def Obeys (rule : Rule) (promise : List Effect → α → Prop) : Program α → List Effect → Prop
  | done a, own => promise own a
  | call r next, own => ∀ reply, r.Credible reply →
      (∀ d, r.effect? reply = some d → rule own d) ∧ (next reply).Obeys rule promise (r.recall reply own)

theorem Obeys.bind {p : Program α} {f : α → Program β} {promise : List Effect → α → Prop}
    {goal : List Effect → β → Prop} (first : p.Obeys rule promise own)
    (rest : ∀ own a, promise own a → (f a).Obeys rule goal own) :
    (p >>= f).Obeys rule goal own := by
  induction p generalizing own with
  | done a => exact rest own a first
  | call r next ih =>
    intro reply credible
    obtain ⟨allowed, continues⟩ := first reply credible
    exact ⟨allowed, ih reply continues⟩

theorem Obeys.mono {p : Program α} {promise goal : List Effect → α → Prop} {rule' : Rule}
    (obeys : p.Obeys rule promise own) (weaker : ∀ own d, rule own d → rule' own d)
    (implies : ∀ own a, promise own a → goal own a) : p.Obeys rule' goal own := by
  induction p generalizing own with
  | done a => exact implies own a obeys
  | call r next ih =>
    intro reply credible
    obtain ⟨allowed, continues⟩ := obeys reply credible
    exact ⟨fun d effect => weaker own d (allowed d effect), ih reply continues⟩

theorem Obeys.promising {p : Program α} {promise goal : List Effect → α → Prop}
    (obeys : p.Obeys rule promise own) (implies : ∀ own a, promise own a → goal own a) :
    p.Obeys rule goal own := obeys.mono (fun _ _ allowed => allowed) implies

/-- What allowed effects keep may be assumed of the effects so far, and holds at the end. -/
theorem Obeys.keeping {p : Program α} {promise : List Effect → α → Prop} (kept : List Effect → Prop)
    (obeys : p.Obeys rule promise own) (now : kept own)
    (keeps : ∀ own d, kept own → rule own d → kept (d :: own)) :
    p.Obeys (fun own d => kept own ∧ rule own d) (fun own a => kept own ∧ promise own a) own := by
  induction p generalizing own with
  | done a => exact ⟨now, obeys⟩
  | call r next ih =>
    intro reply credible
    obtain ⟨allowed, continues⟩ := obeys reply credible
    refine ⟨fun d effect => ⟨now, allowed d effect⟩, ih reply continues ?_⟩
    cases effect : r.effect? reply with
    | none => simpa [Request.recall, effect] using now
    | some d => simpa [Request.recall, effect] using keeps own d now (allowed d effect)

theorem Obeys.growing {p : Program α} {promise : List Effect → α → Prop}
    (obeys : p.Obeys rule promise own) :
    p.Obeys rule (fun own' a => own <:+ own' ∧ promise own' a) own :=
  (obeys.keeping (own <:+ ·) (List.suffix_refl own) fun _ _ grown _ =>
    grown.trans (List.suffix_cons _ _)).mono (fun _ _ h => h.2) (fun _ _ h => h)

/-- A request that leaves no effect is always allowed. -/
theorem Obeys.silent {r : Request} {next : r.Reply → Program α} {promise : List Effect → α → Prop}
    (silent : ∀ reply, r.effect? reply = none)
    (rest : ∀ reply, r.Credible reply → (next reply).Obeys rule promise own) :
    (Program.call r next).Obeys rule promise own := by
  intro reply credible
  have same : r.recall reply own = own := by simp [Request.recall, silent]
  refine ⟨fun d effect => ?_, ?_⟩
  · rw [silent] at effect
    cases effect
  · rw [same]
    exact rest reply credible

end Program

namespace Operation

variable {rule : Rule} {own : List Effect}

/-- An error ends the operation, so it must be as promised at once. -/
theorem obeys_bind {x : Operation α} {f : α → Operation β}
    {goal : List Effect → Except BlobError β → Prop} (promise : List Effect → Except BlobError α → Prop)
    (first : x.run.Obeys rule promise own)
    (fails : ∀ own e, promise own (.error e) → goal own (.error e))
    (rest : ∀ own a, promise own (.ok a) → (f a).run.Obeys rule goal own) :
    (x >>= f).run.Obeys rule goal own := by
  rw [ExceptT.run_bind]
  apply first.bind
  intro own result promised
  cases result with
  | ok a => exact rest own a promised
  | error e => exact fails own e promised

/-- A lifted program does not fail. -/
theorem run_lift_bind (p : Program α) (f : α → Operation β) :
    (ExceptT.lift p >>= f).run = p >>= fun a => (f a).run := by
  simp [ExceptT.run_bind]

theorem obeys_lift {p : Program α} {f : α → Operation β} {promise : List Effect → α → Prop}
    {goal : List Effect → Except BlobError β → Prop} (first : p.Obeys rule promise own)
    (rest : ∀ own a, promise own a → (f a).run.Obeys rule goal own) :
    (ExceptT.lift p >>= f).run.Obeys rule goal own := by
  rw [run_lift_bind]
  exact first.bind rest

end Operation

end BlobLifecycle
