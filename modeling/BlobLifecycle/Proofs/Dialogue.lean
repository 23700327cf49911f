import BlobLifecycle.Proofs.Contest
import BlobLifecycle.Proofs.Whole

/-! One program among others. Requests are answered one after another in any order, and each
may fail without effect. Whatever else goes on, the ledger changes by requests only. -/
namespace BlobLifecycle

structure Exchange where
  /-- Made by the program in question, not by others. -/
  isOwn : Bool
  before : Vault
  request : Request
  reply : request.Reply
  after : Vault

namespace Exchange

def Happens (x : Exchange) : Prop := x.request.Outcome x.before x.reply x.after

def effect? (x : Exchange) : Option Effect := x.request.effect? x.reply

def ownEffect? (x : Exchange) : Option Effect := if x.isOwn then x.effect? else none

def Served (x : Exchange) : Prop := x.reply = (x.before.answer x.request).1

variable {x : Exchange} {locator : Locator}

theorem Happens.run (happens : x.Happens) (locator : Locator) :
    RowRun locator x.effect?.toList (x.before.row locator) (x.after.row locator) := by
  have leaves := happens.leaves
  unfold Request.Leaves at leaves
  unfold effect?
  split at leaves
  · next d effect => rw [effect]; exact .cons (leaves.ledger locator) .nil
  · next silent => rw [silent, Vault.row, Vault.row, leaves.ledger]; exact .nil

/-- What is seen in passing is so before the exchange. -/
theorem Happens.seen {d : Effect} (happens : x.Happens) (effect : x.effect? = some d) : d.Seen x.before := by
  have leaves := happens.leaves
  rw [show x.request.effect? x.reply = some d from effect] at leaves
  exact leaves.seen

/-- A request leaves every row but its own, even if it fails. -/
theorem Happens.row_other (happens : x.Happens) (aside : x.request.row? ≠ some locator) :
    x.after.row locator = x.before.row locator := by
  have leaves := happens.leaves
  unfold Request.Leaves at leaves
  split at leaves
  · next d effect =>
    exact (leaves.ledger locator).unmoved fun aims => aside (Request.target_of_effect? effect aims)
  · rw [Vault.row, Vault.row, leaves.ledger]

end Exchange

/-- Exchanges in order. Between two of them anything but the ledger may change. -/
def Dialogue (v : Vault) : List Exchange → Vault → Prop
  | [], v' => v'.ledger = v.ledger
  | x :: xs, v' => x.before.ledger = v.ledger ∧ x.Happens ∧ Dialogue x.after xs v'

def effectsOf (xs : List Exchange) : List Effect := xs.filterMap Exchange.effect?

def ownEffects (xs : List Exchange) : List Effect := xs.filterMap Exchange.ownEffect?

def ownRequests (xs : List Exchange) : Nat := xs.countP (·.isOwn)

theorem effectsOf_append (xs ys : List Exchange) : effectsOf (xs ++ ys) = effectsOf xs ++ effectsOf ys :=
  List.filterMap_append

theorem ownEffects_others {xs : List Exchange} (others : ∀ x ∈ xs, x.isOwn = false) :
    ownEffects xs = [] :=
  List.filterMap_eq_nil_iff.2 fun x member => by simp [Exchange.ownEffect?, others x member]

theorem ownRequests_others {xs : List Exchange} (others : ∀ x ∈ xs, x.isOwn = false) :
    ownRequests xs = 0 :=
  List.countP_eq_zero.2 fun x member => by simp [others x member]

/-- A program that reads the clock first has that for its first effect. -/
theorem ownEffects_read {front rest : List Exchange} {before after : Vault} {time : Timestamp}
    (apart : ∀ x ∈ front, x.isOwn = false) :
    (ownEffects (front ++ ⟨true, before, .now, time, after⟩ :: rest)).head? = some (.read time) := by
  have none := ownEffects_others apart
  simp only [ownEffects] at none
  simp [ownEffects, List.filterMap_append, none, Exchange.ownEffect?, Exchange.effect?, Request.effect?]

theorem mem_ownEffects {xs : List Exchange} {d : Effect} :
    d ∈ ownEffects xs ↔ ∃ x ∈ xs, x.isOwn = true ∧ x.effect? = some d := by
  simp [ownEffects, List.mem_filterMap, Exchange.ownEffect?]

theorem Vault.row_of_ledger {v v' : Vault} (same : v'.ledger = v.ledger) (locator : Locator) :
    v'.row locator = v.row locator := by
  rw [row, same, row]

namespace Dialogue

variable {v v₁ v' : Vault} {xs ys : List Exchange} {x : Exchange} {locator : Locator}

theorem of_ledger (same : v₁.ledger = v.ledger) (dialogue : Dialogue v₁ xs v') :
    Dialogue v xs v' := by
  cases xs with
  | nil => exact Eq.trans dialogue same
  | cons x xs => exact ⟨dialogue.1.trans same, dialogue.2⟩

theorem append_iff : Dialogue v (xs ++ ys) v' ↔ ∃ v₁, Dialogue v xs v₁ ∧ Dialogue v₁ ys v' := by
  induction xs generalizing v with
  | nil =>
    refine ⟨fun dialogue => ⟨v, rfl, dialogue⟩, ?_⟩
    rintro ⟨v₁, same, dialogue⟩
    exact dialogue.of_ledger same
  | cons x xs ih =>
    constructor
    · rintro ⟨same, happens, rest⟩
      obtain ⟨v₁, first, second⟩ := ih.1 rest
      exact ⟨v₁, ⟨same, happens, first⟩, second⟩
    · rintro ⟨v₁, ⟨same, happens, first⟩, second⟩
      exact ⟨same, happens, ih.2 ⟨v₁, first, second⟩⟩

theorem happens (dialogue : Dialogue v xs v') (member : x ∈ xs) : x.Happens := by
  induction xs generalizing v with
  | nil => cases member
  | cons y ys ih =>
    rcases List.mem_cons.1 member with rfl | member
    · exact dialogue.2.1
    · exact ih dialogue.2.2 member

theorem run (dialogue : Dialogue v xs v') (locator : Locator) :
    RowRun locator (effectsOf xs) (v.row locator) (v'.row locator) := by
  induction xs generalizing v with
  | nil => rw [Vault.row_of_ledger dialogue]; exact .nil
  | cons x xs ih =>
    obtain ⟨same, happens, rest⟩ := dialogue
    have effects : effectsOf (x :: xs) = x.effect?.toList ++ effectsOf xs := by
      unfold effectsOf
      cases effect : x.effect? <;> simp [effect]
    rw [effects, ← Vault.row_of_ledger same]
    exact RowRun.append_iff.2 ⟨_, happens.run locator, ih rest⟩

theorem keeps (kept : Ledger → Prop) (dialogue : Dialogue v xs v') (now : kept v.ledger)
    (step : ∀ x ∈ xs, x.Happens → kept x.before.ledger → kept x.after.ledger) : kept v'.ledger := by
  induction xs generalizing v with
  | nil => exact (show v'.ledger = v.ledger from dialogue) ▸ now
  | cons x xs ih =>
    obtain ⟨same, happens, rest⟩ := dialogue
    refine ih rest (step x List.mem_cons_self happens (same ▸ now)) ?_
    exact fun y member => step y (List.mem_cons_of_mem _ member)

end Dialogue

namespace Program

/-- The program's exchanges are its first requests, and this is left of it. -/
def Joins : Program α → List Exchange → Program α → Prop
  | p, [], q => q = p
  | p, x :: xs, q =>
    if x.isOwn then ∃ next, p = .call x.request next ∧ (next x.reply).Joins xs q
    else p.Joins xs q

namespace Joins

variable {p q : Program α} {xs ys : List Exchange} {x : Exchange}

theorem own_iff (own : x.isOwn = true) :
    p.Joins (x :: xs) q ↔ ∃ next, p = .call x.request next ∧ (next x.reply).Joins xs q := by
  simp [Joins, own]

theorem other_iff (other : x.isOwn = false) : p.Joins (x :: xs) q ↔ p.Joins xs q := by
  simp [Joins, other]

theorem append_iff : p.Joins (xs ++ ys) q ↔ ∃ p', p.Joins xs p' ∧ p'.Joins ys q := by
  induction xs generalizing p with
  | nil => simp [Joins]
  | cons x xs ih =>
    cases own : x.isOwn with
    | false => simp only [List.cons_append, other_iff own, ih]
    | true =>
      simp only [List.cons_append, own_iff own, ih]
      constructor
      · rintro ⟨next, same, p', first, second⟩
        exact ⟨p', ⟨next, same, first⟩, second⟩
      · rintro ⟨p', ⟨next, same, first⟩, second⟩
        exact ⟨next, same, p', first, second⟩

theorem of_others (others : ∀ x ∈ xs, x.isOwn = false) (p : Program α) : p.Joins xs p := by
  induction xs with
  | nil => rfl
  | cons x xs ih =>
    exact (other_iff (others x List.mem_cons_self)).2
      (ih fun y member => others y (List.mem_cons_of_mem _ member))

/-- A program that has ended makes no request. -/
theorem done {a : α} (joins : (Program.done a).Joins xs q) :
    (∀ x ∈ xs, x.isOwn = false) ∧ q = .done a := by
  induction xs with
  | nil => exact ⟨List.forall_mem_nil _, joins⟩
  | cons x xs ih =>
    cases own : x.isOwn with
    | false =>
      obtain ⟨others, same⟩ := ih ((other_iff own).1 joins)
      exact ⟨by simpa [own] using others, same⟩
    | true =>
      obtain ⟨next, impossible, -⟩ := (own_iff own).1 joins
      cases impossible

/-- The first request was not made yet, or it was answered after some requests of others. -/
theorem call {r : Request} {next : r.Reply → Program α} (joins : (Program.call r next).Joins xs q) :
    ((∀ x ∈ xs, x.isOwn = false) ∧ q = .call r next) ∨
      ∃ others before reply after rest, xs = others ++ ⟨true, before, r, reply, after⟩ :: rest ∧
        (∀ x ∈ others, x.isOwn = false) ∧ (next reply).Joins rest q := by
  induction xs with
  | nil => exact .inl ⟨List.forall_mem_nil _, joins⟩
  | cons x xs ih =>
    obtain ⟨isOwn, before, request, reply, after⟩ := x
    cases isOwn with
    | false =>
      rcases ih ((other_iff rfl).1 joins) with ⟨others, same⟩ | ⟨others, b, s, a, rest, rfl, apart, joins⟩
      · exact .inl ⟨by simpa using others, same⟩
      · exact .inr ⟨⟨false, before, request, reply, after⟩ :: others, b, s, a, rest, rfl,
          by simpa using apart, joins⟩
    | true =>
      obtain ⟨next', same, rest⟩ := (own_iff rfl).1 joins
      cases same
      exact .inr ⟨[], before, reply, after, xs, rfl, List.forall_mem_nil _, rest⟩

/-- The first part of a program has not ended, or it has and the second goes on. -/
theorem bind {p : Program α} {f : α → Program β} {q : Program β} (joins : (p >>= f).Joins xs q) :
    (∃ p', p.Joins xs p' ∧ (∀ a, p' ≠ .done a) ∧ q = p' >>= f) ∨
      ∃ first second a, xs = first ++ second ∧ p.Joins first (.done a) ∧ (f a).Joins second q := by
  induction xs generalizing p with
  | nil =>
    cases p with
    | done a => exact .inr ⟨[], [], a, rfl, rfl, joins⟩
    | call r next => exact .inl ⟨_, rfl, nofun, joins⟩
  | cons x xs ih =>
    obtain ⟨isOwn, before, request, reply, after⟩ := x
    cases isOwn with
    | false =>
      rcases ih ((other_iff rfl).1 joins) with
        ⟨p', first, open', same⟩ | ⟨first, second, a, rfl, ended, rest⟩
      · exact .inl ⟨p', (other_iff rfl).2 first, open', same⟩
      · exact .inr ⟨_ :: first, second, a, rfl, (other_iff rfl).2 ended, rest⟩
    | true =>
      cases p with
      | done a => exact .inr ⟨[], _, a, rfl, rfl, joins⟩
      | call r next =>
        obtain ⟨next', same, rest⟩ := (own_iff rfl).1 joins
        rw [bind_call] at same
        cases same
        rcases ih rest with ⟨p', first, open', same⟩ | ⟨first, second, a, rfl, ended, rest⟩
        · exact .inl ⟨p', (own_iff rfl).2 ⟨next, rfl, first⟩, open', same⟩
        · exact .inr ⟨_ :: first, second, a, rfl, (own_iff rfl).2 ⟨next, rfl, ended⟩, rest⟩

theorem bind_of {p : Program α} {f : α → Program β} {a : α} {q : Program β}
    (first : p.Joins xs (.done a)) (second : (f a).Joins ys q) : (p >>= f).Joins (xs ++ ys) q := by
  induction xs generalizing p with
  | nil =>
    obtain rfl : Program.done a = p := first
    exact second
  | cons x xs ih =>
    cases own : x.isOwn with
    | false => exact (other_iff own).2 (ih ((other_iff own).1 first))
    | true =>
      obtain ⟨next, rfl, continues⟩ := (own_iff own).1 first
      exact (own_iff own).2 ⟨fun reply => next reply >>= f, rfl, ih continues⟩

theorem asks {kind : Request → Prop} {v v' : Vault} (joins : p.Joins xs q) (asks : p.Asks kind)
    (dialogue : Dialogue v xs v') : q.Asks kind ∧ ∀ x ∈ xs, x.isOwn = true → kind x.request := by
  induction xs generalizing p v with
  | nil =>
    obtain rfl : q = p := joins
    exact ⟨asks, List.forall_mem_nil _⟩
  | cons x xs ih =>
    obtain ⟨-, happens, rest⟩ := dialogue
    cases own : x.isOwn with
    | false =>
      obtain ⟨left, asked⟩ := ih ((other_iff own).1 joins) asks rest
      exact ⟨left, by simpa [own] using asked⟩
    | true =>
      obtain ⟨next, rfl, continues⟩ := (own_iff own).1 joins
      obtain ⟨left, asked⟩ := ih continues (asks.2 x.reply happens.credible) rest
      exact ⟨left, by simpa [asks.1] using asked⟩

theorem obeys {rule : Rule} {promise : List Effect → α → Prop} {own : List Effect} {v v' : Vault}
    (joins : p.Joins xs q) (obeys : p.Obeys rule promise own) (dialogue : Dialogue v xs v') :
    q.Obeys rule promise ((ownEffects xs).reverse ++ own) := by
  induction xs generalizing p v own with
  | nil =>
    obtain rfl : q = p := joins
    exact obeys
  | cons x xs ih =>
    obtain ⟨-, happens, rest⟩ := dialogue
    cases isOwn : x.isOwn with
    | false =>
      have effects : ownEffects (x :: xs) = ownEffects xs := by simp [ownEffects, Exchange.ownEffect?, isOwn]
      rw [effects]
      exact ih ((other_iff isOwn).1 joins) obeys rest
    | true =>
      obtain ⟨next, rfl, continues⟩ := (own_iff isOwn).1 joins
      have effects : (ownEffects (x :: xs)).reverse ++ own =
          (ownEffects xs).reverse ++ x.request.recall x.reply own := by
        unfold ownEffects Request.recall
        cases effect : x.request.effect? x.reply <;>
          simp [Exchange.ownEffect?, isOwn, Exchange.effect?, effect]
      rw [effects]
      exact ih continues (obeys x.reply happens.credible).2 rest

theorem allowed {rule : Rule} {promise : List Effect → α → Prop} {own : List Effect} {v v' : Vault}
    {d : Effect} (joins : p.Joins (xs ++ x :: ys) q) (obeys : p.Obeys rule promise own)
    (dialogue : Dialogue v (xs ++ x :: ys) v') (isOwn : x.isOwn = true) (effect : x.effect? = some d) :
    rule ((ownEffects xs).reverse ++ own) d := by
  obtain ⟨p', first, second⟩ := append_iff.1 joins
  obtain ⟨v₁, before, -, happens, -⟩ := Dialogue.append_iff.1 dialogue
  have obeys' := first.obeys obeys before
  obtain ⟨next, rfl, -⟩ := (own_iff isOwn).1 second
  exact (obeys' x.reply happens.credible).1 d effect

end Joins

end Program

namespace Operation

variable {xs : List Exchange} {q : Program (Except BlobError β)}

theorem joins_lift {p : Program α} {f : α → Operation β} :
    (ExceptT.lift p >>= f).run.Joins xs q ↔ (p >>= fun a => (f a).run).Joins xs q := by
  rw [run_lift_bind]

end Operation

namespace Program

/-- The exchanges if nothing fails and the turns are taken so, `none` being the program's, with
what is left of the program and the state after them. -/
def play : Program α → Vault → List (Option Request) → List Exchange × Program α × Vault
  | p, v, [] => ([], p, v)
  | p, v, some r :: turns =>
    let rest := p.play (v.answer r).2 turns
    (⟨false, v, r, (v.answer r).1, (v.answer r).2⟩ :: rest.1, rest.2)
  | .done a, v, none :: turns => (done a).play v turns
  | .call r next, v, none :: turns =>
    let rest := (next (v.answer r).1).play (v.answer r).2 turns
    (⟨true, v, r, (v.answer r).1, (v.answer r).2⟩ :: rest.1, rest.2)

/-- There is a dialogue for every order of turns. -/
theorem play_dialogue (p : Program α) (v : Vault) (turns : List (Option Request)) :
    Dialogue v (p.play v turns).1 (p.play v turns).2.2 ∧
      p.Joins (p.play v turns).1 (p.play v turns).2.1 := by
  induction turns generalizing p v with
  | nil => cases p <;> exact ⟨rfl, rfl⟩
  | cons turn turns ih =>
    cases turn with
    | some r =>
      have rest := ih p (v.answer r).2
      cases p <;> exact ⟨⟨rfl, .served, rest.1⟩, (Joins.other_iff rfl).2 rest.2⟩
    | none =>
      cases p with
      | done a => exact ih (done a) v
      | call r next =>
        have rest := ih (next (v.answer r).1) (v.answer r).2
        exact ⟨⟨rfl, .served, rest.1⟩, (Joins.own_iff rfl).2 ⟨next, rfl, rest.2⟩⟩

theorem play_served (p : Program α) (v : Vault) (turns : List (Option Request)) :
    ∀ x ∈ (p.play v turns).1, x.Served := by
  induction turns generalizing p v with
  | nil => cases p <;> exact List.forall_mem_nil _
  | cons turn turns ih =>
    cases turn with
    | some r => cases p <;> exact List.forall_mem_cons.2 ⟨rfl, ih _ _⟩
    | none =>
      cases p with
      | done a => exact ih _ _
      | call r next => exact List.forall_mem_cons.2 ⟨rfl, ih _ _⟩

end Program

end BlobLifecycle
