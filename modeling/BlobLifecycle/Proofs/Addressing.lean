import BlobLifecycle.Proofs.Traversal
import Mathlib.Data.List.Basic

/-! One traversal behind all that is asked of a value. It shows each position once, in the order
of the coordinates, and look-up, membership and flattening agree with plain indexing. -/
namespace BlobLifecycle

namespace FieldValue

/-- The handle that indexing the value directly gives. -/
def at? : FieldValue → List Nat → Option Handle
  | .blob h, [] => some h
  | .list hs, [i] | .path hs, [i] => hs[i]?
  | .paths ps, [i, j] => ps[i]?.bind (·[j]?)
  | _, _ => none

def numbered (coordinates : Nat → List Nat) (start : Nat) (hs : List Handle) :
    List (List Nat × Handle) :=
  (hs.zipIdx start).map fun (h, i) => (coordinates i, h)

def positions : FieldValue → List (List Nat × Handle)
  | .blob h => [([], h)]
  | .list hs | .path hs => numbered (fun i => [i]) 0 hs
  | .paths ps => ps.zipIdx.flatMap fun (p, i) => numbered (fun j => [i, j]) 0 p

/-- Shows these positions to a visitor, up to the one at which it ends. -/
def showEach (visitor : Visitor σ) : List (List Nat × Handle) → σ → ForInStep σ
  | [], s => .yield s
  | (here, h) :: rest, s =>
    match visitor s here h with
    | .done s => .done s
    | .yield s => showEach visitor rest s

/-- Notes what it is shown, and ends with the call of this number. -/
def notesUpTo (calls : Nat) : Visitor (List (List Nat × Handle)) := fun seen here h =>
  if seen.length + 1 = calls then .done (seen ++ [(here, h)]) else .yield (seen ++ [(here, h)])

section

variable {visitor : Visitor σ} {coordinates : Nat → List Nat} {s : σ}

theorem numbered_cons (start : Nat) (h : Handle) (hs : List Handle) :
    numbered coordinates start (h :: hs) =
      (coordinates start, h) :: numbered coordinates (start + 1) hs := rfl

theorem showEach_append (l l' : List (List Nat × Handle)) : showEach visitor (l ++ l') s =
    match showEach visitor l s with
    | .done s => .done s
    | .yield s => showEach visitor l' s := by
  induction l generalizing s with
  | nil => rfl
  | cons position l ih =>
    rw [List.cons_append, showEach, showEach]
    cases visitor s position.1 position.2 with
    | done s => rfl
    | yield s => exact ih

theorem visitSequence_eq (i : Nat) (hs : List Handle) :
    visitSequence visitor coordinates i hs s = showEach visitor (numbered coordinates i hs) s := by
  induction hs generalizing i s with
  | nil => rfl
  | cons h hs ih =>
    rw [numbered_cons, visitSequence, showEach]
    cases visitor s (coordinates i) h with
    | done s => rfl
    | yield s => exact ih (i + 1)

theorem visitPaths_eq (i : Nat) (ps : List HierarchyPath) : visitPaths visitor i ps s =
    showEach visitor ((ps.zipIdx i).flatMap fun (p, i) => numbered (fun j => [i, j]) 0 p) s := by
  induction ps generalizing i s with
  | nil => rfl
  | cons p ps ih =>
    rw [List.zipIdx_cons, List.flatMap_cons, showEach_append, visitPaths, visitSequence_eq]
    cases showEach visitor (numbered (fun j => [i, j]) 0 p) s with
    | done s => rfl
    | yield s => exact ih (i + 1)

/-- The traversal of each shape shows its positions. -/
theorem visit_eq (value : FieldValue) : value.visit visitor s = showEach visitor value.positions s := by
  cases value with
  | blob h =>
    show visitor s [] h = match visitor s [] h with | .done s => .done s | .yield s => .yield s
    cases visitor s [] h <;> rfl
  | list hs => exact visitSequence_eq 0 hs
  | path hs => exact visitSequence_eq 0 hs
  | paths ps => exact visitPaths_eq 0 ps

end

section

variable {value : FieldValue} {coordinates : Nat → List Nat} {here : List Nat} {h : Handle}

theorem mem_numbered {hs : List Handle} :
    (here, h) ∈ numbered coordinates 0 hs ↔ ∃ i, here = coordinates i ∧ hs[i]? = some h := by
  simp only [numbered, List.mem_map, Prod.exists, List.mk_mem_zipIdx_iff_getElem?, Prod.mk.injEq]
  constructor
  · rintro ⟨h, i, present, rfl, rfl⟩
    exact ⟨i, rfl, present⟩
  · rintro ⟨i, rfl, present⟩
    exact ⟨h, i, present, rfl, rfl⟩

/-- The positions are those at which indexing finds a handle. -/
theorem mem_positions : (here, h) ∈ value.positions ↔ value.at? here = some h := by
  cases value with
  | blob h' => cases here <;> simp [positions, at?, eq_comm]
  | list hs | path hs =>
    simp only [positions, mem_numbered]
    match here with
    | [] => simp [at?]
    | [i] => simp [at?]
    | i :: j :: rest => simp [at?]
  | paths ps =>
    simp only [positions, List.mem_flatMap, Prod.exists, List.mk_mem_zipIdx_iff_getElem?, mem_numbered]
    match here with
    | [] => simp [at?]
    | [i] => simp [at?]
    | [i, j] => simp [at?, Option.bind_eq_some_iff]
    | i :: j :: k :: rest => simp [at?]

theorem length_of_at? (found : value.at? here = some h) : here.length = value.shape.arity := by
  unfold at? at found
  split at found <;> first | rfl | cases found

theorem zipIdx_ascending (l : List α) : l.zipIdx.Pairwise fun a b => a.2 < b.2 := by
  rw [← List.pairwise_map, List.zipIdx_map_snd]
  exact List.pairwise_lt_range' 1

theorem numbered_ascending (mono : ∀ i j, i < j → coordinates i < coordinates j) (hs : List Handle) :
    ((numbered coordinates 0 hs).map (·.1)).Pairwise (· < ·) := by
  rw [List.pairwise_map, numbered, List.pairwise_map]
  exact (zipIdx_ascending hs).imp fun less => mono _ _ less

/-- Each position comes once, and those with lesser coordinates come before it. -/
theorem positions_ascending (value : FieldValue) :
    (value.positions.map (·.1)).Pairwise (· < ·) := by
  cases value with
  | blob h => exact List.pairwise_singleton _ _
  | list hs | path hs =>
    exact numbered_ascending (fun i j less => List.cons_lt_cons_iff.2 (.inl less)) hs
  | paths ps =>
    rw [List.pairwise_map, positions, List.pairwise_flatMap]
    constructor
    · rintro ⟨p, i⟩ -
      rw [← List.pairwise_map]
      refine numbered_ascending (fun j k less => ?_) p
      exact List.cons_lt_cons_iff.2 (.inr ⟨rfl, List.cons_lt_cons_iff.2 (.inl less)⟩)
    · refine (zipIdx_ascending ps).imp fun less position member position' member' => ?_
      obtain ⟨j, here, -⟩ := mem_numbered.1 member
      obtain ⟨k, here', -⟩ := mem_numbered.1 member'
      rw [here, here']
      exact List.cons_lt_cons_iff.2 (.inl less)

theorem positions_handles (value : FieldValue) : value.positions.map (·.2) = value.elements := by
  have sequence (coordinates : Nat → List Nat) (hs : List Handle) :
      (numbered coordinates 0 hs).map (·.2) = hs := by
    rw [numbered, List.map_map]
    exact List.zipIdx_map_fst 0 hs
  cases value with
  | blob h => rfl
  | list hs => exact sequence (fun i => [i]) hs
  | path hs => exact sequence (fun i => [i]) hs
  | paths ps =>
    rw [positions, List.map_flatMap, elements]
    simp only [sequence]
    rw [List.flatMap_def, List.zipIdx_map_fst 0 ps]

theorem mem_elements_iff : h ∈ value.elements ↔ ∃ indexes, value.at? indexes = some h := by
  rw [← positions_handles, List.mem_map]
  simp only [Prod.exists, exists_eq_right, mem_positions]

theorem contains_iff : value.contains h = true ↔ h ∈ value.elements := by
  simp [contains, anyHandle_eq]

/-- A search shows the positions up to the one that it is for. -/
theorem showEach_search (indexes : List Nat) (l : List (List Nat × Handle)) :
    (showEach (σ := Option Handle)
      (fun s here h => if here = indexes then .done (some h) else .yield s) l none).value =
      (l.find? (·.1 = indexes)).map (·.2) := by
  induction l with
  | nil => rfl
  | cons position l ih =>
    by_cases here : position.1 = indexes
    · simp [showEach, here, ForInStep.value]
    · simpa [showEach, here] using ih

theorem find_positions (value : FieldValue) (indexes : List Nat) :
    (value.positions.find? (·.1 = indexes)).map (·.2) = value.at? indexes := by
  cases found : value.positions.find? (·.1 = indexes) with
  | some position =>
    have member := List.mem_of_find?_eq_some found
    have here : position.1 = indexes := by simpa using List.find?_some found
    rw [← here]
    exact (mem_positions.1 member).symm
  | none =>
    refine (Option.eq_none_iff_forall_ne_some.2 fun h there => ?_).symm
    have apart := List.find?_eq_none.1 found _ (mem_positions.2 there)
    simp at apart

/-- Look-up by one search over the positions is plain indexing. -/
theorem resolve_eq (value : FieldValue) (indexes : List Nat) : value.resolve indexes =
    if indexes.length ≠ value.shape.arity then
      .error (.invalidAddressing value.shape indexes.length)
    else match value.at? indexes with
      | some h => .ok h
      | none => .error (.indexOutOfBounds value.shape indexes) := by
  have found : (value.visit (σ := Option Handle)
      (fun s here h => if here = indexes then .done (some h) else .yield s) none).value =
      value.at? indexes := by
    rw [visit_eq, showEach_search, find_positions]
  unfold resolve
  split
  · rfl
  · cases there : value.at? indexes with
    | none => simp only [found, there]
    | some h => simp only [found, there]

theorem resolve_eq_ok {indexes : List Nat} :
    value.resolve indexes = .ok h ↔ value.at? indexes = some h := by
  rw [resolve_eq]
  constructor
  · intro found
    split at found
    · cases found
    · split at found <;> cases found
      assumption
  · intro found
    rw [if_neg (not_not_intro (length_of_at? found)), found]

/-- Shown to one who keeps notes, the positions are noted up to that call. -/
theorem showEach_notes (calls : Nat) (l seen : List (List Nat × Handle)) (more : seen.length < calls) :
    showEach (notesUpTo calls) l seen =
      if calls ≤ (seen ++ l).length then .done ((seen ++ l).take calls) else .yield (seen ++ l) := by
  induction l generalizing seen with
  | nil => simp [showEach, more]
  | cons position l ih =>
    rw [showEach, notesUpTo]
    by_cases last : seen.length + 1 = calls
    · have whole : (seen ++ position :: l).take calls = seen ++ [position] := by
        simp [← last, List.take_append, List.take_of_length_le]
      rw [if_pos last, whole, if_pos (by simp; omega)]
    · rw [if_neg last]
      dsimp only
      rw [ih _ (by simp; omega), List.append_assoc, List.singleton_append]

end

structure Coherent (value : FieldValue) : Prop where
  /-- Each position once, in the order of the coordinates. -/
  ascending : (value.positions.map (·.1)).Pairwise (· < ·)
  covers : ∀ here h, (here, h) ∈ value.positions ↔ value.at? here = some h
  /-- A visitor is shown the positions in order, up to the one at which it ends. -/
  visits : ∀ {σ : Type} (visitor : Visitor σ) (s : σ),
    value.visit visitor s = showEach visitor value.positions s
  /-- One that ends with its `n + 1`st call has seen so many, or all if there are fewer. -/
  stops : ∀ n, value.visit (notesUpTo (n + 1)) [] =
    if n < value.positions.length then .done (value.positions.take (n + 1))
    else .yield value.positions
  arity : ∀ indexes, indexes.length ≠ value.shape.arity ↔
    value.resolve indexes = .error (.invalidAddressing value.shape indexes.length)
  found : ∀ indexes h, value.resolve indexes = .ok h ↔ value.at? indexes = some h
  missed : ∀ indexes, value.resolve indexes = .error (.indexOutOfBounds value.shape indexes) ↔
    indexes.length = value.shape.arity ∧ value.at? indexes = none
  flattened : ∀ h, h ∈ value.handles ↔ value.contains h = true
  reachable : ∀ h, value.contains h = true ↔ ∃ indexes, value.resolve indexes = .ok h

end FieldValue

/-- Whatever its shape, a value answers coherently. -/
theorem values_answer_coherently (value : FieldValue) : value.Coherent where
  ascending := value.positions_ascending
  covers := fun _ _ => FieldValue.mem_positions
  visits := fun _ _ => value.visit_eq
  stops := fun n => by
    rw [FieldValue.visit_eq]
    exact FieldValue.showEach_notes (n + 1) value.positions [] (Nat.succ_pos n)
  arity := fun indexes => by
    rw [FieldValue.resolve_eq]
    split
    · next wrong => simp [wrong]
    · next right => cases value.at? indexes <;> simp [not_not.1 right]
  found := fun _ _ => FieldValue.resolve_eq_ok
  missed := fun indexes => by
    rw [FieldValue.resolve_eq]
    split
    · next wrong => simp [wrong]
    · next right => cases value.at? indexes <;> simp [not_not.1 right]
  flattened := fun _ => FieldValue.mem_handles.trans FieldValue.contains_iff.symm
  reachable := fun h => by
    simp only [FieldValue.resolve_eq_ok]
    exact FieldValue.contains_iff.trans FieldValue.mem_elements_iff

example (a b c : Handle) : (FieldValue.paths [[a], [], [b, c]]).positions =
    [([0, 0], a), ([2, 0], b), ([2, 1], c)] := rfl

end BlobLifecycle
