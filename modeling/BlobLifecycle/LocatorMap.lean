import BlobLifecycle.Error

/-! Tables keyed by locator. The entries stand in strictly ascending byte order of
their keys, so that equal contents are equal tables. -/
namespace BlobLifecycle

structure LocatorMap (α : Type) where
  entries : List (Locator × α)
  sorted : entries.Pairwise fun a b => a.1 < b.1

namespace LocatorMap

variable {α : Type}

theorem eq_of_not_lt {a b : Locator} (h : ¬a < b) (h' : ¬b < a) : a = b :=
  List.le_antisymm (List.not_lt.1 h') (List.not_lt.1 h)

def empty : LocatorMap α := ⟨[], .nil⟩

instance : EmptyCollection (LocatorMap α) := ⟨empty⟩
instance : Inhabited (LocatorMap α) := ⟨empty⟩

def size (m : LocatorMap α) : Nat := m.entries.length

def keys (m : LocatorMap α) : List Locator := m.entries.map (·.1)

def lookup (key : Locator) : List (Locator × α) → Option α
  | [] => none
  | e :: rest => if e.1 = key then some e.2 else lookup key rest

def find? (m : LocatorMap α) (key : Locator) : Option α := lookup key m.entries

def contains (m : LocatorMap α) (key : Locator) : Bool := (m.find? key).isSome

/-- Puts the entry at its place, over an entry of the same key. -/
def place (key : Locator) (value : α) : List (Locator × α) → List (Locator × α)
  | [] => [(key, value)]
  | (k, v) :: rest =>
    if key < k then (key, value) :: (k, v) :: rest
    else if k < key then (k, v) :: place key value rest
    else (key, value) :: rest

theorem mem_place {key : Locator} {value : α} {l : List (Locator × α)} {e : Locator × α}
    (h : e ∈ place key value l) : e = (key, value) ∨ e ∈ l := by
  induction l with
  | nil => simp_all [place]
  | cons head rest ih =>
    obtain ⟨k, v⟩ := head
    rw [place] at h
    split at h
    · simpa using h
    · split at h
      · rcases List.mem_cons.1 h with rfl | h
        · simp
        · rcases ih h with h | h <;> simp [h]
      · rcases List.mem_cons.1 h with h | h <;> simp [h]

theorem place_sorted {key : Locator} {value : α} {l : List (Locator × α)}
    (h : l.Pairwise fun a b => a.1 < b.1) :
    (place key value l).Pairwise fun a b => a.1 < b.1 := by
  induction l with
  | nil => simp [place]
  | cons head rest ih =>
    obtain ⟨k, v⟩ := head
    have below := (List.pairwise_cons.1 h).1
    have tail := (List.pairwise_cons.1 h).2
    rw [place]
    split
    · refine List.pairwise_cons.2 ⟨fun e he => ?_, h⟩
      rcases List.mem_cons.1 he with rfl | he
      · assumption
      · exact List.lt_trans ‹key < k› (below e he)
    · split
      · refine List.pairwise_cons.2 ⟨fun e he => ?_, ih tail⟩
        rcases mem_place he with rfl | he
        · assumption
        · exact below e he
      · have : key = k := eq_of_not_lt ‹_› ‹_›
        subst this
        exact List.pairwise_cons.2 ⟨below, tail⟩

def insert (m : LocatorMap α) (key : Locator) (value : α) : LocatorMap α :=
  ⟨place key value m.entries, place_sorted m.sorted⟩

def erase (m : LocatorMap α) (key : Locator) : LocatorMap α :=
  ⟨m.entries.filter (·.1 ≠ key), m.sorted.filter _⟩

/-- Changes the value of `key`, if there is one. -/
def modify (m : LocatorMap α) (key : Locator) (f : α → α) : LocatorMap α :=
  ⟨m.entries.map fun e => if e.1 = key then (e.1, f e.2) else e,
    List.pairwise_map.2 (m.sorted.imp fun {a b} h => by
      split <;> split <;> exact h)⟩

@[ext] theorem ext {m n : LocatorMap α} (h : m.entries = n.entries) : m = n := by
  cases m; cases n; cases h; rfl

@[simp] theorem find?_empty (key : Locator) : (empty : LocatorMap α).find? key = none := rfl

theorem lookup_place (key other : Locator) (value : α) (l : List (Locator × α)) :
    lookup other (place key value l) = if other = key then some value else lookup other l := by
  induction l with
  | nil => simp [place, lookup, eq_comm]
  | cons head rest ih =>
    have := @eq_of_not_lt key head.1
    have irrefl := List.lt_irrefl key
    grind [place, lookup]

theorem find?_insert (m : LocatorMap α) (key other : Locator) (value : α) :
    (m.insert key value).find? other = if other = key then some value else m.find? other :=
  lookup_place key other value m.entries

theorem find?_erase (m : LocatorMap α) (key other : Locator) :
    (m.erase key).find? other = if other = key then none else m.find? other := by
  simp only [find?, erase]
  induction m.entries with
  | nil => simp [lookup]
  | cons head rest ih => grind [lookup]

theorem find?_modify (m : LocatorMap α) (key other : Locator) (f : α → α) :
    (m.modify key f).find? other = if other = key then (m.find? key).map f else m.find? other := by
  simp only [find?, modify]
  induction m.entries with
  | nil => simp [lookup]
  | cons head rest ih => grind [lookup]

theorem lookup_eq_some_iff {key : Locator} {value : α} {l : List (Locator × α)}
    (sorted : l.Pairwise fun a b => a.1 < b.1) : lookup key l = some value ↔ (key, value) ∈ l := by
  induction l with
  | nil => simp [lookup]
  | cons head rest ih =>
    obtain ⟨below, tail⟩ := List.pairwise_cons.1 sorted
    have irrefl := List.lt_irrefl key
    have above (member : (key, value) ∈ rest) := below _ member
    grind [lookup]

/-- What is found under a key is what stands in the table. -/
theorem find?_eq_some_iff {m : LocatorMap α} {key : Locator} {value : α} :
    m.find? key = some value ↔ (key, value) ∈ m.entries := lookup_eq_some_iff m.sorted

end LocatorMap

end BlobLifecycle
