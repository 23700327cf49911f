import BlobLifecycle.Varint
import Mathlib.Algebra.Group.Nat.Defs

/-! Which byte strings are read as numbers: any groups that end where they say, up to the range of
64-bit words. The written form of a number is the shortest of them. -/
namespace BlobLifecycle

/-- The reader takes a spelling off the front of its input, whatever follows, and nothing else. -/
def Reads (reader : Bytes → Except ε (α × Bytes)) (spells : Bytes → α → Prop) : Prop :=
  ∀ bytes a rest, reader bytes = .ok (a, rest) ↔ ∃ front, bytes = front ++ rest ∧ spells front a

theorem Reads.append {reader : Bytes → Except ε (α × Bytes)} {spells : Bytes → α → Prop}
    (reads : Reads reader spells) {front : Bytes} {a : α} (spelled : spells front a)
    (rest : Bytes) : reader (front ++ rest) = .ok (a, rest) :=
  (reads _ a rest).2 ⟨front, rfl, spelled⟩

def FormOf (written bytes : Bytes) : Prop := bytes = written ∨ written.length < bytes.length

theorem FormOf.append {written bytes written' bytes' : Bytes} (first : FormOf written bytes)
    (second : FormOf written' bytes') : FormOf (written ++ written') (bytes ++ bytes') := by
  unfold FormOf at *
  rcases first with rfl | longer <;> rcases second with rfl | longer'
  · exact .inl rfl
  all_goals
    right
    simp only [List.length_append]
    omega

namespace Varint

def payload (group : UInt8) : Nat := group.toNat % 128

def continues (group : UInt8) : Bool := 128 ≤ group.toNat

def encode (n : Nat) : Bytes :=
  if n < 128 then [UInt8.ofNat n] else UInt8.ofNat (n % 128 + 128) :: encode (n / 128)
termination_by n

def readGroups : Nat → Bytes → Except Failure (Nat × Bytes)
  | 0, _ => .error .tooLong
  | _ + 1, [] => .error .endOfInput
  | groups + 1, group :: rest =>
    if groups = 0 ∧ 1 < payload group then .error .overflow
    else if continues group then
      match readGroups groups rest with
      | .ok (n, rest) => .ok (payload group + 128 * n, rest)
      | .error failure => .error failure
    else .ok (payload group, rest)

def value : Bytes → Nat
  | [] => 0
  | group :: groups => payload group + 128 * value groups

/-- A number in at most so many groups, with more of them than it needs perhaps. All but the last
continue, and the last one that is admitted has a single bit. -/
inductive Numeral (limit : Nat) : Bytes → Nat → Prop
  | groups {front : Bytes} {last : UInt8} (continued : ∀ group ∈ front, continues group = true)
      (ended : continues last = false) (room : front.length < limit)
      (top : front.length + 1 = limit → last.toNat ≤ 1) :
      Numeral limit (front ++ [last]) (value (front ++ [last]))

theorem payload_of_ended {group : UInt8} (ended : continues group = false) :
    payload group = group.toNat := by
  simp only [continues, decide_eq_false_iff_not] at ended
  simp only [payload]
  omega

namespace Numeral

variable {limit n : Nat} {groups : Bytes}

theorem length_le (numeral : Numeral limit groups n) : groups.length ≤ limit := by
  obtain ⟨-, -, room, -⟩ := numeral
  simpa using Nat.succ_le_of_lt room

theorem nonempty (numeral : Numeral limit groups n) : groups ≠ [] := by
  cases numeral
  simp

/-- A single group, or one that continues before the others. -/
theorem cons_iff {group : UInt8} : Numeral (limit + 1) (group :: groups) n ↔
    (groups = [] ∧ continues group = false ∧ (limit = 0 → group.toNat ≤ 1) ∧ n = payload group) ∨
      continues group = true ∧ ∃ m, Numeral limit groups m ∧ n = payload group + 128 * m := by
  constructor
  · generalize same : group :: groups = whole
    rintro ⟨continued, ended, room, top⟩
    next front last =>
    cases front with
    | nil =>
      cases same
      exact .inl ⟨rfl, ended, fun none => top (by simp [none]), by simp [value]⟩
    | cons first front =>
      cases same
      obtain ⟨here, others⟩ := List.forall_mem_cons.1 continued
      refine .inr ⟨here, _, .groups others ended ?_ fun full => top ?_, rfl⟩
      · simpa using room
      · simpa using full
  · rintro (⟨rfl, ended, top, rfl⟩ | ⟨continued, m, ⟨others, ended, room, top⟩, rfl⟩)
    · have none : ∀ group ∈ ([] : Bytes), continues group = true := List.forall_mem_nil _
      exact .groups none ended (Nat.succ_pos limit) fun full => top (by simpa using full.symm)
    · next front last =>
      have all : ∀ byte ∈ group :: front, continues byte = true :=
        List.forall_mem_cons.2 ⟨continued, others⟩
      refine .groups all ended ?_ ?_
      · simpa using room
      · simpa using top

/-- So many groups reach the next power of 128, but for the last that is admitted. -/
theorem lt (numeral : Numeral (limit + 1) groups n) : n < 2 * 128 ^ limit := by
  induction limit generalizing groups n with
  | zero =>
    obtain ⟨group, groups, rfl⟩ := List.exists_cons_of_ne_nil numeral.nonempty
    rcases cons_iff.1 numeral with ⟨-, ended, top, rfl⟩ | ⟨-, m, rest, -⟩
    · have := top rfl
      rw [payload_of_ended ended]
      omega
    · exact absurd (List.length_eq_zero_iff.1 (Nat.le_zero.1 rest.length_le)) rest.nonempty
  | succ limit ih =>
    obtain ⟨group, groups, rfl⟩ := List.exists_cons_of_ne_nil numeral.nonempty
    have small : payload group < 128 := Nat.mod_lt _ (by decide)
    have power : 128 ≤ 128 ^ (limit + 1) := Nat.le_self_pow (Nat.succ_ne_zero limit) 128
    rcases cons_iff.1 numeral with ⟨-, -, -, rfl⟩ | ⟨-, m, rest, rfl⟩
    · omega
    · have := ih rest
      rw [Nat.pow_succ]
      omega

end Numeral

/-- A numeral at the front is the first group, or that and a shorter one. -/
theorem Numeral.front_iff {limit n : Nat} {group : UInt8} {tail rest : Bytes} :
    (∃ front, group :: tail = front ++ rest ∧ Numeral (limit + 1) front n) ↔
      (tail = rest ∧ continues group = false ∧ (limit = 0 → group.toNat ≤ 1) ∧ n = payload group) ∨
        continues group = true ∧
          ∃ m, (∃ front, tail = front ++ rest ∧ Numeral limit front m) ∧
            n = payload group + 128 * m := by
  constructor
  · rintro ⟨front, same, numeral⟩
    obtain ⟨group, front, rfl⟩ := List.exists_cons_of_ne_nil numeral.nonempty
    obtain ⟨rfl, rfl⟩ := List.cons.inj same
    rcases cons_iff.1 numeral with ⟨rfl, single⟩ | ⟨continued, m, rest, rfl⟩
    · exact .inl ⟨rfl, single⟩
    · exact .inr ⟨continued, m, ⟨front, rfl, rest⟩, rfl⟩
  · rintro (⟨rfl, single⟩ | ⟨continued, m, ⟨front, rfl, numeral⟩, rfl⟩)
    · exact ⟨[group], rfl, cons_iff.2 (.inl ⟨rfl, single⟩)⟩
    · exact ⟨group :: front, rfl, cons_iff.2 (.inr ⟨continued, m, numeral, rfl⟩)⟩

/-- Groups are read if they are a numeral, and what follows is left. -/
theorem readGroups_reads (limit : Nat) : Reads (readGroups limit) (Numeral limit) := by
  intro bytes n rest
  induction limit generalizing bytes n with
  | zero =>
    simp only [readGroups, reduceCtorEq, false_iff, not_exists, not_and]
    rintro front - ⟨-, -, room, -⟩
    exact absurd room (Nat.not_lt_zero _)
  | succ limit ih =>
    cases bytes with
    | nil =>
      simp only [readGroups, reduceCtorEq, false_iff, not_exists, not_and]
      intro front same numeral
      exact numeral.nonempty (List.append_eq_nil_iff.1 same.symm).1
    | cons group tail =>
      rw [Numeral.front_iff, readGroups]
      cases continued : continues group with
      | false =>
        have top := payload_of_ended continued
        split
        · next beyond => simp [beyond.1]; omega
        · next fits =>
          have top : limit = 0 → group.toNat ≤ 1 := by omega
          simp only [Except.ok.injEq, Prod.mk.injEq, Bool.false_eq_true, false_and, or_false,
            true_and, if_false]
          constructor
          · rintro ⟨rfl, rfl⟩
            exact ⟨rfl, top, rfl⟩
          · rintro ⟨rfl, -, rfl⟩
            exact ⟨rfl, rfl⟩
      | true =>
        split
        · next beyond =>
          obtain ⟨rfl, -⟩ := beyond
          simp [← ih, readGroups]
        · cases read : readGroups limit tail with
          | ok result =>
            obtain ⟨m, back⟩ := result
            simp only [← ih, read, if_true, Except.ok.injEq, Prod.mk.injEq, Bool.true_eq_false,
              false_and, and_false, false_or, true_and, and_assoc, exists_eq_left']
            rw [and_comm, eq_comm (a := n)]
          | error failure => simp [← ih, read]

theorem encode_of_lt {n : Nat} (small : n < 128) : encode n = [UInt8.ofNat n] := by
  rw [encode, if_pos small]

/-- The written form is one of the spellings. -/
theorem encode_numeral {limit n : Nat} (small : n < 2 * 128 ^ limit) :
    Numeral (limit + 1) (encode n) n := by
  induction limit generalizing n with
  | zero =>
    rw [encode_of_lt (by omega)]
    refine Numeral.cons_iff.2 (.inl ⟨rfl, ?_, fun _ => ?_, ?_⟩)
    all_goals simp [continues, payload]; omega
  | succ limit ih =>
    rw [encode]
    split
    · refine Numeral.cons_iff.2 (.inl ⟨rfl, ?_, nofun, ?_⟩)
      all_goals simp [continues, payload]; omega
    · have rest : n / 128 < 2 * 128 ^ limit := by
        rw [Nat.pow_succ] at small
        omega
      refine Numeral.cons_iff.2 (.inr ⟨?_, n / 128, ih rest, ?_⟩)
      all_goals simp [continues, payload]; omega

/-- Any other spelling of a number is longer than the written form. -/
theorem Numeral.form {limit n : Nat} {groups : Bytes} (numeral : Numeral limit groups n) :
    FormOf (encode n) groups := by
  induction groups generalizing limit n with
  | nil => exact absurd rfl numeral.nonempty
  | cons group groups ih =>
    have room : 0 < limit := Nat.zero_lt_of_lt numeral.length_le
    obtain ⟨limit, rfl⟩ : ∃ k, limit = k + 1 := Nat.exists_eq_add_one.2 room
    have small : payload group < 128 := Nat.mod_lt _ (by decide)
    have range : group.toNat < 256 := group.toNat_lt
    rcases cons_iff.1 numeral with ⟨rfl, ended, -, rfl⟩ | ⟨continued, m, rest, rfl⟩
    · left
      rw [encode_of_lt small, payload_of_ended ended, UInt8.ofNat_toNat]
    · rw [encode]
      split
      · right
        simpa using List.length_pos_iff.2 rest.nonempty
      · have whole : (payload group + 128 * m) / 128 = m := by omega
        have part : (payload group + 128 * m) % 128 + 128 = group.toNat := by
          simp only [continues, decide_eq_true_eq] at continued
          simp only [payload]
          omega
        rw [whole, part, UInt8.ofNat_toNat]
        have first : FormOf [group] [group] := .inl rfl
        exact first.append (ih rest)

/-- Numbers below this bound are the 64-bit words. -/
def wordLimit : Nat := 0x10000000000000000

theorem wordLimit_eq : wordLimit = 2 * 128 ^ 9 := by decide

theorem word_numeral {n : Nat} (small : n < wordLimit) : Numeral maxGroups (encode n) n :=
  encode_numeral (wordLimit_eq ▸ small)

theorem Numeral.word {n : Nat} {groups : Bytes} (numeral : Numeral maxGroups groups n) :
    n < wordLimit := wordLimit_eq ▸ numeral.lt

end Varint

end BlobLifecycle
