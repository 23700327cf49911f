import BlobLifecycle.Proofs.Numeral
import Mathlib.Algebra.BigOperators.Fin
import Mathlib.Data.Nat.Bitwise
import Mathlib.Tactic.Ring

/-! Numbers as 64-bit words, by shifts and masks. No group that is accepted leaves the word, so what
is read is what the groups come to, and groups that come to more are refused. -/
namespace BlobLifecycle.Varint

theorem toNat_payload (group : UInt8) : (group &&& 0x7f).toUInt64.toNat = payload group := by
  rw [UInt8.toNat_toUInt64, UInt8.toNat_and]
  exact Nat.and_two_pow_sub_one_eq_mod group.toNat 7

theorem ended_iff (group : UInt8) : group &&& 0x80 = 0 ↔ continues group = false := by
  have range : group.toNat < 256 := group.toNat_lt
  have bit : (group &&& 0x80).toNat = group.toNat &&& 2 ^ 7 := UInt8.toNat_and group 0x80
  rw [← UInt8.toNat_inj, bit, Nat.and_two_pow]
  have high : group.toNat.testBit 7 = continues group := by
    rw [Nat.testBit_eq_decide_div_mod_eq, continues, decide_eq_decide]
    omega
  simp [high]

@[simp] theorem write_eq (word : UInt64) : write word = encode word.toNat := by
  fun_induction write word with
  | case1 word small =>
    have small : word.toNat < 128 := by simpa [UInt64.lt_iff_toNat_lt] using small
    rw [encode_of_lt small]
    refine congrArg (fun group => [group]) (UInt8.toNat_inj.1 ?_)
    rw [UInt64.toNat_toUInt8, UInt8.toNat_ofNat']
  | case2 word more ih =>
    have more : ¬word.toNat < 128 := by simpa [UInt64.lt_iff_toNat_lt] using more
    have rest : (word >>> 7).toNat = word.toNat / 128 := by
      rw [UInt64.toNat_shiftRight, Nat.shiftRight_eq_div_pow]
      rfl
    rw [encode, if_neg more, ih, rest]
    refine congrArg (· :: encode (word.toNat / 128)) (UInt8.toNat_inj.1 ?_)
    have low : (word.toUInt8 &&& 0x7f).toNat = word.toNat % 128 := by
      rw [UInt8.toNat_and, UInt64.toNat_toUInt8]
      refine (Nat.and_two_pow_sub_one_eq_mod _ 7).trans ?_
      omega
    have mark : (0x80 : UInt8).toNat = 2 ^ 7 * 1 := rfl
    have below : word.toNat % 128 < 2 ^ 7 := Nat.mod_lt _ (by decide)
    rw [UInt8.toNat_or, low, mark, Nat.or_comm, ← Nat.two_pow_add_eq_or_of_lt below,
      UInt8.toNat_ofNat']
    omega

theorem write_ofNat {n : Nat} (small : n < wordLimit) : write (.ofNat n) = encode n := by
  rw [write_eq, UInt64.toNat_ofNat_of_lt' small]

/-- Bits that are shifted beyond those of the word are added to it, as long as they have room. -/
theorem toNat_or_shiftLeft {word bits shift : UInt64} (low : word.toNat < 2 ^ shift.toNat)
    (within : shift.toNat < 64) (room : 2 ^ shift.toNat * bits.toNat < 2 ^ 64) :
    (word ||| bits <<< shift).toNat = word.toNat + 2 ^ shift.toNat * bits.toNat := by
  rw [UInt64.toNat_or, UInt64.toNat_shiftLeft, Nat.mod_eq_of_lt within, Nat.shiftLeft_eq,
    Nat.mul_comm, Nat.mod_eq_of_lt room, Nat.or_comm, ← Nat.two_pow_add_eq_or_of_lt low,
    Nat.add_comm]

theorem room_of_place {groups : Nat} {shift : UInt64} {group : UInt8}
    (place : shift.toNat + 7 * (groups + 1) = 70) (accepted : ¬(groups = 0 ∧ 1 < payload group)) :
    2 ^ shift.toNat * payload group < 2 ^ 64 := by
  by_cases last : groups = 0
  · have full : shift.toNat = 63 := by omega
    have single : payload group ≤ 1 := by omega
    rw [full]
    omega
  · have early : 2 ^ shift.toNat ≤ 2 ^ 56 := Nat.pow_le_pow_right (by decide) (by omega)
    have small : payload group < 128 := Nat.mod_lt _ (by decide)
    have product := Nat.mul_le_mul early (Nat.le_of_lt small)
    omega

/-- A group that is accepted is added at its place, and the next one has its place beyond. -/
theorem toNat_join {groups : Nat} {shift word : UInt64} {group : UInt8}
    (place : shift.toNat + 7 * (groups + 1) = 70) (low : word.toNat < 2 ^ shift.toNat)
    (accepted : ¬(groups = 0 ∧ 1 < payload group)) :
    (word ||| (group &&& 0x7f).toUInt64 <<< shift).toNat =
        word.toNat + 2 ^ shift.toNat * payload group ∧
      word.toNat + 2 ^ shift.toNat * payload group < 2 ^ (shift.toNat + 7) := by
  have bits := toNat_payload group
  have room := room_of_place place accepted
  have joined := toNat_or_shiftLeft low (by omega) (bits.symm ▸ room)
  rw [bits] at joined
  refine ⟨joined, ?_⟩
  have below : 2 ^ shift.toNat * (payload group + 1) ≤ 2 ^ shift.toNat * 128 :=
    Nat.mul_le_mul_left _ (Nat.mod_lt _ (by decide))
  calc word.toNat + 2 ^ shift.toNat * payload group
      < 2 ^ shift.toNat * (payload group + 1) := by
        rw [Nat.mul_add, Nat.mul_one]
        omega
    _ ≤ 2 ^ shift.toNat * 128 := below
    _ = 2 ^ (shift.toNat + 7) := (Nat.pow_add 2 shift.toNat 7).symm

theorem readInto_eq {groups : Nat} {shift word : UInt64} (place : shift.toNat + 7 * groups = 70)
    (low : word.toNat < 2 ^ shift.toNat) (bytes : Bytes) :
    readInto groups shift word bytes = (readGroups groups bytes).map fun read =>
      (.ofNat (word.toNat + 2 ^ shift.toNat * read.1), read.2) := by
  -- What was read fills the bits below `shift`, and the groups to come end at bit 70.
  induction groups generalizing shift word bytes with
  | zero => rfl
  | succ groups ih =>
    cases bytes with
    | nil => rfl
    | cons group rest =>
      have beyond : 1 < (group &&& 0x7f).toUInt64 ↔ 1 < payload group := by
        rw [UInt64.lt_iff_toNat_lt, toNat_payload]
        rfl
      rw [readInto, readGroups]
      simp only [beyond]
      split
      · rfl
      · next accepted =>
        obtain ⟨joined, below⟩ := toNat_join place low accepted
        cases continued : continues group with
        | false =>
          rw [if_pos ((ended_iff group).2 continued), if_neg Bool.false_ne_true]
          show _ = Except.ok (UInt64.ofNat (word.toNat + 2 ^ shift.toNat * payload group), rest)
          rw [← joined, UInt64.ofNat_toNat]
        | true =>
          have more : ¬group &&& 0x80 = 0 := by simp [ended_iff, continued]
          have next : (shift + 7).toNat = shift.toNat + 7 := by
            rw [UInt64.toNat_add]
            exact Nat.mod_eq_of_lt (by simp; omega)
          rw [if_neg more, if_pos rfl, ih (by omega) (by rwa [joined, next])]
          cases readGroups groups rest with
          | error failure => rfl
          | ok result =>
            have power : 2 ^ (shift.toNat + 7) = 2 ^ shift.toNat * 128 := Nat.pow_add ..
            simp only [Except.map, joined, next, power]
            rw [Nat.mul_add, Nat.mul_assoc, Nat.add_assoc]

/-- A word is read off the front if a numeral of it stands there. -/
theorem read_reads : Reads read fun bytes word => Numeral maxGroups bytes word.toNat := by
  intro bytes word rest
  have start : (0 : UInt64).toNat < 2 ^ (0 : UInt64).toNat := by decide
  rw [← readGroups_reads maxGroups bytes word.toNat rest, read, readInto_eq rfl start]
  cases result : readGroups maxGroups bytes with
  | error failure => simp [Except.map]
  | ok found =>
    obtain ⟨n, back⟩ := found
    obtain ⟨front, -, numeral⟩ := (readGroups_reads maxGroups bytes n back).1 result
    have whole : (UInt64.ofNat n).toNat = n := UInt64.toNat_ofNat_of_lt' numeral.word
    simp [Except.map, ← UInt64.toNat_inj, whole]

/-- The sum of the groups, each at its place. -/
def total (groups : Bytes) : Nat := ∑ i : Fin groups.length, payload groups[i] * 128 ^ (i : Nat)

/-- All groups but the last continue. -/
def Chained (groups : Bytes) : Prop := ∀ group ∈ groups.dropLast, continues group = true

def Ended (groups : Bytes) : Prop := ∃ last, groups.getLast? = some last ∧ continues last = false

theorem value_eq_total (groups : Bytes) : value groups = total groups := by
  induction groups with
  | nil => rfl
  | cons group groups ih =>
    have first : total (group :: groups) = payload group * 128 ^ 0 +
        ∑ i : Fin groups.length, payload groups[i] * 128 ^ ((i : Nat) + 1) := Fin.sum_univ_succ _
    rw [value, ih, first, total, Finset.mul_sum, pow_zero, Nat.mul_one]
    congr 1
    refine Finset.sum_congr rfl fun i _ => ?_
    ring

theorem value_append (front back : Bytes) :
    value (front ++ back) = value front + 128 ^ front.length * value back := by
  induction front with
  | nil => simp [value]
  | cons group front ih =>
    rw [List.cons_append, value, value, ih, List.length_cons, Nat.pow_succ]
    ring

/-- Numerals of words are the groups that end in time and come to a word. -/
theorem numeral_iff {groups : Bytes} {n : Nat} : Numeral maxGroups groups n ↔
    Chained groups ∧ Ended groups ∧ groups.length ≤ maxGroups ∧ total groups < wordLimit ∧
      n = total groups := by
  constructor
  · intro numeral
    have word := numeral.word
    have room := numeral.length_le
    obtain ⟨continued, ended, -, -⟩ := numeral
    rw [value_eq_total] at word
    exact ⟨by simpa [Chained] using continued, ⟨_, List.getLast?_concat, ended⟩, room, word,
      value_eq_total _⟩
  · rintro ⟨chained, ⟨last, final, ended⟩, room, word, rfl⟩
    obtain ⟨front, rfl⟩ := List.getLast?_eq_some_iff.1 final
    have split := value_append front [last]
    rw [← value_eq_total] at word ⊢
    refine .groups (by simpa [Chained] using chained) ended ?_ fun full => ?_
    · simpa using Nat.lt_of_succ_le (by simpa using room)
    · have place : front.length = 9 := Nat.succ.inj full
      rw [place, value, value, payload_of_ended ended] at split
      rw [wordLimit_eq] at word
      omega

/-- Groups that come to more than a word, or are too many, are not read. -/
theorem read_refuses {groups : Bytes} (chained : Chained groups)
    (beyond : wordLimit ≤ total groups ∨ maxGroups < groups.length) (rest : Bytes) :
    ∃ failure, read (groups ++ rest) = .error failure := by
  cases result : read (groups ++ rest) with
  | error failure => exact ⟨failure, rfl⟩
  | ok found =>
    obtain ⟨word, back⟩ := found
    obtain ⟨front, same, numeral⟩ := (read_reads _ word back).1 result
    obtain ⟨-, ⟨last, final, ended⟩, room, small, -⟩ := numeral_iff.1 numeral
    -- What was read does not end among groups that continue.
    obtain ⟨more, rfl⟩ : ∃ more, front = groups ++ more := by
      rcases List.append_eq_append_iff.1 same with ⟨more, whole, -⟩ | ⟨more, whole, -⟩
      · exact ⟨more, whole⟩
      · cases more with
        | nil => exact ⟨[], by simpa using whole.symm⟩
        | cons next more =>
          have inside : last ∈ groups.dropLast := by
            rw [whole, List.dropLast_append_cons]
            exact List.mem_append_left _ (List.mem_of_getLast? final)
          rw [chained last inside] at ended
          cases ended
    rw [← value_eq_total, value_append, value_eq_total] at small
    rw [List.length_append] at room
    omega

/-- A word is written in one to ten groups, which are read back whatever follows, and any other
groups that are read as it are more. What is read is the sum of the groups. Groups that come to
2 ^ 64 or more, or are more than ten, are refused. -/
theorem words_lose_no_bits :
    (∀ word rest, read (write word ++ rest) = .ok (word, rest)) ∧
      (∀ word, 1 ≤ (write word).length ∧ (write word).length ≤ 10 ∧
        ∀ groups rest, read (groups ++ rest) = .ok (word, rest) →
          groups = write word ∨ (write word).length < groups.length) ∧
      (∀ bytes word rest, read bytes = .ok (word, rest) ↔ ∃ groups, bytes = groups ++ rest ∧
        Chained groups ∧ Ended groups ∧ groups.length ≤ 10 ∧ word.toNat = total groups) ∧
      ∀ groups rest, Chained groups → 2 ^ 64 ≤ total groups ∨ 10 < groups.length →
        ∃ failure, read (groups ++ rest) = .error failure := by
  have written (word : UInt64) : Numeral maxGroups (write word) word.toNat := by
    rw [write_eq]
    exact word_numeral word.toNat_lt
  refine ⟨fun word rest => read_reads.append (written word) rest, fun word => ⟨?_, ?_, ?_⟩,
    fun bytes word rest => ?_, fun groups rest chained beyond => ?_⟩
  · exact List.length_pos_iff.2 (written word).nonempty
  · exact (written word).length_le
  · intro groups rest accepted
    obtain ⟨front, same, numeral⟩ := (read_reads _ word rest).1 accepted
    rw [List.append_cancel_right same, write_eq]
    exact numeral.form
  · rw [read_reads bytes word rest]
    refine exists_congr fun groups => and_congr_right fun _ => numeral_iff.trans ?_
    refine and_congr_right fun _ => and_congr_right fun _ => and_congr_right fun _ => ?_
    exact ⟨And.right, fun same => ⟨same ▸ word.toNat_lt, same⟩⟩
  · exact read_refuses chained beyond rest

/-- The greatest word takes ten groups, and one bit more than it is refused. -/
theorem sixty_fifth_bit_refused :
    let full : Bytes := List.replicate 9 0xff
    (write 0xffffffffffffffff).length = 10 ∧
      read (full ++ [1, 7]) = .ok (0xffffffffffffffff, [7]) ∧
      2 ^ 64 ≤ total (full ++ [2]) ∧ ∃ failure, read (full ++ [2] ++ [7]) = .error failure := by
  intro full
  obtain ⟨-, -, -, refused⟩ := words_lose_no_bits
  have long : (write 0xffffffffffffffff).length = 10 := by simp [encode]
  have chained : Chained (full ++ [2]) := by
    rw [Chained, List.dropLast_concat]
    intro group here
    rw [List.eq_of_mem_replicate here]
    rfl
  have beyond : 2 ^ 64 ≤ total (full ++ [2]) := by decide
  exact ⟨long, rfl, beyond, refused (full ++ [2]) [7] chained (.inl beyond)⟩

end BlobLifecycle.Varint
