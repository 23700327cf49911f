import BlobLifecycle.Number.Decimal
import BlobLifecycle.Number.Word
import Mathlib.Algebra.Group.Nat.Defs
import Mathlib.Data.List.TakeWhile

/-! Texts of numbers: which of them spell an integer, which of these are the way in which that
integer is written, and what becomes of unsigned words that are read as floating-point numbers. -/
namespace BlobLifecycle

theorem drop_takeWhile {α : Type} (p : α → Bool) (l : List α) :
    l.drop (l.takeWhile p).length = l.dropWhile p := by
  have rest := congrArg (List.drop (l.takeWhile p).length)
    (List.takeWhile_append_dropWhile (p := p) (l := l))
  rw [List.drop_left] at rest
  exact rest.symm

namespace Digits

theorem isDecimal_eq_isDigit (c : Char) : isDecimal c = c.isDigit := by
  simp [isDecimal, Char.isDigit, Char.le_def]

theorem isDecimal_iff {c : Char} : isDecimal c = true ↔ 48 ≤ c.toNat ∧ c.toNat ≤ 57 := by
  simp [isDecimal, Char.le_def, UInt32.le_iff_toNat_le]

theorem isDecimal_of_mem_toDigits {n : Nat} {c : Char} (held : c ∈ Nat.toDigits 10 n) :
    isDecimal c = true := by
  rw [isDecimal_eq_isDigit]
  exact Nat.isDigit_of_mem_toDigits (by decide) (by decide) held

/-- Letters count more than the base ten. -/
theorem below_ten (c : Char) :
    below? 10 c = if isDecimal c then some (c.toNat - 48) else none := by
  unfold below? value?
  by_cases decimal : isDecimal c = true
  · have bounds := isDecimal_iff.1 decimal
    rw [if_pos decimal, if_pos decimal, Option.filter_some, if_pos (by simp; omega)]
  · rw [if_neg decimal, if_neg decimal]
    split
    · next letter =>
      have bounds : 97 ≤ c.toNat ∧ c.toNat ≤ 102 := by
        simpa [Char.le_def, UInt32.le_iff_toNat_le] using letter
      simp
      omega
    · split
      · next letter =>
        have bounds : 65 ≤ c.toNat ∧ c.toNat ≤ 70 := by
          simpa [Char.le_def, UInt32.le_iff_toNat_le] using letter
        simp
        omega
      · rfl

theorem foldlM_ten (digits : List Char) (n m : Nat) :
    digits.foldlM (fun n c => (below? 10 c).map (n * 10 + ·)) n = some m ↔
      (∀ c ∈ digits, isDecimal c = true) ∧ Nat.ofDigitChars 10 digits n = m := by
  induction digits generalizing n with
  | nil => simp
  | cons c rest ih =>
    by_cases decimal : isDecimal c = true
    · have read : below? 10 c = some (c.toNat - 48) := by rw [below_ten, if_pos decimal]
      simp [read, decimal, ih, Nat.ofDigitChars_cons, Nat.mul_comm]
    · simp [below_ten, decimal]

theorem natural_ten {digits : List Char} {n : Nat} : natural? 10 digits = some n ↔
    digits ≠ [] ∧ (∀ c ∈ digits, isDecimal c = true) ∧ Nat.ofDigitChars 10 digits 0 = n := by
  unfold natural? number?
  by_cases empty : digits = []
  · simp [empty]
  · simp [empty, foldlM_ten]

theorem natural_toDigits (n : Nat) : natural? 10 (Nat.toDigits 10 n) = some n :=
  natural_ten.2 ⟨Nat.toDigits_ne_nil, fun _ => isDecimal_of_mem_toDigits,
    Nat.ofDigitChars_toDigits (by decide) (by decide)⟩

theorem toDigits_of_isDecimal {c : Char} (decimal : isDecimal c = true) :
    Nat.toDigits 10 (c.toNat - 48) = [c] := by
  obtain ⟨least, greatest⟩ := isDecimal_iff.1 decimal
  have small : c.toNat - 48 < 10 := by omega
  have same : (c.toNat - 48).digitChar = c := by
    apply Char.toNat_inj.1
    rw [Nat.toNat_digitChar_of_lt_ten small]
    omega
  rw [Nat.toDigits_of_lt_base small, same]

/-- Digits are appended to a number's as they are, if the number is not zero. -/
theorem toDigits_append {n : Nat} (positive : 0 < n) (digits : List Char)
    (decimal : ∀ c ∈ digits, isDecimal c = true) :
    Nat.toDigits 10 n ++ digits = Nat.toDigits 10 (Nat.ofDigitChars 10 digits n) := by
  induction digits generalizing n with
  | nil => simp
  | cons c rest ih =>
    have first := decimal c (by simp)
    have small : c.toNat - 48 < 10 := by
      have := isDecimal_iff.1 first
      omega
    have later := ih (n := 10 * n + (c.toNat - 48)) (by omega) fun d held =>
      decimal d (by simp [held])
    calc Nat.toDigits 10 n ++ c :: rest
        = (Nat.toDigits 10 n ++ Nat.toDigits 10 (c.toNat - 48)) ++ rest := by
          rw [toDigits_of_isDecimal first, List.append_assoc, List.singleton_append]
      _ = Nat.toDigits 10 (10 * n + (c.toNat - 48)) ++ rest := by
          rw [Nat.toDigits_append_toDigits (by decide) positive small]
      _ = Nat.toDigits 10 (Nat.ofDigitChars 10 (c :: rest) n) := later

/-- Digits without a zero before others are the way in which their number is written. -/
theorem toDigits_ofDigitChars {digits : List Char} (nonempty : digits ≠ [])
    (decimal : ∀ c ∈ digits, isDecimal c = true)
    (lead : digits.head? = some '0' → digits = ['0']) :
    Nat.toDigits 10 (Nat.ofDigitChars 10 digits 0) = digits := by
  obtain ⟨c, rest, rfl⟩ := List.exists_cons_of_ne_nil nonempty
  have first := decimal c (by simp)
  by_cases zero : c = '0'
  · subst zero
    rw [lead rfl]
    rfl
  · have positive : 0 < c.toNat - 48 := by
      have bounds := isDecimal_iff.1 first
      have apart : c.toNat ≠ '0'.toNat := fun same => zero (Char.toNat_inj.1 same)
      change c.toNat ≠ 48 at apart
      omega
    have written := toDigits_append positive rest fun d held => decimal d (by simp [held])
    rw [toDigits_of_isDecimal first] at written
    simpa [Nat.ofDigitChars_cons] using written.symm

theorem head_toDigits {n : Nat} (positive : 0 < n) : (Nat.toDigits 10 n).head? ≠ some '0' := by
  induction n using Nat.strongRecOn with
  | ind n ih =>
    by_cases small : n < 10
    · rw [Nat.toDigits_of_lt_base small]
      intro zero
      have value := congrArg Char.toNat (Option.some.inj zero)
      rw [Nat.toNat_digitChar_of_lt_ten small] at value
      change 48 + n = 48 at value
      omega
    · rw [Nat.toDigits_of_base_le (by decide) (by omega), List.head?_append,
        List.head?_eq_some_head Nat.toDigits_ne_nil, Option.some_or,
        ← List.head?_eq_some_head Nat.toDigits_ne_nil]
      exact ih (n / 10) (by omega) (by omega)

end Digits

namespace Binary64

theorem exponentFor_large {n : Nat} (least : 2 ^ 63 ≤ n) (greatest : n < 2 ^ 64) :
    exponentFor n 1 = 11 := by
  have bits : n.log2 = 63 := (Nat.log2_eq_iff (by omega)).2 ⟨least, greatest⟩
  have unit : scaled n 1 63 = (n, 2 ^ 63) := rfl
  have estimate : ((63 : Nat) : Int) - ((1 : Nat).log2 : Int) = 63 := by decide
  unfold exponentFor
  rw [bits, estimate]
  dsimp only
  rw [unit]
  dsimp only
  rw [if_neg (by omega)]
  decide

/-- The numbers of 64 bits whose first bit is set are 2048 apart. -/
theorem toInteger_large {n : Nat} (least : 2 ^ 63 ≤ n) (greatest : n < 2 ^ 64) :
    (ofFraction false n 1).toInteger 0 Word.greatestUnsigned =
      min Word.greatestUnsigned (2048 * divideNearest n 2048 : Nat) := by
  have grid : scaled n 1 11 = (n, 2048) := rfl
  unfold ofFraction
  rw [if_neg (by omega), exponentFor_large least greatest]
  dsimp only
  rw [grid]
  dsimp only
  split
  · next full =>
    rw [full]
    decide
  · generalize divideNearest n 2048 = q
    simp [greatestExponent, toInteger, fraction, Nat.shiftLeft_eq, Word.greatestUnsigned]
    omega

/-- Such a number is kept exactly if it is one of these or the greatest of all. -/
theorem nearest_large {n : Nat} (least : 2 ^ 63 ≤ n) (greatest : n < 2 ^ 64) :
    ∃ m : Nat, (ofFraction false n 1).toInteger 0 Word.greatestUnsigned = m ∧ m ≤ n + 1024 ∧
      n ≤ m + 1024 ∧ (m = n ↔ 2048 ∣ n ∨ (n : Int) = Word.greatestUnsigned) := by
  refine ⟨min 0xffffffffffffffff (2048 * divideNearest n 2048), ?_, ?_⟩
  · rw [toInteger_large least greatest, Word.greatestUnsigned]
    omega
  · unfold Word.greatestUnsigned divideNearest
    dsimp only
    split <;> omega

end Binary64

namespace Decimal

/-- The way in which whole numbers are written: no sign but a minus, no zero before other digits. -/
def Canonical (text : List Char) : Prop :=
  text.head? ≠ some '+' ∧ ((splitSign text).2.head? = some '0' → text = ['0'])

theorem splitSign_cases (text : List Char) : (∃ rest, text = '-' :: rest) ∨
    (∃ rest, text = '+' :: rest) ∨ splitSign text = (false, text) := by
  unfold splitSign
  split
  · exact .inl ⟨_, rfl⟩
  · exact .inr (.inl ⟨_, rfl⟩)
  · exact .inr (.inr rfl)

theorem splitSign_of_isDecimal {text : List Char}
    (decimal : ∀ c ∈ text, Digits.isDecimal c = true) : splitSign text = (false, text) := by
  unfold splitSign
  split
  · exact absurd (decimal '-' (by simp)) (by decide)
  · exact absurd (decimal '+' (by simp)) (by decide)
  · rfl

theorem splitSign_toDigits (n : Nat) : splitSign (Nat.toDigits 10 n) = (false, Nat.toDigits 10 n) :=
  splitSign_of_isDecimal fun _ => Digits.isDecimal_of_mem_toDigits

theorem toList_toString (n : Int) : (toString n).toList =
    if 0 ≤ n then Nat.toDigits 10 n.toNat else '-' :: Nat.toDigits 10 (-n).toNat := by
  change n.repr.toList = _
  rw [Int.repr_eq_if]
  split <;> simp [Nat.repr_eq_ofList_toDigits]

theorem integer_eq_some {text : List Char} {n : Int} :
    integer? Word.least Word.greatest text = some n ↔
      ∃ m, Digits.natural? 10 (splitSign text).2 = some m ∧
        n = (if (splitSign text).1 then -(m : Int) else m) ∧
        Word.least ≤ n ∧ n ≤ Word.greatest := by
  have range : ¬(text.head? = some '-' ∧ Word.least = 0) := by
    rintro ⟨-, none⟩
    cases none
  simp only [integer?, range, if_false, Option.bind_eq_bind, Option.bind_eq_some_iff,
    Option.ite_none_right_eq_some, Option.some.injEq]
  constructor
  · rintro ⟨m, digits, within, rfl⟩
    exact ⟨m, digits, rfl, within⟩
  · rintro ⟨m, digits, rfl, within⟩
    exact ⟨m, digits, within, rfl⟩

theorem integer_toString {n : Int} (least : Word.least ≤ n) (greatest : n ≤ Word.greatest) :
    integer? Word.least Word.greatest (toString n).toList = some n := by
  rw [integer_eq_some, toList_toString]
  split
  · next positive =>
    exact ⟨n.toNat, by rw [splitSign_toDigits]; exact Digits.natural_toDigits _,
      by rw [splitSign_toDigits]; simp; omega, least, greatest⟩
  · next negative =>
    exact ⟨(-n).toNat, Digits.natural_toDigits _, by simp [splitSign]; omega, least, greatest⟩

/-- An integer's text is the way in which it is written if it has the form of one. -/
theorem canonical_iff {text : List Char} {n : Int}
    (read : integer? Word.least Word.greatest text = some n) :
    Canonical text ↔ text = (toString n).toList := by
  obtain ⟨m, digits, value, -, -⟩ := integer_eq_some.1 read
  obtain ⟨nonempty, decimal, counted⟩ := Digits.natural_ten.1 digits
  rw [toList_toString]
  constructor
  · rintro ⟨unmarked, lead⟩
    rcases splitSign_cases text with ⟨rest, rfl⟩ | ⟨rest, rfl⟩ | unsigned
    · have kept : rest.head? ≠ some '0' := fun zero => by cases lead zero
      have written := Digits.toDigits_ofDigitChars nonempty decimal fun zero => absurd zero kept
      rw [counted] at written
      have positive : 0 < m := by
        apply Nat.pos_of_ne_zero
        rintro rfl
        exact kept (congrArg List.head? written.symm)
      have negative : ¬0 ≤ n := by
        rw [value]
        simp [splitSign]
        omega
      have size : (-n).toNat = m := by simp [value, splitSign]
      rw [if_neg negative, size, written]
      rfl
    · exact absurd rfl unmarked
    · rw [unsigned] at nonempty decimal counted lead value
      have written := Digits.toDigits_ofDigitChars nonempty decimal lead
      rw [counted] at written
      simp [value, written]
  · intro same
    by_cases positive : 0 ≤ n
    · rw [if_pos positive] at same
      have head : ∀ c, text.head? = some c → Digits.isDecimal c = true := fun c first =>
        Digits.isDecimal_of_mem_toDigits (n := n.toNat) (same ▸ List.mem_of_head? first)
      refine ⟨fun plus => absurd (head _ plus) (by decide), fun zero => ?_⟩
      rw [same, splitSign_toDigits] at zero
      have none : n.toNat = 0 := by
        by_contra some
        exact Digits.head_toDigits (Nat.pos_of_ne_zero some) zero
      rw [same, none, Nat.toDigits_zero]
    · rw [if_neg positive] at same
      rw [same]
      exact ⟨nofun, fun zero => absurd zero (Digits.head_toDigits (by omega))⟩

def IsNumeral (text : List Char) : Prop := ∀ c ∈ text, Digits.isDecimal c = true ∨ c = '-'

theorem numeral_toDigits (n : Nat) : IsNumeral (Nat.toDigits 10 n) :=
  fun _ held => .inl (Digits.isDecimal_of_mem_toDigits held)

theorem numeral_toString (n : Int) : IsNumeral (toString n).toList := by
  rw [toList_toString]
  split
  · exact numeral_toDigits _
  · exact List.forall_mem_cons.2 ⟨.inr rfl, numeral_toDigits _⟩

theorem lower_numeral {text : List Char} (numeral : IsNumeral text) : lower text = text := by
  have kept : ∀ c ∈ text, c.toLower = c := by
    intro c held
    rcases numeral c held with decimal | rfl
    · have bounds := Digits.isDecimal_iff.1 decimal
      refine dif_neg fun ⟨letter, _⟩ => ?_
      have large : 65 ≤ c.toNat := UInt32.le_iff_toNat_le.1 letter
      omega
    · rfl
  exact (List.map_congr_left kept).trans (List.map_id _)

/-- A numeral is none of the words, which have letters. -/
theorem numeral_not_word {text : List Char} (numeral : IsNumeral text) {word : String}
    (letters : word.toList.any (fun c => !Digits.isDecimal c && c != '-') = true) :
    String.ofList (lower text) ≠ word := by
  rintro rfl
  obtain ⟨c, held, letter⟩ := List.any_eq_true.1 letters
  rw [String.toList_ofList, lower_numeral numeral] at held
  rcases numeral c held with decimal | minus
  · simp [decimal] at letter
  · simp [minus] at letter

theorem ofDecimal_word {n : Nat} (small : n < 2 ^ 64) :
    Binary64.ofDecimal false n 0 = Binary64.ofFraction false n 1 := by
  have length : (Nat.toDigits 10 n).length ≤ 20 :=
    (Nat.length_toDigits_le_iff (by decide) (by decide)).2 (by omega)
  unfold Binary64.ofDecimal
  dsimp only
  by_cases zero : n = 0
  · subst zero
    decide
  · rw [if_neg (by omega), if_neg (by omega), if_pos (by decide)]
    simp

theorem float_toDigits {n : Nat} (small : n < 2 ^ 64) :
    float? (Nat.toDigits 10 n) = some (.ofFraction false n 1) := by
  have numeral := numeral_toDigits n
  have decimal : ∀ c ∈ Nat.toDigits 10 n, Digits.isDecimal c = true :=
    fun _ => Digits.isDecimal_of_mem_toDigits
  unfold float?
  rw [splitSign_toDigits]
  dsimp only
  split
  · next word => exact absurd word (numeral_not_word numeral (by decide))
  · next word => exact absurd word (numeral_not_word numeral (by decide))
  · next word => exact absurd word (numeral_not_word numeral (by decide))
  · unfold unsignedFloat?
    dsimp only
    rw [List.takeWhile_eq_self_iff.2 decimal, List.drop_length]
    simpa [Digits.natural_toDigits, exponent?] using ofDecimal_word small

/-- Letters, digits, signs and points: what a text for a number consists of. -/
def IsNumberChar (c : Char) : Prop := c.isAlphanum = true ∨ c ∈ ['+', '-', '.']

instance (c : Char) : Decidable (IsNumberChar c) := inferInstanceAs (Decidable (_ ∨ _))

theorem numberChar_of_isDecimal {c : Char} (decimal : Digits.isDecimal c = true) :
    IsNumberChar c := by
  rw [Digits.isDecimal_eq_isDigit] at decimal
  exact .inl (by rw [Char.isAlphanum, decimal, Bool.or_true])

theorem numberChars_splitSign {text : List Char} (rest : ∀ c ∈ (splitSign text).2, IsNumberChar c) :
    ∀ c ∈ text, IsNumberChar c := by
  rcases splitSign_cases text with ⟨_, rfl⟩ | ⟨_, rfl⟩ | unsigned
  · exact List.forall_mem_cons.2 ⟨.inr (by decide), rest⟩
  · exact List.forall_mem_cons.2 ⟨.inr (by decide), rest⟩
  · rwa [unsigned] at rest

theorem numberChars_natural {digits : List Char} {n : Nat}
    (read : Digits.natural? 10 digits = some n) : ∀ c ∈ digits, IsNumberChar c :=
  fun c held => numberChar_of_isDecimal ((Digits.natural_ten.1 read).2.1 c held)

theorem numberChars_exponent {text : List Char} {n : Int} (read : exponent? text = some n) :
    ∀ c ∈ text, IsNumberChar c := by
  cases text with
  | nil => nofun
  | cons mark rest =>
    simp [exponent?, Option.bind_eq_some_iff] at read
    obtain ⟨letter, m, digits, -⟩ := read
    refine List.forall_mem_cons.2 ⟨.inl ?_, numberChars_splitSign (numberChars_natural digits)⟩
    by_cases small : mark = 'e'
    · rw [small]
      rfl
    · rw [letter small]
      rfl

/-- Digits at the front do not matter. -/
theorem numberChars_dropWhile {text : List Char}
    (rest : ∀ c ∈ text.dropWhile Digits.isDecimal, IsNumberChar c) :
    ∀ c ∈ text, IsNumberChar c := by
  intro c held
  rw [← List.takeWhile_append_dropWhile (p := Digits.isDecimal) (l := text)] at held
  rcases List.mem_append.1 held with digit | later
  · exact numberChar_of_isDecimal (List.mem_takeWhile_imp digit)
  · exact rest c later

theorem numberChars_unsignedFloat {isNegative : Bool} {text : List Char} {x : Binary64}
    (read : unsignedFloat? isNegative text = some x) : ∀ c ∈ text, IsNumberChar c := by
  simp only [unsignedFloat?, drop_takeWhile, Option.bind_eq_bind, Option.bind_eq_some_iff] at read
  obtain ⟨digits, -, exponent, marked, -⟩ := read
  apply numberChars_dropWhile
  split at marked
  · next point =>
    rw [point]
    exact List.forall_mem_cons.2
      ⟨.inr (by decide), numberChars_dropWhile (numberChars_exponent marked)⟩
  · exact numberChars_exponent marked

theorem isAlphanum_of_toLower {c : Char} (letter : c.toLower.isAlphanum = true) :
    c.isAlphanum = true := by
  by_cases upper : 'A'.val ≤ c.val ∧ c.val ≤ 'Z'.val
  · have large : c.isUpper = true := decide_eq_true upper
    change ((c.isUpper || c.isLower) || c.isDigit) = true
    simp [large]
  · have kept : c.toLower = c := dif_neg upper
    rwa [kept] at letter

/-- Words of letters have letters in either case. -/
theorem numberChars_lower {text : List Char} {word : String}
    (same : String.ofList (lower text) = word)
    (letters : word.toList.all Char.isAlphanum = true) : ∀ c ∈ text, IsNumberChar c := by
  intro c held
  subst same
  rw [String.toList_ofList] at letters
  exact .inl (isAlphanum_of_toLower (List.all_eq_true.1 letters _ (List.mem_map_of_mem held)))

theorem numberChars_float {text : List Char} {x : Binary64} (read : float? text = some x) :
    ∀ c ∈ text, IsNumberChar c := by
  apply numberChars_splitSign
  unfold float? at read
  dsimp only at read
  split at read
  · next word => exact numberChars_lower word (by decide)
  · next word => exact numberChars_lower word (by decide)
  · next word => exact numberChars_lower word (by decide)
  · exact numberChars_unsignedFloat read

theorem numberChars_integer {text : List Char} {n : Int}
    (read : integer? Word.least Word.greatest text = some n) : ∀ c ∈ text, IsNumberChar c := by
  obtain ⟨m, digits, -⟩ := integer_eq_some.1 read
  exact numberChars_splitSign (numberChars_natural digits)

end Decimal

end BlobLifecycle
