import BlobLifecycle.Bytes

/-! Unsigned base-128 numbers: little-endian groups of seven bits, the high bit
set on all groups but the last. Ten groups hold every 64-bit word. -/
namespace BlobLifecycle.Varint

inductive Failure where
  | endOfInput
  | overflow
  | tooLong
  deriving DecidableEq, Repr

def maxGroups : Nat := 10

/-- The groups of a word, and no more of them than it needs. -/
def write (word : UInt64) : Bytes :=
  if word < 0x80 then [word.toUInt8]
  else (word.toUInt8 &&& 0x7f ||| 0x80) :: write (word >>> 7)
termination_by word.toNat
decreasing_by
  next more =>
  have more : 128 ≤ word.toNat := by simpa [UInt64.lt_iff_toNat_lt] using more
  rw [UInt64.toNat_shiftRight, Nat.shiftRight_eq_div_pow]
  exact Nat.div_lt_self (by omega) (by decide)

/-- Reads at most `groups` groups into a word that has those before; the next one has its place
at bit `shift`. The last admitted group carries the sixty-fourth bit alone, which is judged before
its continuation bit. -/
def readInto : Nat → UInt64 → UInt64 → Bytes → Except Failure (UInt64 × Bytes)
  | 0, _, _, _ => .error .tooLong
  | _ + 1, _, _, [] => .error .endOfInput
  | groups + 1, shift, word, group :: rest =>
    let bits := (group &&& 0x7f).toUInt64
    if groups = 0 ∧ 1 < bits then .error .overflow
    else
      let word := word ||| bits <<< shift
      if group &&& 0x80 = 0 then .ok (word, rest) else readInto groups (shift + 7) word rest

def read (bytes : Bytes) : Except Failure (UInt64 × Bytes) := readInto maxGroups 0 0 bytes

end BlobLifecycle.Varint
