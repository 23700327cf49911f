/-! Byte strings, their lower-case hexadecimal form and their reading as UTF-8. -/
namespace BlobLifecycle

abbrev Bytes := List UInt8

/-- The lower-case digit of a number below sixteen. -/
def hexDigit (n : Nat) : Char :=
  if n < 10 then Char.ofNat (48 + n) else Char.ofNat (87 + n)

/-- Two lower-case digits for every byte. -/
def hexDigits (bytes : Bytes) : List Char :=
  bytes.flatMap fun b => [hexDigit (b.toNat / 16), hexDigit (b.toNat % 16)]

def hexText (bytes : Bytes) : String := String.ofList (hexDigits bytes)

def utf8 (text : String) : Bytes := text.toByteArray.data.toList

/-- The text that the bytes encode; `none` when they are not UTF-8. -/
def utf8? (bytes : Bytes) : Option String := String.fromUTF8? ⟨bytes.toArray⟩

@[simp] theorem utf8?_utf8 (text : String) : utf8? (utf8 text) = some text := by
  simp [utf8?, utf8, String.fromUTF8?, text.isValidUTF8, String.fromUTF8]

theorem utf8_of_utf8? {bytes : Bytes} {text : String} (h : utf8? bytes = some text) :
    utf8 text = bytes := by
  unfold utf8? String.fromUTF8? at h
  split at h
  · cases h; simp [utf8, String.fromUTF8]
  · cases h

end BlobLifecycle
