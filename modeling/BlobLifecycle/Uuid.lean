import BlobLifecycle.Bytes

/-! Sixteen-byte identifiers in their hyphenated text form. -/
namespace BlobLifecycle.Uuid

/-- Lower-case digits in groups of 8, 4, 4, 4 and 12; `none` unless there are sixteen bytes. -/
def text? (bytes : Bytes) : Option String :=
  if bytes.length = 16 then
    let group (start count : Nat) := hexDigits ((bytes.drop start).take count)
    some (String.ofList (group 0 4 ++ '-' :: group 4 2 ++ '-' :: group 6 2 ++ '-' :: group 8 2 ++
      '-' :: group 10 6))
  else none

/-- The random identifier (version 4) drawn from sixteen bytes of entropy: four bits hold the
version and two the variant. -/
def random (entropy : Bytes) : Bytes :=
  entropy.mapIdx fun i b =>
    if i = 6 then b % 16 + 0x40 else if i = 8 then b % 64 + 0x80 else b

def isRandomText (text : String) : Bool :=
  text.length = 36 && text.toList.zipIdx.all fun (c, i) =>
    if i ∈ [8, 13, 18, 23] then c = '-'
    else if i = 14 then c = '4'
    else if i = 19 then c ∈ ['8', '9', 'a', 'b']
    else ('0' ≤ c && c ≤ '9') || ('a' ≤ c && c ≤ 'f')

end BlobLifecycle.Uuid
