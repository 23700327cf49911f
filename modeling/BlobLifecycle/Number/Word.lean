/-! The ranges of signed and unsigned 64-bit integers. -/
namespace BlobLifecycle.Word

def least : Int := -0x8000000000000000
def greatest : Int := 0x7fffffffffffffff
def greatestUnsigned : Int := 0xffffffffffffffff

/-- The number, if it is a signed word. -/
def signed? (n : Int) : Option Int := if least ≤ n ∧ n ≤ greatest then some n else none

end BlobLifecycle.Word
