/-!
# Words

How many values fit into words of a fixed number of bits. Counts are unbounded numbers in this
library; where a word is what is stored or read, the bound is one of these.
-/

namespace TieredAdmission.Word

def limit32 : Nat := 4294967296

/-- The number of values of 63 bits, which is the bound of signed words of 64 bits. -/
def limit63 : Nat := 9223372036854775808

def limit64 : Nat := 18446744073709551616

end TieredAdmission.Word
