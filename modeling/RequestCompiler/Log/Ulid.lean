import RequestCompiler.Text

/-!
# Sortable identifiers

A log line is identified by 26 digits of base 32: ten for the time in milliseconds, sixteen
for a random number of eighty bits. The alphabet ascends, so identifiers of different times
sort by time.
-/

namespace RequestCompiler.Ulid

/-- The digits of base 32: the decimal digits and the capital letters without I, L, O and U. -/
def alphabet : Text := "0123456789ABCDEFGHJKMNPQRSTVWXYZ"

/-- The digit of a value below 32. -/
def digit (n : Nat) : UInt16 := alphabet.getD n 0

/-- The last `length` digits of a number, where a negative number is taken in two's
complement. -/
def encode : Nat → Int → Text
  | 0, _ => []
  | length + 1, v => encode length (v / 32) ++ [digit (v % 32).toNat]

/-- The number of a big-endian list of bytes. -/
def ofBytes (bytes : List UInt8) : Nat := bytes.foldl (fun n b => n * 256 + b.toNat) 0

def timeDigits : Nat := 10

def randomDigits : Nat := 16

/-- The identifier for a time in milliseconds and ten random bytes. -/
def make (now : Int) (random : List UInt8) : Text :=
  encode timeDigits now ++ encode randomDigits (ofBytes random)

end RequestCompiler.Ulid
