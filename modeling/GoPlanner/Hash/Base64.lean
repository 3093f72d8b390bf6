/-!
# Base64 with the URL-Safe Alphabet

Every group of three bytes is written as four characters of six bits each. A last group
of one or two bytes is filled up with zero bits, and the characters that carry no bits
are written as `=`.

## Main definitions

* `Base64.alphabet`: the sixty-four characters.
* `Base64.encode`: the padded encoding of a byte string.
-/

namespace GoPlanner

namespace Base64

/-- The URL-safe alphabet: letters, digits, `-` and `_`. -/
def alphabet : List Char :=
  "ABCDEFGHIJKLMNOPQRSTUVWXYZabcdefghijklmnopqrstuvwxyz0123456789-_".toList

/-- The character for a value of six bits. -/
def digit (n : Nat) : Char :=
  alphabet.getD (n % 64) '='

/-- **The padded encoding.** -/
def encode : List UInt8 → List Char
  | a :: b :: c :: rest =>
    let n := a.toNat * 65536 + b.toNat * 256 + c.toNat
    digit (n / 262144) :: digit (n / 4096) :: digit (n / 64) :: digit n :: encode rest
  | [a, b] =>
    let n := a.toNat * 65536 + b.toNat * 256
    [digit (n / 262144), digit (n / 4096), digit (n / 64), '=']
  | [a] =>
    let n := a.toNat * 65536
    [digit (n / 262144), digit (n / 4096), '=', '=']
  | [] => []

end Base64

end GoPlanner
