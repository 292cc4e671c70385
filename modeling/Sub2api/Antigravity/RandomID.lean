import Mathlib.Data.Int.Notation
import Mathlib.Data.List.Basic
import Mathlib.Data.Nat.Notation

/-!
# Random ids

`generateRandomID` takes twelve random bytes, and `rand.Read` of this Go always gives them. The
branch for an error of it, twelve rounds of a shift register that starts from the clock and a
counter, takes the register for a signed number and its remainder for an index; indexing with a
negative one panics: `none`. `generateRandomID_returns` is about what is returned.
-/

namespace Sub2api.Antigravity.RandomID

def chars : List Char := "abcdefghijklmnopqrstuvwxyzABCDEFGHIJKLMNOPQRSTUVWXYZ0123456789".toList

/-- `chars[int(seed)%len(chars)]`: the remainder has the sign of the number. -/
def charAt (seed : BitVec 64) : Option Char :=
  let index := seed.toInt.tmod chars.length
  if index < 0 then none else chars[index.toNat]?

/-- The three shifts of a round. -/
def shift (seed : BitVec 64) : BitVec 64 :=
  let seed := seed ^^^ (seed <<< 13)
  let seed := seed ^^^ (seed >>> 7)
  seed ^^^ (seed <<< 17)

/-- `count` rounds of the loop over `id`. -/
def rounds : ℕ → BitVec 64 → Option (List Char)
  | 0, _ => some []
  | count + 1, seed =>
    match charAt (shift seed) with
    | none => none
    | some c => (rounds count (shift seed)).map (c :: ·)

/-- Where the register starts. -/
def fallbackSeed (unixNano : ℤ) (cnt : BitVec 64) (errorLength : ℕ) : BitVec 64 :=
  BitVec.ofInt 64 unixNano ^^^ cnt ^^^ (BitVec.ofNat 64 errorLength <<< 32)

/-- The id and the counter after it. `entropy` is what `rand.Read` gives: the bytes, or the length of
its error's text. -/
def generateRandomID (entropy : Except ℕ (List UInt8)) (unixNano : ℤ) (fallbackCounter : BitVec 64) :
    Option String × BitVec 64 :=
  match entropy with
  | .error errorLength =>
    let cnt := fallbackCounter + 1
    ((rounds 12 (fallbackSeed unixNano cnt errorLength)).map String.ofList, cnt)
  | .ok randBytes =>
    ((randBytes.mapM fun b => chars[b.toNat % chars.length]?).map String.ofList, fallbackCounter)

end Sub2api.Antigravity.RandomID
