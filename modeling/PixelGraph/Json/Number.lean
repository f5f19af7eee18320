-- SUMMARY: Number literals, and which of them stand for natural numbers.

/-!
# Numbers

A number is written in decimal without superfluous zeros in front, with a sign, a fraction
and an exponent if need be. Only a number that has none of the three is read as a natural
number; the value of any other is not kept.
-/

namespace PixelGraph.Json

/-- Digits at the front and what follows them. There has to be one. -/
def scanDigits (cs : List Char) : Option (List Char × List Char) :=
  match cs.takeWhile Char.isDigit with
  | [] => none
  | ds => some (ds, cs.dropWhile Char.isDigit)

/-- A natural number at the front, of which only `0` may begin with a zero. -/
def scanNatural (cs : List Char) : Option (Nat × List Char) := do
  match ← scanDigits cs with
  | ('0' :: _ :: _, _) => none
  | (ds, rest) => return (Nat.ofDigitChars 10 ds 0, rest)

/-- What follows a fraction at the front, and whether there is one. -/
def scanFraction : List Char → Option (Bool × List Char)
  | '.' :: cs => do
    let (_, rest) ← scanDigits cs
    return (true, rest)
  | cs => some (false, cs)

def skipSign : List Char → List Char
  | '+' :: cs => cs
  | '-' :: cs => cs
  | cs => cs

/-- What follows an exponent at the front, and whether there is one. -/
def scanExponent (cs : List Char) : Option (Bool × List Char) :=
  match cs with
  | c :: cs' =>
    if c = 'e' ∨ c = 'E' then do
      let (_, rest) ← scanDigits (skipSign cs')
      return (true, rest)
    else some (false, cs)
  | [] => some (false, [])

/-- A number without its sign at the front. Its value is kept if it is written as a natural
number. -/
def scanUnsigned (cs : List Char) : Option (Option Nat × List Char) := do
  let (n, cs) ← scanNatural cs
  let (fraction, cs) ← scanFraction cs
  let (exponent, cs) ← scanExponent cs
  return (if fraction || exponent then none else some n, cs)

/-- A number at the front. -/
def scanNumber : List Char → Option (Option Nat × List Char)
  | '-' :: cs => do
    let (_, rest) ← scanUnsigned cs
    return (none, rest)
  | cs => scanUnsigned cs

end PixelGraph.Json
