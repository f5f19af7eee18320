-- SUMMARY: Quoted text: what is escaped when a text is written, and how one is read.

/-!
# Quoted text

A text stands between quotation marks. Writing escapes the quotation mark, the backslash
and the control characters, and nothing else. Reading also takes the escapes that writing
never uses, among them code units by number: a character beyond the first `2 ^ 16` is then
given by a pair of surrogates. A surrogate without its partner is well formed but stands
for no text.
-/

namespace PixelGraph.Json

/-! ## Writing -/

/-- A character as it is written between quotation marks. -/
def escape (c : Char) : List Char :=
  match c with
  | '"'    => ['\\', '"']
  | '\\'   => ['\\', '\\']
  | '\x08' => ['\\', 'b']
  | '\t'   => ['\\', 't']
  | '\n'   => ['\\', 'n']
  | '\x0c' => ['\\', 'f']
  | '\r'   => ['\\', 'r']
  | c =>
    if c.toNat < 0x20 then
      ['\\', 'u', '0', '0', Nat.digitChar (c.toNat / 16), Nat.digitChar (c.toNat % 16)]
    else [c]

def quote (s : String) : List Char :=
  '"' :: (s.toList.flatMap escape ++ ['"'])

/-! ## Reading -/

/-- What one step of reading a text gives. -/
inductive Piece
  | char (c : Char)
  /-- A code unit given by number. -/
  | unit (n : Nat)
deriving DecidableEq, Repr

/-- The character that a letter after a backslash stands for. -/
def unescape? : Char → Option Char
  | '"'  => some '"'
  | '\\' => some '\\'
  | '/'  => some '/'
  | 'b'  => some '\x08'
  | 'f'  => some '\x0c'
  | 'n'  => some '\n'
  | 'r'  => some '\r'
  | 't'  => some '\t'
  | _    => none

def hexValue? (c : Char) : Option Nat :=
  if '0' ≤ c ∧ c ≤ '9' then some (c.toNat - '0'.toNat)
  else if 'a' ≤ c ∧ c ≤ 'f' then some (c.toNat - 'a'.toNat + 10)
  else if 'A' ≤ c ∧ c ≤ 'F' then some (c.toNat - 'A'.toNat + 10)
  else none

/-- The number that four hexadecimal digits stand for. -/
def codeUnit? (a b c d : Char) : Option Nat := do
  return (((← hexValue? a) * 16 + (← hexValue? b)) * 16 + (← hexValue? c)) * 16 + (← hexValue? d)

/-- The pieces up to the closing quotation mark, and what follows it. -/
def pieces : List Char → Option (List Piece × List Char)
  | '"' :: rest => some ([], rest)
  | '\\' :: 'u' :: a :: b :: c :: d :: rest => do
    let n ← codeUnit? a b c d
    let (ps, rest) ← pieces rest
    return (.unit n :: ps, rest)
  | '\\' :: e :: rest => do
    let c ← unescape? e
    let (ps, rest) ← pieces rest
    return (.char c :: ps, rest)
  | c :: rest =>
    if c.toNat < 0x20 then none
    else do
      let (ps, rest) ← pieces rest
      return (.char c :: ps, rest)
  | [] => none

def isHighSurrogate (n : Nat) : Bool :=
  0xD800 ≤ n && n < 0xDC00

def isLowSurrogate (n : Nat) : Bool :=
  0xDC00 ≤ n && n < 0xE000

/-- The character that a pair of surrogates stands for. -/
def pairedChar (high low : Nat) : Char :=
  Char.ofNat (0x10000 + (high - 0xD800) * 0x400 + (low - 0xDC00))

/-- The characters of the pieces. There are none if a surrogate has no partner. -/
def charsOf? : List Piece → Option (List Char)
  | [] => some []
  | .char c :: ps => (charsOf? ps).map (c :: ·)
  | .unit n :: ps =>
    if isHighSurrogate n then
      match ps with
      | .unit m :: ps => if isLowSurrogate m then (charsOf? ps).map (pairedChar n m :: ·) else none
      | _ => none
    else if isLowSurrogate n then none
    else (charsOf? ps).map (Char.ofNat n :: ·)

/-- The text up to the closing quotation mark, if it stands for one, and what follows. -/
def scanText (cs : List Char) : Option (Option String × List Char) := do
  let (ps, rest) ← pieces cs
  return ((charsOf? ps).map String.ofList, rest)

end PixelGraph.Json
