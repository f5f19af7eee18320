-- SUMMARY: JSON values, their compact text, and reading a value from text.
import PixelGraph.Json.Number
import PixelGraph.Json.Text

/-!
# JSON

Only what some type is read from is kept of a value: texts, natural numbers, lists and
objects, whose members keep their order and may share names. Everything else that is well
formed is one value, `other`, which is skipped wherever a value is skipped and stands for
nothing wherever one is read.
-/

namespace PixelGraph

inductive Json
  | null
  | bool (b : Bool)
  | natural (n : Nat)
  | string (s : String)
  | array (items : List Json)
  | object (members : List (String × Json))
  /-- A number that is no plain natural number, or what has a surrogate without its partner:
  a text, or an object by one of its names. -/
  | other
deriving Repr

namespace Json

/-! ## Writing -/

mutual

/-- The compact text of a value. -/
def render : Json → List Char
  | .null       => ['n', 'u', 'l', 'l']
  | .bool true  => ['t', 'r', 'u', 'e']
  | .bool false => ['f', 'a', 'l', 's', 'e']
  | .natural n  => Nat.toDigits 10 n
  | .string s   => quote s
  | .array vs   => '[' :: renderItems vs
  | .object ms  => '{' :: renderMembers ms
  | .other      => ['-', '0']

/-- Items up to the closing bracket. -/
def renderItems : List Json → List Char
  | []      => [']']
  | v :: vs => render v ++ renderMoreItems vs

def renderMoreItems : List Json → List Char
  | []      => [']']
  | v :: vs => ',' :: (render v ++ renderMoreItems vs)

/-- Members up to the closing brace. -/
def renderMembers : List (String × Json) → List Char
  | []             => ['}']
  | (name, v) :: ms => quote name ++ ':' :: (render v ++ renderMoreMembers ms)

def renderMoreMembers : List (String × Json) → List Char
  | []             => ['}']
  | (name, v) :: ms => ',' :: (quote name ++ ':' :: (render v ++ renderMoreMembers ms))

end

/-! ## Reading -/

def isBlank (c : Char) : Bool :=
  c == ' ' || c == '\t' || c == '\n' || c == '\r'

def skipBlanks (cs : List Char) : List Char :=
  cs.dropWhile isBlank

def ofText : Option String → Json
  | some s => .string s
  | none   => .other

def ofNumber : Option Nat → Json
  | some n => .natural n
  | none   => .other

def ofMembers (ms : List (Option String × Json)) : Json :=
  match ms.mapM fun (name, v) => name.map (·, v) with
  | some ms => .object ms
  | none    => .other

mutual

/-- A value at the front, in at most as many nested steps as the first argument allows. -/
def scan : Nat → List Char → Option (Json × List Char)
  | 0, _ => none
  | fuel + 1, cs =>
    match cs with
    | 'n' :: 'u' :: 'l' :: 'l' :: rest        => some (.null, rest)
    | 't' :: 'r' :: 'u' :: 'e' :: rest        => some (.bool true, rest)
    | 'f' :: 'a' :: 'l' :: 's' :: 'e' :: rest => some (.bool false, rest)
    | '"' :: rest => do
      let (s, rest) ← scanText rest
      return (ofText s, rest)
    | '[' :: rest =>
      match skipBlanks rest with
      | ']' :: rest => some (.array [], rest)
      | rest => do
        let (vs, rest) ← scanItems fuel rest
        return (.array vs, rest)
    | '{' :: rest =>
      match skipBlanks rest with
      | '}' :: rest => some (.object [], rest)
      | rest => do
        let (ms, rest) ← scanMembers fuel rest
        return (ofMembers ms, rest)
    | cs => do
      let (n, rest) ← scanNumber cs
      return (ofNumber n, rest)

/-- One item or more, up to the closing bracket. -/
def scanItems : Nat → List Char → Option (List Json × List Char)
  | 0, _ => none
  | fuel + 1, cs => do
    let (v, rest) ← scan fuel cs
    match skipBlanks rest with
    | ']' :: rest => return ([v], rest)
    | ',' :: rest =>
      let (vs, rest) ← scanItems fuel (skipBlanks rest)
      return (v :: vs, rest)
    | _ => none

/-- One member or more, up to the closing brace. -/
def scanMembers : Nat → List Char → Option (List (Option String × Json) × List Char)
  | 0, _ => none
  | fuel + 1, cs =>
    match cs with
    | '"' :: rest => do
      let (name, rest) ← scanText rest
      match skipBlanks rest with
      | ':' :: rest =>
        let (v, rest) ← scan fuel (skipBlanks rest)
        match skipBlanks rest with
        | '}' :: rest => return ([(name, v)], rest)
        | ',' :: rest =>
          let (ms, rest) ← scanMembers fuel (skipBlanks rest)
          return ((name, v) :: ms, rest)
        | _ => none
      | _ => none
    | _ => none

end

/-- The value that a text stands for. Nothing but blanks may surround it. Of two nested
steps at least one reads a character, so twice the length is enough of them. -/
def parse? (s : String) : Option Json := do
  let cs := skipBlanks s.toList
  let (v, rest) ← scan (2 * cs.length + 1) cs
  if skipBlanks rest = [] then return v else none

end Json

end PixelGraph
