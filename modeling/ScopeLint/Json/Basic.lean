import ScopeLint.Number.FloatText

/-!
JSON values as the program writes them, and their one compact text. The members of an
object keep the order they are given in.
-/

set_option autoImplicit false

namespace ScopeLint

inductive Json where
  | null
  | truth (value : Bool)
  | integer (value : Int)
  | real (value : Binary64)
  | string (value : String)
  | array (items : List Json)
  | object (members : List (String × Json))

namespace Json

/-- Reals are written without an exponent from `0.00001` up to `10 ^ 16`. -/
def realFormat : FloatFormat :=
  { leastPlain := -5, signedExponent := true, tie := .toEven }

/-- JSON has no words for NaN and the infinities; they are written as null. -/
def realChars (value : Binary64) : List Char :=
  if value.isFinite then realFormat.finiteChars value else ['n', 'u', 'l', 'l']

/-- One character inside a string: quotes, backslashes and control characters are escaped. -/
def escapedChar (char : Char) : List Char :=
  if char = '"' then ['\\', '"']
  else if char = '\\' then ['\\', '\\']
  else if char.toNat < 32 then
    if char = '\n' then ['\\', 'n']
    else if char = '\r' then ['\\', 'r']
    else if char = '\t' then ['\\', 't']
    else if char.toNat = 8 then ['\\', 'b']
    else if char.toNat = 12 then ['\\', 'f']
    else ['\\', 'u', '0', '0', Nat.digitChar (char.toNat / 16), Nat.digitChar (char.toNat % 16)]
  else [char]

def stringChars (value : String) : List Char :=
  '"' :: value.toList.flatMap escapedChar ++ ['"']

mutual

def chars : Json → List Char
  | null => ['n', 'u', 'l', 'l']
  | truth true => ['t', 'r', 'u', 'e']
  | truth false => ['f', 'a', 'l', 's', 'e']
  | integer value => (toString value).toList
  | real value => realChars value
  | string value => stringChars value
  | array [] => ['[', ']']
  | array (item :: items) => '[' :: item.chars ++ itemsChars items
  | object [] => ['{', '}']
  | object ((key, value) :: members) =>
      '{' :: stringChars key ++ ':' :: value.chars ++ membersChars members

/-- The items of an array after its first one, with the closing bracket. -/
def itemsChars : List Json → List Char
  | [] => [']']
  | item :: items => ',' :: item.chars ++ itemsChars items

/-- The members of an object after its first one, with the closing brace. -/
def membersChars : List (String × Json) → List Char
  | [] => ['}']
  | (key, value) :: members =>
      ',' :: stringChars key ++ ':' :: value.chars ++ membersChars members

end

def text (value : Json) : String :=
  String.ofList value.chars

mutual

/-- The largest number of brackets open at once in the text of a value. -/
def depth : Json → Nat
  | null | truth _ | integer _ | real _ | string _ => 0
  | array items => itemsDepth items + 1
  | object members => membersDepth members + 1

def itemsDepth : List Json → Nat
  | [] => 0
  | item :: items => max item.depth (itemsDepth items)

def membersDepth : List (String × Json) → Nat
  | [] => 0
  | (_, value) :: members => max value.depth (membersDepth members)

end

end Json

end ScopeLint
