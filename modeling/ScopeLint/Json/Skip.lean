import ScopeLint.Json.Token

/-!
Passing over a JSON value whose content is of no interest. The value must be well formed, but
two things that reading would refuse are let pass: brackets may nest without limit, and the
four digits of an escape need not give a character. Open brackets are kept on a list, not on
the call stack.
-/

set_option autoImplicit false

namespace ScopeLint.Json

inductive Bracket where
  | array
  | object
  deriving DecidableEq

def Bracket.closing : Bracket → Char
  | array => ']'
  | object => '}'

def skipStringChar? : List Char → Option (List Char)
  | [] => none
  | char :: rest =>
      if char = '\\' then
        match rest with
        | [] => none
        | escaped :: rest =>
            if escaped = 'u' then
              match rest with
              | a :: b :: c :: d :: rest => (hexUnit? a b c d).map fun _ => rest
              | _ => none
            else (shortEscape? escaped).map fun _ => rest
      else if char = '"' ∨ char.toNat < 32 then none
      else some rest

def skipStringFrom (rounds text : List Char) : Option (List Char) :=
  match text with
  | [] => none
  | char :: rest =>
      if char = '"' then some rest
      else
        match rounds with
        | [] => none
        | _ :: rounds =>
            match skipStringChar? (char :: rest) with
            | none => none
            | some rest => skipStringFrom rounds rest

def skipString? (text : List Char) : Option (List Char) :=
  skipStringFrom text text

def skipKey? (text : List Char) : Option (List Char) :=
  match skipBlanks text with
  | '"' :: rest =>
      match skipString? rest with
      | none => none
      | some rest =>
          match skipBlanks rest with
          | ':' :: rest => some rest
          | _ => none
  | _ => none

/-- Enters a value: a word, string or number is passed over whole, and of an array or object
only the opening bracket. -/
def enterValue? (text : List Char) : Option (Option Bracket × List Char) :=
  match skipBlanks text with
  | [] => none
  | char :: rest =>
      if char = '[' then some (some .array, rest)
      else if char = '{' then some (some .object, rest)
      else if char = '"' then (skipString? rest).map (none, ·)
      else if char = 'n' then (scanWord? ['u', 'l', 'l'] rest).map (none, ·)
      else if char = 't' then (scanWord? ['r', 'u', 'e'] rest).map (none, ·)
      else if char = 'f' then (scanWord? ['a', 'l', 's', 'e'] rest).map (none, ·)
      else (scanNumeral? (char :: rest)).map fun (_, rest) => (none, rest)

/-- Enters an item of an array, or a member of an object with its key. -/
def enterItem? (inside : Bracket) (text : List Char) : Option (Option Bracket × List Char) :=
  match inside with
  | .array => enterValue? text
  | .object =>
      match skipKey? text with
      | none => none
      | some rest => enterValue? rest

/-- Goes on to the end of the outermost open bracket. `inside` is the innermost one, `outer`
are those around it, and `started` says that an item stands before the text. Every round takes
at least one character of the text. -/
def skipOpen (rounds : List Char) (started : Bool) (inside : Bracket) (outer : List Bracket)
    (text : List Char) : Option (List Char) :=
  match rounds with
  | [] => none
  | _ :: rounds =>
      match skipBlanks text with
      | [] => none
      | char :: rest =>
          if char = inside.closing then
            match outer with
            | [] => some rest
            | around :: outer => skipOpen rounds true around outer rest
          else if started = true ∧ char ≠ ',' then none
          else
            match enterItem? inside (if started then rest else char :: rest) with
            | none => none
            | some (none, rest) => skipOpen rounds true inside outer rest
            | some (some entered, rest) => skipOpen rounds false entered (inside :: outer) rest

def skipValue? (text : List Char) : Option (List Char) :=
  match enterValue? text with
  | none => none
  | some (none, rest) => some rest
  | some (some entered, rest) => skipOpen rest false entered [] rest

end ScopeLint.Json
