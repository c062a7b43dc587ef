import ScopeLint.Text.Hexadecimal

/-!
Tokens of TOML, read from the front of a text: blanks, comments and line ends, strings in
their four spellings, and keys. A scanner returns what it read with the rest of the text, or
nothing where the text is malformed.
-/

set_option autoImplicit false

namespace ScopeLint.Toml

open Text (hexValue?)

def isBlank (char : Char) : Bool :=
  char = ' ' || char = '\t'

def skipBlanks (text : List Char) : List Char :=
  text.dropWhile isBlank

/-- Characters that may stand in a comment: no control character but the tab. -/
def isPlain (char : Char) : Bool :=
  char = '\t' || 32 ≤ char.toNat && char.toNat ≠ 127

/-- A newline, alone or after a carriage return. -/
def scanNewline? : List Char → Option (List Char)
  | '\n' :: rest => some rest
  | '\r' :: '\n' :: rest => some rest
  | _ => none

def skipComment : List Char → List Char
  | '#' :: rest => rest.dropWhile isPlain
  | text => text

/-- The end of a line that holds nothing more than a comment; the text may end there too. -/
def scanLineEnd? (text : List Char) : Option (List Char) :=
  match skipComment (skipBlanks text) with
  | [] => some []
  | text => scanNewline? text

/-- Blanks, newlines and comments, as they may stand between the items of an array. -/
def skipLines (rounds text : List Char) : List Char :=
  match rounds with
  | [] => text
  | _ :: rounds =>
      let text := skipComment (skipBlanks text)
      match scanNewline? text with
      | none => text
      | some rest => skipLines rounds rest

/-! ### Strings -/

def scanCodePoint? (value : Nat) : (digits : Nat) → List Char → Option (Char × List Char)
  | 0, text => if value.isValidChar then some (Char.ofNat value, text) else none
  | _ + 1, [] => none
  | digits + 1, char :: rest =>
      match hexValue? char with
      | none => none
      | some digit => scanCodePoint? (value * 16 + digit) digits rest

def scanEscape? : List Char → Option (Char × List Char)
  | [] => none
  | char :: rest =>
      if char = 'u' then scanCodePoint? 0 4 rest
      else if char = 'U' then scanCodePoint? 0 8 rest
      else if char = '"' ∨ char = '\\' then some (char, rest)
      else if char = 'b' then some (Char.ofNat 8, rest)
      else if char = 'f' then some (Char.ofNat 12, rest)
      else if char = 'n' then some ('\n', rest)
      else if char = 'r' then some ('\r', rest)
      else if char = 't' then some ('\t', rest)
      else none

/-- The quote that a string stands between. Escapes belong to the double quote only. -/
inductive Quote where
  | double
  | single
  deriving DecidableEq

def Quote.char : Quote → Char
  | double => '"'
  | single => '\''

def scanChar? (quote : Quote) : List Char → Option (Char × List Char)
  | [] => none
  | char :: rest =>
      if quote = .double ∧ char = '\\' then scanEscape? rest
      else if isPlain char ∧ char ≠ quote.char then some (char, rest)
      else none

/-- A string on one line, from after its opening quote. Every round takes at least one
character of the text. -/
def scanStringFrom (quote : Quote) (rounds taken text : List Char) :
    Option (String × List Char) :=
  match text with
  | [] => none
  | char :: rest =>
      if char = quote.char then some (String.ofList taken.reverse, rest)
      else
        match rounds with
        | [] => none
        | _ :: rounds =>
            match scanChar? quote (char :: rest) with
            | none => none
            | some (next, rest) => scanStringFrom quote rounds (next :: taken) rest

def scanString? (quote : Quote) (text : List Char) : Option (String × List Char) :=
  scanStringFrom quote text [] text

def skipBlankLines : List Char → List Char
  | [] => []
  | '\r' :: '\n' :: rest => skipBlankLines rest
  | char :: rest => if isBlank char ∨ char = '\n' then skipBlankLines rest else char :: rest

/-- What follows a backslash that ends a line: the next character that is not blank. -/
def scanFoldedLine? (text : List Char) : Option (List Char) :=
  (scanNewline? (skipBlanks text)).map skipBlankLines

/-- One piece of a string over several lines: a character, a newline, or a folded line, which
adds nothing. A quote is a piece of its own. -/
def scanPiece? (quote : Quote) : List Char → Option (List Char × List Char)
  | [] => none
  | char :: rest =>
      if char = quote.char then some ([char], rest)
      else
        match scanNewline? (char :: rest) with
        | some rest => some (['\n'], rest)
        | none =>
            if quote = .double ∧ char = '\\' then
              match scanFoldedLine? rest with
              | some rest => some ([], rest)
              | none => (scanEscape? rest).map fun (char, rest) => ([char], rest)
            else if isPlain char then some ([char], rest)
            else none

/-- A string over several lines, from after its opening quotes. It ends at the first three
quotes in a row, before which one or two more may stand for themselves. -/
def scanLongStringFrom (quote : Quote) (rounds taken text : List Char) :
    Option (String × List Char) :=
  let quotes := (text.takeWhile (· = quote.char)).length
  if 3 ≤ quotes then
    if quotes ≤ 5 then
      some (String.ofList (taken.reverse ++ List.replicate (quotes - 3) quote.char),
        text.drop quotes)
    else none
  else
    match rounds with
    | [] => none
    | _ :: rounds =>
        match scanPiece? quote text with
        | none => none
        | some (piece, rest) => scanLongStringFrom quote rounds (piece.reverse ++ taken) rest

/-- A newline right after the opening quotes is not part of the string. -/
def scanLongString? (quote : Quote) (text : List Char) : Option (String × List Char) :=
  let text := (scanNewline? text).getD text
  scanLongStringFrom quote text [] text

def scanAnyString? (quote : Quote) (text : List Char) : Option (String × List Char) :=
  match text with
  | second :: third :: rest =>
      if second = quote.char ∧ third = quote.char then scanLongString? quote rest
      else scanString? quote text
  | text => scanString? quote text

/-! ### Keys -/

def isBareKeyChar (char : Char) : Bool :=
  char.isAlphanum || char = '-' || char = '_'

def scanSimpleKey? : List Char → Option (String × List Char)
  | '"' :: rest => scanString? .double rest
  | '\'' :: rest => scanString? .single rest
  | text =>
      match text.takeWhile isBareKeyChar with
      | [] => none
      | bare => some (String.ofList bare, text.dropWhile isBareKeyChar)

/-- The parts of a key and the blanks around it. Every round takes at least one character. -/
def scanKeyFrom (rounds text : List Char) : Option (List String × List Char) :=
  match rounds with
  | [] => none
  | _ :: rounds =>
      match scanSimpleKey? (skipBlanks text) with
      | none => none
      | some (part, rest) =>
          match skipBlanks rest with
          | '.' :: rest => (scanKeyFrom rounds rest).map fun (parts, rest) => (part :: parts, rest)
          | rest => some ([part], rest)

/-- Keys of this many parts and brackets nested this deep are refused. -/
def nestingLimit : Nat := 80

def scanKey? (text : List Char) : Option (List String × List Char) :=
  match scanKeyFrom text text with
  | none => none
  | some (parts, rest) => if parts.length < nestingLimit then some (parts, rest) else none

end ScopeLint.Toml
