/-!
Operators of pseudocode expressions, the modes of parameters and files, and their spelling
in a program. Binary operators fall into six levels; a dump names the level, not the
operator, as the kind of the expression.
-/

set_option autoImplicit false

namespace ScopeLint

inductive BinaryOp where
  | mul | div | intDiv | mod
  | add | sub | concat
  | lt | gt | ltEq | gtEq
  | eq | notEq
  | and | or
  deriving DecidableEq

/-- Levels of binary operators, from the tightest binding to the loosest. -/
inductive BinaryLevel where
  | multiplicative | additive | relational | equality | logicalAnd | logicalOr
  deriving DecidableEq

inductive UnaryOp where
  | plus | neg | not
  deriving DecidableEq

inductive PointerOp where
  | deref | addressOf
  deriving DecidableEq

inductive PassMode where
  | byRef | byVal | default
  deriving DecidableEq

inductive FileMode where
  | read | write | append | random
  deriving DecidableEq

def BinaryLevel.tag : BinaryLevel → String
  | multiplicative => "MulExpOp"
  | additive => "AddExpOp"
  | relational => "RelExpCompare"
  | equality => "EqExpCompare"
  | logicalAnd => "LAndExpOp"
  | logicalOr => "LOrExpOp"

def BinaryOp.spelling : BinaryOp → String
  | mul => "*"
  | div => "/"
  | intDiv => "DIV"
  | mod => "MOD"
  | add => "+"
  | sub => "-"
  | concat => "&"
  | lt => "<"
  | gt => ">"
  | ltEq => "<="
  | gtEq => ">="
  | eq => "="
  | notEq => "<>"
  | and => "AND"
  | or => "OR"

def BinaryOp.level : BinaryOp → BinaryLevel
  | mul | div | intDiv | mod => .multiplicative
  | add | sub | concat => .additive
  | lt | gt | ltEq | gtEq => .relational
  | eq | notEq => .equality
  | and => .logicalAnd
  | or => .logicalOr

def UnaryOp.spelling : UnaryOp → String
  | plus => "+"
  | neg => "-"
  | not => "NOT"

def PointerOp.spelling : PointerOp → String
  | deref => "^"
  | addressOf => "@"

def PassMode.spelling : PassMode → String
  | byRef => "BYREF"
  | byVal => "BYVAL"
  | default => "DEFAULT"

/-- A parameter with no mode of its own is passed in the default mode. -/
instance : Inhabited PassMode := ⟨.default⟩

def FileMode.spelling : FileMode → String
  | read => "READ"
  | write => "WRITE"
  | append => "APPEND"
  | random => "RANDOM"

end ScopeLint
