import ScopeLint.Tree.Basic

/-!
Equality of expressions as a program would see it: part by part, with lines counting and with
reals compared as numbers. It is not reflexive where a NaN occurs, and it identifies the two
zeros, so it is kept apart from equality of trees.
-/

set_option autoImplicit false

namespace ScopeLint

def Number.same : Number → Number → Bool
  | integer left, integer right => left == right
  | real left, real right => left.sameNumber right
  | _, _ => false

def Literal.same : Literal → Literal → Bool
  | number left, number right => left.same right
  | left, right => left == right

mutual

def Expr.same : Expr → Expr → Bool
  | .literal left, .literal right => left.same right
  | .lvalue left, .lvalue right => left.same right
  | .binary op left right, .binary op' left' right' =>
      op == op' && left.same left' && right.same right'
  | .unary op operand, .unary op' operand' => op == op' && operand.same operand'
  | .call left, .call right => left.same right
  | .pointer op target, .pointer op' target' => op == op' && target.same target'
  | .eof left, .eof right => left.same right
  | _, _ => false

def LValue.same : LValue → LValue → Bool
  | ⟨name, indices, member⟩, ⟨name', indices', member'⟩ =>
      name == name' && Expr.sameItems indices indices' && member == member'

def Call.same : Call → Call → Bool
  | ⟨callee, arguments⟩, ⟨callee', arguments'⟩ =>
      callee == callee' && Expr.sameItems arguments arguments'

def Expr.sameItems : List Expr → List Expr → Bool
  | [], [] => true
  | left :: lefts, right :: rights => left.same right && Expr.sameItems lefts rights
  | _, _ => false

end

end ScopeLint
