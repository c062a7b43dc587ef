import ScopeLint.Tree.Basic

/-!
Short ways to write a literal, a place or an expression, where the constructor alone would need
another one around or inside it.
-/

set_option autoImplicit false

namespace ScopeLint

def Literal.integer (value : Int64) : Literal :=
  .number (.integer value)

def Literal.real (value : Binary64) : Literal :=
  .number (.real value)

namespace LValue

def simple (name : Identifier) : LValue :=
  ⟨name, [], none⟩

def indexed (name : Identifier) (indices : List Expr) : LValue :=
  ⟨name, indices, none⟩

/-- The same place with a member named after it, in place of any named before. -/
def withMember (target : LValue) (member : String) : LValue :=
  { target with member := some member }

end LValue

namespace Expr

def integer (value : Int64) : Expr :=
  .literal (.integer value)

def real (value : Binary64) : Expr :=
  .literal (.real value)

def string (value : String) : Expr :=
  .literal (.string value)

def named (name : String) (line : UInt32) : Expr :=
  .lvalue (.simple ⟨name, line⟩)

end Expr

end ScopeLint
