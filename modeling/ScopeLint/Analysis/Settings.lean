import ScopeLint.Scope.Stack
import ScopeLint.Tree.Dump

/-!
What a user can choose: whether control blocks have scopes of their own, in which order the
scopes are listed, and how far a dump is indented. The values are not checked here.
-/

set_option autoImplicit false

namespace ScopeLint

structure Settings where
  blockScopes : Bool
  scopeOrder : ScopeOrder
  indentWidth : Nat
  deriving DecidableEq

def Settings.standard : Settings :=
  { blockScopes := false, scopeOrder := .outermostFirst, indentWidth := defaultIndent }

end ScopeLint
