/-!
Powers of two and of ten, for numbers that are scaled by one base and written in the other.
-/

set_option autoImplicit false

namespace ScopeLint

abbrev twoTo (exponent : Nat) : Nat :=
  Nat.pow 2 exponent

abbrev tenTo (exponent : Nat) : Nat :=
  Nat.pow 10 exponent

end ScopeLint
