import Mathlib

/-!
# HiveChain.Lib.FinNumerals

The samples name their accounts by numerals of `Fin 1`, `Fin 2` and `Fin 3`. A numeral of `Fin n`
needs `NeZero n`; these instances give that proof a name, so that a definition built from such
numerals holds no proof term of its own and reads the same wherever it is elaborated.
-/

namespace HiveChain

instance neZeroOne : NeZero (1 : Nat) := Nat.instNeZeroSucc

instance neZeroTwo : NeZero (2 : Nat) := Nat.instNeZeroSucc

instance neZeroThree : NeZero (3 : Nat) := Nat.instNeZeroSucc

end HiveChain
