/-!
# Identifiers

Type variables and equivalence classes are numbered from zero in the order of their creation. The
two kinds of number are kept apart by type.
-/

namespace TypeRecovery

/-- The number of a type variable. -/
structure VarId where
  index : Nat
  deriving DecidableEq, Repr, Inhabited

/-- The number of an equivalence class of type variables. -/
structure ClassId where
  index : Nat
  deriving DecidableEq, Repr, Inhabited

/-- How a type variable is written. -/
def VarId.text (v : VarId) : String :=
  "T_" ++ Nat.repr v.index

/-- How a class is written. -/
def ClassId.text (c : ClassId) : String :=
  "Eq_" ++ Nat.repr c.index

end TypeRecovery
