import Succession.Lookup
import Succession.Path

/-!
# Environment variables

A process inherits named byte strings from its parent. Most readers of a variable treat one that
is not text as unset; paths may hold any bytes, and an empty directory variable counts as unset.
-/

namespace Succession

/-- The variables of a process, each name at most once. -/
structure Environment where
  bindings : List (String × Bytes) := []
deriving DecidableEq, Repr, Inhabited

namespace Environment

/-- The value of a variable. -/
def get? (env : Environment) (name : String) : Option Bytes := env.bindings.lookup name

/-- The environment without a variable. -/
def erase (env : Environment) (name : String) : Environment :=
  ⟨env.bindings.filter fun (n, _) => n ≠ name⟩

/-- The environment with a variable set to a value. -/
def set (env : Environment) (name : String) (value : Bytes) : Environment :=
  ⟨(env.erase name).bindings ++ [(name, value)]⟩

/-- The value of a variable that holds text; any other counts as unset. -/
def text? (env : Environment) (name : String) : Option String :=
  (env.get? name).bind Utf8.decode?

/-- The path that a variable holds, unless it is unset or empty. -/
def path? (env : Environment) (name : String) : Option Path :=
  match env.get? name with
  | some (b :: rest) => some ⟨b :: rest⟩
  | _ => none

theorem get?_erase_self (env : Environment) (name : String) : (env.erase name).get? name = none :=
  lookup_filter_self env.bindings name

/-- Unsetting a variable leaves every other as it was. -/
theorem get?_erase_ne (env : Environment) {name other : String} (h : other ≠ name) :
    (env.erase name).get? other = env.get? other :=
  lookup_filter_ne env.bindings h

theorem get?_set_self (env : Environment) (name : String) (value : Bytes) :
    (env.set name value).get? name = some value := by
  have absent : (env.erase name).bindings.lookup name = none := get?_erase_self env name
  rw [get?, set, List.lookup_append, absent]
  simp

/-- Setting a variable leaves every other as it was. -/
theorem get?_set_ne (env : Environment) {name other : String} (value : Bytes) (h : other ≠ name) :
    (env.set name value).get? other = env.get? other := by
  have differs : (other == name) = false := by simpa using h
  have kept : (env.erase name).bindings.lookup other = env.bindings.lookup other :=
    get?_erase_ne env h
  rw [get?, set, List.lookup_append, kept]
  simp [get?, List.lookup_cons, differs]

end Environment

end Succession
