import Succession.Environment
import Succession.Journal
import Succession.Text.Blank

/-!
# Socket activation

A supervisor can pass listening sockets to the process it starts. Two environment variables
announce them: one names the process they are meant for, the other their number. They stand at
consecutive descriptors.
-/

namespace Succession.Activation

/-- The variable that names the process. -/
def pidVariable : String := "LISTEN_PID"

/-- The variable that holds the number of sockets. -/
def countVariable : String := "LISTEN_FDS"

/-- The first descriptor that can be announced. -/
def firstDescriptor : Int := 3

/-- The descriptors from `start` on. -/
def consecutive (start : Int) : Nat → List Int
  | 0 => []
  | n + 1 => start :: consecutive (start + 1) n

/-- The descriptors that are announced to the process with number `pid`. -/
def announced (listenPid listenFds : Option String) (pid : Nat) : List Int × List Notice :=
  let target := listenPid.bind fun raw => Numeral.parse? .word32 (Text.trim raw)
  if target ≠ some (pid : Int) then ([], [])
  else
    match listenFds with
    | none => ([], [])
    | some raw =>
      match Numeral.parse? .int32 (Text.trim raw) with
      | none => ([], [.malformedActivationCount])
      | some count =>
        if count < 0 then ([], [.malformedActivationCount])
        else if !NumeralRange.int32.contains (firstDescriptor + count) then
          ([], [.activationCountOutOfRange count])
        else (consecutive firstDescriptor count.toNat, [])

/-- The environment without the two variables. -/
def clear (env : Environment) : Environment := (env.erase pidVariable).erase countVariable

end Succession.Activation
