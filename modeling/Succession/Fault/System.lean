import Succession.Text.Numeral

/-!
# Faults of the operating system

The failures that file, socket and process operations report, with the system's numbers and
wording, and the few that are noticed before the system is asked.
-/

namespace Succession

/-- Why an operation of the operating system failed. -/
inductive SystemFault
  | notPermitted
  | notFound
  | noDevice
  | badDescriptor
  | accessDenied
  | busy
  | alreadyExists
  | notDirectory
  | isDirectory
  | invalidArgument
  | nameTooLong
  | notEmpty
  | symlinkLoop
  | addressInUse
  | connectionRefused
  | notText
  | nulInFileName
  | nulInSocketPath
  | socketPathTooLong
  | nulInArgument
  | noProgram
  /-- A fault of which only the wording is known. -/
  | other (text : String)
deriving DecidableEq, Repr

namespace SystemFault

/-- The system's number of the fault, if the system reports it. -/
def number? : SystemFault → Option Nat
  | notPermitted => some 1
  | notFound => some 2
  | noDevice => some 6
  | badDescriptor => some 9
  | accessDenied => some 13
  | busy => some 16
  | alreadyExists => some 17
  | notDirectory => some 20
  | isDirectory => some 21
  | invalidArgument => some 22
  | nameTooLong => some 36
  | notEmpty => some 39
  | symlinkLoop => some 40
  | addressInUse => some 98
  | connectionRefused => some 111
  | notText | nulInFileName | nulInSocketPath | socketPathTooLong | nulInArgument
  | noProgram | other _ => none

/-- The bare wording of the fault. -/
def description : SystemFault → String
  | notPermitted => "Operation not permitted"
  | notFound => "No such file or directory"
  | noDevice => "No such device or address"
  | badDescriptor => "Bad file descriptor"
  | accessDenied => "Permission denied"
  | busy => "Device or resource busy"
  | alreadyExists => "File exists"
  | notDirectory => "Not a directory"
  | isDirectory => "Is a directory"
  | invalidArgument => "Invalid argument"
  | nameTooLong => "File name too long"
  | notEmpty => "Directory not empty"
  | symlinkLoop => "Too many levels of symbolic links"
  | addressInUse => "Address already in use"
  | connectionRefused => "Connection refused"
  | notText => "stream did not contain valid UTF-8"
  | nulInFileName => "file name contained an unexpected NUL byte"
  | nulInSocketPath => "paths must not contain interior null bytes"
  | socketPathTooLong => "path must be shorter than SUN_LEN"
  | nulInArgument => "nul byte found in provided data"
  | noProgram => "no argv[0] to re-execute"
  | other text => text

/-- The message of the fault: the system's own ones carry their number. -/
def message (fault : SystemFault) : String :=
  match fault.number? with
  | some n => fault.description ++ " (os error " ++ Numeral.render n ++ ")"
  | none => fault.description

end SystemFault

end Succession
