import Succession.Json.Reader
import Succession.Json.Writer
import Succession.Window.Order

/-!
# Snapshots

A snapshot is the JSON text of the managed windows, laid out for human readers, with the version
of its format.
-/

namespace Succession

/-- The content of a snapshot. -/
structure Snapshot where
  version : Nat
  windows : List WindowId
deriving DecidableEq, Repr

/-- Why the content of a snapshot cannot be used. -/
inductive SnapshotFault
  | malformed
  | unsupportedVersion (version : Nat)
deriving DecidableEq, Repr

/-- The wording of the fault. -/
def SnapshotFault.message : SnapshotFault → String
  | malformed => "malformed"
  | unsupportedVersion version => "unsupported version " ++ Numeral.render version

namespace Snapshot

/-- The version of the format. -/
def currentVersion : Nat := 1

open Json in
/-- The parts of an array of windows, one a line, without its brackets. -/
def windowPieces : List WindowId → List Piece
  | [] => []
  | [w] => [.line 4, .token (.integer w.toNat)]
  | w :: rest => [.line 4, .token (.integer w.toNat), .token .comma] ++ windowPieces rest

open Json in
/-- The parts of a snapshot's text. -/
def pieces (s : Snapshot) : List Piece :=
  [.token .openBrace, .line 2, .token (.word "version"), .token .colon, .blank,
    .token (.integer s.version), .token .comma, .line 2, .token (.word "windows"), .token .colon,
    .blank, .token .openBracket] ++
  (if s.windows.isEmpty then [] else windowPieces s.windows ++ [.line 2]) ++
  [.token .closeBracket, .line 0, .token .closeBrace]

/-- The text of a snapshot. -/
def encode (s : Snapshot) : Bytes := Utf8.encodeChars (Json.render s.pieces)

/-- The window that a JSON value names. -/
def windowOfJson? (v : Json.Value) : Option WindowId :=
  (v.integer? .word32).map fun n => UInt32.ofNat n.toNat

/-- The snapshot that a JSON value holds. -/
def ofJson? (v : Json.Value) : Option Snapshot := do
  match ← v.fields? ["version", "windows"] with
  | [some version, some windows] =>
    let version ← version.integer? .word32
    let windows ← (← windows.items?).mapM windowOfJson?
    return ⟨version.toNat, windows⟩
  | _ => none

/-- The windows that a snapshot's text lists, if it has the current version. -/
def decode (bytes : Bytes) : Except SnapshotFault (List WindowId) :=
  match (Json.parse? bytes).bind ofJson? with
  | none => .error .malformed
  | some s =>
    if s.version = currentVersion then .ok s.windows else .error (.unsupportedVersion s.version)

/-- The snapshot of a window order. -/
def ofOrder (order : WindowOrder) : Snapshot := ⟨currentVersion, order.managed⟩

end Snapshot

end Succession
