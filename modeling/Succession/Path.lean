import Succession.Bytes
import Succession.Text.Utf8

/-!
# Paths

A path is a byte string read as a sequence of components between slashes. Repeated slashes and
`.` components carry no meaning (a leading `.` apart), so two spellings can be the same path:
`Path.same` compares the components, while equality compares the bytes.
-/

namespace Succession

/-- A path as it was written. -/
structure Path where
  bytes : Bytes
deriving DecidableEq, Repr, Inhabited

/-- One step of a path. -/
inductive PathComponent
  | root
  | current
  | parent
  | normal (name : Bytes)
deriving DecidableEq, Repr

namespace Path

/-- The slash, which separates components. -/
def separator : UInt8 := 0x2F

/-- The name of the directory itself. -/
def dot : Bytes := [0x2E]

/-- The name of the directory above. -/
def dotDot : Bytes := [0x2E, 0x2E]

/-- The path that a text spells. -/
def ofString (text : String) : Path := ⟨Bytes.ofString text⟩

/-- The path as text, with the replacement character where it is none. -/
def display (p : Path) : String := Utf8.lossy p.bytes

/-- Whether the path begins at the root. -/
def isAbsolute (p : Path) : Bool := p.bytes.head? = some separator

/-- Whether a name between slashes carries no meaning. -/
def isSilent (name : Bytes) : Bool := name = [] || name = dot

/-- The component that a name denotes, if it carries one. -/
def component? (name : Bytes) : Option PathComponent :=
  if isSilent name then none
  else if name = dotDot then some .parent
  else some (.normal name)

/-- The names between the slashes of the path. -/
def names (p : Path) : List Bytes := Bytes.split separator p.bytes

/-- The components of the path. A leading `.` counts, since it tells a relative path from a name. -/
def components (p : Path) : List PathComponent :=
  let inner := p.names.filterMap component?
  if p.isAbsolute then .root :: inner
  else if p.names.head? = some dot then .current :: inner
  else inner

/-- Whether two paths have the same components. -/
def same (p q : Path) : Bool := p.components == q.components

/-- The path without its last component; none for the root and for the empty path. -/
def parent? (p : Path) : Option Path :=
  if p.isAbsolute then
    match (p.names.drop 1).reverse.dropWhile isSilent with
    | [] => none
    | _ :: before =>
      some ⟨separator :: Bytes.intercalate separator (before.dropWhile isSilent).reverse⟩
  else
    match p.names.reverse.dropWhile isSilent with
    | [] =>
      -- only a lone leading `.` is a component here
      if p.names.head? = some dot then some ⟨[]⟩ else none
    | _ :: before =>
      match before.dropWhile isSilent with
      | [] => some ⟨if p.names.head? = some dot ∧ before ≠ [] then dot else []⟩
      | kept => some ⟨Bytes.intercalate separator kept.reverse⟩

/-- The path of `child` seen from the directory `p`: an absolute `child` stands for itself. -/
def join (p child : Path) : Path :=
  if child.isAbsolute then child
  else if p.bytes = [] ∨ p.bytes.getLast? = some separator then ⟨p.bytes ++ child.bytes⟩
  else ⟨p.bytes ++ separator :: child.bytes⟩

end Path

end Succession
