import Succession.Fault
import Succession.Json.Reader
import Succession.Json.Writer

/-!
# The channel manifest

A process that replaces itself lists the sockets it leaves open to the next image in an
environment variable. The manifest is that list, and its text is compact JSON.
-/

namespace Succession

/-- How a channel came to a process. -/
inductive Provenance
  | localBind
  | activation
  | inherited
deriving DecidableEq, Repr

/-- What a channel is for. -/
inductive Role
  | listener
  | client
deriving DecidableEq, Repr

/-- One channel of a manifest. -/
structure ManifestEntry where
  fd : Int
  role : Role
  origin : Provenance
  path : Option Path := none
deriving DecidableEq, Repr

/-- The channels that one image leaves to the next. -/
structure Manifest where
  channels : List ManifestEntry := []
deriving DecidableEq, Repr, Inhabited

/-- The word for an origin. -/
def Provenance.word : Provenance → String
  | localBind => "local"
  | activation => "activation"
  | inherited => "inherited"

/-- The origin that a word names. -/
def Provenance.ofWord? (word : List Char) : Option Provenance :=
  [localBind, activation, inherited].find? fun origin => origin.word.toList = word

/-- The word for a role. -/
def Role.word : Role → String
  | listener => "listener"
  | client => "client"

/-- The role that a word names. -/
def Role.ofWord? (word : List Char) : Option Role :=
  [listener, client].find? fun role => role.word.toList = word

/-- The name of a role in the journal. -/
def Role.label : Role → String
  | listener => "Listener"
  | client => "Client"

namespace Manifest

open Json in
/-- The tokens of an entry; none if its path is no text. -/
def entryTokens? (e : ManifestEntry) : Option (List Token) := do
  let path ←
    match e.path with
    | none => some []
    | some p =>
      (Utf8.decode? p.bytes).map fun text => [.comma, .word "path", .colon, .word text]
  return [.openBrace, .word "fd", .colon, .integer e.fd, .comma, .word "role", .colon,
    .word e.role.word, .comma, .word "origin", .colon, .word e.origin.word] ++ path ++
    [.closeBrace]

open Json in
/-- The tokens of entries with commas between them. -/
def entriesTokens? : List ManifestEntry → Option (List Token)
  | [] => some []
  | [e] => entryTokens? e
  | e :: rest => do
    return (← entryTokens? e) ++ [.comma] ++ (← entriesTokens? rest)

/-- The text of a manifest. A path that is no text cannot be written. -/
def encode (m : Manifest) : Except Fault String :=
  match entriesTokens? m.channels with
  | none =>
    .error (.ipc "failed to encode channel manifest: path contains invalid UTF-8 characters")
  | some tokens =>
    let all := [.openBrace, .word "channels", .colon, .openBracket] ++ tokens ++
      [Json.Token.closeBracket, .closeBrace]
    .ok (String.ofList (Json.render (all.map .token)))

/-- The path that a field of an entry holds; it may be missing. -/
def pathOfJson? : Option Json.Value → Option (Option Path)
  | none | some .null => some none
  | some v => v.text?.map fun text => some ⟨Utf8.encodeChars text⟩

/-- The entry that a JSON value holds. -/
def entryOfJson? (v : Json.Value) : Option ManifestEntry := do
  match ← v.fields? ["fd", "role", "origin", "path"] with
  | [some fd, some role, some origin, path] =>
    let fd ← fd.integer? .int32
    let role ← Role.ofWord? (← role.word?)
    let origin ← Provenance.ofWord? (← origin.word?)
    return ⟨fd, role, origin, ← pathOfJson? path⟩
  | _ => none

/-- The manifest that a JSON value holds. -/
def ofJson? (v : Json.Value) : Option Manifest := do
  match ← v.fields? ["channels"] with
  | [some channels] => return ⟨← (← channels.items?).mapM entryOfJson?⟩
  | _ => none

/-- The manifest that a text spells. -/
def decode (raw : String) : Except Fault Manifest :=
  match (Json.parse? (Bytes.ofString raw)).bind ofJson? with
  | some m => .ok m
  | none => .error (.ipc "malformed channel manifest")

/-- Whether a descriptor is listed. -/
def lists (m : Manifest) (fd : Int) : Bool := m.channels.any fun e => e.fd = fd

end Manifest

end Succession
