import Succession.Image.Exec
import Succession.Proofs.Channel.ManifestText
import Succession.Proofs.Text.NumeralReading

/-!
# What an image hands over is what the next one inherits

The manifest and the descriptor of the waiting client go through two environment variables as text.
Whatever stood in the environment before, they hold what was handed over (`text?_handOver`), and the
next image reads exactly that (`inheritance_of_handOver`).
-/

namespace Succession

namespace Environment

theorem text?_set_self (env : Environment) (name text : String) :
    (env.set name (Bytes.ofString text)).text? name = some text := by
  rw [text?, get?_set_self]
  exact Utf8.decode?_encode text

theorem text?_set_ne (env : Environment) {name other : String} (value : Bytes) (h : other ≠ name) :
    (env.set name value).text? other = env.text? other := by
  rw [text?, text?, get?_set_ne env value h]

end Environment

namespace Image

open Inheritance (continuationVariable manifestVariable)

/-- Both variables hold what was handed over, or nothing where nothing was. -/
theorem text?_handOver (env : Environment) (text : String) (continuation : Option Int) :
    (handOver env text continuation).text? manifestVariable = some text ∧
    (handOver env text continuation).text? continuationVariable =
      continuation.map Numeral.render := by
  have apart : manifestVariable ≠ continuationVariable := by decide
  -- the descriptor's variable is dealt with last, and the manifest's is another one
  cases continuation with
  | none =>
    refine ⟨?_, ?_⟩
    · rw [handOver, Environment.text?, Environment.get?_erase_ne _ apart]
      exact Environment.text?_set_self env _ text
    · rw [handOver, Environment.text?, Environment.get?_erase_self]
      rfl
  | some fd =>
    refine ⟨?_, Environment.text?_set_self _ _ _⟩
    rw [handOver, Environment.text?_set_ne _ _ apart]
    exact Environment.text?_set_self env _ text

/-- The replacement goes through with the manifest and the descriptor in the environment, unless the
program cannot be started. -/
theorem exec_of_encode {m : Manifest} {text : String} (written : m.encode = .ok text)
    (env : Environment) {launch : Launch} (plain : launch.commandLine.any hasNul = false)
    (continuation : Option Int) :
    exec none env launch m continuation = .ok (handOver env text continuation) := by
  rw [exec, written]
  simp only [plain]
  rfl

end Image

namespace Inheritance

/-- The text of a number from zero on is read as that descriptor. -/
theorem parseContinuation_render {fd : Int} (nonnegative : 0 ≤ fd)
    (inRange : NumeralRange.int32.contains fd = true) :
    parseContinuation (some (Numeral.render fd)) = (some fd, []) := by
  have small := ((NumeralRange.contains_iff _ _).mp inRange).2
  simp only [parseContinuation, Numeral.parse?_trim_render nonnegative small, if_pos nonnegative]

theorem parseManifest_of_decode {raw : String} {m : Manifest} (read : Manifest.decode raw = .ok m) :
    parseManifest (some raw) = (some m, []) := by
  simp only [parseManifest, read]

/-- The next image inherits what was handed over, and finds nothing malformed. -/
theorem inheritance_of_handOver {m : Manifest} {text : String} (read : Manifest.decode text = .ok m)
    (env : Environment) (options : Options) {continuation : Option Int}
    (descriptor : ∀ fd ∈ continuation, 0 ≤ fd ∧ NumeralRange.int32.contains fd = true) :
    let next := Image.handOver env text continuation
    ofParts options (next.text? continuationVariable) (next.text? manifestVariable) =
      (⟨options.snapshot?.map (·.1), (options.snapshot?.map (·.2)).getD false, continuation,
        some m⟩, []) := by
  obtain ⟨channels, waiting⟩ := Image.text?_handOver env text continuation
  have client : parseContinuation (continuation.map Numeral.render) = (continuation, []) := by
    cases continuation with
    | none => rfl
    | some fd => exact parseContinuation_render (descriptor fd rfl).1 (descriptor fd rfl).2
  simp only [channels, waiting, ofParts, parseManifest_of_decode read, client, List.append_nil]

end Inheritance

/-- A manifest that could be written goes into an environment variable, as its text has no zero
byte, and is read from it as it was; the number of a descriptor is read from its decimal text as it
was. So whatever the environment was before, the replacement goes through, and the next image
inherits the manifest and the waiting client of this one. Conversely a manifest that was read from
any text can be written, and what is written is read as the same manifest. -/
theorem handed_over_is_inherited {m : Manifest} (inRange : ∀ e ∈ m.channels, e.InRange)
    {text : String} (written : m.encode = .ok text) :
    Bytes.nul ∉ Bytes.ofString text ∧ Manifest.decode text = .ok m ∧
    (∀ fd : Int, 0 ≤ fd → NumeralRange.int32.contains fd = true →
      Inheritance.parseContinuation (some (Numeral.render fd)) = (some fd, [])) ∧
    (∀ (env : Environment) (options : Options) (continuation : Option Int),
      (∀ fd ∈ continuation, 0 ≤ fd ∧ NumeralRange.int32.contains fd = true) →
      let next := Image.handOver env text continuation
      (∀ launch : Image.Launch, launch.commandLine.any Image.hasNul = false →
        Image.exec none env launch m continuation = .ok next) ∧
      Inheritance.ofParts options (next.text? Inheritance.continuationVariable)
          (next.text? Inheritance.manifestVariable) =
        (⟨options.snapshot?.map (·.1), (options.snapshot?.map (·.2)).getD false, continuation,
          some m⟩, [])) ∧
    ∀ (raw : String) (m' : Manifest), Manifest.decode raw = .ok m' →
      ∃ text', m'.encode = .ok text' ∧ Manifest.decode text' = .ok m' := by
  have read : Manifest.decode text = .ok m :=
    Manifest.decode_encode (Manifest.writable_of_encode written) inRange written
  refine ⟨fun zero => ?_, read, fun fd => Inheritance.parseContinuation_render,
    fun env options continuation descriptor => ⟨fun launch plain => ?_, ?_⟩,
    fun raw m' => Manifest.encode_of_decode⟩
  · exact absurd (Manifest.le_of_mem_encode written zero) (by decide)
  · exact Image.exec_of_encode written env plain continuation
  · exact Inheritance.inheritance_of_handOver read env options descriptor

/-- Two channels: a supervisor's listener at a path with a quotation mark, a backslash, a zero and a
letter beyond ASCII, and a client at a number below zero. -/
def awkwardManifest : Manifest where
  channels :=
    [⟨3, .listener, .activation, some ⟨Bytes.ofString "a\"\\\x00é"⟩⟩,
      ⟨-12, .client, .inherited, none⟩]

/-- The text of the awkward manifest. -/
def awkwardText : String :=
  "\x7b\"channels\":[" ++
  "\x7b\"fd\":3,\"role\":\"listener\",\"origin\":\"activation\"," ++
  "\"path\":\"a\\\"\\\\\\u0000é\"\x7d," ++
  "\x7b\"fd\":-12,\"role\":\"client\",\"origin\":\"inherited\"\x7d]\x7d"

theorem handed_over_is_inherited_of_awkward :
    (∀ e ∈ awkwardManifest.channels, e.InRange) ∧ awkwardManifest.encode = .ok awkwardText ∧
    let next := Image.handOver {} awkwardText (some 12)
    Image.exec none {} ⟨Bytes.ofString "wm", []⟩ awkwardManifest (some 12) = .ok next ∧
    Inheritance.ofParts {} (next.text? Inheritance.continuationVariable)
        (next.text? Inheritance.manifestVariable) =
      (⟨none, false, some 12, some awkwardManifest⟩, []) := by
  have inRange : ∀ e ∈ awkwardManifest.channels, e.InRange := by decide
  have written : awkwardManifest.encode = .ok awkwardText := by decide +kernel
  obtain ⟨_, _, _, through, _⟩ := handed_over_is_inherited inRange written
  obtain ⟨replaced, inherited⟩ := through {} {} (some 12) (by decide)
  exact ⟨inRange, written, replaced _ (by decide), inherited⟩

end Succession
