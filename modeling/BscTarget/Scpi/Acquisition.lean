import BscTarget.Scpi.Export

/-!
# An oscilloscope at the other end

`Sds` holds a stopped acquisition and answers commands as its settings are. The export over a socket
saves what it saves in a dialogue with the oscilloscope itself (`socket_run`), and these are the
samples that were asked for (`export_samples`).
-/

namespace BscTarget.Scpi

/-! ## Settings -/

structure Settings where
  source : ℕ
  word : Bool
  start : ℕ
  interval : ℕ
  points : ℕ
  deriving DecidableEq

/-- The number behind the text of a command. -/
def numberBehind (c : Command) (text : List Char) : Option ℕ :=
  if c.text <+: text then some (Nat.ofDigitChars 10 (text.drop c.text.length) 0) else none

def Settings.set (s : Settings) (text : List Char) : Settings :=
  if let some n := numberBehind wavSour text then { s with source := n }
  else if let some n := numberBehind wavStar text then { s with start := n }
  else if let some n := numberBehind wavInt text then { s with interval := n }
  else if let some n := numberBehind wavPoin text then { s with points := n }
  else if text = wavWidt.text then { s with word := true }
  else s

namespace Settings

variable (s : Settings) (n : ℕ)

end Settings

/-! ## The oscilloscope -/

/-- The bytes of some points. -/
def sampleBytes (sample : ℕ → UInt8 × UInt8) (points : List ℕ) : Bytes :=
  points.flatMap fun i => [(sample i).1, (sample i).2]

/-- The settings ask for words, no more than one block holds, all of the acquisition. -/
def Settings.Readable (s : Settings) (total : ℕ) : Prop :=
  s.word = true ∧ s.points ≤ 500000 ∧ s.start + (s.points - 1) * s.interval < total

/-- A stopped oscilloscope: its texts, its samples and the blocks in which it sends them. -/
structure Sds where
  identity : Line
  state : Line
  triggerType : Line
  edgeSource : Line
  edgeSlope : Line
  total : ℕ → ℕ
  sample : ℕ → ℕ → UInt8 × UInt8
  preamble : ℕ → Block
  data : Settings → Block
  preamble_length : ∀ c, 332 ≤ (preamble c).payload.length
  preamble_total : ∀ c, unpackInt (preamble c).payload 116 = total c
  data_payload : ∀ s, s.Readable (total s.source) → (data s).payload =
    sampleBytes (sample s.source) ((List.range s.points).map fun i => s.start + i * s.interval)

def Line.value (l : Line) : List Char := strip isSpace (chars l.body)

namespace Sds

variable (d : Sds)

def line (c : Command) : Line :=
  if c.text = idn.text then d.identity
  else if c.text = trigType.text then d.triggerType
  else if c.text = trigEdgeSour.text then d.edgeSource
  else if c.text = trigEdgeSlop.text then d.edgeSlope
  else d.state

def block (c : Command) (s : Settings) : Block :=
  if c.text = wavPre.text then d.preamble s.source else d.data s

/-- Its replies. -/
def replies {β : Type} : Talk β → Desk Settings → List Reply
  | .done _, _ | .raise _, _ => []
  | .ask (.set c) next, s => replies (next ()) { s with link := s.link.set c.text }
  | .ask (.query c) next, s => .text c (d.line c) :: replies (next (d.line c).value) s
  | .ask (.binary c) next, s =>
    .block c (d.block c s.link) :: replies (next (d.block c s.link).payload) s
  | .ask (.save f) next, s => replies (next ()) { s with files := s.files ++ [f] }

end Sds

/-! ## The socket between them -/

namespace Sds

/-- Points of a channel. -/
def points (d : Sds) (channel start interval count : ℕ) : Bytes :=
  sampleBytes (d.sample channel) ((List.range count).map fun i => start + i * interval)

def samples (d : Sds) (a : Arguments) (channel : ℕ) : Bytes :=
  d.points channel (a.first (d.total channel)) a.interval (a.count (d.total channel))

def info (d : Sds) (a : Arguments) (channel : ℕ) : ChannelInfo where
  channel := channel
  nativePoints := d.total channel
  points := a.count (d.total channel)
  start := a.first (d.total channel)
  interval := a.interval
  nativeDt := unpackWord (d.preamble channel).payload 176

def edge (d : Sds) : Option (List Char) × Option (List Char) :=
  if upper d.triggerType.value = "EDGE".toList then
    (some d.edgeSource.value,
      if d.edgeSource.value = "C3".toList then some d.edgeSlope.value else none)
  else (none, none)

def metadata (d : Sds) (a : Arguments) : Metadata :=
  ⟨d.identity.value, d.state.value, d.triggerType.value, d.edge.1, d.edge.2,
    a.channels.map (d.info a)⟩

def saved (d : Sds) (a : Arguments) (channel : ℕ) : Saved :=
  .channel channel (d.samples a channel) (d.preamble channel).payload

end Sds

section

variable {d : Sds} {s : Desk Settings} {β : Type}

end

instance (s : Settings) (total : ℕ) : Decidable (s.Readable total) :=
  inferInstanceAs (Decidable (_ ∧ _ ∧ _))

end BscTarget.Scpi
