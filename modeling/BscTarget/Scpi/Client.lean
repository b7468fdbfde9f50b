import BscTarget.Lib.Fragments

/-!
# The SCPI client

`Scpi` of `siglent-capture.py`: `query` reads one text reply and `binary` one definite-length
block from a socket that delivers the replies in any fragmentation. Strings are lists of
characters.
-/

namespace BscTarget.Scpi

abbrev Bytes := List UInt8

inductive PyError
  /-- `EOFError("scope closed during a reply")` -/
  | eof
  | value (message : String)
  /-- The `ValueError` of `int(data)`. -/
  | invalidLiteral (data : Bytes)
  | unicodeDecode
  /-- A loop that goes on: more rounds than the stream has bytes. -/
  | endless
  deriving DecidableEq

abbrev Script (β : Type) := Reading UInt8 PyError β

def lf : UInt8 := 0x0a
def cr : UInt8 := 0x0d

/-- `if condition: raise ValueError(message)` -/
def raiseIf (condition : Bool) (message : String) : Script Unit :=
  if condition then throw (.value message) else pure ()

def exact (count : ℕ) : Script Bytes := fun s =>
  match s.takeExactly count with
  | (some data, s) => (.ok data, s)
  | (none, s) => (.error .eof, s)

/-! ## Text -/

/-- What `bytes.strip` strips. -/
def isBlank (b : UInt8) : Bool :=
  b == 0x20 || b == 0x09 || b == 0x0a || b == 0x0d || b == 0x0b || b == 0x0c

/-- What `str.strip` strips of ASCII characters. -/
def isSpace (c : Char) : Bool :=
  (0x09 ≤ c.toNat && c.toNat ≤ 0x0d) || (0x1c ≤ c.toNat && c.toNat ≤ 0x20)

def strip {α : Type} (p : α → Bool) (l : List α) : List α :=
  ((l.dropWhile p).reverse.dropWhile p).reverse

/-- The characters of ASCII bytes. -/
def chars (data : Bytes) : List Char := data.map fun b => Char.ofNat b.toNat

/-- `data.decode("ascii")` -/
def decodeAscii (data : Bytes) : Script (List Char) :=
  if data.all (· < 0x80) then pure (chars data) else throw .unicodeDecode

/-- `while not data.endswith(b"\n")`. `data` grows by a byte in each round and is never longer
than 4096 when the next one begins. -/
def lineLoop : ℕ → Bytes → Script Bytes
  | 0, _ => throw .endless
  | fuel + 1, data =>
    if data.getLast? = some lf then pure data
    else do
      let part ← exact 1
      raiseIf (4096 < (data ++ part).length) "oversized text reply"
      lineLoop fuel (data ++ part)

/-- `while True`: the first line that is not blank. -/
def textLoop : ℕ → Script (List Char)
  | 0 => throw .endless
  | fuel + 1 => do
    let data ← lineLoop 4098 []
    if strip isBlank data = [] then textLoop fuel
    else do
      let text ← decodeAscii data
      pure (strip isSpace text)

/-! ## Blocks -/

def isDigit (b : UInt8) : Bool := 0x30 ≤ b && b ≤ 0x39

/-- The digits of a literal, with single underscores between them. -/
def parseDigits : ℕ → Bool → Bytes → Option ℕ
  | value, digit, [] => if digit then some value else none
  | value, digit, b :: rest =>
    if isDigit b then parseDigits (10 * value + (b.toNat - 0x30)) true rest
    else if b = 0x5f && digit then parseDigits value false rest
    else none

/-- `int(data)` -/
def parseInt (data : Bytes) : Option ℤ :=
  match strip isBlank data with
  | 0x2d :: digits => (parseDigits 0 false digits).map fun n : ℕ => -(n : ℤ)
  | 0x2b :: digits => (parseDigits 0 false digits).map fun n : ℕ => (n : ℤ)
  | digits => (parseDigits 0 false digits).map fun n : ℕ => (n : ℤ)

def int (data : Bytes) : Script ℤ :=
  match parseInt data with
  | some n => pure n
  | none => throw (.invalidLiteral data)

/-- `while True`: skips the CR and LF bytes before the block. -/
def prefixLoop : ℕ → Script Unit
  | 0 => throw .endless
  | fuel + 1 => do
    let lead ← exact 1
    if lead = [0x23] then pure ()
    else if lead = [cr] ∨ lead = [lf] then prefixLoop fuel
    else throw (.value "expected a definite-length SCPI block")

def block : Script Bytes := do
  let digits ← int (← exact 1)
  raiseIf (!(1 ≤ digits && digits ≤ 9)) "indefinite-length blocks are unsupported"
  let length ← int (← exact digits.toNat)
  raiseIf (!(0 ≤ length && length ≤ 1000000)) "oversized waveform block"
  exact length.toNat

/-! ## Calls -/

/-- A command that `encode("ascii")` accepts. -/
structure Command where
  text : List Char
  ascii : ∀ c ∈ text, c.toNat < 0x80

structure Connection where
  incoming : Fragments UInt8
  sent : Bytes

/-- `sendall((command + "\n").encode("ascii"))` -/
def send (command : Command) (c : Connection) : Connection :=
  { c with sent := c.sent ++ command.text.map (fun ch => UInt8.ofNat ch.toNat) ++ [lf] }

/-- What a call returns. -/
inductive Value
  | text (s : List Char)
  | payload (data : Bytes)
  deriving DecidableEq

/-- Every round of a loop takes a byte, so the bytes that are left bound the rounds. -/
def rounds (c : Connection) : ℕ := c.incoming.contents.length + 1

def query (command : Command) (c : Connection) : Except PyError (List Char) × Connection :=
  let c := send command c
  let (r, incoming) := textLoop (rounds c) c.incoming
  (r, { c with incoming := incoming })

def binary (command : Command) (c : Connection) : Except PyError Bytes × Connection :=
  let c := send command c
  let (r, incoming) := (prefixLoop (rounds c) >>= fun _ => block) c.incoming
  (r, { c with incoming := incoming })

inductive Call
  | query (command : Command)
  | binary (command : Command)

def call (c : Connection) : Call → Except PyError Value × Connection
  | .query command => ((query command c).1.map .text, (query command c).2)
  | .binary command => ((binary command c).1.map .payload, (binary command c).2)

/-- One call after the other. -/
def session : List Call → Connection → List (Except PyError Value)
  | [], _ => []
  | k :: ks, c => (call c k).1 :: session ks (call c k).2

end BscTarget.Scpi
