import Mathlib.Algebra.Order.Ring.Nat
import BscTarget.Lib.Dialogues
import BscTarget.Scpi.Framing

/-!
# The export of an acquisition

`export` of `siglent-capture.py`: it reads the samples of a stopped oscilloscope in blocks of
100000. It is a dialogue; `Scpi` over a socket answers it in any fragmentation, as the oscilloscope
itself would (`socket_run`).
-/

namespace BscTarget.Scpi

/-! ## Commands -/

/-- The text of a command, which is checked to be ASCII. -/
def command (text : List Char) (h : text.all (fun c => decide (c.toNat < 0x80)) = true) : Command :=
  ⟨text, fun c hc => of_decide_eq_true (List.all_eq_true.mp h c hc)⟩

/-- `str(n)` -/
def str (n : ℕ) : List Char := Nat.toDigits 10 n

theorem str_ascii {n : ℕ} : ∀ c ∈ str n, c.toNat < 0x80 := by
  intro c hc
  have hdigit : c.isDigit = true := Nat.isDigit_of_mem_toDigits (by decide) (by decide) hc
  simp only [Char.isDigit, Bool.and_eq_true, decide_eq_true_eq] at hdigit
  have hle : c.val ≤ '9'.val := hdigit.2
  exact Nat.lt_of_le_of_lt (UInt32.le_iff_toNat_le.mp hle) (by decide)

/-- A command with a number behind it. -/
def Command.number (c : Command) (n : ℕ) : Command :=
  ⟨c.text ++ str n, fun ch hch => (List.mem_append.mp hch).elim (c.ascii ch) (str_ascii ch)⟩

def idn : Command := command "*IDN?".toList rfl
def trigStat : Command := command ":TRIG:STAT?".toList rfl
def trigType : Command := command ":TRIG:TYPE?".toList rfl
def trigEdgeSour : Command := command ":TRIG:EDGE:SOUR?".toList rfl
def trigEdgeSlop : Command := command ":TRIG:EDGE:SLOP?".toList rfl
def wavSour : Command := command ":WAV:SOUR C".toList rfl
def wavWidt : Command := command ":WAV:WIDT WORD".toList rfl
def wavStar : Command := command ":WAV:STAR ".toList rfl
def wavInt : Command := command ":WAV:INT ".toList rfl
def wavPoin : Command := command ":WAV:POIN ".toList rfl
def wavPre : Command := command ":WAV:PRE?".toList rfl
def wavData : Command := command ":WAV:DATA?".toList rfl

/-! ## The program -/

inductive ExportError
  | scpi (e : PyError)
  /-- `RuntimeError` -/
  | runtime (message : String)
  deriving DecidableEq

/-- What `main` accepts. -/
structure Arguments where
  channels : List ℕ
  points : ℕ
  start : Option ℕ
  interval : ℕ
  channels_range : ∀ c ∈ channels, 1 ≤ c ∧ c ≤ 4
  channels_nodup : channels.Nodup
  points_le : points ≤ 30000000
  interval_pos : 1 ≤ interval

structure ChannelInfo where
  channel : ℕ
  nativePoints : ℕ
  points : ℕ
  start : ℕ
  interval : ℕ
  /-- The bits of `native_dt`. -/
  nativeDt : ℕ
  deriving DecidableEq

/-- `capture.json` without the time of day and its remark on the limits of the samples. -/
structure Metadata where
  instrument : List Char
  acquisitionState : List Char
  triggerType : List Char
  edgeSource : Option (List Char)
  slope : Option (List Char)
  channels : List ChannelInfo
  deriving DecidableEq

/-- What is written to the destination. -/
inductive Saved
  /-- Both files of a channel, the samples and the preamble, which are written one by one. -/
  | channel (channel : ℕ) (data preamble : Bytes)
  | capture (metadata : Metadata)
  deriving DecidableEq

inductive Ask
  | set (command : Command)
  | query (command : Command)
  | binary (command : Command)
  | save (saved : Saved)

def Ask.Answer : Ask → Type
  | .set _ | .save _ => Unit
  | .query _ => List Char
  | .binary _ => Bytes

abbrev Talk (β : Type) : Type := Dialogue Ask Ask.Answer ExportError β

def set (c : Command) : Talk Unit := Dialogue.call (Ask.set c)
def ask (c : Command) : Talk (List Char) := Dialogue.call (Ask.query c)
def fetch (c : Command) : Talk Bytes := Dialogue.call (Ask.binary c)
def save (s : Saved) : Talk Unit := Dialogue.call (Ask.save s)

/-- `if condition: raise ValueError(message)` -/
def refuseIf (condition : Bool) (message : String) : Talk Unit :=
  if condition then .raise (.scpi (.value message)) else pure ()

/-- Four bytes, the lowest first. -/
def unpackWord (data : Bytes) (offset : ℕ) : ℕ :=
  (data.getD offset 0).toNat + (data.getD (offset + 1) 0).toNat * 2 ^ 8 +
    (data.getD (offset + 2) 0).toNat * 2 ^ 16 + (data.getD (offset + 3) 0).toNat * 2 ^ 24

/-- `struct.unpack_from("<i", data, offset)[0]` -/
def unpackInt (data : Bytes) (offset : ℕ) : ℤ :=
  let word := unpackWord data offset
  if word < 2 ^ 31 then word else (word : ℤ) - 2 ^ 32

/-- The float of these bits is finite and greater than zero. -/
def isPositive (bits : ℕ) : Bool := 0 < bits && bits < 0x7f800000

/-- `a.lower()` of an ASCII text. -/
def lower (text : List Char) : List Char := text.map Char.toLower

def upper (text : List Char) : List Char := text.map Char.toUpper

namespace Arguments

variable (a : Arguments)

def available (total : ℕ) : ℕ := (total + a.interval - 1) / a.interval

/-- `min(args.points or available, available)` -/
def wanted (total : ℕ) : ℕ :=
  min (if a.points = 0 then a.available total else a.points) (a.available total)

/-- Where nothing is asked for, the middle of the acquisition. -/
def first (total : ℕ) : ℕ :=
  match a.start with
  | some start => start
  | none => (total - a.wanted total * a.interval) / 2

def count (total : ℕ) : ℕ :=
  min (a.wanted total) ((total - a.first total + a.interval - 1) / a.interval)

end Arguments

def blockPoints : ℕ := 100000

/-- `range(0, count, 100000)` -/
def offsets (count : ℕ) : List ℕ :=
  (List.range ((count + blockPoints - 1) / blockPoints)).map (· * blockPoints)

def readBlocks (a : Arguments) (start count : ℕ) : List ℕ → Bytes → Talk Bytes
  | [], data => pure data
  | offset :: rest, data => do
    let size := min blockPoints (count - offset)
    set (wavStar.number (start + offset * a.interval))
    set (wavPoin.number size)
    let block ← fetch wavData
    refuseIf (block.length ≠ size * 2) "short waveform block"
    readBlocks a start count rest (data ++ block)

def exportChannel (a : Arguments) (channel : ℕ) : Talk ChannelInfo := do
  set (wavSour.number channel)
  set wavWidt
  set (wavStar.number 0)
  set (wavInt.number 1)
  set (wavPoin.number 0)
  let preamble ← fetch wavPre
  refuseIf (preamble.length < 332) "short waveform descriptor"
  let total := unpackInt preamble 116
  let dt := unpackWord preamble 176
  refuseIf (!(0 < total && total ≤ 30000000) || !isPositive dt) "invalid waveform descriptor"
  let total := total.toNat
  let start := a.first total
  refuseIf (total ≤ start) "start lies outside the acquisition"
  let count := a.count total
  set (wavInt.number a.interval)
  let data ← readBlocks a start count (offsets count) []
  save (.channel channel data preamble)
  pure ⟨channel, total, count, start, a.interval, dt⟩

def exportChannels (a : Arguments) : List ℕ → List ChannelInfo → Talk (List ChannelInfo)
  | [], done => pure done
  | channel :: rest, done => do
    let info ← exportChannel a channel
    exportChannels a rest (done ++ [info])

/-- The edge of an edge trigger, and the slope of one on the third channel. -/
def readEdge (triggerType : List Char) : Talk (Option (List Char) × Option (List Char)) :=
  if upper triggerType = "EDGE".toList then do
    let source ← ask trigEdgeSour
    if source = "C3".toList then do
      let slope ← ask trigEdgeSlop
      pure (some source, some slope)
    else pure (some source, none)
  else pure (none, none)

/-- `export` with the connection open. -/
def exportCapture (a : Arguments) : Talk Unit := do
  let instrument ← ask idn
  refuseIf (!decide ("Siglent Technologies,SDS824X HD,".toList <:+: instrument))
    "descriptor layout is verified only for SDS824X HD"
  let state ← ask trigStat
  refuseIf (lower state ≠ "stop".toList)
    "stop the acquisition before exporting; this tool does not stop it"
  let triggerType ← ask trigType
  let edge ← readEdge triggerType
  let channels ← exportChannels a a.channels []
  let last ← ask trigStat
  if lower last ≠ "stop".toList then
    .raise (.runtime "acquisition state changed during export")
  else save (.capture ⟨instrument, state, triggerType, edge.1, edge.2, channels⟩)

/-! ## Over the socket -/

/-- The error of a call. -/
def raised {β : Type} : Except PyError β → Except ExportError β
  | .ok v => .ok v
  | .error e => .error (.scpi e)

structure Desk (κ : Type) where
  link : κ
  files : List Saved

/-- `Scpi` answers. -/
def socket : Dialogue.Handler Ask Ask.Answer ExportError (Desk Connection)
  | .set c, s => (.ok (), { s with link := send c s.link })
  | .query c, s => (raised (query c s.link).1, { s with link := (query c s.link).2 })
  | .binary c, s => (raised (binary c s.link).1, { s with link := (binary c s.link).2 })
  | .save f, s => (.ok (), { s with files := s.files ++ [f] })

/-! ## What is asked and what is saved -/

/-- A query, or a setting of what is read back: nothing that arms, forces or stops a trigger. -/
def Passive (c : Command) : Prop := c.text.getLast? = some '?' ∨ ":WAV:".toList <+: c.text

/-- Points of an acquisition of `total` points. -/
def Arguments.Inside (a : Arguments) (total start count : ℕ) : Prop :=
  0 < count ∧ start + (count - 1) * a.interval < total

/-- A channel has two bytes for each of its points, all of them points that its preamble counts; a
capture describes a stopped acquisition and all channels. -/
def Proper (a : Arguments) : Saved → Prop
  | .channel channel data preamble => channel ∈ a.channels ∧ ∃ total : ℕ,
    unpackInt preamble 116 = total ∧ a.Inside total (a.first total) (a.count total) ∧
      data.length = 2 * a.count total
  | .capture m => lower m.acquisitionState = "stop".toList ∧
    m.channels.map ChannelInfo.channel = a.channels ∧
    ∀ i ∈ m.channels, i.interval = a.interval ∧ a.Inside i.nativePoints i.start i.points

def Ask.Proper (a : Arguments) : Ask → Prop
  | .set c | .query c | .binary c => Passive c
  | .save f => Scpi.Proper a f

theorem Passive.number {c : Command} (h : ":WAV:".toList <+: c.text) (n : ℕ) :
    Passive (c.number n) := .inr (h.trans (List.prefix_append _ _))

namespace Arguments

variable {a : Arguments} {total : ℕ}

/-- Rounded up, one less is too few. -/
theorem lt_of_ceil {n c : ℕ} (hn : 0 < n) (hc : c ≤ (n + a.interval - 1) / a.interval) :
    (c - 1) * a.interval < n := by
  have hmul : c * a.interval ≤ n + a.interval - 1 :=
    (Nat.mul_le_mul_right _ hc).trans (Nat.div_mul_le_self _ _)
  rw [Nat.sub_mul, Nat.one_mul]
  have := a.interval_pos
  omega

theorem ceil_pos {n : ℕ} (hn : 0 < n) : 0 < (n + a.interval - 1) / a.interval :=
  Nat.div_pos (by omega) a.interval_pos

theorem wanted_pos (ht : 0 < total) : 0 < a.wanted total := by
  have havailable : 0 < a.available total := ceil_pos ht
  rw [wanted]
  split_ifs
  · rwa [Nat.min_self]
  · exact Nat.lt_min.mpr ⟨by omega, havailable⟩

theorem inside (ht : 0 < total) (hs : a.first total < total) :
    a.Inside total (a.first total) (a.count total) := by
  have hrest : 0 < total - a.first total := Nat.sub_pos_of_lt hs
  refine ⟨Nat.lt_min.mpr ⟨wanted_pos ht, ceil_pos hrest⟩, ?_⟩
  have hlast := lt_of_ceil (a := a) hrest (c := a.count total) (Nat.min_le_right _ _)
  omega

end Arguments

theorem blockPoints_pos : 0 < blockPoints := Nat.succ_pos _

/-- Blocks of `b` cover everything. -/
theorem le_blocks {b : ℕ} (hb : 0 < b) (count : ℕ) : count ≤ (count + b - 1) / b * b := by
  have hdiv := Nat.div_add_mod (count + b - 1) b
  have hmod := Nat.mod_lt (count + b - 1) hb
  rw [Nat.mul_comm] at hdiv
  omega

theorem sum_blocks (b count k : ℕ) :
    (((List.range k).map (· * b)).map fun offset => min b (count - offset)).sum =
      min (k * b) count := by
  induction k with
  | zero => simp
  | succ k ih =>
    rw [List.range_succ, List.map_append, List.map_append, List.sum_append, ih, Nat.succ_mul]
    simp only [List.map_cons, List.map_nil, List.sum_cons, List.sum_nil]
    omega

/-- The blocks cover `count` points. -/
theorem sum_offsets (count : ℕ) :
    ((offsets count).map fun offset => min blockPoints (count - offset)).sum = count := by
  rw [offsets, sum_blocks, Nat.min_eq_right (le_blocks blockPoints_pos count)]

section

variable {a : Arguments}

theorem refuseIf_within (P : Ask → Prop) (condition : Bool) (message : String) :
    (refuseIf condition message).Within P fun _ => condition = false := by
  cases condition with
  | true => trivial
  | false => exact rfl

theorem set_within {c : Command} (h : Passive c) : (set c).Within (Ask.Proper a) fun _ => True :=
  .call h

theorem ask_within {c : Command} (h : Passive c) : (ask c).Within (Ask.Proper a) fun _ => True :=
  .call h

theorem fetch_within {c : Command} (h : Passive c) :
    (fetch c).Within (Ask.Proper a) fun _ => True := .call h

theorem save_within {f : Saved} (h : Scpi.Proper a f) :
    (save f).Within (Ask.Proper a) fun _ => True := .call (q := Ask.save f) h

theorem readBlocks_within (start count : ℕ) (offsets : List ℕ) (data : Bytes) :
    (readBlocks a start count offsets data).Within (Ask.Proper a) fun result =>
      result.length = data.length +
        2 * (offsets.map fun offset => min blockPoints (count - offset)).sum := by
  induction offsets generalizing data with
  | nil => exact .pure rfl
  | cons offset rest ih =>
    refine (set_within (Passive.number (by decide) _)).bind fun _ _ => ?_
    refine (set_within (Passive.number (by decide) _)).bind fun _ _ => ?_
    refine (fetch_within (.inl (by decide))).bind fun block _ => ?_
    refine (refuseIf_within _ _ _).bind fun _ hblock => ?_
    have hlen : block.length = min blockPoints (count - offset) * 2 := by simpa using hblock
    refine (ih (data ++ block)).mono fun result hresult => ?_
    rw [hresult, List.length_append, hlen, List.map_cons, List.sum_cons]
    omega

theorem exportChannel_within {channel : ℕ} (hc : channel ∈ a.channels) :
    (exportChannel a channel).Within (Ask.Proper a) fun i => i.channel = channel ∧
      i.interval = a.interval ∧ a.Inside i.nativePoints i.start i.points := by
  have hset {c : Command} (h : ":WAV:".toList <+: c.text) : Passive c := .inr h
  refine (set_within (Passive.number (by decide) _)).bind fun _ _ => ?_
  refine (set_within (hset (by decide))).bind fun _ _ => ?_
  refine (set_within (Passive.number (by decide) _)).bind fun _ _ => ?_
  refine (set_within (Passive.number (by decide) _)).bind fun _ _ => ?_
  refine (set_within (Passive.number (by decide) _)).bind fun _ _ => ?_
  refine (fetch_within (.inl (by decide))).bind fun preamble _ => ?_
  refine (refuseIf_within _ _ _).bind fun _ _ => ?_
  refine (refuseIf_within _ _ _).bind fun _ hvalid => ?_
  refine (refuseIf_within _ _ _).bind fun _ hstart => ?_
  refine (set_within (Passive.number (by decide) _)).bind fun _ _ => ?_
  refine (readBlocks_within _ _ _ _).bind fun data hdata => ?_
  have htotal : 0 < unpackInt preamble 116 := by
    simp only [Bool.or_eq_false_iff, Bool.not_eq_false', Bool.and_eq_true,
      decide_eq_true_eq] at hvalid
    exact hvalid.1.1
  have hinside : a.Inside (unpackInt preamble 116).toNat
      (a.first (unpackInt preamble 116).toNat) (a.count (unpackInt preamble 116).toNat) :=
    Arguments.inside (by omega) (by simpa using hstart)
  have hsaved : Scpi.Proper a (.channel channel data preamble) := by
    refine ⟨hc, (unpackInt preamble 116).toNat, by omega, hinside, ?_⟩
    rw [hdata, sum_offsets, List.length_nil, Nat.zero_add]
  exact (save_within hsaved).bind fun _ _ => .pure ⟨rfl, rfl, hinside⟩

theorem exportChannels_within (channels : List ℕ) (hc : ∀ c ∈ channels, c ∈ a.channels)
    (done : List ChannelInfo)
    (hdone : ∀ i ∈ done, i.interval = a.interval ∧ a.Inside i.nativePoints i.start i.points) :
    (exportChannels a channels done).Within (Ask.Proper a) fun result =>
      result.map ChannelInfo.channel = done.map ChannelInfo.channel ++ channels ∧
        ∀ i ∈ result, i.interval = a.interval ∧ a.Inside i.nativePoints i.start i.points := by
  induction channels generalizing done with
  | nil => exact .pure ⟨(List.append_nil _).symm, hdone⟩
  | cons channel rest ih =>
    refine (exportChannel_within (hc channel List.mem_cons_self)).bind fun info hinfo => ?_
    refine (ih (fun c h => hc c (List.mem_cons_of_mem _ h)) (done ++ [info]) fun i hi => ?_).mono
      fun result hresult => ⟨?_, hresult.2⟩
    · rcases List.mem_append.mp hi with hi | hi
      · exact hdone i hi
      · rw [List.mem_singleton.mp hi]
        exact hinfo.2
    · rw [hresult.1, List.map_append, List.append_assoc, List.map_singleton, hinfo.1]
      rfl

theorem readEdge_within (triggerType : List Char) :
    (readEdge triggerType).Within (Ask.Proper a) fun _ => True := by
  unfold readEdge
  split_ifs
  · refine (ask_within (.inl (by decide))).bind fun source _ => ?_
    split_ifs
    · exact (ask_within (.inl (by decide))).bind fun slope _ => .pure trivial
    · exact .pure trivial
  · exact .pure trivial

/-- Whatever is answered, the export asks and saves properly. -/
theorem exportCapture_within (a : Arguments) :
    (exportCapture a).Within (Ask.Proper a) fun _ => True := by
  refine (ask_within (.inl (by decide))).bind fun instrument _ => ?_
  refine (refuseIf_within _ _ _).bind fun _ _ => ?_
  refine (ask_within (.inl (by decide))).bind fun state _ => ?_
  refine (refuseIf_within _ _ _).bind fun _ hstate => ?_
  refine (ask_within (.inl (by decide))).bind fun triggerType _ => ?_
  refine (readEdge_within triggerType).bind fun edge _ => ?_
  refine (exportChannels_within a.channels (fun _ hc => hc) []
    (fun i hi => by cases hi)).bind fun channels hchannels => ?_
  refine (ask_within (.inl (by decide))).bind fun last _ => ?_
  split_ifs
  · trivial
  · exact save_within ⟨by simpa using hstate, hchannels.1, hchannels.2⟩

end

/-! ## Over any stream -/

/-- What a command puts on the wire. -/
def Command.line (c : Command) : Bytes := c.text.map (fun ch => UInt8.ofNat ch.toNat) ++ [lf]

theorem send_line (c : Command) (k : Connection) : (send c k).sent = k.sent ++ c.line :=
  List.append_assoc _ _ _

theorem query_sent (c : Command) (k : Connection) : (query c k).2.sent = (send c k).sent := by
  rcases hr : textLoop (rounds (send c k)) k.incoming with ⟨r, s⟩
  rw [query_eq hr]

theorem binary_sent (c : Command) (k : Connection) : (binary c k).2.sent = (send c k).sent := by
  rcases hr : (prefixLoop (rounds (send c k)) >>= fun _ => block) k.incoming with ⟨r, s⟩
  rw [binary_eq hr]

/-- The commands sent are passive, and everything saved is proper. -/
def Harmless (a : Arguments) (sent : Bytes) (s : Desk Connection) : Prop :=
  (∃ commands : List Command, (∀ c ∈ commands, Passive c) ∧
    s.link.sent = sent ++ (commands.map Command.line).flatten) ∧ ∀ f ∈ s.files, Proper a f

theorem Harmless.sends {a : Arguments} {sent : Bytes} {s : Desk Connection}
    (hs : Harmless a sent s) {c : Command} (hc : Passive c) {k : Connection}
    (hk : k.sent = (send c s.link).sent) : Harmless a sent { s with link := k } := by
  obtain ⟨⟨commands, hpassive, hsent⟩, hfiles⟩ := hs
  refine ⟨⟨commands ++ [c], fun c' hc' => ?_, ?_⟩, hfiles⟩
  · rcases List.mem_append.mp hc' with hc' | hc'
    · exact hpassive c' hc'
    · rw [List.mem_singleton.mp hc']
      exact hc
  · show k.sent = _
    rw [hk, send_line, hsent, List.map_append, List.flatten_append, List.append_assoc]
    simp

theorem Harmless.socket {a : Arguments} {sent : Bytes} (q : Ask) (s : Desk Connection)
    (hq : q.Proper a) (hs : Harmless a sent s) : Harmless a sent (socket q s).2 := by
  cases q with
  | set c => exact hs.sends hq rfl
  | query c => exact hs.sends hq (query_sent c s.link)
  | binary c => exact hs.sends hq (binary_sent c s.link)
  | save f =>
    refine ⟨hs.1, fun f' hf' => ?_⟩
    rcases List.mem_append.mp hf' with hf' | hf'
    · exact hs.2 f' hf'
    · rw [List.mem_singleton.mp hf']
      exact hq

/-- Whatever the stream holds and however it is cut, the export sends nothing that would change the
acquisition, and each file that it leaves is whole. -/
theorem export_harmless (a : Arguments) (k : Connection) :
    Harmless a k.sent ((exportCapture a).run socket ⟨k, []⟩).2 :=
  ((exportCapture_within a).run Harmless.socket
    ⟨⟨[], (fun c hc => by cases hc), (List.append_nil _).symm⟩, fun f hf => by cases hf⟩).1

end BscTarget.Scpi
