import Mathlib.Data.List.TakeWhile
import BscTarget.Scpi.Client

/-!
# Framing of SCPI replies

What a call takes from the stream is its own reply and the line ends that the block before it has
left. `Consumes` carries both directions: a stream that holds the reply is read up to its end, and
one that ends before it raises `EOFError`.
-/

namespace BscTarget.Scpi

/-! ## Replies -/

/-- A text reply without its LF. -/
structure Line where
  body : Bytes
  one : lf ∉ body
  shown : ∃ b ∈ body, isBlank b = false
  ascii : ∀ b ∈ body, b < 0x80

def decimal (digits : Bytes) : ℕ := digits.foldl (fun n b => 10 * n + (b.toNat - 0x30)) 0

/-- A definite-length block, and the line ends behind it. -/
structure Block where
  digits : Bytes
  payload : Bytes
  trailing : Bytes
  digits_len : 1 ≤ digits.length ∧ digits.length ≤ 9
  decimals : ∀ b ∈ digits, isDigit b = true
  length : decimal digits = payload.length
  payload_le : payload.length ≤ 1000000
  ends : ∀ b ∈ trailing, b = cr ∨ b = lf

inductive Reply
  | text (command : Command) (line : Line)
  | block (command : Command) (block : Block)

namespace Reply

def call : Reply → Call
  | text command _ => .query command
  | block command _ => .binary command

/-- The bytes that make the reply complete. -/
def core : Reply → Bytes
  | text _ line => line.body ++ [lf]
  | block _ b => 0x23 :: UInt8.ofNat (0x30 + b.digits.length) :: b.digits ++ b.payload

def trailing : Reply → Bytes
  | text _ _ => []
  | block _ b => b.trailing

def wire (r : Reply) : Bytes := r.core ++ r.trailing

/-- The stripped text, or the payload. -/
def value : Reply → Value
  | text _ line => .text (strip isSpace (chars line.body))
  | block _ b => .payload b.payload

end Reply

/-- No line has more than 4096 bytes, its LF included, if the first one has `n` already. -/
def LinesFit : ℕ → Bytes → Prop
  | _, [] => True
  | n, b :: rest => n + 1 ≤ 4096 ∧ LinesFit (if b = lf then 0 else n + 1) rest

/-- A text reply is at most 4096 bytes long, counted from the last LF that a block before it has
left. -/
def Fits : Bytes → List Reply → Prop
  | _, [] => True
  | left, .text _ line :: rs => LinesFit 0 (left ++ (line.body ++ [lf])) ∧ Fits [] rs
  | _, .block _ b :: rs => Fits b.trailing rs

/-! ## Pieces -/

section

variable {bound : ℕ}

theorem exact_consumes {count : ℕ} {data : Bytes} (h : data.length = count) :
    Consumes .eof bound (exact count) data data where
  whole := fun s rest hs _ => by
    have hle : count ≤ s.contents.length := by
      rw [hs, List.length_append]
      omega
    obtain ⟨s', hs', hc'⟩ := Fragments.takeExactly_of_le hle
    refine ⟨s', ?_, ?_⟩
    · rw [exact, hs', hs, List.take_left' h]
    · rw [hc', hs, List.drop_left' h]
  part := fun s hp hne _ => by
    have hlt : s.contents.length < count := by
      have hle := hp.length_le
      rcases Nat.lt_or_ge s.contents.length count with hlt | hge
      · exact hlt
      · exact absurd (hp.eq_of_length (by omega)) hne
    obtain ⟨s', hs', hc'⟩ := Fragments.takeExactly_of_lt hlt
    exact ⟨s', by rw [exact, hs'], hc'⟩

theorem raiseIf_consumes {condition : Bool} (h : condition = false) (message : String) :
    Consumes .eof bound (raiseIf condition message) [] () := by
  rw [raiseIf, h]
  exact .pure ()

theorem lineLoop_consumes : ∀ (rest : Bytes) (fuel : ℕ) (data : Bytes), lf ∉ rest → lf ∉ data →
    data.length + rest.length + 1 ≤ 4096 → rest.length + 1 < fuel →
    Consumes .eof bound (lineLoop fuel data) (rest ++ [lf]) (data ++ (rest ++ [lf])) := by
  have hopen : ∀ {data : Bytes}, lf ∉ data → ¬ data.getLast? = some lf := by
    intro data hdata h
    exact hdata (List.mem_of_getLast? h)
  intro rest
  induction rest with
  | nil =>
    intro fuel data _ hdata hlen hfuel
    obtain ⟨k, rfl⟩ : ∃ k, fuel = k + 2 := ⟨fuel - 2, by simp at hfuel; omega⟩
    rw [lineLoop, if_neg (hopen hdata)]
    refine (exact_consumes (rfl : [lf].length = 1)).bind_end (.bind_nil (raiseIf_consumes ?_ _) ?_)
    · simp at hlen ⊢
      omega
    · rw [lineLoop, if_pos (by simp)]
      exact .pure _
  | cons b rest ih =>
    intro fuel data hrest hdata hlen hfuel
    obtain ⟨k, rfl⟩ : ∃ k, fuel = k + 1 := ⟨fuel - 1, by omega⟩
    rw [lineLoop, if_neg (hopen hdata)]
    have hb : b ≠ lf := fun h => hrest (h ▸ List.mem_cons_self)
    have hih := ih k (data ++ [b]) (fun h => hrest (List.mem_cons_of_mem b h))
      (by simp [hdata, hb.symm]) (by simp at hlen ⊢; omega) (by simp at hfuel; omega)
    rw [List.append_assoc] at hih
    refine (exact_consumes (rfl : [b].length = 1)).bind (.bind_nil (raiseIf_consumes ?_ _) hih)
    simp at hlen ⊢
    omega

/-! ## Text -/

theorem strip_append_left {α : Type} {p : α → Bool} {l : List α} (h : ∀ a ∈ l, p a = true)
    (l' : List α) : strip p (l ++ l') = strip p l' := by
  rw [strip, strip, List.dropWhile_append_of_pos h]

theorem strip_append_right {α : Type} {p : α → Bool} {l' : List α} (h : ∀ a ∈ l', p a = true)
    (l : List α) : strip p (l ++ l') = strip p l := by
  have hrev : ∀ a ∈ l'.reverse, p a = true := fun a ha => h a (List.mem_reverse.mp ha)
  rw [strip, strip, List.dropWhile_append]
  split_ifs with hl
  · rw [List.isEmpty_iff.mp hl, List.dropWhile_eq_nil_iff.mpr h]
  · rw [List.reverse_append, List.dropWhile_append_of_pos hrev]

theorem strip_eq_nil {α : Type} {p : α → Bool} {l : List α} :
    strip p l = [] ↔ ∀ a ∈ l, p a = true := by
  rw [strip, List.reverse_eq_nil_iff, List.dropWhile_eq_nil_iff]
  constructor
  · intro h
    refine List.dropWhile_eq_nil_iff.mp ?_
    by_contra hne
    -- the first item that is left is none that is stripped
    have hhead := List.head_dropWhile_not p hne
    rw [h _ (List.mem_reverse.mpr (List.head_mem hne))] at hhead
    cases hhead
  · intro h
    rw [List.dropWhile_eq_nil_iff.mpr h]
    simp

/-- The line ends before a text reply: whole blank lines, then CR bytes only. -/
theorem ends_cases {left : Bytes} (h : ∀ b ∈ left, b = cr ∨ b = lf) :
    (∀ b ∈ left, b = cr) ∨
      ∃ blank rest, left = blank ++ lf :: rest ∧ (∀ b ∈ blank, b = cr) := by
  induction left with
  | nil => exact .inl (by simp)
  | cons b left ih =>
    rcases h b List.mem_cons_self with rfl | rfl
    · rcases ih fun c hc => h c (List.mem_cons_of_mem _ hc) with hall | ⟨blank, rest, rfl, hb⟩
      · exact .inl (by simpa using hall)
      · exact .inr ⟨cr :: blank, rest, rfl, by simpa using hb⟩
    · exact .inr ⟨[], left, rfl, by simp⟩

theorem LinesFit.line {blank : Bytes} (hb : lf ∉ blank) : ∀ {n : ℕ} {rest : Bytes},
    LinesFit n (blank ++ lf :: rest) → n + blank.length + 1 ≤ 4096 ∧ LinesFit 0 rest := by
  induction blank with
  | nil =>
    intro n rest h
    simpa [LinesFit] using h
  | cons b blank ih =>
    intro n rest h
    have hne : b ≠ lf := fun hlf => hb (hlf ▸ List.mem_cons_self)
    rw [List.cons_append, LinesFit, if_neg hne] at h
    obtain ⟨hlen, hrest⟩ := ih (fun hlf => hb (List.mem_cons_of_mem b hlf)) h.2
    rw [List.length_cons]
    exact ⟨by omega, hrest⟩

theorem decodeAscii_consumes {data : Bytes} (h : ∀ b ∈ data, b < 0x80) :
    Consumes .eof bound (decodeAscii data) [] (chars data) := by
  rw [decodeAscii, if_pos (by simpa using h)]
  exact .pure _

theorem isSpace_cr : isSpace (Char.ofNat cr.toNat) = true := by decide

theorem isSpace_lf : isSpace (Char.ofNat lf.toNat) = true := by decide

/-- The line ends around a reply are stripped. -/
theorem strip_line {left body : Bytes} (h : ∀ b ∈ left, b = cr) :
    strip isSpace (chars (left ++ (body ++ [lf]))) = strip isSpace (chars body) := by
  rw [chars, chars, List.map_append, List.map_append, strip_append_left, strip_append_right]
  · simp [isSpace_lf]
  · intro c hc
    obtain ⟨b, hb, rfl⟩ := List.mem_map.mp hc
    rw [h b hb]
    exact isSpace_cr

/-- Whatever precedes it, the line of a reply is one that is returned. -/
theorem returned_line (line : Line) {left : Bytes} (hall : ∀ b ∈ left, b = cr)
    (hlen : (left ++ line.body).length + 1 ≤ 4096) (fuel : ℕ) :
    Consumes .eof bound (textLoop (fuel + 1)) (left ++ line.body ++ [lf])
      (strip isSpace (chars line.body)) := by
  have hno : lf ∉ left ++ line.body := by
    intro hmem
    rcases List.mem_append.mp hmem with hmem | hmem
    · exact absurd (hall lf hmem) (by decide)
    · exact line.one hmem
  have hascii : ∀ b ∈ left ++ line.body ++ [lf], b < 0x80 := by
    intro b hb
    rcases List.mem_append.mp hb with hb | hb
    · rcases List.mem_append.mp hb with hb | hb
      · rw [hall b hb]
        decide
      · exact line.ascii b hb
    · rw [List.mem_singleton.mp hb]
      decide
  have hshown : strip isBlank (left ++ line.body ++ [lf]) ≠ [] := by
    obtain ⟨b, hb, hblank⟩ := line.shown
    intro hnil
    have := strip_eq_nil.mp hnil b (by simp [hb])
    rw [hblank] at this
    cases this
  have hread : Consumes .eof bound (lineLoop 4098 []) (left ++ line.body ++ [lf])
      (left ++ line.body ++ [lf]) :=
    lineLoop_consumes (left ++ line.body) 4098 [] hno (by simp) (by simpa using hlen) (by omega)
  rw [textLoop]
  refine hread.bind_end ?_
  rw [if_neg hshown, ← strip_line hall, ← List.append_assoc]
  exact (decodeAscii_consumes hascii).bind_nil (.pure _)

theorem textLoop_consumes (line : Line) : ∀ (fuel : ℕ) (left : Bytes),
    (∀ b ∈ left, b = cr ∨ b = lf) → LinesFit 0 (left ++ (line.body ++ [lf])) →
    Consumes .eof fuel (textLoop fuel) (left ++ (line.body ++ [lf]))
      (strip isSpace (chars line.body)) := by
  intro fuel
  induction fuel with
  | zero => exact fun _ _ _ => .zero _ _ _
  | succ fuel ih =>
    intro left hleft hfit
    rcases ends_cases hleft with hall | ⟨blank, rest, rfl, hblank⟩
    · have hno : lf ∉ left ++ line.body := by
        intro hmem
        rcases List.mem_append.mp hmem with hmem | hmem
        · exact absurd (hall lf hmem) (by decide)
        · exact line.one hmem
      rw [← List.append_assoc] at hfit ⊢
      obtain ⟨hlen, -⟩ := LinesFit.line hno hfit
      exact returned_line line hall (by omega) fuel
    · -- a blank line, and then as before
      have hno : lf ∉ blank := fun hmem => absurd (hblank lf hmem) (by decide)
      rw [List.append_assoc, List.cons_append] at hfit
      obtain ⟨hlen, hrest⟩ := LinesFit.line hno hfit
      have hskip : strip isBlank (blank ++ [lf]) = [] := by
        refine strip_eq_nil.mpr fun b hb => ?_
        rcases List.mem_append.mp hb with hb | hb
        · rw [hblank b hb]
          decide
        · rw [List.mem_singleton.mp hb]
          decide
      have hread : Consumes .eof (fuel + 1) (lineLoop 4098 []) (blank ++ [lf]) (blank ++ [lf]) :=
        lineLoop_consumes blank 4098 [] hno (by simp) (by simpa using hlen) (by omega)
      have hitems : blank ++ lf :: rest ++ (line.body ++ [lf]) =
          (blank ++ [lf]) ++ (rest ++ (line.body ++ [lf])) := by simp
      rw [textLoop, hitems]
      have hbound : fuel + 1 ≤ fuel + (blank ++ [lf]).length := by simp
      refine hread.bind_of_le hbound ?_
      rw [if_pos hskip]
      exact ih rest (fun b hb => hleft b (by simp [hb])) hrest

/-! ## Blocks -/

theorem prefixLoop_consumes : ∀ (fuel : ℕ) (left : Bytes), (∀ b ∈ left, b = cr ∨ b = lf) →
    Consumes .eof fuel (prefixLoop fuel) (left ++ [0x23]) () := by
  intro fuel
  induction fuel with
  | zero => exact fun _ _ => .zero _ _ _
  | succ fuel ih =>
    intro left hleft
    rw [prefixLoop]
    cases left with
    | nil =>
      rw [List.nil_append]
      refine (exact_consumes (rfl : [0x23].length = 1)).bind_end ?_
      rw [if_pos rfl]
      exact .pure ()
    | cons b left =>
      have hb := hleft b List.mem_cons_self
      have hbound : fuel + 1 ≤ fuel + [b].length := le_rfl
      rw [show b :: left ++ [0x23] = [b] ++ (left ++ [0x23]) from rfl]
      refine (exact_consumes (rfl : [b].length = 1)).bind_of_le hbound ?_
      have hhash : ¬ [b] = [0x23] := by
        rcases hb with rfl | rfl <;> decide
      have hend : [b] = [cr] ∨ [b] = [lf] := hb.imp (congrArg fun c => [c]) (congrArg fun c => [c])
      rw [if_neg hhash, if_pos hend]
      exact ih left fun c hc => hleft c (List.mem_cons_of_mem _ hc)

theorem parseDigits_decimals : ∀ {digits : Bytes}, (∀ b ∈ digits, isDigit b = true) →
    ∀ (n : ℕ) (digit : Bool), (digits = [] → digit = true) →
    parseDigits n digit digits =
      some (digits.foldl (fun n b => 10 * n + (b.toNat - 0x30)) n) := by
  intro digits
  induction digits with
  | nil =>
    intro _ n digit hd
    rw [parseDigits, hd rfl]
    rfl
  | cons b digits ih =>
    intro h n digit _
    rw [parseDigits, if_pos (h b List.mem_cons_self), List.foldl_cons]
    exact ih (fun c hc => h c (List.mem_cons_of_mem _ hc)) _ true fun _ => rfl

theorem not_blank_of_digit {b : UInt8} (h : isDigit b = true) :
    isBlank b = false ∧ b ≠ 0x2d ∧ b ≠ 0x2b := by
  have hle : 0x30 ≤ b := by
    simp only [isDigit, Bool.and_eq_true, decide_eq_true_eq] at h
    exact h.1
  have hlt : ∀ c : UInt8, c < 0x30 → b ≠ c := by
    rintro c hc rfl
    exact absurd hle (by simpa using hc)
  refine ⟨?_, hlt _ (by decide), hlt _ (by decide)⟩
  simp [isBlank, hlt _ (show (0x20 : UInt8) < 0x30 by decide),
    hlt _ (show (0x09 : UInt8) < 0x30 by decide), hlt _ (show (0x0a : UInt8) < 0x30 by decide),
    hlt _ (show (0x0d : UInt8) < 0x30 by decide), hlt _ (show (0x0b : UInt8) < 0x30 by decide),
    hlt _ (show (0x0c : UInt8) < 0x30 by decide)]

theorem strip_eq_self {α : Type} {p : α → Bool} {l : List α} (h : ∀ a ∈ l, p a = false) :
    strip p l = l := by
  have hdrop : ∀ l : List α, (∀ a ∈ l, p a = false) → l.dropWhile p = l := by
    intro l hl
    cases l with
    | nil => rfl
    | cons a l => rw [List.dropWhile_cons_of_neg (by simp [hl a List.mem_cons_self])]
  rw [strip, hdrop l h, hdrop _ fun a ha => h a (List.mem_reverse.mp ha), List.reverse_reverse]

/-- A literal of digits only has its decimal value. -/
theorem int_consumes {digits : Bytes} (hne : digits ≠ []) (h : ∀ b ∈ digits, isDigit b = true) :
    Consumes .eof bound (int digits) [] (decimal digits : ℤ) := by
  have hparse : parseInt digits = some (decimal digits : ℤ) := by
    rw [parseInt, strip_eq_self fun b hb => (not_blank_of_digit (h b hb)).1]
    obtain ⟨b, rest, rfl⟩ := List.exists_cons_of_ne_nil hne
    obtain ⟨-, hminus, hplus⟩ := not_blank_of_digit (h b List.mem_cons_self)
    split
    · next heq => exact absurd (List.cons.inj heq).1 hminus
    · next heq => exact absurd (List.cons.inj heq).1 hplus
    · rw [parseDigits_decimals h 0 false (by simp), Option.map_some]
      rfl
  rw [int, hparse]
  exact .pure _

theorem toNat_digit {n : ℕ} (h : n ≤ 9) : (UInt8.ofNat (0x30 + n)).toNat = 0x30 + n := by
  rw [UInt8.toNat_ofNat']
  omega

theorem isDigit_digit {n : ℕ} (h : n ≤ 9) : isDigit (UInt8.ofNat (0x30 + n)) = true := by
  have := toNat_digit h
  simp only [isDigit, Bool.and_eq_true, decide_eq_true_eq, UInt8.le_iff_toNat_le, this]
  exact ⟨Nat.le_add_right _ _, by simp; omega⟩

theorem block_consumes (b : Block) :
    Consumes .eof bound block
      (UInt8.ofNat (0x30 + b.digits.length) :: b.digits ++ b.payload) b.payload := by
  obtain ⟨hone, hnine⟩ := b.digits_len
  have hcount : decimal [UInt8.ofNat (0x30 + b.digits.length)] = b.digits.length := by
    simp only [decimal, List.foldl_cons, List.foldl_nil, toNat_digit hnine]
    omega
  have hdigit : Consumes .eof bound (int [UInt8.ofNat (0x30 + b.digits.length)]) []
      (b.digits.length : ℤ) := by
    have h : Consumes .eof bound (int [UInt8.ofNat (0x30 + b.digits.length)]) [] _ :=
      int_consumes (List.cons_ne_nil _ []) fun c hc => by
        rw [List.mem_singleton.mp hc]
        exact isDigit_digit hnine
    rwa [hcount] at h
  have hlength : Consumes .eof bound (int b.digits) [] (b.payload.length : ℤ) := by
    rw [← b.length]
    exact int_consumes (List.ne_nil_of_length_pos hone) b.decimals
  have hfirst : Consumes .eof bound (exact 1) [UInt8.ofNat (0x30 + b.digits.length)] _ :=
    exact_consumes rfl
  have hsecond : Consumes .eof bound (exact (b.digits.length : ℤ).toNat) b.digits b.digits :=
    exact_consumes (by simp)
  have hthird : Consumes .eof bound (exact (b.payload.length : ℤ).toNat) b.payload b.payload :=
    exact_consumes (by simp)
  have hle := b.payload_le
  refine hfirst.bind (hdigit.bind_nil (.bind_nil (raiseIf_consumes ?_ _) (hsecond.bind
    (hlength.bind_nil (.bind_nil (raiseIf_consumes ?_ _) hthird)))))
  · simp
    omega
  · simp
    omega

end

/-! ## Sessions -/

/-- What is returned where `n` bytes are delivered and the next reply begins at `start`. -/
def answers (n : ℕ) : ℕ → List Reply → List (Except PyError Value)
  | _, [] => []
  | start, r :: rs =>
    (if start + r.core.length ≤ n then .ok r.value else .error .eof) ::
      answers n (start + r.wire.length) rs

theorem query_eq {command : Command} {c : Connection} {r : Except PyError (List Char)}
    {s : Fragments UInt8} (h : textLoop (rounds (send command c)) c.incoming = (r, s)) :
    query command c = (r, { send command c with incoming := s }) := by
  rw [query]
  simp only [send] at h ⊢
  rw [h]

theorem binary_eq {command : Command} {c : Connection} {r : Except PyError Bytes}
    {s : Fragments UInt8}
    (h : (prefixLoop (rounds (send command c)) >>= fun _ => block) c.incoming = (r, s)) :
    binary command c = (r, { send command c with incoming := s }) := by
  rw [binary]
  simp only [send] at h ⊢
  rw [h]

/-- A call reads the line ends that are left and its own reply. -/
theorem call_answer {r : Reply} {rs : List Reply} {left : Bytes} (c : Connection)
    (hleft : ∀ b ∈ left, b = cr ∨ b = lf) (hfit : Fits left (r :: rs)) :
    (∀ rest, c.incoming.contents = left ++ r.core ++ rest →
      (call c r.call).1 = .ok r.value ∧ (call c r.call).2.incoming.contents = rest) ∧
    (c.incoming.contents <+: left ++ r.core → c.incoming.contents ≠ left ++ r.core →
      (call c r.call).1 = .error .eof ∧ (call c r.call).2.incoming.contents = []) := by
  cases r with
  | text command line =>
    have hread := textLoop_consumes line (rounds (send command c)) left hleft hfit.1
    constructor
    · intro rest h
      obtain ⟨s', hs', hc'⟩ := hread.whole c.incoming rest h (Nat.lt_succ_self _)
      simp only [Reply.call, call, query_eq hs']
      exact ⟨rfl, hc'⟩
    · intro hp hne
      obtain ⟨s', hs', hc'⟩ := hread.part c.incoming hp hne (Nat.lt_succ_self _)
      simp only [Reply.call, call, query_eq hs']
      exact ⟨rfl, hc'⟩
  | block command b =>
    have hread : Consumes .eof (rounds (send command c))
        (prefixLoop (rounds (send command c)) >>= fun _ => block) _ b.payload :=
      (prefixLoop_consumes (rounds (send command c)) left hleft).bind (g := fun _ => block)
        (block_consumes b)
    have hitems : left ++ [0x23] ++
        (UInt8.ofNat (0x30 + b.digits.length) :: b.digits ++ b.payload) =
          left ++ (Reply.block command b).core := by
      simp [Reply.core]
    rw [hitems] at hread
    constructor
    · intro rest h
      obtain ⟨s', hs', hc'⟩ := hread.whole c.incoming rest h (Nat.lt_succ_self _)
      simp only [Reply.call, call, binary_eq hs']
      exact ⟨rfl, hc'⟩
    · intro hp hne
      obtain ⟨s', hs', hc'⟩ := hread.part c.incoming hp hne (Nat.lt_succ_self _)
      simp only [Reply.call, call, binary_eq hs']
      exact ⟨rfl, hc'⟩

theorem Reply.core_ne_nil (r : Reply) : r.core ≠ [] := by
  cases r <;> simp [Reply.core]

theorem Reply.trailing_ends (r : Reply) : ∀ b ∈ r.trailing, b = cr ∨ b = lf := by
  cases r with
  | text command line => exact fun b hb => by cases hb
  | block command b => exact b.ends

theorem Fits.tail {left : Bytes} {r : Reply} {rs : List Reply} (h : Fits left (r :: rs)) :
    Fits r.trailing rs := by
  cases r with
  | text command line => exact h.2
  | block command b => exact h

/-- The replies are read one after the other, as far as the stream goes; behind its end there is
nothing. -/
theorem session_eq (n : ℕ) : ∀ (rs : List Reply) (left : Bytes) (start : ℕ) (c : Connection),
    (∀ b ∈ left, b = cr ∨ b = lf) → Fits left rs →
    c.incoming.contents <+: left ++ (rs.map Reply.wire).flatten →
    c.incoming.contents.length + start = n + left.length ∨
      c.incoming.contents = [] ∧ n ≤ start →
    session (rs.map Reply.call) c = answers n start rs := by
  intro rs
  induction rs with
  | nil => exact fun _ _ _ _ _ _ _ => rfl
  | cons r rs ih =>
    intro left start c hleft hfit hpre hn
    have hpos := List.length_pos_iff.mpr r.core_ne_nil
    obtain ⟨hwhole, hpart⟩ := call_answer c hleft hfit
    have hsplit : left ++ ((r :: rs).map Reply.wire).flatten =
        (left ++ r.core) ++ (r.trailing ++ (rs.map Reply.wire).flatten) := by
      simp [Reply.wire]
    rw [hsplit] at hpre
    rw [List.map_cons, session, answers]
    by_cases hle : start + r.core.length ≤ n
    · -- the reply is complete
      have hlen : c.incoming.contents.length + start = n + left.length := by
        rcases hn with hn | ⟨-, hn⟩ <;> omega
      obtain ⟨rest, hrest⟩ := List.prefix_of_prefix_length_le (List.prefix_append _ _) hpre
        (by rw [List.length_append]; omega)
      obtain ⟨hval, hnext⟩ := hwhole rest hrest.symm
      rw [if_pos hle, hval]
      congr 1
      refine ih r.trailing _ _ r.trailing_ends hfit.tail ?_ (.inl ?_)
      · rw [hnext]
        rw [← hrest] at hpre
        exact (List.prefix_append_right_inj _).mp hpre
      · have := congrArg List.length hrest
        rw [List.length_append, List.length_append] at this
        rw [hnext, Reply.wire, List.length_append]
        omega
    · have hlt : c.incoming.contents.length < (left ++ r.core).length := by
        rw [List.length_append]
        rcases hn with hn | ⟨hn, -⟩
        · omega
        · rw [hn, List.length_nil]
          omega
      have hstarved := hpart (List.prefix_of_prefix_length_le hpre (List.prefix_append _ _) hlt.le)
        fun heq => absurd (congrArg List.length heq) hlt.ne
      rw [if_neg hle, hstarved.1]
      congr 1
      refine ih r.trailing _ _ r.trailing_ends hfit.tail ?_ (.inr ⟨hstarved.2, ?_⟩)
      · rw [hstarved.2]
        exact List.nil_prefix
      · rw [Reply.wire, List.length_append]
        omega

/-- A stream that holds all replies. -/
theorem answers_all (n : ℕ) : ∀ (rs : List Reply) (start : ℕ),
    start + (rs.map Reply.wire).flatten.length ≤ n →
    answers n start rs = rs.map fun r => .ok r.value := by
  intro rs
  induction rs with
  | nil => exact fun _ _ => rfl
  | cons r rs ih =>
    intro start h
    rw [List.map_cons, List.flatten_cons, List.length_append, Reply.wire, List.length_append] at h
    rw [answers, if_pos (by omega), ih _ (by rw [Reply.wire, List.length_append]; omega),
      List.map_cons]

/-- Every call returns its own reply, or raises `EOFError` if the stream ends before the reply is
complete, in any fragmentation. -/
theorem session_answers (rs : List Reply) (c : Connection) (hfit : Fits [] rs)
    (hpre : c.incoming.contents <+: (rs.map Reply.wire).flatten) :
    session (rs.map Reply.call) c = answers c.incoming.contents.length 0 rs ∧
      (c.incoming.contents = (rs.map Reply.wire).flatten →
        session (rs.map Reply.call) c = rs.map fun r => .ok r.value) := by
  have h := session_eq c.incoming.contents.length rs [] 0 c (fun b hb => by cases hb) hfit hpre
    (.inl rfl)
  refine ⟨h, fun hall => ?_⟩
  rw [h]
  exact answers_all _ rs 0 (by rw [hall, Nat.zero_add])

/-! ### Streams -/

def status : Command := ⟨['S', 'T', 'A', 'T', 'E', '?'], by simp⟩

def wave : Command := ⟨['W', 'A', 'V', 'E', '?'], by simp⟩

/-- A payload with an LF and a `#` in it, and a line end behind the block. -/
def waveBlock : Block where
  digits := [0x34]
  payload := [0x00, 0x0a, 0xff, 0x23]
  trailing := [lf]
  digits_len := by decide
  decimals := by simp [isDigit]
  length := by decide
  payload_le := by decide
  ends := by simp

def stopLine : Line where
  body := [0x53, 0x74, 0x6f, 0x70]
  one := by decide
  shown := ⟨0x53, by decide, by decide⟩
  ascii := by simp

/-- The block in pieces, then half of the text. -/
def fragmented : Connection where
  incoming := ⟨[[0x23], [0x31], [0x34, 0x00], [0x0a], [0xff, 0x23, lf], [0x53, 0x74]], by decide⟩
  sent := []

def exchange : List Reply := [.block wave waveBlock, .text status stopLine]

theorem session_answers_fragmented :
    session (exchange.map Reply.call) fragmented = answers 10 0 exchange ∧
      (fragmented.incoming.contents = (exchange.map Reply.wire).flatten →
        session (exchange.map Reply.call) fragmented = exchange.map fun r => .ok r.value) :=
  session_answers exchange fragmented ⟨by simp [LinesFit, waveBlock, stopLine, lf], trivial⟩
    (by decide)

/-- A line that does not end within 4096 bytes is refused. -/
theorem lineLoop_oversized : ∀ (rest more data : Bytes) (fuel : ℕ) (s : Fragments UInt8),
    lf ∉ rest → lf ∉ data → data.length ≤ 4096 → 4096 < data.length + rest.length →
    4097 < data.length + fuel → s.contents = rest ++ more →
    ∃ s', lineLoop fuel data s = (.error (.value "oversized text reply"), s') := by
  intro rest
  induction rest with
  | nil =>
    intro more data fuel s _ _ hle hlt
    simp at hlt
    omega
  | cons b rest ih =>
    intro more data fuel s hrest hdata hle hlt hfuel hs
    obtain ⟨k, rfl⟩ : ∃ k, fuel = k + 1 := ⟨fuel - 1, by omega⟩
    have hopen : ¬ data.getLast? = some lf := fun h => hdata (List.mem_of_getLast? h)
    have hb : b ≠ lf := fun h => hrest (h ▸ List.mem_cons_self)
    have hread : Consumes .eof (s.contents.length + 1) (exact 1) [b] [b] := exact_consumes rfl
    obtain ⟨s', hs', hc'⟩ := hread.whole s (rest ++ more) hs (Nat.lt_succ_self _)
    rw [lineLoop, if_neg hopen, Reading.run_bind, hs']
    dsimp only
    rw [Reading.run_bind]
    by_cases hover : 4096 < (data ++ [b]).length
    · rw [raiseIf, if_pos (by simpa using hover)]
      exact ⟨s', rfl⟩
    · rw [raiseIf, if_neg (by simpa using hover)]
      rw [List.length_append, List.length_singleton] at hover
      exact ih more (data ++ [b]) k s' (fun h => hrest (List.mem_cons_of_mem b h))
        (by simp [hdata, hb.symm]) (by simp; omega) (by simp at hlt ⊢; omega) (by simp; omega) hc'

/-- An empty block with `n` CR bytes behind it. -/
def endedBlock (n : ℕ) : Block where
  digits := [0x30]
  payload := []
  trailing := List.replicate n cr
  digits_len := by decide
  decimals := by simp [isDigit]
  length := by decide
  payload_le := by decide
  ends := fun b hb => .inl (List.eq_of_mem_replicate hb)

theorem query_oversized (command : Command) {c : Connection} {rest more : Bytes}
    (h : c.incoming.contents = rest ++ more) (hrest : lf ∉ rest) (hlen : 4096 < rest.length) :
    (query command c).1 = .error (.value "oversized text reply") := by
  obtain ⟨s', hs'⟩ := lineLoop_oversized rest more [] 4098 c.incoming hrest (by simp) (by simp)
    (by simpa using hlen) (by decide) h
  have hloop : textLoop (rounds (send command c)) c.incoming =
      (.error (.value "oversized text reply"), s') := by
    rw [rounds, textLoop, Reading.run_bind, hs']
  rw [query_eq hloop]

/-- A text behind so many CR bytes is refused, although it is short itself. -/
theorem session_refused {n : ℕ} (hn : 4096 ≤ n) {c : Connection}
    (hc : c.incoming.contents =
      (Reply.block wave (endedBlock n)).wire ++ (Reply.text status stopLine).wire) :
    session [.binary wave, .query status] c =
      [.ok (.payload []), .error (.value "oversized text reply")] := by
  have hcontents : c.incoming.contents = [] ++ (Reply.block wave (endedBlock n)).core ++
      ((List.replicate n cr ++ [0x53]) ++ [0x74, 0x6f, 0x70, lf]) := by
    rw [hc]
    simp [Reply.wire, Reply.core, Reply.trailing, endedBlock, stopLine]
  have hfit : Fits [] [.block wave (endedBlock n)] := trivial
  obtain ⟨hval, hrest⟩ := (call_answer c (fun b hb => by cases hb) hfit).1 _ hcontents
  have hno : lf ∉ List.replicate n cr ++ [0x53] := by
    intro hmem
    rcases List.mem_append.mp hmem with hmem | hmem
    · exact absurd (List.eq_of_mem_replicate hmem) (by decide)
    · exact absurd (List.mem_singleton.mp hmem) (by decide)
  have hquery := query_oversized status hrest hno
    (by rw [List.length_append, List.length_replicate]; exact Nat.lt_succ_of_le hn)
  have hcall : (call (call c (Reply.block wave (endedBlock n)).call).2 (.query status)).1 =
      .error (.value "oversized text reply") := by
    rw [call, hquery]
    rfl
  change [(call c (Reply.block wave (endedBlock n)).call).1,
    (call (call c (Reply.block wave (endedBlock n)).call).2 (.query status)).1] = _
  rw [hval, hcall]
  rfl

/-- A text that is not ASCII, and one behind 4096 CR bytes, are not returned. -/
theorem not_session_answers :
    session [.query status] ⟨⟨[[0xc3, 0xa9, lf]], by decide⟩, []⟩ = [.error .unicodeDecode] ∧
      ∀ c : Connection, c.incoming.contents =
          (Reply.block wave (endedBlock 4096)).wire ++ (Reply.text status stopLine).wire →
        session [.binary wave, .query status] c =
          [.ok (.payload []), .error (.value "oversized text reply")] :=
  ⟨by decide +kernel, fun _ hc => session_refused le_rfl hc⟩

end BscTarget.Scpi
