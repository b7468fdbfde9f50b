import BscTarget.Driver.Code

/-!
# The bus between register accesses, and the driver's loops

What `tick` can change, and that the fuel of the drain and refill loops suffices: the drain ends
with an empty RX FIFO, and both satisfy the equation of the C loop they stand for.
-/

namespace BscTarget

namespace Sys

/-! ## The bus -/

/-- What one bus event can do. -/
theorem bus_cases (s : Sys) (e : HwEvent) :
    (∃ on, e = .busy on ∧ s.bus e = { s with hw.rxBusy := on, log := .busy on :: s.log }) ∨
    (∃ b, e = .byte b ∧ s.hw.rxFifo.length < bscFifoSize ∧
      s.bus e = { s with hw.rxFifo := s.hw.rxFifo ++ [b], log := .arrived b :: s.log }) ∨
    (∃ b, e = .byte b ∧
      s.bus e = { s with hw.rsr := s.hw.rsr ||| rsrOe, log := .lost b :: s.log }) ∨
    (∃ b, e = .clock ∧ s.hw.tx.serializer = some b ∧
      s.bus e = { s with hw.tx := s.hw.tx.shift, log := .clocked b :: s.log }) ∨
    (e = .clock ∧ s.hw.tx.serializer = none ∧
      s.bus e = { s with hw.rsr := s.hw.rsr ||| rsrUe, log := .underrun :: s.log }) := by
  cases e with
  | busy on => exact .inl ⟨on, rfl, rfl⟩
  | byte b =>
    by_cases h : s.hw.rxFifo.length < bscFifoSize
    · exact .inr (.inl ⟨b, rfl, h, by rw [bus, if_pos h]⟩)
    · exact .inr (.inr (.inl ⟨b, rfl, by rw [bus, if_neg h]⟩))
  | clock =>
    rcases h : s.hw.tx.serializer with _ | b
    · exact .inr (.inr (.inr (.inr ⟨rfl, rfl, by simp only [bus, h]⟩)))
    · exact .inr (.inr (.inr (.inl ⟨b, rfl, rfl, by simp only [bus, h]⟩)))

@[simp] theorem bus_bsc (s : Sys) (e : HwEvent) : (s.bus e).bsc = s.bsc := by
  rcases bus_cases s e with ⟨_, _, h⟩ | ⟨_, _, _, h⟩ | ⟨_, _, h⟩ | ⟨_, _, _, h⟩ | ⟨_, _, h⟩ <;>
    rw [h]

@[simp] theorem bus_env (s : Sys) (e : HwEvent) : (s.bus e).env = s.env := by
  rcases bus_cases s e with ⟨_, _, h⟩ | ⟨_, _, _, h⟩ | ⟨_, _, h⟩ | ⟨_, _, _, h⟩ | ⟨_, _, h⟩ <;>
    rw [h]

theorem bus_with_bsc (s : Sys) (b : Bsc) (e : HwEvent) :
    ({ s with bsc := b }).bus e = { s.bus e with bsc := b } := by
  cases e with
  | busy on => rfl
  | byte c => simp only [bus]; split_ifs <;> rfl
  | clock => simp only [bus]; split <;> rfl

theorem rxFifo_bus (s : Sys) (e : HwEvent) :
    (s.bus e).hw.rxFifo = s.hw.rxFifo ∨ ∃ b, (s.bus e).hw.rxFifo = s.hw.rxFifo ++ [b] := by
  rcases bus_cases s e with ⟨_, _, h⟩ | ⟨b, _, _, h⟩ | ⟨_, _, h⟩ | ⟨_, _, _, h⟩ | ⟨_, _, h⟩ <;>
    rw [h]
  · exact .inl rfl
  · exact .inr ⟨b, rfl⟩
  all_goals exact .inl rfl

theorem tx_bus (s : Sys) (e : HwEvent) :
    (s.bus e).hw.tx = s.hw.tx ∨ (s.bus e).hw.tx = s.hw.tx.shift := by
  rcases bus_cases s e with ⟨_, _, h⟩ | ⟨_, _, _, h⟩ | ⟨_, _, h⟩ | ⟨_, _, _, h⟩ | ⟨_, _, h⟩ <;>
    rw [h]
  · exact .inl rfl
  · exact .inl rfl
  · exact .inl rfl
  · exact .inr rfl
  · exact .inl rfl

/-! ## Batches and ticks -/

/-- A preorder that contains every bus event and every change of schedule contains a tick. -/
theorem tick_lift {R : Sys → Sys → Prop} (hrefl : ∀ s, R s s)
    (htrans : ∀ {s t u}, R s t → R t u → R s u) (henv : ∀ s env, R s { s with env := env })
    (hbus : ∀ s e, R s (s.bus e)) (s : Sys) : R s s.tick := by
  unfold tick
  split
  · exact hrefl s
  · next batch rest _ =>
    have key : ∀ (batch : List HwEvent) (s : Sys), R s (batch.foldl bus s) := by
      intro batch
      induction batch with
      | nil => exact hrefl
      | cons e batch ih => exact fun s => htrans (hbus s e) (ih (s.bus e))
    exact htrans (henv s rest) (key batch _)

theorem foldl_bus_env (batch : List HwEvent) (s : Sys) : (batch.foldl bus s).env = s.env := by
  induction batch generalizing s with
  | nil => rfl
  | cons e batch ih => rw [List.foldl_cons, ih, bus_env]

theorem foldl_bus_with_bsc (batch : List HwEvent) (s : Sys) (b : Bsc) :
    batch.foldl bus { s with bsc := b } = { batch.foldl bus s with bsc := b } := by
  induction batch generalizing s with
  | nil => rfl
  | cons e batch ih => rw [List.foldl_cons, List.foldl_cons, bus_with_bsc, ih]

@[simp] theorem tick_bsc (s : Sys) : s.tick.bsc = s.bsc :=
  tick_lift (R := fun s t => t.bsc = s.bsc) (fun _ => rfl) (fun h h' => h'.trans h)
    (fun _ _ => rfl) bus_bsc s

theorem tick_with_bsc (s : Sys) (b : Bsc) :
    ({ s with bsc := b }).tick = { s.tick with bsc := b } := by
  unfold tick
  dsimp only
  split
  · rfl
  · next batch rest _ => exact foldl_bus_with_bsc batch { s with env := rest } b

/-- The bus consumes its schedule: at most one byte arrives for each event taken from it. -/
theorem inbound_tick_le (s : Sys) : s.tick.inbound ≤ s.inbound := by
  unfold tick
  split
  · exact Nat.le_refl _
  · next batch rest henv =>
    have key : ∀ (batch : List HwEvent) (s : Sys),
        (batch.foldl bus s).hw.rxFifo.length ≤ s.hw.rxFifo.length + batch.length := by
      intro batch
      induction batch with
      | nil => intro s; exact Nat.le_refl _
      | cons e batch ih =>
        intro s
        have h₁ := ih (s.bus e)
        have h₂ : (s.bus e).hw.rxFifo.length ≤ s.hw.rxFifo.length + 1 := by
          rcases rxFifo_bus s e with h | ⟨b, h⟩ <;> simp [h]
        rw [List.foldl_cons, List.length_cons]
        omega
    have h := key batch { s with env := rest }
    unfold inbound
    rw [foldl_bus_env, henv, List.flatten_cons, List.length_append]
    dsimp only at h ⊢
    omega

theorem rxFifo_tick (s : Sys) : s.hw.rxFifo <+: s.tick.hw.rxFifo :=
  tick_lift (R := fun s t => s.hw.rxFifo <+: t.hw.rxFifo) (fun _ => List.prefix_refl _)
    List.IsPrefix.trans (fun _ _ => List.prefix_refl _)
    (fun s e => by rcases rxFifo_bus s e with h | ⟨b, h⟩ <;> simp [h]) s

theorem rxFifo_tick_ne_nil {s : Sys} (h : s.hw.rxFifo ≠ []) : s.tick.hw.rxFifo ≠ [] := by
  intro h'
  have hp := rxFifo_tick s
  rw [h'] at hp
  exact h (List.prefix_nil.mp hp)

theorem length_txFifo_tick (s : Sys) : s.tick.hw.tx.fifo.length ≤ s.hw.tx.fifo.length :=
  tick_lift (R := fun s t => t.hw.tx.fifo.length ≤ s.hw.tx.fifo.length) (fun _ => Nat.le_refl _)
    (fun h h' => h'.trans h) (fun _ _ => Nat.le_refl _)
    (fun s e => by rcases tx_bus s e with h | h <;> simp [h, TxSide.length_fifo_shift_le]) s

theorem length_held_tick (s : Sys) : s.tick.hw.tx.held.length ≤ s.hw.tx.held.length :=
  tick_lift (R := fun s t => t.hw.tx.held.length ≤ s.hw.tx.held.length) (fun _ => Nat.le_refl _)
    (fun h h' => h'.trans h) (fun _ _ => Nat.le_refl _)
    (fun s e => by rcases tx_bus s e with h | h <;> simp [h, TxSide.held_shift]) s

end Sys

@[simp] theorem bscWrite_bsc (reg : Reg) (value : UInt32) (s : Sys) :
    (bscWrite reg value s).bsc = s.bsc := Sys.tick_bsc s

@[simp] theorem bscSetReady_bsc (ready : Bool) (s : Sys) : (bscSetReady ready s).bsc = s.bsc := by
  unfold bscSetReady
  split_ifs <;> rfl

/-! ## The drain loop -/

/-- Draining a byte touches nothing of the peripheral but the RX FIFO. -/
theorem drainByte_hw (s : Sys) : (drainByte s).hw = { s.hw with rxFifo := s.hw.rxFifo.tail } := by
  unfold drainByte storeByte beginBurst
  dsimp only
  split_ifs <;> rfl

@[simp] theorem drainByte_rxFifo (s : Sys) : (drainByte s).hw.rxFifo = s.hw.rxFifo.tail := by
  rw [drainByte_hw]

@[simp] theorem drainByte_env (s : Sys) : (drainByte s).env = s.env := by
  unfold drainByte storeByte beginBurst
  dsimp only
  split_ifs <;> rfl

/-- Every byte drained leaves one less to come. -/
theorem inbound_drainByte_lt {s : Sys} (h : s.tick.hw.rxFifo ≠ []) :
    (drainByte s.tick.tick).inbound < s.inbound := by
  have h₁ := Sys.inbound_tick_le s
  have h₂ := Sys.inbound_tick_le s.tick
  have hpos := List.length_pos_iff.mpr (Sys.rxFifo_tick_ne_nil h)
  have hdec : (drainByte s.tick.tick).inbound + 1 = s.tick.tick.inbound := by
    unfold Sys.inbound
    rw [drainByte_rxFifo, drainByte_env, List.length_tail]
    omega
  omega

theorem rxfe_iff (h : Hw) : h.fr.rxfe = true ↔ h.rxFifo = [] := by simp [Hw.fr]

/-- The fuel does not matter once it exceeds the bytes to come. -/
theorem drainLoop_fuel : ∀ (n m : ℕ) (s : Sys), s.inbound < n → s.inbound < m →
    drainLoop n s = drainLoop m s := by
  intro n
  induction n with
  | zero => intro m s h; omega
  | succ n ih =>
    intro m s hn hm
    obtain ⟨m, rfl⟩ : ∃ k, m = k + 1 := ⟨m - 1, by omega⟩
    unfold drainLoop
    dsimp only
    split_ifs with hfe
    · rfl
    · have hlt := inbound_drainByte_lt (s := s) (fun h => hfe ((rxfe_iff _).mpr h))
      exact ih m _ (by omega) (by omega)

/-- `while (!(bsc_read(bsc, FR) & FR_RXFE))` -/
theorem bscDrainRxLocked_eq (s : Sys) :
    bscDrainRxLocked s =
      if s.tick.hw.fr.rxfe then s.tick else bscDrainRxLocked (drainByte s.tick.tick) := by
  conv_lhs => unfold bscDrainRxLocked drainLoop
  dsimp only
  split_ifs with hfe
  · rfl
  · have hlt := inbound_drainByte_lt (s := s) (fun h => hfe ((rxfe_iff _).mpr h))
    exact drainLoop_fuel _ _ _ hlt (Nat.lt_succ_self _)

/-- An induction along the drain loop. -/
theorem drain_induction {P : Sys → Sys → Prop}
    (done : ∀ s : Sys, s.tick.hw.rxFifo = [] → P s s.tick)
    (more : ∀ s : Sys, s.tick.hw.rxFifo ≠ [] → ∀ t, P (drainByte s.tick.tick) t → P s t)
    (s : Sys) : P s (bscDrainRxLocked s) := by
  induction hn : s.inbound using Nat.strong_induction_on generalizing s with
  | _ n ih =>
    rw [bscDrainRxLocked_eq]
    split_ifs with hfe
    · exact done s ((rxfe_iff _).mp hfe)
    · have hne : s.tick.hw.rxFifo ≠ [] := fun h => hfe ((rxfe_iff _).mpr h)
      exact more s hne _ (ih _ (hn ▸ inbound_drainByte_lt hne) _ rfl)

/-- The drain leaves an empty RX FIFO behind. -/
theorem rxFifo_bscDrainRxLocked (s : Sys) : (bscDrainRxLocked s).hw.rxFifo = [] :=
  drain_induction (P := fun _ t => t.hw.rxFifo = []) (fun _ h => h) (fun _ _ _ h => h) s

/-! ## The refill loop -/

@[simp] theorem loadByte_bsc (s : Sys) :
    (loadByte s).bsc = { s.bsc with txLoaded := s.bsc.txLoaded + 1 } := by
  unfold loadByte
  simp

/-- `while (tx_queued && tx_loaded < tx_len && !(bsc_read(bsc, FR) & FR_TXFF))` -/
theorem refillLoop_eq (s : Sys) :
    refillLoop (s.bsc.txLen - s.bsc.txLoaded) s =
      if s.bsc.txQueued = true ∧ s.bsc.txLoaded < s.bsc.txLen then
        if s.tick.hw.fr.txff then s.tick
        else refillLoop ((loadByte s.tick).bsc.txLen - (loadByte s.tick).bsc.txLoaded)
          (loadByte s.tick)
      else s := by
  split_ifs with hc hff
  · obtain ⟨n, hn⟩ : ∃ n, s.bsc.txLen - s.bsc.txLoaded = n + 1 :=
      ⟨s.bsc.txLen - s.bsc.txLoaded - 1, by omega⟩
    rw [hn]
    unfold refillLoop
    rw [if_pos hc, if_pos hff]
  · obtain ⟨n, hn⟩ : ∃ n, s.bsc.txLen - s.bsc.txLoaded = n + 1 :=
      ⟨s.bsc.txLen - s.bsc.txLoaded - 1, by omega⟩
    have hn' : (loadByte s.tick).bsc.txLen - (loadByte s.tick).bsc.txLoaded = n := by
      simp only [loadByte_bsc, Sys.tick_bsc]
      omega
    rw [hn, hn']
    conv_lhs => unfold refillLoop
    rw [if_pos hc]
    dsimp only
    rw [if_neg hff]
  · cases s.bsc.txLen - s.bsc.txLoaded with
    | zero => rfl
    | succ n =>
      unfold refillLoop
      rw [if_neg hc]

/-- An induction along the refill loop. -/
theorem refill_induction {P : Sys → Sys → Prop}
    (idle : ∀ s : Sys, ¬ (s.bsc.txQueued = true ∧ s.bsc.txLoaded < s.bsc.txLen) → P s s)
    (full : ∀ s : Sys, s.bsc.txQueued = true → s.bsc.txLoaded < s.bsc.txLen →
      s.tick.hw.tx.fifo.length = bscFifoSize → P s s.tick)
    (more : ∀ s : Sys, s.bsc.txQueued = true → s.bsc.txLoaded < s.bsc.txLen →
      s.tick.hw.tx.fifo.length < bscFifoSize → ∀ t, P (loadByte s.tick) t → P s t)
    (s : Sys) : P s (refillLoop (s.bsc.txLen - s.bsc.txLoaded) s) := by
  induction hn : s.bsc.txLen - s.bsc.txLoaded using Nat.strong_induction_on generalizing s with
  | _ n ih =>
    rw [← hn, refillLoop_eq]
    split_ifs with hc hff
    · exact full s hc.1 hc.2 (by simpa [Hw.fr] using hff)
    · have hlt : s.tick.hw.tx.fifo.length < bscFifoSize :=
        Nat.lt_of_le_of_ne s.tick.hw.tx.fifo_le (by simpa [Hw.fr] using hff)
      refine more s hc.1 hc.2 hlt _ (ih _ ?_ _ rfl)
      simp only [loadByte_bsc, Sys.tick_bsc]
      omega
    · exact idle s hc

end BscTarget
