import Mathlib.Data.List.Basic
import Mathlib.Data.Nat.Bitwise
import BscTarget.Driver.State

/-!
# Write vectors

The file format that `generate-vectors.py` writes and `controller.c` reads: each vector behind its
length in four bytes, the lowest first. A reader takes the vectors of any file one by one, and
those of a packed list are the list (`nextVector_pack`, `packs_unique`).
-/

namespace BscTarget

/-! ## Writing -/

/-- `struct.pack('<I', n)` -/
def packLength (n : ℕ) : Bytes :=
  [UInt8.ofNat n, UInt8.ofNat (n / 2 ^ 8), UInt8.ofNat (n / 2 ^ 16), UInt8.ofNat (n / 2 ^ 24)]

def pack (v : Bytes) : Bytes := packLength v.length ++ v

/-- What `main` writes of its frames. -/
def packs (vs : List Bytes) : Bytes := (vs.map pack).flatten

/-! ## Reading -/

/-- The size of `data` in `controller.c`. -/
def dataSize : ℕ := 8192

/-- The `uint32_t` of a header. -/
def headerSize (h₀ h₁ h₂ h₃ : UInt8) : UInt32 :=
  h₀.toUInt32 ||| h₁.toUInt32 <<< 8 ||| h₂.toUInt32 <<< 16 ||| h₃.toUInt32 <<< 24

inductive NextVector
  /-- The file ends where a header might begin. -/
  | done
  /-- The header is truncated, or the vector is, or its size is none for a vector. -/
  | invalid
  | vector (data rest : Bytes)
  deriving DecidableEq

/-- One round of reading: `fread` of the header, its size, and `fread` of so much data. -/
def nextVector : Bytes → NextVector
  | [] => .done
  | h₀ :: h₁ :: h₂ :: h₃ :: rest =>
    let size := (headerSize h₀ h₁ h₂ h₃).toNat
    if size = 0 ∨ dataSize < size ∨ rest.length < size then .invalid
    else .vector (rest.take size) (rest.drop size)
  | _ => .invalid

/-- A vector that the controller has room for. -/
def Sendable (v : Bytes) : Prop := v.length ≠ 0 ∧ v.length ≤ dataSize

instance (v : Bytes) : Decidable (Sendable v) := inferInstanceAs (Decidable (_ ∧ _))

theorem or_shiftLeft {a k : ℕ} (ha : a < 2 ^ k) (b : ℕ) : a ||| b <<< k = a + b * 2 ^ k := by
  rw [Nat.or_comm, ← Nat.shiftLeft_add_eq_or_of_lt ha, Nat.shiftLeft_eq, Nat.add_comm]

theorem toNat_headerSize (h₀ h₁ h₂ h₃ : UInt8) : (headerSize h₀ h₁ h₂ h₃).toNat =
    h₀.toNat + h₁.toNat * 2 ^ 8 + h₂.toNat * 2 ^ 16 + h₃.toNat * 2 ^ 24 := by
  have hb (b : UInt8) : b.toNat < 2 ^ 8 := b.toNat_lt
  have hshift (b : UInt8) (k : ℕ) (hk : k ≤ 24) :
      (b.toUInt32 <<< UInt32.ofNat k).toNat = b.toNat <<< k := by
    have hlt : b.toNat * 2 ^ k < 2 ^ 32 := by
      calc b.toNat * 2 ^ k < 2 ^ 8 * 2 ^ k := Nat.mul_lt_mul_of_pos_right (hb b) (Nat.two_pow_pos k)
        _ ≤ 2 ^ 8 * 2 ^ 24 := Nat.mul_le_mul_left _ (Nat.pow_le_pow_right (by decide) hk)
        _ = 2 ^ 32 := by decide
    rw [UInt32.toNat_shiftLeft, UInt8.toNat_toUInt32, UInt32.toNat_ofNat',
      show k % 2 ^ 32 % 32 = k by omega, Nat.shiftLeft_eq, Nat.mod_eq_of_lt hlt]
  have hsize : (headerSize h₀ h₁ h₂ h₃).toNat =
      h₀.toNat ||| h₁.toNat <<< 8 ||| h₂.toNat <<< 16 ||| h₃.toNat <<< 24 := by
    rw [headerSize, UInt32.toNat_or, UInt32.toNat_or, UInt32.toNat_or, UInt8.toNat_toUInt32]
    exact congr (congrArg _ (congr (congrArg _ (congrArg _ (hshift h₁ 8 (by decide))))
      (hshift h₂ 16 (by decide)))) (hshift h₃ 24 (by decide))
  have h0 := hb h₀
  have h1 := hb h₁
  have h2 := hb h₂
  rw [hsize, or_shiftLeft h0, or_shiftLeft (k := 16) (by omega), or_shiftLeft (k := 24) (by omega)]

@[simp] theorem length_packLength (n : ℕ) : (packLength n).length = 4 := rfl

theorem headerSize_packLength {n : ℕ} (h : n < 2 ^ 32) :
    (headerSize (UInt8.ofNat n) (UInt8.ofNat (n / 2 ^ 8)) (UInt8.ofNat (n / 2 ^ 16))
      (UInt8.ofNat (n / 2 ^ 24))).toNat = n := by
  rw [toNat_headerSize]
  simp only [UInt8.toNat_ofNat']
  omega

/-! ## Reading back what was written -/

theorem nextVector_pack {v : Bytes} (hv : Sendable v) (rest : Bytes) :
    nextVector (pack v ++ rest) = .vector v rest := by
  obtain ⟨hpos, hfits⟩ := hv
  have hsize := headerSize_packLength (n := v.length) (by simp only [dataSize] at hfits; omega)
  have hlong : ¬ (v ++ rest).length < v.length := by
    rw [List.length_append]
    omega
  rw [pack, List.append_assoc]
  show nextVector (_ :: _ :: _ :: _ :: (v ++ rest)) = _
  rw [nextVector, hsize]
  rw [if_neg (by omega), List.take_left, List.drop_left]

/-- What is read as a vector is one, packed, at the beginning of the file. -/
theorem pack_of_nextVector {file v rest : Bytes} (h : nextVector file = .vector v rest) :
    Sendable v ∧ file = pack v ++ rest := by
  rcases file with _ | ⟨h₀, _ | ⟨h₁, _ | ⟨h₂, _ | ⟨h₃, tail⟩⟩⟩⟩
  · cases h
  · cases h
  · cases h
  · cases h
  · unfold nextVector at h
    dsimp only at h
    split_ifs at h with hbad
    obtain ⟨hpos, hfits, hlong⟩ : (headerSize h₀ h₁ h₂ h₃).toNat ≠ 0 ∧
        (headerSize h₀ h₁ h₂ h₃).toNat ≤ dataSize ∧
        (headerSize h₀ h₁ h₂ h₃).toNat ≤ tail.length := by omega
    cases h
    have hlen : (tail.take (headerSize h₀ h₁ h₂ h₃).toNat).length =
        (headerSize h₀ h₁ h₂ h₃).toNat := by
      rw [List.length_take]
      omega
    have hbyte (b : UInt8) : b.toNat < 2 ^ 8 := b.toNat_lt
    have hheader : packLength (headerSize h₀ h₁ h₂ h₃).toNat = [h₀, h₁, h₂, h₃] := by
      have hcell {n : ℕ} {b : UInt8} (hn : n % 2 ^ 8 = b.toNat) : UInt8.ofNat n = b := by
        apply UInt8.toNat_inj.mp
        rw [UInt8.toNat_ofNat', hn]
      have := hbyte h₀
      have := hbyte h₁
      have := hbyte h₂
      have := hbyte h₃
      rw [packLength, toNat_headerSize, hcell (b := h₀) (by omega), hcell (b := h₁) (by omega),
        hcell (b := h₂) (by omega), hcell (b := h₃) (by omega)]
    refine ⟨⟨by rw [hlen]; exact hpos, by rw [hlen]; exact hfits⟩, ?_⟩
    rw [pack, hlen, hheader, List.append_assoc, List.take_append_drop]
    rfl

theorem length_of_nextVector {file v rest : Bytes} (h : nextVector file = .vector v rest) :
    rest.length < file.length := by
  obtain ⟨-, rfl⟩ := pack_of_nextVector h
  rw [pack, List.length_append, List.length_append, length_packLength]
  omega

theorem packs_cons (v : Bytes) (vs : List Bytes) : packs (v :: vs) = pack v ++ packs vs := rfl

theorem packs_append (vs ws : List Bytes) : packs (vs ++ ws) = packs vs ++ packs ws := by
  rw [packs, List.map_append, List.flatten_append]
  rfl

/-- Two packed lists that begin the same file begin with the same vectors. -/
theorem packs_unique {vs ws : List Bytes} {rest : Bytes} (hv : ∀ v ∈ vs, Sendable v)
    (hw : ∀ w ∈ ws, Sendable w) (h : packs vs = packs ws ++ rest) :
    ∃ more, vs = ws ++ more ∧ rest = packs more := by
  induction ws generalizing vs with
  | nil => exact ⟨vs, rfl, h.symm⟩
  | cons w ws ih =>
    have hnext := nextVector_pack (hw w List.mem_cons_self) (packs ws ++ rest)
    rw [← List.append_assoc, ← packs_cons, ← h] at hnext
    cases vs with
    | nil => cases hnext
    | cons v vs =>
      rw [packs_cons, nextVector_pack (hv v List.mem_cons_self)] at hnext
      obtain ⟨rfl, htail⟩ := NextVector.vector.inj hnext
      obtain ⟨more, rfl, hmore⟩ := ih (fun v hm => hv v (List.mem_cons_of_mem _ hm))
        (fun w hm => hw w (List.mem_cons_of_mem _ hm)) htail
      exact ⟨more, rfl, hmore⟩

/-! ## The frames -/

def sizes : List ℕ := [0, 1, 2, 15, 16, 17, 31, 32, 255, 256, 1024, 3133, 4093, 4668]

def bulk : List ℕ := [31, 255, 1024, 2441, 3133, 4093, 4668]

/-- `random.Random`: what it draws for each frame, an entry of `bulk` where one is chosen and a
payload of the length asked for. -/
structure Rng where
  choice : ℕ → Fin bulk.length
  randbytes : ℕ → ℕ → Bytes
  length_randbytes : ∀ i n, (randbytes i n).length = n

/-- `length.to_bytes(2, "big")` behind the command byte, and the payload. -/
def nthFrame (rng : Rng) (i : ℕ) : Bytes :=
  let length := if i < 60 then sizes.getD (i % sizes.length) 0 else bulk.get (rng.choice i)
  [1, UInt8.ofNat (length / 2 ^ 8), UInt8.ofNat length] ++ rng.randbytes i length

def frames (rng : Rng) (count : ℕ) : List Bytes := (List.range count).map (nthFrame rng)

/-- The file that `main` writes, if it accepts the count. -/
def vectorFile (rng : Rng) (count : ℕ) : Option Bytes :=
  if 1 ≤ count ∧ count ≤ 5000 then some (packs (frames rng count)) else none

theorem frame_sendable (rng : Rng) (i : ℕ) : Sendable (nthFrame rng i) := by
  have hbound : ∀ n ∈ sizes ++ bulk, n ≤ 4668 := by decide
  have hsizes : sizes.getD (i % sizes.length) 0 ≤ 4668 := by
    rw [List.getD_eq_getElem _ _ (Nat.mod_lt _ (by decide))]
    exact hbound _ (List.mem_append_left _ (List.getElem_mem _))
  have hbulk : bulk.get (rng.choice i) ≤ 4668 :=
    hbound _ (List.mem_append_right _ (List.get_mem _ _))
  unfold Sendable nthFrame dataSize
  dsimp only
  rw [List.length_append, rng.length_randbytes]
  split_ifs <;> simp only [List.length_cons, List.length_nil] <;> omega

theorem frames_sendable (rng : Rng) (count : ℕ) : ∀ v ∈ frames rng count, Sendable v := by
  intro v hv
  obtain ⟨i, -, rfl⟩ := List.mem_map.mp hv
  exact frame_sendable rng i

end BscTarget
