import Mathlib.Data.List.Induction
import Mathlib.Tactic.Ring

/-!
# Byte strings, big-endian integers and transcripts

`Bytes` is a byte string of any length and `Block n` one of exactly `n` bytes, so that a
fixed-width field carries its width. `toBe k n` writes `n` in `k` big-endian bytes and `ofBe`
reads them back. The last section is about transcripts, byte strings made by writing fields
one after another: `append_field_inj` peels one fixed-width field off two equal transcripts, and
`ne_of_label` separates transcripts that start with different labels.
-/

/-- A byte string. -/
abbrev Bytes := List UInt8

/-- A byte string of exactly `n` bytes. -/
@[ext]
structure Block (n : ℕ) where
  /-- The bytes. -/
  toList : Bytes
  /-- There are `n` of them. -/
  length_toList : toList.length = n
deriving DecidableEq

namespace Block

variable {n : ℕ}

attribute [simp] length_toList

/-- Read a byte string as a block, if it has the right length. -/
def ofBytes? (n : ℕ) (b : Bytes) : Option (Block n) :=
  if h : b.length = n then some ⟨b, h⟩ else none

/-- The block of `n` zero bytes. -/
def zero (n : ℕ) : Block n := ⟨List.replicate n 0, by simp⟩

theorem toList_inj {a b : Block n} : a.toList = b.toList ↔ a = b :=
  ⟨Block.ext, fun h => h ▸ rfl⟩

@[simp] theorem ofBytes?_toList (b : Block n) : ofBytes? n b.toList = some b := by
  simp [ofBytes?]

theorem ofBytes?_eq_some {b : Bytes} {x : Block n} : ofBytes? n b = some x ↔ b = x.toList := by
  constructor
  · intro h
    unfold ofBytes? at h
    split at h
    · rw [← Option.some.inj h]
    · cases h
  · rintro rfl
    exact ofBytes?_toList x

end Block

namespace Bytes

/-! ### Big-endian integers -/

/-- The low `k` bytes of `n`, most significant first. -/
def toBe : ℕ → ℕ → Bytes
  | 0, _ => []
  | k + 1, n => toBe k (n / 256) ++ [UInt8.ofNat (n % 256)]

/-- The number a big-endian byte string stands for. -/
def ofBe (b : Bytes) : ℕ := b.foldl (fun n x => n * 256 + x.toNat) 0

@[simp] theorem length_toBe (k n : ℕ) : (toBe k n).length = k := by
  induction k generalizing n with
  | zero => rfl
  | succ k ih => simp [toBe, ih]

theorem ofBe_concat (b : Bytes) (x : UInt8) : ofBe (b ++ [x]) = ofBe b * 256 + x.toNat := by
  simp [ofBe]

/-- Reading back what was written drops everything above `k` bytes. -/
theorem ofBe_toBe_mod (k n : ℕ) : ofBe (toBe k n) = n % 256 ^ k := by
  induction k generalizing n with
  | zero => simp [toBe, ofBe, Nat.mod_one]
  | succ k ih =>
    have hbyte : (UInt8.ofNat (n % 256)).toNat = n % 256 := by
      simp
    rw [toBe, ofBe_concat, ih, hbyte, pow_succ, mul_comm (256 ^ k) 256, Nat.mod_mul]
    ring

/-- Reading back a number that fits. -/
theorem ofBe_toBe {k n : ℕ} (h : n < 256 ^ k) : ofBe (toBe k n) = n := by
  rw [ofBe_toBe_mod, Nat.mod_eq_of_lt h]

/-- A `k`-byte string stands for a number below `256 ^ k`. -/
theorem ofBe_lt (b : Bytes) : ofBe b < 256 ^ b.length := by
  induction b using List.reverseRecOn with
  | nil => simp [ofBe]
  | append_singleton b x ih =>
    have hx : x.toNat < 256 := x.toNat_lt
    rw [ofBe_concat, List.length_append, List.length_singleton, pow_succ]
    omega

/-- Writing back what was read. -/
theorem toBe_ofBe (b : Bytes) : toBe b.length (ofBe b) = b := by
  induction b using List.reverseRecOn with
  | nil => rfl
  | append_singleton b x ih =>
    have hx : x.toNat < 256 := x.toNat_lt
    have hdiv : (ofBe b * 256 + x.toNat) / 256 = ofBe b := by omega
    have hmod : (ofBe b * 256 + x.toNat) % 256 = x.toNat := by omega
    rw [ofBe_concat, List.length_append, List.length_singleton, toBe, hdiv, hmod, ih]
    simp

/-- Numbers that fit in `k` bytes are told apart by their bytes. -/
theorem toBe_inj {k m n : ℕ} (hm : m < 256 ^ k) (hn : n < 256 ^ k)
    (h : toBe k m = toBe k n) : m = n := by
  rw [← ofBe_toBe hm, ← ofBe_toBe hn, h]

/-- The four big-endian bytes of a 32-bit integer. -/
def be32 (n : UInt32) : Bytes := toBe 4 n.toNat

/-- The eight big-endian bytes of a 64-bit integer. -/
def be64 (n : UInt64) : Bytes := toBe 8 n.toNat

@[simp] theorem length_be32 (n : UInt32) : (be32 n).length = 4 := length_toBe 4 _

@[simp] theorem length_be64 (n : UInt64) : (be64 n).length = 8 := length_toBe 8 _

theorem be32_inj {m n : UInt32} (h : be32 m = be32 n) : m = n :=
  UInt32.toNat_inj.mp (toBe_inj m.toNat_lt n.toNat_lt h)

theorem be64_inj {m n : UInt64} (h : be64 m = be64 n) : m = n :=
  UInt64.toNat_inj.mp (toBe_inj m.toNat_lt n.toNat_lt h)

/-! ### Transcripts -/

/-- Two equal transcripts whose first fields have one width agree on that field and on the
rest. -/
theorem append_field_inj {a b s t : Bytes} (hlen : a.length = b.length)
    (h : a ++ s = b ++ t) : a = b ∧ s = t :=
  List.append_inj h hlen

/-- Two equal transcripts that start with a block agree on that block and on the rest. -/
theorem append_block_inj {n : ℕ} {a b : Block n} {s t : Bytes}
    (h : a.toList ++ s = b.toList ++ t) : a = b ∧ s = t := by
  obtain ⟨hab, hst⟩ := append_field_inj (by simp) h
  exact ⟨Block.toList_inj.mp hab, hst⟩

/-- Transcripts whose labels differ at a position both labels have are different. -/
theorem ne_of_label {a b s t : Bytes} (i : ℕ) (ha : i < a.length) (hb : i < b.length)
    (h : a[i] ≠ b[i]) : a ++ s ≠ b ++ t := by
  intro heq
  have hi : (a ++ s)[i]? = (b ++ t)[i]? := by rw [heq]
  rw [List.getElem?_append_left ha, List.getElem?_append_left hb,
    List.getElem?_eq_getElem ha, List.getElem?_eq_getElem hb] at hi
  exact h (Option.some.inj hi)

/-- A transcript made of records that each say where they end determines the records: if equal
transcripts always agree on their first record and on the rest, they agree on the whole list. -/
theorem flatMap_inj {α : Type} {enc : α → Bytes} {l l' : List α}
    (hfirst : ∀ a ∈ l, ∀ b ∈ l', ∀ s t, enc a ++ s = enc b ++ t → a = b ∧ s = t)
    (hne : ∀ a, enc a ≠ []) (h : l.flatMap enc = l'.flatMap enc) : l = l' := by
  induction l generalizing l' with
  | nil =>
    cases l' with
    | nil => rfl
    | cons b l' => exact absurd (List.append_eq_nil_iff.mp h.symm).1 (hne b)
  | cons a l ih =>
    cases l' with
    | nil => exact absurd (List.append_eq_nil_iff.mp h).1 (hne a)
    | cons b l' =>
      rw [List.flatMap_cons, List.flatMap_cons] at h
      obtain ⟨rfl, hrest⟩ := hfirst a List.mem_cons_self b List.mem_cons_self _ _ h
      refine congrArg (a :: ·) (ih (fun x hx y hy => ?_) hrest)
      exact hfirst x (List.mem_cons_of_mem _ hx) y (List.mem_cons_of_mem _ hy)

end Bytes
