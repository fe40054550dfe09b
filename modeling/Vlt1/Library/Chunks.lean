import Mathlib.Data.List.Flatten
import Mathlib.Data.List.Induction
import Mathlib.Tactic.Ring

/-!
# Cutting a list into chunks

`chunks size l` cuts `l` into pieces of `size` elements; only the last piece may be shorter, and no
piece is empty. The pieces are indexed: `getElem?_chunks` gives the `i`-th one as a segment of `l`,
and `flatten_segments` says that the first `k` segments make up the first `k * size` elements.

`Picks` is about pieces that are found one by one under their index, as a reader of a table finds them.
If they come in the order of their index and are as long together as the whole, they are the whole.
-/

namespace Chunks

variable {α : Type}

/-- The number of pieces of `size` elements that `n` elements need. -/
def count (size n : ℕ) : ℕ := (n + size - 1) / size

/-- The `i`-th segment of `size` elements. -/
def segment (size : ℕ) (l : List α) (i : ℕ) : List α := (l.drop (i * size)).take size

/-- The pieces of `l`. -/
def chunks (size : ℕ) (l : List α) : List (List α) :=
  (List.range (count size l.length)).map (segment size l)

@[simp] theorem length_chunks (size : ℕ) (l : List α) :
    (chunks size l).length = count size l.length := by
  simp [chunks]

@[simp] theorem chunks_nil (size : ℕ) (h : 0 < size) : chunks size ([] : List α) = [] := by
  have : count size 0 = 0 := by
    rw [count, Nat.div_eq_of_lt (by omega)]
  simp [chunks, this]

theorem getElem?_chunks (size : ℕ) (l : List α) (i : ℕ) :
    (chunks size l)[i]? = if i < count size l.length then some (segment size l i) else none := by
  unfold chunks
  rw [List.getElem?_map]
  split
  · rename_i h
    rw [List.getElem?_range h]; rfl
  · rename_i h
    rw [List.getElem?_eq_none (by simpa using h)]; rfl

theorem length_segment (size : ℕ) (l : List α) (i : ℕ) :
    (segment size l i).length = min size (l.length - i * size) := by
  simp [segment]

section Count

variable {size n : ℕ}

/-- The pieces cover all elements. -/
theorem le_count_mul (hsize : 0 < size) : n ≤ count size n * size := by
  have h := Nat.lt_div_mul_add (a := n + size - 1) hsize
  unfold count
  omega

/-- All pieces but the last are full, so fewer pieces do not suffice. -/
theorem count_mul_lt (hsize : 0 < size) : count size n * size < n + size := by
  have h := Nat.div_mul_le_self (n + size - 1) size
  unfold count
  omega

theorem mul_lt_of_lt_count (hsize : 0 < size) {i : ℕ} (hi : i < count size n) : i * size < n := by
  have h := count_mul_lt (n := n) hsize
  have hmul : (i + 1) * size ≤ count size n * size := Nat.mul_le_mul_right _ hi
  rw [Nat.add_mul, Nat.one_mul] at hmul
  omega

theorem count_eq_zero (hsize : 0 < size) : count size n = 0 ↔ n = 0 := by
  constructor
  · intro h
    have := le_count_mul (n := n) hsize
    rw [h] at this
    omega
  · rintro rfl
    rw [count, Nat.div_eq_of_lt (by omega)]

/-- How many elements need `k + 1` pieces. -/
theorem count_eq_succ_iff (hsize : 0 < size) {k : ℕ} :
    count size n = k + 1 ↔ k * size < n ∧ n ≤ (k + 1) * size := by
  constructor
  · intro h
    exact ⟨mul_lt_of_lt_count hsize (by omega), h ▸ le_count_mul hsize⟩
  · rintro ⟨hlt, hle⟩
    have hbelow : k * size < count size n * size := hlt.trans_le (le_count_mul hsize)
    have habove : count size n * size < (k + 1 + 1) * size := by
      have h := count_mul_lt (n := n) hsize
      rw [Nat.add_mul (k + 1), Nat.one_mul]
      omega
    have hbelow := Nat.lt_of_mul_lt_mul_right hbelow
    have habove := Nat.lt_of_mul_lt_mul_right habove
    omega

end Count

section Segments

variable {size : ℕ} {l : List α}

/-- A piece before the last is full. -/
theorem length_segment_of_lt (hsize : 0 < size) {i : ℕ} (hi : i + 1 < count size l.length) :
    (segment size l i).length = size := by
  have h := mul_lt_of_lt_count hsize hi
  rw [Nat.add_mul, Nat.one_mul] at h
  rw [length_segment]
  omega

/-- The last piece is the rest. -/
theorem length_segment_last (hsize : 0 < size) {i : ℕ} (hi : i + 1 = count size l.length) :
    (segment size l i).length = l.length - i * size := by
  have h := le_count_mul (n := l.length) hsize
  rw [← hi, Nat.add_mul, Nat.one_mul] at h
  rw [length_segment]
  omega

/-- No piece is empty. -/
theorem length_segment_pos (hsize : 0 < size) {i : ℕ} (hi : i < count size l.length) :
    0 < (segment size l i).length := by
  have h := mul_lt_of_lt_count hsize hi
  rw [length_segment]
  omega

theorem length_segment_le (i : ℕ) : (segment size l i).length ≤ size := by
  rw [length_segment]
  omega

/-- The lengths of the pieces: all but the last are full. -/
theorem map_length_chunks (hsize : 0 < size) {k : ℕ} (hk : count size l.length = k + 1) :
    (chunks size l).map List.length = List.replicate k size ++ [l.length - k * size] := by
  have hfull : (List.range k).map (List.length ∘ segment size l) = List.replicate k size := by
    refine List.eq_replicate_iff.mpr ⟨by simp, fun n hn => ?_⟩
    obtain ⟨i, hi, rfl⟩ := List.mem_map.mp hn
    have hlt := List.mem_range.mp hi
    exact length_segment_of_lt hsize (by omega)
  rw [chunks, hk, List.map_map, List.range_succ, List.map_append, hfull]
  simp [length_segment_last hsize hk.symm]

/-- The first `k` segments are the first `k * size` elements. -/
theorem flatten_segments (size : ℕ) (l : List α) (k : ℕ) :
    ((List.range k).map (segment size l)).flatten = l.take (k * size) := by
  induction k with
  | zero => simp
  | succ k ih =>
    rw [List.range_succ, List.map_append, List.flatten_append, ih, Nat.add_mul, Nat.one_mul,
      List.take_add]
    simp [segment]

/-- The pieces put together are the list. -/
theorem flatten_chunks (hsize : 0 < size) : (chunks size l).flatten = l := by
  rw [chunks, flatten_segments, List.take_of_length_le (le_count_mul hsize)]

theorem count_eq_succ (hsize : 0 < size) {n : ℕ} (hn : n ≠ 0) :
    count size n = count size (n - size) + 1 := by
  unfold count
  by_cases hle : size ≤ n
  · rw [show n + size - 1 = n - size + size - 1 + size by omega, Nat.add_div_right _ hsize]
  · rw [show n - size = 0 by omega, Nat.div_eq_of_lt (a := 0 + size - 1) (by omega),
      show n + size - 1 = n - 1 + size by omega, Nat.add_div_right _ hsize,
      Nat.div_eq_of_lt (by omega)]

theorem segment_succ (l : List α) (i : ℕ) : segment size l (i + 1) = segment size (l.drop size) i := by
  rw [segment, segment, List.drop_drop, Nat.add_mul, Nat.one_mul, Nat.add_comm]

/-- The first piece, and the pieces of the rest. -/
theorem chunks_eq_cons (hsize : 0 < size) (hl : l ≠ []) :
    chunks size l = l.take size :: chunks size (l.drop size) := by
  have hlength : l.length ≠ 0 := fun h => hl (List.length_eq_zero_iff.mp h)
  rw [chunks, count_eq_succ hsize hlength, List.range_succ_eq_map, List.map_cons, List.map_map]
  congr 1
  · simp [segment]
  · rw [chunks, List.length_drop]
    exact List.map_congr_left fun i _ => segment_succ l i

end Segments

/-! ### Picking pieces by their index -/

/-- The parts are the pieces at these indices. -/
def Picks (pieces : List (List α)) (indices : List ℕ) (parts : List (List α)) : Prop :=
  indices.map (fun i => pieces[i]?) = parts.map some

namespace Picks

variable {pieces parts : List (List α)} {indices : List ℕ}

theorem nil : Picks pieces [] [] := rfl

/-- One more piece. -/
theorem concat (h : Picks pieces indices parts) {i : ℕ} {part : List α}
    (hpart : pieces[i]? = some part) : Picks pieces (indices ++ [i]) (parts ++ [part]) := by
  unfold Picks at h ⊢
  rw [List.map_append, List.map_append, h, List.map_singleton, hpart, List.map_singleton]

/-- The last index is that of the last part. -/
theorem of_concat {i : ℕ} (h : Picks pieces (indices ++ [i]) parts) :
    ∃ init part, parts = init ++ [part] ∧ Picks pieces indices init ∧ pieces[i]? = some part := by
  unfold Picks at h
  rw [List.map_append, eq_comm] at h
  obtain ⟨init, last, rfl, hinit, hlast⟩ := List.map_eq_append_iff.mp h
  rw [List.map_singleton] at hlast
  obtain ⟨part, rfl, hpart⟩ := List.map_eq_singleton_iff.mp hlast
  exact ⟨init, part, rfl, hinit.symm, hpart.symm⟩

/-- Pieces picked in the order of their index, all below `n`, are among the first `n`. -/
theorem sublist_take (h : Picks pieces indices parts) (hsorted : indices.Pairwise (· < ·)) {n : ℕ}
    (hlt : ∀ i ∈ indices, i < n) : parts.Sublist (pieces.take n) := by
  induction indices using List.reverseRecOn generalizing parts n with
  | nil =>
    rw [List.map_eq_nil_iff.mp h.symm]
    exact List.nil_sublist _
  | append_singleton indices i ih =>
    obtain ⟨init, part, rfl, hinit, hpart⟩ := h.of_concat
    obtain ⟨hinner, -, hbelow⟩ := List.pairwise_append.mp hsorted
    have hi : i < n := hlt i (by simp)
    -- the pieces before index `i`, then the piece at it
    have hfront := ih hinit hinner fun j hj => hbelow j hj i (by simp)
    obtain ⟨hlength, rfl⟩ := List.getElem?_eq_some_iff.mp hpart
    have hboth : (init ++ [pieces[i]]).Sublist (pieces.take (i + 1)) := by
      rw [← List.take_append_getElem hlength]
      exact hfront.append (List.Sublist.refl _)
    exact hboth.trans (List.take_sublist_take_left (by omega))

theorem lt_length (h : Picks pieces indices parts) {i : ℕ} (hi : i ∈ indices) : i < pieces.length := by
  have hmem : pieces[i]? ∈ parts.map some := by
    rw [← h]
    exact List.mem_map_of_mem hi
  obtain ⟨part, -, hpart⟩ := List.mem_map.mp hmem
  exact (List.getElem?_eq_some_iff.mp hpart.symm).1

/-- Pieces picked in the order of their index are the whole if they are as long. -/
theorem flatten_eq (h : Picks pieces indices parts) (hsorted : indices.Pairwise (· < ·))
    (hlength : parts.flatten.length = pieces.flatten.length) : parts.flatten = pieces.flatten := by
  have hsublist : parts.Sublist pieces :=
    (h.sublist_take hsorted fun _ => h.lt_length).trans (List.take_sublist _ _)
  exact hsublist.flatten.eq_of_length hlength

/-- The first pieces. -/
theorem eq_take {n : ℕ} (h : Picks pieces (List.range n) parts) : parts = pieces.take n := by
  induction n generalizing parts with
  | zero => exact (List.map_eq_nil_iff.mp h.symm).trans List.take_zero.symm
  | succ n ih =>
    rw [List.range_succ] at h
    obtain ⟨init, part, rfl, hinit, hpart⟩ := h.of_concat
    obtain ⟨hlength, rfl⟩ := List.getElem?_eq_some_iff.mp hpart
    rw [ih hinit, List.take_append_getElem hlength]

end Picks

end Chunks
