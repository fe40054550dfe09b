import Vlt1.Vault.Publish

/-!
# What a reader delivers

A streaming `put` fills one buffer after another from a reader. If no bytes follow the reader's first
report of end of file (`Reader.EndsOnce`), the buffers are the pieces of the reader's bytes, all but
the last of them full (`Reader.chunks_eq`), just as for a plaintext in memory.

The loop asks for another buffer after a short one, so a reader that goes on after it reported end of
file leaves a short buffer in the middle.
-/

namespace Vlt1

/-- The bytes of a step. -/
def ReadStep.bytes : ReadStep → Bytes
  | .data bytes => bytes
  | _ => []

namespace Reader

/-- All bytes of a reader. -/
def contents (reader : Reader) : Bytes := reader.flatMap ReadStep.bytes

/-- No bytes follow a report of end of file. -/
def EndsOnce : Reader → Prop
  | [] => True
  | step :: rest => (step = .data [] → ∀ step' ∈ rest, step'.bytes = []) ∧ EndsOnce rest

theorem contents_cons (step : ReadStep) (rest : Reader) :
    contents (step :: rest) = step.bytes ++ contents rest := by
  simp [contents]

theorem EndsOnce.tail {step : ReadStep} {rest : Reader} (h : EndsOnce (step :: rest)) :
    EndsOnce rest := h.2

/-- One buffer takes as many bytes as it has room for. -/
theorem readNextChunk_ok {capacity : ℕ} {filled chunk : Bytes} {reader rest : Reader}
    (hreader : reader.EndsOnce) (hfilled : filled.length ≤ capacity)
    (h : readNextChunk capacity filled reader = .ok (chunk, rest)) :
    rest.EndsOnce ∧ chunk = filled ++ reader.contents.take (capacity - filled.length) ∧
      rest.contents = reader.contents.drop (capacity - filled.length) := by
  induction reader generalizing filled with
  | nil =>
    cases h
    exact ⟨trivial, by simp [contents], by simp [contents]⟩
  | cons step reader ih =>
    unfold readNextChunk at h
    by_cases hroom : filled.length < capacity
    · rw [if_pos hroom] at h
      cases step with
      | interrupted => exact ih hreader.tail hfilled h
      | failed => cases h
      | data bytes =>
        simp only at h
        rw [contents_cons, ReadStep.bytes]
        split at h
        · -- end of file: nothing follows
          rename_i hempty
          subst hempty
          have hnone : contents reader = [] := List.flatMap_eq_nil_iff.mpr (hreader.1 rfl)
          cases h
          exact ⟨hreader.tail, by simp [hnone], by simp [hnone]⟩
        · split at h
          · rename_i hfits
            obtain ⟨hrest, hchunk, hcontents⟩ := ih hreader.tail (by simp; omega) h
            have hsub : capacity - (filled ++ bytes).length = capacity - filled.length - bytes.length := by
              rw [List.length_append]
              omega
            rw [hsub] at hchunk hcontents
            refine ⟨hrest, ?_, ?_⟩
            · rw [hchunk, List.take_append, List.take_of_length_le hfits, List.append_assoc]
            · rw [hcontents, List.drop_append, List.drop_of_length_le hfits, List.nil_append]
          · rename_i hlong
            cases h
            have hne : bytes.drop (capacity - filled.length) ≠ [] := by
              rw [ne_eq, List.drop_eq_nil_iff]
              omega
            refine ⟨⟨fun heq => absurd (ReadStep.data.inj heq) hne, hreader.tail⟩, ?_, ?_⟩
            · rw [List.take_append_of_le_length (by omega)]
            · rw [List.drop_append_of_le_length (by omega), contents_cons]
              rfl
    · rw [if_neg hroom] at h
      have hzero : capacity - filled.length = 0 := by omega
      rw [hzero]
      cases h
      exact ⟨hreader, by simp, by simp⟩

/-- A buffer uses up the steps and bytes it was filled from. -/
theorem size_readNextChunk {capacity : ℕ} {filled chunk : Bytes} {reader rest : Reader}
    (h : readNextChunk capacity filled reader = .ok (chunk, rest)) :
    rest.size + chunk.length ≤ reader.size + filled.length := by
  induction reader generalizing filled with
  | nil => cases h; exact le_rfl
  | cons step reader ih =>
    have hsize : ∀ step : ReadStep, ∀ reader : Reader,
        size (step :: reader) = step.bytes.length + 1 + reader.size := by
      intro step reader
      cases step <;> simp [size, ReadStep.bytes]
    unfold readNextChunk at h
    rw [hsize]
    by_cases hroom : filled.length < capacity
    · rw [if_pos hroom] at h
      cases step with
      | interrupted =>
        have := ih h
        omega
      | failed => cases h
      | data bytes =>
        simp only at h
        split at h
        · cases h
          omega
        · split at h
          · have := ih h
            rw [List.length_append] at this
            simp only [ReadStep.bytes]
            omega
          · cases h
            rw [hsize, List.length_append, List.length_take]
            simp only [ReadStep.bytes, List.length_drop]
            omega
    · rw [if_neg hroom] at h
      cases h
      rw [hsize]

/-- A buffer holds no more than its capacity. -/
theorem length_readNextChunk {capacity : ℕ} {filled chunk : Bytes} {reader rest : Reader}
    (hfilled : filled.length ≤ capacity)
    (h : readNextChunk capacity filled reader = .ok (chunk, rest)) : chunk.length ≤ capacity := by
  induction reader generalizing filled with
  | nil => cases h; exact hfilled
  | cons step reader ih =>
    unfold readNextChunk at h
    by_cases hroom : filled.length < capacity
    · rw [if_pos hroom] at h
      cases step with
      | interrupted => exact ih hfilled h
      | failed => cases h
      | data bytes =>
        simp only at h
        split at h
        · cases h
          exact hfilled
        · split at h
          · exact ih (by rw [List.length_append]; omega) h
          · cases h
            rw [List.length_append, List.length_take]
            omega
    · rw [if_neg hroom] at h
      cases h
      exact hfilled

theorem length_le_of_mem_chunks {capacity : ℕ} {reader : Reader} {piece : Bytes}
    (h : piece ∈ (reader.chunks capacity).1) : piece.length ≤ capacity := by
  suffices hloop : ∀ fuel (reader : Reader), piece ∈ (chunksWithin capacity fuel reader).1 →
      piece.length ≤ capacity from hloop _ _ h
  intro fuel
  induction fuel with
  | zero => exact fun _ hmem => absurd hmem List.not_mem_nil
  | succ fuel ih =>
    intro reader hmem
    rw [chunksWithin] at hmem
    split at hmem
    · cases hmem
    · cases hmem
    · rename_i chunk rest _ hread
      rcases List.mem_cons.mp hmem with rfl | hmem
      · exact length_readNextChunk (Nat.zero_le _) hread
      · exact ih rest hmem

/-- The loop with enough fuel cuts the bytes into pieces. -/
theorem chunksWithin_eq {capacity fuel : ℕ} {reader : Reader} {pieces : List Bytes}
    (hcapacity : 0 < capacity) (hreader : reader.EndsOnce) (hfuel : reader.size < fuel)
    (h : Reader.chunksWithin capacity fuel reader = (pieces, .ok ())) :
    pieces = Chunks.chunks capacity reader.contents := by
  induction fuel generalizing reader pieces with
  | zero => omega
  | succ fuel ih =>
    rw [Reader.chunksWithin] at h
    cases hread : readNextChunk capacity [] reader with
    | error e =>
      rw [hread] at h
      cases h
    | ok next =>
      obtain ⟨chunk, rest⟩ := next
      rw [hread] at h
      obtain ⟨hrest, hchunk, hcontents⟩ := readNextChunk_ok hreader (Nat.zero_le _) hread
      rw [List.nil_append, List.length_nil, Nat.sub_zero] at hchunk
      rw [List.length_nil, Nat.sub_zero] at hcontents
      cases hcase : chunk with
      | nil =>
        rw [hcase] at h hchunk
        cases h
        have hnone : reader.contents = [] := by
          rcases List.take_eq_nil_iff.mp hchunk.symm with hzero | hnone
          · omega
          · exact hnone
        rw [hnone, Chunks.chunks_nil _ hcapacity]
      | cons b bs =>
        rw [hcase] at h hchunk
        have hsize := size_readNextChunk hread
        rw [hcase, List.length_cons, List.length_nil] at hsize
        have hne : reader.contents ≠ [] := by
          intro hnone
          rw [hnone, List.take_nil] at hchunk
          cases hchunk
        cases hloop : Reader.chunksWithin capacity fuel rest with
        | mk chunks ending =>
          simp only [hloop] at h
          obtain ⟨rfl, rfl⟩ := Prod.mk.inj h
          rw [Chunks.chunks_eq_cons hcapacity hne, ← hcontents, hchunk,
            ih hrest (by omega) hloop]

/-- A reader that ends once delivers the pieces of its bytes. -/
theorem chunks_eq {capacity : ℕ} {reader : Reader} {pieces : List Bytes} (hcapacity : 0 < capacity)
    (hreader : reader.EndsOnce) (h : reader.chunks capacity = (pieces, .ok ())) :
    pieces = Chunks.chunks capacity reader.contents :=
  chunksWithin_eq hcapacity hreader (Nat.lt_succ_self _) h

end Reader

end Vlt1
