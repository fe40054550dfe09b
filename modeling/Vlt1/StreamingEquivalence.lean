import Vlt1.IdealCrypto
import Vlt1.Vault.Readers
import Vlt1.Vault.Scripted

/-!
# A streamed version is the version in memory

`put_from_reader` never holds the plaintext: it seals and inserts one buffer after another and writes the
Manifest last, in one transaction. `put` cuts and seals the whole plaintext first. For a reader that
delivers the plaintext in any fragments, interrupted as often as it likes (`Reader.Delivers`), and for the
same random values, the two leave the same tables, or both reject (`streaming_equals_buffered`).

The two paths draw the values in different orders: the streaming one needs the wrapped DEK for the
placeholder row, before the first chunk.
-/

namespace Vlt1

open Effect

/-! ### Readers that deliver a plaintext -/

namespace Reader

/-- The reader yields the plaintext in non-empty fragments, possibly interrupted, and then end of
file. -/
structure Delivers (reader : Reader) (plaintext : Bytes) : Prop where
  steps : ∀ step ∈ reader, step ≠ .failed ∧ step ≠ .data []
  contents : reader.contents = plaintext

variable {reader rest : Reader} {plaintext filled chunk : Bytes} {capacity : ℕ}

theorem Delivers.endsOnce (h : reader.Delivers plaintext) : reader.EndsOnce := by
  have hsteps := h.steps
  clear h
  induction reader with
  | nil => trivial
  | cons step reader ih =>
    refine ⟨fun heq => absurd heq (hsteps step List.mem_cons_self).2, ?_⟩
    exact ih fun step' hstep' => hsteps step' (List.mem_cons_of_mem _ hstep')

/-- Filling a buffer does not fail, and leaves steps of the same kind. -/
theorem exists_readNextChunk (hsteps : ∀ step ∈ reader, step ≠ .failed ∧ step ≠ .data []) :
    ∃ chunk rest, readNextChunk capacity filled reader = .ok (chunk, rest) ∧
      ∀ step ∈ rest, step ≠ .failed ∧ step ≠ .data [] := by
  induction reader generalizing filled with
  | nil => exact ⟨filled, [], rfl, hsteps⟩
  | cons step reader ih =>
    have htail : ∀ step' ∈ reader, step' ≠ .failed ∧ step' ≠ .data [] :=
      fun step' hstep' => hsteps step' (List.mem_cons_of_mem _ hstep')
    unfold readNextChunk
    by_cases hroom : filled.length < capacity
    · rw [if_pos hroom]
      cases step with
      | interrupted => exact ih htail
      | failed => exact absurd rfl (hsteps _ List.mem_cons_self).1
      | data bytes =>
        have hne : bytes ≠ [] := fun heq =>
          (hsteps _ List.mem_cons_self).2 (congrArg ReadStep.data heq)
        simp only
        rw [if_neg hne]
        by_cases hfits : bytes.length ≤ capacity - filled.length
        · rw [if_pos hfits]
          exact ih htail
        · -- the fragment is cut, and what is left of it is not empty
          rw [if_neg hfits]
          refine ⟨_, _, rfl, List.forall_mem_cons.mpr ⟨⟨fun heq => ?_, fun heq => ?_⟩, htail⟩⟩
          · cases heq
          have hnil := List.drop_eq_nil_iff.mp (ReadStep.data.inj heq)
          omega
    · rw [if_neg hroom]
      exact ⟨_, _, rfl, hsteps⟩

/-- A buffer takes the next bytes of the plaintext; it is short only if nothing is left. -/
theorem Delivers.readNextChunk (h : reader.Delivers plaintext) (capacity : ℕ) :
    ∃ rest, readNextChunk capacity [] reader = .ok (plaintext.take capacity, rest) ∧
      rest.Delivers (plaintext.drop capacity) ∧
      ((plaintext.take capacity).length < capacity → rest.contents = []) := by
  obtain ⟨chunk, rest, hread, hsteps⟩ := @exists_readNextChunk reader [] capacity h.steps
  obtain ⟨-, hchunk, hrest⟩ := readNextChunk_ok h.endsOnce (Nat.zero_le _) hread
  rw [List.nil_append, List.length_nil, Nat.sub_zero, h.contents] at hchunk
  rw [List.length_nil, Nat.sub_zero, h.contents] at hrest
  subst hchunk
  refine ⟨rest, hread, ⟨hsteps, hrest⟩, fun hshort => ?_⟩
  rw [hrest, List.drop_eq_nil_iff]
  rw [List.length_take] at hshort
  omega

theorem Delivers.chunksWithin (h : reader.Delivers plaintext) (fuel : ℕ) :
    (chunksWithin capacity fuel reader).2 = .ok () := by
  induction fuel generalizing reader plaintext with
  | zero => rfl
  | succ fuel ih =>
    obtain ⟨rest, hread, hrest, -⟩ := h.readNextChunk capacity
    rw [Reader.chunksWithin, hread]
    cases plaintext.take capacity with
    | nil => rfl
    | cons b bs => exact ih hrest

/-- The buffers are the pieces of the plaintext. -/
theorem Delivers.chunks (h : reader.Delivers plaintext) (hcapacity : 0 < capacity) :
    reader.chunks capacity = (Chunks.chunks capacity plaintext, .ok ()) := by
  have hending : (reader.chunks capacity).2 = .ok () := h.chunksWithin _
  have hpieces := chunks_eq hcapacity h.endsOnce (Prod.ext rfl hending)
  rw [h.contents] at hpieces
  exact Prod.ext hpieces hending

end Reader

/-! ### The two paths -/

/-- What a version cannot be cut into: the size is not a positive 32-bit number, or there are more pieces
than the nonce budget allows. -/
def Oversized (size len : ℕ) : Prop :=
  size = 0 ∨ 2 ^ 32 ≤ size ∨ maxChunksPerVersion.toNat < Chunks.count size len

section

variable {ω : Type} [Machine ω] {prim : Primitives} {v : Vault} {rootKey : Block 32} {db : Database}
  {o : ObjectId} {c : Choices} {plaintext : Bytes} {size : ℕ} {script : List Bytes} {w : World ω}

/-- The call rejected its arguments and changed neither the vault nor the tables. -/
def Rejected {α : Type} (v : Vault) (db : Database) (outcome : Outcome VaultError (World ω) α) : Prop :=
  (∃ text, outcome.result = some (.error (.invalidInput text))) ∧ outcome.state.vault = v ∧
    outcome.state.db = db

omit [Machine ω] in
/-- A call that only stops with `InvalidInput`, and changes nothing then. -/
theorem Rejected.of_triple {α : Type} {pre : World ω → Prop} {x : VaultOp ω α} (hpre : pre w)
    (h : Op.Triple pre x (fun _ _ => False)
      fun e w => (∃ text, e = some (.invalidInput text)) ∧ w.vault = v ∧ w.db = db) :
    Rejected v db (x w) := by
  have hw := h w hpre
  cases hx : x w with
  | ok a w' => rw [hx] at hw; exact hw.elim
  | failed e w' =>
    rw [hx] at hw
    obtain ⟨⟨text, he⟩, hvault, hdb⟩ := hw
    obtain rfl := Option.some.inj he
    exact ⟨⟨text, rfl⟩, hvault, hdb⟩
  | crashed w' =>
    rw [hx] at hw
    obtain ⟨⟨text, he⟩, -⟩ := hw
    cases he

/-- `put_with_chunk_size` rejects before it draws or stores anything. -/
theorem World.Ready.putWithChunkSize_rejected (hw : w.Ready v db script) (hkey : v.rootKey = some rootKey)
    (h : Oversized size plaintext.length) :
    Rejected v db (Vlt1.putWithChunkSize prim o plaintext size w) := by
  refine Rejected.of_triple hw (triple_lockAfterFailure_of_locked ?_ ?_)
  · have hstop : ∀ (text : String) (w : World ω), w.Ready v db script →
        (∃ text', some (VaultError.invalidInput text) = some (.invalidInput text')) ∧
          w.vault = v ∧ w.db = db := fun text w hw => ⟨⟨text, rfl⟩, hw.vault, hw.db⟩
    refine Op.Triple.bind (fun _ _ => False) ?_ fun _ _ hfalse => hfalse.elim
    refine Op.Triple.bind _ ((World.Ready.requireRootKey hkey).triple _) fun key => ?_
    refine Op.Triple.of_imp fun heq => ?_
    subst heq
    refine Op.Triple.bind_get fun w0 hw0 => ?_
    refine Op.Triple.conseq ?_ (fun w hw => hw ▸ hw0) (fun _ _ h => h) fun _ _ h => h
    refine Op.Triple.bind_require (fun hzero => ?_) fun w _ => hstop _ w
    refine Op.Triple.bind_require (fun hsize => ?_) fun w _ => hstop _ w
    refine Op.Triple.bind_require (fun _ => ?_) fun w _ => hstop _ w
    refine Op.Triple.bind_require (fun _ => ?_) fun w _ => hstop _ w
    refine Op.Triple.bind_require (fun hbudget => ?_) fun w _ => hstop _ w
    rcases h with h | h | h
    · exact absurd h hzero
    · exact absurd h (Nat.not_le.mpr hsize)
    · exact absurd hbudget (Nat.not_le.mpr h)
  · rintro e w ⟨⟨text, he⟩, -⟩ hlocks
    obtain rfl := Option.some.inj he
    cases hlocks

/-- The size is rejected before the reader is asked for anything. -/
theorem World.Ready.putFromReader_size_rejected {reader : Reader} (hw : w.Ready v db script)
    (h : size = 0 ∨ 2 ^ 32 ≤ size) :
    Rejected v db (Vlt1.putFromReaderWithChunkSize prim o reader size w) := by
  refine Rejected.of_triple hw (triple_lockAfterFailure_of_locked ?_ ?_)
  · refine Op.Triple.bind_require (fun hzero => ?_) fun w _ hw => ⟨⟨_, rfl⟩, hw.vault, hw.db⟩
    refine Op.Triple.bind_require (fun hsize => ?_) fun w _ hw => ⟨⟨_, rfl⟩, hw.vault, hw.db⟩
    rcases h with h | h
    · exact absurd h hzero
    · exact absurd h (Nat.not_le.mpr hsize)
  · rintro e w ⟨⟨text, he⟩, -⟩ hlocks
    obtain rfl := Option.some.inj he
    cases hlocks

/-- The two calls end in the same way: both reject, or both publish one and the same version, whose chunks
are the non-empty pieces of the plaintext. -/
inductive SamePublication (prim : Primitives) (c : Choices) (v : Vault) (db : Database) (o : ObjectId)
    (size : ℕ) (plaintext : Bytes) (buffered streamed : Outcome VaultError (World ω) VersionId) : Prop
  | rejected (oversized : Oversized size plaintext.length) (left : Rejected v db buffered)
      (right : Rejected v db streamed)
  | published (fits : ¬Oversized size plaintext.length) (d : Draft)
      (prepares : c.Prepares prim v o size (Chunks.chunks size plaintext) d)
      (of : d.Of o plaintext) (nonempty : ∀ part ∈ d.parts, part.1 ≠ [])
      (left : buffered.result = some (.ok c.versionId) ∧ buffered.state.db = d.published db)
      (right : streamed.result = some (.ok c.versionId) ∧ streamed.state.db = d.published db)

/-- **Streaming equals buffering.** For the same random values, a reader that delivers the plaintext is
published as the plaintext itself is; each of its buffers is the next piece, and short only at the end. -/
theorem streaming_equals_buffered (hprim : prim.Seals) (hkey : v.rootKey = some rootKey)
    {reader : Reader} (hreader : reader.Delivers plaintext) {w w' : World ω}
    (hbuffered : w.Ready v db (c.bufferedScript (Chunks.count size plaintext.length)))
    (hstreamed : w'.Ready v db (c.streamedScript (Chunks.count size plaintext.length)))
    (haccepts : db.Accepts c (Chunks.count size plaintext.length)) :
    SamePublication prim c v db o size plaintext (putWithChunkSize prim o plaintext size w)
        (putFromReaderWithChunkSize prim o reader size w') ∧
      ∃ rest, readNextChunk size [] reader = .ok (plaintext.take size, rest) ∧
        rest.Delivers (plaintext.drop size) ∧
        ((plaintext.take size).length < size → rest.contents = []) := by
  refine ⟨?_, hreader.readNextChunk size⟩
  by_cases hrange : size = 0 ∨ 2 ^ 32 ≤ size
  · have hover : Oversized size plaintext.length := hrange.imp_right .inl
    exact .rejected hover (hbuffered.putWithChunkSize_rejected hkey hover)
      (hstreamed.putFromReader_size_rejected hrange)
  obtain ⟨hzero, hsize⟩ := not_or.mp hrange
  have hpos : 0 < size := Nat.pos_of_ne_zero hzero
  rw [Nat.not_le] at hsize
  -- the keys the two paths derive
  obtain ⟨kek, hkek⟩ := exists_deriveDomainKey hprim rootKey v.envelope.vaultId.blob kekLabel
  obtain ⟨manifestKey, hmanifest⟩ :=
    exists_deriveDomainKey hprim c.dataKey c.versionId.blob manifestKeyLabel
  have hlength := Chunks.length_chunks size plaintext
  have hpieces : ∀ piece ∈ Chunks.chunks size plaintext, piece.length < 2 ^ 32 := by
    intro piece hpiece
    obtain ⟨i, -, rfl⟩ := List.mem_map.mp hpiece
    exact (Chunks.length_segment_le i).trans_lt hsize
  have hstream := World.Ready.putFromReaderWithChunkSize (ω := ω) (v := v) (o := o) hprim hkey hkek
    hmanifest hpos hsize (hreader.chunks hpos) hpieces (hlength ▸ haccepts)
  rw [hlength] at hstream
  by_cases hcount : maxChunksPerVersion.toNat < Chunks.count size plaintext.length
  · -- the reader has more buffers than the budget allows
    have hover : Oversized size plaintext.length := .inr (.inr hcount)
    refine .rejected hover (hbuffered.putWithChunkSize_rejected hkey hover)
      (Rejected.of_triple hstreamed (hstream.conseq (fun _ h => h) ?_ ?_))
    · rintro u w ⟨⟨-, -, hle⟩, -⟩
      omega
    · rintro e w ⟨⟨rfl, -, hvault⟩ | ⟨e', -, herror⟩, hdb⟩
      · exact ⟨⟨_, rfl⟩, hvault, hdb⟩
      · cases herror
  · have hle := Nat.not_lt.mp hcount
    have hd := Choices.prepares_draft (o := o) hprim hkey hkek hmanifest hpos hsize (hlength ▸ hle) hpieces
    obtain ⟨u, w1, hput, rfl, hready⟩ := (World.Ready.putWithChunkSize (o := o) hprim hkey hkek hmanifest
      hpos hsize hle haccepts).eq_ok hbuffered
    obtain ⟨u, w2, hputReader, ⟨rfl, -⟩, hready'⟩ := Op.Total.eq_ok (hstream.mono_stop
      fun e w h => h.1.elim (fun hmany => hcount hmany.2.1) nofun) hstreamed
    refine .published ?_ _ hd (hd.of hpos) ?_ ?_ ?_
    · rintro (h | h | h)
      · exact hzero h
      · omega
      · exact hcount h
    · intro part hpart hempty
      have hmem := List.mem_map_of_mem (f := Prod.fst) hpart
      rw [hd.parts, Choices.map_fst_parts] at hmem
      obtain ⟨i, hi, hsegment⟩ := List.mem_map.mp hmem
      have hlen := Chunks.length_segment_pos (l := plaintext) hpos (List.mem_range.mp hi)
      rw [hsegment, hempty] at hlen
      exact absurd hlen (lt_irrefl _)
    · rw [hput]
      exact ⟨rfl, hready.db⟩
    · rw [hputReader]
      exact ⟨rfl, hready'.db⟩

end

/-! ### A machine that follows a script -/

/-- Surroundings that work, with the random values still to come. -/
structure Tape where
  values : List Bytes

namespace Tape

/-- The next value, if it has the right length. -/
def draw (n : ℕ) (t : Tape) : Block n × Tape :=
  match t.values with
  | [] => (Block.zero n, t)
  | b :: rest => (if h : b.length = n then ⟨b, h⟩ else Block.zero n, ⟨rest⟩)

instance : Machine Tape where
  fault t := (.none, t)
  interfere db t := (db, t)
  files t := (.ownerPrivate, t)
  random := draw
  write _ t := (none, t)
  backup _ _ t := (.error .storage, t)
  elapse t := t

theorem follows (script : List Bytes) : Machine.Follows (Tape.mk script) script := by
  refine ⟨fun l => {t | t.values = l}, rfl, ?_⟩
  rintro l t rfl
  refine ⟨⟨rfl, rfl⟩, fun _ => ⟨rfl, rfl⟩, ⟨rfl, rfl⟩, fun n b rest hvalues => ?_⟩
  have hdraw : draw n t = (b, ⟨rest⟩) := by
    rw [draw, hvalues]
    simp only [Block.length_toList, dif_pos]
  exact ⟨congrArg Prod.fst hdraw, congrArg (Tape.values ∘ Prod.snd) hdraw⟩

end Tape

theorem Primitives.seals_transparent : Primitives.transparent.Seals where
  encrypt _ _ _ _ _ := rfl
  hkdf _ _ _ := rfl

/-- Random values in which the nonce of a chunk starts with its index. -/
def choicesSample : Choices where
  versionId := .repeated 3
  dataKey := Block.zero 32
  dekNonce := Block.zero 12
  manifestNonce := Block.zero 12
  chunkNonce i := ⟨UInt8.ofNat i :: List.replicate 11 0, by simp⟩

/-- An unlocked vault. -/
def unlockedSample : Vault where
  envelope := ⟨.repeated 1, Block.zero 16, .interactive, ⟨Block.zero 12, []⟩⟩
  rootKey := some (Block.zero 32)

/-- Its world without any objects, with random values to come. -/
def taped (script : List Bytes) : World Tape where
  vault := unlockedSample
  db := .empty
  sink := []
  history := []
  outside := ⟨script⟩

theorem ready_taped (script : List Bytes) : (taped script).Ready unlockedSample .empty script :=
  ⟨rfl, rfl, Tape.follows script⟩

theorem accepts_choicesSample : Database.empty.Accepts choicesSample 2 where
  fresh := rfl
  unused := by nofun
  distinct := by decide

/-- Three bytes in chunks of two, read in fragments of one and two bytes with an interruption. -/
theorem streaming_equals_buffered_fragments :
    SamePublication .transparent choicesSample unlockedSample .empty (.repeated 2) 2 [1, 2, 3]
        (putWithChunkSize .transparent (.repeated 2) [1, 2, 3] 2 (taped (choicesSample.bufferedScript 2)))
        (putFromReaderWithChunkSize .transparent (.repeated 2) [.data [1], .interrupted, .data [2, 3]] 2
          (taped (choicesSample.streamedScript 2))) ∧
      ∃ rest, readNextChunk 2 [] [.data [1], .interrupted, .data [2, 3]] = .ok ([1, 2], rest) ∧
        Reader.Delivers rest [3] ∧ (2 < 2 → Reader.contents rest = []) :=
  streaming_equals_buffered Primitives.seals_transparent rfl
    (show Reader.Delivers [.data [1], .interrupted, .data [2, 3]] [1, 2, 3] from ⟨by decide, rfl⟩)
    (ready_taped _) (ready_taped _) accepts_choicesSample

end Vlt1
