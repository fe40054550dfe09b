import Vlt1.Upload
import Vlt1.Vault.Readers

/-!
# The items of a binary stream

What one side of a stream has sent is a sequence of bytes; the other side takes one item after another
from it. `receivedItems` is what it takes until the end marker, an error marker or bytes that are no item.
The bytes hold a complete stream (`Completes`) exactly when an end marker is what comes first
(`receivedItems_of_completes`).

The daemon puts `StreamReader` between the items and the buffers of the vault. It hands out an item in as
many pieces as the buffers ask for; `StreamReader.buffersWithin_eq` says that the buffers are the same as
if the items had been read from a list.
-/

namespace Vlt1.Protocol

open Effect Framing

variable {responses : Codec Response} {input next : Input UInt8} {chunks : List Bytes}

/-! ### What a reader has taken -/

/-- Exactly the bytes asked for are consumed. -/
theorem readExact_eq_ok {n : ℕ} {bytes : Bytes} (h : readExact n input = .ok bytes next) :
    bytes.length = n ∧ input.rest = bytes ++ next.rest ∧ next.broken = input.broken := by
  unfold readExact Framing.readExact at h
  split at h
  · rename_i hle
    obtain ⟨rfl, rfl⟩ := Outcome.ok.inj h
    exact ⟨List.length_take_of_le hle, (List.take_append_drop n input.rest).symm, rfl⟩
  · cases h

/-- A length consumes its own four bytes. -/
theorem readLength_eq_ok {n : UInt32} (h : readLength input = .ok n next) :
    input.rest = Bytes.be32 n ++ next.rest := by
  obtain ⟨header, s, hread, hreturn⟩ := Op.bind_eq_ok.mp h
  obtain ⟨rfl, rfl⟩ := Outcome.ok.inj hreturn
  obtain ⟨hlength, hrest, -⟩ := readExact_eq_ok hread
  have hbytes := Bytes.toBe_ofBe header
  rw [hlength] at hbytes
  rw [hrest, Bytes.be32, toNat_ofBe hlength, hbytes]

/-- A data item was written as a chunk within the limits. -/
theorem readStreamItem_data {bytes : Bytes}
    (h : readStreamItem responses input = .ok (.data bytes) next) :
    (bytes ≠ [] ∧ bytes.length ≤ maxStreamChunkBytes) ∧ input.rest = prefixed bytes ++ next.rest := by
  obtain ⟨n, s, hlength, h⟩ := Op.bind_eq_ok.mp h
  have hrest := readLength_eq_ok hlength
  split at h
  · cases h
  · rename_i hend
    split at h
    · obtain ⟨response, t, -, hreturn⟩ := Op.bind_eq_ok.mp h
      cases hreturn
    · obtain ⟨_, t, hcheck, h⟩ := Op.bind_eq_ok.mp h
      obtain ⟨hle, rfl⟩ := Op.require_eq_ok.mp hcheck
      obtain ⟨data, t, hdata, hreturn⟩ := Op.bind_eq_ok.mp h
      cases hreturn
      obtain ⟨hlen, hbody, -⟩ := readExact_eq_ok hdata
      refine ⟨⟨?_, hlen ▸ hle⟩, ?_⟩
      · -- a length of zero is the end marker
        rintro rfl
        exact hend (UInt32.toNat_inj.mp hlen.symm)
      · rw [hrest, hbody, prefixed, hlen, UInt32.ofNat_toNat, List.append_assoc]

/-- Only the end marker is read as the end. -/
theorem readStreamItem_finish (h : readStreamItem responses input = .ok .finish next) :
    input.rest = Bytes.be32 streamEnd ++ next.rest := by
  obtain ⟨n, s, hlength, h⟩ := Op.bind_eq_ok.mp h
  have hrest := readLength_eq_ok hlength
  split at h
  · rename_i hend
    cases h
    rw [← hend]
    exact hrest
  · split at h
    · obtain ⟨response, t, -, hreturn⟩ := Op.bind_eq_ok.mp h
      cases hreturn
    · obtain ⟨_, t, -, h⟩ := Op.bind_eq_ok.mp h
      obtain ⟨data, t, -, hreturn⟩ := Op.bind_eq_ok.mp h
      cases hreturn

/-! ### The items until the stream ends -/

variable (responses) in
/-- The items taken from a connection until a marker or a failed read. Each takes at least its length
bytes, so `fuel` above the length of the input never runs out. -/
def receivedWithin : ℕ → Input UInt8 → List Vlt1.StreamItem
  | 0, _ => []
  | fuel + 1, input =>
    match readStreamItem responses input with
    | .ok (.data bytes) next => .data bytes :: receivedWithin fuel next
    | .ok .finish _ => [.finish]
    | .ok (.error _) _ => [.error]
    | _ => []

variable (responses) in
/-- The items taken from a connection. -/
def receivedItems (input : Input UInt8) : List Vlt1.StreamItem :=
  receivedWithin responses (input.rest.length + 1) input

/-- A chunk that fits into a data item. -/
def IsItem (chunk : Bytes) : Prop := chunk ≠ [] ∧ chunk.length ≤ maxStreamChunkBytes

/-- The bytes begin with data items for the chunks and the end marker. -/
def Completes (bytes : Bytes) (chunks : List Bytes) : Prop :=
  (∀ chunk ∈ chunks, IsItem chunk) ∧
    ∃ rest, bytes = (chunks.map prefixed).flatten ++ (Bytes.be32 streamEnd ++ rest)

/-- Every item with data consumes bytes, so that reading ends. -/
theorem length_lt_of_data {bytes : Bytes}
    (h : readStreamItem responses input = .ok (.data bytes) next) :
    next.rest.length < input.rest.length := by
  rw [(readStreamItem_data h).2, prefixed, List.length_append, List.length_append, Bytes.length_be32]
  omega

variable (responses) in
/-- A complete stream without items is at its end marker. -/
theorem Completes.read_nil (h : Completes input.rest []) :
    ∃ next, readStreamItem responses input = .ok .finish next := by
  obtain ⟨-, rest, hrest⟩ := h
  obtain ⟨bytes, broken⟩ := input
  obtain rfl : bytes = _ := hrest
  exact ⟨_, reads_finish.whole rest broken⟩

variable (responses) in
/-- A complete stream is at its first item, and complete behind it. -/
theorem Completes.read_cons {chunk : Bytes} (h : Completes input.rest (chunk :: chunks)) :
    ∃ next, readStreamItem responses input = .ok (.data chunk) next ∧ Completes next.rest chunks := by
  obtain ⟨hitems, rest, hrest⟩ := h
  obtain ⟨hchunk, hitems⟩ := List.forall_mem_cons.mp hitems
  obtain ⟨bytes, broken⟩ := input
  obtain rfl : bytes = _ := hrest
  rw [List.map_cons, List.flatten_cons, List.append_assoc]
  exact ⟨_, (reads_data hchunk.1 hchunk.2).whole _ broken, hitems, rest, rfl⟩

/-- A complete stream is received as it was sent. -/
theorem receivedWithin_of_completes {fuel : ℕ} (h : Completes input.rest chunks)
    (hfuel : input.rest.length < fuel) : receivedWithin responses fuel input = upload chunks := by
  induction fuel generalizing chunks input with
  | zero => cases hfuel
  | succ fuel ih =>
    cases chunks with
    | nil =>
      obtain ⟨next, hread⟩ := h.read_nil responses
      rw [receivedWithin, hread]
      rfl
    | cons chunk chunks =>
      obtain ⟨next, hread, hnext⟩ := h.read_cons responses
      rw [receivedWithin, hread]
      exact congrArg (Vlt1.StreamItem.data chunk :: ·) (ih hnext
        (Nat.lt_of_lt_of_le (length_lt_of_data hread) (Nat.lt_succ_iff.mp hfuel)))

/-- How a received stream ends: with the end marker, or without it. -/
theorem receivedWithin_cases (responses : Codec Response) (fuel : ℕ) (input : Input UInt8) :
    ∃ chunks, (∀ chunk ∈ chunks, IsItem chunk) ∧
      ((receivedWithin responses fuel input = upload chunks ∧ Completes input.rest chunks) ∨
        receivedWithin responses fuel input = chunks.map .data ∨
        receivedWithin responses fuel input = chunks.map .data ++ [.error]) := by
  induction fuel generalizing input with
  | zero => exact ⟨[], by simp, .inr (.inl rfl)⟩
  | succ fuel ih =>
    rw [receivedWithin]
    split
    · rename_i bytes next hread
      obtain ⟨hbytes, hrest⟩ := readStreamItem_data hread
      obtain ⟨chunks, hchunks, hcases⟩ := ih next
      refine ⟨bytes :: chunks, List.forall_mem_cons.mpr ⟨hbytes, hchunks⟩, ?_⟩
      rcases hcases with ⟨hitems, -, rest, hnext⟩ | hitems | hitems
      · refine .inl ⟨by rw [hitems]; rfl, List.forall_mem_cons.mpr ⟨hbytes, hchunks⟩, rest, ?_⟩
        rw [hrest, hnext, List.map_cons, List.flatten_cons, List.append_assoc]
      · exact .inr (.inl (by rw [hitems]; rfl))
      · exact .inr (.inr (by rw [hitems]; rfl))
    · rename_i next hread
      exact ⟨[], by simp, .inl ⟨rfl, by simp, next.rest, readStreamItem_finish hread⟩⟩
    · exact ⟨[], by simp, .inr (.inr rfl)⟩
    · exact ⟨[], by simp, .inr (.inl rfl)⟩

/-- A complete stream is received as its items. -/
theorem receivedItems_of_completes (h : Completes input.rest chunks) :
    receivedItems responses input = upload chunks :=
  receivedWithin_of_completes h (Nat.lt_succ_self _)

/-- As much fuel as there are bytes is enough. -/
theorem receivedWithin_congr {fuel fuel' : ℕ} (h : input.rest.length < fuel)
    (h' : input.rest.length < fuel') :
    receivedWithin responses fuel input = receivedWithin responses fuel' input := by
  induction fuel generalizing fuel' input with
  | zero => cases h
  | succ fuel ih =>
    cases fuel' with
    | zero => cases h'
    | succ fuel' =>
      rw [receivedWithin, receivedWithin]
      split
      · rename_i bytes next hread
        have hlt := length_lt_of_data hread
        rw [ih (by omega) (show next.rest.length < fuel' by omega)]
      all_goals rfl

/-- One more item of the connection. -/
theorem receivedItems_data {bytes : Bytes}
    (h : readStreamItem responses input = .ok (.data bytes) next) :
    receivedItems responses input = .data bytes :: receivedItems responses next := by
  have hlt := length_lt_of_data h
  rw [receivedItems, receivedWithin, h]
  exact congrArg (Vlt1.StreamItem.data bytes :: ·) (receivedWithin_congr hlt (Nat.lt_succ_self _))

theorem receivedItems_finish (h : readStreamItem responses input = .ok .finish next) :
    receivedItems responses input = [.finish] := by
  rw [receivedItems, receivedWithin, h]

theorem receivedItems_error {r : Response} (h : readStreamItem responses input = .ok (.error r) next) :
    receivedItems responses input = [.error] := by
  rw [receivedItems, receivedWithin, h]

/-- Where the stream breaks off nothing more is received. -/
theorem receivedItems_failed (h : ∀ item next, readStreamItem responses input ≠ .ok item next) :
    receivedItems responses input = [] := by
  rw [receivedItems, receivedWithin]
  split
  · exact absurd ‹_› (h _ _)
  · exact absurd ‹_› (h _ _)
  · exact absurd ‹_› (h _ _)
  · rfl

variable (responses) in
/-- Without the end marker, what was received fails the reader at its end. -/
theorem receivedItems_incomplete (h : ∀ chunks, ¬Completes input.rest chunks) :
    ∃ chunks : List Bytes, (∀ chunk ∈ chunks, IsItem chunk) ∧
      (receivedItems responses input = chunks.map .data ∨
        receivedItems responses input = chunks.map .data ++ [.error]) := by
  obtain ⟨chunks, hchunks, ⟨-, hcompletes⟩ | hcases⟩ := receivedWithin_cases responses
    (input.rest.length + 1) input
  · exact absurd hcompletes (h chunks)
  · exact ⟨chunks, hchunks, hcases⟩

/-! ### The daemon's reader -/

/-- `StreamReader`: the connection, the item in hand and how much of it was handed out. -/
structure StreamReader where
  input : Input UInt8
  current : Bytes
  offset : ℕ
  finished : Bool

namespace StreamReader

/-- A reader over a connection. -/
def new (input : Input UInt8) : StreamReader := ⟨input, [], 0, false⟩

variable (responses) in
/-- `read` into a buffer of `n` bytes. The loop goes on while the item in hand is used up. -/
def readWithin (n : ℕ) : ℕ → StreamReader → ReadStep × StreamReader
  | 0, r => (.failed, r)
  | fuel + 1, r =>
    if r.offset = r.current.length then
      if r.finished then (.data [], { r with current := [], offset := 0 })
      else
        match readStreamItem responses r.input with
        | .ok (.data data) input => readWithin n fuel { r with input, current := data, offset := 0 }
        | .ok .finish input => (.data [], { input, current := [], offset := 0, finished := true })
        | .ok (.error _) input => (.failed, { r with input, current := [], offset := 0 })
        | .failed _ input => (.failed, { r with input, current := [], offset := 0 })
        | .crashed input => (.failed, { r with input, current := [], offset := 0 })
    else
      let available := r.current.drop r.offset
      let copied := min available.length n
      (.data (available.take copied), { r with offset := r.offset + copied })

variable (responses) in
/-- `StreamReader::read`. -/
def read (n : ℕ) (r : StreamReader) : ReadStep × StreamReader :=
  if n = 0 then (.data [], r) else readWithin responses n (r.input.rest.length + 2) r

end StreamReader

/-- `read_next_chunk` over any reader: fill a buffer of `capacity` bytes. A read that neither ends nor
fails yields a byte or is an interruption; `fuel` bounds their number. -/
def fillBuffer {σ : Type} (read : ℕ → σ → ReadStep × σ) (capacity : ℕ) :
    ℕ → Bytes → σ → Except VaultError (Bytes × σ)
  | 0, filled, s => .ok (filled, s)
  | fuel + 1, filled, s =>
    if filled.length < capacity then
      match read (capacity - filled.length) s with
      | (.interrupted, s) => fillBuffer read capacity fuel filled s
      | (.failed, _) => .error .storage
      | (.data [], s) => .ok (filled, s)
      | (.data bytes, s) => fillBuffer read capacity fuel (filled ++ bytes) s
    else .ok (filled, s)

/-- The buffers filled until end of file, and how reading ended. -/
def buffersWithin {σ : Type} (read : ℕ → σ → ReadStep × σ) (capacity : ℕ) :
    ℕ → σ → List Bytes × Except VaultError Unit
  | 0, _ => ([], .ok ())
  | fuel + 1, s =>
    match fillBuffer read capacity (capacity + 1) [] s with
    | .error e => ([], .error e)
    | .ok ([], _) => ([], .ok ())
    | .ok (chunk, s) =>
      let (chunks, ending) := buffersWithin read capacity fuel s
      (chunk :: chunks, ending)

theorem fillBuffer_data {σ : Type} {read : ℕ → σ → ReadStep × σ} {capacity fuel : ℕ}
    {filled bytes : Bytes} {s s' : σ} (hroom : filled.length < capacity) (hne : bytes ≠ [])
    (hread : read (capacity - filled.length) s = (.data bytes, s')) :
    fillBuffer read capacity (fuel + 1) filled s =
      fillBuffer read capacity fuel (filled ++ bytes) s' := by
  rw [fillBuffer, if_pos hroom, hread]
  cases bytes with
  | nil => exact absurd rfl hne
  | cons b bs => rfl

/-- A fragment in front is taken as far as there is room. -/
theorem readNextChunk_data {capacity : ℕ} {filled bytes : Bytes} {rest : Reader}
    (hroom : filled.length < capacity) (hne : bytes ≠ []) :
    readNextChunk capacity filled (.data bytes :: rest) =
      readNextChunk capacity (filled ++ bytes.take (capacity - filled.length))
        (if bytes.length ≤ capacity - filled.length then rest
          else .data (bytes.drop (capacity - filled.length)) :: rest) := by
  conv_lhs => unfold readNextChunk
  simp only
  rw [if_pos hroom, if_neg hne]
  by_cases hfits : bytes.length ≤ capacity - filled.length
  · rw [if_pos hfits, if_pos hfits, List.take_of_length_le hfits]
  · -- the buffer is full
    have hfull : ¬(filled ++ bytes.take (capacity - filled.length)).length < capacity := by
      rw [List.length_append, List.length_take]
      omega
    rw [if_neg hfits, if_neg hfits]
    conv_rhs => unfold readNextChunk
    rw [if_neg hfull]

namespace StreamReader

variable (responses) in
/-- What the reader still has to hand out. -/
def remaining (r : StreamReader) : Reader :=
  let rest := if r.finished then [] else streamReader (receivedItems responses r.input)
  if r.offset < r.current.length then .data (r.current.drop r.offset) :: rest else rest

/-- The part handed out is part of the item. -/
def Valid (r : StreamReader) : Prop := r.offset ≤ r.current.length

theorem streamReader_data {bytes : Bytes} (h : bytes ≠ []) (items : List Vlt1.StreamItem) :
    streamReader (.data bytes :: items) = .data bytes :: streamReader items := by
  cases bytes with
  | nil => exact absurd rfl h
  | cons b bs => rfl

/-- With bytes in hand the loop does not run. -/
theorem readWithin_current {r : StreamReader} (n fuel : ℕ) (hoffset : r.offset < r.current.length) :
    readWithin responses n (fuel + 1) r =
      (.data ((r.current.drop r.offset).take (min (r.current.length - r.offset) n)),
        { r with offset := r.offset + min (r.current.length - r.offset) n }) := by
  rw [readWithin, if_neg hoffset.ne]
  simp only [List.length_drop]

variable (responses) in
/-- The bytes in hand are handed out first. -/
theorem read_current {r : StreamReader} {n : ℕ} (hn : 0 < n) (hoffset : r.offset < r.current.length) :
    ∃ r', read responses n r = (.data ((r.current.drop r.offset).take n), r') ∧ r'.Valid ∧
      r'.remaining responses =
        if (r.current.drop r.offset).length ≤ n then
          if r.finished then [] else streamReader (receivedItems responses r.input)
        else .data ((r.current.drop r.offset).drop n) ::
          if r.finished then [] else streamReader (receivedItems responses r.input) := by
  have hlength : (r.current.drop r.offset).length = r.current.length - r.offset := List.length_drop
  refine ⟨{ r with offset := r.offset + min (r.current.length - r.offset) n }, ?_, ?_, ?_⟩
  · rw [read, if_neg hn.ne', readWithin_current n _ hoffset]
    rcases Nat.le_total (r.current.length - r.offset) n with hle | hle
    · rw [Nat.min_eq_left hle, List.take_of_length_le hlength.le,
        List.take_of_length_le (hlength.le.trans hle)]
    · rw [Nat.min_eq_right hle]
  · show r.offset + min (r.current.length - r.offset) n ≤ r.current.length
    omega
  · rw [remaining, hlength]
    simp only
    by_cases hle : r.current.length - r.offset ≤ n
    · rw [if_pos hle, Nat.min_eq_left hle, if_neg (by omega)]
    · rw [if_neg hle, Nat.min_eq_right (Nat.le_of_not_le hle), if_pos (by omega), List.drop_drop]

variable (responses) in
/-- What one read does: end of file, the next bytes, or a failure. -/
inductive ReadsAs (n : ℕ) (r : StreamReader) : Prop
  | ended (r' : StreamReader) (hread : read responses n r = (.data [], r')) (hvalid : r'.Valid)
      (before : r.remaining responses = []) (after : r'.remaining responses = [])
  | yields (bytes : Bytes) (rest : Reader) (r' : StreamReader) (hne : bytes ≠ [])
      (hread : read responses n r = (.data (bytes.take n), r')) (hvalid : r'.Valid)
      (before : r.remaining responses = .data bytes :: rest)
      (after : r'.remaining responses =
        if bytes.length ≤ n then rest else .data (bytes.drop n) :: rest)
  | fails (rest : Reader) (r' : StreamReader) (hread : read responses n r = (.failed, r'))
      (before : r.remaining responses = .failed :: rest)

variable (responses) in
/-- The reader gives the bytes of the items, as many at a time as are asked for. -/
theorem readsAs {r : StreamReader} {n : ℕ} (hr : r.Valid) (hn : 0 < n) : ReadsAs responses n r := by
  rcases Nat.lt_or_eq_of_le hr with hoffset | hoffset
  · -- part of an item is in hand
    obtain ⟨r', hread, hvalid, hafter⟩ := read_current responses hn hoffset
    refine .yields _ _ r' ?_ hread hvalid (by rw [remaining, if_pos hoffset]) hafter
    rw [ne_eq, List.drop_eq_nil_iff]
    omega
  have hremaining : r.remaining responses =
      if r.finished then [] else streamReader (receivedItems responses r.input) := by
    rw [remaining, if_neg (by omega)]
  by_cases hfinished : r.finished = true
  · refine .ended { r with current := [], offset := 0 } ?_ (Nat.le_refl 0) ?_ ?_
    · rw [read, if_neg hn.ne', readWithin, if_pos hoffset, if_pos hfinished]
    · rw [hremaining, if_pos hfinished]
    · rw [remaining]
      simp [hfinished]
  · rw [if_neg hfinished] at hremaining
    have hread : read responses n r = readWithin responses n (r.input.rest.length + 2) r :=
      if_neg hn.ne'
    rw [readWithin, if_pos hoffset, if_neg hfinished] at hread
    cases hitem : readStreamItem responses r.input with
    | ok item input =>
      rw [hitem] at hread
      cases item with
      | data bytes =>
        obtain ⟨⟨hne, -⟩, -⟩ := readStreamItem_data hitem
        have hpos : 0 < bytes.length := List.length_pos_iff.mpr hne
        -- the new item is in hand, and the loop ends
        obtain ⟨r', hcurrent, hvalid, hafter⟩ := 
          read_current responses (r := ⟨input, bytes, 0, r.finished⟩) hn hpos
        rw [receivedItems_data hitem, streamReader_data hne] at hremaining
        refine .yields bytes (streamReader (receivedItems responses input)) r' hne ?_ hvalid hremaining ?_
        · rw [read, if_neg hn.ne', readWithin_current n _ hpos] at hcurrent
          rw [hread]
          exact (readWithin_current n _ hpos).trans hcurrent
        · rw [hafter, if_neg hfinished]
          rfl
      | finish =>
        rw [receivedItems_finish hitem] at hremaining
        exact .ended _ hread (Nat.le_refl 0) hremaining rfl
      | error response =>
        rw [receivedItems_error hitem] at hremaining
        exact .fails [] _ hread hremaining
    | failed e input =>
      rw [hitem] at hread
      rw [receivedItems_failed (by rw [hitem]; nofun)] at hremaining
      exact .fails [] _ hread hremaining
    | crashed input =>
      rw [hitem] at hread
      rw [receivedItems_failed (by rw [hitem]; nofun)] at hremaining
      exact .fails [] _ hread hremaining

variable (responses) in
/-- A buffer is filled as from the list of what remains. -/
theorem fillBuffer_eq {r : StreamReader} {capacity fuel : ℕ} (filled : Bytes) (hr : r.Valid)
    (hfuel : capacity - filled.length < fuel) :
    (∃ chunk r', r'.Valid ∧ fillBuffer (read responses) capacity fuel filled r = .ok (chunk, r') ∧
      readNextChunk capacity filled (r.remaining responses) =
        .ok (chunk, r'.remaining responses)) ∨
    (fillBuffer (read responses) capacity fuel filled r = .error .storage ∧
      readNextChunk capacity filled (r.remaining responses) = .error .storage) := by
  induction fuel generalizing r filled with
  | zero => omega
  | succ fuel ih =>
    by_cases hroom : filled.length < capacity
    · rcases readsAs responses hr (Nat.sub_pos_of_lt hroom) with
        ⟨r', hread, hvalid, hbefore, hafter⟩ | ⟨bytes, rest, r', hne, hread, hvalid, hbefore, hafter⟩ |
          ⟨rest, r', hread, hbefore⟩
      · refine .inl ⟨filled, r', hvalid, by rw [fillBuffer, if_pos hroom, hread], ?_⟩
        rw [hbefore, hafter]
        rfl
      · have htake : bytes.take (capacity - filled.length) ≠ [] := by
          rw [ne_eq, List.take_eq_nil_iff]
          rintro (hzero | hnil)
          · omega
          · exact hne hnil
        have hlength := List.length_pos_iff.mpr htake
        rw [fillBuffer_data hroom htake hread, hbefore, readNextChunk_data hroom hne, ← hafter]
        exact ih _ hvalid (by rw [List.length_append]; omega)
      · refine .inr ⟨by rw [fillBuffer, if_pos hroom, hread], ?_⟩
        rw [hbefore]
        unfold readNextChunk
        rw [if_pos hroom]
    · refine .inl ⟨filled, r, hr, by rw [fillBuffer, if_neg hroom], ?_⟩
      cases r.remaining responses with
      | nil => rfl
      | cons step rest =>
        unfold readNextChunk
        rw [if_neg hroom]

/-- The buffers are those of the list of items. -/
theorem buffersWithin_eq (capacity fuel : ℕ) (input : Input UInt8) :
    buffersWithin (read responses) capacity fuel (new input) =
      Reader.chunksWithin capacity fuel (streamReader (receivedItems responses input)) := by
  suffices h : ∀ r : StreamReader, r.Valid → buffersWithin (read responses) capacity fuel r =
      Reader.chunksWithin capacity fuel (r.remaining responses) by
    exact h (new input) (Nat.le_refl 0)
  induction fuel with
  | zero => exact fun _ _ => rfl
  | succ fuel ih =>
    intro r hr
    rw [buffersWithin, Reader.chunksWithin]
    rcases fillBuffer_eq responses [] hr (Nat.lt_succ_of_le (Nat.sub_le capacity _)) with
      ⟨chunk, r', hvalid, hfill, hnext⟩ | ⟨hfill, hnext⟩
    · rw [hfill, hnext]
      cases chunk with
      | nil => rfl
      | cons b bs =>
        simp only
        rw [ih r' hvalid]
    · rw [hfill, hnext]

end StreamReader

end Vlt1.Protocol
