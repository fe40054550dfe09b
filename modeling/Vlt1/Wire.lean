import Vlt1.ResponseJson
import Vlt1.StreamItems
import Vlt1.Vault.Assertions

/-!
# The socket of a download

During a download the vault writes to `StreamWriter`, which cuts what it gets into data items and writes them to
the client's socket. `Wire ω` are surroundings with that socket: a write of the vault becomes the two socket
writes of each item, and every socket write may stop short, as the surroundings `ω` decide.

`triple_getToWriter_wire` says what has gone out when `get_to_writer` ends: whole items with the bytes it wrote,
and after them nothing, or a part of one item if a socket write failed.
-/

namespace Vlt1

open Effect Protocol

/-- Surroundings and the bytes that went out to the client. -/
structure Wire (ω : Type) where
  inner : ω
  sent : Bytes

namespace Wire

/-! ### Writing to the socket -/

section

variable {ω : Type} [Machine ω]

/-- `write_all` on the socket. -/
def writeAll (bytes : Bytes) (w : Wire ω) : Option ℕ × Wire ω :=
  match Machine.write bytes w.inner with
  | (none, o) => (none, ⟨o, w.sent ++ bytes⟩)
  | (some n, o) => (some n, ⟨o, w.sent ++ bytes.take n⟩)

/-- A length and the bytes it announces. If the second write stops short, so many bytes went out. -/
def writePrefixed (body : Bytes) (w : Wire ω) : Option ℕ × Wire ω :=
  match w.writeAll (Bytes.be32 (UInt32.ofNat body.length)) with
  | (none, w) => w.writeAll body
  | (some _, w) => (some 0, w)

/-- `write_stream_chunk`. -/
def writeStreamChunk (chunk : Bytes) (w : Wire ω) : Option ℕ × Wire ω :=
  if chunk ≠ [] ∧ chunk.length ≤ maxStreamChunkBytes then w.writePrefixed chunk else (some 0, w)

/-- The loop of `StreamWriter::write`: one item after another. -/
def writeItems : List Bytes → Wire ω → Option ℕ × Wire ω
  | [], w => (none, w)
  | item :: items, w =>
    match w.writeStreamChunk item with
    | (none, w) =>
      let (accepted, w) := writeItems items w
      (accepted.map (item.length + ·), w)
    | (some n, w) => (some n, w)

/-- `StreamWriter::write`. -/
def write (buffer : Bytes) (w : Wire ω) : Option ℕ × Wire ω :=
  w.writeItems (Chunks.chunks maxStreamChunkBytes buffer)

variable (responses : Codec Response)

/-- `write_frame`; the result says whether it succeeded. -/
def writeFrame (response : Response) (w : Wire ω) : Bool × Wire ω :=
  match responses.toVec response with
  | none => (false, w)
  | some body =>
    if body ≠ [] ∧ body.length ≤ maxFrameBytes then
      let (accepted, w) := w.writePrefixed body
      (accepted.isNone, w)
    else (false, w)

/-- `write_stream_end`. -/
def writeStreamEnd (w : Wire ω) : Bool × Wire ω :=
  let (accepted, w) := w.writeAll (Bytes.be32 streamEnd)
  (accepted.isNone, w)

/-- `write_stream_error`: the marker, then the response. -/
def writeStreamError (response : Response) (w : Wire ω) : Bool × Wire ω :=
  match w.writeAll (Bytes.be32 streamError) with
  | (none, w) => w.writeFrame responses response
  | (some _, w) => (false, w)

/-- The socket is written to by `StreamWriter`. -/
instance : Machine (Wire ω) where
  fault w := ((Machine.fault w.inner).1, { w with inner := (Machine.fault w.inner).2 })
  interfere db w :=
    ((Machine.interfere db w.inner).1, { w with inner := (Machine.interfere db w.inner).2 })
  files w := ((Machine.files w.inner).1, { w with inner := (Machine.files w.inner).2 })
  random n w := ((Machine.random n w.inner).1, { w with inner := (Machine.random n w.inner).2 })
  write := write
  backup destination db w := ((Machine.backup destination db w.inner).1,
    { w with inner := (Machine.backup destination db w.inner).2 })
  elapse w := { w with inner := Machine.elapse w.inner }

/-- A write of the vault's reader goes out as items. -/
theorem machine_write (buffer : Bytes) (w : Wire ω) : Machine.write buffer w = w.write buffer := rfl

/-! ### What goes out -/

/-- Part of these bytes went out, and all of them if the writer succeeded. -/
def Emits (out : Bytes) (complete : Bool) (w w' : Wire ω) : Prop :=
  ∃ p, w'.sent = w.sent ++ p ∧ p <+: out ∧ (complete = true → p = out)

end

variable {ω : Type} {w w' w'' : Wire ω} {out out' : Bytes} {complete complete' : Bool}

/-- What goes out after a complete write follows it. -/
theorem Emits.trans (h : Emits out true w w') (h' : Emits out' complete w' w'') :
    Emits (out ++ out') complete w w'' := by
  obtain ⟨p, hsent, -, hp⟩ := h
  obtain ⟨q, hsent', hq, hcomplete⟩ := h'
  obtain rfl := hp rfl
  exact ⟨p ++ q, by rw [hsent', hsent, List.append_assoc],
    (List.prefix_append_right_inj p).mpr hq, fun hc => by rw [hcomplete hc]⟩

/-- After a write that broke off nothing follows. -/
theorem Emits.extend (h : Emits out false w w') (out' : Bytes) : Emits (out ++ out') false w w' := by
  obtain ⟨p, hsent, hp, -⟩ := h
  exact ⟨p, hsent, hp.trans (List.prefix_append _ _), nofun⟩

variable [Machine ω]

/-- The bytes go out, or a part of them. -/
theorem emits_writeAll (bytes : Bytes) (w : Wire ω) :
    Emits bytes (w.writeAll bytes).1.isNone w (w.writeAll bytes).2 := by
  unfold writeAll
  split
  · exact ⟨bytes, rfl, List.prefix_rfl, fun _ => rfl⟩
  · rename_i n o hwrite
    exact ⟨bytes.take n, rfl, List.take_prefix _ _, nofun⟩

/-- A length and a body go out, or a part of them. -/
theorem emits_writePrefixed (body : Bytes) (w : Wire ω) :
    Emits (prefixed body) (w.writePrefixed body).1.isNone w (w.writePrefixed body).2 := by
  have hlength := emits_writeAll (Bytes.be32 (UInt32.ofNat body.length)) w
  unfold writePrefixed
  split
  · rename_i w' hwrite
    rw [hwrite] at hlength
    exact hlength.trans (emits_writeAll body w')
  · rename_i n w' hwrite
    rw [hwrite] at hlength
    exact hlength.extend body

variable {responses : Codec Response}

/-- A frame goes out, or a part of it. -/
theorem emits_writeFrame {response : Response} (hout : Protocol.writeFrame responses response = .ok out)
    (w : Wire ω) :
    Emits out (w.writeFrame responses response).1 w (w.writeFrame responses response).2 := by
  unfold Protocol.writeFrame at hout
  unfold writeFrame
  cases hbody : responses.toVec response with
  | none => rw [hbody] at hout; cases hout
  | some body =>
    rw [hbody] at hout
    obtain ⟨_, hcheck, hout⟩ := except_bind_eq_ok.mp hout
    obtain rfl := Except.ok.inj hout
    simp only
    rw [if_pos (ensure_eq_ok.mp hcheck)]
    exact emits_writePrefixed body w

theorem emits_writeStreamEnd (w : Wire ω) :
    Emits (Bytes.be32 streamEnd) w.writeStreamEnd.1 w w.writeStreamEnd.2 := emits_writeAll _ w

/-- The error marker and its frame go out, or a part of them. -/
theorem emits_writeStreamError {response : Response}
    (hout : Protocol.writeStreamError responses response = .ok out) (w : Wire ω) :
    Emits out (w.writeStreamError responses response).1 w
      (w.writeStreamError responses response).2 := by
  obtain ⟨frame, hframe, hout⟩ := except_bind_eq_ok.mp hout
  obtain rfl := Except.ok.inj hout
  have hmarker := emits_writeAll (Bytes.be32 streamError) w
  unfold writeStreamError
  split
  · rename_i w' hwrite
    rw [hwrite] at hmarker
    exact hmarker.trans (emits_writeFrame hframe w')
  · rename_i n w' hwrite
    rw [hwrite] at hmarker
    exact hmarker.extend frame

/-! ### Items -/

/-- The bytes of data items. -/
def framed (items : List Bytes) : Bytes := (items.map prefixed).flatten

/-- Not all of an item. -/
def Cut (cut : Bytes) : Prop := ∃ item, IsItem item ∧ cut <+: prefixed item ∧ cut ≠ prefixed item

/-- Nothing is less than an item. -/
theorem cut_nil : Cut [] := ⟨[0], ⟨by simp, by decide⟩, List.nil_prefix, by decide⟩

/-- Items are framed one after the other. -/
theorem framed_append (items items' : List Bytes) :
    framed (items ++ items') = framed items ++ framed items' := by
  rw [framed, List.map_append, List.flatten_append]
  rfl

omit [Machine ω] in
/-- An item that may have been sent in part. -/
theorem Emits.item {item : Bytes} (hitem : IsItem item) (h : Emits (prefixed item) complete w w') :
    ∃ items cut, w'.sent = w.sent ++ (framed items ++ cut) ∧ (∀ i ∈ items, IsItem i) ∧ Cut cut := by
  obtain ⟨p, hsent, hp, -⟩ := h
  by_cases hwhole : p = prefixed item
  · refine ⟨[item], [], ?_, by simpa using hitem, cut_nil⟩
    rw [hsent, hwhole, framed]
    simp
  · exact ⟨[], p, by rw [hsent]; rfl, nofun, item, hitem, hp, hwhole⟩

/-- A chunk goes out as one item, or a part of it. -/
theorem emits_writeStreamChunk {chunk : Bytes} (hchunk : IsItem chunk) (w : Wire ω) :
    Emits (prefixed chunk) (w.writeStreamChunk chunk).1.isNone w (w.writeStreamChunk chunk).2 := by
  have hwrite : w.writeStreamChunk chunk = w.writePrefixed chunk := if_pos hchunk
  rw [hwrite]
  exact emits_writePrefixed chunk w

/-- After an item that went out the next one follows. -/
theorem writeItems_of_none {item : Bytes} (items : List Bytes)
    (h : w.writeStreamChunk item = (none, w')) :
    w.writeItems (item :: items) =
      ((w'.writeItems items).1.map (item.length + ·), (w'.writeItems items).2) := by
  rw [writeItems, h]

/-- After an item that broke off no other follows. -/
theorem writeItems_of_some {item : Bytes} {n : ℕ} (items : List Bytes)
    (h : w.writeStreamChunk item = (some n, w')) : w.writeItems (item :: items) = (some n, w') := by
  rw [writeItems, h]

/-- All of the items went out, or some and part of the next. -/
theorem writeItems_sent {items : List Bytes} (hitems : ∀ i ∈ items, IsItem i) (w : Wire ω) :
    ((w.writeItems items).1 = none ∧ (w.writeItems items).2.sent = w.sent ++ framed items) ∨
      ∃ n done cut, (w.writeItems items).1 = some n ∧
        (w.writeItems items).2.sent = w.sent ++ (framed done ++ cut) ∧
        (∀ i ∈ done, IsItem i) ∧ Cut cut := by
  induction items generalizing w with
  | nil => exact .inl ⟨rfl, by rw [framed]; simp [writeItems]⟩
  | cons item items ih =>
    obtain ⟨hitem, hrest⟩ := List.forall_mem_cons.mp hitems
    have hfirst := emits_writeStreamChunk hitem w
    rcases hchunk : w.writeStreamChunk item with ⟨_ | n, w'⟩
    · rw [hchunk] at hfirst
      obtain ⟨p, hsent, -, hp⟩ := hfirst
      obtain rfl := hp rfl
      rw [writeItems_of_none items hchunk]
      rcases ih hrest w' with ⟨hnone, hmore⟩ | ⟨n, done, cut, hsome, hmore, hdone, hcut⟩
      · refine .inl ⟨by rw [hnone]; rfl, hmore.trans ?_⟩
        rw [hsent, List.append_assoc]
        rfl
      · refine .inr ⟨item.length + n, item :: done, cut, by rw [hsome]; rfl, hmore.trans ?_,
          List.forall_mem_cons.mpr ⟨hitem, hdone⟩, hcut⟩
        rw [hsent, List.append_assoc, ← List.append_assoc (prefixed item)]
        rfl
    · rw [hchunk] at hfirst
      obtain ⟨done, cut, hsent, hdone, hcut⟩ := hfirst.item hitem
      rw [writeItems_of_some items hchunk]
      exact .inr ⟨n, done, cut, rfl, hsent, hdone, hcut⟩

/-- The pieces of a buffer are items. -/
theorem isItem_of_mem_chunks {buffer piece : Bytes}
    (h : piece ∈ Chunks.chunks maxStreamChunkBytes buffer) : IsItem piece := by
  obtain ⟨i, hi, rfl⟩ := List.mem_map.mp h
  have hpos : 0 < maxStreamChunkBytes := by decide
  have hlength := Chunks.length_segment_pos hpos (List.mem_range.mp hi)
  exact ⟨List.ne_nil_of_length_pos hlength, Chunks.length_segment_le i⟩

/-- What a write of the vault sends. -/
theorem write_sent (buffer : Bytes) (w : Wire ω) :
    ((w.write buffer).1 = none ∧ ∃ items, (w.write buffer).2.sent = w.sent ++ framed items ∧
        (∀ i ∈ items, IsItem i) ∧ items.flatten = buffer) ∨
      ∃ n done cut, (w.write buffer).1 = some n ∧
        (w.write buffer).2.sent = w.sent ++ (framed done ++ cut) ∧
        (∀ i ∈ done, IsItem i) ∧ Cut cut := by
  refine (writeItems_sent (fun _ => isItem_of_mem_chunks) w).imp_left fun h => ⟨h.1, _, h.2, ?_⟩
  exact ⟨fun _ => isItem_of_mem_chunks, Chunks.flatten_chunks (by decide)⟩

end Wire

/-! ### A client that keeps reading -/

section

variable {ω : Type} [Machine ω]

/-- From here on no write to the socket is cut short. -/
def Machine.Accepts (o : ω) : Prop :=
  ∃ S : Set ω, o ∈ S ∧ ∀ x ∈ S, (∀ b, (Machine.write b x).1 = none) ∧
    (∀ y, Machine.Moves x y → y ∈ S) ∧ ∀ db, (Machine.interfere db x).2 ∈ S

namespace Machine.Accepts

variable {o o' : ω}

/-- Surroundings that accept every write go on doing so. -/
theorem move (h : Accepts o) (hmove : Machine.Moves o o') : Accepts o' := by
  obtain ⟨S, ho, hS⟩ := h
  exact ⟨S, (hS o ho).2.1 o' hmove, hS⟩

/-- Other processes do not make writes fail. -/
theorem interfere (h : Accepts o) (db : Database) : Accepts (Machine.interfere db o).2 := by
  obtain ⟨S, ho, hS⟩ := h
  exact ⟨S, (hS o ho).2.2 db, hS⟩

/-- Where writes are accepted, all the bytes go out. -/
theorem writeAll {w : Wire ω} (h : Accepts w.inner) (bytes : Bytes) :
    (w.writeAll bytes).1 = none ∧ Accepts (w.writeAll bytes).2.inner := by
  have hmove := h.move (.write bytes _)
  obtain ⟨S, ho, hS⟩ := h
  have hnone := (hS _ ho).1 bytes
  unfold Wire.writeAll
  split
  · rename_i o' hwrite
    rw [hwrite] at hmove
    exact ⟨rfl, hmove⟩
  · rename_i n o' hwrite
    rw [hwrite] at hnone
    cases hnone

/-- Where writes are accepted, the length and the body go out. -/
theorem writePrefixed {w : Wire ω} (h : Accepts w.inner) (body : Bytes) :
    (w.writePrefixed body).1 = none ∧ Accepts (w.writePrefixed body).2.inner := by
  obtain ⟨hnone, haccepts⟩ := h.writeAll (Bytes.be32 (UInt32.ofNat body.length))
  unfold Wire.writePrefixed
  split
  · rename_i w' hwrite
    rw [hwrite] at haccepts
    exact haccepts.writeAll body
  · rename_i n w' hwrite
    rw [hwrite] at hnone
    cases hnone

/-- Where writes are accepted, all the items go out. -/
theorem writeItems {items : List Bytes} (hitems : ∀ i ∈ items, IsItem i) {w : Wire ω}
    (h : Accepts w.inner) :
    (w.writeItems items).1 = none ∧ Accepts (w.writeItems items).2.inner := by
  induction items generalizing w with
  | nil => exact ⟨rfl, h⟩
  | cons item items ih =>
    obtain ⟨hitem, hrest⟩ := List.forall_mem_cons.mp hitems
    have hwrite : w.writeStreamChunk item = w.writePrefixed item := if_pos hitem
    obtain ⟨hnone, haccepts⟩ := h.writePrefixed item
    rw [← hwrite] at hnone haccepts
    rcases hchunk : w.writeStreamChunk item with ⟨_ | n, w'⟩
    · rw [hchunk] at haccepts
      obtain ⟨hnone', haccepts'⟩ := ih hrest haccepts
      rw [Wire.writeItems_of_none items hchunk]
      exact ⟨by rw [hnone']; rfl, haccepts'⟩
    · rw [hchunk] at hnone
      cases hnone

/-- Where writes are accepted, a write of the vault's reader goes out. -/
theorem write {w : Wire ω} (h : Accepts w.inner) (buffer : Bytes) :
    (w.write buffer).1 = none ∧ Accepts (w.write buffer).2.inner :=
  h.writeItems fun _ => Wire.isItem_of_mem_chunks

end Machine.Accepts

/-! ### Reading to the socket -/

/-- Nothing went out, and a client that reads on still does. -/
structure World.Silent (w w' : World (Wire ω)) : Prop where
  sent : w'.outside.sent = w.outside.sent
  sink : w'.sink = w.sink
  accepts : Machine.Accepts w.outside.inner → Machine.Accepts w'.outside.inner

instance : QueryRelation (World.Silent (ω := ω)) where
  refl _ := ⟨rfl, rfl, id⟩
  trans _ _ _ h h' := ⟨h'.sent.trans h.sent, h'.sink.trans h.sink, h'.accepts ∘ h.accepts⟩
  serve w o h := by
    cases h with
    | fault => exact ⟨rfl, rfl, fun ha => ha.move (.fault _)⟩
    | files => exact ⟨rfl, rfl, fun ha => ha.move (.files _)⟩
    | random n => exact ⟨rfl, rfl, fun ha => ha.move (.random n _)⟩
  interfere w := ⟨rfl, rfl, fun ha => ha.interfere _⟩

/-- What went out since are whole items with the bytes the writer received. -/
def World.Delivered (before : Bytes) (reading : Prop) (w : World (Wire ω)) : Prop :=
  ∃ items, (∀ i ∈ items, IsItem i) ∧ w.outside.sent = before ++ Wire.framed items ∧
    items.flatten = w.sink ∧ (reading → Machine.Accepts w.outside.inner)

/-- What went out since are whole items and part of one, which only a failed write leaves behind. -/
def World.Interrupted (before : Bytes) (reading : Prop) (w : World (Wire ω)) : Prop :=
  ∃ items cut, (∀ i ∈ items, IsItem i) ∧ w.outside.sent = before ++ (Wire.framed items ++ cut) ∧
    Wire.Cut cut ∧ (reading → cut = [] ∧ items.flatten = w.sink ∧ Machine.Accepts w.outside.inner)

variable {before : Bytes} {reading : Prop}

/-- Whole items are whole items with nothing behind them. -/
theorem World.Delivered.interrupted {w : World (Wire ω)} (h : w.Delivered before reading) :
    w.Interrupted before reading := by
  obtain ⟨items, hitems, hsent, hsink, haccepts⟩ := h
  exact ⟨items, [], hitems, by rw [List.append_nil, hsent], Wire.cut_nil,
    fun hreading => ⟨rfl, hsink, haccepts hreading⟩⟩

/-- What goes on in silence sends nothing. -/
theorem World.Delivered.silent {w w' : World (Wire ω)} (h : w.Delivered before reading)
    (hsilent : w.Silent w') : w'.Delivered before reading := by
  obtain ⟨items, hitems, hsent, hsink, haccepts⟩ := h
  exact ⟨items, hitems, hsilent.sent.trans hsent, hsink.trans hsilent.sink.symm,
    fun hreading => hsilent.accepts (haccepts hreading)⟩

/-- Steps that send nothing. -/
theorem triple_of_silent {α : Type} {x : VaultOp (Wire ω) α} (h : Op.Keeps World.Silent x) :
    Op.Triple (World.Delivered (ω := ω) before reading) x (fun _ => World.Delivered before reading)
      fun _ => World.Interrupted before reading := by
  intro w hw
  have hkept := h w
  cases hx : x w with
  | ok a w' => rw [hx] at hkept; exact hw.silent hkept
  | failed e w' => rw [hx] at hkept; exact (hw.silent hkept).interrupted
  | crashed w' => rw [hx] at hkept; exact (hw.silent hkept).interrupted

/-- A part the stream has taken is received. -/
theorem writeAll_stream_none {part : Bytes} {w : World ω} (h : (Machine.write part w.outside).1 = none) :
    Writer.stream.writeAll part w = .ok ()
      { w with sink := w.sink ++ part, outside := (Machine.write part w.outside).2 } := by
  simp only [Writer.writeAll, Op.bind_apply, interact, h]
  rfl

/-- A part the stream has taken in part is received so far, and reported as a storage error. -/
theorem writeAll_stream_some {part : Bytes} {n : ℕ} {w : World ω}
    (h : (Machine.write part w.outside).1 = some n) :
    Writer.stream.writeAll part w = .failed .storage
      { w with sink := w.sink ++ part.take n, outside := (Machine.write part w.outside).2 } := by
  simp only [Writer.writeAll, Op.bind_apply, interact, h]
  rfl

/-- A write that the socket took whole. -/
theorem World.Delivered.written {w : World (Wire ω)} (h : w.Delivered before reading)
    {more : List Bytes} {outside : Wire ω}
    (hmore : outside.sent = w.outside.sent ++ Wire.framed more) (hitems : ∀ i ∈ more, IsItem i)
    (haccepts : reading → Machine.Accepts outside.inner) :
    World.Delivered before reading
      { w with sink := w.sink ++ more.flatten, outside := outside } := by
  obtain ⟨items, hitems', hsent, hsink, -⟩ := h
  refine ⟨items ++ more, ?_, ?_, ?_, haccepts⟩
  · exact fun i hi => (List.mem_append.mp hi).elim (hitems' i) (hitems i)
  · rw [hmore, hsent, Wire.framed_append, List.append_assoc]
  · rw [List.flatten_append, hsink]

/-- A write that ended early. -/
theorem World.Delivered.cut {w : World (Wire ω)} (h : w.Delivered before reading)
    {done : List Bytes} {cut sink : Bytes} {outside : Wire ω}
    (hmore : outside.sent = w.outside.sent ++ (Wire.framed done ++ cut))
    (hitems : ∀ i ∈ done, IsItem i) (hcut : Wire.Cut cut) (hreading : ¬reading) :
    World.Interrupted before reading { w with sink := sink, outside := outside } := by
  obtain ⟨items, hitems', hsent, hsink, -⟩ := h
  refine ⟨items ++ done, cut, ?_, ?_, hcut, fun h => absurd h hreading⟩
  · exact fun i hi => (List.mem_append.mp hi).elim (hitems' i) (hitems i)
  · rw [hmore, hsent, Wire.framed_append, List.append_assoc, List.append_assoc]

/-- A write of the vault. -/
theorem triple_writeAll_wire (part : Bytes) :
    Op.Triple (World.Delivered (ω := ω) before reading) (Writer.stream.writeAll part)
      (fun _ => World.Delivered before reading) fun _ => World.Interrupted before reading := by
  intro w hw
  have haccepts : reading → (Machine.write part w.outside).1 = none ∧
      Machine.Accepts (Machine.write part w.outside).2.inner := by
    obtain ⟨items, -, -, -, haccepts⟩ := hw
    intro hreading
    rw [Wire.machine_write]
    exact (haccepts hreading).write part
  rcases w.outside.write_sent part with ⟨hnone, more, hmore, hitems, rfl⟩ |
    ⟨n, done, cut, hsome, hmore, hitems, hcut⟩
  · rw [← Wire.machine_write] at hnone hmore
    rw [writeAll_stream_none hnone]
    exact hw.written hmore hitems fun hreading => (haccepts hreading).2
  · rw [← Wire.machine_write] at hsome hmore
    rw [writeAll_stream_some hsome]
    refine hw.cut hmore hitems hcut fun hreading => ?_
    -- a client that reads on takes the whole part
    rw [(haccepts hreading).1] at hsome
    exact Option.some_ne_none n hsome.symm

variable {prim : Primitives}

/-- Each chunk goes out as items, or the pass stops behind a part of one. -/
theorem triple_decryptVisit_wire {v : VaultId} {o : ObjectId} {u : VersionId} {k : Block 32}
    {manifest : Manifest} (n : UInt64) (c : EncryptedChunk) :
    Op.Triple (World.Delivered (ω := ω) before reading)
      (decryptVisit prim v o u k manifest .stream n c)
      (fun _ => World.Delivered before reading) fun _ => World.Interrupted before reading := by
  refine Op.Triple.bind_ofExcept (fun expectedLen _ => ?_) fun _ _ _ hw => hw.interrupted
  refine Op.Triple.bind_ofExcept (fun part _ => ?_) fun _ _ _ hw => hw.interrupted
  refine Op.Triple.bind_require (fun _ => ?_) fun _ _ hw => hw.interrupted
  refine Op.Triple.bind (fun _ => World.Delivered before reading) (triple_writeAll_wire part) fun _ => ?_
  exact Op.Triple.ofExcept (fun _ _ _ hw => hw) fun _ _ _ hw => hw.interrupted

/-- What has gone out when `get_to_writer` ends. -/
theorem triple_getToWriter_wire (o : ObjectId) :
    Op.Triple (World.Delivered (ω := ω) before reading) (getToWriter prim o .stream)
      (fun _ => World.Delivered before reading) fun _ => World.Interrupted before reading := by
  refine triple_lockAfterFailure_of_locked ?_ fun _ _ hw _ => hw
  refine Op.Triple.bind _ (triple_of_silent keeps_requireRootKey) fun rootKey => ?_
  refine Op.Triple.bind _ (triple_of_silent (keeps_activeVersion o)) fun version => ?_
  refine Op.Triple.bind _ (triple_of_silent (Op.Keeps.require _ _)) fun _ => ?_
  refine Op.Triple.bind _ (triple_of_silent Op.Keeps.get) fun w => ?_
  refine Op.Triple.bind _ (triple_of_silent (Op.Keeps.ofExcept _)) fun dataKey => ?_
  refine Op.Triple.bind _ (triple_of_silent (Op.Keeps.ofExcept _)) fun manifest => ?_
  refine Op.Triple.bind _ (triple_of_silent (keeps_checkStoredReceipt prim _ _ _)) fun _ => ?_
  refine Op.Triple.bind _ (triple_of_silent (keeps_digestPass prim _ _)) fun _ => ?_
  -- only the decryption pass writes
  refine Op.Triple.bind (fun _ => World.Delivered before reading) ?_
    fun _ => triple_of_silent (Op.Keeps.require _ _)
  refine Op.Triple.bind _ (triple_of_silent (keeps_query _)) fun rows => ?_
  refine Op.Triple.fold (I := fun _ _ _ => World.Delivered before reading) (fun _ row _ n => ?_)
    [] rows 0
  refine Op.Triple.bind _ (triple_of_silent keeps_storageFault) fun _ => ?_
  refine Op.Triple.bind _ (triple_of_silent (Op.Keeps.ofExcept _)) fun chunk => ?_
  exact triple_decryptVisit_wire n chunk

end

end Vlt1
