import Vlt1.Client
import Vlt1.Wire

/-!
# Downloads

`get_stream` sends plaintext while it is still reading, so the end of a download has to say whether it is
complete. The daemon ends it with the end marker if `get_to_writer` returned, and with the error marker and a
response otherwise. The client writes what it receives to a temporary file, and links it to the output path
only after the end marker.

A socket write may stop in the middle of an item, and the daemon still sends the error marker behind it. The
client then takes the marker for the rest of the item. `not_completes_cut` says that it finds no end marker
in what follows either, so `download_complete_or_absent` holds for every way the socket can fail.
-/

namespace Vlt1

open Effect Framing Protocol

/-! ### Streams without an end marker -/

namespace Protocol

variable {bytes more header rest body : Bytes} {chunks items : List Bytes}

/-- The length of an item fits into four bytes. -/
theorem IsItem.length_lt {item : Bytes} (h : IsItem item) : item.length < 2 ^ 32 :=
  lt_of_le_of_lt h.2 (by decide)

/-- A length that fits is read back. -/
theorem ofBe_be32_length (h : bytes.length < 2 ^ 32) :
    Bytes.ofBe (Bytes.be32 (UInt32.ofNat bytes.length)) = bytes.length := by
  rw [Bytes.be32, Bytes.ofBe_toBe (UInt32.toNat_lt _), UInt32.toNat_ofNat']
  exact Nat.mod_eq_of_lt h

/-- What follows a complete stream does not change what was read of it. -/
theorem Completes.append (h : Completes bytes chunks) (more : Bytes) :
    Completes (bytes ++ more) chunks := by
  obtain ⟨hitems, rest, rfl⟩ := h
  exact ⟨hitems, rest ++ more, by simp only [List.append_assoc]⟩

/-- A complete stream has at least its end marker. -/
theorem Completes.length_le (h : Completes bytes chunks) : 4 ≤ bytes.length := by
  obtain ⟨-, rest, rfl⟩ := h
  simp only [List.length_append, Bytes.length_be32]
  omega

/-- A complete stream starts with the end marker or with a whole item. -/
theorem Completes.after_header (h : Completes (header ++ rest) chunks) (hheader : header.length = 4)
    (hne : Bytes.ofBe header ≠ 0) :
    ∃ item more, chunks = item :: more ∧ item.length = Bytes.ofBe header ∧
      item = rest.take (Bytes.ofBe header) ∧ Bytes.ofBe header ≤ rest.length ∧
      Completes (rest.drop (Bytes.ofBe header)) more := by
  obtain ⟨hitems, tail, heq⟩ := h
  cases chunks with
  | nil =>
    rw [List.map_nil, List.flatten_nil, List.nil_append] at heq
    have hmarker := (List.append_inj heq (by rw [hheader, Bytes.length_be32])).1
    rw [hmarker] at hne
    exact absurd rfl hne
  | cons item more =>
    obtain ⟨hitem, hmore⟩ := List.forall_mem_cons.mp hitems
    rw [List.map_cons, List.flatten_cons, prefixed, List.append_assoc, List.append_assoc] at heq
    obtain ⟨rfl, rfl⟩ := List.append_inj heq (by rw [hheader, Bytes.length_be32])
    rw [ofBe_be32_length hitem.length_lt]
    refine ⟨item, more, rfl, rfl, by simp, by simp, ?_⟩
    rw [List.drop_left]
    exact ⟨hmore, tail, rfl⟩

/-- Behind whole items a stream is complete if the rest is. -/
theorem Completes.behind_items (hitems : ∀ i ∈ items, IsItem i)
    (h : Completes (Wire.framed items ++ bytes) chunks) :
    ∃ more, chunks = items ++ more ∧ Completes bytes more := by
  induction items generalizing chunks with
  | nil => exact ⟨chunks, rfl, h⟩
  | cons item items ih =>
    obtain ⟨hitem, hrest⟩ := List.forall_mem_cons.mp hitems
    have hlength := ofBe_be32_length hitem.length_lt
    have hsplit : Wire.framed (item :: items) ++ bytes =
        Bytes.be32 (UInt32.ofNat item.length) ++ (item ++ (Wire.framed items ++ bytes)) := by
      simp only [Wire.framed, List.map_cons, List.flatten_cons, prefixed, List.append_assoc]
    rw [hsplit] at h
    have hne : Bytes.ofBe (Bytes.be32 (UInt32.ofNat item.length)) ≠ 0 := by
      rw [hlength]
      exact fun h => hitem.1 (List.length_eq_zero_iff.mp h)
    obtain ⟨first, more, rfl, -, hfirst, -, htail⟩ := h.after_header (Bytes.length_be32 _) hne
    rw [hlength, List.take_left] at hfirst
    rw [hlength, List.drop_left] at htail
    obtain ⟨more', rfl, hrest⟩ := ih hrest htail
    exact ⟨more', by rw [hfirst]; rfl, hrest⟩

/-- A length above what is left ends no stream. -/
theorem not_completes_of_long (hheader : header.length = 4) (hlong : rest.length < Bytes.ofBe header) :
    ¬Completes (header ++ rest) chunks := by
  intro h
  obtain ⟨item, more, -, -, -, hle, -⟩ := h.after_header hheader (by omega)
  omega

/-- Few bytes whose length is at least 256 end no stream. -/
theorem not_completes_of_mem_take {b : UInt8} (hb : b ∈ bytes.take 3) (hne : b ≠ 0)
    (hlength : bytes.length < 260) : ¬Completes bytes chunks := by
  intro h
  match bytes, h.length_le with
  | x :: y :: z :: u :: rest, _ =>
    have hheader : 256 ≤ Bytes.ofBe [x, y, z, u] := by
      have hpos : 0 < b.toNat := Nat.pos_of_ne_zero fun h => hne (UInt8.toNat_inj.mp h)
      simp only [Bytes.ofBe, List.foldl_cons, List.foldl_nil]
      simp only [List.take_succ_cons, List.take_zero, List.mem_cons, List.not_mem_nil, or_false] at hb
      rcases hb with rfl | rfl | rfl <;> omega
    have hlong : rest.length < Bytes.ofBe [x, y, z, u] := by
      simp only [List.length_cons] at hlength
      omega
    exact not_completes_of_long (rfl : [x, y, z, u].length = 4) hlong h

/-- The error marker and a text behind it. -/
def aborted (body : Bytes) : Bytes := Bytes.be32 streamError ++ prefixed body

/-- A short text. -/
structure Legible (body : Bytes) : Prop where
  nonempty : body ≠ []
  short : body.length < 248
  nonzero : ∀ b ∈ body, b ≠ 0

/-- The error marker, the length of a short body, and the body. -/
theorem aborted_eq (h : body.length < 256) :
    aborted body = [255, 255, 255, 255, 0, 0, 0, UInt8.ofNat body.length] ++ body := by
  have hnat : (UInt32.ofNat body.length).toNat = body.length := by
    rw [UInt32.toNat_ofNat']
    exact Nat.mod_eq_of_lt (by omega)
  have hheader : Bytes.toBe 4 body.length = [0, 0, 0, UInt8.ofNat body.length] := by
    simp only [Bytes.toBe, Nat.div_eq_of_lt h, Nat.zero_div, Nat.mod_eq_of_lt h]
    rfl
  rw [aborted, prefixed, Bytes.be32, Bytes.be32, hnat, hheader, ← List.append_assoc]
  rfl

/-- Eight bytes stand before the body of an error. -/
theorem length_aborted (body : Bytes) : (aborted body).length = body.length + 8 := by
  simp only [aborted, prefixed, List.length_append, Bytes.length_be32]
  omega

/-- From inside the marker on, the text holds no complete stream. -/
theorem not_completes_drop_aborted (h : Legible body) (k : ℕ) :
    ¬Completes ((aborted body).drop k) chunks := by
  have hfew := h.short
  have hshort : ((aborted body).drop k).length < 260 := by
    rw [List.length_drop, length_aborted]
    omega
  have hbyte : (UInt8.ofNat body.length).toNat = body.length := by
    rw [UInt8.toNat_ofNat']
    exact Nat.mod_eq_of_lt (by omega)
  have hpos : body.length ≠ 0 := fun hzero => h.nonempty (List.length_eq_zero_iff.mp hzero)
  have hnonzero : UInt8.ofNat body.length ≠ 0 := by
    intro hzero
    rw [hzero] at hbyte
    exact hpos hbyte.symm
  rw [aborted_eq (by omega)] at hshort ⊢
  match k with
  | 0 | 1 | 2 | 3 => exact not_completes_of_mem_take (b := 255) (by simp) (by decide) hshort
  | 4 =>
    -- the text is read as a data item, and nothing follows it
    intro hcompletes
    have hvalue : Bytes.ofBe [0, 0, 0, UInt8.ofNat body.length] = body.length := by
      simp only [Bytes.ofBe, List.foldl_cons, List.foldl_nil, hbyte]
      exact Nat.zero_add _
    replace hcompletes : Completes ([0, 0, 0, UInt8.ofNat body.length] ++ body) chunks := hcompletes
    obtain ⟨-, more, -, -, -, -, hrest⟩ := hcompletes.after_header rfl (by rwa [hvalue])
    rw [hvalue, List.drop_length] at hrest
    exact absurd hrest.length_le (by decide)
  | 5 | 6 | 7 => exact not_completes_of_mem_take (b := UInt8.ofNat body.length) (by simp) hnonzero hshort
  | k + 8 =>
    have hdrop : ([255, 255, 255, 255, 0, 0, 0, UInt8.ofNat body.length] ++ body).drop (k + 8) =
        body.drop k := rfl
    rw [hdrop] at hshort ⊢
    intro hcompletes
    cases hbody : body.drop k with
    | nil =>
      rw [hbody] at hcompletes
      exact absurd hcompletes.length_le (by decide)
    | cons b rest =>
      have hmem : b ∈ body := List.mem_of_mem_drop (hbody ▸ List.mem_cons_self)
      exact not_completes_of_mem_take (b := b) (by simp [hbody]) (h.nonzero b hmem) hshort hcompletes

/-- Behind part of an item, the client finds no end marker. -/
theorem not_completes_cut {cut : Bytes} (hcut : Wire.Cut cut) (h : Legible body) :
    ¬Completes (cut ++ aborted body) chunks := by
  obtain ⟨item, hitem, hpart, hne⟩ := hcut
  have hlt : cut.length < 4 + item.length := by
    have hle := hpart.length_le
    have hneq : cut.length ≠ (prefixed item).length := fun heq => hne (hpart.eq_of_length heq)
    rw [prefixed, List.length_append, Bytes.length_be32] at hle hneq
    omega
  by_cases hheader : cut.length < 4
  · -- the marker completes the length of the item, whose last byte is then 255
    have hsplit : cut ++ aborted body =
        (cut ++ List.replicate (3 - cut.length) 255 ++ [255]) ++
          (aborted body).drop (4 - cut.length) := by
      have htake : (aborted body).take (4 - cut.length) =
          List.replicate (3 - cut.length) 255 ++ [255] := by
        rw [aborted, List.take_append_of_le_length (by rw [Bytes.length_be32]; omega)]
        have hcases : cut.length = 0 ∨ cut.length = 1 ∨ cut.length = 2 ∨ cut.length = 3 := by omega
        rcases hcases with hn | hn | hn | hn <;> rw [hn] <;> decide
      rw [List.append_assoc, List.append_assoc, ← List.append_assoc (List.replicate _ _), ← htake,
        List.take_append_drop]
    rw [hsplit]
    refine not_completes_of_long ?_ ?_
    · simp only [List.length_append, List.length_replicate, List.length_singleton]
      omega
    · rw [Bytes.ofBe_concat, List.length_drop, length_aborted]
      have := h.short
      have hbyte : (255 : UInt8).toNat = 255 := rfl
      omega
  · -- the length is whole, and the item takes part of the marker
    have hle : 4 ≤ cut.length := by omega
    obtain ⟨rest, hrest⟩ := hpart
    have hhead : cut = Bytes.be32 (UInt32.ofNat item.length) ++ cut.drop 4 := by
      have htake := congrArg (List.take 4) hrest
      rw [List.take_append_of_le_length hle, prefixed, List.take_left' (Bytes.length_be32 _)] at htake
      rw [← htake, List.take_append_drop]
    have hlength := ofBe_be32_length hitem.length_lt
    intro hcompletes
    rw [hhead, List.append_assoc] at hcompletes
    obtain ⟨-, more, -, -, -, -, hbehind⟩ := hcompletes.after_header (Bytes.length_be32 _) (by
      rw [hlength]
      exact fun hzero => hitem.1 (List.length_eq_zero_iff.mp hzero))
    rw [hlength, List.drop_append, List.drop_of_length_le (by rw [List.length_drop]; omega),
      List.nil_append] at hbehind
    exact not_completes_drop_aborted h _ hbehind

/-- Nothing comes in front of an end marker. -/
theorem Completes.eq_nil (h : Completes (Bytes.be32 streamEnd ++ rest) chunks) : chunks = [] := by
  obtain ⟨hitems, tail, heq⟩ := h
  cases chunks with
  | nil => rfl
  | cons item more =>
    obtain ⟨hitem, -⟩ := List.forall_mem_cons.mp hitems
    rw [List.map_cons, List.flatten_cons, prefixed, List.append_assoc, List.append_assoc] at heq
    have hheader := (List.append_inj heq (by rw [Bytes.length_be32, Bytes.length_be32])).1
    have hlength := ofBe_be32_length hitem.length_lt
    rw [← hheader] at hlength
    exact absurd (List.length_eq_zero_iff.mp hlength.symm) hitem.1

/-! ### What the client can make of a part -/

variable {responses : Codec Response}

/-- Reading a frame looks at that frame only. -/
theorem local_readFrame {α : Type} (codec : Codec α) : Local (readFrame codec) := by
  refine Local.bind (Local.bind Local.readExact fun _ => Local.ofExcept (.ok _)) fun _ => ?_
  refine Local.bind (Local.require _ _) fun _ => ?_
  exact Local.bind Local.readExact fun _ => Local.ofExcept _

/-- A short response is written as it is. -/
theorem Legible.writeFrame (hjson : responses.WritesJson) {r : Response} (h : Legible r.toJson) :
    Protocol.writeFrame responses r = .ok (prefixed r.toJson) :=
  writeFrame_fits hjson (h.short.le.trans (by decide))

/-- A short answer is written whole behind the error marker. -/
theorem Legible.writeStreamError (hjson : responses.WritesJson) {r : Response}
    (h : Legible r.toJson) :
    Protocol.writeStreamError responses r = .ok (aborted r.toJson) := by
  rw [Protocol.writeStreamError, h.writeFrame hjson]
  rfl

/-- The client of a part of a response and more received a complete stream only if the response was the ready
one and the stream is complete in what followed. -/
theorem received_part (hresponses : responses.Inverts) (hjson : responses.WritesJson) {r : Response}
    (hr : Legible r.toJson) {p q : Bytes} (hp : p <+: prefixed r.toJson ++ q) {broken : Bool}
    (h : Cli.Received responses ⟨p, broken⟩ chunks) : r = .ok .streamReady ∧ Completes q chunks := by
  obtain ⟨⟨next, broken'⟩, hread, hcompletes⟩ := h
  obtain ⟨more, hmore⟩ := hp
  have hlong := local_readFrame responses hread more
  rw [hmore, (reads_readFrame hresponses (hr.writeFrame hjson)).whole q broken] at hlong
  obtain ⟨rfl, hrest⟩ := Outcome.ok.inj hlong
  obtain ⟨rfl, -⟩ := Input.mk.inj hrest
  exact ⟨rfl, hcompletes.append more⟩

end Protocol

/-! ### The responses of a download -/

open Json in
/-- The answer that opens a stream is a short one. -/
theorem legible_streamReady : Legible (Response.ok .streamReady).toJson where
  nonempty := List.cons_ne_nil _ _
  short := by decide +kernel
  nonzero := by decide +kernel

open Json in
/-- An error response with a short message. -/
theorem legible_error (code : ErrorCode) {message : String} (h : (string (utf8 message)).length ≤ 100) :
    Legible (Response.error code message).toJson where
  nonempty := List.cons_ne_nil _ _
  short := by
    have hnames : (string (utf8 "status")).length = 8 ∧ (string (utf8 "error")).length = 7 ∧
        (string (utf8 "code")).length = 6 ∧ (string (utf8 "message")).length = 9 := by decide +kernel
    obtain ⟨h1, h2, h3, h4⟩ := hnames
    have hcode : (string (utf8 code.name)).length ≤ 21 := by cases code <;> decide +kernel
    simp only [Response.toJson, length_object, length_field, h1, h2, h3, h4, List.map_cons,
      List.map_nil, List.sum_cons, List.sum_nil]
    omega
  nonzero _ hmem := by
    refine ne_zero_of_mem_object (fun _ => ?_) (fun _ => ?_) hmem
    · exact ne_zero_of_mem_field fun _ => ne_zero_of_mem_string
    · refine ne_zero_of_mem_field fun _ => ne_zero_of_mem_object (fun _ => ?_) fun _ => ?_
      · exact ne_zero_of_mem_field fun _ => ne_zero_of_mem_string
      · exact ne_zero_of_mem_field fun _ => ne_zero_of_mem_string

/-- The answer to any error of the vault is a short one. -/
theorem legible_mapVaultError (e : VaultError) : Legible (mapVaultError e).toJson := by
  cases e <;> exact legible_error _ (by decide +kernel)

/-- The answer to a malformed identifier is a short one, and opens no stream. -/
theorem legible_parseRequestObjectId {objectId : Text} {r : Response}
    (h : parseRequestObjectId objectId = .error r) : Legible r.toJson ∧ r ≠ .ok .streamReady := by
  unfold parseRequestObjectId at h
  split at h
  · split at h
    · cases h
    · cases h
      exact ⟨legible_error _ (by decide +kernel), nofun⟩
  · cases h
    exact ⟨legible_error _ (by decide +kernel), nofun⟩

/-! ### The daemon's side -/

namespace Wire

section

variable {ω : Type} [Machine ω] (responses : Codec Response) (prim : Primitives)

/-- Write to the socket; the result says whether it succeeded. -/
def send (write : Wire ω → Bool × Wire ω) : DaemonOp (Wire ω) Bool :=
  fun s =>
    let (written, outside) := write s.world.outside
    .ok written { s with world := { s.world with outside } }

/-- What `get_stream` sends after the ready response. -/
def sendObject (a : Arrival) (objectId : ObjectId) : DaemonOp (Wire ω) Bool :=
  if a.vaultMutexPoisoned then
    send (writeStreamError responses (.error .internal "daemon state is unavailable"))
  else do
    Op.modify fun s => { s with world := { s.world with sink := [] } }
    match ← runVault (getToWriter prim objectId .stream) with
    | .ok () => send writeStreamEnd
    | .error e => send (writeStreamError responses (mapVaultError e))

/-- `get_stream`, with what it writes to the socket. -/
def getStream (a : Arrival) (objectId : Text) : DaemonOp (Wire ω) Bool :=
  if a.longOperationActive then send (writeFrame responses overloadedResponse)
  else
    match parseRequestObjectId objectId with
    | .error response => send (writeFrame responses response)
    | .ok objectId => do
      if ← send (writeFrame responses (.ok .streamReady)) then sendObject responses prim a objectId
      else return false

/-- The vault of a daemon that has sent the ready response. -/
def ready (s : DaemonState (Wire ω)) : World (Wire ω) :=
  { s.world with sink := [], outside := (s.world.outside.writeFrame responses (.ok .streamReady)).2 }

end

section

variable {ω : Type} [Machine ω] (responses : Codec Response) (prim : Primitives) (a : Arrival)
  (objectId : Text) (s : DaemonState (Wire ω))

/-- The daemon has the time for the request, and it names an object. -/
def Opens (o : ObjectId) : Prop :=
  a.longOperationActive = false ∧ parseRequestObjectId objectId = .ok o

/-- What `get_stream` did to the socket. -/
inductive Served : Wire ω → Prop
  | refused {r : Response} (hr : Legible r.toJson) (hne : r ≠ .ok .streamReady)
      (hrefused : (a.longOperationActive = true ∧ r = overloadedResponse) ∨
        (a.longOperationActive = false ∧ parseRequestObjectId objectId = .error r)) :
      Served (s.world.outside.writeFrame responses r).2
  | unsent {o : ObjectId} (hopens : Opens a objectId o)
      (hsent : (s.world.outside.writeFrame responses (.ok .streamReady)).1 = false) :
      Served (ready responses s).outside
  | unavailable {o : ObjectId} (hopens : Opens a objectId o)
      (hsent : (s.world.outside.writeFrame responses (.ok .streamReady)).1 = true)
      (hpoisoned : a.vaultMutexPoisoned = true) :
      Served ((ready responses s).outside.writeStreamError responses
        (.error .internal "daemon state is unavailable")).2
  | finished {o : ObjectId} {w : World (Wire ω)} (hopens : Opens a objectId o)
      (hsent : (s.world.outside.writeFrame responses (.ok .streamReady)).1 = true)
      (hfree : a.vaultMutexPoisoned = false)
      (hget : getToWriter prim o .stream (ready responses s) = .ok () w) :
      Served w.outside.writeStreamEnd.2
  | failed {o : ObjectId} {e : VaultError} {w : World (Wire ω)}
      (hopens : Opens a objectId o)
      (hsent : (s.world.outside.writeFrame responses (.ok .streamReady)).1 = true)
      (hfree : a.vaultMutexPoisoned = false)
      (hget : getToWriter prim o .stream (ready responses s) = .failed e w) :
      Served (w.outside.writeStreamError responses (mapVaultError e)).2
  | crashed {o : ObjectId} {w : World (Wire ω)} (hopens : Opens a objectId o)
      (hsent : (s.world.outside.writeFrame responses (.ok .streamReady)).1 = true)
      (hfree : a.vaultMutexPoisoned = false)
      (hget : getToWriter prim o .stream (ready responses s) = .crashed w) :
      Served w.outside

end

variable {ω : Type} [Machine ω] {responses : Codec Response} {prim : Primitives} {a : Arrival}
  {objectId : Text} {s : DaemonState (Wire ω)}

omit [Machine ω] in
/-- A request opens at most one object. -/
theorem Opens.inj {o o' : ObjectId} (h : Opens a objectId o) (h' : Opens a objectId o') : o = o' :=
  Except.ok.inj (h.2.symm.trans h'.2)

/-- `get_stream` does one of these. -/
theorem served_getStream (responses : Codec Response) (prim : Primitives) (a : Arrival)
    (objectId : Text) (s : DaemonState (Wire ω)) :
    Served responses prim a objectId s
      (getStream responses prim a objectId s).state.world.outside := by
  unfold getStream
  split
  · rename_i hbusy
    exact .refused (legible_error _ (by decide +kernel)) nofun (.inl ⟨hbusy, rfl⟩)
  rename_i hbusy
  have hidle : a.longOperationActive = false := by simpa using hbusy
  cases hparse : parseRequestObjectId objectId with
  | error response =>
    obtain ⟨hr, hne⟩ := legible_parseRequestObjectId hparse
    exact .refused hr hne (.inr ⟨hidle, hparse⟩)
  | ok o =>
    cases hsent : (s.world.outside.writeFrame responses (.ok .streamReady)).1 with
    | false =>
      simp only [Op.bind_apply, send, hsent]
      exact .unsent ⟨hidle, hparse⟩ hsent
    | true =>
      simp only [Op.bind_apply, send, hsent, if_true, sendObject]
      split
      · rename_i hpoisoned
        exact .unavailable ⟨hidle, hparse⟩ hsent hpoisoned
      · rename_i hpoisoned
        have hfree : a.vaultMutexPoisoned = false := by simpa using hpoisoned
        simp only [Op.bind_apply, Op.modify, runVault]
        cases hget : getToWriter prim o .stream (ready responses s) with
        | ok _ w =>
          rw [ready] at hget
          simp only [hget]
          exact .finished ⟨hidle, hparse⟩ hsent hfree hget
        | failed e w =>
          rw [ready] at hget
          simp only [hget]
          exact .failed ⟨hidle, hparse⟩ hsent hfree hget
        | crashed w =>
          rw [ready] at hget
          simp only [hget]
          exact .crashed ⟨hidle, hparse⟩ hsent hfree hget

/-- The world in which the vault starts to write. -/
theorem delivered_ready (responses : Codec Response) (s : DaemonState (Wire ω)) (reading : Prop)
    (h : reading → Machine.Accepts (ready responses s).outside.inner) :
    (ready responses s).Delivered (ready responses s).outside.sent reading :=
  ⟨[], nofun, by rw [framed, List.map_nil, List.flatten_nil, List.append_nil], rfl, h⟩

/-- The ready response and what follows it. -/
theorem emits_ready (hjson : responses.WritesJson) (s : DaemonState (Wire ω)) :
    Emits (prefixed (Response.ok .streamReady).toJson)
      (s.world.outside.writeFrame responses (.ok .streamReady)).1 s.world.outside
      (ready responses s).outside :=
  emits_writeFrame (legible_streamReady.writeFrame hjson) _

/-- An error in the middle of a stream goes out, or a part of it. -/
theorem emits_aborted (hjson : responses.WritesJson) {r : Response} (hr : Legible r.toJson)
    (w : Wire ω) :
    Emits (aborted r.toJson) (w.writeStreamError responses r).1 w
      (w.writeStreamError responses r).2 :=
  emits_writeStreamError (hr.writeStreamError hjson) w

/-- A complete stream was all of what the vault wrote. -/
def Whole (responses : Codec Response) (prim : Primitives) (a : Arrival) (objectId : Text)
    (s : DaemonState (Wire ω)) (chunks : List Bytes) : Prop :=
  ∃ o w, Opens a objectId o ∧
    getToWriter prim o .stream (ready responses s) = .ok () w ∧ chunks.flatten = w.sink

/-- What went out is part of a response, and of a stream that is complete only if it is whole. -/
theorem Served.part (hjson : responses.WritesJson) {outside : Wire ω}
    (h : Served responses prim a objectId s outside) :
    ∃ (out : Bytes) (r : Response) (q : Bytes), outside.sent = s.world.outside.sent ++ out ∧ Legible r.toJson ∧
      out <+: prefixed r.toJson ++ q ∧
      (r = .ok .streamReady → ∀ chunks, Completes q chunks → Whole responses prim a objectId s chunks) := by
  obtain ⟨out, hout, hpart, hcomplete⟩ := emits_ready hjson s
  have hwhole := legible_streamReady
  cases h with
  | @refused r hr hne _ =>
    obtain ⟨p, hsent, hp, -⟩ := emits_writeFrame (hr.writeFrame hjson) s.world.outside
    exact ⟨p, r, [], hsent, hr, by rwa [List.append_nil], fun h => absurd h hne⟩
  | unsent _ _ =>
    refine ⟨out, _, [], hout, hwhole, by rwa [List.append_nil], fun _ chunks h => ?_⟩
    exact absurd h.length_le (by decide)
  | unavailable _ hready _ =>
    have hr : Legible (Response.error .internal "daemon state is unavailable").toJson :=
      legible_error _ (by decide +kernel)
    obtain ⟨p, hsent, hp, -⟩ := emits_aborted hjson hr (ready responses s).outside
    obtain rfl := hcomplete hready
    refine ⟨_ ++ p, _, _, by rw [hsent, hout, List.append_assoc], hwhole,
      (List.prefix_append_right_inj _).mpr hp, fun _ chunks h => ?_⟩
    exact absurd h (not_completes_drop_aborted hr 0)
  | @finished o w hopens hready _ hget =>
    obtain ⟨items, hitems, hdelivered, hsink, -⟩ := (triple_getToWriter_wire o).ok_of
      (delivered_ready responses s False False.elim) hget
    obtain ⟨p, hsent, hp, -⟩ := emits_writeStreamEnd w.outside
    obtain rfl := hcomplete hready
    refine ⟨_ ++ (framed items ++ p), _, _, by rw [hsent, hdelivered, hout]; simp only [List.append_assoc],
      hwhole, (List.prefix_append_right_inj _).mpr ((List.prefix_append_right_inj _).mpr hp),
      fun _ chunks h => ?_⟩
    obtain ⟨more, rfl, hend⟩ := Completes.behind_items hitems h
    rw [← List.append_nil (Bytes.be32 streamEnd)] at hend
    obtain rfl := hend.eq_nil
    exact ⟨o, w, hopens, hget, by rw [List.append_nil, hsink]⟩
  | @failed o e w hopens hready _ hget =>
    obtain ⟨items, cut, hitems, hinterrupted, hcut, -⟩ := (triple_getToWriter_wire o).failed_of
      (delivered_ready responses s False False.elim) hget
    obtain ⟨p, hsent, hp, -⟩ := emits_aborted hjson (legible_mapVaultError e) w.outside
    obtain rfl := hcomplete hready
    refine ⟨_ ++ (framed items ++ (cut ++ p)), _, _,
      by rw [hsent, hinterrupted, hout]; simp only [List.append_assoc], hwhole,
      (List.prefix_append_right_inj _).mpr ((List.prefix_append_right_inj _).mpr
        ((List.prefix_append_right_inj _).mpr hp)), fun _ chunks h => ?_⟩
    obtain ⟨more, -, hend⟩ := Completes.behind_items hitems h
    exact absurd hend (not_completes_cut hcut (legible_mapVaultError e))
  | @crashed o w hopens hready _ hget =>
    obtain ⟨items, cut, hitems, hinterrupted, hcut, -⟩ := (triple_getToWriter_wire o).crashed_of
      (delivered_ready responses s False False.elim) hget
    obtain rfl := hcomplete hready
    refine ⟨_ ++ (framed items ++ cut), _, _,
      by rw [hinterrupted, hout]; simp only [List.append_assoc], hwhole, List.prefix_rfl,
      fun _ chunks h => ?_⟩
    -- what could follow would not complete it either
    obtain ⟨more, -, hend⟩ := Completes.behind_items hitems h
    exact absurd (hend.append _) (not_completes_cut hcut (legible_mapVaultError .storage))

/-! ### A client that takes everything -/

/-- Where writes are accepted, an answer goes out whole. -/
theorem accepts_writeFrame (hjson : responses.WritesJson) {r : Response} (hr : Legible r.toJson)
    {w : Wire ω} (h : Machine.Accepts w.inner) :
    (w.writeFrame responses r).1 = true ∧ Machine.Accepts (w.writeFrame responses r).2.inner := by
  obtain ⟨hnone, haccepts⟩ := h.writePrefixed r.toJson
  have hfits : r.toJson ≠ [] ∧ r.toJson.length ≤ maxFrameBytes :=
    ⟨hr.nonempty, hr.short.le.trans (by decide)⟩
  rw [writeFrame, hjson r]
  simp only [if_pos hfits, hnone]
  exact ⟨rfl, haccepts⟩

/-- Where writes are accepted, an error in the middle of a stream goes out whole. -/
theorem accepts_writeStreamError (hjson : responses.WritesJson) {r : Response}
    (hr : Legible r.toJson) {w : Wire ω} (h : Machine.Accepts w.inner) :
    (w.writeStreamError responses r).1 = true := by
  obtain ⟨hnone, haccepts⟩ := h.writeAll (Bytes.be32 streamError)
  unfold writeStreamError
  split
  · rename_i w' hwrite
    rw [hwrite] at haccepts
    exact (accepts_writeFrame hjson hr haccepts).1
  · rename_i n w' hwrite
    rw [hwrite] at hnone
    cases hnone

/-- What ends a download: the end marker exactly if `get_to_writer` returned. -/
def ending : Outcome VaultError (World (Wire ω)) Unit → Bytes
  | .ok _ _ => Bytes.be32 streamEnd
  | .failed e _ => aborted (mapVaultError e).toJson
  | .crashed _ => []

/-- A client that takes everything receives the ready response, the bytes the vault wrote as data items, and
what ends the download. -/
theorem Served.accepted (hjson : responses.WritesJson) {outside : Wire ω} {o : ObjectId}
    (h : Served responses prim a objectId s outside) (hopens : Opens a objectId o)
    (hfree : a.vaultMutexPoisoned = false)
    (haccepts : Machine.Accepts s.world.outside.inner) :
    ∃ items, (∀ i ∈ items, IsItem i) ∧
      items.flatten = (getToWriter prim o .stream (ready responses s)).state.sink ∧
      outside.sent = s.world.outside.sent ++ (prefixed (Response.ok .streamReady).toJson ++
        (framed items ++ ending (getToWriter prim o .stream (ready responses s)))) := by
  obtain ⟨hwritten, hready⟩ := accepts_writeFrame hjson legible_streamReady haccepts
  obtain ⟨out, hout, -, hcomplete⟩ := emits_ready hjson s
  obtain rfl := hcomplete hwritten
  have hdelivered := delivered_ready responses s True fun _ => hready
  cases h with
  | @refused r hr hne hrefused =>
    obtain ⟨hidle, hparse⟩ := hopens
    rw [hidle, hparse] at hrefused
    rcases hrefused with ⟨h, -⟩ | ⟨-, h⟩ <;> cases h
  | unsent _ hsent => rw [hwritten] at hsent; cases hsent
  | unavailable _ _ hpoisoned => rw [hfree] at hpoisoned; cases hpoisoned
  | @finished o' w hopens' _ _ hget =>
    obtain rfl := hopens.inj hopens'
    obtain ⟨items, hitems, hsent, hsink, hreads⟩ := (triple_getToWriter_wire o).ok_of hdelivered hget
    obtain ⟨p, hmore, -, hp⟩ := emits_writeStreamEnd w.outside
    have hend : w.outside.writeStreamEnd.1 = true :=
      congrArg Option.isNone ((hreads trivial).writeAll _).1
    obtain rfl := hp hend
    refine ⟨items, hitems, by rw [hget]; exact hsink, ?_⟩
    rw [hmore, hsent, hout, hget]
    simp only [ending, List.append_assoc]
  | @failed o' e w hopens' _ _ hget =>
    obtain rfl := hopens.inj hopens'
    obtain ⟨items, cut, hitems, hsent, -, hreads⟩ :=
      (triple_getToWriter_wire o).failed_of hdelivered hget
    obtain ⟨rfl, hsink, hopen⟩ := hreads trivial
    obtain ⟨p, hmore, -, hp⟩ := emits_aborted hjson (legible_mapVaultError e) w.outside
    obtain rfl := hp (accepts_writeStreamError hjson (legible_mapVaultError e) hopen)
    refine ⟨items, hitems, by rw [hget]; exact hsink, ?_⟩
    rw [hmore, hsent, hout, hget]
    simp only [ending, List.append_assoc, List.append_nil]
  | crashed hopens' _ _ hget =>
    obtain rfl := hopens.inj hopens'
    obtain ⟨items, cut, hitems, hsent, -, hreads⟩ :=
      (triple_getToWriter_wire o).crashed_of hdelivered hget
    obtain ⟨rfl, hsink, -⟩ := hreads trivial
    refine ⟨items, hitems, by rw [hget]; exact hsink, ?_⟩
    rw [hsent, hout, hget]
    simp only [ending, List.append_assoc, List.append_nil]

/-- The items that went out are read as their bytes. -/
theorem written_items {items : List Bytes} (h : ∀ i ∈ items, IsItem i) :
    Written responses (.data items.flatten) (framed items) := by
  have hchunks : ∀ i ∈ items.map fun i => (i, prefixed i), Protocol.writeStreamChunk i.1 = .ok i.2 := by
    intro i hi
    obtain ⟨item, hitem, rfl⟩ := List.mem_map.mp hi
    have hfits : item ≠ [] ∧ item.length ≤ maxStreamChunkBytes := h item hitem
    rw [Protocol.writeStreamChunk, ensure_pos hfits]
    rfl
  have hwritten : Written responses _ _ := .data hchunks
  rwa [List.map_map, List.map_map, show Prod.fst ∘ (fun i : Bytes => (i, prefixed i)) = id from rfl,
    List.map_id] at hwritten

/-- The socket carries the frames of the download. -/
theorem sent_frames (hjson : responses.WritesJson) {o : ObjectId} (hopens : Opens a objectId o)
    (hfree : a.vaultMutexPoisoned = false) (hwritten : a.readyWritten = true)
    (haccepts : Machine.Accepts s.world.outside.inner) {frames : List Frame}
    {t : DaemonState (Wire ω)}
    (h : Vlt1.getStream prim a objectId { s with world := ready responses s } = .ok frames t) :
    ∃ outs, List.Forall₂ (Written responses) frames outs ∧
      (getStream responses prim a objectId s).state.world.outside.sent =
        s.world.outside.sent ++ outs.flatten := by
  obtain ⟨items, hitems, hsink, hsent⟩ :=
    (served_getStream responses prim a objectId s).accepted hjson hopens hfree haccepts
  have hready : Written responses (.response (.ok .streamReady))
      (prefixed (Response.ok .streamReady).toJson) :=
    .response (legible_streamReady.writeFrame hjson)
  have hdata : Written responses _ _ := written_items hitems
  simp only [Vlt1.getStream, hopens.1, hopens.2, hfree, hwritten, Bool.false_eq_true, if_false,
    Bool.true_eq_false, Op.bind_apply, Op.modify, runVault, Op.get] at h
  cases hget : getToWriter prim o .stream (ready responses s) with
  | ok _ w =>
    rw [hget] at hsink hsent
    rw [ready] at hget
    simp only [ready, hget] at h
    obtain ⟨rfl, -⟩ := Outcome.ok.inj h
    refine ⟨[_, framed items, Bytes.be32 streamEnd], ?_, by simpa [ending] using hsent⟩
    exact .cons hready (.cons (by rwa [hsink] at hdata) (.cons (.streamEnd rfl) .nil))
  | failed e w =>
    rw [hget] at hsink hsent
    rw [ready] at hget
    simp only [ready, hget] at h
    obtain ⟨rfl, -⟩ := Outcome.ok.inj h
    refine ⟨[_, framed items, aborted (mapVaultError e).toJson], ?_, by simpa [ending] using hsent⟩
    have herror := (legible_mapVaultError e).writeStreamError hjson
    exact .cons hready (.cons (by rwa [hsink] at hdata) (.cons (.streamError herror) .nil))
  | crashed w =>
    rw [ready] at hget
    simp only [ready, hget] at h
    cases h

end Wire

/-! ### Both sides -/

section

variable {ω : Type} [Machine ω] {responses : Codec Response}

/-- **Downloads are complete or absent.** To a client that takes everything, the daemon sends the bytes of
`get_to_writer` as data items, and the end marker exactly if it returned. Whatever the client receives, it
links only what stands in front of an end marker, and that it links if nothing else fails. So whichever
socket writes fail, and however much of what was sent arrives, the output path is created only with the whole
of what a `get_to_writer` that returned has written. -/
theorem download_complete_or_absent (hresponses : responses.Inverts) (hjson : responses.WritesJson) :
    (∀ (prim : Primitives) (a : Arrival) (objectId : Text) (o : ObjectId) (s : DaemonState (Wire ω)),
      Wire.Opens a objectId o → a.vaultMutexPoisoned = false →
      Machine.Accepts s.world.outside.inner →
      ∃ items, (∀ i ∈ items, IsItem i) ∧
        items.flatten = (getToWriter prim o .stream (Wire.ready responses s)).state.sink ∧
        (Wire.getStream responses prim a objectId s).state.world.outside.sent =
          s.world.outside.sent ++ (prefixed (Response.ok .streamReady).toJson ++
            (Wire.framed items ++
              Wire.ending (getToWriter prim o .stream (Wire.ready responses s))))) ∧
    (∀ fails socket output (c : Cli.Client),
      (Cli.get fails responses socket output c).state.files = c.files ∨
        ∃ chunks, Cli.Received responses c.input chunks ∧
          Cli.Linked output chunks.flatten c.files
            (Cli.get fails responses socket output c).state.files) ∧
    (∀ fails socket output (c : Cli.Client) chunks, (∀ step, fails step = false) →
      Cli.Writable output c.files → Cli.Received responses c.input chunks →
      Cli.Linked output chunks.flatten c.files
        (Cli.get fails responses socket output c).state.files) ∧
    ∀ (prim : Primitives) (a : Arrival) (objectId : Text) (s : DaemonState (Wire ω)),
      ∃ out, (Wire.getStream responses prim a objectId s).state.world.outside.sent =
          s.world.outside.sent ++ out ∧
        ∀ p, p <+: out → ∀ broken fails socket output files,
          (Cli.get fails responses socket output ⟨⟨p, broken⟩, files⟩).state.files = files ∨
            ∃ o w, Wire.Opens a objectId o ∧
              getToWriter prim o .stream (Wire.ready responses s) = .ok () w ∧
              Cli.Linked output w.sink files
                (Cli.get fails responses socket output ⟨⟨p, broken⟩, files⟩).state.files := by
  have hclient : ∀ fails socket output (c : Cli.Client),
      (Cli.get fails responses socket output c).state.files = c.files ∨
        ∃ chunks, Cli.Received responses c.input chunks ∧
          Cli.Linked output chunks.flatten c.files
            (Cli.get fails responses socket output c).state.files := by
    intro fails socket output c
    have htriple := (Cli.triple_get c : Op.Triple _ (Cli.get fails responses socket output) _ _) c rfl
    cases hget : Cli.get fails responses socket output c with
    | ok _ c' => rw [hget] at htriple; exact .inr htriple
    | failed e c' => rw [hget] at htriple; exact htriple
    | crashed c' => rw [hget] at htriple; exact htriple
  refine ⟨fun prim a objectId o s hopens hfree haccepts => ?_, hclient, ?_, ?_⟩
  · exact (Wire.served_getStream responses prim a objectId s).accepted hjson hopens hfree haccepts
  · intro fails socket output c chunks hfails hwritable hreceived
    have htotal : Op.Total (· = c) (Cli.get fails responses socket output) _ :=
      Cli.total_get hfails hwritable hreceived
    obtain ⟨_, c', hget, hlinked⟩ := htotal.eq_ok rfl
    rw [hget]
    exact hlinked
  · intro prim a objectId s
    obtain ⟨out, r, q, hsent, hr, hout, hwhole⟩ :=
      (Wire.served_getStream responses prim a objectId s).part hjson
    refine ⟨out, hsent, fun p hp broken fails socket output files => ?_⟩
    refine (hclient fails socket output ⟨⟨p, broken⟩, files⟩).imp_right ?_
    rintro ⟨chunks, hreceived, hlinked⟩
    obtain ⟨hready, hcompletes⟩ := received_part hresponses hjson hr (hp.trans hout) hreceived
    obtain ⟨o, w, hopens, hget, hsink⟩ := hwhole hready chunks hcompletes
    exact ⟨o, w, hopens, hget, by rwa [hsink] at hlinked⟩

end

/-! ### One byte -/

/-- A connection to surroundings. -/
def World.onWire {ω : Type} (w : World ω) : World (Wire ω) := { w with outside := ⟨w.outside, []⟩ }

/-- A daemon with one byte stored, and a connection to it. -/
def sampleDownload : DaemonState (Wire SampleChannel) where
  world := (putFromReader .checksum (Identifier.repeated 2) (streamReader (upload [[97]]))
    sampleWorld).state.onWire
  running := true
  verifiedActiveObjects := none
  shutdown := false

/-- The sample download, cut at any place and whole. -/
theorem download_complete_or_absent_sample :
    Codec.json.Inverts ∧ Codec.json.WritesJson ∧
      (Wire.getStream Codec.json .checksum {} sampleObject sampleDownload).state.world.outside.sent =
        prefixed (Response.ok .streamReady).toJson ++ [0, 0, 0, 1, 97, 0, 0, 0, 0] ∧
      ∀ p, p <+: prefixed (Response.ok .streamReady).toJson ++ [0, 0, 0, 1, 97, 0, 0, 0, 0] →
        ∀ broken fails socket output files,
          (Cli.get fails Codec.json socket output ⟨⟨p, broken⟩, files⟩).state.files = files ∨
            Cli.Linked output [97] files
              (Cli.get fails Codec.json socket output ⟨⟨p, broken⟩, files⟩).state.files := by
  have hjson : Codec.json.WritesJson := fun _ => rfl
  have hsent : (Wire.getStream Codec.json .checksum {} sampleObject
      sampleDownload).state.world.outside.sent =
        prefixed (Response.ok .streamReady).toJson ++ [0, 0, 0, 1, 97, 0, 0, 0, 0] := by
    decide +kernel
  refine ⟨Codec.json_inverts, hjson, hsent, fun p hp broken fails socket output files => ?_⟩
  obtain ⟨-, -, -, hboth⟩ := download_complete_or_absent (ω := SampleChannel) Codec.json_inverts hjson
  obtain ⟨out, hout, hpart⟩ := hboth .checksum {} sampleObject sampleDownload
  have hempty : sampleDownload.world.outside.sent = [] := rfl
  rw [hempty, List.nil_append, hsent] at hout
  subst hout
  refine (hpart p hp broken fails socket output files).imp_right ?_
  rintro ⟨o, w, hopens, hget, hlinked⟩
  have ho : parseRequestObjectId sampleObject = .ok (Identifier.repeated 2) := by decide +kernel
  obtain rfl := Except.ok.inj (hopens.2.symm.trans ho)
  have hsink : (getToWriter .checksum (Identifier.repeated 2) .stream
      (Wire.ready Codec.json sampleDownload)).state.sink = [97] := by decide +kernel
  rw [hget] at hsink
  rwa [show w.sink = [97] from hsink] at hlinked

end Vlt1
