import Mathlib.Algebra.Order.BigOperators.Group.List
import Vlt1.Refinement
import Vlt1.ResponseJson
import Vlt1.UploadPublication
import Vlt1.Vault.Sweep

/-!
# One frame for every request

A request that is not a stream is answered with one frame, which the client decodes to the response the
daemon computed. `write_frame` refuses a body above `MAX_FRAME_BYTES`, and a plaintext is the only part of a
response that can be that long: base64 makes four bytes of three, and the JSON around it takes 64 more. A
`put` cannot bring in such a plaintext, since its request frame has the same limit, but an upload can.

`answered_iff_fits` states the limit on the stored length of the requested object.
`get_of_uploaded_object_unanswered` uploads 12 MiB and asks for them: the connection closes without any answer.
-/

namespace Vlt1

open Effect Framing Protocol

/-! ### Responses that fit into a frame -/

/-- What is known of the standard base64 alphabet with padding. -/
structure Primitives.Base64 (prim : Primitives) : Prop where
  length : ∀ b, (prim.base64Encode b).length = 4 * ((b.length + 2) / 3)
  plain : ∀ b, ∀ c ∈ prim.base64Encode b, Json.Plain c

/-- `create_snapshot` returns the format marker and the hexadecimal digest of the copy. -/
def Machine.NamesBackups (ω : Type) [Machine ω] : Prop :=
  ∀ destination db (o : ω) m, (Machine.backup destination db o).1 = .ok m →
    m.format.length ≤ 64 ∧ m.databaseSha256.length = 64

/-- The largest plaintext whose response fits into a frame. -/
def largestAnswered : ℕ := 12582864

/-- The largest object whose text fits into a frame, with 64 characters around it. -/
theorem base64_fits_iff (n : ℕ) : 4 * ((n + 2) / 3) + 64 ≤ maxFrameBytes ↔ n ≤ largestAnswered := by
  rw [show maxFrameBytes = 16777216 from rfl, show largestAnswered = 12582864 from rfl]
  omega

section

open Json in
/-- A payload of short fields fits. -/
theorem length_toJson_ok_le {x : Success} (h : ∀ f ∈ x.fields, f.length ≤ 4000) :
    (Response.ok x).toJson.length ≤ maxFrameBytes := by
  have hkind : x.kind.length ≤ 64 := by cases x <;> simp only [Success.kind] <;> decide
  have hcount : x.fields.length ≤ 5 := by cases x <;> simp [Success.fields]
  have hfields : (x.fields.map fun f => f.length + 1).sum ≤ x.fields.length * 4001 := by
    have hsum := List.sum_le_card_nsmul (x.fields.map fun f => f.length + 1) 4001 (by
      rintro n hn
      obtain ⟨f, hf, rfl⟩ := List.mem_map.mp hn
      exact Nat.succ_le_succ (h f hf))
    rwa [List.length_map, nsmul_eq_mul, Nat.cast_id] at hsum
  have htag := length_field_le (show "kind".length ≤ 64 by decide) (length_name_le hkind)
  have hstatus := length_field_le (show "status".length ≤ 64 by decide)
    (length_name_le (s := "ok") (by decide))
  have hresult := length_field_le (show "result".length ≤ 64 by decide) (le_refl x.toJson.length)
  rw [Success.toJson, length_object] at hresult
  rw [Response.toJson, length_object, show maxFrameBytes = 16777216 from rfl]
  simp only [List.map_cons, List.map_nil, List.sum_cons, List.sum_nil, Success.toJson] at hresult ⊢
  omega

open Json in
/-- An error with a short text fits into a frame. -/
theorem length_toJson_error_le (code : ErrorCode) {message : String} (h : message.length ≤ 64) :
    (Response.error code message).toJson.length ≤ maxFrameBytes := by
  have hcode : code.name.length ≤ 64 := by cases code <;> decide
  have hstatus := length_field_le (show "status".length ≤ 64 by decide)
    (length_name_le (s := "error") (by decide))
  have hcode := length_field_le (show "code".length ≤ 64 by decide) (length_name_le hcode)
  have hmessage := length_field_le (show "message".length ≤ 64 by decide) (length_name_le h)
  have herror := length_field_le (show "error".length ≤ 64 by decide) (le_refl (object
    (field "code" (string (utf8 code.name))) [field "message" (string (utf8 message))]).length)
  rw [length_object] at herror
  rw [Response.toJson, length_object, show maxFrameBytes = 16777216 from rfl]
  simp only [List.map_cons, List.map_nil, List.sum_cons, List.sum_nil] at herror ⊢
  omega

variable {ω : Type} [Machine ω]

open Json in
/-- Every answer but a plaintext is short. -/
theorem answers_fit (hbackups : Machine.NamesBackups ω) :
    Answers ω fun r => r.toJson.length ≤ maxFrameBytes := by
  have htext : ∀ {name : String} {t : Text}, name.length ≤ 64 → t.length ≤ 256 →
      (field name (string t)).length ≤ 4000 := by
    intro name t hname ht
    have hstring := length_string_le t
    exact (length_field_le hname hstring).trans (by omega)
  have hutf8 : ∀ {s : String}, s.length ≤ 64 → (utf8 s).length ≤ 256 :=
    fun hs => (length_utf8_le _).trans (by omega)
  have hid : ∀ {kind : IdKind} (id : Identifier kind), id.toHex.length ≤ 256 := by
    intro kind id
    rw [Identifier.toHex, length_hexEncode]
    simp [Identifier.blob]
  have hnumber : ∀ {name : String} (n : UInt64), name.length ≤ 64 →
      (field name (number n.toNat)).length ≤ 4000 :=
    fun n hname => (length_field_le hname (length_number_le n)).trans (by decide)
  refine ⟨fun code message => length_toJson_error_le code, length_toJson_ok_le (List.forall_mem_nil _),
    fun id lifecycle n => length_toJson_ok_le ?_, fun version => length_toJson_ok_le ?_,
    fun n => length_toJson_ok_le ?_, fun destination db o m hm => length_toJson_ok_le ?_⟩
  · have hname : lifecycle.name.length ≤ 64 := by cases lifecycle <;> decide
    simp only [Success.fields, List.forall_mem_cons]
    refine ⟨htext (by decide) (hutf8 (by decide)), htext (by decide) (hid id),
      htext (by decide) (hutf8 hname), htext (by decide) (hutf8 (by decide)), ?_,
      List.forall_mem_nil _⟩
    cases n with
    | none => exact (length_field_le (by decide) (hutf8 (by decide))).trans (by decide)
    | some n => exact hnumber n (by decide)
  · simp only [Success.fields, List.forall_mem_cons]
    exact ⟨htext (by decide) (hid version), List.forall_mem_nil _⟩
  · simp only [Success.fields, List.forall_mem_cons]
    exact ⟨hnumber n (by decide), List.forall_mem_nil _⟩
  · obtain ⟨hformat, hsha⟩ := hbackups destination db o m hm
    simp only [Success.fields, List.forall_mem_cons]
    exact ⟨htext (by decide) (hformat.trans (by decide)),
      htext (by decide) (hsha.le.trans (by decide)), hnumber _ (by decide),
      List.forall_mem_nil _⟩

/-! ### The length of what `get` returns -/

/-- The writer has received what it had. -/
def World.SinkKept (w w' : World ω) : Prop := w'.sink = w.sink

instance : QueryRelation (World.SinkKept (ω := ω)) where
  refl _ := rfl
  trans _ _ _ h h' := Eq.trans h' h
  serve _ _ _ := rfl
  interfere _ := rfl

omit [Machine ω] in
/-- A step that keeps what the writer has received keeps what is known about it. -/
theorem triple_of_sinkKept {α : Type} {x : VaultOp ω α} (h : Op.Keeps World.SinkKept x)
    (P : Bytes → Prop) :
    Op.Triple (fun w => P w.sink) x (fun _ w => P w.sink) fun _ _ => True := by
  intro w hw
  have hkept := h w
  cases hx : x w with
  | ok a w' =>
    rw [hx] at hkept
    exact (congrArg P hkept).mpr hw
  | failed e w' => trivial
  | crashed w' => trivial

variable {prim : Primitives} {v : VaultId} {o : ObjectId} {u : VersionId} {k : Block 32}
  {manifest : Manifest}

/-- The decryption pass counts the bytes it writes. -/
theorem triple_decryptVisit_length (n : UInt64) (c : EncryptedChunk) :
    Op.Triple (fun w : World ω => w.sink.length = n.toNat)
      (decryptVisit prim v o u k manifest .vector n c)
      (fun n' w => w.sink.length = n'.toNat) fun _ _ => True := by
  refine Op.Triple.bind_ofExcept (fun expectedLen _ => ?_) fun _ _ _ _ => trivial
  refine Op.Triple.bind_ofExcept (fun part _ => ?_) fun _ _ _ _ => trivial
  refine Op.Triple.bind_require (fun hpart => ?_) fun _ _ _ => trivial
  refine Op.Triple.bind (fun _ w => w.sink.length = n.toNat + expectedLen.toNat)
    (fun w hw => ?_) fun _ => ?_
  · show (w.sink ++ part).length = _
    rw [List.length_append, hw, hpart]
  · refine Op.Triple.ofExcept (fun n' hn' w hw => ?_) fun _ _ _ _ => trivial
    rw [hw, checkedAdd64_eq_ok hn', UInt32.toNat_toUInt64]

/-- A decryption pass that returns has given as many bytes as the manifest says. -/
theorem triple_decryptPass_length :
    Op.Triple (fun w : World ω => w.sink.length = 0)
      (decryptPass prim v o u k manifest .vector)
      (fun _ w => w.sink.length = manifest.plaintextLen.toNat) fun _ _ => True := by
  refine Op.Triple.bind (fun (n : UInt64) (w : World ω) => w.sink.length = n.toNat) ?_ fun n => ?_
  · refine Op.Triple.bind (fun _ w => w.sink.length = 0)
      (triple_of_sinkKept (keeps_query _) (·.length = 0)) fun rows => ?_
    -- the loop invariant: as many bytes as counted
    refine (Op.Triple.fold (I := fun _ _ (n : UInt64) (w : World ω) => w.sink.length = n.toNat)
      (fun _ row _ n => ?_) [] rows 0)
    refine Op.Triple.bind (fun _ w => w.sink.length = n.toNat)
      (triple_of_sinkKept keeps_storageFault (·.length = n.toNat)) fun _ => ?_
    exact Op.Triple.bind_ofExcept (fun chunk _ => triple_decryptVisit_length n chunk)
      fun _ _ _ _ => trivial
  · refine Op.Triple.require (fun hn w hw => ?_) fun _ _ _ => trivial
    rw [hw, hn]

/-- The length of an object, as the row of its active version states it. -/
def Database.activeLen (db : Database) (o : ObjectId) : Except VaultError UInt64 := do
  let versionId ← db.selectActive o
  let version ← db.selectVersion versionId
  return version.plaintextLen

/-- `get` returns as many bytes as the row of the active version states. -/
theorem get_ok_length [Exclusive ω] {w w' : World ω} {bytes : Bytes}
    (h : get prim o w = .ok bytes w') :
    ∃ n, w.db.activeLen o = .ok n ∧ bytes.length = n.toNat := by
  obtain ⟨hread, rfl⟩ := get_eq_ok h
  obtain ⟨rootKey, version, dataKey, manifest, w1, w2, w3, -, hversion, -, -, hmanifest, hreceipt,
    hdigest, hdecrypt⟩ := getToWriterInner_eq_ok hread
  obtain ⟨hactive, hstored, -⟩ := activeVersion_ok hversion
  obtain ⟨_, _, -, -, -, -, -, hlen, -⟩ := openManifest_eq_ok hmanifest
  -- nothing is written before the decryption pass
  have hempty : w3.sink = [] := by
    have h1 : w1.sink = [] := (keeps_activeVersion (R := World.SinkKept) o).of_ok hversion
    have h2 : w2.sink = w1.sink :=
      (keeps_checkStoredReceipt (R := World.SinkKept) prim _ _ _).of_ok hreceipt
    have h3 : w3.sink = w2.sink := (keeps_digestPass (R := World.SinkKept) prim _ _).of_ok hdigest
    rw [h3, h2, h1]
  have hlength := triple_decryptPass_length.ok_of (by rw [hempty]; rfl) hdecrypt
  refine ⟨version.plaintextLen, ?_, by rw [hlength, hlen]⟩
  rw [Database.activeLen, hactive]
  show (do let version ← w.db.selectVersion version.versionId; pure version.plaintextLen) = _
  rw [hstored]
  rfl

/-! ### Answers -/

/-- The request opens a stream. -/
def Request.Streaming : Request → Prop
  | .putStream _ _ | .getStream _ => True
  | _ => False

/-- A requested object is stored with a length whose response fits into a frame. -/
def Request.FitsFrame (db : Database) : Request → Prop
  | .get text => ∀ o n, parseRequestObjectId text = .ok o → db.activeLen o = .ok n →
      n.toNat ≤ largestAnswered
  | _ => True

variable [Transport ω] {config : DaemonConfig} {responses : Codec Response} {a : Arrival}
  {request : Request} {s s' : DaemonState ω} {r : Response}

variable (responses prim config a request s) in
/-- The request is answered with one frame, from which the client reads the response that was computed and
nothing more. -/
def Answered : Prop :=
  ∃ r s' out, dispatch prim config a request s = .ok r s' ∧
    serveStream prim config a (some request) s = .ok [.response r] s' ∧
    writeFrame responses r = .ok out ∧
    ∀ rest broken, readFrame responses ⟨out ++ rest, broken⟩ = .ok r ⟨rest, broken⟩

/-- The limit of `write_frame` is the only obstacle. -/
theorem answered_iff_length (hcodec : responses.Inverts) (hjson : responses.WritesJson)
    (ha : a.authorized = true) (hstream : ¬request.Streaming)
    (h : dispatch prim config a request s = .ok r s') :
    Answered prim config responses a request s ↔ r.toJson.length ≤ maxFrameBytes := by
  constructor
  · rintro ⟨r', s'', out, hdispatch, -, hwrite, -⟩
    obtain ⟨rfl, rfl⟩ : r = r' ∧ s' = s'' := by simpa [h] using hdispatch
    by_contra hlong
    rw [writeFrame_too_long hjson (not_le.mp hlong)] at hwrite
    cases hwrite
  · intro hfits
    have hwrite := writeFrame_fits hjson hfits
    refine ⟨r, s', _, h, ?_, hwrite, (reads_readFrame hcodec hwrite).whole⟩
    have hserve : serveStream prim config a (some request) =
        (do return [.response (← dispatch prim config a request)] : DaemonOp ω (List Frame)) := by
      unfold serveStream
      rw [if_pos ha]
      split
      · rename_i heq
        cases heq
        exact (hstream trivial).elim
      · rename_i heq
        cases heq
        exact (hstream trivial).elim
      · rename_i heq
        cases heq
        rfl
      · rename_i heq
        cases heq
    rw [hserve, Op.bind_of_ok h]
    rfl

omit [Machine ω] [Transport ω] in
/-- A call that fails is answered, and the handler goes on. -/
theorem fails_runVault {α : Type} (operation : VaultOp ω α) :
    Op.Fails (fun _ => False) (runVault operation) := by
  intro s e s' h
  unfold runVault at h
  split at h <;> cases h

omit [Machine ω] [Transport ω] in
/-- A call that fails is answered, and the handler goes on. -/
theorem fails_withVault (operation : VaultOp ω Success) :
    Op.Fails (fun _ => False) (withVault a operation) := by
  unfold withVault
  split
  · exact Op.Fails.pure _
  · exact Op.Fails.bind (fails_runVault operation) fun _ => Op.Fails.pure _

omit [Machine ω] in
/-- A call that fails is answered, and the handler goes on. -/
theorem fails_withWitness (operation : WitnessProvider ω → VaultOp ω Success) :
    Op.Fails (fun _ => False) (withWitness prim config a operation) := by
  unfold withWitness
  split
  · exact Op.Fails.pure _
  · split
    · exact Op.Fails.pure _
    · exact fails_withVault _

/-- A request ends in a response, or the process dies in it. -/
theorem fails_dispatch : Op.Fails (fun _ => False) (dispatch (ω := ω) prim config a request) := by
  unfold dispatch
  split
  · exact Op.Fails.pure _
  cases request with
  | status =>
    refine Op.Fails.bind Op.Fails.get fun s => ?_
    split_ifs <;> exact Op.Fails.pure _
  | unlock passphrase =>
    show Op.Fails _ (serveUnlock prim config a passphrase)
    unfold serveUnlock
    split
    · exact fails_withWitness _
    · exact fails_withVault _
  | lock => exact fails_withVault _
  | put objectId plaintextB64 =>
    show Op.Fails _ (servePut prim config a objectId plaintextB64)
    unfold servePut
    split
    · exact Op.Fails.pure _
    split
    · exact Op.Fails.pure _
    split
    · exact fails_withWitness _
    · exact fails_withVault _
  | get objectId =>
    show Op.Fails _ (serveGet prim config a objectId)
    unfold serveGet
    split
    · exact Op.Fails.pure _
    split
    · exact fails_withWitness _
    · exact fails_withVault _
  | putStream _ _ => exact Op.Fails.pure _
  | getStream _ => exact Op.Fails.pure _
  | rotatePassphrase _ _ => exact fails_withVault _
  | verify =>
    show Op.Fails _ (serveVerify prim config a)
    unfold serveVerify
    split
    · exact Op.Fails.pure _
    refine Op.Fails.bind (fails_runVault _) fun result => ?_
    cases result with
    | ok n =>
      show Op.Fails _ (if _ then _ else _)
      split
      · exact Op.Fails.pure _
      · exact Op.Fails.bind (Op.Fails.modify _) fun _ => Op.Fails.pure _
    | error e => exact Op.Fails.pure _
  | checkpoint => exact fails_withVault _
  | backup destination =>
    show Op.Fails _ (serveBackup a destination)
    unfold serveBackup
    split
    · exact Op.Fails.pure _
    · exact fails_withVault _
  | shutdown =>
    show Op.Fails _ (if _ then _ else _)
    split
    · exact Op.Fails.bind (Op.Fails.modify _) fun _ => Op.Fails.pure _
    · exact Op.Fails.pure _

/-- An error the daemon reports: its text is short. -/
def Response.IsError : Response → Prop
  | .error _ message => message.length ≤ 64
  | .ok _ => False

omit [Transport ω] in
/-- A malformed object identifier is reported with a short text. -/
theorem isError_parse {text : Text} (h : parseRequestObjectId text = .error r) : r.IsError := by
  unfold parseRequestObjectId at h
  split at h
  · split at h <;> cases h
    exact (show String.length _ ≤ 64 by decide)
  · cases h
    exact (show String.length _ ≤ 64 by decide)

omit [Machine ω] [Transport ω] in
/-- A call of the vault is answered with an error or with what it returned. -/
theorem withVault_eq_ok {operation : VaultOp ω Success} (h : withVault a operation s = .ok r s') :
    r.IsError ∨ ∃ x, r = .ok x ∧ operation s.world = .ok x s'.world := by
  unfold withVault at h
  split at h
  · cases h
    exact .inl (show String.length _ ≤ 64 by decide)
  · obtain ⟨result, s1, hrun, hrespond⟩ := Op.bind_eq_ok.mp h
    cases hrespond
    rcases runVault_eq_ok hrun with ⟨x, rfl, hx⟩ | ⟨e, rfl, -⟩
    · exact .inr ⟨x, rfl, hx⟩
    · refine .inl ?_
      cases e <;> (change String.length _ ≤ 64; decide)

omit [Machine ω] in
/-- A call with a witness is answered with an error or with what it returned. -/
theorem withWitness_eq_ok {operation : WitnessProvider ω → VaultOp ω Success}
    (h : withWitness prim config a operation s = .ok r s') :
    r.IsError ∨ ∃ provider x, r = .ok x ∧ operation provider s.world = .ok x s'.world := by
  unfold withWitness at h
  cases hconfig : config.witness with
  | none =>
    rw [hconfig] at h
    cases h
    exact .inl (show String.length _ ≤ 64 by decide)
  | some p =>
    simp only [hconfig] at h
    split at h
    · cases h
      exact .inl (show String.length _ ≤ 64 by decide)
    · exact (withVault_eq_ok h).imp_right fun hx => ⟨_, hx⟩

/-- The answer to a `get` is an error, or a plaintext of the stored length. -/
theorem dispatch_get_eq_ok [Exclusive ω] {text : Text}
    (h : dispatch prim config a (.get text) s = .ok r s') :
    r.IsError ∨ ∃ o n bytes, parseRequestObjectId text = .ok o ∧
      s.world.db.activeLen o = .ok n ∧ bytes.length = n.toNat ∧
      r = .ok (.plaintext (prim.base64Encode bytes)) := by
  unfold dispatch at h
  split at h
  · cases h
    exact .inl (show String.length _ ≤ 64 by decide)
  change serveGet prim config a text s = _ at h
  unfold serveGet at h
  cases hparse : parseRequestObjectId text with
  | error response =>
    rw [hparse] at h
    cases h
    exact .inl (isError_parse hparse)
  | ok o =>
  simp only [hparse] at h
  have hplaintext : ∀ {w w' : World ω} {x : Success}, w.db = s.world.db →
      (do let plaintext ← get prim o
          return Success.plaintext (prim.base64Encode plaintext) : VaultOp ω Success) w = .ok x w' →
        ∃ n bytes, s.world.db.activeLen o = .ok n ∧ bytes.length = n.toNat ∧
          x = .plaintext (prim.base64Encode bytes) := by
    intro w w' x hdb hx
    obtain ⟨bytes, w1, hget, hreturn⟩ := Op.bind_eq_ok.mp hx
    cases hreturn
    obtain ⟨n, hn, hlength⟩ := get_ok_length hget
    exact ⟨n, bytes, hdb ▸ hn, hlength, rfl⟩
  split at h
  · -- the sweep before the read leaves the tables alone
    rcases withWitness_eq_ok h with herror | ⟨provider, x, hr, hx⟩
    · exact .inl herror
    · obtain ⟨_, w1, hsweep, hx⟩ := Op.bind_eq_ok.mp hx
      have huntouched : s.world.Untouched w1 := (verifyActiveObjectsWithWitness_ok
        provider.keeps_untouched hsweep).1
      obtain ⟨n, bytes, hn, hlength, rfl⟩ := hplaintext huntouched.db hx
      exact .inr ⟨o, n, bytes, rfl, hn, hlength, hr⟩
  · rcases withVault_eq_ok h with herror | ⟨x, hr, hx⟩
    · exact .inl herror
    · obtain ⟨n, bytes, hn, hlength, rfl⟩ := hplaintext rfl hx
      exact .inr ⟨o, n, bytes, rfl, hn, hlength, hr⟩

/-- Without a witness an undisturbed `get` answers with what the vault returns. -/
theorem dispatch_get_of_ok {text : Text} {o : ObjectId} {bytes : Bytes} {w : World ω}
    (hconfig : config.witness = none) (hidle : a.longOperationActive = false)
    (hmutex : a.vaultMutexPoisoned = false) (hparse : parseRequestObjectId text = .ok o)
    (h : get prim o s.world = .ok bytes w) :
    dispatch prim config a (.get text) s =
      .ok (.ok (.plaintext (prim.base64Encode bytes))) { s with world := w } := by
  have hrun : runVault (do
      let plaintext ← get prim o
      return Success.plaintext (prim.base64Encode plaintext)) s =
        .ok (.ok (.plaintext (prim.base64Encode bytes))) { s with world := w } := by
    rw [runVault, Op.bind_of_ok h]
    rfl
  have hstep : dispatch prim config a (.get text) s = (do
      return respond (← runVault (do
        let plaintext ← get prim o
        return Success.plaintext (prim.base64Encode plaintext))) : DaemonOp ω Response) s := by
    simp only [dispatch, serveGet, hparse, hconfig, hidle, hmutex, withVault, Option.isSome_none,
      Bool.false_eq_true, false_and, if_false]
  rw [hstep, Op.bind_of_ok hrun]
  rfl

/-- The JSON of a plaintext response fits exactly if the plaintext is short enough. -/
theorem length_toJson_get (hbase64 : prim.Base64) (bytes : Bytes) :
    (Response.ok (.plaintext (prim.base64Encode bytes))).toJson.length ≤ maxFrameBytes ↔
      bytes.length ≤ largestAnswered := by
  rw [length_toJson_plaintext (hbase64.plain bytes), hbase64.length, base64_fits_iff]

/-- **One frame for every request.** For every state of the vault, either profile and every authorised request
that opens no stream, as long as the process survives it: if a requested object is stored with a length of at
most `largestAnswered`, then one frame is written and the client reads from it the response the daemon
computed. If it is longer, then nothing is written unless the answer is an error. With an unlocked vault that
holds honestly stored objects, storage that works and no witness, a request is answered exactly if the
requested object fits. -/
theorem answered_iff_fits [Exclusive ω] (hbackups : Machine.NamesBackups ω)
    (hcodec : responses.Inverts) (hjson : responses.WritesJson) (hbase64 : prim.Base64)
    (ha : a.authorized = true) (hstream : ¬request.Streaming)
    (halive : (dispatch prim config a request s).result ≠ none) :
    (request.FitsFrame s.world.db → Answered prim config responses a request s) ∧
      (¬request.FitsFrame s.world.db → Answered prim config responses a request s →
        ∃ code message s', dispatch prim config a request s = .ok (.error code message) s') ∧
      ∀ (m : ObjectMap) (K : Block 32), prim.OpensSealed →
        Represents prim s.world.vaultId K s.world.db m → s.world.vault.rootKey = some K →
        Machine.Reliable s.world.outside → config.witness = none →
        a.longOperationActive = false → a.vaultMutexPoisoned = false →
        (Answered prim config responses a request s ↔ request.FitsFrame s.world.db) := by
  obtain ⟨r, s', hdispatch⟩ : ∃ r s', dispatch prim config a request s = .ok r s' := by
    cases hd : dispatch prim config a request s with
    | ok r s' => exact ⟨r, s', rfl⟩
    | failed e s' => exact (fails_dispatch s e s' hd).elim
    | crashed s' => exact absurd (by rw [hd]; rfl) halive
  have hlength := answered_iff_length hcodec hjson ha hstream hdispatch
  have hfits : request.FitsFrame s.world.db → Answered prim config responses a request s := by
    intro hfits
    rw [hlength]
    by_cases hget : ∃ text, request = .get text
    · obtain ⟨text, rfl⟩ := hget
      rcases dispatch_get_eq_ok hdispatch with herror | ⟨o, n, bytes, hparse, hn, hbytes, rfl⟩
      · cases r with
        | ok x => exact herror.elim
        | error code message => exact length_toJson_error_le code herror
      · rw [length_toJson_get hbase64, hbytes]
        exact hfits o n hparse hn
    · exact (answers_fit hbackups).dispatch (fun text h => hget ⟨text, h⟩) _ _ _ hdispatch
  have hlong : ¬request.FitsFrame s.world.db → Answered prim config responses a request s →
      r.IsError := by
    intro hlong hanswered
    rw [hlength] at hanswered
    cases request with
    | get text =>
      rcases dispatch_get_eq_ok hdispatch with herror | ⟨o, n, bytes, hparse, hn, hbytes, rfl⟩
      · exact herror
      · refine absurd (fun o' n' hparse' hn' => ?_) hlong
        rw [hparse] at hparse'
        cases hparse'
        rw [hn] at hn'
        cases hn'
        rw [← hbytes]
        exact (length_toJson_get hbase64 bytes).mp hanswered
    | _ => exact (hlong trivial).elim
  refine ⟨hfits, fun hnot hanswered => ?_, ?_⟩
  · cases r with
    | ok x => exact (hlong hnot hanswered).elim
    | error code message => exact ⟨code, message, s', hdispatch⟩
  · intro m K hprim hmap hkey hreliable hconfig hidle hmutex
    refine ⟨fun hanswered => ?_, hfits⟩
    by_contra hnot
    have herror := hlong hnot hanswered
    cases request with
    | get text =>
      -- an object that is stored is in the map, so it is read
      obtain ⟨o, n, hparse, hn, -⟩ : ∃ o n, parseRequestObjectId text = .ok o ∧
          s.world.db.activeLen o = .ok n ∧ ¬n.toNat ≤ largestAnswered := by
        simpa [Request.FitsFrame] using hnot
      obtain ⟨u, hu, -⟩ := except_bind_eq_ok.mp hn
      have hactive := Database.selectActive_eq_ok.mp hu
      cases ho : m.active.lookup o with
      | none =>
        rw [hmap.inactive o ho] at hactive
        cases hactive
      | some plaintext =>
        have hshows : s.world.Shows s.world.vault s.world.db s.world.sink := ⟨rfl, rfl, rfl, hreliable⟩
        have hget : Op.Total (World.Shows (ω := ω) s.world.vault s.world.db s.world.sink) (get prim o)
            fun bytes _ => m.get o = .ok bytes :=
          (hmap.triple_get hprim hkey rfl o).mono_stop fun e _ h => by
            obtain ⟨e', -, he⟩ := h
            rw [ObjectMap.get, ho] at he
            cases he
        obtain ⟨bytes, w, hbytes, -⟩ := Op.Total.eq_ok hget hshows
        rw [dispatch_get_of_ok hconfig hidle hmutex hparse hbytes] at hdispatch
        cases hdispatch
        exact herror
    | _ => exact hnot trivial

end

/-! ### Base64 -/

namespace Base64

/-- The standard alphabet. -/
def symbol (n : ℕ) : UInt8 :=
  if n < 26 then UInt8.ofNat (65 + n)
  else if n < 52 then UInt8.ofNat (71 + n)
  else if n < 62 then UInt8.ofNat (n - 4)
  else if n = 62 then 43
  else 47

/-- Three bytes in four symbols, the last ones padded. -/
def encode : Bytes → Text
  | x :: y :: z :: rest =>
    symbol (x.toNat / 4) :: symbol (x.toNat % 4 * 16 + y.toNat / 16) ::
      symbol (y.toNat % 16 * 4 + z.toNat / 64) :: symbol (z.toNat % 64) :: encode rest
  | [x, y] =>
    [symbol (x.toNat / 4), symbol (x.toNat % 4 * 16 + y.toNat / 16), symbol (y.toNat % 16 * 4), 61]
  | [x] => [symbol (x.toNat / 4), symbol (x.toNat % 4 * 16), 61, 61]
  | [] => []

/-- JSON writes every symbol of the alphabet as it is. -/
theorem plain_symbol (n : ℕ) : Json.Plain (symbol n) := by
  have hsmall : ∀ n < 64, Json.Plain (symbol n) := by decide
  by_cases hn : n < 64
  · exact hsmall n hn
  · rw [symbol, if_neg (by omega), if_neg (by omega), if_neg (by omega), if_neg (by omega)]
    decide

/-- Four symbols for each three bytes begun. -/
theorem length_encode (b : Bytes) : (encode b).length = 4 * ((b.length + 2) / 3) := by
  fun_induction encode b with
  | case1 x y z rest ih =>
    simp only [List.length_cons, ih]
    omega
  | case2 => simp
  | case3 => simp
  | case4 => rfl

/-- JSON writes the text of any bytes as it is. -/
theorem plain_encode (b : Bytes) : ∀ c ∈ encode b, Json.Plain c := by
  fun_induction encode b with
  | case1 x y z rest ih =>
    simp only [List.forall_mem_cons]
    exact ⟨plain_symbol _, plain_symbol _, plain_symbol _, plain_symbol _, ih⟩
  | case2 x y =>
    simp only [List.forall_mem_cons]
    exact ⟨plain_symbol _, plain_symbol _, plain_symbol _, by decide, nofun⟩
  | case3 x =>
    simp only [List.forall_mem_cons]
    exact ⟨plain_symbol _, plain_symbol _, by decide, by decide, nofun⟩
  | case4 => nofun

example : encode [77, 97, 110, 77] = [84, 87, 70, 117, 84, 81, 61, 61] := by decide

end Base64

/-! ### An upload of 12 MiB -/

/-- The transparent primitives with the standard base64 text. -/
def Primitives.transparentBase64 : Primitives :=
  { Primitives.transparent with base64Encode := Base64.encode }

/-- The sample primitives encode as the standard says. -/
theorem Primitives.base64_transparentBase64 : Primitives.transparentBase64.Base64 :=
  ⟨Base64.length_encode, Base64.plain_encode⟩

theorem Primitives.seals_transparentBase64 : Primitives.transparentBase64.Seals :=
  ⟨Primitives.seals_transparent.encrypt, Primitives.seals_transparent.hkdf⟩

/-- A tape never fails, whatever is on it. -/
theorem Tape.reliable (t : Tape) : Machine.Reliable t :=
  ⟨Set.univ, trivial, fun _ _ => ⟨rfl, fun _ => rfl, fun _ _ => trivial, fun _ => trivial⟩⟩

theorem Tape.namesBackups : Machine.NamesBackups Tape := nofun

instance : Exclusive Tape := ⟨fun _ _ => rfl⟩

/-- No witness answers. -/
instance : Transport Tape where
  postIssue _ t := (some .unavailable, t)
  postHead _ t := (some .unavailable, t)

/-- The daemon's random values: those of `create`, and those of an upload in three chunks. -/
def createdScript : List Bytes :=
  [List.replicate 16 1, List.replicate 32 9, List.replicate 16 5, List.replicate 12 4] ++
    choicesSample.streamedScript 3

/-- A daemon without a witness, over a vault it just created. -/
def createdDaemon : DaemonState Tape :=
  ⟨(create .transparentBase64 [112] (.blank ⟨createdScript⟩)).state, true, none, false⟩

/-- The default profile. -/
def defaultProfile : DaemonConfig := ⟨none, false⟩

/-- The sample vault is created by the code. -/
theorem createdDaemon_ok : create .transparentBase64 [112] (.blank ⟨createdScript⟩) =
    .ok () createdDaemon.world :=
  Outcome.eq_ok_of_result (by decide +kernel)

/-- Its Root Key. -/
def createdKey : Block 32 := ⟨List.replicate 32 9, by simp⟩

theorem rootKey_createdDaemon : createdDaemon.world.vault.rootKey = some createdKey := by
  decide +kernel

/-- The sample vault holds nothing. -/
theorem represents_createdDaemon : Represents .transparentBase64 createdDaemon.world.vaultId
    createdKey createdDaemon.world.db .empty := by
  rw [(create_ok createdDaemon_ok).2]
  exact Represents.empty _

/-- The machine of the sample has what the upload will read. -/
theorem ready_createdDaemon : createdDaemon.world.Ready createdDaemon.world.vault
    createdDaemon.world.db (choicesSample.streamedScript 3) := by
  have hvalues : createdDaemon.world.outside.values = choicesSample.streamedScript 3 := by
    decide +kernel
  refine ⟨rfl, rfl, ?_⟩
  rw [← hvalues]
  exact Tape.follows _

/-- The tables of the sample take the upload. -/
theorem accepts_createdDaemon : createdDaemon.world.db.Accepts choicesSample 3 := by
  rw [(create_ok createdDaemon_ok).2]
  exact ⟨rfl, nofun, by decide⟩

theorem Primitives.opensSealed_transparentBase64 : Primitives.transparentBase64.OpensSealed :=
  { decrypt_encrypt := @Primitives.idealAead_transparent.decrypt_encrypt }

/-- The vault holds an object that was uploaded in three chunks. -/
theorem uploaded_object {input : Input UInt8} {chunks : List Bytes}
    (hcomplete : CompleteUpload input.rest chunks)
    (hthree : Chunks.count defaultChunkSize chunks.flatten.length = 3) :
    ∃ (w : World Tape) (m : ObjectMap),
      serveStream .transparentBase64 defaultProfile {}
          (some (.putStream sampleObject (upload chunks))) createdDaemon =
        .ok [.response (.ok .streamReady),
          .response (.ok (.published choicesSample.versionId.toHex))] ⟨w, true, none, false⟩ ∧
      Represents .transparentBase64 w.vaultId createdKey w.db m ∧ w.vault.rootKey = some createdKey ∧
      m.get (.repeated 2) = .ok chunks.flatten := by
  have hobject : parseRequestObjectId sampleObject = .ok (.repeated 2) := by decide +kernel
  have hitems : receivedItems .json input = upload chunks := receivedItems_of_completes hcomplete.1
  have hcount : bufferCount .json input = 3 :=
    (bufferCount_complete .json hcomplete.1).2.trans hthree
  have hscript : createdDaemon.world.Ready createdDaemon.world.vault createdDaemon.world.db
      (choicesSample.streamedScript (bufferCount .json input)) := by
    rw [hcount]
    exact ready_createdDaemon
  have haccepts : createdDaemon.world.db.Accepts choicesSample (bufferCount .json input) := by
    rw [hcount]
    exact accepts_createdDaemon
  obtain ⟨d, w, hnew, hof, hput, hready⟩ := putFromReader_complete
    (o := .repeated 2) Primitives.seals_transparentBase64 rootKey_createdDaemon hscript haccepts
    hcomplete
  rw [hitems] at hput
  obtain ⟨rootKey, hkey, hsealed⟩ := hnew.sealedFor
  obtain rfl := Option.some.inj (rootKey_createdDaemon.symm.trans hkey)
  have hmap := represents_createdDaemon.published hsealed hof.even hnew.fits hnew.fresh
  have hadmitted : Admitted {} := ⟨rfl, rfl, rfl⟩
  refine ⟨w, ObjectMap.empty.apply (.publish d.versionId d.objectId d.plaintext),
    (putStream_admitted (s := createdDaemon) hadmitted hobject).1 _ _ hput, ?_, ?_, ?_⟩
  · rw [World.vaultId, hready.vault, hready.db]
    exact hmap
  · rw [hready.vault]
    exact hkey
  · rw [ObjectMap.get, ObjectMap.apply, Table.lookup_insert_eq, if_pos hof.object.symm, hof.plaintext]

/-- If it is too long for a frame, a request for it is not answered. -/
theorem uploaded_object_unanswered {chunks : List Bytes} {w : World Tape} {m : ObjectMap}
    (hmap : Represents .transparentBase64 w.vaultId createdKey w.db m)
    (hkey : w.vault.rootKey = some createdKey) (hactive : m.get (.repeated 2) = .ok chunks.flatten)
    (hlong : largestAnswered < chunks.flatten.length) :
    (∃ s', dispatch .transparentBase64 defaultProfile {} (.get sampleObject) ⟨w, true, none, false⟩ =
        .ok (.ok (.plaintext (Base64.encode chunks.flatten))) s') ∧
      writeFrame .json (.ok (.plaintext (Base64.encode chunks.flatten))) = .error .invalidLength ∧
      ¬Answered .transparentBase64 defaultProfile .json {} (.get sampleObject) ⟨w, true, none, false⟩ := by
  have hobject : parseRequestObjectId sampleObject = .ok (.repeated 2) := by decide +kernel
  have hread : (get .transparentBase64 (.repeated 2) w).result = some (.ok chunks.flatten) := by
    rw [← hactive]
    exact (hmap.triple_get Primitives.opensSealed_transparentBase64 hkey rfl (.repeated 2)).result_eq
      ⟨rfl, rfl, rfl, Tape.reliable _⟩
  obtain ⟨w', hget⟩ : ∃ w', get .transparentBase64 (.repeated 2) w = .ok chunks.flatten w' :=
    ⟨_, Outcome.eq_ok_of_result hread⟩
  have hdispatch : dispatch .transparentBase64 defaultProfile {} (.get sampleObject)
      ⟨w, true, none, false⟩ = .ok (.ok (.plaintext (Base64.encode chunks.flatten)))
        ⟨w', true, none, false⟩ := dispatch_get_of_ok rfl rfl rfl hobject hget
  -- the response does not fit
  have hjson : ¬(Response.ok (.plaintext (Base64.encode chunks.flatten))).toJson.length ≤
      maxFrameBytes :=
    fun hfits => absurd ((length_toJson_get Primitives.base64_transparentBase64 _).mp hfits)
      (not_le.mpr hlong)
  refine ⟨⟨_, hdispatch⟩, writeFrame_too_long (fun _ => rfl) (not_le.mp hjson), ?_⟩
  rwa [answered_iff_length Codec.json_inverts (fun _ => rfl) rfl id hdispatch]

/-- Three data items of the largest size. -/
def largestItems : List Bytes := List.replicate 3 (List.replicate maxStreamChunkBytes 0)

/-- The bytes a client sends for them. -/
def largestUpload : Input UInt8 :=
  ⟨(largestItems.map prefixed).flatten ++ (Bytes.be32 streamEnd ++ []), false⟩

/-- Twelve MiB in all. -/
theorem length_largestItems : largestItems.flatten.length = 12582912 := by
  rw [List.length_flatten, largestItems, List.map_replicate, List.length_replicate]
  rfl

/-- The items of the upload are complete. -/
theorem completeUpload_largestUpload : CompleteUpload largestUpload.rest largestItems := by
  refine ⟨⟨fun chunk hchunk => ?_, [], rfl⟩, ?_⟩
  · rw [List.eq_of_mem_replicate hchunk]
    refine ⟨?_, by rw [List.length_replicate]⟩
    rw [ne_eq, List.replicate_eq_nil_iff]
    decide
  · rw [length_largestItems]
    decide

/-- A request for three bytes is answered. One for 12 MiB is answered exactly if they fit, and they do not. -/
theorem answered_iff_fits_sample :
    (let s := (serveStream .transparentBase64 defaultProfile {}
       (some (.putStream sampleObject (upload [[7, 8, 9]]))) createdDaemon).state
     (dispatch .transparentBase64 defaultProfile {} (.get sampleObject) s).result =
         some (.ok (.ok (.plaintext [66, 119, 103, 74]))) ∧
       Answered .transparentBase64 defaultProfile .json {} (.get sampleObject) s) ∧
      ∃ s : DaemonState Tape,
        serveStream .transparentBase64 defaultProfile {}
            (some (.putStream sampleObject (upload largestItems))) createdDaemon =
          .ok [.response (.ok .streamReady),
            .response (.ok (.published choicesSample.versionId.toHex))] s ∧
        (Answered .transparentBase64 defaultProfile .json {} (.get sampleObject) s ↔
          (Request.get sampleObject).FitsFrame s.world.db) ∧
        ¬(Request.get sampleObject).FitsFrame s.world.db := by
  have hresult : (dispatch .transparentBase64 defaultProfile {} (.get sampleObject)
      (serveStream .transparentBase64 defaultProfile {}
        (some (.putStream sampleObject (upload [[7, 8, 9]]))) createdDaemon).state).result =
      some (.ok (.ok (.plaintext [66, 119, 103, 74]))) := by decide +kernel
  have hlen : (serveStream .transparentBase64 defaultProfile {}
      (some (.putStream sampleObject (upload [[7, 8, 9]]))) createdDaemon).state.world.db.activeLen
        (.repeated 2) = .ok 3 := by decide +kernel
  refine ⟨⟨hresult, (answered_iff_fits Tape.namesBackups Codec.json_inverts (fun _ => rfl)
    Primitives.base64_transparentBase64 rfl id (by rw [hresult]; nofun)).1 fun o n hparse hn => ?_⟩, ?_⟩
  · have hobject : parseRequestObjectId sampleObject = .ok (.repeated 2) := by decide +kernel
    rw [hobject] at hparse
    cases hparse
    rw [hlen] at hn
    cases hn
    decide
  · obtain ⟨w, m, hupload, hmap, hkey, hactive⟩ := uploaded_object completeUpload_largestUpload
      (by rw [length_largestItems]; decide)
    obtain ⟨⟨s', hdispatch⟩, -, hunanswered⟩ := uploaded_object_unanswered hmap hkey hactive
      (by rw [length_largestItems]; decide)
    have hexact := (answered_iff_fits Tape.namesBackups Codec.json_inverts (fun _ => rfl)
      Primitives.base64_transparentBase64 rfl id (by rw [hdispatch]; nofun)).2.2 m createdKey
      Primitives.opensSealed_transparentBase64 hmap hkey (Tape.reliable _) rfl rfl rfl
    exact ⟨_, hupload, hexact, fun hfits => hunanswered (hexact.mpr hfits)⟩

/-- A client uploads an object of 12 MiB and asks for it. The daemon reads it, but its response is longer than
a frame may be: nothing is written, and the connection ends. -/
theorem get_of_uploaded_object_unanswered :
    ∃ s s' : DaemonState Tape,
      serveStream .transparentBase64 defaultProfile {}
          (some (.putStream sampleObject (upload largestItems))) createdDaemon =
        .ok [.response (.ok .streamReady),
          .response (.ok (.published choicesSample.versionId.toHex))] s ∧
      serveStream .transparentBase64 defaultProfile {} (some (.get sampleObject)) s =
        .ok [.response (.ok (.plaintext (Base64.encode largestItems.flatten)))] s' ∧
      writeFrame .json (.ok (.plaintext (Base64.encode largestItems.flatten))) =
        .error .invalidLength ∧
      ¬Answered .transparentBase64 defaultProfile .json {} (.get sampleObject) s := by
  obtain ⟨w, m, hupload, hmap, hkey, hactive⟩ := uploaded_object completeUpload_largestUpload
    (by rw [length_largestItems]; decide)
  obtain ⟨⟨s', hdispatch⟩, htoolong, hunanswered⟩ := uploaded_object_unanswered hmap hkey hactive
    (by rw [length_largestItems]; decide)
  exact ⟨_, s', hupload, Op.bind_of_ok hdispatch, htoolong, hunanswered⟩

end Vlt1
