import Vlt1.Channel
import Vlt1.Protocol

/-!
# The end of a streamed upload

After `stream_ready` the client of an upload sends data items and the end marker, and reads one
response frame. The daemon answers a published version with a response frame, and every failure with
an error marker before the frame, as it does in a download. The marker is no length the client's
reader accepts, so `upload_agreement` holds exactly where the upload was published.
-/

namespace Vlt1.Protocol

open Effect Framing

/-! ### What the daemon writes -/

section

variable (responses : Codec Response)

/-- The bytes of a frame the daemon writes: `write_response`, `write_stream_end`,
`write_stream_response`, and the data items of a download however `StreamWriter` cut them. -/
inductive Written : Frame → Bytes → Prop
  | response {r : Response} {out : Bytes} (h : writeFrame responses r = .ok out) :
      Written (.response r) out
  | data {items : List (Bytes × Bytes)} (h : ∀ i ∈ items, writeStreamChunk i.1 = .ok i.2) :
      Written (.data (items.map Prod.fst).flatten) (items.map Prod.snd).flatten
  | streamEnd {out : Bytes} (h : writeStreamEnd = .ok out) : Written .streamEnd out
  | streamError {r : Response} {out : Bytes} (h : writeStreamError responses r = .ok out) :
      Written (.streamError r) out

/-! ### What the client reads -/

/-- `code_to_text`. -/
def codeToText : ErrorCode → String
  | .protocol => "protocol error"
  | .unauthorized => "unauthorized"
  | .locked => "vault locked"
  | .notFound => "not found"
  | .invalidInput => "invalid input"
  | .verification => "verification failed"
  | .storage => "storage error"
  | .witnessUnavailable => "freshness witness unavailable"
  | .witnessConflict => "freshness witness conflict"
  | .overloaded => "daemon connection limit reached"
  | .policy => "policy denied"
  | .internal => "internal error"

/-- Why the client gives up. -/
inductive CliError where
  /-- The text of an error the daemon reported. -/
  | daemon (text : String)
  /-- No response could be read: a context and its cause. -/
  | unread (context : String) (cause : ProtocolError)
deriving DecidableEq

/-- `response_to_result`. -/
def responseToResult : Response → Except CliError Success
  | .ok result => .ok result
  | .error code message => .error (.daemon ("daemon " ++ codeToText code ++ ": " ++ message))

/-- `read_response`. -/
def readResponse (input : Input UInt8) : Option (Except CliError Success) :=
  (readFrame responses input).result.map fun
    | .ok response => responseToResult response
    | .error e => .error (.unread "could not read daemon response" e)

end

/-! ### Outcomes of an upload -/

/-- The items of a complete upload. -/
def upload (chunks : List Bytes) : List Vlt1.StreamItem := chunks.map .data ++ [.finish]

/-- How an accepted upload ends on the daemon's side. -/
inductive UploadResult where
  /-- The vault mutex is poisoned. -/
  | unavailable
  /-- `put_from_reader` returned. -/
  | finished (result : Except VaultError VersionId)

/-- The daemon's result as a response. -/
def UploadResult.answer : UploadResult → Response
  | .unavailable => .error .internal "daemon state is unavailable"
  | .finished (.ok version) => .ok (.published version.toHex)
  | .finished (.error e) => mapVaultError e

/-- The upload was published. -/
def UploadResult.Published (result : UploadResult) : Prop :=
  ∃ version, result = .finished (.ok version)

section

variable {ω : Type} [Machine ω] (prim : Primitives)

/-- The result of an upload in a state of the daemon. -/
inductive UploadEnds (a : Arrival) (o : ObjectId) (items : List Vlt1.StreamItem)
    (s : DaemonState ω) : UploadResult → Prop
  | unavailable (h : a.vaultMutexPoisoned = true) : UploadEnds a o items s .unavailable
  | published {version : VersionId} {w : World ω} (h : a.vaultMutexPoisoned = false)
      (hput : putFromReader prim o (streamReader items) s.world = .ok version w) :
      UploadEnds a o items s (.finished (.ok version))
  | refused {e : VaultError} {w : World ω} (h : a.vaultMutexPoisoned = false)
      (hput : putFromReader prim o (streamReader items) s.world = .failed e w) :
      UploadEnds a o items s (.finished (.error e))

variable {prim} {responses : Codec Response} {a : Arrival} {objectId : Text}
  {items : List Vlt1.StreamItem} {s s' : DaemonState ω} {frames : List Frame}

/-- The frame that carries the daemon's result. -/
def UploadResult.frame (result : UploadResult) : Frame :=
  match result with
  | .finished (.ok _) => .response result.answer
  | _ => .streamError result.answer

omit [Machine ω] in
/-- A malformed object identifier is reported as invalid input. -/
theorem parseRequestObjectId_error {response : Response}
    (h : parseRequestObjectId objectId = .error response) :
    ∃ message, response = .error .invalidInput message := by
  unfold parseRequestObjectId at h
  split at h
  · split at h
    · cases h
    · cases h
      exact ⟨_, rfl⟩
  · cases h
    exact ⟨_, rfl⟩

omit [Machine ω] in
theorem runVault_eq_ok {α : Type} {operation : VaultOp ω α} {result : Except VaultError α}
    (h : runVault operation s = .ok result s') :
    (∃ a, result = .ok a ∧ operation s.world = .ok a s'.world) ∨
      ∃ e, result = .error e ∧ operation s.world = .failed e s'.world := by
  unfold runVault at h
  cases hw : operation s.world with
  | ok a w =>
    rw [hw] at h
    obtain ⟨rfl, rfl⟩ := Outcome.ok.inj h
    exact .inl ⟨a, rfl, rfl⟩
  | failed e w =>
    rw [hw] at h
    obtain ⟨rfl, rfl⟩ := Outcome.ok.inj h
    exact .inr ⟨e, rfl, rfl⟩
  | crashed w => rw [hw] at h; cases h

/-- An exchange that sent `stream_ready` ends with the frame of its result. -/
theorem putStream_ready (h : putStream prim a objectId items s = .ok frames s')
    (hready : frames.head? = some (.response (.ok .streamReady))) :
    ∃ o result, parseRequestObjectId objectId = .ok o ∧ UploadEnds prim a o items s result ∧
      frames = [.response (.ok .streamReady), result.frame] := by
  unfold putStream at h
  split at h
  · obtain ⟨rfl, -⟩ := Outcome.ok.inj h
    cases hready
  cases hparse : parseRequestObjectId objectId with
  | error response =>
    rw [hparse] at h
    obtain ⟨rfl, -⟩ := Outcome.ok.inj h
    obtain ⟨message, rfl⟩ := parseRequestObjectId_error hparse
    cases hready
  | ok o =>
    rw [hparse] at h
    refine ⟨o, ?_⟩
    dsimp only at h
    split at h
    · obtain ⟨rfl, -⟩ := Outcome.ok.inj h
      cases hready
    split at h
    · rename_i hpoisoned
      obtain ⟨rfl, -⟩ := Outcome.ok.inj h
      exact ⟨.unavailable, rfl, .unavailable hpoisoned, rfl⟩
    · rename_i hfree
      have hfree : a.vaultMutexPoisoned = false := by simpa using hfree
      obtain ⟨result, t, hrun, hframes⟩ := Op.bind_eq_ok.mp h
      rcases runVault_eq_ok hrun with ⟨version, rfl, hput⟩ | ⟨e, rfl, hput⟩
      · obtain ⟨rfl, -⟩ := Outcome.ok.inj hframes
        exact ⟨.finished (.ok version), rfl, .published hfree hput, rfl⟩
      · obtain ⟨rfl, -⟩ := Outcome.ok.inj hframes
        exact ⟨.finished (.error e), rfl, .refused hfree hput, rfl⟩

/-- No answer of the daemon reads like a broken connection. -/
theorem responseToResult_ne_unread (r : Response) (context : String) (cause : ProtocolError) :
    responseToResult r ≠ .error (.unread context cause) := by
  intro h
  cases r <;> cases h

omit [Machine ω] in
/-- The client reads a response frame back. -/
theorem readResponse_response (hresponses : responses.Inverts) {r : Response} {out : Bytes}
    (h : Written responses (.response r) out) (rest : Bytes) (broken : Bool) :
    readResponse responses ⟨out ++ rest, broken⟩ = some (responseToResult r) := by
  cases h with
  | response h =>
    rw [readResponse, (reads_readFrame hresponses h).whole rest broken]
    rfl

omit [Machine ω] in
/-- The client takes an error marker for the length of a frame, and refuses it. -/
theorem readResponse_streamError {r : Response} {out : Bytes}
    (h : Written responses (.streamError r) out) (rest : Bytes) (broken : Bool) :
    readResponse responses ⟨out ++ rest, broken⟩ =
      some (.error (.unread "could not read daemon response" .invalidLength)) := by
  cases h with
  | streamError h =>
    obtain ⟨frame, -, hout⟩ := except_bind_eq_ok.mp h
    obtain rfl := Except.ok.inj hout
    have hmarker : FrameRefused (Bytes.be32 streamError) := .inr (by decide)
    rw [List.append_assoc, readResponse, readFrame_refused (Bytes.length_be32 _) hmarker]
    rfl

/-- **Upload agreement.** The client's result of an upload the daemon accepted is the daemon's result
exactly if the upload was published. -/
theorem upload_agreement (hresponses : responses.Inverts) {chunks : List Bytes}
    (h : putStream prim a objectId (upload chunks) s = .ok frames s')
    (hready : frames.head? = some (.response (.ok .streamReady))) :
    ∃ o result, parseRequestObjectId objectId = .ok o ∧
      UploadEnds prim a o (upload chunks) s result ∧
      frames = [.response (.ok .streamReady), result.frame] ∧
      ∀ out rest broken, Written responses result.frame out →
        (readResponse responses ⟨out ++ rest, broken⟩ = some (responseToResult result.answer) ↔
          result.Published) := by
  obtain ⟨o, result, hparse, hends, hframes⟩ := putStream_ready h hready
  refine ⟨o, result, hparse, hends, hframes, fun out rest broken hout => ?_⟩
  cases hends with
  | published _ hput =>
    exact ⟨fun _ => ⟨_, rfl⟩, fun _ => readResponse_response hresponses hout rest broken⟩
  | unavailable hpoisoned =>
    rw [readResponse_streamError hout rest broken]
    exact ⟨fun h => absurd (Option.some.inj h).symm (responseToResult_ne_unread _ _ _), nofun⟩
  | refused _ hput =>
    rw [readResponse_streamError hout rest broken]
    exact ⟨fun h => absurd (Option.some.inj h).symm (responseToResult_ne_unread _ _ _), nofun⟩

end

/-! ### Two uploads -/

/-- The sample daemon is up, with its vault open. -/
def sampleOpen : DaemonState SampleChannel := ⟨sampleWorld, true, none, false⟩

/-- The version the sample upload creates. -/
def sampleUploaded : VersionId := ⟨⟨5 :: List.replicate 15 0, by decide⟩⟩

/-- The encoding of the answer to the sample upload. -/
def publishedResponses : Codec Response :=
  Codec.only (.ok (.published sampleUploaded.toHex)) [123, 125]

theorem upload_agreement_sample :
    publishedResponses.Inverts ∧
      Written publishedResponses (.response (.ok (.published sampleUploaded.toHex)))
        [0, 0, 0, 2, 123, 125] ∧
      readResponse publishedResponses ⟨[0, 0, 0, 2, 123, 125], false⟩ =
        some (.ok (.published sampleUploaded.toHex)) := by
  have hinverts : publishedResponses.Inverts := Codec.only_inverts _ _
  have hwritten : Written publishedResponses (.response (.ok (.published sampleUploaded.toHex)))
      [0, 0, 0, 2, 123, 125] := .response rfl
  have hput : (putStream .checksum {} sampleObject (upload [[97]]) sampleOpen).result =
      some (.ok [.response (.ok .streamReady),
        .response (.ok (.published sampleUploaded.toHex))]) := by decide +kernel
  obtain ⟨o, result, -, -, hframes, hagree⟩ :=
    upload_agreement hinverts (Outcome.eq_ok_of_result hput) rfl
  refine ⟨hinverts, hwritten, ?_⟩
  -- the frame that was sent says that the upload was published
  have hframe : Frame.response (.ok (.published sampleUploaded.toHex)) = result.frame := by
    simpa using hframes
  rw [hframe] at hwritten
  match result, hframe with
  | .finished (.ok version), hframe =>
    have hversion : version.toHex = sampleUploaded.toHex := by
      simpa [UploadResult.frame, UploadResult.answer] using hframe.symm
    have hread := (hagree _ [] false hwritten).mpr ⟨version, rfl⟩
    rwa [UploadResult.answer, hversion] at hread

/-- The sample daemon is up, with its vault locked. -/
def sampleLocked : DaemonState SampleChannel := ⟨sampleWorld.locked, true, none, false⟩

/-- The encoding of the answer of a locked vault. -/
def lockedResponses : Codec Response := Codec.only (mapVaultError .locked) [123, 125]

/-- The error marker and the frame behind it. -/
def lockedAnswer : Bytes := [255, 255, 255, 255, 0, 0, 0, 2, 123, 125]

/-- An upload to a locked vault is answered with an error marker. The client reports an invalid frame
length instead of the locked vault, which the reader of a download finds behind the marker. -/
theorem locked_upload_misread :
    (∃ s', putStream .checksum {} sampleObject (upload [[97]]) sampleLocked =
      .ok [.response (.ok .streamReady), .streamError (mapVaultError .locked)] s') ∧
    Written lockedResponses (.streamError (mapVaultError .locked)) lockedAnswer ∧
    readResponse lockedResponses ⟨lockedAnswer, false⟩ =
      some (.error (.unread "could not read daemon response" .invalidLength)) ∧
    responseToResult (mapVaultError .locked) =
      .error (.daemon "daemon vault locked: vault is locked") ∧
    (readStreamItem lockedResponses ⟨lockedAnswer, false⟩).result =
      some (.ok (.error (mapVaultError .locked))) :=
  ⟨⟨sampleLocked, rfl⟩, .streamError rfl, by decide +kernel, by decide +kernel, by decide +kernel⟩

end Vlt1.Protocol
