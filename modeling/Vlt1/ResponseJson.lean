import Vlt1.Library.Json
import Vlt1.Upload

/-!
# Responses as JSON

The body of a response frame is the compact JSON that `serde_json` writes for the derived encodings of
`Response`, `Success` and `Failure`: the tag of a variant first, then its fields in the order of their
declaration. `Response.toJson` is that text. It determines the response (`Response.toJson_injective`), and every
response is short but for the base64 text of a plaintext, which is written without escapes
(`length_toJson_plaintext`).
-/

namespace Vlt1

open Effect Json

/-! ### The encoding of responses -/

/-- An error category by its name. -/
def ErrorCode.name : ErrorCode → String
  | .protocol => "protocol"
  | .unauthorized => "unauthorized"
  | .locked => "locked"
  | .notFound => "not_found"
  | .invalidInput => "invalid_input"
  | .verification => "verification"
  | .storage => "storage"
  | .witnessUnavailable => "witness_unavailable"
  | .witnessConflict => "witness_conflict"
  | .overloaded => "overloaded"
  | .policy => "policy"
  | .internal => "internal"

/-- The lifecycle text of a status. -/
def VaultStatus.name : VaultStatus → String
  | .locked => "locked"
  | .unlocked => "unlocked"

/-- The tag of a result payload. -/
def Success.kind : Success → String
  | .empty => "empty"
  | .status .. => "status"
  | .streamReady => "stream_ready"
  | .published _ => "published"
  | .plaintext _ => "plaintext"
  | .verified _ => "verified"
  | .backup .. => "backup"

/-- The fields of a result payload after its tag. -/
def Success.fields : Success → List Bytes
  | .empty | .streamReady => []
  | .status format vaultId lifecycle recovery verifiedActiveObjects =>
    [field "format" (string (utf8 format)), field "vault_id" (string vaultId),
      field "lifecycle" (string (utf8 lifecycle.name)), field "recovery" (string (utf8 recovery)),
      field "verified_active_objects"
        (verifiedActiveObjects.elim (utf8 "null") fun n => number n.toNat)]
  | .published versionId => [field "version_id" (string versionId)]
  | .plaintext plaintextB64 => [field "plaintext_b64" (string plaintextB64)]
  | .verified activeObjects => [field "active_objects" (number activeObjects.toNat)]
  | .backup format databaseSha256 databaseBytes =>
    [field "format" (string format), field "database_sha256" (string databaseSha256),
      field "database_bytes" (number databaseBytes.toNat)]

/-- A result payload as JSON. -/
def Success.toJson (result : Success) : Bytes :=
  object (field "kind" (string (utf8 result.kind))) result.fields

/-- A response as JSON. -/
def Response.toJson : Response → Bytes
  | .ok result => object (field "status" (string (utf8 "ok"))) [field "result" result.toJson]
  | .error code message =>
    object (field "status" (string (utf8 "error")))
      [field "error" (object (field "code" (string (utf8 code.name)))
        [field "message" (string (utf8 message))])]

/-- A plaintext takes its base64 text and 64 bytes. -/
theorem length_toJson_plaintext {t : Text} (h : ∀ b ∈ t, Plain b) :
    (Response.ok (.plaintext t)).toJson.length = t.length + 64 := by
  have hnames : (string (utf8 "status")).length = 8 ∧ (string (utf8 "ok")).length = 4 ∧
      (string (utf8 "result")).length = 8 ∧ (string (utf8 "kind")).length = 6 ∧
      (string (utf8 "plaintext")).length = 11 ∧ (string (utf8 "plaintext_b64")).length = 15 := by
    decide +kernel
  obtain ⟨h1, h2, h3, h4, h5, h6⟩ := hnames
  simp only [Response.toJson, Success.toJson, Success.fields, Success.kind, length_object,
    length_field, length_string_of_plain h, h1, h2, h3, h4, h5, h6, List.map_cons, List.map_nil,
    List.sum_cons, List.sum_nil]
  omega

/-! ### Decoding -/

theorem ErrorCode.name_injective : Function.Injective ErrorCode.name := by
  intro a b
  cases a <;> cases b <;> decide

theorem VaultStatus.name_injective : Function.Injective VaultStatus.name := by
  intro a b
  cases a <;> cases b <;> decide

/-- An optional number ends where it does. -/
theorem optional_number_append_inj {x y : Option UInt64} {u v : Bytes}
    (h : x.elim (utf8 "null") (fun n => number n.toNat) ++ 125 :: u =
      y.elim (utf8 "null") (fun n => number n.toNat) ++ 125 :: v) : x = y ∧ u = v := by
  -- a number does not start like `null`
  have hnull : ∀ (n : UInt64) (u v : Bytes), number n.toNat ++ 125 :: u ≠ utf8 "null" ++ 125 :: v := by
    intro n u v heq
    have hne : number n.toNat ≠ [] := by
      unfold number
      split
      · nofun
      · rename_i hn
        simpa using Nat.digits_ne_nil_iff_ne_zero.mpr hn
    obtain ⟨b, rest, hb⟩ := List.exists_cons_of_ne_nil hne
    have hdigit := isDigit_of_mem_number (n := n.toNat) (hb ▸ List.mem_cons_self)
    rw [hb, show utf8 "null" = [110, 117, 108, 108] by decide +kernel] at heq
    rw [(List.cons.inj heq).1] at hdigit
    exact absurd hdigit (by decide)
  cases x with
  | none =>
    cases y with
    | none => exact ⟨rfl, (List.cons.inj (List.append_cancel_left h)).2⟩
    | some m => exact absurd h.symm (hnull m _ _)
  | some n =>
    cases y with
    | none => exact absurd h (hnull n _ _)
    | some m =>
      obtain ⟨hnm, huv⟩ := number_append_inj (by decide) h
      exact ⟨congrArg some (UInt64.toNat_inj.mp hnm), huv⟩

/-- A payload ends where its object does. -/
theorem Success.toJson_append_inj {x y : Success} {u v : Bytes}
    (h : x.toJson ++ u = y.toJson ++ v) : x = y ∧ u = v := by
  simp only [Success.toJson, object, List.cons_append, List.append_assoc, List.cons.injEq,
    true_and] at h
  obtain ⟨hkind, hfields⟩ := field_string_inj h
  replace hkind := utf8_injective hkind
  -- the tag fixes the variant, and its fields are read one after another
  cases x <;> cases y <;> simp only [Success.kind] at hkind <;> try exact absurd hkind (by decide)
  all_goals
    simp only [Success.fields, List.flatMap_cons, List.flatMap_nil, List.cons_append,
      List.nil_append, List.append_assoc, List.append_nil, List.cons.injEq, true_and] at hfields
  case empty.empty => exact ⟨rfl, hfields⟩
  case streamReady.streamReady => exact ⟨rfl, hfields⟩
  case published.published =>
    obtain ⟨rfl, hrest⟩ := field_string_inj hfields
    exact ⟨rfl, (List.cons.inj hrest).2⟩
  case plaintext.plaintext =>
    obtain ⟨rfl, hrest⟩ := field_string_inj hfields
    exact ⟨rfl, (List.cons.inj hrest).2⟩
  case verified.verified =>
    obtain ⟨hn, hrest⟩ := number_append_inj (by decide) (field_append_inj hfields)
    exact ⟨congrArg _ (UInt64.toNat_inj.mp hn), hrest⟩
  case backup.backup =>
    obtain ⟨hformat, hsha⟩ := field_string_inj hfields
    obtain ⟨hsha, hbytes⟩ := field_string_inj (List.cons.inj hsha).2
    obtain ⟨hbytes, hrest⟩ := number_append_inj (by decide)
      (field_append_inj (List.cons.inj hbytes).2)
    rw [hformat, hsha, UInt64.toNat_inj.mp hbytes]
    exact ⟨rfl, hrest⟩
  case status.status =>
    obtain ⟨hformat, hid⟩ := field_string_inj hfields
    obtain ⟨hid, hlifecycle⟩ := field_string_inj (List.cons.inj hid).2
    obtain ⟨hlifecycle, hrecovery⟩ := field_string_inj (List.cons.inj hlifecycle).2
    obtain ⟨hrecovery, hcount⟩ := field_string_inj (List.cons.inj hrecovery).2
    obtain ⟨hcount, hrest⟩ := optional_number_append_inj
      (field_append_inj (List.cons.inj hcount).2)
    rw [utf8_injective hformat, hid, VaultStatus.name_injective (utf8_injective hlifecycle),
      utf8_injective hrecovery, hcount]
    exact ⟨rfl, hrest⟩

/-- The text of a response determines it. -/
theorem Response.toJson_injective : Function.Injective Response.toJson := by
  have hstatus : utf8 "ok" ≠ utf8 "error" := by decide +kernel
  intro x y h
  cases x with
  | ok result =>
    cases y with
    | ok result' =>
      simp only [Response.toJson, object, List.cons.injEq, true_and, List.append_cancel_left_eq,
        List.flatMap_cons, List.flatMap_nil, List.append_nil, List.cons_append] at h
      rw [(Success.toJson_append_inj (field_append_inj h)).1]
    | error code message =>
      simp only [Response.toJson, object, List.cons.injEq, true_and] at h
      exact absurd (field_string_inj h).1 hstatus
  | error code message =>
    cases y with
    | ok result =>
      simp only [Response.toJson, object, List.cons.injEq, true_and] at h
      exact absurd (field_string_inj h).1.symm hstatus
    | error code' message' =>
      simp only [Response.toJson, object, List.cons.injEq, true_and, List.append_cancel_left_eq,
        List.flatMap_cons, List.flatMap_nil, List.append_nil, List.cons_append] at h
      have h := field_append_inj h
      simp only [List.cons_append, List.append_assoc, List.cons.injEq, true_and] at h
      obtain ⟨hcode, hrest⟩ := field_string_inj h
      obtain ⟨hmessage, -⟩ := field_string_inj (List.cons.inj hrest).2
      rw [ErrorCode.name_injective (utf8_injective hcode), utf8_injective hmessage]

namespace Protocol

/-- `serde_json::to_vec` writes this text. -/
def Codec.WritesJson (responses : Codec Response) : Prop := ∀ r, responses.toVec r = some r.toJson

/-- The encoding with the decoding of exactly what is written. -/
noncomputable def Codec.json : Codec Response := .ofInjective Response.toJson

theorem Codec.json_inverts : Codec.json.Inverts := ofInjective_inverts Response.toJson_injective

variable {responses : Codec Response} {r : Response}

/-- A response within the limit is written and read back. -/
theorem writeFrame_fits (hjson : responses.WritesJson) (h : r.toJson.length ≤ maxFrameBytes) :
    writeFrame responses r = .ok (prefixed r.toJson) := by
  have hne : r.toJson ≠ [] := by cases r <;> exact List.cons_ne_nil _ _
  rw [writeFrame, hjson r]
  show (ensure _ _ >>= _) = _
  rw [ensure_pos ⟨hne, h⟩]
  rfl

theorem writeFrame_too_long (hjson : responses.WritesJson) (h : maxFrameBytes < r.toJson.length) :
    writeFrame responses r = .error .invalidLength := by
  rw [writeFrame, hjson r]
  show (ensure _ _ >>= _) = _
  rw [ensure, if_neg fun hfits => absurd hfits.2 (by omega)]
  rfl

end Protocol

end Vlt1
