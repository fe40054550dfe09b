import Vlt1.Error
import Vlt1.Library.Bytes

/-!
# Format identifiers and immutable records

The 16-byte identifiers, the sealed record and the `Manifest` of the on-disk format, and the
lowercase hexadecimal text in which identifiers and other fixed-width values travel. Text is
modelled by its UTF-8 bytes.

`parseFixed_hexEncode` and `parseId_hexEncode` say that both parsers of hexadecimal text, the
client's and the witness's, read back what the encoder wrote.
-/

namespace Vlt1

/-- UTF-8 text, as its bytes. -/
abbrev Text := Bytes

/-- The on-disk format version. -/
def formatVersion : UInt32 := 1

/-- What an identifier names. -/
inductive IdKind where
  | vault
  | object
  | version
deriving DecidableEq

/-- A 16-byte identifier. The three identifier types are instances of one template. -/
@[ext]
structure Identifier (kind : IdKind) where
  /-- The canonical byte representation. -/
  asBytes : Block 16
deriving DecidableEq

/-- A random identifier bound into every key domain. -/
abbrev VaultId := Identifier .vault

/-- A caller-selected logical object identifier. -/
abbrev ObjectId := Identifier .object

/-- A random immutable object-version identifier. -/
abbrev VersionId := Identifier .version

/-- A sealed AEAD record with a 96-bit nonce. -/
@[ext]
structure SealedRecord where
  /-- The 96-bit nonce. -/
  nonce : Block 12
  /-- Ciphertext followed by the authentication tag. -/
  ciphertext : Bytes
deriving DecidableEq

/-- Metadata that binds a version to its encrypted contents. -/
@[ext]
structure Manifest where
  formatVersion : UInt32
  objectId : ObjectId
  versionId : VersionId
  /-- Total plaintext length in bytes. -/
  plaintextLen : UInt64
  /-- Fixed chunk size used while publishing the version. -/
  chunkSize : UInt32
  chunkCount : UInt32
  /-- SHA-256 digest over canonical chunk metadata and ciphertexts. -/
  chunkDigest : Block 32
deriving DecidableEq

/-- One encrypted chunk prepared for publication. -/
@[ext]
structure EncryptedChunk where
  /-- Zero-based chunk index. -/
  index : UInt32
  record : SealedRecord
deriving DecidableEq

/-- Read a slice as a fixed-width array, or report a format error. -/
def fixedBytes (n : ℕ) (message : String) (b : Bytes) : Except VaultError (Block n) :=
  match Block.ofBytes? n b with
  | some x => .ok x
  | none => .error (.invalidFormat message)

@[simp] theorem fixedBytes_toList {n : ℕ} (message : String) (b : Block n) :
    fixedBytes n message b.toList = .ok b := by
  simp [fixedBytes]

/-- A block is read from its own bytes only. -/
theorem fixedBytes_eq_ok {n : ℕ} {message : String} {b : Bytes} {x : Block n} :
    fixedBytes n message b = .ok x ↔ b = x.toList := by
  rw [← Block.ofBytes?_eq_some]
  unfold fixedBytes
  cases Block.ofBytes? n b <;> simp

namespace Identifier

variable {kind : IdKind}

/-- Reconstruct an identifier from exactly sixteen bytes. -/
def fromSlice (b : Bytes) : Except VaultError (Identifier kind) :=
  (fixedBytes 16 "invalid identifier length" b).map fun x => ⟨x⟩

/-- The bytes of an identifier, as a database column holds them. -/
def blob (i : Identifier kind) : Bytes := i.asBytes.toList

@[simp] theorem fromSlice_blob (i : Identifier kind) : fromSlice i.blob = .ok i := by
  simp [fromSlice, blob, Except.map]

/-- An identifier is read from its own bytes only. -/
theorem fromSlice_eq_ok {b : Bytes} {i : Identifier kind} :
    fromSlice b = .ok i ↔ b = i.blob := by
  constructor
  · intro h
    unfold fromSlice at h
    cases hx : fixedBytes 16 "invalid identifier length" b with
    | error e => rw [hx] at h; cases h
    | ok x =>
      rw [hx] at h
      obtain rfl : (⟨x⟩ : Identifier kind) = i := Except.ok.inj h
      exact fixedBytes_eq_ok.mp hx
  · rintro rfl
    exact fromSlice_blob i

/-- A list of columns is read exactly when it stores the identifiers. -/
theorem mapM_fromSlice_eq_ok {kind : IdKind} {columns : List Bytes} {ids : List (Identifier kind)} :
    columns.mapM Identifier.fromSlice = .ok ids ↔ columns = ids.map Identifier.blob := by
  induction columns generalizing ids with
  | nil => cases ids <;> simp [pure, Except.pure]
  | cons b columns ih =>
    rw [List.mapM_cons]
    cases ids with
    | nil =>
      cases hb : (Identifier.fromSlice b : Except VaultError (Identifier kind)) with
      | error e => simp [bind, Except.bind]
      | ok i =>
        cases columns.mapM (Identifier.fromSlice : Bytes → Except VaultError (Identifier kind)) <;>
          simp [bind, Except.bind, pure, Except.pure]
    | cons i ids =>
      simp only [List.map_cons, List.cons.injEq, ← ih, ← fromSlice_eq_ok]
      cases hb : (Identifier.fromSlice b : Except VaultError (Identifier kind)) with
      | error e => simp [bind, Except.bind]
      | ok j =>
        cases columns.mapM (Identifier.fromSlice : Bytes → Except VaultError (Identifier kind)) <;>
          simp [bind, Except.bind, pure, Except.pure]

/-- Identifiers with the same bytes are the same. -/
theorem blob_inj {i j : Identifier kind} : i.blob = j.blob ↔ i = j := by
  rw [blob, blob, Block.toList_inj, Identifier.ext_iff]

@[simp] theorem length_blob (i : Identifier kind) : i.blob.length = 16 :=
  i.asBytes.length_toList

theorem blob_ne_nil (i : Identifier kind) : i.blob ≠ [] :=
  List.ne_nil_of_length_pos (by simp)

end Identifier

/-! ### Hexadecimal text -/

/-- The lowercase digits `0123456789abcdef`. -/
def hexDigits : Bytes := [48, 49, 50, 51, 52, 53, 54, 55, 56, 57, 97, 98, 99, 100, 101, 102]

/-- The digit for a value below sixteen. -/
def hexDigit (n : ℕ) : UInt8 := hexDigits.getD n 0

/-- Lowercase hexadecimal text of a byte string. -/
def hexEncode : Bytes → Text
  | [] => []
  | b :: bs => hexDigit (b.toNat / 16) :: hexDigit (b.toNat % 16) :: hexEncode bs

/-- The value of an ASCII hexadecimal digit of either case. -/
def hexValue (c : UInt8) : Option ℕ :=
  if 48 ≤ c ∧ c ≤ 57 then some (c.toNat - 48)
  else if 97 ≤ c ∧ c ≤ 102 then some (c.toNat - 87)
  else if 65 ≤ c ∧ c ≤ 70 then some (c.toNat - 55)
  else none

/-- `is_ascii_hexdigit`. -/
def isAsciiHexdigit (c : UInt8) : Bool := (hexValue c).isSome

/-- `is_ascii_uppercase`. -/
def isAsciiUppercase (c : UInt8) : Bool := 65 ≤ c ∧ c ≤ 90

/-- The bytes a text of hexadecimal digit pairs stands for. -/
def hexDecode : Text → Option Bytes
  | [] => some []
  | [_] => none
  | c :: d :: rest => do
    let hi ← hexValue c
    let lo ← hexValue d
    let tail ← hexDecode rest
    return UInt8.ofNat (16 * hi + lo) :: tail

/-- The shared check of both parsers: `2 * n` digits, none of them uppercase. -/
def isLowerHex (n : ℕ) (value : Text) : Bool :=
  value.length = n * 2 && value.all fun c => isAsciiHexdigit c && !isAsciiUppercase c

/-- The client's parser of a fixed-width value, `parse_fixed`. -/
def parseFixed (n : ℕ) (value : Text) (error : String) : Except VaultError (Block n) :=
  if isLowerHex n value then
    match (hexDecode value).bind (Block.ofBytes? n) with
    | some b => .ok b
    | none => .error (.invalidFormat error)
  else .error (.invalidFormat error)

/-- The witness's parser of a fixed-width value, `parse_id`. -/
def parseId (n : ℕ) (value : Text) (error : String) : Except VaultError (Block n) :=
  if isLowerHex n value then
    match hexDecode value with
    | some b => fixedBytes n "witness fixed-width field" b
    | none => .error (.invalidFormat error)
  else .error (.invalidFormat error)

/-- Lowercase hexadecimal presentation of an identifier. -/
def Identifier.toHex {kind : IdKind} (i : Identifier kind) : Text := hexEncode i.blob

private theorem hexValue_hexDigit : ∀ n < 16, hexValue (hexDigit n) = some n := by
  decide

private theorem lower_hexDigit : ∀ n < 16, isAsciiUppercase (hexDigit n) = false := by
  decide

@[simp] theorem length_hexEncode (b : Bytes) : (hexEncode b).length = b.length * 2 := by
  induction b with
  | nil => rfl
  | cons x b ih => simp [hexEncode, ih]; omega

/-- Hexadecimal text is read back. -/
theorem hexDecode_hexEncode (b : Bytes) : hexDecode (hexEncode b) = some b := by
  induction b with
  | nil => rfl
  | cons x b ih =>
    have hx : x.toNat < 256 := x.toNat_lt
    have hhi := hexValue_hexDigit (x.toNat / 16) (by omega)
    have hlo := hexValue_hexDigit (x.toNat % 16) (by omega)
    have hval : UInt8.ofNat (16 * (x.toNat / 16) + x.toNat % 16) = x := by
      rw [Nat.div_add_mod, UInt8.ofNat_toNat]
    rw [hexEncode, hexDecode, hhi, hlo, ih]
    simp only [Option.bind_eq_bind, Option.bind_some, hval, Option.pure_def]

/-- Identifiers with the same text are the same. -/
theorem Identifier.toHex_injective {kind : IdKind} : Function.Injective (@Identifier.toHex kind) := by
  intro i i' h
  have hblob := congrArg hexDecode h
  rw [toHex, toHex, hexDecode_hexEncode, hexDecode_hexEncode] at hblob
  exact Identifier.blob_inj.mp (Option.some.inj hblob)

/-- The encoder writes lowercase digits, two for each byte. -/
theorem isLowerHex_hexEncode {n : ℕ} (b : Block n) : isLowerHex n (hexEncode b.toList) = true := by
  have hall : ∀ l : Bytes,
      (hexEncode l).all (fun c => isAsciiHexdigit c && !isAsciiUppercase c) = true := by
    intro l
    induction l with
    | nil => rfl
    | cons x l ih =>
      have hx : x.toNat < 256 := x.toNat_lt
      have hdigit : ∀ n < 16, (isAsciiHexdigit (hexDigit n) && !isAsciiUppercase (hexDigit n)) =
          true := by
        intro n hn
        simp [isAsciiHexdigit, hexValue_hexDigit n hn, lower_hexDigit n hn]
      rw [hexEncode, List.all_cons, List.all_cons, ih, hdigit _ (by omega), hdigit _ (by omega)]
      rfl
  simp [isLowerHex, hall]

/-- The client's parser reads back the encoder's text. -/
@[simp] theorem parseFixed_hexEncode {n : ℕ} (b : Block n) (error : String) :
    parseFixed n (hexEncode b.toList) error = .ok b := by
  simp [parseFixed, isLowerHex_hexEncode, hexDecode_hexEncode]

/-- The witness's parser reads back the encoder's text. -/
@[simp] theorem parseId_hexEncode {n : ℕ} (b : Block n) (error : String) :
    parseId n (hexEncode b.toList) error = .ok b := by
  simp [parseId, isLowerHex_hexEncode, hexDecode_hexEncode]

end Vlt1
