import Vlt1.Format

/-!
# Deterministic Manifest encoding

The narrow CBOR subset of the Manifest: one definite-length map with the keys `1` to `8` in
order, unsigned integers in shortest form and byte strings of fixed length. The encoder writes
that shape; the decoder accepts nothing else.

`decodeManifest_encodeManifest` is the round trip. It is assembled from one lemma for each
reader, all stated over the bytes a decoder has not yet consumed.
-/

namespace Vlt1

/-- The number of map entries of a Manifest. -/
def mapFields : UInt8 := 8

/-! ### Encoder -/

/-- A CBOR head: a major type and an unsigned argument in shortest form. -/
def putMajorUint (major : UInt8) (value : UInt64) : Bytes :=
  if value.toNat ≤ 0x17 then [(major <<< 5) ||| UInt8.ofNat value.toNat]
  else if value.toNat ≤ 0xff then ((major <<< 5) ||| 0x18) :: Bytes.toBe 1 value.toNat
  else if value.toNat ≤ 0xffff then ((major <<< 5) ||| 0x19) :: Bytes.toBe 2 value.toNat
  else if value.toNat ≤ 0xffffffff then ((major <<< 5) ||| 0x1a) :: Bytes.toBe 4 value.toNat
  else ((major <<< 5) ||| 0x1b) :: Bytes.toBe 8 value.toNat

/-- A map entry that holds an unsigned integer. -/
def putUint (key : UInt8) (value : UInt64) : Bytes := key :: putMajorUint 0 value

/-- A map entry that holds a byte string. -/
def putBytes (key : UInt8) (bytes : Bytes) : Bytes :=
  key :: putMajorUint 2 (UInt64.ofNat bytes.length) ++ bytes

/-- The map entries of a Manifest, in the order of their keys. -/
def encodeEntries (m : Manifest) : Bytes :=
  putUint 1 m.formatVersion.toUInt64 ++ putBytes 2 m.objectId.blob ++
    putBytes 3 m.versionId.blob ++ putUint 4 m.plaintextLen ++
    putUint 5 m.chunkSize.toUInt64 ++ putUint 6 m.chunkCount.toUInt64 ++
    putBytes 7 m.chunkDigest.toList ++ putUint 8 1

/-- Encode a Manifest into its canonical representation. -/
def encodeManifest (m : Manifest) : Bytes := (0xa0 ||| mapFields) :: encodeEntries m

/-! ### Decoder -/

/-- A position in the bytes being decoded. -/
structure Decoder where
  input : Bytes
  offset : ℕ

namespace Decoder

/-- The decoder after `n` further bytes. -/
def advance (d : Decoder) (n : ℕ) : Decoder := { d with offset := d.offset + n }

/-- The bytes not yet consumed. -/
def remaining (d : Decoder) : Bytes := d.input.drop d.offset

/-- Read one byte. -/
def take (d : Decoder) : Except VaultError (UInt8 × Decoder) :=
  match d.input[d.offset]? with
  | some b => .ok (b, d.advance 1)
  | none => .error (.invalidFormat "truncated manifest")

/-- Read exactly `n` bytes, reporting `error` when the input ends before them. -/
def slice (d : Decoder) (n : ℕ) (error : String) : Except VaultError (Bytes × Decoder) :=
  if d.offset + n ≤ d.input.length then .ok ((d.input.drop d.offset).take n, d.advance n)
  else .error (.invalidFormat error)

/-- Read the `n` bytes of a big-endian integer. -/
def readFixed (d : Decoder) (n : ℕ) : Except VaultError (ℕ × Decoder) := do
  let (bytes, d) ← d.slice n "truncated integer"
  return (Bytes.ofBe bytes, d)

/-- The additional-information bits the shortest form of a value has. -/
def canonicalAdditional (value : UInt64) : UInt8 :=
  if value.toNat ≤ 0x17 then UInt8.ofNat value.toNat
  else if value.toNat ≤ 0xff then 0x18
  else if value.toNat ≤ 0xffff then 0x19
  else if value.toNat ≤ 0xffffffff then 0x1a
  else 0x1b

/-- Read the argument that follows a head byte with the given additional-information bits. -/
def readArgument (d : Decoder) (additional : UInt8) : Except VaultError (ℕ × Decoder) :=
  if additional ≤ 23 then .ok (additional.toNat, d)
  else if additional = 24 then do
    let (b, d) ← d.take
    return (b.toNat, d)
  else if additional = 25 then d.readFixed 2
  else if additional = 26 then d.readFixed 4
  else if additional = 27 then d.readFixed 8
  else .error (.invalidFormat "indefinite or reserved CBOR length")

/-- Read a head of the expected major type and check that its argument is in shortest form. -/
def readMajorUint (d : Decoder) (expectedMajor : UInt8) : Except VaultError (UInt64 × Decoder) := do
  let (initial, d) ← d.take
  if initial >>> 5 ≠ expectedMajor then
    throw (.invalidFormat "unexpected CBOR major type")
  let additional := initial &&& 0x1f
  let (argument, d) ← d.readArgument additional
  let value := UInt64.ofNat argument
  if canonicalAdditional value ≠ additional then
    throw (.invalidFormat "non-canonical integer encoding")
  return (value, d)

/-- Read an unsigned integer. -/
def readUint (d : Decoder) : Except VaultError (UInt64 × Decoder) := d.readMajorUint 0

/-- Read a byte string of the expected length. -/
def readBytesExact (d : Decoder) (expectedLen : ℕ) : Except VaultError (Bytes × Decoder) := do
  let (len, d) ← d.readMajorUint 2
  if len.toNat ≠ expectedLen then throw (.invalidFormat "unexpected byte string length")
  d.slice len.toNat "truncated byte string"

/-- Whether all bytes have been consumed. -/
def finished (d : Decoder) : Bool := d.offset = d.input.length

end Decoder

/-- The Manifest fields read so far. -/
structure ManifestFields where
  formatVersion : Option UInt32 := none
  objectId : Option ObjectId := none
  versionId : Option VersionId := none
  plaintextLen : Option UInt64 := none
  chunkSize : Option UInt32 := none
  chunkCount : Option UInt32 := none
  chunkDigest : Option (Block 32) := none

/-- A 64-bit value as a 32-bit one, when it fits. -/
def u32TryFrom (value : UInt64) (error : String) : Except VaultError UInt32 :=
  if value.toNat < 2 ^ 32 then .ok value.toUInt32 else .error (.invalidFormat error)

/-- Read the value of one map entry. The last branch is the `unreachable!` of the source. -/
def readField (key : ℕ) (f : ManifestFields) (d : Decoder) :
    Except VaultError (ManifestFields × Decoder) :=
  match key with
  | 1 => do
    let (value, d) ← d.readUint
    let v ← u32TryFrom value "format version exceeds u32"
    return ({ f with formatVersion := some v }, d)
  | 2 => do
    let (bytes, d) ← d.readBytesExact 16
    let id ← Identifier.fromSlice bytes
    return ({ f with objectId := some id }, d)
  | 3 => do
    let (bytes, d) ← d.readBytesExact 16
    let id ← Identifier.fromSlice bytes
    return ({ f with versionId := some id }, d)
  | 4 => do
    let (value, d) ← d.readUint
    return ({ f with plaintextLen := some value }, d)
  | 5 => do
    let (value, d) ← d.readUint
    let v ← u32TryFrom value "chunk size exceeds u32"
    return ({ f with chunkSize := some v }, d)
  | 6 => do
    let (value, d) ← d.readUint
    let v ← u32TryFrom value "chunk count exceeds u32"
    return ({ f with chunkCount := some v }, d)
  | 7 => do
    let (bytes, d) ← d.readBytesExact 32
    let digest ← fixedBytes 32 "chunk digest" bytes
    return ({ f with chunkDigest := some digest }, d)
  | 8 => do
    let (value, d) ← d.readUint
    if value ≠ 1 then throw (.invalidFormat "manifest profile marker is invalid")
    return (f, d)
  | _ => .error (.invariant "keys are bounded by MAP_FIELDS")

/-- Read the map entries with the given keys, in order. -/
def readFields : List ℕ → ManifestFields → Decoder → Except VaultError (ManifestFields × Decoder)
  | [], f, d => .ok (f, d)
  | expectedKey :: keys, f, d => do
    let (key, d) ← d.readUint
    if key.toNat ≠ expectedKey then
      throw (.invalidFormat "manifest keys must be ordered and unique")
    let (f, d) ← readField key.toNat f d
    readFields keys f d

/-- A field that must have been read. -/
def requireField {α : Type} (field : Option α) (error : String) : Except VaultError α :=
  match field with
  | some a => .ok a
  | none => .error (.invalidFormat error)

/-- Assemble the Manifest from the fields read. -/
def ManifestFields.build (f : ManifestFields) : Except VaultError Manifest := do
  let formatVersion ← requireField f.formatVersion "missing format version"
  let objectId ← requireField f.objectId "missing object ID"
  let versionId ← requireField f.versionId "missing version ID"
  let plaintextLen ← requireField f.plaintextLen "missing plaintext length"
  let chunkSize ← requireField f.chunkSize "missing chunk size"
  let chunkCount ← requireField f.chunkCount "missing chunk count"
  let chunkDigest ← requireField f.chunkDigest "missing chunk digest"
  return { formatVersion, objectId, versionId, plaintextLen, chunkSize, chunkCount, chunkDigest }

/-- Decode and validate the exact Manifest representation. -/
def decodeManifest (input : Bytes) : Except VaultError Manifest := do
  let (initial, d) ← (Decoder.mk input 0).take
  if initial ≠ 0xa0 ||| mapFields then
    throw (.invalidFormat "manifest must be an eight-field map")
  let (f, d) ← readFields [1, 2, 3, 4, 5, 6, 7, 8] {} d
  if !d.finished then throw (.invalidFormat "trailing manifest bytes")
  f.build

/-! ### Round trip -/

namespace Decoder

theorem remaining_advance {d : Decoder} {a rest : Bytes} (h : d.remaining = a ++ rest) :
    (d.advance a.length).remaining = rest := by
  unfold remaining advance
  rw [← List.drop_drop]
  unfold remaining at h
  rw [h, List.drop_left]

theorem advance_advance (d : Decoder) (m n : ℕ) :
    (d.advance m).advance n = d.advance (m + n) := by
  simp [advance, Nat.add_assoc]

theorem offset_le {d : Decoder} {a rest : Bytes} (h : d.remaining = a ++ rest) (ha : a ≠ []) :
    d.offset + a.length ≤ d.input.length := by
  have hlen := congrArg List.length h
  rw [remaining, List.length_drop, List.length_append] at hlen
  have hpos := List.length_pos_iff.mpr ha
  omega

theorem take_of_remaining {d : Decoder} {b : UInt8} {rest : Bytes}
    (h : d.remaining = b :: rest) : d.take = .ok (b, d.advance 1) := by
  have hget : d.input[d.offset]? = some b := by
    have h0 := congrArg (fun l : Bytes => l[0]?) h
    simpa [remaining] using h0
  rw [take, hget]

theorem slice_of_remaining {d : Decoder} {a rest : Bytes} {n : ℕ} {error : String}
    (h : d.remaining = a ++ rest) (hn : a.length = n) (ha : a ≠ []) :
    d.slice n error = .ok (a, d.advance n) := by
  have hle := offset_le h ha
  rw [slice, if_pos (by omega)]
  unfold remaining at h
  rw [h, ← hn, List.take_left]

/-- A number is read from its big-endian bytes. -/
theorem readFixed_of_remaining {d : Decoder} {rest : Bytes} {k n : ℕ} (hk : 0 < k)
    (hn : n < 256 ^ k) (h : d.remaining = Bytes.toBe k n ++ rest) :
    d.readFixed k = .ok (n, d.advance k) := by
  have hne : Bytes.toBe k n ≠ [] := by
    intro hnil
    have hlen := Bytes.length_toBe k n
    rw [hnil] at hlen
    simp at hlen
    omega
  rw [readFixed, slice_of_remaining h (Bytes.length_toBe k n) hne]
  show Except.ok (Bytes.ofBe (Bytes.toBe k n), d.advance k) = _
  rw [Bytes.ofBe_toBe hn]

/-- The two parts of a head byte, for the major types the format uses. -/
private theorem headByte_parts : ∀ major : Fin 8, ∀ additional : Fin 32,
    let head := (UInt8.ofNat major.val <<< 5) ||| UInt8.ofNat additional.val
    head >>> 5 = UInt8.ofNat major.val ∧ head &&& 0x1f = UInt8.ofNat additional.val := by
  decide

/-- A head splits into its first byte, whose additional-information bits are canonical, and the
big-endian argument that follows. -/
theorem putMajorUint_eq (major : UInt8) (value : UInt64) :
    ∃ k, (canonicalAdditional value).toNat < 32 ∧
      putMajorUint major value =
        ((major <<< 5) ||| canonicalAdditional value) :: Bytes.toBe k value.toNat ∧
      ∀ (d : Decoder) (rest : Bytes), d.remaining = Bytes.toBe k value.toNat ++ rest →
        d.readArgument (canonicalAdditional value) = .ok (value.toNat, d.advance k) := by
  have hlt : value.toNat < 2 ^ 64 := value.toNat_lt
  unfold putMajorUint canonicalAdditional
  split
  · rename_i h
    have hsmall : (UInt8.ofNat value.toNat).toNat = value.toNat := by
      simp only [UInt8.toNat_ofNat']; omega
    refine ⟨0, by omega, rfl, fun d rest _ => ?_⟩
    have hle : UInt8.ofNat value.toNat ≤ 23 := by
      rw [UInt8.le_iff_toNat_le, hsmall]; exact h
    rw [readArgument, if_pos hle, hsmall]
    rfl
  split
  · refine ⟨1, by decide, rfl, fun d rest hrem => ?_⟩
    have hrem' : d.remaining = UInt8.ofNat (value.toNat % 256) :: rest := by
      simpa [Bytes.toBe] using hrem
    rw [readArgument, if_neg (by decide), if_pos rfl, take_of_remaining hrem']
    show Except.ok ((UInt8.ofNat (value.toNat % 256)).toNat, d.advance 1) = _
    congr 2
    simp only [UInt8.toNat_ofNat']; omega
  split
  · refine ⟨2, by decide, rfl, fun d rest hrem => ?_⟩
    rw [readArgument, if_neg (by decide), if_neg (by decide), if_pos rfl]
    exact readFixed_of_remaining (by omega) (by omega) hrem
  split
  · refine ⟨4, by decide, rfl, fun d rest hrem => ?_⟩
    rw [readArgument, if_neg (by decide), if_neg (by decide), if_neg (by decide), if_pos rfl]
    exact readFixed_of_remaining (by omega) (by omega) hrem
  · refine ⟨8, by decide, rfl, fun d rest hrem => ?_⟩
    rw [readArgument, if_neg (by decide), if_neg (by decide), if_neg (by decide),
      if_neg (by decide), if_pos rfl]
    exact readFixed_of_remaining (by omega) (by omega) hrem

/-- A head is read back as its argument. -/
theorem readMajorUint_putMajorUint {d : Decoder} {major : UInt8} {value : UInt64} {rest : Bytes}
    (hmajor : major.toNat < 8) (h : d.remaining = putMajorUint major value ++ rest) :
    d.readMajorUint major = .ok (value, d.advance (putMajorUint major value).length) := by
  obtain ⟨k, hadd, hput, hread⟩ := putMajorUint_eq major value
  have hparts := headByte_parts ⟨major.toNat, hmajor⟩ ⟨_, hadd⟩
  simp only [UInt8.ofNat_toNat] at hparts
  rw [hput, List.cons_append] at h
  have hrest : (d.advance 1).remaining = Bytes.toBe k value.toNat ++ rest :=
    remaining_advance (a := [_]) h
  have htake := take_of_remaining h
  have harg := hread _ _ hrest
  rw [readMajorUint, htake]
  simp only [bind, Except.bind, hparts.1, hparts.2, ne_eq, not_true_eq_false, if_false, harg,
    UInt64.ofNat_toNat, pure, Except.pure, advance_advance]
  rw [hput, List.length_cons, Bytes.length_toBe, Nat.add_comm]

/-- A byte string is read behind its head. -/
theorem readBytesExact_putMajorUint {d : Decoder} {bytes rest : Bytes} (hne : bytes ≠ [])
    (hlen : bytes.length < 2 ^ 64)
    (h : d.remaining = putMajorUint 2 (UInt64.ofNat bytes.length) ++ (bytes ++ rest)) :
    d.readBytesExact bytes.length = .ok (bytes,
      d.advance ((putMajorUint 2 (UInt64.ofNat bytes.length)).length + bytes.length)) := by
  have hval : (UInt64.ofNat bytes.length).toNat = bytes.length := by
    rw [UInt64.toNat_ofNat']; exact Nat.mod_eq_of_lt hlen
  rw [readBytesExact, readMajorUint_putMajorUint (by decide) h]
  simp only [bind, Except.bind, hval, ne_eq, not_true_eq_false, if_false]
  rw [slice_of_remaining (remaining_advance h) rfl hne, advance_advance]

/-- `read` consumes exactly `bytes`, whatever follows them, and returns `a`. -/
def Reads {α : Type} (read : Decoder → Except VaultError (α × Decoder)) (bytes : Bytes) (a : α) :
    Prop :=
  ∀ d rest, d.remaining = bytes ++ rest → read d = .ok (a, d.advance bytes.length)

theorem Reads.readUint (value : UInt64) : Reads Decoder.readUint (putMajorUint 0 value) value :=
  fun _ _ h => readMajorUint_putMajorUint (by decide) h

theorem Reads.readBytesExact {bytes : Bytes} (hne : bytes ≠ []) (hlen : bytes.length < 2 ^ 64) :
    Reads (fun d => d.readBytesExact bytes.length)
      (putMajorUint 2 (UInt64.ofNat bytes.length) ++ bytes) bytes := by
  intro d rest h
  rw [List.append_assoc] at h
  rw [List.length_append]
  exact readBytesExact_putMajorUint hne hlen h

end Decoder

open Decoder

/-- A 32-bit number survives the widening. -/
theorem u32TryFrom_toUInt64 (value : UInt32) (error : String) :
    u32TryFrom value.toUInt64 error = .ok value := by
  have hlt : value.toUInt64.toNat < 2 ^ 32 := by
    rw [UInt32.toNat_toUInt64]; exact value.toNat_lt
  rw [u32TryFrom, if_pos hlt, UInt32.toUInt32_toUInt64]

/-- A key of the Manifest is its own encoding. -/
theorem putMajorUint_key {key : UInt64} (hkey : key.toNat ≤ 23) :
    putMajorUint 0 key = [UInt8.ofNat key.toNat] := by
  rw [putMajorUint, if_pos hkey]
  simp

/-- One map entry is read back: first the expected key, then the value. -/
theorem Reads.readFields_cons {key : ℕ} {keys : List ℕ} {f f' f'' : ManifestFields}
    {value more : Bytes} (hkey : key ≤ 23) (hvalue : Reads (readField key f) value f')
    (hmore : Reads (readFields keys f') more f'') :
    Reads (readFields (key :: keys) f) (UInt8.ofNat key :: value ++ more) f'' := by
  intro d rest h
  have hval : (UInt64.ofNat key).toNat = key := by
    rw [UInt64.toNat_ofNat']; omega
  have hput : putMajorUint 0 (UInt64.ofNat key) = [UInt8.ofNat key] := by
    rw [putMajorUint_key (by rw [hval]; exact hkey), hval]
  have hcons : d.remaining = [UInt8.ofNat key] ++ (value ++ (more ++ rest)) := by
    rw [h]; simp
  have hread := Reads.readUint (UInt64.ofNat key) d (value ++ (more ++ rest)) (by rw [hput, hcons])
  have h1 := remaining_advance hcons
  have h2 := remaining_advance h1
  rw [hput] at hread
  rw [readFields, hread]
  simp only [bind, Except.bind, hval, ne_eq, not_true_eq_false, if_false]
  rw [hvalue _ _ h1]
  simp only
  rw [hmore _ _ h2, advance_advance, advance_advance]
  simp only [List.length_append, List.length_cons, List.length_nil]
  congr 3
  omega

/-- All fields of a Manifest, read. -/
def ManifestFields.ofManifest (m : Manifest) : ManifestFields where
  formatVersion := some m.formatVersion
  objectId := some m.objectId
  versionId := some m.versionId
  plaintextLen := some m.plaintextLen
  chunkSize := some m.chunkSize
  chunkCount := some m.chunkCount
  chunkDigest := some m.chunkDigest

/-! ### The eight entries -/

section Entries

variable (f : ManifestFields)

theorem Reads.formatVersion (value : UInt32) :
    Reads (readField 1 f) (putMajorUint 0 value.toUInt64)
      { f with formatVersion := some value } := by
  intro d rest h
  simp only [readField, Reads.readUint _ d rest h, bind, Except.bind, u32TryFrom_toUInt64, pure,
    Except.pure]

theorem Reads.objectId (id : ObjectId) :
    Reads (readField 2 f) (putMajorUint 2 (UInt64.ofNat id.blob.length) ++ id.blob)
      { f with objectId := some id } := by
  intro d rest h
  have hread := Reads.readBytesExact id.blob_ne_nil (by simp) d rest h
  rw [Identifier.length_blob] at hread
  simp only [readField, hread, bind, Except.bind, Identifier.fromSlice_blob, pure, Except.pure,
    Identifier.length_blob]

theorem Reads.versionId (id : VersionId) :
    Reads (readField 3 f) (putMajorUint 2 (UInt64.ofNat id.blob.length) ++ id.blob)
      { f with versionId := some id } := by
  intro d rest h
  have hread := Reads.readBytesExact id.blob_ne_nil (by simp) d rest h
  rw [Identifier.length_blob] at hread
  simp only [readField, hread, bind, Except.bind, Identifier.fromSlice_blob, pure, Except.pure,
    Identifier.length_blob]

theorem Reads.plaintextLen (value : UInt64) :
    Reads (readField 4 f) (putMajorUint 0 value) { f with plaintextLen := some value } := by
  intro d rest h
  simp only [readField, Reads.readUint _ d rest h, bind, Except.bind, pure, Except.pure]

theorem Reads.chunkSize (value : UInt32) :
    Reads (readField 5 f) (putMajorUint 0 value.toUInt64) { f with chunkSize := some value } := by
  intro d rest h
  simp only [readField, Reads.readUint _ d rest h, bind, Except.bind, u32TryFrom_toUInt64, pure,
    Except.pure]

theorem Reads.chunkCount (value : UInt32) :
    Reads (readField 6 f) (putMajorUint 0 value.toUInt64) { f with chunkCount := some value } := by
  intro d rest h
  simp only [readField, Reads.readUint _ d rest h, bind, Except.bind, u32TryFrom_toUInt64, pure,
    Except.pure]

theorem Reads.chunkDigest (digest : Block 32) :
    Reads (readField 7 f) (putMajorUint 2 (UInt64.ofNat digest.toList.length) ++ digest.toList)
      { f with chunkDigest := some digest } := by
  intro d rest h
  have hne : digest.toList ≠ [] := List.ne_nil_of_length_pos (by simp)
  have hread := Reads.readBytesExact hne (by simp) d rest h
  rw [Block.length_toList] at hread
  simp only [readField, hread, bind, Except.bind, fixedBytes_toList, pure, Except.pure,
    Block.length_toList]

theorem Reads.profileMarker : Reads (readField 8 f) (putMajorUint 0 1) f := by
  intro d rest h
  simp only [readField, Reads.readUint _ d rest h, bind, Except.bind, ne_eq, not_true_eq_false,
    if_false, pure, Except.pure]

end Entries

/-- The entries after the map head are read back, one key after another. -/
theorem Reads.encodeEntries (m : Manifest) :
    Reads (readFields [1, 2, 3, 4, 5, 6, 7, 8] {}) (encodeEntries m) (.ofManifest m) := by
  have hnil : Reads (readFields [] (.ofManifest m)) [] (.ofManifest m) := fun _ _ _ => rfl
  have hfields := Reads.readFields_cons (by decide) (Reads.formatVersion {} m.formatVersion) <|
    Reads.readFields_cons (by decide) (Reads.objectId _ m.objectId) <|
    Reads.readFields_cons (by decide) (Reads.versionId _ m.versionId) <|
    Reads.readFields_cons (by decide) (Reads.plaintextLen _ m.plaintextLen) <|
    Reads.readFields_cons (by decide) (Reads.chunkSize _ m.chunkSize) <|
    Reads.readFields_cons (by decide) (Reads.chunkCount _ m.chunkCount) <|
    Reads.readFields_cons (by decide) (Reads.chunkDigest _ m.chunkDigest) <|
    Reads.readFields_cons (by decide) (Reads.profileMarker _) hnil
  convert hfields using 1
  simp [Vlt1.encodeEntries, putUint, putBytes]

/-- The decoder reads back what the encoder wrote. -/
theorem decodeManifest_encodeManifest (m : Manifest) :
    decodeManifest (encodeManifest m) = .ok m := by
  have hstart : (Decoder.mk (encodeManifest m) 0).remaining =
      (0xa0 ||| mapFields) :: encodeEntries m := rfl
  have hread := Reads.encodeEntries m ((Decoder.mk (encodeManifest m) 0).advance 1) [] (by
    rw [List.append_nil]
    exact remaining_advance (a := [_]) hstart)
  have hend : (((Decoder.mk (encodeManifest m) 0).advance 1).advance
      (encodeEntries m).length).finished = true := by
    simp [finished, advance, encodeManifest, Nat.add_comm]
  rw [decodeManifest, take_of_remaining hstart]
  simp only [bind, Except.bind, ne_eq, not_true_eq_false, if_false, hread, hend]
  rfl

end Vlt1
