import Mathlib.Tactic.IntervalCases
import Vlt1.Cde
import Vlt1.Library.Effect

/-!
# The Manifest encoding is canonical

`decodeManifest_encodeManifest` says that the decoder reads back what the encoder wrote. Here is the
other half: the decoder accepts nothing else. Each reader is shown to consume exactly the bytes that
the encoder would have written for the value it returns, so two accepted byte strings with one
Manifest are equal.

Every other byte string is rejected with one of the messages of `formatChecks`. The branches of the
source that cannot be taken have messages of their own, which are not among them.
-/

namespace Vlt1

open Effect

namespace Decoder

/-- What `read` returns was written by `encode` at the front of the bytes not yet consumed. -/
def Consumes {α : Type} (read : Decoder → Except VaultError (α × Decoder)) (encode : α → Bytes) :
    Prop :=
  ∀ d a d', read d = .ok (a, d') → d.remaining = encode a ++ d'.remaining

/-- A finished decoder has nothing left. -/
theorem remaining_of_finished {d : Decoder} (h : d.finished = true) : d.remaining = [] := by
  have hoffset : d.offset = d.input.length := by simpa [finished] using h
  rw [remaining, hoffset, List.drop_length]

/-- A byte that is taken was the next one. -/
theorem Consumes.take : Consumes Decoder.take fun b => [b] := by
  intro d b d' h
  unfold Decoder.take at h
  split at h
  · rename_i x hx
    cases h
    obtain ⟨hlt, rfl⟩ := List.getElem?_eq_some_iff.mp hx
    exact List.drop_eq_getElem_cons hlt
  · cases h

/-- A slice is the next `n` bytes. -/
theorem slice_eq_ok {d d' : Decoder} {n : ℕ} {error : String} {bytes : Bytes}
    (h : d.slice n error = .ok (bytes, d')) :
    bytes.length = n ∧ d.remaining = bytes ++ d'.remaining := by
  unfold slice at h
  split at h
  · rename_i hle
    cases h
    refine ⟨?_, ?_⟩
    · rw [List.length_take, List.length_drop]
      omega
    · show d.input.drop d.offset = _ ++ d.input.drop (d.offset + n)
      rw [← List.drop_drop, List.take_append_drop]
  · cases h

/-- A big-endian integer is its own `n` bytes. -/
theorem readFixed_eq_ok {d d' : Decoder} {n value : ℕ} (h : d.readFixed n = .ok (value, d')) :
    value < 256 ^ n ∧ d.remaining = Bytes.toBe n value ++ d'.remaining := by
  obtain ⟨⟨bytes, d1⟩, hslice, hreturn⟩ := except_bind_eq_ok.mp h
  obtain ⟨hlen, hremaining⟩ := slice_eq_ok hslice
  cases hreturn
  refine ⟨hlen ▸ Bytes.ofBe_lt bytes, ?_⟩
  rw [← hlen, Bytes.toBe_ofBe]
  exact hremaining

/-- A head byte is put together from its two parts. -/
private theorem headByte_join : ∀ b : Fin 256,
    (UInt8.ofNat b.val >>> 5) <<< 5 ||| (UInt8.ofNat b.val &&& 0x1f) = UInt8.ofNat b.val := by
  decide +kernel

/-- A wide argument, as the encoder writes it. -/
private theorem readFixed_wide {d d' : Decoder} {n argument : ℕ} (hn : n ≤ 8)
    (h : d.readFixed n = .ok (argument, d')) :
    d.remaining = Bytes.toBe n (UInt64.ofNat argument).toNat ++ d'.remaining := by
  obtain ⟨hlt, hremaining⟩ := readFixed_eq_ok h
  have hle : 256 ^ n ≤ 256 ^ 8 := Nat.pow_le_pow_right (by decide) hn
  rw [UInt64.toNat_ofNat', Nat.mod_eq_of_lt (by omega)]
  exact hremaining

/-- The argument of a head whose additional-information bits are canonical is what the encoder
writes after the first byte. -/
theorem readArgument_eq_ok {d d' : Decoder} {additional : UInt8} {argument : ℕ}
    (h : d.readArgument additional = .ok (argument, d'))
    (hcanonical : canonicalAdditional (UInt64.ofNat argument) = additional) (major : UInt8) :
    d.remaining = (putMajorUint major (UInt64.ofNat argument)).tail ++ d'.remaining := by
  subst hcanonical
  -- one case for each width of the shortest form
  unfold readArgument canonicalAdditional at h
  unfold putMajorUint
  split at h
  · rename_i hsmall
    have hle : UInt8.ofNat (UInt64.ofNat argument).toNat ≤ 23 := by
      rw [UInt8.le_iff_toNat_le, UInt8.toNat_ofNat', Nat.mod_eq_of_lt (by omega)]
      exact hsmall
    rw [if_pos hle] at h
    obtain ⟨-, rfl⟩ := Prod.mk.inj (Except.ok.inj h)
    rw [if_pos hsmall]
    rfl
  rename_i hwide
  rw [if_neg hwide]
  split at h
  · rename_i hbyte
    obtain ⟨⟨b, d1⟩, htake, hreturn⟩ := except_bind_eq_ok.mp h
    cases hreturn
    rw [if_pos hbyte, Consumes.take d b _ htake]
    simp [Bytes.toBe]
  rename_i hwide'
  rw [if_neg hwide']
  split at h
  · rename_i htwo
    rw [if_pos htwo]
    exact readFixed_wide (by decide) h
  rename_i hwide''
  rw [if_neg hwide'']
  split at h
  · rename_i hfour
    rw [if_pos hfour]
    exact readFixed_wide (by decide) h
  · rename_i height
    rw [if_neg height]
    exact readFixed_wide (by decide) h

/-- The decoder accepts a head only in the one form the encoder writes. -/
theorem Consumes.readMajorUint (major : UInt8) :
    Consumes (fun d => d.readMajorUint major) (putMajorUint major) := by
  intro d value d' h
  obtain ⟨⟨initial, d1⟩, htake, hrest⟩ := except_bind_eq_ok.mp h
  simp only at hrest
  split at hrest
  · cases hrest
  rename_i hmajor
  obtain ⟨⟨argument, d2⟩, hargument, hcheck⟩ := except_bind_eq_ok.mp hrest
  simp only at hcheck
  split at hcheck
  · cases hcheck
  rename_i hcanonical
  cases hcheck
  rw [not_not] at hmajor hcanonical
  rw [Consumes.take d initial d1 htake, readArgument_eq_ok hargument hcanonical major,
    List.singleton_append, ← List.cons_append]
  congr 1
  -- the first byte of the encoding is the byte read
  obtain ⟨k, -, hput, -⟩ := putMajorUint_eq major (UInt64.ofNat argument)
  have hjoin := headByte_join ⟨initial.toNat, initial.toNat_lt⟩
  simp only [UInt8.ofNat_toNat] at hjoin
  rw [hput, hcanonical, ← hmajor, hjoin]
  rfl

theorem Consumes.readUint : Consumes Decoder.readUint (putMajorUint 0) := Consumes.readMajorUint 0

/-- A byte string is accepted only in the form the encoder writes. -/
theorem readBytesExact_eq_ok {d d' : Decoder} {n : ℕ} {bytes : Bytes}
    (h : d.readBytesExact n = .ok (bytes, d')) :
    bytes.length = n ∧
      d.remaining = putMajorUint 2 (UInt64.ofNat bytes.length) ++ bytes ++ d'.remaining := by
  obtain ⟨⟨len, d1⟩, hhead, hrest⟩ := except_bind_eq_ok.mp h
  simp only at hrest
  split at hrest
  · cases hrest
  rename_i hlen
  obtain ⟨hlength, hslice⟩ := slice_eq_ok hrest
  rw [not_not] at hlen
  refine ⟨hlength.trans hlen, ?_⟩
  rw [Consumes.readMajorUint 2 d len d1 hhead, hslice, hlength, UInt64.ofNat_toNat,
    List.append_assoc]

end Decoder

open Decoder

/-- A number that fits is not changed. -/
theorem u32TryFrom_eq_ok {value : UInt64} {error : String} {v : UInt32}
    (h : u32TryFrom value error = .ok v) : value = v.toUInt64 := by
  unfold u32TryFrom at h
  split at h
  · rename_i hlt
    cases h
    apply UInt64.toNat_inj.mp
    rw [UInt32.toNat_toUInt64, UInt64.toNat_toUInt32, Nat.mod_eq_of_lt hlt]
  · cases h

/-! ### The eight entries -/

section Entries

variable {f f' : ManifestFields} {d d' : Decoder}

/-- An entry that holds a 32-bit integer. -/
theorem readUint32_eq_ok {error : String} {set : UInt32 → ManifestFields}
    (h : (do
      let (value, d) ← d.readUint
      let v ← u32TryFrom value error
      return (set v, d)) = Except.ok (f', d')) :
    ∃ v : UInt32, f' = set v ∧ d.remaining = putMajorUint 0 v.toUInt64 ++ d'.remaining := by
  obtain ⟨⟨value, d1⟩, hread, hrest⟩ := except_bind_eq_ok.mp h
  obtain ⟨v, hv, hreturn⟩ := except_bind_eq_ok.mp hrest
  cases hreturn
  refine ⟨v, rfl, ?_⟩
  rw [← u32TryFrom_eq_ok hv]
  exact Consumes.readUint d value _ hread

/-- An entry that holds an identifier. -/
theorem readIdentifier_eq_ok {kind : IdKind} {set : Identifier kind → ManifestFields}
    (h : (do
      let (bytes, d) ← d.readBytesExact 16
      let id ← Identifier.fromSlice bytes
      return (set id, d)) = Except.ok (f', d')) :
    ∃ id : Identifier kind, f' = set id ∧
      d.remaining = putMajorUint 2 (UInt64.ofNat id.blob.length) ++ id.blob ++ d'.remaining := by
  obtain ⟨⟨bytes, d1⟩, hread, hrest⟩ := except_bind_eq_ok.mp h
  obtain ⟨id, hid, hreturn⟩ := except_bind_eq_ok.mp hrest
  cases hreturn
  obtain rfl := Identifier.fromSlice_eq_ok.mp hid
  exact ⟨id, rfl, (readBytesExact_eq_ok hread).2⟩

/-- What stands at the field of the length. -/
theorem readField_plaintextLen_eq_ok (h : readField 4 f d = .ok (f', d')) :
    ∃ v, f' = { f with plaintextLen := some v } ∧
      d.remaining = putMajorUint 0 v ++ d'.remaining := by
  obtain ⟨⟨value, d1⟩, hread, hreturn⟩ := except_bind_eq_ok.mp h
  cases hreturn
  exact ⟨value, rfl, Consumes.readUint d value _ hread⟩

/-- What stands at the field of the digest. -/
theorem readField_chunkDigest_eq_ok (h : readField 7 f d = .ok (f', d')) :
    ∃ v : Block 32, f' = { f with chunkDigest := some v } ∧
      d.remaining = putMajorUint 2 (UInt64.ofNat v.toList.length) ++ v.toList ++ d'.remaining := by
  obtain ⟨⟨bytes, d1⟩, hread, hrest⟩ := except_bind_eq_ok.mp h
  obtain ⟨digest, hdigest, hreturn⟩ := except_bind_eq_ok.mp hrest
  cases hreturn
  obtain rfl := fixedBytes_eq_ok.mp hdigest
  exact ⟨digest, rfl, (readBytesExact_eq_ok hread).2⟩

/-- What stands at the field of the profile, whose value is not kept. -/
theorem readField_profileMarker_eq_ok (h : readField 8 f d = .ok (f', d')) :
    f' = f ∧ d.remaining = putMajorUint 0 1 ++ d'.remaining := by
  obtain ⟨⟨value, d1⟩, hread, hrest⟩ := except_bind_eq_ok.mp h
  simp only at hrest
  split at hrest
  · cases hrest
  rename_i hvalue
  rw [not_not] at hvalue
  subst hvalue
  cases hrest
  exact ⟨rfl, Consumes.readUint d 1 _ hread⟩

/-- An accepted entry is its key and an accepted value. -/
theorem readFields_cons_eq_ok {key : ℕ} {keys : List ℕ} (hkey : key ≤ 23)
    (h : readFields (key :: keys) f d = .ok (f', d')) :
    ∃ d1 f2 d2, d.remaining = UInt8.ofNat key :: d1.remaining ∧
      readField key f d1 = .ok (f2, d2) ∧ readFields keys f2 d2 = .ok (f', d') := by
  obtain ⟨⟨k, d1⟩, hread, hrest⟩ := except_bind_eq_ok.mp h
  simp only at hrest
  split at hrest
  · cases hrest
  rename_i hk
  rw [not_not] at hk
  subst hk
  obtain ⟨⟨f2, d2⟩, hfield, hmore⟩ := except_bind_eq_ok.mp hrest
  refine ⟨d1, f2, d2, ?_, hfield, hmore⟩
  rw [Consumes.readUint d k d1 hread, putMajorUint_key hkey]
  rfl

end Entries

/-- The entries that are accepted are those of a Manifest. -/
theorem readFields_eq_ok {f : ManifestFields} {d d' : Decoder}
    (h : readFields [1, 2, 3, 4, 5, 6, 7, 8] {} d = .ok (f, d')) :
    ∃ m, f = .ofManifest m ∧ d.remaining = encodeEntries m ++ d'.remaining := by
  obtain ⟨a1, f1, d1, hk1, h1, hrest1⟩ := readFields_cons_eq_ok (by decide) h
  obtain ⟨a2, f2, d2, hk2, h2, hrest2⟩ := readFields_cons_eq_ok (by decide) hrest1
  obtain ⟨a3, f3, d3, hk3, h3, hrest3⟩ := readFields_cons_eq_ok (by decide) hrest2
  obtain ⟨a4, f4, d4, hk4, h4, hrest4⟩ := readFields_cons_eq_ok (by decide) hrest3
  obtain ⟨a5, f5, d5, hk5, h5, hrest5⟩ := readFields_cons_eq_ok (by decide) hrest4
  obtain ⟨a6, f6, d6, hk6, h6, hrest6⟩ := readFields_cons_eq_ok (by decide) hrest5
  obtain ⟨a7, f7, d7, hk7, h7, hrest7⟩ := readFields_cons_eq_ok (by decide) hrest6
  obtain ⟨a8, f8, d8, hk8, h8, hrest8⟩ := readFields_cons_eq_ok (by decide) hrest7
  obtain ⟨formatVersion, rfl, e1⟩ := readUint32_eq_ok h1
  obtain ⟨objectId, rfl, e2⟩ := readIdentifier_eq_ok h2
  obtain ⟨versionId, rfl, e3⟩ := readIdentifier_eq_ok h3
  obtain ⟨plaintextLen, rfl, e4⟩ := readField_plaintextLen_eq_ok h4
  obtain ⟨chunkSize, rfl, e5⟩ := readUint32_eq_ok h5
  obtain ⟨chunkCount, rfl, e6⟩ := readUint32_eq_ok h6
  obtain ⟨chunkDigest, rfl, e7⟩ := readField_chunkDigest_eq_ok h7
  obtain ⟨rfl, e8⟩ := readField_profileMarker_eq_ok h8
  obtain ⟨rfl, rfl⟩ := Prod.mk.inj (Except.ok.inj hrest8)
  refine ⟨⟨formatVersion, objectId, versionId, plaintextLen, chunkSize, chunkCount, chunkDigest⟩,
    rfl, ?_⟩
  rw [hk1, e1, hk2, e2, hk3, e3, hk4, e4, hk5, e5, hk6, e6, hk7, e7, hk8, e8]
  simp [encodeEntries, putUint, putBytes]

/-- The decoder accepts only what the encoder writes. -/
theorem eq_encodeManifest_of_decodeManifest {b : Bytes} {m : Manifest}
    (h : decodeManifest b = .ok m) : b = encodeManifest m := by
  obtain ⟨⟨initial, d1⟩, htake, hrest⟩ := except_bind_eq_ok.mp h
  simp only at hrest
  split at hrest
  · cases hrest
  rename_i hinitial
  rw [not_not] at hinitial
  obtain ⟨⟨f, d2⟩, hfields, hend⟩ := except_bind_eq_ok.mp hrest
  simp only at hend
  split at hend
  · cases hend
  rename_i hfinished
  obtain ⟨m', rfl, hentries⟩ := readFields_eq_ok hfields
  obtain rfl : m' = m := Except.ok.inj hend
  have hnil : d2.remaining = [] := remaining_of_finished (by simpa using hfinished)
  have hb : b = (Decoder.mk b 0).remaining := rfl
  rw [hb, Consumes.take _ _ _ htake, hentries, hnil, hinitial, List.append_nil]
  rfl

/-! ### Rejected byte strings -/

/-- The messages of the checks that reject a byte string. -/
def formatChecks : List String :=
  ["truncated manifest", "manifest must be an eight-field map",
    "manifest keys must be ordered and unique", "format version exceeds u32",
    "chunk size exceeds u32", "chunk count exceeds u32", "manifest profile marker is invalid",
    "trailing manifest bytes", "unexpected byte string length", "truncated byte string",
    "unexpected CBOR major type", "truncated integer", "indefinite or reserved CBOR length",
    "non-canonical integer encoding"]

/-- The messages of the branches that no input reaches. -/
def unreachedBranches : List String :=
  ["missing format version", "missing object ID", "missing version ID", "missing plaintext length",
    "missing chunk size", "missing chunk count", "missing chunk digest",
    "invalid identifier length", "chunk digest"]

/-- The input failed a check of the format. -/
def FailedCheck (e : VaultError) : Prop := ∃ message ∈ formatChecks, e = .invalidFormat message

/-- The texts of the format checks are those of failed checks. -/
theorem throws_formatCheck {α : Type} {message : String} (h : message ∈ formatChecks) :
    Throws FailedCheck (.error (.invalidFormat message) : Except VaultError α) :=
  Throws.error ⟨message, h, rfl⟩

namespace Decoder

theorem throws_take (d : Decoder) : Throws FailedCheck d.take := by
  unfold take
  split
  · exact Throws.ok _
  · exact throws_formatCheck (by decide)

/-- A slice past the end is a failed check. -/
theorem throws_slice (d : Decoder) (n : ℕ) {error : String} (h : error ∈ formatChecks) :
    Throws FailedCheck (d.slice n error) :=
  Throws.ite (Throws.ok _) (throws_formatCheck h)

theorem throws_readFixed (d : Decoder) (n : ℕ) : Throws FailedCheck (d.readFixed n) :=
  Throws.bind (throws_slice d n (by decide)) fun _ => Throws.ok _

/-- An argument in a longer form than needed is a failed check. -/
theorem throws_readArgument (d : Decoder) (additional : UInt8) :
    Throws FailedCheck (d.readArgument additional) := by
  refine Throws.ite (Throws.ok _) (Throws.ite ?_ ?_)
  · exact Throws.bind (throws_take d) fun _ => Throws.ok _
  · exact Throws.ite (throws_readFixed d 2) (Throws.ite (throws_readFixed d 4)
      (Throws.ite (throws_readFixed d 8) (throws_formatCheck (by decide))))

/-- A head of another type is a failed check. -/
theorem throws_readMajorUint (d : Decoder) (major : UInt8) :
    Throws FailedCheck (d.readMajorUint major) := by
  refine Throws.bind (throws_take d) fun _ => Throws.ite (throws_formatCheck (by decide)) ?_
  refine Throws.bind (throws_readArgument _ _) fun _ => ?_
  exact Throws.ite (throws_formatCheck (by decide)) (Throws.ok _)

/-- A byte string of another length is a failed check. -/
theorem throws_readBytesExact (d : Decoder) (n : ℕ) :
    Throws FailedCheck (d.readBytesExact n) :=
  Throws.bind (throws_readMajorUint d 2) fun _ =>
    Throws.ite (throws_formatCheck (by decide)) (throws_slice _ _ (by decide))

end Decoder

/-- A number that does not fit is a failed check. -/
theorem throws_u32TryFrom (value : UInt64) {error : String} (h : error ∈ formatChecks) :
    Throws FailedCheck (u32TryFrom value error) :=
  Throws.ite (Throws.ok _) (throws_formatCheck h)

/-- The bytes of a fixed-length read have the length their conversion asks for. -/
theorem throws_fixedBytes_of_read {α : Type} (d : Decoder) (n : ℕ)
    {convert : Bytes → Except VaultError α} {finish : α → Decoder → ManifestFields × Decoder}
    (h : ∀ bytes : Bytes, bytes.length = n → ∃ a, convert bytes = .ok a) :
    Throws FailedCheck (do
      let (bytes, d) ← d.readBytesExact n
      let a ← convert bytes
      return finish a d) := by
  intro e he
  cases hread : d.readBytesExact n with
  | error e' =>
    rw [hread] at he
    cases he
    exact throws_readBytesExact d n e hread
  | ok p =>
    obtain ⟨a, ha⟩ := h p.1 (readBytesExact_eq_ok hread).1
    rw [hread] at he
    simp only [bind, Except.bind, ha] at he
    cases he

/-- Bytes of the right length are taken. -/
theorem exists_fixedBytes {n : ℕ} {message : String} {bytes : Bytes} (h : bytes.length = n) :
    ∃ x, fixedBytes n message bytes = .ok x :=
  ⟨⟨bytes, h⟩, fixedBytes_eq_ok.mpr rfl⟩

/-- Sixteen bytes are an identifier. -/
theorem exists_fromSlice {kind : IdKind} {bytes : Bytes} (h : bytes.length = 16) :
    ∃ id : Identifier kind, Identifier.fromSlice bytes = .ok id :=
  ⟨⟨bytes, h⟩, Identifier.fromSlice_eq_ok.mpr rfl⟩

/-- The entries fail only at a check, as long as their keys are those of the map. -/
theorem throws_readField {key : ℕ} (hpos : 0 < key) (hle : key ≤ 8) (f : ManifestFields)
    (d : Decoder) : Throws FailedCheck (readField key f d) := by
  have huint : Throws FailedCheck d.readUint := throws_readMajorUint d 0
  interval_cases key
  · exact Throws.bind huint fun _ =>
      Throws.bind (throws_u32TryFrom _ (by decide)) fun _ => Throws.ok _
  · exact throws_fixedBytes_of_read d 16 fun _ => exists_fromSlice
  · exact throws_fixedBytes_of_read d 16 fun _ => exists_fromSlice
  · exact Throws.bind huint fun _ => Throws.ok _
  · exact Throws.bind huint fun _ =>
      Throws.bind (throws_u32TryFrom _ (by decide)) fun _ => Throws.ok _
  · exact Throws.bind huint fun _ =>
      Throws.bind (throws_u32TryFrom _ (by decide)) fun _ => Throws.ok _
  · exact throws_fixedBytes_of_read d 32 fun _ => exists_fixedBytes
  · exact Throws.bind huint fun _ => Throws.ite (throws_formatCheck (by decide)) (Throws.ok _)

/-- However the fields are malformed, a check has failed. -/
theorem throws_readFields {keys : List ℕ} (hkeys : ∀ key ∈ keys, 0 < key ∧ key ≤ 8)
    (f : ManifestFields) (d : Decoder) : Throws FailedCheck (readFields keys f d) := by
  induction keys generalizing f d with
  | nil => exact Throws.ok _
  | cons expected keys ih =>
    refine Throws.bind (throws_readMajorUint d 0) fun p => ?_
    by_cases hkey : p.1.toNat = expected
    · obtain ⟨hpos, hle⟩ := hkeys expected List.mem_cons_self
      simp only [hkey, ne_eq, not_true_eq_false, if_false]
      exact Throws.bind (throws_readField hpos hle f p.2) fun _ =>
        ih (fun key h => hkeys key (List.mem_cons_of_mem _ h)) _ _
    · simp only [ne_eq, hkey, not_false_eq_true, if_true]
      exact throws_formatCheck (by decide)

/-- However a manifest is malformed, a check has failed. -/
theorem throws_decodeManifest (b : Bytes) : Throws FailedCheck (decodeManifest b) := by
  refine Throws.bind (throws_take _) fun p => Throws.ite (throws_formatCheck (by decide)) ?_
  intro e he
  cases hfields : readFields [1, 2, 3, 4, 5, 6, 7, 8] {} p.2 with
  | error e' =>
    rw [hfields] at he
    cases he
    exact throws_readFields (by decide) _ _ _ hfields
  | ok q =>
    -- every field was read, so the Manifest is complete
    obtain ⟨m, hm, -⟩ := readFields_eq_ok hfields
    rw [hfields] at he
    simp only [bind, Except.bind] at he
    split at he
    · exact throws_formatCheck (by decide) e he
    · rw [hm] at he
      cases he

/-- **The Manifest encoding is canonical.** A byte string is accepted exactly when it is the encoding
of the Manifest returned. Every other byte string is an invalid format: it fails a check of the
decoder, and none of the branches for an unknown key, a missing field or a length that does not fit
is taken. -/
theorem decodeManifest_canonical (b : Bytes) :
    (∀ m, decodeManifest b = .ok m ↔ b = encodeManifest m) ∧
      ((∀ m, b ≠ encodeManifest m) → ∃ message, message ∈ formatChecks ∧
        message ∉ unreachedBranches ∧ decodeManifest b = .error (.invalidFormat message)) := by
  have hiff : ∀ m, decodeManifest b = .ok m ↔ b = encodeManifest m := by
    refine fun m => ⟨eq_encodeManifest_of_decodeManifest, ?_⟩
    rintro rfl
    exact decodeManifest_encodeManifest m
  refine ⟨hiff, fun hother => ?_⟩
  cases hdecode : decodeManifest b with
  | ok m => exact absurd ((hiff m).mp hdecode) (hother m)
  | error e =>
    obtain ⟨message, hmessage, rfl⟩ := throws_decodeManifest b e hdecode
    have hdisjoint : ∀ text ∈ formatChecks, text ∉ unreachedBranches := by decide
    exact ⟨message, hmessage, hdisjoint message hmessage, rfl⟩

end Vlt1
