import Vlt1.Checksum

/-!
# Authenticated transcripts are unambiguous

Everything VLT/1 authenticates is a byte string written by one of eight functions: the associated
data of the Root Key envelope, of a wrapped DEK, of a Manifest and of a chunk, the messages a witness
signs for a receipt and for a head, and the preimages of a version commitment and of a chunk digest.
`Transcript` has one constructor for each of them, with the fields the function is given.

The eight labels differ pairwise at a position both have (`TranscriptKind.label_separated`), although
some end in a zero byte and some do not, so the bytes of a transcript determine its kind. Within a
kind all fields but the last have a fixed width. The chunk digest repeats a record whose
ciphertext can have any length; the length is written before it, so the records can be peeled off one
by one (`chunkDigestPreimage_inj`).

A signed head writes zeros for an optional field that is missing, so that its bytes do not determine
it. `WitnessHead.Canonical` is the condition under which they do.
-/

namespace Vlt1

/-! ### The chunk digest -/

/-- What one chunk record adds to the digest. -/
def chunkRecordBytes (r : UInt32 × SealedRecord) : Bytes :=
  Bytes.be32 r.1 ++ (r.2.nonce.toList ++
    (Bytes.be64 (UInt64.ofNat r.2.ciphertext.length) ++ r.2.ciphertext))

/-- The bytes a `ChunkDigestBuilder` has hashed after a list of records. -/
def chunkDigestPreimage (records : List (UInt32 × SealedRecord)) : Bytes :=
  (records.foldl (fun d r => d.update r.1 r.2) ChunkDigestBuilder.new).hashed

/-- The digest takes the records one after the other. -/
theorem ChunkDigestBuilder.hashed_foldl (records : List (UInt32 × SealedRecord))
    (d : ChunkDigestBuilder) :
    (records.foldl (fun d r => d.update r.1 r.2) d).hashed =
      d.hashed ++ records.flatMap chunkRecordBytes := by
  induction records generalizing d with
  | nil => simp
  | cons r records ih =>
    rw [List.foldl_cons, ih, List.flatMap_cons]
    simp [ChunkDigestBuilder.update, chunkRecordBytes]

/-- What is digested: the label, then each record with its number and lengths. -/
theorem chunkDigestPreimage_eq (records : List (UInt32 × SealedRecord)) :
    chunkDigestPreimage records = chunkDigestLabel ++ records.flatMap chunkRecordBytes :=
  ChunkDigestBuilder.hashed_foldl records ChunkDigestBuilder.new

/-- The ciphertext of every record has a length that 64 bits can hold. -/
def LengthsFit (records : List (UInt32 × SealedRecord)) : Prop :=
  ∀ r ∈ records, r.2.ciphertext.length < 2 ^ 64

instance (records : List (UInt32 × SealedRecord)) : Decidable (LengthsFit records) :=
  inferInstanceAs (Decidable (∀ r ∈ records, r.2.ciphertext.length < 2 ^ 64))

private theorem be64_ofNat_inj {m n : ℕ} (hm : m < 2 ^ 64) (hn : n < 2 ^ 64)
    (h : Bytes.be64 (UInt64.ofNat m) = Bytes.be64 (UInt64.ofNat n)) : m = n := by
  have heq := congrArg UInt64.toNat (Bytes.be64_inj h)
  rwa [UInt64.toNat_ofNat_of_lt' hm, UInt64.toNat_ofNat_of_lt' hn] at heq

/-- Two transcripts that start with chunk records agree on the first record and on the rest. -/
theorem chunkRecordBytes_append_inj {a b : UInt32 × SealedRecord} {s t : Bytes}
    (ha : a.2.ciphertext.length < 2 ^ 64) (hb : b.2.ciphertext.length < 2 ^ 64)
    (h : chunkRecordBytes a ++ s = chunkRecordBytes b ++ t) : a = b ∧ s = t := by
  simp only [chunkRecordBytes, List.append_assoc] at h
  obtain ⟨hindex, h⟩ := Bytes.append_field_inj (by simp) h
  obtain ⟨hnonce, h⟩ := Bytes.append_block_inj h
  obtain ⟨hlen, h⟩ := Bytes.append_field_inj (by simp) h
  -- the length field came first, so it is known how far the ciphertext reaches
  obtain ⟨hciphertext, hrest⟩ := Bytes.append_field_inj (be64_ofNat_inj ha hb hlen) h
  exact ⟨Prod.ext (Bytes.be32_inj hindex) (SealedRecord.ext hnonce hciphertext), hrest⟩

/-- The digest's preimage determines the list of records. -/
theorem chunkDigestPreimage_inj {records records' : List (UInt32 × SealedRecord)}
    (hfit : LengthsFit records) (hfit' : LengthsFit records')
    (h : chunkDigestPreimage records = chunkDigestPreimage records') : records = records' := by
  rw [chunkDigestPreimage_eq, chunkDigestPreimage_eq] at h
  refine Bytes.flatMap_inj (fun a ha b hb s t => ?_) (fun r hr => ?_) (List.append_cancel_left h)
  · exact chunkRecordBytes_append_inj (hfit a ha) (hfit' b hb)
  · have hlen := congrArg List.length hr
    simp [chunkRecordBytes] at hlen

/-! ### Receipts and commitments -/

/-- A receipt's transcript determines what it says. -/
theorem receiptSigningBytes_inj {v v' : VaultId} {o o' : ObjectId} {u u' : VersionId}
    {e e' : UInt64} {c c' : Block 32}
    (h : receiptSigningBytes v o u e c = receiptSigningBytes v' o' u' e' c') :
    v = v' ∧ o = o' ∧ u = u' ∧ e = e' ∧ c = c' := by
  obtain ⟨hv, h⟩ := Bytes.append_field_inj (by simp) (List.append_cancel_left h)
  obtain ⟨ho, h⟩ := Bytes.append_field_inj (by simp) h
  obtain ⟨hu, h⟩ := Bytes.append_field_inj (by simp) h
  obtain ⟨he, hc⟩ := Bytes.append_field_inj (by simp) h
  exact ⟨Identifier.blob_inj.mp hv, Identifier.blob_inj.mp ho, Identifier.blob_inj.mp hu,
    Bytes.be64_inj he, Block.toList_inj.mp hc⟩

/-- A commitment's transcript determines what it says. -/
theorem commitmentPreimage_inj {v v' : VaultId} {o o' : ObjectId} {u u' : VersionId}
    {m m' : SealedRecord}
    (h : commitmentPreimage v o u m = commitmentPreimage v' o' u' m') :
    v = v' ∧ o = o' ∧ u = u' ∧ m = m' := by
  obtain ⟨hv, h⟩ := Bytes.append_field_inj (by simp) (List.append_cancel_left h)
  obtain ⟨ho, h⟩ := Bytes.append_field_inj (by simp) h
  obtain ⟨hu, h⟩ := Bytes.append_field_inj (by simp) h
  obtain ⟨hnonce, h⟩ := Bytes.append_block_inj h
  -- the ciphertext stands last, so the saturated length field is not needed
  obtain ⟨-, hciphertext⟩ := Bytes.append_field_inj (by simp) h
  exact ⟨Identifier.blob_inj.mp hv, Identifier.blob_inj.mp ho, Identifier.blob_inj.mp hu,
    SealedRecord.ext hnonce hciphertext⟩

/-! ### Kinds of transcripts -/

/-- What a transcript authenticates. -/
inductive TranscriptKind where
  | rootAad
  | wrappedDekAad
  | manifestAad
  | chunkAad
  | chunkDigest
  | commitment
  | receipt
  | head
deriving DecidableEq

namespace TranscriptKind

/-- The domain label a transcript starts with. -/
def label : TranscriptKind → Bytes
  | rootAad => rootLabel
  | wrappedDekAad => wrappedDekLabel
  | manifestAad => manifestLabel
  | chunkAad => chunkLabel
  | chunkDigest => chunkDigestLabel
  | commitment => commitmentDomain
  | receipt => receiptDomain
  | head => headDomain

/-- A position at which the labels of two kinds differ. `VLT1` and `VLT/1` differ at the fourth
byte, the labels of the vault at the sixth, a chunk and its digest at the eleventh and the three
labels of the witness at the fifteenth. -/
def splitAt : TranscriptKind → TranscriptKind → ℕ
  | chunkAad, chunkDigest | chunkDigest, chunkAad => 10
  | commitment, commitment | commitment, receipt | commitment, head => 14
  | receipt, commitment | receipt, receipt | receipt, head => 14
  | head, commitment | head, receipt | head, head => 14
  | commitment, _ | receipt, _ | head, _ | _, commitment | _, receipt | _, head => 3
  | _, _ => 5

/-- Two labels differ at a place both have. -/
theorem label_separated {k k' : TranscriptKind} (h : k ≠ k') :
    ∃ (hk : splitAt k k' < k.label.length) (hk' : splitAt k k' < k'.label.length),
      k.label.get ⟨splitAt k k', hk⟩ ≠ k'.label.get ⟨splitAt k k', hk'⟩ := by
  cases k <;> cases k' <;> first | exact absurd rfl h | decide

end TranscriptKind

/-- One authenticated byte string, by the function that writes it and what it is given. -/
inductive Transcript where
  | rootAad (vaultId : VaultId)
  | wrappedDekAad (vaultId : VaultId) (objectId : ObjectId) (versionId : VersionId)
  | manifestAad (vaultId : VaultId) (objectId : ObjectId) (versionId : VersionId)
  | chunkAad (vaultId : VaultId) (objectId : ObjectId) (versionId : VersionId)
      (chunkIndex plaintextLen : UInt32)
  | chunkDigest (records : List (UInt32 × SealedRecord))
  | commitment (vaultId : VaultId) (objectId : ObjectId) (versionId : VersionId)
      (manifest : SealedRecord)
  | receipt (vaultId : VaultId) (objectId : ObjectId) (versionId : VersionId)
      (witnessEpoch : UInt64) (commitment : Block 32)
  | head (vaultId : VaultId) (objectId : ObjectId) (present : Bool) (versionId : Option VersionId)
      (witnessEpoch : UInt64) (commitment : Option (Block 32)) (challenge : Block 32)
deriving DecidableEq

namespace Transcript

/-- The kind of a transcript. -/
def kind : Transcript → TranscriptKind
  | rootAad .. => .rootAad
  | wrappedDekAad .. => .wrappedDekAad
  | manifestAad .. => .manifestAad
  | chunkAad .. => .chunkAad
  | chunkDigest .. => .chunkDigest
  | commitment .. => .commitment
  | receipt .. => .receipt
  | head .. => .head

/-- The bytes the code writes. -/
def bytes : Transcript → Bytes
  | rootAad v => Vlt1.rootAad v
  | wrappedDekAad v o u => Vlt1.wrappedDekAad v o u
  | manifestAad v o u => Vlt1.manifestAad v o u
  | chunkAad v o u i n => Vlt1.chunkAad v o u i n
  | chunkDigest records => chunkDigestPreimage records
  | commitment v o u m => commitmentPreimage v o u m
  | receipt v o u e c => receiptSigningBytes v o u e c
  | head v o p u e c ch => headSigningBytes v o p u e c ch

/-- The ciphertexts of a chunk digest have lengths below `2 ^ 64`; the other kinds have no bound. -/
def Bounded : Transcript → Prop
  | chunkDigest records => LengthsFit records
  | _ => True

instance (t : Transcript) : Decidable t.Bounded := by
  cases t <;> unfold Bounded <;> infer_instance

/-- Every transcript begins with its label. -/
theorem bytes_eq_label_append (t : Transcript) : ∃ rest, t.bytes = t.kind.label ++ rest := by
  cases t with
  | chunkDigest records => exact ⟨_, chunkDigestPreimage_eq records⟩
  | _ => exact ⟨_, rfl⟩

/-- A byte string of one kind is never one of another kind. -/
theorem kind_eq_of_bytes_eq {s t : Transcript} (h : s.bytes = t.bytes) : s.kind = t.kind := by
  by_contra hne
  obtain ⟨u, hs⟩ := s.bytes_eq_label_append
  obtain ⟨v, ht⟩ := t.bytes_eq_label_append
  obtain ⟨hk, hk', hdiff⟩ := TranscriptKind.label_separated hne
  exact Bytes.ne_of_label _ hk hk' hdiff (hs.symm.trans (h.trans ht))

end Transcript

/-- Two transcripts with the same bytes are the same transcript, unless both are signed heads. -/
theorem transcripts_unambiguous {s t : Transcript} (hs : s.Bounded) (ht : t.Bounded)
    (h : s.bytes = t.bytes) : s = t ∨ s.kind = .head ∧ t.kind = .head := by
  have hkind := Transcript.kind_eq_of_bytes_eq h
  cases s with
  | rootAad v =>
    cases t <;> try cases hkind
    obtain rfl := rootAad_inj h
    exact .inl rfl
  | wrappedDekAad v o u =>
    cases t <;> try cases hkind
    obtain ⟨rfl, rfl, rfl⟩ := wrappedDekAad_inj h
    exact .inl rfl
  | manifestAad v o u =>
    cases t <;> try cases hkind
    obtain ⟨rfl, rfl, rfl⟩ := manifestAad_inj h
    exact .inl rfl
  | chunkAad v o u i n =>
    cases t <;> try cases hkind
    obtain ⟨rfl, rfl, rfl, rfl, rfl⟩ := chunkAad_inj h
    exact .inl rfl
  | chunkDigest records =>
    cases t <;> try cases hkind
    obtain rfl := chunkDigestPreimage_inj hs ht h
    exact .inl rfl
  | commitment v o u m =>
    cases t <;> try cases hkind
    obtain ⟨rfl, rfl, rfl, rfl⟩ := commitmentPreimage_inj h
    exact .inl rfl
  | receipt v o u e c =>
    cases t <;> try cases hkind
    obtain ⟨rfl, rfl, rfl, rfl, rfl⟩ := receiptSigningBytes_inj h
    exact .inl rfl
  | head v o p u e c ch => exact .inr ⟨rfl, hkind.symm⟩

/-- The digest of two records determines both of them. -/
theorem transcripts_unambiguous_records :
    let one : SealedRecord := ⟨.zero 12, [1, 2, 3]⟩
    let digest := Transcript.chunkDigest [(0, one), (1, one)]
    digest.Bounded ∧ (digest = digest ∨ digest.kind = .head ∧ digest.kind = .head) :=
  ⟨by decide, transcripts_unambiguous (by decide) (by decide) rfl⟩

/-! ### Signed heads -/

namespace WitnessHead

/-- An absent head carries neither optional field and has epoch zero; a present head carries both. -/
structure Canonical (h : WitnessHead) : Prop where
  absent : h.present = false → h.versionId = none ∧ h.commitment = none ∧ h.witnessEpoch = 0
  present : h.present = true → h.versionId.isSome = true ∧ h.commitment.isSome = true

/-- Two heads state the same facts about the same object for the same challenge. -/
structure SameFacts (h h' : WitnessHead) : Prop where
  vaultId : h.vaultId = h'.vaultId
  objectId : h.objectId = h'.objectId
  present : h.present = h'.present
  versionId : h.versionId = h'.versionId
  witnessEpoch : h.witnessEpoch = h'.witnessEpoch
  commitment : h.commitment = h'.commitment
  challenge : h.challenge = h'.challenge

/-- A canonical head is present exactly when it has both fields. -/
theorem Canonical.present_eq {h : WitnessHead} (hc : h.Canonical) :
    h.present = (h.versionId.isSome && h.commitment.isSome) := by
  cases hp : h.present with
  | false => simp [hc.absent hp]
  | true => simp [hc.present hp]

/-- The signature of a canonical head binds all of its facts. -/
theorem Canonical.sameFacts {h h' : WitnessHead} (hc : h.Canonical) (hc' : h'.Canonical)
    (hbytes : h.signingBytes = h'.signingBytes) : h.SameFacts h' := by
  obtain ⟨hv, ho, hp, -, he, -, hch⟩ := headSigningBytes_fields hbytes
  cases hpresent : h.present with
  | false =>
    -- neither head has an optional field, so the zeros stand for nothing in both
    obtain ⟨hu, hcm, -⟩ := hc.absent hpresent
    obtain ⟨hu', hcm', -⟩ := hc'.absent (hp ▸ hpresent)
    exact ⟨hv, ho, hp, hu.trans hu'.symm, he, hcm.trans hcm'.symm, hch⟩
  | true =>
    obtain ⟨-, -, -, hu, -, hcm, -⟩ :=
      headSigningBytes_inj hc.present_eq hc'.present_eq hpresent hbytes
    exact ⟨hv, ho, hp, hu, he, hcm, hch⟩

/-- The admission check makes a head canonical exactly when the head has both optional fields or
neither of them: the check compares `present` with their conjunction, which one field alone also
makes false. -/
theorem canonical_iff_of_new {prim : Primitives} {h : WitnessHead}
    (hnew : WitnessHead.new prim h = .ok h) :
    h.Canonical ↔ h.versionId.isSome = h.commitment.isSome := by
  obtain ⟨hpresent, hepoch, -, -⟩ := new_eq_ok.mp hnew
  constructor
  · intro hc
    cases hp : h.present with
    | false => rw [(hc.absent hp).1, (hc.absent hp).2.1]; rfl
    | true => rw [(hc.present hp).1, (hc.present hp).2]
  · intro hboth
    rw [hboth, Bool.and_self] at hpresent
    refine ⟨fun hp => ?_, fun hp => ?_⟩
    · have hcm : h.commitment.isSome = false := hpresent.symm.trans hp
      exact ⟨Option.not_isSome_iff_eq_none.mp (by rw [hboth, hcm]; decide),
        Option.not_isSome_iff_eq_none.mp (by rw [hcm]; decide), hepoch hp⟩
    · have hcm : h.commitment.isSome = true := hpresent.symm.trans hp
      exact ⟨hboth.trans hcm, hcm⟩

end WitnessHead

/-- An optional field is parsed exactly when it is there. -/
theorem transposeMap_isSome {α β : Type} {f : α → Except VaultError β} {a : Option α}
    {b : Option β} (h : transposeMap f a = .ok b) : b.isSome = a.isSome := by
  cases a with
  | none => cases h; rfl
  | some a =>
    change Except.map some (f a) = .ok b at h
    cases hf : f a with
    | error e => rw [hf] at h; cases h
    | ok x => rw [hf] at h; cases h; rfl

namespace HeadWireResponse

/-- The response carries a version id and a commitment, or neither. -/
def CarriesBothOrNeither (r : HeadWireResponse) : Prop :=
  r.versionId.isSome = r.commitment.isSome

/-- The optional fields of an accepted head are those of the response. -/
theorem isSome_of_intoHead {prim : Primitives} {r : HeadWireResponse} {h : WitnessHead}
    (hr : r.intoHead prim = .ok h) :
    h.versionId.isSome = r.versionId.isSome ∧ h.commitment.isSome = r.commitment.isSome := by
  simp only [intoHead, Effect.except_bind_eq_ok] at hr
  obtain ⟨_, hversion, _, hcommitment, _, -, _, -, _, -, _, -, _, -, hnew⟩ := hr
  obtain ⟨-, -, -, rfl⟩ := WitnessHead.new_eq_ok.mp hnew
  exact ⟨transposeMap_isSome hversion, transposeMap_isSome hcommitment⟩

/-- A parsed head is canonical exactly when its answer carried both fields or neither. -/
theorem canonical_iff {prim : Primitives} {r : HeadWireResponse} {h : WitnessHead}
    (hr : r.intoHead prim = .ok h) : h.Canonical ↔ r.CarriesBothOrNeither := by
  obtain ⟨hversion, hcommitment⟩ := isSome_of_intoHead hr
  rw [WitnessHead.canonical_iff_of_new (new_of_intoHead hr), hversion, hcommitment,
    CarriesBothOrNeither]

end HeadWireResponse

/-- Two accepted responses yield canonical heads whose signed bytes bind all their facts exactly when
each response carries the version id and the commitment together or not at all. -/
theorem accepted_heads_bound_iff {prim : Primitives} {r r' : HeadWireResponse}
    {h h' : WitnessHead} (hr : r.intoHead prim = .ok h) (hr' : r'.intoHead prim = .ok h') :
    (h.Canonical ∧ h'.Canonical ∧ (h.signingBytes = h'.signingBytes → h.SameFacts h')) ↔
      r.CarriesBothOrNeither ∧ r'.CarriesBothOrNeither := by
  rw [← HeadWireResponse.canonical_iff hr, ← HeadWireResponse.canonical_iff hr']
  constructor
  · rintro ⟨hc, hc', -⟩
    exact ⟨hc, hc'⟩
  · rintro ⟨hc, hc'⟩
    exact ⟨hc, hc', hc.sameFacts hc'⟩

/-- A signed head for an object the witness never acknowledged. -/
def absentHead : WitnessHead :=
  WitnessHead.issue Primitives.checksum ⟨.zero 16⟩ ⟨.zero 16⟩ none (.zero 32) (.zero 32)

/-- The response of the witness for it. -/
def absentResponse : HeadWireResponse := .ofHead absentHead

/-- The same response with a version id of sixteen zero bytes put in on the way. -/
def alteredResponse : HeadWireResponse :=
  { absentResponse with versionId := some (hexEncode (Block.zero 16).toList) }

/-- The answer without a head is accepted. -/
theorem intoHead_absentResponse :
    absentResponse.intoHead Primitives.checksum = .ok absentHead := by
  rw [absentResponse, HeadWireResponse.intoHead_ofHead]
  exact WitnessHead.new_issue Primitives.signatureCorrect_checksum _ _ _ _ _

/-- The head the client makes of the altered response. -/
def alteredHead : WitnessHead := { absentHead with versionId := some ⟨.zero 16⟩ }

theorem alteredResponse_eq : alteredResponse = .ofHead alteredHead := rfl

/-- The altered answer is accepted as well. -/
theorem intoHead_alteredResponse :
    alteredResponse.intoHead Primitives.checksum = .ok alteredHead := by
  rw [alteredResponse_eq, HeadWireResponse.intoHead_ofHead]
  -- the signed bytes are those of the absent head, so its signature still verifies
  have hsigned := (WitnessHead.new_eq_ok.mp
    (HeadWireResponse.new_of_intoHead intoHead_absentResponse)).2.2.1
  exact WitnessHead.new_eq_ok.mpr ⟨rfl, fun _ => rfl, hsigned, rfl⟩

/-- A signed head for an object whose first version was acknowledged. -/
def presentHead : WitnessHead :=
  WitnessHead.issue Primitives.checksum ⟨.zero 16⟩ ⟨.zero 16⟩
    (some (.issue Primitives.checksum ⟨⟨.zero 16⟩, ⟨.zero 16⟩, ⟨.zero 16⟩, .zero 32⟩ 1 (.zero 32)))
    (.zero 32) (.zero 32)

/-- The answer with a head is accepted. -/
theorem intoHead_presentResponse :
    (HeadWireResponse.ofHead presentHead).intoHead Primitives.checksum = .ok presentHead := by
  rw [HeadWireResponse.intoHead_ofHead]
  exact WitnessHead.new_issue Primitives.signatureCorrect_checksum _ _ _ _ _

/-- The heads of an acknowledged and of an absent object are canonical, and their signed bytes differ although
all the fields of the first are zero but its epoch. -/
theorem accepted_heads_bound_sample :
    presentHead.Canonical ∧ absentHead.Canonical ∧ presentHead.signingBytes ≠ absentHead.signingBytes := by
  obtain ⟨hpresent, habsent, hbound⟩ :=
    (accepted_heads_bound_iff intoHead_presentResponse intoHead_absentResponse).mpr ⟨rfl, rfl⟩
  exact ⟨hpresent, habsent, fun heq => absurd (hbound heq).present (by decide)⟩

/-- The client accepts the altered response under the witness's signature: a head that is absent
and carries a version id. -/
theorem altered_head_accepted :
    absentResponse.intoHead Primitives.checksum = .ok absentHead ∧
      alteredResponse.intoHead Primitives.checksum = .ok alteredHead ∧
      absentHead.signingBytes = alteredHead.signingBytes ∧
      absentHead.signature = alteredHead.signature ∧
      ¬ alteredHead.Canonical ∧ ¬ absentHead.SameFacts alteredHead := by
  refine ⟨intoHead_absentResponse, intoHead_alteredResponse, rfl, rfl, fun hc => ?_, fun hs => ?_⟩
  · cases (hc.absent rfl).1
  · cases hs.versionId

end Vlt1
