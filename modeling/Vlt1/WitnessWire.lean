import Vlt1.Checksum
import Vlt1.WitnessService

/-!
# Client and witness agree on the wire

The two crates read and write hexadecimal text with routines of their own: the client has a digit
table and a parser of digit pairs, identifiers are formatted byte by byte, and the witness uses the
`hex` crate. The first section models each routine as it is written and shows that all of them are the
one encoder and the one decoder that the wire messages are stated with. `parseFixed_eq_ok` and
`parseId_eq_ok` then say that both parsers accept exactly the encoder's text, and
`witness_wire_agreement` that neither side reads anything but what the other side wrote.
-/

namespace Vlt1

/-! ### The routines of the two crates -/

/-- The client's `hex_encode`, which looks both halves of a byte up in a table. -/
def hexEncodeTable (value : Bytes) : Text :=
  value.flatMap fun (byte : UInt8) =>
    [hexDigits.getD (byte >>> 4).toNat 0, hexDigits.getD (byte &&& 0x0f).toNat 0]

/-- The digits that `{:x}` writes for a byte. -/
def formatLowerHex (byte : UInt8) : Text :=
  if byte < 16 then [hexDigit byte.toNat]
  else [hexDigit (byte.toNat / 16), hexDigit (byte.toNat % 16)]

/-- The `to_hex` of an identifier, which writes each byte with `{:02x}`. -/
def toHexFormatted (value : Bytes) : Text :=
  value.flatMap fun byte =>
    List.replicate (2 - (formatLowerHex byte).length) 48 ++ formatLowerHex byte

/-- The value of a nonempty text of digits, if it is below 256. -/
def digitsToByte (digits : Text) : Option ℕ := do
  guard (digits ≠ [])
  digits.foldlM (fun n c => do
    let d ← hexValue c
    guard (n * 16 + d < 256)
    return n * 16 + d) 0

/-- `u8::from_str_radix(_, 16)`, which allows a sign before the digits. -/
def fromStrRadix16 : Text → Option ℕ
  | 43 :: c :: digits => digitsToByte (c :: digits)
  | digits => digitsToByte digits

/-- The loop of `parse_fixed` over `chunks_exact(2)`. -/
def parsePairs : Text → Option Bytes
  | c :: d :: rest => do
    let byte ← fromStrRadix16 [c, d]
    let tail ← parsePairs rest
    return UInt8.ofNat byte :: tail
  | _ => some []

/-- The client's `parse_fixed` as it is written. -/
def parseFixedPairs (n : ℕ) (value : Text) (error : String) : Except VaultError (Block n) :=
  if isLowerHex n value then
    match (parsePairs value).bind (Block.ofBytes? n) with
    | some b => .ok b
    | none => .error (.invalidFormat error)
  else .error (.invalidFormat error)

/-! ### They are one encoder and one decoder -/

/-- A fact about every byte is a fact about the numbers below 256. -/
private theorem forall_byte {P : UInt8 → Prop} (h : ∀ n < 256, P (UInt8.ofNat n)) (b : UInt8) :
    P b := by
  have hb := h b.toNat b.toNat_lt
  rwa [UInt8.ofNat_toNat] at hb

private theorem halves_of_byte (b : UInt8) :
    (b >>> 4).toNat = b.toNat / 16 ∧ (b &&& 0x0f).toNat = b.toNat % 16 := by
  revert b
  exact forall_byte (by decide +kernel)

/-- A digit has a value below 16, and unless it is an uppercase letter it is the digit of that
value. -/
theorem hexDigit_of_hexValue (c : UInt8) :
    ∀ d ∈ hexValue c, d < 16 ∧ (isAsciiUppercase c = false → hexDigit d = c) := by
  revert c
  exact forall_byte (by decide +kernel)

theorem hexEncodeTable_eq (value : Bytes) : hexEncodeTable value = hexEncode value := by
  induction value with
  | nil => rfl
  | cons b value ih =>
    obtain ⟨hhi, hlo⟩ := halves_of_byte b
    rw [hexEncode, ← ih, hexDigit, hexDigit, ← hhi, ← hlo]
    rfl

theorem toHexFormatted_eq (value : Bytes) : toHexFormatted value = hexEncode value := by
  induction value with
  | nil => rfl
  | cons b value ih =>
    rw [hexEncode, ← ih]
    by_cases hb : b < 16
    · -- a single digit is padded, and the digit of the upper half is that zero
      have hlt : b.toNat < 16 := hb
      have hhi : b.toNat / 16 = 0 := by omega
      have hlo : b.toNat % 16 = b.toNat := Nat.mod_eq_of_lt hlt
      rw [hhi, hlo]
      simp [toHexFormatted, formatLowerHex, hb, hexDigit, hexDigits]
    · simp [toHexFormatted, formatLowerHex, hb]

/-- Decoded text without uppercase letters is the encoding of the decoded bytes. -/
theorem hexEncode_of_hexDecode {value : Text} {b : Bytes} (h : hexDecode value = some b)
    (hlower : ∀ c ∈ value, isAsciiUppercase c = false) : hexEncode b = value := by
  induction value using hexDecode.induct generalizing b with
  | case1 => cases h; rfl
  | case2 c => cases h
  | case3 c d rest ih =>
    simp only [hexDecode, Option.bind_eq_bind, Option.bind_eq_some_iff] at h
    obtain ⟨hi, hhi, lo, hlo, tail, htail, hb⟩ := h
    obtain rfl := Option.some.inj hb
    obtain ⟨hhilt, hc⟩ := hexDigit_of_hexValue c hi hhi
    obtain ⟨hlolt, hd⟩ := hexDigit_of_hexValue d lo hlo
    have hbyte : (UInt8.ofNat (16 * hi + lo)).toNat = 16 * hi + lo :=
      UInt8.toNat_ofNat_of_lt' (by omega : 16 * hi + lo < 2 ^ 8)
    rw [hexEncode, hbyte, ih htail fun x hx => hlower x (by simp [hx])]
    have hdiv : (16 * hi + lo) / 16 = hi := by omega
    have hmod : (16 * hi + lo) % 16 = lo := by omega
    rw [hdiv, hmod, hc (hlower c (by simp)), hd (hlower d (by simp))]

/-- On two digits `from_str_radix` has no sign to skip and no overflow to report. -/
theorem fromStrRadix16_pair {c d : UInt8} (hc : isAsciiHexdigit c = true) :
    fromStrRadix16 [c, d] = (do return 16 * (← hexValue c) + (← hexValue d)) := by
  have hsign : c ≠ 43 := by
    rintro rfl
    revert hc
    decide
  rw [fromStrRadix16.eq_2 _ (by rintro _ _ h; exact hsign (List.cons.inj h).1)]
  obtain ⟨hi, hhi⟩ := Option.isSome_iff_exists.mp hc
  cases hlo : hexValue d with
  | none => simp [digitsToByte, hhi, hlo, guard, List.foldlM]
  | some lo =>
    have hhilt := (hexDigit_of_hexValue c hi hhi).1
    have hlolt := (hexDigit_of_hexValue d lo hlo).1
    have hfirst : hi < 256 := by omega
    have hboth : hi * 16 + lo < 256 := by omega
    simp [digitsToByte, hhi, hlo, guard, List.foldlM, hfirst, hboth, Nat.mul_comm]

theorem parsePairs_eq {value : Text} (hdigits : ∀ c ∈ value, isAsciiHexdigit c = true)
    (heven : value.length % 2 = 0) : parsePairs value = hexDecode value := by
  induction value using hexDecode.induct with
  | case1 => rfl
  | case2 c => simp at heven
  | case3 c d rest ih =>
    have hrest := ih (fun x hx => hdigits x (by simp [hx])) (by simp at heven; omega)
    rw [parsePairs, hexDecode, fromStrRadix16_pair (hdigits c (by simp)), hrest]
    cases hexValue c <;> cases hexValue d <;> rfl

theorem isLowerHex_iff {n : ℕ} {value : Text} :
    isLowerHex n value = true ↔ value.length = n * 2 ∧
      ∀ c ∈ value, isAsciiHexdigit c = true ∧ isAsciiUppercase c = false := by
  simp [isLowerHex]

/-- The parser of digit pairs is the parser by standard decoding. -/
theorem parseFixedPairs_eq (n : ℕ) (value : Text) (error : String) :
    parseFixedPairs n value error = parseFixed n value error := by
  unfold parseFixedPairs parseFixed
  by_cases h : isLowerHex n value = true
  · obtain ⟨hlen, hdigits⟩ := isLowerHex_iff.mp h
    have hpairs := parsePairs_eq (fun c hc => (hdigits c hc).1) (by omega)
    cases hblock : (hexDecode value).bind (Block.ofBytes? n) with
    | none => simp only [if_pos h, hpairs, hblock]
    | some b => simp only [if_pos h, hpairs, hblock]
  · rw [if_neg h, if_neg h]

/-! ### Both parsers accept exactly the encoder's text -/

/-- The client's parser accepts the lowercase encoding of `n` bytes and nothing else. -/
theorem parseFixed_eq_ok {n : ℕ} {value : Text} {error : String} {b : Block n} :
    parseFixed n value error = .ok b ↔ value = hexEncode b.toList := by
  constructor
  · intro h
    unfold parseFixed at h
    split at h
    · rename_i hlower
      split at h
      · rename_i x hx
        obtain rfl := Except.ok.inj h
        obtain ⟨bytes, hdecode, hblock⟩ := Option.bind_eq_some_iff.mp hx
        rw [← Block.ofBytes?_eq_some.mp hblock]
        exact (hexEncode_of_hexDecode hdecode fun c hc => ((isLowerHex_iff.mp hlower).2 c hc).2).symm
      · cases h
    · cases h
  · rintro rfl
    exact parseFixed_hexEncode b error

/-- The witness's parser accepts the lowercase encoding of `n` bytes and nothing else. -/
theorem parseId_eq_ok {n : ℕ} {value : Text} {error : String} {b : Block n} :
    parseId n value error = .ok b ↔ value = hexEncode b.toList := by
  constructor
  · intro h
    unfold parseId at h
    split at h
    · rename_i hlower
      split at h
      · rename_i bytes hdecode
        rw [← fixedBytes_eq_ok.mp h]
        exact (hexEncode_of_hexDecode hdecode fun c hc => ((isLowerHex_iff.mp hlower).2 c hc).2).symm
      · cases h
    · cases h
  · rintro rfl
    exact parseId_hexEncode b error

/-! ### The wire messages -/

/-- How a value of type `WitnessHead` comes about: its fields are private, and only these two
functions build one. -/
inductive WitnessHead.Built (prim : Primitives) : WitnessHead → Prop
  /-- A head read by a client passed the admission check. -/
  | admitted {h : WitnessHead} (hnew : WitnessHead.new prim h = .ok h) : Built prim h
  /-- A head was issued by a witness. -/
  | issued (vaultId : VaultId) (objectId : ObjectId) (receipt : Option WitnessReceipt)
      (challenge signingKey : Block 32) :
      Built prim (.issue prim vaultId objectId receipt challenge signingKey)

/-- A head is admitted when its signature verifies, however it was built. -/
theorem WitnessHead.Built.new_of_signature {prim : Primitives} {h : WitnessHead}
    (hbuilt : h.Built prim)
    (hsigned : verifySignature prim h.publicKey h.signingBytes h.signature = .ok ()) :
    WitnessHead.new prim h = .ok h := by
  cases hbuilt with
  | admitted hnew => exact hnew
  | issued v o receipt c k =>
    refine WitnessHead.new_eq_ok.mpr ⟨?_, ?_, hsigned, rfl⟩
    · cases receipt <;> rfl
    · cases receipt <;> simp [WitnessHead.issue]

/-- Each side of the witness protocol reads back exactly what the other side wrote, and both parsers
of hexadecimal text accept exactly the lowercase encoding of a value of their width. -/
theorem witness_wire_agreement (prim : Primitives) :
    (∀ request expectedEpoch,
      parseIssue (.fromRequest request expectedEpoch) = .ok ⟨request, expectedEpoch⟩) ∧
    (∀ v o challenge, parseHead (.fromQuery v o challenge) = .ok ⟨v, o, challenge⟩) ∧
    (∀ r : WitnessReceipt, r.Valid prim →
      (IssueWireResponse.ofReceipt r).intoReceipt prim = .ok r) ∧
    (∀ h : WitnessHead, h.Built prim →
      verifySignature prim h.publicKey h.signingBytes h.signature = .ok () →
      (HeadWireResponse.ofHead h).intoHead prim = .ok h) ∧
    (∀ (n : ℕ) (s : Text) (error : String) (b : Block n),
      (parseFixedPairs n s error = .ok b ↔ s = hexEncode b.toList) ∧
      (parseId n s error = .ok b ↔ s = hexEncode b.toList)) ∧
    (∀ b : Bytes, hexEncodeTable b = hexEncode b ∧ toHexFormatted b = hexEncode b) := by
  refine ⟨parseIssue_fromRequest, parseHead_fromQuery, fun r hr => ?_, fun h hbuilt hsigned => ?_,
    fun n s error b => ⟨?_, parseId_eq_ok⟩, fun b => ⟨hexEncodeTable_eq b, toHexFormatted_eq b⟩⟩
  · rw [IssueWireResponse.intoReceipt_ofReceipt]
    exact WitnessReceipt.new_of_valid hr
  · rw [HeadWireResponse.intoHead_ofHead]
    exact hbuilt.new_of_signature hsigned
  · rw [parseFixedPairs_eq]
    exact parseFixed_eq_ok

/-- A receipt and a head that a witness signs are read back by the client. -/
theorem witness_wire_agreement_sample :
    let request : WitnessRequest := ⟨.repeated 1, .repeated 2, .repeated 3, .zero 32⟩
    let receipt := WitnessReceipt.issue Primitives.checksum request 7 (.zero 32)
    let head := WitnessHead.issue Primitives.checksum request.vaultId request.objectId
      (some receipt) (.zero 32) (.zero 32)
    (IssueWireResponse.ofReceipt receipt).intoReceipt Primitives.checksum = .ok receipt ∧
      (HeadWireResponse.ofHead head).intoHead Primitives.checksum = .ok head := by
  intro request receipt head
  obtain ⟨-, -, hreceipt, hhead, -⟩ := witness_wire_agreement Primitives.checksum
  have hsig := Primitives.signatureCorrect_checksum
  exact ⟨hreceipt receipt (WitnessReceipt.valid_issue hsig _ _ _),
    hhead head (.issued _ _ _ _ _) (verifySignature_sign hsig _ _)⟩

end Vlt1
