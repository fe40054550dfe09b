import Vlt1.Daemon
import Vlt1.Library.Framing

/-!
# The local wire protocol

Every message on the daemon's socket starts with four big-endian bytes. Before a JSON frame they are
the length of its body. Before a stream item they are the length of a data chunk, or zero at the end
of the stream, or all ones before a JSON frame with an error response. The limits on the lengths keep
the three apart.

`Message.reads` says that each reader takes exactly what the writer of its kind wrote, and
`framing_unambiguous` draws the consequences for whole sequences, for inputs that are cut off, and
for lengths outside the limits. The JSON encoding is a parameter (`Codec`).
-/

namespace Vlt1.Protocol

open Effect Framing

/-- `MAX_FRAME_BYTES`. -/
def maxFrameBytes : ℕ := 16 * 1024 * 1024

/-- `MAX_STREAM_CHUNK_BYTES`. -/
def maxStreamChunkBytes : ℕ := 4 * 1024 * 1024

/-- `STREAM_END`. -/
def streamEnd : UInt32 := 0

/-- `STREAM_ERROR`. -/
def streamError : UInt32 := 0xFFFFFFFF

/-- Framing or JSON serialization error. -/
inductive ProtocolError where
  | truncated
  | invalidLength
  | invalidJson
  | io
deriving DecidableEq

/-- The JSON encoding of a type: `serde_json::to_vec` and `serde_json::from_slice`. -/
structure Codec (α : Type) where
  toVec : α → Option Bytes
  fromSlice : Bytes → Option α

/-- Decoding inverts encoding. -/
structure Codec.Inverts {α : Type} (codec : Codec α) : Prop where
  fromSlice_toVec : ∀ {a body}, codec.toVec a = some body → codec.fromSlice body = some a

open Classical in
/-- An encoding with the decoding of exactly what is written. -/
noncomputable def Codec.ofInjective {α : Type} (encode : α → Bytes) : Codec α where
  toVec a := some (encode a)
  fromSlice body := if h : ∃ a, encode a = body then some h.choose else none

/-- An encoding that loses nothing can be read back. -/
theorem Codec.ofInjective_inverts {α : Type} {encode : α → Bytes}
    (hencode : Function.Injective encode) : (Codec.ofInjective encode).Inverts where
  fromSlice_toVec {a body} h := by
    obtain rfl := Option.some.inj h
    have hex : ∃ a', encode a' = encode a := ⟨a, rfl⟩
    have hchoose : (Codec.ofInjective encode).fromSlice (encode a) = some hex.choose := dif_pos hex
    rw [hchoose, hencode hex.choose_spec]

/-- A binary item within a streamed operation. -/
inductive StreamItem where
  | data (bytes : Bytes)
  | finish
  | error (response : Response)
deriving DecidableEq

/-! ### Readers -/

/-- A computation that reads from a connection. -/
abbrev ReadOp (α : Type) := Op ProtocolError (Input UInt8) α

/-- `read_exact`. -/
def readExact (n : ℕ) : ReadOp Bytes := Framing.readExact .truncated .io n

/-- The four length bytes. -/
def readLength : ReadOp UInt32 := do
  return UInt32.ofNat (Bytes.ofBe (← readExact 4))

/-- Read and decode one bounded frame. -/
def readFrame {α : Type} (codec : Codec α) : ReadOp α := do
  let length ← readLength
  Op.require (length ≠ 0 ∧ length.toNat ≤ maxFrameBytes) .invalidLength
  let body ← readExact length.toNat
  Op.ofExcept ((codec.fromSlice body).elim (.error .invalidJson) .ok)

/-- Read one stream item. -/
def readStreamItem (responses : Codec Response) : ReadOp StreamItem := do
  let length ← readLength
  if length = streamEnd then return .finish
  else if length = streamError then return .error (← readFrame responses)
  else
    Op.require (length.toNat ≤ maxStreamChunkBytes) .invalidLength
    return .data (← readExact length.toNat)

/-! ### Writers -/

/-- Bytes after their length. -/
def prefixed (body : Bytes) : Bytes := Bytes.be32 (UInt32.ofNat body.length) ++ body

/-- The bytes of one bounded frame. -/
def writeFrame {α : Type} (codec : Codec α) (value : α) : Except ProtocolError Bytes :=
  match codec.toVec value with
  | none => .error .invalidJson
  | some body => do
    ensure (body ≠ [] ∧ body.length ≤ maxFrameBytes) .invalidLength
    return prefixed body

/-- The bytes of one non-empty chunk. -/
def writeStreamChunk (chunk : Bytes) : Except ProtocolError Bytes := do
  ensure (chunk ≠ [] ∧ chunk.length ≤ maxStreamChunkBytes) .invalidLength
  return prefixed chunk

/-- The end marker. -/
def writeStreamEnd : Except ProtocolError Bytes := .ok (Bytes.be32 streamEnd)

/-- The error marker and a response. -/
def writeStreamError (responses : Codec Response) (response : Response) :
    Except ProtocolError Bytes := do
  let frame ← writeFrame responses response
  return Bytes.be32 streamError ++ frame

/-- The bytes of a stream item. -/
def writeStreamItem (responses : Codec Response) : StreamItem → Except ProtocolError Bytes
  | .data bytes => writeStreamChunk bytes
  | .finish => writeStreamEnd
  | .error response => writeStreamError responses response

/-! ### Each reader takes what its writer wrote -/

section

variable {α : Type} {codec : Codec α} {responses : Codec Response}

/-- Four bytes are a number below 2 ^ 32. -/
theorem toNat_ofBe {header : Bytes} (h : header.length = 4) :
    (UInt32.ofNat (Bytes.ofBe header)).toNat = Bytes.ofBe header := by
  have hlt := Bytes.ofBe_lt header
  rw [h] at hlt
  rw [UInt32.toNat_ofNat']
  exact Nat.mod_eq_of_lt hlt

theorem reads_header {header : Bytes} (h : header.length = 4) :
    Reads .truncated readLength (UInt32.ofNat (Bytes.ofBe header)) header :=
  (Reads.readExact header h).map fun b => UInt32.ofNat (Bytes.ofBe b)

/-- A length is read from its own four bytes. -/
theorem reads_readLength (n : UInt32) :
    Reads .truncated readLength n (Bytes.be32 n) := by
  have hvalue : UInt32.ofNat (Bytes.ofBe (Bytes.be32 n)) = n := by
    rw [Bytes.be32, Bytes.ofBe_toBe n.toNat_lt]
    exact UInt32.ofNat_toNat
  have hread := reads_header (Bytes.length_be32 n)
  rwa [hvalue] at hread

/-- A length within the limits is written without loss. -/
theorem toNat_length {body : Bytes} (h : body.length ≤ maxFrameBytes) :
    (UInt32.ofNat body.length).toNat = body.length := by
  rw [UInt32.toNat_ofNat']
  exact Nat.mod_eq_of_lt (lt_of_le_of_lt h (by decide))

/-- A frame is read from its own bytes, and no others are consumed. -/
theorem reads_readFrame (hcodec : codec.Inverts) {value : α} {out : Bytes}
    (h : writeFrame codec value = .ok out) : Reads .truncated (readFrame codec) value out := by
  unfold writeFrame at h
  cases hbody : codec.toVec value with
  | none => rw [hbody] at h; cases h
  | some body =>
    rw [hbody] at h
    obtain ⟨_, hcheck, hout⟩ := except_bind_eq_ok.mp h
    obtain ⟨hne, hle⟩ := ensure_eq_ok.mp hcheck
    obtain rfl := Except.ok.inj hout
    have hlength := toNat_length hle
    have hnonzero : UInt32.ofNat body.length ≠ 0 := by
      intro hzero
      rw [hzero] at hlength
      exact hne (List.length_eq_zero_iff.mp hlength.symm)
    refine (reads_readLength _).bind ?_
    refine Reads.require_bind ⟨hnonzero, by rwa [hlength]⟩ ?_
    refine (Reads.readExact body hlength.symm).bind_ofExcept ?_
    rw [hcodec.fromSlice_toVec hbody]
    rfl

/-- A chunk within the limits is read as a data item. -/
theorem reads_data {bytes : Bytes} (hne : bytes ≠ []) (hle : bytes.length ≤ maxStreamChunkBytes) :
    Reads .truncated (readStreamItem responses) (.data bytes) (prefixed bytes) := by
  have hlength := toNat_length (hle.trans (by decide))
  -- neither marker is the length of a chunk within the limits
  have hend : UInt32.ofNat bytes.length ≠ streamEnd := by
    intro hzero
    rw [hzero] at hlength
    exact hne (List.length_eq_zero_iff.mp hlength.symm)
  have herror : UInt32.ofNat bytes.length ≠ streamError := by
    intro hones
    rw [hones] at hlength
    rw [← hlength] at hle
    exact absurd hle (by decide)
  refine (reads_readLength _).bind ?_
  rw [if_neg hend, if_neg herror]
  refine Reads.require_bind (by rwa [hlength]) ?_
  exact (Reads.readExact bytes hlength.symm).map StreamItem.data

/-- The end marker is read as the end. -/
theorem reads_finish :
    Reads .truncated (readStreamItem responses) .finish (Bytes.be32 streamEnd) := by
  rw [← List.append_nil (Bytes.be32 streamEnd)]
  refine (reads_readLength streamEnd).bind ?_
  exact Reads.pure StreamItem.finish

/-- A stream item is read from its own bytes, and no others are consumed. -/
theorem reads_readStreamItem (hresponses : responses.Inverts) {item : StreamItem} {out : Bytes}
    (h : writeStreamItem responses item = .ok out) :
    Reads .truncated (readStreamItem responses) item out := by
  cases item with
  | finish =>
    obtain rfl := Except.ok.inj h
    exact reads_finish
  | error response =>
    obtain ⟨frame, hframe, hout⟩ := except_bind_eq_ok.mp h
    obtain rfl := Except.ok.inj hout
    refine (reads_readLength streamError).bind ?_
    exact (reads_readFrame hresponses hframe).map StreamItem.error
  | data bytes =>
    obtain ⟨_, hcheck, hout⟩ := except_bind_eq_ok.mp h
    obtain ⟨hne, hle⟩ := ensure_eq_ok.mp hcheck
    obtain rfl := Except.ok.inj hout
    exact reads_data hne hle

/-! ### Lengths outside the limits -/

/-- The first four bytes announce a frame that is empty or too long. -/
def FrameRefused (header : Bytes) : Prop :=
  Bytes.ofBe header = 0 ∨ maxFrameBytes < Bytes.ofBe header

/-- The first four bytes announce a chunk that is too long, and are no marker. -/
def ItemRefused (header : Bytes) : Prop :=
  maxStreamChunkBytes < Bytes.ofBe header ∧ Bytes.ofBe header ≠ streamError.toNat

/-- A frame that is refused costs its header only. -/
theorem readFrame_refused {header : Bytes} (h : header.length = 4) (hrefused : FrameRefused header)
    (body : Bytes) (broken : Bool) :
    readFrame codec ⟨header ++ body, broken⟩ = .failed .invalidLength ⟨body, broken⟩ := by
  have hnot : ¬(UInt32.ofNat (Bytes.ofBe header) ≠ 0 ∧
      (UInt32.ofNat (Bytes.ofBe header)).toNat ≤ maxFrameBytes) := by
    rintro ⟨hne, hle⟩
    rw [toNat_ofBe h] at hle
    rcases hrefused with hzero | hlong
    · exact hne (by rw [hzero]; rfl)
    · omega
  rw [readFrame, Op.bind_of_ok ((reads_header h).whole body broken), Op.require_neg hnot]
  rfl

/-- An item that is refused costs its header only. -/
theorem readStreamItem_refused {header : Bytes} (h : header.length = 4)
    (hrefused : ItemRefused header) (body : Bytes) (broken : Bool) :
    readStreamItem responses ⟨header ++ body, broken⟩ =
      .failed .invalidLength ⟨body, broken⟩ := by
  obtain ⟨hlong, hmarker⟩ := hrefused
  have hvalue := toNat_ofBe h
  have hend : UInt32.ofNat (Bytes.ofBe header) ≠ streamEnd := by
    intro hzero
    rw [hzero] at hvalue
    rw [← hvalue] at hlong
    exact absurd hlong (by decide)
  have herror : UInt32.ofNat (Bytes.ofBe header) ≠ streamError := by
    intro hones
    rw [hones] at hvalue
    exact hmarker hvalue.symm
  have hnot : ¬(UInt32.ofNat (Bytes.ofBe header)).toNat ≤ maxStreamChunkBytes := by
    rw [hvalue]
    omega
  rw [readStreamItem, Op.bind_of_ok ((reads_header h).whole body broken), if_neg hend, if_neg herror,
    Op.require_neg hnot]
  rfl

/-- The frame behind an error marker is refused like any other. -/
theorem readStreamItem_error_refused {header : Bytes} (h : header.length = 4)
    (hrefused : FrameRefused header) (body : Bytes) (broken : Bool) :
    readStreamItem responses ⟨Bytes.be32 streamError ++ (header ++ body), broken⟩ =
      .failed .invalidLength ⟨body, broken⟩ := by
  rw [readStreamItem, Op.bind_of_ok ((reads_readLength streamError).whole (header ++ body) broken)]
  exact Op.bind_of_failed (readFrame_refused h hrefused body broken)

end

/-! ### Sequences of messages -/

section

variable {κ : Type} {T : κ → Type}

/-- A message: a frame with a value of one of the protocol's types, or a stream item. -/
inductive Message (T : κ → Type) where
  | frame (k : κ) (value : T k)
  | item (value : StreamItem)

/-- What the reader has to expect: a frame of some type, or a stream item. -/
inductive Kind (κ : Type) where
  | frame (k : κ)
  | item

/-- The kind of a message. -/
def Message.kind : Message T → Kind κ
  | .frame k _ => .frame k
  | .item _ => .item

variable (codec : ∀ k, Codec (T k)) (responses : Codec Response)

/-- Write a message. -/
def Message.write : Message T → Except ProtocolError Bytes
  | .frame k value => writeFrame (codec k) value
  | .item value => writeStreamItem responses value

/-- Read a message of a kind. -/
def Kind.read : Kind κ → ReadOp (Message T)
  | .frame k => do return .frame k (← readFrame (codec k))
  | .item => do return .item (← readStreamItem responses)

/-- The first four bytes announce a length outside the limits. -/
def Kind.Refuses : Kind κ → Bytes → Prop
  | .frame _, header => FrameRefused header
  | .item, header => ItemRefused header

variable {codec responses}

/-- Every message is read from its own bytes, and no others are consumed. -/
theorem Message.reads (hcodec : ∀ k, (codec k).Inverts) (hresponses : responses.Inverts)
    {m : Message T} {out : Bytes} (h : m.write codec responses = .ok out) :
    Reads .truncated (m.kind.read codec responses) m out := by
  cases m with
  | frame k value => exact (reads_readFrame (hcodec k) h).map (Message.frame k)
  | item value => exact (reads_readStreamItem hresponses h).map Message.item

/-- A message that is refused costs its header only. -/
theorem Kind.read_refused (k : Kind κ) {header : Bytes} (h : header.length = 4)
    (hrefused : k.Refuses header) (body : Bytes) (broken : Bool) :
    k.read codec responses ⟨header ++ body, broken⟩ = .failed .invalidLength ⟨body, broken⟩ := by
  cases k with
  | frame k => exact Op.bind_of_failed (readFrame_refused h hrefused body broken)
  | item => exact Op.bind_of_failed (readStreamItem_refused h hrefused body broken)

/-- **Unambiguous framing.** Reading what was written for a sequence of messages, kind by kind,
returns the messages and leaves what follows; a message that is cut off anywhere is reported as
truncated; and a length outside the limits is refused with only the length bytes taken. -/
theorem framing_unambiguous (hcodec : ∀ k, (codec k).Inverts) (hresponses : responses.Inverts) :
    (∀ ms : List (Message T × Bytes), (∀ m ∈ ms, m.1.write codec responses = .ok m.2) →
      ∀ rest broken, readAll (Kind.read codec responses) (ms.map fun m => m.1.kind)
        ⟨(ms.map Prod.snd).flatten ++ rest, broken⟩ = .ok (ms.map Prod.fst) ⟨rest, broken⟩) ∧
    (∀ (m : Message T) (out p : Bytes), m.write codec responses = .ok out → p <+: out → p ≠ out →
      ∃ s, m.kind.read codec responses ⟨p, false⟩ = .failed .truncated s) ∧
    (∀ (k : Kind κ) (header : Bytes), header.length = 4 → k.Refuses header → ∀ body broken,
      k.read codec responses ⟨header ++ body, broken⟩ = .failed .invalidLength ⟨body, broken⟩) ∧
    ∀ header : Bytes, header.length = 4 → FrameRefused header → ∀ body broken,
      readStreamItem responses ⟨Bytes.be32 streamError ++ (header ++ body), broken⟩ =
        .failed .invalidLength ⟨body, broken⟩ := by
  refine ⟨fun ms hms rest broken => ?_, fun m out p hwrite => ?_, fun k header => ?_,
    fun header => readStreamItem_error_refused⟩
  · have hall : ∀ m ∈ ms, Reads .truncated (m.1.kind.read codec responses) m.1 m.2 :=
      fun m hm => Message.reads hcodec hresponses (hms m hm)
    have hreads : Reads .truncated (readAll (Kind.read codec responses)
        (ms.map fun m => m.1.kind)) (ms.map Prod.fst) (ms.map Prod.snd).flatten := Reads.all hall
    exact hreads.whole rest broken
  · exact (Message.reads hcodec hresponses hwrite).cut_off p
  · exact k.read_refused

end

/-- Bytes that stand for themselves. -/
def Codec.verbatim : Codec Bytes where
  toVec := some
  fromSlice := some

theorem Codec.verbatim_inverts : Codec.verbatim.Inverts where
  fromSlice_toVec h := h.symm

/-- The encoding of a single value. -/
def Codec.only {α : Type} [DecidableEq α] (a : α) (body : Bytes) : Codec α where
  toVec b := if b = a then some body else none
  fromSlice bytes := if bytes = body then some a else none

theorem Codec.only_inverts {α : Type} [DecidableEq α] (a : α) (body : Bytes) :
    (Codec.only a body).Inverts where
  fromSlice_toVec {b bytes} h := by
    obtain ⟨rfl, hbytes⟩ : b = a ∧ body = bytes := by simpa [Codec.only] using h
    simp [Codec.only, hbytes]

/-- The codec of the sample answer. -/
def sampleResponses : Codec Response := Codec.only (.ok .empty) [123, 125]

/-- A frame, a chunk, the end marker and an error answer, one after another. -/
def sampleMessages : List (Message (fun _ : Unit => Bytes) × Bytes) :=
  [(.frame () [9], [0, 0, 0, 1, 9]), (.item (.data [7, 8]), [0, 0, 0, 2, 7, 8]),
    (.item .finish, [0, 0, 0, 0]),
    (.item (.error (.ok .empty)), [255, 255, 255, 255, 0, 0, 0, 2, 123, 125])]

theorem framing_unambiguous_sample :
    Codec.verbatim.Inverts ∧ sampleResponses.Inverts ∧
      (∀ m ∈ sampleMessages, m.1.write (fun _ => Codec.verbatim) sampleResponses = .ok m.2) ∧
      readAll (Kind.read (fun _ => Codec.verbatim) sampleResponses)
        (sampleMessages.map fun m => m.1.kind)
        ⟨(sampleMessages.map Prod.snd).flatten ++ [5], false⟩ =
          .ok (sampleMessages.map Prod.fst) ⟨[5], false⟩ := by
  have hresponses : sampleResponses.Inverts := Codec.only_inverts _ _
  have hwritten : ∀ m ∈ sampleMessages,
      m.1.write (fun _ => Codec.verbatim) sampleResponses = .ok m.2 := by
    intro m hm
    simp only [sampleMessages, List.mem_cons, List.not_mem_nil, or_false] at hm
    rcases hm with rfl | rfl | rfl | rfl <;> rfl
  refine ⟨Codec.verbatim_inverts, hresponses, hwritten, ?_⟩
  exact (framing_unambiguous (fun _ => Codec.verbatim_inverts) hresponses).1 _ hwritten [5] false

end Vlt1.Protocol
