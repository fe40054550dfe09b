import Vlt1.ConditionalHeads

/-!
# The development witness agrees with the real one

Tests and development use `InMemoryTestProvider`: a counter and a vector of receipts in place of the
witness's two SQL tables, with no wire format and no signature check between. The crash-recovery
tests of the vault rest on it behaving like `WitnessService`.

`Agrees` relates the two states: the counter is the vault's next epoch, and loading any head of the
vault from the tables gives the receipt the vector holds. A request takes the same branch in both,
because both look at that receipt, so every sequence of requests for one vault gets the same answers
(`development_witness_agrees`). The counter is shared by all vaults of the development witness, which is
why the requests have to be for one.
-/

namespace Vlt1

open Effect

/-- The in-process witness for tests and development. -/
@[ext]
structure InMemoryTestProvider where
  signingKey : Block 32
  nextEpoch : UInt64
  heads : List WitnessReceipt
deriving DecidableEq

namespace InMemoryTestProvider

/-- A development provider with a fixed signing seed. -/
def fromSeed (seed : Block 32) : InMemoryTestProvider where
  signingKey := seed
  nextEpoch := 1
  heads := []

/-- The receipt that is the head of an object. -/
def currentReceipt (p : InMemoryTestProvider) (vaultId : VaultId) (objectId : ObjectId) :
    Option WitnessReceipt :=
  p.heads.find? fun receipt => receipt.vaultId = vaultId ∧ receipt.objectId = objectId

/-- Replace the first receipt for the same object, or add the receipt at the end. -/
def putHead (receipt : WitnessReceipt) : List WitnessReceipt → List WitnessReceipt
  | [] => [receipt]
  | item :: rest =>
    if item.vaultId = receipt.vaultId ∧ item.objectId = receipt.objectId then receipt :: rest
    else item :: putHead receipt rest

/-- The state after a receipt became the head of its object. -/
def advanced (p : InMemoryTestProvider) (receipt : WitnessReceipt) : InMemoryTestProvider :=
  { p with nextEpoch := p.nextEpoch + 1, heads := putHead receipt p.heads }

variable (prim : Primitives)

/-- Allocate the next epoch, sign a receipt and make it the head. -/
def advance (request : WitnessRequest) : Op VaultError InMemoryTestProvider WitnessReceipt := do
  let p ← Op.get
  Op.require (p.nextEpoch.toNat + 1 < 2 ^ 64) (.invariant "witness epoch exhausted")
  let receipt := WitnessReceipt.issue prim request p.nextEpoch p.signingKey
  Op.modify fun p => p.advanced receipt
  return receipt

/-- `issue_receipt` of the development provider. -/
def issueReceipt (request : WitnessRequest) (expectedEpoch : UInt64) :
    Op VaultError InMemoryTestProvider WitnessReceipt := do
  let p ← Op.get
  match p.currentReceipt request.vaultId request.objectId with
  | some current =>
    if current.versionId = request.versionId ∧ current.commitment = request.commitment ∧
        current.witnessEpoch > expectedEpoch then
      return current
    else if current.witnessEpoch ≠ expectedEpoch then Op.fail .witnessConflict
    else advance prim request
  | none =>
    if expectedEpoch ≠ 0 then Op.fail .witnessConflict else advance prim request

/-- `object_head` of the development provider. -/
def objectHead (vaultId : VaultId) (objectId : ObjectId) (challenge : Block 32) :
    Op VaultError InMemoryTestProvider WitnessHead := do
  let p ← Op.get
  return .issue prim vaultId objectId (p.currentReceipt vaultId objectId) challenge p.signingKey

end InMemoryTestProvider

/-! ### The two witnesses as machines -/

/-- A call of a witness provider. -/
inductive WitnessCall where
  | issue (request : WitnessRequest) (expectedEpoch : UInt64)
  | head (vaultId : VaultId) (objectId : ObjectId) (challenge : Block 32)
deriving DecidableEq

/-- The vault a call is about. -/
def WitnessCall.vaultId : WitnessCall → VaultId
  | .issue request _ => request.vaultId
  | .head vaultId _ _ => vaultId

/-- What a call returns. -/
inductive WitnessAnswer where
  | receipt (receipt : WitnessReceipt)
  | head (head : WitnessHead)
deriving DecidableEq

section

variable (prim : Primitives) (signingKey : Block 32)

/-- A call of the development witness. -/
def developmentCall : WitnessCall → Op VaultError InMemoryTestProvider WitnessAnswer
  | .issue request expectedEpoch => do
    return .receipt (← InMemoryTestProvider.issueReceipt prim request expectedEpoch)
  | .head vaultId objectId challenge => do
    return .head (← InMemoryTestProvider.objectHead prim vaultId objectId challenge)

/-- The same call of the real witness: the client encodes it, the service serves it on a platform that
works, and the client decodes the response. -/
def wireCall : WitnessCall → Op VaultError WitnessDb WitnessAnswer
  | .issue request expectedEpoch => do
    let response ← issueWire prim signingKey .calm (.fromRequest request expectedEpoch)
    return .receipt (← Op.ofExcept (response.intoReceipt prim))
  | .head vaultId objectId challenge => do
    let response ← headWire prim signingKey .calm (.fromQuery vaultId objectId challenge)
    return .head (← Op.ofExcept (response.intoHead prim))

/-- A family of computations as a machine: the result and the next state. -/
def callStep {ι σ α : Type} (call : ι → Op VaultError σ α) (s : σ) (i : ι) :
    Option (Except VaultError α) × σ :=
  ((call i s).result, (call i s).state)

end

/-! ### What the vector holds -/

namespace InMemoryTestProvider

variable {p : InMemoryTestProvider} {receipt : WitnessReceipt} {v : VaultId} {o : ObjectId}

/-- The new receipt is the head of its object and the other heads stay. -/
theorem find?_putHead (heads : List WitnessReceipt) :
    (putHead receipt heads).find? (fun r => r.vaultId = v ∧ r.objectId = o) =
      if receipt.vaultId = v ∧ receipt.objectId = o then some receipt
      else heads.find? fun r => r.vaultId = v ∧ r.objectId = o := by
  induction heads with
  | nil => by_cases h : receipt.vaultId = v ∧ receipt.objectId = o <;> simp [putHead, h]
  | cons item rest ih =>
    unfold putHead
    by_cases hitem : item.vaultId = receipt.vaultId ∧ item.objectId = receipt.objectId
    · rw [if_pos hitem]
      by_cases h : receipt.vaultId = v ∧ receipt.objectId = o <;> simp [h, hitem]
    · rw [if_neg hitem, List.find?_cons, ih, List.find?_cons]
      by_cases h : receipt.vaultId = v ∧ receipt.objectId = o
      · -- the item is for another object, so the search passes it
        have hother : ¬(item.vaultId = v ∧ item.objectId = o) := by
          rintro ⟨rfl, rfl⟩
          exact hitem ⟨h.1.symm, h.2.symm⟩
        simp [h, hother]
      · simp only [if_neg h]

theorem currentReceipt_advanced :
    (p.advanced receipt).currentReceipt v o =
      if receipt.vaultId = v ∧ receipt.objectId = o then some receipt else p.currentReceipt v o :=
  find?_putHead p.heads

end InMemoryTestProvider

/-! ### The simulation -/

/-- The development witness and the tables of the real one are in the same state for a vault. -/
structure Agrees (prim : Primitives) (signingKey : Block 32) (vaultId : VaultId)
    (p : InMemoryTestProvider) (db : WitnessDb) : Prop where
  seed : p.signingKey = signingKey
  epoch : db.nextEpoch vaultId.blob = p.nextEpoch.toNat
  pos : 0 < p.nextEpoch.toNat
  /-- The counter has not left the range of the column. -/
  fits : p.nextEpoch.toNat < sqlIntegerBound
  loads : ∀ o, loadReceipt prim db vaultId o (prim.verifyingKey signingKey) =
    .ok (p.currentReceipt vaultId o)

/-- Both witnesses returned the same receipt or the same head, or both reported a conflict. -/
inductive SameAnswer : (a b : Option (Except VaultError WitnessAnswer)) → Prop
  | answered (answer : WitnessAnswer) : SameAnswer (some (.ok answer)) (some (.ok answer))
  | conflict : SameAnswer (some (.error .witnessConflict)) (some (.error .witnessConflict))

/-- The call is about the vault, and a receipt it was answered with has an epoch below the largest
that the tables can hold. -/
def WithinEpochs (vaultId : VaultId) (call : WitnessCall)
    (result : Option (Except VaultError WitnessAnswer)) : Prop :=
  call.vaultId = vaultId ∧
    ∀ receipt, result = some (.ok (.receipt receipt)) → receipt.witnessEpoch.toNat < 2 ^ 63 - 1

section

variable {prim : Primitives} {signingKey : Block 32} {vaultId : VaultId}
  {p : InMemoryTestProvider} {db : WitnessDb}

theorem Agrees.fresh : Agrees prim signingKey vaultId (.fromSeed signingKey) .empty where
  seed := rfl
  epoch := rfl
  pos := Nat.one_pos
  fits := by change 1 < sqlIntegerBound; decide
  loads _ := rfl

/-- The development witness decides as the real one does. -/
theorem InMemoryTestProvider.issueReceipt_eq (request : WitnessRequest) (e : UInt64) :
    issueReceipt prim request e p =
      match decision (p.currentReceipt request.vaultId request.objectId) ⟨request, e⟩ with
      | .answer receipt => .ok receipt p
      | .conflict => .failed .witnessConflict p
      | .advance => advance prim request p := by
  unfold issueReceipt decision
  rw [Op.bind_of_ok (Op.get_apply p)]
  cases p.currentReceipt request.vaultId request.objectId with
  | none => simp only; split <;> rfl
  | some current =>
    simp only
    split
    · rfl
    · split <;> rfl

/-- On a platform that works the service acts on the head it loads. -/
theorem issueWire_calm {request : WitnessRequest} {e : UInt64} {current : Option WitnessReceipt}
    (hload : loadReceipt prim db request.vaultId request.objectId (prim.verifyingKey signingKey) =
      .ok current) :
    (∀ r, decision current ⟨request, e⟩ = .answer r →
      issueWire prim signingKey .calm (.fromRequest request e) db = .ok (.ofReceipt r) db) ∧
    (decision current ⟨request, e⟩ = .conflict →
      issueWire prim signingKey .calm (.fromRequest request e) db =
        .failed .witnessConflict db) := by
  have hread : ServiceEnv.calm.readFails = false := rfl
  unfold issueWire
  rw [parseIssue_fromRequest, Op.ofExcept_ok, Op.pure_bind, Op.require_pos hread, Op.pure_bind,
    Op.bind_of_ok (Op.get_apply db), hload, Op.ofExcept_ok, Op.pure_bind]
  refine ⟨fun r hr => ?_, fun hc => ?_⟩
  · rw [hr]
    rfl
  · rw [hc]
    rfl

/-- An advance of the development witness while epochs last. -/
theorem InMemoryTestProvider.advance_eq (request : WitnessRequest)
    (hroom : p.nextEpoch.toNat + 1 < 2 ^ 64) :
    let receipt := WitnessReceipt.issue prim request p.nextEpoch p.signingKey
    advance prim request p = .ok receipt (p.advanced receipt) := by
  intro receipt
  rw [advance, Op.bind_of_ok (Op.get_apply p), Op.require_pos hroom]
  rfl

/-- Both witnesses advance the head of an object. -/
theorem Agrees.advanced (hsig : prim.SignatureCorrect) (h : Agrees prim signingKey vaultId p db)
    {request : WitnessRequest} {e : UInt64} {r : WitnessReceipt} (hvault : request.vaultId = vaultId)
    (hadv : Advances prim signingKey db ⟨request, e⟩ r) :
    Agrees prim signingKey vaultId (p.advanced r) (db.advanced r) := by
  subst hvault
  have hrv : r.vaultId = request.vaultId := by rw [hadv.receipt]; rfl
  have hepoch : r.witnessEpoch = p.nextEpoch := by
    have hnat := hadv.epoch.symm.trans h.epoch
    exact UInt64.toNat_inj.mp (by exact_mod_cast hnat)
  have hfits := hadv.fits
  have hbound : sqlIntegerBound < 2 ^ 64 := by decide
  have hsucc : (p.advanced r).nextEpoch.toNat = p.nextEpoch.toNat + 1 := by
    rw [InMemoryTestProvider.advanced, UInt64.toNat_add]
    refine Nat.mod_eq_of_lt ?_
    rw [hepoch] at hfits
    exact lt_trans hfits hbound
  refine ⟨h.seed, ?_, by rw [hsucc]; omega, by rw [hsucc, ← hepoch]; exact hfits, fun o => ?_⟩
  · rw [WitnessDb.nextEpoch_advanced, if_pos (congrArg _ hrv.symm), hepoch, hsucc]
    push_cast
    rfl
  · rw [InMemoryTestProvider.currentReceipt_advanced]
    by_cases ho : r.vaultId = request.vaultId ∧ r.objectId = o
    · obtain rfl := ho.2
      rw [if_pos ho]
      refine loadReceipt_eq_ok_some.mpr ⟨?_, hrv, rfl, ?_, by omega, ?_⟩
      · rw [WitnessDb.lookup_advanced, if_pos (by rw [WitnessDb.keyOf, hrv])]
      · rw [hadv.receipt]; rfl
      · rw [hadv.receipt]; exact WitnessReceipt.valid_issue hsig _ _ _
    · rw [if_neg ho]
      refine Eq.trans ?_ (h.loads o)
      have hkey : (request.vaultId.blob, o.blob) ≠ WitnessDb.keyOf r := by
        intro heq
        exact ho ⟨hrv, (Identifier.blob_inj.mp (Prod.mk.inj heq).2).symm⟩
      unfold loadReceipt
      rw [WitnessDb.lookup_advanced, if_neg hkey]

/-- A loaded head is valid, so the client accepts it. -/
theorem Agrees.valid (h : Agrees prim signingKey vaultId p db) {o : ObjectId} {r : WitnessReceipt}
    (hr : p.currentReceipt vaultId o = some r) : r.Valid prim :=
  (loadReceipt_eq_ok_some.mp ((h.loads o).trans (congrArg _ hr))).2.2.2.2.2

/-- A request for a receipt gets the same answer from both witnesses. -/
theorem Agrees.issue (hsig : prim.SignatureCorrect) (h : Agrees prim signingKey vaultId p db)
    {request : WitnessRequest} {e : UInt64} (hvault : request.vaultId = vaultId)
    (hepochs : ∀ r, (developmentCall prim (.issue request e) p).result = some (.ok (.receipt r)) →
      r.witnessEpoch.toNat < 2 ^ 63 - 1) :
    SameAnswer (developmentCall prim (.issue request e) p).result
        (wireCall prim signingKey (.issue request e) db).result ∧
      Agrees prim signingKey vaultId (developmentCall prim (.issue request e) p).state
        (wireCall prim signingKey (.issue request e) db).state := by
  subst hvault
  have hload := h.loads request.objectId
  have hdev := @InMemoryTestProvider.issueReceipt_eq prim p request e
  obtain ⟨hanswer, hconflict⟩ := issueWire_calm (e := e) hload
  -- a receipt that both return is encoded by the service and decoded by the client
  have hdecode : ∀ {r : WitnessReceipt} {db' : WitnessDb}, r.Valid prim →
      issueWire prim signingKey .calm (.fromRequest request e) db = .ok (.ofReceipt r) db' →
      wireCall prim signingKey (.issue request e) db = .ok (.receipt r) db' := by
    intro r db' hvalid hwire
    rw [wireCall, Op.bind_of_ok hwire, IssueWireResponse.intoReceipt_ofReceipt,
      WitnessReceipt.new_of_valid hvalid]
    rfl
  cases hdec : decision (p.currentReceipt request.vaultId request.objectId) ⟨request, e⟩ with
  | answer r =>
    rw [hdec] at hdev
    have hcall : developmentCall prim (.issue request e) p = .ok (.receipt r) p := by
      rw [developmentCall, Op.bind_of_ok hdev]
      rfl
    have hr := (decision_eq_answer.mp hdec).1
    rw [hcall, hdecode (h.valid hr) (hanswer r hdec)]
    exact ⟨.answered _, h⟩
  | conflict =>
    rw [hdec] at hdev
    rw [developmentCall, Op.bind_of_failed hdev, wireCall, Op.bind_of_failed (hconflict hdec)]
    exact ⟨.conflict, h⟩
  | advance =>
    rw [hdec] at hdev
    -- the development witness answers with the next epoch, which the tables can then hold
    have hroom : p.nextEpoch.toNat + 1 < 2 ^ 64 := by
      have hfits := h.fits
      have hbound : sqlIntegerBound + 1 < 2 ^ 64 := by decide
      omega
    have hcall : developmentCall prim (.issue request e) p =
        .ok (.receipt (WitnessReceipt.issue prim request p.nextEpoch p.signingKey))
          (p.advanced (WitnessReceipt.issue prim request p.nextEpoch p.signingKey)) := by
      rw [developmentCall, Op.bind_of_ok (hdev.trans (InMemoryTestProvider.advance_eq _ hroom))]
      rfl
    have hbelow : p.nextEpoch.toNat < 2 ^ 63 - 1 := hepochs _ (congrArg Outcome.result hcall)
    obtain ⟨r, hadv, hwire⟩ := issueWire_of_advance (parseIssue_fromRequest request e) hload hdec
      (by rw [h.epoch]; exact_mod_cast h.pos)
      (by rw [h.epoch]; have : sqlIntegerBound = 2 ^ 63 := rfl; omega)
    have hr : r = WitnessReceipt.issue prim request p.nextEpoch p.signingKey := by
      have hnat := hadv.epoch.symm.trans h.epoch
      have hepoch : r.witnessEpoch = p.nextEpoch := UInt64.toNat_inj.mp (by exact_mod_cast hnat)
      rw [hadv.receipt, hepoch, h.seed]
    have hvalid : r.Valid prim := by
      rw [hadv.receipt]
      exact WitnessReceipt.valid_issue hsig _ _ _
    rw [hcall, hdecode hvalid hwire, ← hr]
    exact ⟨.answered _, h.advanced hsig rfl hadv⟩

/-- A head request gets the same answer from both witnesses. -/
theorem Agrees.head (hsig : prim.SignatureCorrect) (h : Agrees prim signingKey vaultId p db)
    (o : ObjectId) (challenge : Block 32) :
    SameAnswer (developmentCall prim (.head vaultId o challenge) p).result
        (wireCall prim signingKey (.head vaultId o challenge) db).result ∧
      Agrees prim signingKey vaultId (developmentCall prim (.head vaultId o challenge) p).state
        (wireCall prim signingKey (.head vaultId o challenge) db).state := by
  let head := WitnessHead.issue prim vaultId o (p.currentReceipt vaultId o) challenge signingKey
  have hdev : developmentCall prim (.head vaultId o challenge) p = .ok (.head head) p := by
    rw [show head = WitnessHead.issue prim vaultId o (p.currentReceipt vaultId o) challenge
      p.signingKey by rw [h.seed]]
    rfl
  have hserved : headWire prim signingKey .calm (.fromQuery vaultId o challenge) db =
      .ok (.ofHead head) db := by
    have hread : ServiceEnv.calm.readFails = false := rfl
    unfold headWire
    rw [parseHead_fromQuery, Op.ofExcept_ok, Op.pure_bind, Op.require_pos hread, Op.pure_bind,
      Op.bind_of_ok (Op.get_apply db), h.loads o]
    rfl
  have hwire : wireCall prim signingKey (.head vaultId o challenge) db = .ok (.head head) db := by
    rw [wireCall, Op.bind_of_ok hserved, HeadWireResponse.intoHead_ofHead,
      WitnessHead.new_issue hsig]
    rfl
  rw [hdev, hwire]
  exact ⟨.answered _, h⟩

/-- One call. -/
theorem Agrees.step (hsig : prim.SignatureCorrect) (h : Agrees prim signingKey vaultId p db)
    (call : WitnessCall)
    (hguard : WithinEpochs vaultId call (callStep (developmentCall prim) p call).1) :
    SameAnswer (callStep (developmentCall prim) p call).1
        (callStep (wireCall prim signingKey) db call).1 ∧
      Agrees prim signingKey vaultId (callStep (developmentCall prim) p call).2
        (callStep (wireCall prim signingKey) db call).2 := by
  obtain ⟨hvault, hepochs⟩ := hguard
  cases call with
  | issue request e => exact h.issue hsig hvault hepochs
  | head v o challenge =>
    obtain rfl : v = vaultId := hvault
    exact h.head hsig o challenge

end

/-- Every sequence of calls for one vault gets the same answers from the development witness and, over
the wire, from the real one with the same signing key, as long as the epochs stay below `2 ^ 63 - 1`. -/
theorem development_witness_agrees {prim : Primitives} (hsig : prim.SignatureCorrect)
    {seed : Block 32} {vaultId : VaultId} {calls : List WitnessCall}
    (hvault : ∀ call ∈ calls, call.vaultId = vaultId)
    (hepochs : ∀ t ∈ Run.trace (callStep (developmentCall prim)) (.fromSeed seed) calls,
      ∀ receipt, t.output = some (.ok (.receipt receipt)) →
        receipt.witnessEpoch.toNat < 2 ^ 63 - 1) :
    List.Forall₂ (fun t u => SameAnswer t.output u.output)
      (Run.trace (callStep (developmentCall prim)) (.fromSeed seed) calls)
      (Run.trace (callStep (wireCall prim seed)) .empty calls) :=
  Run.forall₂_output (WithinEpochs vaultId) (fun _ _ call h hguard => h.step hsig call hguard)
    Agrees.fresh fun t ht => ⟨hvault _ (Run.input_mem _ ht), hepochs t ht⟩

/-- Two versions of one object, a repeated request, a stale request and a head. -/
def witnessCallsSample : List WitnessCall :=
  let first : WitnessRequest := ⟨.repeated 1, .repeated 2, .repeated 3, .zero 32⟩
  let second : WitnessRequest := ⟨.repeated 1, .repeated 2, .repeated 4, .zero 32⟩
  [.issue first 0, .issue first 0, .issue second 0, .issue second 1, .head (.repeated 1) (.repeated 2)
    (.zero 32)]

/-- The epoch of a receipt in an answer. -/
def epochOf : Option (Except VaultError WitnessAnswer) → ℕ
  | some (.ok (.receipt receipt)) => receipt.witnessEpoch.toNat
  | _ => 0

/-- Both witnesses answer all of them but the stale one. -/
theorem development_witness_agrees_sample :
    List.Forall₂ (fun t u => SameAnswer t.output u.output)
      (Run.trace (callStep (developmentCall .checksum)) (.fromSeed (.zero 32)) witnessCallsSample)
      (Run.trace (callStep (wireCall .checksum (.zero 32))) .empty witnessCallsSample) := by
  have hepochs : ∀ t ∈ Run.trace (callStep (developmentCall .checksum)) (.fromSeed (.zero 32))
      witnessCallsSample, ∀ receipt, t.output = some (.ok (.receipt receipt)) →
        receipt.witnessEpoch.toNat < 2 ^ 63 - 1 := by
    have hall : ∀ t ∈ Run.trace (callStep (developmentCall .checksum)) (.fromSeed (.zero 32))
        witnessCallsSample, epochOf t.output < 2 ^ 63 - 1 := by
      decide +kernel
    intro t ht receipt hout
    have hepoch := hall t ht
    rw [hout] at hepoch
    exact hepoch
  have hvault : ∀ call ∈ witnessCallsSample, call.vaultId = .repeated 1 := by decide
  exact development_witness_agrees Primitives.signatureCorrect_checksum hvault hepochs

end Vlt1
