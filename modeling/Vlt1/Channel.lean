import Vlt1.ConditionalHeads
import Vlt1.Daemon

/-!
# An honest witness behind an unreliable network

The surroundings of a vault that no other program writes to, whose state files are private to their
owner (`OnDisk` takes that away again), and whose witness is one `WitnessService`. Every issue
request that ever went out stays in `sent`; at any interaction some of those requests may reach the
witness, late or once more. What happens at each interaction is read from a script of `Choice`s, so
that a statement about every script is a statement about every behaviour of the network, the
platform and the random generator.

After the end of the script everything succeeds.
-/

namespace Vlt1

open Effect

/-- What happens at one interaction. -/
structure Choice where
  /-- The requests sent so far that reach the witness before anything else, by position, and how its
  platform treats each. -/
  late : List (ℕ × ServiceEnv) := []
  fault : Fault := .none
  /-- The bytes of the random generator, continued by zeros. -/
  random : Bytes := []
  /-- How much of a write goes through, when not all of it. -/
  written : Option ℕ := none
  backup : Option BackupManifest := none
  /-- How the witness's platform treats the request of this interaction. -/
  env : ServiceEnv := .calm
  /-- The request of this interaction reaches the witness. -/
  arrives : Bool := true
  /-- The reply reaches the client. -/
  returns : Bool := true
  /-- The client dies while it waits. -/
  dies : Bool := false
deriving DecidableEq

/-- Everything succeeds. -/
def Choice.calm : Choice := {}

/-- The client meets no failure: its storage works, and the witness is reachable and answers. Other
requests may still arrive late. -/
structure Choice.Reachable (c : Choice) : Prop where
  fault : c.fault = .none
  env : c.env = .calm
  arrives : c.arrives = true
  returns : c.returns = true
  dies : c.dies = false

/-- In calm surroundings the witness can be reached. -/
theorem Choice.reachable_calm : Choice.calm.Reachable := ⟨rfl, rfl, rfl, rfl, rfl⟩

/-- The witness with the given signing key, the requests sent to it, and the script. -/
structure Channel (prim : Primitives) (signingKey : Block 32) where
  service : WitnessDb
  sent : List IssueWireRequest
  choices : List Choice
deriving DecidableEq

/-- The witness's HTTP reply to an issue request. -/
def issueReply : Outcome VaultError WitnessDb IssueWireResponse → HttpReply IssueWireResponse
  | .ok response _ => .body response
  | .failed .witnessConflict _ => .conflict
  | _ => .unavailable

/-- The witness's HTTP reply to a head request. -/
def headReply : Outcome VaultError WitnessDb HeadWireResponse → HttpReply HeadWireResponse
  | .ok response _ => .body response
  | _ => .unavailable

namespace Channel

variable {prim : Primitives} {signingKey : Block 32}

/-- The witness processes a request sent earlier. -/
def deliver (c : Channel prim signingKey) (late : ℕ × ServiceEnv) : Channel prim signingKey :=
  match c.sent[late.1]? with
  | some request =>
    { c with service := (issueWire prim signingKey late.2 request c.service).state }
  | none => c

/-- The next choice, after its late deliveries. -/
def next (c : Channel prim signingKey) : Choice × Channel prim signingKey :=
  match c.choices with
  | [] => (.calm, c)
  | choice :: rest => (choice, choice.late.foldl deliver { c with choices := rest })

/-- Random bytes from a choice. -/
def randomOf (n : ℕ) (bytes : Bytes) : Block n :=
  ⟨(bytes ++ List.replicate n 0).take n, by simp⟩

/-- A request leaves the client. -/
def send (request : IssueWireRequest) (c : Channel prim signingKey) : Channel prim signingKey :=
  { c with sent := c.sent ++ [request] }

/-- What the client hears, when the witness's reply is `reply`. -/
def hear {α : Type} (choice : Choice) (reply : HttpReply α) : Option (HttpReply α) :=
  if choice.dies then none
  else if choice.returns then some reply
  else some .unavailable

instance : Machine (Channel prim signingKey) where
  fault c := (c.next.1.fault, c.next.2)
  interfere db c := (db, c)
  files c := (.ownerPrivate, c)
  random n c := (randomOf n c.next.1.random, c.next.2)
  write _ c := (c.next.1.written, c.next.2)
  backup _ _ c := (c.next.1.backup.elim (.error .storage) .ok, c.next.2)
  elapse c := c.next.2

instance : Exclusive (Channel prim signingKey) where
  interfere_fst _ _ := rfl

instance : Transport (Channel prim signingKey) where
  postIssue request c :=
    let (choice, c) := (c.send request).next
    if choice.arrives then
      let outcome := issueWire prim signingKey choice.env request c.service
      (hear choice (issueReply outcome), { c with service := outcome.state })
    else (hear choice .unavailable, c)
  postHead request c :=
    let (choice, c) := c.next
    if choice.arrives then
      (hear choice (headReply (headWire prim signingKey choice.env request c.service)), c)
    else (hear choice .unavailable, c)

/-! ### What an interaction does to the witness -/

/-- Only requests already sent reached the witness. -/
inductive Drifts : Channel prim signingKey → Channel prim signingKey → Prop where
  | refl {c c' : Channel prim signingKey} (hservice : c'.service = c.service)
      (hsent : c'.sent = c.sent) : Drifts c c'
  | deliver {c c' c'' : Channel prim signingKey} (request : IssueWireRequest) (env : ServiceEnv)
      (hmem : request ∈ c.sent)
      (hservice : c'.service = (issueWire prim signingKey env request c.service).state)
      (hsent : c'.sent = c.sent) (h : Drifts c' c'') : Drifts c c''

/-- The late arrivals of one interaction are requests that were sent. -/
theorem drifts_foldl_deliver (late : List (ℕ × ServiceEnv)) (c : Channel prim signingKey) :
    Drifts c (late.foldl deliver c) := by
  induction late generalizing c with
  | nil => exact .refl rfl rfl
  | cons d late ih =>
    rw [List.foldl_cons]
    have hrest := ih (c.deliver d)
    cases hget : c.sent[d.1]? with
    | none =>
      have hsame : c.deliver d = c := by simp only [deliver, hget]
      rw [hsame] at hrest ⊢
      exact hrest
    | some request =>
      refine .deliver request d.2 (List.mem_of_getElem? hget) ?_ ?_ hrest
      · simp only [deliver, hget]
      · simp only [deliver, hget]

/-- What the witness does depends on its tables and on what was sent. -/
theorem Drifts.congr_left {c d e : Channel prim signingKey} (h : Drifts d e)
    (hservice : d.service = c.service) (hsent : d.sent = c.sent) : Drifts c e := by
  cases h with
  | refl hservice' hsent' => exact .refl (hservice'.trans hservice) (hsent'.trans hsent)
  | deliver request env hmem hservice' hsent' h =>
    exact .deliver request env (hsent ▸ hmem) (hservice ▸ hservice') (hsent'.trans hsent) h

/-- Between two calls only late requests reach the witness. -/
theorem drifts_next (c : Channel prim signingKey) : Drifts c c.next.2 := by
  unfold next
  split
  · exact .refl rfl rfl
  · exact (drifts_foldl_deliver _ _).congr_left rfl rfl

/-- A move of the machine lets late requests through, and nothing else. -/
theorem drifts_of_moves {c c' : Channel prim signingKey} (h : Machine.Moves c c') :
    Drifts c c' := by
  cases h with
  | fault => exact drifts_next c
  | files => exact .refl rfl rfl
  | random n => exact drifts_next c
  | write b => exact drifts_next c
  | backup destination db => exact drifts_next c
  | elapse => exact drifts_next c

/-- Late requests are sent no second time. -/
theorem Drifts.sent_eq {c c' : Channel prim signingKey} (h : Drifts c c') : c'.sent = c.sent := by
  induction h with
  | refl _ hsent => exact hsent
  | deliver _ _ _ _ hsent _ ih => exact ih.trans hsent

/-- What every delivery keeps, a drift keeps. -/
theorem Drifts.keeps {P : WitnessDb → Prop} {c c' : Channel prim signingKey} (h : Drifts c c')
    (hdeliver : ∀ request ∈ c.sent, ∀ env db, P db →
      P (issueWire prim signingKey env request db).state) (hc : P c.service) : P c'.service := by
  induction h with
  | refl hservice _ => rwa [hservice]
  | deliver request env hmem hservice hsent _ ih =>
    refine ih (fun r hr => hdeliver r (hsent ▸ hr)) ?_
    rw [hservice]
    exact hdeliver request hmem env _ hc

/-- The state files are always private. -/
theorem enforceOwnerPrivateStateFiles_eq (w : World (Channel prim signingKey)) :
    enforceOwnerPrivateStateFiles w = .ok () w := rfl

/-- Over the plain channel the files are always the owner's own. -/
theorem fails_enforceOwnerPrivateStateFiles {P : VaultError → Prop} :
    Op.Fails P (enforceOwnerPrivateStateFiles (ω := Channel prim signingKey)) :=
  fun w e w' h => by cases h

/-- What becomes of a request for a head. -/
theorem postHead_eq (request : HeadWireRequest) (c : Channel prim signingKey) :
    Transport.postHead request c =
      if c.next.1.arrives then
        (hear c.next.1 (headReply (headWire prim signingKey c.next.1.env request c.next.2.service)),
          c.next.2)
      else (hear c.next.1 .unavailable, c.next.2) := rfl

/-- What becomes of a request for a receipt: it is sent, and may be served at once. -/
theorem postIssue_eq (request : IssueWireRequest) (c : Channel prim signingKey) :
    Transport.postIssue request c =
      if (c.send request).next.1.arrives then
        (hear (c.send request).next.1 (issueReply (issueWire prim signingKey
            (c.send request).next.1.env request (c.send request).next.2.service)),
          { (c.send request).next.2 with
            service := (issueWire prim signingKey (c.send request).next.1.env request
              (c.send request).next.2.service).state })
      else (hear (c.send request).next.1 .unavailable, (c.send request).next.2) := rfl

/-- A head query lets requests arrive late and does nothing else. -/
theorem postHead_snd (request : HeadWireRequest) (c : Channel prim signingKey) :
    (Transport.postHead request c).2 = c.next.2 := by
  rw [postHead_eq]
  split <;> rfl

/-- A request is sent and others may arrive late; then the witness may process it. -/
theorem postIssue_snd (request : IssueWireRequest) (c : Channel prim signingKey) :
    (Transport.postIssue request c).2 = (c.send request).next.2 ∨
      ∃ env, (Transport.postIssue request c).2 = { (c.send request).next.2 with
        service := (issueWire prim signingKey env request (c.send request).next.2.service).state } := by
  rw [postIssue_eq]
  split
  · exact .inr ⟨_, rfl⟩
  · exact .inl rfl

/-- What every request to the witness keeps of its tables, every step of the process keeps. -/
theorem stepRelation_service {P : WitnessDb → Prop}
    (hP : ∀ request env db, P db → P (issueWire prim signingKey env request db).state) :
    StepRelation fun w w' : World (Channel prim signingKey) =>
      P w.outside.service → P w'.outside.service where
  refl _ h := h
  trans _ _ _ h h' hw := h' (h hw)
  move _ _ hmove hw := (drifts_of_moves hmove).keeps (fun r _ env db => hP r env db) hw
  interfere _ h := h
  sink _ _ h := h
  observe _ _ _ h := h
  sealing _ _ _ h := h
  locked _ h := h
  vault _ _ h := h
  commit _ _ h := h
  request _ _ _ h := h

/-- The witness has heard of nothing, and nothing is on its way to it. -/
structure Unused (c : Channel prim signingKey) : Prop where
  service : c.service = .empty
  sent : c.sent = []

/-- An unused witness stays unused while nothing is sent to it. -/
theorem Unused.drift {c c' : Channel prim signingKey} (h : c.Unused) (hdrift : Drifts c c') :
    c'.Unused := by
  refine ⟨hdrift.keeps (P := (· = .empty)) (fun request hmem => ?_) h.service,
    hdrift.sent_eq.trans h.sent⟩
  rw [h.sent] at hmem
  cases hmem

/-- Only a request for a receipt makes the witness known. -/
instance : StepRelation fun w w' : World (Channel prim signingKey) =>
    w.outside.Unused → w'.outside.Unused where
  refl _ h := h
  trans _ _ _ h h' hw := h' (h hw)
  move _ _ hmove hw := hw.drift (drifts_of_moves hmove)
  interfere _ h := h
  sink _ _ h := h
  observe _ _ _ h := h
  sealing _ _ _ h := h
  locked _ h := h
  vault _ _ h := h
  commit _ _ h := h
  request _ _ _ h := h

/-- What serving a request keeps, a request for a head keeps. -/
theorem postHead_keeps {P : WitnessDb → Prop}
    (hP : ∀ request env db, P db → P (issueWire prim signingKey env request db).state)
    (request : HeadWireRequest) {c : Channel prim signingKey} (h : P c.service) :
    P (Transport.postHead request c).2.service := by
  rw [postHead_snd]
  exact (drifts_next _).keeps (fun r _ env db => hP r env db) h

/-- What serving a request keeps, a request for a receipt keeps. -/
theorem postIssue_keeps {P : WitnessDb → Prop}
    (hP : ∀ request env db, P db → P (issueWire prim signingKey env request db).state)
    (request : IssueWireRequest) {c : Channel prim signingKey} (h : P c.service) :
    P (Transport.postIssue request c).2.service := by
  have hnext : P (c.send request).next.2.service :=
    (drifts_next _).keeps (fun r _ env db => hP r env db) h
  rcases postIssue_snd request c with hsame | ⟨env, hissued⟩
  · rw [hsame]
    exact hnext
  · rw [hissued]
    exact hP _ env _ hnext

/-- What serving a request keeps, the HTTPS client keeps. -/
theorem keeps_service {P : WitnessDb → Prop}
    (hP : ∀ request env db, P db → P (issueWire prim signingKey env request db).state)
    (p : HttpsWitnessProvider) :
    (p.provider prim).Keeps fun w w' : World (Channel prim signingKey) =>
      P w.outside.service → P w'.outside.service where
  head v o x w h := by
    show P ((p.provider prim).objectHead v o x w.outside).state.service
    rw [HttpsWitnessProvider.objectHead_state]
    exact postHead_keeps hP _ h
  issue r e w h := by
    show P ((p.provider prim).issueReceipt r e w.outside).state.service
    rw [HttpsWitnessProvider.issueReceipt_state]
    exact postIssue_keeps hP _ h

/-! ### A head query -/

/-- A body the client hears is the body of the reply. -/
theorem hear_eq_body {α : Type} {choice : Choice} {reply : HttpReply α} {a : α}
    (h : hear choice reply = some (.body a)) : reply = .body a := by
  unfold hear at h
  split at h
  · cases h
  · split at h
    · exact Option.some.inj h
    · cases h

/-- A head that comes back is the head the witness holds. -/
theorem objectHead_honest (hsig : prim.SignatureCorrect) {p : HttpsWitnessProvider} {v : VaultId}
    {o : ObjectId} {x : Block 32} {head : WitnessHead} {c c' : Channel prim signingKey}
    (h : (p.provider prim).objectHead v o x c = .ok head c') :
    ∃ stored, loadReceipt prim c.next.2.service v o (prim.verifyingKey signingKey) = .ok stored ∧
      head = .issue prim v o stored x signingKey := by
  obtain ⟨response, c1, hpost, hrest⟩ := Op.bind_eq_ok.mp h
  obtain ⟨head', c2, hinto, hchecks⟩ := Op.bind_eq_ok.mp hrest
  obtain ⟨hinto, -⟩ := Op.ofExcept_eq_ok.mp hinto
  obtain rfl : head' = head := by
    obtain ⟨_, _, -, hchecks1⟩ := Op.bind_eq_ok.mp hchecks
    obtain ⟨_, _, -, hreturn⟩ := Op.bind_eq_ok.mp hchecks1
    cases hreturn
    rfl
  -- the body that came back is the witness's answer
  have hbody : ∃ db', headWire prim signingKey c.next.1.env (.fromQuery v o x) c.next.2.service =
      .ok response db' := by
    unfold post at hpost
    rw [postHead_eq] at hpost
    cases harrives : c.next.1.arrives with
    | false =>
      rw [harrives, if_neg (by decide)] at hpost
      split at hpost <;> rename_i hsend <;> cases hpost
      cases hear_eq_body (Prod.mk.inj hsend).1
    | true =>
      rw [harrives, if_pos rfl] at hpost
      split at hpost <;> rename_i hsend <;> cases hpost
      have hreply := hear_eq_body (Prod.mk.inj hsend).1
      unfold headReply at hreply
      split at hreply
      · rename_i hwire
        obtain rfl := HttpReply.body.inj hreply
        exact ⟨_, hwire⟩
      · cases hreply
  obtain ⟨db', hwire⟩ := hbody
  obtain ⟨query, stored, hparse, hload, rfl⟩ := headWire_ok hwire
  rw [parseHead_fromQuery] at hparse
  obtain rfl := Except.ok.inj hparse
  rw [HeadWireResponse.intoHead_ofHead, WitnessHead.new_issue hsig] at hinto
  exact ⟨stored, hload, (Except.ok.inj hinto).symm⟩

/-- A head that a reachable witness holds reaches a client that trusts its signer. -/
theorem objectHead_of_reachable (hsig : prim.SignatureCorrect) {p : HttpsWitnessProvider} {v : VaultId}
    {o : ObjectId} {x : Block 32} {stored : Option WitnessReceipt} {c : Channel prim signingKey}
    (hreachable : c.next.1.Reachable)
    (hload : loadReceipt prim c.next.2.service v o (prim.verifyingKey signingKey) = .ok stored)
    (htrust : p.Trusts (prim.verifyingKey signingKey)) :
    (p.provider prim).objectHead v o x c = .ok (.issue prim v o stored x signingKey) c.next.2 := by
  have hwire : headWire prim signingKey .calm (.fromQuery v o x) c.next.2.service =
      .ok (.ofHead (.issue prim v o stored x signingKey)) c.next.2.service := by
    have hcalm : ServiceEnv.calm.readFails = false := rfl
    rw [headWire, parseHead_fromQuery, Op.ofExcept_ok, Op.pure_bind, Op.require_pos hcalm, Op.pure_bind,
      Op.bind_of_ok (Op.get_apply _)]
    dsimp only
    rw [hload]
    rfl
  have hpost : post (Transport.postHead (.fromQuery v o x)) c =
      .ok (HeadWireResponse.ofHead (.issue prim v o stored x signingKey)) c.next.2 := by
    unfold post
    rw [postHead_eq, hreachable.arrives, if_pos rfl, hreachable.env, hwire]
    simp only [hear, hreachable.dies, hreachable.returns, headReply]
    rfl
  have htrusted : p.checkTrustedKey (WitnessHead.issue prim v o stored x signingKey).publicKey = .ok () :=
    HttpsWitnessProvider.checkTrustedKey_eq_ok.mpr htrust
  refine Op.bind_eq_ok.mpr ⟨_, _, hpost, ?_⟩
  rw [HeadWireResponse.intoHead_ofHead, WitnessHead.new_issue hsig, Op.ofExcept_ok, Op.pure_bind,
    htrusted, Op.ofExcept_ok, Op.pure_bind, Op.require_pos ⟨rfl, rfl, rfl⟩]
  rfl

/-! ### An issue request -/

/-- A receipt that comes back is what the witness answered. -/
theorem issueReceipt_honest {p : HttpsWitnessProvider} {request : WitnessRequest} {e : UInt64}
    {r : WitnessReceipt} {c c' : Channel prim signingKey}
    (h : (p.provider prim).issueReceipt request e c = .ok r c') :
    ∃ env response, issueWire prim signingKey env (.fromRequest request e)
        (c.send (.fromRequest request e)).next.2.service = .ok response c'.service ∧
      response.intoReceipt prim = .ok r := by
  have hstate := @HttpsWitnessProvider.issueReceipt_state _ _ prim p request e c
  rw [h, Outcome.state_ok] at hstate
  obtain ⟨response, c1, hpost, hrest⟩ := Op.bind_eq_ok.mp h
  obtain ⟨r', c2, hinto, hchecks⟩ := Op.bind_eq_ok.mp hrest
  obtain ⟨hinto, -⟩ := Op.ofExcept_eq_ok.mp hinto
  obtain rfl : r' = r := by
    obtain ⟨_, _, -, hchecks1⟩ := Op.bind_eq_ok.mp hchecks
    obtain ⟨_, _, -, hchecks2⟩ := Op.bind_eq_ok.mp hchecks1
    obtain ⟨_, _, -, hreturn⟩ := Op.bind_eq_ok.mp hchecks2
    cases hreturn
    rfl
  unfold post at hpost
  rw [postIssue_eq] at hpost hstate
  cases harrives : (c.send (.fromRequest request e)).next.1.arrives with
  | false =>
    rw [harrives, if_neg (by decide)] at hpost
    split at hpost <;> rename_i hsend <;> cases hpost
    cases hear_eq_body (Prod.mk.inj hsend).1
  | true =>
    rw [harrives, if_pos rfl] at hpost hstate
    split at hpost <;> rename_i hsend <;> cases hpost
    have hreply := hear_eq_body (Prod.mk.inj hsend).1
    unfold issueReply at hreply
    split at hreply
    · rename_i hwire
      obtain rfl := HttpReply.body.inj hreply
      refine ⟨(c.send (.fromRequest request e)).next.1.env, _, ?_, hinto⟩
      rw [hstate, hwire]
      rfl
    · cases hreply
    · cases hreply

/-- A receipt the witness answers with reaches a client that trusts its signer. -/
theorem issueReceipt_of_reachable {p : HttpsWitnessProvider} {request : WitnessRequest} {e : UInt64}
    {r : WitnessReceipt} {db : WitnessDb} {c : Channel prim signingKey}
    (hreachable : (c.send (.fromRequest request e)).next.1.Reachable)
    (hwire : issueWire prim signingKey .calm (.fromRequest request e)
      (c.send (.fromRequest request e)).next.2.service = .ok (.ofReceipt r) db)
    (htrust : p.Trusts r.publicKey) (hverify : r.verifyRequest prim request = .ok ())
    (hnewer : e < r.witnessEpoch) :
    (p.provider prim).issueReceipt request e c =
      .ok r { (c.send (.fromRequest request e)).next.2 with service := db } := by
  refine HttpsWitnessProvider.issueReceipt_of_post ?_ htrust hverify hnewer
  unfold post
  rw [postIssue_eq, hreachable.arrives, if_pos rfl, hreachable.env, hwire]
  simp only [hear, hreachable.dies, hreachable.returns, issueReply]
  rfl

/-- A failure of the witness other than a conflict reaches the client as an unavailable witness. -/
theorem issueReceipt_unavailable {p : HttpsWitnessProvider} {request : WitnessRequest} {e : UInt64}
    {error : VaultError} {db : WitnessDb} {c : Channel prim signingKey}
    (hreachable : (c.send (.fromRequest request e)).next.1.Reachable)
    (hwire : issueWire prim signingKey .calm (.fromRequest request e)
      (c.send (.fromRequest request e)).next.2.service = .failed error db)
    (hconflict : error ≠ .witnessConflict) :
    (p.provider prim).issueReceipt request e c = .failed .witnessUnavailable
      { (c.send (.fromRequest request e)).next.2 with service := db } := by
  have hreply : issueReply (.failed error db) = .unavailable := by
    cases error <;> first | rfl | exact absurd rfl hconflict
  refine Op.bind_of_failed ?_
  unfold post
  rw [postIssue_eq, hreachable.arrives, if_pos rfl, hreachable.env, hwire, hreply]
  simp only [hear, hreachable.dies, hreachable.returns]
  rfl

/-! ### Requests that arrive at once or never -/

/-- No request reaches the witness late. -/
def Punctual (c : Channel prim signingKey) : Prop := ∀ choice ∈ c.choices, choice.late = []

/-- Between two calls nothing happens to the witness while no request is late. -/
theorem Punctual.next {c : Channel prim signingKey} (h : c.Punctual) :
    c.next.2.Punctual ∧ c.next.2.service = c.service := by
  unfold Channel.next
  split
  · exact ⟨h, rfl⟩
  · rename_i choice rest hchoices
    have hlate : choice.late = [] := h choice (hchoices ▸ List.mem_cons_self)
    rw [hlate]
    exact ⟨fun x hx => h x (hchoices ▸ List.mem_cons_of_mem _ hx), rfl⟩

/-- A move of the machine does nothing to the witness while no request is late. -/
theorem Punctual.moves {c c' : Channel prim signingKey} (h : c.Punctual)
    (hmove : Machine.Moves c c') : c'.Punctual ∧ c'.service = c.service := by
  cases hmove with
  | files => exact ⟨h, rfl⟩
  | fault | random n | write b | backup destination db | elapse => exact h.next

/-- While no request is late, the witness stays as it is. -/
def Unmoved (c c' : Channel prim signingKey) : Prop :=
  c.Punctual → c'.Punctual ∧ c'.service = c.service

theorem Unmoved.refl (c : Channel prim signingKey) : c.Unmoved c := fun h => ⟨h, rfl⟩

theorem Unmoved.trans {c c' c'' : Channel prim signingKey} (h : c.Unmoved c') (h' : c'.Unmoved c'') :
    c.Unmoved c'' :=
  fun hc => ⟨(h' (h hc).1).1, (h' (h hc).1).2.trans (h hc).2⟩

/-- A request for a head changes nothing at the witness. -/
theorem unmoved_postHead (request : HeadWireRequest) (c : Channel prim signingKey) :
    c.Unmoved (Transport.postHead request c).2 := by
  rw [postHead_snd]
  exact fun h => h.next

/-- Late arrivals are no choices of the surroundings to come. -/
theorem choices_foldl_deliver (late : List (ℕ × ServiceEnv)) (c : Channel prim signingKey) :
    (late.foldl deliver c).choices = c.choices := by
  induction late generalizing c with
  | nil => rfl
  | cons d late ih =>
    rw [List.foldl_cons, ih, deliver]
    split <;> rfl

/-- Every interaction takes one choice. -/
theorem choices_next (c : Channel prim signingKey) : c.next.2.choices = c.choices.tail := by
  unfold next
  cases hchoices : c.choices with
  | nil => exact hchoices
  | cons choice rest => exact choices_foldl_deliver _ _

/-- What every choice of a script satisfies, the next one and all the others do. -/
theorem next_of_forall {P : Choice → Prop} (hcalm : P .calm) {c : Channel prim signingKey}
    (h : ∀ choice ∈ c.choices, P choice) :
    P c.next.1 ∧ ∀ choice ∈ c.next.2.choices, P choice := by
  refine ⟨?_, fun choice hchoice => h choice ?_⟩
  · unfold next
    cases hchoices : c.choices with
    | nil => exact hcalm
    | cons choice rest => exact h choice (hchoices ▸ List.mem_cons_self)
  · rw [choices_next] at hchoice
    exact List.mem_of_mem_tail hchoice

/-- What every choice of a script satisfies, every choice does after a move of the machine. -/
theorem moves_of_forall {P : Choice → Prop} (hcalm : P .calm) {c c' : Channel prim signingKey}
    (h : ∀ choice ∈ c.choices, P choice) (hmove : Machine.Moves c c') :
    ∀ choice ∈ c'.choices, P choice := by
  cases hmove with
  | files => exact h
  | fault | random n | write b | backup destination db | elapse => exact (next_of_forall hcalm h).2

/-- The client meets no failure from now on. -/
def Responsive (c : Channel prim signingKey) : Prop := ∀ choice ∈ c.choices, choice.Reachable

/-- The next choice of responsive surroundings is one that reaches the witness. -/
theorem Responsive.next {c : Channel prim signingKey} (h : c.Responsive) :
    c.next.1.Reachable ∧ c.next.2.Responsive :=
  next_of_forall Choice.reachable_calm h

/-- Surroundings that are responsive stay so. -/
theorem Responsive.moves {c c' : Channel prim signingKey} (h : c.Responsive)
    (hmove : Machine.Moves c c') : c'.Responsive :=
  moves_of_forall Choice.reachable_calm h hmove

/-- The witness has the tables `db`, every request reaches it at once and is answered, and the
client's storage works. -/
structure Serves (c : Channel prim signingKey) (db : WitnessDb) : Prop where
  service : c.service = db
  punctual : c.Punctual
  reachable : ∀ choice ∈ c.choices, choice.Reachable

theorem Serves.next {c : Channel prim signingKey} {db : WitnessDb} (h : c.Serves db) :
    c.next.1.Reachable ∧ c.next.2.Serves db := by
  obtain ⟨hpunctual, hservice⟩ := h.punctual.next
  obtain ⟨hreachable, hresponsive⟩ := Responsive.next h.reachable
  exact ⟨hreachable, hservice.trans h.service, hpunctual, hresponsive⟩

/-- With working storage a statement reads the tables. -/
theorem query_of_serves {α : Type} {w : World (Channel prim signingKey)} {db : WitnessDb}
    (h : w.outside.Serves db) (body : Database → Except VaultError α) :
    query body w = Op.ofExcept (body w.db) { w with outside := w.outside.next.2 } := by
  have hfault : storageFault w = .ok () { w with outside := w.outside.next.2 } :=
    storageFault_of_none h.next.1.fault
  rw [query, Op.bind_of_ok hfault]
  rfl

end Channel

/-! ### Unruly files -/

/-- Surroundings in which the state files need not be private. -/
structure OnDisk (ω : Type) where
  inner : ω
  /-- The state files at the next permission steps; private ones after the last. -/
  files : List StateFiles

namespace OnDisk

variable {ω : Type}

instance [Transport ω] : Transport (OnDisk ω) where
  postIssue request d := ((Transport.postIssue request d.inner).1,
    { d with inner := (Transport.postIssue request d.inner).2 })
  postHead request d := ((Transport.postHead request d.inner).1,
    { d with inner := (Transport.postHead request d.inner).2 })

/-- A reply comes from the inner surroundings. -/
theorem post_eq_ok {α : Type} {send : ω → Option (HttpReply α) × ω}
    {send' : OnDisk ω → Option (HttpReply α) × OnDisk ω}
    (hsend : ∀ d, send' d = ((send d.inner).1, { d with inner := (send d.inner).2 }))
    {d d' : OnDisk ω} {a : α} (h : post send' d = .ok a d') : post send d.inner = .ok a d'.inner := by
  unfold post at h ⊢
  rw [hsend] at h
  generalize send d.inner = reply at h ⊢
  rcases reply with ⟨_ | reply, c⟩
  · cases h
  · cases reply <;> cases h
    rfl

/-- A head that comes back does so in the inner surroundings. -/
theorem objectHead_ok [Transport ω] {prim : Primitives} {p : HttpsWitnessProvider} {v : VaultId}
    {o : ObjectId} {x : Block 32} {head : WitnessHead} {d d' : OnDisk ω}
    (h : (p.provider prim).objectHead v o x d = .ok head d') :
    (p.provider prim).objectHead v o x d.inner = .ok head d'.inner := by
  obtain ⟨response, d1, hpost, hrest⟩ := Op.bind_eq_ok.mp h
  obtain ⟨head', d2, hop, hrest⟩ := Op.bind_eq_ok.mp hrest
  obtain ⟨hinto, rfl⟩ := Op.ofExcept_eq_ok.mp hop
  obtain ⟨_, d3, hop, hrest⟩ := Op.bind_eq_ok.mp hrest
  obtain ⟨htrust, rfl⟩ := Op.ofExcept_eq_ok.mp hop
  obtain ⟨_, d4, hop, hreturn⟩ := Op.bind_eq_ok.mp hrest
  obtain ⟨hbound, rfl⟩ := Op.require_eq_ok.mp hop
  cases hreturn
  refine Op.bind_eq_ok.mpr ⟨response, _, post_eq_ok (fun _ => rfl) hpost, ?_⟩
  rw [hinto, Op.ofExcept_ok, Op.pure_bind, htrust, Op.ofExcept_ok, Op.pure_bind,
    Op.require_pos hbound]
  rfl

/-- Files were taken from the front of the list, by permission steps. -/
def Takes (w w' : World (OnDisk ω)) : Prop := w'.outside.files <:+ w.outside.files

variable [Machine ω]

instance : Machine (OnDisk ω) where
  fault d := ((Machine.fault d.inner).1, { d with inner := (Machine.fault d.inner).2 })
  interfere db d :=
    ((Machine.interfere db d.inner).1, { d with inner := (Machine.interfere db d.inner).2 })
  files d := (d.files.headD .ownerPrivate, { d with files := d.files.tail })
  random n d := ((Machine.random n d.inner).1, { d with inner := (Machine.random n d.inner).2 })
  write b d := ((Machine.write b d.inner).1, { d with inner := (Machine.write b d.inner).2 })
  backup destination db d := ((Machine.backup destination db d.inner).1,
    { d with inner := (Machine.backup destination db d.inner).2 })
  elapse d := { d with inner := Machine.elapse d.inner }

instance [Exclusive ω] : Exclusive (OnDisk ω) where
  interfere_fst db d := Exclusive.interfere_fst db d.inner

/-- An interaction is one of the inner surroundings, or a look at the state files. -/
theorem moves_cases {d d' : OnDisk ω} (h : Machine.Moves d d') :
    Machine.Moves d.inner d'.inner ∧ d'.files = d.files ∨
      d'.inner = d.inner ∧ d'.files = d.files.tail := by
  cases h with
  | files => exact .inr ⟨rfl, rfl⟩
  | fault => exact .inl ⟨.fault _, rfl⟩
  | random n => exact .inl ⟨.random n _, rfl⟩
  | write b => exact .inl ⟨.write b _, rfl⟩
  | backup destination db => exact .inl ⟨.backup destination db _, rfl⟩
  | elapse => exact .inl ⟨.elapse _, rfl⟩

instance : StepRelation fun w w' : World (OnDisk ω) => Takes w w' where
  refl _ := List.suffix_rfl
  trans _ _ _ h h' := h'.trans h
  move w o hmove := by
    rcases moves_cases hmove with ⟨-, hfiles⟩ | ⟨-, hfiles⟩
    · exact (congrArg (· <:+ w.outside.files) hfiles).mpr List.suffix_rfl
    · exact (congrArg (· <:+ w.outside.files) hfiles).mpr (List.tail_suffix _)
  interfere _ := List.suffix_rfl
  sink _ _ := List.suffix_rfl
  observe _ _ _ := List.suffix_rfl
  sealing _ _ _ := List.suffix_rfl
  locked _ := List.suffix_rfl
  vault _ _ := List.suffix_rfl
  commit _ _ := List.suffix_rfl
  request _ _ _ := List.suffix_rfl

section

variable {prim : Primitives} {signingKey : Block 32}

/-- The files move and the witness does not. -/
theorem unmoved_of_moves {d d' : OnDisk (Channel prim signingKey)} (hmove : Machine.Moves d d') :
    d.inner.Unmoved d'.inner := by
  rcases moves_cases hmove with ⟨hinner, -⟩ | ⟨hinner, -⟩
  · exact fun h => h.moves hinner
  · rw [hinner]
    exact .refl _

/-- What every request to the witness keeps of its tables, every step of the process keeps. -/
theorem stepRelation_service {P : WitnessDb → Prop}
    (hP : ∀ request env db, P db → P (issueWire prim signingKey env request db).state) :
    StepRelation fun w w' : World (OnDisk (Channel prim signingKey)) =>
      P w.outside.inner.service → P w'.outside.inner.service where
  refl _ h := h
  trans _ _ _ h h' hw := h' (h hw)
  move _ _ hmove hw := by
    rcases moves_cases hmove with ⟨hinner, -⟩ | ⟨hinner, -⟩
    · exact (Channel.drifts_of_moves hinner).keeps (fun r _ env db => hP r env db) hw
    · rw [hinner]
      exact hw
  interfere _ h := h
  sink _ _ h := h
  observe _ _ _ h := h
  sealing _ _ _ h := h
  locked _ h := h
  vault _ _ h := h
  commit _ _ h := h
  request _ _ _ h := h

/-- What serving a request keeps, the HTTPS client keeps, whatever the state files are. -/
theorem keeps_service {P : WitnessDb → Prop}
    (hP : ∀ request env db, P db → P (issueWire prim signingKey env request db).state)
    (p : HttpsWitnessProvider) :
    (p.provider prim).Keeps fun w w' : World (OnDisk (Channel prim signingKey)) =>
      P w.outside.inner.service → P w'.outside.inner.service where
  head v o x w h := by
    show P ((p.provider prim).objectHead v o x w.outside).state.inner.service
    rw [HttpsWitnessProvider.objectHead_state]
    exact Channel.postHead_keeps hP _ h
  issue r e w h := by
    show P ((p.provider prim).issueReceipt r e w.outside).state.inner.service
    rw [HttpsWitnessProvider.issueReceipt_state]
    exact Channel.postIssue_keeps hP _ h

end

end OnDisk

/-- The write-ahead log is not a regular file. -/
def StateFiles.strangeWal : StateFiles :=
  { StateFiles.ownerPrivate with wal := { status := .notRegular, chmodSucceeds := true } }

/-! ### A vault to try things on -/

/-- Surroundings with executable primitives. -/
abbrev SampleChannel := Channel .checksum sampleSeed

/-- A script in which everything succeeds and every drawn value is new. -/
def Choice.script (length : ℕ) : List Choice :=
  (List.range length).map fun i => { random := [UInt8.ofNat i] }

/-- A vault created with a one-letter passphrase, in front of a fresh witness. -/
def sampleWorld : World SampleChannel :=
  (create .checksum [112] (.blank ⟨.empty, [], Choice.script 160⟩)).state

theorem create_sampleWorld :
    create .checksum [112] (.blank ⟨.empty, [], Choice.script 160⟩) = .ok () sampleWorld :=
  Outcome.eq_ok_of_result (by decide +kernel)

/-- The sample witness has issued nothing, and is honest. -/
theorem honest_sampleWorld : sampleWorld.outside.service.Honest .checksum sampleSeed := by
  have hissue : ∀ request env (db : WitnessDb), db.Honest .checksum sampleSeed →
      (issueWire .checksum sampleSeed env request db).state.Honest .checksum sampleSeed :=
    fun request env db hdb => hdb.issueWire request env
  exact @keeps_create _ _ _ (Channel.stepRelation_service hissue) .checksum [112] _
    WitnessDb.Honest.empty

/-- The trust anchor of the sample daemon. -/
def sampleTrust : HttpsWitnessProvider := ⟨Primitives.checksum.verifyingKey sampleSeed, none⟩

/-- A strict daemon. -/
def sampleConfig : DaemonConfig := ⟨some sampleTrust, false⟩

/-- The sample daemon before its first start. -/
def sampleDaemon : DaemonState SampleChannel := ⟨sampleWorld.locked, false, none, false⟩

/-- A request that meets no other thread. -/
def DaemonInput.ask (request : Request) : DaemonInput := .request {} (some request)

/-- The object of the sample runs. -/
def sampleObject : Text := (Identifier.repeated 2 : ObjectId).toHex

/-- Start, unlock and store one byte. -/
def sampleInputs : List DaemonInput := [.start, .ask (.unlock [112]), .ask (.put sampleObject [97])]

/-- One step of the sample daemon. -/
abbrev sampleStep : DaemonState SampleChannel → DaemonInput → List Frame × DaemonState SampleChannel :=
  daemonStep .checksum sampleConfig

end Vlt1
