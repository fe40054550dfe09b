import Vlt1.DaemonIntegrity
import Vlt1.Refinement

/-!
# The daemon as a map from objects to plaintexts

`vault_refines_map` is about a program that calls the library. Here the program is the daemon, and the map
is what its clients see. `MapStep` says what one exchange means for the map: what the answer acknowledges is
in the map afterwards, what it sends was in the map before. `daemon_refines_map` says that the exchanges of a
daemon, between kills, crashes and faults of the storage, are explained by one sequence of maps.

The daemon is trusted with the order of its calls only. That an unlock finds the Root Key, and not some other
key, is not assumed of the passphrases: whatever opens an envelope of the vault finds it (`EnvelopesHold`),
because every envelope stored since the vault was created was sealed over the key that opened the one before,
and the passphrases that are tried cannot tell such an envelope from one sealed under another key
(`RootEnvelope.BoundFor`).
-/

namespace Vlt1

open Effect

/-! ### What a script commits -/

/-- What was staged and is activated is in the map. -/
theorem ObjectMap.lookup_activate {m : ObjectMap} {u : VersionId} {o : ObjectId} {plaintext : Bytes}
    (h : m.staged.lookup u = some (o, plaintext)) :
    (m.apply (.activate u)).active.lookup o = some plaintext := by
  rw [apply, h]
  exact AList.lookup_insert _

/-- What some calls may commit when the map was `m` before them: of each call its first transactions. -/
inductive CommitsOf : ObjectMap → List VaultCall → List Transaction → Prop
  | nil (m : ObjectMap) : CommitsOf m [] []
  | cons {m : ObjectMap} {call : VaultCall} {calls : List VaultCall} {ts ts' all : List Transaction}
      (hall : call.Commits m all) (hts : ts <+: all)
      (h : CommitsOf (ts.foldl ObjectMap.apply m) calls ts') : CommitsOf m (call :: calls) (ts ++ ts')

/-- A call that was skipped commits nothing. -/
theorem CommitsOf.of_sublist {m : ObjectMap} {calls script : List VaultCall} {ts : List Transaction}
    (h : CommitsOf m calls ts) (hsub : calls.Sublist script) : CommitsOf m script ts := by
  induction hsub generalizing m ts with
  | slnil => exact h
  | cons call _ ih =>
    obtain ⟨all, hall⟩ := call.exists_commits m
    exact .cons hall List.nil_prefix (ih h)
  | cons_cons call _ ih =>
    cases h with
    | cons hall hts hrest => exact .cons hall hts (ih hrest)

/-- A call performs a beginning of what it may commit. -/
theorem VaultCall.Performs.exists_prefix {m : ObjectMap} {call : VaultCall}
    {output : Option (Except VaultError CallResult)} {ts : List Transaction}
    (h : call.Performs m output ts) : ∃ all, call.Commits m all ∧ ts <+: all := by
  unfold VaultCall.Performs at h
  split at h
  · exact ⟨ts, h, List.prefix_rfl⟩
  · exact h

/-- The transaction stores a plaintext of the object. -/
def Transaction.About (o : ObjectId) : Transaction → Prop
  | .publish _ o' _ | .stage _ o' _ => o' = o
  | _ => False

/-- What calls without a plaintext for the object commit is not about it. -/
theorem CommitsOf.not_about {m : ObjectMap} {calls : List VaultCall} {ts : List Transaction}
    {o : ObjectId} (h : CommitsOf m calls ts)
    (hcalls : ∀ call ∈ calls, ∀ bytes, ¬call.Supplies o bytes) : ∀ t ∈ ts, ¬t.About o := by
  induction h with
  | nil => exact fun t ht => absurd ht List.not_mem_nil
  | @cons _ call _ ts _ all hall hts _ ih =>
    have hcall := hcalls call List.mem_cons_self
    intro t ht
    rcases List.mem_append.mp ht with ht | ht
    · have hmem := hts.subset ht
      cases call with
      | put o' bytes size =>
        obtain ⟨u, rfl⟩ := hall
        rw [List.mem_singleton.mp hmem]
        rintro rfl
        exact hcall _ (.put _ _ _)
      | putFromReader o' reader size =>
        obtain ⟨u, rfl⟩ := hall
        rw [List.mem_singleton.mp hmem]
        rintro rfl
        exact hcall _ (.putFromReader _ _ _)
      | putWithWitness o' bytes =>
        obtain ⟨u, rfl⟩ := hall
        rcases List.mem_cons.mp hmem with rfl | hmem
        · rintro rfl
          exact hcall _ (.putWithWitness _ _)
        · rw [List.mem_singleton.mp hmem]
          exact not_false
      | recover =>
        obtain rfl := hall
        obtain ⟨u, -, rfl⟩ := List.mem_map.mp hmem
        exact not_false
      | rotatePassphrase =>
        obtain rfl := hall
        rw [List.mem_singleton.mp hmem]
        exact not_false
      | _ =>
        obtain rfl := hall
        exact absurd hmem List.not_mem_nil
    · exact ih (fun c hc => hcalls c (List.mem_cons_of_mem _ hc)) t ht

/-- The map has the plaintext for the object, and no other is staged for it. -/
structure ObjectMap.Keeps (o : ObjectId) (plaintext : Bytes) (m : ObjectMap) : Prop where
  active : m.active.lookup o = some plaintext
  staged : ∀ u bytes, m.staged.lookup u ≠ some (o, bytes)

/-- Transactions of other objects keep it. -/
theorem ObjectMap.Keeps.apply {m : ObjectMap} {o : ObjectId} {plaintext : Bytes}
    (h : m.Keeps o plaintext) {t : Transaction} (ht : ¬t.About o) :
    (m.apply t).Keeps o plaintext := by
  cases t with
  | publish u o' bytes =>
    refine ⟨?_, h.staged⟩
    rw [ObjectMap.apply, Table.lookup_insert_eq, if_neg fun heq => ht heq.symm]
    exact h.active
  | stage u o' bytes =>
    refine ⟨h.active, fun u' bytes' => ?_⟩
    rw [ObjectMap.apply, Table.lookup_insert_eq]
    split
    · intro heq
      exact ht (Prod.mk.inj (Option.some.inj heq)).1
    · exact h.staged u' bytes'
  | activate u =>
    rw [ObjectMap.apply]
    cases hu : m.staged.lookup u with
    | none => exact h
    | some p =>
      -- what is activated belongs to another object
      have hother : o ≠ p.1 := fun heq => h.staged u p.2 (by rw [hu, heq])
      refine ⟨?_, fun u' bytes => ?_⟩
      · rw [Table.lookup_insert_eq, if_neg hother]
        exact h.active
      · rw [Table.lookup_erase_eq]
        split
        · exact fun heq => by cases heq
        · exact h.staged u' bytes
  | rewrap => exact h

/-! ### Steps of the map -/

/-- An input of the daemon, its answer, and the map before and after it. -/
structure MapStep (prim : Primitives) (config : DaemonConfig) (input : DaemonInput)
    (frames : List Frame) (m m' : ObjectMap) : Prop where
  /-- The map takes some of the transactions of the input's calls, in their order. -/
  commits : ∃ ts, CommitsOf m (input.script prim config) ts ∧ m' = ts.foldl ObjectMap.apply m
  /-- What is acknowledged is in the map. -/
  published : ∀ versionId, .response (.ok (.published versionId)) ∈ frames →
    ∃ o plaintext, input.Supplies prim o plaintext ∧ m'.active.lookup o = some plaintext
  /-- What `get` answers is what the map had. -/
  plaintext : ∀ text, .response (.ok (.plaintext text)) ∈ frames →
    ∃ a objectId o bytes, input = .request a (some (.get objectId)) ∧
      parseRequestObjectId objectId = .ok o ∧ m.active.lookup o = some bytes ∧
      text = prim.base64Encode bytes
  /-- What a download sends is a beginning of what the map had, and all of it if it comes to its end. -/
  data : ∀ bytes, .data bytes ∈ frames →
    ∃ a objectId o, input = .request a (some (.getStream objectId)) ∧
      parseRequestObjectId objectId = .ok o ∧ bytes <+: (m.active.lookup o).getD [] ∧
      (.streamEnd ∈ frames → m.active.lookup o = some bytes)
  /-- A count is the number of objects in the map. -/
  verified : ∀ n, .response (.ok (.verified n)) ∈ frames → m.count = .ok n

/-- A run of the daemon, and the map before and after it. -/
inductive MapRun {ω : Type} (prim : Primitives) (config : DaemonConfig) : ObjectMap →
    List (Run.Transition (DaemonState ω) DaemonInput (List Frame)) → ObjectMap → Prop
  | nil (m : ObjectMap) : MapRun prim config m [] m
  | cons {m m' m'' : ObjectMap} {t : Run.Transition (DaemonState ω) DaemonInput (List Frame)}
      {ts : List (Run.Transition (DaemonState ω) DaemonInput (List Frame))}
      (h : MapStep prim config t.input t.output m m') (hrest : MapRun prim config m' ts m'') :
      MapRun prim config m (t :: ts) m''

/-- A run without uploads to the object keeps its plaintext. -/
theorem MapRun.keeps {ω : Type} {prim : Primitives} {config : DaemonConfig} {m m' : ObjectMap}
    {o : ObjectId} {plaintext : Bytes}
    {ts : List (Run.Transition (DaemonState ω) DaemonInput (List Frame))}
    (h : MapRun prim config m ts m') (hinputs : ∀ t ∈ ts, ∀ bytes, ¬t.input.Supplies prim o bytes)
    (hm : m.Keeps o plaintext) : m'.Keeps o plaintext := by
  induction h with
  | nil => exact hm
  | @cons m m' _ t ts hstep _ ih =>
    obtain ⟨transactions, hcommits, rfl⟩ := hstep.commits
    have habout := hcommits.not_about fun call hcall bytes hsupplies =>
      hinputs t List.mem_cons_self bytes
        ((DaemonInput.calls_of_mem_script hcall).supplies hsupplies)
    exact ih (fun t ht => hinputs t (List.mem_cons_of_mem _ ht)) (List.foldlRecOn transactions _ hm
      fun _ hkept t ht => hkept.apply (habout t ht))

/-- An input supplies one plaintext for one object. -/
theorem DaemonInput.Supplies.unique {prim : Primitives} {input : DaemonInput} {o o' : ObjectId}
    {plaintext bytes : Bytes}
    (h : input.Supplies prim o plaintext) (h' : input.Supplies prim o' bytes) :
    o' = o ∧ bytes = plaintext := by
  cases h with
  | put a ho hplaintext =>
    cases h' with
    | put _ ho' hplaintext' =>
      exact ⟨Except.ok.inj (ho'.symm.trans ho), Option.some.inj (hplaintext'.symm.trans hplaintext)⟩
  | putStream a items ho =>
    cases h' with
    | putStream _ _ ho' => exact ⟨Except.ok.inj (ho'.symm.trans ho), rfl⟩

/-- The answer to a download, if nothing comes between. -/
def ObjectMap.download (m : ObjectMap) (o : ObjectId) : List Frame :=
  match m.active.lookup o with
  | some plaintext => [.response (.ok .streamReady), .data plaintext, .streamEnd]
  | none => [.response (.ok .streamReady), .data [], .streamError (mapVaultError .notFound)]

/-- The frame with which a download ends. -/
def Frame.closing : Except VaultError Unit → Frame
  | .ok _ => .streamEnd
  | .error e => .streamError (mapVaultError e)

/-! ### Envelopes -/

section

variable {ω : Type} {prim : Primitives} {Q : Set Text} {V : VaultId} {K : Block 32} {m : ObjectMap}
  {call : VaultCall} {w₀ w w' : World ω}

/-- The envelope in memory and the stored one hold the Root Key, each under one of the passphrases. -/
structure EnvelopesHold (prim : Primitives) (Q : Set Text) (K : Block 32) (w : World ω) : Prop where
  loaded : ∃ q ∈ Q, w.vault.envelope.Seals prim q K
  stored : ∃ e, ∃ q ∈ Q, w.db.vaultMeta = some (.ofEnvelope e) ∧ e.Seals prim q K

namespace EnvelopesHold

/-- A vault under one of the passphrases has its envelopes sealed under them. -/
theorem of_keyState {p : Text} (hp : p ∈ Q) (h : KeyState prim K p w) : EnvelopesHold prim Q K w :=
  ⟨⟨p, hp, h.seals⟩, _, p, hp, h.row, h.seals⟩

/-- Only the envelope in memory and the stored one matter. -/
theorem congr (h : EnvelopesHold prim Q K w) (hvault : w'.vault.envelope = w.vault.envelope)
    (hrow : w'.db.vaultMeta = w.db.vaultMeta) : EnvelopesHold prim Q K w' := by
  refine ⟨?_, ?_⟩
  · rw [hvault]
    exact h.loaded
  · rw [hrow]
    exact h.stored

/-- Whatever opens the envelope in memory finds the Root Key. -/
theorem opensOnly (hprim : prim.OpensSealed) (h : EnvelopesHold prim Q K w)
    (hbound : ∀ q, call.Tries q → w.vault.envelope.BoundFor prim Q q) :
    call.OpensOnly prim (some K) w := by
  obtain ⟨q, hq, hseals⟩ := h.loaded
  cases call with
  | unlock passphrase | rotatePassphrase passphrase _ =>
    intro k hopen
    rw [hseals.eq_of_openRootKey hprim (hbound passphrase rfl) hq hopen]
  | _ => trivial

/-- A rotation stores the key that its passphrase has opened. -/
theorem replaced (hprim : prim.OpensSealed) (h : EnvelopesHold prim Q K w)
    {current replacement : Text} (hbound : w.vault.envelope.BoundFor prim Q current)
    {rootKey : Block 32} {e : RootEnvelope} {db : Database}
    (hopen : openRootKey prim current w.vault.envelope = .ok rootKey)
    (hseals : e.Seals prim replacement rootKey) (hbody : w.db.replaceEnvelopeBody e = .ok db) :
    db.vaultMeta = some (.ofEnvelope e) ∧ e.Seals prim replacement K := by
  obtain ⟨q, hq, hloaded⟩ := h.loaded
  obtain rfl := hloaded.eq_of_openRootKey hprim hbound hq hopen
  refine ⟨?_, hseals⟩
  -- the row keeps its format version, of which there is one
  obtain ⟨row, hrow, -, rfl⟩ := Database.replaceEnvelopeBody_eq_ok.mp hbody
  obtain ⟨e', q', -, hstored, -⟩ := h.stored
  obtain rfl := Option.some.inj (hrow.symm.trans hstored)
  rfl

/-- Every change keeps the Root Key in both envelopes. -/
theorem change (hprim : prim.OpensSealed)
    (hbound : ∀ q, call.Tries q → w₀.vault.envelope.BoundFor prim Q q)
    (hsets : ∀ q, call.Sets q → q ∈ Q) (hchange : Change prim call w₀ w w')
    (h : EnvelopesHold prim Q K w) : EnvelopesHold prim Q K w' := by
  cases hchange with
  | quiet hquiet => exact h.congr (by rw [hquiet.vault]) (by rw [hquiet.db])
  | locked heq | unlocked _ _ _ heq | published _ _ _ heq | staged _ _ _ _ _ heq =>
    subst heq
    exact h.congr rfl rfl
  | opened _ henvelope heq =>
    subst heq
    -- the stored envelope is read back
    obtain ⟨e, q, hq, hrow, hseals⟩ := h.stored
    obtain rfl := Except.ok.inj ((hseals.rootEnvelope hrow).symm.trans henvelope)
    exact ⟨⟨q, hq, hseals⟩, h.stored⟩
  | replaced hrotate hopen hseals _ hfirst hbody heq =>
    subst heq hrotate
    have hstored := h.replaced hprim (hfirst.envelope ▸ hbound _ rfl) hopen hseals hbody
    exact ⟨h.loaded, _, _, hsets _ rfl, hstored⟩
  | rotated hrotate hopen hseals _ hfirst hbody heq =>
    subst heq hrotate
    have hstored := h.replaced hprim (hfirst.envelope ▸ hbound _ rfl) hopen hseals hbody
    exact ⟨⟨_, hsets _ rfl, hstored.2⟩, _, _, hsets _ rfl, hstored⟩
  | finalized _ _ _ hbody hvault _ =>
    obtain ⟨-, -, -, -, -, hdb⟩ := Database.finalizeBody_eq_ok.mp hbody
    exact h.congr (by rw [hvault]) (by rw [hdb])

end EnvelopesHold

/-! ### A vault that holds a map -/

/-- The tables hold the map under the Root Key, and so do both envelopes hold the Root Key. -/
structure HoldsMap (prim : Primitives) (Q : Set Text) (V : VaultId) (K : Block 32) (m : ObjectMap)
    (w : World ω) : Prop where
  envelopes : EnvelopesHold prim Q K w
  root : RootHeld V K w
  represents : Represents prim V K w.db m

/-- Locking keeps the map. -/
theorem HoldsMap.locked (h : HoldsMap prim Q V K m w) : HoldsMap prim Q V K m w.locked :=
  ⟨h.envelopes.congr rfl rfl, ⟨h.root.loaded, fun _ hk => (by cases hk), h.root.stored⟩, h.represents⟩

/-- What touches neither the tables nor the vault keeps the map. -/
theorem HoldsMap.untouched {x : World ω} (h : HoldsMap prim Q V K m w) (hx : w.Untouched x) :
    HoldsMap prim Q V K m x := by
  refine ⟨h.envelopes.congr (by rw [hx.vault]) (by rw [hx.db]), ⟨?_, ?_, ?_⟩, ?_⟩
  · rw [World.vaultId, hx.vault]
    exact h.root.loaded
  · rw [hx.vault]
    exact h.root.held
  · rw [hx.db]
    exact h.root.stored
  · rw [hx.db]
    exact h.represents

/-- Without pending rows nothing is staged. -/
theorem HoldsMap.unstaged (h : HoldsMap prim Q V K m w) (hpending : w.db.pending.rows = []) :
    HoldsMap prim Q V K { m with staged := ∅ } w := by
  refine ⟨h.envelopes, h.root, h.represents.wellFormed, h.represents.active, h.represents.inactive,
    fun u hu => ?_, fun _ _ => rfl⟩
  obtain ⟨row, hrow⟩ := Option.ne_none_iff_exists'.mp hu
  have hmem := Table.mem_rows.mpr hrow
  rw [hpending] at hmem
  exact absurd hmem List.not_mem_nil

/-- What opens of the rows of a stored draft are its parts. -/
theorem Draft.Stored.openToPieces {d : Draft} {db : Database} (hprim : prim.OpensSealed)
    (hdb : db.WellFormed prim) (hd : d.Stored prim V K db) (heven : d.Even) :
    OpenToPieces prim V d.objectId d.versionId d.dataKey (d.contents prim) (d.parts.map Prod.fst)
      (db.selectChunks d.versionId) := by
  intro row hrow chunk hread len hlen part hopen
  rw [hd.selectChunks hdb] at hrow
  obtain ⟨c, hc, rfl⟩ := List.mem_map.mp hrow
  obtain rfl := Except.ok.inj ((readChunkRow_toRow c).symm.trans hread)
  obtain ⟨i, hi⟩ := List.mem_iff_getElem?.mp hc
  obtain ⟨p, hp, rfl⟩ := getElem?_encryptedChunks hi
  have hlt : i < 2 ^ 32 :=
    lt_trans (List.getElem?_eq_some_iff.mp hp).1 hd.sealed.length_lt
  -- a record is opened for the length it was sealed for
  obtain ⟨-, hseal⟩ := hd.sealed.parts i p hp
  obtain rfl := Except.ok.inj ((hd.sealed.expectedPlaintextChunkLen heven hp).symm.trans hlen)
  obtain rfl := Except.ok.inj ((openRecord_of_encrypt hprim hseal).symm.trans hopen)
  show (d.parts.map Prod.fst)[(UInt32.ofNat i).toNat]? = some p.1
  rw [UInt32.toNat_ofNat', Nat.mod_eq_of_lt hlt, List.getElem?_map, hp]
  rfl

end

/-! ### The daemon's calls -/

namespace DaemonInput

/-- The input tries the passphrase on the envelope in memory. -/
def Tries : DaemonInput → Text → Prop
  | .request _ (some (.unlock passphrase)), q => q = passphrase
  | .request _ (some (.rotatePassphrase passphrase _)), q => q = passphrase
  | _, _ => False

/-- The input may seal an envelope under the passphrase. -/
def Sets : DaemonInput → Text → Prop
  | .request _ (some (.rotatePassphrase _ replacement)), q => q = replacement
  | _, _ => False

section

variable {prim : Primitives} {config : DaemonConfig} {input : DaemonInput} {call : VaultCall} {q : Text}

/-- A passphrase that a call tries came with its request. -/
theorem Calls.tries (h : Calls prim config input call) (hq : call.Tries q) : input.Tries q := by
  cases h with
  | unlock | rotatePassphrase => exact hq
  | _ => exact hq.elim

/-- A passphrase that a call sets came with its request. -/
theorem Calls.sets (h : Calls prim config input call) (hq : call.Sets q) : input.Sets q := by
  cases h with
  | rotatePassphrase => exact hq
  | _ => exact hq.elim

/-- Only the first call of an input tries a passphrase. -/
theorem not_tries_of_mem_tail (h : call ∈ (input.script prim config).tail) : ¬call.Tries q := by
  intro hq
  -- the calls that try a passphrase are those of two requests
  have htries := (calls_of_mem_script (List.mem_of_mem_tail h)).tries hq
  unfold Tries at htries
  split at htries
  · rw [script, List.tail_cons] at h
    split at h
    · simp only [List.mem_cons, List.not_mem_nil, or_false] at h
      rcases h with rfl | rfl <;> exact hq
    · exact absurd h List.not_mem_nil
  · exact absurd h List.not_mem_nil
  · exact htries

end

end DaemonInput

/-- The reader over an upload reports end of file by ending, and never before. -/
theorem endsOnce_streamReader (items : List StreamItem) : (streamReader items).EndsOnce := by
  induction items with
  | nil => exact ⟨fun h => (by cases h), trivial⟩
  | cons item items ih =>
    cases item with
    | data bytes =>
      cases bytes with
      | nil => exact ih
      | cons b bytes => exact ⟨fun h => (by cases h), ih⟩
    | finish => trivial
    | error => exact ⟨fun h => (by cases h), trivial⟩

/-- The reader of a request reports its end once. -/
theorem DaemonInput.Calls.endsOnce {prim : Primitives} {config : DaemonConfig} {input : DaemonInput}
    {call : VaultCall} (h : DaemonInput.Calls prim config input call) : call.EndsOnce := by
  cases h with
  | putStream a items ho => exact endsOnce_streamReader items
  | _ => trivial

/-! ### Answers -/

/-- The success with which a request is answered, if it is answered with one. -/
def Request.Expects : Request → Success → Prop
  | .status, .status _ _ _ _ _ => True
  | .unlock _, .empty | .lock, .empty | .rotatePassphrase _ _, .empty => True
  | .checkpoint, .empty | .shutdown, .empty => True
  | .put _ _, .published _ => True
  | .get _, .plaintext _ => True
  | .verify, .verified _ => True
  | .backup _, .backup _ _ _ => True
  | _, _ => False

section

variable {ω : Type} {prim : Primitives} {config : DaemonConfig} {a : Arrival} {s s' : DaemonState ω}
  {frames : List Frame}

/-- What an operation returns is what its answer holds. -/
theorem returns_withVault {Q : Success → Prop} {operation : VaultOp ω Success}
    (h : Op.Returns Q operation) :
    Op.Returns (fun r => ∀ x, r = .ok x → Q x) (withVault a operation) := by
  rintro s r s' hr x rfl
  exact h _ _ _ (withVault_ok hr)

theorem returns_error {Q : Success → Prop} (code : ErrorCode) (message : String) :
    Op.Returns (fun r => ∀ x, r = .ok x → Q x) (pure (.error code message) : DaemonOp ω Response) :=
  Op.Returns.pure fun _ h => by cases h

variable [Transport ω]

/-- What an operation returns with a witness is what its answer holds. -/
theorem returns_withWitness {Q : Success → Prop} {operation : WitnessProvider ω → VaultOp ω Success}
    (h : ∀ provider, Op.Returns Q (operation provider)) :
    Op.Returns (fun r => ∀ x, r = .ok x → Q x) (withWitness prim config a operation) := by
  rintro s r s' hr x rfl
  obtain ⟨p, -, hoperation⟩ := withWitness_ok hr
  exact h _ _ _ _ hoperation

variable [Machine ω]

/-- A request is answered with the success of its own kind, or with an error. -/
theorem dispatch_expects (request : Request) :
    Op.Returns (fun r => ∀ x, r = .ok x → request.Expects x)
      (dispatch (ω := ω) prim config a request) := by
  have hreturn {x : Success} (hx : request.Expects x) :
      Op.Returns request.Expects (pure x : VaultOp ω Success) := Op.Returns.pure hx
  have hanswer {x : Success} (hx : request.Expects x) : ∀ y, Response.ok x = .ok y → request.Expects y := by
    rintro y heq
    cases heq
    exact hx
  have hfailed (e : VaultError) : ∀ y, mapVaultError e = .ok y → request.Expects y := by
    intro y hy
    obtain ⟨code, message, hmap⟩ := mapVaultError_eq_error e
    rw [hmap] at hy
    cases hy
  have hparse {text : Text} {r : Response} (h : parseRequestObjectId text = .error r) :
      ∀ y, r = .ok y → request.Expects y := by
    obtain ⟨message, rfl⟩ := Protocol.parseRequestObjectId_error h
    rintro y heq
    cases heq
  refine Op.Returns.ite (returns_error _ _) ?_
  cases request with
  | status =>
    refine Op.Returns.bind _ fun s => ?_
    exact Op.Returns.ite (returns_error _ _) (Op.Returns.ite (returns_error _ _)
      (Op.Returns.ite (returns_error _ _) (Op.Returns.pure (hanswer trivial))))
  | unlock passphrase =>
    refine Op.Returns.ite (returns_withWitness fun p => ?_) (returns_withVault ?_)
    · exact Op.Returns.bind _ fun _ => Op.Returns.bind _ fun _ => Op.Returns.bind _ fun _ =>
        hreturn trivial
    · exact Op.Returns.bind _ fun _ => hreturn trivial
  | lock | rotatePassphrase | checkpoint =>
    exact returns_withVault (Op.Returns.bind _ fun _ => hreturn trivial)
  | put objectId text =>
    show Op.Returns _ (servePut prim config a objectId text)
    unfold servePut
    split
    · rename_i h
      exact Op.Returns.pure (hparse h)
    · split
      · exact returns_error _ _
      · exact Op.Returns.ite
          (returns_withWitness fun _ => Op.Returns.bind _ fun _ => hreturn trivial)
          (returns_withVault (Op.Returns.bind _ fun _ => hreturn trivial))
  | get objectId =>
    show Op.Returns _ (serveGet prim config a objectId)
    unfold serveGet
    split
    · rename_i h
      exact Op.Returns.pure (hparse h)
    · exact Op.Returns.ite
        (returns_withWitness fun _ => Op.Returns.bind _ fun _ => Op.Returns.bind _ fun _ => hreturn trivial)
        (returns_withVault (Op.Returns.bind _ fun _ => hreturn trivial))
  | putStream | getStream => exact returns_error _ _
  | verify =>
    refine Op.Returns.ite (returns_error _ _) (Op.Returns.bind _ fun result => ?_)
    cases result with
    | ok n =>
      exact Op.Returns.ite (returns_error _ _)
        (Op.Returns.bind _ fun _ => Op.Returns.pure (hanswer trivial))
    | error e => exact Op.Returns.pure (hfailed e)
  | backup destination =>
    exact Op.Returns.ite (returns_error _ _)
      (returns_withVault (Op.Returns.bind _ fun _ => hreturn trivial))
  | shutdown =>
    exact Op.Returns.ite (Op.Returns.bind _ fun _ => Op.Returns.pure (hanswer trivial)) (returns_error _ _)

/-- A single answer comes from the handler of its request. -/
theorem dispatch_of_frame {request : Option Request} {x : Success}
    (h : serveStream prim config a request s = .ok frames s') (hframe : .response (.ok x) ∈ frames)
    (hsingle : ∀ objectId items, request ≠ some (.putStream objectId items))
    (hready : x ≠ .streamReady) :
    ∃ r, request = some r ∧ r.Expects x ∧ dispatch prim config a r s = .ok (.ok x) s' := by
  unfold serveStream at h
  split at h
  · split at h
    · exact absurd rfl (hsingle _ _)
    · -- a download is answered with its first frame only
      rcases getStream_cases h with hnone | ⟨o, last, -, rfl, hlast⟩
      · have hrefuses := hnone _ hframe
        cases x with
        | streamReady => exact absurd rfl hready
        | _ => exact hrefuses.elim
      · simp only [List.mem_cons, List.not_mem_nil, or_false] at hframe
        rcases hframe with hframe | hframe | hframe
        · cases hframe
          exact absurd rfl hready
        · cases hframe
        · rcases hlast with ⟨rfl, -⟩ | ⟨e, rfl⟩ <;> cases hframe
    · rename_i request _ _
      obtain ⟨r, s1, hdispatch, hreturn⟩ := Op.bind_eq_ok.mp h
      cases hreturn
      obtain rfl : Response.ok x = r := by simpa using hframe
      exact ⟨request, rfl, dispatch_expects request _ _ _ hdispatch _ rfl, hdispatch⟩
    · cases h
      cases List.mem_singleton.mp hframe
  · cases h
    cases List.mem_singleton.mp hframe

variable (prim config) in
/-- The call stores a plaintext and has returned. -/
def UploadReturned (input : DaemonInput) (w w' : World ω) (call : VaultCall) : Prop :=
  input.script prim config = [call] ∧ (∃ o plaintext, call.Supplies o plaintext) ∧
    ∃ version, sessionStep prim (config.provider prim) ⟨w, true⟩ call =
      (some (.ok (.version version)), ⟨w', true⟩)

/-- A `put` that is answered as published has returned. -/
theorem servePut_published {objectId text versionId : Text}
    (h : servePut prim config a objectId text s = .ok (.ok (.published versionId)) s') :
    ∃ call, UploadReturned prim config (.request a (some (.put objectId text))) s.world s'.world call := by
  unfold UploadReturned DaemonInput.script
  dsimp only
  unfold servePut at h
  cases hparse : parseRequestObjectId objectId with
  | error response =>
    rw [hparse] at h
    cases h
    obtain ⟨message, hmessage⟩ := Protocol.parseRequestObjectId_error hparse
    cases hmessage
  | ok o =>
  cases hdecode : prim.base64Decode text with
  | none =>
    rw [hparse, hdecode] at h
    cases h
  | some plaintext =>
  rw [hparse, hdecode] at h
  dsimp only at h ⊢
  by_cases hstrict : config.witness.isSome
  · rw [if_pos hstrict] at h ⊢
    obtain ⟨p, hconfig, hoperation⟩ := withWitness_ok h
    obtain ⟨version, w1, hput, hreturn⟩ := Op.bind_eq_ok.mp hoperation
    cases hreturn
    refine ⟨_, rfl, ⟨_, _, .putWithWitness o plaintext⟩, version, ?_⟩
    rw [DaemonConfig.provider_of_some prim hconfig]
    show SessionState.after true ((putWithWitness prim o plaintext (p.provider prim) >>= _) s.world) = _
    rw [Op.bind_of_ok hput]
    rfl
  · rw [if_neg hstrict] at h ⊢
    obtain ⟨version, w1, hput, hreturn⟩ := Op.bind_eq_ok.mp (withVault_ok h)
    cases hreturn
    refine ⟨_, rfl, ⟨_, _, .put o plaintext _⟩, version, ?_⟩
    show SessionState.after true ((put prim o plaintext >>= _) s.world) = _
    rw [Op.bind_of_ok hput]
    rfl

/-- An upload that is answered as published has made its one call, which returned. -/
theorem serveStream_published {request : Option Request} {versionId : Text}
    (h : serveStream prim config a request s = .ok frames s')
    (hframe : .response (.ok (.published versionId)) ∈ frames) :
    ∃ call, UploadReturned prim config (.request a request) s.world s'.world call := by
  by_cases hstream : ∃ objectId items, request = some (.putStream objectId items)
  · obtain ⟨objectId, items, rfl⟩ := hstream
    have hput : putStream prim a objectId items s = .ok frames s' := by
      unfold serveStream at h
      split at h
      · exact h
      · cases h
        simp at hframe
    rcases putStream_cases hput with hnone | ⟨o, version, hparse, hreturned, -⟩
    · exact (hnone _ hframe).elim
    unfold UploadReturned DaemonInput.script
    dsimp only
    rw [hparse]
    refine ⟨_, rfl, ⟨_, _, .putFromReader o _ _⟩, version, ?_⟩
    show SessionState.after true ((putFromReader prim o (streamReader items) >>= _) s.world) = _
    rw [Op.bind_of_ok hreturned]
    rfl
  · obtain ⟨r, rfl, hexpects, hdispatch⟩ := dispatch_of_frame h hframe
      (fun objectId items heq => hstream ⟨objectId, items, heq⟩) (fun heq => by cases heq)
    cases r with
    | put objectId text =>
      simp only [dispatch] at hdispatch
      split at hdispatch
      · cases hdispatch
      · exact servePut_published hdispatch
    | _ => exact hexpects.elim

/-- A count in an answer was returned by a verification of all objects. -/
theorem serveStream_verified {request : Option Request} {n : UInt64}
    (h : serveStream prim config a request s = .ok frames s')
    (hframe : .response (.ok (.verified n)) ∈ frames) :
    ∃ w', verifyResult prim config a s.world = .ok n w' := by
  by_cases hstream : ∃ objectId items, request = some (.putStream objectId items)
  · -- an upload is not answered with a count
    obtain ⟨objectId, items, rfl⟩ := hstream
    unfold serveStream at h
    split at h
    · rcases putStream_cases h with hnone | ⟨o, version, -, -, rfl⟩
      · exact (hnone _ hframe).elim
      · simp at hframe
    · cases h
      simp at hframe
  · obtain ⟨r, rfl, hexpects, hdispatch⟩ := dispatch_of_frame h hframe
      (fun objectId items heq => hstream ⟨objectId, items, heq⟩) (fun heq => by cases heq)
    cases r with
    | verify =>
      simp only [dispatch] at hdispatch
      split at hdispatch
      · cases hdispatch
      · unfold serveVerify at hdispatch
        split at hdispatch
        · cases hdispatch
        · obtain ⟨result, s1, hrun, hanswer⟩ := Op.bind_eq_ok.mp hdispatch
          rcases Protocol.runVault_eq_ok hrun with ⟨count, rfl, hverify⟩ | ⟨e, rfl, -⟩
          · dsimp only at hanswer
            split at hanswer
            · cases hanswer
            · cases hanswer
              exact ⟨_, hverify⟩
          · obtain ⟨code, message, hmap⟩ := mapVaultError_eq_error e
            have hanswer' : (Outcome.ok (mapVaultError e) s1 :
                Outcome VaultError (DaemonState ω) Response) = .ok (.ok (.verified n)) s' := hanswer
            rw [hmap] at hanswer'
            cases hanswer'
    | _ => exact hexpects.elim

end

/-! ### Calls that store and calls that read -/

section

variable {ω : Type} [Machine ω] {prim : Primitives} {config : DaemonConfig} {Q : Set Text} {V : VaultId}
  {K : Block 32} {m : ObjectMap} {call : VaultCall} {o : ObjectId} {w w' : World ω}

/-- An undisturbed download is answered with what its read has written and how it ended. -/
theorem getStream_of_runVault {s : DaemonState ω} {w' : World ω} {objectId : Text} {o : ObjectId}
    {result : Except VaultError Unit} (hparse : parseRequestObjectId objectId = .ok o)
    (hvault : runVault (getToWriter prim o .stream) { s with world := { s.world with sink := [] } } =
      .ok result { s with world := w' }) :
    getStream prim {} objectId s =
      .ok [.response (.ok .streamReady), .data w'.sink, .closing result] { s with world := w' } := by
  unfold getStream
  rw [hparse]
  show (runVault (getToWriter prim o .stream) >>= _) _ = _
  rw [Op.bind_of_ok hvault]
  cases result <;> rfl

/-- A rotation to a passphrase that is refused changes nothing. -/
theorem sessionStep_of_invalid (provider : WitnessProvider ω) (s : SessionState ω) {q : Text}
    (hcall : call.Sets q) (hinvalid : validatePassphrase q ≠ .ok ()) :
    (sessionStep prim provider s call).2.world = s.world := by
  cases call with
  | rotatePassphrase current replacement =>
    obtain rfl : q = replacement := hcall
    cases hpassphrase : validatePassphrase q with
    | ok u => exact absurd hpassphrase hinvalid
    | error e =>
      simp only [sessionStep]
      split
      · simp only [VaultCall.run, rotatePassphrase, hpassphrase]
        rfl
      · rfl
  | _ => exact hcall.elim

variable [Exclusive ω]

/-- A new vault holds no objects. -/
theorem HoldsMap.of_create {p : Text} (hp : p ∈ Q) {u : Unit} (h : create prim p w = .ok u w') :
    ∃ K, HoldsMap prim Q w'.vaultId K .empty w' := by
  obtain ⟨K, -, hstart⟩ := KeyState.of_create h
  refine ⟨K, .of_keyState hp hstart, ⟨rfl, hstart.held, _, hstart.row, rfl⟩, ?_⟩
  rw [(create_ok h).2]
  exact .empty _

/-- A call commits its transactions, or the first of them if it does not return. -/
theorem HoldsMap.step (hprim : prim.OpensSealed) (provider : WitnessProvider ω) {s : SessionState ω}
    (h : HoldsMap prim Q V K m s.world) (hends : call.EndsOnce)
    (hbound : ∀ q, call.Tries q → s.world.vault.envelope.BoundFor prim Q q)
    (hsets : ∀ q, call.Sets q → validatePassphrase q = .ok () → q ∈ Q) :
    ∃ ts, call.Performs m (sessionStep prim provider s call).1 ts ∧
      HoldsMap prim Q V K (ts.foldl ObjectMap.apply m) (sessionStep prim provider s call).2.world := by
  obtain ⟨ts, hperforms, hts⟩ :=
    Simulation.step provider hends (h.envelopes.opensOnly hprim hbound) h.root h.represents
  have hchanges : Changes prim call s.world s.world (sessionStep prim provider s call).2.world :=
    sessionStep_changes s call
  refine ⟨ts, hperforms, ?_, hts.root, hts.represents⟩
  by_cases hvalid : ∀ q, call.Sets q → validatePassphrase q = .ok ()
  · have hmem : ∀ q, call.Sets q → q ∈ Q := fun q hq => hsets q hq (hvalid q hq)
    exact hchanges.invariant (fun _ _ hchange h => h.change hprim hbound hmem hchange) h.envelopes
  · obtain ⟨q, hq, hinvalid⟩ := not_forall₂.mp hvalid
    rw [sessionStep_of_invalid provider s hq hinvalid]
    exact h.envelopes

/-- A program commits of each call the first transactions. -/
theorem HoldsMap.run (hprim : prim.OpensSealed) (provider : WitnessProvider ω) {s : SessionState ω}
    (h : HoldsMap prim Q V K m s.world) {calls : List VaultCall}
    (hends : ∀ call ∈ calls, call.EndsOnce)
    (hbound : ∀ t ∈ Run.trace (sessionStep prim provider) s calls, ∀ q, t.input.Tries q →
      t.before.world.vault.envelope.BoundFor prim Q q)
    (hsets : ∀ call ∈ calls, ∀ q, call.Sets q → validatePassphrase q = .ok () → q ∈ Q) :
    ∃ ts, CommitsOf m calls ts ∧ HoldsMap prim Q V K (ts.foldl ObjectMap.apply m)
      (Run.final (sessionStep prim provider) s calls).world := by
  induction calls generalizing s m with
  | nil => exact ⟨[], .nil m, h⟩
  | cons call calls ih =>
    rw [Run.trace_cons] at hbound
    obtain ⟨ts, hperforms, hstep⟩ := h.step hprim provider (hends call List.mem_cons_self)
      (hbound _ List.mem_cons_self) (hsets call List.mem_cons_self)
    obtain ⟨ts', hcommits, hrest⟩ := ih hstep (fun c hc => hends c (List.mem_cons_of_mem _ hc))
      (fun t ht => hbound t (List.mem_cons_of_mem _ ht))
      fun c hc => hsets c (List.mem_cons_of_mem _ hc)
    obtain ⟨all, hall, hfirst⟩ := hperforms.exists_prefix
    refine ⟨ts ++ ts', .cons hall hfirst hcommits, ?_⟩
    rw [List.foldl_append]
    exact hrest

/-- A reader that was published was read to its end. -/
theorem contents_of_putFromReader {o : ObjectId} {reader : Reader} {size : ℕ} {u : VersionId}
    {w w' : World ω} (hends : reader.EndsOnce)
    (h : putFromReaderWithChunkSize prim o reader size w = .ok u w') :
    (reader.chunks size).1.flatten = reader.contents := by
  refine (triple_putFromReaderWithChunkSize (M := fun _ => True)
    (N := fun _ => (reader.chunks size).1.flatten = reader.contents)
    (.of_quiet fun _ _ _ => True) (.of_quiet fun _ _ _ => _) (fun _ _ => trivial) (fun _ h => h)
    fun x d _ hd hnew => ?_).ok_of trivial h
  obtain ⟨_, -, hsealed⟩ := hnew.sealedFor
  have hplaintext := (Draft.OfReader.of hd hsealed.size hends).plaintext
  rw [hd.pieces]
  exact hplaintext

/-- A call that stored a plaintext and returned has put it into the map. -/
theorem HoldsMap.stored (hprim : prim.OpensSealed) {provider : WitnessProvider ω}
    (h : HoldsMap prim Q V K m w) (hends : call.EndsOnce) {result : CallResult}
    (hstep : sessionStep prim provider ⟨w, true⟩ call = (some (.ok result), ⟨w', true⟩))
    {plaintext : Bytes} (hsupplies : call.Supplies o plaintext) :
    ∃ ts, call.Commits m ts ∧ HoldsMap prim Q V K (ts.foldl ObjectMap.apply m) w' ∧
      (ts.foldl ObjectMap.apply m).active.lookup o = some plaintext := by
  have hnone : (∀ q, ¬call.Tries q) ∧ ∀ q, ¬call.Sets q := by
    cases hsupplies <;> exact ⟨fun _ => not_false, fun _ => not_false⟩
  obtain ⟨ts, hperforms, hholds⟩ := h.step hprim provider (s := ⟨w, true⟩) hends
    (fun q hq => absurd hq (hnone.1 q)) fun q hq => absurd hq (hnone.2 q)
  rw [hstep] at hperforms hholds
  have hcommits : call.Commits m ts := hperforms
  refine ⟨ts, hcommits, hholds, ?_⟩
  cases hsupplies with
  | put _ _ _ =>
    obtain ⟨u, rfl⟩ := hcommits
    exact AList.lookup_insert _
  | putFromReader _ reader size =>
    obtain ⟨u, rfl⟩ := hcommits
    rcases run_of_sessionStep_ok (congrArg Prod.fst hstep) with hcall | hrun
    · cases hcall
    obtain ⟨version, w1, hput, -⟩ := Op.bind_eq_ok.mp hrun
    rw [contents_of_putFromReader hends hput]
    exact AList.lookup_insert _
  | putWithWitness _ _ =>
    obtain ⟨u, rfl⟩ := hcommits
    -- what was staged is activated
    exact ObjectMap.lookup_activate (AList.lookup_insert _)

/-- The checks of a read lead to the draft whose plaintext the map has. -/
theorem HoldsMap.readChecks (hprim : prim.OpensSealed) (h : HoldsMap prim Q V K m w)
    (c : ReadChecks prim o w) : ∃ pieces : List Bytes, m.active.lookup o = some pieces.flatten ∧
      c.manifest.plaintextLen.toNat = pieces.flatten.length ∧
      ∀ w1, c.digested.Selects c.version.versionId w1 → OpenToPieces prim w.vaultId o
        c.version.versionId c.dataKey c.manifest pieces (w1.db.selectChunks c.version.versionId) := by
  obtain ⟨hactive, hversion, -⟩ := activeVersion_ok c.active
  have hpointer := Database.selectActive_eq_ok.mp hactive
  -- the map has a plaintext, and the draft behind it is the active version
  cases ho : m.active.lookup o with
  | none =>
    rw [h.represents.inactive o ho] at hpointer
    cases hpointer
  | some plaintext =>
  obtain ⟨d, hd, rfl, rfl⟩ := h.represents.active o plaintext ho
  have hsame : d.versionId = c.version.versionId :=
    Identifier.blob_inj.mp (Option.some.inj (hd.active.symm.trans hpointer))
  have hstored : c.version = d.storedVersion := by
    have hselect := hd.toStored.selectVersion
    rw [hsame] at hselect
    exact Except.ok.inj (hversion.symm.trans hselect)
  -- so the keys and the Manifest are those of the draft
  have hloaded : w.vaultId = V := h.root.loaded
  have hdataKey : c.dataKey = d.dataKey := by
    have hopens := c.opensDataKey
    rw [h.root.held _ c.unlocked, hloaded, hstored, hd.sealed.openDataKey hprim] at hopens
    exact (Except.ok.inj hopens).symm
  have hmanifest : c.manifest = d.contents prim := by
    have hopens := c.opensManifest
    rw [hdataKey, hloaded, hstored, hd.sealed.openManifest hprim] at hopens
    exact (Except.ok.inj hopens).symm
  refine ⟨d.parts.map Prod.fst, rfl, ?_, fun w1 hselects => ?_⟩
  · rw [hmanifest]
    exact hd.sealed.toNat_plaintextLen
  · have huntouched : w.Untouched w1 := IsTrans.trans _ _ _ ((keeps_activeVersion _).of_ok c.active)
      (IsTrans.trans _ _ _ ((keeps_checkStoredReceipt prim _ _ _).of_ok c.receipt)
        (IsTrans.trans _ _ _ ((keeps_digestPass prim _ _).of_ok c.digest)
          ((keeps_query _).of_ok hselects)))
    rw [hloaded, hdataKey, hmanifest, hstored, huntouched.db]
    exact hd.toStored.openToPieces hprim h.represents.wellFormed hd.even

/-- A read that returns has written what the map has. -/
theorem HoldsMap.getToWriterInner_ok (hprim : prim.OpensSealed) (h : HoldsMap prim Q V K m w)
    {writer : Writer} {u : Unit} (hread : getToWriterInner prim o writer w = .ok u w') :
    ∃ plaintext, m.active.lookup o = some plaintext ∧
      w'.sink = writer.received w.sink plaintext := by
  rcases getToWriterInner_cases prim o writer w with ⟨c, hc⟩ | ⟨hnot, -⟩
  · obtain ⟨pieces, ho, hlength, hopen⟩ := h.readChecks hprim c
    exact ⟨_, ho, c.pass_ok hopen (hc.symm.trans hread) hlength⟩
  · exact absurd hread (hnot _ _)

/-- However a read ends, it has written a beginning of what the map has. -/
theorem HoldsMap.getToWriterInner_prefix (hprim : prim.OpensSealed) (h : HoldsMap prim Q V K m w)
    (writer : Writer) : ∃ b, b <+: (m.active.lookup o).getD [] ∧
      (getToWriterInner prim o writer w).state.sink = writer.received w.sink b := by
  rcases getToWriterInner_cases prim o writer w with ⟨c, hc⟩ | ⟨-, hnothing⟩
  · obtain ⟨pieces, ho, -, hopen⟩ := h.readChecks hprim c
    have hchunks : Machine.KeepsChunks ω := fun db s => by rw [Exclusive.interfere_fst]
    obtain ⟨b, hb, hwritten⟩ := c.pass_prefix hopen (c.sameRows hchunks) writer
    rw [ho, hc]
    exact ⟨b, hb, hwritten⟩
  · refine ⟨[], List.nil_prefix, hnothing.trans ?_⟩
    cases writer <;> simp [Writer.received]

/-- A sweep that returns has counted the objects of the map. -/
theorem HoldsMap.count_eq (h : HoldsMap prim Q V K m w) {ids : List ObjectId} {x x' x'' : World ω}
    {n : UInt64} {message : String} (hids : activeObjectIds w = .ok ids x)
    (hcount : countOf ids message x' = .ok n x'') : m.count = .ok n := by
  obtain ⟨hkeys, -⟩ := activeObjectIds_ok hids
  obtain ⟨ids', hids', hlength, -⟩ := h.represents.exists_ids
  have hsame : ids.length = m.active.keys.length := by
    rw [← hlength, ← List.length_map Identifier.blob, ← hkeys, hids', List.length_map]
  obtain ⟨_, _, hrequire, hreturn⟩ := Op.bind_eq_ok.mp hcount
  have hlt := (Op.require_eq_ok.mp hrequire).1
  cases hreturn
  rw [ObjectMap.count, ← hsame, if_pos hlt]

/-- `get` returns what the map has. -/
theorem HoldsMap.get_ok (hprim : prim.OpensSealed) (h : HoldsMap prim Q V K m w)
    {bytes : Bytes} (hget : get prim o w = .ok bytes w') :
    m.active.lookup o = some bytes := by
  obtain ⟨hread, rfl⟩ := get_eq_ok hget
  have hcleared : HoldsMap prim Q V K m { w with sink := [] } := h.untouched ⟨rfl, rfl⟩
  obtain ⟨plaintext, ho, hsink⟩ := hcleared.getToWriterInner_ok hprim hread
  rw [ho, hsink]
  rfl

/-! ### Exchanges -/

variable [Transport ω]

/-- The state in which a `get` reads holds the map. -/
theorem HoldsMap.readsFrom {x : World ω} (h : HoldsMap prim Q V K m w)
    (hx : ReadsFrom prim config w x) : HoldsMap prim Q V K m x := by
  rcases hx with rfl | ⟨p, n, -, hsweep⟩
  · exact h
  · exact h.untouched (verifyActiveObjectsWithWitness_ok
      (HttpsWitnessProvider.provider prim p).keeps_untouched hsweep).1

/-- A verification counts the objects of the map. -/
theorem HoldsMap.verifyResult_ok {a : Arrival} {n : UInt64}
    (h : HoldsMap prim Q V K m w) (hverify : verifyResult prim config a w = .ok n w') :
    m.count = .ok n := by
  have hcount {sweep : List ObjectId → VaultOp ω Unit} {w' : World ω}
      (hsweep : lockAfterFailure (do
        let _ ← requireRootKey
        let objectIds ← activeObjectIds
        sweep objectIds
        countOf objectIds "active object count exceeds u64") w = .ok n w') : m.count = .ok n := by
    obtain ⟨_, w1, hkey, hlist⟩ := Op.bind_eq_ok.mp (lockAfterFailure_eq_ok.mp hsweep)
    obtain ⟨-, rfl⟩ := requireRootKey_eq_ok.mp hkey
    obtain ⟨ids, w2, hids, hloop⟩ := Op.bind_eq_ok.mp hlist
    obtain ⟨_, w3, -, hcount⟩ := Op.bind_eq_ok.mp hloop
    exact h.count_eq hids hcount
  unfold verifyResult at hverify
  cases hconfig : config.witness with
  | some p =>
    rw [hconfig] at hverify
    dsimp only at hverify
    split at hverify
    · cases hverify
    · split at hverify
      · cases hverify
      · exact hcount hverify
  | none =>
    rw [hconfig] at hverify
    dsimp only at hverify
    split at hverify
    · cases hverify
    · exact hcount hverify

variable (config) in
/-- A step of the daemon is a step of the map it holds. -/
theorem HoldsMap.daemonStep (hprim : prim.OpensSealed) {s : DaemonState ω} (hs : s.Settled)
    (h : HoldsMap prim Q V K m s.world) {input : DaemonInput} (hinput : ¬input.Replaces)
    (hbound : ∀ q, input.Tries q → s.world.vault.envelope.BoundFor prim Q q)
    (hsets : ∀ q, input.Sets q → validatePassphrase q = .ok () → q ∈ Q) :
    ∃ m', MapStep prim config input (daemonStep prim config s input).1 m m' ∧
      HoldsMap prim Q V K m' (daemonStep prim config s input).2.world := by
  have hends : ∀ call ∈ input.script prim config, call.EndsOnce :=
    fun call hcall => (DaemonInput.calls_of_mem_script hcall).endsOnce
  -- what the answer sends does not depend on what it stores
  have hanswers : ∀ m', (∃ ts, CommitsOf m (input.script prim config) ts ∧
        m' = ts.foldl ObjectMap.apply m) →
      (∀ versionId, .response (.ok (.published versionId)) ∈ (Vlt1.daemonStep prim config s input).1 →
        ∃ o plaintext, input.Supplies prim o plaintext ∧ m'.active.lookup o = some plaintext) →
      MapStep prim config input (Vlt1.daemonStep prim config s input).1 m m' := by
    refine fun m' hcommits hpublished => ⟨hcommits, hpublished, fun text htext => ?_,
      fun bytes hbytes => ?_, fun n hn => ?_⟩
    · obtain ⟨a, request, frames, s', rfl, hserve, hstep⟩ := exchange_of_frame htext
      rw [hstep] at htext
      obtain ⟨objectId, o, bytes, x, x', rfl, hparse, hx, hget, rfl⟩ :=
        serveStream_plaintext hserve htext
      exact ⟨a, objectId, o, bytes, rfl, hparse, (h.readsFrom hx).get_ok hprim hget, rfl⟩
    · obtain ⟨a, request, frames, s', rfl, hserve, hstep⟩ := exchange_of_frame hbytes
      rw [hstep] at hbytes ⊢
      obtain ⟨objectId, o, rfl, hparse, rfl, hend⟩ := serveStream_data hserve hbytes
      have hcleared : HoldsMap prim Q V K m { s.world with sink := [] } := h.untouched ⟨rfl, rfl⟩
      refine ⟨a, objectId, o, rfl, hparse, ?_, fun hended => ?_⟩
      · obtain ⟨b, hb, hwritten⟩ := hcleared.getToWriterInner_prefix (o := o) hprim .stream
        rw [show (getToWriter prim o .stream { s.world with sink := [] }).state.sink = _ from
          sink_lockAfterFailure _ _, hwritten]
        exact hb
      · have hread := lockAfterFailure_eq_ok.mp (Outcome.eq_ok_of_result (hend hended))
        obtain ⟨plaintext, ho, hsink⟩ := hcleared.getToWriterInner_ok hprim hread
        rw [ho]
        exact congrArg some hsink.symm
    · obtain ⟨a, request, frames, s', rfl, hserve, hstep⟩ := exchange_of_frame hn
      rw [hstep] at hn
      obtain ⟨w', hverify⟩ := serveStream_verified hserve hn
      exact h.verifyResult_ok hverify
  by_cases hpublished : ∃ versionId,
      .response (.ok (.published versionId)) ∈ (Vlt1.daemonStep prim config s input).1
  · -- the one call of the upload has returned
    obtain ⟨versionId, hframe⟩ := hpublished
    obtain ⟨a, request, frames, s', rfl, hserve, hstep⟩ := exchange_of_frame hframe
    rw [hstep] at hframe hanswers ⊢
    obtain ⟨call, hscript, ⟨o, plaintext, hsupplies⟩, version, hreturned⟩ :=
      serveStream_published hserve hframe
    have hcall : call ∈ DaemonInput.script prim config (.request a request) := by
      rw [hscript]
      exact List.mem_singleton_self call
    obtain ⟨ts, hcommits, hholds, hlookup⟩ := h.stored hprim (hends call hcall) hreturned hsupplies
    refine ⟨_, hanswers _ ⟨ts, ?_, rfl⟩ fun _ _ => ⟨o, plaintext, ?_, hlookup⟩, hholds⟩
    · rw [hscript, ← List.append_nil ts]
      exact .cons hcommits List.prefix_rfl (.nil _)
    · exact (DaemonInput.calls_of_mem_script hcall).supplies hsupplies
  · obtain ⟨-, calls, hcalls, hfinal⟩ := daemonStep_calls prim config hs hinput
    have hscript : ∀ call ∈ calls, DaemonInput.Calls prim config input call :=
      fun call hcall => DaemonInput.calls_of_mem_script (hcalls.subset hcall)
    -- a passphrase is tried by the first call, in the state that the input has found
    have htried : ∀ t ∈ Run.trace (sessionStep prim (config.provider prim)) s.session calls,
        ∀ q, t.input.Tries q → t.before.world.vault.envelope.BoundFor prim Q q := by
      cases calls with
      | nil => exact fun t ht => absurd ht List.not_mem_nil
      | cons call calls =>
        intro t ht q hq
        rw [Run.trace_cons] at ht
        rcases List.mem_cons.mp ht with rfl | ht
        · exact hbound q ((hscript call List.mem_cons_self).tries hq)
        · have hlater := hcalls.tail.subset (Run.input_mem _ ht)
          exact absurd hq (DaemonInput.not_tries_of_mem_tail hlater)
    obtain ⟨ts, hcommits, hholds⟩ := HoldsMap.run hprim (config.provider prim) (s := s.session) h
      (fun call hcall => (hscript call hcall).endsOnce) htried
      fun call hcall q hq => hsets q ((hscript call hcall).sets hq)
    rw [hfinal] at hholds
    refine ⟨_, hanswers _ ⟨ts, hcommits.of_sublist hcalls, rfl⟩ fun versionId hframe => ?_, hholds⟩
    exact absurd ⟨versionId, hframe⟩ hpublished

/-! ### Runs -/

variable (config) in
/-- A run of the daemon is a run of the map it holds. -/
theorem HoldsMap.daemon_run (hprim : prim.OpensSealed) {s : DaemonState ω} (hs : s.Settled)
    (h : HoldsMap prim Q V K m s.world) {inputs : List DaemonInput}
    (hinputs : ∀ input ∈ inputs, ¬input.Replaces)
    (hbound : ∀ t ∈ Run.trace (Vlt1.daemonStep prim config) s inputs, ∀ q, t.input.Tries q →
      t.before.world.vault.envelope.BoundFor prim Q q)
    (hsets : ∀ input ∈ inputs, ∀ q, input.Sets q → validatePassphrase q = .ok () → q ∈ Q) :
    ∃ m', MapRun prim config m (Run.trace (Vlt1.daemonStep prim config) s inputs) m' ∧
      HoldsMap prim Q V K m' (Run.final (Vlt1.daemonStep prim config) s inputs).world ∧
      (Run.final (Vlt1.daemonStep prim config) s inputs).Settled := by
  induction inputs generalizing s m with
  | nil => exact ⟨m, .nil m, h, hs⟩
  | cons input inputs ih =>
    have hinput := hinputs input List.mem_cons_self
    rw [Run.trace_cons] at hbound
    obtain ⟨m', hstep, hholds⟩ := h.daemonStep config hprim hs hinput (hbound _ List.mem_cons_self)
      (hsets input List.mem_cons_self)
    obtain ⟨m'', hrun, hholds', hsettled⟩ := ih (daemonStep_calls prim config hs hinput).1 hholds
      (fun i hi => hinputs i (List.mem_cons_of_mem _ hi))
      (fun t ht => hbound t (List.mem_cons_of_mem _ ht))
      fun i hi => hsets i (List.mem_cons_of_mem _ hi)
    exact ⟨m'', .cons hstep hrun, hholds', hsettled⟩

/-- An unlocked daemon on storage that works sends what the map has. -/
theorem HoldsMap.download (hprim : prim.OpensSealed) {s : DaemonState ω}
    (h : HoldsMap prim Q V K m s.world) (hrunning : s.running = true)
    (hunlocked : s.world.vault.status = .unlocked) (hreliable : Machine.Reliable s.world.outside)
    {objectId : Text} (hparse : parseRequestObjectId objectId = .ok o) :
    (Vlt1.daemonStep prim config s (.request {} (some (.getStream objectId)))).1 = m.download o := by
  have hkey : s.world.vault.rootKey = some K := by
    cases hx : s.world.vault.rootKey with
    | none =>
      rw [Vault.status, hx] at hunlocked
      cases hunlocked
    | some k => rw [h.root.held k hx]
  have hshows : World.Shows s.world.vault s.world.db [] { s.world with sink := [] } :=
    ⟨rfl, rfl, rfl, hreliable⟩
  have hread := h.represents.triple_getToWriter hprim hkey h.root.loaded o .stream _ hshows
  have hanswer : ∀ (result : Except VaultError Unit) (w' : World ω),
      runVault (getToWriter prim o .stream) { s with world := { s.world with sink := [] } } =
        .ok result { s with world := w' } →
      (Vlt1.daemonStep prim config s (.request {} (some (.getStream objectId)))).1 =
        [.response (.ok .streamReady), .data w'.sink, .closing result] := by
    intro result w' hvault
    have hserve : serveStream prim config {} (some (.getStream objectId)) s = _ :=
      getStream_of_runVault hparse hvault
    exact congrArg Prod.fst (daemonStep_of_ok hrunning hserve)
  unfold runVault at hanswer
  unfold ObjectMap.download
  -- the read returns or finds no object, as the map has one or not
  cases hout : getToWriter prim o .stream { s.world with sink := [] } with
  | ok u w' =>
    rw [hout] at hread
    obtain ⟨plaintext, ho, hsink⟩ := hread
    rw [hanswer (.ok u) w' (by dsimp only; rw [hout]), ho, hsink]
    rfl
  | failed e w' =>
    rw [hout] at hread
    obtain ⟨he, ho, hsink⟩ := hread
    obtain rfl := Option.some.inj he
    rw [hanswer (.error .notFound) w' (by dsimp only; rw [hout]), ho, hsink]
    rfl
  | crashed w' =>
    rw [hout] at hread
    cases hread.1

/-- **The daemon refines the map.** In every run of a daemon on a vault created for it, in either profile,
through kills, crashes and faults, there is one sequence of maps that explains all answers: every step
commits some of the transactions of its calls, an upload answered as published is in the map, whatever is
answered to a `get`, sent in a download or counted by `verify` is what the map had. And after the run, an
unlocked daemon on storage that works answers an undisturbed download from the last map.

The AEAD opens what it has sealed, and a passphrase that a request tries does not open the envelope of that
moment by deriving another key than the one it was sealed under. -/
theorem daemon_refines_map (hprim : prim.OpensSealed) {passphrase : Text} (hp : passphrase ∈ Q)
    {u : Unit} (hcreate : create prim passphrase w = .ok u w') {s y : DaemonState ω}
    (hs : s.world = w'.locked) {inputs : List DaemonInput} (hinputs : ∀ i ∈ inputs, ¬i.Replaces)
    (hbound : ∀ t ∈ Run.trace (daemonStep prim config) s inputs, ∀ q, t.input.Tries q →
      t.before.world.vault.envelope.BoundFor prim Q q)
    (hsets : ∀ i ∈ inputs, ∀ q, i.Sets q → q ∈ Q)
    (hy : Run.final (daemonStep prim config) s inputs = y) :
    ∃ m, MapRun prim config .empty (Run.trace (daemonStep prim config) s inputs) m ∧
      (y.running = true → y.world.vault.status = .unlocked → Machine.Reliable y.world.outside →
        ∀ objectId o, parseRequestObjectId objectId = .ok o →
          (daemonStep prim config y (.request {} (some (.getStream objectId)))).1 = m.download o) := by
  obtain ⟨K, hcreated⟩ := HoldsMap.of_create hp hcreate
  have hstart : HoldsMap prim Q w'.vaultId K .empty s.world := hs ▸ hcreated.locked
  obtain ⟨m, hrun, hholds, -⟩ :=
    hstart.daemon_run config hprim (fun _ => by rw [hs]; rfl) hinputs hbound
      fun i hi q hq _ => hsets i hi q hq
  rw [hy] at hholds
  exact ⟨m, hrun, fun hrunning hunlocked hreliable objectId o hparse =>
    hholds.download hprim hrunning hunlocked hreliable hparse⟩

/-! ### Acknowledged uploads -/

/-- **Acknowledged uploads are durable.** A daemon answers an upload as published, by either path, and leaves
nothing pending. Then whatever follows without another upload to that object (kills, crashes and faults,
rotations, uploads of other objects, recoveries), the daemon answers for the object with that plaintext and
no other, and does so for an undisturbed download when it is unlocked and its storage works.

The AEAD opens what it has sealed, and a passphrase that a request tries does not open the envelope of that
moment by deriving another key than the one it was sealed under. -/
theorem acknowledged_upload_durable (hprim : prim.OpensSealed) {passphrase : Text}
    (hp : passphrase ∈ Q) {u : Unit} (hcreate : create prim passphrase w = .ok u w')
    {s x y : DaemonState ω} (hs : s.world = w'.locked) {earlier : List DaemonInput}
    (hearlier : ∀ i ∈ earlier, ¬i.Replaces)
    (hx : Run.final (daemonStep prim config) s earlier = x) {upload : DaemonInput} {versionId : Text}
    {plaintext : Bytes} (hsupplies : upload.Supplies prim o plaintext)
    (hpublished : .response (.ok (.published versionId)) ∈ (daemonStep prim config x upload).1)
    (hpending : (daemonStep prim config x upload).2.world.db.pending.rows = [])
    {later : List DaemonInput}
    (hlater : ∀ i ∈ later, ¬i.Replaces ∧ ∀ bytes, ¬i.Supplies prim o bytes)
    (hbound : ∀ t ∈ Run.trace (daemonStep prim config) s (earlier ++ upload :: later), ∀ q,
      t.input.Tries q → t.before.world.vault.envelope.BoundFor prim Q q)
    (hsets : ∀ i ∈ earlier ++ later, ∀ q, i.Sets q → q ∈ Q)
    (hy : Run.final (daemonStep prim config) (daemonStep prim config x upload).2 later = y)
    {objectId : Text} (hparse : parseRequestObjectId objectId = .ok o) :
    (∀ a text, .response (.ok (.plaintext text)) ∈
        (daemonStep prim config y (.request a (some (.get objectId)))).1 →
      text = prim.base64Encode plaintext) ∧
    (∀ a bytes, .data bytes ∈ (daemonStep prim config y (.request a (some (.getStream objectId)))).1 →
      bytes <+: plaintext ∧
      (.streamEnd ∈ (daemonStep prim config y (.request a (some (.getStream objectId)))).1 →
        bytes = plaintext)) ∧
    (y.running = true → y.world.vault.status = .unlocked → Machine.Reliable y.world.outside →
      (daemonStep prim config y (.request {} (some (.getStream objectId)))).1 =
        [.response (.ok .streamReady), .data plaintext, .streamEnd]) := by
  rw [Run.trace_append, Run.trace_cons, hx] at hbound
  obtain ⟨K, hcreated⟩ := HoldsMap.of_create hp hcreate
  have hstart : HoldsMap prim Q w'.vaultId K .empty s.world := hs ▸ hcreated.locked
  obtain ⟨m, -, hholds, hsettled⟩ := hstart.daemon_run config hprim (fun _ => by rw [hs]; rfl) hearlier
    (fun t ht => hbound t (List.mem_append_left _ ht))
    fun i hi q hq _ => hsets i (List.mem_append_left _ hi) q hq
  rw [hx] at hholds hsettled
  have hupload : ¬upload.Replaces ∧ (∀ q, ¬upload.Tries q) ∧ ∀ q, ¬upload.Sets q := by
    cases hsupplies <;> exact ⟨not_false, fun _ => not_false, fun _ => not_false⟩
  -- the upload is in the map, and nothing else can take its place
  obtain ⟨m', hstep, hholds'⟩ := hholds.daemonStep config hprim hsettled hupload.1
    (fun q hq => absurd hq (hupload.2.1 q)) fun q hq => absurd hq (hupload.2.2 q)
  obtain ⟨o', bytes, hsupplies', hlookup⟩ := hstep.published versionId hpublished
  obtain ⟨rfl, rfl⟩ := hsupplies.unique hsupplies'
  have hkeeps : ObjectMap.Keeps o' bytes { m' with staged := ∅ } :=
    ⟨hlookup, fun _ _ h => by cases h⟩
  obtain ⟨m'', hrun, hholds'', hsettled''⟩ := (hholds'.unstaged hpending).daemon_run config hprim
    (daemonStep_calls prim config hsettled hupload.1).1 (fun i hi => (hlater i hi).1)
    (fun t ht => hbound t (List.mem_append_right _ (List.mem_cons_of_mem _ ht)))
    fun i hi q hq _ => hsets i (List.mem_append_right _ hi) q hq
  rw [hy] at hholds'' hsettled''
  have hactive := (hrun.keeps (fun t ht => (hlater _ (Run.input_mem _ ht)).2) hkeeps).active
  -- so every answer is that of the map
  have hanswer : ∀ input : DaemonInput, input.Asks o' → ∃ m₁, MapStep prim config input
      (daemonStep prim config y input).1 m'' m₁ := by
    intro input hasks
    have hread : ¬input.Replaces ∧ (∀ q, ¬input.Tries q) ∧ ∀ q, ¬input.Sets q := by
      cases hasks <;> exact ⟨not_false, fun _ => not_false, fun _ => not_false⟩
    obtain ⟨m₁, hstep', -⟩ := hholds''.daemonStep config hprim hsettled'' hread.1
      (fun q hq => absurd hq (hread.2.1 q)) fun q hq => absurd hq (hread.2.2 q)
    exact ⟨m₁, hstep'⟩
  refine ⟨fun a text htext => ?_, fun a part hpart => ?_, fun hrunning hunlocked hreliable => ?_⟩
  · obtain ⟨m₁, hget⟩ := hanswer _ (.get a hparse)
    obtain ⟨_, _, o₁, found, heq, hparse', ho, rfl⟩ := hget.plaintext text htext
    cases heq
    obtain rfl := Except.ok.inj (hparse.symm.trans hparse')
    rw [Option.some.inj (ho.symm.trans hactive)]
  · obtain ⟨m₁, hget⟩ := hanswer _ (.getStream a hparse)
    obtain ⟨_, _, o₁, heq, hparse', hfirst, hall⟩ := hget.data part hpart
    cases heq
    obtain rfl := Except.ok.inj (hparse.symm.trans hparse')
    rw [hactive] at hfirst hall
    exact ⟨hfirst, fun hended => (Option.some.inj (hall hended)).symm⟩
  · rw [hholds''.download hprim hrunning hunlocked hreliable hparse, ObjectMap.download, hactive]

end

/-! ### Samples -/

/-- The daemon of the samples before its first start. -/
def mapDaemon : DaemonState SampleChannel := ⟨mapWorld.locked, false, none, false⟩

/-- The daemon is started and unlocked. -/
def openedMap : DaemonState SampleChannel :=
  Run.final (daemonStep .transparent sampleConfig) mapDaemon [.start, .ask (.unlock [112])]

/-- The upload of one byte. -/
def mapUpload : DaemonInput := .ask (.put sampleObject [97])

/-- The daemon is killed, started again and unlocked. -/
def mapRestart : List DaemonInput := [.kill, .start, .ask (.unlock [112])]

/-- The daemon after the upload and the restart. -/
def restartedMap : DaemonState SampleChannel :=
  Run.final (daemonStep .transparent sampleConfig) openedMap (mapUpload :: mapRestart)

/-- What happens in the samples, in one evaluation. -/
theorem restarted_run :
    (daemonStep .transparent sampleConfig openedMap mapUpload).1 = [.response (.ok (.published
      (⟨⟨9 :: List.replicate 15 0, rfl⟩⟩ : VersionId).toHex))] ∧
    (daemonStep .transparent sampleConfig openedMap mapUpload).2.world.db.pending.rows = [] ∧
    restartedMap.running = true ∧ restartedMap.world.vault.status = .unlocked ∧
    (∀ choice ∈ restartedMap.world.outside.choices, choice.fault = .none ∧ choice.written = none) ∧
    parseRequestObjectId sampleObject = .ok (.repeated 2) := by
  decide +kernel

/-- The refinement over the sample upload and the restarts behind it. -/
theorem daemon_refines_map_sample : ∃ m, MapRun .transparent sampleConfig .empty
      (Run.trace (daemonStep .transparent sampleConfig) mapDaemon
        ([.start, .ask (.unlock [112])] ++ mapUpload :: mapRestart)) m ∧
    (daemonStep .transparent sampleConfig restartedMap (.ask (.getStream sampleObject))).1 =
      m.download (.repeated 2) := by
  obtain ⟨-, -, hrunning, hunlocked, hcalm, hparse⟩ := restarted_run
  have hinputs : ∀ i ∈ [.start, .ask (.unlock [112])] ++ mapUpload :: mapRestart, ¬i.Replaces := by
    simp [mapUpload, mapRestart, DaemonInput.ask, DaemonInput.Replaces]
  have hsets : ∀ i ∈ [.start, .ask (.unlock [112])] ++ mapUpload :: mapRestart,
      ∀ q, i.Sets q → q ∈ ({[112]} : Set Text) := by
    simp [mapUpload, mapRestart, DaemonInput.ask, DaemonInput.Sets]
  have hstart : mapDaemon.world = mapWorld.locked := rfl
  have hrun : Run.final (daemonStep .transparent sampleConfig) mapDaemon
      ([.start, .ask (.unlock [112])] ++ mapUpload :: mapRestart) = restartedMap :=
    Run.final_append _ _ _ _
  have hreliable : Machine.Reliable restartedMap.world.outside := Channel.reliable hcalm
  obtain ⟨m, hmap, hdownload⟩ := daemon_refines_map (Q := {[112]})
    Primitives.idealAead_transparent.toOpensSealed rfl create_mapWorld hstart hinputs
    (fun _ _ q _ => Primitives.idealAead_transparent.boundFor _ _ q) hsets hrun
  exact ⟨m, hmap, hdownload hrunning hunlocked hreliable sampleObject (.repeated 2) hparse⟩

/-- The sample upload, read back after the restarts. -/
theorem acknowledged_upload_durable_sample :
    (daemonStep .transparent sampleConfig openedMap mapUpload).1 = [.response (.ok (.published
      (⟨⟨9 :: List.replicate 15 0, rfl⟩⟩ : VersionId).toHex))] ∧
    (daemonStep .transparent sampleConfig restartedMap (.ask (.getStream sampleObject))).1 =
      [.response (.ok .streamReady), .data [97], .streamEnd] := by
  obtain ⟨hanswer, hpending, hrunning, hunlocked, hcalm, hparse⟩ := restarted_run
  refine ⟨hanswer, ?_⟩
  have hstart : mapDaemon.world = mapWorld.locked := rfl
  have hearlier : ∀ i ∈ [DaemonInput.start, .ask (.unlock [112])], ¬i.Replaces := by
    simp [DaemonInput.ask, DaemonInput.Replaces]
  have hopened : Run.final (daemonStep .transparent sampleConfig) mapDaemon
      [.start, .ask (.unlock [112])] = openedMap := rfl
  have hsupplies : mapUpload.Supplies .transparent (.repeated 2) [97] := .put {} hparse rfl
  have hpublished : .response (.ok (.published
        (⟨⟨9 :: List.replicate 15 0, rfl⟩⟩ : VersionId).toHex)) ∈
      (daemonStep .transparent sampleConfig openedMap mapUpload).1 :=
    hanswer ▸ List.mem_singleton_self _
  have hlater : ∀ i ∈ mapRestart,
      ¬i.Replaces ∧ ∀ bytes, ¬i.Supplies .transparent (.repeated 2) bytes := by
    intro i hi
    simp only [mapRestart, List.mem_cons, List.not_mem_nil, or_false] at hi
    rcases hi with rfl | rfl | rfl <;> exact ⟨not_false, fun _ h => by cases h⟩
  have hreliable : Machine.Reliable restartedMap.world.outside := Channel.reliable hcalm
  have hrestarted : Run.final (daemonStep .transparent sampleConfig)
      (daemonStep .transparent sampleConfig openedMap mapUpload).2 mapRestart = restartedMap :=
    (Run.final_cons _ _ _ _).symm
  have hsets : ∀ i ∈ [DaemonInput.start, .ask (.unlock [112])] ++ mapRestart,
      ∀ q, i.Sets q → q ∈ ({[112]} : Set Text) := by
    simp [mapRestart, DaemonInput.ask, DaemonInput.Sets]
  obtain ⟨-, -, hdownload⟩ := acknowledged_upload_durable (Q := {[112]})
    Primitives.idealAead_transparent.toOpensSealed rfl create_mapWorld hstart hearlier hopened
    hsupplies hpublished hpending hlater (fun _ _ q _ => Primitives.idealAead_transparent.boundFor _ _ q) hsets hrestarted hparse
  exact hdownload hrunning hunlocked hreliable

end Vlt1
