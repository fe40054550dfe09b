import Vlt1.Library.Files
import Vlt1.StreamItems

/-!
# The client's side of a download

`get` of the command line client reads the response to its request and then one item after another, which it
appends to a temporary file. After the end marker it links the file to the output path. Each call it makes to
the file system or the socket may fail on its own (`GetStep`).

`triple_get` says what has become of the file system whatever the client received and whichever calls failed:
nothing, or the output path names a file with exactly the items in front of an end marker. The temporary file
has a fresh name and is removed when `get` returns, so it is not part of the file system here.
-/

namespace Vlt1.Cli

open Effect Files Framing Protocol

/-- The calls of `get` that can fail. -/
inductive GetStep where
  | inspectParent (again : Bool) (ancestor : Path)
  | inspectOutput (again : Bool)
  | createTemporary
  | protectTemporary
  | connect
  | sendRequest
  /-- The write of an item, after so many others. -/
  | writeTemporary (n : ℕ)
  | syncTemporary
  | link
  | syncParent
deriving DecidableEq

/-- Why `get` gives up. -/
inductive GetError where
  | text (message : String)
  /-- A message that ends with a path. -/
  | path (message : String) (path : Path)
  | response (e : CliError)
deriving DecidableEq

/-- What the client has to do with: the bytes it receives, and the file system. -/
structure Client where
  input : Input UInt8
  files : FileSystem

/-- A computation of the client. -/
abbrev CliOp (α : Type) := Op GetError Client α

/-- Take something from the socket. -/
def receive {α : Type} (context : String) (x : ReadOp α) : CliOp α :=
  fun s =>
    match x s.input with
    | .ok a input => .ok a { s with input }
    | .failed e input => .failed (.response (.unread context e)) { s with input }
    | .crashed input => .crashed { s with input }

section

variable (fails : GetStep → Bool) (responses : Codec Response)

/-- A call that may fail. -/
def attempt (step : GetStep) (e : GetError) : CliOp Unit := Op.require (fails step = false) e

/-- One directory above the output. -/
def validateAncestor (again : Bool) (files : FileSystem) (ancestor : Path) : CliOp Unit := do
  attempt fails (.inspectParent again ancestor)
    (.path "plaintext output parent directory does not exist: " ancestor)
  Op.require (files.node ancestor ≠ none)
    (.path "plaintext output parent directory does not exist: " ancestor)
  Op.require (files.node ancestor = some .directory)
    (.path "plaintext output parent must be a direct directory path: " ancestor)

/-- `validate_new_plaintext_output`. -/
def validateNewPlaintextOutput (again : Bool) (output : Path) : CliOp Path := do
  match output.parent with
  | none => Op.fail (.text "plaintext output path has no parent directory")
  | some parent =>
    let s ← Op.get
    Op.fold (fun _ ancestor => validateAncestor fails again s.files ancestor) ()
      (parent.orHere.ancestors.filter (· ≠ .empty))
    attempt fails (.inspectOutput again) (.path "could not inspect plaintext output path: " output)
    Op.require (s.files.node output = none) (.path "refusing to overwrite plaintext output: " output)
    return parent.orHere

/-- `hard_link` of a temporary file with this content. -/
def linkTemporary (content : Bytes) (output : Path) : CliOp Unit := do
  attempt fails .link (.path "refusing to overwrite plaintext output: " output)
  match (← Op.get).files.create output content with
  | none => Op.fail (.path "refusing to overwrite plaintext output: " output)
  | some files => Op.modify fun s => { s with files }

/-- `publish_private_temporary_file`. -/
def publishPrivateTemporaryFile (content : Bytes) (output : Path) : CliOp Unit := do
  let parent ← validateNewPlaintextOutput fails true output
  linkTemporary fails content output
  attempt fails .syncParent (.path "could not sync plaintext output directory: " parent)

/-- The loop of `get`, with what the temporary file holds after `n` items. An item takes at least its length
bytes, so `fuel` above the length of the input never runs out. -/
def receiveItems (output : Path) : ℕ → ℕ → Bytes → CliOp Bytes
  | 0, _, _ => Op.fail (.response (.unread "could not read download chunk" .truncated))
  | fuel + 1, n, written => do
    match ← receive "could not read download chunk" (readStreamItem responses) with
    | .data chunk =>
      attempt fails (.writeTemporary n) (.path "could not write temporary output for " output)
      receiveItems output fuel (n + 1) (written ++ chunk)
    | .finish => return written
    | .error (.error code message) =>
      Op.fail (.response (.daemon ("daemon " ++ codeToText code ++ ": " ++ message)))
    | .error (.ok _) =>
      Op.fail (.text "daemon returned an invalid successful stream error response")

/-- `get`, for an object that the request names. -/
def get (socket output : Path) : CliOp Unit := do
  let _ ← validateNewPlaintextOutput fails false output
  attempt fails .createTemporary (.path "could not create temporary output beside " output)
  attempt fails .protectTemporary (.path "could not protect temporary output for " output)
  attempt fails .connect (.path "could not connect to " socket)
  attempt fails .sendRequest (.text "could not start streaming download")
  let response ← receive "could not read daemon response" (readFrame responses)
  let result ← Op.ofExcept ((responseToResult response).mapError .response)
  Op.require (result = .streamReady)
    (.text "daemon returned an unexpected streaming readiness payload")
  let s ← Op.get
  let content ← receiveItems fails responses output (s.input.rest.length + 1) 0 []
  attempt fails .syncTemporary (.path "could not sync temporary output for " output)
  publishPrivateTemporaryFile fails content output

end

/-! ### What a client leaves behind -/

variable {fails : GetStep → Bool} {responses : Codec Response} {socket output : Path}

/-- A read from the socket touches no file. -/
theorem triple_receive {α : Type} {context : String} (x : ReadOp α) (input : Input UInt8)
    (t : FileSystem) :
    Op.Triple (· = ⟨input, t⟩) (receive context x)
      (fun a s => x input = .ok a s.input ∧ s.files = t) fun _ s => s.files = t := by
  rintro _ rfl
  unfold receive
  cases hx : x input with
  | ok a input => exact ⟨rfl, rfl⟩
  | failed e input => rfl
  | crashed input => rfl

theorem triple_validateAncestor {again : Bool} {files : FileSystem} {ancestor : Path} (s : Client) :
    Op.Triple (· = s) (validateAncestor fails again files ancestor) (fun _ => (· = s))
      fun _ => (· = s) := by
  refine Op.Triple.bind_require (fun _ => ?_) fun _ _ hs => hs
  refine Op.Triple.bind_require (fun _ => ?_) fun _ _ hs => hs
  exact Op.Triple.require (fun _ _ hs => hs) fun _ _ hs => hs

theorem triple_validateNewPlaintextOutput {again : Bool} (s : Client) :
    Op.Triple (· = s) (validateNewPlaintextOutput fails again output) (fun _ => (· = s))
      fun _ => (· = s) := by
  unfold validateNewPlaintextOutput
  split
  · exact fun _ hs => hs
  · refine Op.Triple.bind_get fun s' hs => ?_
    subst hs
    refine Op.Triple.bind (fun _ => (· = s')) ?_ fun _ => ?_
    · exact Op.Triple.fold (I := fun _ _ _ => (· = s')) (fun _ _ _ _ => triple_validateAncestor s') [] _ _
    refine Op.Triple.bind_require (fun _ => ?_) fun _ _ hs => hs
    refine Op.Triple.bind_require (fun _ => ?_) fun _ _ hs => hs
    exact Op.Triple.pure fun _ hs => hs

/-- The output names this content now, and named nothing. -/
def Linked (output : Path) (content : Bytes) (t t' : FileSystem) : Prop :=
  t.node output = none ∧ t' = t.put output content

/-- The temporary file is linked, or nothing happens. -/
theorem triple_linkTemporary {content : Bytes} (s : Client) :
    Op.Triple (· = s) (linkTemporary fails content output)
      (fun _ s' => Linked output content s.files s'.files) fun _ s' => s'.files = s.files := by
  refine Op.Triple.bind_require (fun _ => ?_) fun _ _ hs => congrArg Client.files hs
  refine Op.Triple.bind_get fun s' hs => ?_
  subst hs
  cases hcreate : s'.files.create output content with
  | none =>
    rintro _ rfl
    rfl
  | some files =>
    obtain ⟨⟨-, hfree⟩, hput⟩ := FileSystem.create_eq_some.mp hcreate
    rintro _ rfl
    exact ⟨hfree, hput.symm⟩

theorem triple_publishPrivateTemporaryFile {content : Bytes} (s : Client) :
    Op.Triple (· = s) (publishPrivateTemporaryFile fails content output)
      (fun _ s' => Linked output content s.files s'.files)
      fun _ s' => s'.files = s.files ∨ Linked output content s.files s'.files := by
  refine Op.Triple.bind (fun _ => (· = s)) ?_ fun parent => ?_
  · exact (triple_validateNewPlaintextOutput s).conseq (fun _ hs => hs) (fun _ _ hs => hs)
      fun _ _ hs => .inl (congrArg Client.files hs)
  refine Op.Triple.bind _ ?_ fun _ => Op.Triple.require (fun _ _ h => h) fun _ _ h => .inr h
  exact (triple_linkTemporary s).conseq (fun _ hs => hs) (fun _ _ h => h) fun _ _ h => .inl h

/-- The loop ends with the items in front of an end marker. -/
theorem triple_receiveItems {fuel n : ℕ} {written : Bytes} (input : Input UInt8) (t : FileSystem) :
    Op.Triple (· = ⟨input, t⟩) (receiveItems fails responses output fuel n written)
      (fun content s => s.files = t ∧
        ∃ chunks, Completes input.rest chunks ∧ content = written ++ chunks.flatten)
      fun _ s => s.files = t := by
  induction fuel generalizing n written input with
  | zero =>
    rintro _ rfl
    rfl
  | succ fuel ih =>
    refine Op.Triple.bind _ (triple_receive _ input t) fun item => Op.Triple.of_state ?_
    rintro ⟨next, t'⟩ ⟨hread, hfiles⟩
    obtain rfl : t' = t := hfiles
    cases item with
    | data chunk =>
      obtain ⟨hchunk, hrest⟩ := readStreamItem_data hread
      refine Op.Triple.bind_require (fun _ => ?_) fun _ _ hs => congrArg Client.files hs
      refine (ih next).conseq (fun _ hs => hs) ?_ fun _ _ h => h
      rintro content s' ⟨hfiles', chunks, ⟨hchunks, rest, hnext⟩, rfl⟩
      refine ⟨hfiles', chunk :: chunks, ⟨List.forall_mem_cons.mpr ⟨hchunk, hchunks⟩, rest, ?_⟩, ?_⟩
      · rw [hrest, hnext, List.map_cons, List.flatten_cons, List.append_assoc]
      · rw [List.flatten_cons, List.append_assoc]
    | finish =>
      rintro _ rfl
      refine ⟨rfl, [], ⟨nofun, next.rest, readStreamItem_finish hread⟩, ?_⟩
      rw [List.flatten_nil, List.append_nil]
    | error response =>
      rintro _ rfl
      cases response <;> rfl

/-- The client read the ready response and then a complete stream of these chunks. -/
def Received (responses : Codec Response) (input : Input UInt8) (chunks : List Bytes) : Prop :=
  ∃ next, readFrame responses input = .ok (.ok .streamReady) next ∧ Completes next.rest chunks

/-- What a download leaves behind: nothing, or the output with what was received in front of an end marker;
the latter if `get` returns. -/
theorem triple_get (s : Client) :
    Op.Triple (· = s) (get fails responses socket output)
      (fun _ s' => ∃ chunks, Received responses s.input chunks ∧
        Linked output chunks.flatten s.files s'.files)
      fun _ s' => s'.files = s.files ∨ ∃ chunks, Received responses s.input chunks ∧
        Linked output chunks.flatten s.files s'.files := by
  have hsame : ∀ s', s' = s → s'.files = s.files ∨ ∃ chunks, Received responses s.input chunks ∧
      Linked output chunks.flatten s.files s'.files := fun s' hs => .inl (congrArg Client.files hs)
  refine Op.Triple.bind (fun _ => (· = s)) ?_ fun _ => ?_
  · exact (triple_validateNewPlaintextOutput s).conseq (fun _ hs => hs) (fun _ _ hs => hs)
      fun _ => hsame
  refine Op.Triple.bind_require (fun _ => ?_) fun s' _ => hsame s'
  refine Op.Triple.bind_require (fun _ => ?_) fun s' _ => hsame s'
  refine Op.Triple.bind_require (fun _ => ?_) fun s' _ => hsame s'
  refine Op.Triple.bind_require (fun _ => ?_) fun s' _ => hsame s'
  refine Op.Triple.bind _ ((triple_receive (readFrame responses) s.input s.files).conseq
    (fun _ hs => hs) (fun _ _ h => h) fun _ _ h => .inl h) fun response => Op.Triple.of_state ?_
  rintro ⟨next, t⟩ ⟨hread, hfiles⟩
  obtain rfl : t = s.files := hfiles
  refine Op.Triple.bind_ofExcept (fun result hresult => ?_) fun _ _ _ hs => .inl (by rw [hs])
  refine Op.Triple.bind_require (fun hready => ?_) fun _ _ hs => .inl (by rw [hs])
  -- only the ready response gets here
  have hresponse : response = .ok .streamReady := by
    subst hready
    cases response with
    | ok result =>
      cases hresult
      rfl
    | error code message => cases hresult
  subst hresponse
  refine Op.Triple.bind_get fun s' hs => ?_
  obtain rfl := hs
  refine Op.Triple.bind _ ((triple_receiveItems next s.files).conseq (fun _ hs => hs)
    (fun _ _ h => h) fun _ _ h => .inl h) fun content => ?_
  refine Op.Triple.bind_require (fun _ => Op.Triple.of_state ?_) fun _ _ h => .inl h.1
  rintro s' ⟨hfiles, chunks, hcompletes, hcontent⟩
  rw [List.nil_append] at hcontent
  subst hcontent
  rw [← hfiles]
  refine (triple_publishPrivateTemporaryFile s').conseq (fun _ hs => hs) ?_ ?_
  · exact fun _ _ h => ⟨chunks, ⟨next, hread, hcompletes⟩, h⟩
  · exact fun _ _ h => h.imp_right fun h => ⟨chunks, ⟨next, hread, hcompletes⟩, h⟩

/-! ### Downloads that are linked -/

/-- The output is a new path below real directories. -/
structure Writable (output : Path) (t : FileSystem) : Prop where
  parent : ∃ parent, output.parent = some parent ∧
    ∀ a ∈ parent.orHere.ancestors.filter (· ≠ .empty), t.node a = some .directory
  free : t.node output = none

theorem Writable.ne_empty {t : FileSystem} (h : Writable output t) : output ≠ .empty := by
  rintro rfl
  obtain ⟨parent, hparent, -⟩ := h.parent
  cases hparent

/-- A read that succeeds. -/
theorem total_receive_bind {α β : Type} {context : String} {x : ReadOp α} {f : α → CliOp β} {a : α}
    {input next : Input UInt8} {t : FileSystem} {post : β → Client → Prop}
    (hx : x input = .ok a next) (hf : Op.Total (· = ⟨next, t⟩) (f a) post) :
    Op.Total (· = ⟨input, t⟩) (receive context x >>= f) post := by
  rintro _ rfl
  have hreceive : receive context x ⟨input, t⟩ = .ok a ⟨next, t⟩ := by
    unfold receive
    rw [hx]
  rw [Op.bind_of_ok hreceive]
  exact hf _ rfl

section

variable {t : FileSystem} (hfails : ∀ step, fails step = false) (hwritable : Writable output t)

include hfails

/-- A call that does not fail. -/
theorem total_attempt_bind {α : Type} {step : GetStep} {e : GetError} {f : Unit → CliOp α}
    {pre : Client → Prop} {post : α → Client → Prop} (hf : Op.Total pre (f ()) post) :
    Op.Total pre (attempt fails step e >>= f) post :=
  Op.Triple.bind_require (fun _ => hf) fun _ hneg _ => hneg (hfails step)

include hwritable

theorem total_validateNewPlaintextOutput {again : Bool} (input : Input UInt8) :
    Op.Total (· = ⟨input, t⟩) (validateNewPlaintextOutput fails again output)
      fun _ => (· = ⟨input, t⟩) := by
  obtain ⟨parent, hparent, hdirectories⟩ := hwritable.parent
  unfold validateNewPlaintextOutput
  rw [hparent]
  refine Op.Triple.bind_get fun s hs => ?_
  subst hs
  refine Op.Triple.bind (fun _ => (· = ⟨input, t⟩)) ?_ fun _ => ?_
  · -- what is left of the ancestors are directories
    refine (Op.Triple.fold (I := fun _ rest _ s => (∀ a ∈ rest, t.node a = some .directory) ∧
      s = ⟨input, t⟩) (fun done a rest _ => Op.Triple.of_imp fun hrest => ?_) [] _ ()).conseq
      (fun s hs => ⟨hdirectories, hs⟩) (fun _ _ h => h.2) fun _ _ h => h
    obtain ⟨hdirectory, hrest⟩ := List.forall_mem_cons.mp hrest
    refine total_attempt_bind hfails ?_
    refine Op.Triple.bind_require (fun _ => ?_) fun _ hneg _ => hneg (by rw [hdirectory]; nofun)
    exact Op.Triple.require (fun _ _ hs => ⟨hrest, hs⟩) fun hneg _ _ => hneg hdirectory
  refine total_attempt_bind hfails ?_
  refine Op.Triple.bind_require (fun _ => ?_) fun _ hneg _ => hneg hwritable.free
  exact Op.Triple.pure fun _ hs => hs

theorem total_publishPrivateTemporaryFile {content : Bytes} (input : Input UInt8) :
    Op.Total (· = ⟨input, t⟩) (publishPrivateTemporaryFile fails content output)
      fun _ s => Linked output content t s.files := by
  refine Op.Triple.bind _ (total_validateNewPlaintextOutput hfails hwritable input) fun parent => ?_
  refine Op.Triple.bind (fun _ s => Linked output content t s.files) ?_ fun _ => ?_
  · refine total_attempt_bind hfails ?_
    refine Op.Triple.bind_get fun s hs => ?_
    subst hs
    have hcreate : t.create output content = some (t.put output content) :=
      FileSystem.create_eq_some.mpr ⟨⟨hwritable.ne_empty, hwritable.free⟩, rfl⟩
    rw [hcreate]
    rintro _ rfl
    exact ⟨hwritable.free, rfl⟩
  · exact Op.Triple.require (fun _ _ h => h) fun hneg _ _ => hneg (hfails _)

omit hwritable

/-- The loop takes a complete stream to its end. -/
theorem total_receiveItems {fuel n : ℕ} {written : Bytes} {chunks : List Bytes} {input : Input UInt8}
    (h : Completes input.rest chunks) (hfuel : input.rest.length < fuel) :
    Op.Total (· = ⟨input, t⟩) (receiveItems fails responses output fuel n written)
      fun content s => content = written ++ chunks.flatten ∧ s.files = t := by
  induction fuel generalizing chunks n written input with
  | zero => cases hfuel
  | succ fuel ih =>
    cases chunks with
    | nil =>
      obtain ⟨next, hread⟩ := h.read_nil responses
      refine total_receive_bind hread (Op.Triple.pure ?_)
      rintro _ rfl
      exact ⟨by rw [List.flatten_nil, List.append_nil], rfl⟩
    | cons chunk chunks =>
      obtain ⟨next, hread, hnext⟩ := h.read_cons responses
      refine total_receive_bind hread (total_attempt_bind hfails ?_)
      refine (ih hnext (Nat.lt_of_lt_of_le (length_lt_of_data hread)
        (Nat.lt_succ_iff.mp hfuel))).mono_post ?_
      rintro content s ⟨hcontent, hfiles⟩
      exact ⟨by rw [hcontent, List.flatten_cons, List.append_assoc], hfiles⟩

include hwritable

/-- A complete stream is linked to a new output if nothing else fails. -/
theorem total_get {chunks : List Bytes} {input : Input UInt8} (h : Received responses input chunks) :
    Op.Total (· = ⟨input, t⟩) (get fails responses socket output)
      fun _ s => Linked output chunks.flatten t s.files := by
  obtain ⟨next, hread, hcompletes⟩ := h
  refine Op.Triple.bind _ (total_validateNewPlaintextOutput hfails hwritable input) fun _ => ?_
  refine total_attempt_bind hfails (total_attempt_bind hfails ?_)
  refine total_attempt_bind hfails (total_attempt_bind hfails ?_)
  refine total_receive_bind hread ?_
  refine Op.Triple.bind_ofExcept (fun result hresult => ?_) fun _ _ herror _ => by cases herror
  cases hresult
  refine Op.Triple.bind_require (fun _ => ?_) fun _ hneg _ => hneg rfl
  refine Op.Triple.bind_get fun s hs => ?_
  subst hs
  refine Op.Triple.bind _ (total_receiveItems hfails hcompletes (Nat.lt_succ_self _)) fun content => ?_
  refine total_attempt_bind hfails (Op.Triple.of_state ?_)
  rintro ⟨rest, t'⟩ ⟨rfl, hfiles⟩
  obtain rfl : t' = t := hfiles
  exact total_publishPrivateTemporaryFile hfails hwritable rest

end

end Vlt1.Cli
