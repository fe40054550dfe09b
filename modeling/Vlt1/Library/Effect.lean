import Mathlib.Order.Defs.Unbundled

/-!
# Computations with a state, an error and a crash

`Op ε σ α` is a state-passing computation over a state `σ`. It returns a value, fails with an
error `ε`, or is cut short by a crash, and in all three cases the state reached is kept: a store
that has committed a transaction stays committed when a later step fails.

The module gives the monad, the rules that take a sequence of computations apart
(`bind_eq_ok`, `bind_eq_failed`), the relational rule `Keeps` for what every outcome of a
computation preserves, and a small logic of pre- and postconditions (`Triple`), whose
postconditions speak about a return and about a stop (a failure or a crash) separately.
-/

namespace Effect

variable {ε σ α β : Type}

/-- How a computation ended, with the state it left behind. -/
inductive Outcome (ε σ α : Type) where
  /-- It returned `a`. -/
  | ok (a : α) (s : σ)
  /-- It failed with `e`. -/
  | failed (e : ε) (s : σ)
  /-- It was cut short. -/
  | crashed (s : σ)

namespace Outcome

/-- The state a computation left behind, however it ended. -/
def state : Outcome ε σ α → σ
  | ok _ s => s
  | failed _ s => s
  | crashed s => s

/-- The value or the error, once the state is dropped; a crash gives neither. -/
def result : Outcome ε σ α → Option (Except ε α)
  | ok a _ => some (.ok a)
  | failed e _ => some (.error e)
  | crashed _ => none

/-- Change the state a computation left, keeping how it ended. -/
def mapState {τ : Type} (f : σ → τ) : Outcome ε σ α → Outcome ε τ α
  | ok a s => ok a (f s)
  | failed e s => failed e (f s)
  | crashed s => crashed (f s)

/-- What a computation that came to its end leaves after a clean-up. -/
def cleanUp (f : σ → σ) : Outcome ε σ α → Outcome ε σ α
  | ok a s => ok a (f s)
  | failed e s => failed e (f s)
  | crashed s => crashed s

/-- An outcome whose result is an error is that failure. -/
theorem eq_failed_of_result {o : Outcome ε σ α} {e : ε} (h : o.result = some (.error e)) :
    o = failed e o.state := by
  cases o with
  | ok a s => cases h
  | failed e' s => cases h; rfl
  | crashed s => cases h

/-- An outcome whose result is a value is that return. -/
theorem eq_ok_of_result {o : Outcome ε σ α} {a : α} (h : o.result = some (.ok a)) :
    o = ok a o.state := by
  cases o with
  | ok a' s => cases h; rfl
  | failed e s => cases h
  | crashed s => cases h

/-- A computation that has a value has returned it. -/
theorem exists_eq_ok {o : Outcome ε σ α} (h : (o.result.bind Except.toOption).isSome) :
    ∃ a s, o = ok a s := by
  cases o with
  | ok a s => exact ⟨a, s, rfl⟩
  | failed e s => cases h
  | crashed s => cases h

@[simp] theorem state_ok (a : α) (s : σ) : (ok a s : Outcome ε σ α).state = s := rfl

@[simp] theorem state_failed (e : ε) (s : σ) : (failed e s : Outcome ε σ α).state = s := rfl

@[simp] theorem state_crashed (s : σ) : (crashed s : Outcome ε σ α).state = s := rfl

@[simp] theorem state_mapState {τ : Type} (f : σ → τ) (o : Outcome ε σ α) :
    (o.mapState f).state = f o.state := by
  cases o <;> rfl

end Outcome

open Outcome

/-- A computation over the state `σ`. -/
def Op (ε σ α : Type) : Type := σ → Outcome ε σ α

namespace Op

instance : Monad (Op ε σ) where
  pure a := fun s => ok a s
  bind x f := fun s =>
    match x s with
    | ok a s' => f a s'
    | failed e s' => failed e s'
    | crashed s' => crashed s'

/-- Read the state. -/
def get : Op ε σ σ := fun s => ok s s

/-- Change the state. -/
def modify (f : σ → σ) : Op ε σ Unit := fun s => ok () (f s)

/-- Stop with an error. -/
def fail (e : ε) : Op ε σ α := fun s => failed e s

/-- Go on if `p` holds, stop with `e` otherwise. -/
def require (p : Prop) [Decidable p] (e : ε) : Op ε σ Unit :=
  if p then pure () else fail e

/-- A pure computation that may fail. -/
def ofExcept : Except ε α → Op ε σ α
  | .ok a => pure a
  | .error e => fail e

/-- Run `x` for each element of a list, in order, threading an accumulator. -/
def fold (f : β → α → Op ε σ β) : β → List α → Op ε σ β
  | b, [] => pure b
  | b, a :: as => do
    let b' ← f b a
    fold f b' as

/-- Run a computation over a larger state `τ`, on the part `view` reads and `put` writes back. -/
def zoom {τ : Type} (view : τ → σ) (put : σ → τ → τ) (x : Op ε σ α) : Op ε τ α :=
  fun t => (x (view t)).mapState fun s => put s t

/-- Run a computation and clean up behind it, whether it returns or fails. -/
def ensuring (f : σ → σ) (x : Op ε σ α) : Op ε σ α := fun s => (x s).cleanUp f

@[simp] theorem pure_apply (a : α) (s : σ) : (pure a : Op ε σ α) s = ok a s := rfl

@[simp] theorem get_apply (s : σ) : (get : Op ε σ σ) s = ok s s := rfl

@[simp] theorem modify_apply (f : σ → σ) (s : σ) : (modify f : Op ε σ Unit) s = ok () (f s) := rfl

@[simp] theorem fail_apply (e : ε) (s : σ) : (fail e : Op ε σ α) s = failed e s := rfl

@[simp] theorem ofExcept_ok (a : α) : (ofExcept (.ok a) : Op ε σ α) = pure a := rfl

@[simp] theorem ofExcept_error (e : ε) : (ofExcept (.error e) : Op ε σ α) = fail e := rfl

theorem require_pos {p : Prop} [Decidable p] {e : ε} (h : p) :
    (require p e : Op ε σ Unit) = pure () := if_pos h

theorem require_neg {p : Prop} [Decidable p] {e : ε} (h : ¬p) :
    (require p e : Op ε σ Unit) = fail e := if_neg h

/-- A sequence runs its second part from the state the first left, and only after a return. -/
theorem bind_apply (x : Op ε σ α) (f : α → Op ε σ β) (s : σ) :
    (x >>= f) s = match x s with
      | ok a s' => f a s'
      | failed e s' => failed e s'
      | crashed s' => crashed s' := rfl

/-- Nothing happens in `pure`. -/
@[simp] theorem pure_bind (a : α) (f : α → Op ε σ β) : (pure a >>= f) = f a := rfl

/-- How a sequence is bracketed does not matter. -/
theorem bind_assoc {γ : Type} (x : Op ε σ α) (f : α → Op ε σ β) (g : β → Op ε σ γ) :
    (x >>= f >>= g) = x >>= fun a => f a >>= g := by
  funext s
  simp only [bind_apply]
  cases x s <;> rfl

/-! ### Taking a sequence apart -/

/-- A sequence that continues after `x` returned. -/
theorem bind_of_ok {x : Op ε σ α} {f : α → Op ε σ β} {s s' : σ} {a : α} (h : x s = ok a s') :
    (x >>= f) s = f a s' := by
  rw [bind_apply, h]

/-- A sequence that stops where `x` failed. -/
theorem bind_of_failed {x : Op ε σ α} {f : α → Op ε σ β} {s s' : σ} {e : ε}
    (h : x s = failed e s') : (x >>= f) s = failed e s' := by
  rw [bind_apply, h]

/-- A sequence returns exactly when both halves do. -/
theorem bind_eq_ok {x : Op ε σ α} {f : α → Op ε σ β} {s s'' : σ} {b : β} :
    (x >>= f) s = ok b s'' ↔ ∃ a s', x s = ok a s' ∧ f a s' = ok b s'' := by
  rw [bind_apply]
  cases x s with
  | ok a s' => simp [and_assoc]
  | failed e s' => simp
  | crashed s' => simp

/-- A sequence fails exactly when its first half fails, or returns and the second half fails. -/
theorem bind_eq_failed {x : Op ε σ α} {f : α → Op ε σ β} {s s'' : σ} {e : ε} :
    (x >>= f) s = failed e s'' ↔
      x s = failed e s'' ∨ ∃ a s', x s = ok a s' ∧ f a s' = failed e s'' := by
  rw [bind_apply]
  cases x s with
  | ok a s' => simp [and_assoc]
  | failed e s' => simp
  | crashed s' => simp

/-- A sequence goes on with its second half, or leaves what its first half left. -/
theorem bind_cases (x : Op ε σ α) (f : α → Op ε σ β) (s : σ) :
    (∃ a s', x s = ok a s' ∧ (x >>= f) s = f a s') ∨
      (∀ a s', x s ≠ ok a s') ∧ ((x >>= f) s).state = (x s).state := by
  rw [bind_apply]
  cases x s with
  | ok a s' => exact .inl ⟨a, s', rfl, rfl⟩
  | failed e s' => exact .inr ⟨nofun, rfl⟩
  | crashed s' => exact .inr ⟨nofun, rfl⟩

/-- A pure computation returns its value and leaves the state alone. -/
theorem ofExcept_eq_ok {r : Except ε α} {s s' : σ} {a : α} :
    (ofExcept r : Op ε σ α) s = ok a s' ↔ r = .ok a ∧ s = s' := by
  cases r with
  | ok b => simp
  | error e => simp

/-- A pure computation fails with its error and leaves the state alone. -/
theorem ofExcept_eq_failed {r : Except ε α} {s s' : σ} {e : ε} :
    (ofExcept r : Op ε σ α) s = failed e s' ↔ r = .error e ∧ s = s' := by
  cases r with
  | ok b => simp
  | error e => simp

/-- A check that went through was met. -/
theorem require_eq_ok {p : Prop} [Decidable p] {e : ε} {s s' : σ} {u : Unit} :
    (require p e : Op ε σ Unit) s = ok u s' ↔ p ∧ s = s' := by
  by_cases h : p
  · rw [require_pos h]; simp [h]
  · rw [require_neg h]; simp [h]

/-! ### What a computation keeps -/

/-- Whatever the outcome of `x`, the state it leaves is related to the state it started in. -/
def Keeps (R : σ → σ → Prop) (x : Op ε σ α) : Prop :=
  ∀ s, R s (x s).state

namespace Keeps

variable {R : σ → σ → Prop}

/-- What is kept holds between the state before and the state at a return. -/
theorem of_ok {x : Op ε σ α} (h : Keeps R x) {s s' : σ} {a : α} (hx : x s = ok a s') : R s s' := by
  have := h s
  rwa [hx] at this

/-- What is kept holds between the state before and the state at a failure. -/
theorem of_failed {x : Op ε σ α} (h : Keeps R x) {s s' : σ} {e : ε} (hx : x s = failed e s') :
    R s s' := by
  have := h s
  rwa [hx] at this

theorem pure [Std.Refl R] (a : α) : Keeps R (pure a : Op ε σ α) :=
  fun s => Std.Refl.refl s

theorem get [Std.Refl R] : Keeps R (get : Op ε σ σ) :=
  fun s => Std.Refl.refl s

theorem fail [Std.Refl R] (e : ε) : Keeps R (fail e : Op ε σ α) :=
  fun s => Std.Refl.refl s

/-- A check keeps whatever doing nothing keeps. -/
theorem require [Std.Refl R] (p : Prop) [Decidable p] (e : ε) :
    Keeps R (require p e : Op ε σ Unit) := by
  intro s
  unfold Op.require
  split <;> exact Std.Refl.refl s

/-- A pure computation keeps whatever doing nothing keeps. -/
theorem ofExcept [Std.Refl R] (r : Except ε α) : Keeps R (ofExcept r : Op ε σ α) := by
  intro s
  cases r <;> exact Std.Refl.refl s

/-- What both parts keep, the sequence keeps, also when it stops between them. -/
theorem bind [IsTrans σ R] {x : Op ε σ α} {f : α → Op ε σ β} (hx : Keeps R x)
    (hf : ∀ a, Keeps R (f a)) : Keeps R (x >>= f) := by
  intro s
  have h := hx s
  rw [bind_apply]
  cases hs : x s with
  | ok a s' =>
    rw [hs] at h
    exact IsTrans.trans _ _ _ h (hf a s')
  | failed e s' => rw [hs] at h; exact h
  | crashed s' => rw [hs] at h; exact h

/-- What every round of a loop keeps, the loop keeps; the rounds are those of the list's elements.
-/
theorem fold_of_mem [Std.Refl R] [IsTrans σ R] {f : β → α → Op ε σ β} {as : List α}
    (hf : ∀ b, ∀ a ∈ as, Keeps R (f b a)) (b : β) : Keeps R (fold f b as) := by
  induction as generalizing b with
  | nil => exact Keeps.pure b
  | cons a as ih =>
    exact Keeps.bind (hf b a List.mem_cons_self) fun b' =>
      ih (fun b a ha => hf b a (List.mem_cons_of_mem _ ha)) b'

/-- What every round of a loop keeps, the loop keeps. -/
theorem fold [Std.Refl R] [IsTrans σ R] {f : β → α → Op ε σ β} (hf : ∀ b a, Keeps R (f b a))
    (b : β) (as : List α) : Keeps R (fold f b as) :=
  fold_of_mem (fun b a _ => hf b a) b

/-- A sequence whose second half leaves the state alone ends where its first half does. -/
theorem state_bind {x : Op ε σ α} {f : α → Op ε σ β} (hf : ∀ a, Keeps Eq (f a)) (s : σ) :
    ((x >>= f) s).state = (x s).state := by
  rcases bind_cases x f s with ⟨a, s', hx, hbind⟩ | ⟨-, hsame⟩
  · rw [hbind, hx]
    exact (hf a s').symm
  · exact hsame

/-- A loop that returned has returned at each of its elements, from and to states its steps
reach. -/
theorem ok_of_mem [Std.Refl R] [IsTrans σ R] {f : β → α → Op ε σ β}
    (hf : ∀ b a, Keeps R (f b a)) {b b' : β} {as : List α} {s s' : σ}
    (h : Op.fold f b as s = ok b' s') {a : α} (ha : a ∈ as) :
    ∃ b1 b2 s1 s2, R s s1 ∧ f b1 a s1 = ok b2 s2 ∧ R s2 s' := by
  induction as generalizing b s with
  | nil => cases ha
  | cons x as ih =>
    obtain ⟨b1, s1, hx, hrest⟩ := bind_eq_ok.mp h
    rcases List.mem_cons.mp ha with rfl | ha
    · have hkeeps := Keeps.fold hf b1 as s1
      rw [hrest] at hkeeps
      exact ⟨b, b1, s, s1, Std.Refl.refl s, hx, hkeeps⟩
    · obtain ⟨b2, b3, s2, s3, hs2, ha, hs3⟩ := ih hrest ha
      have hkeeps := hf b x s
      rw [hx] at hkeeps
      exact ⟨b2, b3, s2, s3, IsTrans.trans _ _ _ hkeeps hs2, ha, hs3⟩

/-- A loop that failed has failed at one of its elements, from a state its steps reach. -/
theorem failed_of_fold [Std.Refl R] [IsTrans σ R] {f : β → α → Op ε σ β}
    (hf : ∀ b a, Keeps R (f b a)) {b : β} {as : List α} {s s' : σ} {e : ε}
    (h : Op.fold f b as s = failed e s') :
    ∃ a ∈ as, ∃ b1 s1, R s s1 ∧ f b1 a s1 = failed e s' := by
  induction as generalizing b s with
  | nil => cases h
  | cons a as ih =>
    rcases bind_eq_failed.mp h with h | ⟨b1, s1, hstep, h⟩
    · exact ⟨a, List.mem_cons_self, b, s, Std.Refl.refl s, h⟩
    · obtain ⟨a', ha', b2, s2, hs2, h⟩ := ih h
      exact ⟨a', List.mem_cons_of_mem _ ha', b2, s2,
        IsTrans.trans _ _ _ ((hf b a).of_ok hstep) hs2, h⟩

end Keeps

/-! ### What a computation returns -/

/-- Every value `x` returns satisfies `P`. -/
def Returns (P : α → Prop) (x : Op ε σ α) : Prop :=
  ∀ s a s', x s = ok a s' → P a

namespace Returns

theorem pure {P : α → Prop} {a : α} (h : P a) : Returns P (pure a : Op ε σ α) := by
  intro s b s' hb
  cases hb
  exact h

/-- Only the last part decides what a sequence returns. -/
theorem bind {P : β → Prop} (x : Op ε σ α) {f : α → Op ε σ β} (hf : ∀ a, Returns P (f a)) :
    Returns P (x >>= f) := by
  intro s b s' hb
  obtain ⟨a, s1, -, ha⟩ := bind_eq_ok.mp hb
  exact hf a s1 b s' ha

/-- A choice returns what its branches return. -/
theorem ite {P : α → Prop} {p : Prop} [Decidable p] {x y : Op ε σ α} (hx : Returns P x)
    (hy : Returns P y) : Returns P (if p then x else y) := by
  split
  · exact hx
  · exact hy

/-- A clean-up does not change what is returned. -/
theorem ensuring {P : α → Prop} {x : Op ε σ α} (hx : Returns P x) (f : σ → σ) :
    Returns P (Op.ensuring f x) := by
  intro s a s' h
  unfold Op.ensuring at h
  cases hout : x s with
  | ok a' s1 =>
    rw [hout] at h
    cases h
    exact hx s a s1 hout
  | failed e s1 => rw [hout] at h; cases h
  | crashed s1 => rw [hout] at h; cases h

end Returns

/-! ### How a computation fails -/

/-- How a computation with a clean-up fails. -/
theorem ensuring_eq_failed {x : Op ε σ α} {f : σ → σ} {s s' : σ} {e : ε} :
    Op.ensuring f x s = failed e s' ↔ ∃ s1, x s = failed e s1 ∧ s' = f s1 := by
  unfold Op.ensuring
  cases x s with
  | ok a s1 => exact ⟨nofun, fun ⟨_, h, _⟩ => by cases h⟩
  | failed e' s1 =>
    constructor
    · intro h
      cases h
      exact ⟨s1, rfl, rfl⟩
    · rintro ⟨_, h, rfl⟩
      cases h
      rfl
  | crashed s1 => exact ⟨nofun, fun ⟨_, h, _⟩ => by cases h⟩

/-- Every error `x` fails with satisfies `P`. -/
def Fails (P : ε → Prop) (x : Op ε σ α) : Prop :=
  ∀ s e s', x s = failed e s' → P e

namespace Fails

variable {P Q : ε → Prop}

/-- A wider class of errors still contains those of the computation. -/
theorem mono {x : Op ε σ α} (h : Fails P x) (hPQ : ∀ e, P e → Q e) : Fails Q x :=
  fun s e s' hx => hPQ e (h s e s' hx)

theorem pure (a : α) : Fails P (pure a : Op ε σ α) := fun s e s' h => by cases h

theorem get : Fails P (get : Op ε σ σ) := fun s e s' h => by cases h

theorem modify (f : σ → σ) : Fails P (modify f : Op ε σ Unit) := fun s e s' h => by cases h

theorem fail {e : ε} (h : P e) : Fails P (fail e : Op ε σ α) := by
  intro s e' s' he
  cases he
  exact h

/-- A check fails with its own error only. -/
theorem require {p : Prop} [Decidable p] {e : ε} (h : P e) :
    Fails P (require p e : Op ε σ Unit) := by
  unfold Op.require
  split
  · exact Fails.pure ()
  · exact Fails.fail h

/-- A pure computation fails with its own error only. -/
theorem ofExcept {r : Except ε α} (h : ∀ e, r = .error e → P e) :
    Fails P (ofExcept r : Op ε σ α) := by
  cases r with
  | ok a => exact Fails.pure a
  | error e => exact Fails.fail (h e rfl)

/-- The errors of a sequence are those of its parts. -/
theorem bind {x : Op ε σ α} {f : α → Op ε σ β} (hx : Fails P x) (hf : ∀ a, Fails P (f a)) :
    Fails P (x >>= f) := by
  intro s e s' h
  rcases bind_eq_failed.mp h with h | ⟨a, s1, -, h⟩
  · exact hx s e s' h
  · exact hf a s1 e s' h

/-- The errors of a loop are those of its rounds. -/
theorem fold {f : β → α → Op ε σ β} (hf : ∀ b a, Fails P (f b a)) (b : β) (as : List α) :
    Fails P (fold f b as) := by
  induction as generalizing b with
  | nil => exact Fails.pure b
  | cons a as ih => exact Fails.bind (hf b a) ih

/-- A clean-up adds no error. -/
theorem ensuring {x : Op ε σ α} (hx : Fails P x) (f : σ → σ) : Fails P (Op.ensuring f x) := by
  intro s e s' h
  obtain ⟨s1, hfailed, -⟩ := ensuring_eq_failed.mp h
  exact hx s e s1 hfailed

end Fails

/-! ### Pre- and postconditions -/

/-- From every state that satisfies `pre`, the computation `x` returns in a state described by
`post`, or stops in a state described by `stop`: with `some e` after the failure `e`, with `none`
after a crash. -/
def Triple (pre : σ → Prop) (x : Op ε σ α) (post : α → σ → Prop) (stop : Option ε → σ → Prop) :
    Prop :=
  ∀ s, pre s →
    match x s with
    | ok a s' => post a s'
    | failed e s' => stop (some e) s'
    | crashed s' => stop none s'

namespace Triple

variable {pre pre' : σ → Prop} {post post' : α → σ → Prop} {stop stop' : Option ε → σ → Prop}

/-- What holds at a return, read off a triple. -/
theorem ok_of {x : Op ε σ α} (h : Triple pre x post stop) {s s' : σ} {a : α} (hs : pre s)
    (hx : x s = ok a s') : post a s' := by
  have := h s hs
  rwa [hx] at this

/-- What holds at a failure, read off a triple. -/
theorem failed_of {x : Op ε σ α} (h : Triple pre x post stop) {s s' : σ} {e : ε} (hs : pre s)
    (hx : x s = failed e s') : stop (some e) s' := by
  have := h s hs
  rwa [hx] at this

/-- What holds at a crash, read off a triple. -/
theorem crashed_of {x : Op ε σ α} (h : Triple pre x post stop) {s s' : σ} (hs : pre s)
    (hx : x s = crashed s') : stop none s' := by
  have := h s hs
  rwa [hx] at this

/-- The rule of consequence. -/
theorem conseq {x : Op ε σ α} (h : Triple pre x post stop) (hpre : ∀ s, pre' s → pre s)
    (hpost : ∀ a s, post a s → post' a s) (hstop : ∀ e s, stop e s → stop' e s) :
    Triple pre' x post' stop' := by
  intro s hs
  have := h s (hpre s hs)
  cases hx : x s with
  | ok a s' => rw [hx] at this; exact hpost a s' this
  | failed e s' => rw [hx] at this; exact hstop _ s' this
  | crashed s' => rw [hx] at this; exact hstop _ s' this

/-- A stronger precondition will do. -/
theorem mono_pre {x : Op ε σ α} (h : Triple pre x post stop) (hpre : ∀ s, pre' s → pre s) :
    Triple pre' x post stop :=
  h.conseq hpre (fun _ _ hs => hs) fun _ _ hs => hs

/-- A weaker postcondition will do. -/
theorem mono_post {x : Op ε σ α} (h : Triple pre x post stop)
    (hpost : ∀ a s, post a s → post' a s) : Triple pre x post' stop :=
  h.conseq (fun _ hs => hs) hpost fun _ _ hs => hs

/-- Less will do where the computation stops. -/
theorem mono_stop {x : Op ε σ α} (h : Triple pre x post stop)
    (hstop : ∀ e s, stop e s → stop' e s) : Triple pre x post stop' :=
  h.conseq (fun _ hs => hs) (fun _ _ hs => hs) hstop

/-- Two descriptions of one computation. -/
theorem and {x : Op ε σ α} (h : Triple pre x post stop) (h' : Triple pre' x post' stop') :
    Triple (fun s => pre s ∧ pre' s) x (fun a s => post a s ∧ post' a s)
      fun e s => stop e s ∧ stop' e s := by
  intro s hs
  have hx := h s hs.1
  have hx' := h' s hs.2
  cases hout : x s <;> (rw [hout] at hx hx'; exact ⟨hx, hx'⟩)

/-- What every outcome keeps is a pre- and a postcondition. -/
theorem of_keeps {x : Op ε σ α} {P : σ → Prop} (h : Keeps (fun s s' => P s → P s') x) :
    Triple P x (fun _ => P) fun _ => P := by
  intro s hs
  have := h s hs
  cases hx : x s <;> (rw [hx] at this; exact this)

/-- A postcondition on the state alone, whatever the outcome. -/
theorem state {x : Op ε σ α} {P : σ → Prop} (h : Triple pre x (fun _ => P) fun _ => P) {s : σ}
    (hs : pre s) : P (x s).state := by
  have := h s hs
  cases hx : x s <;> (rw [hx] at this; exact this)

/-- The rule for a value. -/
theorem pure {a : α} (h : ∀ s, pre s → post a s) : Triple pre (pure a : Op ε σ α) post stop := h

/-- The rule for a check: it goes on when the condition holds and stops when it does not. -/
theorem require {p : Prop} [Decidable p] {e : ε} {post : Unit → σ → Prop}
    (hpos : p → ∀ s, pre s → post () s) (hneg : ¬p → ∀ s, pre s → stop (some e) s) :
    Triple pre (require p e) post stop := by
  intro s hs
  by_cases h : p
  · rw [require_pos h]; exact hpos h s hs
  · rw [require_neg h]; exact hneg h s hs

/-- The rule for a pure computation that may fail. -/
theorem ofExcept {r : Except ε α} (hok : ∀ a, r = .ok a → ∀ s, pre s → post a s)
    (herror : ∀ e, r = .error e → ∀ s, pre s → stop (some e) s) :
    Triple pre (ofExcept r) post stop := by
  intro s hs
  cases r with
  | ok a => exact hok a rfl s hs
  | error e => exact herror e rfl s hs

/-- What a computation returns may be used after it. -/
theorem returns {x : Op ε σ α} {P : α → Prop} (h : Triple pre x post stop) (hP : Returns P x) :
    Triple pre x (fun a s => P a ∧ post a s) stop := by
  intro s hs
  have := h s hs
  cases hx : x s with
  | ok a s' => rw [hx] at this; exact ⟨hP s a s' hx, this⟩
  | failed e s' => rw [hx] at this; exact this
  | crashed s' => rw [hx] at this; exact this

/-- A fact in the precondition that does not depend on the state. -/
theorem of_imp {x : Op ε σ α} {p : Prop} (h : p → Triple pre x post stop) :
    Triple (fun s => p ∧ pre s) x post stop :=
  fun s hs => h hs.1 s hs.2

/-- One state at a time. -/
theorem of_state {x : Op ε σ α} (h : ∀ s, pre s → Triple (· = s) x post stop) :
    Triple pre x post stop :=
  fun s hs => h s hs s rfl

/-- A precondition about some value. -/
theorem of_exists {ι : Type} {pre : ι → σ → Prop} {x : Op ε σ α}
    (h : ∀ i, Triple (pre i) x post stop) : Triple (fun s => ∃ i, pre i s) x post stop :=
  fun s ⟨i, hs⟩ => h i s hs

/-- The rule for a sequence; both parts stop with the same condition. -/
theorem bind {post : β → σ → Prop} (mid : α → σ → Prop) {x : Op ε σ α} {f : α → Op ε σ β}
    (hx : Triple pre x mid stop) (hf : ∀ a, Triple (mid a) (f a) post stop) :
    Triple pre (x >>= f) post stop := by
  intro s hs
  have h := hx s hs
  rw [bind_apply]
  cases hxs : x s with
  | ok a s' => rw [hxs] at h; exact hf a s' h
  | failed e s' => rw [hxs] at h; exact h
  | crashed s' => rw [hxs] at h; exact h

/-- Past a check, what was checked is known. -/
theorem bind_require {p : Prop} [Decidable p] {e : ε} {f : Unit → Op ε σ α}
    (hf : p → Triple pre (f ()) post stop) (hstop : ∀ s, ¬p → pre s → stop (some e) s) :
    Triple pre (Op.require p e >>= f) post stop := by
  intro s hs
  by_cases h : p
  · rw [require_pos h]; exact hf h s hs
  · rw [require_neg h]; exact hstop s h hs

/-- Past a pure step, its result is known. -/
theorem bind_ofExcept {r : Except ε β} {f : β → Op ε σ α}
    (hf : ∀ b, r = .ok b → Triple pre (f b) post stop)
    (hstop : ∀ e s, r = .error e → pre s → stop (some e) s) :
    Triple pre (Op.ofExcept r >>= f) post stop := by
  intro s hs
  cases r with
  | ok b => exact hf b rfl s hs
  | error e => exact hstop e s rfl hs

/-- Past a read of the state, the value read is the state. -/
theorem bind_get {f : σ → Op ε σ α} (hf : ∀ s, pre s → Triple (· = s) (f s) post stop) :
    Triple pre (Op.get >>= f) post stop :=
  fun s hs => hf s hs s rfl

/-- The rule for a choice, whose condition each branch may use. -/
theorem ite {p : Prop} [Decidable p] {x y : Op ε σ α} (hx : p → Triple pre x post stop)
    (hy : ¬p → Triple pre y post stop) : Triple pre (if p then x else y) post stop := by
  split
  · exact hx ‹_›
  · exact hy ‹_›

/-- A loop with an invariant over the elements already done and those still to come. -/
theorem fold {f : β → α → Op ε σ β} {I : List α → List α → β → σ → Prop}
    (hstep : ∀ done a rest b, Triple (I done (a :: rest) b) (f b a)
      (I (done ++ [a]) rest) stop)
    (done as : List α) (b : β) :
    Triple (I done as b) (fold f b as) (I (done ++ as) []) stop := by
  induction as generalizing done b with
  | nil => rw [List.append_nil]; exact Triple.pure fun _ hs => hs
  | cons a as ih =>
    refine Triple.bind _ (hstep done a as b) fun b' => ?_
    have := ih (done ++ [a]) b'
    rwa [List.append_assoc] at this

end Triple

/-! ### Assertions that a crash leaves in another form -/

/-- The computation keeps the assertion `I`, also when it fails; when it crashes it leaves `J`. -/
def Survives (I J : σ → Prop) (x : Op ε σ α) : Prop :=
  Triple I x (fun _ => I) fun stop s => stop.elim (J s) fun _ => I s

namespace Survives

variable {I J : σ → Prop}

/-- An invariant that also covers what a crash may leave survives every ending. -/
theorem of_triple {x : Op ε σ α} (h : Triple I x (fun _ => I) fun _ => I) (hJ : ∀ s, I s → J s) :
    Survives I J x :=
  h.conseq (fun _ hs => hs) (fun _ _ hs => hs) fun stop s hs => by
    cases stop with
    | none => exact hJ s hs
    | some e => exact hs

/-- A computation that keeps the invariant survives with it. -/
theorem of_keeps {x : Op ε σ α} (h : Keeps (fun s s' => I s → I s') x) (hJ : ∀ s, I s → J s) :
    Survives I J x :=
  of_triple (Triple.of_keeps h) hJ

/-- What a computation keeps in every outcome it keeps from where it started. -/
theorem keeps {R : σ → σ → Prop} [Std.Refl R] {x : Op ε σ α}
    (h : ∀ s, Survives (R s) (R s) x) : Keeps R x := by
  intro s
  have hx := h s s (Std.Refl.refl s)
  cases hout : x s <;> (rw [hout] at hx; exact hx)

theorem pure (a : α) : Survives I J (Pure.pure a : Op ε σ α) := Triple.pure fun _ hs => hs

theorem fail (e : ε) : Survives I J (fail e : Op ε σ α) := fun _ hs => hs

theorem get : Survives I J (get : Op ε σ σ) := fun _ hs => hs

/-- A change of the state that keeps the invariant survives. -/
theorem modify {f : σ → σ} (h : ∀ s, I s → I (f s)) : Survives I J (modify f : Op ε σ Unit) := h

/-- What both parts survive, the sequence survives. -/
theorem bind {x : Op ε σ α} {f : α → Op ε σ β} (hx : Survives I J x)
    (hf : ∀ a, Survives I J (f a)) : Survives I J (x >>= f) :=
  Triple.bind _ hx hf

/-- What both branches survive, the choice survives. -/
theorem ite {p : Prop} [Decidable p] {x y : Op ε σ α} (hx : p → Survives I J x)
    (hy : ¬p → Survives I J y) : Survives I J (if p then x else y) :=
  Triple.ite hx hy

end Survives

/-! ### Computations that return -/

/-- From every state that satisfies `pre`, the computation `x` returns. -/
abbrev Total (pre : σ → Prop) (x : Op ε σ α) (post : α → σ → Prop) : Prop :=
  Triple pre x post fun _ _ => False

/-- A computation that returns stops nowhere. -/
theorem Total.triple {pre : σ → Prop} {x : Op ε σ α} {post : α → σ → Prop} (h : Total pre x post)
    (stop : Option ε → σ → Prop) : Triple pre x post stop :=
  h.conseq (fun _ hs => hs) (fun _ _ hs => hs) fun _ _ hfalse => hfalse.elim

/-- From a state that meets its precondition, a total computation returns. -/
theorem Total.eq_ok {pre : σ → Prop} {x : Op ε σ α} {post : α → σ → Prop} (h : Total pre x post)
    {s : σ} (hs : pre s) : ∃ a s', x s = ok a s' ∧ post a s' := by
  have hx := h s hs
  cases hxs : x s with
  | ok a s' => rw [hxs] at hx; exact ⟨a, s', rfl, hx⟩
  | failed e s' => rw [hxs] at hx; exact hx.elim
  | crashed s' => rw [hxs] at hx; exact hx.elim

/-- A computation whose result is known. -/
theorem Triple.result_eq {pre : σ → Prop} {x : Op ε σ α} {r : Except ε α}
    (h : Triple pre x (fun a _ => r = .ok a) fun e _ => ∃ e', e = some e' ∧ r = .error e') {s : σ}
    (hs : pre s) : (x s).result = some r := by
  have hx := h s hs
  cases hxs : x s with
  | ok a s' =>
    rw [hxs] at hx
    exact congrArg some (Eq.symm hx)
  | failed e s' =>
    rw [hxs] at hx
    obtain ⟨e', he, hr⟩ := hx
    rw [hr, ← Option.some.inj he]
    rfl
  | crashed s' =>
    rw [hxs] at hx
    obtain ⟨e', he, -⟩ := hx
    cases he

/-! ### Computations whose success is known -/

/-- From `s`, the computation ends with the outcome `o` if `p` holds, and if not it fails in a state that
satisfies `R`. -/
structure Decides (s : σ) (p : Prop) (x : Op ε σ α) (o : Outcome ε σ α) (R : σ → Prop) : Prop where
  pass : p → x s = o
  block : ¬p → ∃ e s', x s = failed e s' ∧ R s'

namespace Decides

variable {s s' : σ} {p q : Prop} {a : α} {b : β} {R : σ → Prop}

/-- Equivalent conditions decide the same outcome. -/
theorem congr {x : Op ε σ α} {o : Outcome ε σ α} (h : Decides s p x o R) (hpq : p ↔ q) :
    Decides s q x o R :=
  ⟨fun hq => h.pass (hpq.mpr hq), fun hq => h.block fun hp => hq (hpq.mp hp)⟩

/-- A computation with a known outcome needs no condition. -/
theorem of_eq {x : Op ε σ α} {o : Outcome ε σ α} (h : x s = o) : Decides s True x o R :=
  ⟨fun _ => h, fun hp => absurd trivial hp⟩

/-- A failure is decided by the condition that never holds. -/
theorem fail (e : ε) (o : Outcome ε σ α) (hs : R s) : Decides s False (fail e) o R :=
  ⟨False.elim, fun _ => ⟨e, s, rfl, hs⟩⟩

/-- A check is decided by its own condition. -/
theorem require [Decidable p] (e : ε) (hs : R s) : Decides s p (require p e) (ok () s) R where
  pass h := by rw [require_pos h]; rfl
  block h := ⟨e, s, by rw [require_neg h]; rfl, hs⟩

/-- One step after another. -/
theorem bind {x : Op ε σ α} {f : α → Op ε σ β} {o : Outcome ε σ β} (hx : Decides s p x (ok a s') R)
    (hf : p → Decides s' q (f a) o R) : Decides s (p ∧ q) (x >>= f) o R where
  pass h := by rw [bind_of_ok (hx.pass h.1)]; exact (hf h.1).pass h.2
  block h := by
    by_cases hp : p
    · obtain ⟨e, s'', he, hs⟩ := (hf hp).block fun hq => h ⟨hp, hq⟩
      exact ⟨e, s'', by rw [bind_of_ok (hx.pass hp), he], hs⟩
    · obtain ⟨e, s'', he, hs⟩ := hx.block hp
      exact ⟨e, s'', bind_of_failed he, hs⟩

/-- Reading the state first decides nothing. -/
theorem get_bind {f : σ → Op ε σ α} {o : Outcome ε σ α} (hf : Decides s p (f s) o R) :
    Decides s p (Op.get >>= f) o R :=
  ⟨hf.pass, hf.block⟩

/-- A computation with a clean-up behind it. -/
theorem ensuring {f : σ → σ} {R' : σ → Prop} {x : Op ε σ α} {o : Outcome ε σ α}
    (h : Decides s p x o R) (hR : ∀ s', R s' → R' (f s')) :
    Decides s p (Op.ensuring f x) (o.cleanUp f) R' where
  pass hp := by rw [Op.ensuring, h.pass hp]
  block hp := by
    obtain ⟨e, s', he, hs⟩ := h.block hp
    exact ⟨e, f s', by rw [Op.ensuring, he]; rfl, hR s' hs⟩

/-- A computation that is decided to return is so with a clean-up behind it, which a failure runs
too. -/
theorem ensuring_ok {f : σ → σ} {R' : σ → Prop} {x : Op ε σ α} (h : Decides s p x (ok a s') R)
    (hR : ∀ s', R s' → R' (f s')) : Decides s p (Op.ensuring f x) (ok a (f s')) R' :=
  h.ensuring hR

/-- A check of every element. -/
theorem fold {check : β → Op ε σ Unit} {P : β → Prop}
    (h : ∀ b, Decides s (P b) (check b) (ok () s) R) (l : List β) :
    Decides s (∀ b ∈ l, P b) (Op.fold (fun _ b => check b) () l) (ok () s) R := by
  induction l with
  | nil => exact (of_eq rfl).congr (by simp)
  | cons b l ih => exact ((h b).bind fun _ => ih).congr List.forall_mem_cons.symm

end Decides

/-- From `s`, the computation returns. -/
def Accepts (x : Op ε σ α) (s : σ) : Prop := ∃ a s', x s = ok a s'

/-- A computation whose success is known returns exactly if its condition holds. -/
theorem Decides.accepts_iff {s s' : σ} {p : Prop} {x : Op ε σ α} {a : α} {R : σ → Prop}
    (h : Decides s p x (ok a s') R) : x.Accepts s ↔ p := by
  constructor
  · rintro ⟨b, s'', hx⟩
    by_cases hp : p
    · exact hp
    · obtain ⟨e, s₁, he, -⟩ := h.block hp
      rw [hx] at he
      cases he
  · exact fun hp => ⟨a, s', h.pass hp⟩

end Op

/-! ### Results without a state -/

/-- A sequence of fallible steps returns exactly when both halves do. -/
theorem except_bind_eq_ok {x : Except ε α} {f : α → Except ε β} {b : β} :
    (x >>= f) = .ok b ↔ ∃ a, x = .ok a ∧ f a = .ok b := by
  cases x with
  | error e => simp [bind, Except.bind]
  | ok a => simp [bind, Except.bind]

/-- Go on if `p` holds, stop with `e` otherwise. -/
def ensure (p : Prop) [Decidable p] (e : ε) : Except ε Unit :=
  if p then .ok () else .error e

/-- A check between pure steps goes through exactly when it is met. -/
theorem ensure_eq_ok {p : Prop} [Decidable p] {e : ε} {u : Unit} :
    ensure p e = .ok u ↔ p := by
  unfold ensure
  split <;> simp_all

theorem ensure_pos {p : Prop} [Decidable p] {e : ε} (h : p) : ensure p e = .ok () := if_pos h

/-- Every error of a pure computation satisfies `P`. -/
def Throws (P : ε → Prop) (x : Except ε α) : Prop := ∀ e, x = .error e → P e

namespace Throws

variable {P Q : ε → Prop}

theorem ok (a : α) : Throws P (.ok a : Except ε α) := fun e h => by cases h

theorem error {e : ε} (h : P e) : Throws P (.error e : Except ε α) := by
  intro e' he
  cases he
  exact h

/-- A wider class of errors still contains those thrown. -/
theorem mono {x : Except ε α} (h : Throws P x) (hPQ : ∀ e, P e → Q e) : Throws Q x :=
  fun e he => hPQ e (h e he)

/-- The errors of a sequence of pure steps are those of its parts. -/
theorem bind {x : Except ε α} {f : α → Except ε β} (hx : Throws P x) (hf : ∀ a, Throws P (f a)) :
    Throws P (x >>= f) := by
  cases x with
  | error e => exact Throws.error (hx e rfl)
  | ok a => exact hf a

/-- The errors of a pure choice are those of its branches. -/
theorem ite {p : Prop} [Decidable p] {x y : Except ε α} (hx : Throws P x) (hy : Throws P y) :
    Throws P (if p then x else y) := by
  split
  · exact hx
  · exact hy

/-- A check between pure steps throws its own error only. -/
theorem ensure {p : Prop} [Decidable p] {e : ε} (h : P e) : Throws P (Effect.ensure p e) :=
  Throws.ite (Throws.ok ()) (Throws.error h)

end Throws

end Effect
