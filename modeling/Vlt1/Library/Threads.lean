import Mathlib.Algebra.BigOperators.Group.List.Basic
import Mathlib.Algebra.Order.Group.Multiset
import Mathlib.Logic.Relation

/-!
# Threads that own resources

Threads run programs over one shared state. A program performs operations, which are indivisible, repeats a body
until it has a result, and starts further threads. Each thread owns a multiset of resources: an operation takes
some from it and adds some to it, depending on its answer, and a new thread is given some of those of the thread
that starts it. A thread that returns is gone, with whatever it owns.

`Prog.Owns` is a rule for programs: the program never uses what it does not own, and it ends with what the
postcondition says. `Pool.invariant` carries an invariant of the shared state and of all resources together from
the operations to every state that any number of threads can reach, in any interleaving.
-/

namespace Threads

/-- A program. -/
inductive Prog (Op : Type) (Answer : Op → Type) (κ : Type) : Type → Type 1
  | ret {α : Type} (a : α) : Prog Op Answer κ α
  /-- Perform an operation and go on with its answer. -/
  | act {α : Type} (o : Op) (next : Answer o → Prog Op Answer κ α) : Prog Op Answer κ α
  /-- Repeat the body until it has a result. -/
  | loop {α β : Type} (body : Prog Op Answer κ (Option β)) (next : β → Prog Op Answer κ α) :
      Prog Op Answer κ α
  /-- Start a thread and give it some resources. -/
  | spawn {α : Type} (given : Multiset κ) (child : Prog Op Answer κ Unit)
      (next : Prog Op Answer κ α) : Prog Op Answer κ α

namespace Prog

variable {Op : Type} {Answer : Op → Type} {κ α β γ : Type}

/-- One program after the other. -/
def bind : Prog Op Answer κ α → (α → Prog Op Answer κ β) → Prog Op Answer κ β
  | ret a, f => f a
  | act o next, f => act o fun a => (next a).bind f
  | loop body next, f => loop body fun b => (next b).bind f
  | spawn given child next, f => spawn given child (next.bind f)

instance : Monad (Prog Op Answer κ) where
  pure := ret
  bind := bind

/-- An operation as a program. -/
def perform (o : Op) : Prog Op Answer κ (Answer o) := act o ret

/-- One more round of a loop. -/
def unroll (body : Prog Op Answer κ (Option β)) (next : β → Prog Op Answer κ α) :
    Prog Op Answer κ α :=
  body >>= fun
    | none => loop body next
    | some b => next b

end Prog

/-- What the operations do to the shared state and to the resources of the thread that performs them. -/
structure Interface (Op : Type) (Answer : Op → Type) (κ σ : Type) where
  /-- The operation can give this answer, and leaves this state. -/
  performs : σ → (o : Op) → Answer o → σ → Prop
  /-- The resources an operation takes from the thread. -/
  takes : (o : Op) → Answer o → Multiset κ
  /-- The resources an operation adds to the thread. -/
  adds : (o : Op) → Answer o → Multiset κ

variable {Op : Type} {Answer : Op → Type} {κ σ : Type} [DecidableEq κ]

/-- What a thread owns after an operation. -/
def Interface.after (ops : Interface Op Answer κ σ) (o : Op) (a : Answer o) (owned : Multiset κ) :
    Multiset κ :=
  owned - ops.takes o a + ops.adds o a

/-! ### Programs and what they own -/

namespace Prog

variable {α β : Type} {allowed : Op → Multiset κ → Prop} {ops : Interface Op Answer κ σ}

/-- Run with these resources, the program performs only operations that are allowed with what it owns, gives
away only what it owns, its threads end with nothing, and it ends as the postcondition says. A loop has an
invariant of its own. -/
def Owns (ops : Interface Op Answer κ σ) (allowed : Op → Multiset κ → Prop) {α : Type} :
    Prog Op Answer κ α → Multiset κ → (α → Multiset κ → Prop) → Prop
  | ret a, owned, post => post a owned
  | act o next, owned, post =>
    allowed o owned ∧ ∀ a, Owns ops allowed (next a) (ops.after o a owned) post
  | loop body next, owned, post =>
    ∃ inv : Multiset κ → Prop, inv owned ∧ ∀ m, inv m → Owns ops allowed body m fun result m' =>
      match result with
      | none => inv m'
      | some b => Owns ops allowed (next b) m' post
  | spawn given child next, owned, post =>
    given ≤ owned ∧ Owns ops allowed child given (fun _ m => m = 0) ∧
      Owns ops allowed next (owned - given) post

namespace Owns

theorem conseq {p : Prog Op Answer κ α} {owned : Multiset κ} {post post' : α → Multiset κ → Prop}
    (h : p.Owns ops allowed owned post) (hpost : ∀ a m, post a m → post' a m) :
    p.Owns ops allowed owned post' := by
  induction p generalizing owned with
  | ret a => exact hpost a owned h
  | act o next ih => exact ⟨h.1, fun a => ih a (h.2 a) hpost⟩
  | loop body next ihbody ih =>
    obtain ⟨inv, howned, hbody⟩ := h
    refine ⟨inv, howned, fun m hm => ihbody (hbody m hm) fun result m' hresult => ?_⟩
    cases result with
    | none => exact hresult
    | some b => exact ih b hresult hpost
  | spawn given child next _ ih => exact ⟨h.1, h.2.1, ih h.2.2 hpost⟩

theorem bind {p : Prog Op Answer κ α} {f : α → Prog Op Answer κ β} {owned : Multiset κ}
    {post : β → Multiset κ → Prop}
    (h : p.Owns ops allowed owned fun a m => (f a).Owns ops allowed m post) :
    (p >>= f).Owns ops allowed owned post := by
  show (p.bind f).Owns ops allowed owned post
  induction p generalizing owned with
  | ret a => exact h
  | act o next ih => exact ⟨h.1, fun a => ih a (h.2 a)⟩
  | loop body next _ ih =>
    obtain ⟨inv, howned, hbody⟩ := h
    refine ⟨inv, howned, fun m hm => (hbody m hm).conseq fun result m' hresult => ?_⟩
    cases result with
    | none => exact hresult
    | some b => exact ih b hresult
  | spawn given child next _ ih => exact ⟨h.1, h.2.1, ih h.2.2⟩

/-- An operation. -/
theorem perform {o : Op} {owned : Multiset κ} {post : Answer o → Multiset κ → Prop}
    (hallowed : allowed o owned) (hpost : ∀ a, post a (ops.after o a owned)) :
    (Prog.perform o : Prog Op Answer κ (Answer o)).Owns ops allowed owned post :=
  ⟨hallowed, hpost⟩

/-- A loop can be unrolled. -/
theorem unroll {body : Prog Op Answer κ (Option β)} {next : β → Prog Op Answer κ α}
    {owned : Multiset κ} {post : α → Multiset κ → Prop}
    (h : (loop body next).Owns ops allowed owned post) :
    (Prog.unroll body next).Owns ops allowed owned post := by
  obtain ⟨inv, howned, hbody⟩ := h
  refine Owns.bind ((hbody owned howned).conseq fun result m hresult => ?_)
  cases result with
  | none => exact ⟨inv, hresult, hbody⟩
  | some b => exact hresult

end Owns

end Prog

/-! ### Pools of threads -/

/-- A running thread. -/
structure Thread (Op : Type) (Answer : Op → Type) (κ : Type) where
  owned : Multiset κ
  prog : Prog Op Answer κ Unit

/-- Some threads and the state they share. -/
structure Pool (Op : Type) (Answer : Op → Type) (κ σ : Type) where
  shared : σ
  threads : List (Thread Op Answer κ)

/-- One step of a thread: what becomes of the shared state, and of the thread. -/
inductive Thread.Step (ops : Interface Op Answer κ σ) (s : σ) :
    Thread Op Answer κ → σ → List (Thread Op Answer κ) → Prop
  | act {owned : Multiset κ} {o : Op} {next : Answer o → Prog Op Answer κ Unit} {a : Answer o} {s' : σ}
      (h : ops.performs s o a s') :
      Step ops s ⟨owned, .act o next⟩ s' [⟨ops.after o a owned, next a⟩]
  | loop {β : Type} (owned : Multiset κ) (body : Prog Op Answer κ (Option β))
      (next : β → Prog Op Answer κ Unit) :
      Step ops s ⟨owned, .loop body next⟩ s [⟨owned, .unroll body next⟩]
  | spawn (owned given : Multiset κ) (child next : Prog Op Answer κ Unit) :
      Step ops s ⟨owned, .spawn given child next⟩ s [⟨owned - given, next⟩, ⟨given, child⟩]
  /-- The thread ends. -/
  | ret (owned : Multiset κ) (u : Unit) : Step ops s ⟨owned, .ret u⟩ s []

namespace Thread

variable {ops : Interface Op Answer κ σ} {allowed : Op → Multiset κ → Prop}

/-- The thread keeps to its resources and ends with none. -/
def Honest (ops : Interface Op Answer κ σ) (allowed : Op → Multiset κ → Prop)
    (t : Thread Op Answer κ) : Prop :=
  t.prog.Owns ops allowed t.owned fun _ m => m = 0

theorem Step.honest {s s' : σ} {t : Thread Op Answer κ} {new : List (Thread Op Answer κ)}
    (h : t.Step ops s s' new) (ht : t.Honest ops allowed) : ∀ t' ∈ new, t'.Honest ops allowed := by
  cases h with
  | act _ => exact List.forall_mem_singleton.2 (ht.2 _)
  | loop => exact List.forall_mem_singleton.2 (Prog.Owns.unroll ht)
  | spawn => exact List.forall_mem_cons.2 ⟨ht.2.2, List.forall_mem_singleton.2 ht.2.1⟩
  | ret => exact List.forall_mem_nil _

/-- What the operations keep, together with the resources of the other threads, every step of an honest thread
keeps. -/
theorem Step.invariant {I : σ → Multiset κ → Prop}
    (hops : ∀ {s o a s' owned rest}, allowed o owned → ops.performs s o a s' → I s (owned + rest) →
      I s' (ops.after o a owned + rest))
    {s s' : σ} {t : Thread Op Answer κ} {new : List (Thread Op Answer κ)} {rest : Multiset κ}
    (h : t.Step ops s s' new) (ht : t.Honest ops allowed) (hI : I s (t.owned + rest)) :
    I s' ((new.map Thread.owned).sum + rest) := by
  cases h with
  | act h => simpa using hops ht.1 h hI
  | loop => simpa using hI
  | spawn owned given =>
    -- Giving resources away leaves their sum as it is.
    have hgiven : owned - given + given = owned := Multiset.sub_add_cancel ht.1
    simpa [hgiven] using hI
  | ret owned =>
    have hnone : owned = 0 := ht
    simpa [hnone] using hI

/-- One step of the thread, with answers from an oracle. -/
def next (ops : Interface Op Answer κ σ) (oracle : σ → (o : Op) → Answer o × σ) (s : σ)
    (t : Thread Op Answer κ) : σ × List (Thread Op Answer κ) :=
  match t.prog with
  | .ret _ => (s, [])
  | .act o next => ((oracle s o).2, [⟨ops.after o (oracle s o).1 t.owned, next (oracle s o).1⟩])
  | .loop body next => (s, [⟨t.owned, .unroll body next⟩])
  | .spawn given child next => (s, [⟨t.owned - given, next⟩, ⟨given, child⟩])

theorem step_next {oracle : σ → (o : Op) → Answer o × σ}
    (horacle : ∀ s o, ops.performs s o (oracle s o).1 (oracle s o).2) (s : σ)
    (t : Thread Op Answer κ) : t.Step ops s (t.next ops oracle s).1 (t.next ops oracle s).2 := by
  obtain ⟨owned, prog⟩ := t
  cases prog with
  | ret u => exact .ret owned u
  | act o next => exact .act (horacle s o)
  | loop body next => exact .loop owned body next
  | spawn given child next => exact .spawn owned given child next

end Thread

namespace Pool

variable {ops : Interface Op Answer κ σ} {allowed : Op → Multiset κ → Prop}
  {entry : Prog Op Answer κ Unit → Prop}

/-- All resources of the threads. -/
def owned (pool : Pool Op Answer κ σ) : Multiset κ := (pool.threads.map Thread.owned).sum

omit [DecidableEq κ] in
theorem owned_le {pool : Pool Op Answer κ σ} {t : Thread Op Answer κ} (h : t ∈ pool.threads) :
    t.owned ≤ pool.owned := by
  obtain ⟨before, after, hthreads⟩ := List.append_of_mem h
  rw [owned, hthreads, List.map_append, List.map_cons, List.sum_append, List.sum_cons, add_left_comm]
  exact Multiset.le_add_right _ _

/-- One step of a pool: of one of its threads, or a thread from outside enters with nothing. -/
inductive Step (ops : Interface Op Answer κ σ) (entry : Prog Op Answer κ Unit → Prop) :
    Pool Op Answer κ σ → Pool Op Answer κ σ → Prop
  | thread {s s' : σ} (before after : List (Thread Op Answer κ)) {new : List (Thread Op Answer κ)}
      {t : Thread Op Answer κ} (h : t.Step ops s s' new) :
      Step ops entry ⟨s, before ++ t :: after⟩ ⟨s', before ++ new ++ after⟩
  | enter {s : σ} {threads : List (Thread Op Answer κ)} {p : Prog Op Answer κ Unit} (h : entry p) :
      Step ops entry ⟨s, threads⟩ ⟨s, ⟨0, p⟩ :: threads⟩

/-- The pools that can come about from a state without threads. -/
def Reachable (ops : Interface Op Answer κ σ) (entry : Prog Op Answer κ Unit → Prop) (s : σ)
    (pool : Pool Op Answer κ σ) : Prop :=
  Relation.ReflTransGen (Step ops entry) ⟨s, []⟩ pool

/-- The invariant holds of the shared state and all resources, and every thread is honest. -/
structure Kept (ops : Interface Op Answer κ σ) (allowed : Op → Multiset κ → Prop)
    (I : σ → Multiset κ → Prop) (pool : Pool Op Answer κ σ) : Prop where
  shared : I pool.shared pool.owned
  honest : ∀ t ∈ pool.threads, t.Honest ops allowed

section

variable {I : σ → Multiset κ → Prop}
  (hops : ∀ {s o a s' owned rest}, allowed o owned → ops.performs s o a s' → I s (owned + rest) →
    I s' (ops.after o a owned + rest))
  (hentry : ∀ p, entry p → p.Owns ops allowed 0 fun _ m => m = 0)

include hops hentry

theorem Step.kept {pool pool' : Pool Op Answer κ σ} (h : Step ops entry pool pool')
    (hkept : pool.Kept ops allowed I) : pool'.Kept ops allowed I := by
  cases h with
  | @thread s s' before after new t h =>
    have ht : t.Honest ops allowed := hkept.honest t (by simp)
    refine ⟨?_, fun t' ht' => ?_⟩
    · -- The other threads' resources are the rest the step does not see.
      have hI : I s (t.owned + ((before.map Thread.owned).sum + (after.map Thread.owned).sum)) := by
        have := hkept.shared
        simp only [owned, List.map_append, List.map_cons, List.sum_append, List.sum_cons] at this
        rwa [add_left_comm] at this
      have hI' := h.invariant hops ht hI
      simp only [owned, List.map_append, List.sum_append]
      rwa [add_left_comm, ← add_assoc] at hI'
    · rcases List.mem_append.1 ht' with ht' | hafter
      · rcases List.mem_append.1 ht' with hbefore | hnew
        · exact hkept.honest t' (List.mem_append_left _ hbefore)
        · exact h.honest ht t' hnew
      · exact hkept.honest t' (List.mem_append_right _ (List.mem_cons_of_mem _ hafter))
  | enter h =>
    refine ⟨?_, List.forall_mem_cons.2 ⟨hentry _ h, hkept.honest⟩⟩
    simpa [owned] using hkept.shared

/-- What the operations keep holds in every pool that can come about. -/
theorem Reachable.kept {s : σ} (hs : I s 0) {pool : Pool Op Answer κ σ}
    (h : Reachable ops entry s pool) : pool.Kept ops allowed I := by
  induction h with
  | refl => exact ⟨hs, List.forall_mem_nil _⟩
  | tail _ hstep ih => exact hstep.kept hops hentry ih

end

/-! ### Runs with a given schedule -/

/-- One step of the thread at this place, if there is one. The operations get their answers from an oracle. -/
def next (ops : Interface Op Answer κ σ) (oracle : σ → (o : Op) → Answer o × σ)
    (pool : Pool Op Answer κ σ) (i : ℕ) : Pool Op Answer κ σ :=
  match pool.threads.drop i with
  | [] => pool
  | t :: after =>
    let (shared, new) := t.next ops oracle pool.shared
    ⟨shared, pool.threads.take i ++ new ++ after⟩

/-- A schedule of steps with answers that the operations can give leads to a reachable pool. -/
theorem Reachable.foldl_next {oracle : σ → (o : Op) → Answer o × σ}
    (horacle : ∀ s o, ops.performs s o (oracle s o).1 (oracle s o).2) {s : σ}
    {pool : Pool Op Answer κ σ} (h : Reachable ops entry s pool) (schedule : List ℕ) :
    Reachable ops entry s (schedule.foldl (next ops oracle) pool) := by
  induction schedule generalizing pool with
  | nil => exact h
  | cons i rest ih =>
    refine ih ?_
    cases hdrop : pool.threads.drop i with
    | nil => simpa only [next, hdrop] using h
    | cons t after =>
      have hthreads : pool.threads.take i ++ t :: after = pool.threads := by
        rw [← hdrop, List.take_append_drop]
      have hstep : Step ops entry ⟨pool.shared, pool.threads.take i ++ t :: after⟩
          (pool.next ops oracle i) := by
        simp only [next, hdrop]
        exact .thread _ _ (t.step_next horacle pool.shared)
      rw [hthreads] at hstep
      exact Relation.ReflTransGen.tail h hstep

end Pool

end Threads
