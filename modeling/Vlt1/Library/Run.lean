import Mathlib.Data.List.Basic
import Mathlib.Order.Defs.Unbundled

/-!
# Runs of a machine

A machine takes inputs one after another and answers each with an output and a next state. `trace`
lists the transitions a list of inputs causes and `final` is the state they lead to.

Two rules carry what one step preserves to whole runs. `guarded_invariant` is for a property of
states, under a guard that every step of the run has to meet. `pairwise_trace` is for a relation
between states, and compares any two transitions of a run, the earlier with the later.
-/

namespace Run

variable {σ ι ο : Type}

/-- One step of a run. -/
structure Transition (σ ι ο : Type) where
  before : σ
  input : ι
  output : ο
  after : σ

variable (step : σ → ι → ο × σ)

/-- The transition a state takes on an input. -/
def transition (s : σ) (i : ι) : Transition σ ι ο := ⟨s, i, (step s i).1, (step s i).2⟩

/-- The state after a list of inputs. -/
def final : σ → List ι → σ
  | s, [] => s
  | s, i :: is => final (step s i).2 is

/-- The transitions a list of inputs causes. -/
def trace : σ → List ι → List (Transition σ ι ο)
  | _, [] => []
  | s, i :: is => transition step s i :: trace (step s i).2 is

@[simp] theorem final_nil (s : σ) : final step s [] = s := rfl

@[simp] theorem trace_nil (s : σ) : trace step s [] = [] := rfl

theorem final_cons (s : σ) (i : ι) (is : List ι) :
    final step s (i :: is) = final step (step s i).2 is := rfl

theorem trace_cons (s : σ) (i : ι) (is : List ι) :
    trace step s (i :: is) = transition step s i :: trace step (step s i).2 is := rfl

theorem final_append (s : σ) (is js : List ι) :
    final step s (is ++ js) = final step (final step s is) js := by
  induction is generalizing s with
  | nil => rfl
  | cons i is ih => exact ih _

theorem trace_append (s : σ) (is js : List ι) :
    trace step s (is ++ js) = trace step s is ++ trace step (final step s is) js := by
  induction is generalizing s with
  | nil => rfl
  | cons i is ih => rw [List.cons_append, trace_cons, ih]; rfl

/-- A transition of a run is the step its own state takes on its own input. -/
theorem eq_transition_of_mem {s : σ} {is : List ι} {t : Transition σ ι ο}
    (ht : t ∈ trace step s is) : t = transition step t.before t.input := by
  induction is generalizing s with
  | nil => cases ht
  | cons i is ih =>
    rcases List.mem_cons.mp ht with rfl | ht
    · rfl
    · exact ih ht

/-- The inputs of the transitions are those of the run. -/
theorem input_mem {s : σ} {is : List ι} {t : Transition σ ι ο} (ht : t ∈ trace step s is) :
    t.input ∈ is := by
  induction is generalizing s with
  | nil => cases ht
  | cons i is ih =>
    rcases List.mem_cons.mp ht with rfl | ht
    · exact List.mem_cons_self
    · exact List.mem_cons_of_mem _ (ih ht)

/-- What every step keeps, as long as the steps meet a guard, holds throughout a guarded run. -/
theorem guarded_invariant {I : σ → Prop} (guard : σ → ι → Prop)
    (hstep : ∀ s i, I s → guard s i → I (step s i).2) {s : σ} {is : List ι} (hs : I s)
    (hguard : ∀ t ∈ trace step s is, guard t.before t.input) :
    I (final step s is) ∧ ∀ t ∈ trace step s is, I t.before ∧ I t.after := by
  induction is generalizing s with
  | nil => exact ⟨hs, fun t ht => by cases ht⟩
  | cons i is ih =>
    have hfirst : I (step s i).2 :=
      hstep s i hs (hguard _ (List.mem_cons_self (a := transition step s i)))
    obtain ⟨hfinal, hrest⟩ := ih hfirst fun t ht => hguard t (List.mem_cons_of_mem _ ht)
    refine ⟨hfinal, fun t ht => ?_⟩
    rcases List.mem_cons.mp ht with rfl | ht
    · exact ⟨hs, hfirst⟩
    · exact hrest t ht

/-- What every step keeps holds throughout a run. -/
theorem invariant {I : σ → Prop} (hstep : ∀ s i, I s → I (step s i).2) {s : σ} (is : List ι)
    (hs : I s) : I (final step s is) ∧ ∀ t ∈ trace step s is, I t.before ∧ I t.after :=
  guarded_invariant step (fun _ _ => True) (fun s i hi _ => hstep s i hi) hs
    fun _ _ => trivial

/-- A preorder that every step climbs holds from the start of a run to its end. -/
theorem final_rel {R : σ → σ → Prop} [Std.Refl R] [IsTrans σ R]
    (hstep : ∀ s i, R s (step s i).2) (s : σ) (is : List ι) : R s (final step s is) := by
  induction is generalizing s with
  | nil => exact Std.Refl.refl s
  | cons i is ih => exact IsTrans.trans _ _ _ (hstep s i) (ih _)

/-- A preorder that every step climbs holds from the start of a run to each of its transitions. -/
theorem before_rel {R : σ → σ → Prop} [Std.Refl R] [IsTrans σ R]
    (hstep : ∀ s i, R s (step s i).2) {s : σ} {is : List ι} {t : Transition σ ι ο}
    (ht : t ∈ trace step s is) : R s t.before := by
  induction is generalizing s with
  | nil => cases ht
  | cons i is ih =>
    rcases List.mem_cons.mp ht with rfl | ht
    · exact Std.Refl.refl s
    · exact IsTrans.trans _ _ _ (hstep s i) (ih ht)

/-- A preorder that every step climbs relates any two transitions of a run, the earlier to the
later. -/
theorem pairwise_trace {R : σ → σ → Prop} [Std.Refl R] [IsTrans σ R]
    (hstep : ∀ s i, R s (step s i).2) (s : σ) (is : List ι) :
    (trace step s is).Pairwise fun t u => R t.after u.before := by
  induction is generalizing s with
  | nil => exact List.Pairwise.nil
  | cons i is ih => exact List.Pairwise.cons (fun u hu => before_rel step hstep hu) (ih _)

/-! ### Two machines side by side -/

variable {step} {τ ο' : Type} {step' : τ → ι → ο' × τ}

/-- Two machines that take the same inputs give related outputs throughout a run, if a relation
between their states makes the outputs of each step related and is kept by it. The guard is a
condition on the inputs and on the outputs of the first machine. -/
theorem forall₂_output {R : σ → τ → Prop} {Q : ο → ο' → Prop} (guard : ι → ο → Prop)
    (hstep : ∀ s t i, R s t → guard i (step s i).1 →
      Q (step s i).1 (step' t i).1 ∧ R (step s i).2 (step' t i).2)
    {s : σ} {t : τ} {is : List ι} (hR : R s t)
    (hguard : ∀ x ∈ trace step s is, guard x.input x.output) :
    List.Forall₂ (fun x y => Q x.output y.output) (trace step s is) (trace step' t is) := by
  induction is generalizing s t with
  | nil => exact .nil
  | cons i is ih =>
    obtain ⟨hout, hnext⟩ := hstep s t i hR (hguard _ (List.mem_cons_self (a := transition step s i)))
    exact .cons hout (ih hnext fun x hx => hguard x (List.mem_cons_of_mem _ hx))

end Run
