import CacheAside.Dispatch.Task
import CacheAside.Proofs.Dispatch.Ending

/-!
# A task that nobody interrupts

The steps of a task, made one right after the other, are the dispatch of its operation: they leave
the same result, shared state and store behind, and report the same events (`Task.run_begun`).
-/

namespace CacheAside

namespace Dispatch

variable {τ : Type} {op : Operation}

/-- An operation that is refused is counted as a request and does nothing else. -/
theorem dispatch_of_invalid (invalid : op.key = "" ∨ op.request = none) (store : Answering τ)
    (s : Shared) (t : τ) : dispatch store op s t = pure (refused, s.count .request, t) := by
  unfold dispatch
  by_cases unnamed : op.key = ""
  · exact if_pos unnamed
  · rcases op with key | ⟨key, _ | value⟩ | key
    · cases invalid.resolve_left unnamed
    · exact if_neg unnamed
    · cases invalid.resolve_left unnamed
    · cases invalid.resolve_left unnamed

end Dispatch

namespace Task

variable {τ : Type} {store : Answering τ} {op : Operation} {key : Key} {value : Value}

/-- The task of such an operation has ended before its first step. -/
theorem plan_of_invalid (invalid : op.key = "" ∨ op.request = none) :
    plan op = .ended Dispatch.refused := by
  by_cases unnamed : op.key = ""
  · exact if_pos unnamed
  · rcases op with key | ⟨key, _ | value⟩ | key
    · cases invalid.resolve_left unnamed
    · exact if_neg unnamed
    · cases invalid.resolve_left unnamed
    · cases invalid.resolve_left unnamed

theorem plan_read (named : key ≠ "") : plan (.read key) = .finding key := if_neg named

theorem plan_write (named : key ≠ "") (value : Value) :
    plan (.write key (some value)) = .storing key value := if_neg named

theorem plan_delete (named : key ≠ "") : plan (.delete key) = .removing key := if_neg named

theorem run_ended (store : Answering τ) (n : Nat) (result : Result) (s : Shared) (t : τ) :
    run store n (.ended result) s t = pure (.ended result, s, t) := by
  induction n with
  | zero => rfl
  | succ n ih => exact ih

/-- What `ask` leads to ends as `change` does, if its success does. -/
theorem ask_bind_run {n : Nat} {r : Request} {next : Option Value → Task}
    {adopt : Shared → Logged Shared} (adopts : ∀ value s t, run store n (next value) s t = do
      let s ← adopt s
      return (.ended (.answered ⟨.ok, none⟩), s, t)) (s : Shared) (t : τ) :
    (do
      let (task, s, t) ← ask store r next s t
      run store n task s t) = do
      let (result, s, t) ← Dispatch.change store r adopt s t
      return (.ended result, s, t) := by
  unfold ask Dispatch.change
  simp only [bind_assoc]
  apply bind_congr
  rintro ⟨reply, t⟩
  cases reply with
  | answered value => simp only [pure_bind, adopts, bind_assoc]
  | failed cause => simp only [pure_bind, bind_assoc, run_ended]
  | crashed text => simp only [pure_bind, run_ended]

/-- A read takes three steps at most, and together they are the read. -/
theorem run_finding (store : Answering τ) (key : Key) (s : Shared) (t : τ) :
    run store 3 (.finding key) s t = do
      let (result, s, t) ← Dispatch.read store key s t
      return (.ended result, s, t) := by
  unfold Dispatch.read
  rw [run, step]
  rcases s.find key with ⟨_ | value, s⟩
  · simp only [pure_bind, bind_assoc]
    rw [run, step, ask]
    simp only [bind_assoc]
    apply bind_congr
    rintro ⟨reply, t⟩
    rcases reply with ⟨_ | value⟩ | cause | text
    · rfl
    · simp only [pure_bind, bind_assoc, run, step]
    · simp only [pure_bind, bind_assoc, run_ended]
    · rfl
  · rfl

/-- The steps of a write are the write. -/
theorem run_storing (store : Answering τ) (key : Key) (value : Value) (s : Shared) (t : τ) :
    run store 3 (.storing key value) s t = do
      let (result, s, t) ← Dispatch.write store key value s t
      return (.ended result, s, t) := by
  refine ask_bind_run (fun _ s t => ?_) s t
  simp only [run, step, bind_assoc, pure_bind]

/-- The steps of a delete are the delete. -/
theorem run_removing (store : Answering τ) (key : Key) (s : Shared) (t : τ) :
    run store 3 (.removing key) s t = do
      let (result, s, t) ← Dispatch.delete store key s t
      return (.ended result, s, t) :=
  ask_bind_run (fun _ _ _ => rfl) s t

/-- The steps of a task that has just begun come to what dispatching its operation comes to. -/
theorem run_begun (store : Answering τ) (op : Operation) (s : Shared) (t : τ) :
    run store longest (.begun op) s t = do
      let (result, s, t) ← dispatch store op s t
      return (.ended result, s, t) := by
  have first : run store longest (.begun op) s t =
      run store 3 (plan op) (s.count .request) t := rfl
  rw [first]
  rcases op.valid_cases with invalid | ⟨key, named, rfl | ⟨value, rfl⟩ | rfl⟩
  · rw [plan_of_invalid invalid, Dispatch.dispatch_of_invalid invalid, run_ended]
    rfl
  · rw [plan_read named, run_finding, dispatch, Operation.key, if_neg named]
  · rw [plan_write named, run_storing, dispatch, Operation.key, if_neg named]
  · rw [plan_delete named, run_removing, dispatch, Operation.key, if_neg named]

end Task

end CacheAside
