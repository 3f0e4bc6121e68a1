import CacheAside.Proofs.Dispatch.Uninterrupted

/-!
# Operations side by side

`Interleaving` is any order in which operations can arrive and make their steps, each step being one
call on the cache or the store that they share. To dispatch them one after the other is one such
order (`Interleaving.dispatchAll`).
-/

namespace CacheAside

variable {τ : Type}

/-- The operations that have arrived, the newest first, each with what is left to do of it. -/
inductive Interleaving (store : Answering τ) (s₀ : Shared) (t₀ : τ) :
    List (Operation × Task) → Shared → τ → Prop
  | start : Interleaving store s₀ t₀ [] s₀ t₀
  | arrive {strands : List (Operation × Task)} {s : Shared} {t : τ} (op : Operation)
      (run : Interleaving store s₀ t₀ strands s t) :
      Interleaving store s₀ t₀ ((op, .begun op) :: strands) s t
  | step {before after : List (Operation × Task)} {op : Operation} {task task' : Task}
      {s s' : Shared} {t t' : τ}
      (run : Interleaving store s₀ t₀ (before ++ (op, task) :: after) s t)
      (stepped : (task.step store s t).value = (task', s', t')) :
      Interleaving store s₀ t₀ (before ++ (op, task') :: after) s' t'

/-- Dispatches operations one after the other, and collects what they come to. -/
def dispatchAll (store : Answering τ) :
    List Operation → Shared → τ → Logged (List (Operation × Result) × Shared × τ)
  | [], s, t => pure ([], s, t)
  | op :: ops, s, t => do
    let (result, s, t) ← dispatch store op s t
    let (results, s, t) ← dispatchAll store ops s t
    return ((op, result) :: results, s, t)

/-- An operation that has come to this. -/
def finished (done : Operation × Result) : Operation × Task := (done.1, .ended done.2)

variable {store : Answering τ} {s₀ s s' : Shared} {t₀ t t' : τ} {ops : List Operation}
  {results : List (Operation × Result)}

/-- A row of operations is the first of them and then the others. -/
theorem dispatchAll_cons {op : Operation}
    (ran : (dispatchAll store (op :: ops) s t).value = (results, s', t')) :
    ∃ result s₁ t₁ later, (dispatch store op s t).value = (result, s₁, t₁) ∧
      (dispatchAll store ops s₁ t₁).value = (later, s', t') ∧ results = (op, result) :: later := by
  rcases first : (dispatch store op s t).value with ⟨result, s₁, t₁⟩
  rcases rest : (dispatchAll store ops s₁ t₁).value with ⟨later, s₂, t₂⟩
  simp only [dispatchAll, Logged.value_bind, first, rest, Logged.value_pure] at ran
  cases ran
  exact ⟨result, s₁, t₁, later, rfl, rest, rfl⟩

theorem map_fst_dispatchAll (ran : (dispatchAll store ops s t).value = (results, s', t')) :
    results.map Prod.fst = ops := by
  induction ops generalizing s t results with
  | nil =>
      cases ran
      rfl
  | cons op ops ih =>
      obtain ⟨result, s₁, t₁, later, -, rest, rfl⟩ := dispatchAll_cons ran
      rw [List.map_cons, ih rest]

namespace Interleaving

/-- The steps of one task may follow right after each other. -/
theorem uninterrupted {before after : List (Operation × Task)} {op : Operation} {task task' : Task}
    {n : Nat} (run : Interleaving store s₀ t₀ (before ++ (op, task) :: after) s t)
    (ran : (task.run store n s t).value = (task', s', t')) :
    Interleaving store s₀ t₀ (before ++ (op, task') :: after) s' t' := by
  induction n generalizing task s t with
  | zero =>
      cases ran
      exact run
  | succ n ih =>
      rcases stepped : (task.step store s t).value with ⟨next, s₁, t₁⟩
      rw [Task.run, Logged.value_bind, stepped] at ran
      exact ih (run.step stepped) ran

/-- Dispatching a row of operations is one of the interleavings: each ends before the next arrives.
-/
theorem dispatchAll {strands : List (Operation × Task)}
    (run : Interleaving store s₀ t₀ strands s t)
    (ran : (dispatchAll store ops s t).value = (results, s', t')) :
    Interleaving store s₀ t₀ ((results.map finished).reverse ++ strands) s' t' := by
  induction ops generalizing strands s t results with
  | nil =>
      cases ran
      exact run
  | cons op ops ih =>
      obtain ⟨result, s₁, t₁, later, first, rest, rfl⟩ := dispatchAll_cons ran
      have steps : ((Task.begun op).run store Task.longest s t).value =
          (.ended result, s₁, t₁) := by
        rw [Task.run_begun, Logged.value_bind, first]
        rfl
      have arrived : Interleaving store s₀ t₀ ([] ++ (op, .begun op) :: strands) s t :=
        run.arrive op
      have done := ih (arrived.uninterrupted steps) rest
      rw [List.map_cons, List.reverse_cons, List.append_assoc]
      exact done

end Interleaving

end CacheAside
