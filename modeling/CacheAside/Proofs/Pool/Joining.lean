import CacheAside.Pool.Schedule

/-!
# Joining a pool at rest

When nothing is left to do for a pool, closing it and waiting for its workers gives their
connections back and does nothing else: `Pool.value_join`.
-/

namespace CacheAside

namespace Pool

variable {σ γ : Type} {b : Backend σ γ} {p : Pool σ γ}

/-- When an idle worker stops, or there is none that could, nothing else happens. -/
theorem value_perform_stop (p : Pool σ γ) (w : Nat) :
    (p.perform b (.stop w)).value.shared = p.shared ∧
      (p.perform b (.stop w)).value.store = p.store := by
  unfold perform act? stop?
  dsimp only
  split
  · exact ⟨rfl, rfl⟩
  · exact ⟨rfl, rfl⟩

theorem value_performAll_stop (p : Pool σ γ) (workers : List Nat) :
    (p.performAll b (workers.map .stop)).value.shared = p.shared ∧
      (p.performAll b (workers.map .stop)).value.store = p.store := by
  induction workers generalizing p with
  | nil => exact ⟨rfl, rfl⟩
  | cons w workers ih =>
      obtain ⟨shared, store⟩ := p.value_perform_stop (b := b) w
      obtain ⟨shared', store'⟩ := ih (p.perform b (.stop w)).value
      exact ⟨shared'.trans shared, store'.trans store⟩

/-- Closing a pool at rest leaves it at rest. -/
theorem value_perform_close (p : Pool σ γ) :
    (p.perform b .close).value = { p with isOpen := false } := by
  unfold perform act? close
  dsimp only
  split
  · rfl
  · next shut =>
      have same : { p with isOpen := false } = p := by
        rw [← Bool.of_not_eq_true shut]
      exact same.symm

/-- Nothing is left to do for a pool at rest, so joining it changes neither what is shared nor the
store. -/
theorem value_join (waiting : p.waiting = []) (queue : p.queue = []) :
    (p.join b).value.shared = p.shared ∧ (p.join b).value.store = p.store := by
  have settled :
      ({ p with isOpen := false } : Pool σ γ).settle b = pure { p with isOpen := false } := by
    unfold settle
    dsimp only
    rw [waiting, queue]
    rfl
  have down : (p.shutDown b).value =
      (({ p with isOpen := false } : Pool σ γ).performAll b
        ((List.range p.workers.length).map .stop)).value := by
    simp only [shutDown, Logged.value_bind, value_perform_close, settled, Logged.value_pure]
  have joined : (p.join b).value = (p.shutDown b).value := rfl
  rw [joined, down]
  exact value_performAll_stop { p with isOpen := false } _

end Pool

end CacheAside
