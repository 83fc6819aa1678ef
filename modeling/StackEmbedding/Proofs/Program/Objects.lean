import StackEmbedding.Proofs.Machine.Objects
import StackEmbedding.Proofs.Program.Change

/-!
# What a run does to the objects

A step of a run changes at most one object (`Configuration.step_objects`). Entering a function,
returning from it and failing change none, so that no call undoes what its callee did to a table, a
closure or a global.

For the tables it follows that at every moment of every run each of them arises from the empty one
by stores, whatever else the run did in between (`Configuration.Reachable.table_stored`).
-/

set_option autoImplicit false

namespace StackEmbedding

variable {κ σ : Type}

/-! ## Calls -/

/-- Giving back results or a failure changes no object. -/
theorem World.objects_giveBack (base callee : Nat) (results : Int)
    (outcome : Except Panic Ending) (w : World κ σ) :
    (w.giveBack base callee results outcome).2.machine.objects = w.machine.objects := by
  match outcome with
  | .ok (.ok reported) =>
    unfold giveBack Machine.deliver
    dsimp only
    split <;> rfl
  | .ok (.error _) => rfl
  | .error _ => rfl

namespace Verdict

variable {host : Host κ σ}

theorem objects_attempt {callee : Nat} {purpose : Purpose} {refused : RuntimeError → Verdict κ σ}
    {w : World κ σ} (hrefused : ∀ e, (refused e).world.machine.objects = w.machine.objects) :
    (attempt host callee purpose refused w).world.machine.objects = w.machine.objects := by
  unfold attempt
  split
  next => rfl
  next e _ => exact hrefused e

theorem objects_fail (callee : Nat) (purpose : Purpose) (e : RuntimeError) (w : World κ σ) :
    (fail host callee purpose e w).world.machine.objects = w.machine.objects := by
  unfold fail
  split
  next => rfl
  next => exact objects_attempt (w := prepare callee _ e w) fun _ => rfl
  next => rfl

theorem objects_conclude (callee : Nat) (purpose : Purpose) (result : Except RuntimeError Unit)
    (w : World κ σ) :
    (conclude host callee purpose result w).world.machine.objects = w.machine.objects := by
  unfold conclude
  split
  next => cases purpose <;> rfl
  next e => exact objects_fail callee purpose e w

end Verdict

/-! ## Runs -/

namespace Configuration

variable {host : Host κ σ} {c d : Configuration κ σ}

theorem objects_proceed (a : Activation κ σ) (rest : List (Activation κ σ)) (v : Verdict κ σ) :
    (a.proceed rest v).machine.objects = v.world.machine.objects := by
  cases v <;> rfl

theorem finish_objects {outcome : Except Panic Ending} (h : c.finish host outcome = some d) :
    d.machine.objects = c.machine.objects := by
  unfold finish at h
  split at h
  next => cases h
  next a rest _ =>
    obtain rfl := Option.some.inj h
    rw [objects_proceed, Activation.leave, Verdict.objects_conclude, World.objects_giveBack]

/-- A step changes at most one object. -/
theorem step_objects (h : c.step host = some d) : c.machine.ObjectStep d.machine := by
  unfold step at h
  split at h
  next => exact .same (finish_objects h)
  next => exact .same (finish_objects h)
  next p next _ =>
    have hperform := c.machine.perform_step p
    rcases hresult : c.machine.perform p with ⟨cause | reply, m⟩ <;> rw [hresult] at h hperform <;>
      obtain rfl := Option.some.inj h <;> exact hperform
  next =>
    split at h
    next callee handler _ =>
      obtain rfl := Option.some.inj h
      apply Machine.ObjectStep.same
      rw [objects_proceed, Verdict.begin,
        Verdict.objects_attempt fun e => Verdict.objects_fail _ _ e c.world]
    next =>
      obtain rfl := Option.some.inj h
      exact .same rfl
  next =>
    obtain rfl := Option.some.inj h
    exact .same rfl
  next =>
    obtain rfl := Option.some.inj h
    exact .same rfl

/-- At every moment of every run, each table arises from the empty one by stores. -/
theorem Reachable.table_stored (hc : Reachable host c) : c.machine.TablesStored := by
  obtain ⟨identity, limits, memory, code, hstart⟩ := hc
  induction hstart with
  | refl => exact Machine.tablesStored_new identity limits
  | step _ _ hstep ih => exact ih.step (step_objects hstep)
  | restart _ _ _ _ ih => exact ih

end Configuration

end StackEmbedding
