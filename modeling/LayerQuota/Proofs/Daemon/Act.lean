import LayerQuota.Daemon.Events
import LayerQuota.Daemon.Reconcile
/-!
# Running acts

What each building block of an act does to the daemon, as an equation about its run. A sequence is
run by running its first part and going on from there, unless that failed.
-/

namespace LayerQuota.Act

variable {σ α β : Type}

@[simp]
theorem run_pure (a : α) (d : Daemon σ) : run (pure a) d = (.ok a, d) := rfl

@[simp]
theorem run_throw (f : Failure) (d : Daemon σ) :
    run (throw f : Act σ α) d = (.error f, d) := rfl

theorem run_bind (x : Act σ α) (f : α → Act σ β) (d : Daemon σ) :
    run (x >>= f) d =
      match run x d with
      | (.ok a, d) => run (f a) d
      | (.error e, d) => (.error e, d) := by
  unfold run
  rw [ExceptT.run_bind]
  show StateT.bind _ _ _ = _
  unfold StateT.bind
  rcases ExceptT.run x d with ⟨e | a, d'⟩
  · rfl
  · rfl

theorem run_bind_ok (x : Act σ α) (f : α → Act σ β) (d d' : Daemon σ) (a : α)
    (h : run x d = (.ok a, d')) : run (x >>= f) d = run (f a) d' := by
  rw [run_bind, h]

theorem run_bind_drop (x : Act σ α) (b : β) (d : Daemon σ) :
    (run (x >>= fun _ => pure b) d).2 = (run x d).2 := by
  rw [run_bind]
  rcases run x d with ⟨f | a, d'⟩
  · rfl
  · rfl

theorem run_bind_drop_fst (x : Act σ α) (b : β) (d : Daemon σ) :
    (run (x >>= fun _ => pure b) d).1 = (run x d).1.map fun _ => b := by
  rw [run_bind]
  rcases run x d with ⟨f | a, d'⟩
  · rfl
  · rfl

@[simp]
theorem run_ofStep (f : Daemon σ → Except Failure α × Daemon σ) (d : Daemon σ) :
    run (ofStep f) d = f d := rfl

@[simp]
theorem run_call (f : σ → Except Failure α × σ) (d : Daemon σ) :
    run (call f) d = ((f d.outside).1, ⟨d.core, (f d.outside).2⟩) := rfl

@[simp]
theorem run_ask (f : σ → α × σ) (d : Daemon σ) :
    run (ask f) d = (.ok (f d.outside).1, ⟨d.core, (f d.outside).2⟩) := rfl

@[simp]
theorem run_effect (f : σ → σ) (d : Daemon σ) :
    run (effect f) d = (.ok (), ⟨d.core, f d.outside⟩) := rfl

@[simp]
theorem run_core (d : Daemon σ) : run core d = (.ok d.core, d) := rfl

@[simp]
theorem run_modifyCore (f : Core → Core) (d : Daemon σ) :
    run (modifyCore f) d = (.ok (), ⟨f d.core, d.outside⟩) := rfl

@[simp]
theorem run_attempt (x : Act σ α) (d : Daemon σ) :
    run (attempt x) d = (.ok (run x d).1, (run x d).2) := rfl

end LayerQuota.Act

namespace LayerQuota.Host

open LayerQuota.Act

variable {σ : Type} (h : Host σ) (d : Daemon σ)

@[simp]
theorem run_isCancelled : Act.run h.isCancelled d = (.ok (h.cancelled d.outside), d) := rfl

theorem run_checkpoint :
    Act.run h.checkpoint d =
      if h.cancelled d.outside then (.error .cancelled, d) else (.ok (), d) := by
  rw [checkpoint, run_bind_ok _ _ d d _ (run_isCancelled h d)]
  split
  · rfl
  · rfl

@[simp]
theorem run_note (l : Level) (m : String) :
    Act.run (h.note l m) d = (.ok (), ⟨d.core, h.log ⟨l, m⟩ d.outside⟩) := rfl

theorem run_markUsed (id : Int) :
    Act.run (h.markUsed id) d =
      match d.core.pool.markUsed id with
      | .ok p => (.ok (), ⟨{ d.core with pool := p }, d.outside⟩)
      | .error e => (.error (.pool e), d) := by
  rw [markUsed, run_bind_ok _ _ d d _ (run_core d)]
  cases d.core.pool.markUsed id with
  | ok p => rfl
  | error e => rfl

@[simp]
theorem run_release (id : Int) :
    Act.run (h.release id) d =
      (.ok (), ⟨{ d.core with pool := d.core.pool.release id }, d.outside⟩) := rfl

theorem run_allocate :
    Act.run h.allocate d =
      match d.core.pool.allocate with
      | .ok (id, p) => (.ok id, ⟨{ d.core with pool := p }, d.outside⟩)
      | .error e => (.error (.pool e), d) := by
  rw [allocate, run_bind_ok _ _ d d _ (run_core d)]
  rcases d.core.pool.allocate with e | ⟨id, p⟩
  · rfl
  · rfl

@[simp]
theorem run_onStore (f : Disk σ → Store → σ → Except Failure Unit × Store × σ) :
    Act.run (h.onStore f) d =
      ((f h.toDisk d.core.store d.outside).1,
        ⟨{ d.core with store := (f h.toDisk d.core.store d.outside).2.1 },
          (f h.toDisk d.core.store d.outside).2.2⟩) := rfl

@[simp]
theorem run_entry? (c : String) :
    Act.run (h.entry? c) d = (.ok (d.core.store.table.get? c), d) := rfl

end LayerQuota.Host
