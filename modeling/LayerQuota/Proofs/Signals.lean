import LayerQuota.Proofs.Signals.Ending
import LayerQuota.Proofs.Signals.Uninterrupted
/-!
# Callbacks are delivered once among signals

A signal may arrive before any step of an operation, of the program's own, of another handler's or
of a callback's. However many do, no callback is started twice, and once the scope is cancelled each
one that was not taken back before was started by the time the operations under way have ended.
-/

namespace LayerQuota.Rehearsal.ScopeThread

variable {m : ScopeThread}

theorem Ledger.take (hl : m.Ledger) (hp : m.Phased) (turn : Turn) : (m.take turn).Ledger :=
  match turn with
  | .step => hl.step hp.ready
  | .signal => hl.signal

theorem Phased.take (hp : m.Phased) (turn : Turn) : (m.take turn).Phased :=
  match turn with
  | .step => hp.step
  | .signal => hp.signal

theorem run_lawful (turns : List Turn) (hl : m.Ledger) (hp : m.Phased) :
    (m.run turns).Ledger ∧ (m.run turns).Phased := by
  induction turns generalizing m with
  | nil => exact ⟨hl, hp⟩
  | cons turn turns ih => exact ih (hl.take hp turn) (hp.take turn)

theorem Ledger.starts_nodup (hl : m.Ledger) : (starts m.events).Nodup := by
  refine List.nodup_iff_count_le_one.mpr fun n => ?_
  have h := hl.balance n
  split at h <;> omega

theorem Ledger.due_of_started (hl : m.Ledger) (n : Nat) (hn : n ∈ starts m.events) :
    IsDue m.events m.registered n := by
  by_contra hdue
  have h := hl.balance n
  have hpos := List.count_pos_iff.mpr hn
  rw [if_neg hdue] at h
  omega

/-- Nothing is left to start where all operations ended after the cancellation. -/
theorem Struck.carried_eq_zero (hs : m.Struck) (hm : m.frames = []) (n : Nat) :
    m.carried n = 0 := by
  rw [carried, hs.pending_eq_nil hm, hm]
  rfl

/-- For every program and wherever signals arrive: registrations are numbered in their order, no
callback is started twice, none is before the flag is set or where it was taken back before, each
other one has been started once the flag is set and the operations under way have ended, and those
end. Where no signal arrives the program has the events of its rehearsal. -/
theorem run_delivers_once (program : List ScopeAct) (turns : List Turn) :
    let m := (opening program).run turns
    registrations m.events = List.range m.registered ∧
      (m.scope.cancelled = true ↔ .cancelled ∈ m.events) ∧
      (starts m.events).Nodup ∧
      (∀ n ∈ starts m.events, n ∈ registrations m.events ∧ .cancelled ∈ m.events ∧
        .unregistered n ∉ beforeCancel m.events) ∧
      (.cancelled ∈ m.events → m.frames = [] → ∀ n ∈ registrations m.events,
        .unregistered n ∉ beforeCancel m.events → (starts m.events).count n = 1) ∧
      (∃ k, (m.run (List.replicate k .step)).frames = [] ∧
        (m.run (List.replicate k .step)).program = []) ∧
      ∃ k, let e := (opening program).run (List.replicate k .step)
        e.frames = [] ∧ e.program = [] ∧ e.scope = (ScopeStage.rehearse program).scope ∧
        e.events = (ScopeStage.rehearse program).events.filter (!·.isPerformed) ∧
        e.journal = (ScopeStage.rehearse program).journal := by
  intro m
  obtain ⟨hl, hp⟩ := run_lawful turns (opening_ledger program) (.inl (opening_calm program))
  have hnumbered : registrations m.events = List.range m.registered := hl.history.numbered
  have hflagged : m.scope.cancelled = true ↔ .cancelled ∈ m.events := hl.history.flagged
  refine ⟨hnumbered, hflagged, hl.starts_nodup, fun n hn => ?_, fun hc hm n hn hu => ?_, hp.ends,
    uninterrupted_run program⟩
  · obtain ⟨hn', hu⟩ := hl.due_of_started n hn
    refine ⟨hnumbered ▸ List.mem_range.mpr hn', ?_, hu⟩
    rcases hp with hcalm | hs
    · exact absurd (hcalm.unstarted ▸ hn) List.not_mem_nil
    · exact hflagged.mp hs.closed
  · have hstruck : m.Struck := by
      rcases hp with hcalm | hs
      · exact absurd (hcalm.isOpen.symm.trans (hflagged.mpr hc)) nofun
      · exact hs
    have hdue : IsDue m.events m.registered n := ⟨List.mem_range.mp (hnumbered ▸ hn), hu⟩
    have h := hl.balance n
    rw [if_pos hdue] at h
    rwa [hstruck.carried_eq_zero hm n] at h

/-- A signal between the insertion of a callback and the test of the flag: the handler starts it,
and the registration finds it gone. -/
example : starts ((opening [.onCancel "a" [.cancel]]).run
    (List.replicate 6 .step ++ .signal :: List.replicate 20 .step)).events = [0] := by
  decide

end LayerQuota.Rehearsal.ScopeThread
