import Mathlib
import LayerQuota.Proofs.Signals.Phases
/-!
# Operations end

Whatever signals arrived, the operations under way come to their end. A thread has so many steps
before it at most, with those of the callbacks that may still be started, and each step is one of
them.
-/

namespace LayerQuota.Rehearsal

mutual

/-- How many steps an act takes at most, with those of the callback that it registers. -/
def ScopeAct.steps : ScopeAct → Nat
  | .onCancel _ acts => stepsAll acts + 13
  | .unregister _ => 4
  | .cancel => 9
  | _ => 1

def ScopeAct.stepsAll : List ScopeAct → Nat
  | [] => 0
  | act :: rest => act.steps + stepsAll rest

end

theorem ScopeAct.steps_pos (act : ScopeAct) : 0 < act.steps := by
  cases act <;> simp only [ScopeAct.steps] <;> omega

def ScopeCallback.steps (c : ScopeCallback) : Nat := ScopeAct.stepsAll c.acts + 3

def callSteps (due : List ScopeCallback) : Nat := (due.map ScopeCallback.steps).sum

namespace ScopeFrame

def registerSteps (c : ScopeCallback) : RegisterPoint → Nat
  | .readCounter => c.steps + 7
  | .raiseCounter _ => c.steps + 6
  | .insert => c.steps + 5
  | .test => 4
  | .pop => 3
  | .unlock missed => if missed then c.steps + 1 else 2
  | .call => c.steps
  | .bind _ => 1

def unregisterSteps : UnregisterPoint → Nat
  | .lock => 3
  | .pop => 2
  | .unlock => 1

/-- What a cancellation is going to start is counted with the table until it is cleared. -/
def cancelSteps : CancelPoint → Nat
  | .lock => 8
  | .test => 7
  | .set => 6
  | .snapshot => 5
  | .clear _ => 4
  | .unlock due => callSteps due + 3
  | .deliver due => callSteps due + 2
  | .guard _ due => callSteps due + 3

def steps : ScopeFrame → Nat
  | .lock _ acts => ScopeAct.stepsAll acts + 12
  | .readToken _ acts => ScopeAct.stepsAll acts + 11
  | .registering c _ next => registerSteps c next
  | .unregistering _ _ next => unregisterSteps next
  | .cancelling next => cancelSteps next
  | .script acts => ScopeAct.stepsAll acts + 1

end ScopeFrame

def frameSteps (frames : List ScopeFrame) : Nat := (frames.map ScopeFrame.steps).sum

@[simp] theorem callSteps_nil : callSteps [] = 0 := rfl

@[simp] theorem callSteps_cons (c : ScopeCallback) (due : List ScopeCallback) :
    callSteps (c :: due) = c.steps + callSteps due := List.sum_cons

theorem callSteps_append (due due' : List ScopeCallback) :
    callSteps (due ++ due') = callSteps due + callSteps due' := by
  rw [callSteps, List.map_append, List.sum_append_nat]
  rfl

theorem callSteps_unregister (s : CancelScope ScopeCallback) (token : Nat) :
    callSteps ((s.unregister token).pending.map (·.2)) ≤ callSteps (s.pending.map (·.2)) :=
  ((List.filter_sublist.map _).map _).sum_le_sum fun _ _ => Nat.zero_le _

@[simp] theorem frameSteps_cons (frame : ScopeFrame) (below : List ScopeFrame) :
    frameSteps (frame :: below) = frame.steps + frameSteps below := List.sum_cons

/-- A failure ends operations, and the cancellation that meets it goes on where it would have. -/
theorem frameSteps_unwind (f : Failure) (frames : List ScopeFrame) :
    frameSteps (unwind f frames).2 ≤ frameSteps frames := by
  fun_induction unwind f frames with
  | case1 => exact Nat.le_refl _
  | case2 name due below =>
    simp only [frameSteps_cons, ScopeFrame.steps, ScopeFrame.cancelSteps]
    omega
  | case3 frame below _ ih =>
    rw [frameSteps_cons]
    omega

namespace ScopeThread

def remaining (m : ScopeThread) : Nat :=
  callSteps (m.scope.pending.map (·.2)) + frameSteps m.frames + ScopeAct.stepsAll m.program

variable {m : ScopeThread} {frame : ScopeFrame} {below : List ScopeFrame}

theorem remaining_push (m : ScopeThread) (frame : ScopeFrame) :
    (m.push frame).remaining = m.remaining + frame.steps := by
  simp only [remaining, push, frameSteps_cons]
  omega

@[simp] theorem remaining_noting (m : ScopeThread) (e : ScopeEvent) :
    (m.noting e).remaining = m.remaining := rfl

theorem remaining_start (m : ScopeThread) (c : ScopeCallback) :
    (m.start c).remaining = m.remaining + (ScopeAct.stepsAll c.acts + 1) := remaining_push _ _

theorem remaining_fail (m : ScopeThread) (f : Failure) : (m.fail f).remaining ≤ m.remaining := by
  have h := frameSteps_unwind f m.frames
  simp only [remaining, fail]
  omega

theorem remaining_beginAct (m : ScopeThread) (act : ScopeAct) :
    (m.beginAct act).remaining < m.remaining + act.steps := by
  have hbegins := m.begins_beginAct act
  have hact : 0 < act.steps := act.steps_pos
  generalize m.beginAct act = m' at hbegins ⊢
  cases hbegins with
  | registers name acts =>
    rw [remaining_push]
    simp only [ScopeFrame.steps, ScopeAct.steps]
    omega
  | unregisters =>
    rw [remaining_push]
    simp only [ScopeFrame.steps, ScopeFrame.unregisterSteps, ScopeAct.steps]
    omega
  | unregistersLate =>
    rw [remaining_noting]
    omega
  | cancels =>
    rw [remaining_push]
    simp only [ScopeFrame.steps, ScopeFrame.cancelSteps, ScopeAct.steps]
    omega
  | stays => omega
  | fails _ f =>
    have hfail := remaining_fail m f
    omega

theorem remaining_stepRegister (c : ScopeCallback) (token : Nat) (next : RegisterPoint)
    (hr : m.Ready below (.registering c token next)) :
    (m.stepRegister c token next).remaining < m.remaining + ScopeFrame.registerSteps c next := by
  cases next with
  | readCounter =>
    rw [stepRegister, remaining_push]
    simp only [ScopeFrame.steps, ScopeFrame.registerSteps]
    omega
  | raiseCounter counter =>
    rw [stepRegister, remaining_push]
    simp only [ScopeFrame.steps, ScopeFrame.registerSteps, remaining]
    omega
  | insert =>
    have hinsert : assign token c m.scope.pending = m.scope.pending ++ [(token, c)] :=
      assign_absent token c _ hr
    rw [stepRegister, remaining_push]
    simp only [ScopeFrame.steps, ScopeFrame.registerSteps, remaining, hinsert, List.map_append,
      callSteps_append, List.map_cons, List.map_nil, callSteps_cons, callSteps_nil]
    omega
  | test =>
    simp only [stepRegister]
    split
    · rw [remaining_push]
      exact Nat.lt_succ_self _
    · rw [remaining_push]
      simp only [ScopeFrame.steps, ScopeFrame.registerSteps, Bool.false_eq_true, if_false]
      omega
  | pop =>
    rw [stepRegister, remaining_push]
    rcases hr with hr | hr
    · simp only [ScopeFrame.steps, ScopeFrame.registerSteps, remaining,
        pending_unregister_nil hr, hr, List.any_nil, Bool.false_eq_true, if_false]
      omega
    · simp only [ScopeFrame.steps, ScopeFrame.registerSteps, remaining,
        pending_unregister_own hr, hr, List.any_cons, beq_self_eq_true, Bool.true_or, if_true,
        List.map_cons, List.map_nil, callSteps_cons, callSteps_nil]
      omega
  | unlock missed =>
    cases missed with
    | true =>
      rw [stepRegister, if_pos rfl, remaining_push]
      exact Nat.lt_succ_self _
    | false =>
      rw [stepRegister, if_neg Bool.false_ne_true, remaining_push]
      exact Nat.lt_succ_self _
  | call =>
    rw [stepRegister, remaining_start, remaining_push]
    simp only [ScopeFrame.steps, ScopeFrame.registerSteps, ScopeCallback.steps]
    omega
  | bind isKept => exact Nat.lt_succ_self _

theorem remaining_stepCancel (next : CancelPoint) (hr : m.Ready below (.cancelling next)) :
    (m.stepCancel next).remaining < m.remaining + ScopeFrame.cancelSteps next := by
  cases next with
  | lock =>
    rw [stepCancel, remaining_push]
    exact Nat.lt_succ_self _
  | test =>
    simp only [stepCancel]
    split
    · rw [remaining_push]
      simp only [ScopeFrame.steps, ScopeFrame.cancelSteps, callSteps_nil, remaining_noting]
      omega
    · rw [remaining_push]
      exact Nat.lt_succ_self _
  | set =>
    rw [stepCancel, remaining_push]
    exact Nat.lt_succ_self _
  | snapshot =>
    rw [stepCancel, remaining_push]
    exact Nat.lt_succ_self _
  | clear due =>
    have hdue : due = m.scope.pending.map (·.2) := hr
    rw [stepCancel, remaining_push, hdue]
    simp only [ScopeFrame.steps, ScopeFrame.cancelSteps, remaining, List.map_nil, callSteps_nil]
    omega
  | unlock due =>
    rw [stepCancel, remaining_push]
    exact Nat.lt_succ_self _
  | deliver due =>
    cases due with
    | nil => exact Nat.lt_add_of_pos_right (by decide)
    | cons c due =>
      rw [stepCancel, remaining_start, remaining_push]
      simp only [ScopeFrame.steps, ScopeFrame.cancelSteps, ScopeCallback.steps, callSteps_cons]
      omega
  | guard name due =>
    rw [stepCancel, remaining_push]
    exact Nat.lt_succ_self _

theorem remaining_stepFrame (hr : m.Ready below frame) :
    (m.stepFrame frame).remaining < m.remaining + frame.steps := by
  cases frame with
  | lock name acts =>
    rw [stepFrame, remaining_push]
    simp only [ScopeFrame.steps]
    omega
  | readToken name acts =>
    rw [stepFrame, remaining_push]
    simp only [ScopeFrame.steps, ScopeFrame.registerSteps, ScopeCallback.steps, remaining, noting]
    omega
  | registering c token next => exact remaining_stepRegister c token next hr
  | unregistering number token next =>
    cases next with
    | lock =>
      rw [stepFrame, stepUnregister, remaining_push]
      exact Nat.lt_succ_self _
    | pop =>
      have hfewer := callSteps_unregister m.scope token
      rw [stepFrame, stepUnregister, remaining_push]
      simp only [ScopeFrame.steps, ScopeFrame.unregisterSteps, remaining, noting]
      omega
    | unlock => exact Nat.lt_succ_self _
  | cancelling next => exact remaining_stepCancel next hr
  | script acts =>
    cases acts with
    | nil => exact Nat.lt_succ_self _
    | cons act acts =>
      have h := remaining_beginAct (m.push (.script acts)) act
      rw [remaining_push] at h
      simp only [stepFrame, ScopeFrame.steps, ScopeAct.stepsAll] at h ⊢
      omega

theorem remaining_step (hp : m.Phased) (h : ¬(m.frames = [] ∧ m.program = [])) :
    m.step.remaining < m.remaining := by
  unfold ScopeThread.step
  split
  · rename_i frame below hm
    have hready : ({ m with frames := below } : ScopeThread).Ready below frame := hp.ready _ _ hm
    refine Nat.lt_of_lt_of_le (remaining_stepFrame hready) (Nat.le_of_eq ?_)
    simp only [remaining, hm, frameSteps_cons]
    omega
  · rename_i act rest _ hprogram
    refine Nat.lt_of_lt_of_le (remaining_beginAct _ act) (Nat.le_of_eq ?_)
    simp only [remaining, hprogram, ScopeAct.stepsAll]
    omega
  · rename_i hm hprogram
    exact absurd ⟨hm, hprogram⟩ h

/-- Where no more signals arrive, the operations under way end, and the program with them. -/
theorem Phased.ends (hp : m.Phased) : ∃ k,
    (m.run (List.replicate k .step)).frames = [] ∧
      (m.run (List.replicate k .step)).program = [] := by
  induction hn : m.remaining using Nat.strong_induction_on generalizing m with
  | _ n ih =>
    by_cases hend : m.frames = [] ∧ m.program = []
    · exact ⟨0, hend⟩
    · obtain ⟨k, hk⟩ := ih m.step.remaining (hn ▸ remaining_step hp hend) hp.step rfl
      exact ⟨k + 1, hk⟩

end ScopeThread

end LayerQuota.Rehearsal
