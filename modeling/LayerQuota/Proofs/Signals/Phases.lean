import LayerQuota.Proofs.Signals.Ledger
/-!
# Where a thread among signals can be

Until the flag is set one operation of the program is under way at most, below cancellations that
have not come to the flag. From then on the table is empty, or what it holds belongs to the operation
that the thread has come to, below cancellations that find the flag set.
-/

namespace LayerQuota.Rehearsal.ScopeThread

/-! ### Before the flag is set -/

/-- An operation of the program. Callbacks are kept under the numbers of their registrations. -/
def Sound (s : CancelScope ScopeCallback) (count : Nat) : ScopeFrame → Prop
  | .lock _ _ | .readToken _ _ => s.nextToken = count
  | .registering c token .readCounter =>
    token = c.number ∧ s.nextToken = token ∧ count = token + 1
  | .registering c token (.raiseCounter counter) =>
    token = c.number ∧ s.nextToken = token ∧ count = token + 1 ∧ counter = token
  | .registering c token .insert =>
    token = c.number ∧ s.nextToken = count ∧ count = token + 1 ∧ token ∉ s.pending.map (·.1)
  | .registering c token .test | .registering c token (.unlock false)
  | .registering c token (.bind true) => token = c.number ∧ s.nextToken = count
  | .unregistering number token _ => token = number ∧ s.nextToken = count
  | _ => False

inductive CalmStack (s : CancelScope ScopeCallback) (count : Nat) : List ScopeFrame → Prop
  | empty (h : s.nextToken = count) : CalmStack s count []
  | act {frame : ScopeFrame} (h : Sound s count frame) : CalmStack s count [frame]
  | locking {below : List ScopeFrame} (h : CalmStack s count below) :
    CalmStack s count (.cancelling .lock :: below)
  | testing {below : List ScopeFrame} (h : CalmStack s count below) :
    CalmStack s count (.cancelling .test :: below)
  | setting {below : List ScopeFrame} (h : CalmStack s count below) :
    CalmStack s count (.cancelling .set :: below)

structure Calm (m : ScopeThread) : Prop where
  isOpen : m.scope.cancelled = false
  unstarted : starts m.events = []
  tokens : ∀ p ∈ m.scope.pending, p.1 = p.2.number ∧ p.1 < m.scope.nextToken
  handles : ∀ x ∈ m.handles, x.2.token = some x.2.number
  stack : CalmStack m.scope m.registered m.frames

/-! ### From then on -/

/-- A cancellation between its reading of the table and its clearing is not passive. -/
def Passive : ScopeFrame → Prop
  | .cancelling .snapshot | .cancelling (.clear _) => False
  | _ => True

inductive StruckStack (pending : List (Nat × ScopeCallback)) : List ScopeFrame → Prop
  | cleared {frames : List ScopeFrame} (h : pending = []) (hp : ∀ f ∈ frames, Passive f) :
    StruckStack pending frames
  | reading {below : List ScopeFrame} (hp : ∀ f ∈ below, Passive f) :
    StruckStack pending (.cancelling .snapshot :: below)
  | clearing {below : List ScopeFrame} {due : List ScopeCallback} (h : due = pending.map (·.2))
    (hp : ∀ f ∈ below, Passive f) : StruckStack pending (.cancelling (.clear due) :: below)
  | inserted {below : List ScopeFrame} {c : ScopeCallback} {token : Nat}
    (h : pending = [(token, c)]) (hp : ∀ f ∈ below, Passive f) :
    StruckStack pending (.registering c token .test :: below)
  | missed {below : List ScopeFrame} {c : ScopeCallback} {token : Nat}
    (h : pending = [(token, c)]) (hp : ∀ f ∈ below, Passive f) :
    StruckStack pending (.registering c token .pop :: below)
  | locking {below : List ScopeFrame} (h : StruckStack pending below) :
    StruckStack pending (.cancelling .lock :: below)
  | testing {below : List ScopeFrame} (h : StruckStack pending below) :
    StruckStack pending (.cancelling .test :: below)
  | unlocking {below : List ScopeFrame} (h : StruckStack pending below) :
    StruckStack pending (.cancelling (.unlock []) :: below)
  | ending {below : List ScopeFrame} (h : StruckStack pending below) :
    StruckStack pending (.cancelling (.deliver []) :: below)

structure Struck (m : ScopeThread) : Prop where
  closed : m.scope.cancelled = true
  stack : StruckStack m.scope.pending m.frames

def Phased (m : ScopeThread) : Prop := Calm m ∨ Struck m

theorem CalmStack.passive {s : CancelScope ScopeCallback} {count : Nat} {frames : List ScopeFrame}
    (h : CalmStack s count frames) : ∀ f ∈ frames, Passive f := by
  induction h with
  | empty => exact fun f hf => absurd hf List.not_mem_nil
  | @act frame h =>
    refine List.forall_mem_cons.mpr ⟨?_, fun f hf => absurd hf List.not_mem_nil⟩
    cases frame with
    | cancelling next => exact h.elim
    | _ => trivial
  | locking _ ih => exact List.forall_mem_cons.mpr ⟨trivial, ih⟩
  | testing _ ih => exact List.forall_mem_cons.mpr ⟨trivial, ih⟩
  | setting _ ih => exact List.forall_mem_cons.mpr ⟨trivial, ih⟩

variable {m : ScopeThread} {frame : ScopeFrame} {below : List ScopeFrame}

theorem opening_calm (program : List ScopeAct) : Calm (opening program) where
  isOpen := rfl
  unstarted := rfl
  tokens _ h := absurd h List.not_mem_nil
  handles _ h := absurd h List.not_mem_nil
  stack := .empty rfl

/-! ### What the phases give a step -/

theorem Calm.ready (hc : m.Calm) (hm : m.frames = frame :: below) : m.Ready below frame := by
  have hstack := hc.stack
  rw [hm] at hstack
  cases hstack with
  | act h =>
    cases frame with
    | registering c token next =>
      cases next with
      | insert => exact h.2.2.2
      | pop => exact h.elim
      | bind isKept =>
        cases isKept with
        | true => trivial
        | false => exact h.elim
      | _ => trivial
    | unregistering number token next =>
      cases next with
      | pop =>
        exact .inr ⟨hc.isOpen, hc.unstarted, rfl, h.1, fun p hp => (hc.tokens p hp).1⟩
      | _ => trivial
    | cancelling next => exact h.elim
    | _ => trivial
  | locking => trivial
  | testing => trivial
  | setting => trivial

theorem Struck.ready (hs : m.Struck) (hm : m.frames = frame :: below) : m.Ready below frame := by
  have hstack := hs.stack
  rw [hm] at hstack
  cases hstack with
  | cleared h hp =>
    cases frame with
    | registering c token next =>
      cases next with
      | insert =>
        show token ∉ m.scope.pending.map (·.1)
        rw [h]
        exact List.not_mem_nil
      | pop => exact .inl h
      | bind isKept =>
        cases isKept with
        | true => trivial
        | false => exact hs.closed
      | _ => trivial
    | unregistering number token next =>
      cases next with
      | pop => exact .inl ⟨hs.closed, h⟩
      | _ => trivial
    | cancelling next =>
      cases next with
      | clear due => exact (hp _ List.mem_cons_self).elim
      | _ => trivial
    | _ => trivial
  | reading => trivial
  | clearing h => exact h
  | inserted => trivial
  | missed h => exact .inr h
  | locking => trivial
  | testing => trivial
  | unlocking => trivial
  | ending => trivial

theorem Phased.ready (hp : m.Phased) (f : ScopeFrame) (fs : List ScopeFrame)
    (hm : m.frames = f :: fs) : m.Ready fs f :=
  hp.elim (·.ready hm) (·.ready hm)

/-! ### Steps before the flag is set -/

theorem Calm.replaced (hc : m.Calm) (s : CancelScope ScopeCallback) (frames : List ScopeFrame)
    (hflag : s.cancelled = m.scope.cancelled) (hpending : s.pending = m.scope.pending)
    (hnext : m.scope.nextToken ≤ s.nextToken) (hstack : CalmStack s m.registered frames) :
    ({ m with scope := s, frames } : ScopeThread).Calm := by
  refine ⟨hflag.trans hc.isOpen, hc.unstarted, fun p hp => ?_, hc.handles, hstack⟩
  have hp : p ∈ m.scope.pending := hpending ▸ hp
  exact ⟨(hc.tokens p hp).1, Nat.lt_of_lt_of_le (hc.tokens p hp).2 hnext⟩

theorem Calm.moved (hc : m.Calm) (frames : List ScopeFrame)
    (hstack : CalmStack m.scope m.registered frames) : ({ m with frames } : ScopeThread).Calm :=
  hc.replaced m.scope frames rfl rfl (Nat.le_refl _) hstack

theorem Calm.beganAct (hc : m.Calm) (hm : m.frames = []) (act : ScopeAct) :
    (m.beginAct act).Calm := by
  have hcounted : m.scope.nextToken = m.registered := by
    have hstack := hc.stack
    rw [hm] at hstack
    cases hstack with
    | empty h => exact h
  have hpushed : ∀ next, Sound m.scope m.registered next → (m.push next).Calm := by
    intro next h
    rw [push, hm]
    exact hc.moved [next] (.act h)
  have hbegins := m.begins_beginAct act
  generalize m.beginAct act = m' at hbegins ⊢
  cases hbegins with
  | registers name acts => exact hpushed _ hcounted
  | unregisters h => exact hpushed _ ⟨Option.some.inj (hc.handles _ h), hcounted⟩
  | unregistersLate h => cases hc.handles _ h
  | cancels => exact hc.moved _ (.locking hc.stack)
  | stays => exact hc
  | fails _ f =>
    rw [fail, hm]
    exact ⟨hc.isOpen, hc.unstarted, hc.tokens, hc.handles, .empty hcounted⟩

theorem Calm.steppedRegister (hc : m.Calm) (c : ScopeCallback) (token : Nat) (next : RegisterPoint)
    (h : Sound m.scope m.registered (.registering c token next)) :
    (({ m with frames := [] } : ScopeThread).stepRegister c token next).Calm := by
  cases next with
  | readCounter => exact hc.moved _ (.act ⟨h.1, h.2.1, h.2.2, h.2.1⟩)
  | raiseCounter counter =>
    obtain ⟨htoken, hnext, hcount, hcounter⟩ := h
    refine hc.replaced { m.scope with nextToken := counter + 1 } _ rfl rfl ?_
      (.act ⟨htoken, ?_, hcount, fun hmem => ?_⟩)
    · exact Nat.le_succ_of_le (Nat.le_of_eq (hnext.trans hcounter.symm))
    · rw [hcounter, hcount]
    · obtain ⟨p, hp, rfl⟩ := List.mem_map.mp hmem
      exact absurd (hc.tokens p hp).2 (Nat.not_lt_of_le (Nat.le_of_eq hnext))
  | insert =>
    obtain ⟨htoken, hnext, hcount, hfree⟩ := h
    refine ⟨hc.isOpen, hc.unstarted, fun p hp => ?_, hc.handles, .act ⟨htoken, hnext⟩⟩
    have hp : p ∈ m.scope.pending ++ [(token, c)] := assign_absent token c _ hfree ▸ hp
    rcases List.mem_append.mp hp with hp | hp
    · exact hc.tokens p hp
    · rw [List.mem_singleton.mp hp]
      refine ⟨htoken, ?_⟩
      show token < m.scope.nextToken
      omega
  | test =>
    simp only [stepRegister, hc.isOpen, Bool.false_eq_true, if_false]
    exact hc.moved _ (.act h)
  | pop => exact h.elim
  | unlock missed =>
    cases missed with
    | true => exact h.elim
    | false => exact hc.moved _ (.act h)
  | call => exact h.elim
  | bind isKept =>
    cases isKept with
    | false => exact h.elim
    | true =>
      refine ⟨hc.isOpen, hc.unstarted, hc.tokens, ?_, .empty h.2⟩
      exact List.forall_mem_cons.mpr ⟨congrArg some h.1, hc.handles⟩

theorem Calm.steppedUnregister (hc : m.Calm) (number token : Nat) (next : UnregisterPoint)
    (h : Sound m.scope m.registered (.unregistering number token next)) :
    (({ m with frames := [] } : ScopeThread).stepUnregister number token next).Calm := by
  cases next with
  | lock => exact hc.moved _ (.act h)
  | pop =>
    refine ⟨hc.isOpen, ?_, fun p hp => ?_, hc.handles, .act h⟩
    · exact (starts_snoc m.events _ rfl).trans hc.unstarted
    · exact hc.tokens p (List.mem_filter.mp hp).1
  | unlock => exact hc.moved _ (.empty h.2)

theorem Calm.steppedFrame (hc : m.Calm) (hm : m.frames = frame :: below) :
    (({ m with frames := below } : ScopeThread).stepFrame frame).Phased := by
  have hstack := hc.stack
  rw [hm] at hstack
  cases hstack with
  | act h =>
    left
    cases frame with
    | lock name acts => exact hc.moved _ (.act h)
    | readToken name acts =>
      refine ⟨hc.isOpen, ?_, hc.tokens, hc.handles, .act ⟨?_, rfl, ?_⟩⟩
      · exact (starts_snoc m.events _ rfl).trans hc.unstarted
      · exact h
      · exact congrArg (· + 1) (Eq.symm h)
    | registering c token next => exact hc.steppedRegister c token next h
    | unregistering number token next => exact hc.steppedUnregister number token next h
    | cancelling next => exact h.elim
    | script acts => exact h.elim
  | locking h => exact .inl (hc.moved _ (.testing h))
  | testing h =>
    simp only [stepFrame, stepCancel, hc.isOpen, Bool.false_eq_true, if_false]
    exact .inl (hc.moved _ (.setting h))
  | setting h =>
    -- from here on what the handler interrupted waits until the table was cleared
    exact .inr ⟨rfl, .reading h.passive⟩

/-! ### Steps from then on -/

theorem Struck.cleared {m : ScopeThread} (hflag : m.scope.cancelled = true)
    (hpending : m.scope.pending = []) (hp : ∀ f ∈ m.frames, Passive f) : m.Struck :=
  ⟨hflag, .cleared hpending hp⟩

theorem Struck.beganAct (hflag : m.scope.cancelled = true) (hpending : m.scope.pending = [])
    (hp : ∀ f ∈ m.frames, Passive f) (act : ScopeAct) : (m.beginAct act).Struck := by
  have hpushed : ∀ next, Passive next → (m.push next).Struck := fun next h =>
    .cleared hflag hpending (List.forall_mem_cons.mpr ⟨h, hp⟩)
  have hbegins := m.begins_beginAct act
  generalize m.beginAct act = m' at hbegins ⊢
  cases hbegins with
  | registers name acts => exact hpushed _ trivial
  | unregisters => exact hpushed _ trivial
  | unregistersLate => exact .cleared hflag hpending hp
  | cancels => exact hpushed _ trivial
  | stays => exact .cleared hflag hpending hp
  | fails _ f => exact .cleared hflag hpending (unwind_all f Passive (fun _ => trivial) _ hp)

theorem Struck.steppedRegister (hflag : m.scope.cancelled = true) (hpending : m.scope.pending = [])
    (hp : ∀ f ∈ below, Passive f) (c : ScopeCallback) (token : Nat) (next : RegisterPoint) :
    (({ m with frames := below } : ScopeThread).stepRegister c token next).Struck := by
  have hmoved : ∀ next, ∀ f ∈ .registering c token next :: below, Passive f := fun next =>
    List.forall_mem_cons.mpr ⟨trivial, hp⟩
  cases next with
  | readCounter => exact .cleared hflag hpending (hmoved _)
  | raiseCounter counter => exact .cleared hflag hpending (hmoved _)
  | insert =>
    refine ⟨hflag, .inserted ?_ hp⟩
    show assign token c m.scope.pending = [(token, c)]
    rw [hpending]
    rfl
  | test =>
    simp only [stepRegister, hflag, if_true]
    exact .cleared hflag hpending (hmoved _)
  | pop => exact .cleared hflag (pending_unregister_nil hpending token) (hmoved _)
  | unlock missed =>
    cases missed with
    | true => exact .cleared hflag hpending (hmoved _)
    | false => exact .cleared hflag hpending (hmoved _)
  | call => exact .cleared hflag hpending (List.forall_mem_cons.mpr ⟨trivial, hmoved _⟩)
  | bind isKept => exact .cleared hflag hpending hp

theorem Struck.steppedCancel (hflag : m.scope.cancelled = true) (hpending : m.scope.pending = [])
    (hp : ∀ f ∈ below, Passive f) (next : CancelPoint) (hnext : Passive (.cancelling next)) :
    (({ m with frames := below } : ScopeThread).stepCancel next).Struck := by
  have hmoved : ∀ due, ∀ f ∈ .cancelling (.deliver due) :: below, Passive f := fun due =>
    List.forall_mem_cons.mpr ⟨trivial, hp⟩
  cases next with
  | lock => exact .cleared hflag hpending (List.forall_mem_cons.mpr ⟨trivial, hp⟩)
  | test =>
    simp only [stepCancel, hflag, if_true]
    exact .cleared hflag hpending (List.forall_mem_cons.mpr ⟨trivial, hp⟩)
  | set => exact ⟨rfl, .reading hp⟩
  | snapshot => exact hnext.elim
  | clear due => exact hnext.elim
  | unlock due => exact .cleared hflag hpending (hmoved due)
  | deliver due =>
    cases due with
    | nil => exact .cleared hflag hpending hp
    | cons c due =>
      exact .cleared hflag hpending
        (List.forall_mem_cons.mpr ⟨trivial, List.forall_mem_cons.mpr ⟨trivial, hp⟩⟩)
  | guard name due => exact .cleared hflag hpending (hmoved due)

theorem Struck.steppedCleared (hflag : m.scope.cancelled = true) (hpending : m.scope.pending = [])
    (hp : ∀ f ∈ frame :: below, Passive f) :
    (({ m with frames := below } : ScopeThread).stepFrame frame).Struck := by
  obtain ⟨hframe, hbelow⟩ := List.forall_mem_cons.mp hp
  cases frame with
  | lock name acts => exact .cleared hflag hpending (List.forall_mem_cons.mpr ⟨trivial, hbelow⟩)
  | readToken name acts =>
    exact .cleared hflag hpending (List.forall_mem_cons.mpr ⟨trivial, hbelow⟩)
  | registering c token next => exact Struck.steppedRegister hflag hpending hbelow c token next
  | unregistering number token next =>
    cases next with
    | lock => exact .cleared hflag hpending (List.forall_mem_cons.mpr ⟨trivial, hbelow⟩)
    | pop =>
      exact .cleared hflag (pending_unregister_nil hpending token)
        (List.forall_mem_cons.mpr ⟨trivial, hbelow⟩)
    | unlock => exact .cleared hflag hpending hbelow
  | cancelling next => exact Struck.steppedCancel hflag hpending hbelow next hframe
  | script acts =>
    cases acts with
    | nil => exact .cleared hflag hpending hbelow
    | cons act acts =>
      refine Struck.beganAct ?_ ?_ ?_ act
      · exact hflag
      · exact hpending
      · exact List.forall_mem_cons.mpr ⟨trivial, hbelow⟩

theorem Struck.steppedFrame (hs : m.Struck) (hm : m.frames = frame :: below) :
    (({ m with frames := below } : ScopeThread).stepFrame frame).Struck := by
  have hflag := hs.closed
  have hstack := hs.stack
  rw [hm] at hstack
  cases hstack with
  | cleared h hp => exact Struck.steppedCleared hflag h hp
  | reading hp => exact ⟨hflag, .clearing rfl hp⟩
  | clearing h hp => exact .cleared hflag rfl (List.forall_mem_cons.mpr ⟨trivial, hp⟩)
  | inserted h hp =>
    simp only [stepFrame, stepRegister, hflag, if_true]
    exact ⟨hflag, .missed h hp⟩
  | missed h hp =>
    exact .cleared hflag (pending_unregister_own h) (List.forall_mem_cons.mpr ⟨trivial, hp⟩)
  | locking h => exact ⟨hflag, .testing h⟩
  | testing h =>
    simp only [stepFrame, stepCancel, hflag, if_true]
    exact ⟨hflag, .unlocking h⟩
  | unlocking h => exact ⟨hflag, .ending h⟩
  | ending h => exact ⟨hflag, h⟩

/-! ### Turns -/

theorem Struck.pending_eq_nil (hs : m.Struck) (hm : m.frames = []) : m.scope.pending = [] := by
  have hstack := hs.stack
  rw [hm] at hstack
  cases hstack with
  | cleared h => exact h

theorem Phased.step (hp : m.Phased) : m.step.Phased := by
  unfold ScopeThread.step
  split
  · rename_i frame below hm
    rcases hp with hc | hs
    · exact hc.steppedFrame hm
    · exact .inr (hs.steppedFrame hm)
  · rename_i act rest hm _
    rcases hp with hc | hs
    · have hnext : ({ m with program := rest } : ScopeThread).Calm :=
        ⟨hc.isOpen, hc.unstarted, hc.tokens, hc.handles, hc.stack⟩
      exact .inl (hnext.beganAct hm act)
    · refine .inr (Struck.beganAct ?_ ?_ ?_ act)
      · exact hs.closed
      · exact hs.pending_eq_nil hm
      · exact fun f hf => absurd (hm ▸ hf) List.not_mem_nil
  · exact hp

theorem Phased.signal (hp : m.Phased) : m.signal.Phased := by
  rcases hp with hc | hs
  · exact .inl (hc.moved _ (.locking hc.stack))
  · exact .inr ⟨hs.closed, .locking hs.stack⟩

end LayerQuota.Rehearsal.ScopeThread
