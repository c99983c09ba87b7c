import LayerQuota.Proofs.Signals.Ledger
/-!
# Without a signal

Where no signal arrives, the single steps of the operations amount to the operations: a thread that
performs a program comes to its end with the scope, the events and the journal of its rehearsal.
-/

namespace LayerQuota.Rehearsal

def ScopeEvent.isPerformed : ScopeEvent → Bool
  | .performed _ => true
  | _ => false

def ScopeHandle.tokenHandle (handle : ScopeHandle) : TokenHandle :=
  ⟨handle.number, if handle.isKept then some handle.number else none⟩

namespace ScopeThread

/-! ### Single steps, one after the other -/

def Reaches (m m' : ScopeThread) : Prop := ∃ k, m.run (List.replicate k .step) = m'

variable {m m' m'' : ScopeThread} {frame : ScopeFrame} {below : List ScopeFrame}

theorem Reaches.refl (m : ScopeThread) : m.Reaches m := ⟨0, rfl⟩

theorem Reaches.trans (h : m.Reaches m') (h' : m'.Reaches m'') : m.Reaches m'' := by
  obtain ⟨k, rfl⟩ := h
  obtain ⟨k', rfl⟩ := h'
  refine ⟨k + k', ?_⟩
  rw [run, List.replicate_add, List.foldl_append]
  rfl

theorem Reaches.step (m : ScopeThread) : m.Reaches m.step := ⟨1, rfl⟩

theorem step_of_frames (hm : m.frames = frame :: below) :
    m.step = ({ m with frames := below } : ScopeThread).stepFrame frame := by
  rw [ScopeThread.step, hm]

theorem reaches_unregistered (m : ScopeThread) (number token : Nat) :
    (m.push (.unregistering number token .lock)).Reaches
      ({ m with scope := m.scope.unregister token }.noting (.unregistered number)) := ⟨3, rfl⟩

/-- A registration up to its test of the flag. -/
theorem reaches_test (m : ScopeThread) (name : String) (acts : List ScopeAct) :
    (m.push (.lock name acts)).Reaches
      (({ m with
        scope := { m.scope with
          nextToken := m.scope.nextToken + 1
          pending := assign m.scope.nextToken ⟨m.registered, name, acts⟩ m.scope.pending }
        registered := m.registered + 1 }.noting (.registered m.registered)).push
        (.registering ⟨m.registered, name, acts⟩ m.scope.nextToken .test)) := ⟨5, rfl⟩

theorem reaches_kept (m : ScopeThread) (name : String) (acts : List ScopeAct)
    (hflag : m.scope.cancelled = false)
    (hfresh : m.scope.nextToken ∉ m.scope.pending.map (·.1)) :
    (m.push (.lock name acts)).Reaches
      ({ m with
        scope := (m.scope.register ⟨m.registered, name, acts⟩).2
        registered := m.registered + 1
        handles := (name, ⟨m.registered, some m.scope.nextToken⟩) :: m.handles }.noting
        (.registered m.registered)) := by
  have hinsert := assign_absent m.scope.nextToken ⟨m.registered, name, acts⟩ _ hfresh
  refine (reaches_test m name acts).trans ⟨3, ?_⟩
  rw [hinsert]
  obtain ⟨⟨flag, next, pending⟩, count, es, handles, journal, frames, program⟩ := m
  obtain rfl : flag = false := hflag
  rfl

theorem reaches_called (m : ScopeThread) (name : String) (acts : List ScopeAct)
    (hflag : m.scope.cancelled = true) (hpending : m.scope.pending = []) :
    (m.push (.lock name acts)).Reaches
      ((({ m with
        scope := (m.scope.register ⟨m.registered, name, acts⟩).2
        registered := m.registered + 1 }.noting (.registered m.registered)).push
        (.registering ⟨m.registered, name, acts⟩ m.scope.nextToken (.bind false))).start
        ⟨m.registered, name, acts⟩) := by
  refine (reaches_test m name acts).trans ⟨4, ?_⟩
  obtain ⟨⟨flag, next, pending⟩, count, es, handles, journal, frames, program⟩ := m
  obtain rfl : flag = true := hflag
  obtain rfl : pending = [] := hpending
  simp only [run, List.replicate, List.foldl_cons, List.foldl_nil, take, ScopeThread.step, push,
    noting, stepFrame, stepRegister, assign, CancelScope.unregister, CancelScope.register, if_true,
    List.filter_cons, bne_self_eq_false, Bool.false_eq_true, if_false, List.filter_nil,
    List.any_cons, beq_self_eq_true, Bool.true_or]

theorem reaches_deliver (m : ScopeThread) :
    (m.push (.cancelling .lock)).Reaches
      (({ m with scope := m.scope.trip.2 }.noting .cancelled).push
        (.cancelling (.deliver m.scope.trip.1))) := by
  obtain ⟨⟨flag, next, pending⟩, count, es, handles, journal, frames, program⟩ := m
  cases flag with
  | false => exact ⟨6, rfl⟩
  | true => exact ⟨3, rfl⟩

/-! ### Threads and rehearsals -/

/-- A thread that did what a rehearsal did. The end of an act is not an event of a thread. -/
structure Mirrors (m : ScopeThread) (st : ScopeStage) : Prop where
  scope : m.scope = st.scope
  counted : m.registered = m.scope.nextToken
  fresh : ∀ p ∈ m.scope.pending, p.1 < m.scope.nextToken
  cleared : m.scope.cancelled = true → m.scope.pending = []
  events : m.events = st.events.filter (!·.isPerformed)
  handles : m.handles = st.handles.map fun x => (x.1, x.2.tokenHandle)
  journal : m.journal = st.journal

variable {st : ScopeStage}

theorem opening_mirrors (program : List ScopeAct) : (opening program).Mirrors .opening where
  scope := rfl
  counted := rfl
  fresh _ hp := absurd hp List.not_mem_nil
  cleared _ := rfl
  events := rfl
  handles := rfl
  journal := rfl

theorem Mirrors.framed (h : m.Mirrors st) (frames : List ScopeFrame) (program : List ScopeAct) :
    ({ m with frames, program } : ScopeThread).Mirrors st :=
  ⟨h.scope, h.counted, h.fresh, h.cleared, h.events, h.handles, h.journal⟩

theorem Mirrors.noting (h : m.Mirrors st) (e : ScopeEvent) (he : e.isPerformed = false) :
    (m.noting e).Mirrors (st.noting e) := by
  refine ⟨h.scope, h.counted, h.fresh, h.cleared, ?_, h.handles, h.journal⟩
  simp only [ScopeThread.noting, ScopeStage.noting, List.filter_append, ← h.events,
    List.filter_cons, he, Bool.not_false, if_true, List.filter_nil]

theorem Mirrors.number (h : m.Mirrors st) : m.registered = st.scope.nextToken :=
  h.counted.trans (congrArg _ h.scope)

theorem Mirrors.registered (h : m.Mirrors st) (c : ScopeCallback) :
    ({ m with
      scope := (m.scope.register c).2
      registered := m.registered + 1 }.noting (.registered m.registered)).Mirrors
      ({ st with scope := (st.scope.register c).2 }.noting (.registered m.registered)) := by
  have hbase : ({ m with
      scope := (m.scope.register c).2
      registered := m.registered + 1 } : ScopeThread).Mirrors
      { st with scope := (st.scope.register c).2 } := by
    refine ⟨congrArg (·.register c |>.2) h.scope, ?_, ?_, ?_, h.events, h.handles, h.journal⟩
    all_goals simp only [CancelScope.register]
    · split <;> exact congrArg (· + 1) h.counted
    · split
      · rename_i hflag
        exact fun p hp => absurd (h.cleared hflag ▸ hp) List.not_mem_nil
      · intro p hp
        rcases List.mem_append.mp hp with hp | hp
        · exact Nat.lt_succ_of_lt (h.fresh p hp)
        · rw [List.mem_singleton.mp hp]
          exact Nat.lt_succ_self _
    · split
      · exact h.cleared
      · rename_i hflag
        exact fun hset => absurd hset hflag
  exact hbase.noting _ rfl

theorem Mirrors.performed (h : m.Mirrors st) (k : Nat) : m.Mirrors (st.noting (.performed k)) := by
  refine ⟨h.scope, h.counted, h.fresh, h.cleared, ?_, h.handles, h.journal⟩
  rw [ScopeStage.noting, List.filter_append, ← h.events]
  exact (List.append_nil _).symm

/-- Where a result leaves a thread: a failure ends the operations up to the one that meets it. -/
def after {α : Type} (m : ScopeThread) : Except Failure α → ScopeThread
  | .ok _ => m
  | .error f => m.fail f

/-- A thread comes to where the rehearsal comes, above the operations that were under way. -/
def Lands {α : Type} (start base : ScopeThread) (r : Except Failure α × ScopeStage) : Prop :=
  ∃ m : ScopeThread, m.frames = base.frames ∧ m.program = base.program ∧
    (base.scope.cancelled = true → m.scope.cancelled = true) ∧ m.Mirrors r.2 ∧
    start.Reaches (m.after r.1)

theorem Lands.trans {α : Type} {start start' base base' : ScopeThread}
    {r : Except Failure α × ScopeStage} (h : Lands start' base' r) (hs : start.Reaches start')
    (hframes : base'.frames = base.frames) (hprogram : base'.program = base.program)
    (hflag : base.scope.cancelled = true → base'.scope.cancelled = true) : Lands start base r := by
  obtain ⟨m, hf, hp, hc, hm, hr⟩ := h
  exact ⟨m, hf.trans hframes, hp.trans hprogram, hc ∘ hflag, hm, hs.trans hr⟩

theorem Reaches.lands {α : Type} {start : ScopeThread} (hr : start.Reaches m) (base : ScopeThread)
    (hframes : m.frames = base.frames) (hprogram : m.program = base.program)
    (hflag : base.scope.cancelled = true → m.scope.cancelled = true) (a : α) (hm : m.Mirrors st) :
    Lands start base ((.ok a : Except Failure α), st) :=
  ⟨m, hframes, hprogram, hflag, hm, hr⟩

theorem push_of_frames (hm : m.frames = frame :: below) :
    ({ m with frames := below } : ScopeThread).push frame = m := by
  obtain ⟨scope, count, es, handles, journal, frames, program⟩ := m
  obtain rfl : frames = frame :: below := hm
  rfl

/-- Outside of all operations a failure ends nothing. -/
theorem after_of_frames {α : Type} (hm : m.frames = []) (r : Except Failure α) : m.after r = m := by
  cases r with
  | ok a => rfl
  | error f =>
    obtain ⟨scope, count, es, handles, journal, frames, program⟩ := m
    obtain rfl : frames = [] := hm
    simp only [after, fail, unwind, List.append_nil]

/-- What fails above an operation that does not meet it fails below. -/
theorem fail_through (f : Failure) (hm : m.frames = frame :: below)
    (hf : ∀ name due, frame ≠ .cancelling (.guard name due)) :
    m.fail f = ({ m with frames := below } : ScopeThread).fail f := by
  have hunwind : unwind f (frame :: below) = unwind f below := by
    cases frame with
    | cancelling next =>
      cases next with
      | guard name due => exact absurd rfl (hf name due)
      | _ => rfl
    | _ => rfl
  rw [fail, fail, hm, hunwind]

theorem Reaches.lands_failed {α : Type} {start : ScopeThread} {f : Failure}
    (hr : start.Reaches (m.fail f)) (base : ScopeThread) (hframes : m.frames = frame :: base.frames)
    (hf : ∀ name due, frame ≠ .cancelling (.guard name due)) (hprogram : m.program = base.program)
    (hflag : base.scope.cancelled = true → m.scope.cancelled = true) (hm : m.Mirrors st) :
    Lands start base ((.error f : Except Failure α), st) := by
  rw [fail_through f hframes hf] at hr
  exact ⟨{ m with frames := base.frames }, rfl, hprogram, hflag, hm.framed _ _, hr⟩

theorem lookup_tokenHandle (name : String) (handles : List (String × ScopeHandle)) :
    (handles.map fun x => (x.1, x.2.tokenHandle)).lookup name =
      (handles.lookup name).map (·.tokenHandle) := by
  induction handles with
  | nil => rfl
  | cons x handles ih =>
    rw [List.map_cons, List.lookup_cons, List.lookup_cons, ih]
    cases name == x.1 with
    | true => rfl
    | false => rfl

theorem register_of_cancelled
    (call : ScopeCallback → ScopeStage → Except Failure Unit × ScopeStage)
    (hflag : st.scope.cancelled = true) (name : String) (acts : List ScopeAct) :
    st.register call name acts =
      match call ⟨st.scope.nextToken, name, acts⟩
        ({ st with scope := (st.scope.register ⟨st.scope.nextToken, name, acts⟩).2 }.noting
          (.registered st.scope.nextToken)) with
      | (.ok _, st') => (.ok .nothing, st'.holding name ⟨st.scope.nextToken, false⟩)
      | (.error f, st') => (.error f, st') := by
  obtain ⟨⟨flag, next, pending⟩, es, handles, journal⟩ := st
  obtain rfl : flag = true := hflag
  rfl

theorem register_of_open
    (call : ScopeCallback → ScopeStage → Except Failure Unit × ScopeStage)
    (hflag : st.scope.cancelled = false) (name : String) (acts : List ScopeAct) :
    st.register call name acts =
      (.ok .nothing,
        ({ st with scope := (st.scope.register ⟨st.scope.nextToken, name, acts⟩).2 }.noting
          (.registered st.scope.nextToken)).holding name ⟨st.scope.nextToken, true⟩) := by
  obtain ⟨⟨flag, next, pending⟩, es, handles, journal⟩ := st
  obtain rfl : flag = false := hflag
  rfl

/-- Calls callbacks as a rehearsal does, where they register one another less deep than `fuel`. -/
def Calls (fuel : Nat) (call : ScopeCallback → ScopeStage → Except Failure Unit × ScopeStage) :
    Prop :=
  ∀ (c : ScopeCallback) (m : ScopeThread) (st : ScopeStage), ScopeAct.depthAll c.acts < fuel →
    m.scope.cancelled = true → m.Mirrors st → Lands (m.start c) m (call c st)

section Calling

variable {fuel : Nat} {call : ScopeCallback → ScopeStage → Except Failure Unit × ScopeStage}
  (hcall : Calls fuel call)

include hcall

theorem Mirrors.lands_deliver (h : m.Mirrors st) (hflag : m.scope.cancelled = true)
    (due : List ScopeCallback) (hdepth : ∀ c ∈ due, ScopeAct.depthAll c.acts < fuel) :
    Lands (m.push (.cancelling (.deliver due))) m
      ((.ok .nothing : Except Failure ScopeAnswer), ScopeStage.callAll call due st) := by
  induction due generalizing m st with
  | nil => exact (Reaches.step _).lands m rfl rfl id _ h
  | cons c due ih =>
    obtain ⟨hfirst, hrest⟩ := List.forall_mem_cons.mp hdepth
    obtain ⟨m', hframes, hprogram, hflag', hmirrors, hreach⟩ :=
      hcall c (m.push (.cancelling (.guard c.name due))) st hfirst hflag (h.framed _ _)
    have hstart : (m.push (.cancelling (.deliver (c :: due)))).Reaches (m'.after (call c st).1) :=
      Reaches.trans ⟨1, rfl⟩ hreach
    rw [ScopeStage.callAll]
    generalize call c st = r at hmirrors hstart ⊢
    obtain ⟨f | _, st'⟩ := r
    · let line : Line :=
        ⟨.warning, s!"Cancel callback <callback {c.name}> failed: {f.message}"⟩
      let base : ScopeThread := { m' with journal := m'.journal ++ [line], frames := m.frames }
      have hnext : m'.fail f = base.push (.cancelling (.deliver due)) := by
        rw [fail, hframes]
        rfl
      have hbase : base.Mirrors { st' with journal := st'.journal ++ [line] } :=
        ⟨hmirrors.scope, hmirrors.counted, hmirrors.fresh, hmirrors.cleared, hmirrors.events,
          hmirrors.handles, congrArg (· ++ [line]) hmirrors.journal⟩
      exact (ih hbase (hflag' hflag) hrest).trans (hnext ▸ hstart) rfl hprogram hflag'
    · let base : ScopeThread := { m' with frames := m.frames }
      have hnext : m'.step = base.push (.cancelling (.deliver due)) := step_of_frames hframes
      have hbase : base.Mirrors st' := hmirrors.framed _ _
      have hstep : m'.Reaches (base.push (.cancelling (.deliver due))) := hnext ▸ Reaches.step m'
      exact (ih hbase (hflag' hflag) hrest).trans (hstart.trans hstep) rfl hprogram hflag'

omit hcall in
theorem Mirrors.lands_kept (h : m.Mirrors st) (hflag : m.scope.cancelled = false) (name : String)
    (acts : List ScopeAct) : Lands (m.push (.lock name acts)) m (st.register call name acts) := by
  have hflag' : st.scope.cancelled = false := h.scope ▸ hflag
  have hfresh : m.scope.nextToken ∉ m.scope.pending.map (·.1) := by
    intro hmem
    obtain ⟨p, hp, hnext⟩ := List.mem_map.mp hmem
    exact absurd (h.fresh p hp) (Nat.not_lt_of_le (Nat.le_of_eq hnext.symm))
  have hbase := h.registered ⟨m.registered, name, acts⟩
  rw [register_of_open call hflag', ← h.number]
  have hhandle : (⟨m.registered, some m.scope.nextToken⟩ : TokenHandle) =
      (⟨m.registered, true⟩ : ScopeHandle).tokenHandle := by
    rw [← h.counted]
    rfl
  refine (reaches_kept m name acts hflag hfresh).lands m rfl rfl
    (fun hset => absurd (hflag.symm.trans hset) nofun) _ ?_
  refine ⟨hbase.scope, hbase.counted, hbase.fresh, hbase.cleared, hbase.events, ?_, hbase.journal⟩
  exact congrArg₂ List.cons (congrArg (Prod.mk name) hhandle) h.handles

omit hcall in
theorem Mirrors.lands_unregistered (h : m.Mirrors st) (name : String) :
    Lands (m.beginAct (.unregister name)) m
      ((.ok .nothing : Except Failure ScopeAnswer), st.unregister name) := by
  have hlookup := lookup_tokenHandle name st.handles
  rw [← h.handles] at hlookup
  simp only [beginAct, ScopeStage.unregister, hlookup]
  cases st.handles.lookup name with
  | none => exact (Reaches.refl m).lands m rfl rfl id _ h
  | some handle =>
    obtain ⟨number, isKept⟩ := handle
    cases isKept with
    | true =>
      have hbase : ({ m with scope := m.scope.unregister number } : ScopeThread).Mirrors
          { st with scope := st.scope.unregister number } := by
        refine ⟨?_, h.counted, fun p hp => ?_, fun hflag => ?_, h.events, h.handles, h.journal⟩
        · exact congrArg (·.unregister number) h.scope
        · exact h.fresh p (List.mem_filter.mp hp).1
        · exact pending_unregister_nil (h.cleared hflag) number
      exact (reaches_unregistered m number number).lands m rfl rfl id _ (hbase.noting _ rfl)
    | false => exact (Reaches.refl (m.noting _)).lands m rfl rfl id _ (h.noting _ rfl)

theorem Mirrors.lands_called (h : m.Mirrors st) (hflag : m.scope.cancelled = true) (name : String)
    (acts : List ScopeAct) (hdepth : ScopeAct.depthAll acts < fuel) :
    Lands (m.push (.lock name acts)) m (st.register call name acts) := by
  have hflag' : st.scope.cancelled = true := h.scope ▸ hflag
  let c : ScopeCallback := ⟨m.registered, name, acts⟩
  let base : ScopeThread :=
    { m with scope := (m.scope.register c).2, registered := m.registered + 1 }.noting
      (.registered m.registered)
  have hbase := h.registered c
  have hkeeps : base.scope.cancelled = true := by
    simp only [base, ScopeThread.noting, CancelScope.register, hflag, if_true]
  obtain ⟨m', hframes, hprogram, hkept, hmirrors, hreach⟩ :=
    hcall c (base.push (.registering c m.scope.nextToken (.bind false))) _ hdepth hkeeps
      (hbase.framed _ _)
  have hstart := (reaches_called m name acts hflag (h.cleared hflag)).trans hreach
  rw [register_of_cancelled call hflag', ← h.number]
  generalize call _ _ = r at hmirrors hstart ⊢
  obtain ⟨f | _, st'⟩ := r
  · exact Reaches.lands_failed hstart m hframes (fun _ _ heq => by cases heq) hprogram
      (fun _ => hkept hkeeps) hmirrors
  · refine ⟨m'.step, ?_, ?_, ?_, ?_, hstart.trans (Reaches.step m')⟩
    all_goals rw [step_of_frames hframes]
    · rfl
    · exact hprogram
    · exact fun _ => hkept hkeeps
    · refine ⟨hmirrors.scope, hmirrors.counted, hmirrors.fresh, hmirrors.cleared, hmirrors.events,
        ?_, hmirrors.journal⟩
      exact congrArg ((name, (⟨m.registered, none⟩ : TokenHandle)) :: ·) hmirrors.handles

theorem Mirrors.lands_cancelled (h : m.Mirrors st)
    (hst : m.scope.cancelled = false → st.depth < fuel) :
    Lands (m.push (.cancelling .lock)) m
      ((.ok .nothing : Except Failure ScopeAnswer), st.cancel call) := by
  let base : ScopeThread := { m with scope := m.scope.trip.2 }.noting .cancelled
  have hbase : base.Mirrors ({ st with scope := st.scope.trip.2 }.noting .cancelled) := by
    have htripped : ({ m with scope := m.scope.trip.2 } : ScopeThread).Mirrors
        { st with scope := st.scope.trip.2 } := by
      refine ⟨congrArg (·.trip.2) h.scope, ?_, ?_, ?_, h.events, h.handles, h.journal⟩
      all_goals
        simp only [CancelScope.trip]
        split
      · exact h.counted
      · exact h.counted
      · exact h.fresh
      · exact fun p hp => absurd hp List.not_mem_nil
      · exact h.cleared
      · exact fun _ => rfl
    exact htripped.noting _ rfl
  have hclosed : base.scope.cancelled = true := by
    simp only [base, ScopeThread.noting, CancelScope.trip]
    split
    · assumption
    · rfl
  have hdepth : ∀ c ∈ m.scope.trip.1, ScopeAct.depthAll c.acts < fuel := by
    intro c hc
    simp only [CancelScope.trip] at hc
    split at hc
    · exact absurd hc List.not_mem_nil
    · rename_i hflag
      obtain ⟨p, hp, rfl⟩ := List.mem_map.mp hc
      have hp : p ∈ st.scope.pending := h.scope ▸ hp
      exact Nat.lt_of_le_of_lt (ScopeStage.le_depth st p hp) (hst (Bool.eq_false_iff.mpr hflag))
  have hdelivered := hbase.lands_deliver hcall hclosed m.scope.trip.1 hdepth
  rw [h.scope] at hdelivered
  refine hdelivered.trans ?_ rfl rfl fun _ => hclosed
  rw [← h.scope]
  exact reaches_deliver m

theorem Mirrors.lands_beginAct (h : m.Mirrors st) (act : ScopeAct) (hact : act.depth ≤ fuel)
    (hst : m.scope.cancelled = false → st.depth < fuel) :
    Lands (m.beginAct act) m (ScopeStage.carryOut call act st) := by
  have hwaited : ∀ (x : Number.Binary64) (g : Bool → ScopeAnswer),
      Lands (m.beginAct (.wait x)) m ((st.scope.wait x).map g, st) := by
    intro x g
    refine ⟨m, rfl, rfl, id, h, ?_⟩
    rw [beginAct, ← h.scope]
    cases m.scope.wait x with
    | ok b => exact Reaches.refl m
    | error f => exact Reaches.refl _
  cases act with
  | onCancel name acts =>
    cases hflag : m.scope.cancelled with
    | true => exact h.lands_called hcall hflag name acts hact
    | false => exact h.lands_kept hflag name acts
  | unregister name => exact h.lands_unregistered name
  | cancel => exact h.lands_cancelled hcall hst
  | isCancelled => exact (Reaches.refl m).lands m rfl rfl id _ h
  | countPending => exact (Reaches.refl m).lands m rfl rfl id _ h
  | wait x => exact hwaited x _
  | sleep x => exact hwaited x _
  | fail message => exact ⟨m, rfl, rfl, id, h, Reaches.refl _⟩

theorem Mirrors.lands_performed (h : m.Mirrors st) (act : ScopeAct) (hact : act.depth ≤ fuel)
    (hst : m.scope.cancelled = false → st.depth < fuel) :
    Lands (m.beginAct act) m (ScopeStage.performWith call act st) := by
  obtain ⟨m', hframes, hprogram, hflag, hmirrors, hreach⟩ := h.lands_beginAct hcall act hact hst
  exact ⟨m', hframes, hprogram, hflag, hmirrors.performed _, hreach⟩

theorem Mirrors.lands_script (h : m.Mirrors st) (hflag : m.scope.cancelled = true)
    (acts : List ScopeAct) (hdepth : ScopeAct.depthAll acts ≤ fuel) :
    Lands (m.push (.script acts)) m (ScopeStage.performAll call acts st) := by
  induction acts generalizing m st with
  | nil => exact (Reaches.step _).lands m rfl rfl id _ h
  | cons act acts ih =>
    obtain ⟨hfirst, hrest⟩ := Nat.max_le.mp hdepth
    have hopen : m.scope.cancelled = false → st.depth < fuel := fun hset => by
      cases hflag.symm.trans hset
    obtain ⟨m', hframes, hprogram, hkept, hmirrors, hreach⟩ :=
      Mirrors.lands_performed hcall (h.framed (.script acts :: m.frames) m.program) act hfirst hopen
    have hstart : (m.push (.script (act :: acts))).Reaches
        (m'.after (ScopeStage.performWith call act st).1) := (Reaches.step _).trans hreach
    rw [ScopeStage.performAll]
    generalize ScopeStage.performWith call act st = r at hmirrors hstart ⊢
    obtain ⟨f | _, st'⟩ := r
    · exact Reaches.lands_failed hstart m hframes (fun _ _ heq => by cases heq) hprogram hkept
        hmirrors
    · have hbase : ({ m' with frames := m.frames } : ScopeThread).Mirrors st' := hmirrors.framed _ _
      have hnext : ({ m' with frames := m.frames } : ScopeThread).push (.script acts) = m' :=
        push_of_frames hframes
      exact (ih hbase (hkept hflag) hrest).trans (hnext.symm ▸ hstart) rfl hprogram hkept

end Calling

theorem call_calls (fuel : Nat) : Calls fuel (ScopeStage.call fuel) := by
  induction fuel with
  | zero => exact fun _ _ _ hdepth => absurd hdepth (Nat.not_lt_zero _)
  | succ fuel ih =>
    intro c m st hdepth hflag h
    have hnoted : (m.noting (.started c.number c.name)).Mirrors
        (st.noting (.started c.number c.name)) := h.noting _ rfl
    exact hnoted.lands_script ih hflag c.acts (Nat.le_of_lt_succ hdepth)

theorem Mirrors.reaches_rehearsed (acts : List ScopeAct) (h : m.Mirrors st) (hm : m.frames = [])
    (hprogram : m.program = acts) :
    ∃ m', m.Reaches m' ∧ m'.frames = [] ∧ m'.program = [] ∧
      m'.Mirrors (acts.foldl (fun st act => (ScopeStage.perform act st).2) st) := by
  induction acts generalizing m st with
  | nil => exact ⟨m, Reaches.refl m, hm, hprogram, h⟩
  | cons act acts ih =>
    obtain ⟨m', hframes, hprogram', -, hmirrors, hreach⟩ :=
      Mirrors.lands_performed (call_calls (max act.depth st.depth + 1))
        (h.framed [] acts) act (Nat.le_succ_of_le (Nat.le_max_left _ _))
        fun _ => Nat.lt_succ_of_le (Nat.le_max_right _ _)
    rw [after_of_frames hframes] at hreach
    obtain ⟨m'', hreach', hend⟩ := ih hmirrors hframes hprogram'
    have hstep :
        m.step = ({ m with frames := [], program := acts } : ScopeThread).beginAct act := by
      rw [ScopeThread.step, hm, hprogram]
    exact ⟨m'', ((Reaches.step m).trans (hstep ▸ hreach)).trans hreach', hend⟩

/-- A thread that no signal interrupts comes to the end of its program where the rehearsal does. -/
theorem uninterrupted_run (program : List ScopeAct) :
    ∃ k, let m := (opening program).run (List.replicate k .step)
      m.frames = [] ∧ m.program = [] ∧
      m.scope = (ScopeStage.rehearse program).scope ∧
      m.events = (ScopeStage.rehearse program).events.filter (!·.isPerformed) ∧
      m.journal = (ScopeStage.rehearse program).journal := by
  obtain ⟨m, ⟨k, rfl⟩, hframes, hprogram, h⟩ :=
    (opening_mirrors program).reaches_rehearsed program rfl rfl
  exact ⟨k, hframes, hprogram, h.scope, h.events, h.journal⟩

end ScopeThread

end LayerQuota.Rehearsal
