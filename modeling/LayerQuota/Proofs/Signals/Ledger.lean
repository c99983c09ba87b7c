import LayerQuota.Proofs.Scope
import LayerQuota.Rehearsal.Signals
/-!
# What a thread among signals owes

At any time every callback that is due was started once, or is kept under its token, or is owed by
one of the operations under way. A step hands a callback on from one of these to the next.
-/

namespace LayerQuota.Rehearsal

/-! ### Events -/

variable (es : List ScopeEvent)

theorem beforeCancel_of_not_mem (h : .cancelled ∉ es) : beforeCancel es = es :=
  List.takeWhile_eq_self_iff.mpr (ne_cancelled es h)

theorem beforeCancel_cons (e : ScopeEvent) :
    beforeCancel (e :: es) = if e = .cancelled then [] else e :: beforeCancel es := by
  by_cases he : e = .cancelled
  · simp [beforeCancel, he]
  · simp [beforeCancel, he]

/-- From the cancellation on nothing is added to what was before it. -/
theorem beforeCancel_snoc (e : ScopeEvent) (h : .cancelled ∈ es) :
    beforeCancel (es ++ [e]) = beforeCancel es := by
  induction es with
  | nil => exact absurd h List.not_mem_nil
  | cons x es ih =>
    rw [List.cons_append, beforeCancel_cons, beforeCancel_cons]
    by_cases hx : x = .cancelled
    · rw [if_pos hx, if_pos hx]
    · rw [if_neg hx, if_neg hx, ih ((List.mem_cons.mp h).resolve_left (Ne.symm hx))]

theorem unregistered_beforeCancel_snoc (e : ScopeEvent) (n : Nat) (h : e ≠ .unregistered n) :
    .unregistered n ∈ beforeCancel (es ++ [e]) ↔ .unregistered n ∈ beforeCancel es := by
  by_cases hc : .cancelled ∈ es
  · rw [beforeCancel_snoc es e hc]
  · rw [beforeCancel_of_not_mem es hc]
    by_cases he : e = .cancelled
    · rw [he, beforeCancel_append es [] hc]
    · have hc' : .cancelled ∉ es ++ [e] := by
        rw [List.mem_append, List.mem_singleton]
        exact not_or.mpr ⟨hc, Ne.symm he⟩
      rw [beforeCancel_of_not_mem _ hc', List.mem_append, List.mem_singleton]
      exact or_iff_left h.symm

/-! ### Operations under way -/

namespace ScopeFrame

/-- The callbacks that an operation still has to start, beside those that are kept in the table. -/
def owed : ScopeFrame → List Nat
  | .registering c _ .readCounter | .registering c _ (.raiseCounter _)
  | .registering c _ .insert | .registering c _ (.unlock true) | .registering c _ .call =>
    [c.number]
  | .cancelling (.unlock due) | .cancelling (.deliver due) | .cancelling (.guard _ due) =>
    due.map (·.number)
  | _ => []

def Known (count : Nat) : ScopeFrame → Prop
  | .registering c _ _ => c.number < count
  | .unregistering number _ _ => number < count
  | _ => True

theorem Known.succ {count : Nat} {f : ScopeFrame} (h : f.Known count) : f.Known (count + 1) := by
  cases f with
  | registering c token next => exact Nat.lt_succ_of_lt h
  | unregistering number token next => exact Nat.lt_succ_of_lt h
  | _ => trivial

end ScopeFrame

def AtAct (below : List ScopeFrame) : Prop := below = [] ∨ ∃ acts rest, below = .script acts :: rest

def AtCall : List ScopeFrame → Prop
  | .cancelling (.guard _ _) :: _ | .registering _ _ (.bind false) :: _ => True
  | _ => False

/-- A handler stands on anything, a script on the operation that called it, and any other operation
on the script whose act it is. -/
def ScopeFrame.StandsOn : ScopeFrame → List ScopeFrame → Prop
  | .cancelling _, _ => True
  | .script _, below => AtCall below
  | _, below => AtAct below

def Nested : List ScopeFrame → Prop
  | [] => True
  | frame :: below => frame.StandsOn below ∧ Nested below

/-- A failure is met by a cancellation or by nothing; what it ends owes no callback. -/
theorem unwind_owed (f : Failure) (frames : List ScopeFrame) (hn : Nested frames)
    (hs : AtAct frames) :
    (unwind f frames).2.flatMap ScopeFrame.owed = frames.flatMap ScopeFrame.owed := by
  match frames, hn, hs with
  | [], _, _ => rfl
  | .script _ :: .cancelling (.guard name due) :: below, _, _ => rfl
  | .script _ :: .registering c t (.bind false) :: below, ⟨_, hstands, hbelow⟩, _ =>
    exact unwind_owed f below hbelow hstands

theorem unwind_all (f : Failure) (p : ScopeFrame → Prop)
    (hp : ∀ due, p (.cancelling (.deliver due))) (frames : List ScopeFrame)
    (h : ∀ g ∈ frames, p g) : ∀ g ∈ (unwind f frames).2, p g := by
  fun_induction unwind f frames with
  | case1 => exact fun g hg => absurd hg List.not_mem_nil
  | case2 name due below =>
    intro g hg
    rcases List.mem_cons.mp hg with rfl | hg
    · exact hp due
    · exact h g (List.mem_cons_of_mem _ hg)
  | case3 frame below _ ih => exact ih fun g hg => h g (List.mem_cons_of_mem _ hg)

theorem unwind_nested (f : Failure) (frames : List ScopeFrame) (hn : Nested frames) :
    Nested (unwind f frames).2 := by
  fun_induction unwind f frames with
  | case1 => trivial
  | case2 name due below => exact ⟨trivial, hn.2⟩
  | case3 frame below _ ih => exact ih hn.2

/-! ### The ledger -/

/-- The numbers are given in their order, only what was registered is taken back, and the flag tells
whether the scope was cancelled. -/
structure History (es : List ScopeEvent) (count : Nat) (cancelled : Bool) : Prop where
  numbered : registrations es = List.range count
  known : ∀ n, .unregistered n ∈ es → n < count
  flagged : cancelled = true ↔ .cancelled ∈ es

/-- A callback that was registered and was not taken back before the cancellation. -/
def IsDue (es : List ScopeEvent) (count n : Nat) : Prop :=
  n < count ∧ .unregistered n ∉ beforeCancel es

instance (count n : Nat) : Decidable (IsDue es count n) := inferInstanceAs (Decidable (_ ∧ _))

section History

variable {es} {count : Nat} {flag : Bool} (h : History es count flag)

include h

theorem History.snoc (e : ScopeEvent) (hr : e.registered? = none) (hc : e ≠ .cancelled)
    (hu : ∀ n, e = .unregistered n → n < count) : History (es ++ [e]) count flag := by
  refine ⟨?_, fun n hn => ?_, ?_⟩
  · rw [registrations_snoc es e hr]
    exact h.numbered
  · rcases List.mem_append.mp hn with hn | hn
    · exact h.known n hn
    · exact hu n (List.mem_singleton.mp hn).symm
  · rw [h.flagged, List.mem_append, List.mem_singleton]
    exact (or_iff_left hc.symm).symm

theorem History.registered : History (es ++ [.registered count]) (count + 1) flag := by
  have hreg : registrations (es ++ [.registered count]) = registrations es ++ [count] :=
    registrations_append _ _
  refine ⟨?_, fun n hn => ?_, ?_⟩
  · rw [hreg, h.numbered, List.range_succ]
  · rw [List.mem_append, List.mem_singleton] at hn
    exact Nat.lt_succ_of_lt (h.known n (hn.resolve_right nofun))
  · rw [h.flagged, List.mem_append, List.mem_singleton]
    exact (or_iff_left nofun).symm

theorem History.cancelled : History (es ++ [.cancelled]) count true := by
  refine ⟨?_, fun n hn => ?_, ?_⟩
  · rw [registrations_snoc es .cancelled rfl]
    exact h.numbered
  · rw [List.mem_append, List.mem_singleton] at hn
    exact h.known n (hn.resolve_right nofun)
  · exact iff_of_true rfl (List.mem_append_right _ (List.mem_singleton.mpr rfl))

omit h in
theorem isDue_snoc (e : ScopeEvent) (n : Nat) (he : e ≠ .unregistered n) :
    IsDue (es ++ [e]) count n ↔ IsDue es count n := by
  unfold IsDue
  rw [unregistered_beforeCancel_snoc es e n he]

theorem History.isDue_registered (n : Nat) :
    IsDue (es ++ [.registered count]) (count + 1) n ↔ n = count ∨ IsDue es count n := by
  have hfresh : .unregistered count ∉ beforeCancel es := fun hu =>
    absurd (h.known _ (List.takeWhile_subset _ hu)) (Nat.lt_irrefl _)
  rw [isDue_snoc (.registered count) n nofun]
  unfold IsDue
  constructor
  · rintro ⟨hn, hu⟩
    exact (Nat.lt_succ_iff_lt_or_eq.mp hn).symm.imp id fun hn => ⟨hn, hu⟩
  · rintro (rfl | ⟨hn, hu⟩)
    · exact ⟨Nat.lt_succ_self _, hfresh⟩
    · exact ⟨Nat.lt_succ_of_lt hn, hu⟩

/-- What is taken back before the cancellation is due no more; later that changes nothing. -/
theorem History.isDue_unregistered (k n : Nat) :
    IsDue (es ++ [.unregistered k]) count n ↔
      IsDue es count n ∧ (flag = true ∨ n ≠ k) := by
  unfold IsDue
  by_cases hc : flag = true
  · rw [beforeCancel_snoc es _ (h.flagged.mp hc)]
    exact ⟨fun hn => ⟨hn, .inl hc⟩, And.left⟩
  · have hno : .cancelled ∉ es := mt h.flagged.mpr hc
    have hno' : .cancelled ∉ es ++ [.unregistered k] := by
      rw [List.mem_append, List.mem_singleton]
      exact not_or.mpr ⟨hno, nofun⟩
    rw [beforeCancel_of_not_mem es hno, beforeCancel_of_not_mem _ hno', List.mem_append,
      List.mem_singleton, ScopeEvent.unregistered.injEq]
    tauto

end History

namespace ScopeThread

variable (m : ScopeThread)

def carried (n : Nat) : Nat :=
  (m.scope.pending.map (·.2.number)).count n + (m.frames.flatMap ScopeFrame.owed).count n

/-- Each callback that is due has one place, and no other has any. Only a scope that is cancelled
gives a handle without a token. -/
structure Ledger : Prop where
  history : History m.events m.registered m.scope.cancelled
  handles : ∀ x ∈ m.handles,
    x.2.number < m.registered ∧ (x.2.token = none → m.scope.cancelled = true)
  frames : ∀ f ∈ m.frames, f.Known m.registered
  nested : Nested m.frames
  balance : ∀ n, (starts m.events).count n + m.carried n =
    if IsDue m.events m.registered n then 1 else 0

theorem opening_ledger (program : List ScopeAct) : (opening program).Ledger where
  history := ⟨rfl, fun _ h => absurd h List.not_mem_nil, iff_of_false nofun List.not_mem_nil⟩
  handles _ h := absurd h List.not_mem_nil
  frames _ h := absurd h List.not_mem_nil
  nested := trivial
  balance n := (if_neg fun h => absurd h.1 (Nat.not_lt_zero n)).symm

/-! ### Ways a step changes the ledger -/

variable {m} {frame : ScopeFrame} {below : List ScopeFrame}

theorem carried_cons (hm : m.frames = frame :: below) (n : Nat) :
    m.carried n = (m.scope.pending.map (·.2.number)).count n + frame.owed.count n +
      (below.flatMap ScopeFrame.owed).count n := by
  rw [carried, hm, List.flatMap_cons, List.count_append, Nat.add_assoc]

theorem Ledger.parts (hl : m.Ledger) (hm : m.frames = frame :: below) :
    (∀ f ∈ below, f.Known m.registered) ∧ frame.Known m.registered ∧ frame.StandsOn below ∧
      Nested below := by
  have hf := hl.frames
  have hn := hl.nested
  rw [hm] at hf hn
  exact ⟨fun f h => hf f (List.mem_cons_of_mem _ h), hf frame List.mem_cons_self, hn.1, hn.2⟩

/-- An operation goes on, and hands over at most to the table what it took from there or owed. -/
theorem Ledger.replaced (hl : m.Ledger) (hm : m.frames = frame :: below) (next : ScopeFrame)
    (s : CancelScope ScopeCallback) (hk : next.Known m.registered) (hs : next.StandsOn below)
    (hc : s.cancelled = m.scope.cancelled)
    (hb : ∀ n, (s.pending.map (·.2.number)).count n + next.owed.count n =
      (m.scope.pending.map (·.2.number)).count n + frame.owed.count n) :
    ({ m with scope := s, frames := next :: below } : ScopeThread).Ledger := by
  obtain ⟨hbelow, -, -, hnested⟩ := hl.parts hm
  refine ⟨?_, ?_, ?_, ⟨hs, hnested⟩, fun n => ?_⟩
  · rw [hc]
    exact hl.history
  · rw [hc]
    exact hl.handles
  · exact List.forall_mem_cons.mpr ⟨hk, hbelow⟩
  · rw [← hl.balance n, carried_cons hm, carried_cons (m := { m with scope := s, frames := _ }) rfl,
      hb n]

theorem Ledger.popped (hl : m.Ledger) (hm : m.frames = frame :: below) (ho : frame.owed = []) :
    ({ m with frames := below } : ScopeThread).Ledger := by
  obtain ⟨hbelow, -, -, hnested⟩ := hl.parts hm
  refine ⟨hl.history, hl.handles, hbelow, hnested, fun n => ?_⟩
  rw [← hl.balance n, carried_cons hm, ho]
  rfl

theorem Ledger.pushed (hl : m.Ledger) (next : ScopeFrame) (hk : next.Known m.registered)
    (hs : next.StandsOn m.frames) (ho : next.owed = []) : (m.push next).Ledger := by
  refine ⟨hl.history, hl.handles, ?_, ⟨hs, hl.nested⟩, fun n => ?_⟩
  · exact List.forall_mem_cons.mpr ⟨hk, hl.frames⟩
  · refine Eq.trans ?_ (hl.balance n)
    rw [carried_cons (m := m.push next) rfl, ho]
    rfl

theorem Ledger.started (hl : m.Ledger) (hm : m.frames = frame :: below) (next : ScopeFrame)
    (c : ScopeCallback) (hk : next.Known m.registered) (hs : next.StandsOn below)
    (hcall : (ScopeFrame.script c.acts).StandsOn (next :: below))
    (ho : frame.owed = c.number :: next.owed) :
    ((({ m with frames := below } : ScopeThread).push next).start c).Ledger := by
  obtain ⟨hbelow, -, -, hnested⟩ := hl.parts hm
  refine ⟨hl.history.snoc _ rfl nofun nofun, hl.handles, ?_, ⟨hcall, hs, hnested⟩, fun n => ?_⟩
  · exact List.forall_mem_cons.mpr ⟨trivial, List.forall_mem_cons.mpr ⟨hk, hbelow⟩⟩
  · have h := hl.balance n
    have hstarts :
        starts (m.events ++ [.started c.number c.name]) = starts m.events ++ [c.number] :=
      starts_append _ _
    have hscript : (ScopeFrame.script c.acts).owed = [] := rfl
    rw [carried_cons hm, ho] at h
    simp only [start, push, noting, carried, hstarts, hscript, List.flatMap_cons, List.nil_append,
      List.count_append, isDue_snoc (.started c.number c.name) n nofun, List.count_cons,
      List.count_nil] at h ⊢
    omega

theorem Ledger.failed (hl : m.Ledger) (f : Failure) (hs : AtAct m.frames) : (m.fail f).Ledger := by
  refine ⟨hl.history, hl.handles, unwind_all f _ (fun _ => trivial) _ hl.frames,
    unwind_nested f _ hl.nested, fun n => ?_⟩
  refine Eq.trans ?_ (hl.balance n)
  unfold carried
  rw [← unwind_owed f m.frames hl.nested hs]
  rfl

/-! ### Acts -/

/-- What the beginning of an act does. -/
inductive Begins (m : ScopeThread) : ScopeAct → ScopeThread → Prop
  | registers (name : String) (acts : List ScopeAct) :
    Begins m (.onCancel name acts) (m.push (.lock name acts))
  | unregisters {name : String} {number token : Nat}
    (h : (name, ⟨number, some token⟩) ∈ m.handles) :
    Begins m (.unregister name) (m.push (.unregistering number token .lock))
  | unregistersLate {name : String} {number : Nat} (h : (name, ⟨number, none⟩) ∈ m.handles) :
    Begins m (.unregister name) (m.noting (.unregistered number))
  | cancels : Begins m .cancel (m.push (.cancelling .lock))
  | stays (act : ScopeAct) : Begins m act m
  | fails (act : ScopeAct) (f : Failure) : Begins m act (m.fail f)

theorem begins_beginAct (m : ScopeThread) (act : ScopeAct) : m.Begins act (m.beginAct act) := by
  cases act with
  | onCancel name acts => exact .registers name acts
  | unregister name =>
    simp only [beginAct]
    split
    · rename_i hlookup
      exact .unregisters (mem_of_lookup name _ m.handles hlookup)
    · rename_i hlookup
      exact .unregistersLate (mem_of_lookup name _ m.handles hlookup)
    · exact .stays _
  | cancel => exact .cancels
  | isCancelled => exact .stays _
  | countPending => exact .stays _
  | wait x =>
    simp only [beginAct]
    split
    · exact .stays _
    · exact .fails _ _
  | sleep x =>
    simp only [beginAct]
    split
    · exact .stays _
    · exact .fails _ _
  | fail message => exact .fails _ _

theorem Ledger.beganAct (hl : m.Ledger) (hs : AtAct m.frames) (act : ScopeAct) :
    (m.beginAct act).Ledger := by
  have hbegins := m.begins_beginAct act
  generalize m.beginAct act = m' at hbegins ⊢
  cases hbegins with
  | registers name acts => exact hl.pushed _ trivial hs rfl
  | unregisters h => exact hl.pushed _ (hl.handles _ h).1 hs rfl
  | @unregistersLate name number h =>
    obtain ⟨hknown, hlate⟩ := hl.handles _ h
    refine ⟨hl.history.snoc _ rfl nofun ?_, hl.handles, hl.frames, hl.nested, fun n => ?_⟩
    · rintro n ⟨⟩
      exact hknown
    · have hdue : IsDue (m.events ++ [.unregistered number]) m.registered n ↔
          IsDue m.events m.registered n := by
        rw [hl.history.isDue_unregistered]
        exact and_iff_left (.inl (hlate rfl))
      simp only [noting, hdue, starts_snoc m.events (.unregistered number) rfl]
      exact hl.balance n
  | cancels => exact hl.pushed _ trivial trivial rfl
  | stays => exact hl
  | fails _ f => exact hl.failed f hs

/-! ### One step -/

/-- What a step relies on where it hands a callback on: the token that it inserts is free, what it
takes out under a token is its own callback, and a cancellation clears what it has read. -/
def Ready (m : ScopeThread) (below : List ScopeFrame) : ScopeFrame → Prop
  | .registering _ token .insert => token ∉ m.scope.pending.map (·.1)
  | .registering c token .pop => m.scope.pending = [] ∨ m.scope.pending = [(token, c)]
  | .registering _ _ (.bind false) => m.scope.cancelled = true
  | .unregistering number token .pop =>
    m.scope.cancelled = true ∧ m.scope.pending = [] ∨
      m.scope.cancelled = false ∧ starts m.events = [] ∧ below = [] ∧ token = number ∧
        ∀ p ∈ m.scope.pending, p.1 = p.2.number
  | .cancelling (.clear due) => due = m.scope.pending.map (·.2)
  | _ => True

theorem assign_absent {α β : Type} [BEq α] [LawfulBEq α] (k : α) (v : β) (t : List (α × β))
    (h : k ∉ t.map (·.1)) : assign k v t = t ++ [(k, v)] := by
  induction t with
  | nil => rfl
  | cons p t ih =>
    obtain ⟨hp, ht⟩ := not_or.mp (mt List.mem_cons.mpr h)
    have hk : (k == p.1) = false := beq_eq_false_iff_ne.mpr hp
    rw [assign, hk, ih ht]
    rfl

theorem pending_unregister_nil {s : CancelScope ScopeCallback} (h : s.pending = []) (token : Nat) :
    (s.unregister token).pending = [] := by
  rw [CancelScope.unregister, h]
  rfl

theorem pending_unregister_own {s : CancelScope ScopeCallback} {c : ScopeCallback} {token : Nat}
    (h : s.pending = [(token, c)]) : (s.unregister token).pending = [] := by
  simp only [CancelScope.unregister, h, List.filter_cons, bne_self_eq_false, Bool.false_eq_true,
    if_false, List.filter_nil]

theorem Ledger.steppedRegister (hl : m.Ledger) (c : ScopeCallback) (token : Nat)
    (next : RegisterPoint) (hm : m.frames = .registering c token next :: below)
    (hr : m.Ready below (.registering c token next)) :
    (({ m with frames := below } : ScopeThread).stepRegister c token next).Ledger := by
  obtain ⟨-, hk, hs, -⟩ := hl.parts hm
  cases next with
  | readCounter => exact hl.replaced hm _ m.scope hk hs rfl fun _ => rfl
  | raiseCounter counter =>
    exact hl.replaced hm _ { m.scope with nextToken := counter + 1 } hk hs rfl fun _ => rfl
  | insert =>
    refine hl.replaced hm _ { m.scope with pending := assign token c m.scope.pending } hk hs rfl
      fun n => ?_
    rw [assign_absent token c _ hr, List.map_append, List.count_append]
    rfl
  | test =>
    simp only [stepRegister]
    split
    · exact hl.replaced hm (.registering c token .pop) m.scope hk hs rfl fun _ => rfl
    · exact hl.replaced hm (.registering c token (.unlock false)) m.scope hk hs rfl fun _ => rfl
  | pop =>
    refine hl.replaced hm _ (m.scope.unregister token) hk hs rfl fun n => ?_
    rcases hr with hr | hr
    · simp [pending_unregister_nil hr, hr, ScopeFrame.owed]
    · simp [pending_unregister_own hr, hr, ScopeFrame.owed]
  | unlock missed =>
    cases missed with
    | true => exact hl.replaced hm _ m.scope hk hs rfl fun _ => rfl
    | false => exact hl.replaced hm _ m.scope hk hs rfl fun _ => rfl
  | call => exact hl.started hm _ c hk hs trivial rfl
  | bind isKept =>
    have hpopped := hl.popped hm rfl
    refine ⟨hpopped.history, List.forall_mem_cons.mpr ⟨⟨hk, fun hnone => ?_⟩, hl.handles⟩,
      hpopped.frames, hpopped.nested, hpopped.balance⟩
    cases isKept with
    | true => cases hnone
    | false => exact hr

theorem count_unregister (s : CancelScope ScopeCallback) (k n : Nat)
    (h : ∀ p ∈ s.pending, p.1 = p.2.number) :
    ((s.unregister k).pending.map (·.2.number)).count n =
      if n = k then 0 else (s.pending.map (·.2.number)).count n := by
  have hfilter : (s.unregister k).pending.map (·.2.number) =
      (s.pending.map (·.2.number)).filter (· != k) := by
    rw [List.filter_map]
    refine congrArg _ (List.filter_congr fun p hp => ?_)
    rw [h p hp]
    rfl
  rw [hfilter]
  split
  · rename_i hn
    refine List.count_eq_zero.mpr fun hmem => ?_
    exact bne_iff_ne.mp (List.mem_filter.mp hmem).2 hn
  · rename_i hn
    exact List.count_filter (bne_iff_ne.mpr hn)

theorem Ledger.steppedUnregister (hl : m.Ledger) (number token : Nat) (next : UnregisterPoint)
    (hm : m.frames = .unregistering number token next :: below)
    (hr : m.Ready below (.unregistering number token next)) :
    (({ m with frames := below } : ScopeThread).stepUnregister number token next).Ledger := by
  obtain ⟨hbelow, hk, hs, hnested⟩ := hl.parts hm
  cases next with
  | lock => exact hl.replaced hm _ m.scope hk hs rfl fun _ => rfl
  | pop =>
    refine ⟨hl.history.snoc _ rfl nofun ?_, hl.handles, List.forall_mem_cons.mpr ⟨hk, hbelow⟩,
      ⟨hs, hnested⟩, fun n => ?_⟩
    · rintro n ⟨⟩
      exact hk
    · have h := hl.balance n
      have hdue : IsDue (m.events ++ [.unregistered number]) m.registered n ↔
          IsDue m.events m.registered n ∧ (m.scope.cancelled = true ∨ n ≠ number) :=
        hl.history.isDue_unregistered number n
      rw [carried_cons hm, ← starts_snoc m.events (.unregistered number) rfl] at h
      simp only [stepUnregister, push, noting, hdue]
      rw [carried_cons rfl]
      rcases hr with ⟨hflag, hpending⟩ | ⟨hflag, hstarts, rfl, rfl, htokens⟩
      · simp only [hpending, CancelScope.unregister, hflag, true_or, and_true] at h ⊢
        exact h
      · rw [count_unregister m.scope token n htokens]
        simp only [starts_snoc m.events (.unregistered token) rfl, hstarts, hflag] at h ⊢
        by_cases hn : n = token
        · simp [hn, ScopeFrame.owed]
        · simpa [hn, ScopeFrame.owed] using h
  | unlock => exact hl.popped hm rfl

theorem Ledger.cancelled (hl : m.Ledger) (hm : m.frames = frame :: below) (next : CancelPoint)
    (s : CancelScope ScopeCallback) (hflag : s.cancelled = true)
    (hpending : s.pending = m.scope.pending)
    (ho : (ScopeFrame.cancelling next).owed = frame.owed) :
    (({ m with scope := s, frames := below } : ScopeThread).noting .cancelled |>.push
      (.cancelling next)).Ledger := by
  obtain ⟨hbelow, -, -, hnested⟩ := hl.parts hm
  refine ⟨?_, fun x hx => ⟨(hl.handles x hx).1, fun _ => hflag⟩,
    List.forall_mem_cons.mpr ⟨trivial, hbelow⟩, ⟨trivial, hnested⟩, fun n => ?_⟩
  · simp only [push, noting, hflag]
    exact hl.history.cancelled
  · have hdue : IsDue (m.events ++ [.cancelled]) m.registered n ↔ IsDue m.events m.registered n :=
      isDue_snoc .cancelled n nofun
    have h := hl.balance n
    rw [carried_cons hm, ← starts_snoc m.events .cancelled rfl] at h
    simp only [push, noting, hdue]
    rw [← h, carried_cons rfl, ho, hpending]

theorem Ledger.steppedCancel (hl : m.Ledger) (next : CancelPoint)
    (hm : m.frames = .cancelling next :: below) (hr : m.Ready below (.cancelling next)) :
    (({ m with frames := below } : ScopeThread).stepCancel next).Ledger := by
  cases next with
  | lock => exact hl.replaced hm _ m.scope trivial trivial rfl fun _ => rfl
  | test =>
    simp only [stepCancel]
    split
    · rename_i hflag
      exact hl.cancelled hm (.unlock []) m.scope hflag rfl rfl
    · exact hl.replaced hm (.cancelling .set) m.scope trivial trivial rfl fun _ => rfl
  | set => exact hl.cancelled hm .snapshot { m.scope with cancelled := true } rfl rfl rfl
  | snapshot => exact hl.replaced hm _ m.scope trivial trivial rfl fun _ => rfl
  | clear due =>
    refine hl.replaced hm _ { m.scope with pending := [] } trivial trivial rfl fun n => ?_
    rw [hr, List.map_nil, List.count_nil, Nat.zero_add]
    simp only [ScopeFrame.owed, List.map_map, List.count_nil, Nat.add_zero]
    rfl
  | unlock due => exact hl.replaced hm _ m.scope trivial trivial rfl fun _ => rfl
  | deliver due =>
    cases due with
    | nil => exact hl.popped hm rfl
    | cons c due => exact hl.started hm _ c trivial trivial trivial rfl
  | guard name due => exact hl.replaced hm _ m.scope trivial trivial rfl fun _ => rfl

theorem Ledger.registered (hl : m.Ledger) (name : String) (acts : List ScopeAct)
    (hm : m.frames = .readToken name acts :: below) :
    (({ m with frames := below } : ScopeThread).stepFrame (.readToken name acts)).Ledger := by
  obtain ⟨hbelow, -, hs, hnested⟩ := hl.parts hm
  refine ⟨hl.history.registered, fun x hx => ?_, List.forall_mem_cons.mpr ⟨?_, fun f hf => ?_⟩,
    ⟨hs, hnested⟩, fun n => ?_⟩
  · exact ⟨Nat.lt_succ_of_lt (hl.handles x hx).1, (hl.handles x hx).2⟩
  · exact Nat.lt_succ_self m.registered
  · exact (hbelow f hf).succ
  · have h := hl.balance n
    have hdue : IsDue (m.events ++ [.registered m.registered]) (m.registered + 1) n ↔
        n = m.registered ∨ IsDue m.events m.registered n := hl.history.isDue_registered n
    have hnew : ¬IsDue m.events m.registered m.registered := fun hn => absurd hn.1 (Nat.lt_irrefl _)
    have howed : (ScopeFrame.readToken name acts).owed.count n = 0 := List.count_nil
    rw [carried_cons hm, howed, ← starts_snoc m.events (.registered m.registered) rfl] at h
    simp only [stepFrame, push, noting, hdue]
    rw [carried_cons rfl]
    simp only [ScopeFrame.owed]
    by_cases hn : n = m.registered
    · rw [hn] at h ⊢
      rw [if_neg hnew] at h
      rw [if_pos (.inl rfl), List.count_singleton_self]
      omega
    · have hother : [m.registered].count n = 0 := List.count_eq_zero.mpr fun hmem =>
        hn (List.mem_singleton.mp hmem)
      rw [hother]
      simpa only [hn, false_or] using h

theorem Ledger.steppedFrame (hl : m.Ledger) (hm : m.frames = frame :: below)
    (hr : m.Ready below frame) :
    (({ m with frames := below } : ScopeThread).stepFrame frame).Ledger := by
  obtain ⟨hbelow, -, hs, hnested⟩ := hl.parts hm
  cases frame with
  | lock name acts => exact hl.replaced hm _ m.scope trivial hs rfl fun _ => rfl
  | readToken name acts => exact hl.registered name acts hm
  | registering c token next => exact hl.steppedRegister c token next hm hr
  | unregistering number token next => exact hl.steppedUnregister number token next hm hr
  | cancelling next => exact hl.steppedCancel next hm hr
  | script acts =>
    cases acts with
    | nil => exact hl.popped hm rfl
    | cons act acts =>
      refine Ledger.beganAct ?_ (.inr ⟨acts, below, rfl⟩) act
      exact hl.replaced hm (.script acts) m.scope trivial hs rfl fun _ => rfl

theorem Ledger.step (hl : m.Ledger) (hr : ∀ f fs, m.frames = f :: fs → m.Ready fs f) :
    m.step.Ledger := by
  unfold ScopeThread.step
  split
  · rename_i frame below hm
    exact hl.steppedFrame hm (hr _ _ hm)
  · rename_i act rest hm _
    have hnext : ({ m with program := rest } : ScopeThread).Ledger :=
      ⟨hl.history, hl.handles, hl.frames, hl.nested, hl.balance⟩
    exact hnext.beganAct (.inl hm) act
  · exact hl

theorem Ledger.signal (hl : m.Ledger) : m.signal.Ledger :=
  hl.pushed _ trivial trivial rfl

end ScopeThread

end LayerQuota.Rehearsal
