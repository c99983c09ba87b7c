import LayerQuota.Proofs.Scope.Record
import Mathlib.Data.List.Nodup
import Mathlib.Data.List.TakeWhile
/-!
# Callbacks are delivered once

In every program on a scope, however its callbacks register, take back and cancel in their turn, a
callback is started once where the scope is cancelled at some time, unless it was taken back before
that, and else not at all. Those that were pending are started in the order of their registration,
and from the cancellation on none is left pending.
-/

namespace LayerQuota.Rehearsal

/-! ### Reading events -/

def ScopeEvent.registered? : ScopeEvent → Option Nat
  | .registered n => some n
  | _ => none

def ScopeEvent.started? : ScopeEvent → Option Nat
  | .started n _ => some n
  | _ => none

/-- The registrations, by their numbers. -/
def registrations (es : List ScopeEvent) : List Nat := es.filterMap ScopeEvent.registered?

/-- The callbacks that were started, by the numbers of their registrations. -/
def starts (es : List ScopeEvent) : List Nat := es.filterMap ScopeEvent.started?

/-- The registrations that were not taken back. -/
def kept (es : List ScopeEvent) : List Nat :=
  (registrations es).filter fun n => .unregistered n ∉ es

/-- What happened before the scope was cancelled for the first time. -/
def beforeCancel (es : List ScopeEvent) : List ScopeEvent := es.takeWhile (· != .cancelled)

/-- What happened from there on. -/
def sinceCancel (es : List ScopeEvent) : List ScopeEvent := es.dropWhile (· != .cancelled)

variable (es es' : List ScopeEvent)

theorem registrations_append : registrations (es ++ es') = registrations es ++ registrations es' :=
  List.filterMap_append

theorem starts_append : starts (es ++ es') = starts es ++ starts es' := List.filterMap_append

theorem registrations_snoc (e : ScopeEvent) (he : e.registered? = none) :
    registrations (es ++ [e]) = registrations es := by
  rw [registrations_append]
  simp only [registrations, List.filterMap_cons, he, List.filterMap_nil, List.append_nil]

theorem starts_snoc (e : ScopeEvent) (he : e.started? = none) : starts (es ++ [e]) = starts es := by
  rw [starts_append]
  simp only [starts, List.filterMap_cons, he, List.filterMap_nil, List.append_nil]

theorem kept_subset (n : Nat) (hn : n ∈ kept es) : n ∈ registrations es :=
  (List.mem_filter.mp hn).1

theorem mem_kept (n : Nat) : n ∈ kept es ↔ n ∈ registrations es ∧ .unregistered n ∉ es := by
  rw [kept, List.mem_filter, decide_eq_true_eq]

theorem kept_register (n : Nat) (hn : .unregistered n ∉ es) :
    kept (es ++ [.registered n]) = kept es ++ [n] := by
  have hmem : ∀ m, ScopeEvent.unregistered m ∉ es ++ [.registered n] ↔ .unregistered m ∉ es := by
    intro m
    simp only [List.mem_append, List.mem_singleton, reduceCtorEq, or_false]
  simp only [kept, registrations_append, List.filter_append, hmem]
  simp only [registrations, ScopeEvent.registered?, List.filterMap_cons, List.filterMap_nil,
    List.filter_cons, hn, not_false_eq_true, decide_true, if_true, List.filter_nil]

theorem kept_unregister (n : Nat) :
    kept (es ++ [.unregistered n]) = (kept es).filter (· != n) := by
  rw [kept, registrations_snoc es (.unregistered n) rfl, kept, List.filter_filter]
  refine List.filter_congr fun m _ => ?_
  by_cases hm : m = n
  · subst hm
    simp
  · simp [hm]

theorem kept_performed (k : Nat) : kept (es ++ [.performed k]) = kept es := by
  rw [kept, registrations_snoc es (.performed k) rfl, kept]
  simp only [List.mem_append, List.mem_singleton, reduceCtorEq, or_false]

section Uncancelled

variable (h : .cancelled ∉ es)

include h

theorem ne_cancelled (e : ScopeEvent) (he : e ∈ es) : (e != .cancelled) = true := by
  refine bne_iff_ne.mpr ?_
  rintro rfl
  exact h he

theorem sinceCancel_of_not_mem : sinceCancel es = [] :=
  List.dropWhile_eq_nil_iff.mpr (ne_cancelled es h)

theorem beforeCancel_append : beforeCancel (es ++ .cancelled :: es') = es := by
  rw [beforeCancel, List.takeWhile_append_of_pos (ne_cancelled es h)]
  exact List.append_nil es

theorem sinceCancel_append : sinceCancel (es ++ .cancelled :: es') = .cancelled :: es' := by
  rw [sinceCancel, List.dropWhile_append_of_pos (ne_cancelled es h)]
  rfl

end Uncancelled

namespace ScopeStage

variable {es es'}

/-! ### Before the cancellation -/

/-- Events before a cancellation: nothing is started, and only what was registered is taken back. -/
structure Quiet (es : List ScopeEvent) : Prop where
  uncancelled : .cancelled ∉ es
  unstarted : starts es = []
  known : ∀ n, .unregistered n ∈ es → n ∈ registrations es

/-- A scope that is not cancelled, with the callbacks that were not taken back. -/
structure Waiting (st : ScopeStage) : Prop where
  quiet : Quiet st.events
  isOpen : st.scope.cancelled = false
  tokens : ∀ p ∈ st.scope.pending, p.1 = p.2.number
  pending : st.scope.pending.map (·.1) = kept st.events
  below : ∀ n ∈ registrations st.events, n < st.scope.nextToken
  distinct : (registrations st.events).Nodup
  handles : ∀ x ∈ st.handles, x.2.isKept = true ∧ x.2.number ∈ registrations st.events

theorem opening_waiting : Waiting opening where
  quiet := ⟨List.not_mem_nil, rfl, fun _ hn => absurd hn List.not_mem_nil⟩
  isOpen := rfl
  tokens _ hp := absurd hp List.not_mem_nil
  pending := rfl
  below _ hn := absurd hn List.not_mem_nil
  distinct := List.nodup_nil
  handles _ hx := absurd hx List.not_mem_nil

variable {st : ScopeStage}

/-- An event that registers and starts nothing. -/
theorem Quiet.snoc (hq : Quiet es) (e : ScopeEvent) (hr : e.registered? = none)
    (hs : e.started? = none) (hc : e ≠ .cancelled)
    (hu : ∀ n, e = .unregistered n → n ∈ registrations es) : Quiet (es ++ [e]) := by
  refine ⟨?_, ?_, fun n hn => ?_⟩
  · rw [List.mem_append, List.mem_singleton]
    exact not_or.mpr ⟨hq.uncancelled, hc.symm⟩
  · rw [starts_snoc es e hs]
    exact hq.unstarted
  · rw [registrations_snoc es e hr]
    rcases List.mem_append.mp hn with hn | hn
    · exact hq.known n hn
    · exact hu n (List.mem_singleton.mp hn).symm

theorem Waiting.performed (hw : Waiting st) (k : Nat) : Waiting (st.noting (.performed k)) := by
  have hreg : registrations (st.events ++ [.performed k]) = registrations st.events :=
    registrations_snoc st.events (.performed k) rfl
  refine ⟨hw.quiet.snoc _ rfl rfl nofun nofun, hw.isOpen, hw.tokens, ?_, ?_, ?_, ?_⟩
  · exact hw.pending.trans (kept_performed st.events k).symm
  · exact fun n hn => hw.below n (hreg ▸ hn)
  · exact hreg ▸ hw.distinct
  · exact fun x hx => ⟨(hw.handles x hx).1, hreg ▸ (hw.handles x hx).2⟩

theorem Waiting.registered
    (run : ScopeCallback → ScopeStage → Except Failure Unit × ScopeStage) (hw : Waiting st)
    (name : String) (acts : List ScopeAct) :
    (st.register run name acts).1 = .ok .nothing ∧ Waiting (st.register run name acts).2 := by
  have hfresh : st.scope.nextToken ∉ registrations st.events := fun hn =>
    absurd (hw.below _ hn) (Nat.lt_irrefl _)
  have hreg : registrations (st.events ++ [.registered st.scope.nextToken]) =
      registrations st.events ++ [st.scope.nextToken] := registrations_append _ _
  simp only [register, CancelScope.register, hw.isOpen, Bool.false_eq_true, if_false]
  refine ⟨trivial, ⟨?_, ?_, fun n hn => ?_⟩, rfl, fun p hp => ?_, ?_, fun n hn => ?_, ?_,
    fun x hx => ?_⟩
  · simp only [noting, holding, List.mem_append, List.mem_singleton, reduceCtorEq, or_false]
    exact hw.quiet.uncancelled
  · exact (starts_snoc _ _ rfl).trans hw.quiet.unstarted
  · simp only [noting, holding, List.mem_append, List.mem_singleton, reduceCtorEq, or_false] at hn
    exact hreg ▸ List.mem_append_left _ (hw.quiet.known n hn)
  · rcases List.mem_append.mp hp with hp | hp
    · exact hw.tokens p hp
    · rw [List.mem_singleton.mp hp]
  · simp only [noting, holding, List.map_append, List.map_cons, List.map_nil, hw.pending]
    exact (kept_register st.events _ fun hn => hfresh (hw.quiet.known _ hn)).symm
  · have hn : n ∈ registrations st.events ++ [st.scope.nextToken] := hreg ▸ hn
    rcases List.mem_append.mp hn with hn | hn
    · exact Nat.lt_succ_of_lt (hw.below n hn)
    · rw [List.mem_singleton.mp hn]
      exact Nat.lt_succ_self _
  · show (registrations (st.events ++ [.registered st.scope.nextToken])).Nodup
    rw [hreg]
    exact hw.distinct.append (List.nodup_singleton _) (List.disjoint_singleton.mpr hfresh)
  · show x.2.isKept = true ∧
      x.2.number ∈ registrations (st.events ++ [.registered st.scope.nextToken])
    rw [hreg]
    rcases List.mem_cons.mp hx with rfl | hx
    · exact ⟨rfl, List.mem_append_right _ (List.mem_singleton.mpr rfl)⟩
    · exact ⟨(hw.handles x hx).1, List.mem_append_left _ (hw.handles x hx).2⟩

theorem Waiting.unregistered (hw : Waiting st) (name : String) : Waiting (st.unregister name) := by
  unfold unregister
  split
  · rename_i number isKept hlookup
    obtain ⟨hkept, hnumber⟩ := hw.handles _ (mem_of_lookup name ⟨number, isKept⟩ st.handles hlookup)
    have hreg : registrations (st.events ++ [.unregistered number]) = registrations st.events :=
      registrations_snoc st.events (.unregistered number) rfl
    simp only at hkept
    simp only [hkept, if_true]
    refine ⟨hw.quiet.snoc _ rfl rfl nofun ?_, hw.isOpen, fun p hp => ?_, ?_, fun n hn => ?_, ?_,
      fun x hx => ?_⟩
    · rintro n ⟨⟩
      exact hnumber
    · exact hw.tokens p (List.mem_filter.mp hp).1
    · simp only [noting, CancelScope.unregister]
      rw [kept_unregister, ← hw.pending, List.filter_map]
      rfl
    · exact hw.below n (hreg ▸ hn)
    · exact hreg ▸ hw.distinct
    · exact ⟨(hw.handles x hx).1, hreg ▸ (hw.handles x hx).2⟩
  · exact hw

/-! ### From the cancellation on -/

/-- What was delivered since the cancellation: of the callbacks that were pending all but those that
are owed, and all that were registered since. -/
structure Delivered (before : List ScopeEvent) (owed : List Nat) (since : List ScopeEvent) :
    Prop where
  due : (starts since).filter (· ∈ kept before) ++ owed = kept before
  late : (starts since).filter (· ∉ kept before) = registrations since
  distinct : (registrations before ++ registrations since).Nodup
  idle : ∀ k, .performed k ∈ since → k = 0

/-- A scope that was cancelled, with the callbacks that it owes. -/
structure Tripped (before : List ScopeEvent) (owed : List Nat) (st : ScopeStage) : Prop where
  closed : st.scope.cancelled = true
  cleared : st.scope.pending = []
  events : ∃ since, st.events = before ++ .cancelled :: since ∧ Delivered before owed since
  below : ∀ n ∈ registrations st.events, n < st.scope.nextToken

variable {before since : List ScopeEvent} {owed : List Nat}

theorem Delivered.skip (hd : Delivered before owed since) (e : ScopeEvent)
    (hr : e.registered? = none) (hs : e.started? = none) (hp : ∀ k, e = .performed k → k = 0) :
    Delivered before owed (since ++ [e]) := by
  refine ⟨?_, ?_, ?_, fun k hk => ?_⟩
  · rw [starts_snoc since e hs]
    exact hd.due
  · rw [starts_snoc since e hs, registrations_snoc since e hr]
    exact hd.late
  · rw [registrations_snoc since e hr]
    exact hd.distinct
  · rcases List.mem_append.mp hk with hk | hk
    · exact hd.idle k hk
    · exact hp k (List.mem_singleton.mp hk).symm

/-- The next callback that is owed is started. -/
theorem Delivered.start {n : Nat} (hd : Delivered before (n :: owed) since) (name : String) :
    Delivered before owed (since ++ [.started n name]) := by
  have hn : n ∈ kept before := by
    rw [← hd.due]
    exact List.mem_append_right _ List.mem_cons_self
  have hstarts : starts (since ++ [.started n name]) = starts since ++ [n] := starts_append _ _
  refine ⟨?_, ?_, ?_, fun k hk => ?_⟩
  · rw [hstarts, List.filter_append, List.append_assoc]
    simpa only [List.filter_cons, hn, decide_true, if_true, List.filter_nil, List.cons_append,
      List.nil_append] using hd.due
  · rw [hstarts, List.filter_append, registrations_snoc since (.started n name) rfl, hd.late]
    simp only [List.filter_cons, hn, not_true_eq_false, decide_false, Bool.false_eq_true, if_false,
      List.filter_nil, List.append_nil]
  · rw [registrations_snoc since (.started n name) rfl]
    exact hd.distinct
  · simp only [List.mem_append, List.mem_singleton, reduceCtorEq, or_false] at hk
    exact hd.idle k hk

/-- A callback that is registered now is started at once. -/
theorem Delivered.register (hd : Delivered before owed since) (n : Nat) (name : String)
    (hn : n ∉ registrations before ++ registrations since) :
    Delivered before owed (since ++ [.registered n] ++ [.started n name]) := by
  have hlate : n ∉ kept before := fun hm => hn (List.mem_append_left _ (kept_subset before n hm))
  have hstarts : starts (since ++ [.registered n] ++ [.started n name]) = starts since ++ [n] := by
    rw [starts_append, starts_snoc since (.registered n) rfl]
    rfl
  have hreg : registrations (since ++ [.registered n] ++ [.started n name]) =
      registrations since ++ [n] := by
    rw [registrations_snoc _ (.started n name) rfl, registrations_append]
    rfl
  refine ⟨?_, ?_, ?_, fun k hk => ?_⟩
  · rw [hstarts, List.filter_append]
    simpa only [List.filter_cons, hlate, decide_false, Bool.false_eq_true, if_false,
      List.filter_nil, List.append_nil] using hd.due
  · rw [hstarts, hreg, List.filter_append, hd.late]
    simp only [List.filter_cons, hlate, not_false_eq_true, decide_true, if_true, List.filter_nil]
  · rw [hreg, ← List.append_assoc]
    exact hd.distinct.append (List.nodup_singleton n) (List.disjoint_singleton.mpr hn)
  · simp only [List.mem_append, List.mem_singleton, reduceCtorEq, or_false] at hk
    exact hd.idle k hk

/-- What is split into two parts without repetition has none. -/
theorem nodup_of_filter (ns : List Nat) (p : Nat → Prop) [DecidablePred p]
    (hp : (ns.filter (p ·)).Nodup) (hn : (ns.filter (¬p ·)).Nodup) : ns.Nodup := by
  rw [List.nodup_iff_count_le_one] at hp hn ⊢
  intro n
  by_cases h : p n
  · rw [← List.count_filter (p := (p ·)) (decide_eq_true h)]
    exact hp n
  · rw [← List.count_filter (p := (¬p ·)) (decide_eq_true h)]
    exact hn n

/-- Where nothing is owed, all that was due was started in its order. -/
theorem Delivered.order (hd : Delivered before [] since) :
    (starts since).filter (· ∈ kept before) = kept before :=
  (List.append_nil _).symm.trans hd.due

theorem Delivered.starts_nodup (hd : Delivered before [] since) : (starts since).Nodup := by
  have hdistinct := List.nodup_append'.mp hd.distinct
  refine nodup_of_filter _ (· ∈ kept before) ?_ ?_
  · rw [hd.order]
    exact hdistinct.1.filter _
  · rw [hd.late]
    exact hdistinct.2.1

theorem Delivered.mem_starts (hd : Delivered before [] since) (n : Nat) :
    n ∈ starts since ↔ n ∈ kept before ∨ n ∈ registrations since := by
  constructor
  · intro hn
    by_cases hk : n ∈ kept before
    · exact .inl hk
    · rw [← hd.late]
      exact .inr (List.mem_filter.mpr ⟨hn, decide_eq_true hk⟩)
  · rintro (hn | hn)
    · rw [← hd.order] at hn
      exact (List.mem_filter.mp hn).1
    · rw [← hd.late] at hn
      exact (List.mem_filter.mp hn).1

/-- A callback was started if it was registered and was not taken back before the cancellation. -/
theorem Delivered.started_iff (hd : Delivered before [] since) (hq : Quiet before) (n : Nat) :
    n ∈ starts since ↔
      n ∈ registrations before ++ registrations since ∧ .unregistered n ∉ before := by
  rw [hd.mem_starts, mem_kept, List.mem_append]
  constructor
  · rintro (⟨hn, hu⟩ | hn)
    · exact ⟨.inl hn, hu⟩
    · exact ⟨.inr hn, fun hu => (List.nodup_append'.mp hd.distinct).2.2 (hq.known n hu) hn⟩
  · rintro ⟨hn | hn, hu⟩
    · exact .inl ⟨hn, hu⟩
    · exact .inr hn

/-! ### Running callbacks -/

theorem Tripped.congr {st' : ScopeStage} (ht : Tripped before owed st)
    (hs : st'.scope = st.scope) (he : st'.events = st.events) : Tripped before owed st' :=
  ⟨hs ▸ ht.closed, hs ▸ ht.cleared, he ▸ ht.events, he ▸ hs ▸ ht.below⟩

theorem Tripped.skip (ht : Tripped before owed st) (e : ScopeEvent) (hr : e.registered? = none)
    (hs : e.started? = none) (hp : ∀ k, e = .performed k → k = 0) :
    Tripped before owed (st.noting e) := by
  obtain ⟨since, hevents, hd⟩ := ht.events
  refine ⟨ht.closed, ht.cleared, ⟨since ++ [e], ?_, hd.skip e hr hs hp⟩, fun n hn => ?_⟩
  · simp only [noting, hevents, List.append_assoc, List.cons_append]
  · exact ht.below n (registrations_snoc st.events e hr ▸ hn)

theorem Tripped.start {n : Nat} (ht : Tripped before (n :: owed) st) (name : String) :
    Tripped before owed (st.noting (.started n name)) := by
  obtain ⟨since, hevents, hd⟩ := ht.events
  refine ⟨ht.closed, ht.cleared, ⟨since ++ [.started n name], ?_, hd.start name⟩, fun m hm => ?_⟩
  · simp only [noting, hevents, List.append_assoc, List.cons_append]
  · exact ht.below m (registrations_snoc st.events (.started n name) rfl ▸ hm)

/-- An act that was not broken off, and that left all delivered but what is owed. -/
structure Ends {α : Type} (before : List ScopeEvent) (owed : List Nat)
    (a : Except Failure α × ScopeStage) : Prop where
  finished : a.1 ≠ .error .unfinished
  tripped : Tripped before owed a.2

theorem wait_finished {α : Type} (s : CancelScope ScopeCallback) (x : Number.Binary64)
    (f : Bool → α) : (s.wait x).map f ≠ .error .unfinished := by
  unfold CancelScope.wait
  split
  · nofun
  · split
    · nofun
    · nofun

/-- Running a callback that was just started, with all that it starts in its turn, delivers all but
what is owed. `fuel` bounds how deep its script registers callbacks. -/
def Serves (before : List ScopeEvent) (fuel : Nat)
    (run : ScopeCallback → ScopeStage → Except Failure Unit × ScopeStage) : Prop :=
  ∀ (callback : ScopeCallback) (st : ScopeStage) (owed : List Nat),
    ScopeAct.depthAll callback.acts < fuel →
    Tripped before owed (st.noting (.started callback.number callback.name)) →
    Ends before owed (run callback st)

section Serving

variable {fuel : Nat} {run : ScopeCallback → ScopeStage → Except Failure Unit × ScopeStage}
  (hrun : Serves before fuel run)

include hrun

theorem Tripped.callAll (due : List ScopeCallback)
    (hdepth : ∀ c ∈ due, ScopeAct.depthAll c.acts < fuel)
    (ht : Tripped before (due.map (·.number) ++ owed) st) :
    Tripped before owed (callAll run due st) := by
  induction due generalizing st with
  | nil => exact ht
  | cons callback due ih =>
    obtain ⟨hfirst, hrest⟩ := List.forall_mem_cons.mp hdepth
    have hcalled := (hrun callback st _ hfirst (ht.start callback.name)).tripped
    rw [ScopeStage.callAll]
    generalize run callback st = a at hcalled ⊢
    obtain ⟨f | _, st'⟩ := a
    · exact ih hrest (hcalled.congr rfl rfl)
    · exact ih hrest hcalled

theorem Tripped.registered (ht : Tripped before owed st) (name : String) (acts : List ScopeAct)
    (hdepth : ScopeAct.depthAll acts < fuel) : Ends before owed (st.register run name acts) := by
  obtain ⟨since, hevents, hd⟩ := ht.events
  have hreg : registrations st.events = registrations before ++ registrations since := by
    rw [hevents, registrations_append]
    rfl
  have hfresh : st.scope.nextToken ∉ registrations before ++ registrations since := fun hn =>
    absurd (ht.below _ (hreg ▸ hn)) (Nat.lt_irrefl _)
  simp only [register, CancelScope.register, if_pos ht.closed]
  have hcalled := hrun ⟨st.scope.nextToken, name, acts⟩
    ({ st with scope := { st.scope with nextToken := st.scope.nextToken + 1 } }.noting
      (.registered st.scope.nextToken)) owed hdepth (by
      refine ⟨ht.closed, ht.cleared, ⟨_, ?_, hd.register _ name hfresh⟩, fun n hn => ?_⟩
      · simp only [noting, hevents, List.append_assoc, List.cons_append, List.nil_append]
      · simp only [noting, registrations_append, List.mem_append] at hn
        rcases hn with (hn | hn) | hn
        · exact Nat.lt_succ_of_lt (ht.below n hn)
        · rw [List.mem_singleton.mp hn]
          exact Nat.lt_succ_self _
        · exact absurd hn List.not_mem_nil)
  generalize run _ _ = a at hcalled ⊢
  obtain ⟨hfinished, htripped⟩ := hcalled
  obtain ⟨f | _, st'⟩ := a
  · exact ⟨fun hf => hfinished (by cases hf; rfl), htripped⟩
  · refine ⟨fun hf => ?_, htripped.congr rfl rfl⟩
    cases hf

omit hrun in
theorem Tripped.unregistered (ht : Tripped before owed st) (name : String) :
    Tripped before owed (st.unregister name) := by
  unfold unregister
  split
  · rename_i number isKept hlookup
    have hsame : Tripped before owed
        { st with scope := if isKept then st.scope.unregister number else st.scope } := by
      cases isKept with
      | false => exact ht.congr rfl rfl
      | true =>
        refine ⟨ht.closed, ?_, ht.events, ht.below⟩
        simp only [if_true, CancelScope.unregister, ht.cleared, List.filter_nil]
    refine hsame.skip (.unregistered number) rfl rfl fun k hk => ?_
    cases hk
  · exact ht

theorem Tripped.performWith (ht : Tripped before owed st) (act : ScopeAct)
    (hdepth : act.depth ≤ fuel) : Ends before owed (performWith run act st) := by
  have hok : ∀ a : ScopeAnswer, (.ok a : Except Failure ScopeAnswer) ≠ .error .unfinished := by
    intro a hf
    cases hf
  have hact : Ends before owed (carryOut run act st) := by
    cases act with
    | onCancel name acts => exact ht.registered hrun name acts hdepth
    | unregister name => exact ⟨hok _, ht.unregistered name⟩
    | cancel =>
      -- a scope that was cancelled before hands nothing over
      simp only [carryOut, cancel, CancelScope.trip, ht.closed, if_true]
      refine ⟨hok _, ht.skip .cancelled rfl rfl fun k hk => ?_⟩
      cases hk
    | isCancelled => exact ⟨hok _, ht⟩
    | wait x => exact ⟨wait_finished st.scope x _, ht⟩
    | sleep x => exact ⟨wait_finished st.scope x _, ht⟩
    | countPending => exact ⟨hok _, ht⟩
    | fail m =>
      refine ⟨fun hf => ?_, ht⟩
      cases hf
  refine ⟨hact.finished, hact.tripped.skip _ rfl rfl ?_⟩
  rintro k ⟨⟩
  show (carryOut run act st).2.scope.pending.length = 0
  rw [hact.tripped.cleared, List.length_nil]

theorem Tripped.performAll (ht : Tripped before owed st) (acts : List ScopeAct)
    (hdepth : ScopeAct.depthAll acts ≤ fuel) : Ends before owed (performAll run acts st) := by
  induction acts generalizing st with
  | nil => exact ⟨nofun, ht⟩
  | cons act acts ih =>
    obtain ⟨hfirst, hrest⟩ := Nat.max_le.mp hdepth
    obtain ⟨hfinished, hperformed⟩ := ht.performWith hrun act hfirst
    rw [ScopeStage.performAll]
    generalize ScopeStage.performWith run act st = a at hfinished hperformed ⊢
    obtain ⟨f | _, st'⟩ := a
    · exact ⟨fun hf => hfinished (by cases hf; rfl), hperformed⟩
    · exact ih hperformed hrest

end Serving

/-- Each callback hands on its script to callbacks that register less deep. -/
theorem call_serves (before : List ScopeEvent) (fuel : Nat) : Serves before fuel (call fuel) := by
  induction fuel with
  | zero => exact fun _ _ _ hdepth _ => absurd hdepth (Nat.not_lt_zero _)
  | succ fuel ih =>
    intro callback st owed hdepth ht
    exact ht.performAll ih callback.acts (Nat.le_of_lt_succ hdepth)

/-! ### Programs -/

/-- The cancellation hands over what is pending, in its order. -/
theorem Waiting.cancelled {fuel : Nat}
    {run : ScopeCallback → ScopeStage → Except Failure Unit × ScopeStage} (hw : Waiting st)
    (hrun : Serves st.events fuel run) (hdepth : st.depth < fuel) :
    Tripped st.events [] (st.cancel run) := by
  simp only [cancel, CancelScope.trip, hw.isOpen, Bool.false_eq_true, if_false]
  have hnumbers : (st.scope.pending.map (·.2)).map (·.number) = kept st.events := by
    rw [List.map_map, ← hw.pending]
    exact List.map_congr_left fun p hp => (hw.tokens p hp).symm
  refine Tripped.callAll hrun _ (fun c hc => ?_) ?_
  · obtain ⟨p, hp, rfl⟩ := List.mem_map.mp hc
    exact Nat.lt_of_le_of_lt (le_depth st p hp) hdepth
  · refine ⟨rfl, rfl, ⟨[], rfl, ?_, rfl, ?_, fun k hk => absurd hk List.not_mem_nil⟩, fun n hn => ?_⟩
    · rw [hnumbers, List.append_nil]
      rfl
    · exact (List.append_nil _).symm ▸ hw.distinct
    · exact hw.below n (registrations_snoc st.events .cancelled rfl ▸ hn)

/-- A stage of a program: the scope waits, or it is cancelled and owes nothing. -/
def Reached (st : ScopeStage) : Prop :=
  Waiting st ∨ ∃ before, Quiet before ∧ Tripped before [] st

theorem Reached.perform (hr : Reached st) (act : ScopeAct) :
    (perform act st).1 ≠ .error .unfinished ∧ Reached (perform act st).2 := by
  have hact : act.depth ≤ max act.depth st.depth + 1 :=
    Nat.le_succ_of_le (Nat.le_max_left _ _)
  rcases hr with hw | ⟨before, hq, ht⟩
  · have hdepth : st.depth < max act.depth st.depth + 1 :=
      Nat.lt_succ_of_le (Nat.le_max_right _ _)
    cases act with
    | onCancel name acts =>
      obtain ⟨hok, hregistered⟩ := hw.registered (call (max (ScopeAct.onCancel name acts).depth
        st.depth + 1)) name acts
      exact ⟨fun hf => absurd (hok.symm.trans hf) nofun, .inl (hregistered.performed _)⟩
    | unregister name => exact ⟨nofun, .inl ((hw.unregistered name).performed _)⟩
    | cancel =>
      have ht := hw.cancelled (call_serves st.events _) hdepth
      refine ⟨nofun, .inr ⟨st.events, hw.quiet, ht.skip _ rfl rfl ?_⟩⟩
      rintro k ⟨⟩
      show (st.cancel _).scope.pending.length = 0
      rw [ht.cleared, List.length_nil]
    | isCancelled => exact ⟨nofun, .inl (hw.performed _)⟩
    | wait x => exact ⟨wait_finished st.scope x _, .inl (hw.performed _)⟩
    | sleep x => exact ⟨wait_finished st.scope x _, .inl (hw.performed _)⟩
    | countPending => exact ⟨nofun, .inl (hw.performed _)⟩
    | fail m => exact ⟨nofun, .inl (hw.performed _)⟩
  · obtain ⟨hfinished, htripped⟩ := ht.performWith (call_serves before _) act hact
    exact ⟨hfinished, .inr ⟨before, hq, htripped⟩⟩

theorem rehearse_reached (acts : List ScopeAct) : Reached (rehearse acts) := by
  induction acts using List.reverseRecOn with
  | nil => exact .inl opening_waiting
  | append_singleton acts act ih =>
    rw [rehearse, List.foldl_append]
    exact (ih.perform act).2

/-- In every program the acts leave what happened on record by the rules, those of the callbacks
that are started among them, and where the program cancels, that is there. By this record no
callback is started twice, and one is started just where the scope is cancelled at some time and it
was not taken back before that; those that were pending are started in the order of their
registration; no act that ends after the cancellation leaves one pending; and no act is broken
off. -/
theorem rehearse_delivers_once (acts : List ScopeAct) :
    let es := (rehearse acts).events
    (∃ cs, Plays ⟨[], []⟩ acts ⟨cs, es⟩) ∧ (.cancel ∈ acts → .cancelled ∈ es) ∧
      (starts es).Nodup ∧
      (∀ n, n ∈ starts es ↔
        n ∈ registrations es ∧ .cancelled ∈ es ∧ .unregistered n ∉ beforeCancel es) ∧
      (.cancelled ∈ es →
        (starts es).filter (· ∈ kept (beforeCancel es)) = kept (beforeCancel es)) ∧
      (∀ k, .performed k ∈ sinceCancel es → k = 0) ∧
      ((rehearse acts).scope.cancelled = true → (rehearse acts).scope.pending = []) ∧
      ∀ act, (perform act (rehearse acts)).1 ≠ .error .unfinished := by
  intro es
  obtain ⟨r, hplays, hshows, hcancel⟩ := rehearse_plays acts
  rw [← hshows.events] at hcancel
  have hrecord : (⟨r.registered, es⟩ : Record) = r := congrArg (Record.mk _) hshows.events
  refine ⟨⟨r.registered, hrecord.symm ▸ hplays⟩, hcancel, ?_⟩
  have hreached := rehearse_reached acts
  have hfinished : ∀ act, (perform act (rehearse acts)).1 ≠ .error .unfinished := fun act =>
    (hreached.perform act).1
  rcases hreached with hw | ⟨before, hq, ht⟩
  · have hstarts : starts es = [] := hw.quiet.unstarted
    have hno : ScopeEvent.cancelled ∉ es := hw.quiet.uncancelled
    refine ⟨hstarts ▸ List.nodup_nil, fun n => ?_, fun hc => absurd hc hno, fun k hk => ?_,
      fun hc => absurd (hw.isOpen.symm.trans hc) nofun, hfinished⟩
    · rw [hstarts]
      exact ⟨fun hn => absurd hn List.not_mem_nil, fun hn => absurd hn.2.1 hno⟩
    · rw [sinceCancel_of_not_mem es hno] at hk
      exact absurd hk List.not_mem_nil
  · obtain ⟨since, hevents, hd⟩ := ht.events
    have hes : es = before ++ .cancelled :: since := hevents
    have hbefore : beforeCancel es = before := hes ▸ beforeCancel_append before since hq.uncancelled
    have hstarts : starts es = starts since := by
      rw [hes, starts_append, hq.unstarted]
      rfl
    have hreg : registrations es = registrations before ++ registrations since := by
      rw [hes, registrations_append]
      rfl
    have hcancelled : ScopeEvent.cancelled ∈ es :=
      hes ▸ List.mem_append_right before List.mem_cons_self
    rw [hbefore, hstarts, hreg]
    refine ⟨hd.starts_nodup, fun n => ?_, fun _ => hd.order, fun k hk => ?_, fun _ => ht.cleared,
      hfinished⟩
    · rw [hd.started_iff hq n]
      exact and_congr_right fun _ => (and_iff_right hcancelled).symm
    · rw [hes, sinceCancel_append before since hq.uncancelled] at hk
      rcases List.mem_cons.mp hk with hk | hk
      · cases hk
      · exact hd.idle k hk

/-- A callback that cancels again, registers another and fails: the one registered last comes before
the one that was waiting, and none is lost. -/
example : starts (rehearse [.onCancel "a" [.cancel, .onCancel "b" [.unregister "c"], .fail "no"],
    .onCancel "c" [], .onCancel "d" [], .unregister "d", .cancel, .cancel]).events = [0, 3, 1] := by
  decide

end ScopeStage

end LayerQuota.Rehearsal
