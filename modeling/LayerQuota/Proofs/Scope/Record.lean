import LayerQuota.Proofs.Lookup
import LayerQuota.Rehearsal.Scope
import Mathlib.Data.List.Induction
import Mathlib.Data.List.MinMax
/-!
# What acts leave on record

Performing an act adds to a record of what happened, act by act and callback by callback. The rules
know no scope: whether it is cancelled, and which callbacks wait for that, is read off the record.
Every program on a scope plays by these rules.
-/

namespace LayerQuota.Rehearsal

/-- What can be told of a scope from outside: the callbacks that were registered, in their order,
and what happened. -/
structure Record where
  registered : List ScopeCallback
  events : List ScopeEvent

namespace Record

def noting (r : Record) (e : ScopeEvent) : Record := { r with events := r.events ++ [e] }

def registering (r : Record) (c : ScopeCallback) : Record :=
  ⟨r.registered ++ [c], r.events ++ [.registered c.number]⟩

/-- The callbacks that wait: all that were not taken back, as long as nothing was cancelled. -/
def due (r : Record) : List ScopeCallback :=
  if .cancelled ∈ r.events then []
  else r.registered.filter fun c => .unregistered c.number ∉ r.events

/-- The callback that was registered last under a name. -/
def last? (r : Record) (name : String) : Option ScopeCallback :=
  r.registered.reverse.find? (·.name == name)

/-- A record at the end of an act. -/
def ended (r : Record) : Record := r.noting (.performed r.due.length)

end Record

mutual

/-- What performing an act adds to a record, and whether the act went through. To take a callback
back is too late once the scope is cancelled, and means nothing then. -/
inductive Enacts : Record → ScopeAct → Bool → Record → Prop
  | kept (r : Record) (c : ScopeCallback) (hnew : ∀ b ∈ r.registered, b.number ≠ c.number)
    (hopen : .cancelled ∉ r.events) :
    Enacts r (.onCancel c.name c.acts) true (r.registering c).ended
  | calledAtOnce (r r' : Record) (c : ScopeCallback) (ok : Bool)
    (hnew : ∀ b ∈ r.registered, b.number ≠ c.number) (hlate : .cancelled ∈ r.events)
    (hcall : Calls (r.registering c) c ok r') : Enacts r (.onCancel c.name c.acts) ok r'.ended
  | tookBack (r : Record) (c : ScopeCallback) (hc : c ∈ r.registered)
    (hlast : .cancelled ∉ r.events → r.last? c.name = some c) :
    Enacts r (.unregister c.name) true (r.noting (.unregistered c.number)).ended
  | unknown (r : Record) (name : String) (hno : .cancelled ∉ r.events → r.last? name = none) :
    Enacts r (.unregister name) true r.ended
  | cancelled (r r' : Record) (hdue : CallsAll (r.noting .cancelled) r.due r') :
    Enacts r .cancel true r'.ended
  | asked (r : Record) : Enacts r .isCancelled true r.ended
  | counted (r : Record) : Enacts r .countPending true r.ended
  | waited (r : Record) (x : Number.Binary64) :
    Enacts r (.wait x) (.cancelled ∈ r.events || CancelScope.canWait x) r.ended
  | slept (r : Record) (x : Number.Binary64) :
    Enacts r (.sleep x) (.cancelled ∈ r.events || CancelScope.canWait x) r.ended
  | failed (r : Record) (m : String) : Enacts r (.fail m) false r.ended

/-- A script is performed act by act, up to the first one that does not go through. -/
inductive EnactsAll : Record → List ScopeAct → Bool → Record → Prop
  | done (r : Record) : EnactsAll r [] true r
  | next (r r₁ r' : Record) (act : ScopeAct) (acts : List ScopeAct) (ok : Bool)
    (ha : Enacts r act true r₁) (hrest : EnactsAll r₁ acts ok r') :
    EnactsAll r (act :: acts) ok r'
  | brokenOff (r r' : Record) (act : ScopeAct) (acts : List ScopeAct)
    (ha : Enacts r act false r') : EnactsAll r (act :: acts) false r'

/-- A callback is started and performs its script. -/
inductive Calls : Record → ScopeCallback → Bool → Record → Prop
  | started (r r' : Record) (c : ScopeCallback) (ok : Bool)
    (hacts : EnactsAll (r.noting (.started c.number c.name)) c.acts ok r') : Calls r c ok r'

/-- Callbacks are called one after the other, whatever becomes of them. -/
inductive CallsAll : Record → List ScopeCallback → Record → Prop
  | none (r : Record) : CallsAll r [] r
  | next (r r₁ r' : Record) (c : ScopeCallback) (cs : List ScopeCallback) (ok : Bool)
    (hc : Calls r c ok r₁) (hrest : CallsAll r₁ cs r') : CallsAll r (c :: cs) r'

end

/-- The acts of a program are all performed, whatever becomes of them. -/
inductive Plays : Record → List ScopeAct → Record → Prop
  | nil (r : Record) : Plays r [] r
  | snoc (r r₁ r' : Record) (acts : List ScopeAct) (act : ScopeAct) (ok : Bool)
    (hacts : Plays r acts r₁) (ha : Enacts r₁ act ok r') : Plays r (acts ++ [act]) r'

namespace ScopeStage

/-- A stage that a record tells the truth of. -/
structure Shows (st : ScopeStage) (r : Record) : Prop where
  events : st.events = r.events
  flag : st.scope.cancelled = decide (.cancelled ∈ r.events)
  pending : st.scope.pending = r.due.map fun c => (c.number, c)
  below : ∀ c ∈ r.registered, c.number < st.scope.nextToken
  known : ∀ n, .unregistered n ∈ r.events → n < st.scope.nextToken
  handles : ∀ x ∈ st.handles, ∃ c ∈ r.registered, c.name = x.1 ∧ c.number = x.2.number
  current : .cancelled ∉ r.events →
    st.handles = r.registered.reverse.map fun c => (c.name, ⟨c.number, true⟩)

/-- What an act comes to, told by a record that grew from another. -/
structure Tells {α : Type} (r : Record) (a : Except Failure α × ScopeStage) (ok : Bool)
    (r' : Record) : Prop where
  isOk : a.1.isOk = ok
  grown : r.registered ⊆ r'.registered
  lasting : .cancelled ∈ r.events → .cancelled ∈ r'.events
  shows : Shows a.2 r'

variable {st : ScopeStage} {r r' : Record}

theorem opening_shows : Shows opening ⟨[], []⟩ :=
  ⟨rfl, rfl, rfl, fun _ hc => absurd hc List.not_mem_nil, fun _ hn => absurd hn List.not_mem_nil,
    fun _ hx => absurd hx List.not_mem_nil, fun _ => rfl⟩

theorem due_of_cancelled (hlate : .cancelled ∈ r.events) : r.due = [] := if_pos hlate

theorem due_of_open (hopen : .cancelled ∉ r.events) :
    r.due = r.registered.filter fun c => .unregistered c.number ∉ r.events :=
  if_neg hopen

/-! ### Events that change nothing on the scope -/

theorem mem_snoc_of_ne {es : List ScopeEvent} {e e' : ScopeEvent} (he : e' ≠ e) :
    e' ∈ es ++ [e] ↔ e' ∈ es := by
  rw [List.mem_append, List.mem_singleton]
  exact or_iff_left he

theorem due_noting (e : ScopeEvent) (hc : e ≠ .cancelled) (hu : ∀ n, e ≠ .unregistered n) :
    (r.noting e).due = r.due := by
  simp only [Record.due, Record.noting, mem_snoc_of_ne hc.symm, mem_snoc_of_ne (hu _).symm]

theorem Shows.noting (hs : Shows st r) (e : ScopeEvent) (hc : e ≠ .cancelled)
    (hu : ∀ n, e ≠ .unregistered n) : Shows (st.noting e) (r.noting e) where
  events := congrArg (· ++ [e]) hs.events
  flag := hs.flag.trans (decide_eq_decide.mpr (mem_snoc_of_ne hc.symm).symm)
  pending := (due_noting e hc hu).symm ▸ hs.pending
  below := hs.below
  known n hn := hs.known n ((mem_snoc_of_ne (hu n).symm).mp hn)
  handles := hs.handles
  current hopen := hs.current fun hlate => hopen (List.mem_append_left _ hlate)

theorem Shows.ended (hs : Shows st r) :
    Shows (st.noting (.performed st.scope.pending.length)) r.ended := by
  have hcount : st.scope.pending.length = r.due.length := by rw [hs.pending, List.length_map]
  rw [hcount]
  exact hs.noting _ nofun nofun

/-! ### Registering and taking back -/

theorem Shows.fresh (hs : Shows st r) : ∀ b ∈ r.registered, b.number ≠ st.scope.nextToken :=
  fun b hb => Nat.ne_of_lt (hs.below b hb)

/-- In a scope that is not cancelled a callback is kept for later. -/
theorem Shows.kept (hs : Shows st r) (hopen : .cancelled ∉ r.events)
    (run : ScopeCallback → ScopeStage → Except Failure Unit × ScopeStage) (name : String)
    (acts : List ScopeAct) :
    Tells r (st.register run name acts) true
      (r.registering ⟨st.scope.nextToken, name, acts⟩) := by
  have hflag : st.scope.cancelled = false := hs.flag.trans (decide_eq_false hopen)
  have hnew : .unregistered st.scope.nextToken ∉ r.events := fun hn =>
    absurd (hs.known _ hn) (Nat.lt_irrefl _)
  have hopen' : .cancelled ∉ (r.registering ⟨st.scope.nextToken, name, acts⟩).events :=
    fun hlate => hopen ((mem_snoc_of_ne (by simp)).mp hlate)
  have hdue : (r.registering ⟨st.scope.nextToken, name, acts⟩).due =
      r.due ++ [⟨st.scope.nextToken, name, acts⟩] := by
    rw [due_of_open hopen', due_of_open hopen]
    simp only [Record.registering, List.filter_append, List.mem_append, List.mem_singleton,
      reduceCtorEq, or_false, List.filter_cons, hnew, not_false_eq_true, decide_true, if_true,
      List.filter_nil]
  simp only [register, CancelScope.register, hflag, Bool.false_eq_true, if_false]
  refine ⟨rfl, List.subset_append_left _ _, fun hlate => absurd hlate hopen, ?_, ?_, ?_,
    fun c hc => ?_, fun n hn => ?_, fun x hx => ?_, fun _ => ?_⟩
  · exact congrArg (· ++ [_]) hs.events
  · exact (decide_eq_false hopen').symm
  · rw [hdue, List.map_append]
    exact congrArg (· ++ [_]) hs.pending
  · rcases List.mem_append.mp hc with hc | hc
    · exact Nat.lt_succ_of_lt (hs.below c hc)
    · rw [List.mem_singleton.mp hc]
      exact Nat.lt_succ_self _
  · exact Nat.lt_succ_of_lt (hs.known n ((mem_snoc_of_ne (by simp)).mp hn))
  · rcases List.mem_cons.mp hx with rfl | hx
    · exact ⟨_, List.mem_append_right _ (List.mem_singleton.mpr rfl), rfl, rfl⟩
    · obtain ⟨c, hc, hx⟩ := hs.handles x hx
      exact ⟨c, List.mem_append_left _ hc, hx⟩
  · simp only [Record.registering, List.reverse_append, List.reverse_cons, List.reverse_nil,
      List.nil_append, List.cons_append, List.map_cons]
    exact congrArg ((name, (⟨st.scope.nextToken, true⟩ : ScopeHandle)) :: ·) (hs.current hopen)

/-- In a cancelled scope a registration is noted, and its callback is up to be called. -/
theorem Shows.announced (hs : Shows st r) (hlate : .cancelled ∈ r.events) (name : String)
    (acts : List ScopeAct) :
    Shows ({ st with scope := { st.scope with nextToken := st.scope.nextToken + 1 } }.noting
        (.registered st.scope.nextToken))
      (r.registering ⟨st.scope.nextToken, name, acts⟩) := by
  have hlate' : .cancelled ∈ (r.registering ⟨st.scope.nextToken, name, acts⟩).events :=
    List.mem_append_left _ hlate
  refine ⟨?_, ?_, ?_, fun c hc => ?_, fun n hn => ?_, fun x hx => ?_, fun hopen => ?_⟩
  · exact congrArg (· ++ [_]) hs.events
  · exact hs.flag.trans ((decide_eq_true hlate).trans (decide_eq_true hlate').symm)
  · rw [due_of_cancelled hlate']
    exact hs.pending.trans (by rw [due_of_cancelled hlate])
  · rcases List.mem_append.mp hc with hc | hc
    · exact Nat.lt_succ_of_lt (hs.below c hc)
    · rw [List.mem_singleton.mp hc]
      exact Nat.lt_succ_self _
  · exact Nat.lt_succ_of_lt (hs.known n ((mem_snoc_of_ne (by simp)).mp hn))
  · obtain ⟨c, hc, hx⟩ := hs.handles x hx
    exact ⟨c, List.mem_append_left _ hc, hx⟩
  · exact absurd hlate' hopen

/-- A handle that is held already, of a callback that was registered. -/
theorem Shows.holding (hs : Shows st r) (hlate : .cancelled ∈ r.events) (c : ScopeCallback)
    (hc : c ∈ r.registered) (isKept : Bool) : Shows (st.holding c.name ⟨c.number, isKept⟩) r :=
  ⟨hs.events, hs.flag, hs.pending, hs.below, hs.known,
    List.forall_mem_cons.mpr ⟨⟨c, hc, rfl, rfl⟩, hs.handles⟩, fun hopen => absurd hlate hopen⟩

theorem lookup_handles (cs : List ScopeCallback) (name : String) :
    (cs.map fun c => (c.name, (⟨c.number, true⟩ : ScopeHandle))).lookup name =
      (cs.find? (·.name == name)).map fun c => ⟨c.number, true⟩ := by
  induction cs with
  | nil => rfl
  | cons c cs ih =>
    rw [List.map_cons, List.lookup_cons, List.find?_cons, ih, BEq.comm]
    cases c.name == name with
    | true => rfl
    | false => rfl

theorem due_unregistered (n : Nat) :
    (r.noting (.unregistered n)).due = r.due.filter fun c => c.number != n := by
  by_cases hlate : .cancelled ∈ r.events
  · rw [due_of_cancelled hlate]
    exact due_of_cancelled (List.mem_append_left _ hlate)
  · have hopen : .cancelled ∉ (r.noting (.unregistered n)).events :=
      fun hc => hlate ((mem_snoc_of_ne (by simp)).mp hc)
    rw [due_of_open hopen, due_of_open hlate, List.filter_filter]
    refine List.filter_congr fun c _ => ?_
    simp only [Record.noting, List.mem_append, List.mem_singleton, ScopeEvent.unregistered.injEq]
    by_cases hn : c.number = n
    · simp [hn]
    · simp [hn]

/-- A callback that is taken back waits no longer, if it waited at all. -/
theorem Shows.takingBack (hs : Shows st r) (c : ScopeCallback) (hc : c ∈ r.registered)
    (isKept : Bool) (hkept : .cancelled ∉ r.events → isKept = true) :
    Shows ({ st with scope := if isKept then st.scope.unregister c.number else st.scope }.noting
      (.unregistered c.number)) (r.noting (.unregistered c.number)) := by
  have hscope : (if isKept then st.scope.unregister c.number else st.scope) =
      st.scope.unregister c.number := by
    cases isKept with
    | true => rfl
    | false =>
      have hlate : .cancelled ∈ r.events := Decidable.not_not.mp fun hopen => nomatch hkept hopen
      have hnone : st.scope.pending = [] := by rw [hs.pending, due_of_cancelled hlate, List.map_nil]
      rw [CancelScope.unregister, hnone]
      exact (congrArg (CancelScope.mk _ _) hnone)
  rw [hscope]
  refine ⟨congrArg (· ++ [_]) hs.events, ?_, ?_, hs.below, fun n hn => ?_, hs.handles,
    fun hopen => hs.current fun hlate => hopen (List.mem_append_left _ hlate)⟩
  · exact hs.flag.trans (decide_eq_decide.mpr (mem_snoc_of_ne (by simp)).symm)
  · rw [due_unregistered]
    show st.scope.pending.filter _ = _
    rw [hs.pending, List.filter_map]
    rfl
  · rcases List.mem_append.mp hn with hn | hn
    · exact hs.known n hn
    · cases List.mem_singleton.mp hn
      exact hs.below c hc

theorem Shows.unregistered (hs : Shows st r) (name : String) :
    ∃ r', Enacts r (.unregister name) true r'.ended ∧ r'.registered = r.registered ∧
      (.cancelled ∈ r.events → .cancelled ∈ r'.events) ∧ Shows (st.unregister name) r' := by
  unfold unregister
  split
  · rename_i number isKept hlookup
    have hfound : ∃ c ∈ r.registered, c.name = name ∧ c.number = number ∧
        (.cancelled ∉ r.events → r.last? name = some c ∧ isKept = true) := by
      by_cases hlate : .cancelled ∈ r.events
      · obtain ⟨c, hc, hname, hnumber⟩ :=
          hs.handles _ (mem_of_lookup name ⟨number, isKept⟩ st.handles hlookup)
        exact ⟨c, hc, hname, hnumber, fun hopen => absurd hlate hopen⟩
      · rw [hs.current hlate, lookup_handles, Option.map_eq_some_iff] at hlookup
        obtain ⟨c, hlast, hhandle⟩ := hlookup
        cases hhandle
        have hname := List.find?_some hlast
        exact ⟨c, List.mem_reverse.mp (List.mem_of_find?_eq_some hlast), by simpa using hname, rfl,
          fun _ => ⟨hlast, rfl⟩⟩
    obtain ⟨c, hc, rfl, rfl, hlast⟩ := hfound
    exact ⟨_, .tookBack r c hc fun hopen => (hlast hopen).1, rfl, List.mem_append_left _,
      hs.takingBack c hc isKept fun hopen => (hlast hopen).2⟩
  · rename_i hlookup
    refine ⟨r, .unknown r name fun hopen => ?_, rfl, id, hs⟩
    rw [hs.current hopen, lookup_handles, Option.map_eq_none_iff] at hlookup
    exact hlookup

/-! ### Cancelling -/

/-- A scope that is cancelled hands over what was due. -/
theorem Shows.tripped (hs : Shows st r) :
    st.scope.trip.1 = r.due ∧
      Shows ({ st with scope := st.scope.trip.2 }.noting .cancelled) (r.noting .cancelled) := by
  have hlate' : .cancelled ∈ (r.noting .cancelled).events :=
    List.mem_append_right _ (List.mem_singleton.mpr rfl)
  have htrip : st.scope.trip = (r.due, { st.scope with cancelled := true, pending := [] }) := by
    by_cases hlate : .cancelled ∈ r.events
    · have hflag : st.scope.cancelled = true := hs.flag.trans (decide_eq_true hlate)
      have hnone : st.scope.pending = [] := by rw [hs.pending, due_of_cancelled hlate, List.map_nil]
      rw [CancelScope.trip, if_pos hflag, due_of_cancelled hlate, ← hflag, ← hnone]
    · have hflag : st.scope.cancelled = false := hs.flag.trans (decide_eq_false hlate)
      simp only [CancelScope.trip, hflag, Bool.false_eq_true, if_false]
      rw [hs.pending, List.map_map]
      exact congrArg (·, _) (List.map_id _)
  rw [htrip]
  refine ⟨rfl, congrArg (· ++ [_]) hs.events, (decide_eq_true hlate').symm, ?_, hs.below,
    fun n hn => ?_, hs.handles, fun hopen => absurd hlate' hopen⟩
  · rw [due_of_cancelled hlate']
    rfl
  · exact hs.known n ((mem_snoc_of_ne (by simp)).mp hn)

/-! ### Running callbacks -/

/-- Running a callback in a cancelled scope is to call it by the rules. `fuel` bounds how deep its
script registers callbacks. -/
def CallsByRule (fuel : Nat)
    (run : ScopeCallback → ScopeStage → Except Failure Unit × ScopeStage) : Prop :=
  ∀ (c : ScopeCallback) (st : ScopeStage) (r : Record), ScopeAct.depthAll c.acts < fuel →
    Shows st r → .cancelled ∈ r.events → ∃ ok r', Calls r c ok r' ∧ Tells r (run c st) ok r'

section ByRule

variable {fuel : Nat} {run : ScopeCallback → ScopeStage → Except Failure Unit × ScopeStage}
  (hrun : CallsByRule fuel run)

include hrun

theorem Shows.callAll (hs : Shows st r) (hlate : .cancelled ∈ r.events)
    (due : List ScopeCallback) (hdepth : ∀ c ∈ due, ScopeAct.depthAll c.acts < fuel) :
    ∃ r', CallsAll r due r' ∧ r.registered ⊆ r'.registered ∧ .cancelled ∈ r'.events ∧
      Shows (callAll run due st) r' := by
  induction due generalizing st r with
  | nil => exact ⟨r, .none r, List.Subset.refl _, hlate, hs⟩
  | cons c due ih =>
    obtain ⟨hfirst, hrest⟩ := List.forall_mem_cons.mp hdepth
    obtain ⟨ok, r₁, hcall, -, hgrown, hlasting, hs₁⟩ := hrun c st r hfirst hs hlate
    rw [ScopeStage.callAll]
    generalize run c st = a at hs₁ ⊢
    have hnoted : ∀ journal, Shows { a.2 with journal } r₁ := fun _ =>
      ⟨hs₁.events, hs₁.flag, hs₁.pending, hs₁.below, hs₁.known, hs₁.handles, hs₁.current⟩
    obtain ⟨f | _, st₁⟩ := a
    · obtain ⟨r', hall, hgrown', hlate', hs'⟩ := ih (hnoted _) (hlasting hlate) hrest
      exact ⟨r', .next r r₁ r' c due ok hcall hall, List.Subset.trans hgrown hgrown', hlate', hs'⟩
    · obtain ⟨r', hall, hgrown', hlate', hs'⟩ := ih hs₁ (hlasting hlate) hrest
      exact ⟨r', .next r r₁ r' c due ok hcall hall, List.Subset.trans hgrown hgrown', hlate', hs'⟩

theorem Shows.registered (hs : Shows st r) (name : String) (acts : List ScopeAct)
    (hdepth : ScopeAct.depthAll acts < fuel) :
    ∃ ok r', Enacts r (.onCancel name acts) ok r'.ended ∧
      Tells r (st.register run name acts) ok r' := by
  by_cases hlate : .cancelled ∈ r.events
  · have hflag : st.scope.cancelled = true := hs.flag.trans (decide_eq_true hlate)
    have hlate' : .cancelled ∈ (r.registering ⟨st.scope.nextToken, name, acts⟩).events :=
      List.mem_append_left _ hlate
    obtain ⟨ok, r', hcall, hok, hgrown, hlasting, hs'⟩ :=
      hrun ⟨st.scope.nextToken, name, acts⟩ _ _ hdepth (hs.announced hlate name acts) hlate'
    refine ⟨ok, r', .calledAtOnce r r' ⟨st.scope.nextToken, name, acts⟩ ok hs.fresh hlate hcall, ?_⟩
    have hc : ⟨st.scope.nextToken, name, acts⟩ ∈ r'.registered :=
      hgrown (List.mem_append_right _ (List.mem_singleton.mpr rfl))
    have hbefore : r.registered ⊆ r'.registered :=
      List.Subset.trans (List.subset_append_left _ _) hgrown
    simp only [register, CancelScope.register, if_pos hflag]
    generalize run _ _ = a at hok hs' ⊢
    obtain ⟨f | _, st₁⟩ := a
    · exact ⟨hok, hbefore, fun _ => hlasting hlate', hs'⟩
    · exact ⟨hok, hbefore, fun _ => hlasting hlate',
        hs'.holding (hlasting hlate') ⟨st.scope.nextToken, name, acts⟩ hc false⟩
  · exact ⟨true, _, .kept r ⟨st.scope.nextToken, name, acts⟩ hs.fresh hlate,
      hs.kept hlate run name acts⟩

/-- An act is performed by the rules, if what is due, should it cancel, is no deeper than the runs
go. -/
theorem Shows.performWith (hs : Shows st r) (act : ScopeAct) (hdepth : act.depth ≤ fuel)
    (hdue : ∀ c ∈ r.due, ScopeAct.depthAll c.acts < fuel) :
    ∃ ok r', Enacts r act ok r' ∧ Tells r (performWith run act st) ok r' ∧
      (act = .cancel → .cancelled ∈ r'.events) := by
  -- the end of an act is noted alike for all of them
  have hend : ∀ {a : Except Failure ScopeAnswer × ScopeStage} {ok r₁}, carryOut run act st = a →
      Enacts r act ok r₁.ended → Tells r a ok r₁ → (act = .cancel → .cancelled ∈ r₁.events) →
      ∃ ok r', Enacts r act ok r' ∧ Tells r (ScopeStage.performWith run act st) ok r' ∧
        (act = .cancel → .cancelled ∈ r'.events) := by
    rintro _ ok r₁ rfl ha ⟨hok, hgrown, hlasting, hs₁⟩ hcancel
    exact ⟨ok, r₁.ended, ha,
      ⟨hok, hgrown, fun hlate => List.mem_append_left _ (hlasting hlate), hs₁.ended⟩,
      fun hact => List.mem_append_left _ (hcancel hact)⟩
  have hwait : ∀ (x : Number.Binary64) (f : Bool → ScopeAnswer),
      Tells r ((st.scope.wait x).map f, st)
        (.cancelled ∈ r.events || CancelScope.canWait x) r := by
    intro x f
    refine ⟨?_, List.Subset.refl _, id, hs⟩
    rw [CancelScope.wait, hs.flag]
    by_cases hlate : .cancelled ∈ r.events
    · simp only [hlate, decide_true, if_true, Bool.true_or]
      rfl
    · simp only [hlate, decide_false, Bool.false_eq_true, if_false, Bool.false_or]
      cases CancelScope.canWait x with
      | true => rfl
      | false => rfl
  cases act with
  | onCancel name acts =>
    obtain ⟨ok, r', ha, ht⟩ := hs.registered hrun name acts hdepth
    exact hend rfl ha ht nofun
  | unregister name =>
    obtain ⟨r', ha, hsame, hlasting, hs'⟩ := hs.unregistered name
    exact hend rfl ha ⟨rfl, hsame ▸ List.Subset.refl _, hlasting, hs'⟩ nofun
  | cancel =>
    obtain ⟨hgiven, hs₁⟩ := hs.tripped
    obtain ⟨r', hall, hgrown, hlate, hs'⟩ := hs₁.callAll hrun
      (List.mem_append_right _ (List.mem_singleton.mpr rfl)) r.due hdue
    refine hend (a := (.ok .nothing, st.cancel run)) rfl (.cancelled r r' hall)
      ⟨rfl, hgrown, fun _ => hlate, ?_⟩ fun _ => hlate
    rw [← hgiven] at hs'
    exact hs'
  | isCancelled => exact hend rfl (.asked r) ⟨rfl, List.Subset.refl _, id, hs⟩ nofun
  | wait x => exact hend rfl (.waited r x) (hwait x _) nofun
  | sleep x => exact hend rfl (.slept r x) (hwait x _) nofun
  | countPending => exact hend rfl (.counted r) ⟨rfl, List.Subset.refl _, id, hs⟩ nofun
  | fail m => exact hend rfl (.failed r m) ⟨rfl, List.Subset.refl _, id, hs⟩ nofun

theorem Shows.performAll (hs : Shows st r) (hlate : .cancelled ∈ r.events)
    (acts : List ScopeAct) (hdepth : ScopeAct.depthAll acts ≤ fuel) :
    ∃ ok r', EnactsAll r acts ok r' ∧ Tells r (performAll run acts st) ok r' := by
  induction acts generalizing st r with
  | nil => exact ⟨true, r, .done r, rfl, List.Subset.refl _, id, hs⟩
  | cons act acts ih =>
    obtain ⟨hfirst, hrest⟩ := Nat.max_le.mp hdepth
    have hdue : ∀ c ∈ r.due, ScopeAct.depthAll c.acts < fuel := by
      rw [due_of_cancelled hlate]
      exact fun _ hc => absurd hc List.not_mem_nil
    obtain ⟨ok, r₁, ha, ⟨hok, hgrown, hlasting, hs₁⟩, -⟩ := hs.performWith hrun act hfirst hdue
    rw [ScopeStage.performAll]
    generalize ScopeStage.performWith run act st = a at hok hs₁ ⊢
    obtain ⟨f | _, st₁⟩ := a
    · cases hok
      exact ⟨false, r₁, .brokenOff r r₁ act acts ha, rfl, hgrown, hlasting, hs₁⟩
    · cases hok
      obtain ⟨ok, r', hall, hok, hgrown', hlasting', hs'⟩ := ih hs₁ (hlasting hlate) hrest
      exact ⟨ok, r', .next r r₁ r' act acts ok ha hall, hok, List.Subset.trans hgrown hgrown',
        fun hc => hlasting' (hlasting hc), hs'⟩

end ByRule

theorem call_byRule (fuel : Nat) : CallsByRule fuel (call fuel) := by
  induction fuel with
  | zero => exact fun _ _ _ hdepth => absurd hdepth (Nat.not_lt_zero _)
  | succ fuel ih =>
    intro c st r hdepth hs hlate
    obtain ⟨ok, r', hall, hok, hgrown, hlasting, hs'⟩ :=
      (hs.noting (.started c.number c.name) nofun nofun).performAll ih
        (List.mem_append_left _ hlate) c.acts (Nat.le_of_lt_succ hdepth)
    exact ⟨ok, r', .started r r' c ok hall, hok, hgrown,
      fun hc => hlasting (List.mem_append_left _ hc), hs'⟩

/-! ### Programs -/

theorem le_depth (st : ScopeStage) (p : Nat × ScopeCallback) (hp : p ∈ st.scope.pending) :
    ScopeAct.depthAll p.2.acts ≤ st.depth :=
  List.le_max_of_le' 0 (List.mem_map.mpr ⟨p, hp, rfl⟩) (Nat.le_refl _)

theorem Shows.perform (hs : Shows st r) (act : ScopeAct) :
    ∃ ok r', Enacts r act ok r' ∧ Tells r (perform act st) ok r' ∧
      (act = .cancel → .cancelled ∈ r'.events) := by
  refine hs.performWith (call_byRule _) act
    (Nat.le_succ_of_le (Nat.le_max_left _ _)) fun c hc => ?_
  have hpending : (c.number, c) ∈ st.scope.pending := by
    rw [hs.pending]
    exact List.mem_map.mpr ⟨c, hc, rfl⟩
  exact Nat.lt_succ_of_le ((le_depth st _ hpending).trans (Nat.le_max_right _ _))

/-- Every program plays by the rules, and where it cancels, that is on record. -/
theorem rehearse_plays (acts : List ScopeAct) :
    ∃ r, Plays ⟨[], []⟩ acts r ∧ Shows (rehearse acts) r ∧
      (.cancel ∈ acts → .cancelled ∈ r.events) := by
  induction acts using List.reverseRecOn with
  | nil => exact ⟨⟨[], []⟩, .nil _, opening_shows, fun hc => absurd hc List.not_mem_nil⟩
  | append_singleton acts act ih =>
    obtain ⟨r, hplays, hs, hcancel⟩ := ih
    obtain ⟨ok, r', ha, ⟨-, -, hlasting, hs'⟩, hact⟩ := hs.perform act
    refine ⟨r', .snoc _ r r' acts act ok hplays ha, ?_, fun hc => ?_⟩
    · rw [rehearse, List.foldl_append]
      exact hs'
    · rcases List.mem_append.mp hc with hc | hc
      · exact hlasting (hcancel hc)
      · exact hact (List.mem_singleton.mp hc).symm

end ScopeStage

end LayerQuota.Rehearsal
