import LayerQuota.Proofs.Daemon.Course
/-!
# What events and reconciliations leave alone

Handling an event and reconciling touch the pool, the record and the last report, but nothing that
the connection loop goes by. Of the outside they keep whatever their own calls keep: tags are put
and limits are set only while the scope is not cancelled, and no line that they write announces a
phase.
-/

namespace LayerQuota

def Phase.all : List Phase := [.disconnected, .connecting, .reconciling, .listening, .stopped]

/-- Two states that differ in the pool, the record and the last report at most. -/
structure Core.SameLoop (c c' : Core) : Prop where
  settings : c'.settings = c.settings
  phase : c'.phase = c.phase
  handled : c'.handled = c.handled
  failed : c'.failed = c.failed
  reconnects : c'.reconnects = c.reconnects
  failures : c'.failures = c.failures

theorem Core.SameLoop.refl (c : Core) : Core.SameLoop c c := ⟨rfl, rfl, rfl, rfl, rfl, rfl⟩

theorem Core.SameLoop.trans {c c₁ c₂ : Core} (ha : Core.SameLoop c c₁)
    (hb : Core.SameLoop c₁ c₂) : Core.SameLoop c c₂ :=
  ⟨hb.settings.trans ha.settings, hb.phase.trans ha.phase, hb.handled.trans ha.handled,
    hb.failed.trans ha.failed, hb.reconnects.trans ha.reconnects, hb.failures.trans ha.failures⟩

namespace Host

open LayerQuota.Act

/-! ### Lines that announce a phase -/

/-- The phase that a line announces. -/
def announced? (l : Line) : Option Phase := Phase.all.find? fun p => l == phaseLine p

theorem announced?_phaseLine (p : Phase) : announced? (phaseLine p) = some p := by
  cases p <;> decide

theorem announced?_eq_none (l : Line) (hl : ∀ p, l ≠ phaseLine p) : announced? l = none := by
  rw [announced?, List.find?_eq_none]
  intro p _ heq
  exact hl p (beq_iff_eq.mp heq)

theorem announced?_of_level (l : Line) (hl : l.level ≠ .debug) : announced? l = none := by
  refine announced?_eq_none l ?_
  rintro p rfl
  exact hl rfl

theorem announced?_skipping (c label : String) :
    announced? ⟨.debug, s!"Skipping container={c}: upperdir {label} does not exist yet"⟩ = none := by
  refine announced?_eq_none _ fun p heq => ?_
  have hskip : s!"Skipping container={c}: upperdir {label} does not exist yet".toList.head? =
    some 'S' := by simp [toString]
  have hphase : (phaseLine p).message.toList.head? = some 'H' := by cases p <;> decide
  rw [← heq, hskip] at hphase
  cases hphase

/-! ### What is kept -/

/-- What the calls of a creation keep. Tags are put and limits are set only where the scope is not
cancelled. -/
structure Permits {σ : Type} (h : Host σ) (P : σ → Prop) : Prop where
  log : ∀ l v, announced? l = none → P v → P (h.log l v)
  save : ∀ path text v, P v → P (h.save path text v).2
  tag : ∀ dir id v, h.cancelled v = false → P v → P (h.tag dir id v).2
  setLimit : ∀ id soft hard v, h.cancelled v = false → P v → P (h.setLimit id soft hard v).2

/-- What the calls of events and reconciliations keep. Limits are cleared at any time. -/
structure Upholds {σ : Type} (h : Host σ) (P : σ → Prop) : Prop extends Permits h P where
  list : ∀ v, P v → P (h.list v).2
  resolve : ∀ c v, P v → P (h.resolve c v).2
  isPresent : ∀ dir v, P v → P (h.isPresent dir v).2
  readTag : ∀ dir v, P v → P (h.readTag dir v).2
  clear : ∀ id v, P v → P (h.setLimit id noLimit noLimit v).2

variable {σ α β : Type} {h : Host σ} {P : σ → Prop}

/-- An act that keeps what is outside as it should be, and what the loop goes by. -/
def Keeps (P : σ → Prop) (x : Act σ α) : Prop :=
  ∀ d, P d.outside → Core.SameLoop d.core (Act.run x d).2.core ∧ P (Act.run x d).2.outside

namespace Keeps

theorem pure (a : α) : Keeps P (pure a : Act σ α) := fun d hd => ⟨.refl d.core, hd⟩

theorem throw (f : Failure) : Keeps P (throw f : Act σ α) := fun d hd => ⟨.refl d.core, hd⟩

theorem bind {x : Act σ α} {f : α → Act σ β} (hx : Keeps P x) (hf : ∀ a, Keeps P (f a)) :
    Keeps P (x >>= f) := by
  intro d hd
  have hd₁ := hx d hd
  rw [run_bind]
  generalize Act.run x d = a at hd₁ ⊢
  obtain ⟨e | a, d₁⟩ := a
  · exact hd₁
  · obtain ⟨hloop, hP⟩ := hf a d₁ hd₁.2
    exact ⟨hd₁.1.trans hloop, hP⟩

theorem attempt {x : Act σ α} (hx : Keeps P x) : Keeps P (attempt x) := hx

theorem call {f : σ → Except Failure α × σ} (hf : ∀ v, P v → P (f v).2) : Keeps P (call f) :=
  fun d hd => ⟨.refl d.core, hf d.outside hd⟩

theorem core : Keeps P (core : Act σ Core) := fun d hd => ⟨.refl d.core, hd⟩

theorem modifyCore {f : Core → Core} (hf : ∀ c, Core.SameLoop c (f c)) :
    Keeps P (modifyCore f : Act σ Unit) :=
  fun d hd => ⟨hf d.core, hd⟩

theorem isCancelled : Keeps P h.isCancelled := fun d hd => ⟨.refl d.core, hd⟩

theorem checkpoint : Keeps P h.checkpoint := by
  refine isCancelled.bind fun b => ?_
  cases b with
  | true => exact .throw _
  | false => exact .pure _

theorem markUsed (id : Int) : Keeps P (h.markUsed id) := by
  refine core.bind fun c => ?_
  cases c.pool.markUsed id with
  | ok p => exact .modifyCore fun _ => ⟨rfl, rfl, rfl, rfl, rfl, rfl⟩
  | error e => exact .throw _

theorem release (id : Int) : Keeps P (h.release id) :=
  .modifyCore fun _ => ⟨rfl, rfl, rfl, rfl, rfl, rfl⟩

theorem allocate : Keeps P h.allocate := by
  refine core.bind fun c => ?_
  rcases c.pool.allocate with e | ⟨id, p⟩
  · exact .throw _
  · exact Keeps.bind (.modifyCore fun _ => ⟨rfl, rfl, rfl, rfl, rfl, rfl⟩) fun _ => .pure id

theorem entry? (c : String) : Keeps P (h.entry? c) := core.bind fun _ => .pure _

end Keeps

namespace Permits

variable (hu : h.Permits P)

include hu

theorem note (l : Level) (m : String) (hl : l ≠ .debug) : Keeps P (h.note l m) :=
  fun d hd => ⟨.refl d.core, hu.log _ _ (announced?_of_level _ hl) hd⟩

theorem put (e : Entry) : Keeps P (h.onStore fun disk store => store.put disk e) := by
  intro d hd
  refine ⟨⟨rfl, rfl, rfl, rfl, rfl, rfl⟩, ?_⟩
  exact Store.put_keeps h.toDisk P
    (fun l v hl hv => hu.log l v (announced?_of_level l (hl ▸ by decide)) hv) hu.save _ e _ hd

/-! ### Creation -/

/-- Each of the two calls comes right after a look at the scope. -/
theorem enforce (dir : Layer) (id : Int) : Keeps P (h.enforce dir id) := by
  intro d hd
  rw [Host.enforce, run_bind, run_checkpoint]
  cases hc : h.cancelled d.outside with
  | true => exact ⟨.refl d.core, hd⟩
  | false =>
    have htag := hu.tag dir id d.outside hc hd
    simp only [Bool.false_eq_true, if_false]
    rw [run_bind, run_call]
    rcases ht : h.tag dir id d.outside with ⟨f | _, v⟩
    · rw [ht] at htag
      exact ⟨.refl d.core, htag⟩
    · rw [ht] at htag
      simp only
      rw [run_bind, run_checkpoint]
      cases hv : h.cancelled v with
      | true => exact ⟨.refl d.core, htag⟩
      | false => exact ⟨.refl d.core, hu.setLimit id _ _ v hv htag⟩

theorem assign (dir : Layer) : Keeps P (h.assign dir) := by
  refine Keeps.checkpoint.bind fun _ => Keeps.allocate.bind fun id =>
    (hu.enforce dir id).attempt.bind fun r => ?_
  rcases r with f | u
  · simp only
    cases freesId f with
    | true => exact (Keeps.release id).bind fun _ => .throw f
    | false => exact .throw f
  · exact .pure id

theorem record (c : String) (dir : Layer) (id : Int) : Keeps P (h.record c dir id) := by
  unfold Host.record
  cases Entry.make (.text c) (.int id) dir with
  | invalid vs => exact .throw _
  | valid e =>
    refine (hu.put e).attempt.bind fun r => ?_
    rcases r with f | u
    · simp only
      cases f.isUnsaved with
      | true => exact (hu.note .error _ (by decide)).bind fun _ => .throw f
      | false => exact .throw f
    · exact Keeps.core.bind fun _ => (hu.note .info _ (by decide)).bind fun _ => .pure e

theorem create (c : String) (dir : Layer) : Keeps P (h.create c dir) := by
  refine (Keeps.entry? c).bind fun e? => ?_
  cases e? with
  | some e =>
    refine (Keeps.markUsed e.projectId).bind fun _ => ?_
    cases isLayerOf e dir with
    | true => exact .pure e
    | false => exact (hu.note .warning _ (by decide)).bind fun _ => .pure e
  | none => exact (hu.assign dir).bind fun id => hu.record c dir id

end Permits

namespace Upholds

variable (hu : h.Upholds P)

include hu

/-! ### Deletion -/

theorem remove (c : String) : Keeps P (h.onStore fun disk store => store.remove disk c) := by
  intro d hd
  refine ⟨⟨rfl, rfl, rfl, rfl, rfl, rfl⟩, ?_⟩
  exact Store.remove_keeps h.toDisk P
    (fun l v hl hv => hu.log l v (announced?_of_level l (hl ▸ by decide)) hv) hu.save _ c _ hd

theorem idToClear (c : String) (dir : Layer) (recorded : Option Int) :
    Keeps P (h.idToClear c dir recorded) := by
  refine (Keeps.call (hu.readTag dir)).attempt.bind fun r => ?_
  rcases r with f | found
  · cases f with
    | enforcement m cmd out =>
      cases recorded with
      | some id => exact (hu.note .warning _ (by decide)).bind fun _ => .pure _
      | none => exact .throw _
    | _ => exact .throw _
  · cases recorded with
    | some id =>
      simp only [judge]
      split
      · exact .pure _
      · exact .throw _
    | none =>
      simp only [judge]
      split
      · exact (hu.note .info _ (by decide)).bind fun _ => .pure _
      · refine Keeps.core.bind fun core => ?_
        cases core.pool.inRange found with
        | false => exact (hu.note .warning _ (by decide)).bind fun _ => .pure _
        | true =>
          simp only [Bool.not_true, Bool.false_eq_true, if_false]
          split
          · exact (hu.note .warning _ (by decide)).bind fun _ => .pure _
          · exact (hu.note .info _ (by decide)).bind fun _ => .pure _

theorem clearLimit (c : String) (dir : Layer) (id : Int) : Keeps P (h.clearLimit c dir id) := by
  refine (Keeps.call (hu.clear id)).attempt.bind fun r => ?_
  rcases r with f | u
  · simp only
    split
    · exact hu.note .error _ (by decide)
    · exact .throw _
  · exact .pure ()

theorem forget (c : String) (dir : Layer) (id : Int) : Keeps P (h.forget c dir id) :=
  (hu.remove c).bind fun _ => (Keeps.release id).bind fun _ =>
    (hu.note .info _ (by decide)).bind fun _ => .pure id

theorem handleDelete (c : String) : Keeps P (h.handleDelete c) := by
  refine Keeps.checkpoint.bind fun _ => (Keeps.call (hu.resolve c)).bind fun dir =>
    (Keeps.entry? c).bind fun e? => (Keeps.call (hu.isPresent dir)).bind fun present => ?_
  cases present with
  | true =>
    refine (hu.idToClear c dir _).bind fun id? => ?_
    cases id? with
    | none => exact .pure none
    | some id =>
      exact (hu.clearLimit c dir id).bind fun _ => (hu.forget c dir id).bind fun _ => .pure _
  | false =>
    cases e?.map (·.projectId) with
    | none => exact (hu.note .info _ (by decide)).bind fun _ => .pure none
    | some id => exact (hu.forget c dir id).bind fun _ => .pure _

/-! ### Events and reconciliation -/

theorem applyEvent (e : Event) : Keeps P (h.applyEvent e) := by
  unfold Host.applyEvent
  cases e.kind with
  | create =>
    refine Keeps.bind ?_ fun _ => .pure ()
    unfold Host.handleCreate
    cases Mount.upperdir? e.rootfs with
    | some path => exact hu.create e.container (Layer.ofPath path)
    | none =>
      exact (Keeps.call (hu.resolve e.container)).bind fun dir => hu.create e.container dir
  | delete => exact (hu.handleDelete e.container).bind fun _ => .pure ()

theorem reserveAll (t : Table) : Keeps P (h.reserveAll t) := by
  induction t with
  | nil => exact .pure ()
  | cons e t ih =>
    refine (Keeps.markUsed e.projectId).attempt.bind fun r => ?_
    rcases r with f | u
    · exact (hu.note .error _ (by decide)).bind fun _ => ih
    · exact ih

theorem restore (e : Entry) (dir : Layer) (r : Report) : Keeps P (h.restore e dir r) := by
  refine (Keeps.markUsed e.projectId).attempt.bind fun m => ?_
  rcases m with f | u
  · exact .pure _
  · simp only
    cases isLayerOf e dir with
    | true => exact .pure _
    | false => exact (hu.note .warning _ (by decide)).bind fun _ => .pure _

theorem supply (c : String) (dir : Layer) (r : Report) : Keeps P (h.supply c dir r) := by
  refine (hu.create c dir).attempt.bind fun m => ?_
  split
  · exact .pure _
  · exact .pure _
  · split
    · exact (hu.note .error _ (by decide)).bind fun _ => .pure _
    · exact .throw _

theorem settle (c : String) (dir : Layer) (r : Report) : Keeps P (h.settle c dir r) := by
  refine (Keeps.call (hu.isPresent dir)).bind fun present => ?_
  cases present with
  | true =>
    refine (Keeps.entry? c).bind fun e? => ?_
    cases e? with
    | some e => exact hu.restore e dir r
    | none => exact hu.supply c dir r
  | false =>
    refine Keeps.bind (fun d hd => ⟨.refl d.core, hu.log _ _ ?_ hd⟩) fun _ => .pure _
    exact announced?_skipping c dir.label

theorem visit (c : String) (r : Report) : Keeps P (h.visit c r) := by
  refine Keeps.isCancelled.bind fun b => ?_
  cases b with
  | true => exact (hu.note .info _ (by decide)).bind fun _ => .pure _
  | false =>
    refine (Keeps.call (hu.resolve c)).attempt.bind fun m => ?_
    split
    · exact hu.settle c _ r
    · exact (hu.note .warning _ (by decide)).bind fun _ => .pure _
    · exact .throw _

theorem visitAll (live : List String) (r : Report) : Keeps P (h.visitAll live r) := by
  induction live generalizing r with
  | nil => exact .pure r
  | cons c live ih =>
    refine (hu.visit c r).bind fun v => ?_
    obtain ⟨r', more⟩ := v
    cases more with
    | true => exact ih r'
    | false => exact .pure r'

theorem reconcile : Keeps P h.reconcile := by
  refine Keeps.core.bind fun core => (hu.reserveAll core.store.table).bind fun _ =>
    (Keeps.call hu.list).bind fun live =>
      (hu.visitAll live (Report.opening live.length)).bind fun r => ?_
  refine Keeps.core.bind fun core => ?_
  have hend : ∀ (m : String) (r : Report), Keeps P (do
      h.note .info m
      Act.modifyCore fun c => { c with lastReport := some r }
      return r) := fun m r =>
    (hu.note .info m (by decide)).bind fun _ =>
      Keeps.bind (.modifyCore fun _ => ⟨rfl, rfl, rfl, rfl, rfl, rfl⟩) fun _ => .pure r
  simp only
  split
  · exact hend _ _
  · exact (hu.note .warning _ (by decide)).bind fun _ => hend _ _

/-- Handling an event keeps the phase, and what the calls of events keep. -/
theorem handle (e : Event) (d : Daemon σ) (hd : P d.outside) :
    (h.serve d (.handle e)).core.phase = d.core.phase ∧ P (h.serve d (.handle e)).outside := by
  have happly := hu.applyEvent e d hd
  have hlog : ∀ l m v, l ≠ .debug → P v → P (h.log ⟨l, m⟩ v) := fun l m v hl hv =>
    hu.log _ v (announced?_of_level _ hl) hv
  obtain ⟨d', hrun, ho⟩ := h.handleEvent_outcome e d
  rw [serve, hrun]
  generalize (Act.run (h.applyEvent e) d).1 = r at ho
  cases ho with
  | applied => exact ⟨happly.1.phase, happly.2⟩
  | dropped m => exact ⟨happly.1.phase, hlog .info m _ (by decide) happly.2⟩
  | failed f m hf => exact ⟨happly.1.phase, hlog .error m _ (by decide) happly.2⟩

end Upholds

end Host

end LayerQuota
