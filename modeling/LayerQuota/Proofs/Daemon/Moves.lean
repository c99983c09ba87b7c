import LayerQuota.Proofs.Daemon.Deed
import LayerQuota.Proofs.Pool
/-!
# The moves of a run

Handling an event, and reconciling, comes down to a few moves: quotas are created and deleted, IDs
are reserved, and beside that nothing happens to the pool and to the record. A move leaves marks,
which say what became of an ID that is in nobody's entry: a creation that could not be recorded
retains the ID it took, and a deletion frees one.
-/

namespace LayerQuota

inductive Mark
  | retained (container : String) (dir : Layer) (id : Int)
  | freed (container : String) (id : Int)

namespace Mark

/-- The mark of a creation: it retains the ID that it allocated where the record was not written. -/
def ofCreate (c : String) (dir : Layer) (core : Core) (r : Except Failure Entry) : List Mark :=
  match r, core.pool.allocate with
  | .error (.unsaved _ _), .ok (id, _) => [.retained c dir id]
  | _, _ => []

theorem mem_ofCreate {c : String} {dir : Layer} {core : Core} {r : Except Failure Entry} {m : Mark}
    (hm : m ∈ ofCreate c dir core r) :
    ∃ place fault id p, r = .error (.unsaved place fault) ∧ core.pool.allocate = .ok (id, p) ∧
      m = .retained c dir id := by
  unfold ofCreate at hm
  split at hm
  · rename_i place fault id p ha
    exact ⟨place, fault, id, p, rfl, ha, List.mem_singleton.mp hm⟩
  · cases hm

/-- The mark of a deletion: it frees the ID that it answers. -/
def ofDelete (c : String) (r : Except Failure (Option Int)) : List Mark :=
  match r with
  | .ok (some id) => [.freed c id]
  | _ => []

theorem mem_ofDelete {c : String} {r : Except Failure (Option Int)} {m : Mark}
    (hm : m ∈ ofDelete c r) : ∃ id, r = .ok (some id) ∧ m = .freed c id := by
  unfold ofDelete at hm
  split at hm
  · rename_i id
    exact ⟨id, rfl, List.mem_singleton.mp hm⟩
  · cases hm

end Mark

namespace Host

open LayerQuota.Act

variable {σ : Type} (h : Host σ)

/-! ### Moves -/

/-- A directory that a container can be given a quota in: any that the mounts of an event name, or
what the runtime reports. -/
def Names (c : String) (dir : Layer) : Prop :=
  (∃ path, dir = Layer.ofPath path) ∨ ∃ w w', h.resolve c w = (.ok dir, w')

inductive Move (k : EventKind) (c : String) (d : Daemon σ) : List Mark → Daemon σ → Prop
  | beside (d' : Daemon σ) (hb : h.Beside d d') : Move k c d [] d'
  | kept (e : Entry) (p : Pool) (w' : σ) (hk : k = .create)
    (he : d.core.store.table.get? c = some e)
    (hp : d.core.pool.markUsed e.projectId = .ok p) (hq : h.Quiet d.outside w') :
    Move k c d [] ⟨{ d.core with pool := p }, w'⟩
  | created (dir : Layer) (r : Except Failure Entry) (d' : Daemon σ) (hk : k = .create)
    (hdir : h.Names c dir) (ho : h.CreateOutcome c dir d r d') :
    Move k c d (Mark.ofCreate c dir d.core r) d'
  | deleted (r : Except Failure (Option Int)) (d' : Daemon σ) (hk : k = .delete)
    (ho : h.DeleteOutcome c d r d') : Move k c d (Mark.ofDelete c r) d'

/-- Moves one after another, with all their marks, each on an event of a kind for a container. -/
inductive Moves (K : EventKind → String → Prop) (d : Daemon σ) : List Mark → Daemon σ → Prop
  | refl : Moves K d [] d
  | tail (ms ms' : List Mark) (d₁ d₂ : Daemon σ) (k : EventKind) (c : String)
    (hs : Moves K d ms d₁) (hK : K k c) (hm : h.Move k c d₁ ms' d₂) : Moves K d (ms ++ ms') d₂

section Moves

variable {h} {K : EventKind → String → Prop} {d d₁ d₂ : Daemon σ} {ms ms' : List Mark}

theorem Moves.single (k : EventKind) (c : String) (hK : K k c) (hm : h.Move k c d ms d₁) :
    h.Moves K d ms d₁ :=
  .tail [] ms d d₁ k c .refl hK hm

theorem Moves.trans (ha : h.Moves K d ms d₁) (hb : h.Moves K d₁ ms' d₂) :
    h.Moves K d (ms ++ ms') d₂ := by
  induction hb with
  | refl =>
    rw [List.append_nil]
    exact ha
  | tail ms₁ ms₂ d₁ d₂ k c _ hK hm ih =>
    rw [← List.append_assoc]
    exact .tail (ms ++ ms₁) ms₂ d₁ d₂ k c ih hK hm

theorem Moves.andBeside (k : EventKind) (c : String) (hK : K k c) (hs : h.Moves K d ms d₁)
    (hb : h.Beside d₁ d₂) : h.Moves K d ms d₂ := by
  have hall := Moves.tail ms [] d₁ d₂ k c hs hK (.beside d₂ hb)
  rw [List.append_nil] at hall
  exact hall

theorem Moves.afterBeside (k : EventKind) (c : String) (hK : K k c) (hb : h.Beside d d₁)
    (hs : h.Moves K d₁ ms d₂) : h.Moves K d ms d₂ :=
  (Moves.single k c hK (.beside d₁ hb)).trans hs

/-- What every move keeps, moves keep. The marks that were left before come with it. -/
theorem Moves.keeps (hs : h.Moves K d ms d₁) (P : List Mark → Daemon σ → Prop)
    (hmove : ∀ k c ms ms' d d', K k c → P ms d → h.Move k c d ms' d' → P (ms ++ ms') d')
    (old : List Mark) (hd : P old d) : P (old ++ ms) d₁ := by
  induction hs with
  | refl =>
    rw [List.append_nil]
    exact hd
  | tail ms₁ ms₂ d₁ d₂ k c _ hK hm ih =>
    rw [← List.append_assoc]
    exact hmove k c (old ++ ms₁) ms₂ d₁ d₂ hK ih hm

end Moves

/-! ### Events -/

/-- The directory of a container that was created. -/
def layerOf (e : Event) : Act σ Layer :=
  match Mount.upperdir? e.rootfs with
  | some path => pure (Layer.ofPath path)
  | none => Act.call (h.resolve e.container)

def eventMarks (e : Event) (d : Daemon σ) : List Mark :=
  match e.kind with
  | .create =>
    match Act.run (h.layerOf e) d with
    | (.ok dir, d) => Mark.ofCreate e.container dir d.core (Act.run (h.create e.container dir) d).1
    | (.error _, _) => []
  | .delete => Mark.ofDelete e.container (Act.run (h.handleDelete e.container) d).1

theorem handleCreate_eq (e : Event) :
    h.handleCreate e = h.layerOf e >>= h.create e.container := by
  unfold handleCreate layerOf
  cases Mount.upperdir? e.rootfs with
  | some path => exact (pure_bind _ _).symm
  | none => rfl

theorem layerOf_outcome (e : Event) (d : Daemon σ) :
    ∃ r w', Act.run (h.layerOf e) d = (r, ⟨d.core, w'⟩) ∧ h.Quiet d.outside w' ∧
      ∀ dir, r = .ok dir → h.Names e.container dir := by
  unfold layerOf
  cases Mount.upperdir? e.rootfs with
  | some path =>
    refine ⟨_, d.outside, rfl, Quiet.refl _, ?_⟩
    rintro _ ⟨⟩
    exact .inl ⟨path, rfl⟩
  | none =>
    simp only
    rw [run_call]
    rcases hr : h.resolve e.container d.outside with ⟨r, w⟩
    refine ⟨r, w, rfl, Quiet.ofResolve hr, ?_⟩
    rintro dir rfl
    exact .inr ⟨d.outside, w, hr⟩

theorem applyEvent_create (e : Event) (hk : e.kind = .create) (d : Daemon σ) :
    (Act.run (h.applyEvent e) d).2 = (Act.run (h.handleCreate e) d).2 := by
  unfold applyEvent
  rw [hk]
  exact run_bind_drop _ _ d

theorem applyEvent_delete (e : Event) (hk : e.kind = .delete) (d : Daemon σ) :
    (Act.run (h.applyEvent e) d).2 = (Act.run (h.handleDelete e.container) d).2 := by
  unfold applyEvent
  rw [hk]
  exact run_bind_drop _ _ d

theorem applyEvent_moves (e : Event) (d : Daemon σ) :
    h.Moves (fun k c => k = e.kind ∧ c = e.container) d (h.eventMarks e d)
      (Act.run (h.applyEvent e) d).2 := by
  unfold eventMarks
  cases hk : e.kind with
  | create =>
    rw [h.applyEvent_create e hk, handleCreate_eq, run_bind]
    obtain ⟨r, w, hrun, hq, hdir⟩ := h.layerOf_outcome e d
    rw [hrun]
    rcases r with f | dir
    · exact .single .create e.container ⟨rfl, rfl⟩ (.beside _ (Beside.ofQuiet hq))
    · have hmove := Move.created (k := .create) dir _ _ rfl (hdir dir rfl)
        (h.create_outcome e.container dir ⟨d.core, w⟩)
      exact .afterBeside .create e.container ⟨rfl, rfl⟩ (Beside.ofQuiet hq)
        (.single .create e.container ⟨rfl, rfl⟩ hmove)
  | delete =>
    rw [h.applyEvent_delete e hk]
    exact .single .delete e.container ⟨rfl, rfl⟩
      (.deleted _ _ rfl (h.handleDelete_outcome e.container d))

theorem handleEvent_applied (e : Event) (d : Daemon σ)
    (hok : (Act.run (h.applyEvent e) d).1 = .ok ()) :
    Act.run (h.handleEvent e) d =
      let d' := (Act.run (h.applyEvent e) d).2
      (.ok (), ⟨{ d'.core with handled := d'.core.handled + 1 }, d'.outside⟩) := by
  rw [handleEvent, run_bind, run_attempt, hok]
  rfl

theorem handleEvent_failed (e : Event) (d : Daemon σ) (f : Failure) (hf : f ≠ .cancelled)
    (herr : (Act.run (h.applyEvent e) d).1 = .error f) :
    ∃ m, Act.run (h.handleEvent e) d =
      let d' := (Act.run (h.applyEvent e) d).2
      (.ok (), ⟨{ d'.core with failed := d'.core.failed + 1 }, h.log ⟨.error, m⟩ d'.outside⟩) := by
  rw [handleEvent, run_bind, run_attempt, herr]
  simp only
  split
  · exact ⟨_, rfl⟩
  · exact ⟨_, rfl⟩

/-- What handling an event leaves once it was applied: it is counted, dropped, or counted as
failed. -/
inductive HandleOutcome (d : Daemon σ) : Except Failure Unit → Daemon σ → Prop
  | applied : HandleOutcome d (.ok ()) ⟨{ d.core with handled := d.core.handled + 1 }, d.outside⟩
  | dropped (m : String) :
    HandleOutcome d (.error .cancelled) ⟨d.core, h.log ⟨.info, m⟩ d.outside⟩
  | failed (f : Failure) (m : String) (hf : f ≠ .cancelled) :
    HandleOutcome d (.error f)
      ⟨{ d.core with failed := d.core.failed + 1 }, h.log ⟨.error, m⟩ d.outside⟩

/-- Handling an event never fails. -/
theorem handleEvent_outcome (e : Event) (d : Daemon σ) :
    ∃ d', Act.run (h.handleEvent e) d = (.ok (), d') ∧
      h.HandleOutcome (Act.run (h.applyEvent e) d).2 (Act.run (h.applyEvent e) d).1 d' := by
  cases hr : (Act.run (h.applyEvent e) d).1 with
  | ok u => exact ⟨_, h.handleEvent_applied e d hr, .applied⟩
  | error f =>
    by_cases hf : f = .cancelled
    · subst hf
      rw [handleEvent, run_bind, run_attempt, hr]
      exact ⟨_, rfl, .dropped _⟩
    · obtain ⟨m, hrun⟩ := h.handleEvent_failed e d f hf hr
      exact ⟨_, hrun, .failed f m hf⟩

theorem handleEvent_beside (e : Event) (d : Daemon σ) :
    h.Beside (Act.run (h.applyEvent e) d).2 (Act.run (h.handleEvent e) d).2 := by
  obtain ⟨d', hrun, ho⟩ := h.handleEvent_outcome e d
  rw [hrun]
  generalize (Act.run (h.applyEvent e) d).1 = r at ho
  cases ho with
  | applied => exact ⟨rfl, rfl, rfl, Quiet.refl _⟩
  | dropped m => exact ⟨rfl, rfl, rfl, (Aside.log _ _).quiet⟩
  | failed f m hf => exact ⟨rfl, rfl, rfl, (Aside.log _ _).quiet⟩

theorem handleEvent_moves (e : Event) (d : Daemon σ) :
    h.Moves (fun k c => k = e.kind ∧ c = e.container) d (h.eventMarks e d)
      (Act.run (h.handleEvent e) d).2 :=
  .andBeside e.kind e.container ⟨rfl, rfl⟩ (h.applyEvent_moves e d) (h.handleEvent_beside e d)

/-! ### Reconciliation -/

/-- What is left when the IDs of some entries were reserved: those of the range are in use now. -/
structure Reserving (t : Table) (d d' : Daemon σ) : Prop where
  settings : d'.core.settings = d.core.settings
  store : d'.core.store = d.core.store
  inRange : ∀ n, d'.core.pool.inRange n = d.core.pool.inRange n
  used : ∀ n, n ∈ d'.core.pool.used ↔
    n ∈ d.core.pool.used ∨ (d.core.pool.inRange n = true ∧ n ∈ t.ids)
  outside : h.Quiet d.outside d'.outside

variable {h} in
theorem Reserving.skip {t : Table} {d d' : Daemon σ} (e : Entry) (w : σ)
    (hout : d.core.pool.inRange e.projectId = false) (hq : h.Quiet d.outside w)
    (hr : h.Reserving t ⟨d.core, w⟩ d') : h.Reserving (e :: t) d d' := by
  refine ⟨hr.settings, hr.store, hr.inRange, fun n => ?_, hq.trans hr.outside⟩
  rw [hr.used n, Table.ids_cons, List.mem_cons]
  constructor
  · rintro (hu | ⟨hin, hm⟩)
    · exact .inl hu
    · exact .inr ⟨hin, .inr hm⟩
  · rintro (hu | ⟨hin, rfl | hm⟩)
    · exact .inl hu
    · rw [hout] at hin
      contradiction
    · exact .inr ⟨hin, hm⟩

variable {h} in
theorem Reserving.insert {t : Table} {d d' : Daemon σ} (e : Entry)
    (hin : d.core.pool.inRange e.projectId = true)
    (hr : h.Reserving t ⟨{ d.core with pool := d.core.pool.insert e.projectId }, d.outside⟩ d') :
    h.Reserving (e :: t) d d' := by
  refine ⟨hr.settings, hr.store, fun n => ?_, fun n => ?_, hr.outside⟩
  · rw [hr.inRange n, Pool.insert_inRange]
  · rw [hr.used n, Table.ids_cons, List.mem_cons]
    simp only [Pool.mem_insert, Pool.insert_inRange]
    constructor
    · rintro ((rfl | hu) | ⟨hn, hm⟩)
      · exact .inr ⟨hin, .inl rfl⟩
      · exact .inl hu
      · exact .inr ⟨hn, .inr hm⟩
    · rintro (hu | ⟨hn, rfl | hm⟩)
      · exact .inl (.inr hu)
      · exact .inl (.inl rfl)
      · exact .inr ⟨hn, hm⟩

theorem reserveAll_outcome (t : Table) (d : Daemon σ) :
    ∃ d', Act.run (h.reserveAll t) d = (.ok (), d') ∧ h.Reserving t d d' := by
  induction t generalizing d with
  | nil =>
    refine ⟨d, rfl, rfl, rfl, fun _ => rfl, fun n => ?_, Quiet.refl _⟩
    simp [Table.ids]
  | cons e t ih =>
    rw [reserveAll, run_bind, run_attempt, run_markUsed]
    cases hin : d.core.pool.inRange e.projectId with
    | false =>
      -- an ID outside the range is noted and stays as it is
      simp only [Pool.markUsed, hin, Bool.false_eq_true, if_false]
      rw [run_bind, run_note]
      obtain ⟨d', hrun, hr⟩ := ih ⟨d.core, h.log _ d.outside⟩
      exact ⟨d', hrun, hr.skip e _ hin (Aside.log _ _).quiet⟩
    | true =>
      simp only [Pool.markUsed, hin, if_true]
      obtain ⟨d', hrun, hr⟩ :=
        ih ⟨{ d.core with pool := d.core.pool.insert e.projectId }, d.outside⟩
      exact ⟨d', hrun, hr.insert e hin⟩

/-- The directory for which a visit of a running container comes to create a quota. -/
def vacancy (c : String) : Act σ (Option Layer) := do
  if ← h.isCancelled then return none
  let dir ← Act.call (h.resolve c)
  if ← Act.call (h.isPresent dir) then
    match ← h.entry? c with
    | some _ => return none
    | none => return some dir
  else return none

def visitMarks (c : String) (d : Daemon σ) : List Mark :=
  match Act.run (h.vacancy c) d with
  | (.ok (some dir), d) => Mark.ofCreate c dir d.core (Act.run (h.create c dir) d).1
  | _ => []

/-- The marks of the visits of some containers, for as long as the pass goes on. -/
def passMarks : List String → Report → Daemon σ → List Mark
  | [], _, _ => []
  | c :: rest, r, d =>
    h.visitMarks c d ++
      match Act.run (h.visit c r) d with
      | (.ok (r, true), d) => passMarks rest r d
      | _ => []

def reconcileMarks (d : Daemon σ) : List Mark :=
  let d := (Act.run (h.reserveAll d.core.store.table) d).2
  match h.list d.outside with
  | (.ok live, w) => h.passMarks live (Report.opening live.length) ⟨d.core, w⟩
  | (.error _, _) => []

/-- Only creations, of any container. -/
def Creates (k : EventKind) (_ : String) : Prop := k = .create

/-- How the visit of a running container can end, after it came to create a quota or not: it creates
one in that directory, or it reserves the ID of the entry that is there, or nothing comes of it. -/
inductive VisitOutcome (c : String) (d : Daemon σ) :
    Except Failure (Option Layer) × Daemon σ → Daemon σ → Prop
  | beside (v : Except Failure (Option Layer) × Daemon σ) (d' : Daemon σ)
    (hv : ∀ dir, v.1 ≠ .ok (some dir)) (hb : h.Beside d d') : VisitOutcome c d v d'
  | kept (e : Entry) (p : Pool) (v : Except Failure (Option Layer) × Daemon σ) (w' : σ)
    (hv : ∀ dir, v.1 ≠ .ok (some dir)) (he : d.core.store.table.get? c = some e)
    (hp : d.core.pool.markUsed e.projectId = .ok p) (hq : h.Quiet d.outside w') :
    VisitOutcome c d v ⟨{ d.core with pool := p }, w'⟩
  | supplied (dir : Layer) (w : σ) (d' : Daemon σ) (hdir : h.Names c dir)
    (hq : h.Quiet d.outside w) (hb : h.Beside (Act.run (h.create c dir) ⟨d.core, w⟩).2 d') :
    VisitOutcome c d (.ok (some dir), ⟨d.core, w⟩) d'

theorem supply_beside (c : String) (dir : Layer) (r : Report) (d : Daemon σ) :
    h.Beside (Act.run (h.create c dir) d).2 (Act.run (h.supply c dir r) d).2 := by
  rw [supply, run_bind, run_attempt]
  simp only
  split
  · exact ⟨rfl, rfl, rfl, Quiet.refl _⟩
  · exact ⟨rfl, rfl, rfl, Quiet.refl _⟩
  · split
    · exact ⟨rfl, rfl, rfl, (Aside.log _ _).quiet⟩
    · exact ⟨rfl, rfl, rfl, Quiet.refl _⟩

theorem restore_outcome (e : Entry) (dir : Layer) (r : Report) (d : Daemon σ) :
    (Act.run (h.restore e dir r) d).2 = d ∨
      ∃ p w', d.core.pool.markUsed e.projectId = .ok p ∧ h.Quiet d.outside w' ∧
        (Act.run (h.restore e dir r) d).2 = ⟨{ d.core with pool := p }, w'⟩ := by
  rw [restore, run_bind, run_attempt, run_markUsed]
  rcases hp : d.core.pool.markUsed e.projectId with f | p
  · exact .inl rfl
  · simp only
    cases isLayerOf e dir with
    | true => exact .inr ⟨p, _, rfl, Quiet.refl _, rfl⟩
    | false => exact .inr ⟨p, _, rfl, (Aside.log _ _).quiet, rfl⟩

theorem visit_outcome (c : String) (r : Report) (d : Daemon σ) :
    h.VisitOutcome c d (Act.run (h.vacancy c) d) (Act.run (h.visit c r) d).2 := by
  have hnone : ∀ dir, (.ok none : Except Failure (Option Layer)) ≠ .ok (some dir) :=
    fun _ heq => by cases heq
  have herr : ∀ f dir, (.error f : Except Failure (Option Layer)) ≠ .ok (some dir) :=
    fun _ _ heq => by cases heq
  rw [visit, vacancy, run_bind, run_bind, run_isCancelled]
  cases hc : h.cancelled d.outside with
  | true => exact .beside _ _ hnone (Beside.ofQuiet (Aside.log _ _).quiet)
  | false =>
    simp only [Bool.false_eq_true, if_false]
    rw [run_bind, run_call, run_bind, run_attempt, run_call]
    rcases hr : h.resolve c d.outside with ⟨f | dir, w⟩
    · have hq : h.Quiet d.outside w := Quiet.ofResolve hr
      simp only
      split
      · contradiction
      · exact .beside _ _ (herr _) (Beside.ofQuiet (hq.trans (Aside.log _ _).quiet))
      · exact .beside _ _ (herr _) (Beside.ofQuiet hq)
    · simp only
      rw [settle, run_bind, run_bind, run_call]
      rcases hp : h.isPresent dir w with ⟨f | present, w₁⟩
      · exact .beside _ _ (herr _)
          (Beside.ofQuiet ((Quiet.ofResolve hr).trans (Quiet.ofPresent hp)))
      · have hq : h.Quiet d.outside w₁ := (Quiet.ofResolve hr).trans (Quiet.ofPresent hp)
        cases present with
        | false => exact .beside _ _ hnone (Beside.ofQuiet (hq.trans (Aside.log _ _).quiet))
        | true =>
          simp only [if_true]
          rw [run_bind, run_bind, run_entry?]
          cases he : d.core.store.table.get? c with
          | none =>
            exact .supplied dir w₁ _ (.inr ⟨d.outside, w, hr⟩) hq
              (h.supply_beside c dir r ⟨d.core, w₁⟩)
          | some e =>
            simp only
            rcases h.restore_outcome e dir r ⟨d.core, w₁⟩ with hsame | ⟨p, w', hp, hw, heq⟩
            · rw [hsame]
              exact .beside _ _ hnone (Beside.ofQuiet hq)
            · rw [heq]
              exact .kept e p _ w' hnone he hp (hq.trans hw)

theorem visitMarks_eq_nil (c : String) (d : Daemon σ)
    (hv : ∀ dir, (Act.run (h.vacancy c) d).1 ≠ .ok (some dir)) : h.visitMarks c d = [] := by
  unfold visitMarks
  split
  · rename_i dir d₁ heq
    exact absurd (congrArg Prod.fst heq) (hv dir)
  · rfl

theorem visit_moves (c : String) (r : Report) (d : Daemon σ) :
    h.Moves Creates d (h.visitMarks c d) (Act.run (h.visit c r) d).2 := by
  have ho := h.visit_outcome c r d
  generalize hv : Act.run (h.vacancy c) d = v at ho
  generalize (Act.run (h.visit c r) d).2 = d' at ho ⊢
  cases ho with
  | beside v d' hnone hb =>
    rw [visitMarks_eq_nil h c d (hv ▸ hnone)]
    exact .single .create c rfl (.beside _ hb)
  | kept e p v w' hnone he hp hq =>
    rw [visitMarks_eq_nil h c d (hv ▸ hnone)]
    exact .single .create c rfl (.kept e p w' rfl he hp hq)
  | supplied dir w d' hdir hq hb =>
    unfold visitMarks
    rw [hv]
    have hmove := Move.created (k := .create) dir _ _ rfl hdir (h.create_outcome c dir ⟨d.core, w⟩)
    exact .andBeside .create c rfl
      (.afterBeside .create c rfl (Beside.ofQuiet hq) (.single .create c rfl hmove)) hb

theorem visitAll_moves (live : List String) (r : Report) (d : Daemon σ) :
    h.Moves Creates d (h.passMarks live r d) (Act.run (h.visitAll live r) d).2 := by
  induction live generalizing r d with
  | nil => exact .refl
  | cons c live ih =>
    rw [visitAll, passMarks, run_bind]
    have hv := h.visit_moves c r d
    generalize Act.run (h.visit c r) d = a at hv
    obtain ⟨f | ⟨r', more⟩, d'⟩ := a
    · simp only [List.append_nil]
      exact hv
    · cases more with
      | true => exact hv.trans (ih r' d')
      | false =>
        simp only [List.append_nil]
        exact hv

theorem conclude_beside (live : List String) (r : Report) (d : Daemon σ) :
    h.Beside d (Act.run (h.conclude live r) d).2 := by
  rw [conclude, run_bind, run_core]
  simp only
  split
  · exact ⟨rfl, rfl, rfl, (Aside.log _ _).quiet⟩
  · exact ⟨rfl, rfl, rfl, (Aside.log _ _).quiet.trans (Aside.log _ _).quiet⟩

/-- How a reconciliation can go on once the recorded IDs are reserved: there is no list of
containers, or it goes over the list. -/
inductive PassOutcome (d : Daemon σ) : Daemon σ → Prop
  | unlisted (f : Failure) (w : σ) (hl : h.list d.outside = (.error f, w)) :
    PassOutcome d ⟨d.core, w⟩
  | listed (live : List String) (w : σ) (d' : Daemon σ) (hl : h.list d.outside = (.ok live, w))
    (hb : h.Beside (Act.run (h.visitAll live (Report.opening live.length)) ⟨d.core, w⟩).2 d') :
    PassOutcome d d'

theorem reconcile_pass (d : Daemon σ) :
    ∃ d₁, Act.run (h.reserveAll d.core.store.table) d = (.ok (), d₁) ∧
      h.Reserving d.core.store.table d d₁ ∧ h.PassOutcome d₁ (Act.run h.reconcile d).2 := by
  obtain ⟨d₁, hrun, hr⟩ := h.reserveAll_outcome d.core.store.table d
  refine ⟨d₁, hrun, hr, ?_⟩
  rw [reconcile, run_bind, run_core]
  simp only
  rw [run_bind, hrun]
  simp only
  rw [run_bind, run_call]
  rcases hl : h.list d₁.outside with ⟨f | live, w⟩
  · exact .unlisted f w hl
  · refine .listed live w _ hl ?_
    simp only
    rw [run_bind]
    rcases Act.run (h.visitAll live (Report.opening live.length)) ⟨d₁.core, w⟩ with ⟨f | r, d₂⟩
    · exact ⟨rfl, rfl, rfl, Quiet.refl _⟩
    · exact h.conclude_beside live r d₂

/-- A reconciliation first reserves what is recorded, and then goes over the containers. -/
theorem reconcile_moves (d : Daemon σ) :
    ∃ d₁, h.Reserving d.core.store.table d d₁ ∧
      h.Moves Creates d₁ (h.reconcileMarks d) (Act.run h.reconcile d).2 := by
  obtain ⟨d₁, hrun, hr, hp⟩ := h.reconcile_pass d
  refine ⟨d₁, hr, ?_⟩
  simp only [reconcileMarks, hrun]
  generalize (Act.run h.reconcile d).2 = d' at hp ⊢
  have hb : h.Beside d₁ ⟨d₁.core, (h.list d₁.outside).2⟩ :=
    Beside.ofQuiet (Aside.list d₁.outside).quiet
  cases hp with
  | unlisted f w hl =>
    rw [hl] at hb ⊢
    exact .single .create "" rfl (.beside _ hb)
  | listed live w d' hl hpass =>
    rw [hl] at hb ⊢
    exact .andBeside .create "" rfl
      (.afterBeside .create "" rfl hb (h.visitAll_moves live _ _)) hpass

end Host

end LayerQuota
