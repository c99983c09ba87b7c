import LayerQuota.Proofs.Daemon.Moves
import LayerQuota.Proofs.Entry
import LayerQuota.Proofs.Store
/-!
# Runs of the daemon

An event is handled, and a reconciliation done, by one deed after another. A run is any sequence of
both, with anything happening to the outside in between.
-/

namespace LayerQuota.Host

open LayerQuota.Act

variable {σ : Type} (h : Host σ)

/-! ### Deeds -/

/-- One thing that is done for a container on an event of a kind. -/
inductive Deed (k : EventKind) (c : String) (d d' : Daemon σ) : Prop
  | beside (hb : h.Beside d d')
  | creation (hk : k = .create) (hc : h.Creation c d d')
  | deletion (hk : k = .delete) (r : Except Failure (Option Int)) (hd : h.Deletion c d r d')

def Deeds (k : EventKind) (c : String) : Daemon σ → Daemon σ → Prop :=
  Relation.ReflTransGen (h.Deed k c)

/-- What a pass over the running containers does: deeds for one container after another. -/
def Pass : Daemon σ → Daemon σ → Prop :=
  Relation.ReflTransGen fun d d' => ∃ c, h.Deed .create c d d'

variable {h} in
theorem Move.deed {k : EventKind} {c : String} {d d' : Daemon σ} {ms : List Mark}
    (hm : h.Move k c d ms d') : h.Deed k c d d' := by
  cases hm with
  | beside d' hb => exact .beside hb
  | kept e p w' hk he hp hq => exact .creation hk (.kept e p w' he hp hq)
  | created dir r d' hk hdir ho => exact .creation hk ho.creation
  | deleted r d' hk ho => exact .deletion hk r ho.deletion

theorem handleEvent_deeds (e : Event) (d : Daemon σ) :
    h.Deeds e.kind e.container d (Act.run (h.handleEvent e) d).2 := by
  refine (h.handleEvent_moves e d).keeps (fun _ => h.Deeds e.kind e.container d) ?_ [] .refl
  rintro k c _ _ d₁ d₂ ⟨rfl, rfl⟩ hs hm
  exact .tail hs hm.deed

theorem reconcile_outcome (d : Daemon σ) :
    ∃ d₁, h.Reserving d.core.store.table d d₁ ∧ h.Pass d₁ (Act.run h.reconcile d).2 := by
  obtain ⟨d₁, hr, hm⟩ := h.reconcile_moves d
  refine ⟨d₁, hr, hm.keeps (fun _ => h.Pass d₁) ?_ [] .refl⟩
  rintro k c _ _ d₂ d₃ rfl hs hm
  exact .tail hs ⟨c, hm.deed⟩

/-! ### Runs -/

/-- What a daemon is asked for, and what may happen to the outside meanwhile. -/
inductive Request (σ : Type)
  | reconcile
  | handle (e : Event)
  | meanwhile (f : σ → σ)

def serve (d : Daemon σ) : Request σ → Daemon σ
  | .reconcile => (Act.run h.reconcile d).2
  | .handle e => (Act.run (h.handleEvent e) d).2
  | .meanwhile f => ⟨d.core, f d.outside⟩

def serveAll (d : Daemon σ) (qs : List (Request σ)) : Daemon σ := qs.foldl h.serve d

def session (d : Daemon σ) (qs : List (Request σ)) : Daemon σ :=
  h.serveAll (h.serve d .reconcile) qs

/-- A host on which no call fails, and on which no container runs. -/
def smooth : Host σ where
  log _ w := w
  save _ _ w := (.ok (), w)
  read path w := (.error (.noSuchFile [path]), w)
  cancelled _ := false
  tag _ _ w := (.ok (), w)
  setLimit _ _ _ w := (.ok (), w)
  readTag _ w := (.ok 0, w)
  isPresent _ w := (.ok true, w)
  list w := (.ok [], w)
  resolve c w := (.ok (Layer.ofPath c), w)
  connect w := (.ok (), w)
  disconnect w := w
  subscribe w := (.ok 0, w)
  closeStream _ w := w
  onCancel _ w := (some 0, w)
  unregister _ w := w

def onFirst {τ α : Type} (f : σ → α × σ) (w : σ × τ) : α × (σ × τ) := ((f w.1).1, (f w.1).2, w.2)

theorem onFirst_eq {τ α : Type} (f : σ → α × σ) (a : α) (w w' : σ × τ)
    (hf : onFirst f w = (a, w')) : f w.1 = (a, w'.1) := by
  cases hf
  rfl

/-- A host with something beside it that none of its calls touches. -/
def paired (τ : Type) : Host (σ × τ) where
  log l w := (h.log l w.1, w.2)
  save path text := onFirst (h.save path text)
  read path := onFirst (h.read path)
  cancelled w := h.cancelled w.1
  tag dir id := onFirst (h.tag dir id)
  setLimit id soft hard := onFirst (h.setLimit id soft hard)
  readTag dir := onFirst (h.readTag dir)
  isPresent dir := onFirst (h.isPresent dir)
  list := onFirst h.list
  resolve c := onFirst (h.resolve c)
  connect := onFirst h.connect
  disconnect w := (h.disconnect w.1, w.2)
  subscribe := onFirst h.subscribe
  closeStream n w := (h.closeStream n w.1, w.2)
  onCancel n := onFirst (h.onCancel n)
  unregister n w := (h.unregister n w.1, w.2)

variable {h}

theorem Deeds.keeps {k : EventKind} {c : String} {d d' : Daemon σ} (hs : h.Deeds k c d d')
    (P : Daemon σ → Prop) (hdeed : ∀ d d', P d → h.Deed k c d d' → P d') (hd : P d) : P d' := by
  induction hs with
  | refl => exact hd
  | tail _ hstep ih => exact hdeed _ _ ih hstep

theorem Pass.keeps {d d' : Daemon σ} (hs : h.Pass d d') (P : Daemon σ → Prop)
    (hdeed : ∀ c d d', P d → h.Deed .create c d d' → P d') (hd : P d) : P d' := by
  induction hs with
  | refl => exact hd
  | tail _ hstep ih =>
    obtain ⟨c, hstep⟩ := hstep
    exact hdeed c _ _ ih hstep

theorem visit_keeps (P : Daemon σ → Prop)
    (hdeed : ∀ c d d', P d → h.Deed .create c d d' → P d') (c : String) (r : Report)
    (d : Daemon σ) (hd : P d) : P (Act.run (h.visit c r) d).2 := by
  refine (h.visit_moves c r d).keeps (fun _ d' => P d') ?_ [] hd
  rintro k b _ _ d₁ d₂ rfl hd₁ hm
  exact hdeed b d₁ d₂ hd₁ hm.deed

/-- What reserving the recorded IDs establishes and deeds keep, a reconciliation establishes. -/
theorem reconcile_establishes (P : Daemon σ → Prop) (d : Daemon σ)
    (hdeed : ∀ k c d d', P d → h.Deed k c d d' → P d')
    (hreserve : ∀ d', h.Reserving d.core.store.table d d' → P d') : P (h.serve d .reconcile) := by
  obtain ⟨d₁, hr, hp⟩ := h.reconcile_outcome d
  exact hp.keeps P (hdeed .create) (hreserve d₁ hr)

/-- What deeds, reservations and the outside keep, a request keeps. -/
theorem serve_keeps (P : Daemon σ → Prop) (q : Request σ)
    (hdeed : ∀ k c d d', P d → h.Deed k c d d' → P d')
    (hreserve : ∀ d d', P d → h.Reserving d.core.store.table d d' → P d')
    (hmean : ∀ f d, q = .meanwhile f → P d → P ⟨d.core, f d.outside⟩) (d : Daemon σ) (hd : P d) :
    P (h.serve d q) := by
  cases q with
  | reconcile => exact reconcile_establishes P d hdeed fun d' => hreserve d d' hd
  | handle e => exact (h.handleEvent_deeds e d).keeps P (hdeed e.kind e.container) hd
  | meanwhile f => exact hmean f d rfl hd

theorem serveAll_keeps (P : Daemon σ → Prop) (qs : List (Request σ))
    (hstep : ∀ d q, q ∈ qs → P d → P (h.serve d q)) (d : Daemon σ) (hd : P d) :
    P (h.serveAll d qs) := by
  induction qs generalizing d with
  | nil => exact hd
  | cons q qs ih =>
    exact ih (fun d q' hq => hstep d q' (List.mem_cons_of_mem q hq)) (h.serve d q)
      (hstep d q List.mem_cons_self hd)

/-! ### The marks of a run -/

variable (h) in
def marks (d : Daemon σ) : Request σ → List Mark
  | .reconcile => h.reconcileMarks d
  | .handle e => h.eventMarks e d
  | .meanwhile _ => []

variable (h) in
/-- All marks that requests leave, in their order. -/
def history (d : Daemon σ) : List (Request σ) → List Mark
  | [] => []
  | q :: qs => h.marks d q ++ history (h.serve d q) qs

section Carried

variable {P : List Mark → Daemon σ → Prop}

variable (h P) in
/-- What moves and reservations keep, the marks counted in. -/
structure Carried : Prop where
  move : ∀ k c ms ms' d d', P ms d → h.Move k c d ms' d' → P (ms ++ ms') d'
  reserve : ∀ ms d d', P ms d → h.Reserving d.core.store.table d d' → P ms d'

theorem Carried.reconcile (hc : h.Carried P) (old : List Mark) (d : Daemon σ)
    (hd : ∀ d', h.Reserving d.core.store.table d d' → P old d') :
    P (old ++ h.reconcileMarks d) (h.serve d .reconcile) := by
  obtain ⟨d₁, hr, hm⟩ := h.reconcile_moves d
  exact hm.keeps P (fun k c ms ms' d d' _ => hc.move k c ms ms' d d') old (hd d₁ hr)

theorem Carried.serve (hc : h.Carried P) (q : Request σ)
    (hmean : ∀ f ms d, q = .meanwhile f → P ms d → P ms ⟨d.core, f d.outside⟩) (old : List Mark)
    (d : Daemon σ) (hd : P old d) : P (old ++ h.marks d q) (h.serve d q) := by
  cases q with
  | reconcile => exact hc.reconcile old d fun d' => hc.reserve old d d' hd
  | handle e =>
    exact (h.handleEvent_moves e d).keeps P (fun k c ms ms' d d' _ => hc.move k c ms ms' d d') old hd
  | meanwhile f =>
    simp only [marks, List.append_nil]
    exact hmean f old d rfl hd

theorem Carried.serveAll (hc : h.Carried P) (qs : List (Request σ))
    (hmean : ∀ f ms d, .meanwhile f ∈ qs → P ms d → P ms ⟨d.core, f d.outside⟩) (old : List Mark)
    (d : Daemon σ) (hd : P old d) : P (old ++ h.history d qs) (h.serveAll d qs) := by
  induction qs generalizing old d with
  | nil =>
    simp only [history, List.append_nil]
    exact hd
  | cons q qs ih =>
    have hq : P (old ++ h.marks d q) (h.serve d q) :=
      hc.serve q (fun f ms d heq => hmean f ms d (heq ▸ List.mem_cons_self)) old d hd
    have hqs := ih (fun f ms d hm => hmean f ms d (List.mem_cons_of_mem q hm)) _ _ hq
    rw [List.append_assoc] at hqs
    exact hqs

end Carried

/-! ### The other containers -/

theorem Creation.sameBut {c : String} {d d' : Daemon σ} (hc : h.Creation c d d') :
    Table.SameBut c d.core.store.table d'.core.store.table := by
  cases hc with
  | idle => exact .refl _ _
  | kept e p w' he hp hq => exact .refl _ _
  | abandoned dir id p f w' he ha hn => exact .refl _ _
  | malformed dir id p w' he ha hn => exact .refl _ _
  | recorded dir id p e r s w₁ w₂ w' he ha hn hm hs hq =>
    obtain ⟨rfl, -, -⟩ := Entry.make_eq_valid c id dir e hm
    exact (Store.put_outcome _ _ _ _ _ _ _ hs).sameBut he

theorem Creation.keeps {c : String} {d d' : Daemon σ} (hc : h.Creation c d d') (b : String)
    (e : Entry) (hb : d.core.store.table.get? b = some e) :
    d'.core.store.table.get? b = some e := by
  by_cases hbc : b = c
  · subst hbc
    cases hc with
    | recorded dir id p x r s w₁ w₂ w' he ha hn hm hs hq =>
      rw [hb] at he
      cases he
    | _ => exact hb
  · rw [hc.sameBut.get b hbc]
    exact hb

/-- What taking a container out of the record comes to: it is out and its ID is free, it is back at the
end of the record, which was not written, or it is out although nothing was written. -/
inductive Forgotten (c : String) (id : Int) (core : Core) :
    Except Failure (Option Int) → Core → Prop
  | done : Forgotten c id core (.ok (some id))
      { core with
        pool := core.pool.release id, store := ⟨core.store.path, core.store.table.remove c⟩ }
  | undone (e : Entry) (he : core.store.table.get? c = some e) (f : Failure)
    (hf : f.isUnsaved = true) : Forgotten c id core (.error f)
      { core with store := ⟨core.store.path, core.store.table.remove c ++ [e]⟩ }
  | unwritten (e : Entry) (he : core.store.table.get? c = some e) (f : Failure)
    (hf : f.isUnsaved = false) : Forgotten c id core (.error f)
      { core with store := ⟨core.store.path, core.store.table.remove c⟩ }

theorem Forgetting.forgotten {c : String} {id : Int} {core : Core} {w : σ}
    {r : Except Failure (Option Int)} {d' : Daemon σ} (hf : h.Forgetting c id core w r d') :
    Forgotten c id core r d'.core := by
  cases hf with
  | done s w₁ w' hs hq =>
    generalize hok : (Except.ok () : Except Failure Unit) = r at hs
    cases Store.remove_outcome h.toDisk core.store s c w w₁ r hs with
    | absent hget =>
      have hdone : Forgotten c id core (.ok (some id)) _ := .done
      rw [Table.remove_absent _ c hget] at hdone
      exact hdone
    | written e he => exact .done
    | undone e he f hf => cases hok
    | unwritten e he f hf => cases hok
  | failed f s w' hs =>
    generalize her : (Except.error f : Except Failure Unit) = r at hs
    cases Store.remove_outcome h.toDisk core.store s c w w' r hs with
    | absent hget => cases her
    | written e he => cases her
    | undone e he g hg =>
      cases her
      exact .undone e he f hg
    | unwritten e he g hg =>
      cases her
      exact .unwritten e he f hg

theorem Forgetting.sameBut {c : String} {id : Int} {core : Core} {w : σ}
    {r : Except Failure (Option Int)} {d' : Daemon σ} (hf : h.Forgetting c id core w r d') :
    Table.SameBut c core.store.table d'.core.store.table := by
  have ho := hf.forgotten
  generalize d'.core = core' at ho
  cases ho with
  | done => exact Table.sameBut_remove _ c
  | undone e he f hf => exact Table.sameBut_remove_append _ c e he
  | unwritten e he f hf => exact Table.sameBut_remove _ c

/-- Where the path can name a file, all that can go wrong is that the record is not written. -/
theorem Forgetting.unsaved {c : String} {id : Int} {core : Core} {w : σ}
    {r : Except Failure (Option Int)} {d' : Daemon σ} (hf : h.Forgetting c id core w r d')
    (hn : Store.Nameable h.toDisk core.store.path) (f : Failure) (hr : r = .error f) :
    f.isUnsaved = true := by
  subst hr
  cases hf with
  | failed f s w' hs =>
    have hsave := Store.remove_eq_error _ _ s c _ _ f hs
    obtain ⟨fault, rfl⟩ := Store.save_eq_error _ _ _ _ _ f hn hsave
    rfl

/-- What forgetting a container leaves of it: nothing, or its entry where the record was not
written. -/
theorem Forgetting.own {c : String} {id : Int} {core : Core} {w : σ}
    {r : Except Failure (Option Int)} {d' : Daemon σ} (hf : h.Forgetting c id core w r d') :
    (∀ x ∈ d'.core.store.table, x.container ≠ c) ∨
      ∃ f e, r = .error f ∧ f.isUnsaved = true ∧ core.store.table.get? c = some e ∧
        d'.core.store.table.get? c = some e ∧
        ∀ x ∈ d'.core.store.table, x.container = c → x = e := by
  have hremoved : ∀ x ∈ core.store.table.remove c, x.container ≠ c :=
    fun x hx => ((Table.mem_remove _ c x).mp hx).2
  have ho := hf.forgotten
  generalize d'.core = core' at ho
  cases ho with
  | done => exact .inl hremoved
  | undone e he f hu =>
    refine .inr ⟨f, e, rfl, hu, he, ?_, fun x hx hxc => ?_⟩
    · exact (Table.get?_remove_append _ c c e he).trans he
    · rcases List.mem_append.mp hx with hx | hx
      · exact absurd hxc (hremoved x hx)
      · exact List.mem_singleton.mp hx
  | unwritten e he f hf => exact .inl hremoved

theorem Deletion.sameBut {c : String} {d d' : Daemon σ} {r : Except Failure (Option Int)}
    (hd : h.Deletion c d r d') : Table.SameBut c d.core.store.table d'.core.store.table := by
  cases hd with
  | idle r w' hr hq => exact .refl _ _
  | unclear id f w₁ w' hc hq hl => exact .refl _ _
  | cleared id rl w₁ w₂ w₃ r d' hc hq hl hn hf => exact hf.sameBut
  | gone e w₁ r d' he hq hf => exact hf.sameBut

/-! ### The path, the settings and the range -/

theorem Creation.path {c : String} {d d' : Daemon σ} (hc : h.Creation c d d') :
    d'.core.store.path = d.core.store.path := by
  cases hc with
  | recorded dir id p e r s w₁ w₂ w' he ha hn hm hs hq =>
    exact (Store.put_outcome _ _ _ _ _ _ _ hs).path
  | _ => rfl

theorem Forgetting.path {c : String} {id : Int} {core : Core} {w : σ}
    {r : Except Failure (Option Int)} {d' : Daemon σ} (hf : h.Forgetting c id core w r d') :
    d'.core.store.path = core.store.path := by
  cases hf with
  | done s w₁ w' hs hq => exact (Store.remove_outcome _ _ _ _ _ _ _ hs).path
  | failed f s w' hs => exact (Store.remove_outcome _ _ _ _ _ _ _ hs).path

theorem Deletion.path {c : String} {d d' : Daemon σ} {r : Except Failure (Option Int)}
    (hd : h.Deletion c d r d') : d'.core.store.path = d.core.store.path := by
  cases hd with
  | idle r w' hr hq => rfl
  | unclear id f w₁ w' hc hq hl => rfl
  | cleared id rl w₁ w₂ w₃ r d' hc hq hl hn hf => exact hf.path
  | gone e w₁ r d' he hq hf => exact hf.path

theorem Deed.path {k : EventKind} {c : String} {d d' : Daemon σ} (hd : h.Deed k c d d') :
    d'.core.store.path = d.core.store.path := by
  cases hd with
  | beside hb => rw [hb.store]
  | creation hk hc => exact hc.path
  | deletion hk r hd => exact hd.path

theorem serve_path (d : Daemon σ) (q : Request σ) :
    (h.serve d q).core.store.path = d.core.store.path :=
  serve_keeps (fun d' => d'.core.store.path = d.core.store.path) q
    (fun _ _ _ _ heq hd => hd.path.trans heq)
    (fun _ _ heq hr => (congrArg Store.path hr.store).trans heq) (fun _ _ _ heq => heq) d rfl

theorem serveAll_path (d : Daemon σ) (qs : List (Request σ)) :
    (h.serveAll d qs).core.store.path = d.core.store.path :=
  serveAll_keeps (fun d' => d'.core.store.path = d.core.store.path) qs
    (fun d' q _ heq => (serve_path d' q).trans heq) d rfl

theorem Creation.settings {c : String} {d d' : Daemon σ} (hc : h.Creation c d d') :
    d'.core.settings = d.core.settings := by
  cases hc <;> rfl

theorem Deletion.settings {c : String} {d d' : Daemon σ} {r : Except Failure (Option Int)}
    (hd : h.Deletion c d r d') : d'.core.settings = d.core.settings := by
  cases hd with
  | idle r w' hr hq => rfl
  | unclear id f w₁ w' hc hq hl => rfl
  | cleared id rl w₁ w₂ w₃ r d' hc hq hl hn hf => cases hf <;> rfl
  | gone e w₁ r d' he hq hf => cases hf <;> rfl

theorem Deed.settings {k : EventKind} {c : String} {d d' : Daemon σ} (hd : h.Deed k c d d') :
    d'.core.settings = d.core.settings := by
  cases hd with
  | beside hb => exact hb.settings
  | creation hk hc => exact hc.settings
  | deletion hk r hd => exact hd.settings

theorem serve_settings (d : Daemon σ) (q : Request σ) :
    (h.serve d q).core.settings = d.core.settings :=
  serve_keeps (fun d' => d'.core.settings = d.core.settings) q
    (fun _ _ _ _ heq hd => hd.settings.trans heq) (fun _ _ heq hr => hr.settings.trans heq)
    (fun _ _ _ heq => heq) d rfl

theorem Creation.inRange {c : String} {d d' : Daemon σ} (hc : h.Creation c d d') (n : Int) :
    d'.core.pool.inRange n = d.core.pool.inRange n := by
  cases hc with
  | idle => rfl
  | kept e p w' he hp hq =>
    obtain ⟨-, rfl⟩ := (Pool.markUsed_eq_ok d.core.pool p e.projectId).mp hp
    exact Pool.insert_inRange _ _ _
  | abandoned dir id p f w' he ha hn =>
    obtain ⟨-, -, rfl⟩ := Pool.allocate_fresh d.core.pool p id ha
    cases hf : freesId f with
    | true => exact Pool.insert_inRange _ _ _
    | false => exact Pool.insert_inRange _ _ _
  | malformed dir id p w' he ha hn =>
    obtain ⟨-, -, rfl⟩ := Pool.allocate_fresh d.core.pool p id ha
    exact Pool.insert_inRange _ _ _
  | recorded dir id p e r s w₁ w₂ w' he ha hn hm hs hq =>
    obtain ⟨-, -, rfl⟩ := Pool.allocate_fresh d.core.pool p id ha
    exact Pool.insert_inRange _ _ _

theorem Forgetting.inRange {c : String} {id : Int} {core : Core} {w : σ}
    {r : Except Failure (Option Int)} {d' : Daemon σ} (hf : h.Forgetting c id core w r d')
    (n : Int) : d'.core.pool.inRange n = core.pool.inRange n := by
  cases hf with
  | done s w₁ w' hs hq => exact Pool.release_inRange _ _ _
  | failed f s w' hs => rfl

theorem Deed.inRange {k : EventKind} {c : String} {d d' : Daemon σ} (hd : h.Deed k c d d')
    (n : Int) : d'.core.pool.inRange n = d.core.pool.inRange n := by
  cases hd with
  | beside hb => rw [hb.pool]
  | creation hk hc => exact hc.inRange n
  | deletion hk r hd =>
    cases hd with
    | idle r w' hr hq => rfl
    | unclear id f w₁ w' hc hq hl => rfl
    | cleared id rl w₁ w₂ w₃ r d' hc hq hl hn hf => exact hf.inRange n
    | gone e w₁ r d' he hq hf => exact hf.inRange n

theorem serve_inRange (d : Daemon σ) (q : Request σ) (n : Int) :
    (h.serve d q).core.pool.inRange n = d.core.pool.inRange n :=
  serve_keeps (fun d' => d'.core.pool.inRange n = d.core.pool.inRange n) q
    (fun _ _ _ _ heq hd => (hd.inRange n).trans heq) (fun _ _ heq hr => (hr.inRange n).trans heq)
    (fun _ _ _ heq => heq) d rfl

theorem session_inRange (d : Daemon σ) (qs : List (Request σ)) (n : Int) :
    (h.session d qs).core.pool.inRange n = d.core.pool.inRange n :=
  serveAll_keeps (fun d' => d'.core.pool.inRange n = d.core.pool.inRange n) qs
    (fun d' q _ heq => (serve_inRange d' q n).trans heq) _ (serve_inRange d .reconcile n)

end LayerQuota.Host
