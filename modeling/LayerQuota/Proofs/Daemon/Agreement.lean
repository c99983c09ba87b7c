import LayerQuota.Proofs.Daemon.Isolation
import LayerQuota.Proofs.Daemon.Regular
/-!
# A reconciliation comes to what the events come to

The two ways to a quota: a reconciliation goes over the containers that run, and each event of a
creation is handled by itself. They look at a container differently, count differently and write
other lines to the journal, but where the calls on quotas and the writes answer alike, so do they.
What a call may answer by is a view of the outside, which neither the journal nor a look at the
runtime changes.
-/

namespace LayerQuota.Host

open LayerQuota.Act

variable {σ κ α β : Type}

/-- A call that answers by what is seen of the outside, and changes what is seen by that alone. -/
def Determined (view : σ → κ) (f : σ → α × σ) : Prop :=
  ∀ w w', view w = view w' → (f w).1 = (f w').1 ∧ view (f w).2 = view (f w').2

/-- A host whose calls on quotas, writes and look-ups answer by a view, which no other call of a
creation or a reconciliation changes. -/
structure Scripted (h : Host σ) (view : σ → κ) : Prop where
  log : ∀ l w, view (h.log l w) = view w
  list : ∀ w, view (h.list w).2 = view w
  isPresent : ∀ dir w, view (h.isPresent dir w).2 = view w
  tag : ∀ dir id, Determined view (h.tag dir id)
  setLimit : ∀ id soft hard, Determined view (h.setLimit id soft hard)
  save : ∀ path text, Determined view (h.save path text)
  resolve : ∀ c, Determined view (h.resolve c)

/-- A host that is never cancelled, on which a look-up fails as such and every directory that it
finds is there. -/
structure Undisturbed (h : Host σ) : Prop where
  cancelled : ∀ w, h.cancelled w = false
  lookup : ∀ c w f w', h.resolve c w = (.error f, w') → ∃ m, f = .lookup m
  present : ∀ c w dir w', h.resolve c w = (.ok dir, w') → (h.isPresent dir w').1 = .ok true

/-- Two daemons that agree in all but what is counted and what is not seen. -/
structure Agree (view : σ → κ) (d d' : Daemon σ) : Prop where
  settings : d'.core.settings = d.core.settings
  pool : d'.core.pool = d.core.pool
  store : d'.core.store = d.core.store
  seen : view d.outside = view d'.outside

/-- An act that comes to the same on daemons that agree, and leaves them agreeing. -/
def Respects (view : σ → κ) (x : Act σ α) : Prop :=
  ∀ d d', Agree view d d' →
    (Act.run x d).1 = (Act.run x d').1 ∧ Agree view (Act.run x d).2 (Act.run x d').2

/-! ### Acts -/

variable {h : Host σ} {view : σ → κ}

namespace Respects

theorem pure (a : α) : Respects view (pure a : Act σ α) := fun _ _ hd => ⟨rfl, hd⟩

theorem throw (f : Failure) : Respects view (throw f : Act σ α) := fun _ _ hd => ⟨rfl, hd⟩

theorem bind {x : Act σ α} {f : α → Act σ β} (hx : Respects view x)
    (hf : ∀ a, Respects view (f a)) : Respects view (x >>= f) := by
  intro d d' hd
  obtain ⟨hr, hs⟩ := hx d d' hd
  rw [run_bind, run_bind]
  generalize Act.run x d = a at hr hs
  generalize Act.run x d' = a' at hr hs
  obtain ⟨r, d₁⟩ := a
  obtain ⟨r', d₁'⟩ := a'
  cases hr
  rcases r with e | a
  · exact ⟨rfl, hs⟩
  · exact hf a d₁ d₁' hs

theorem attempt {x : Act σ α} (hx : Respects view x) : Respects view (attempt x) := by
  intro d d' hd
  obtain ⟨hr, hs⟩ := hx d d' hd
  exact ⟨congrArg Except.ok hr, hs⟩

theorem call {f : σ → Except Failure α × σ} (hf : Determined view f) : Respects view (call f) := by
  intro d d' hd
  obtain ⟨hr, hw⟩ := hf d.outside d'.outside hd.seen
  exact ⟨hr, hd.settings, hd.pool, hd.store, hw⟩

end Respects

theorem Scripted.note (hs : h.Scripted view) (l : Level) (m : String) :
    Respects view (h.note l m) := by
  intro d d' hd
  refine ⟨rfl, hd.settings, hd.pool, hd.store, ?_⟩
  exact (hs.log _ _).trans (hd.seen.trans (hs.log _ _).symm)

theorem Undisturbed.checkpoint (hu : h.Undisturbed) : Respects view h.checkpoint := by
  intro d d' hd
  rw [run_checkpoint, run_checkpoint, hu.cancelled, hu.cancelled]
  exact ⟨rfl, hd⟩

theorem markUsed_respects (id : Int) : Respects view (h.markUsed id) := by
  intro d d' hd
  rw [run_markUsed, run_markUsed, hd.pool]
  cases d.core.pool.markUsed id with
  | ok p => exact ⟨rfl, hd.settings, rfl, hd.store, hd.seen⟩
  | error f => exact ⟨rfl, hd⟩

theorem release_respects (id : Int) : Respects view (h.release id) := by
  intro d d' hd
  exact ⟨rfl, hd.settings, congrArg (·.release id) hd.pool, hd.store, hd.seen⟩

theorem allocate_respects : Respects view h.allocate := by
  intro d d' hd
  rw [run_allocate, run_allocate, hd.pool]
  rcases d.core.pool.allocate with f | ⟨id, p⟩
  · exact ⟨rfl, hd⟩
  · exact ⟨rfl, hd.settings, rfl, hd.store, hd.seen⟩

theorem entry?_respects (c : String) : Respects view (h.entry? c) := by
  intro d d' hd
  rw [ run_entry?, run_entry?, hd.store]
  exact ⟨rfl, hd⟩

/-- An act that looks at the core for its settings only. -/
theorem settings_respects {f : Core → Act σ α}
    (hset : ∀ c c', c.settings = c'.settings → f c = f c') (hf : ∀ c, Respects view (f c)) :
    Respects view (core >>= f) := by
  intro d d' hd
  rw [run_bind_ok _ _ d d _ (run_core d), run_bind_ok _ _ d' d' _ (run_core d'),
    hset d'.core d.core hd.settings]
  exact hf d.core d d' hd

/-! ### Creation -/

theorem Scripted.write (hs : h.Scripted view) (s : Store) (t : Table) :
    Determined view (Store.save h.toDisk s t) := by
  intro w w' hw
  obtain ⟨hr, hv⟩ := hs.save s.path (Document.render t) w w' hw
  unfold Store.save
  generalize h.save s.path (Document.render t) w = a at hr hv
  generalize h.save s.path (Document.render t) w' = a' at hr hv
  obtain ⟨r, w₁⟩ := a
  obtain ⟨r', w₁'⟩ := a'
  cases hr
  have hlog : ∀ l, view (h.log l w₁) = view (h.log l w₁') := fun l =>
    (hs.log l w₁).trans (hv.trans (hs.log l w₁').symm)
  rcases r with f | u
  · cases f with
    | embeddedNull => exact ⟨rfl, hv⟩
    | system code text names => exact ⟨rfl, hlog _⟩
    | plain m => exact ⟨rfl, hlog _⟩
  · exact ⟨rfl, hv⟩

theorem Scripted.put (hs : h.Scripted view) (s : Store) (e : Entry) (w w' : σ)
    (hw : view w = view w') :
    (s.put h.toDisk e w).1 = (s.put h.toDisk e w').1 ∧
      (s.put h.toDisk e w).2.1 = (s.put h.toDisk e w').2.1 ∧
      view (s.put h.toDisk e w).2.2 = view (s.put h.toDisk e w').2.2 := by
  obtain ⟨hr, hv⟩ := hs.write s (s.table.put e) w w' hw
  simp only [Store.put]
  generalize Store.save h.toDisk s (s.table.put e) w = a at hr hv
  generalize Store.save h.toDisk s (s.table.put e) w' = a' at hr hv
  obtain ⟨r, w₁⟩ := a
  obtain ⟨r', w₁'⟩ := a'
  cases hr
  rcases r with f | u
  · exact ⟨rfl, rfl, hv⟩
  · exact ⟨rfl, rfl, hv⟩

theorem put_respects (hs : h.Scripted view) (e : Entry) :
    Respects view (h.onStore fun disk store => store.put disk e) := by
  intro d d' hd
  obtain ⟨hr, hstore, hv⟩ := hs.put d.core.store e d.outside d'.outside hd.seen
  rw [run_onStore, run_onStore, hd.store]
  exact ⟨hr, hd.settings, hd.pool, hstore.symm, hv⟩

theorem enforce_respects (hs : h.Scripted view) (hu : h.Undisturbed) (dir : Layer) (id : Int) :
    Respects view (h.enforce dir id) :=
  hu.checkpoint.bind fun _ => (Respects.call (hs.tag dir id)).bind fun _ =>
    hu.checkpoint.bind fun _ => settings_respects (fun c c' heq => by simp only [heq]) fun c =>
      .call (hs.setLimit id c.settings.softLimit c.settings.hardLimit)

theorem assign_respects (hs : h.Scripted view) (hu : h.Undisturbed) (dir : Layer) :
    Respects view (h.assign dir) := by
  refine hu.checkpoint.bind fun _ => allocate_respects.bind fun id =>
    (enforce_respects hs hu dir id).attempt.bind fun r => ?_
  rcases r with f | u
  · simp only
    cases freesId f with
    | true => exact (release_respects id).bind fun _ => .throw f
    | false => exact .throw f
  · exact .pure id

theorem record_respects (hs : h.Scripted view) (c : String) (dir : Layer) (id : Int) :
    Respects view (h.record c dir id) := by
  unfold record
  cases Entry.make (.text c) (.int id) dir with
  | invalid vs => exact .throw _
  | valid e =>
    refine (put_respects hs e).attempt.bind fun r => ?_
    rcases r with f | u
    · simp only
      cases f.isUnsaved with
      | true => exact (hs.note _ _).bind fun _ => .throw f
      | false => exact .throw f
    · exact settings_respects (fun c c' heq => by simp only [heq]) fun c =>
        (hs.note _ _).bind fun _ => .pure e

theorem reassert_respects (hs : h.Scripted view) (e : Entry) (dir : Layer) :
    Respects view (h.reassert e dir) := by
  refine (markUsed_respects e.projectId).bind fun _ => ?_
  cases isLayerOf e dir with
  | true => exact .pure e
  | false => exact (hs.note _ _).bind fun _ => .pure e

theorem create_respects (hs : h.Scripted view) (hu : h.Undisturbed) (c : String) (dir : Layer) :
    Respects view (h.create c dir) := by
  refine (entry?_respects c).bind fun e? => ?_
  cases e? with
  | some e => exact reassert_respects hs e dir
  | none => exact (assign_respects hs hu dir).bind fun id => record_respects hs c dir id

/-! ### How a creation can fail -/

theorem Regular.enforcing_own (hr : h.Regular) {s : Settings} {dir : Layer} {id : Int} {w w' : σ}
    {f : Failure} (hdir : ∃ path, dir = Layer.ofPath path)
    (hn : h.Enforcing s dir id w (.error f) w') :
    f.isOwn = true ∧ (f = .cancelled → ∃ v, h.cancelled v = true) := by
  have htool : ∀ f, (∃ m cmd out, f = Failure.enforcement m cmd out) →
      f.isOwn = true ∧ (f = .cancelled → ∃ v, h.cancelled v = true) := by
    rintro _ ⟨m, cmd, out, rfl⟩
    exact ⟨rfl, nofun⟩
  obtain ⟨path, rfl⟩ := hdir
  cases hn with
  | overtaken hc => exact ⟨rfl, fun _ => ⟨_, hc⟩⟩
  | untagged f w' ht => exact htool f (hr.tag path id w f w' ht)
  | halted w' ht hc => exact ⟨rfl, fun _ => ⟨_, hc⟩⟩
  | limited w₁ w' r ht hl => exact htool f (hr.setLimit id _ _ w₁ f w' hl)

/-- What the IDs and the path of a daemon are good for: every ID of the range can be recorded, and
the path can name a file. -/
structure Able (h : Host σ) (d : Daemon σ) : Prop where
  recordable : ∀ n, d.core.pool.inRange n = true → Entry.Recordable n
  nameable : Store.Nameable h.toDisk d.core.store.path

/-- The creation of a container that has no entry fails in the daemon's own ways, and is abandoned
only for a scope that is cancelled. -/
theorem CreateOutcome.own {c : String} {dir : Layer} {d d' : Daemon σ} {f : Failure}
    (ho : h.CreateOutcome c dir d (.error f) d') (hr : h.Regular) (hd : h.Able d)
    (hdir : ∃ path, dir = Layer.ofPath path) (he : d.core.store.table.get? c = none) :
    f.isOwn = true ∧ (f = .cancelled → ∃ v, h.cancelled v = true) := by
  generalize hres : (Except.error f : Except Failure Entry) = res at ho
  cases ho with
  | kept e p w' he' hp hq => cases hres
  | refused e g he' hp => cases he.symm.trans he'
  | overtaken he' hc =>
    cases hres
    exact ⟨rfl, fun _ => ⟨_, hc⟩⟩
  | exhausted g he' ha =>
    cases hres
    unfold Pool.allocate at ha
    split at ha
    · cases ha
    · cases ha
      exact ⟨rfl, nofun⟩
  | abandoned id p g w' he' ha hn =>
    cases hres
    exact hr.enforcing_own hdir hn
  | malformed id p vs w' he' ha hn hm =>
    -- a text and an ID of the range make an entry
    obtain ⟨path, rfl⟩ := hdir
    obtain ⟨-, hin, -⟩ := Pool.allocate_fresh d.core.pool p id ha
    cases hm.symm.trans (Entry.make_text c id path (hd.recordable id hin))
  | recorded id p e r s w₁ w₂ w' he' ha hn hm hs hq =>
    rcases Store.put_settled _ _ _ e _ _ r hd.nameable hs with ⟨rfl, -⟩ | ⟨⟨fault, rfl⟩, -⟩
    · cases hres
    · cases hres
      exact ⟨rfl, nofun⟩

/-! ### A visit and an event -/

theorem Agree.refl (d : Daemon σ) : Agree view d d := ⟨rfl, rfl, rfl, rfl⟩

theorem Agree.trans {d d₁ d₂ : Daemon σ} (ha : Agree view d d₁) (hb : Agree view d₁ d₂) :
    Agree view d d₂ :=
  ⟨hb.settings.trans ha.settings, hb.pool.trans ha.pool, hb.store.trans ha.store,
    ha.seen.trans hb.seen⟩

theorem Agree.symm {d d' : Daemon σ} (ha : Agree view d d') : Agree view d' d :=
  ⟨ha.settings.symm, ha.pool.symm, ha.store.symm, ha.seen.symm⟩

theorem Agree.ofSeen (core : Core) {w w' : σ} (hw : view w = view w') :
    Agree view ⟨core, w⟩ ⟨core, w'⟩ :=
  ⟨rfl, rfl, rfl, hw⟩

def creationOf (c : String) : Event := ⟨.create, c, []⟩

/-- A report counts what a creation answered. -/
def Counts (r r' : Report) : Except Failure Entry → Prop
  | .ok _ => r'.created + r'.restored = r.created + r.restored + 1 ∧ r'.failed = r.failed
  | .error _ => r'.created + r'.restored = r.created + r.restored ∧ r'.failed = r.failed + 1

/-- A visit goes on, with what a creation comes to and with a report that counts it. -/
def KeepsUp (view : σ → κ) (r : Report) (visit : Except Failure (Report × Bool) × Daemon σ)
    (creation : Except Failure Entry × Daemon σ) : Prop :=
  ∃ r₁ d₁, visit = (.ok (r₁, true), d₁) ∧ Agree view d₁ creation.2 ∧ Counts r r₁ creation.1 ∧
    creation.1 ≠ .error .cancelled

theorem ok_ne_cancelled (e : Entry) : (.ok e : Except Failure Entry) ≠ .error .cancelled := by
  intro heq
  cases heq

theorem error_ne_cancelled {f : Failure} (hf : f ≠ .cancelled) :
    (.error f : Except Failure Entry) ≠ .error .cancelled :=
  fun heq => hf (Except.error.inj heq)

theorem restore_agrees (hs : h.Scripted view) (e : Entry) (dir : Layer) (r : Report)
    (d d' : Daemon σ) (ha : Agree view d d') :
    KeepsUp view r (Act.run (h.restore e dir r) d) (Act.run (h.reassert e dir) d') := by
  rw [restore, reassert, run_bind, run_bind, run_attempt, run_markUsed, run_markUsed, ha.pool]
  cases d.core.pool.markUsed e.projectId with
  | error f => exact ⟨_, _, rfl, ha, ⟨rfl, rfl⟩, error_ne_cancelled fun heq => by cases heq⟩
  | ok p =>
    have hmarked : Agree view ⟨{ d.core with pool := p }, d.outside⟩
        ⟨{ d'.core with pool := p }, d'.outside⟩ := ⟨ha.settings, rfl, ha.store, ha.seen⟩
    simp only
    cases isLayerOf e dir with
    | true => exact ⟨_, _, rfl, hmarked, ⟨by simp only; omega, rfl⟩, ok_ne_cancelled e⟩
    | false =>
      refine ⟨_, _, rfl, ?_, ⟨by simp only; omega, rfl⟩, ok_ne_cancelled e⟩
      exact ⟨ha.settings, rfl, ha.store, (hs.log _ _).trans (ha.seen.trans (hs.log _ _).symm)⟩

theorem supply_agrees (hs : h.Scripted view) (hr : h.Regular) (hu : h.Undisturbed) (c : String)
    (dir : Layer) (hdir : ∃ path, dir = Layer.ofPath path) (r : Report) (d d' : Daemon σ)
    (ha : Agree view d d') (hd : h.Able d) (he : d.core.store.table.get? c = none) :
    KeepsUp view r (Act.run (h.supply c dir r) d) (Act.run (h.create c dir) d') := by
  obtain ⟨hres, hag⟩ := create_respects hs hu c dir d d' ha
  have ho := h.create_outcome c dir d
  rw [supply, run_bind, run_attempt]
  generalize Act.run (h.create c dir) d = a at hres hag ho ⊢
  generalize Act.run (h.create c dir) d' = a' at hres hag ⊢
  obtain ⟨res, d₁⟩ := a
  obtain ⟨res', d₁'⟩ := a'
  cases hres
  rcases res with f | e
  · obtain ⟨hown, hcancel⟩ := ho.own hr hd hdir he
    have hnot : f ≠ .cancelled := fun heq => by
      obtain ⟨v, hv⟩ := hcancel heq
      rw [hu.cancelled v] at hv
      cases hv
    have hlog : ∀ l, Agree view ⟨d₁.core, h.log l d₁.outside⟩ d₁' :=
      fun l => (Agree.ofSeen d₁.core (hs.log l d₁.outside)).trans hag
    simp only
    split
    · exact ⟨_, _, rfl, hlog _, ⟨rfl, rfl⟩, error_ne_cancelled hnot⟩
    · contradiction
  · exact ⟨_, _, rfl, hag, ⟨by simp only; omega, rfl⟩, ok_ne_cancelled e⟩

theorem run_create_of_recorded (c : String) (dir : Layer) (e : Entry) (d : Daemon σ)
    (he : d.core.store.table.get? c = some e) :
    Act.run (h.create c dir) d = Act.run (h.reassert e dir) d := by
  rw [create, run_bind, run_entry?, he]

theorem visit_agrees (hs : h.Scripted view) (hr : h.Regular) (hu : h.Undisturbed) (c : String)
    (r : Report) (d d' : Daemon σ) (ha : Agree view d d') (hd : h.Able d) :
    KeepsUp view r (Act.run (h.visit c r) d)
      (Act.run (h.handleCreate (creationOf c)) d') := by
  have hcreate : h.handleCreate (creationOf c) = Act.call (h.resolve c) >>= h.create c := rfl
  obtain ⟨hres, hw⟩ := hs.resolve c d.outside d'.outside ha.seen
  rw [visit, run_bind, run_isCancelled, hu.cancelled, hcreate, run_bind, run_call]
  simp only [Bool.false_eq_true, if_false]
  rw [run_bind, run_attempt, run_call]
  generalize hat : h.resolve c d.outside = a at hres hw
  generalize h.resolve c d'.outside = a' at hres hw
  obtain ⟨res, w⟩ := a
  obtain ⟨res', w'⟩ := a'
  cases hres
  rcases res with f | dir
  · obtain ⟨m, rfl⟩ := hu.lookup c _ _ _ hat
    refine ⟨_, _, rfl, ?_, ⟨rfl, rfl⟩, error_ne_cancelled fun heq => by cases heq⟩
    exact ⟨ha.settings, ha.pool, ha.store, (hs.log _ w).trans hw⟩
  · simp only
    rw [settle, run_bind, run_call, hu.present c _ dir w hat]
    simp only [if_true]
    rw [run_bind, run_entry?]
    -- looking whether the directory is there changes nothing that is seen
    have ha₁ : Agree view ⟨d.core, (h.isPresent dir w).2⟩ ⟨d'.core, w'⟩ :=
      ⟨ha.settings, ha.pool, ha.store, (hs.isPresent dir w).trans hw⟩
    cases he : d.core.store.table.get? c with
    | none =>
      exact supply_agrees hs hr hu c dir (hr.resolve c _ dir w hat) r _ _ ha₁
        ⟨hd.recordable, hd.nameable⟩ he
    | some e =>
      have he' : d'.core.store.table.get? c = some e := ha.store ▸ he
      rw [run_create_of_recorded c dir e ⟨d'.core, w'⟩ he']
      exact restore_agrees hs e dir r _ _ ha₁

/-! ### Counting -/

/-- What a report counted more than another, the daemon counted as handled and as failed. -/
structure Tally (r r' : Report) (core core' : Core) : Prop where
  handled : core'.handled + (r.created + r.restored) = core.handled + (r'.created + r'.restored)
  failed : core'.failed + r.failed = core.failed + r'.failed

theorem Tally.trans {r r₁ r₂ : Report} {core core₁ core₂ : Core} (ha : Tally r r₁ core core₁)
    (hb : Tally r₁ r₂ core₁ core₂) : Tally r r₂ core core₂ := by
  obtain ⟨ha₁, ha₂⟩ := ha
  obtain ⟨hb₁, hb₂⟩ := hb
  constructor
  · omega
  · omega

theorem Creation.counts {c : String} {d d' : Daemon σ} (hc : h.Creation c d d') :
    d'.core.handled = d.core.handled ∧ d'.core.failed = d.core.failed := by
  cases hc <;> exact ⟨rfl, rfl⟩

theorem handleCreate_counts (c : String) (d : Daemon σ) :
    (Act.run (h.handleCreate (creationOf c)) d).2.core.handled = d.core.handled ∧
      (Act.run (h.handleCreate (creationOf c)) d).2.core.failed = d.core.failed := by
  rw [handleCreate_eq, run_bind]
  obtain ⟨r, w, hrun, -, -⟩ := h.layerOf_outcome (creationOf c) d
  rw [hrun]
  rcases r with f | dir
  · exact ⟨rfl, rfl⟩
  · exact (h.create_outcome c dir ⟨d.core, w⟩).creation.counts

/-- The event of a creation leaves what the creation leaves, and is counted by what that answers. -/
theorem handle_counts (hs : h.Scripted view) (c : String) (r r₁ : Report) (d : Daemon σ)
    (hr : Counts r r₁ (Act.run (h.handleCreate (creationOf c)) d).1)
    (hnot : (Act.run (h.handleCreate (creationOf c)) d).1 ≠ .error .cancelled) :
    Agree view (Act.run (h.handleCreate (creationOf c)) d).2 (h.serve d (.handle (creationOf c))) ∧
      Tally r r₁ d.core (h.serve d (.handle (creationOf c))).core := by
  obtain ⟨hhandled, hfailed⟩ := h.handleCreate_counts c d
  have hstate := h.applyEvent_create (creationOf c) rfl d
  have hans : (Act.run (h.applyEvent (creationOf c)) d).1 =
      (Act.run (h.handleCreate (creationOf c)) d).1.map fun _ => () := run_bind_drop_fst _ _ d
  simp only [serve]
  cases hres : (Act.run (h.handleCreate (creationOf c)) d).1 with
  | error f =>
    rw [hres] at hans hr hnot
    obtain ⟨m, hrun⟩ := h.handleEvent_failed (creationOf c) d f (fun heq => hnot (heq ▸ rfl)) hans
    rw [hrun, hstate]
    obtain ⟨hsum, hone⟩ := hr
    refine ⟨⟨rfl, rfl, rfl, (hs.log ⟨.error, m⟩ _).symm⟩, ?_, ?_⟩
    · simp only
      omega
    · simp only
      omega
  | ok e =>
    rw [hres] at hans hr
    rw [h.handleEvent_applied (creationOf c) d hans]
    simp only
    rw [hstate]
    obtain ⟨hsum, hone⟩ := hr
    refine ⟨⟨rfl, rfl, rfl, rfl⟩, ?_, ?_⟩
    · simp only
      omega
    · simp only
      omega

/-! ### Passes -/

theorem Able.visit {d : Daemon σ} (hd : h.Able d) (c : String) (r : Report) :
    h.Able (Act.run (h.visit c r) d).2 := by
  refine visit_keeps (fun d' => h.Able d') (fun c d d' hd hdeed => ⟨fun n hin => ?_, ?_⟩) c r d hd
  · rw [hdeed.inRange] at hin
    exact hd.recordable n hin
  · rw [hdeed.path]
    exact hd.nameable

theorem visitAll_agrees (hs : h.Scripted view) (hr : h.Regular) (hu : h.Undisturbed)
    (live : List String) (r : Report) (d d' : Daemon σ) (ha : Agree view d d') (hd : h.Able d) :
    ∃ r₁ d₁, Act.run (h.visitAll live r) d = (.ok r₁, d₁) ∧
      Agree view d₁ (h.serveAll d' (live.map fun c => .handle (creationOf c))) ∧
      Tally r r₁ d'.core (h.serveAll d' (live.map fun c => .handle (creationOf c))).core := by
  induction live generalizing r d d' with
  | nil => exact ⟨r, d, rfl, ha, rfl, rfl⟩
  | cons c live ih =>
    obtain ⟨r₁, d₁, hrun, hag, hcount, hnot⟩ := visit_agrees hs hr hu c r d d' ha hd
    have hd₁ : h.Able d₁ := by
      have hvisit := hd.visit c r
      rw [hrun] at hvisit
      exact hvisit
    -- both daemons go on with the rest of the list from where they agree again
    obtain ⟨hserve, htally⟩ := handle_counts hs c r r₁ d' hcount hnot
    obtain ⟨r₂, d₂, hrun₂, hag₂, htally₂⟩ := ih r₁ d₁ _ (hag.trans hserve) hd₁
    refine ⟨r₂, d₂, ?_, hag₂, htally.trans htally₂⟩
    rw [visitAll, run_bind, hrun]
    exact hrun₂

theorem reserveAll_agrees (hs : h.Scripted view) (t : Table) (d : Daemon σ)
    (hres : ∀ e ∈ t, d.core.pool.inRange e.projectId = true → e.projectId ∈ d.core.pool.used) :
    ∃ d₁, Act.run (h.reserveAll t) d = (.ok (), d₁) ∧ Agree view d d₁ := by
  induction t generalizing d with
  | nil => exact ⟨d, rfl, .refl d⟩
  | cons e t ih =>
    have hrest := fun x hx => hres x (List.mem_cons_of_mem e hx)
    rw [reserveAll, run_bind, run_attempt, run_markUsed]
    cases hin : d.core.pool.inRange e.projectId with
    | false =>
      simp only [Pool.markUsed, hin, Bool.false_eq_true, if_false]
      rw [run_bind, run_note]
      obtain ⟨d₁, hrun, hag⟩ := ih ⟨d.core, h.log _ d.outside⟩ hrest
      exact ⟨d₁, hrun, (Agree.ofSeen d.core (hs.log _ _).symm).trans hag⟩
    | true =>
      have hsame := Pool.insert_of_used d.core.pool _ (hres e List.mem_cons_self hin)
      simp only [Pool.markUsed, hin, if_true, hsame]
      exact ih d hrest

theorem conclude_agrees (hs : h.Scripted view) (live : List String) (r : Report) (d : Daemon σ) :
    ∃ stale d₁, Act.run (h.conclude live r) d = (.ok { r with stale }, d₁) ∧ Agree view d d₁ := by
  rw [conclude, run_bind, run_core]
  simp only
  split
  · exact ⟨_, _, rfl, rfl, rfl, rfl, (hs.log _ _).symm⟩
  · exact ⟨_, _, rfl, rfl, rfl, rfl, ((hs.log _ _).trans (hs.log _ _)).symm⟩

theorem reconcile_agrees (hs : h.Scripted view) (hr : h.Regular) (hu : h.Undisturbed)
    (d : Daemon σ) (hd : h.Able d)
    (hres : ∀ e ∈ d.core.store.table, d.core.pool.inRange e.projectId = true →
      e.projectId ∈ d.core.pool.used)
    (live : List String) (hlist : ∀ w, view w = view d.outside → (h.list w).1 = .ok live) :
    ∃ r, (Act.run h.reconcile d).1 = .ok r ∧
      Agree view (h.serve d .reconcile)
        (h.serveAll d (live.map fun c => .handle (creationOf c))) ∧
      Tally (Report.opening live.length) r d.core
        (h.serveAll d (live.map fun c => .handle (creationOf c))).core := by
  obtain ⟨d₁, hreserve, hag⟩ := reserveAll_agrees hs d.core.store.table d hres
  have hlive := hlist d₁.outside hag.seen.symm
  simp only [serve]
  rw [reconcile, run_bind, run_core]
  simp only
  rw [run_bind, hreserve]
  simp only
  rw [run_bind, run_call, hlive]
  simp only
  have hag₁ : Agree view ⟨d₁.core, (h.list d₁.outside).2⟩ d :=
    (Agree.ofSeen d₁.core (hs.list d₁.outside)).trans hag.symm
  have hd₁ : h.Able ⟨d₁.core, (h.list d₁.outside).2⟩ :=
    ⟨fun n hin => hd.recordable n (hag.pool ▸ hin), hag.store ▸ hd.nameable⟩
  obtain ⟨r, d₂, hrun, hag₂, htally⟩ :=
    visitAll_agrees hs hr hu live (Report.opening live.length) _ d hag₁ hd₁
  rw [run_bind, hrun]
  obtain ⟨stale, d₃, hend, hag₃⟩ := conclude_agrees hs live r d₂
  simp only
  rw [hend]
  exact ⟨_, rfl, hag₃.symm.trans hag₂, htally.handled, htally.failed⟩

/-! ### The calls on quotas -/

def withCalls (view : σ → κ) (w : σ × List QuotaCall) : κ × List QuotaCall := (view w.1, w.2)

theorem Determined.onFirst {f : σ → α × σ} (hf : Determined view f) :
    Determined (withCalls view) (Host.onFirst f) := by
  intro w w' hw
  obtain ⟨hv, hcalls⟩ := Prod.mk.inj hw
  obtain ⟨hr, hv'⟩ := hf w.1 w'.1 hv
  exact ⟨hr, Prod.ext hv' hcalls⟩

theorem Determined.noting {f : σ → α × σ} (hf : Determined view f) (call : QuotaCall) :
    Determined (withCalls view) (Host.noting call f) := by
  intro w w' hw
  obtain ⟨hv, hcalls⟩ := Prod.mk.inj hw
  obtain ⟨hr, hv'⟩ := hf w.1 w'.1 hv
  exact ⟨hr, Prod.ext hv' (congrArg (· ++ [call]) hcalls)⟩

theorem Scripted.traced (hs : h.Scripted view) : h.traced.Scripted (withCalls view) where
  log l w := Prod.ext (hs.log l w.1) rfl
  list w := Prod.ext (hs.list w.1) rfl
  isPresent dir w := Prod.ext (hs.isPresent dir w.1) rfl
  tag dir id := (hs.tag dir id).noting _
  setLimit id soft hard := (hs.setLimit id soft hard).noting _
  save path text := (hs.save path text).onFirst
  resolve c := (hs.resolve c).onFirst

theorem noting_eq {f : σ → α × σ} {call : QuotaCall} {w w' : σ × List QuotaCall} {a : α}
    (hf : noting call f w = (a, w')) : f w.1 = (a, w'.1) := by
  cases hf
  rfl

theorem Undisturbed.traced (hu : h.Undisturbed) : h.traced.Undisturbed where
  cancelled w := hu.cancelled w.1
  lookup c w f w' hres := hu.lookup c w.1 f w'.1 (onFirst_eq (h.resolve c) _ w w' hres)
  present c w dir w' hres := hu.present c w.1 dir w'.1 (onFirst_eq (h.resolve c) _ w w' hres)

theorem Regular.traced (hr : h.Regular) : h.traced.Regular where
  tag path id w f w' ht := hr.tag path id w.1 f w'.1 (noting_eq ht)
  setLimit id soft hard w f w' hl := hr.setLimit id soft hard w.1 f w'.1 (noting_eq hl)
  resolve c w dir w' hres := hr.resolve c w.1 dir w'.1 (onFirst_eq (h.resolve c) _ w w' hres)

theorem traced_nameable {path : String} (hn : Store.Nameable h.toDisk path) :
    Store.Nameable h.traced.toDisk path :=
  fun text w w' hs => hn text w.1 w'.1 (onFirst_eq (h.save path text) _ w w' hs)

/-- Where the recorded IDs are reserved, a reconciliation leaves the entries and the IDs in use that
the events of the creations leave, one for each container of the list, with the same calls on quotas
in the same order. It counts as created and restored what they count as handled, and as failed what
they do. -/
theorem reconcile_as_events (h : Host σ) (view : σ → κ) (hs : h.Scripted view) (hr : h.Regular)
    (hu : h.Undisturbed) (d : Daemon (σ × List QuotaCall)) (hlow : 1 ≤ d.core.pool.least)
    (hhigh : d.core.pool.greatest ≤ maxProjectId)
    (hn : Store.Nameable h.toDisk d.core.store.path)
    (hres : ∀ e ∈ d.core.store.table, d.core.pool.inRange e.projectId = true →
      e.projectId ∈ d.core.pool.used)
    (live : List String) (hlist : ∀ w, view w = view d.outside.1 → (h.list w).1 = .ok live) :
    let d₁ := h.traced.serve d .reconcile
    let d₂ := h.traced.serveAll d (live.map fun c => .handle ⟨.create, c, []⟩)
    ∃ r, (Act.run h.traced.reconcile d).1 = .ok r ∧
      d₁.core.store.table = d₂.core.store.table ∧ d₁.core.pool.used = d₂.core.pool.used ∧
      d₁.outside.2 = d₂.outside.2 ∧
      d₂.core.handled = d.core.handled + (r.created + r.restored) ∧
      d₂.core.failed = d.core.failed + r.failed := by
  intro d₁ d₂
  have hrange : ∀ n, d.core.pool.inRange n = true → Entry.Recordable n := by
    intro n hin
    obtain ⟨hleast, hgreatest⟩ := (Pool.inRange_iff d.core.pool n).mp hin
    exact ⟨by omega, by omega⟩
  obtain ⟨r, hrun, hag, hhandled, hfailed⟩ := reconcile_agrees hs.traced hr.traced hu.traced d
    ⟨hrange, traced_nameable hn⟩ hres live fun w hw => hlist w.1 (congrArg Prod.fst hw)
  have hh : d₂.core.handled + (0 + 0) = d.core.handled + (r.created + r.restored) := hhandled
  have hf : d₂.core.failed + 0 = d.core.failed + r.failed := hfailed
  refine ⟨r, hrun, ?_, ?_, (Prod.mk.inj hag.seen).2, by omega, by omega⟩
  · exact congrArg Store.table hag.store.symm
  · exact congrArg Pool.used hag.pool.symm

/-- A host on which the limits cannot be set the first time, with a list that names a container
twice. The calls are counted, and so are the lines of the journal. -/
def flaky : Host (Nat × Nat) :=
  { smooth with
    log := fun _ w => (w.1, w.2 + 1)
    setLimit := fun _ _ _ w =>
      (if w.1 = 0 then .error (.enforcement "setquota failed" [] "") else .ok (), (w.1 + 1, w.2))
    list := fun w => (.ok ["a", "b", "a"], w) }

theorem flaky_scripted : flaky.Scripted Prod.fst where
  log _ _ := rfl
  list _ := rfl
  isPresent _ _ := rfl
  tag _ _ _ _ hw := ⟨rfl, hw⟩
  setLimit _ _ _ w w' hw := by
    refine ⟨?_, congrArg (· + 1) hw⟩
    show (if w.1 = 0 then _ else _) = if w'.1 = 0 then _ else _
    rw [hw]
  save _ _ _ _ hw := ⟨rfl, hw⟩
  resolve _ _ _ hw := ⟨rfl, hw⟩

theorem flaky_regular : flaky.Regular where
  tag path id w f w' ht := by cases ht
  setLimit id soft hard w f w' hl := by
    have hfst : (if w.1 = 0 then .error (.enforcement "setquota failed" [] "") else .ok ()) =
      (Except.error f : Except Failure Unit) := congrArg Prod.fst hl
    split at hfst
    · cases hfst
      exact ⟨_, _, _, rfl⟩
    · cases hfst
  resolve c w dir w' hres := by
    cases hres
    exact ⟨c, rfl⟩

theorem flaky_undisturbed : flaky.Undisturbed where
  cancelled _ := rfl
  lookup c w f w' hres := by cases hres
  present _ _ _ _ _ := rfl

theorem flaky_reconcile_as_events :
    let d : Daemon ((Nat × Nat) × List QuotaCall) :=
      ⟨Core.opening ⟨"10g", "12g", .ofInt 5, none⟩ ⟨1, 5, []⟩ ⟨"", []⟩, ((0, 0), [])⟩
    let d₁ := flaky.traced.serve d .reconcile
    let d₂ := flaky.traced.serveAll d (["a", "b", "a"].map fun c => .handle ⟨.create, c, []⟩)
    d₁.core.store.table = [⟨"b", 1, "b"⟩, ⟨"a", 2, "a"⟩] ∧
      ∃ r, (Act.run flaky.traced.reconcile d).1 = .ok r ∧
        d₁.core.store.table = d₂.core.store.table ∧ d₁.core.pool.used = d₂.core.pool.used ∧
        d₁.outside.2 = d₂.outside.2 ∧
        d₂.core.handled = d.core.handled + (r.created + r.restored) ∧
        d₂.core.failed = d.core.failed + r.failed :=
  ⟨by decide +kernel,
    reconcile_as_events flaky Prod.fst flaky_scripted flaky_regular flaky_undisturbed _ (by decide)
      (by decide) (fun _ _ _ hs => by cases hs) (fun _ he => absurd he List.not_mem_nil)
      ["a", "b", "a"] fun _ _ => rfl⟩

end LayerQuota.Host
