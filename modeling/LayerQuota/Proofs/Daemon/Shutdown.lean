import LayerQuota.Proofs.Daemon.Phases
import LayerQuota.Proofs.Daemon.Sustained
/-!
# Shutdown

Once the scope is cancelled, whichever call it was that cancelled it, a run opens no connection and
begins no sleep, no directory is tagged and no limit is set, save that one may still be cleared. An
event that comes to its turn then is passed over, a creation that is under way is recorded or taken
back, and the run returns.
-/

namespace LayerQuota

/-- Does a call take up something new, rather than end what is there? -/
def HostCall.undertakes : HostCall → Bool
  | .connect | .sleep _ | .quota (.tag ..) => true
  | .quota (.setLimit _ soft hard) => soft != Host.noLimit || hard != Host.noLimit
  | _ => false

def HostCall.enforces : HostCall → Bool
  | .quota _ => true
  | _ => false

/-- Is a call no more than a line in the journal or a question to the runtime? -/
def HostCall.isAloof : HostCall → Bool
  | .log _ | .resolve _ => true
  | _ => false

namespace Host

open LayerQuota.Act

variable {σ : Type} {h : Host σ} {w : Waits σ}

/-! ### Late calls -/

/-- A scope that stays cancelled, whatever is called. -/
structure Irrevocable (h : Host σ) (w : Waits σ) : Prop extends h.Lasting where
  save : ∀ path text v, h.cancelled v = true → h.cancelled (h.save path text v).2 = true
  tag : ∀ dir id v, h.cancelled v = true → h.cancelled (h.tag dir id v).2 = true
  setLimit : ∀ id soft hard v, h.cancelled v = true →
    h.cancelled (h.setLimit id soft hard v).2 = true
  readTag : ∀ dir v, h.cancelled v = true → h.cancelled (h.readTag dir v).2 = true
  isPresent : ∀ dir v, h.cancelled v = true → h.cancelled (h.isPresent dir v).2 = true
  list : ∀ v, h.cancelled v = true → h.cancelled (h.list v).2 = true
  connect : ∀ v, h.cancelled v = true → h.cancelled (h.connect v).2 = true
  subscribe : ∀ v, h.cancelled v = true → h.cancelled (h.subscribe v).2 = true
  onCancel : ∀ n v, h.cancelled v = true → h.cancelled (h.onCancel n v).2 = true
  next : ∀ stream position d, h.cancelled d.outside = true →
    h.cancelled (w.next stream position d).2.outside = true
  sleep : ∀ seconds d, h.cancelled d.outside = true →
    h.cancelled (w.sleep seconds d).2.outside = true

/-- The calls that were made after the scope was cancelled take up nothing new, and it is cancelled
still. -/
def Timely (h : Host σ) (v : σ × List Noted) : Prop :=
  ∀ n ∈ v.2, n.late = true → n.call.undertakes = false ∧ h.cancelled v.1 = true

theorem Timely.snoc {v : σ × List Noted} (hv : h.Timely v) (call : HostCall) (v' : σ)
    (hlast : h.cancelled v.1 = true → h.cancelled v' = true)
    (hidle : h.cancelled v.1 = true → call.undertakes = false) :
    h.Timely (v', v.2 ++ [⟨h.cancelled v.1, call⟩]) := by
  intro n hn hlate
  rcases List.mem_append.mp hn with hn | hn
  · obtain ⟨hcall, hc⟩ := hv n hn hlate
    exact ⟨hcall, hlast hc⟩
  · rw [List.mem_singleton.mp hn] at hlate ⊢
    exact ⟨hidle hlate, hlast hlate⟩

theorem timely_sustains (hi : h.Irrevocable w) :
    h.watched.Sustains (h.watchedWaits w) h.Timely where
  log l v _ hv := hv.snoc (.log l) _ (hi.log l v.1) fun _ => rfl
  line l v hv := hv.snoc (.log l) _ (hi.log l v.1) fun _ => rfl
  save path text v hv := hv.snoc (.save path) _ (hi.save path text v.1) fun _ => rfl
  list v hv := hv.snoc .list _ (hi.list v.1) fun _ => rfl
  resolve c v hv := hv.snoc (.resolve c) _ (hi.resolve c v.1) fun _ => rfl
  isPresent dir v hv := hv.snoc (.isPresent dir) _ (hi.isPresent dir v.1) fun _ => rfl
  readTag dir v hv := hv.snoc (.quota (.readTag dir)) _ (hi.readTag dir v.1) fun _ => rfl
  clear id v hv := hv.snoc (.quota (.setLimit id noLimit noLimit)) _
    (hi.setLimit id noLimit noLimit v.1) fun _ => by
      simp only [HostCall.undertakes, bne_self_eq_false, Bool.or_false]
  tag dir id v hc hv := hv.snoc (.quota (.tag dir id)) _ (hi.tag dir id v.1) fun hlate =>
    absurd (hc.symm.trans hlate) nofun
  setLimit id soft hard v hc hv := hv.snoc (.quota (.setLimit id soft hard)) _
    (hi.setLimit id soft hard v.1) fun hlate => absurd (hc.symm.trans hlate) nofun
  connect v hc hv := hv.snoc .connect _ (hi.connect v.1) fun hlate =>
    absurd (hc.symm.trans hlate) nofun
  subscribe v hv := hv.snoc .subscribe _ (hi.subscribe v.1) fun _ => rfl
  disconnect v hv := hv.snoc .disconnect _ (hi.disconnect v.1) fun _ => rfl
  closeStream n v hv := hv.snoc (.closeStream n) _ (hi.closeStream n v.1) fun _ => rfl
  onCancel n v hv := hv.snoc (.onCancel n) _ (hi.onCancel n v.1) fun _ => rfl
  unregister n v hv := hv.snoc (.unregister n) _ (hi.unregister n v.1) fun _ => rfl
  next stream position d hd := hd.snoc (.next stream position) _
    (hi.next stream position ⟨d.core, d.outside.1⟩) fun _ => rfl
  sleep seconds d hc hd := hd.snoc (.sleep seconds) _
    (hi.sleep seconds ⟨d.core, d.outside.1⟩) fun hlate => absurd (hc.symm.trans hlate) nofun

theorem watched_punctual (hp : h.Punctual) : h.watched.Punctual :=
  ⟨fun l v => hp.log l v.1, fun v => hp.disconnect v.1, fun n v => hp.closeStream n v.1,
    fun n v => hp.onCancel n v.1, fun n v => hp.unregister n v.1⟩

/-! ### Creations -/

/-- How a creation ends: with an entry that is recorded, with pool and record as they were, or with
an ID that is kept since the record could not be written. -/
inductive Settled (c : String) (core : Core) : Except Failure Entry → Core → Prop
  | recorded (e : Entry) (core' : Core) (he : core'.store.table.get? c = some e)
    (hu : e.projectId ∈ core'.pool.used) : Settled c core (.ok e) core'
  | undone (f : Failure) (core' : Core) (hp : core'.pool = core.pool)
    (hs : core'.store = core.store) : Settled c core (.error f) core'
  | unsaved (path : String) (fault : OsFault) (id : Int) (core' : Core)
    (ha : core.pool.allocate = .ok (id, core'.pool)) (hs : core'.store = core.store) :
    Settled c core (.error (.unsaved path fault)) core'

theorem CreateOutcome.settled {c path : String} {d d' : Daemon σ} {r : Except Failure Entry}
    (ho : h.CreateOutcome c (Layer.ofPath path) d r d') (hr : h.Regular) (hd : h.Able d) :
    Settled c d.core r d'.core := by
  cases ho with
  | kept e p w' he hp hq =>
    obtain ⟨-, rfl⟩ := (Pool.markUsed_eq_ok d.core.pool p e.projectId).mp hp
    exact .recorded e _ he ((Pool.mem_insert _ _ _).mpr (.inl rfl))
  | refused e f he hp => exact .undone _ _ rfl rfl
  | overtaken he hc => exact .undone _ _ rfl rfl
  | exhausted f he ha => exact .undone _ _ rfl rfl
  | abandoned id p f w' he ha hn =>
    -- the tools fail in ways that free the ID again
    obtain ⟨hfree, -⟩ := hr.enforcing ⟨path, rfl⟩ hn
    obtain ⟨hfresh, -, rfl⟩ := Pool.allocate_fresh d.core.pool p id ha
    refine .undone f _ ?_ rfl
    simp only [hfree, if_true]
    exact Pool.release_insert _ _ hfresh
  | malformed id p vs w' he ha hn hm =>
    obtain ⟨-, hin, -⟩ := Pool.allocate_fresh d.core.pool p id ha
    cases hm.symm.trans (Entry.make_text c id path (hd.recordable id hin))
  | recorded id p e r s w₁ w₂ w' he ha hn hm hput hq =>
    rcases Store.put_settled _ _ _ e _ _ r hd.nameable hput with ⟨rfl, rfl⟩ | ⟨⟨fault, rfl⟩, rfl⟩
    · obtain ⟨rfl, rfl, -⟩ := Entry.make_eq_valid c id _ e hm
      obtain ⟨-, -, rfl⟩ := Pool.allocate_fresh d.core.pool p _ ha
      exact .recorded e _ (Table.get?_put_self _ e) ((Pool.mem_insert _ _ _).mpr (.inl rfl))
    · exact .unsaved _ fault id _ ha rfl

/-- No creation tags a directory or sets a limit late, not even one to clear it. -/
theorem watched_permits (ns : List Noted) :
    h.watched.Permits fun v => Grown (fun n => n.late = true → n.call.enforces = false) ns v.2 where
  log _ _ _ hv := hv.snoc _ fun _ => rfl
  save _ _ _ hv := hv.snoc _ fun _ => rfl
  tag _ _ _ hc hv := hv.snoc _ fun hlate => absurd (hc.symm.trans hlate) nofun
  setLimit _ _ _ _ hc hv := hv.snoc _ fun hlate => absurd (hc.symm.trans hlate) nofun

/-! ### Late events -/

/-- What is left by an act that changes neither pool nor record. -/
structure Passed (P : σ → Prop) (d d' : Daemon σ) : Prop where
  pool : d'.core.pool = d.core.pool
  store : d'.core.store = d.core.store
  outside : P d'.outside

section Late

variable {P : σ → Prop} (hlog : ∀ l v, P v → P (h.log l v))

include hlog

theorem create_late (c : String) (dir : Layer) (d : Daemon σ) (hs : Sound d.core)
    (hc : h.cancelled d.outside = true) (hd : P d.outside) :
    Passed P d (Act.run (h.create c dir) d).2 := by
  rw [create, run_bind, run_entry?]
  cases he : d.core.store.table.get? c with
  | none =>
    simp only
    rw [run_bind, assign, run_bind, run_checkpoint, hc]
    exact ⟨rfl, rfl, hd⟩
  | some e =>
    simp only
    rw [reassert, run_bind, run_markUsed]
    rcases hp : d.core.pool.markUsed e.projectId with f | p
    · exact ⟨rfl, rfl, hd⟩
    · have hsame : p = d.core.pool := hs.markUsed_eq c e p he hp
      simp only
      cases isLayerOf e dir with
      | true => exact ⟨hsame, rfl, hd⟩
      | false => exact ⟨hsame, rfl, hlog _ _ hd⟩

/-- An event that comes to its turn when the scope is cancelled changes neither pool nor record, and
makes no calls but to look its directory up. -/
theorem handled_late (hlast : h.Lasting) (hres : ∀ c v, P v → P (h.resolve c v).2)
    (x : Delivery σ) (hs : Sound x.daemon.core) (hc : h.cancelled x.daemon.outside = true)
    (hd : P x.daemon.outside) : Passed P x.daemon (h.handled x) := by
  have happly : Passed P x.daemon (Act.run (h.applyEvent x.event) x.daemon).2 := by
    unfold applyEvent
    cases x.event.kind with
    | create =>
      simp only
      rw [run_bind_drop]
      unfold handleCreate
      cases Mount.upperdir? x.event.rootfs with
      | some path => exact create_late hlog _ _ x.daemon hs hc hd
      | none =>
        have hstill := hlast.resolve x.event.container _ hc
        have hkept := hres x.event.container _ hd
        simp only
        rw [run_bind, run_call]
        generalize h.resolve x.event.container x.daemon.outside = a at hstill hkept
        obtain ⟨f | dir, v⟩ := a
        · exact ⟨rfl, rfl, hkept⟩
        · obtain ⟨hpool, hstore, houtside⟩ :=
            create_late hlog x.event.container dir ⟨x.daemon.core, v⟩ hs hstill hkept
          exact ⟨hpool, hstore, houtside⟩
    | delete =>
      simp only
      rw [run_bind_drop, handleDelete, run_bind, run_checkpoint, hc]
      exact ⟨rfl, rfl, hd⟩
  obtain ⟨hpool, hstore, houtside⟩ := happly
  obtain ⟨d', hrun, ho⟩ := h.handleEvent_outcome x.event x.daemon
  rw [handled, serve, hrun]
  generalize (Act.run (h.applyEvent x.event) x.daemon).1 = r at ho
  cases ho with
  | applied => exact ⟨hpool, hstore, houtside⟩
  | dropped m => exact ⟨hpool, hstore, hlog _ _ houtside⟩
  | failed f m hf => exact ⟨hpool, hstore, hlog _ _ houtside⟩

end Late

/-- From a reconciliation on, pool and record agree as long as the connection lasts. -/
theorem sound_carries :
    h.Carries (fun c => c.store.table.ids.Nodup ∧ ∀ n ∈ c.pool.used, c.pool.inRange n = true)
      Sound where
  congr c c' hp hs hc := by rwa [hp, hs]
  weaken _ hc := ⟨hc.distinct, hc.within⟩
  reconcile d hd := reconcile_sound d hd.1 hd.2
  congrQ c c' hp hs hc := hc.congr c' hp (congrArg Store.table hs)
  handle e d hd := serve_sound (.handle e) d hd

/-! ### Runs -/

/-- Whichever call of a run cancels the scope: no call that is made after it connects, sleeps, tags a
directory or sets a limit but to clear it; an event that comes to its turn after it changes nothing;
every creation is settled, and enforces nothing after it; and the run returns, given the rounds. -/
theorem run_shutdown (h : Host σ) (w : Waits σ) (hg : Documented h w) (hi : h.Irrevocable w)
    (hp : h.Punctual) (hw : w.Apart)
    (hsleep : ∀ x d f d', w.sleep x d = (.error f, d') → h.cancelled d'.outside = false)
    (core : Core) (hmin : 0 < core.pool.least) (hmax : core.pool.greatest ≤ maxProjectId)
    (hn : Store.Nameable h.toDisk core.store.path) (hids : core.store.table.ids.Nodup)
    (hused : ∀ n ∈ core.pool.used, core.pool.inRange n = true) (v : σ) (fuel : Nat) :
    let start : Daemon (σ × List Noted) := ⟨core, v, []⟩
    let run := fun n => Act.run (h.watched.run (h.watchedWaits w) n) start
    ∃ ls r d', h.watched.Course (h.watchedWaits w) ⟨{ core with failures := 0 }, v, []⟩ ls r d' ∧
      let last := h.watched.concluded d'
      run fuel = (r, last) ∧ last.core.phase = .stopped ∧
        (∀ n ∈ last.outside.2, n.late = true → n.call.undertakes = false) ∧
        (∀ l ∈ ls, ∀ x ∈ l.delivered, h.cancelled x.daemon.outside.1 = true →
          Passed (fun v => Grown (·.call.isAloof = true) x.daemon.outside.2 v.2) x.daemon
            (h.watched.handled x)) ∧
        (∀ c path (d : Daemon (σ × List Noted)),
          (∀ n, d.core.pool.inRange n = core.pool.inRange n) →
          d.core.store.path = core.store.path →
          let a := Act.run (h.watched.create c (Layer.ofPath path)) d
          Settled c d.core a.1 a.2.core ∧
            Grown (fun n => n.late = true → n.call.enforces = false) d.outside.2 a.2.outside.2) ∧
        ((h.cancelled last.outside.1 = true ∨ ∃ n ∈ last.outside.2, n.late = true) →
          (r = .ok () ∨ r = .error .unfinished) ∧
            ∀ more, run (fuel + (more + 1)) = (.ok (), last)) := by
  intro start run
  have hdocumented := watched_documented hg
  have hpunctual := watched_punctual hp
  have hapart := watched_apart (h := h) hw
  have hlasting := watched_lasting hi.toLasting
  have hclock : ∀ x d f d', (h.watchedWaits w).sleep x d = (.error f, d') →
      h.watched.cancelled d'.outside = false := fun x d f d' hsl =>
    hsleep x _ f _ (watched_sleep hsl).1
  have hable : ∀ d : Daemon (σ × List Noted),
      (∀ n, d.core.pool.inRange n = core.pool.inRange n) →
      d.core.store.path = core.store.path → h.watched.Able d := by
    intro d hrange hpath
    refine watched_able ⟨fun n hin => ?_, hpath ▸ hn⟩
    obtain ⟨hlow, hhigh⟩ := (Pool.inRange_iff core.pool n).mp ((hrange n).symm.trans hin)
    exact ⟨by omega, by omega⟩
  have hrun : ∀ n, run n = _ := fun n => h.watched.run_run (h.watchedWaits w) n start
  obtain ⟨ls, hc, -⟩ := h.watched.connections_outcome (h.watchedWaits w) fuel fuel
    ⟨{ core with failures := 0 }, v, []⟩
  generalize hconnect : Act.run (h.watched.connections (h.watchedWaits w) fuel fuel)
    ⟨{ core with failures := 0 }, v, []⟩ = a at hc
  obtain ⟨r, d'⟩ := a
  have htimely : h.Timely (h.watched.concluded d').outside :=
    concluded_kept (timely_sustains hi).line (timely_sustains hi).disconnect d'
      ((timely_sustains hi).course hpunctual hc fun _ hm => absurd hm List.not_mem_nil)
  have hsound := (hc.carries sound_carries hapart ⟨hids, hused⟩).2
  refine ⟨ls, r, d', hc, ?_, entered_phase .stopped _, fun n hm hlate => (htimely n hm hlate).1,
    fun l hl x hx hlate => ?_, fun c path d hrange hpath => ⟨?_, ?_⟩,
    fun hcancel => ?_⟩
  · rw [hrun, hconnect]
  · exact handled_late (fun _ _ hv => hv.snoc _ rfl) hlasting (fun _ _ hv => hv.snoc _ rfl) x
      (hsound l hl x hx) hlate (.refl _)
  · exact (h.watched.create_outcome c (Layer.ofPath path) d).settled hdocumented.toRegular
      (hable d hrange hpath)
  · exact ((watched_permits d.outside.2).create c (Layer.ofPath path) d (.refl _)).2
  · have hlast : h.watched.cancelled (h.watched.concluded d').outside = true := by
      rcases hcancel with hcancel | ⟨n, hm, hlate⟩
      · exact hcancel
      · exact (htimely n hm hlate).2
    -- nothing in the conclusion of a run cancels the scope
    have hbefore : h.watched.cancelled d'.outside = true := by
      cases hno : h.watched.cancelled d'.outside with
      | true => rfl
      | false => exact absurd ((hpunctual.concluded d' hno).symm.trans hlast) nofun
    obtain ⟨hr, hmore⟩ := hpunctual.connections_cancelled hdocumented hapart hclock fuel fuel _ d' r
      (fun _ => hable _ (fun _ => rfl) rfl) hconnect hbefore
    refine ⟨hr, fun more => ?_⟩
    rw [hrun, hmore (more + 1) more]

theorem haltedByTag_irrevocable (es : List Event) : haltedByTag.Irrevocable (feed es) where
  toLasting := haltedByTag_lasting
  save _ _ _ hv := hv
  tag _ _ _ _ := rfl
  setLimit _ _ _ _ hv := hv
  readTag _ _ hv := hv
  isPresent _ _ hv := hv
  list _ hv := hv
  connect _ hv := hv
  subscribe _ hv := hv
  onCancel _ _ hv := hv
  next stream position d hd := by
    simp only [feed]
    split
    · exact hd
    · exact hd
  sleep _ _ hd := hd

theorem haltedByTag_punctual : haltedByTag.Punctual :=
  ⟨fun _ _ hv => hv, fun _ hv => hv, fun _ _ hv => hv, fun _ _ hv => hv, fun _ _ hv => hv⟩

theorem haltedByTag_run_shutdown :
    let core := Core.opening ⟨"10g", "12g", .ofInt 5, some 3⟩ ⟨1, 2, [2]⟩ ⟨"", [⟨"b", 2, "/b"⟩]⟩
    let w := feed [⟨.delete, "b", []⟩, ⟨.create, "c", []⟩, ⟨.delete, "c", []⟩]
    let start : Daemon (Bool × List Noted) := ⟨core, false, []⟩
    let run := fun n => Act.run (haltedByTag.watched.run (haltedByTag.watchedWaits w) n) start
    ∃ ls r d', haltedByTag.watched.Course (haltedByTag.watchedWaits w)
        ⟨{ core with failures := 0 }, false, []⟩ ls r d' ∧
      let last := haltedByTag.watched.concluded d'
      run 5 = (r, last) ∧ last.core.phase = .stopped ∧
        (∀ n ∈ last.outside.2, n.late = true → n.call.undertakes = false) ∧
        (∀ l ∈ ls, ∀ x ∈ l.delivered, haltedByTag.cancelled x.daemon.outside.1 = true →
          Passed (fun v => Grown (·.call.isAloof = true) x.daemon.outside.2 v.2) x.daemon
            (haltedByTag.watched.handled x)) ∧
        (∀ c path (d : Daemon (Bool × List Noted)),
          (∀ n, d.core.pool.inRange n = core.pool.inRange n) →
          d.core.store.path = core.store.path →
          let a := Act.run (haltedByTag.watched.create c (Layer.ofPath path)) d
          Settled c d.core a.1 a.2.core ∧
            Grown (fun n => n.late = true → n.call.enforces = false) d.outside.2 a.2.outside.2) ∧
        ((haltedByTag.cancelled last.outside.1 = true ∨ ∃ n ∈ last.outside.2, n.late = true) →
          (r = .ok () ∨ r = .error .unfinished) ∧
            ∀ more, run (5 + (more + 1)) = (.ok (), last)) :=
  run_shutdown haltedByTag _ (haltedByTag_documented _) (haltedByTag_irrevocable _)
    haltedByTag_punctual (feed_apart _) (fun _ _ _ _ hs => by cases hs) _ (by decide) (by decide)
    (haltedByTag_nameable "") (by decide) (by decide) false 5

end Host

end LayerQuota
