import LayerQuota.Proofs.Daemon.Agreement
import LayerQuota.Proofs.Daemon.Course
/-!
# How a run can fail

A runtime that fails as it is documented loses the connection or cannot look a container up, and
nothing else. Then a reconciliation fails only with the connection, and a run fails only where it
gives up, where the clock fails it, or where it is broken off.
-/

namespace LayerQuota.Host

open LayerQuota.Act

variable {σ : Type} {h : Host σ} {w : Waits σ}

/-- A host and waits that fail as they are documented: only the look-up of a container fails for the
container's own sake, and whether a directory is there can always be told. -/
structure Documented (h : Host σ) (w : Waits σ) : Prop extends h.Regular where
  connect : ∀ v f v', h.connect v = (.error f, v') → ∃ m, f = .stream m
  subscribe : ∀ v f v', h.subscribe v = (.error f, v') → ∃ m, f = .stream m
  list : ∀ v f v', h.list v = (.error f, v') → ∃ m, f = .stream m
  lookup : ∀ c v f v', h.resolve c v = (.error f, v') → ∃ m, f = .stream m ∨ f = .lookup m
  isPresent : ∀ path v f v', h.isPresent (Layer.ofPath path) v ≠ (.error f, v')
  next : ∀ stream position d f d', w.next stream position d = (.error f, d') → ∃ m, f = .stream m

theorem Documented.conclusive (hg : Documented h w) : Conclusive h w := by
  have hstream : ¬∃ m, Failure.unfinished = .stream m := by
    rintro ⟨m, hm⟩
    cases hm
  have hlookup : ¬∃ m, Failure.unfinished = .stream m ∨ Failure.unfinished = .lookup m := by
    rintro ⟨m, hm | hm⟩
    · cases hm
    · cases hm
  have htool : ¬∃ m cmd out, Failure.unfinished = .enforcement m cmd out := by
    rintro ⟨m, cmd, out, hm⟩
    cases hm
  have hnamed : ∀ {c v dir}, (h.resolve c v).1 = .ok dir → ∃ path, dir = Layer.ofPath path :=
    fun hdir => hg.resolve _ _ _ _ (Prod.ext hdir rfl)
  refine ⟨fun v => ne_unfinished hstream (hg.connect v),
    fun v => ne_unfinished hstream (hg.subscribe v), fun v => ne_unfinished hstream (hg.list v),
    fun c v => ne_unfinished hlookup (hg.lookup c v), fun c v dir v' hdir => ?_,
    fun c v dir id v' hdir => ?_,
    fun id soft hard v => ne_unfinished htool (hg.setLimit id soft hard v),
    fun stream position d => ne_unfinished hstream (hg.next stream position d)⟩
  · obtain ⟨path, rfl⟩ := hnamed hdir
    exact fun hv => hg.isPresent path v' _ _ (Prod.ext hv rfl)
  · obtain ⟨path, rfl⟩ := hnamed hdir
    exact ne_unfinished htool (hg.tag path id v')

/-! ### Reconciliation -/

theorem supply_ok (hr : h.Regular) (c path : String) (r : Report) (d : Daemon σ) (hd : h.Able d)
    (he : d.core.store.table.get? c = none) :
    ∃ v, (Act.run (h.supply c (Layer.ofPath path) r) d).1 = .ok v := by
  have ho := h.create_outcome c (Layer.ofPath path) d
  rw [supply, run_bind, run_attempt]
  generalize Act.run (h.create c (Layer.ofPath path)) d = a at ho ⊢
  obtain ⟨f | e, d₁⟩ := a
  · obtain ⟨hown, -⟩ := ho.own hr hd ⟨path, rfl⟩ he
    simp only
    split
    · contradiction
    · exact ⟨_, rfl⟩
    · rename_i heq
      cases heq
      rw [if_pos hown]
      exact ⟨_, rfl⟩
  · exact ⟨_, rfl⟩

/-- Of a container's directory that was found, nothing can go wrong but what is counted. -/
theorem Documented.settle_ok (hg : Documented h w) (c path : String) (r : Report) (d : Daemon σ)
    (hd : h.Able d) : ∃ v, (Act.run (h.settle c (Layer.ofPath path) r) d).1 = .ok v := by
  rw [settle, run_bind, run_call]
  rcases hp : h.isPresent (Layer.ofPath path) d.outside with ⟨f | present, v⟩
  · exact absurd hp (hg.isPresent path _ f v)
  · cases present with
    | false => exact ⟨_, rfl⟩
    | true =>
      simp only [if_true]
      rw [run_bind, run_entry?]
      cases he : d.core.store.table.get? c with
      | some e => exact restore_ok e _ r ⟨d.core, v⟩
      | none => exact supply_ok hg.toRegular c path r ⟨d.core, v⟩ ⟨hd.recordable, hd.nameable⟩ he

theorem Documented.visit_error (hg : Documented h w) (c : String) (r : Report) (d : Daemon σ)
    (hd : h.Able d) (f : Failure) (hf : (Act.run (h.visit c r) d).1 = .error f) :
    ∃ m, f = .stream m := by
  rw [visit, run_bind, run_isCancelled] at hf
  cases hc : h.cancelled d.outside with
  | true =>
    rw [hc] at hf
    cases hf
  | false =>
    rw [hc] at hf
    simp only [Bool.false_eq_true, if_false] at hf
    rw [run_bind, run_attempt, run_call] at hf
    rcases hres : h.resolve c d.outside with ⟨g | dir, v⟩
    · rw [hres] at hf
      obtain ⟨m, rfl | rfl⟩ := hg.lookup c _ g v hres
      · cases hf
        exact ⟨m, rfl⟩
      · cases hf
    · obtain ⟨path, rfl⟩ := hg.resolve c _ dir v hres
      rw [hres] at hf
      obtain ⟨a, hok⟩ := hg.settle_ok c path r ⟨d.core, v⟩ ⟨hd.recordable, hd.nameable⟩
      cases hok.symm.trans hf

theorem Documented.visitAll_error (hg : Documented h w) (live : List String) (r : Report)
    (d : Daemon σ) (hd : h.Able d) (f : Failure)
    (hf : (Act.run (h.visitAll live r) d).1 = .error f) : ∃ m, f = .stream m := by
  induction live generalizing r d with
  | nil => cases hf
  | cons c live ih =>
    have hfirst := hg.visit_error c r d hd
    have hd₁ := hd.visit c r
    rw [visitAll, run_bind] at hf
    generalize Act.run (h.visit c r) d = a at hf hfirst hd₁
    obtain ⟨g | ⟨r', more⟩, d₁⟩ := a
    · cases hf
      exact hfirst f rfl
    · cases more with
      | true => exact ih r' d₁ hd₁ hf
      | false => cases hf

/-- A reconciliation fails only with the connection. -/
theorem Documented.reconcile_error (hg : Documented h w) (d : Daemon σ) (hd : h.Able d)
    (f : Failure) (hf : (Act.run h.reconcile d).1 = .error f) : ∃ m, f = .stream m := by
  obtain ⟨d₁, hrun, hres⟩ := h.reserveAll_outcome d.core.store.table d
  rw [reconcile, run_bind, run_core] at hf
  simp only at hf
  rw [run_bind, hrun] at hf
  simp only at hf
  rw [run_bind, run_call] at hf
  rcases hl : h.list d₁.outside with ⟨g | live, v⟩
  · rw [hl] at hf
    cases hf
    exact hg.list _ f v hl
  · rw [hl] at hf
    simp only at hf
    rw [run_bind] at hf
    have hd₁ : h.Able ⟨d₁.core, v⟩ := by
      refine ⟨fun n hin => hd.recordable n ?_, ?_⟩
      · rw [← hres.inRange n]
        exact hin
      · rw [hres.store]
        exact hd.nameable
    have hpass := hg.visitAll_error live (Report.opening live.length) ⟨d₁.core, v⟩ hd₁
    generalize Act.run (h.visitAll live (Report.opening live.length)) ⟨d₁.core, v⟩ = a at hf hpass
    obtain ⟨g | r, d₂⟩ := a
    · cases hf
      exact hpass f rfl
    · obtain ⟨r', hok⟩ := conclude_ok (h := h) live r d₂
      cases hok.symm.trans hf

/-! ### Connections -/

/-- What a daemon is good for, it stays good for. -/
theorem able_carries : h.Carries (fun c => ∀ v, h.Able ⟨c, v⟩) (fun c => ∀ v, h.Able ⟨c, v⟩) := by
  have hserve : ∀ q d, (∀ v, h.Able ⟨d.core, v⟩) → ∀ v, h.Able ⟨(h.serve d q).core, v⟩ := by
    intro q d hd v
    refine ⟨fun n hin => (hd v).recordable n ?_, ?_⟩
    · rw [← serve_inRange d q n]
      exact hin
    · rw [serve_path]
      exact (hd v).nameable
  have hcongr : ∀ c c' : Core, c'.pool = c.pool → c'.store = c.store → (∀ v, h.Able ⟨c, v⟩) →
      ∀ v, h.Able ⟨c', v⟩ := by
    intro c c' hp hs hc v
    refine ⟨fun n hin => (hc v).recordable n ?_, ?_⟩
    · rw [← hp]
      exact hin
    · rw [hs]
      exact (hc v).nameable
  exact ⟨hcongr, fun _ hc => hc, hserve .reconcile, hcongr, fun e => hserve (.handle e)⟩

theorem Documented.opening_error (hg : Documented h w) {v v' : σ} {f : Failure}
    (ho : h.Opening v (.error f) v') : ∃ m, f = .stream m := by
  cases ho with
  | unconnected g v₁ hc =>
    obtain ⟨m, rfl⟩ := hg.connect v g v₁ hc
    exact ⟨m, rfl⟩
  | unsubscribed g v₁ v₂ hc hs =>
    obtain ⟨m, rfl⟩ := hg.subscribe v₁ g v₂ hs
    exact ⟨m, rfl⟩

theorem Documented.receiving_error (hg : Documented h w) {stream position : Nat} {d d' : Daemon σ}
    {xs : List (Delivery σ)} {r : Except Failure Unit}
    (hx : h.Receiving w stream position d xs r d') (f : Failure) (hf : r = .error f) :
    f = .unfinished ∨ ∃ m, f = .stream m := by
  induction hx with
  | unfinished position d =>
    cases hf
    exact .inl rfl
  | broken position d d' g hn =>
    cases hf
    exact .inr (hg.next stream position d f d' hn)
  | ended position d d' hn hc =>
    cases hf
    exact .inr ⟨_, rfl⟩
  | closed position d d' hn hc => cases hf
  | last position behind d x hn hc => cases hf
  | delivered position behind d d' x xs r hn hc hrest ih => exact ih hf

/-- A connection fails with the runtime, unless it is broken off. -/
theorem Documented.connecting_error (hg : Documented h w) {d d' : Daemon σ}
    {xs : List (Delivery σ)} {f : Failure} (hn : h.Connecting w d xs (.error f) d')
    (hd : ∀ v, h.Able ⟨d.core, v⟩) : f = .unfinished ∨ ∃ m, f = .stream m := by
  cases hn with
  | unopened f v ho => exact .inr (hg.opening_error ho)
  | opened stream token v v' xs r d' ho ht hl =>
    cases hl with
    | unreconciled f d' hr =>
      have hd₁ := able_carries.entered .reconciling ⟨(h.entered .connecting d).core, v'⟩
        (able_carries.entered .connecting d hd)
      exact .inr (hg.reconcile_error _ (hd₁ _) f (by rw [hr]))
    | listened report d₁ d' xs r hr hc hx => exact hg.receiving_error hx f rfl

/-! ### Runs -/

/-- A run fails where it is broken off, where it gives up the runtime, or where the clock fails. -/
theorem Documented.course_error (hg : Documented h w) (hw : w.Apart) {d d' : Daemon σ}
    {ls : List (Link σ)} {r : Except Failure Unit} (hc : h.Course w d ls r d')
    (hd : ∀ v, h.Able ⟨d.core, v⟩) (f : Failure) (hf : r = .error f) :
    f = .unfinished ∨ (∃ m, f = .stream m) ∨ ∃ x d₁ d₂, w.sleep x d₁ = (.error f, d₂) := by
  induction hc with
  | unfinished d =>
    cases hf
    exact .inl rfl
  | overtaken d hc => cases hf
  | again d d₁ d' xs ls r hc hn hrest ih => exact ih (hn.carries able_carries hw hd).1 hf
  | retried d d₁ d₂ d' m xs ls r hc hn hr hrest ih =>
    exact ih (hr.carries able_carries hw (hn.carries able_carries hw hd).1) hf
  | left d d₁ d' m xs hc hn hr => cases hf
  | gaveUp d d₁ d' m g xs hc hn hr =>
    cases hf
    cases hr with
    | gaveUp n hc hg => exact .inr (.inl ⟨m, rfl⟩)
    | unslept f d' hc hg hs => exact .inr (.inr ⟨_, _, _, hs⟩)
  | failed d d' g xs hc hn hnot =>
    cases hf
    obtain rfl | hm := hg.connecting_error hn hd
    · exact .inl rfl
    · exact .inr (.inl hm)

/-- A scope that is cancelled stays so, whatever is looked up, noted or closed. -/
structure Lasting (h : Host σ) : Prop where
  log : ∀ l v, h.cancelled v = true → h.cancelled (h.log l v) = true
  resolve : ∀ c v, h.cancelled v = true → h.cancelled (h.resolve c v).2 = true
  disconnect : ∀ v, h.cancelled v = true → h.cancelled (h.disconnect v) = true
  closeStream : ∀ n v, h.cancelled v = true → h.cancelled (h.closeStream n v) = true
  unregister : ∀ n v, h.cancelled v = true → h.cancelled (h.unregister n v) = true

theorem Receiving.cancelled {stream position : Nat} {d d' : Daemon σ} {xs : List (Delivery σ)}
    {r : Except Failure Unit} (hx : h.Receiving w stream position d xs r d') (hr : r = .ok ()) :
    h.cancelled d'.outside = true := by
  induction hx with
  | unfinished position d => cases hr
  | broken position d d' f hn => cases hr
  | ended position d d' hn hc => cases hr
  | closed position d d' hn hc => exact hc
  | last position behind d x hn hc => exact hc
  | delivered position behind d d' x xs r hn hc hrest ih => exact ih hr

section Lasting

variable (hs : h.Lasting)

include hs

theorem Lasting.hungUp (stream : Nat) (token : Option Nat) (v : σ)
    (hv : h.cancelled v = true) : h.cancelled (h.hungUp stream token v) = true :=
  hungUp_kept hs.disconnect hs.closeStream hs.unregister stream token v hv

theorem Lasting.concluded (d : Daemon σ) (hd : h.cancelled d.outside = true) :
    h.cancelled (h.concluded d).outside = true :=
  concluded_kept hs.log hs.disconnect d hd

/-- A connection comes to a good end only where the scope is cancelled. -/
theorem Connecting.cancelled {d d' : Daemon σ} {xs : List (Delivery σ)}
    (hn : h.Connecting w d xs (.ok ()) d') : h.cancelled d'.outside = true := by
  cases hn with
  | opened stream token v v' xs r d' ho ht hl =>
    refine hs.hungUp stream token d'.outside ?_
    cases hl with
    | overtaken report d' hr hc => exact hc
    | listened report d₁ d' xs r hr hc hx => exact hx.cancelled rfl

end Lasting

/-- A run returns only where the scope is cancelled, if only that cuts a sleep short. -/
theorem Course.cancelled {d d' : Daemon σ} {ls : List (Link σ)} {r : Except Failure Unit}
    (hsleep : ∀ x d d', w.sleep x d = (.ok false, d') → h.cancelled d'.outside = true)
    (hc : h.Course w d ls r d') (hr : r = .ok ()) : h.cancelled d'.outside = true := by
  induction hc with
  | unfinished d => cases hr
  | overtaken d hc => exact hc
  | again d d₁ d' xs ls r hc hn hrest ih => exact ih hr
  | retried d d₁ d₂ d' m xs ls r hc hn hret hrest ih => exact ih hr
  | left d d₁ d' m xs hc hn hret =>
    cases hret with
    | overtaken hc => exact hc
    | woken d' hc hg hs => exact hsleep _ _ d' hs
  | gaveUp d d₁ d' m f xs hc hn hret => cases hr
  | failed d d' f xs hc hn hf => cases hr

end LayerQuota.Host
