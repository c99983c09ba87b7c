import LayerQuota.Proofs.Daemon.Accounting
/-!
# Protection of a retained ID

An ID that a failure to record has retained is in the pool and on the directory of its container, and
in no entry. The events of other containers leave it alone as long as no other directory carries it.
A directory does whose container had the ID before: the deletion of a container leaves the tag where
it is, and the next deletion of that container takes the ID for its own.
-/

namespace LayerQuota

namespace Memory

variable {m m₁ m₂ : Memory} {i : Int}

/-- Calls that tag no directory with an ID, and never set its limits. -/
structure Avoids (i : Int) (m m' : Memory) : Prop where
  tags : ∀ dir, m'.tags.lookup dir = some i → m.tags.lookup dir = some i
  calls : ∃ new, m'.calls = m.calls ++ new ∧ ∀ soft hard, .setLimit i soft hard ∉ new

theorem Avoids.refl (m : Memory) : m.Avoids i m :=
  ⟨fun _ h => h, [], (List.append_nil _).symm, fun _ _ => List.not_mem_nil⟩

theorem Avoids.trans (ha : m.Avoids i m₁) (hb : m₁.Avoids i m₂) : m.Avoids i m₂ := by
  obtain ⟨xs, hxs, hx⟩ := ha.calls
  obtain ⟨ys, hys, hy⟩ := hb.calls
  refine ⟨fun dir h => ha.tags dir (hb.tags dir h), xs ++ ys, ?_, fun soft hard hm => ?_⟩
  · rw [hys, hxs, List.append_assoc]
  · rcases List.mem_append.mp hm with hm | hm
    · exact hx soft hard hm
    · exact hy soft hard hm

theorem Reads.avoids (hr : m.Reads m₁) : m.Avoids i m₁ := by
  obtain ⟨dirs, hdirs⟩ := hr.calls
  refine ⟨fun dir h => hr.tags ▸ h, _, hdirs, fun soft hard hm => ?_⟩
  obtain ⟨dir, -, heq⟩ := List.mem_map.mp hm
  cases heq

theorem Tagging.avoids {dir : Layer} {id : Int} {r : Except Failure Unit}
    (ht : Tagging dir id m r m₁) (hid : id ≠ i) : m.Avoids i m₁ := by
  refine ⟨fun other h => ?_, _, ht.calls, fun soft hard hm => ?_⟩
  · rcases ht.tags with ⟨-, htags⟩ | ⟨-, htags⟩
    · rw [htags] at h
      exact (lookup_assign_cases dir other id i m.tags h).resolve_left hid.symm
    · exact htags ▸ h
  · cases List.mem_singleton.mp hm

theorem Limiting.avoids {id : Int} {soft hard : String} {r : Except Failure Unit}
    (hl : Limiting id soft hard m r m₁) (hid : id ≠ i) : m.Avoids i m₁ := by
  refine ⟨fun other h => hl.tags ▸ h, _, hl.calls, fun soft' hard' hm => ?_⟩
  cases List.mem_singleton.mp hm
  exact hid rfl

end Memory

namespace Host

variable {σ : Type} {h : Host σ} {orders : σ → List (String × Json.Value)} {w w₁ : σ × Memory}
  {c : String} {d d' : Daemon (σ × Memory)} {dir : Layer} {i : Int}

theorem Enforcing.avoids {s : Settings} {id : Int} {r : Except Failure Unit}
    (hn : (h.inMemory orders).Enforcing s dir id w r w₁) (hid : id ≠ i) : w.2.Avoids i w₁.2 := by
  cases hn with
  | overtaken hc => exact .refl _
  | untagged f w' ht => exact (tag_memory ht).avoids hid
  | halted w' ht hc => exact (tag_memory ht).avoids hid
  | limited w₁ w' r ht hl => exact ((tag_memory ht).avoids hid).trans ((setLimit_memory hl).avoids hid)

/-! ### Moves -/

/-- An ID in use that no entry has, and that no directory carries but its own. -/
structure Guarded (dir : Layer) (i : Int) (d : Daemon (σ × Memory)) : Prop where
  used : i ∈ d.core.pool.used
  unrecorded : ∀ e ∈ d.core.store.table, e.projectId ≠ i
  tags : ∀ path, d.outside.2.tags.lookup (Layer.ofPath path) = some i → Layer.ofPath path = dir

/-- What moves for other containers leave of a guarded ID. -/
structure Guards (dir : Layer) (i : Int) (d d' : Daemon (σ × Memory)) : Prop where
  guarded : Guarded dir i d'
  calls : d.outside.2.Avoids i d'.outside.2

theorem Guarded.step (hg : Guarded dir i d) (hu : i ∈ d'.core.pool.used)
    (hr : ∀ e ∈ d'.core.store.table, e.projectId ≠ i)
    (ha : d.outside.2.Avoids i d'.outside.2) : Guards dir i d d' :=
  ⟨⟨hu, hr, fun path htag => hg.tags path (ha.tags _ htag)⟩, ha⟩

theorem Guards.trans {d₁ : Daemon (σ × Memory)} (ha : Guards dir i d d₁) (hb : Guards dir i d₁ d') :
    Guards dir i d d' :=
  ⟨hb.guarded, ha.calls.trans hb.calls⟩

theorem Creation.guards (hc : (h.inMemory orders).Creation c d d') (hg : Guarded dir i d) :
    Guards dir i d d' := by
  -- the pool hands out another ID, since this one is in use
  have hother : ∀ id p, d.core.pool.allocate = .ok (id, p) →
      id ≠ i ∧ i ∈ p.used ∧ i ∈ (p.release id).used := by
    intro id p ha
    obtain ⟨hfree, -, rfl⟩ := Pool.allocate_fresh d.core.pool p id ha
    have hne : id ≠ i := fun heq => hfree (heq ▸ hg.used)
    have hu : i ∈ (d.core.pool.insert id).used := (Pool.mem_insert _ _ _).mpr (.inr hg.used)
    exact ⟨hne, hu, (Pool.mem_release _ _ _).mpr ⟨hu, hne.symm⟩⟩
  cases hc with
  | idle => exact hg.step hg.used hg.unrecorded (.refl _)
  | kept e p w' he hp hq =>
    obtain ⟨-, rfl⟩ := (Pool.markUsed_eq_ok d.core.pool p e.projectId).mp hp
    exact hg.step ((Pool.mem_insert _ _ _).mpr (.inr hg.used)) hg.unrecorded hq.memory.avoids
  | abandoned dir id p f w' he ha hn =>
    obtain ⟨hne, hu, hfreed⟩ := hother id p ha
    refine hg.step ?_ hg.unrecorded (hn.avoids hne)
    simp only
    split
    · exact hfreed
    · exact hu
  | malformed dir id p w' he ha hn =>
    obtain ⟨hne, hu, -⟩ := hother id p ha
    exact hg.step hu hg.unrecorded (hn.avoids hne)
  | recorded dir id p e r s w₁ w₂ w' he ha hn hm hput hq =>
    obtain ⟨hne, hu, -⟩ := hother id p ha
    obtain ⟨rfl, rfl, -⟩ := Entry.make_eq_valid c id dir e hm
    have hafter : w₁.2.Avoids i w'.2 := put_memory hput ▸ hq.memory.avoids
    refine hg.step hu ?_ ((hn.avoids hne).trans hafter)
    have hfull : ∀ x ∈ d.core.store.table.put e, x.projectId ≠ i := by
      intro x hx
      rw [Table.put_absent _ e he, List.mem_append, List.mem_singleton] at hx
      rcases hx with hx | rfl
      · exact hg.unrecorded x hx
      · exact hne
    cases Store.put_outcome _ _ _ _ _ _ _ hput with
    | written => exact hfull
    | undone f hf => exact hg.unrecorded
    | unwritten f hf => exact hfull

/-- An ID that is chosen for another container is another one. -/
theorem ChoiceOutcome.other {other : Layer} {id : Int}
    (hc : (h.inMemory orders).ChoiceOutcome c other d.core w (.ok (some id)) w₁)
    (hg : Guarded dir i d) (htags : w.2.tags = d.outside.2.tags)
    (hdir : ∃ path, other = Layer.ofPath path) (hne : other ≠ dir) : id ≠ i := by
  cases hc with
  | own e r w₁ w' he ht hr hq => exact hg.unrecorded e (Table.get?_mem _ c e he).1
  | adopted id w₁ w' he ht hin hno hq =>
    rintro rfl
    obtain ⟨path, rfl⟩ := hdir
    have hfound := (readTag_memory ht).found id rfl
    rw [htags] at hfound
    exact hne (hg.tags path hfound)

theorem Forgetting.guards {id : Int} {r : Except Failure (Option Int)}
    (hf : (h.inMemory orders).Forgetting c id d.core w r d') (hg : Guarded dir i d)
    (hid : id ≠ i) (ha : d.outside.2.Avoids i w.2) : Guards dir i d d' := by
  have hall := ha.trans hf.memory.avoids
  have hsub : ∀ e ∈ d.core.store.table.remove c, e.projectId ≠ i :=
    fun e he => hg.unrecorded e ((Table.mem_remove _ c e).mp he).1
  have hcore : i ∈ d'.core.pool.used ∧ ∀ e ∈ d'.core.store.table, e.projectId ≠ i := by
    have ho := hf.forgotten
    generalize d'.core = core' at ho ⊢
    cases ho with
    | done => exact ⟨(Pool.mem_release _ _ _).mpr ⟨hg.used, hid.symm⟩, hsub⟩
    | undone e he f hf =>
      refine ⟨hg.used, fun x hx => ?_⟩
      rcases List.mem_append.mp hx with hx | hx
      · exact hsub x hx
      · rw [List.mem_singleton.mp hx]
        exact hg.unrecorded e (Table.get?_mem _ c e he).1
    | unwritten e he f hf => exact ⟨hg.used, hsub⟩
  exact hg.step hcore.1 hcore.2 hall

theorem DeleteOutcome.guards {r : Except Failure (Option Int)}
    (ho : (h.inMemory orders).DeleteOutcome c d r d') (hr : (h.inMemory orders).NamesTexts)
    (hc : ∀ w w', (h.inMemory orders).resolve c w ≠ (.ok dir, w')) (hg : Guarded dir i d) :
    Guards dir i d d' := by
  have hidle : ∀ w', (h.inMemory orders).Quiet d.outside w' → Guards dir i d ⟨d.core, w'⟩ :=
    fun w' hq => hg.step hg.used hg.unrecorded hq.memory.avoids
  have hchosen : ∀ other id w₁ w₂ w₃, (h.inMemory orders).resolve c d.outside = (.ok other, w₁) →
      (h.inMemory orders).isPresent other w₁ = (.ok true, w₂) →
      (h.inMemory orders).ChoiceOutcome c other d.core w₂ (.ok (some id)) w₃ →
      id ≠ i ∧ d.outside.2.Avoids i w₃.2 := by
    intro other id w₁ w₂ w₃ hres hp hch
    have hq := (Quiet.ofResolve hres).trans (Quiet.ofPresent hp)
    refine ⟨hch.other hg hq.memory.tags (hr c _ _ _ hres) ?_, (hq.trans hch.quiet).memory.avoids⟩
    rintro rfl
    exact hc _ _ hres
  cases ho with
  | overtaken hc => exact hidle _ (Quiet.refl _)
  | unresolved f w' hres => exact hidle _ (Quiet.ofResolve hres)
  | unseen other f w₁ w' hres hp => exact hidle _ ((Quiet.ofResolve hres).trans (Quiet.ofPresent hp))
  | absent other w₁ w₂ w' hres hp he hq =>
    exact hidle _ (((Quiet.ofResolve hres).trans (Quiet.ofPresent hp)).trans hq)
  | unchosen other r w₁ w₂ w' hres hp hch hn =>
    exact hidle _ (((Quiet.ofResolve hres).trans (Quiet.ofPresent hp)).trans hch.quiet)
  | unclear other id f w₁ w₂ w₃ w' hres hp hch hl hf =>
    obtain ⟨hid, ha⟩ := hchosen other id w₁ w₂ w₃ hres hp hch
    exact hg.step hg.used hg.unrecorded (ha.trans ((setLimit_memory hl).avoids hid))
  | cleared other id rl w₁ w₂ w₃ w₄ w₅ r d' hres hp hch hl hq hf =>
    obtain ⟨hid, ha⟩ := hchosen other id w₁ w₂ w₃ hres hp hch
    exact hf.guards hg hid ((ha.trans ((setLimit_memory hl).avoids hid)).trans hq.memory.avoids)
  | gone other e w₁ w₂ r d' hres hp he hf =>
    have hq := (Quiet.ofResolve hres).trans (Quiet.ofPresent hp)
    exact hf.guards hg (hg.unrecorded e (Table.get?_mem _ c e he).1) hq.memory.avoids

theorem Move.guards {k : EventKind} {ms : List Mark} (hm : (h.inMemory orders).Move k c d ms d')
    (hr : (h.inMemory orders).NamesTexts)
    (hc : ∀ w w', (h.inMemory orders).resolve c w ≠ (.ok dir, w')) (hg : Guarded dir i d) :
    Guards dir i d d' := by
  cases hm with
  | beside d' hb => exact hg.step (hb.pool ▸ hg.used) (hb.store ▸ hg.unrecorded) hb.outside.memory.avoids
  | kept e p w' hk he hp hq => exact (Creation.kept e p w' he hp hq).guards hg
  | created other r d' hk hdir ho => exact ho.creation.guards hg
  | deleted r d' hk ho => exact ho.guards hr hc hg

/-! ### Retention -/

/-- A creation that could not be recorded leaves the ID that it took in use, and in no entry. -/
theorem CreateOutcome.unsaved {τ : Type} {g : Host τ} {d d' : Daemon τ} {path place : String}
    {fault : OsFault} {id : Int} {p : Pool}
    (ho : g.CreateOutcome c (Layer.ofPath path) d (.error (.unsaved place fault)) d')
    (hr : g.Regular) (hs : Sound d.core) (ha : d.core.pool.allocate = .ok (id, p)) :
    id ∈ d'.core.pool.used ∧ ∀ x ∈ d'.core.store.table, x.projectId ≠ id := by
  obtain ⟨id', p', e, s, w₁, w₂, w', ha', -, hput, -, rfl⟩ := ho.of_unsaved hr
  cases ha'.symm.trans ha
  have hused : id ∈ p.used := by
    obtain ⟨-, -, rfl⟩ := Pool.allocate_fresh d.core.pool p id ha
    exact (Pool.mem_insert _ _ _).mpr (.inl rfl)
  generalize hres : (Except.error (.unsaved place fault) : Except Failure Unit) = r at hput
  cases Store.put_outcome _ _ _ _ _ _ _ hput with
  | written => cases hres
  | undone f hf => exact ⟨hused, hs.fresh id p ha⟩
  | unwritten f hf =>
    cases hres
    cases hf

theorem retained_unrecorded {τ : Type} {g : Host τ} (hr : g.Regular) {d : Daemon τ}
    (hs : Sound d.core) (e : Event) (hm : .retained e.container dir i ∈ g.eventMarks e d) :
    i ∈ (g.serve d (.handle e)).core.pool.used ∧
      ∀ x ∈ (g.serve d (.handle e)).core.store.table, x.projectId ≠ i := by
  have hb : g.Beside (Act.run (g.applyEvent e) d).2 (g.serve d (.handle e)) := g.handleEvent_beside e d
  rw [hb.pool, hb.store]
  unfold eventMarks at hm
  cases hk : e.kind with
  | delete =>
    rw [hk] at hm
    obtain ⟨id, -, heq⟩ := Mark.mem_ofDelete hm
    cases heq
  | create =>
    rw [hk] at hm
    rw [g.applyEvent_create e hk, handleCreate_eq, Act.run_bind]
    obtain ⟨rl, w, hrun, hq, hnames⟩ := g.layerOf_outcome e d
    rw [hrun] at hm ⊢
    rcases rl with f | dir'
    · cases hm
    · obtain ⟨path, rfl⟩ := hr.resolve.names _ _ (hnames dir' rfl)
      have ho := g.create_outcome e.container (Layer.ofPath path) ⟨d.core, w⟩
      obtain ⟨place, fault, id, p, hres, ha, heq⟩ := Mark.mem_ofCreate hm
      cases heq
      rw [hres] at ho
      exact ho.unsaved hr hs ha

/-! ### Runs -/

/-- A request that is not for a container, and that leaves the quotas in memory to the daemon. -/
def Request.Besides (c : String) : Request (σ × Memory) → Prop
  | .reconcile => False
  | .handle e => e.container ≠ c
  | .meanwhile f => ∀ w, (f w).2 = w.2

theorem serve_guards (hr : (h.inMemory orders).NamesTexts)
    (hc : ∀ b, b ≠ c → ∀ w w', (h.inMemory orders).resolve b w ≠ (.ok dir, w'))
    (q : Request (σ × Memory)) (hq : q.Besides c) (hg : Guarded dir i d) :
    Guards dir i d ((h.inMemory orders).serve d q) := by
  cases q with
  | reconcile => exact hq.elim
  | handle e =>
    refine ((h.inMemory orders).handleEvent_moves e d).keeps (fun _ => Guards dir i d) ?_ [] ?_
    · rintro _ _ _ _ d₁ d₂ ⟨rfl, rfl⟩ hs hm
      exact hs.trans (hm.guards hr (hc _ hq) hs.guarded)
    · exact hg.step hg.used hg.unrecorded (.refl _)
  | meanwhile f =>
    refine hg.step hg.used hg.unrecorded ?_
    show d.outside.2.Avoids i (f d.outside).2
    rw [hq d.outside]
    exact .refl _

theorem serveAll_guards (hr : (h.inMemory orders).NamesTexts)
    (hc : ∀ b, b ≠ c → ∀ w w', (h.inMemory orders).resolve b w ≠ (.ok dir, w'))
    (qs : List (Request (σ × Memory))) (hq : ∀ q ∈ qs, q.Besides c) (hg : Guarded dir i d) :
    Guards dir i d ((h.inMemory orders).serveAll d qs) :=
  serveAll_keeps (Guards dir i d) qs
    (fun _ q hm hs => hs.trans (serve_guards hr hc q (hq q hm) hs.guarded)) d
    (hg.step hg.used hg.unrecorded (.refl _))

/-- An ID that the failed creation of a container has retained stays in use and without an entry,
and no call sets its limits, while only events of other containers are handled, if no other directory
carries it and the other containers have other directories. -/
theorem retained_protected (h : Host σ) (hr : h.NamesTexts) (orders : σ → List (String × Json.Value))
    (a b : Int) (core : Core) (hs : Start a b core) (w : σ × Memory)
    (qs : List (Request (σ × Memory))) (e : Event) (dir : Layer) (i : Int)
    (hm : .retained e.container dir i ∈
      (h.inMemory orders).eventMarks e ((h.inMemory orders).session ⟨core, w⟩ qs))
    (htags : ∀ path, ((h.inMemory orders).serve ((h.inMemory orders).session ⟨core, w⟩ qs)
      (.handle e)).outside.2.tags.lookup (Layer.ofPath path) = some i → Layer.ofPath path = dir)
    (hown : ∀ c, c ≠ e.container → ∀ v v', h.resolve c v ≠ (.ok dir, v'))
    (rest : List (Request (σ × Memory))) (hrest : ∀ q ∈ rest, q.Besides e.container) :
    let d := (h.inMemory orders).serve ((h.inMemory orders).session ⟨core, w⟩ qs) (.handle e)
    let d' := (h.inMemory orders).serveAll d rest
    i ∈ d'.core.pool.used ∧ i ∉ d'.core.store.table.ids ∧
      ∃ new, d'.outside.2.calls = d.outside.2.calls ++ new ∧
        ∀ soft hard, .setLimit i soft hard ∉ new := by
  intro d d'
  have hreg : (h.inMemory orders).Regular := inMemory_regular hr
  obtain ⟨hu, hno⟩ := retained_unrecorded hreg (hs.sound w qs) e hm
  have hres : ∀ c, c ≠ e.container → ∀ v v', (h.inMemory orders).resolve c v ≠ (.ok dir, v') :=
    fun c hc v v' heq => hown c hc v.1 v'.1 (onFirst_eq (h.resolve c) _ v v' heq)
  have hg : Guards dir i d d' := serveAll_guards hreg.resolve hres rest hrest ⟨hu, hno, htags⟩
  refine ⟨hg.guarded.used, fun hm => ?_, hg.calls.calls⟩
  obtain ⟨x, hx, hid⟩ := List.mem_map.mp hm
  exact hg.guarded.unrecorded x hx hid

theorem fullDisk_creation :
    let host := onFullDisk.inMemory fun _ => []
    let core := Core.opening ⟨"10g", "12g", .ofInt 5, none⟩ ⟨1, 2, []⟩ ⟨"", []⟩
    let start := host.session ⟨core, true, .empty⟩ []
    host.eventMarks ⟨.create, "a", []⟩ start = [.retained "a" (Layer.ofPath "a") 1] ∧
      (host.serve start (.handle ⟨.create, "a", []⟩)).outside.2.tags = [(Layer.ofPath "a", 1)] := by
  constructor
  · with_unfolding_all rfl
  · with_unfolding_all rfl

theorem fullDisk_retained_protected :
    let host := onFullDisk.inMemory fun _ => []
    let core := Core.opening ⟨"10g", "12g", .ofInt 5, none⟩ ⟨1, 2, []⟩ ⟨"", []⟩
    let d := host.serve (host.session ⟨core, true, .empty⟩ []) (.handle ⟨.create, "a", []⟩)
    let d' := host.serveAll d
      [.handle ⟨.delete, "b", []⟩, .meanwhile fun w => (false, w.2), .handle ⟨.create, "b", []⟩]
    1 ∈ d'.core.pool.used ∧ 1 ∉ d'.core.store.table.ids ∧
      ∃ new, d'.outside.2.calls = d.outside.2.calls ++ new ∧
        ∀ soft hard, .setLimit 1 soft hard ∉ new := by
  obtain ⟨hmarks, htags⟩ := fullDisk_creation
  refine retained_protected onFullDisk onFullDisk_namesTexts (fun _ => []) 1 2 _ smooth_start
    (true, .empty) [] ⟨.create, "a", []⟩ (Layer.ofPath "a") 1 ?_ (fun path hpath => ?_)
    (fun c hc v v' hres => ?_) _ (fun q hq => ?_)
  · rw [hmarks]
    exact List.mem_singleton.mpr rfl
  · rw [htags, List.lookup_cons] at hpath
    split at hpath
    · rename_i hkey
      exact ((ofPath_beq path _).mp hkey).symm
    · cases hpath
  · exact hc (ofPath_inj c "a" (Except.ok.inj (congrArg Prod.fst hres)))
  · simp only [List.mem_cons, List.not_mem_nil, or_false] at hq
    rcases hq with rfl | rfl | rfl
    · exact (by decide : "b" ≠ "a")
    · exact fun _ => rfl
    · exact (by decide : "b" ≠ "a")

/-- A container that has ended is deleted again after another one could not be recorded under its
ID: the ID is freed and its limits are cleared. -/
theorem staleTag_retained_freed :
    let host := onFullDisk.inMemory fun _ => []
    let core := Core.opening ⟨"10g", "12g", .ofInt 5, none⟩ ⟨1, 2, []⟩ ⟨"", []⟩
    let before := host.session ⟨core, false, .empty⟩
      [.handle ⟨.create, "b", []⟩, .handle ⟨.delete, "b", []⟩, .meanwhile fun w => (true, w.2)]
    let d := host.serve before (.handle ⟨.create, "a", []⟩)
    let d' := host.serve d (.handle ⟨.delete, "b", []⟩)
    1 ∈ Mark.standing (host.eventMarks ⟨.create, "a", []⟩ before) ∧
      limitsOf d.outside 1 = some ("10g", "12g") ∧ limitsOf d'.outside 1 = none ∧
      1 ∉ d'.core.pool.used := by
  decide +kernel

end Host

end LayerQuota
