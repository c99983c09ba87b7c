import LayerQuota.Proofs.Daemon.Recovery
import LayerQuota.Proofs.Daemon.Shutdown
/-!
# A creation is done whole or not at all

The creation of a container that has no entry tags, limits and records, in this order and once each,
or it leaves pool, record and file as they were. Only where the record could not be written, the ID
stays in use.
-/

namespace LayerQuota

/-! ### Calls that do something -/

/-- Is a call one on quotas, or the writing of the record? -/
def HostCall.isWork : HostCall → Bool
  | .quota _ | .save _ => true
  | _ => false

def HostCall.alters : HostCall → Bool
  | .quota (.tag ..) | .quota (.setLimit ..) | .save _ => true
  | _ => false

/-- The calls on quotas and the record among some notes, in their order. -/
def works (ns : List Noted) : List HostCall := (ns.map (·.call)).filter HostCall.isWork

/-- The notes grew, and these are the altering calls among the new ones. -/
def Altering (calls : List HostCall) (ns ns' : List Noted) : Prop :=
  ∃ new, ns' = ns ++ new ∧ (new.map (·.call)).filter HostCall.alters = calls

namespace Altering

variable {calls calls' : List HostCall} {ns ns₁ ns₂ : List Noted}

theorem refl (ns : List Noted) : Altering [] ns ns := ⟨[], (List.append_nil ns).symm, rfl⟩

theorem trans (ha : Altering calls ns ns₁) (hb : Altering calls' ns₁ ns₂) :
    Altering (calls ++ calls') ns ns₂ := by
  obtain ⟨xs, rfl, rfl⟩ := ha
  obtain ⟨ys, rfl, rfl⟩ := hb
  exact ⟨xs ++ ys, List.append_assoc ns xs ys, by rw [List.map_append, List.filter_append]⟩

theorem idle (ha : Altering calls ns ns₁) (hb : Altering [] ns₁ ns₂) : Altering calls ns ns₂ := by
  have h := ha.trans hb
  rwa [List.append_nil] at h

end Altering

namespace Host

open LayerQuota.Act

variable {σ : Type} {h : Host σ} {faults : σ × List Noted → SaveFaults}
  {v v' : (σ × List Noted) × FileSystem}

theorem tag_altering {dir : Layer} {id : Int} {r : Except Failure Unit}
    (ht : (h.watched.filed faults).tag dir id v = (r, v')) :
    Altering [.quota (.tag dir id)] v.1.2 v'.1.2 := by
  cases ht
  exact ⟨_, rfl, rfl⟩

theorem setLimit_altering {id : Int} {soft hard : String} {r : Except Failure Unit}
    (hl : (h.watched.filed faults).setLimit id soft hard v = (r, v')) :
    Altering [.quota (.setLimit id soft hard)] v.1.2 v'.1.2 := by
  cases hl
  exact ⟨_, rfl, rfl⟩

theorem save_altering {path text : String} {r : Except OsFault Unit}
    (hs : (h.watched.filed faults).save path text v = (r, v')) :
    Altering [.save path] v.1.2 v'.1.2 := by
  cases hs
  exact ⟨_, rfl, rfl⟩

theorem Aside.altering (ha : (h.watched.filed faults).Aside v v') : Altering [] v.1.2 v'.1.2 := by
  cases ha with
  | log l => exact ⟨_, rfl, rfl⟩
  | resolve c => exact ⟨_, rfl, rfl⟩
  | isPresent dir => exact ⟨_, rfl, rfl⟩
  | list => exact ⟨_, rfl, rfl⟩
  | readTag dir => exact ⟨_, rfl, rfl⟩

theorem Quiet.altering (hq : (h.watched.filed faults).Quiet v v') : Altering [] v.1.2 v'.1.2 := by
  induction hq with
  | refl => exact .refl _
  | tail _ ha ih => exact ih.idle ha.altering

/-- The calls that an enforcement gets to. -/
theorem Enforcing.altering {s : Settings} {dir : Layer} {id : Int} {r : Except Failure Unit}
    (hn : (h.watched.filed faults).Enforcing s dir id v r v') :
    ∃ calls, calls <+:
        [.quota (.tag dir id), .quota (.setLimit id s.softLimit s.hardLimit)] ∧
      Altering calls v.1.2 v'.1.2 := by
  cases hn with
  | overtaken hc => exact ⟨[], List.nil_prefix, .refl _⟩
  | untagged f w' ht => exact ⟨_, List.prefix_append [_] [_], tag_altering ht⟩
  | halted w' ht hc => exact ⟨_, List.prefix_append [_] [_], tag_altering ht⟩
  | limited w₁ w' r ht hl => exact ⟨_, List.prefix_rfl, (tag_altering ht).trans (setLimit_altering hl)⟩

theorem Enforcing.altering_all {s : Settings} {dir : Layer} {id : Int}
    (hn : (h.watched.filed faults).Enforcing s dir id v (.ok ()) v') :
    Altering [.quota (.tag dir id), .quota (.setLimit id s.softLimit s.hardLimit)]
      v.1.2 v'.1.2 := by
  cases hn with
  | limited w₁ w' r ht hl => exact (tag_altering ht).trans (setLimit_altering hl)

theorem quiet_of_log {g : Host σ} {w w' : σ} (hlog : w' = w ∨ ∃ l, w' = g.log l w) :
    g.Quiet w w' := by
  obtain rfl | ⟨l, rfl⟩ := hlog
  · exact .refl _
  · exact (Aside.log l w).quiet

/-- A creation reads no tag: all it has to do with quotas and the record alters them. -/
theorem create_notes (h : Host σ) (faults : σ × List Noted → SaveFaults) (c : String) (dir : Layer)
    (d : Daemon ((σ × List Noted) × FileSystem)) :
    Grown (fun n => n.call.isWork = n.call.alters) d.outside.1.2
      (Act.run ((h.watched.filed faults).create c dir) d).2.outside.1.2 := by
  have hpermits : (h.watched.filed faults).Permits fun v =>
      Grown (fun n => n.call.isWork = n.call.alters) d.outside.1.2 v.1.2 :=
    ⟨fun _ _ _ hv => hv.snoc _ rfl, fun _ _ _ hv => hv.snoc _ rfl,
      fun _ _ _ _ hv => hv.snoc _ rfl, fun _ _ _ _ _ hv => hv.snoc _ rfl⟩
  exact (hpermits.create c dir d (.refl _)).2

/-! ### How a creation ends -/

/-- Tagging a directory and setting limits fail as quota tools do. -/
structure ToolsFail (h : Host σ) (u : String) : Prop where
  tag : ∀ id w f w', h.tag (Layer.ofPath u) id w = (.error f, w') →
    ∃ m cmd out, f = .enforcement m cmd out
  setLimit : ∀ id soft hard w f w', h.setLimit id soft hard w = (.error f, w') →
    ∃ m cmd out, f = .enforcement m cmd out

theorem ToolsFail.filed {u : String} (ht : h.ToolsFail u) :
    (h.watched.filed faults).ToolsFail u := by
  refine ⟨fun id v f v' heq => ?_, fun id soft hard v f v' heq => ?_⟩
  · exact ht.tag id v.1.1 f v'.1.1 (noted_eq (onFirst_eq _ _ _ _ heq)).1
  · exact ht.setLimit id soft hard v.1.1 f v'.1.1 (noted_eq (onFirst_eq _ _ _ _ heq)).1

/-- An enforcement fails as the tools do, or because the scope was cancelled. -/
theorem Enforcing.error_cases {g : Host σ} {u : String} (ht : g.ToolsFail u) {s : Settings}
    {id : Int} {w w' : σ} {f : Failure} (hn : g.Enforcing s (Layer.ofPath u) id w (.error f) w') :
    f = .cancelled ∨ ∃ m cmd out, f = .enforcement m cmd out := by
  cases hn with
  | overtaken hc => exact .inl rfl
  | untagged f w' htag => exact .inr (ht.tag id w f w' htag)
  | halted w' htag hc => exact .inl rfl
  | limited w₁ w' r htag hl => exact .inr (ht.setLimit id _ _ w₁ f w' hl)

/-- From one state to another a directory is tagged and its limits are set, and both succeed. -/
def InForce (g : Host σ) (s : Settings) (u : String) (id : Int) (v w : σ) : Prop :=
  ∃ w₁, g.tag (Layer.ofPath u) id v = (.ok (), w₁) ∧
    g.setLimit id s.softLimit s.hardLimit w₁ = (.ok (), w)

/-- The least ID of the range that is free and that no entry has. -/
structure LeastFree (core : Core) (id : Int) : Prop where
  inRange : core.pool.inRange id = true
  free : id ∉ core.pool.used
  least : ∀ n, core.pool.least ≤ n → n < id → n ∈ core.pool.used
  unrecorded : ∀ x ∈ core.store.table, x.projectId ≠ id

/-- What the creation of a container that has no entry can come to: the state after it, its answer,
and the calls on quotas and the record that it made. Between these calls, before and after them, the
daemon does nothing but ask and note. -/
inductive CreationEnd (g : Host (σ × FileSystem)) (c u : String) (d d' : Daemon (σ × FileSystem)) :
    Except Failure Entry → List HostCall → Prop
  | created (id : Int) (v w w' : σ × FileSystem) (hid : LeastFree d.core id)
    (hfound : g.Quiet d.outside v) (hforce : g.InForce d.core.settings u id v w)
    (hsave : g.save d.core.store.path (Document.render (d.core.store.table ++ [⟨c, id, u⟩])) w =
      (.ok (), w'))
    (hq : g.Quiet w' d'.outside)
    (hcore : d'.core = { d.core with
      pool := d.core.pool.insert id
      store := { d.core.store with table := d.core.store.table ++ [⟨c, id, u⟩] } })
    (hfile : d'.outside.2.read d.core.store.path =
      .ok (Document.render (d.core.store.table ++ [⟨c, id, u⟩])).toUTF8) :
    CreationEnd g c u d d' (.ok ⟨c, id, u⟩)
      [.quota (.tag (Layer.ofPath u) id),
        .quota (.setLimit id d.core.settings.softLimit d.core.settings.hardLimit),
        .save d.core.store.path]
  | exhausted (hfull : ∀ n, d.core.pool.inRange n = true → n ∈ d.core.pool.used)
    (hcore : d'.core = d.core) (hfile : d'.outside.2 = d.outside.2) :
    CreationEnd g c u d d' (.error (.pool (.exhausted d.core.pool.least d.core.pool.greatest))) []
  | abandoned (f : Failure) (calls : List HostCall)
    (hf : f = .cancelled ∨ ∃ m cmd out, f = .enforcement m cmd out)
    (hcalls : ∃ id, calls <+: [.quota (.tag (Layer.ofPath u) id),
      .quota (.setLimit id d.core.settings.softLimit d.core.settings.hardLimit)])
    (hcore : d'.core = d.core) (hfile : d'.outside.2 = d.outside.2) :
    CreationEnd g c u d d' (.error f) calls
  | unsaved (id : Int) (fault : OsFault) (v w w' : σ × FileSystem) (hid : LeastFree d.core id)
    (hfound : g.Quiet d.outside v) (hforce : g.InForce d.core.settings u id v w)
    (hsave : g.save d.core.store.path (Document.render (d.core.store.table ++ [⟨c, id, u⟩])) w =
      (.error fault, w'))
    (hq : g.Quiet w' d'.outside)
    (hcore : d'.core = { d.core with pool := d.core.pool.insert id })
    (hfile : d'.outside.2.read d.core.store.path = d.outside.2.read d.core.store.path) :
    CreationEnd g c u d d' (.error (.unsaved d.core.store.path fault))
      [.quota (.tag (Layer.ofPath u) id),
        .quota (.setLimit id d.core.settings.softLimit d.core.settings.hardLimit),
        .save d.core.store.path]

variable {d d' : Daemon ((σ × List Noted) × FileSystem)} {c u : String}

theorem leastFree_of_allocate {core : Core} {p : Pool} {id : Int}
    (hreserved : ∀ x ∈ core.store.table, core.pool.inRange x.projectId = true →
      x.projectId ∈ core.pool.used) (ha : core.pool.allocate = .ok (id, p)) :
    LeastFree core id := by
  obtain ⟨hfree, hin, -⟩ := Pool.allocate_fresh core.pool p id ha
  refine ⟨hin, hfree, fun n hlow hlt => Pool.allocate_least core.pool p id n ha hlow hlt, ?_⟩
  rintro x hx rfl
  exact hfree (hreserved x hx hin)

theorem Enforcing.inForce {g : Host σ} {s : Settings} {id : Int} {w w' : σ}
    (hn : g.Enforcing s (Layer.ofPath u) id w (.ok ()) w') : g.InForce s u id w w' := by
  cases hn with
  | limited w₁ w' r ht hl => exact ⟨w₁, ht, hl⟩

theorem CreateOutcome.ends {r : Except Failure Entry}
    (ho : (h.watched.filed faults).CreateOutcome c (Layer.ofPath u) d r d')
    (ht : h.ToolsFail u) (he : d.core.store.table.get? c = none)
    (hreserved : ∀ x ∈ d.core.store.table, d.core.pool.inRange x.projectId = true →
      x.projectId ∈ d.core.pool.used)
    (hleast : 1 ≤ d.core.pool.least) (hgreatest : d.core.pool.greatest ≤ maxProjectId)
    (hfound : (h.watched.filed faults).Quiet v d.outside)
    (hfile : Save.Seated v.2 d.core.store.path) :
    ∃ calls, Altering calls d.outside.1.2 d'.outside.1.2 ∧
      CreationEnd (h.watched.filed faults) c u ⟨d.core, v⟩ d' r calls := by
  have hsame : d.outside.2 = v.2 := hfound.files
  cases ho with
  | kept e p w' hsome hp hq => exact absurd (he.symm.trans hsome) nofun
  | refused e f hsome hp => exact absurd (he.symm.trans hsome) nofun
  | overtaken _ hc =>
    exact ⟨[], .refl _, .abandoned _ [] (.inl rfl) ⟨0, List.nil_prefix⟩ rfl hsame⟩
  | exhausted f _ ha =>
    obtain ⟨rfl, hfull⟩ := Pool.allocate_error _ f ha
    exact ⟨[], .refl _, .exhausted hfull rfl hsame⟩
  | abandoned id p f w' _ ha hn =>
    obtain ⟨calls, hprefix, hcalls⟩ := hn.altering
    have hf := hn.error_cases ht.filed
    have hfrees : freesId f = true := by
      obtain rfl | ⟨m, cmd, out, rfl⟩ := hf
      · rfl
      · rfl
    obtain ⟨hfresh, -, rfl⟩ := Pool.allocate_fresh _ p id ha
    refine ⟨calls, hcalls, .abandoned f calls hf ⟨id, hprefix⟩ ?_ (hn.files.trans hsame)⟩
    simp only [hfrees, if_true, Pool.release_insert _ _ hfresh]
  | malformed id p vs w' _ ha hn hm =>
    obtain ⟨-, hin, -⟩ := Pool.allocate_fresh _ p id ha
    obtain ⟨hlow, hhigh⟩ := (Pool.inRange_iff _ id).mp hin
    have hid : Entry.Recordable id := ⟨by omega, by omega⟩
    exact absurd (hm.symm.trans (Entry.make_text c id u hid)) nofun
  | recorded id p e r s w₁ w₂ w' _ ha hn hm hput hq =>
    obtain ⟨hfresh, hin, rfl⟩ := Pool.allocate_fresh _ p id ha
    obtain ⟨hlow, hhigh⟩ := (Pool.inRange_iff _ id).mp hin
    have hid : Entry.Recordable id := ⟨by omega, by omega⟩
    rw [Layer.ofPath, Entry.make_text c id u hid] at hm
    cases hm
    have hlast := leastFree_of_allocate hreserved ha
    have hfiles : w'.2 = w₂.2 := hq.files
    have hleft : w₁.2 = v.2 := hn.files.trans hsame
    have hnew : d.core.store.table.put ⟨c, id, u⟩ = d.core.store.table ++ [⟨c, id, u⟩] :=
      Table.put_absent _ _ he
    obtain ⟨a, w₃, hsave, hlog, hanswer⟩ := Store.put_calls _ _ s _ w₁ w₂ r hput
    have hafter : (h.watched.filed faults).Quiet w₃ w' := (quiet_of_log hlog).trans hq
    have hcalls := (hn.altering_all.trans (save_altering hsave)).idle hafter.altering
    have hended := Store.put_seated h.watched.toDisk faults _ s _ w₁ w₂ r (hleft ▸ hfile) hput
    rw [hnew] at hsave hended
    obtain ⟨rfl, rfl⟩ | ⟨fault, rfl, rfl⟩ | ⟨rfl, rfl⟩ := hanswer
    · obtain ⟨-, rfl, hread⟩ | ⟨⟨fault, hf⟩, -⟩ := hended
      · refine ⟨_, hcalls, .created id _ w₁ w₃ hlast hfound hn.inForce hsave hafter rfl ?_⟩
        rw [hfiles]
        exact hread
      · cases hf
    · obtain ⟨hok, -⟩ | ⟨-, rfl, hread⟩ := hended
      · cases hok
      · refine ⟨_, hcalls, .unsaved id fault _ w₁ w₃ hlast hfound hn.inForce hsave hafter rfl ?_⟩
        rw [hfiles, hread, hleft]
    · obtain ⟨hok, -⟩ | ⟨⟨fault, hf⟩, -⟩ := hended
      · cases hok
      · cases hf

/-- Finding the directory asks the runtime at most, and leaves the files alone. -/
theorem layerOf_asks (h : Host σ) (faults : σ × List Noted → SaveFaults) (e : Event) (u : String)
    (core : Core) (v : (σ × List Noted) × FileSystem)
    (hdir : Mount.upperdir? e.rootfs = some u ∨ Mount.upperdir? e.rootfs = none ∧
      ∃ w, h.resolve e.container v.1.1 = (.ok (Layer.ofPath u), w)) :
    ∃ v' asked, Act.run ((h.watched.filed faults).layerOf e) ⟨core, v⟩ =
      (.ok (Layer.ofPath u), ⟨core, v'⟩) ∧ (h.watched.filed faults).Quiet v v' ∧
        v'.1.2 = v.1.2 ++ asked ∧ works asked = [] := by
  unfold layerOf
  obtain hsome | ⟨hnone, w, hres⟩ := hdir
  · rw [hsome]
    exact ⟨v, [], rfl, .refl v, (List.append_nil _).symm, rfl⟩
  · rw [hnone]
    refine ⟨((h.watched.filed faults).resolve e.container v).2,
      [⟨h.cancelled v.1.1, .resolve e.container⟩], ?_, .ofResolve rfl, rfl, rfl⟩
    show Act.run (Act.call _) _ = _
    rw [run_call]
    have hok : ((h.watched.filed faults).resolve e.container v).1 = .ok (Layer.ofPath u) :=
      congrArg Prod.fst hres
    rw [hok]

/-- The creation of a container that has no entry and whose directory is named by a text, where the
IDs of the range that are recorded are in use: it is created whole, under the least free ID, or no
ID is free and nothing is called, or it is abandoned and nothing is left of it, or all is done but
the record, and the ID alone stays in use. -/
theorem handleCreate_whole (h : Host σ) (faults : σ × List Noted → SaveFaults) (e : Event)
    (u : String) (d : Daemon ((σ × List Noted) × FileSystem)) (ht : h.ToolsFail u)
    (he : d.core.store.table.get? e.container = none)
    (hdir : Mount.upperdir? e.rootfs = some u ∨ Mount.upperdir? e.rootfs = none ∧
      ∃ w, h.resolve e.container d.outside.1.1 = (.ok (Layer.ofPath u), w))
    (hreserved : ∀ x ∈ d.core.store.table, d.core.pool.inRange x.projectId = true →
      x.projectId ∈ d.core.pool.used)
    (hleast : 1 ≤ d.core.pool.least) (hgreatest : d.core.pool.greatest ≤ maxProjectId)
    (hfile : Save.Seated d.outside.2 d.core.store.path) :
    let a := Act.run ((h.watched.filed faults).handleCreate e) d
    ∃ new, a.2.outside.1.2 = d.outside.1.2 ++ new ∧
      CreationEnd (h.watched.filed faults) e.container u d a.2 a.1 (works new) := by
  intro a
  obtain ⟨v, asked, hrun, hfound, hnotes, hasked⟩ := layerOf_asks h faults e u d.core d.outside hdir
  have ha : a = Act.run ((h.watched.filed faults).create e.container (Layer.ofPath u))
      ⟨d.core, v⟩ := by
    show Act.run ((h.watched.filed faults).handleCreate e) d = _
    rw [handleCreate_eq, run_bind_ok _ _ _ _ _ hrun]
  obtain ⟨calls, ⟨new, hnew, rfl⟩, hend⟩ :=
    ((h.watched.filed faults).create_outcome e.container (Layer.ofPath u) ⟨d.core, v⟩).ends ht he
      hreserved hleast hgreatest hfound hfile
  obtain ⟨new', hnew', hsame⟩ :=
    create_notes h faults e.container (Layer.ofPath u) ⟨d.core, v⟩
  have heq : new' = new := List.append_cancel_left (hnew'.symm.trans hnew)
  subst heq
  have hworks : works (asked ++ new') = (new'.map (·.call)).filter HostCall.alters := by
    have hfilter : (new'.map (·.call)).filter HostCall.isWork =
        (new'.map (·.call)).filter HostCall.alters := by
      refine List.filter_congr fun call hm => ?_
      obtain ⟨n, hn, rfl⟩ := List.mem_map.mp hm
      exact hsame n hn
    unfold works at hasked ⊢
    rw [List.map_append, List.filter_append, hasked, List.nil_append, hfilter]
  rw [← ha] at hnew hend
  refine ⟨asked ++ new', ?_, ?_⟩
  · rw [hnew, hnotes, List.append_assoc]
  · rw [hworks]
    exact hend

theorem recordFile_handleCreate_whole :
    let host := (smooth : Host Unit).watched.filed fun _ => [(.sync, .plain "disk full")]
    let core := Core.opening ⟨"10g", "12g", .ofInt 5, none⟩ ⟨1, 2, [1]⟩ ⟨"/s", [⟨"a", 1, "/u"⟩]⟩
    let a := Act.run (host.handleCreate ⟨.create, "c", []⟩) ⟨core, ((), []), recordFile⟩
    ∃ new, a.2.outside.1.2 = [] ++ new ∧
      CreationEnd host "c" "c" ⟨core, ((), []), recordFile⟩ a.2 a.1 (works new) :=
  handleCreate_whole smooth _ ⟨.create, "c", []⟩ "c" ⟨_, ((), []), recordFile⟩ ⟨nofun, nofun⟩ rfl
    (.inr ⟨rfl, (), rfl⟩) (by decide) (by decide) (by decide) (Save.Seated.of_read rfl)

end Host

end LayerQuota
