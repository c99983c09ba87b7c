import LayerQuota.Proofs.Daemon.Run
import LayerQuota.Proofs.Durable
/-!
# No ID twice

The record and the pool are changed one after the other. What holds of both together after every
deed: no ID is recorded twice, a recorded ID of the range is in use, and no other ID is than those
of the range.
-/

namespace LayerQuota

/-- The record and the pool agree. -/
structure Sound (core : Core) : Prop where
  distinct : core.store.table.ids.Nodup
  reserved : ∀ e ∈ core.store.table, core.pool.inRange e.projectId = true →
    e.projectId ∈ core.pool.used
  within : ∀ n ∈ core.pool.used, core.pool.inRange n = true

namespace Sound

variable {core : Core}

theorem congr (hs : Sound core) (core' : Core) (hp : core'.pool = core.pool)
    (ht : core'.store.table = core.store.table) : Sound core' :=
  ⟨ht ▸ hs.distinct, ht ▸ hp ▸ hs.reserved, hp ▸ hs.within⟩

/-- An ID that the pool hands out is none of the recorded ones. -/
theorem fresh (hs : Sound core) (id : Int) (p : Pool) (ha : core.pool.allocate = .ok (id, p)) :
    ∀ e ∈ core.store.table, e.projectId ≠ id := by
  obtain ⟨hfree, hin, -⟩ := Pool.allocate_fresh core.pool p id ha
  intro e he heq
  exact hfree (heq ▸ hs.reserved e he (heq ▸ hin))

theorem insert (hs : Sound core) (id : Int) (hin : core.pool.inRange id = true) :
    Sound { core with pool := core.pool.insert id } := by
  refine ⟨hs.distinct, fun e he hr => ?_, fun n hn => ?_⟩
  · rw [Pool.insert_inRange] at hr
    exact (Pool.mem_insert _ _ _).mpr (.inr (hs.reserved e he hr))
  · rw [Pool.insert_inRange]
    rcases (Pool.mem_insert _ _ _).mp hn with rfl | hn
    · exact hin
    · exact hs.within n hn

/-- The ID of an entry is in use already, so marking it changes nothing. -/
theorem markUsed_eq (hs : Sound core) (c : String) (e : Entry) (p : Pool)
    (he : core.store.table.get? c = some e) (hp : core.pool.markUsed e.projectId = .ok p) :
    p = core.pool := by
  obtain ⟨hin, rfl⟩ := (Pool.markUsed_eq_ok core.pool p e.projectId).mp hp
  exact Pool.insert_of_used _ _ (hs.reserved e (Table.get?_mem _ c e he).1 hin)

/-- An ID that no entry has may be freed. -/
theorem release (hs : Sound core) (id : Int) (hno : ∀ e ∈ core.store.table, e.projectId ≠ id) :
    Sound { core with pool := core.pool.release id } := by
  refine ⟨hs.distinct, fun e he hr => ?_, fun n hn => ?_⟩
  · exact (Pool.mem_release _ _ _).mpr ⟨hs.reserved e he hr, hno e he⟩
  · exact hs.within n ((Pool.mem_release _ _ _).mp hn).1

theorem allocate (hs : Sound core) (id : Int) (p : Pool) (ha : core.pool.allocate = .ok (id, p)) :
    Sound { core with pool := p } := by
  obtain ⟨-, hin, rfl⟩ := Pool.allocate_fresh core.pool p id ha
  exact hs.insert id hin

/-- An entry of a container that has none may be put in under an ID that is in use and not
recorded. -/
theorem put (hs : Sound core) (e : Entry) (hu : e.projectId ∈ core.pool.used)
    (hc : core.store.table.get? e.container = none)
    (hno : ∀ x ∈ core.store.table, x.projectId ≠ e.projectId) (path : String) :
    Sound { core with store := ⟨path, core.store.table.put e⟩ } := by
  have hput := Table.put_absent core.store.table e hc
  refine ⟨?_, fun x hx hr => ?_, hs.within⟩
  · show (core.store.table.put e).ids.Nodup
    rw [hput]
    exact Table.ids_append_nodup core.store.table e hs.distinct hno
  · have hx : x ∈ core.store.table.put e := hx
    rw [hput, List.mem_append, List.mem_singleton] at hx
    rcases hx with hx | rfl
    · exact hs.reserved x hx hr
    · exact hu

theorem subset (hs : Sound core) (t : Table) (path : String) (hn : t.ids.Nodup)
    (hsub : ∀ e ∈ t, e ∈ core.store.table) : Sound { core with store := ⟨path, t⟩ } :=
  ⟨hn, fun e he hr => hs.reserved e (hsub e he) hr, hs.within⟩

end Sound

namespace Host

variable {σ : Type} {h : Host σ} {d d' : Daemon σ} {c : String}

/-! ### Deeds -/

theorem Beside.sound (hb : h.Beside d d') (hs : Sound d.core) : Sound d'.core :=
  hs.congr d'.core hb.pool (congrArg Store.table hb.store)

theorem Reserving.sound (hr : h.Reserving d.core.store.table d d')
    (hn : d.core.store.table.ids.Nodup)
    (hw : ∀ n ∈ d.core.pool.used, d.core.pool.inRange n = true) : Sound d'.core := by
  refine ⟨hr.store ▸ hn, fun e he hin => ?_, fun n hu => ?_⟩
  · rw [hr.store] at he
    rw [hr.inRange] at hin
    exact (hr.used e.projectId).mpr (.inr ⟨hin, List.mem_map_of_mem he⟩)
  · rw [hr.inRange]
    rcases (hr.used n).mp hu with hu | ⟨hin, -⟩
    · exact hw n hu
    · exact hin

theorem Creation.sound (hc : h.Creation c d d') (hs : Sound d.core) : Sound d'.core := by
  cases hc with
  | idle => exact hs
  | kept e p w' he hp hq =>
    obtain ⟨hin, rfl⟩ := (Pool.markUsed_eq_ok d.core.pool p e.projectId).mp hp
    exact hs.insert e.projectId hin
  | abandoned dir id p f w' he ha hn =>
    have hnew := hs.allocate id p ha
    cases hf : freesId f with
    | true => exact hnew.release id (hs.fresh id p ha)
    | false => exact hnew
  | malformed dir id p w' he ha hn => exact hs.allocate id p ha
  | recorded dir id p e r s w₁ w₂ w' he ha hn hm hput hq =>
    have hnew := hs.allocate id p ha
    obtain ⟨rfl, rfl, -⟩ := Entry.make_eq_valid c id dir e hm
    have hu : e.projectId ∈ p.used := by
      obtain ⟨-, -, rfl⟩ := Pool.allocate_fresh d.core.pool p _ ha
      exact (Pool.mem_insert _ _ _).mpr (.inl rfl)
    have hfull := hnew.put e hu he (hs.fresh _ p ha) d.core.store.path
    cases Store.put_outcome h.toDisk d.core.store s e w₁ w₂ r hput with
    | written => exact hfull
    | undone f hf => exact hnew
    | unwritten f hf => exact hfull

/-- An ID that a deletion may clear is recorded for no other container. -/
theorem Clearable.notOthers {core : Core} {id : Int} (hc : Clearable core c id) (hs : Sound core) :
    ∀ x ∈ core.store.table, x.container ≠ c → x.projectId ≠ id := by
  intro x hx hxc
  rcases hc with ⟨e, he, rfl⟩ | ⟨-, -, hno⟩
  · have hrest : x ∈ core.store.table.remove c := (Table.mem_remove _ c x).mpr ⟨hx, hxc⟩
    exact Table.projectId_ne_of_remove _ hs.distinct c e x he hrest
  · exact hno x hx

/-- Taking out a container takes out the ID that its deletion may clear. -/
theorem Clearable.ids_remove {core : Core} {id : Int} (hc : Clearable core c id)
    (hn : core.store.table.ids.Nodup) (hd : core.store.table.containers.Nodup) (n : Int) :
    n ∈ (core.store.table.remove c).ids ↔ n ∈ core.store.table.ids ∧ n ≠ id := by
  rcases hc with ⟨e, he, rfl⟩ | ⟨hnone, -, hno⟩
  · exact Table.mem_ids_remove _ hn hd c e he n
  · rw [Table.remove_absent _ c hnone]
    refine (and_iff_left_of_imp fun hm => ?_).symm
    obtain ⟨e, he, rfl⟩ := List.mem_map.mp hm
    exact hno e he

theorem Forgetting.sound {id : Int} {w : σ} {r : Except Failure (Option Int)}
    (hf : h.Forgetting c id d.core w r d') (hc : Clearable d.core c id) (hs : Sound d.core) :
    Sound d'.core := by
  have hremove : Sound { d.core with store := ⟨d.core.store.path, d.core.store.table.remove c⟩ } :=
    hs.subset _ _ (Table.ids_remove_nodup _ c hs.distinct)
      fun e he => ((Table.mem_remove _ c e).mp he).1
  have hno : ∀ x ∈ d.core.store.table.remove c, x.projectId ≠ id := by
    intro x hx
    obtain ⟨hxt, hxc⟩ := (Table.mem_remove _ c x).mp hx
    exact hc.notOthers hs x hxt hxc
  have ho := hf.forgotten
  generalize d'.core = core' at ho ⊢
  cases ho with
  | done => exact hremove.release id hno
  | undone e he f hf =>
    refine hs.subset _ _ ?_ ?_
    · exact Table.ids_append_nodup _ e (Table.ids_remove_nodup _ c hs.distinct)
        fun x hx => Table.projectId_ne_of_remove _ hs.distinct c e x he hx
    · intro x hx
      rcases List.mem_append.mp hx with hx | hx
      · exact ((Table.mem_remove _ c x).mp hx).1
      · rw [List.mem_singleton.mp hx]
        exact (Table.get?_mem _ c e he).1
  | unwritten e he f hf => exact hremove

theorem Deletion.sound {r : Except Failure (Option Int)} (hd : h.Deletion c d r d')
    (hs : Sound d.core) : Sound d'.core := by
  cases hd with
  | idle r w' hr hq => exact hs
  | unclear id f w₁ w' hc hq hl => exact hs
  | cleared id rl w₁ w₂ w₃ r d' hc hq hl hn hf => exact hf.sound hc hs
  | gone e w₁ r d' he hq hf => exact hf.sound (.inl ⟨e, he, rfl⟩) hs

theorem Deed.sound {k : EventKind} (hd : h.Deed k c d d') (hs : Sound d.core) : Sound d'.core := by
  cases hd with
  | beside hb => exact hb.sound hs
  | creation hk hc => exact hc.sound hs
  | deletion hk r hd => exact hd.sound hs

/-! ### Runs -/

/-- A reconciliation makes the record and the pool agree where no ID is recorded twice. -/
theorem reconcile_sound (d : Daemon σ) (hn : d.core.store.table.ids.Nodup)
    (hw : ∀ n ∈ d.core.pool.used, d.core.pool.inRange n = true) :
    Sound (h.serve d .reconcile).core :=
  reconcile_establishes (fun d => Sound d.core) d (fun _ _ _ _ hs hd => hd.sound hs)
    fun _ hr => hr.sound hn hw

theorem serve_sound (q : Request σ) (d : Daemon σ) (hs : Sound d.core) :
    Sound (h.serve d q).core :=
  serve_keeps (fun d => Sound d.core) q (fun _ _ _ _ hs hd => hd.sound hs)
    (fun _ _ hs hr => hr.sound hs.distinct hs.within) (fun _ _ _ hs => hs) d hs

theorem session_sound (d : Daemon σ) (qs : List (Request σ)) (hn : d.core.store.table.ids.Nodup)
    (hw : ∀ n ∈ d.core.pool.used, d.core.pool.inRange n = true) : Sound (h.session d qs).core :=
  serveAll_keeps (fun d => Sound d.core) qs (fun d q _ => serve_sound q d) _
    (reconcile_sound d hn hw)

/-- A daemon that starts from a record that was loaded, and from a fresh pool. -/
structure Start (a b : Int) (core : Core) : Prop where
  pool : Pool.create a b = .ok core.pool
  loaded : ∃ (τ : Type) (disk : Disk τ) (s : Store) (v v' : τ),
    s.load disk v = (.ok (), core.store, v')

namespace Start

variable {a b : Int} {core : Core}

theorem distinct (hs : Start a b core) : core.store.table.ids.Nodup := by
  obtain ⟨τ, disk, s, v, v', hl⟩ := hs.loaded
  exact Store.load_ids_nodup disk s core.store v v' hl

theorem inRange_iff (hs : Start a b core) (n : Int) :
    core.pool.inRange n = true ↔ a ≤ n ∧ n ≤ b := by
  rw [Pool.create_used a b core.pool hs.pool]
  exact Pool.inRange_iff _ n

theorem sound (hs : Start a b core) (w : σ) (qs : List (Request σ)) :
    Sound (h.session ⟨core, w⟩ qs).core := by
  refine session_sound ⟨core, w⟩ qs hs.distinct fun n hn => ?_
  simp only [Pool.create_used a b core.pool hs.pool] at hn
  cases hn

end Start

/-- In every session no ID is recorded twice, a recorded ID of the range is in use, and no ID
outside the range is. -/
theorem session_distinct_reserved_within (h : Host σ) (a b : Int) (core : Core) (w : σ)
    (hs : Start a b core) (qs : List (Request σ)) :
    let core' := (h.session ⟨core, w⟩ qs).core
    core'.store.table.ids.Nodup ∧
      (∀ e ∈ core'.store.table, a ≤ e.projectId → e.projectId ≤ b →
        e.projectId ∈ core'.pool.used) ∧
      ∀ n ∈ core'.pool.used, a ≤ n ∧ n ≤ b := by
  have hsound : Sound (h.session ⟨core, w⟩ qs).core := hs.sound w qs
  have hrange : ∀ n, (h.session ⟨core, w⟩ qs).core.pool.inRange n = true ↔ a ≤ n ∧ n ≤ b := by
    intro n
    rw [session_inRange]
    exact hs.inRange_iff n
  refine ⟨hsound.distinct, fun e he hlow hhigh => ?_, fun n hn => ?_⟩
  · exact hsound.reserved e he ((hrange e.projectId).mpr ⟨hlow, hhigh⟩)
  · exact (hrange n).mp (hsound.within n hn)

theorem smooth_start :
    Start 1 2 (Core.opening ⟨"10g", "12g", .ofInt 5, none⟩ ⟨1, 2, []⟩ ⟨"", []⟩) :=
  ⟨rfl, Unit, smooth.toDisk, ⟨"", []⟩, (), (), rfl⟩

/-- Nothing but a file at `/s` that shows a table. -/
def onlyFile (t : Table) : FileSystem := ⟨[(["s"], .file (Document.render t).toUTF8 0o644)]⟩

theorem onlyFile_load (t : Table) (ht : t.Storable) (hn : t.ids.Nodup) :
    (Store.atPath "/s").load ((smooth : Host Unit).toDisk.filed fun _ => []) ((), onlyFile t) =
      (.ok (), ⟨"/s", t⟩, ((), onlyFile t)) := by
  have hheld : (onlyFile t).Holds "/s" t := Store.holds_render (onlyFile t) "/s" t ht hn rfl
  obtain ⟨w', hload, hfs⟩ :=
    Store.load_filed (smooth : Host Unit).toDisk (fun _ => []) "/s" t ((), onlyFile t) hheld
  have hw : w' = ((), onlyFile t) := Prod.ext rfl hfs
  rw [hw] at hload
  exact hload

/-- An entry of the range from 1 to 3, and one beside it. -/
def recordedTable : Table := [⟨"a", 2, "/a"⟩, ⟨"x", 50, "/x"⟩]

theorem recordedTable_start :
    Start 1 3 (Core.opening ⟨"10g", "12g", .ofInt 5, none⟩ ⟨1, 3, []⟩ ⟨"/s", recordedTable⟩) := by
  have hstorable : recordedTable.Storable := by
    refine ⟨by decide, fun e he => ?_⟩
    rcases List.mem_pair.mp he with rfl | rfl
    · exact ⟨by decide, by decide⟩
    · exact ⟨by decide, by decide⟩
  exact ⟨rfl, _, _, _, _, _, onlyFile_load recordedTable hstorable (by decide)⟩

/-- A host on which the containers of `recordedTable` run. -/
def recordedRun : Host Unit := { smooth with list := fun _ => (.ok ["a", "x"], ()) }

theorem recordedRun_session_distinct_reserved_within :
    let start := Core.opening ⟨"10g", "12g", .ofInt 5, none⟩ ⟨1, 3, []⟩ ⟨"/s", recordedTable⟩
    let core := (recordedRun.session ⟨start, ()⟩
      [.handle ⟨.create, "b", []⟩, .handle ⟨.create, "c", []⟩]).core
    core.store.table.ids = [2, 50, 1, 3] ∧
      core.store.table.ids.Nodup ∧
      (∀ e ∈ core.store.table, 1 ≤ e.projectId → e.projectId ≤ 3 → e.projectId ∈ core.pool.used) ∧
      ∀ n ∈ core.pool.used, 1 ≤ n ∧ n ≤ 3 :=
  ⟨by decide +kernel, session_distinct_reserved_within recordedRun 1 3 _ () recordedTable_start _⟩

end Host

end LayerQuota
