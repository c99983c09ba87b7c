import LayerQuota.Proofs.Daemon.Isolation
import LayerQuota.Proofs.Durable
/-!
# A daemon starts again

A daemon whose record is a file. However its run is broken off, a new store reads the entries of the
old one, and the reconciliation of a new daemon keeps them and gives their IDs to no other
container.
-/

namespace LayerQuota.Host

variable {σ : Type}

/-! ### The file along a run -/

/-- A host whose record is a file. -/
def filed (h : Host σ) (faults : σ → SaveFaults) : Host (σ × FileSystem) :=
  { h.paired FileSystem with toDisk := h.toDisk.filed faults }

variable {h : Host σ} {faults : σ → SaveFaults} {w w₁ : σ × FileSystem}

theorem Aside.files (ha : (h.filed faults).Aside w w₁) : w₁.2 = w.2 := by
  cases ha with
  | log l => rfl
  | resolve c => rfl
  | isPresent dir => rfl
  | list => rfl
  | readTag dir => rfl

theorem Quiet.files (hq : (h.filed faults).Quiet w w₁) : w₁.2 = w.2 := by
  induction hq with
  | refl => rfl
  | tail _ ha ih => exact ha.files.trans ih

theorem tag_files (dir : Layer) (id : Int) (r : Except Failure Unit)
    (ht : (h.filed faults).tag dir id w = (r, w₁)) : w₁.2 = w.2 := by
  have hw : w₁ = ((h.filed faults).tag dir id w).2 := by rw [ht]
  rw [hw]
  rfl

theorem setLimit_files (id : Int) (soft hard : String) (r : Except Failure Unit)
    (hl : (h.filed faults).setLimit id soft hard w = (r, w₁)) : w₁.2 = w.2 := by
  have hw : w₁ = ((h.filed faults).setLimit id soft hard w).2 := by rw [hl]
  rw [hw]
  rfl

theorem Enforcing.files {s : Settings} {dir : Layer} {id : Int} {r : Except Failure Unit}
    (hn : (h.filed faults).Enforcing s dir id w r w₁) : w₁.2 = w.2 := by
  cases hn with
  | overtaken hc => rfl
  | untagged f w' ht => exact tag_files dir id _ ht
  | halted w' ht hc => exact tag_files dir id _ ht
  | limited w₁ w' r ht hl => exact (setLimit_files id _ _ _ hl).trans (tag_files dir id _ ht)

/-- The record and the pool agree, and the file holds the record. -/
structure Durable (path : String) (d : Daemon (σ × FileSystem)) : Prop where
  sound : Sound d.core
  place : d.core.store.path = path
  kept : d.core.store.Kept d.outside.2

variable {path c : String} {d d' : Daemon (σ × FileSystem)}

theorem Beside.durable (hb : (h.filed faults).Beside d d') (hd : Durable path d) :
    Durable path d' := by
  refine ⟨hb.sound hd.sound, (congrArg Store.path hb.store).trans hd.place, ?_⟩
  rw [hb.store, hb.outside.files]
  exact hd.kept

theorem Creation.durable (hc : (h.filed faults).Creation c d d') (hd : Durable path d) :
    Durable path d' := by
  have hsound := hc.sound hd.sound
  cases hc with
  | idle => exact hd
  | kept e p w' he hp hq => exact ⟨hsound, hd.place, hq.files ▸ hd.kept⟩
  | abandoned dir id p f w' he ha hn => exact ⟨hsound, hd.place, hn.files ▸ hd.kept⟩
  | malformed dir id p w' he ha hn => exact ⟨hsound, hd.place, hn.files ▸ hd.kept⟩
  | recorded dir id p e r s w₁ w₂ w' he ha hn hm hput hq =>
    obtain ⟨rfl, rfl, hid⟩ := Entry.make_eq_valid c id dir e hm
    have hplace := (Store.put_outcome _ _ _ _ _ _ _ hput).path
    have hkept := Store.put_kept d.core.store s e w₁ w₂ r hput (hn.files ▸ hd.kept) he hid
      (hd.sound.fresh _ p ha)
    exact ⟨hsound, hplace.trans hd.place, hq.files ▸ hkept⟩

theorem Forgetting.kept {id : Int} {core : Core} {r : Except Failure (Option Int)}
    (hf : (h.filed faults).Forgetting c id core w r d') (hk : core.store.Kept w.2) :
    d'.core.store.path = core.store.path ∧ d'.core.store.Kept d'.outside.2 := by
  cases hf with
  | done s w₁ w' hs hq =>
    have hkept := Store.remove_kept core.store s c w w₁ _ hs hk
    exact ⟨(Store.remove_outcome _ _ _ _ _ _ _ hs).path, hq.files ▸ hkept⟩
  | failed f s w' hs =>
    have hkept := Store.remove_kept core.store s c w w' _ hs hk
    exact ⟨(Store.remove_outcome _ _ _ _ _ _ _ hs).path, hkept⟩

theorem Deletion.durable {r : Except Failure (Option Int)}
    (hdel : (h.filed faults).Deletion c d r d') (hd : Durable path d) : Durable path d' := by
  have hsound := hdel.sound hd.sound
  cases hdel with
  | idle r w' hr hq => exact ⟨hsound, hd.place, hq.files ▸ hd.kept⟩
  | unclear id f w₁ w' hc hq hl =>
    have hfiles : w'.2 = d.outside.2 := (setLimit_files id _ _ _ hl).trans hq.files
    exact ⟨hsound, hd.place, hfiles ▸ hd.kept⟩
  | cleared id rl w₁ w₂ w₃ r d' hc hq hl hn hf =>
    have hfiles : w₃.2 = d.outside.2 := (hn.files.trans (setLimit_files id _ _ _ hl)).trans hq.files
    obtain ⟨hplace, hkept⟩ := hf.kept (hfiles ▸ hd.kept)
    exact ⟨hsound, hplace.trans hd.place, hkept⟩
  | gone e w₁ r d' he hq hf =>
    obtain ⟨hplace, hkept⟩ := hf.kept (hq.files ▸ hd.kept)
    exact ⟨hsound, hplace.trans hd.place, hkept⟩

theorem Deed.durable {k : EventKind} (hdeed : (h.filed faults).Deed k c d d')
    (hd : Durable path d) : Durable path d' := by
  cases hdeed with
  | beside hb => exact hb.durable hd
  | creation hk hc => exact hc.durable hd
  | deletion hk r hdel => exact hdel.durable hd

theorem Reserving.durable (hr : (h.filed faults).Reserving d.core.store.table d d')
    (hw : ∀ n ∈ d.core.pool.used, d.core.pool.inRange n = true) (hp : d.core.store.path = path)
    (hk : d.core.store.Kept d.outside.2) : Durable path d' := by
  refine ⟨hr.sound hk.distinct hw, (congrArg Store.path hr.store).trans hp, ?_⟩
  rw [hr.store, hr.outside.files]
  exact hk

/-- A request that leaves the file to the daemon. -/
def Request.Spares (path : String) : Request (σ × FileSystem) → Prop
  | .meanwhile f => ∀ v, (f v).2.read path = v.2.read path
  | _ => True

theorem session_durable (d : Daemon (σ × FileSystem))
    (hw : ∀ n ∈ d.core.pool.used, d.core.pool.inRange n = true) (hp : d.core.store.path = path)
    (hk : d.core.store.Kept d.outside.2) (qs : List (Request (σ × FileSystem)))
    (hq : ∀ q ∈ qs, q.Spares path) : Durable path ((h.filed faults).session d qs) := by
  refine serveAll_keeps (Durable path) qs (fun d' q hmem hd' => ?_) _ ?_
  · refine serve_keeps (Durable path) q (fun _ _ _ _ hd hdeed => hdeed.durable hd)
      (fun _ _ hd hr => hr.durable hd.sound.within hd.place hd.kept) ?_ d' hd'
    rintro f d'' rfl hd
    refine ⟨hd.sound, hd.place, hd.kept.congr ?_⟩
    rw [hd.place]
    exact hq _ hmem d''.outside
  · exact reconcile_establishes (Durable path) d (fun _ _ _ _ hd hdeed => hdeed.durable hd)
      fun _ hr => hr.durable hw hp hk

/-! ### Another daemon -/

/-- What a reconciliation leaves of the entries of a table: all of them, and none of their IDs is
named in a call on quotas. -/
structure Adopts (t : Table) (d : Daemon (σ × List QuotaCall)) : Prop where
  sound : Sound d.core
  entries : ∀ e ∈ t, d.core.store.table.get? e.container = some e
  calls : ∀ call ∈ d.outside.2, ∀ id, call.projectId? = some id → ∀ e ∈ t, e.projectId ≠ id

theorem Adopts.step {t : Table} {d d' : Daemon (σ × List QuotaCall)} (ha : Adopts t d)
    (hs : Sound d'.core)
    (hkeep : ∀ b e, d.core.store.table.get? b = some e → d'.core.store.table.get? b = some e)
    (hcalls : Adds (fun id => ∀ e ∈ t, e.projectId ≠ id) d.outside d'.outside) : Adopts t d' := by
  refine ⟨hs, fun e he => hkeep _ e (ha.entries e he), ?_⟩
  obtain ⟨new, hnew, hid⟩ := hcalls
  rw [hnew]
  intro call hm
  rcases List.mem_append.mp hm with hm | hm
  · exact ha.calls call hm
  · exact hid call hm

theorem Deed.adopts {t : Table} {d d' : Daemon (σ × List QuotaCall)} {c : String}
    (hd : h.traced.Deed .create c d d') (ha : Adopts t d) : Adopts t d' := by
  have hs := hd.sound ha.sound
  cases hd with
  | beside hb => exact ha.step hs (fun b e he => hb.store ▸ he) hb.outside.adds
  | creation hk hc =>
    refine ha.step hs hc.keeps (hc.adds fun id p hal e he => ?_)
    exact ha.sound.fresh id p hal e (Table.get?_mem _ _ e (ha.entries e he)).1
  | deletion hk r hd => cases hk

theorem reconcile_adopts (d : Daemon (σ × List QuotaCall)) (hn : d.core.store.table.ids.Nodup)
    (hc : d.core.store.table.containers.Nodup)
    (hw : ∀ n ∈ d.core.pool.used, d.core.pool.inRange n = true) (hnone : d.outside.2 = []) :
    Adopts d.core.store.table (h.traced.serve d .reconcile) := by
  obtain ⟨d₁, hr, hp⟩ := h.traced.reconcile_outcome d
  refine hp.keeps (Adopts d.core.store.table) (fun c _ _ ha hd => hd.adopts ha) ?_
  have hopen : Adds (fun id => ∀ e ∈ d.core.store.table, e.projectId ≠ id) d.outside d₁.outside :=
    hr.outside.adds
  obtain ⟨new, hnew, hid⟩ := hopen
  rw [hnone, List.nil_append] at hnew
  refine ⟨hr.sound hn hw, fun e he => ?_, hnew ▸ hid⟩
  rw [hr.store]
  exact Table.get?_of_mem _ hc e he

/-- However a session of a daemon with its record in a file goes, a new store reads the same entries
from that file, and a reconciliation of a new daemon with the same range keeps them all and gives
none of their IDs to another container. -/
theorem session_recovered (h : Host σ) (faults : σ → SaveFaults) (a b : Int) (pool : Pool)
    (hp : Pool.create a b = .ok pool) (settings : Settings) (path : String) (s : Store)
    (w w' : σ × FileSystem)
    (hl : (Store.atPath path).load (h.filed faults).toDisk w = (.ok (), s, w'))
    (qs : List (Request (σ × FileSystem))) (hq : ∀ q ∈ qs, q.Spares path) :
    let d := (h.filed faults).session ⟨Core.opening settings pool s, w'⟩ qs
    ∀ (τ : Type) (g : Host τ) (faults' : τ → SaveFaults) (settings' : Settings) (v : τ),
      ∃ s' v', (Store.atPath path).load (g.filed faults').toDisk (v, d.outside.2) =
          (.ok (), s', v') ∧
        s'.table.Perm d.core.store.table ∧
        (∀ c, s'.table.get? c = d.core.store.table.get? c) ∧
        let d' := (g.filed faults').traced.serve ⟨Core.opening settings' pool s', (v', [])⟩
          .reconcile
        (∀ c e, d.core.store.table.get? c = some e → d'.core.store.table.get? c = some e) ∧
          (∀ e ∈ d.core.store.table, ∀ x ∈ d'.core.store.table,
            x.projectId = e.projectId → x = e) ∧
          ∀ call ∈ d'.outside.2, ∀ id, call.projectId? = some id →
            ∀ e ∈ d.core.store.table, e.projectId ≠ id := by
  intro d τ g faults' settings' v
  have hnone : pool.used = [] := by rw [Pool.create_used a b pool hp]
  have hw : ∀ n ∈ pool.used, pool.inRange n = true := by
    rw [hnone]
    exact nofun
  obtain ⟨hplace, hheld⟩ := Store.holds_of_load h.toDisk faults (Store.atPath path) s w w' hl
  have hd : Durable path d := session_durable _ hw hplace (Store.kept_of_holds s _ hheld) qs hq
  obtain ⟨t, v', hload, hperm, hget⟩ := hd.kept.load v
  rw [hd.place] at hload
  refine ⟨⟨path, t⟩, v', hload, hperm, hget, ?_⟩
  intro d'
  have ha : Adopts t d' := reconcile_adopts ⟨Core.opening settings' pool ⟨path, t⟩, (v', [])⟩
    ((hperm.map _).nodup_iff.mpr hd.kept.distinct)
    ((hperm.map _).nodup_iff.mpr hd.kept.storable.containers) hw rfl
  have hentry : ∀ e ∈ d.core.store.table, d'.core.store.table.get? e.container = some e :=
    fun e he => ha.entries e (hperm.mem_iff.mpr he)
  refine ⟨fun c e he => ?_, fun e he x hx hid => ?_, fun call hm id hc e he => ?_⟩
  · obtain ⟨hmem, rfl⟩ := Table.get?_mem _ c e he
    exact hentry e hmem
  · have hmem := (Table.get?_mem _ _ e (hentry e he)).1
    exact Table.eq_of_projectId _ ha.sound.distinct x e hx hmem hid
  · exact ha.calls call hm id hc e (hperm.mem_iff.mpr he)

def recordFile : FileSystem :=
  ⟨[(["s"], .file (Document.render [⟨"a", 1, "/u"⟩]).toUTF8 0o644)]⟩

theorem recordFile_load :
    (Store.atPath "/s").load ((smooth : Host Unit).filed fun _ => []).toDisk ((), recordFile) =
      (.ok (), ⟨"/s", [⟨"a", 1, "/u"⟩]⟩, ((), recordFile)) := by
  have hstorable : Table.Storable [⟨"a", 1, "/u"⟩] := by
    refine ⟨by decide, fun e he => ?_⟩
    rw [List.mem_singleton.mp he]
    exact ⟨by decide, by decide⟩
  exact onlyFile_load _ hstorable (by decide)

theorem recordFile_session_recovered :
    let host := (smooth : Host Unit).filed fun _ => []
    let other := { (smooth : Host Unit) with list := fun w => (.ok ["b"], w) }.filed fun _ => []
    let settings : Settings := ⟨"10g", "12g", .ofInt 5, none⟩
    let d := host.session
      ⟨Core.opening settings ⟨1, 2, []⟩ ⟨"/s", [⟨"a", 1, "/u"⟩]⟩, ((), recordFile)⟩
      [.handle ⟨.create, "c", []⟩, .handle ⟨.delete, "a", []⟩]
    ∃ s' v', (Store.atPath "/s").load other.toDisk ((), d.outside.2) = (.ok (), s', v') ∧
      s'.table.Perm d.core.store.table ∧
      (∀ c, s'.table.get? c = d.core.store.table.get? c) ∧
      let d' := other.traced.serve ⟨Core.opening settings ⟨1, 2, []⟩ s', (v', [])⟩ .reconcile
      (∀ c e, d.core.store.table.get? c = some e → d'.core.store.table.get? c = some e) ∧
        (∀ e ∈ d.core.store.table, ∀ x ∈ d'.core.store.table, x.projectId = e.projectId → x = e) ∧
        ∀ call ∈ d'.outside.2, ∀ id, call.projectId? = some id →
          ∀ e ∈ d.core.store.table, e.projectId ≠ id := by
  refine session_recovered smooth (fun _ => []) 1 2 ⟨1, 2, []⟩ rfl _ "/s" _ _ _ recordFile_load _ ?_
    Unit { (smooth : Host Unit) with list := fun w => (.ok ["b"], w) } (fun _ => []) _ ()
  intro q hq
  rcases List.mem_pair.mp hq with rfl | rfl
  · trivial
  · trivial

end LayerQuota.Host
