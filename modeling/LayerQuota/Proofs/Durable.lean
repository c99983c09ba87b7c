import LayerQuota.Proofs.Accepted
import LayerQuota.Proofs.Document
import LayerQuota.Proofs.Save
import LayerQuota.Proofs.Store
/-!
# A store is found again

A store whose document is a file. Whatever calls of a save fail, the file shows the entries of the
store after every change. A new store reads the same entries, unless two of them share an ID: then
the document is refused.
-/

namespace LayerQuota

variable {σ : Type}

/-! ### Files -/

/-- The faults that a call can answer that was made at all. -/
def SaveFaults.ofCalls (faults : SaveFaults) : SaveFaults := faults.filter (·.2 ≠ .embeddedNull)

/-- A disk whose documents are files. What else changes at a call is up to the disk, and so are the
calls of a save that fail then. -/
def Disk.filed (d : Disk σ) (faults : σ → SaveFaults) : Disk (σ × FileSystem) where
  log l w := (d.log l w.1, w.2)
  save path text w :=
    let r := Save.run (faults w.1).ofCalls w.2 path text.toUTF8
    (r.1, (d.save path text w.1).2, r.2)
  read path w := (w.2.read path, (d.read path w.1).2, w.2)

/-- A file holds a table: as its document, or by being blank. -/
def FileSystem.Holds (fs : FileSystem) (path : String) (t : Table) : Prop :=
  ∃ bytes, fs.read path = .ok bytes ∧
    ((Text.isBlankBytes bytes = true ∧ t = []) ∨
      (Text.isBlankBytes bytes = false ∧ Store.accept bytes = .ok t))

/-- A file shows a table: it holds it, or it would if the table repeated no ID. -/
def FileSystem.Shows (fs : FileSystem) (path : String) (t : Table) : Prop :=
  ∃ bytes, fs.read path = .ok bytes ∧
    ((Text.isBlankBytes bytes = true ∧ t = []) ∨
      (Text.isBlankBytes bytes = false ∧ Document.ofBytes bytes = .valid t))

theorem FileSystem.Shows.congr {fs fs' : FileSystem} {path : String} {t : Table}
    (h : fs.Shows path t) (heq : fs'.read path = fs.read path) : fs'.Shows path t := by
  obtain ⟨bytes, hread, ht⟩ := h
  exact ⟨bytes, heq.trans hread, ht⟩

theorem FileSystem.Holds.congr {fs fs' : FileSystem} {path : String} {t : Table}
    (h : fs.Holds path t) (heq : fs'.read path = fs.read path) : fs'.Holds path t := by
  obtain ⟨bytes, hread, ht⟩ := h
  exact ⟨bytes, heq.trans hread, ht⟩

namespace Store

theorem load_storable {τ : Type} (d : Disk τ) (s s' : Store) (w w' : τ)
    (h : s.load d w = (.ok (), s', w')) : s'.table.Storable := by
  have hnil : Table.Storable [] := ⟨List.nodup_nil, fun e he => absurd he List.not_mem_nil⟩
  cases load_outcome d s s' w w' h with
  | created => exact hnil
  | blank => exact hnil
  | accepted bytes _ t _ _ _ ha =>
    exact Document.storable_of_ofBytes bytes t (accept_eq_ok bytes t ha).1

/-- Of the tables that files show, those are held that repeat no ID. -/
theorem holds_iff_shows (fs : FileSystem) (path : String) (t : Table) :
    fs.Holds path t ↔ fs.Shows path t ∧ t.ids.Nodup := by
  constructor
  · rintro ⟨bytes, hread, ⟨hb, rfl⟩ | ⟨hb, ha⟩⟩
    · exact ⟨⟨bytes, hread, .inl ⟨hb, rfl⟩⟩, List.nodup_nil⟩
    · obtain ⟨hvalid, hn⟩ := accept_eq_ok bytes t ha
      exact ⟨⟨bytes, hread, .inr ⟨hb, hvalid⟩⟩, hn⟩
  · rintro ⟨⟨bytes, hread, ht | ⟨hb, hvalid⟩⟩, hn⟩
    · exact ⟨bytes, hread, .inl ht⟩
    · exact ⟨bytes, hread, .inr ⟨hb, (accept_of_valid bytes t hvalid).1 hn⟩⟩

theorem storable_of_shows (fs : FileSystem) (path : String) (t : Table) (h : fs.Shows path t) :
    t.Storable := by
  obtain ⟨bytes, -, ⟨-, rfl⟩ | ⟨-, hvalid⟩⟩ := h
  · exact ⟨List.nodup_nil, fun e he => absurd he List.not_mem_nil⟩
  · exact Document.storable_of_ofBytes bytes t hvalid

theorem shows_render (fs : FileSystem) (path : String) (t : Table) (h : t.Storable)
    (hread : fs.read path = .ok (Document.render t).toUTF8) : fs.Shows path t :=
  ⟨_, hread, .inr ⟨Document.not_blank_render t, Document.ofBytes_render t h⟩⟩

theorem holds_render (fs : FileSystem) (path : String) (t : Table) (h : t.Storable)
    (hn : t.ids.Nodup) (hread : fs.read path = .ok (Document.render t).toUTF8) :
    fs.Holds path t :=
  (holds_iff_shows fs path t).mpr ⟨shows_render fs path t h hread, hn⟩

/-! ### Saving and loading -/

variable (d : Disk σ) (faults : σ → SaveFaults)

/-- A table is written to a file that can be read, or that is left as it was. -/
theorem save_filed (s : Store) (t : Table) (w : σ × FileSystem) (old : ByteArray)
    (hread : w.2.read s.path = .ok old) :
    (∃ w', save (d.filed faults) s t w = (.ok (), w') ∧
        w'.2.read s.path = .ok (Document.render t).toUTF8) ∨
      ∃ f w', save (d.filed faults) s t w = (.error f, w') ∧ f.isUnsaved = true ∧
        w'.2.read s.path = .ok old := by
  unfold save Disk.filed
  rcases Save.run_outcome (faults w.1).ofCalls w.2 s.path (Document.render t).toUTF8 old hread with
    ⟨fs', hrun, hnew⟩ | ⟨call, f, fs', hf, hrun, hold⟩
  · simp only [hrun]
    exact .inl ⟨_, rfl, hnew⟩
  · have hplain : f ≠ .embeddedNull := by simpa using (List.mem_filter.mp hf).2
    simp only [hrun]
    cases f with
    | embeddedNull => exact absurd rfl hplain
    | system code text names => exact .inr ⟨_, _, rfl, rfl, hold⟩
    | plain m => exact .inr ⟨_, _, rfl, rfl, hold⟩

/-- A put whose path is that of a file, or could be, is written to the file, or it leaves the table
and the file as they were. -/
theorem put_seated (s s' : Store) (e : Entry) (w w' : σ × FileSystem) (r : Except Failure Unit)
    (hs : Save.Seated w.2 s.path) (h : s.put (d.filed faults) e w = (r, s', w')) :
    (r = .ok () ∧ s' = { s with table := s.table.put e } ∧
        w'.2.read s.path = .ok (Document.render (s.table.put e)).toUTF8) ∨
      (∃ fault, r = .error (.unsaved s.path fault)) ∧ s' = s ∧
        w'.2.read s.path = w.2.read s.path := by
  rcases hrun : Save.run (faults w.1).ofCalls w.2 s.path
      (Document.render (s.table.put e)).toUTF8 with ⟨f | _, fs'⟩
  · obtain ⟨hsame, hwhy⟩ := Save.run_error _ _ _ _ _ _ hs hrun
    have hplain : f ≠ .embeddedNull := by
      rintro rfl
      obtain ⟨call, hf⟩ | ⟨-, names, hf⟩ := hwhy
      · simpa using (List.mem_filter.mp hf).2
      · cases hf
    unfold put save Disk.filed at h
    simp only [hrun] at h
    cases f with
    | embeddedNull => exact absurd rfl hplain
    | system code text names =>
      cases h
      exact .inr ⟨⟨_, rfl⟩, rfl, hsame⟩
    | plain m =>
      cases h
      exact .inr ⟨⟨_, rfl⟩, rfl, hsame⟩
  · unfold put save Disk.filed at h
    simp only [hrun] at h
    cases h
    exact .inl ⟨rfl, rfl, Save.read_of_run_ok _ _ _ _ _ hrun⟩

theorem run_of_save (path text : String) (w w' : σ × FileSystem)
    (h : (d.filed faults).save path text w = (.ok (), w')) :
    Save.run (faults w.1).ofCalls w.2 path text.toUTF8 = (.ok (), w'.2) := by
  have hr : (Save.run (faults w.1).ofCalls w.2 path text.toUTF8).1 = .ok () := congrArg Prod.fst h
  have hfs : (Save.run (faults w.1).ofCalls w.2 path text.toUTF8).2 = w'.2 :=
    congrArg (fun p => p.2.2) h
  exact Prod.ext hr hfs

theorem read_of_filed (path : String) (w w' : σ × FileSystem) (bytes : ByteArray)
    (h : (d.filed faults).read path w = (.ok bytes, w')) :
    w.2.read path = .ok bytes ∧ w'.2 = w.2 := by
  have hr : w.2.read path = .ok bytes := congrArg Prod.fst h
  have hfs : w.2 = w'.2 := congrArg (fun p => p.2.2) h
  exact ⟨hr, hfs.symm⟩

/-- Loading reads the table that the file shows, and refuses it where it repeats an ID. -/
theorem load_shown (s : Store) (t : Table) (w : σ × FileSystem) (h : w.2.Shows s.path t) :
    ∃ w', ((t.ids.Nodup ∧ s.load (d.filed faults) w = (.ok (), { s with table := t }, w')) ∨
      (¬t.ids.Nodup ∧ ∃ id a b, s.load (d.filed faults) w =
        (.error (.corrupt s.path (.sharedId id a b)), s, w'))) ∧ w'.2 = w.2 := by
  obtain ⟨bytes, hread, ht⟩ := h
  unfold load Disk.filed
  rcases ht with ⟨hb, rfl⟩ | ⟨hb, hvalid⟩
  · simp only [hread, hb, if_true]
    exact ⟨_, .inl ⟨List.nodup_nil, rfl⟩, rfl⟩
  · obtain ⟨hok, hshared⟩ := accept_of_valid bytes t hvalid
    by_cases hn : t.ids.Nodup
    · simp only [hread, hb, hok hn, Bool.false_eq_true, if_false]
      exact ⟨_, .inl ⟨hn, rfl⟩, rfl⟩
    · obtain ⟨id, a, b, ha⟩ := hshared hn
      simp only [hread, hb, ha, Bool.false_eq_true, if_false]
      exact ⟨_, .inr ⟨hn, id, a, b, rfl⟩, rfl⟩

theorem load_filed (path : String) (t : Table) (w : σ × FileSystem) (h : w.2.Holds path t) :
    ∃ w', (atPath path).load (d.filed faults) w = (.ok (), ⟨path, t⟩, w') ∧ w'.2 = w.2 := by
  obtain ⟨hshown, hn⟩ := (holds_iff_shows w.2 path t).mp h
  obtain ⟨w', ⟨-, hload⟩ | ⟨hnot, -⟩, hfs⟩ := load_shown d faults (atPath path) t w hshown
  · exact ⟨w', hload, hfs⟩
  · exact absurd hn hnot

theorem holds_of_load (s s' : Store) (w w' : σ × FileSystem)
    (h : s.load (d.filed faults) w = (.ok (), s', w')) :
    s'.path = s.path ∧ w'.2.Holds s'.path s'.table := by
  cases load_outcome _ s s' w w' h with
  | created f w₁ w₂ l hr hm hs =>
    refine ⟨rfl, holds_render w'.2 s.path [] ⟨List.nodup_nil, nofun⟩ List.nodup_nil ?_⟩
    have hrun := run_of_save d faults _ _ _ _ (save_eq_ok _ _ _ _ _ hs)
    exact Save.read_of_run_ok _ _ _ _ _ hrun
  | blank bytes w₁ hr hb =>
    obtain ⟨hread, hfs⟩ := read_of_filed d faults _ _ _ _ hr
    exact ⟨rfl, bytes, by rw [hfs, hread], .inl ⟨hb, rfl⟩⟩
  | accepted bytes w₁ t l hr hb ha =>
    obtain ⟨hread, hfs⟩ := read_of_filed d faults _ _ _ _ hr
    have hlog : ((d.filed faults).log l w₁).2 = w.2 := hfs
    exact ⟨rfl, bytes, by rw [hlog, hread], .inr ⟨hb, ha⟩⟩

/-! ### Changes -/

/-- What a store holds can be stored, and its file shows the same entries. -/
structure Mirrored (s : Store) (fs : FileSystem) : Prop where
  storable : s.table.Storable
  shown : ∃ t, fs.Shows s.path t ∧ t.Perm s.table

variable {d faults}

theorem Mirrored.congr {s : Store} {fs fs' : FileSystem} (h : s.Mirrored fs)
    (heq : fs'.read s.path = fs.read s.path) : s.Mirrored fs' := by
  obtain ⟨t, ht, hp⟩ := h.shown
  exact ⟨h.storable, t, ht.congr heq, hp⟩

theorem mirrored_of_shows (s : Store) (fs : FileSystem) (h : fs.Shows s.path s.table) :
    s.Mirrored fs :=
  ⟨storable_of_shows fs s.path s.table h, s.table, h, .refl _⟩

theorem put_mirrored (s s' : Store) (e : Entry) (w w' : σ × FileSystem) (r : Except Failure Unit)
    (hs : s.put (d.filed faults) e w = (r, s', w')) (h : s.Mirrored w.2)
    (hid : Entry.Recordable e.projectId) : s'.Mirrored w'.2 := by
  obtain ⟨t, ⟨old, hread, -⟩, -⟩ := h.shown
  unfold put at hs
  rcases save_filed d faults s (s.table.put e) w old hread with
    ⟨w₁, hsave, hnew⟩ | ⟨f, w₁, hsave, hf, hold⟩
  · simp only [hsave] at hs
    cases hs
    exact mirrored_of_shows _ _ (shows_render _ _ _ (h.storable.put e hid) hnew)
  · simp only [hsave, hf, if_true] at hs
    cases hs
    exact h.congr (hold.trans hread.symm)

theorem remove_mirrored (s s' : Store) (c : String) (w w' : σ × FileSystem)
    (r : Except Failure Unit) (hs : s.remove (d.filed faults) c w = (r, s', w'))
    (h : s.Mirrored w.2) : s'.Mirrored w'.2 := by
  obtain ⟨t, ht, hp⟩ := h.shown
  have ⟨old, hread, _⟩ := ht
  cases he : s.table.get? c with
  | none =>
    simp only [remove, he] at hs
    cases hs
    exact h
  | some e =>
    rcases save_filed d faults s (s.table.remove c) w old hread with
      ⟨w₁, hsave, hnew⟩ | ⟨f, w₁, hsave, hf, hold⟩
    · simp only [remove, he, hsave] at hs
      cases hs
      exact mirrored_of_shows _ _ (shows_render _ _ _ (h.storable.remove c) hnew)
    · -- the entry is put back at the end, where the file has it in its old place
      simp only [remove, he, hsave, hf, if_true] at hs
      cases hs
      have hback := Table.remove_append_perm s.table h.storable.containers c e he
      exact ⟨h.storable.perm hback, t, ht.congr (hold.trans hread.symm), hp.trans hback.symm⟩

theorem load_mirrored (s s' : Store) (w w' : σ × FileSystem) (r : Except Failure Unit)
    (hs : s.load (d.filed faults) w = (r, s', w')) (h : s.Mirrored w.2) :
    s'.path = s.path ∧ s'.Mirrored w'.2 := by
  obtain ⟨t, ht, hp⟩ := h.shown
  obtain ⟨w₁, ⟨hn, hload⟩ | ⟨hn, id, a, b, hload⟩, hfs⟩ := load_shown d faults s t w ht
  · rw [hload] at hs
    cases hs
    exact ⟨rfl, mirrored_of_shows _ _ (ht.congr (congrArg (·.read s.path) hfs))⟩
  · rw [hload] at hs
    cases hs
    exact ⟨rfl, h.congr (congrArg (·.read s.path) hfs)⟩

/-- What a store holds can be stored, and its file holds the same entries. -/
structure Kept (s : Store) (fs : FileSystem) : Prop where
  storable : s.table.Storable
  distinct : s.table.ids.Nodup
  held : ∃ t, fs.Holds s.path t ∧ t.Perm s.table

theorem kept_iff_mirrored (s : Store) (fs : FileSystem) :
    s.Kept fs ↔ s.Mirrored fs ∧ s.table.ids.Nodup := by
  constructor
  · rintro ⟨hs, hn, t, ht, hp⟩
    exact ⟨⟨hs, t, ((holds_iff_shows fs s.path t).mp ht).1, hp⟩, hn⟩
  · rintro ⟨⟨hs, t, ht, hp⟩, hn⟩
    exact ⟨hs, hn, t, (holds_iff_shows fs s.path t).mpr ⟨ht, (hp.map _).nodup_iff.mpr hn⟩, hp⟩

theorem Kept.congr {s : Store} {fs fs' : FileSystem} (h : s.Kept fs)
    (heq : fs'.read s.path = fs.read s.path) : s.Kept fs' := by
  obtain ⟨t, ht, hp⟩ := h.held
  exact ⟨h.storable, h.distinct, t, ht.congr heq, hp⟩

theorem kept_of_holds (s : Store) (fs : FileSystem) (h : fs.Holds s.path s.table) : s.Kept fs := by
  obtain ⟨hshown, hn⟩ := (holds_iff_shows fs s.path s.table).mp h
  exact ⟨storable_of_shows fs s.path s.table hshown, hn, s.table, h, .refl _⟩

theorem put_kept (s s' : Store) (e : Entry) (w w' : σ × FileSystem) (r : Except Failure Unit)
    (hs : s.put (d.filed faults) e w = (r, s', w')) (h : s.Kept w.2)
    (hc : s.table.get? e.container = none) (hid : Entry.Recordable e.projectId)
    (hno : ∀ x ∈ s.table, x.projectId ≠ e.projectId) : s'.Kept w'.2 := by
  obtain ⟨hm, hn⟩ := (kept_iff_mirrored s w.2).mp h
  have hput : (s.table.put e).ids.Nodup := by
    rw [Table.put_absent s.table e hc]
    exact Table.ids_append_nodup s.table e hn hno
  refine (kept_iff_mirrored s' w'.2).mpr ⟨put_mirrored s s' e w w' r hs hm hid, ?_⟩
  cases put_outcome _ s s' e w w' r hs with
  | written => exact hput
  | undone f hf => exact hn
  | unwritten f hf => exact hput

theorem remove_kept (s s' : Store) (c : String) (w w' : σ × FileSystem) (r : Except Failure Unit)
    (hs : s.remove (d.filed faults) c w = (r, s', w')) (h : s.Kept w.2) : s'.Kept w'.2 := by
  obtain ⟨hm, hn⟩ := (kept_iff_mirrored s w.2).mp h
  have hremove := Table.ids_remove_nodup s.table c hn
  refine (kept_iff_mirrored s' w'.2).mpr ⟨remove_mirrored s s' c w w' r hs hm, ?_⟩
  cases remove_outcome _ s s' c w w' r hs with
  | absent he => exact hn
  | written e he => exact hremove
  | undone e he f hf =>
    exact Table.ids_append_nodup _ e hremove fun x hx =>
      Table.projectId_ne_of_remove _ hn c e x he hx
  | unwritten e he f hf => exact hremove

theorem Kept.load {s : Store} {fs : FileSystem} (h : s.Kept fs) (v : σ) :
    ∃ t w', (atPath s.path).load (d.filed faults) (v, fs) = (.ok (), ⟨s.path, t⟩, w') ∧
      t.Perm s.table ∧ ∀ c, t.get? c = s.table.get? c := by
  obtain ⟨t, ht, hp⟩ := h.held
  obtain ⟨w', hload, -⟩ := load_filed d faults s.path t (v, fs) ht
  have hn : t.containers.Nodup := (hp.map _).nodup_iff.mpr h.storable.containers
  exact ⟨t, w', hload, hp, Table.get?_perm t s.table hn hp⟩

end Store

end LayerQuota
