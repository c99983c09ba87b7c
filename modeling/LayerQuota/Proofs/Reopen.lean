import LayerQuota.Proofs.Durable
/-!
# A store is read again after any changes

Whatever is done with a store, and whatever calls of a save fail on the way, a new store that is
opened in its place reads the same entries. Only where two entries share an ID is the document
refused: a put does not look at the IDs, and loading does.
-/

namespace LayerQuota.Store

variable {σ : Type}

/-- What can be done with a store, and what may happen meanwhile as long as nobody else writes its
file. -/
inductive Change (σ : Type) (path : String)
  | load
  | put (e : Entry) (he : Entry.Recordable e.projectId)
  | remove (container : String)
  | meanwhile (f : σ × FileSystem → σ × FileSystem) (hf : ∀ w, (f w).2.read path = w.2.read path)

/-- A store and what lies outside it, after a change. -/
def change {path : String} (d : Disk (σ × FileSystem)) (p : Store × (σ × FileSystem)) :
    Change σ path → Store × (σ × FileSystem)
  | .load => (p.1.load d p.2).2
  | .put e _ => (p.1.put d e p.2).2
  | .remove c => (p.1.remove d c p.2).2
  | .meanwhile f _ => (p.1, f p.2)

def changeAll {path : String} (d : Disk (σ × FileSystem)) (p : Store × (σ × FileSystem))
    (cs : List (Change σ path)) : Store × (σ × FileSystem) :=
  cs.foldl (change d) p

variable {d : Disk σ} {faults : σ → SaveFaults} {path : String}

theorem change_mirrored (p : Store × (σ × FileSystem)) (c : Change σ path)
    (hp : p.1.path = path ∧ p.1.Mirrored p.2.2) :
    (change (d.filed faults) p c).1.path = path ∧
      (change (d.filed faults) p c).1.Mirrored (change (d.filed faults) p c).2.2 := by
  obtain ⟨rfl, hm⟩ := hp
  cases c with
  | load => exact load_mirrored p.1 _ p.2 _ _ rfl hm
  | put e he => exact ⟨(put_outcome _ _ _ e p.2 _ _ rfl).path, put_mirrored _ _ e p.2 _ _ rfl hm he⟩
  | remove c =>
    exact ⟨(remove_outcome _ _ _ c p.2 _ _ rfl).path, remove_mirrored _ _ c p.2 _ _ rfl hm⟩
  | meanwhile f hf => exact ⟨rfl, hm.congr (hf p.2)⟩

theorem changeAll_mirrored (cs : List (Change σ path)) (p : Store × (σ × FileSystem))
    (hp : p.1.path = path ∧ p.1.Mirrored p.2.2) :
    (changeAll (d.filed faults) p cs).1.path = path ∧
      (changeAll (d.filed faults) p cs).1.Mirrored (changeAll (d.filed faults) p cs).2.2 := by
  induction cs generalizing p with
  | nil => exact hp
  | cons c cs ih => exact ih _ (change_mirrored p c hp)

/-- After any changes of a store that was loaded, a new store in its place can be loaded if and only
if the entries have IDs of their own, and then it has the same entries. -/
theorem reopen_iff_distinct (d : Disk σ) (faults : σ → SaveFaults) (s₀ s : Store)
    (w₀ w : σ × FileSystem) (hl : s₀.load (d.filed faults) w₀ = (.ok (), s, w))
    (cs : List (Change σ s₀.path)) {τ : Type} (g : Disk τ) (faults' : τ → SaveFaults) (v : τ) :
    let p := changeAll (d.filed faults) (s, w) cs
    let r := (atPath s₀.path).load (g.filed faults') (v, p.2.2)
    (r.1 = .ok () ↔ p.1.table.ids.Nodup) ∧
      (r.1 = .ok () → r.2.1.table.Perm p.1.table ∧ ∀ c, r.2.1.table.get? c = p.1.table.get? c) ∧
      (r.1 ≠ .ok () → ∃ cause, r.1 = .error (.corrupt s₀.path cause)) := by
  intro p r
  obtain ⟨hpath, hheld⟩ := holds_of_load d faults s₀ s w₀ w hl
  have hstart : s.Mirrored w.2 :=
    mirrored_of_shows s w.2 ((holds_iff_shows w.2 s.path s.table).mp hheld).1
  have hend : p.1.path = s₀.path ∧ p.1.Mirrored p.2.2 :=
    changeAll_mirrored cs (s, w) ⟨hpath, hstart⟩
  obtain ⟨hplace, hm⟩ := hend
  obtain ⟨t, ht, hperm⟩ := hm.shown
  rw [hplace] at ht
  have hids : t.ids.Nodup ↔ p.1.table.ids.Nodup := (hperm.map _).nodup_iff
  have hget : ∀ c, t.get? c = p.1.table.get? c :=
    Table.get?_perm t p.1.table ((hperm.map _).nodup_iff.mpr hm.storable.containers) hperm
  obtain ⟨v', ⟨hn, hload⟩ | ⟨hn, id, a, b, hload⟩, -⟩ :=
    load_shown g faults' (atPath s₀.path) t (v, p.2.2) ht
  · have hr : r = (.ok (), { atPath s₀.path with table := t }, v') := hload
    rw [hr]
    exact ⟨iff_of_true rfl (hids.mp hn), fun _ => ⟨hperm, hget⟩, fun hne => absurd rfl hne⟩
  · have hr : r = (.error (.corrupt s₀.path (.sharedId id a b)), atPath s₀.path, v') := hload
    rw [hr]
    exact ⟨iff_of_false nofun (mt hids.mpr hn), nofun, fun _ => ⟨_, rfl⟩⟩

/-- A disk that counts the saves. -/
def counting : Disk Nat where
  log _ n := n
  save _ _ n := (.ok (), n + 1)
  read _ n := (.error (.noSuchFile []), n)

/-- The second save cannot rename its file. -/
def renameOnce (saves : Nat) : SaveFaults :=
  if saves = 1 then [(.rename, .system 28 "No space left on device" [])] else []

def blankFile : FileSystem := ⟨[(["s"], .file .empty 0o644)]⟩

theorem blankFile_load :
    (atPath "/s").load (counting.filed renameOnce) (0, blankFile) =
      (.ok (), ⟨"/s", []⟩, (0, blankFile)) := by
  have hread : blankFile.read "/s" = .ok .empty := rfl
  have hblank : Text.isBlankBytes .empty = true := by decide +kernel
  simp only [load, atPath, Disk.filed, hread, hblank, if_true]
  rfl

/-- Two containers are put in with one ID, the second one twice, since it cannot be written at
first. -/
def shareId : List (Change Nat "/s") :=
  [.put ⟨"a", 1, "/u/a"⟩ (by decide), .put ⟨"b", 1, "/u/b"⟩ (by decide),
    .put ⟨"b", 1, "/u/b"⟩ (by decide)]

theorem shareId_reopen :
    let p := changeAll (counting.filed renameOnce) (⟨"/s", []⟩, (0, blankFile)) shareId
    let r := (atPath "/s").load (counting.filed renameOnce) (0, p.2.2)
    p.1.table = [⟨"a", 1, "/u/a"⟩, ⟨"b", 1, "/u/b"⟩] ∧
      (r.1 = .ok () ↔ p.1.table.ids.Nodup) ∧
      (r.1 = .ok () → r.2.1.table.Perm p.1.table ∧ ∀ c, r.2.1.table.get? c = p.1.table.get? c) ∧
      (r.1 ≠ .ok () → ∃ cause, r.1 = .error (.corrupt "/s" cause)) :=
  ⟨by decide +kernel,
    reopen_iff_distinct counting renameOnce (atPath "/s") ⟨"/s", []⟩ (0, blankFile) (0, blankFile)
      blankFile_load shareId counting renameOnce 0⟩

end LayerQuota.Store
