import LayerQuota.Proofs.Unsaved
/-!
# A change whole or not at all

A change of the store that is written changes the entry of one container, in memory and in the file.
One that fails leaves what the store holds and the bytes of the file as they were, whichever calls of
the save fail and whether or not there was a file before.
-/

namespace LayerQuota

variable {σ : Type}

/-! ### How a change ends -/

/-- An entry takes the place of the one of its container, or it comes last. -/
inductive Table.Placing (e : Entry) : Table → Table → Prop
  | instead (before after : Table) (old : Entry) (hold : old.container = e.container) :
    Placing e (before ++ old :: after) (before ++ e :: after)
  | last (t : Table) (habsent : t.get? e.container = none) : Placing e t (t ++ [e])

theorem Table.placing_put (t : Table) (e : Entry) : Table.Placing e t (t.put e) := by
  induction t with
  | nil => exact .last [] rfl
  | cons f t ih =>
    by_cases hf : f.container = e.container
    · simp only [put, if_pos hf]
      exact .instead [] t f hf
    · simp only [put, if_neg hf]
      generalize Table.put t e = u at ih ⊢
      cases ih with
      | instead before after old hold => exact .instead (f :: before) after old hold
      | last _ habsent =>
        refine .last (f :: t) ?_
        simpa [get?, hf] using habsent

/-- A file is the whole document of a table. -/
def FileSystem.Documents (fs : FileSystem) (path : String) (t : Table) : Prop :=
  fs.bytes? path = some (Document.render t).toUTF8 ∧
    Document.ofBytes (Document.render t).toUTF8 = .valid t

namespace Store

inductive PutEnd (s : Store) (e : Entry) (fs fs' : FileSystem) : Except Failure Unit → Store → Prop
  | undone (fault : OsFault) (hfile : fs'.bytes? s.path = fs.bytes? s.path) :
    PutEnd s e fs fs' (.error (.unsaved s.path fault)) s
  | written (t : Table) (hself : t.get? e.container = some e)
    (hothers : ∀ c, c ≠ e.container → t.get? c = s.table.get? c) (hplace : Table.Placing e s.table t)
    (hfile : fs'.Documents s.path t) : PutEnd s e fs fs' (.ok ()) { s with table := t }

inductive RemoveEnd (s : Store) (c : String) (fs fs' : FileSystem) :
    Except Failure Unit → Store → Prop
  | absent (hnone : s.table.get? c = none) (hfs : fs' = fs) : RemoveEnd s c fs fs' (.ok ()) s
  | undone (fault : OsFault) (t : Table) (hsame : ∀ b, t.get? b = s.table.get? b)
    (hfile : fs'.bytes? s.path = fs.bytes? s.path) :
    RemoveEnd s c fs fs' (.error (.unsaved s.path fault)) { s with table := t }
  | written (t : Table) (hgone : t.get? c = none)
    (hothers : ∀ b, b ≠ c → t.get? b = s.table.get? b) (hfile : fs'.Documents s.path t) :
    RemoveEnd s c fs fs' (.ok ()) { s with table := t }

variable (d : Disk σ) (faults : σ → SaveFaults)

/-- A save at a path that a file can have writes the whole document or leaves what is there. -/
theorem save_placed (s : Store) (t : Table) (w w' : σ × FileSystem) (r : Except Failure Unit)
    (hp : Save.Placed w.2 s.path) (ht : t.Storable) (h : save (d.filed faults) s t w = (r, w')) :
    (r = .ok () ∧ w'.2.Documents s.path t) ∨
      (∃ fault, r = .error (.unsaved s.path fault)) ∧ w'.2.bytes? s.path = w.2.bytes? s.path := by
  rcases hrun : Save.run (faults w.1).ofCalls w.2 s.path (Document.render t).toUTF8 with ⟨f | _, fs'⟩
  · have hkept := Save.run_kept _ _ _ _ _ _ hp hrun
    unfold save Disk.filed at h
    simp only [hrun] at h
    cases f with
    | embeddedNull => exact absurd (Save.run_null _ _ _ _ _ hrun) hp.whole
    | system code text names =>
      cases h
      exact .inr ⟨⟨_, rfl⟩, hkept⟩
    | plain m =>
      cases h
      exact .inr ⟨⟨_, rfl⟩, hkept⟩
  · unfold save Disk.filed at h
    simp only [hrun] at h
    cases h
    refine .inl ⟨rfl, ?_, Document.ofBytes_render t ht⟩
    rw [FileSystem.bytes?, Save.read_of_run_ok _ _ _ _ _ hrun]
    rfl

theorem put_ends (s s' : Store) (e : Entry) (w w' : σ × FileSystem) (r : Except Failure Unit)
    (hs : s.table.Storable) (hp : Save.Placed w.2 s.path) (he : Entry.Recordable e.projectId)
    (h : s.put (d.filed faults) e w = (r, s', w')) : PutEnd s e w.2 w'.2 r s' := by
  rcases hsave : save (d.filed faults) s (s.table.put e) w with ⟨q, w₁⟩
  unfold put at h
  simp only [hsave] at h
  rcases save_placed d faults s _ w w₁ q hp (hs.put e he) hsave with
    ⟨rfl, hfile⟩ | ⟨⟨fault, rfl⟩, hfile⟩
  · cases h
    exact .written _ (Table.get?_put_self s.table e) (Table.get?_put_other s.table e)
      (Table.placing_put s.table e) hfile
  · cases h
    exact .undone fault hfile

theorem remove_ends (s s' : Store) (c : String) (w w' : σ × FileSystem) (r : Except Failure Unit)
    (hs : s.table.Storable) (hp : Save.Placed w.2 s.path)
    (h : s.remove (d.filed faults) c w = (r, s', w')) : RemoveEnd s c w.2 w'.2 r s' := by
  cases hget : s.table.get? c with
  | none =>
    simp only [remove, hget] at h
    cases h
    exact .absent hget rfl
  | some e =>
    rcases hsave : save (d.filed faults) s (s.table.remove c) w with ⟨q, w₁⟩
    simp only [remove, hget, hsave] at h
    rcases save_placed d faults s _ w w₁ q hp (hs.remove c) hsave with
      ⟨rfl, hfile⟩ | ⟨⟨fault, rfl⟩, hfile⟩
    · cases h
      exact .written _ (Table.get?_remove_self s.table c) (Table.get?_remove_other s.table c) hfile
    · -- the entry comes back at the end, where a look-up finds it as before
      cases h
      exact .undone fault _ (fun b => Table.get?_remove_append s.table c b e hget) hfile

/-- Where there is nothing to remove the disk is not asked at all. -/
theorem remove_absent {τ : Type} (d : Disk τ) (s : Store) (c : String) (w : τ)
    (h : s.table.get? c = none) : s.remove d c w = (.ok (), s, w) := by
  simp only [remove, h]

/-- Whatever calls of a save fail, a change is whole or not at all: in memory, where a failed put
keeps the order as well, and on disk, where a written change is the whole document. -/
theorem put_remove_atomic (s : Store) (w : σ × FileSystem) (hs : s.table.Storable)
    (hp : Save.Placed w.2 s.path) :
    (∀ e r s' w', Entry.Recordable e.projectId → s.put (d.filed faults) e w = (r, s', w') →
      PutEnd s e w.2 w'.2 r s') ∧
    (∀ c r s' w', s.remove (d.filed faults) c w = (r, s', w') → RemoveEnd s c w.2 w'.2 r s') ∧
    ∀ c, s.table.get? c = none →
      ∀ {τ : Type} (any : Disk τ) (v : τ), s.remove any c v = (.ok (), s, v) := by
  refine ⟨fun e r s' w' he h => ?_, fun c r s' w' h => ?_, fun c hnone τ any v => ?_⟩
  · exact put_ends d faults s s' e w w' r hs hp he h
  · exact remove_ends d faults s s' c w w' r hs hp h
  · exact remove_absent any s c v hnone

/-- A disk that can neither rename a file nor delete one. -/
def stuckFaults : SaveFaults := [(.rename, .plain "no space"), (.unlink, .plain "no space")]

def stuckFile : FileSystem := ⟨[(["s"], .file (Document.render [⟨"a", 1, "/u"⟩]).toUTF8 0o644)]⟩

theorem stuckFile_placed : Save.Placed stuckFile "/s" := by
  refine ⟨fun w hne hw => ?_, by decide, by decide⟩
  have hs : w = ["s"] := by
    unfold FileSystem.get? at hw
    rw [if_neg hne] at hw
    obtain ⟨n, hn⟩ := Option.isSome_iff_exists.mp hw
    exact congrArg Prod.fst (List.mem_singleton.mp (mem_of_lookup _ _ _ hn))
  rw [hs]
  rfl

theorem stuckFile_put_remove_atomic :
    let d : Disk Unit := ⟨fun _ w => w, fun _ _ w => (.ok (), w), fun _ w => (.ok .empty, w)⟩
    let s : Store := ⟨"/s", [⟨"a", 1, "/u"⟩]⟩
    s.table.Storable ∧ Save.Placed stuckFile s.path ∧
    (∀ e r s' w', Entry.Recordable e.projectId →
      s.put (d.filed fun _ => stuckFaults) e ((), stuckFile) = (r, s', w') →
      PutEnd s e stuckFile w'.2 r s') ∧
    (∀ c r s' w', s.remove (d.filed fun _ => stuckFaults) c ((), stuckFile) = (r, s', w') →
      RemoveEnd s c stuckFile w'.2 r s') ∧
    ∀ c, s.table.get? c = none →
      ∀ {τ : Type} (any : Disk τ) (v : τ), s.remove any c v = (.ok (), s, v) := by
  have hs : Table.Storable [⟨"a", 1, "/u"⟩] := by
    refine ⟨by decide, fun e he => ?_⟩
    rw [List.mem_singleton.mp he]
    exact ⟨by decide, by decide⟩
  exact ⟨hs, stuckFile_placed, put_remove_atomic _ _ ⟨"/s", _⟩ ((), stuckFile) hs stuckFile_placed⟩

end Store

end LayerQuota
