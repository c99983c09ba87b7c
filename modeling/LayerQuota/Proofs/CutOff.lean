import LayerQuota.Proofs.Unsaved
/-!
# A save cut off at any point

Up to the renaming a save works beside its file: it makes the directories that are missing and
writes a temporary file under a name that was free. All else stands as it stood, so the path shows
its old bytes, or none if it had none, wherever the save is cut off and however much of the
temporary file is written by then. The renaming puts the whole document in their place at once.
-/

namespace LayerQuota

variable {σ : Type}

namespace FileSystem

variable {fs fs₁ fs' : FileSystem} {temp dir : Way}

/-! ### Beside the file -/

theorem Extends.trans (ha : Extends fs fs₁) (hb : Extends fs₁ fs') : Extends fs fs' := by
  intro w hw
  have hfirst := ha w hw
  rw [hb w (by rw [hfirst]; exact hw), hfirst]

theorem makeWay_extends (done rest : Way) (h : fs.makeWay done rest = .ok fs') :
    Extends fs fs' := by
  induction rest generalizing fs done with
  | nil =>
    cases h
    exact .refl _
  | cons name rest ih =>
    unfold makeWay at h
    simp only at h
    split at h
    · exact ih _ h
    · split at h <;> cases h
    · rename_i hfree
      split at h
      · cases h
      · split at h
        · cases h
        · exact ((Extends.refl fs).set _ _ hfree).trans (ih _ h)

/-- All that stood stands, and nothing came but the temporary file and directories on a way. -/
structure Beside (temp dir : Way) (fs fs' : FileSystem) : Prop where
  kept : Extends fs fs'
  grown : Grown temp dir fs fs'

theorem Beside.refl (temp dir : Way) (fs : FileSystem) : Beside temp dir fs fs :=
  ⟨.refl fs, .refl fs⟩

theorem Beside.bytes (hb : Beside temp dir fs fs') (hr : fs.Rooted) (path : String)
    (hdir : (Way.ofPath path).dropLast = dir) (hapart : temp ≠ Way.ofPath path) :
    fs'.bytes? path = fs.bytes? path := by
  unfold bytes?
  rcases hold : fs.read path with f | old
  · rcases hnew : fs'.read path with g | bytes
    · rfl
    · -- what reads now has read before
      rw [hb.grown.reads hr path hdir hapart bytes hnew] at hold
      cases hold
  · obtain ⟨above, name, mode, hl, hfile⟩ := leads_of_read path old hold
    have hplace : fs'.get? (above ++ [name]) = some (.file old mode) := by
      rw [hb.kept _ (by rw [hfile]; rfl), hfile]
    rw [(hl.opens hb.kept.opens).read old mode hplace]

theorem Beside.not_directory (hb : Beside temp dir fs fs') (hfree : fs.get? temp = none)
    (hbelow : ¬temp <+: dir) : fs'.isDirectory temp = false := by
  rw [Bool.eq_false_iff]
  intro hd
  rcases hb.grown.directories temp hd with hold | hpre
  · rw [isDirectory_iff, hfree] at hold
    cases hold
  · exact hbelow hpre

/-- Everywhere but at the ways of a list the same files stand. -/
def SameFiles (ways : List Way) (fs fs' : FileSystem) : Prop :=
  ∀ w, w ∉ ways → ∀ content mode,
    fs'.get? w = some (.file content mode) ↔ fs.get? w = some (.file content mode)

theorem Beside.sameFiles (hb : Beside temp dir fs fs') : SameFiles [temp] fs fs' := by
  intro w hw content mode
  refine ⟨hb.grown.files w (fun heq => hw (List.mem_singleton.mpr heq)) content mode, fun h => ?_⟩
  rw [hb.kept w (by rw [h]; rfl), h]

/-! ### What a temporary file holds -/

/-- Two file systems differ at most in what a temporary file holds, or whether it is there. -/
structure Torn (temp : Way) (fs fs' : FileSystem) : Prop where
  others : ∀ w, w ≠ temp → fs'.get? w = fs.get? w
  plain : fs'.isDirectory temp = false

theorem Torn.refl (h : fs.isDirectory temp = false) : Torn temp fs fs := ⟨fun _ _ => rfl, h⟩

theorem Torn.symm (ht : Torn temp fs fs') (h : fs.isDirectory temp = false) : Torn temp fs' fs :=
  ⟨fun w hw => (ht.others w hw).symm, h⟩

theorem Torn.reads (ht : Torn temp fs fs') (h : fs.isDirectory temp = false) (path : String)
    (hapart : temp ≠ Way.ofPath path) (bytes : ByteArray) (hread : fs.read path = .ok bytes) :
    fs'.read path = .ok bytes := by
  obtain ⟨dir, name, mode, hl, hfile⟩ := leads_of_read path bytes hread
  have hopens : Opens fs fs' := by
    intro w hw
    have hwt : w ≠ temp := by
      rintro rfl
      rw [h] at hw
      cases hw
    rw [isDirectory_iff] at hw ⊢
    rw [ht.others w hwt, hw]
  have hplace : dir ++ [name] ≠ temp := fun heq => hapart (heq.symm.trans hl.ofPath.symm)
  exact (hl.opens hopens).read bytes mode ((ht.others _ hplace).trans hfile)

/-- No path but its own shows what a temporary file holds. -/
theorem Torn.bytes (ht : Torn temp fs fs') (h : fs.isDirectory temp = false) (path : String)
    (hapart : temp ≠ Way.ofPath path) : fs'.bytes? path = fs.bytes? path := by
  unfold bytes?
  rcases hold : fs.read path with f | old
  · rcases hnew : fs'.read path with g | bytes
    · rfl
    · rw [(ht.symm h).reads ht.plain path hapart bytes hnew] at hold
      cases hold
  · rw [ht.reads h path hapart old hold]

end FileSystem

namespace Save

open FileSystem

/-! ### Up to the renaming -/

/-- The steps of a save before the renaming. -/
def preparation (temp : Way) (path : String) (content : ByteArray) : List SaveStep :=
  [.makeDirectories (directory path), .create temp, .write temp content, .sync,
    .setMode temp 0o644]

theorem steps_eq (temp : Way) (path : String) (content : ByteArray) :
    steps temp path content = preparation temp path content ++ [.rename temp path] := rfl

theorem runSteps_keeps (faults : SaveFaults) (P : FileSystem → Prop) (ss : List SaveStep)
    (hkeeps : ∀ s ∈ ss, ∀ fs₁ fs₂, P fs₁ → s.apply faults fs₁ = .ok fs₂ → P fs₂)
    (fs fs' : FileSystem) (r : Except OsFault Unit) (hfs : P fs)
    (h : runSteps faults fs ss = (r, fs')) : P fs' := by
  induction ss generalizing fs with
  | nil =>
    cases h
    exact hfs
  | cons s ss ih =>
    unfold runSteps at h
    split at h
    · rename_i fs₁ hs
      exact ih (fun s hs => hkeeps s (List.mem_cons_of_mem _ hs)) fs₁
        (hkeeps s List.mem_cons_self fs fs₁ hfs hs) h
    · cases h
      exact hfs

theorem runSteps_append_ok (faults : SaveFaults) (first : List SaveStep) (last : SaveStep)
    (fs fs' : FileSystem) (h : runSteps faults fs (first ++ [last]) = (.ok (), fs')) :
    ∃ fs₁, runSteps faults fs first = (.ok (), fs₁) ∧ last.apply faults fs₁ = .ok fs' := by
  induction first generalizing fs with
  | nil =>
    obtain ⟨fs₁, hlast, hend⟩ := runSteps_cons_ok _ _ _ _ _ h
    cases hend
    exact ⟨fs, rfl, hlast⟩
  | cons s first ih =>
    obtain ⟨fs₁, hs, hrest⟩ := runSteps_cons_ok _ _ _ _ _ h
    obtain ⟨fs₂, hfirst, hlast⟩ := ih fs₁ hrest
    exact ⟨fs₂, by simp only [runSteps, hs, hfirst], hlast⟩

section Preparing

variable (faults : SaveFaults) (fs : FileSystem) (path : String) (content : ByteArray) (temp : Way)
  (hfree : fs.get? temp = none)

include hfree

theorem ne_nil_of_free : temp ≠ [] := by
  rintro rfl
  cases hfree

/-- One step before the renaming leaves all that stood as it was. -/
theorem apply_beside (fs₁ fs₂ : FileSystem) (s : SaveStep) (hs : s ∈ preparation temp path content)
    (hb : Beside temp (directory path) fs fs₁) (h : s.apply faults fs₁ = .ok fs₂) :
    Beside temp (directory path) fs fs₂ := by
  refine ⟨?_, apply_grown faults fs fs₁ fs₂ temp path content (ne_nil_of_free fs temp hfree) s hs
    hb.grown h⟩
  simp only [preparation, List.mem_cons, List.not_mem_nil, or_false] at hs
  rcases hs with rfl | rfl | rfl | rfl | rfl
  · exact hb.kept.trans (makeWay_extends [] (directory path) (unlessFaulty_eq_ok _ _ _ _ h))
  · rw [← Except.ok.inj (unlessFaulty_eq_ok _ _ _ _ h)]
    exact hb.kept.set temp _ hfree
  · rw [← Except.ok.inj (unlessFaulty_eq_ok _ _ _ _ h)]
    exact hb.kept.set temp _ hfree
  · rw [← Except.ok.inj (unlessFaulty_eq_ok _ _ _ _ h)]
    exact hb.kept
  · rw [← Except.ok.inj (unlessFaulty_eq_ok _ _ _ _ h)]
    split
    · exact hb.kept.set temp _ hfree
    · exact hb.kept

theorem prepared (ss : List SaveStep) (hss : ∀ s ∈ ss, s ∈ preparation temp path content)
    (r : Except OsFault Unit) (fs' : FileSystem) (h : runSteps faults fs ss = (r, fs')) :
    Beside temp (directory path) fs fs' :=
  runSteps_keeps faults (Beside temp (directory path) fs) ss
    (fun s hs fs₁ fs₂ hb hstep =>
      apply_beside faults fs path content temp hfree fs₁ fs₂ s (hss s hs) hb hstep)
    fs fs' r (.refl _ _ fs) h

/-- However far its steps get, a save has worked beside its file only, unless all of them are done,
the renaming as the last. -/
theorem beside_or_done (k : Nat) (r : Except OsFault Unit) (fs' : FileSystem)
    (h : runSteps faults fs ((steps temp path content).take k) = (r, fs')) :
    (¬((steps temp path content).length ≤ k ∧ r = .ok ()) ∧
        Beside temp (directory path) fs fs') ∨
      ((steps temp path content).length ≤ k ∧ r = .ok ()) ∧
        runSteps faults fs (steps temp path content) = (.ok (), fs') := by
  by_cases hk : (steps temp path content).length ≤ k
  · rw [List.take_of_length_le hk] at h
    rcases r with f | u
    · refine .inl ⟨fun hdone => absurd hdone.2 nofun, ?_⟩
      exact (runSteps_error faults (Beside temp (directory path) fs)
        (preparation temp path content) (.rename temp path)
        (fun s hs fs₁ fs₂ hb hstep =>
          apply_beside faults fs path content temp hfree fs₁ fs₂ s hs hb hstep)
        fs fs' f (.refl _ _ fs) h).1
    · exact .inr ⟨⟨hk, rfl⟩, h⟩
  · refine .inl ⟨fun hdone => hk hdone.1, ?_⟩
    refine prepared faults fs path content temp hfree _ (fun s hs => ?_) r fs' h
    rw [steps_eq, List.length_append, List.length_singleton] at hk
    rw [steps_eq, List.take_append_of_le_length (by omega)] at hs
    exact List.mem_of_mem_take hs

/-- What the renaming leaves: the temporary file has become the file at the path. -/
theorem done_files (fs' : FileSystem)
    (h : runSteps faults fs (steps temp path content) = (.ok (), fs'))
    (hapart : temp ≠ Way.ofPath path) :
    fs'.get? temp = none ∧ SameFiles [Way.ofPath path] fs fs' := by
  obtain ⟨fs₁, hfirst, hlast⟩ := runSteps_append_ok faults (preparation temp path content)
    (.rename temp path) fs fs' h
  have hb := prepared faults fs path content temp hfree _ (fun _ hs => hs) _ fs₁ hfirst
  obtain ⟨dir, name, n, -, hl, -, rfl⟩ := rename_eq_ok temp path (unlessFaulty_eq_ok _ _ _ _ hlast)
  rw [hl.ofPath] at hapart ⊢
  have hgone : ((fs₁.erase temp).set (dir ++ [name]) n).get? temp = none := by
    rw [get?_set_other _ temp n hapart, get?_erase_self (ne_nil_of_free fs temp hfree)]
  refine ⟨hgone, fun w hw bytes mode => ?_⟩
  by_cases hwt : w = temp
  · rw [hwt, hgone, hfree]
  · rw [get?_set_other _ w n (fun heq => hw (List.mem_singleton.mpr heq)),
      get?_erase_other temp w hwt]
    exact hb.sameFiles w (fun hmem => hwt (List.mem_singleton.mp hmem)) bytes mode

end Preparing

theorem tempWay_not_above (fs : FileSystem) (dir : Way) : ¬tempWay fs dir <+: dir := by
  intro hpre
  have hlen := hpre.length_le
  simp only [tempWay, List.length_append, List.length_singleton] at hlen
  omega

/-! ### Points of a save -/

/-- What a disk may show of a save behind its first `k` steps, of which the last may have failed.
Any part of the temporary file may be written by then. -/
inductive CutOff (faults : SaveFaults) (fs : FileSystem) (path : String) (content : ByteArray)
    (k : Nat) (r : Except OsFault Unit) (fs' : FileSystem) : Prop
  | behind (fs₁ : FileSystem)
    (hrun : runSteps faults fs ((steps (tempWay fs (directory path)) path content).take k) =
      (r, fs₁))
    (htorn : Torn (tempWay fs (directory path)) fs₁ fs')

/-- Have all steps of a save been made, the renaming as the last of them? -/
def Done (fs : FileSystem) (path : String) (content : ByteArray) (k : Nat)
    (r : Except OsFault Unit) : Prop :=
  (steps (tempWay fs (directory path)) path content).length ≤ k ∧ r = .ok ()

section Points

variable {faults : SaveFaults} {fs fs' : FileSystem} {path : String} {content : ByteArray} {k : Nat}
  {r : Except OsFault Unit} (hapart : tempWay fs (directory path) ≠ Way.ofPath path)

include hapart

theorem plain_of_run
    (h : runSteps faults fs ((steps (tempWay fs (directory path)) path content).take k) =
      (r, fs')) : fs'.isDirectory (tempWay fs (directory path)) = false := by
  have hfree := tempWay_free fs (directory path)
  rcases beside_or_done faults fs path content _ hfree k r fs' h with ⟨-, hb⟩ | ⟨-, hall⟩
  · exact hb.not_directory hfree (tempWay_not_above fs (directory path))
  · rw [isDirectory, (done_files faults fs path content _ hfree fs' hall hapart).1]

/-- The disk may show exactly what the steps have done. -/
theorem CutOff.of_run
    (h : runSteps faults fs ((steps (tempWay fs (directory path)) path content).take k) =
      (r, fs')) : CutOff faults fs path content k r fs' :=
  .behind fs' h (.refl (plain_of_run hapart h))

/-- Wherever a save is cut off, its path shows the old bytes, and the new content once the renaming
went through. -/
theorem CutOff.bytes (hc : CutOff faults fs path content k r fs') (hr : fs.Rooted) :
    (¬Done fs path content k r ∧ fs'.bytes? path = fs.bytes? path) ∨
      (Done fs path content k r ∧ fs'.bytes? path = some content) := by
  obtain ⟨fs₁, hrun, htorn⟩ := hc
  have hsame := htorn.bytes (plain_of_run hapart hrun) path hapart
  rcases beside_or_done faults fs path content _ (tempWay_free fs _) k r fs₁ hrun with
    ⟨hnot, hb⟩ | ⟨hdone, hall⟩
  · exact .inl ⟨hnot, hsame.trans (hb.bytes hr path rfl hapart)⟩
  · have hread : fs₁.read path = .ok content :=
      read_of_run_ok faults fs fs₁ path content (by simp only [run, hall])
    refine .inr ⟨hdone, hsame.trans ?_⟩
    rw [bytes?, hread]
    rfl

end Points

/-! ### How a save ends -/

/-- A failed save takes its temporary file away, unless that fails. -/
inductive CleanedUp (faults : SaveFaults) (temp : Way) (fs fs' : FileSystem) : Prop
  | away (hgone : fs'.get? temp = none) (hfiles : SameFiles [] fs fs')
  | stuck (f : OsFault) (hf : (SaveCall.unlink, f) ∈ faults) (hfiles : SameFiles [temp] fs fs')

theorem run_cleanedUp (faults : SaveFaults) (fs fs' : FileSystem) (path : String)
    (content : ByteArray) (f : OsFault) (hr : fs.Rooted)
    (hapart : tempWay fs (directory path) ≠ Way.ofPath path)
    (h : run faults fs path content = (.error f, fs')) :
    fs'.bytes? path = fs.bytes? path ∧
      CleanedUp faults (tempWay fs (directory path)) fs fs' := by
  have hfree := tempWay_free fs (directory path)
  have hne := tempWay_ne_nil fs (directory path)
  have hbelow := tempWay_not_above fs (directory path)
  unfold run at h
  simp only at h
  generalize tempWay fs (directory path) = temp at h hfree hne hbelow hapart ⊢
  rcases hrun : runSteps faults fs (steps temp path content) with ⟨g | _, fs₁⟩
  · simp only [hrun] at h
    cases h
    have hb : Beside temp (directory path) fs fs₁ := by
      rw [← List.take_length (l := steps temp path content)] at hrun
      rcases beside_or_done faults fs path content temp hfree _ _ fs₁ hrun with ⟨-, hb⟩ | ⟨hdone, -⟩
      · exact hb
      · cases hdone.2
    have hbytes := hb.bytes hr path rfl hapart
    unfold cleanUp
    split
    · rename_i g hg
      exact ⟨hbytes, .stuck g (mem_of_lookup _ _ _ hg) hb.sameFiles⟩
    · have hgone : (fs₁.erase temp).get? temp = none := get?_erase_self hne
      have htorn : Torn temp fs₁ (fs₁.erase temp) :=
        ⟨fun w hw => get?_erase_other temp w hw, by rw [isDirectory, hgone]⟩
      have hsame := htorn.bytes (hb.not_directory hfree hbelow) path hapart
      refine ⟨hsame.trans hbytes, .away hgone fun w _ bytes mode => ?_⟩
      by_cases hw : w = temp
      · rw [hw, hgone, hfree]
      · rw [get?_erase_other temp w hw]
        exact hb.sameFiles w (fun hmem => hw (List.mem_singleton.mp hmem)) bytes mode
  · simp only [hrun] at h
    cases h

end Save

namespace Store

open FileSystem Save

/-- The ends of a save of a table: the whole document is in the file and nothing is left beside it,
or the file is as it was, and so is every other, but for a temporary file that could not be deleted.
A save fails with the fault of one of its steps; only a path with a NUL in it is refused. -/
inductive SaveEnd (faults : SaveFaults) (s : Store) (t : Table) (fs fs' : FileSystem) :
    Except Failure Unit → Prop
  | written (hfile : fs'.bytes? s.path = some (Document.render t).toUTF8)
    (hgone : fs'.get? (tempWay fs (directory s.path)) = none)
    (hfiles : SameFiles [Way.ofPath s.path] fs fs') : SaveEnd faults s t fs fs' (.ok ())
  | failed (f : Failure)
    (hf : (∃ fault, f = .unsaved s.path fault) ∨ '\u0000' ∈ s.path.toList)
    (hfile : fs'.bytes? s.path = fs.bytes? s.path)
    (hclean : CleanedUp faults (tempWay fs (directory s.path)) fs fs') :
    SaveEnd faults s t fs fs' (.error f)

theorem save_ends (d : Disk σ) (faults : σ → SaveFaults) (s : Store) (t : Table)
    (w w' : σ × FileSystem) (r : Except Failure Unit) (hr : w.2.Rooted)
    (hapart : tempWay w.2 (directory s.path) ≠ Way.ofPath s.path)
    (h : save (d.filed faults) s t w = (r, w')) :
    SaveEnd (faults w.1).ofCalls s t w.2 w'.2 r := by
  rcases hrun : run (faults w.1).ofCalls w.2 s.path (Document.render t).toUTF8 with ⟨f | _, fs'⟩
  · obtain ⟨hfile, hclean⟩ := run_cleanedUp _ _ _ _ _ f hr hapart hrun
    unfold save Disk.filed at h
    simp only [hrun] at h
    cases f with
    | embeddedNull =>
      cases h
      exact .failed _ (.inr (run_null _ _ _ _ _ hrun)) hfile hclean
    | system code text names =>
      cases h
      exact .failed _ (.inl ⟨_, rfl⟩) hfile hclean
    | plain m =>
      cases h
      exact .failed _ (.inl ⟨_, rfl⟩) hfile hclean
  · have hread := read_of_run_ok _ _ _ _ _ hrun
    have hall : runSteps (faults w.1).ofCalls w.2 (steps (tempWay w.2 (directory s.path)) s.path
        (Document.render t).toUTF8) = (.ok (), fs') := by
      unfold run at hrun
      simp only at hrun
      split at hrun
      · rename_i u fs₁ hsteps
        cases hrun
        exact hsteps
      · cases hrun
    obtain ⟨hgone, hfiles⟩ := done_files _ _ _ _ _ (tempWay_free _ _) _ hall hapart
    unfold save Disk.filed at h
    simp only [hrun] at h
    cases h
    exact .written (by rw [bytes?, hread]; rfl) hgone hfiles

/-- Whatever calls of a save fail, at every point of it the file holds its old bytes, or none if
there were none, and the whole new document once the renaming went through; and when the save ends,
its temporary file is gone, unless deleting that failed. -/
theorem save_atomic_throughout (d : Disk σ) (faults : σ → SaveFaults) (s : Store) (t : Table)
    (w : σ × FileSystem) (hr : w.2.Rooted)
    (hapart : tempWay w.2 (directory s.path) ≠ Way.ofPath s.path) :
    let content := (Document.render t).toUTF8
    (∀ k r fs', CutOff (faults w.1).ofCalls w.2 s.path content k r fs' →
      (¬Done w.2 s.path content k r ∧ fs'.bytes? s.path = w.2.bytes? s.path) ∨
        (Done w.2 s.path content k r ∧ fs'.bytes? s.path = some content)) ∧
    ∀ r w', save (d.filed faults) s t w = (r, w') →
      SaveEnd (faults w.1).ofCalls s t w.2 w'.2 r :=
  ⟨fun _ _ _ hc => hc.bytes hapart hr,
    fun r w' h => save_ends d faults s t w w' r hr hapart h⟩

/-- A disk that is full when the new file is to be synced, and then cannot delete it. -/
def fullFaults : SaveFaults :=
  [(.sync, .system 28 "No space left on device" []), (.unlink, .plain "input/output error")]

/-- The first save of a store, whose directory is not there yet. -/
theorem firstSave_atomic_throughout :
    let d : Disk Unit := ⟨fun _ w => w, fun _ _ w => (.ok (), w), fun _ w => (.ok .empty, w)⟩
    let s : Store := ⟨"/var/s", []⟩
    let t : Table := [⟨"a", 1, "/u"⟩]
    let content := (Document.render t).toUTF8
    FileSystem.empty.Rooted ∧ tempWay .empty (directory s.path) ≠ Way.ofPath s.path ∧
    (∀ k r fs', CutOff fullFaults.ofCalls .empty s.path content k r fs' →
      (¬Done .empty s.path content k r ∧ fs'.bytes? s.path = FileSystem.empty.bytes? s.path) ∨
        (Done .empty s.path content k r ∧ fs'.bytes? s.path = some content)) ∧
    (∀ r w', save (d.filed fun _ => fullFaults) s t ((), .empty) = (r, w') →
      SaveEnd fullFaults.ofCalls s t .empty w'.2 r) ∧
    ∃ r fs', CutOff fullFaults.ofCalls .empty s.path content 6 r fs' ∧ r ≠ .ok () := by
  intro d s t content
  have hr : FileSystem.empty.Rooted := by
    intro w hne hw
    rw [FileSystem.get?, if_neg hne] at hw
    cases hw
  have hapart : tempWay .empty (directory s.path) ≠ Way.ofPath s.path := by decide
  obtain ⟨hpoints, hend⟩ :=
    save_atomic_throughout d (fun _ => fullFaults) s t ((), .empty) hr hapart
  have hfails : (runSteps fullFaults.ofCalls .empty
      ((steps (tempWay .empty (directory s.path)) s.path content).take 6)).1.isOk = false := by
    decide +kernel
  refine ⟨hr, hapart, hpoints, hend, _, _, .of_run hapart rfl, fun hok => ?_⟩
  cases hfails.symm.trans (congrArg Except.isOk hok)

end Store

end LayerQuota
