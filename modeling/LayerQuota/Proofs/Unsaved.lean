import LayerQuota.Proofs.Durable
import Mathlib.Data.List.Induction
/-!
# What a failed save leaves

A save that fails can have made directories and left its temporary file behind. Its path reads what
it read before, and nothing where there was nothing, since in a file system as it is found no file
waits for a directory to be made. Only a path with a NUL in it is refused.
-/

namespace LayerQuota

/-! ### Where a path is cut off -/

namespace Way

theorem mem_splitSlashes (cs part : List Char) (h : part ∈ splitSlashes cs) (c : Char)
    (hc : c ∈ part) : c ∈ cs := by
  induction cs generalizing part with
  | nil =>
    rw [List.mem_singleton.mp h] at hc
    exact hc
  | cons d cs ih =>
    unfold splitSlashes at h
    split at h
    · cases ‹_ = _›
    · rename_i heq
      cases heq
      rcases List.mem_cons.mp h with rfl | h
      · cases hc
      · exact List.mem_cons_of_mem _ (ih part h hc)
    · rename_i heq
      cases heq
      split at h
      · rw [List.mem_singleton.mp h] at hc
        rw [List.mem_singleton.mp hc]
        exact List.mem_cons_self
      · rename_i first rest hsplit
        rcases List.mem_cons.mp h with rfl | h
        · rcases List.mem_cons.mp hc with rfl | hc
          · exact List.mem_cons_self
          · exact List.mem_cons_of_mem _ (ih first (by rw [hsplit]; exact List.mem_cons_self) hc)
        · exact List.mem_cons_of_mem _ (ih part (by rw [hsplit]; exact List.mem_cons_of_mem _ h) hc)

theorem mem_parts (path part : String) (h : part ∈ parts path) (c : Char) (hc : c ∈ part.toList) :
    c ∈ path.toList := by
  obtain ⟨cs, hcs, rfl⟩ := List.mem_map.mp h
  rw [String.toList_ofList] at hc
  exact mem_splitSlashes path.toList cs hcs c hc

theorem mem_foldl_step (xs : List String) (way : Way) (name : String)
    (h : name ∈ xs.foldl step way) : name ∈ way ∨ name ∈ xs := by
  induction xs generalizing way with
  | nil => exact .inl h
  | cons x xs ih =>
    rcases ih _ h with hw | hx
    · unfold step at hw
      split at hw
      · exact .inl hw
      · split at hw
        · exact .inl ((List.dropLast_prefix way).subset hw)
        · rcases List.mem_append.mp hw with hw | hw
          · exact .inl hw
          · exact .inr (List.mem_singleton.mp hw ▸ List.mem_cons_self)
    · exact .inr (List.mem_cons_of_mem x hx)

theorem mem_ofPath (path name : String) (h : name ∈ ofPath path) (c : Char)
    (hc : c ∈ name.toList) : c ∈ path.toList := by
  rcases mem_foldl_step _ [] name h with hn | hp
  · cases hn
  · exact mem_parts path name hp c hc

theorem mem_path (way : Way) (c : Char) (h : c ∈ way.path.toList) (hne : c ≠ '/') :
    ∃ name ∈ way, c ∈ name.toList := by
  have hslash : ∀ d ∈ "/".toList, d = '/' := by simp
  rw [path, String.toList_append, List.mem_append] at h
  rcases h with h | h
  · exact absurd (hslash c h) hne
  rw [String.toList_intercalate] at h
  induction way with
  | nil => cases h
  | cons name way ih =>
    cases way with
    | nil =>
      rw [List.map_singleton, List.intercalate_singleton] at h
      exact ⟨name, List.mem_cons_self, h⟩
    | cons next way =>
      rw [List.map_cons, List.map_cons, List.intercalate_cons_cons, List.mem_append,
        List.mem_append] at h
      rcases h with (h | h) | h
      · exact ⟨name, List.mem_cons_self, h⟩
      · exact absurd (hslash c h) hne
      · obtain ⟨other, ho, hc⟩ := ih h
        exact ⟨other, List.mem_cons_of_mem name ho, hc⟩

end Way

namespace DeadEnd

theorem fault_eq_null (names : List String) (d : DeadEnd) (h : d.fault names = .embeddedNull) :
    d = .cutOff := by
  cases d with
  | cutOff => rfl
  | missing => cases h
  | blocked => cases h
  | tooLong => cases h

theorem ofPath?_cutOff (path : String) (h : ofPath? path = some .cutOff) :
    '\u0000' ∈ path.toList := by
  unfold ofPath? at h
  split at h
  · rename_i hc
    exact List.contains_iff_mem.mp hc
  · split at h
    · cases h
    · split at h <;> cases h

end DeadEnd

namespace FileSystem

variable {fs fs' : FileSystem}

def bytes? (fs : FileSystem) (path : String) : Option ByteArray := (fs.read path).toOption

/-! ### What a failed save can add -/

/-- What stands anywhere stands in a directory. -/
def Rooted (fs : FileSystem) : Prop :=
  ∀ w, w ≠ [] → (fs.get? w).isSome → fs.isDirectory w.dropLast = true

theorem Rooted.above (hr : fs.Rooted) (w : Way) (hw : (fs.get? w).isSome) :
    ∀ v, v <+: w → v ≠ w → fs.isDirectory v = true := by
  induction w using List.reverseRecOn with
  | nil => exact fun v hv hne => absurd (List.prefix_nil.mp hv) hne
  | append_singleton w name ih =>
    have hdir : fs.isDirectory w = true := by
      simpa only [List.dropLast_concat] using hr (w ++ [name]) (by simp) hw
    intro v hv hne
    rcases List.prefix_concat_iff.mp hv with heq | hpre
    · exact absurd heq hne
    · by_cases heq : v = w
      · exact heq ▸ hdir
      · exact ih (by rw [(isDirectory_iff w).mp hdir]; rfl) v hpre heq

/-- A file system has no other files than another but one, and no other directories but those on
a way. -/
structure Grown (temp dir : Way) (fs fs' : FileSystem) : Prop where
  files : ∀ w, w ≠ temp → ∀ content mode, fs'.get? w = some (.file content mode) →
    fs.get? w = some (.file content mode)
  directories : ∀ w, fs'.isDirectory w = true → fs.isDirectory w = true ∨ w <+: dir

variable {temp dir : Way}

theorem Grown.refl (fs : FileSystem) : Grown temp dir fs fs :=
  ⟨fun _ _ _ _ h => h, fun _ h => .inl h⟩

theorem Grown.trans {fs₁ : FileSystem} (ha : Grown temp dir fs fs₁) (hb : Grown temp dir fs₁ fs') :
    Grown temp dir fs fs' := by
  refine ⟨fun w hw content mode h => ha.files w hw content mode (hb.files w hw content mode h), ?_⟩
  intro w hw
  rcases hb.directories w hw with h | h
  · exact ha.directories w h
  · exact .inr h

theorem Grown.set_file (hne : temp ≠ []) (content : ByteArray) (mode : Nat) :
    Grown temp dir fs (fs.set temp (.file content mode)) := by
  refine ⟨fun w hw c m h => ?_, fun w hw => .inl ?_⟩
  · rwa [get?_set_other temp w _ hw] at h
  · rw [isDirectory_iff] at hw ⊢
    by_cases heq : w = temp
    · subst heq
      rw [get?_set_self w _ hne] at hw
      cases hw
    · rwa [get?_set_other temp w _ heq] at hw

theorem get?_erase_self (hne : temp ≠ []) : (fs.erase temp).get? temp = none := by
  simp only [get?, erase, if_neg hne, lookup_filter_self]

theorem Grown.erase (hne : temp ≠ []) : Grown temp dir fs (fs.erase temp) := by
  refine ⟨fun w hw c m h => ?_, fun w hw => .inl ?_⟩
  · rwa [get?_erase_other temp w hw] at h
  · rw [isDirectory_iff] at hw ⊢
    by_cases heq : w = temp
    · subst heq
      rw [get?_erase_self hne] at hw
      cases hw
    · rwa [get?_erase_other temp w heq] at hw

theorem Grown.set_directory (w : Way) (hw : w <+: dir) (hne : w ≠ []) :
    Grown temp dir fs (fs.set w .directory) := by
  refine ⟨fun v hv c m h => ?_, fun v hv => ?_⟩
  · by_cases heq : v = w
    · rw [heq, get?_set_self w _ hne] at h
      cases h
    · rwa [get?_set_other w v _ heq] at h
  · by_cases heq : v = w
    · exact .inr (heq ▸ hw)
    · rw [isDirectory_iff, get?_set_other w v _ heq] at hv
      exact .inl ((isDirectory_iff v).mpr hv)

/-- A name is passed where a directory has it, it is made where nothing has it, and else making the
directories ends there. -/
theorem makeWay_cons (fs : FileSystem) (done rest : Way) (name : String) :
    fs.makeWay done (name :: rest) = fs.makeWay (done ++ [name]) rest ∨
      fs.makeWay done (name :: rest) =
        (fs.set (done ++ [name]) .directory).makeWay (done ++ [name]) rest ∨
      ∃ f, fs.makeWay done (name :: rest) = .error f ∧
        (f = .embeddedNull → ∃ other ∈ done ++ [name], '\u0000' ∈ other.toList) := by
  rcases hget : fs.get? (done ++ [name]) with - | - | ⟨content, mode⟩
  · cases hfits : DeadEnd.ofPath? (Way.path (done ++ [name])) with
    | some d =>
      refine .inr (.inr ⟨d.fault [Way.path (done ++ [name])], ?_, fun hnull => ?_⟩)
      · simp only [makeWay, hget, hfits]
      · rw [DeadEnd.fault_eq_null _ d hnull] at hfits
        exact Way.mem_path _ _ (DeadEnd.ofPath?_cutOff _ hfits) (by decide)
    | none =>
      by_cases hl : DeadEnd.nameLimit < name.utf8ByteSize
      · refine .inr (.inr ⟨.nameTooLong [Way.path (done ++ [name])], ?_, fun hnull => ?_⟩)
        · simp only [makeWay, hget, hfits, if_pos hl]
        · cases hnull
      · refine .inr (.inl ?_)
        simp only [makeWay, hget, hfits, if_neg hl]
  · exact .inl (by simp only [makeWay, hget])
  · cases rest with
    | nil =>
      refine .inr (.inr ⟨.fileExists [Way.path (done ++ [name])], ?_, fun hnull => ?_⟩)
      · simp only [makeWay, hget]
      · cases hnull
    | cons next rest =>
      refine .inr (.inr ⟨.notDirectory [Way.path (done ++ [name] ++ [next])], ?_, fun hnull => ?_⟩)
      · simp only [makeWay, hget]
      · cases hnull

theorem makeWay_grown (done rest : Way) (h : fs.makeWay done rest = .ok fs') :
    Grown temp (done ++ rest) fs fs' := by
  induction rest generalizing fs done with
  | nil =>
    cases h
    exact .refl _
  | cons name rest ih =>
    have hsplit : done ++ name :: rest = (done ++ [name]) ++ rest := by simp
    rw [hsplit]
    rcases makeWay_cons fs done rest name with heq | heq | ⟨f, heq, -⟩
    · exact ih _ (heq.symm.trans h)
    · exact (Grown.set_directory _ (List.prefix_append _ _) (by simp)).trans (ih _ (heq.symm.trans h))
    · cases heq.symm.trans h

theorem makeWay_null (done rest : Way) (h : fs.makeWay done rest = .error .embeddedNull) :
    ∃ name ∈ done ++ rest, '\u0000' ∈ name.toList := by
  induction rest generalizing fs done with
  | nil => cases h
  | cons name rest ih =>
    have hsplit : done ++ name :: rest = (done ++ [name]) ++ rest := by simp
    rw [hsplit]
    rcases makeWay_cons fs done rest name with heq | heq | ⟨f, heq, hnull⟩
    · exact ih _ (heq.symm.trans h)
    · exact ih _ (heq.symm.trans h)
    · obtain ⟨other, ho, hc⟩ := hnull (Except.error.inj (heq.symm.trans h))
      exact ⟨other, List.mem_append_left rest ho, hc⟩

/-- What reads there now has read there before: its directory was one before the file system grew. -/
theorem Grown.reads (hg : Grown temp dir fs fs') (hr : fs.Rooted) (path : String)
    (hdir : (Way.ofPath path).dropLast = dir) (hne : temp ≠ Way.ofPath path) (bytes : ByteArray)
    (h : fs'.read path = .ok bytes) : fs.read path = .ok bytes := by
  obtain ⟨above, name, mode, hl, hfile⟩ := leads_of_read path bytes h
  have hsame : above = dir := by rw [← hdir, hl.ofPath, List.dropLast_concat]
  subst hsame
  have hold := hg.files _ (fun heq => hne (heq.symm.trans hl.ofPath.symm)) bytes mode hfile
  have habove : ∀ v, v <+: above → fs.isDirectory v = true := by
    intro v hv
    refine hr.above (above ++ [name]) (by rw [hold]; rfl) v (hv.trans (List.prefix_append _ _)) ?_
    rintro rfl
    have hlen := hv.length_le
    simp only [List.length_append, List.length_singleton] at hlen
    omega
  have hopens : Opens fs' fs := by
    intro w hw
    rcases hg.directories w hw with h | h
    · exact h
    · exact habove w h
  exact (hl.opens hopens).read bytes mode hold

theorem follow_cutOff (way : Way) (xs : List String) : fs.follow way xs ≠ .error .cutOff := by
  intro h
  induction xs generalizing way with
  | nil => cases h
  | cons x xs ih =>
    unfold follow at h
    split at h
    · cases h
    · split at h
      · exact ih way h
      · split at h
        · exact ih _ h
        · split at h
          · cases h
          · split at h
            · cases h
            · exact ih _ h

theorem rename_null (source : Way) (path : String)
    (h : fs.rename source path = .error .embeddedNull) : '\u0000' ∈ path.toList := by
  unfold rename at h
  simp only at h
  split at h
  · rename_i d hd
    have hcut := DeadEnd.fault_eq_null _ d (Except.error.inj h)
    exact DeadEnd.ofPath?_cutOff path (hcut ▸ hd)
  · cases h
  · cases h
  · split at h
    · rename_i d hfollow
      have hcut := DeadEnd.fault_eq_null _ d (Except.error.inj h)
      exact absurd (hcut ▸ hfollow) (follow_cutOff _ _)
    · split at h
      · cases h
      · split at h
        · cases h
        · split at h
          · cases h
          · split at h <;> cases h

end FileSystem

namespace Save

open FileSystem

/-! ### Saves that fail -/

theorem runSteps_cons_error (faults : SaveFaults) (fs fs' : FileSystem) (step : SaveStep)
    (rest : List SaveStep) (f : OsFault)
    (h : runSteps faults fs (step :: rest) = (.error f, fs')) :
    (step.apply faults fs = .error f ∧ fs' = fs) ∨
      ∃ fs₁, step.apply faults fs = .ok fs₁ ∧ runSteps faults fs₁ rest = (.error f, fs') := by
  unfold runSteps at h
  rcases hs : step.apply faults fs with g | fs₁
  · simp only [hs] at h
    cases h
    exact .inl ⟨rfl, rfl⟩
  · exact .inr ⟨fs₁, rfl, by simpa only [hs] using h⟩

/-- Steps fail at one of them. What those before the last one keep stays as it was. -/
theorem runSteps_error (faults : SaveFaults) (P : FileSystem → Prop) (first : List SaveStep)
    (last : SaveStep)
    (hkeeps : ∀ s ∈ first, ∀ fs₁ fs₂, P fs₁ → s.apply faults fs₁ = .ok fs₂ → P fs₂)
    (fs fs' : FileSystem) (f : OsFault) (hfs : P fs)
    (h : runSteps faults fs (first ++ [last]) = (.error f, fs')) :
    P fs' ∧ ∃ s ∈ first ++ [last], ∃ fs₁, s.apply faults fs₁ = .error f := by
  induction first generalizing fs with
  | nil =>
    rcases runSteps_cons_error _ _ _ _ _ _ h with ⟨hs, rfl⟩ | ⟨fs₁, -, hrest⟩
    · exact ⟨hfs, last, List.mem_singleton_self last, _, hs⟩
    · cases hrest
  | cons step first ih =>
    rcases runSteps_cons_error _ _ _ _ _ _ h with ⟨hs, rfl⟩ | ⟨fs₁, hs, hrest⟩
    · exact ⟨hfs, step, List.mem_cons_self, _, hs⟩
    · have hfs₁ := hkeeps step List.mem_cons_self fs fs₁ hfs hs
      obtain ⟨hend, s, hmem, fs₂, happly⟩ :=
        ih (fun s hs => hkeeps s (List.mem_cons_of_mem step hs)) fs₁ hfs₁ hrest
      exact ⟨hend, s, List.mem_cons_of_mem step hmem, fs₂, happly⟩

theorem unlessFaulty_eq_error (faults : SaveFaults) (call : SaveCall)
    (r : Except OsFault FileSystem) (f : OsFault)
    (h : SaveStep.unlessFaulty faults call r = .error f) :
    (call, f) ∈ faults ∨ r = .error f := by
  unfold SaveStep.unlessFaulty at h
  split at h
  · rename_i g hg
    cases h
    exact .inl (mem_of_lookup _ _ _ hg)
  · exact .inr h

theorem apply_error (faults : SaveFaults) (fs : FileSystem) (s : SaveStep) (f : OsFault)
    (h : s.apply faults fs = .error f) :
    (∃ call, (call, f) ∈ faults) ∨
      (∃ dir, s = .makeDirectories dir ∧ fs.makeDirectories dir = .error f) ∨
      ∃ temp path, s = .rename temp path ∧ fs.rename temp path = .error f := by
  cases s with
  | makeDirectories dir =>
    rcases unlessFaulty_eq_error _ _ _ _ h with hf | hmake
    · exact .inl ⟨_, hf⟩
    · exact .inr (.inl ⟨dir, rfl, hmake⟩)
  | rename temp path =>
    rcases unlessFaulty_eq_error _ _ _ _ h with hf | hrename
    · exact .inl ⟨_, hf⟩
    · exact .inr (.inr ⟨temp, path, rfl, hrename⟩)
  | create temp => exact .inl ⟨_, (unlessFaulty_eq_error _ _ _ _ h).resolve_right nofun⟩
  | write temp content => exact .inl ⟨_, (unlessFaulty_eq_error _ _ _ _ h).resolve_right nofun⟩
  | sync => exact .inl ⟨_, (unlessFaulty_eq_error _ _ _ _ h).resolve_right nofun⟩
  | setMode temp mode => exact .inl ⟨_, (unlessFaulty_eq_error _ _ _ _ h).resolve_right nofun⟩

/-- The steps before the renaming write the temporary file and make directories for it. -/
theorem apply_grown (faults : SaveFaults) (fs fs₁ fs₂ : FileSystem) (temp : Way) (path : String)
    (content : ByteArray) (hne : temp ≠ []) (s : SaveStep)
    (hs : s ∈ [.makeDirectories (directory path), .create temp, .write temp content, .sync,
      .setMode temp 0o644])
    (hg : Grown temp (directory path) fs fs₁) (h : s.apply faults fs₁ = .ok fs₂) :
    Grown temp (directory path) fs fs₂ := by
  refine hg.trans ?_
  simp only [List.mem_cons, List.not_mem_nil, or_false] at hs
  rcases hs with rfl | rfl | rfl | rfl | rfl
  · exact makeWay_grown [] (directory path) (unlessFaulty_eq_ok _ _ _ _ h)
  · rw [← Except.ok.inj (unlessFaulty_eq_ok _ _ _ _ h)]
    exact .set_file hne _ _
  · rw [← Except.ok.inj (unlessFaulty_eq_ok _ _ _ _ h)]
    exact .set_file hne _ _
  · rw [← Except.ok.inj (unlessFaulty_eq_ok _ _ _ _ h)]
    exact .refl fs₁
  · rw [← Except.ok.inj (unlessFaulty_eq_ok _ _ _ _ h)]
    split
    · exact .set_file hne _ _
    · exact .refl fs₁

theorem run_grown (faults : SaveFaults) (fs fs' : FileSystem) (path : String)
    (content : ByteArray) (f : OsFault) (h : run faults fs path content = (.error f, fs')) :
    Grown (tempWay fs (directory path)) (directory path) fs fs' ∧
      ∃ s ∈ steps (tempWay fs (directory path)) path content, ∃ fs₁,
        s.apply faults fs₁ = .error f := by
  have hne := tempWay_ne_nil fs (directory path)
  unfold run at h
  simp only at h
  generalize tempWay fs (directory path) = temp at h hne
  rcases hrun : runSteps faults fs (steps temp path content) with ⟨g | _, fs₁⟩
  · simp only [hrun] at h
    cases h
    obtain ⟨hg, hwhere⟩ := runSteps_error faults (Grown temp (directory path) fs)
      [.makeDirectories (directory path), .create temp, .write temp content, .sync,
        .setMode temp 0o644] (.rename temp path)
      (fun s hs fs₁ fs₂ hg h => apply_grown faults fs fs₁ fs₂ temp path content hne s hs hg h)
      fs fs₁ f (.refl fs) hrun
    refine ⟨?_, hwhere⟩
    unfold cleanUp
    split
    · exact hg
    · exact hg.trans (.erase hne)
  · simp only [hrun] at h
    cases h

/-- A save refuses its path only where a NUL cuts that off. -/
theorem run_null (faults : SaveFaults) (fs fs' : FileSystem) (path : String)
    (content : ByteArray)
    (h : run faults.ofCalls fs path content = (.error .embeddedNull, fs')) :
    '\u0000' ∈ path.toList := by
  have hcalls : ∀ call, (call, OsFault.embeddedNull) ∉ faults.ofCalls :=
    fun call hmem => by simpa using (List.mem_filter.mp hmem).2
  obtain ⟨-, s, hs, fs₁, happly⟩ := run_grown _ _ _ _ _ _ h
  simp only [steps, List.mem_cons, List.not_mem_nil, or_false] at hs
  rcases apply_error _ _ _ _ happly with ⟨call, hf⟩ | ⟨dir, rfl, hmake⟩ | ⟨temp, target, rfl, hrename⟩
  · exact absurd hf (hcalls call)
  · have hdir : dir = directory path := by simpa using hs
    obtain ⟨name, hname, hc⟩ := makeWay_null [] dir hmake
    rw [hdir] at hname
    exact Way.mem_ofPath path name ((List.dropLast_prefix _).subset hname) _ hc
  · have htarget : target = path := by
      simp only [reduceCtorEq, SaveStep.rename.injEq, false_or] at hs
      exact hs.2
    exact htarget ▸ rename_null temp target hrename

/-- A path that a file can have, in a file system as it is found: no NUL cuts it off, and the next
temporary file beside it has another name. -/
structure Placed (fs : FileSystem) (path : String) : Prop where
  rooted : fs.Rooted
  whole : '\u0000' ∉ path.toList
  apart : tempWay fs (directory path) ≠ Way.ofPath path

/-- A save that fails leaves its path with the bytes it had, or with none if it had none. -/
theorem run_kept (faults : SaveFaults) (fs fs' : FileSystem) (path : String)
    (content : ByteArray) (f : OsFault) (hp : Placed fs path)
    (h : run faults fs path content = (.error f, fs')) : fs'.bytes? path = fs.bytes? path := by
  obtain ⟨hg, -⟩ := run_grown faults fs fs' path content f h
  unfold FileSystem.bytes?
  rcases hold : fs.read path with g | old
  · rcases hnew : fs'.read path with g' | bytes
    · rfl
    · -- what reads afterwards has read before
      rw [hg.reads hp.rooted path rfl hp.apart bytes hnew] at hold
      cases hold
  · rw [(run_error faults fs fs' path content f (Seated.of_read hold) h).1, hold]

end Save

end LayerQuota
