import LayerQuota.Proofs.FileSystem
import LayerQuota.State.Save
import Mathlib.Data.List.Nodup
/-!
# A file is replaced or kept

A save that succeeds leaves the new content at the path. One that fails leaves the old content
there, since every step before the renaming touches only the temporary file, and no name stood for
that before.
-/

namespace LayerQuota.Save

open LayerQuota.FileSystem

/-! ### The temporary file -/

theorem tempName_inj (m n : Nat) (h : tempName m = tempName n) : m = n := by
  have hl := congrArg String.toList h
  simp only [tempName, String.toList_append, toString, Nat.toList_repr] at hl
  have hd := List.append_cancel_left (List.append_cancel_right hl)
  have hv := congrArg (fun ds => Nat.ofDigitChars 10 ds 0) hd
  simpa only [Nat.ofDigitChars_ten_toDigits] using hv

/-- The number that is found is free, or all that were tried are taken. -/
theorem freeNumber_outcome (fs : FileSystem) (dir : Way) (fuel n : Nat) :
    fs.get? (dir ++ [tempName (freeNumber fs dir fuel n)]) = none ∨
      ∀ i, n ≤ i → i < n + fuel → (fs.get? (dir ++ [tempName i])).isSome = true := by
  induction fuel generalizing n with
  | zero => exact .inr fun i hn hi => absurd hi (Nat.not_lt.mpr hn)
  | succ fuel ih =>
    unfold freeNumber
    split
    · rename_i htaken
      rcases ih (n + 1) with hfree | hall
      · exact .inl hfree
      · refine .inr fun i hn hi => ?_
        rcases Nat.eq_or_lt_of_le hn with rfl | hlt
        · exact htaken
        · exact hall i hlt (by omega)
    · rename_i hfree
      exact .inl (Option.not_isSome_iff_eq_none.mp hfree)

/-- There are more numbers than there are names that are taken. -/
theorem tempWay_free (fs : FileSystem) (dir : Way) : fs.get? (tempWay fs dir) = none := by
  rcases freeNumber_outcome fs dir (fs.nodes.length + 1) 0 with hfree | hall
  · exact hfree
  · exfalso
    have hnodup : ((List.range (fs.nodes.length + 1)).map fun i => dir ++ [tempName i]).Nodup := by
      refine (List.nodup_range).map fun i j hij => tempName_inj i j ?_
      exact List.singleton_inj.mp (List.append_cancel_left hij)
    have hsub : ((List.range (fs.nodes.length + 1)).map fun i => dir ++ [tempName i]) ⊆
        fs.nodes.map Prod.fst := by
      intro way hway
      obtain ⟨i, hi, rfl⟩ := List.mem_map.mp hway
      have hsome := hall i (Nat.zero_le i) (by simpa using hi)
      unfold FileSystem.get? at hsome
      rw [if_neg (by simp)] at hsome
      obtain ⟨n, hn⟩ := Option.isSome_iff_exists.mp hsome
      exact List.mem_map.mpr ⟨_, mem_of_lookup _ n fs.nodes hn, rfl⟩
    have hlen := hnodup.length_le_of_subset hsub
    simp only [List.length_map, List.length_range] at hlen
    omega

theorem tempWay_ne_nil (fs : FileSystem) (dir : Way) : tempWay fs dir ≠ [] := by
  simp [tempWay]

/-! ### Success -/

theorem runSteps_cons_ok (faults : SaveFaults) (fs fs' : FileSystem) (step : SaveStep)
    (rest : List SaveStep) (h : runSteps faults fs (step :: rest) = (.ok (), fs')) :
    ∃ fs₁, step.apply faults fs = .ok fs₁ ∧ runSteps faults fs₁ rest = (.ok (), fs') := by
  unfold runSteps at h
  rcases hs : step.apply faults fs with f | fs₁
  · simp [hs] at h
  · exact ⟨fs₁, rfl, by simpa [hs] using h⟩

theorem unlessFaulty_eq_ok (faults : SaveFaults) (call : SaveCall) (r : Except OsFault FileSystem)
    (fs : FileSystem) (h : SaveStep.unlessFaulty faults call r = .ok fs) : r = .ok fs := by
  unfold SaveStep.unlessFaulty at h
  split at h
  · cases h
  · exact h

theorem read_of_run_ok (faults : SaveFaults) (fs fs' : FileSystem) (path : String)
    (content : ByteArray) (h : run faults fs path content = (.ok (), fs')) :
    fs'.read path = .ok content := by
  have hne := tempWay_ne_nil fs (directory path)
  unfold run at h
  simp only at h
  generalize tempWay fs (directory path) = temp at h hne
  rcases hrun : runSteps faults fs (steps temp path content) with ⟨f | _, fs₇⟩
  · simp [hrun] at h
  · have heq : fs₇ = fs' := by simpa [hrun] using h
    subst heq
    obtain ⟨fs₁, -, hrun⟩ := runSteps_cons_ok _ _ _ _ _ hrun
    obtain ⟨fs₂, -, hrun⟩ := runSteps_cons_ok _ _ _ _ _ hrun
    obtain ⟨fs₃, hwrite, hrun⟩ := runSteps_cons_ok _ _ _ _ _ hrun
    obtain ⟨fs₄, hsync, hrun⟩ := runSteps_cons_ok _ _ _ _ _ hrun
    obtain ⟨fs₅, hmode, hrun⟩ := runSteps_cons_ok _ _ _ _ _ hrun
    obtain ⟨fs₆, hrename, hrun⟩ := runSteps_cons_ok _ _ _ _ _ hrun
    have heq : fs₆ = fs₇ := (Prod.mk.inj hrun).2
    subst heq
    have h₃ : fs₃.get? temp = some (.file content 0o600) := by
      rw [← Except.ok.inj (unlessFaulty_eq_ok _ _ _ _ hwrite)]
      exact get?_set_self temp _ hne
    have h₄ : fs₄.get? temp = some (.file content 0o600) := by
      rw [← Except.ok.inj (unlessFaulty_eq_ok _ _ _ _ hsync)]
      exact h₃
    have h₅ : fs₅.get? temp = some (.file content 0o644) := by
      have hok := Except.ok.inj (unlessFaulty_eq_ok _ _ _ _ hmode)
      simp only [h₄] at hok
      rw [← hok]
      exact get?_set_self temp _ hne
    obtain ⟨dir, name, n, hn, hleads, hplace, rfl⟩ :=
      rename_eq_ok temp path (unlessFaulty_eq_ok _ _ _ _ hrename)
    rw [h₅] at hn
    cases hn
    have hopens : Opens fs₅ ((fs₅.erase temp).set (dir ++ [name]) (.file content 0o644)) := by
      intro w hw
      have hwp : w ≠ dir ++ [name] := by
        rintro rfl
        rw [hplace] at hw
        cases hw
      have hwt : w ≠ temp := by
        rintro rfl
        rw [isDirectory_iff, h₅] at hw
        cases hw
      rw [isDirectory_iff] at hw ⊢
      rw [get?_set_other _ w _ hwp, get?_erase_other temp w hwt]
      exact hw
    exact (hleads.opens hopens).read content 0o644 (get?_set_self _ _ (by simp))

/-! ### Failure -/

/-- A path in a directory that is there, under another name than the next temporary file. A file
need not stand at its end. -/
def Seated (fs : FileSystem) (path : String) : Prop :=
  ∃ dir name, Leads fs path dir name ∧ tempWay fs dir ≠ dir ++ [name]

theorem Seated.of_read {fs : FileSystem} {path : String} {old : ByteArray}
    (h : fs.read path = .ok old) : Seated fs path := by
  obtain ⟨dir, name, mode, hl, hold⟩ := leads_of_read path old h
  refine ⟨dir, name, hl, fun htemp => ?_⟩
  have hfree := tempWay_free fs dir
  rw [htemp, hold] at hfree
  cases hfree

/-- The steps of a save whose path leads to a place fail only where a call is made to fail, or where
the place is a directory. Nothing but the temporary file is touched until they succeed. -/
theorem runSteps_outcome (faults : SaveFaults) (fs : FileSystem) (path : String) (dir : Way)
    (name : String) (content : ByteArray) (hl : Leads fs path dir name) (temp : Way)
    (hne : temp ≠ []) (hfree : fs.get? temp = none) (hplace : temp ≠ dir ++ [name]) :
    (∃ fs', runSteps faults fs (steps temp path content) = (.ok (), fs')) ∨
      ∃ f fs', runSteps faults fs (steps temp path content) = (.error f, fs') ∧
        ((∃ call, (call, f) ∈ faults) ∨
          (fs.isDirectory (dir ++ [name]) = true ∧ ∃ names, f = .isDirectory names)) ∧
        ∀ w, w ≠ temp → fs'.get? w = fs.get? w := by
  have hdir : directory path = dir := by
    unfold directory
    rw [hl.ofPath, List.dropLast_concat]
  have h₂ := (Extends.refl fs).set temp (.file .empty 0o600) hfree
  have h₃ := h₂.set temp (.file content 0o600) hfree
  have h₅ := h₃.set temp (.file content 0o644) hfree
  have ho₂ : ∀ w, w ≠ temp → (fs.set temp (.file .empty 0o600)).get? w = fs.get? w :=
    fun w hw => get?_set_other temp w _ hw
  have ho₃ : ∀ w, w ≠ temp →
      ((fs.set temp (.file .empty 0o600)).set temp (.file content 0o600)).get? w = fs.get? w :=
    fun w hw => (get?_set_other temp w _ hw).trans (ho₂ w hw)
  have ho₅ : ∀ w, w ≠ temp → (((fs.set temp (.file .empty 0o600)).set temp
      (.file content 0o600)).set temp (.file content 0o644)).get? w = fs.get? w :=
    fun w hw => (get?_set_other temp w _ hw).trans (ho₃ w hw)
  have hget₃ : ((fs.set temp (.file .empty 0o600)).set temp (.file content 0o600)).get? temp =
      some (.file content 0o600) := get?_set_self temp _ hne
  have hget₅ : (((fs.set temp (.file .empty 0o600)).set temp (.file content 0o600)).set temp
      (.file content 0o644)).get? temp = some (.file content 0o644) := get?_set_self temp _ hne
  have hrename := (hl.opens h₅.opens).rename temp _ hget₅
  have hsame : (((fs.set temp (.file .empty 0o600)).set temp (.file content 0o600)).set temp
      (.file content 0o644)).isDirectory (dir ++ [name]) = fs.isDirectory (dir ++ [name]) := by
    unfold isDirectory
    rw [ho₅ _ hplace.symm]
  rw [hsame] at hrename
  unfold steps
  rw [hdir]
  simp only [runSteps, SaveStep.apply, SaveStep.unlessFaulty, hl.makeDirectories]
  cases hm : faults.lookup .makeDirectories with
  | some f => exact .inr ⟨f, _, rfl, .inl ⟨_, mem_of_lookup _ _ _ hm⟩, fun _ _ => rfl⟩
  | none =>
    simp only
    cases hc : faults.lookup .create with
    | some f => exact .inr ⟨f, _, rfl, .inl ⟨_, mem_of_lookup _ _ _ hc⟩, fun _ _ => rfl⟩
    | none =>
      simp only
      cases hw : faults.lookup .write with
      | some f => exact .inr ⟨f, _, rfl, .inl ⟨_, mem_of_lookup _ _ _ hw⟩, ho₂⟩
      | none =>
        simp only
        cases hs : faults.lookup .sync with
        | some f => exact .inr ⟨f, _, rfl, .inl ⟨_, mem_of_lookup _ _ _ hs⟩, ho₃⟩
        | none =>
          simp only [hget₃]
          cases hp : faults.lookup .setMode with
          | some f => exact .inr ⟨f, _, rfl, .inl ⟨_, mem_of_lookup _ _ _ hp⟩, ho₃⟩
          | none =>
            simp only [hrename]
            cases hr : faults.lookup .rename with
            | some f => exact .inr ⟨f, _, rfl, .inl ⟨_, mem_of_lookup _ _ _ hr⟩, ho₅⟩
            | none =>
              cases hd : fs.isDirectory (dir ++ [name]) with
              | true => exact .inr ⟨_, _, rfl, .inr ⟨rfl, _, rfl⟩, ho₅⟩
              | false => exact .inl ⟨_, rfl⟩

/-- A save that fails leaves its path reading as before. It fails as one of its calls was made to,
or because a directory stands where the file should. -/
theorem run_error (faults : SaveFaults) (fs fs' : FileSystem) (path : String)
    (content : ByteArray) (f : OsFault) (hs : Seated fs path)
    (h : run faults fs path content = (.error f, fs')) :
    fs'.read path = fs.read path ∧
      ((∃ call, (call, f) ∈ faults) ∨
        (fs.read path = .error (.isDirectory [path]) ∧ ∃ names, f = .isDirectory names)) := by
  obtain ⟨dir, name, hl, hplace⟩ := hs
  have hdir : directory path = dir := by
    unfold directory
    rw [hl.ofPath, List.dropLast_concat]
  have hfree := tempWay_free fs dir
  have hne := tempWay_ne_nil fs dir
  unfold run at h
  simp only [hdir] at h
  generalize tempWay fs dir = temp at h hfree hne hplace
  rcases runSteps_outcome faults fs path dir name content hl temp hne hfree hplace with
    ⟨fs₁, hok⟩ | ⟨g, fs₁, herr, hwhy, hsame⟩
  · simp [hok] at h
  · simp only [herr] at h
    cases h
    have hclean : ∀ w, w ≠ temp → (cleanUp faults fs₁ temp).get? w = fs.get? w := by
      intro w hw
      unfold cleanUp
      split
      · exact hsame w hw
      · exact (get?_erase_other temp w hw).trans (hsame w hw)
    have hopens : Opens fs (cleanUp faults fs₁ temp) := by
      intro w hw
      have hwt : w ≠ temp := by
        rintro rfl
        rw [isDirectory_iff, hfree] at hw
        cases hw
      rw [isDirectory_iff] at hw ⊢
      rw [hclean w hwt, hw]
    refine ⟨hl.read_congr (hl.opens hopens) (hclean _ hplace.symm), hwhy.imp_right ?_⟩
    exact fun hd => ⟨hl.read_directory hd.1, hd.2⟩

/-- Of a file that can be read, a save leaves the new content, or, if one of its calls fails, the
old. -/
theorem run_outcome (faults : SaveFaults) (fs : FileSystem) (path : String)
    (content old : ByteArray) (hread : fs.read path = .ok old) :
    (∃ fs', run faults fs path content = (.ok (), fs') ∧ fs'.read path = .ok content) ∨
      ∃ call f fs', (call, f) ∈ faults ∧ run faults fs path content = (.error f, fs') ∧
        fs'.read path = .ok old := by
  rcases hrun : run faults fs path content with ⟨f | _, fs'⟩
  · obtain ⟨hsame, ⟨call, hf⟩ | ⟨hd, -⟩⟩ :=
      run_error faults fs fs' path content f (Seated.of_read hread) hrun
    · exact .inr ⟨call, f, fs', hf, rfl, hsame.trans hread⟩
    · rw [hread] at hd
      cases hd
  · exact .inl ⟨fs', rfl, read_of_run_ok faults fs fs' path content hrun⟩

end LayerQuota.Save
