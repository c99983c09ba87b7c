import LayerQuota.FileSystem
import LayerQuota.Proofs.Lookup
/-!
# Where a path leads

A file that a path can read stands under a name in a directory that the path leads to. A path leads
there as long as directories stay directories, so neither a new file nor a new directory elsewhere
moves it.
-/

namespace LayerQuota.FileSystem

variable {fs fs' : FileSystem}

/-! ### Nodes -/

theorem get?_set_self (way : Way) (n : Node) (h : way ≠ []) : (fs.set way n).get? way = some n := by
  simp [get?, set, h]

theorem get?_set_other (way w : Way) (n : Node) (h : w ≠ way) :
    (fs.set way n).get? w = fs.get? w := by
  have hb : (w == way) = false := beq_eq_false_iff_ne.mpr h
  simp only [get?, set, List.lookup_cons, hb, lookup_filter_other way w fs.nodes h]

theorem get?_erase_other (way w : Way) (h : w ≠ way) : (fs.erase way).get? w = fs.get? w := by
  simp only [get?, erase, lookup_filter_other way w fs.nodes h]

theorem isDirectory_iff (way : Way) :
    fs.isDirectory way = true ↔ fs.get? way = some .directory := by
  unfold isDirectory
  rcases fs.get? way with - | - | - <;> simp

/-- All that stands in one file system stands in another, too. -/
def Extends (fs fs' : FileSystem) : Prop := ∀ w, (fs.get? w).isSome → fs'.get? w = fs.get? w

/-- All directories of one file system are directories of another, too. -/
def Opens (fs fs' : FileSystem) : Prop := ∀ w, fs.isDirectory w = true → fs'.isDirectory w = true

theorem Extends.set (he : Extends fs fs') (way : Way) (n : Node) (hfree : fs.get? way = none) :
    Extends fs (fs'.set way n) := by
  intro w hw
  have hne : w ≠ way := by
    rintro rfl
    rw [hfree] at hw
    cases hw
  rw [get?_set_other way w n hne]
  exact he w hw

theorem Extends.refl (fs : FileSystem) : Extends fs fs := fun _ _ => rfl

theorem Extends.opens (he : Extends fs fs') : Opens fs fs' := by
  intro w hw
  rw [isDirectory_iff] at hw ⊢
  rw [he w (by rw [hw]; rfl)]
  exact hw

/-! ### Following -/

/-- Can a part be followed from a way on? -/
def Passable (fs : FileSystem) (way : Way) (part : String) : Prop :=
  Way.stays part = true ∨ Way.goesUp part = true ∨
    (part.utf8ByteSize ≤ DeadEnd.nameLimit ∧ (fs.get? (way ++ [part])).isSome)

theorem follow_cons_eq_ok (way dir : Way) (x : String) (xs : List String) :
    fs.follow way (x :: xs) = .ok dir ↔
      fs.isDirectory way = true ∧ Passable fs way x ∧ fs.follow (way.step x) xs = .ok dir := by
  unfold Passable Way.step
  rw [follow]
  cases fs.isDirectory way with
  | false => simp
  | true =>
    cases hs : Way.stays x with
    | true => simp
    | false =>
      cases hu : Way.goesUp x with
      | true => simp
      | false =>
        by_cases hl : DeadEnd.nameLimit < x.utf8ByteSize
        · simp [hl, Nat.not_le.mpr hl]
        · rcases hg : fs.get? (way ++ [x]) with - | n
          · simp [hl]
          · simp [hl, Nat.not_lt.mp hl]

theorem follow_append (way : Way) (xs ys : List String) (dir : Way) :
    fs.follow way (xs ++ ys) = .ok dir ↔
      ∃ w, fs.follow way xs = .ok w ∧ fs.follow w ys = .ok dir := by
  induction xs generalizing way with
  | nil => simp [follow]
  | cons x xs ih =>
    simp only [List.cons_append, follow_cons_eq_ok, ih]
    constructor
    · rintro ⟨hw, hx, w, ha, hb⟩
      exact ⟨w, ⟨hw, hx, ha⟩, hb⟩
    · rintro ⟨w, ⟨hw, hx, ha⟩, hb⟩
      exact ⟨hw, hx, w, ha, hb⟩

/-- Where a path can be followed, it leads where its text says. -/
theorem follow_eq_foldl (way dir : Way) (xs : List String) (h : fs.follow way xs = .ok dir) :
    dir = xs.foldl Way.step way := by
  induction xs generalizing way with
  | nil => exact (Except.ok.inj h).symm
  | cons x xs ih => exact ih _ ((follow_cons_eq_ok way dir x xs).mp h).2.2

theorem isDirectory_of_follow (way dir : Way) (xs : List String) (h : fs.follow way xs = .ok dir)
    (hd : fs.isDirectory dir = true) : fs.isDirectory way = true := by
  cases xs with
  | nil =>
    cases h
    exact hd
  | cons x xs => exact ((follow_cons_eq_ok way dir x xs).mp h).1

theorem follow_opens (ho : Opens fs fs') (way dir : Way) (xs : List String)
    (h : fs.follow way xs = .ok dir) (hd : fs.isDirectory dir = true) :
    fs'.follow way xs = .ok dir := by
  induction xs generalizing way with
  | nil => exact h
  | cons x xs ih =>
    obtain ⟨hw, hx, hrest⟩ := (follow_cons_eq_ok way dir x xs).mp h
    refine (follow_cons_eq_ok way dir x xs).mpr ⟨ho way hw, ?_, ih _ hrest⟩
    rcases hx with hs | hu | ⟨hl, -⟩
    · exact .inl hs
    · exact .inr (.inl hu)
    · by_cases hs : Way.stays x = true
      · exact .inl hs
      · by_cases hu : Way.goesUp x = true
        · exact .inr (.inl hu)
        · -- the next name stands for a directory in both
          have hnext := ho _ (isDirectory_of_follow _ dir xs hrest hd)
          simp only [Way.step, hs, hu, Bool.false_eq_true, if_false] at hnext
          refine .inr (.inr ⟨hl, ?_⟩)
          rw [(isDirectory_iff _).mp hnext]
          rfl

/-- All ways above the end of a path that leads to a directory are directories. -/
theorem follow_above (way dir : Way) (xs : List String) (h : fs.follow way xs = .ok dir)
    (hd : fs.isDirectory dir = true)
    (habove : ∀ w, w <+: way → w ≠ way → fs.isDirectory w = true) :
    ∀ w, w <+: dir → fs.isDirectory w = true := by
  induction xs generalizing way with
  | nil =>
    have heq : way = dir := Except.ok.inj h
    subst heq
    intro w hw
    by_cases heq : w = way
    · exact heq ▸ hd
    · exact habove w hw heq
  | cons x xs ih =>
    obtain ⟨hway, -, hrest⟩ := (follow_cons_eq_ok way dir x xs).mp h
    have hall : ∀ w, w <+: way → fs.isDirectory w = true := by
      intro w hw
      by_cases heq : w = way
      · exact heq ▸ hway
      · exact habove w hw heq
    refine ih _ hrest fun w hw hne => hall w ?_
    unfold Way.step at hw hne
    split at hw
    · exact hw
    · split at hw
      · exact hw.trans (List.dropLast_prefix way)
      · rename_i hs hu
        rw [if_neg hs, if_neg hu] at hne
        rcases List.prefix_concat_iff.mp hw with heq | hpre
        · exact absurd heq hne
        · exact hpre

/-! ### Reading -/

structure Leads (fs : FileSystem) (path : String) (dir : Way) (name : String) : Prop where
  fits : DeadEnd.ofPath? path = none
  parts : ∃ init, Way.parts path = init ++ [name] ∧ fs.follow [] init = .ok dir
  directory : fs.isDirectory dir = true
  stands : Way.stays name = false
  down : Way.goesUp name = false
  short : name.utf8ByteSize ≤ DeadEnd.nameLimit

theorem down_of_file (init : List String) (dir : Way) (name : String) (content : ByteArray)
    (mode : Nat) (hinit : fs.follow [] init = .ok dir) (hd : fs.isDirectory dir = true)
    (hget : fs.get? (dir.step name) = some (.file content mode)) :
    Way.stays name = false ∧ Way.goesUp name = false := by
  have habove : ∀ w, w <+: dir → fs.isDirectory w = true :=
    follow_above [] dir init hinit hd fun w hw hne => absurd (List.prefix_nil.mp hw) hne
  have hfile : ∀ w, w <+: dir → fs.get? w ≠ some (.file content mode) := by
    intro w hw heq
    have hdir := (isDirectory_iff w).mp (habove w hw)
    rw [heq] at hdir
    cases hdir
  unfold Way.step at hget
  cases hs : Way.stays name with
  | true =>
    rw [if_pos hs] at hget
    exact absurd hget (hfile dir List.prefix_rfl)
  | false =>
    cases hu : Way.goesUp name with
    | true =>
      rw [if_neg (Bool.eq_false_iff.mp hs), if_pos hu] at hget
      exact absurd hget (hfile dir.dropLast (List.dropLast_prefix dir))
    | false => exact ⟨rfl, rfl⟩

theorem Leads.opens {path : String} {dir : Way} {name : String} (hl : Leads fs path dir name)
    (ho : Opens fs fs') : Leads fs' path dir name := by
  obtain ⟨init, hparts, hfollow⟩ := hl.parts
  exact ⟨hl.fits, ⟨init, hparts, follow_opens ho [] dir init hfollow hl.directory⟩,
    ho dir hl.directory, hl.stands, hl.down, hl.short⟩

theorem Leads.step {path : String} {dir : Way} {name : String} (hl : Leads fs path dir name) :
    Way.step dir name = dir ++ [name] := by
  simp [Way.step, hl.stands, hl.down]

theorem Leads.resolve {path : String} {dir : Way} {name : String} (hl : Leads fs path dir name)
    (h : (fs.get? (dir ++ [name])).isSome) : fs.resolve path = .ok (dir ++ [name]) := by
  obtain ⟨init, hparts, hfollow⟩ := hl.parts
  unfold FileSystem.resolve
  rw [hl.fits, hparts]
  refine (follow_append [] init [name] _).mpr ⟨dir, hfollow, ?_⟩
  refine (follow_cons_eq_ok dir _ name []).mpr ⟨hl.directory, ?_, by rw [hl.step]; rfl⟩
  exact .inr (.inr ⟨hl.short, h⟩)

theorem Leads.read {path : String} {dir : Way} {name : String} (hl : Leads fs path dir name)
    (content : ByteArray) (mode : Nat) (h : fs.get? (dir ++ [name]) = some (.file content mode)) :
    fs.read path = .ok content := by
  unfold FileSystem.read
  rw [hl.resolve (by rw [h]; rfl)]
  simp only [h]

theorem Leads.read_directory {path : String} {dir : Way} {name : String}
    (hl : Leads fs path dir name) (h : fs.isDirectory (dir ++ [name]) = true) :
    fs.read path = .error (.isDirectory [path]) := by
  rw [isDirectory_iff] at h
  unfold FileSystem.read
  rw [hl.resolve (by rw [h]; rfl)]
  simp only [h]

theorem follow_last_missing (way dir : Way) (init : List String) (name : String)
    (hinit : fs.follow way init = .ok dir) (hd : fs.isDirectory dir = true)
    (hs : Way.stays name = false) (hu : Way.goesUp name = false)
    (hshort : name.utf8ByteSize ≤ DeadEnd.nameLimit) (hget : fs.get? (dir ++ [name]) = none) :
    fs.follow way (init ++ [name]) = .error .missing := by
  induction init generalizing way with
  | nil =>
    cases hinit
    simp [follow, hd, hs, hu, hget, Nat.not_lt.mpr hshort]
  | cons x xs ih =>
    obtain ⟨hw, hx, hrest⟩ := (follow_cons_eq_ok way dir x xs).mp hinit
    have hend := ih _ hrest
    unfold Way.step at hend
    simp only [List.cons_append, follow, hw, Bool.not_true, Bool.false_eq_true, if_false]
    cases hsx : Way.stays x with
    | true => simpa [hsx] using hend
    | false =>
      cases hux : Way.goesUp x with
      | true => simpa [hsx, hux] using hend
      | false =>
        rcases hx with hx | hx | ⟨hl, hsome⟩
        · rw [hsx] at hx
          cases hx
        · rw [hux] at hx
          cases hx
        · have hpart : (fs.get? (way ++ [x])).isNone = false := by
            rw [Option.isNone_eq_false_iff]
            exact hsome
          simpa [hsx, hux, Nat.not_lt.mpr hl, hpart] using hend

theorem Leads.read_missing {path : String} {dir : Way} {name : String}
    (hl : Leads fs path dir name) (h : fs.get? (dir ++ [name]) = none) :
    fs.read path = .error (.noSuchFile [path]) := by
  obtain ⟨init, hparts, hfollow⟩ := hl.parts
  unfold FileSystem.read FileSystem.resolve
  rw [hl.fits, hparts]
  simp only [follow_last_missing [] dir init name hfollow hl.directory hl.stands hl.down hl.short h]
  rfl

/-- What a path reads is decided by what stands at its end. -/
theorem Leads.read_congr {path : String} {dir : Way} {name : String} (hl : Leads fs path dir name)
    (hl' : Leads fs' path dir name) (h : fs'.get? (dir ++ [name]) = fs.get? (dir ++ [name])) :
    fs'.read path = fs.read path := by
  rcases hget : fs.get? (dir ++ [name]) with - | - | ⟨content, mode⟩
  · rw [hl.read_missing hget, hl'.read_missing (h.trans hget)]
  · rw [hl.read_directory ((isDirectory_iff _).mpr hget),
      hl'.read_directory ((isDirectory_iff _).mpr (h.trans hget))]
  · rw [hl.read content mode hget, hl'.read content mode (h.trans hget)]

/-- A path that can be read leads to a name in a directory, and the file has that name. -/
theorem leads_of_read (path : String) (content : ByteArray) (h : fs.read path = .ok content) :
    ∃ dir name mode, Leads fs path dir name ∧
      fs.get? (dir ++ [name]) = some (.file content mode) := by
  unfold FileSystem.read resolve at h
  cases hfits : DeadEnd.ofPath? path with
  | some d => simp [hfits] at h
  | none =>
    simp only [hfits] at h
    rcases hway : fs.follow [] (Way.parts path) with d | way
    · simp [hway] at h
    · simp only [hway] at h
      split at h
      · rename_i c mode hget
        cases h
        rcases List.eq_nil_or_concat (Way.parts path) with hnil | ⟨init, name, hparts⟩
        · rw [hnil] at hway
          cases hway
          cases hget
        · rw [List.concat_eq_append] at hparts
          rw [hparts] at hway
          obtain ⟨dir, hinit, hlast⟩ := (follow_append [] init [name] way).mp hway
          obtain ⟨hd, hpass, hend⟩ := (follow_cons_eq_ok dir way name []).mp hlast
          have heq : dir.step name = way := Except.ok.inj hend
          subst heq
          obtain ⟨hs, hu⟩ := down_of_file init dir name content mode hinit hd hget
          have hshort : name.utf8ByteSize ≤ DeadEnd.nameLimit := by
            rcases hpass with hs' | hu' | ⟨hl, -⟩
            · rw [hs] at hs'
              cases hs'
            · rw [hu] at hu'
              cases hu'
            · exact hl
          have hleads : Leads fs path dir name := ⟨hfits, ⟨init, hparts, hinit⟩, hd, hs, hu, hshort⟩
          exact ⟨dir, name, mode, hleads, hleads.step ▸ hget⟩
      · cases h

/-! ### Making and renaming -/

theorem makeWay_of_directories (done rest : Way)
    (h : ∀ w, w <+: done ++ rest → fs.isDirectory w = true) : fs.makeWay done rest = .ok fs := by
  induction rest generalizing done with
  | nil => rfl
  | cons name rest ih =>
    have hsplit : done ++ name :: rest = (done ++ [name]) ++ rest := by simp
    rw [hsplit] at h
    have hdir := (isDirectory_iff _).mp (h (done ++ [name]) (List.prefix_append _ _))
    simp only [makeWay, hdir]
    exact ih (done ++ [name]) h

theorem Leads.makeDirectories {path : String} {dir : Way} {name : String}
    (hl : Leads fs path dir name) : fs.makeDirectories dir = .ok fs := by
  obtain ⟨init, -, hfollow⟩ := hl.parts
  exact makeWay_of_directories [] dir <|
    follow_above [] dir init hfollow hl.directory fun w hw hne =>
      absurd (List.prefix_nil.mp hw) hne

theorem Leads.ofPath {path : String} {dir : Way} {name : String} (hl : Leads fs path dir name) :
    Way.ofPath path = dir ++ [name] := by
  obtain ⟨init, hparts, hfollow⟩ := hl.parts
  rw [Way.ofPath, hparts, List.foldl_append, ← follow_eq_foldl [] dir init hfollow]
  exact hl.step

theorem follow_to_directory (way dir : Way) (xs : List String) :
    fs.follow way (xs ++ [""]) = .ok dir ↔
      fs.follow way xs = .ok dir ∧ fs.isDirectory dir = true := by
  have hstep : ∀ w : Way, w.step "" = w := fun _ => rfl
  simp only [follow_append, follow_cons_eq_ok, hstep]
  constructor
  · rintro ⟨w, hw, hdir, -, hend⟩
    have heq : w = dir := Except.ok.inj hend
    subst heq
    exact ⟨hw, hdir⟩
  · rintro ⟨hw, hdir⟩
    exact ⟨dir, hw, hdir, .inl rfl, rfl⟩

/-- A renaming that succeeds puts the node where the path leads. -/
theorem rename_eq_ok (source : Way) (path : String) (h : fs.rename source path = .ok fs') :
    ∃ dir name n, fs.get? source = some n ∧ Leads fs path dir name ∧
      fs.isDirectory (dir ++ [name]) = false ∧ fs' = (fs.erase source).set (dir ++ [name]) n := by
  unfold rename at h
  simp only at h
  split at h
  · cases h
  · cases h
  · cases h
  · rename_i n name above hfits hsource hdrop
    split at h
    · cases h
    · rename_i dir hfollow
      obtain ⟨hfollow, hdir⟩ := (follow_to_directory [] dir above.reverse).mp hfollow
      split at h
      · cases h
      · rename_i hname
        split at h
        · cases h
        · rename_i hshort
          split at h
          · cases h
          · rename_i hlast
            split at h
            · cases h
            · rename_i hplace
              cases h
              rw [Bool.or_eq_true, not_or, Bool.not_eq_true, Bool.not_eq_true] at hname
              have hparts : (Way.parts path).reverse = name :: above := by
                cases hb : (Way.parts path).reverse with
                | nil => simp [hb] at hdrop
                | cons last rest =>
                  rw [hb] at hlast hdrop
                  have hne : (last == "") = false := by simpa using hlast
                  simpa [List.dropWhile_cons, hne] using hdrop
              have hparts : Way.parts path = above.reverse ++ [name] := by
                rw [← List.reverse_reverse (Way.parts path), hparts, List.reverse_cons]
              exact ⟨dir, name, n, hsource,
                ⟨hfits, ⟨above.reverse, hparts, hfollow⟩, hdir, hname.1, hname.2,
                  Nat.not_lt.mp hshort⟩, by simpa using hplace, rfl⟩

theorem Leads.rename {path : String} {dir : Way} {name : String} (hl : Leads fs path dir name)
    (source : Way) (n : Node) (hs : fs.get? source = some n) :
    fs.rename source path =
      if fs.isDirectory (dir ++ [name]) then .error (.isDirectory [source.path, path])
      else .ok ((fs.erase source).set (dir ++ [name]) n) := by
  obtain ⟨init, hparts, hfollow⟩ := hl.parts
  have hne : (name == "") = false := by
    have hs := hl.stands
    rw [Way.stays, Bool.or_eq_false_iff] at hs
    exact hs.1
  have hback : (Way.parts path).reverse = name :: init.reverse := by
    rw [hparts, List.reverse_append]
    rfl
  have hdir : fs.follow [] (init.reverse.reverse ++ [""]) = .ok dir := by
    rw [List.reverse_reverse]
    exact (follow_to_directory [] dir init).mpr ⟨hfollow, hl.directory⟩
  have hdrop : (name :: init.reverse).dropWhile (· == "") = name :: init.reverse := by
    simp [hne]
  unfold FileSystem.rename
  simp only [hback, hl.fits, hs, hdrop, hdir, hl.stands, hl.down, Bool.or_self,
    Bool.false_eq_true, if_false, List.head?_cons, Option.some_beq_some, hne,
    Nat.not_lt.mpr hl.short]

end LayerQuota.FileSystem
