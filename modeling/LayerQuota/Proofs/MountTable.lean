import LayerQuota.MountTable
import LayerQuota.Proofs.Json.Value
/-!
# The mount of a path

The mount that is found for a path has the longest mount point above it, and is the first of those
that are equally long; none is found only where no mount point is above the path. A name that goes
on by other letters than a slash is no ancestor. Project quotas are enforced where that mount is of
type xfs and one of its options, as commas part them, turns them on.
-/

namespace LayerQuota.MountTable

/-! ### Ancestors -/

/-- The mount point is the path itself, or the path goes on behind it with a slash, or behind the
slash in which the mount point ends. -/
def Above (point path : String) : Prop :=
  path = point ∨ (∃ rest, path = point ++ "/" ++ rest) ∨
    ∃ dir rest, point = dir ++ "/" ∧ path = point ++ rest

theorem toList_prefix_iff (s t : String) : s.toList <+: t.toList ↔ ∃ rest, t = s ++ rest := by
  constructor
  · rintro ⟨cs, hcs⟩
    refine ⟨String.ofList cs, String.toList_inj.mp ?_⟩
    rw [String.toList_append, String.toList_ofList, hcs]
  · rintro ⟨rest, rfl⟩
    rw [String.toList_append]
    exact List.prefix_append s.toList rest.toList

theorem getLast?_slash_iff (s : String) :
    s.toList.getLast? = some '/' ↔ ∃ dir, s = dir ++ "/" := by
  constructor
  · intro h
    obtain ⟨cs, hcs⟩ := List.getLast?_eq_some_iff.mp h
    refine ⟨String.ofList cs, String.toList_inj.mp ?_⟩
    rw [String.toList_append, String.toList_ofList, hcs]
    rfl
  · rintro ⟨dir, rfl⟩
    rw [String.toList_append]
    exact List.getLast?_concat

theorem isAncestor_iff (point path : String) : isAncestor point path = true ↔ Above point path := by
  have hinside : (point.toList ++ ['/']) <+: path.toList ↔ ∃ rest, path = point ++ "/" ++ rest := by
    rw [← toList_prefix_iff, String.toList_append]
    rfl
  unfold isAncestor
  simp only [Bool.or_eq_true, beq_iff_eq, List.isPrefixOf_iff_prefix]
  split
  · rename_i hslash
    obtain ⟨dir, hdir⟩ := (getLast?_slash_iff point).mp hslash
    rw [toList_prefix_iff]
    constructor
    · rintro (heq | ⟨rest, hrest⟩)
      · exact .inl heq
      · exact .inr (.inr ⟨dir, rest, hdir, hrest⟩)
    · rintro (heq | ⟨rest, hrest⟩ | ⟨_, rest, -, hrest⟩)
      · exact .inl heq
      · exact .inr ⟨"/" ++ rest, hrest.trans (String.append_assoc ..)⟩
      · exact .inr ⟨rest, hrest⟩
  · rename_i hslash
    rw [hinside]
    constructor
    · rintro (heq | hrest)
      · exact .inl heq
      · exact .inr (.inl hrest)
    · rintro (heq | hrest | ⟨dir, _, hdir, -⟩)
      · exact .inl heq
      · exact .inr hrest
      · exact absurd ((getLast?_slash_iff point).mpr ⟨dir, hdir⟩) hslash

/-- A name that goes on by another character than a slash is beside the path, not above it. -/
theorem not_above_sibling (point rest : String) (c : Char) (hc : c ≠ '/')
    (hpoint : ∀ dir, point ≠ dir ++ "/") : ¬Above point (point ++ String.ofList [c] ++ rest) := by
  have hlist : ∀ tail : String, point ++ String.ofList [c] ++ rest = point ++ tail →
      c :: rest.toList = tail.toList := by
    intro tail h
    have hlists := congrArg String.toList h
    simp only [String.toList_append, String.toList_ofList, List.append_assoc] at hlists
    exact List.append_cancel_left hlists
  rintro (heq | ⟨tail, htail⟩ | ⟨dir, _, hdir, -⟩)
  · have hnil := hlist "" (heq.trans (String.append_empty).symm)
    cases hnil
  · have hcons := hlist ("/" ++ tail) (htail.trans (String.append_assoc ..))
    rw [String.toList_append] at hcons
    exact hc (List.cons.inj hcons).1
  · exact hpoint dir hdir

/-! ### The longest ancestor -/

/-- Of the mount points above a path, that of `p` is the longest, and `p` is the first in the table
with one that long. -/
def Longest (table : List Partition) (path : String) (p : Partition) : Prop :=
  ∃ before after, table = before ++ p :: after ∧ Above p.mountPoint path ∧
    (∀ q ∈ before, Above q.mountPoint path → q.mountPoint.length < p.mountPoint.length) ∧
    ∀ q ∈ after, Above q.mountPoint path → q.mountPoint.length ≤ p.mountPoint.length

namespace Longest

variable {table : List Partition} {path : String} {p q : Partition}

theorem above (h : Longest table path p) : Above p.mountPoint path := by
  obtain ⟨_, _, -, habove, -⟩ := h
  exact habove

theorem mem (h : Longest table path p) : p ∈ table := by
  obtain ⟨before, after, rfl, -⟩ := h
  exact List.mem_append_right before (List.mem_cons_self ..)

theorem length_le (h : Longest table path p) (hq : q ∈ table) (habove : Above q.mountPoint path) :
    q.mountPoint.length ≤ p.mountPoint.length := by
  obtain ⟨before, after, rfl, -, hbefore, hafter⟩ := h
  rcases List.mem_append.mp hq with hq | hq
  · exact Nat.le_of_lt (hbefore q hq habove)
  · rcases List.mem_cons.mp hq with rfl | hq
    · exact Nat.le_refl _
    · exact hafter q hq habove

/-- A partition that is no ancestor, or not a longer one, leaves the one found in its place. -/
theorem keep (h : Longest table path p)
    (hq : Above q.mountPoint path → q.mountPoint.length ≤ p.mountPoint.length) :
    Longest (table ++ [q]) path p := by
  obtain ⟨before, after, rfl, habove, hbefore, hafter⟩ := h
  refine ⟨before, after ++ [q], by simp, habove, hbefore, fun x hx => ?_⟩
  rcases List.mem_append.mp hx with hx | hx
  · exact hafter x hx
  · rw [List.mem_singleton.mp hx]
    exact hq

/-- A longer ancestor than all before it takes their place. -/
theorem replace (habove : Above q.mountPoint path)
    (h : ∀ x ∈ table, Above x.mountPoint path → x.mountPoint.length < q.mountPoint.length) :
    Longest (table ++ [q]) path q :=
  ⟨table, [], rfl, habove, h, fun _ hx => absurd hx List.not_mem_nil⟩

theorem unique (hp : Longest table path p) (hq : Longest table path q) : p = q := by
  obtain ⟨before, after, rfl, hpabove, hpbefore, hpafter⟩ := hp
  obtain ⟨before', after', heq, hqabove, hqbefore, hqafter⟩ := hq
  rcases List.append_eq_append_iff.mp heq with ⟨between, rfl, hrest⟩ | ⟨between, rfl, hrest⟩
  · cases between with
    | nil => exact (List.cons.inj hrest).1
    | cons x between =>
      -- `p` stands before `q`, and is shorter, and not shorter
      obtain ⟨rfl, rfl⟩ := List.cons.inj hrest
      have hlt := hqbefore p (by simp) hpabove
      have hle := hpafter q (by simp) hqabove
      omega
  · cases between with
    | nil => exact (List.cons.inj hrest).1.symm
    | cons x between =>
      obtain ⟨rfl, rfl⟩ := List.cons.inj hrest
      have hlt := hpbefore q (by simp) hqabove
      have hle := hqafter p (by simp) hpabove
      omega

end Longest

/-- What a search has found in the part of a table that it has seen. -/
def Chosen (seen : List Partition) (path : String) : Option Partition → Prop
  | none => ∀ p ∈ seen, ¬Above p.mountPoint path
  | some p => Longest seen path p

theorem search_chosen (path : String) (seen rest : List Partition) (best : Option Partition)
    (h : Chosen seen path best) : Chosen (seen ++ rest) path (search path best rest) := by
  induction rest generalizing seen best with
  | nil =>
    rw [List.append_nil]
    exact h
  | cons p rest ih =>
    rw [List.append_cons]
    unfold search
    split
    · rename_i hp
      have habove := (isAncestor_iff _ _).mp hp
      cases best with
      | none => exact ih _ _ (Longest.replace habove fun x hx hxa => absurd hxa (h x hx))
      | some b =>
        have hb : Longest seen path b := h
        simp only
        split
        · rename_i hlt
          refine ih _ _ (Longest.replace habove fun x hx hxa => ?_)
          have hle := hb.length_le hx hxa
          omega
        · rename_i hle
          exact ih _ _ (hb.keep fun _ => Nat.le_of_not_lt hle)
    · rename_i hp
      have habove : ¬Above p.mountPoint path := fun ha => hp ((isAncestor_iff _ _).mpr ha)
      cases best with
      | none =>
        refine ih _ _ fun x hx => ?_
        rcases List.mem_append.mp hx with hx | hx
        · exact h x hx
        · rw [List.mem_singleton.mp hx]
          exact habove
      | some b =>
        have hb : Longest seen path b := h
        exact ih _ _ (hb.keep fun ha => absurd ha habove)

theorem find?_chosen (table : List Partition) (path : String) :
    Chosen table path (find? table path) :=
  search_chosen path [] table none fun _ hp => absurd hp List.not_mem_nil

theorem find?_eq_some_iff (table : List Partition) (path : String) (p : Partition) :
    find? table path = some p ↔ Longest table path p := by
  have hchosen := find?_chosen table path
  constructor
  · intro h
    rw [h] at hchosen
    exact hchosen
  · intro hp
    cases h : find? table path with
    | none =>
      rw [h] at hchosen
      exact absurd hp.above (hchosen p hp.mem)
    | some q =>
      rw [h] at hchosen
      rw [Longest.unique hchosen hp]

theorem find?_eq_none_iff (table : List Partition) (path : String) :
    find? table path = none ↔ ∀ p ∈ table, ¬Above p.mountPoint path := by
  have hchosen := find?_chosen table path
  constructor
  · intro h
    rw [h] at hchosen
    exact hchosen
  · intro hnone
    cases h : find? table path with
    | none => rfl
    | some q =>
      rw [h] at hchosen
      have hq : Longest table path q := hchosen
      exact absurd hq.above (hnone q hq.mem)

/-! ### Options -/

/-- A text is one of the elements that commas part in another. -/
def IsElement (part text : List Char) : Prop :=
  ∃ parts, [','].intercalate parts = text ∧ (∀ x ∈ parts, ',' ∉ x) ∧ part ∈ parts

theorem splitCommas_eq (cs : List Char) : splitCommas cs = cs.splitOn ',' := by
  induction cs with
  | nil => rfl
  | cons c cs ih =>
    rw [List.splitOn_cons_eq_if_modifyHead, ← ih]
    have hne : splitCommas cs ≠ [] := ih ▸ List.splitOn_ne_nil ',' cs
    by_cases hc : c = ','
    · subst hc
      rfl
    · obtain ⟨part, parts, hparts⟩ := List.exists_cons_of_ne_nil hne
      have hcomma : (c == ',') = false := beq_eq_false_iff_ne.mpr hc
      rw [splitCommas.eq_3 c cs hc, hparts, hcomma]
      rfl

theorem comma_not_mem_splitCommas (cs : List Char) : ∀ x ∈ splitCommas cs, ',' ∉ x := by
  fun_induction splitCommas cs with
  | case1 => simp
  | case2 rest ih => simpa using ih
  | case3 c rest hc hnil => simpa [eq_comm] using hc
  | case4 c rest hc part parts hparts ih =>
    rw [hparts] at ih
    obtain ⟨hpart, hrest⟩ := List.forall_mem_cons.mp ih
    refine List.forall_mem_cons.mpr ⟨fun hmem => ?_, hrest⟩
    rcases List.mem_cons.mp hmem with heq | hmem
    · exact hc heq.symm
    · exact hpart hmem

theorem mem_splitCommas_iff (part cs : List Char) : part ∈ splitCommas cs ↔ IsElement part cs := by
  constructor
  · intro h
    refine ⟨splitCommas cs, ?_, comma_not_mem_splitCommas cs, h⟩
    rw [splitCommas_eq, List.intercalate_splitOn]
  · rintro ⟨parts, rfl, hcomma, hmem⟩
    rw [splitCommas_eq, List.splitOn_intercalate ',' hcomma (List.ne_nil_of_mem hmem)]
    exact hmem

/-- The options that turn project quotas on, whole elements of the options of a mount. -/
theorem hasQuotaOption_iff (p : Partition) :
    hasQuotaOption p = true ↔
      ∃ o ∈ ["prjquota", "pquota", "pqnoenforce"], IsElement o.toList p.options.toList := by
  unfold hasQuotaOption quotaOptions
  rw [List.any_eq_true]
  simp only [List.contains_iff_mem, mem_splitCommas_iff]

/-! ### The check -/

theorem warning?_eq_none_iff (shown : String) (found : Option Partition) :
    warning? shown found = none ↔
      ∃ p, found = some p ∧ p.fsType = "xfs" ∧ hasQuotaOption p = true := by
  cases found with
  | none => exact iff_of_false nofun nofun
  | some p =>
    unfold warning?
    simp only
    split
    · rename_i htype
      refine iff_of_false nofun ?_
      rintro ⟨_, ⟨⟩, hxfs, -⟩
      exact htype hxfs
    · rename_i htype
      split
      · rename_i hoption
        exact iff_of_true rfl ⟨p, rfl, not_not.mp htype, hoption⟩
      · rename_i hoption
        refine iff_of_false nofun ?_
        rintro ⟨_, ⟨⟩, -, hquota⟩
        exact hoption hquota

theorem findLayer_ofPath (table : List Partition) (path : String) :
    findLayer table (Layer.ofPath path) = .ok (find? table path) := by
  unfold findLayer
  rw [Layer.ofPath, Json.text?_text]

/-- The mount that is found for a path is the first of the longest above it, and there is none if
and only if none is above it; project quotas count as enforced just where that mount is of type xfs
and has one of the three options as a whole element, and else a warning is given. So `/var/lib` is
not found for `/var/library`. -/
theorem longest_found_checked (table : List Partition) (path : String) :
    (find? table path = none ↔ ∀ p ∈ table, ¬Above p.mountPoint path) ∧
      (∀ p, find? table path = some p ↔ Longest table path p) ∧
      (∃ enforced lines, check table (Layer.ofPath path) = .ok (enforced, lines) ∧
        (enforced = true ↔ ∃ p, Longest table path p ∧ p.fsType = "xfs" ∧
          ∃ o ∈ ["prjquota", "pquota", "pqnoenforce"], IsElement o.toList p.options.toList) ∧
        (enforced = true → lines = []) ∧
        (enforced = false → ∃ m, lines = [⟨.warning, m⟩])) ∧
      ∀ p, find? table "/var/library" = some p → p.mountPoint ≠ "/var/lib" := by
  refine ⟨find?_eq_none_iff table path, find?_eq_some_iff table path, ?_, ?_⟩
  · have hwarning : warning? (Layer.label (Layer.ofPath path)) (find? table path) = none ↔
        ∃ p, Longest table path p ∧ p.fsType = "xfs" ∧
          ∃ o ∈ ["prjquota", "pquota", "pqnoenforce"], IsElement o.toList p.options.toList := by
      simp only [warning?_eq_none_iff, find?_eq_some_iff, hasQuotaOption_iff]
    unfold check
    rw [findLayer_ofPath]
    cases hw : warning? (Layer.label (Layer.ofPath path)) (find? table path) with
    | none =>
      have hquota := hwarning.mp hw
      refine ⟨true, [], ?_, iff_of_true rfl hquota, fun _ => rfl, nofun⟩
      simp only [Except.map, hw]
    | some m =>
      have hquota := mt hwarning.mpr (by simp [hw])
      refine ⟨false, [⟨.warning, m⟩], ?_, iff_of_false nofun hquota, nofun, fun _ => ⟨m, rfl⟩⟩
      simp only [Except.map, hw]
  · intro p hp hpoint
    have habove := ((find?_eq_some_iff table _ p).mp hp).above
    rw [hpoint] at habove
    refine not_above_sibling "/var/lib" "ary" 'r' (by decide) (fun dir hdir => ?_) habove
    exact absurd ((getLast?_slash_iff "/var/lib").mpr ⟨dir, hdir⟩) (by decide)

end LayerQuota.MountTable
