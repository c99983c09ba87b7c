/-!
# Look-up by key

A value that is looked up stands in the table under its key. Taking a key out of a table leaves all
others. What is found from the back of a list is its last value, if it fits.
-/

namespace LayerQuota

theorem find?_reverse_snoc {α : Type} (p : α → Bool) (t : List α) (a : α) :
    (t ++ [a]).reverse.find? p = if p a = true then some a else t.reverse.find? p := by
  rw [List.reverse_concat, List.find?_cons]
  cases p a with
  | false => rfl
  | true => rfl

variable {α β : Type} [BEq α] [LawfulBEq α] (k l : α) (v : β) (t : List (α × β))

theorem mem_of_lookup (h : t.lookup k = some v) : (k, v) ∈ t := by
  obtain ⟨t₁, t₂, hsplit, -⟩ := List.lookup_eq_some_iff.mp h
  rw [hsplit]
  exact List.mem_append_right t₁ List.mem_cons_self

theorem lookup_of_mem (hn : (t.map (·.1)).Nodup) (h : (k, v) ∈ t) : t.lookup k = some v := by
  induction t with
  | nil => exact absurd h List.not_mem_nil
  | cons p t ih =>
    obtain ⟨hp, ht⟩ := List.nodup_cons.mp hn
    rcases List.mem_cons.mp h with rfl | h
    · exact List.lookup_cons_self
    · have hk : (k == p.1) = false := by
        refine beq_eq_false_iff_ne.mpr ?_
        rintro rfl
        exact hp (List.mem_map.mpr ⟨_, h, rfl⟩)
      rw [List.lookup_cons, hk]
      exact ih ht h

theorem lookup_filter_self : (t.filter (·.1 != k)).lookup k = none := by
  rw [List.lookup_eq_none_iff]
  intro p hp
  have hk : p.1 ≠ k := by simpa using (List.mem_filter.mp hp).2
  exact bne_iff_ne.mpr hk.symm

theorem lookup_filter_other (h : l ≠ k) : (t.filter (·.1 != k)).lookup l = t.lookup l := by
  induction t with
  | nil => rfl
  | cons p t ih =>
    obtain ⟨m, w⟩ := p
    by_cases hm : m = k
    · subst hm
      have hlm : (l == m) = false := beq_eq_false_iff_ne.mpr h
      simp [List.lookup_cons, hlm, ih]
    · simp [List.lookup_cons, hm, ih]

end LayerQuota
