import LayerQuota.State.Entry
import Mathlib.Data.List.Nodup
/-!
# Look-up in tables

What putting an entry in and taking a container out do to look-ups, and to the project IDs of a
table.
-/

namespace LayerQuota.Table

def ids (t : Table) : List Int := t.map (·.projectId)

theorem ids_cons (e : Entry) (t : Table) : Table.ids (e :: t) = e.projectId :: t.ids := rfl

theorem get?_mem (t : Table) (c : String) (e : Entry) (h : t.get? c = some e) :
    e ∈ t ∧ e.container = c := by
  have hc := List.find?_some h
  exact ⟨List.mem_of_find?_eq_some h, by simpa using hc⟩

theorem get?_eq_none_iff (t : Table) (c : String) :
    t.get? c = none ↔ ∀ e ∈ t, e.container ≠ c := by
  simp [get?]

theorem put_absent (t : Table) (e : Entry) (h : t.get? e.container = none) :
    t.put e = t ++ [e] := by
  rw [get?_eq_none_iff] at h
  induction t with
  | nil => rfl
  | cons f t ih =>
    have hf : f.container ≠ e.container := h f List.mem_cons_self
    simp only [put, if_neg hf, List.cons_append]
    rw [ih fun x hx => h x (List.mem_cons_of_mem f hx)]

theorem mem_remove (t : Table) (c : String) (e : Entry) :
    e ∈ t.remove c ↔ e ∈ t ∧ e.container ≠ c := by
  simp [remove]

theorem remove_absent (t : Table) (c : String) (h : t.get? c = none) : t.remove c = t := by
  rw [get?_eq_none_iff] at h
  refine List.filter_eq_self.mpr fun e he => ?_
  simpa using h e he

theorem get?_put_self (t : Table) (e : Entry) : (t.put e).get? e.container = some e := by
  induction t with
  | nil => simp [put, get?]
  | cons f t ih =>
    by_cases hf : f.container = e.container
    · simp [put, hf, get?]
    · simp only [put, if_neg hf]
      simpa [get?, hf] using ih

theorem get?_put_other (t : Table) (e : Entry) (c : String) (hc : c ≠ e.container) :
    (t.put e).get? c = t.get? c := by
  induction t with
  | nil => simp [put, get?, hc.symm]
  | cons f t ih =>
    by_cases hf : f.container = e.container
    · simp [put, hf, get?, hc.symm]
    · simp only [put, if_neg hf]
      by_cases hfc : f.container = c
      · simp [get?, hfc]
      · simpa [get?, hfc] using ih

theorem mem_put (t : Table) (e x : Entry) (hx : x ∈ t.put e) : x ∈ t ∨ x = e := by
  induction t with
  | nil => exact .inr (List.mem_singleton.mp hx)
  | cons f t ih =>
    by_cases hf : f.container = e.container
    · simp only [put, if_pos hf] at hx
      rcases List.mem_cons.mp hx with rfl | hx
      · exact .inr rfl
      · exact .inl (List.mem_cons_of_mem f hx)
    · simp only [put, if_neg hf] at hx
      rcases List.mem_cons.mp hx with rfl | hx
      · exact .inl List.mem_cons_self
      · exact (ih hx).imp (List.mem_cons_of_mem f) id

theorem get?_remove_self (t : Table) (c : String) : (t.remove c).get? c = none := by
  rw [get?_eq_none_iff]
  exact fun e he => ((mem_remove t c e).mp he).2

theorem get?_remove_other (t : Table) (b c : String) (hc : c ≠ b) :
    (t.remove b).get? c = t.get? c := by
  simp only [get?, remove, List.find?_filter]
  congr 1
  funext e
  by_cases he : e.container = c
  · simp [he, hc]
  · simp [he]

/-- Taking a container out and putting its entry back at the end changes no look-up. -/
theorem get?_remove_append (t : Table) (b c : String) (e : Entry) (h : t.get? b = some e) :
    Table.get? (t.remove b ++ [e]) c = t.get? c := by
  have he := (get?_mem t b e h).2
  have hsplit : Table.get? (t.remove b ++ [e]) c = ((t.remove b).get? c).or (Table.get? [e] c) :=
    List.find?_append
  by_cases hc : c = b
  · subst hc
    rw [hsplit, get?_remove_self, h]
    simp [get?, he]
  · rw [hsplit, get?_remove_other t b c hc]
    have hn : Table.get? [e] c = none := by simp [get?, he, Ne.symm hc]
    rw [hn, Option.or_none]

/-! ### Tables without a repeated container -/

def containers (t : Table) : List String := t.map (·.container)

theorem get?_of_mem (t : Table) (hn : t.containers.Nodup) (e : Entry) (h : e ∈ t) :
    t.get? e.container = some e := by
  cases he : t.get? e.container with
  | none => exact absurd rfl ((get?_eq_none_iff t e.container).mp he e h)
  | some f =>
    obtain ⟨hf, hc⟩ := get?_mem t e.container f he
    exact congrArg some (List.inj_on_of_nodup_map hn hf h hc)

theorem get?_perm (t u : Table) (hn : t.containers.Nodup) (h : t.Perm u) (c : String) :
    t.get? c = u.get? c := by
  cases ht : t.get? c with
  | none =>
    rw [get?_eq_none_iff] at ht
    exact ((get?_eq_none_iff u c).mpr fun e he => ht e (h.mem_iff.mpr he)).symm
  | some e =>
    obtain ⟨he, rfl⟩ := get?_mem t c e ht
    exact (get?_of_mem u ((h.map _).nodup_iff.mp hn) e (h.mem_iff.mp he)).symm

/-- The order of the containers settles the order of the entries. -/
theorem eq_of_containers (t u : Table) (hn : t.containers.Nodup)
    (h : u.containers = t.containers) (hsub : ∀ e ∈ u, e ∈ t) : u = t := by
  have hlen : u.length = t.length := by simpa [containers] using congrArg List.length h
  refine List.ext_getElem hlen fun i hu ht => ?_
  have hi : u[i].container = t[i].container := by
    simpa [containers] using (List.ext_getElem_iff.mp h).2 i (by simpa [containers] using hu)
      (by simpa [containers] using ht)
  exact List.inj_on_of_nodup_map hn (hsub _ (List.getElem_mem hu)) (List.getElem_mem ht) hi

/-- An entry that is taken out and put back only changes its place. -/
theorem remove_append_perm (t : Table) (hn : t.containers.Nodup) (c : String) (e : Entry)
    (h : t.get? c = some e) : (t.remove c ++ [e]).Perm t := by
  induction t with
  | nil => cases h
  | cons f t ih =>
    obtain ⟨hf, ht⟩ := List.nodup_cons.mp hn
    by_cases hc : f.container = c
    · have hfe : f = e := by simpa [get?, hc] using h
      have hrest : Table.remove (f :: t) c = t := by
        unfold remove
        rw [List.filter_cons_of_neg (by simp [hc]), List.filter_eq_self]
        intro x hx
        have hne : x.container ≠ c := fun heq => hf (List.mem_map.mpr ⟨x, hx, heq.trans hc.symm⟩)
        simpa using hne
      rw [hrest, hfe]
      exact List.perm_append_singleton e t
    · have hget : Table.get? t c = some e := by simpa [get?, hc] using h
      have hrest : Table.remove (f :: t) c = f :: Table.remove t c :=
        List.filter_cons_of_pos (by simp [hc])
      rw [hrest, List.cons_append]
      exact (ih ht hget).cons f

theorem containers_append_nodup (t : Table) (hn : t.containers.Nodup) (e : Entry)
    (h : t.get? e.container = none) : (Table.containers (t ++ [e])).Nodup := by
  have happ : Table.containers (t ++ [e]) = t.containers ++ [e.container] := List.map_append
  rw [happ, List.nodup_append]
  refine ⟨hn, List.nodup_singleton _, ?_⟩
  intro a ha b hb heq
  obtain ⟨x, hx, rfl⟩ := List.mem_map.mp ha
  exact (get?_eq_none_iff t e.container).mp h x hx (heq.trans (List.mem_singleton.mp hb))

theorem mem_containers (t : Table) (c : String) : c ∈ t.containers ↔ t.get? c ≠ none := by
  rw [Ne, get?_eq_none_iff]
  push Not
  exact List.mem_map

/-- An entry takes the place of the one that its container has. -/
theorem containers_put (t : Table) (e : Entry) (h : t.get? e.container ≠ none) :
    (t.put e).containers = t.containers := by
  induction t with
  | nil => exact absurd rfl h
  | cons f t ih =>
    by_cases hf : f.container = e.container
    · simp [put, hf, containers]
    · have ht : Table.get? t e.container ≠ none := by simpa [get?, hf] using h
      simp only [put, if_neg hf]
      exact congrArg (f.container :: ·) (ih ht)

theorem mem_containers_append (t : Table) (e : Entry) (c : String) :
    c ∈ Table.containers (t ++ [e]) ↔ c ∈ t.containers ∨ c = e.container := by
  simp only [containers, List.map_append, List.map_cons, List.map_nil, List.mem_append,
    List.mem_singleton]

theorem mem_containers_remove (t : Table) (b c : String) :
    c ∈ (t.remove b).containers ↔ c ∈ t.containers ∧ c ≠ b := by
  by_cases hc : c = b
  · subst hc
    simp only [mem_containers, get?_remove_self, ne_eq, not_true_eq_false, and_false]
  · rw [mem_containers, mem_containers, get?_remove_other t b c hc]
    exact (and_iff_left hc).symm

/-! ### The other containers -/

/-- Two tables have the same entries for all containers but one. -/
structure SameBut (c : String) (t t' : Table) : Prop where
  mem : ∀ x : Entry, x.container ≠ c → (x ∈ t' ↔ x ∈ t)
  get : ∀ b, b ≠ c → t'.get? b = t.get? b

theorem SameBut.refl (c : String) (t : Table) : SameBut c t t :=
  ⟨fun _ _ => Iff.rfl, fun _ _ => rfl⟩

theorem SameBut.trans {c : String} {t t₁ t₂ : Table} (ha : SameBut c t t₁) (hb : SameBut c t₁ t₂) :
    SameBut c t t₂ :=
  ⟨fun x hx => (hb.mem x hx).trans (ha.mem x hx), fun b hc => (hb.get b hc).trans (ha.get b hc)⟩

theorem sameBut_put (t : Table) (e : Entry) (h : t.get? e.container = none) :
    SameBut e.container t (t.put e) := by
  refine ⟨fun x hx => ?_, fun b hb => get?_put_other t e b hb⟩
  rw [put_absent t e h, List.mem_append, List.mem_singleton]
  constructor
  · rintro (hm | rfl)
    · exact hm
    · exact absurd rfl hx
  · exact Or.inl

theorem sameBut_remove (t : Table) (c : String) : SameBut c t (t.remove c) := by
  refine ⟨fun x hx => ?_, fun b hb => get?_remove_other t c b hb⟩
  rw [mem_remove]
  exact ⟨And.left, fun hm => ⟨hm, hx⟩⟩

theorem sameBut_remove_append (t : Table) (c : String) (e : Entry) (h : t.get? c = some e) :
    SameBut c t (t.remove c ++ [e]) := by
  refine ⟨fun x hx => ?_, fun b _ => get?_remove_append t c b e h⟩
  rw [List.mem_append, List.mem_singleton, mem_remove]
  constructor
  · rintro (⟨hm, -⟩ | rfl)
    · exact hm
    · exact absurd (get?_mem t c x h).2 hx
  · exact fun hm => .inl ⟨hm, hx⟩

/-! ### Project IDs -/

theorem eq_of_projectId (t : Table) (hn : t.ids.Nodup) (e f : Entry) (he : e ∈ t) (hf : f ∈ t)
    (h : e.projectId = f.projectId) : e = f :=
  List.inj_on_of_nodup_map hn he hf h

theorem ids_remove_nodup (t : Table) (c : String) (hn : t.ids.Nodup) : (t.remove c).ids.Nodup :=
  (List.filter_sublist.map _).nodup hn

theorem ids_append_nodup (t : Table) (e : Entry) (hn : t.ids.Nodup)
    (hf : ∀ x ∈ t, x.projectId ≠ e.projectId) : Table.ids (t ++ [e]) |>.Nodup := by
  have hids : Table.ids (t ++ [e]) = t.ids ++ [e.projectId] := List.map_append
  rw [hids, List.nodup_append]
  refine ⟨hn, List.nodup_singleton _, ?_⟩
  intro a ha b hb
  obtain ⟨x, hx, rfl⟩ := List.mem_map.mp ha
  rw [List.mem_singleton.mp hb]
  exact hf x hx

theorem projectId_ne_of_remove (t : Table) (hn : t.ids.Nodup) (c : String) (e x : Entry)
    (he : t.get? c = some e) (hx : x ∈ t.remove c) : x.projectId ≠ e.projectId := by
  intro h
  obtain ⟨hxt, hxc⟩ := (mem_remove t c x).mp hx
  obtain ⟨het, hec⟩ := get?_mem t c e he
  have hxe := eq_of_projectId t hn x e hxt het h
  exact hxc (hxe ▸ hec)

theorem mem_ids_append (t : Table) (e : Entry) (n : Int) :
    n ∈ Table.ids (t ++ [e]) ↔ n ∈ t.ids ∨ n = e.projectId := by
  simp only [ids, List.map_append, List.map_cons, List.map_nil, List.mem_append,
    List.mem_singleton]

/-- Taking a container out takes out its ID, where no ID and no container is repeated. -/
theorem mem_ids_remove (t : Table) (hn : t.ids.Nodup) (hc : t.containers.Nodup) (c : String)
    (e : Entry) (he : t.get? c = some e) (n : Int) :
    n ∈ (t.remove c).ids ↔ n ∈ t.ids ∧ n ≠ e.projectId := by
  constructor
  · intro hm
    obtain ⟨x, hx, rfl⟩ := List.mem_map.mp hm
    have hxt : x ∈ t := ((mem_remove t c x).mp hx).1
    exact ⟨List.mem_map_of_mem hxt, projectId_ne_of_remove t hn c e x he hx⟩
  · rintro ⟨hm, hne⟩
    obtain ⟨x, hx, rfl⟩ := List.mem_map.mp hm
    refine List.mem_map_of_mem ((mem_remove t c x).mpr ⟨hx, ?_⟩)
    rintro rfl
    have hsame : some x = some e := (get?_of_mem t hc x hx).symm.trans he
    exact hne (congrArg Entry.projectId (Option.some.inj hsame))

end LayerQuota.Table
