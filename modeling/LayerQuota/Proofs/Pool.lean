import LayerQuota.Pool
import Mathlib.Data.List.Nodup
import Mathlib.Data.List.Perm.Subperm
/-!
# Which IDs are in use

Membership in the set in use after each operation of the pool. An allocation takes an ID of the
range that was free.
-/

namespace LayerQuota.Pool

theorem inRange_iff (p : Pool) (id : Int) :
    p.inRange id = true ↔ p.least ≤ id ∧ id ≤ p.greatest := by
  simp only [inRange, Bool.and_eq_true, decide_eq_true_eq]

theorem isUsed_iff (p : Pool) (id : Int) : p.isUsed id = true ↔ id ∈ p.used := by
  simp only [isUsed, List.contains_iff_mem]

theorem create_used (a b : Int) (p : Pool) (h : create a b = .ok p) : p = ⟨a, b, []⟩ := by
  unfold create at h
  split at h
  · cases h
  · exact (Except.ok.inj h).symm

theorem create_least_pos (a b : Int) (p : Pool) (h : create a b = .ok p) : 0 < a := by
  unfold create at h
  split at h
  · cases h
  · rename_i hrange
    omega

/-! ### Insertion and release -/

@[simp]
theorem insert_least (p : Pool) (id : Int) : (p.insert id).least = p.least := by
  unfold insert
  split <;> rfl

@[simp]
theorem insert_greatest (p : Pool) (id : Int) : (p.insert id).greatest = p.greatest := by
  unfold insert
  split <;> rfl

@[simp]
theorem insert_inRange (p : Pool) (id n : Int) : (p.insert id).inRange n = p.inRange n := by
  simp only [inRange, insert_least, insert_greatest]

@[simp]
theorem mem_insert (p : Pool) (id n : Int) : n ∈ (p.insert id).used ↔ n = id ∨ n ∈ p.used := by
  unfold insert
  split
  · rename_i hu
    have hm := (isUsed_iff p id).mp hu
    constructor
    · exact Or.inr
    · rintro (rfl | hn)
      · exact hm
      · exact hn
  · exact List.mem_cons

theorem insert_of_used (p : Pool) (id : Int) (h : id ∈ p.used) : p.insert id = p :=
  if_pos ((isUsed_iff p id).mpr h)

theorem insert_nodup (p : Pool) (id : Int) (h : p.used.Nodup) : (p.insert id).used.Nodup := by
  unfold insert
  split
  · exact h
  · rename_i hu
    exact List.nodup_cons.mpr ⟨fun hm => hu ((isUsed_iff p id).mpr hm), h⟩

@[simp]
theorem release_inRange (p : Pool) (id n : Int) : (p.release id).inRange n = p.inRange n := rfl

@[simp]
theorem mem_release (p : Pool) (id n : Int) : n ∈ (p.release id).used ↔ n ∈ p.used ∧ n ≠ id := by
  simp only [release, List.mem_filter, bne_iff_ne]

/-- An ID that is freed as soon as it was taken leaves the pool as it was. -/
theorem release_insert (p : Pool) (id : Int) (h : id ∉ p.used) : (p.insert id).release id = p := by
  have hfree : p.isUsed id = false := Bool.eq_false_iff.mpr fun hu => h ((isUsed_iff p id).mp hu)
  have hkeep : p.used.filter (· != id) = p.used := by
    refine List.filter_eq_self.mpr fun n hn => bne_iff_ne.mpr ?_
    rintro rfl
    exact h hn
  rw [insert, hfree]
  simp only [Bool.false_eq_true, if_false, release, List.filter_cons, bne_self_eq_false, hkeep]

theorem release_nodup (p : Pool) (id : Int) (h : p.used.Nodup) : (p.release id).used.Nodup :=
  h.filter _

theorem markUsed_eq_ok (p q : Pool) (id : Int) :
    p.markUsed id = .ok q ↔ p.inRange id = true ∧ q = p.insert id := by
  unfold markUsed
  split
  · rename_i hr
    simp only [Except.ok.injEq, hr, true_and]
    exact eq_comm
  · rename_i hr
    simp [hr]

/-! ### Allocation -/

theorem firstFree_some (p : Pool) (count : Nat) (id n : Int) (h : p.firstFree count id = some n) :
    n ∉ p.used ∧ id ≤ n ∧ n < id + count := by
  induction count generalizing id with
  | zero => simp [firstFree] at h
  | succ count ih =>
    simp only [firstFree] at h
    split at h
    · obtain ⟨hn, hle, hlt⟩ := ih (id + 1) h
      exact ⟨hn, by omega, by push_cast; omega⟩
    · rename_i hu
      have he : id = n := Option.some.inj h
      subst he
      exact ⟨fun hm => hu ((isUsed_iff p id).mpr hm), Int.le_refl id, by push_cast; omega⟩

theorem allocate_fresh (p q : Pool) (id : Int) (h : p.allocate = .ok (id, q)) :
    id ∉ p.used ∧ p.inRange id = true ∧ q = p.insert id := by
  unfold allocate at h
  split at h
  · rename_i n hn
    cases h
    obtain ⟨hfree, hle, hlt⟩ := firstFree_some p _ _ _ hn
    refine ⟨hfree, (inRange_iff p id).mpr ⟨hle, ?_⟩, rfl⟩
    unfold capacity at hlt
    omega
  · cases h

theorem firstFree_none (p : Pool) (count : Nat) (id n : Int) (h : p.firstFree count id = none)
    (hlow : id ≤ n) (hhigh : n < id + count) : n ∈ p.used := by
  induction count generalizing id with
  | zero => omega
  | succ count ih =>
    simp only [firstFree] at h
    split at h
    · rename_i hu
      by_cases heq : n = id
      · exact heq ▸ (isUsed_iff p id).mp hu
      · exact ih (id + 1) h (by omega) (by omega)
    · cases h

/-- As long as fewer IDs are in use than the range has, one can be allocated: among one more
candidate than there are IDs in use, one is free. -/
theorem allocate_free (p : Pool) (h : (p.used.length : Int) < p.capacity) :
    ∃ id, p.allocate = .ok (id, p.insert id) := by
  unfold allocate
  cases hf : p.leastFree with
  | some id => exact ⟨id, rfl⟩
  | none =>
    unfold leastFree at hf
    have hcount : min p.capacity.toNat (p.used.length + 1) = p.used.length + 1 := by omega
    rw [hcount] at hf
    let candidates := (List.range (p.used.length + 1)).map fun k : Nat => p.least + (k : Int)
    have hnodup : candidates.Nodup := by
      refine List.Nodup.map (fun j k hjk => ?_) List.nodup_range
      have hjk : p.least + (j : Int) = p.least + (k : Int) := hjk
      omega
    have hsub : candidates ⊆ p.used := by
      intro n hn
      obtain ⟨k, hk, rfl⟩ := List.mem_map.mp hn
      have hk := List.mem_range.mp hk
      exact firstFree_none p _ _ _ hf (by omega) (by omega)
    have hlen := (hnodup.subperm hsub).length_le
    simp only [candidates, List.length_map, List.length_range] at hlen
    omega

/-- The scan passes over an ID only where it is in use. -/
theorem firstFree_least (p : Pool) (count : Nat) (id n m : Int) (h : p.firstFree count id = some n)
    (hlow : id ≤ m) (hhigh : m < n) : m ∈ p.used := by
  induction count generalizing id with
  | zero => simp [firstFree] at h
  | succ count ih =>
    simp only [firstFree] at h
    split at h
    · rename_i hu
      by_cases heq : m = id
      · exact heq ▸ (isUsed_iff p id).mp hu
      · exact ih (id + 1) h (by omega)
    · have he : id = n := Option.some.inj h
      omega

theorem allocate_least (p q : Pool) (id n : Int) (h : p.allocate = .ok (id, q))
    (hlow : p.least ≤ n) (hhigh : n < id) : n ∈ p.used := by
  unfold allocate at h
  split at h
  · rename_i k hk
    cases h
    exact firstFree_least p _ _ _ n hk hlow hhigh
  · cases h

/-- A pool gives up only where no ID of its range is free, the last one included. -/
theorem allocate_error (p : Pool) (e : PoolError) (h : p.allocate = .error e) :
    e = .exhausted p.least p.greatest ∧ ∀ n, p.inRange n = true → n ∈ p.used := by
  have hfull : p.capacity ≤ p.used.length := by
    by_contra hlt
    obtain ⟨id, hid⟩ := p.allocate_free (by omega)
    exact absurd (hid.symm.trans h) nofun
  unfold allocate at h
  cases hf : p.leastFree with
  | some id =>
    rw [hf] at h
    cases h
  | none =>
    rw [hf] at h
    cases h
    refine ⟨rfl, fun n hn => ?_⟩
    obtain ⟨hlow, hhigh⟩ := (inRange_iff p n).mp hn
    unfold leastFree at hf
    have hcount : min p.capacity.toNat (p.used.length + 1) = p.capacity.toNat := by omega
    rw [hcount] at hf
    unfold capacity at hf
    exact firstFree_none p _ _ n hf hlow (by omega)

/-! ### What is in use -/

@[simp]
theorem mem_inUse (p : Pool) (id : Int) : id ∈ p.inUse ↔ id ∈ p.used := List.mem_mergeSort

theorem used_length_le (p : Pool) (hnodup : p.used.Nodup)
    (hin : ∀ n ∈ p.used, p.inRange n = true) : p.used.length ≤ p.capacity.toNat := by
  let ids := (List.range p.capacity.toNat).map fun k : Nat => p.least + (k : Int)
  have hsub : p.used ⊆ ids := by
    intro n hn
    obtain ⟨hlow, hhigh⟩ := (inRange_iff p n).mp (hin n hn)
    refine List.mem_map.mpr ⟨(n - p.least).toNat, List.mem_range.mpr ?_, by omega⟩
    unfold capacity
    omega
  have hlen := (hnodup.subperm hsub).length_le
  simpa only [ids, List.length_map, List.length_range] using hlen

end LayerQuota.Pool
