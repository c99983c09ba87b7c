import LayerQuota.Enforcer.Memory
import LayerQuota.Proofs.Json.Value
import LayerQuota.Proofs.Lookup
/-!
# Quotas in memory

What each operation of the quotas in memory does to its tables. Every call is recorded. A call that
fails changes no table, tagging changes the tag of its directory, and setting limits those of its
project.
-/

namespace LayerQuota

/-! ### Keys -/

section Keys

variable {α β : Type} [BEq α] (k l : α) (v w : β) (t : List (α × β))

theorem lookup_assign_key (hk : (k == k) = true) : (assign k v t).lookup k = some v := by
  induction t with
  | nil => simp only [assign, List.lookup_cons, hk]
  | cons p t ih =>
    obtain ⟨m, u⟩ := p
    cases hm : k == m with
    | true => simp only [assign, hm, if_true, List.lookup_cons]
    | false =>
      simp only [assign, hm, Bool.false_eq_true, if_false, List.lookup_cons]
      exact ih

theorem lookup_assign_apart (hk : (l == k) = false) (h : ∀ m, (k == m) = true → (l == m) = false) :
    (assign k v t).lookup l = t.lookup l := by
  induction t with
  | nil => simp only [assign, List.lookup_cons, hk]
  | cons p t ih =>
    obtain ⟨m, u⟩ := p
    cases hm : k == m with
    | true => simp [assign, hm, List.lookup_cons, h m hm]
    | false => simp only [assign, hm, Bool.false_eq_true, if_false, List.lookup_cons, ih]

/-- A value that is found after an assignment is the one assigned, or was found before. -/
theorem lookup_assign_cases (h : (assign k v t).lookup l = some w) :
    w = v ∨ t.lookup l = some w := by
  induction t with
  | nil =>
    cases hl : l == k with
    | true =>
      simp only [assign, List.lookup_cons, hl, Option.some.injEq] at h
      exact .inl h.symm
    | false => simp [assign, List.lookup_cons, hl] at h
  | cons p t ih =>
    obtain ⟨m, u⟩ := p
    cases hm : k == m with
    | true =>
      simp only [assign, hm, if_true, List.lookup_cons] at h ⊢
      cases hl : l == m with
      | true =>
        simp only [hl, Option.some.injEq] at h
        exact .inl h.symm
      | false =>
        simp only [hl] at h ⊢
        exact .inr h
    | false =>
      simp only [assign, hm, Bool.false_eq_true, if_false, List.lookup_cons] at h ⊢
      cases hl : l == m with
      | true =>
        simp only [hl] at h ⊢
        exact .inr h
      | false =>
        simp only [hl] at h ⊢
        exact ih h

variable [LawfulBEq α]

theorem lookup_assign_self : (assign k v t).lookup k = some v := lookup_assign_key k v t (by simp)

theorem lookup_assign_other (h : l ≠ k) : (assign k v t).lookup l = t.lookup l := by
  refine lookup_assign_apart k l v t (beq_eq_false_iff_ne.mpr h) fun m hm => ?_
  rw [← eq_of_beq hm]
  exact beq_eq_false_iff_ne.mpr h

end Keys

section Directories

variable (path other : String) (v : Layer) (id : Int) (t : List (Layer × Int))

/-- A directory that is named by a text is the same as no other. -/
theorem ofPath_beq : (Layer.ofPath path == v) = true ↔ v = Layer.ofPath path := by
  show Json.Value.same (Layer.ofPath path) v = true ↔ _
  unfold Layer.ofPath Json.Value.text
  cases v with
  | str s =>
    simp only [Json.Value.same, Json.Value.sameScalar, beq_iff_eq, Json.Value.str.injEq]
    exact eq_comm
  | _ => simp [Json.Value.same, Json.Value.sameScalar, Json.Value.integer?]

theorem ofPath_inj (h : Layer.ofPath path = Layer.ofPath other) : path = other :=
  Json.Str.ofString_inj path other (Json.Value.str.inj h)

theorem lookup_assign_ofPath :
    (assign (Layer.ofPath path) id t).lookup (Layer.ofPath path) = some id :=
  lookup_assign_key _ id t ((ofPath_beq path _).mpr rfl)

theorem lookup_assign_ofPath_other (h : other ≠ path) :
    (assign (Layer.ofPath path) id t).lookup (Layer.ofPath other) =
      t.lookup (Layer.ofPath other) := by
  have hne : (Layer.ofPath other == Layer.ofPath path) = false := by
    rw [← Bool.not_eq_true, ofPath_beq]
    exact fun heq => h (ofPath_inj path other heq).symm
  refine lookup_assign_apart _ _ id t hne fun x hx => ?_
  rw [(ofPath_beq path x).mp hx]
  exact hne

end Directories

/-! ### Operations -/

namespace Memory

/-- What tagging a directory comes to. -/
structure Tagging (dir : Layer) (id : Int) (m : Memory) (r : Except Failure Unit) (m' : Memory) :
    Prop where
  limits : m'.limits = m.limits
  calls : m'.calls = m.calls ++ [.tag dir id]
  tags : (r = .ok () ∧ m'.tags = assign dir id m.tags) ∨ ((∃ f, r = .error f) ∧ m'.tags = m.tags)

/-- What setting the limits of a project comes to: they are set, or cleared where both are zero. -/
structure Limiting (id : Int) (soft hard : String) (m : Memory) (r : Except Failure Unit)
    (m' : Memory) : Prop where
  tags : m'.tags = m.tags
  calls : m'.calls = m.calls ++ [.setLimit id soft hard]
  limits : (r = .ok () ∧ m'.limits =
      if soft = "0" ∧ hard = "0" then m.limits.filter (·.1 != id)
      else assign id (soft, hard) m.limits) ∨
    ((∃ f, r = .error f) ∧ m'.limits = m.limits)

/-- What reading the tag of a directory comes to. -/
structure Reading (dir : Layer) (m : Memory) (r : Except Failure Int) (m' : Memory) : Prop where
  tags : m'.tags = m.tags
  limits : m'.limits = m.limits
  calls : m'.calls = m.calls ++ [.readTag dir]
  found : ∀ id, r = .ok id → m.tags.lookup dir = some id

variable (m : Memory)

theorem enter_snd (call : QuotaCall) :
    (m.enter call).2 = { m with calls := m.calls ++ [call] } := by
  unfold enter
  simp only
  split
  · rfl
  · split <;> rfl

theorem enter_eq_error (call : QuotaCall) (f : Failure) (he : (m.enter call).1 = .error f) :
    ∃ msg cmd out, f = .enforcement msg cmd out := by
  unfold enter at he
  simp only at he
  split at he
  · cases he
  · split at he
    · cases he
      exact ⟨_, _, _, rfl⟩
    · cases he

theorem key_eq_ok (dir dir' : Layer) (hk : dir.key = .ok dir') : dir' = dir := by
  unfold Layer.key at hk
  split at hk
  · cases hk
  · cases hk
  · exact (Except.ok.inj hk).symm

theorem tag_tagging (dir : Layer) (id : Int) :
    Tagging dir id m (m.tag dir id).1 (m.tag dir id).2 := by
  have he := m.enter_snd (.tag dir id)
  unfold tag
  generalize m.enter (.tag dir id) = a at he
  obtain ⟨f | _, m₁⟩ := a
  · cases he
    exact ⟨rfl, rfl, .inr ⟨⟨f, rfl⟩, rfl⟩⟩
  · cases he
    simp only
    split
    · exact ⟨rfl, rfl, .inr ⟨⟨_, rfl⟩, rfl⟩⟩
    · rename_i dir' hkey
      rw [key_eq_ok dir dir' hkey]
      exact ⟨rfl, rfl, .inl ⟨rfl, rfl⟩⟩

theorem setLimit_limiting (id : Int) (soft hard : String) :
    Limiting id soft hard m (m.setLimit id soft hard).1 (m.setLimit id soft hard).2 := by
  have he := m.enter_snd (.setLimit id soft hard)
  unfold setLimit
  generalize m.enter (.setLimit id soft hard) = a at he
  obtain ⟨f | _, m₁⟩ := a
  · cases he
    exact ⟨rfl, rfl, .inr ⟨⟨f, rfl⟩, rfl⟩⟩
  · cases he
    by_cases h0 : soft = "0" ∧ hard = "0"
    · simp only [h0.1, h0.2, beq_self_eq_true, Bool.and_self, if_true]
      exact ⟨rfl, rfl, .inl ⟨rfl, (if_pos ⟨rfl, rfl⟩).symm⟩⟩
    · have hb : (soft == "0" && hard == "0") = false := by
        simpa only [← Bool.not_eq_true, Bool.and_eq_true, beq_iff_eq] using h0
      simp only [hb, Bool.false_eq_true, if_false]
      exact ⟨rfl, rfl, .inl ⟨rfl, (if_neg h0).symm⟩⟩

theorem readTag_reading (dir : Layer) :
    Reading dir m (m.readTag dir).1 (m.readTag dir).2 := by
  have he := m.enter_snd (.readTag dir)
  unfold readTag
  generalize m.enter (.readTag dir) = a at he
  obtain ⟨f | _, m₁⟩ := a
  · cases he
    exact ⟨rfl, rfl, rfl, nofun⟩
  · cases he
    simp only
    split
    · exact ⟨rfl, rfl, rfl, nofun⟩
    · rename_i dir' hkey
      rw [key_eq_ok dir dir' hkey]
      split
      · rename_i id hid
        refine ⟨rfl, rfl, rfl, ?_⟩
        rintro _ ⟨⟩
        exact hid
      · exact ⟨rfl, rfl, rfl, nofun⟩

/-! ### Tags -/

theorem Tagging.other {m m' : Memory} {path other : String} {id : Int} {r : Except Failure Unit}
    (ht : Tagging (Layer.ofPath path) id m r m') (hne : other ≠ path) :
    m'.tags.lookup (Layer.ofPath other) = m.tags.lookup (Layer.ofPath other) := by
  rcases ht.tags with ⟨-, heq⟩ | ⟨-, heq⟩
  · rw [heq]
    exact lookup_assign_ofPath_other path other id m.tags hne
  · rw [heq]

/-! ### Limits -/

section Limits

variable {m} {m' : Memory} {id : Int} {soft hard : String} {r : Except Failure Unit}

theorem Limiting.other (hl : Limiting id soft hard m r m') (n : Int) (hn : n ≠ id) :
    m'.limits.lookup n = m.limits.lookup n := by
  rcases hl.limits with ⟨-, heq⟩ | ⟨-, heq⟩
  · rw [heq]
    split
    · exact lookup_filter_other id n m.limits hn
    · exact lookup_assign_other id n (soft, hard) m.limits hn
  · rw [heq]

theorem Limiting.set (hl : Limiting id soft hard m (.ok ()) m') (h0 : ¬(soft = "0" ∧ hard = "0")) :
    m'.limits.lookup id = some (soft, hard) := by
  rcases hl.limits with ⟨-, heq⟩ | ⟨⟨f, hf⟩, -⟩
  · rw [heq, if_neg h0]
    exact lookup_assign_self id (soft, hard) m.limits
  · cases hf

theorem Limiting.cleared (hl : Limiting id "0" "0" m (.ok ()) m') : m'.limits.lookup id = none := by
  rcases hl.limits with ⟨-, heq⟩ | ⟨⟨f, hf⟩, -⟩
  · rw [heq, if_pos ⟨rfl, rfl⟩]
    exact lookup_filter_self id m.limits
  · cases hf

theorem Limiting.failed (f : Failure) (hl : Limiting id soft hard m (.error f) m') :
    m'.limits = m.limits := by
  rcases hl.limits with ⟨hok, -⟩ | ⟨-, heq⟩
  · cases hok
  · exact heq

end Limits

/-! ### Failures -/

theorem tag_eq_error (path : String) (id : Int) (f : Failure)
    (he : (m.tag (Layer.ofPath path) id).1 = .error f) :
    ∃ msg cmd out, f = .enforcement msg cmd out := by
  have hen := m.enter_eq_error (.tag (Layer.ofPath path) id) f
  unfold tag at he
  generalize m.enter (.tag (Layer.ofPath path) id) = a at hen he
  obtain ⟨g | _, m₁⟩ := a
  · exact hen he
  · cases he

theorem setLimit_eq_error (id : Int) (soft hard : String) (f : Failure)
    (he : (m.setLimit id soft hard).1 = .error f) :
    ∃ msg cmd out, f = .enforcement msg cmd out := by
  have hen := m.enter_eq_error (.setLimit id soft hard) f
  unfold setLimit at he
  generalize m.enter (.setLimit id soft hard) = a at hen he
  obtain ⟨g | _, m₁⟩ := a
  · exact hen he
  · simp only at he
    split at he
    · cases he
    · cases he

/-- Without failures that are ordered, every call goes through. -/
theorem enter_unordered (hm : m.orders = []) (call : QuotaCall) :
    m.enter call = (.ok (), { m with calls := m.calls ++ [call] }) := by
  unfold enter
  simp only [hm, List.lookup_nil]

theorem tag_unordered (hm : m.orders = []) (path : String) (id : Int) :
    (m.tag (Layer.ofPath path) id).1 = .ok () := by
  unfold tag
  rw [enter_unordered m hm]
  rfl

theorem setLimit_unordered (hm : m.orders = []) (id : Int) (soft hard : String) :
    (m.setLimit id soft hard).1 = .ok () := by
  unfold setLimit
  rw [enter_unordered m hm]
  simp only
  split <;> rfl

theorem readTag_unordered (hm : m.orders = []) (path : String) (id : Int)
    (ht : m.tags.lookup (Layer.ofPath path) = some id) :
    (m.readTag (Layer.ofPath path)).1 = .ok id := by
  unfold readTag
  rw [enter_unordered m hm]
  have hkey : (Layer.ofPath path).key = .ok (Layer.ofPath path) := rfl
  simp only [hkey, ht]

end Memory

end LayerQuota
