import LayerQuota.Proofs.Daemon.Run
/-!
# Work that is brought to its end

Only the daemon breaks its own work off, for want of rounds. Where no call answers that work was
broken off, neither does a reconciliation, which needs no rounds.
-/

namespace LayerQuota.Host

open LayerQuota.Act

variable {σ α β : Type} {h : Host σ} {w : Waits σ}

/-- A host, and waits for events, that never answer that work was broken off. Of a directory that is
so only where the runtime reports it. -/
structure Conclusive (h : Host σ) (w : Waits σ) : Prop where
  connect : ∀ v, (h.connect v).1 ≠ .error .unfinished
  subscribe : ∀ v, (h.subscribe v).1 ≠ .error .unfinished
  list : ∀ v, (h.list v).1 ≠ .error .unfinished
  resolve : ∀ c v, (h.resolve c v).1 ≠ .error .unfinished
  isPresent : ∀ c v dir v', (h.resolve c v).1 = .ok dir →
    (h.isPresent dir v').1 ≠ .error .unfinished
  tag : ∀ c v dir id v', (h.resolve c v).1 = .ok dir → (h.tag dir id v').1 ≠ .error .unfinished
  setLimit : ∀ id soft hard v, (h.setLimit id soft hard v).1 ≠ .error .unfinished
  next : ∀ stream position d, (w.next stream position d).1 ≠ .error .unfinished

/-- What fails in other ways only does not answer that work was broken off. -/
theorem ne_unfinished {a : Except Failure α × β} {P : Failure → Prop} (hP : ¬P .unfinished)
    (ha : ∀ f b, a = (.error f, b) → P f) : a.1 ≠ .error .unfinished :=
  fun hr => hP (ha _ a.2 (Prod.ext hr rfl))

/-! ### Acts -/

/-- An act is not broken off, whatever the daemon. -/
def Finishes (x : Act σ α) : Prop := ∀ d, (Act.run x d).1 ≠ .error .unfinished

theorem Finishes.of_ok {x : Act σ α} (hx : ∀ d, ∃ a, (Act.run x d).1 = .ok a) : Finishes x := by
  intro d
  obtain ⟨a, ha⟩ := hx d
  rw [ha]
  exact nofun

theorem Finishes.pure (a : α) : Finishes (pure a : Act σ α) := .of_ok fun _ => ⟨a, rfl⟩

theorem Finishes.call {f : σ → Except Failure α × σ} (hf : ∀ v, (f v).1 ≠ .error .unfinished) :
    Finishes (Act.call f) :=
  fun d => hf d.outside

/-- What comes after an act has to be brought to its end for the answers that the act can give. -/
theorem Finishes.bind {x : Act σ α} {f : α → Act σ β} (hx : Finishes x)
    (hf : ∀ d a, (Act.run x d).1 = .ok a → Finishes (f a)) : Finishes (x >>= f) := by
  intro d
  have hfirst := hx d
  have hrest := hf d
  rw [run_bind]
  generalize Act.run x d = a at hfirst hrest ⊢
  obtain ⟨g | a, d₁⟩ := a
  · intro heq
    cases heq
    exact hfirst rfl
  · exact hrest a rfl d₁

theorem Finishes.attempt (x : Act σ α) : Finishes (Act.attempt x) := .of_ok fun _ => ⟨_, rfl⟩

/-! ### Reconciliation -/

/-- What a creation fails with, if neither the pool, nor the entry, nor the record is to blame, its
enforcement failed with, or it did not come to that. -/
theorem CreateOutcome.enforcing {c : String} {dir : Layer} {d d' : Daemon σ} {f : Failure}
    (ho : h.CreateOutcome c dir d (.error f) d') (hpool : ∀ e, f ≠ .pool e)
    (hentry : ∀ vs, f ≠ .invalid vs) (hpath : f ≠ .os .embeddedNull)
    (hrecord : ∀ path fault, f ≠ .unsaved path fault) :
    f = .cancelled ∧ h.cancelled d'.outside = true ∨
      ∃ id, h.Enforcing d.core.settings dir id d.outside (.error f) d'.outside := by
  generalize hres : (Except.error f : Except Failure Entry) = res at ho
  cases ho with
  | kept e p v' he hp hq => cases hres
  | refused e g he hp =>
    cases hres
    exact absurd rfl (hpool g)
  | overtaken he hc =>
    cases hres
    exact .inl ⟨rfl, hc⟩
  | exhausted g he hal =>
    cases hres
    exact absurd rfl (hpool g)
  | abandoned id p g v' he hal hn =>
    cases hres
    exact .inr ⟨id, hn⟩
  | malformed id p vs v' he hal hn hm =>
    cases hres
    exact absurd rfl (hentry vs)
  | recorded id p e r s v₁ v₂ v' he hal hn hm hs hq =>
    rcases r with g | u
    · cases hres
      obtain heq | ⟨fault, heq⟩ :=
        Store.save_fails _ _ _ _ _ _ (Store.put_eq_error _ _ _ _ _ _ _ hs)
      · exact absurd heq hpath
      · exact absurd heq (hrecord _ fault)
    · cases hres

theorem restore_ok (e : Entry) (dir : Layer) (r : Report) (d : Daemon σ) :
    ∃ v, (Act.run (h.restore e dir r) d).1 = .ok v := by
  rw [restore, run_bind, run_attempt, run_markUsed]
  rcases d.core.pool.markUsed e.projectId with f | p
  · exact ⟨_, rfl⟩
  · simp only
    cases isLayerOf e dir with
    | true => exact ⟨_, rfl⟩
    | false => exact ⟨_, rfl⟩

theorem conclude_ok (live : List String) (r : Report) (d : Daemon σ) :
    ∃ r', (Act.run (h.conclude live r) d).1 = .ok r' := by
  rw [conclude, run_bind, run_core]
  simp only
  split
  · exact ⟨_, rfl⟩
  · exact ⟨_, rfl⟩

theorem reserveAll_ok (t : Table) (d : Daemon σ) :
    ∃ u, (Act.run (h.reserveAll t) d).1 = .ok u := by
  obtain ⟨d', hrun, -⟩ := h.reserveAll_outcome t d
  exact ⟨(), by rw [hrun]⟩

section Conclusive

variable (hf : Conclusive h w)

include hf

theorem Conclusive.create {c : String} {v : σ} {dir : Layer} (hdir : (h.resolve c v).1 = .ok dir)
    (c' : String) : Finishes (h.create c' dir) := by
  intro d hd
  have ho := h.create_outcome c' dir d
  rw [hd] at ho
  rcases ho.enforcing nofun nofun nofun nofun with ⟨hno, -⟩ | ⟨id, hn⟩
  · cases hno
  · generalize (Act.run (h.create c' dir) d).2.outside = v' at hn
    cases hn with
    | untagged f v' ht => exact hf.tag c v dir id d.outside hdir (by rw [ht])
    | limited v₁ v' r ht hl => exact hf.setLimit id _ _ v₁ (by rw [hl])

theorem Conclusive.supply {c : String} {v : σ} {dir : Layer} (hdir : (h.resolve c v).1 = .ok dir)
    (r : Report) : Finishes (h.supply c dir r) := by
  intro d
  have hcreate := hf.create hdir c d
  rw [Host.supply, run_bind, run_attempt]
  generalize Act.run (h.create c dir) d = a at hcreate ⊢
  obtain ⟨f | e, d₁⟩ := a
  · intro hfail
    simp only at hfail
    split at hfail
    · contradiction
    · cases hfail
    · rename_i heq
      cases heq
      split at hfail
      · cases hfail
      · cases hfail
        exact hcreate rfl
  · intro hfail
    cases hfail

theorem Conclusive.settle {c : String} {v : σ} {dir : Layer} (hdir : (h.resolve c v).1 = .ok dir)
    (r : Report) : Finishes (h.settle c dir r) := by
  refine (Finishes.call fun v' => hf.isPresent c v dir v' hdir).bind fun _ present _ => ?_
  cases present with
  | false => exact .of_ok fun _ => ⟨_, rfl⟩
  | true =>
    refine Finishes.bind (.of_ok fun _ => ⟨_, rfl⟩) fun _ entry _ => ?_
    cases entry with
    | some e => exact .of_ok (restore_ok e dir r)
    | none => exact hf.supply hdir r

theorem Conclusive.visit (c : String) (r : Report) : Finishes (h.visit c r) := by
  refine Finishes.bind (.of_ok fun _ => ⟨_, rfl⟩) fun _ late _ => ?_
  cases late with
  | true => exact .of_ok fun _ => ⟨_, rfl⟩
  | false =>
    refine (Finishes.attempt _).bind fun d a ha => ?_
    have hres : (h.resolve c d.outside).1 = a := Except.ok.inj ha
    rcases a with f | dir
    · intro d'
      split
      · contradiction
      · exact nofun
      · rename_i heq
        cases heq
        intro hfail
        cases hfail
        exact hf.resolve c d.outside hres
    · exact hf.settle hres r

theorem Conclusive.visitAll (live : List String) (r : Report) : Finishes (h.visitAll live r) := by
  induction live generalizing r with
  | nil => exact .pure r
  | cons c live ih =>
    refine (hf.visit c r).bind fun _ verdict _ => ?_
    obtain ⟨r', more⟩ := verdict
    cases more with
    | true => exact ih r'
    | false => exact .pure r'

/-- A reconciliation is never broken off. -/
theorem Conclusive.reconcile : Finishes h.reconcile := by
  refine Finishes.bind (.of_ok fun _ => ⟨_, rfl⟩) fun _ core _ => ?_
  refine Finishes.bind (.of_ok (reserveAll_ok _)) fun _ _ _ => ?_
  refine (Finishes.call hf.list).bind fun _ live _ => ?_
  exact (hf.visitAll live _).bind fun _ r _ => .of_ok (conclude_ok live r)

end Conclusive

end LayerQuota.Host
