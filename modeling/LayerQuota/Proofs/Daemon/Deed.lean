import LayerQuota.Proofs.Daemon.Act
import LayerQuota.Proofs.Table
import Mathlib.Logic.Relation
/-!
# What an act can come to

Each operation of the daemon as a relation between the states before and after it: the ways in
which it can end, with the calls that it made on the way and what they answered. The relations are
read off the operations here, and nowhere else are the operations opened again.
-/

namespace LayerQuota.Host

open LayerQuota.Act

variable {σ : Type} (h : Host σ)

/-! ### Calls that touch no quota -/

/-- A call that neither tags nor limits nor writes the record. -/
inductive Aside : σ → σ → Prop
  | log (l : Line) (w : σ) : Aside w (h.log l w)
  | resolve (c : String) (w : σ) : Aside w (h.resolve c w).2
  | isPresent (dir : Layer) (w : σ) : Aside w (h.isPresent dir w).2
  | list (w : σ) : Aside w (h.list w).2
  | readTag (dir : Layer) (w : σ) : Aside w (h.readTag dir w).2

/-- Any number of such calls. -/
def Quiet : σ → σ → Prop := Relation.ReflTransGen h.Aside

/-- Nothing but such calls, and counting. -/
structure Beside (d d' : Daemon σ) : Prop where
  settings : d'.core.settings = d.core.settings
  pool : d'.core.pool = d.core.pool
  store : d'.core.store = d.core.store
  outside : h.Quiet d.outside d'.outside

variable {h}

theorem Aside.quiet {w w' : σ} (ha : h.Aside w w') : h.Quiet w w' := Relation.ReflTransGen.single ha

theorem Quiet.refl (w : σ) : h.Quiet w w := Relation.ReflTransGen.refl

theorem Quiet.trans {w w₁ w₂ : σ} (ha : h.Quiet w w₁) (hb : h.Quiet w₁ w₂) : h.Quiet w w₂ :=
  Relation.ReflTransGen.trans ha hb

theorem Beside.ofQuiet {c : Core} {w w' : σ} (hq : h.Quiet w w') : h.Beside ⟨c, w⟩ ⟨c, w'⟩ :=
  ⟨rfl, rfl, rfl, hq⟩

variable (h)

/-! ### Enforcement -/

/-- How tagging a directory and setting the limits can end. -/
inductive Enforcing (s : Settings) (dir : Layer) (id : Int) (w : σ) : Except Failure Unit → σ → Prop
  | overtaken (hc : h.cancelled w = true) : Enforcing s dir id w (.error .cancelled) w
  | untagged (f : Failure) (w' : σ) (ht : h.tag dir id w = (.error f, w')) :
    Enforcing s dir id w (.error f) w'
  | halted (w' : σ) (ht : h.tag dir id w = (.ok (), w')) (hc : h.cancelled w' = true) :
    Enforcing s dir id w (.error .cancelled) w'
  | limited (w₁ w' : σ) (r : Except Failure Unit) (ht : h.tag dir id w = (.ok (), w₁))
    (hl : h.setLimit id s.softLimit s.hardLimit w₁ = (r, w')) : Enforcing s dir id w r w'

theorem enforce_outcome (dir : Layer) (id : Int) (d : Daemon σ) :
    ∃ r w', Act.run (h.enforce dir id) d = (r, ⟨d.core, w'⟩) ∧
      h.Enforcing d.core.settings dir id d.outside r w' := by
  rw [enforce, run_bind, run_checkpoint]
  cases hc : h.cancelled d.outside with
  | true => exact ⟨_, _, rfl, .overtaken hc⟩
  | false =>
    simp only [Bool.false_eq_true, if_false]
    rw [run_bind, run_call]
    rcases ht : h.tag dir id d.outside with ⟨f | _, w₁⟩
    · exact ⟨_, _, rfl, .untagged f w₁ ht⟩
    · simp only
      rw [run_bind, run_checkpoint]
      cases hc₁ : h.cancelled w₁ with
      | true => exact ⟨_, _, by simp only [if_true], .halted w₁ ht hc₁⟩
      | false =>
        simp only [Bool.false_eq_true, if_false]
        rw [run_bind, run_core]
        exact ⟨_, _, rfl, .limited w₁ _ _ ht rfl⟩

/-! ### Creation -/

/-- How giving a container a quota can end: its entry is kept and its ID reserved, the enforcement
is abandoned under a new ID, or an entry is recorded, if the record can be written. -/
inductive Creation (c : String) (d : Daemon σ) : Daemon σ → Prop
  | idle : Creation c d d
  | kept (e : Entry) (p : Pool) (w' : σ) (he : d.core.store.table.get? c = some e)
    (hp : d.core.pool.markUsed e.projectId = .ok p) (hq : h.Quiet d.outside w') :
    Creation c d ⟨{ d.core with pool := p }, w'⟩
  | abandoned (dir : Layer) (id : Int) (p : Pool) (f : Failure) (w' : σ)
    (he : d.core.store.table.get? c = none) (ha : d.core.pool.allocate = .ok (id, p))
    (hn : h.Enforcing d.core.settings dir id d.outside (.error f) w') :
    Creation c d ⟨{ d.core with pool := if freesId f then p.release id else p }, w'⟩
  | malformed (dir : Layer) (id : Int) (p : Pool) (w' : σ)
    (he : d.core.store.table.get? c = none) (ha : d.core.pool.allocate = .ok (id, p))
    (hn : h.Enforcing d.core.settings dir id d.outside (.ok ()) w') :
    Creation c d ⟨{ d.core with pool := p }, w'⟩
  | recorded (dir : Layer) (id : Int) (p : Pool) (e : Entry) (r : Except Failure Unit) (s : Store)
    (w₁ w₂ w' : σ) (he : d.core.store.table.get? c = none)
    (ha : d.core.pool.allocate = .ok (id, p))
    (hn : h.Enforcing d.core.settings dir id d.outside (.ok ()) w₁)
    (hm : Entry.make (.text c) (.int id) dir = .valid e)
    (hs : d.core.store.put h.toDisk e w₁ = (r, s, w₂)) (hq : h.Quiet w₂ w') :
    Creation c d ⟨{ d.core with pool := p, store := s }, w'⟩

/-- How choosing an ID and enforcing a quota under it can end. -/
inductive AssignOutcome (dir : Layer) (d : Daemon σ) : Except Failure Int → Daemon σ → Prop
  | overtaken (hc : h.cancelled d.outside = true) : AssignOutcome dir d (.error .cancelled) d
  | exhausted (f : PoolError) (ha : d.core.pool.allocate = .error f) :
    AssignOutcome dir d (.error (.pool f)) d
  | abandoned (id : Int) (p : Pool) (f : Failure) (w' : σ)
    (ha : d.core.pool.allocate = .ok (id, p))
    (hn : h.Enforcing d.core.settings dir id d.outside (.error f) w') :
    AssignOutcome dir d (.error f)
      ⟨{ d.core with pool := if freesId f then p.release id else p }, w'⟩
  | enforced (id : Int) (p : Pool) (w' : σ) (ha : d.core.pool.allocate = .ok (id, p))
    (hn : h.Enforcing d.core.settings dir id d.outside (.ok ()) w') :
    AssignOutcome dir d (.ok id) ⟨{ d.core with pool := p }, w'⟩

theorem assign_outcome (dir : Layer) (d : Daemon σ) :
    h.AssignOutcome dir d (Act.run (h.assign dir) d).1 (Act.run (h.assign dir) d).2 := by
  rw [assign, run_bind, run_checkpoint]
  cases hc : h.cancelled d.outside with
  | true => exact .overtaken hc
  | false =>
    simp only [Bool.false_eq_true, if_false]
    rw [run_bind, run_allocate]
    rcases ha : d.core.pool.allocate with f | ⟨id, p⟩
    · exact .exhausted f ha
    · simp only
      obtain ⟨r, w', hr, hn⟩ := h.enforce_outcome dir id ⟨{ d.core with pool := p }, d.outside⟩
      rw [run_bind, run_attempt, hr]
      rcases r with f | _
      · simp only
        cases hf : freesId f with
        | true =>
          have hcase := AssignOutcome.abandoned id p f w' ha hn
          rw [hf] at hcase
          exact hcase
        | false =>
          have hcase := AssignOutcome.abandoned id p f w' ha hn
          rw [hf] at hcase
          exact hcase
      · exact .enforced id p w' ha hn

/-- How giving a container a quota in a directory can end, and with what answer. -/
inductive CreateOutcome (c : String) (dir : Layer) (d : Daemon σ) :
    Except Failure Entry → Daemon σ → Prop
  | kept (e : Entry) (p : Pool) (w' : σ) (he : d.core.store.table.get? c = some e)
    (hp : d.core.pool.markUsed e.projectId = .ok p) (hq : h.Quiet d.outside w') :
    CreateOutcome c dir d (.ok e) ⟨{ d.core with pool := p }, w'⟩
  | refused (e : Entry) (f : PoolError) (he : d.core.store.table.get? c = some e)
    (hp : d.core.pool.markUsed e.projectId = .error f) : CreateOutcome c dir d (.error (.pool f)) d
  | overtaken (he : d.core.store.table.get? c = none) (hc : h.cancelled d.outside = true) :
    CreateOutcome c dir d (.error .cancelled) d
  | exhausted (f : PoolError) (he : d.core.store.table.get? c = none)
    (ha : d.core.pool.allocate = .error f) : CreateOutcome c dir d (.error (.pool f)) d
  | abandoned (id : Int) (p : Pool) (f : Failure) (w' : σ)
    (he : d.core.store.table.get? c = none) (ha : d.core.pool.allocate = .ok (id, p))
    (hn : h.Enforcing d.core.settings dir id d.outside (.error f) w') :
    CreateOutcome c dir d (.error f)
      ⟨{ d.core with pool := if freesId f then p.release id else p }, w'⟩
  | malformed (id : Int) (p : Pool) (vs : List Violation) (w' : σ)
    (he : d.core.store.table.get? c = none) (ha : d.core.pool.allocate = .ok (id, p))
    (hn : h.Enforcing d.core.settings dir id d.outside (.ok ()) w')
    (hm : Entry.make (.text c) (.int id) dir = .invalid vs) :
    CreateOutcome c dir d (.error (.invalid vs)) ⟨{ d.core with pool := p }, w'⟩
  | recorded (id : Int) (p : Pool) (e : Entry) (r : Except Failure Unit) (s : Store)
    (w₁ w₂ w' : σ) (he : d.core.store.table.get? c = none)
    (ha : d.core.pool.allocate = .ok (id, p))
    (hn : h.Enforcing d.core.settings dir id d.outside (.ok ()) w₁)
    (hm : Entry.make (.text c) (.int id) dir = .valid e)
    (hs : d.core.store.put h.toDisk e w₁ = (r, s, w₂)) (hq : h.Quiet w₂ w') :
    CreateOutcome c dir d (r.map fun _ => e) ⟨{ d.core with pool := p, store := s }, w'⟩

theorem reassert_outcome (e : Entry) (dir : Layer) (d : Daemon σ)
    (he : d.core.store.table.get? e.container = some e) :
    h.CreateOutcome e.container dir d (Act.run (h.reassert e dir) d).1
      (Act.run (h.reassert e dir) d).2 := by
  rw [reassert, run_bind, run_markUsed]
  rcases hp : d.core.pool.markUsed e.projectId with f | p
  · exact .refused e f he hp
  · simp only
    cases hl : isLayerOf e dir with
    | true => exact .kept e p _ he hp (Quiet.refl _)
    | false => exact .kept e p _ he hp (Aside.log _ _).quiet

theorem create_outcome (c : String) (dir : Layer) (d : Daemon σ) :
    h.CreateOutcome c dir d (Act.run (h.create c dir) d).1 (Act.run (h.create c dir) d).2 := by
  rw [create, run_bind, run_entry?]
  cases he : d.core.store.table.get? c with
  | some e =>
    have hc : e.container = c := (Table.get?_mem _ c e he).2
    subst hc
    exact h.reassert_outcome e dir d he
  | none =>
    simp only
    rw [run_bind]
    have ha := h.assign_outcome dir d
    generalize Act.run (h.assign dir) d = a at ha
    obtain ⟨r, d₁⟩ := a
    simp only at ha
    cases ha with
    | overtaken hc => exact .overtaken he hc
    | exhausted f ha => exact .exhausted f he ha
    | abandoned id p f w' ha hn => exact .abandoned id p f w' he ha hn
    | enforced id p w₁ ha hn =>
      simp only [record]
      cases hm : Entry.make (.text c) (.int id) dir with
      | invalid vs => exact .malformed id p vs w₁ he ha hn hm
      | valid e =>
        simp only
        rw [run_bind, run_attempt, run_onStore]
        rcases hs : d.core.store.put h.toDisk e w₁ with ⟨f | _, s, w₂⟩
        · simp only
          split
          · exact .recorded id p e _ s w₁ w₂ _ he ha hn hm hs (Aside.log _ _).quiet
          · exact .recorded id p e _ s w₁ w₂ _ he ha hn hm hs (Quiet.refl _)
        · exact .recorded id p e _ s w₁ w₂ _ he ha hn hm hs (Aside.log _ _).quiet

variable {h} in
theorem CreateOutcome.creation {c : String} {dir : Layer} {d d' : Daemon σ}
    {r : Except Failure Entry} (ho : h.CreateOutcome c dir d r d') : h.Creation c d d' := by
  cases ho with
  | kept e p w' he hp hq => exact .kept e p w' he hp hq
  | refused e f he hp => exact .idle
  | overtaken he hc => exact .idle
  | exhausted f he ha => exact .idle
  | abandoned id p f w' he ha hn => exact .abandoned dir id p f w' he ha hn
  | malformed id p vs w' he ha hn hm => exact .malformed dir id p w' he ha hn
  | recorded id p e r s w₁ w₂ w' he ha hn hm hs hq =>
    exact .recorded dir id p e r s w₁ w₂ w' he ha hn hm hs hq

/-! ### Deletion -/

/-- The IDs that the deletion of a container may clear: its own, or one of the range that no entry
has. -/
def Clearable (core : Core) (c : String) (id : Int) : Prop :=
  (∃ e, core.store.table.get? c = some e ∧ e.projectId = id) ∨
    (core.store.table.get? c = none ∧ core.pool.inRange id = true ∧
      ∀ e ∈ core.store.table, e.projectId ≠ id)

/-- How taking a container out of the record can end. -/
inductive Forgetting (c : String) (id : Int) (core : Core) (w : σ) :
    Except Failure (Option Int) → Daemon σ → Prop
  | done (s : Store) (w₁ w' : σ) (hs : core.store.remove h.toDisk c w = (.ok (), s, w₁))
    (hq : h.Quiet w₁ w') :
    Forgetting c id core w (.ok (some id))
      ⟨{ core with pool := core.pool.release id, store := s }, w'⟩
  | failed (f : Failure) (s : Store) (w' : σ)
    (hs : core.store.remove h.toDisk c w = (.error f, s, w')) :
    Forgetting c id core w (.error f) ⟨{ core with store := s }, w'⟩

/-- How deleting a container can end: nothing is cleared, the clearing breaks off, or the container
is forgotten after its limits were cleared, or after its directory was found to be gone. -/
inductive Deletion (c : String) (d : Daemon σ) : Except Failure (Option Int) → Daemon σ → Prop
  | idle (r : Except Failure (Option Int)) (w' : σ) (hr : ∀ id, r ≠ .ok (some id))
    (hq : h.Quiet d.outside w') : Deletion c d r ⟨d.core, w'⟩
  | unclear (id : Int) (f : Failure) (w₁ w' : σ) (hc : Clearable d.core c id)
    (hq : h.Quiet d.outside w₁) (hl : h.setLimit id noLimit noLimit w₁ = (.error f, w')) :
    Deletion c d (.error f) ⟨d.core, w'⟩
  | cleared (id : Int) (rl : Except Failure Unit) (w₁ w₂ w₃ : σ) (r : Except Failure (Option Int))
    (d' : Daemon σ) (hc : Clearable d.core c id) (hq : h.Quiet d.outside w₁)
    (hl : h.setLimit id noLimit noLimit w₁ = (rl, w₂)) (hn : h.Quiet w₂ w₃)
    (hf : h.Forgetting c id d.core w₃ r d') : Deletion c d r d'
  | gone (e : Entry) (w₁ : σ) (r : Except Failure (Option Int)) (d' : Daemon σ)
    (he : d.core.store.table.get? c = some e) (hq : h.Quiet d.outside w₁)
    (hf : h.Forgetting c e.projectId d.core w₁ r d') : Deletion c d r d'

/-- How choosing the ID to clear can end: it is the recorded one, or one that the directory carries
and no entry has, or there is none, or the directory cannot be held against the record. -/
inductive ChoiceOutcome (c : String) (dir : Layer) (core : Core) (w : σ) :
    Except Failure (Option Int) → σ → Prop
  | own (e : Entry) (r : Except Failure Int) (w₁ w' : σ)
    (he : core.store.table.get? c = some e) (ht : h.readTag dir w = (r, w₁))
    (hr : ∀ found, r = .ok found → found = 0 ∨ found = e.projectId) (hq : h.Quiet w₁ w') :
    ChoiceOutcome c dir core w (.ok (some e.projectId)) w'
  | adopted (id : Int) (w₁ w' : σ) (he : core.store.table.get? c = none)
    (ht : h.readTag dir w = (.ok id, w₁)) (hin : core.pool.inRange id = true)
    (hno : ∀ e ∈ core.store.table, e.projectId ≠ id) (hq : h.Quiet w₁ w') :
    ChoiceOutcome c dir core w (.ok (some id)) w'
  | unclaimed (found : Int) (w₁ w' : σ) (he : core.store.table.get? c = none)
    (ht : h.readTag dir w = (.ok found, w₁))
    (hno : found = 0 ∨ core.pool.inRange found = false ∨
      ∃ e ∈ core.store.table, e.projectId = found)
    (hq : h.Quiet w₁ w') : ChoiceOutcome c dir core w (.ok none) w'
  | unread (f : Failure) (w' : σ) (ht : h.readTag dir w = (.error f, w')) :
    ChoiceOutcome c dir core w (.error f) w'
  | inconsistent (e : Entry) (found : Int) (w' : σ) (he : core.store.table.get? c = some e)
    (ht : h.readTag dir w = (.ok found, w')) (hne : found ≠ 0 ∧ found ≠ e.projectId) :
    ChoiceOutcome c dir core w (.error (.inconsistent c e.projectId found)) w'

theorem adopt_outcome (c : String) (dir : Layer) (found : Int) (core : Core) (w w₁ : σ)
    (he : core.store.table.get? c = none) (ht : h.readTag dir w = (.ok found, w₁)) :
    ∃ r w', Act.run (h.adopt c dir found) ⟨core, w₁⟩ = (r, ⟨core, w'⟩) ∧
      h.ChoiceOutcome c dir core w r w' := by
  rw [adopt, run_bind, run_core]
  simp only
  cases hr : core.pool.inRange found with
  | false => exact ⟨_, _, rfl, .unclaimed found w₁ _ he ht (.inr (.inl hr)) (Aside.log _ _).quiet⟩
  | true =>
    simp only [Bool.not_true, Bool.false_eq_true, if_false]
    cases ho : core.store.table.find? (·.projectId == found) with
    | some owner =>
      have hid : owner.projectId = found := by simpa using List.find?_some ho
      have hown := List.mem_of_find?_eq_some ho
      exact ⟨_, _, rfl,
        .unclaimed found w₁ _ he ht (.inr (.inr ⟨owner, hown, hid⟩)) (Aside.log _ _).quiet⟩
    | none =>
      have hno : ∀ e ∈ core.store.table, e.projectId ≠ found :=
        fun e hm => by simpa using List.find?_eq_none.mp ho e hm
      exact ⟨_, _, rfl, .adopted found w₁ _ he ht hr hno (Aside.log _ _).quiet⟩

theorem idToClear_outcome (c : String) (dir : Layer) (d : Daemon σ) :
    ∃ r w', Act.run (h.idToClear c dir ((d.core.store.table.get? c).map (·.projectId))) d
        = (r, ⟨d.core, w'⟩) ∧ h.ChoiceOutcome c dir d.core d.outside r w' := by
  rw [idToClear, run_bind, run_attempt, run_call]
  rcases ht : h.readTag dir d.outside with ⟨r, w₁⟩
  cases he : d.core.store.table.get? c with
  | none =>
    rcases r with f | found
    · cases f <;> exact ⟨_, w₁, rfl, .unread _ w₁ ht⟩
    · simp only [Option.map_none, judge]
      split
      · rename_i h0
        exact ⟨_, _, rfl, .unclaimed found w₁ _ he ht (.inl h0) (Aside.log _ _).quiet⟩
      · exact h.adopt_outcome c dir found d.core d.outside w₁ he ht
  | some e =>
    rcases r with f | found
    · cases f with
      | enforcement m cmd out =>
        exact ⟨_, _, rfl, .own e _ w₁ _ he ht nofun (Aside.log _ _).quiet⟩
      | _ => exact ⟨_, w₁, rfl, .unread _ w₁ ht⟩
    · simp only [Option.map_some, judge]
      split
      · rename_i hfound
        refine ⟨_, w₁, rfl, .own e _ w₁ w₁ he ht ?_ (Quiet.refl _)⟩
        rintro _ ⟨⟩
        exact hfound
      · rename_i hfound
        exact ⟨_, w₁, rfl, .inconsistent e found w₁ he ht (not_or.mp hfound)⟩

theorem forget_outcome (c : String) (dir : Layer) (id : Int) (d : Daemon σ) :
    h.Forgetting c id d.core d.outside
      (Act.run (do return some (← h.forget c dir id)) d).1
      (Act.run (do return some (← h.forget c dir id)) d).2 := by
  rw [forget, run_bind, run_bind, run_onStore]
  rcases hs : d.core.store.remove h.toDisk c d.outside with ⟨f | _, s, w₁⟩
  · exact .failed f s w₁ hs
  · exact .done s w₁ _ hs (Aside.log _ _).quiet

theorem clearLimit_outcome (c : String) (dir : Layer) (id : Int) (d : Daemon σ) :
    (∃ rl w₁ w', h.setLimit id noLimit noLimit d.outside = (rl, w₁) ∧ h.Quiet w₁ w' ∧
      Act.run (h.clearLimit c dir id) d = (.ok (), ⟨d.core, w'⟩)) ∨
    ∃ f w', h.setLimit id noLimit noLimit d.outside = (.error f, w') ∧
      (∀ m cmd out, f ≠ .enforcement m cmd out) ∧
      Act.run (h.clearLimit c dir id) d = (.error f, ⟨d.core, w'⟩) := by
  rw [clearLimit, run_bind, run_attempt, run_call]
  rcases hl : h.setLimit id noLimit noLimit d.outside with ⟨f | _, w₁⟩
  · cases f with
    | enforcement m cmd out => exact .inl ⟨_, w₁, _, rfl, (Aside.log _ _).quiet, rfl⟩
    | _ => exact .inr ⟨_, w₁, rfl, nofun, rfl⟩
  · exact .inl ⟨_, w₁, w₁, rfl, Quiet.refl _, rfl⟩

/-- How deleting a container can end, with the calls on the way and what they answered. -/
inductive DeleteOutcome (c : String) (d : Daemon σ) :
    Except Failure (Option Int) → Daemon σ → Prop
  | overtaken (hc : h.cancelled d.outside = true) : DeleteOutcome c d (.error .cancelled) d
  | unresolved (f : Failure) (w' : σ) (hr : h.resolve c d.outside = (.error f, w')) :
    DeleteOutcome c d (.error f) ⟨d.core, w'⟩
  | unseen (dir : Layer) (f : Failure) (w₁ w' : σ) (hr : h.resolve c d.outside = (.ok dir, w₁))
    (hp : h.isPresent dir w₁ = (.error f, w')) : DeleteOutcome c d (.error f) ⟨d.core, w'⟩
  | absent (dir : Layer) (w₁ w₂ w' : σ) (hr : h.resolve c d.outside = (.ok dir, w₁))
    (hp : h.isPresent dir w₁ = (.ok false, w₂)) (he : d.core.store.table.get? c = none)
    (hq : h.Quiet w₂ w') : DeleteOutcome c d (.ok none) ⟨d.core, w'⟩
  | unchosen (dir : Layer) (r : Except Failure (Option Int)) (w₁ w₂ w' : σ)
    (hr : h.resolve c d.outside = (.ok dir, w₁)) (hp : h.isPresent dir w₁ = (.ok true, w₂))
    (hc : h.ChoiceOutcome c dir d.core w₂ r w') (hn : ∀ id, r ≠ .ok (some id)) :
    DeleteOutcome c d r ⟨d.core, w'⟩
  | unclear (dir : Layer) (id : Int) (f : Failure) (w₁ w₂ w₃ w' : σ)
    (hr : h.resolve c d.outside = (.ok dir, w₁)) (hp : h.isPresent dir w₁ = (.ok true, w₂))
    (hc : h.ChoiceOutcome c dir d.core w₂ (.ok (some id)) w₃)
    (hl : h.setLimit id noLimit noLimit w₃ = (.error f, w'))
    (hf : ∀ m cmd out, f ≠ .enforcement m cmd out) : DeleteOutcome c d (.error f) ⟨d.core, w'⟩
  | cleared (dir : Layer) (id : Int) (rl : Except Failure Unit) (w₁ w₂ w₃ w₄ w₅ : σ)
    (r : Except Failure (Option Int)) (d' : Daemon σ)
    (hr : h.resolve c d.outside = (.ok dir, w₁)) (hp : h.isPresent dir w₁ = (.ok true, w₂))
    (hc : h.ChoiceOutcome c dir d.core w₂ (.ok (some id)) w₃)
    (hl : h.setLimit id noLimit noLimit w₃ = (rl, w₄)) (hq : h.Quiet w₄ w₅)
    (hf : h.Forgetting c id d.core w₅ r d') : DeleteOutcome c d r d'
  | gone (dir : Layer) (e : Entry) (w₁ w₂ : σ) (r : Except Failure (Option Int)) (d' : Daemon σ)
    (hr : h.resolve c d.outside = (.ok dir, w₁)) (hp : h.isPresent dir w₁ = (.ok false, w₂))
    (he : d.core.store.table.get? c = some e)
    (hf : h.Forgetting c e.projectId d.core w₂ r d') : DeleteOutcome c d r d'

theorem handleDelete_outcome (c : String) (d : Daemon σ) :
    h.DeleteOutcome c d (Act.run (h.handleDelete c) d).1 (Act.run (h.handleDelete c) d).2 := by
  rw [handleDelete, run_bind, run_checkpoint]
  cases hc : h.cancelled d.outside with
  | true => exact .overtaken hc
  | false =>
    simp only [Bool.false_eq_true, if_false]
    rw [run_bind, run_call]
    rcases hr : h.resolve c d.outside with ⟨f | dir, w₁⟩
    · exact .unresolved f w₁ hr
    · simp only
      rw [run_bind, run_entry?]
      simp only
      rw [run_bind, run_call]
      rcases hp : h.isPresent dir w₁ with ⟨f | present, w₂⟩
      · exact .unseen dir f w₁ w₂ hr hp
      · simp only
        cases present with
        | true =>
          simp only [if_true]
          obtain ⟨r, w₃, hrun, hchoice⟩ := h.idToClear_outcome c dir ⟨d.core, w₂⟩
          rw [run_bind, hrun]
          rcases r with f | _ | id
          · exact .unchosen dir _ w₁ w₂ w₃ hr hp hchoice nofun
          · exact .unchosen dir _ w₁ w₂ w₃ hr hp hchoice nofun
          · simp only
            rw [run_bind]
            obtain ⟨rl, w₄, w₅, hl, hq, hrun⟩ | ⟨f, w₄, hl, hf, hrun⟩ :=
              h.clearLimit_outcome c dir id ⟨d.core, w₃⟩
            · rw [hrun]
              exact .cleared dir id rl w₁ w₂ w₃ w₄ w₅ _ _ hr hp hchoice hl hq
                (h.forget_outcome c dir id ⟨d.core, w₅⟩)
            · rw [hrun]
              exact .unclear dir id f w₁ w₂ w₃ w₄ hr hp hchoice hl hf
        | false =>
          simp only [Bool.false_eq_true, if_false]
          cases he : d.core.store.table.get? c with
          | none => exact .absent dir w₁ w₂ _ hr hp he (Aside.log _ _).quiet
          | some e =>
            exact .gone dir e w₁ w₂ _ _ hr hp he (h.forget_outcome c dir e.projectId ⟨d.core, w₂⟩)

section Summary

variable {h} {c : String} {dir : Layer} {w w₁ w₂ : σ}

theorem Quiet.ofResolve {r : Except Failure Layer} (hr : h.resolve c w = (r, w₁)) :
    h.Quiet w w₁ := by
  have hq := (Aside.resolve (h := h) c w).quiet
  rw [hr] at hq
  exact hq

theorem Quiet.ofPresent {r : Except Failure Bool} (hp : h.isPresent dir w = (r, w₁)) :
    h.Quiet w w₁ := by
  have hq := (Aside.isPresent (h := h) dir w).quiet
  rw [hp] at hq
  exact hq

theorem Quiet.ofReadTag {r : Except Failure Int} (ht : h.readTag dir w = (r, w₁)) :
    h.Quiet w w₁ := by
  have hq := (Aside.readTag (h := h) dir w).quiet
  rw [ht] at hq
  exact hq

theorem ChoiceOutcome.quiet {core : Core} {r : Except Failure (Option Int)}
    (hc : h.ChoiceOutcome c dir core w r w₁) : h.Quiet w w₁ := by
  cases hc with
  | own e r w₁ w' he ht hr hq => exact (Quiet.ofReadTag ht).trans hq
  | adopted id w₁ w' he ht hin hno hq => exact (Quiet.ofReadTag ht).trans hq
  | unclaimed found w₁ w' he ht hno hq => exact (Quiet.ofReadTag ht).trans hq
  | unread f w' ht => exact Quiet.ofReadTag ht
  | inconsistent e found w' he ht hne => exact Quiet.ofReadTag ht

theorem ChoiceOutcome.clearable {core : Core} {id : Int}
    (hc : h.ChoiceOutcome c dir core w (.ok (some id)) w₁) : Clearable core c id := by
  cases hc with
  | own e r w₁ w' he ht hr hq => exact .inl ⟨e, he, rfl⟩
  | adopted id w₁ w' he ht hin hno hq => exact .inr ⟨he, hin, hno⟩

theorem DeleteOutcome.deletion {d d' : Daemon σ} {r : Except Failure (Option Int)}
    (ho : h.DeleteOutcome c d r d') : h.Deletion c d r d' := by
  cases ho with
  | overtaken hc => exact .idle _ _ nofun (Quiet.refl _)
  | unresolved f w' hr => exact .idle _ _ nofun (Quiet.ofResolve hr)
  | unseen dir f w₁ w' hr hp =>
    exact .idle _ _ nofun ((Quiet.ofResolve hr).trans (Quiet.ofPresent hp))
  | absent dir w₁ w₂ w' hr hp he hq =>
    exact .idle _ _ nofun (((Quiet.ofResolve hr).trans (Quiet.ofPresent hp)).trans hq)
  | unchosen dir r w₁ w₂ w' hr hp hc hn =>
    exact .idle _ _ hn (((Quiet.ofResolve hr).trans (Quiet.ofPresent hp)).trans hc.quiet)
  | unclear dir id f w₁ w₂ w₃ w' hr hp hc hl hf =>
    exact .unclear id f w₃ w' hc.clearable
      (((Quiet.ofResolve hr).trans (Quiet.ofPresent hp)).trans hc.quiet) hl
  | cleared dir id rl w₁ w₂ w₃ w₄ w₅ r d' hr hp hc hl hq hf =>
    exact .cleared id rl w₃ w₄ w₅ r d' hc.clearable
      (((Quiet.ofResolve hr).trans (Quiet.ofPresent hp)).trans hc.quiet) hl hq hf
  | gone dir e w₁ w₂ r d' hr hp he hf =>
    exact .gone e w₂ r d' he ((Quiet.ofResolve hr).trans (Quiet.ofPresent hp)) hf

end Summary

theorem handleDelete_deletion (c : String) (d : Daemon σ) :
    h.Deletion c d (Act.run (h.handleDelete c) d).1 (Act.run (h.handleDelete c) d).2 :=
  (h.handleDelete_outcome c d).deletion

end LayerQuota.Host
