import LayerQuota.Proofs.Daemon.Regular
/-!
# An entry lasts from its creation to its deletion

The entry of a container depends on nothing but what creations and deletions answered: it comes with
a creation of the container that succeeded, it goes with a deletion of the container that answered
its ID, and whatever else happens leaves it as it is.
-/

namespace LayerQuota

inductive Answer
  | created (container : String) (r : Except Failure Entry)
  | deleted (container : String) (r : Except Failure (Option Int))

namespace Answer

/-- The entry of a container after an answer. A creation gives one to a container that has none. -/
def settle (c : String) (entry : Option Entry) : Answer → Option Entry
  | .created b (.ok e) => if b = c then entry.or (some e) else entry
  | .deleted b (.ok (some _)) => if b = c then none else entry
  | _ => entry

/-- What may become of the entry of a container where some answers were given. -/
inductive Turn (c : String) (as : List Answer) : Option Entry → Option Entry → Prop
  | same (entry : Option Entry) : Turn c as entry entry
  | came (e : Entry) (ha : .created c (.ok e) ∈ as) : Turn c as none (some e)
  | went (e : Entry) (ha : .deleted c (.ok (some e.projectId)) ∈ as) : Turn c as (some e) none

theorem settle_created (c b : String) (r : Except Failure Entry) (entry : Option Entry) :
    settle c entry (.created b r) = entry ∨
      ∃ e, r = .ok e ∧ b = c ∧ entry = none ∧ settle c entry (.created b r) = some e := by
  rcases r with f | e
  · exact .inl rfl
  · by_cases hb : b = c
    · cases entry with
      | none => exact .inr ⟨e, rfl, hb, rfl, by simp [settle, hb]⟩
      | some x => exact .inl (by simp [settle])
    · exact .inl (by simp [settle, hb])

theorem foldl_settle_some (c : String) (as : List Answer)
    (has : ∀ a ∈ as, ∃ b r, a = .created b r) (x : Entry) :
    as.foldl (settle c) (some x) = some x := by
  induction as with
  | nil => rfl
  | cons a as ih =>
    obtain ⟨b, r, rfl⟩ := has a List.mem_cons_self
    have hsame : settle c (some x) (.created b r) = some x := by
      rcases settle_created c b r (some x) with hsame | ⟨e, -, -, hnone, -⟩
      · exact hsame
      · cases hnone
    rw [List.foldl_cons, hsame]
    exact ih fun a ha => has a (List.mem_cons_of_mem _ ha)

theorem turn_of_created (c : String) (as : List Answer)
    (has : ∀ a ∈ as, ∃ b r, a = .created b r) (entry : Option Entry) :
    Turn c as entry (as.foldl (settle c) entry) := by
  cases entry with
  | some x =>
    rw [foldl_settle_some c as has x]
    exact .same _
  | none =>
    induction as with
    | nil => exact .same none
    | cons a as ih =>
      obtain ⟨b, r, rfl⟩ := has a List.mem_cons_self
      have hrest := fun a ha => has a (List.mem_cons_of_mem _ ha)
      rw [List.foldl_cons]
      rcases settle_created c b r none with hnone | ⟨e, rfl, rfl, -, hsome⟩
      · rw [hnone]
        have ht := ih hrest
        generalize as.foldl (settle c) none = entry at ht ⊢
        cases ht with
        | same => exact .same none
        | came e hm => exact .came e (List.mem_cons_of_mem _ hm)
      · rw [hsome, foldl_settle_some b as hrest e]
        exact .came e List.mem_cons_self

end Answer

namespace Host

open LayerQuota.Act

variable {σ : Type} (h : Host σ)

/-! ### What is answered -/

def eventAnswers (e : Event) (d : Daemon σ) : List Answer :=
  match e.kind with
  | .create => [.created e.container (Act.run (h.handleCreate e) d).1]
  | .delete => [.deleted e.container (Act.run (h.handleDelete e.container) d).1]

def visitAnswers (c : String) (d : Daemon σ) : List Answer :=
  match Act.run (h.vacancy c) d with
  | (.ok (some dir), d) => [.created c (Act.run (h.create c dir) d).1]
  | _ => []

/-- The answers on the visits of some containers, for as long as the pass goes on. -/
def passAnswers : List String → Report → Daemon σ → List Answer
  | [], _, _ => []
  | c :: rest, r, d =>
    h.visitAnswers c d ++
      match Act.run (h.visit c r) d with
      | (.ok (r, true), d) => passAnswers rest r d
      | _ => []

def reconcileAnswers (d : Daemon σ) : List Answer :=
  let d := (Act.run (h.reserveAll d.core.store.table) d).2
  match h.list d.outside with
  | (.ok live, w) => h.passAnswers live (Report.opening live.length) ⟨d.core, w⟩
  | (.error _, _) => []

/-- What the creations and the deletions on a request answer. -/
def answers (d : Daemon σ) : Request σ → List Answer
  | .reconcile => h.reconcileAnswers d
  | .handle e => h.eventAnswers e d
  | .meanwhile _ => []

/-- All answers on requests one after another. -/
def transcript (d : Daemon σ) : List (Request σ) → List Answer
  | [] => []
  | q :: qs => h.answers d q ++ transcript (h.serve d q) qs

theorem visitAnswers_created (c : String) (d : Daemon σ) :
    ∀ a ∈ h.visitAnswers c d, ∃ b r, a = .created b r := by
  intro a ha
  unfold visitAnswers at ha
  split at ha
  · exact ⟨c, _, List.mem_singleton.mp ha⟩
  · cases ha

theorem passAnswers_created (live : List String) (r : Report) (d : Daemon σ) :
    ∀ a ∈ h.passAnswers live r d, ∃ b r, a = .created b r := by
  induction live generalizing r d with
  | nil => exact fun a ha => absurd ha List.not_mem_nil
  | cons c live ih =>
    intro a ha
    rcases List.mem_append.mp ha with ha | ha
    · exact h.visitAnswers_created c d a ha
    · split at ha
      · exact ih _ _ a ha
      · cases ha

theorem reconcileAnswers_created (d : Daemon σ) :
    ∀ a ∈ h.reconcileAnswers d, ∃ b r, a = .created b r := by
  intro a ha
  simp only [reconcileAnswers] at ha
  split at ha
  · exact h.passAnswers_created _ _ _ a ha
  · cases ha

/-! ### What becomes of an entry -/

variable {h} {c : String} {d d' : Daemon σ}

theorem CreateOutcome.entry {dir : Layer} {r : Except Failure Entry}
    (ho : h.CreateOutcome c dir d r d') (hn : Store.Nameable h.toDisk d.core.store.path)
    (b : String) :
    d'.core.store.table.get? b = Answer.settle b (d.core.store.table.get? b) (.created c r) := by
  cases ho with
  | kept e p w' he hp hq =>
    by_cases hb : c = b
    · subst hb
      simp [Answer.settle, he]
    · simp [Answer.settle, hb]
  | refused e f he hp => rfl
  | overtaken he hc => rfl
  | exhausted f he ha => rfl
  | abandoned id p f w' he ha hen => rfl
  | malformed id p vs w' he ha hen hm => rfl
  | recorded id p e r s w₁ w₂ w' he ha hen hm hs hq =>
    obtain ⟨rfl, -, -⟩ := Entry.make_eq_valid c id dir e hm
    rcases Store.put_settled _ _ _ e _ _ r hn hs with ⟨rfl, rfl⟩ | ⟨⟨fault, rfl⟩, rfl⟩
    · by_cases hb : e.container = b
      · subst hb
        simp [Answer.settle, Except.map, he, Table.get?_put_self]
      · simp [Answer.settle, Except.map, hb, Table.get?_put_other _ e b (Ne.symm hb)]
    · rfl

theorem Forgetting.entry {id : Int} {core : Core} {w : σ} {r : Except Failure (Option Int)}
    (hf : h.Forgetting c id core w r d') (hn : Store.Nameable h.toDisk core.store.path)
    (b : String) :
    d'.core.store.table.get? b = Answer.settle b (core.store.table.get? b) (.deleted c r) := by
  have hunsaved := hf.unsaved hn
  have ho := hf.forgotten
  generalize d'.core = core' at ho ⊢
  cases ho with
  | done =>
    by_cases hb : c = b
    · subst hb
      simp [Answer.settle, Table.get?_remove_self]
    · simp [Answer.settle, hb, Table.get?_remove_other _ c b (Ne.symm hb)]
  | undone e he f hu => exact Table.get?_remove_append _ c b e he
  | unwritten e he f hu => exact absurd ((hunsaved f rfl).symm.trans hu) nofun

theorem Deletion.entry {r : Except Failure (Option Int)} (hd : h.Deletion c d r d')
    (hn : Store.Nameable h.toDisk d.core.store.path) (b : String) :
    d'.core.store.table.get? b = Answer.settle b (d.core.store.table.get? b) (.deleted c r) := by
  cases hd with
  | idle r w' hr hq =>
    rcases r with f | _ | id
    · rfl
    · rfl
    · exact absurd rfl (hr id)
  | unclear id f w₁ w' hc hq hl => rfl
  | cleared id rl w₁ w₂ w₃ r d' hc hq hl hq' hf => exact hf.entry hn b
  | gone e w₁ r d' he hq hf => exact hf.entry hn b

/-- A deletion that answers an ID answers that of the entry. -/
theorem Deletion.answered {r : Except Failure (Option Int)} {id : Int} (hd : h.Deletion c d r d')
    (hr : r = .ok (some id)) (e : Entry) (he : d.core.store.table.get? c = some e) :
    e.projectId = id := by
  have hforget : ∀ n w, h.Forgetting c n d.core w r d' → n = id := by
    intro n w hf
    have ho := hf.forgotten
    subst hr
    generalize d'.core = core' at ho
    cases ho with
    | done => rfl
  cases hd with
  | idle r w' hno hq => exact absurd hr (hno id)
  | unclear n f w₁ w' hc hq hl => cases hr
  | cleared n rl w₁ w₂ w₃ r d' hc hq hl hq' hf =>
    rcases hc with ⟨x, hx, rfl⟩ | ⟨hnone, -⟩
    · cases he.symm.trans hx
      exact hforget _ _ hf
    · cases he.symm.trans hnone
  | gone x w₁ r d' hx hq hf =>
    cases he.symm.trans hx
    exact hforget _ _ hf

/-! ### Requests -/

theorem handleEvent_entry (e : Event) (d : Daemon σ)
    (hn : Store.Nameable h.toDisk d.core.store.path) :
    (h.serve d (.handle e)).core.store.table.get? c =
      (h.eventAnswers e d).foldl (Answer.settle c) (d.core.store.table.get? c) := by
  have hb : h.Beside (Act.run (h.applyEvent e) d).2 (h.serve d (.handle e)) :=
    h.handleEvent_beside e d
  rw [hb.store]
  unfold eventAnswers
  cases hk : e.kind with
  | create =>
    rw [h.applyEvent_create e hk, handleCreate_eq, run_bind]
    obtain ⟨r, w, hrun, -, -⟩ := h.layerOf_outcome e d
    rw [hrun]
    rcases r with f | dir
    · rfl
    · exact (h.create_outcome e.container dir ⟨d.core, w⟩).entry hn c
  | delete =>
    rw [h.applyEvent_delete e hk]
    exact (h.handleDelete_deletion e.container d).entry hn c

theorem visitAnswers_eq_nil (c : String) (d : Daemon σ)
    (hv : ∀ dir, (Act.run (h.vacancy c) d).1 ≠ .ok (some dir)) : h.visitAnswers c d = [] := by
  unfold visitAnswers
  split
  · rename_i dir d₁ heq
    exact absurd (congrArg Prod.fst heq) (hv dir)
  · rfl

theorem visit_entry (b : String) (r : Report) (d : Daemon σ)
    (hn : Store.Nameable h.toDisk d.core.store.path) :
    (Act.run (h.visit b r) d).2.core.store.table.get? c =
      (h.visitAnswers b d).foldl (Answer.settle c) (d.core.store.table.get? c) := by
  have ho := h.visit_outcome b r d
  generalize hv : Act.run (h.vacancy b) d = v at ho
  generalize (Act.run (h.visit b r) d).2 = d' at ho ⊢
  cases ho with
  | beside v d' hnone hb =>
    rw [visitAnswers_eq_nil b d (hv ▸ hnone), hb.store]
    rfl
  | kept e p v w' hnone he hp hq =>
    rw [visitAnswers_eq_nil b d (hv ▸ hnone)]
    rfl
  | supplied dir w d' hdir hq hb =>
    unfold visitAnswers
    rw [hv, hb.store]
    exact (h.create_outcome b dir ⟨d.core, w⟩).entry hn c

theorem visit_path (b : String) (r : Report) (d : Daemon σ) :
    (Act.run (h.visit b r) d).2.core.store.path = d.core.store.path :=
  visit_keeps (fun d' => d'.core.store.path = d.core.store.path)
    (fun _ _ _ heq hd => hd.path.trans heq) b r d rfl

theorem visitAll_entry (live : List String) (r : Report) (d : Daemon σ)
    (hn : Store.Nameable h.toDisk d.core.store.path) :
    (Act.run (h.visitAll live r) d).2.core.store.table.get? c =
      (h.passAnswers live r d).foldl (Answer.settle c) (d.core.store.table.get? c) := by
  induction live generalizing r d with
  | nil => rfl
  | cons b live ih =>
    rw [visitAll, passAnswers, run_bind, List.foldl_append, ← h.visit_entry b r d hn]
    have hpath := visit_path (h := h) b r d
    generalize Act.run (h.visit b r) d = a at hpath
    obtain ⟨f | ⟨r', more⟩, d₁⟩ := a
    · rfl
    · cases more with
      | true => exact ih r' d₁ (hpath ▸ hn)
      | false => rfl

theorem reconcile_entry (d : Daemon σ) (hn : Store.Nameable h.toDisk d.core.store.path) :
    (h.serve d .reconcile).core.store.table.get? c =
      (h.reconcileAnswers d).foldl (Answer.settle c) (d.core.store.table.get? c) := by
  obtain ⟨d₁, hrun, hr, hp⟩ := h.reconcile_pass d
  simp only [serve, reconcileAnswers, hrun]
  rw [← hr.store] at hn ⊢
  generalize (Act.run h.reconcile d).2 = d' at hp ⊢
  cases hp with
  | unlisted f w hl =>
    rw [hl]
    rfl
  | listed live w d' hl hb =>
    rw [hl, hb.store]
    exact h.visitAll_entry live _ ⟨d₁.core, w⟩ hn

theorem serve_entry (d : Daemon σ) (q : Request σ)
    (hn : Store.Nameable h.toDisk d.core.store.path) :
    (h.serve d q).core.store.table.get? c =
      (h.answers d q).foldl (Answer.settle c) (d.core.store.table.get? c) := by
  cases q with
  | reconcile => exact reconcile_entry d hn
  | handle e => exact handleEvent_entry e d hn
  | meanwhile f => rfl

/-! ### Runs -/

theorem serveAll_entry (qs : List (Request σ)) (d : Daemon σ)
    (hn : Store.Nameable h.toDisk d.core.store.path) :
    (h.serveAll d qs).core.store.table.get? c =
      (h.transcript d qs).foldl (Answer.settle c) (d.core.store.table.get? c) := by
  induction qs generalizing d with
  | nil => rfl
  | cons q qs ih =>
    rw [transcript, List.foldl_append, ← serve_entry d q hn]
    exact ih (h.serve d q) ((serve_path d q).symm ▸ hn)

theorem serve_turn (d : Daemon σ) (q : Request σ)
    (hn : Store.Nameable h.toDisk d.core.store.path) :
    Answer.Turn c (h.answers d q) (d.core.store.table.get? c)
      ((h.serve d q).core.store.table.get? c) := by
  rw [serve_entry d q hn]
  cases q with
  | meanwhile f => exact .same _
  | reconcile => exact Answer.turn_of_created c _ (h.reconcileAnswers_created d) _
  | handle e =>
    simp only [answers, eventAnswers]
    cases e.kind with
    | create =>
      exact Answer.turn_of_created c _ (fun a ha => ⟨_, _, List.mem_singleton.mp ha⟩) _
    | delete =>
      simp only [List.foldl_cons, List.foldl_nil]
      have hd := h.handleDelete_deletion e.container d
      generalize (Act.run (h.handleDelete e.container) d).1 = r at hd
      rcases r with f | _ | id
      · exact .same _
      · exact .same _
      · by_cases hc : e.container = c
        · cases he : d.core.store.table.get? c with
          | none => simpa [Answer.settle, hc] using Answer.Turn.same none
          | some x =>
            have hid : x.projectId = id := hd.answered rfl x (hc ▸ he)
            simp only [Answer.settle, hc, if_true]
            exact .went x (by simp [hid])
        · simpa [Answer.settle, hc] using Answer.Turn.same _

/-- In every run, the entry of a container comes with a creation of it that succeeded and goes with
a deletion of it that answered its ID. It is never replaced or altered. -/
theorem entry_lasts (h : Host σ) (d : Daemon σ) (hn : Store.Nameable h.toDisk d.core.store.path)
    (qs : List (Request σ)) (q : Request σ) (c : String) :
    let d₁ := h.serveAll d qs
    Answer.Turn c (h.answers d₁ q) (d₁.core.store.table.get? c)
        ((h.serve d₁ q).core.store.table.get? c) ∧
      d₁.core.store.table.get? c =
        (h.transcript d qs).foldl (Answer.settle c) (d.core.store.table.get? c) :=
  ⟨serve_turn _ q ((serveAll_path d qs).symm ▸ hn), serveAll_entry qs d hn⟩

/-- A container is created, created again on another directory, and deleted when the disk is full;
then there is room again. -/
def deleteTwice : List (Request Bool) :=
  [.reconcile, .handle ⟨.create, "c", []⟩,
    .handle ⟨.create, "c", [⟨"overlay", "overlay", ["upperdir=/u/2"]⟩]⟩, .meanwhile fun _ => true,
    .handle ⟨.delete, "c", []⟩, .meanwhile fun _ => false]

theorem deleteTwice_entry_lasts :
    let d : Daemon Bool :=
      ⟨Core.opening ⟨"10g", "12g", .ofInt 5, none⟩ ⟨1, 2, []⟩ ⟨"", []⟩, false⟩
    let d₁ := onFullDisk.serveAll d deleteTwice
    let q : Request Bool := .handle ⟨.delete, "c", []⟩
    d₁.core.store.table.get? "c" = some ⟨"c", 1, "c"⟩ ∧
      (onFullDisk.serve d₁ q).core.store.table.get? "c" = none ∧
      Answer.Turn "c" (onFullDisk.answers d₁ q) (d₁.core.store.table.get? "c")
        ((onFullDisk.serve d₁ q).core.store.table.get? "c") ∧
      d₁.core.store.table.get? "c" =
        (onFullDisk.transcript d deleteTwice).foldl (Answer.settle "c")
          (d.core.store.table.get? "c") :=
  ⟨by decide +kernel, by decide +kernel,
    entry_lasts onFullDisk _ (onFullDisk_nameable "") deleteTwice _ "c"⟩

end Host

end LayerQuota
