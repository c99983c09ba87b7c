import LayerQuota.Proofs.Daemon.Answers
import LayerQuota.Proofs.Daemon.Convergence
/-!
# Which tags tell containers apart

A tag is never taken off its directory. It stays when the container ends, and when its creation
breaks off at the limits, and its ID goes on to others. What every step keeps is that the directory
of a recorded container carries the ID of its entry: so the containers whose creation succeeded
carry different tags. The directory of one whose creation failed may carry the tag of another.
-/

namespace LayerQuota

/-! ### The last answers -/

namespace Answer

def container : Answer → String
  | .created c _ => c
  | .deleted c _ => c

def kind : Answer → EventKind
  | .created _ _ => .create
  | .deleted _ _ => .delete

def isFailure : Answer → Bool
  | .created _ (.error _) => true
  | .deleted _ (.error _) => true
  | _ => false

def latest (as : List Answer) (c : String) : Option Answer :=
  as.reverse.find? (·.container == c)

theorem latest_snoc (as : List Answer) (a : Answer) (c : String) :
    latest (as ++ [a]) c = if a.container = c then some a else latest as c := by
  simp only [latest, find?_reverse_snoc, beq_iff_eq]

theorem container_of_latest {as : List Answer} {c : String} {a : Answer}
    (ha : latest as c = some a) : a.container = c := by
  simpa using List.find?_some ha

theorem settle_other {a : Answer} {c : String} (hc : a.container ≠ c) (entry : Option Entry) :
    settle c entry a = entry := by
  rcases a with ⟨b, f | e⟩ | ⟨b, f | _ | id⟩
  · rfl
  · exact if_neg hc
  · rfl
  · rfl
  · exact if_neg hc

/-- A container has an entry where the last answer about it is that its creation succeeded. -/
theorem settled_of_latest (as : List Answer) (c : String) (x : Entry) (entry : Option Entry)
    (hx : latest as c = some (.created c (.ok x))) : ∃ e, as.foldl (settle c) entry = some e := by
  induction as using List.reverseRecOn with
  | nil => cases hx
  | append_singleton as a ih =>
    rw [latest_snoc] at hx
    rw [List.foldl_append, List.foldl_cons, List.foldl_nil]
    by_cases hc : a.container = c
    · rw [if_pos hc] at hx
      cases hx
      cases hentry : as.foldl (settle c) entry with
      | none => exact ⟨x, by simp [settle]⟩
      | some e => exact ⟨e, by simp [settle]⟩
    · rw [if_neg hc] at hx
      rw [settle_other hc]
      exact ih hx

end Answer

namespace Host

open LayerQuota.Act

section Answers

variable {σ : Type} (h : Host σ)

theorem transcript_snoc (qs : List (Request σ)) (q : Request σ) (d : Daemon σ) :
    h.transcript d (qs ++ [q]) = h.transcript d qs ++ h.answers (h.serveAll d qs) q := by
  induction qs generalizing d with
  | nil => exact List.append_nil _
  | cons p qs ih =>
    rw [List.cons_append, transcript, transcript, ih, List.append_assoc]
    rfl

theorem eventAnswers_single (e : Event) (d : Daemon σ) :
    ∃ a, h.eventAnswers e d = [a] ∧ a.container = e.container ∧ a.kind = e.kind := by
  unfold eventAnswers
  cases hk : e.kind with
  | create => exact ⟨_, rfl, rfl, rfl⟩
  | delete => exact ⟨_, rfl, rfl, rfl⟩

/-- The last answer about a container is on its last event. -/
theorem latest_transcript (es : List Event) (d : Daemon σ) (c : String) :
    (Answer.latest (h.transcript d (es.map .handle)) c).map (·.kind) = Event.latest es c := by
  induction es using List.reverseRecOn with
  | nil => rfl
  | append_singleton es e ih =>
    obtain ⟨a, ha, hcontainer, hkind⟩ := h.eventAnswers_single e (h.serveAll d (es.map .handle))
    rw [List.map_append, List.map_singleton, transcript_snoc, answers, ha, Answer.latest_snoc,
      Event.latest_snoc, hcontainer]
    by_cases hc : e.container = c
    · rw [if_pos hc, if_pos hc, Option.map_some, hkind]
    · rw [if_neg hc, if_neg hc]
      exact ih

/-- A container that was created last, by a creation that did not fail. -/
def Running (es : List Event) (as : List Answer) (c : String) : Prop :=
  Event.latest es c = some .create ∧ ∀ a ∈ Answer.latest as c, a.isFailure = false

instance (es : List Event) (as : List Answer) (c : String) : Decidable (Running es as c) :=
  inferInstanceAs (Decidable (_ ∧ _))

theorem Running.latest {es : List Event} {d : Daemon σ} {c : String}
    (hr : Running es (h.transcript d (es.map .handle)) c) :
    ∃ x, Answer.latest (h.transcript d (es.map .handle)) c = some (.created c (.ok x)) := by
  obtain ⟨hlast, hfail⟩ := hr
  rw [← h.latest_transcript es d c, Option.map_eq_some_iff] at hlast
  obtain ⟨a, ha, hkind⟩ := hlast
  have hc := Answer.container_of_latest ha
  rcases a with ⟨b, f | x⟩ | ⟨b, r⟩
  · cases hfail _ ha
  · cases hc
    exact ⟨x, ha⟩
  · cases hkind

end Answers

variable {σ : Type} {h : Host σ} {orders : σ → List (String × Json.Value)}
  {dirOf : String → String} {w w₁ : σ × Memory} {c : String} {d d' : Daemon (σ × Memory)}

/-! ### Tags -/

theorem Enforcing.tags_other {s : Settings} {path : String} {id : Int} {r : Except Failure Unit}
    (hn : (h.inMemory orders).Enforcing s (Layer.ofPath path) id w r w₁) {other : String}
    (hne : other ≠ path) :
    w₁.2.tags.lookup (Layer.ofPath other) = w.2.tags.lookup (Layer.ofPath other) := by
  cases hn with
  | overtaken hc => rfl
  | untagged f w' ht => exact (tag_memory ht).other hne
  | halted w' ht hc => exact (tag_memory ht).other hne
  | limited w₂ w' r ht hl =>
    rw [(setLimit_memory hl).tags]
    exact (tag_memory ht).other hne

theorem Deletion.tags {r : Except Failure (Option Int)}
    (hd : (h.inMemory orders).Deletion c d r d') : d'.outside.2.tags = d.outside.2.tags := by
  cases hd with
  | idle r w' hr hq => exact hq.memory.tags
  | unclear id f w₁ w' hc hq hl => exact (setLimit_memory hl).tags.trans hq.memory.tags
  | cleared id rl w₁ w₂ w₃ r d' hc hq hl hn hf =>
    have hcleared := (setLimit_memory hl).tags.trans hq.memory.tags
    exact hf.memory.tags.trans (hn.memory.tags.trans hcleared)
  | gone e w₁ r d' he hq hf => exact hf.memory.tags.trans hq.memory.tags

/-- The directory of every recorded container carries the ID of its entry, and no ID is recorded
twice. -/
structure Tagged (dirOf : String → String) (d : Daemon (σ × Memory)) : Prop where
  sound : Sound d.core
  tags : ∀ c e, d.core.store.table.get? c = some e →
    d.outside.2.tags.lookup (Layer.ofPath (dirOf c)) = some e.projectId

theorem Tagged.congr (ht : Tagged dirOf d) (hs : Sound d'.core)
    (hsub : ∀ c e, d'.core.store.table.get? c = some e → d.core.store.table.get? c = some e)
    (htags : d'.outside.2.tags = d.outside.2.tags) : Tagged dirOf d' := by
  refine ⟨hs, fun c e he => ?_⟩
  rw [htags]
  exact ht.tags c e (hsub c e he)

theorem Beside.tagged (hb : (h.inMemory orders).Beside d d') (ht : Tagged dirOf d) :
    Tagged dirOf d' :=
  ht.congr (hb.sound ht.sound) (fun _ _ he => hb.store ▸ he) hb.outside.memory.tags

/-- A creation puts a tag on the directory of its container only, and while nothing is recorded for
it. -/
theorem CreateOutcome.tagged {r : Except Failure Entry}
    (ho : (h.inMemory orders).CreateOutcome c (Layer.ofPath (dirOf c)) d r d')
    (hinj : Function.Injective dirOf) (ht : Tagged dirOf d) : Tagged dirOf d' := by
  have hsound := ho.creation.sound ht.sound
  -- while nothing is recorded for `c`, every entry is on another directory
  have hothers : ∀ {id r w₁ b x}, d.core.store.table.get? c = none →
      (h.inMemory orders).Enforcing d.core.settings (Layer.ofPath (dirOf c)) id d.outside r w₁ →
      d.core.store.table.get? b = some x →
      w₁.2.tags.lookup (Layer.ofPath (dirOf b)) = some x.projectId := by
    intro id r w₁ b x he hn hx
    have hbc : b ≠ c := by
      rintro rfl
      cases he.symm.trans hx
    rw [hn.tags_other (hinj.ne hbc)]
    exact ht.tags b x hx
  cases ho with
  | kept e p w' he hp hq => exact ht.congr hsound (fun _ _ hx => hx) hq.memory.tags
  | refused e f he hp => exact ht
  | overtaken he hc => exact ht
  | exhausted f he ha => exact ht
  | abandoned id p f w' he ha hn => exact ⟨hsound, fun b x hx => hothers he hn hx⟩
  | malformed id p vs w' he ha hn hm => exact ⟨hsound, fun b x hx => hothers he hn hx⟩
  | recorded id p e r s w₁ w₂ w' he ha hn hm hs hq =>
    obtain ⟨rfl, rfl, -⟩ := Entry.make_eq_valid c id _ e hm
    have htags : w'.2.tags = w₁.2.tags := put_memory hs ▸ hq.memory.tags
    have hfull : ∀ b x, (d.core.store.table.put e).get? b = some x →
        w'.2.tags.lookup (Layer.ofPath (dirOf b)) = some x.projectId := by
      intro b x hx
      rw [htags]
      by_cases hb : b = e.container
      · subst hb
        rw [Table.get?_put_self] at hx
        cases hx
        rw [hn.tags]
        exact lookup_assign_ofPath _ _ _
      · rw [Table.get?_put_other _ e b hb] at hx
        exact hothers he hn hx
    refine ⟨hsound, fun b x hx => ?_⟩
    cases Store.put_outcome _ _ _ _ _ _ _ hs with
    | written => exact hfull b x hx
    | undone f hf =>
      rw [htags]
      exact hothers he hn hx
    | unwritten f hf => exact hfull b x hx

theorem Deletion.tagged {r : Except Failure (Option Int)}
    (hd : (h.inMemory orders).Deletion c d r d')
    (hn : Store.Nameable (h.inMemory orders).toDisk d.core.store.path) (ht : Tagged dirOf d) :
    Tagged dirOf d' := by
  refine ht.congr (hd.sound ht.sound) (fun b x hx => ?_) hd.tags
  rw [hd.entry hn b] at hx
  rcases r with f | _ | id
  · exact hx
  · exact hx
  · by_cases hb : c = b
    · simp [Answer.settle, hb] at hx
    · simpa [Answer.settle, hb] using hx

theorem Tagged.apart (ht : Tagged dirOf d) {b : String} {x y : Entry} (hne : b ≠ c)
    (hx : d.core.store.table.get? b = some x) (hy : d.core.store.table.get? c = some y) :
    x.projectId ≠ y.projectId := by
  obtain ⟨hxt, rfl⟩ := Table.get?_mem _ b x hx
  obtain ⟨hyt, rfl⟩ := Table.get?_mem _ c y hy
  intro heq
  rw [Table.eq_of_projectId _ ht.sound.distinct x y hxt hyt heq] at hne
  exact hne rfl

/-! ### Runs -/

theorem handle_tagged (hinj : Function.Injective dirOf) (e : Event)
    (hdir : e.kind = .create → Mount.upperdir? e.rootfs = some (dirOf e.container))
    (hn : Store.Nameable (h.inMemory orders).toDisk d.core.store.path) (ht : Tagged dirOf d) :
    Tagged dirOf ((h.inMemory orders).serve d (.handle e)) := by
  refine Beside.tagged ((h.inMemory orders).handleEvent_beside e d) ?_
  cases hk : e.kind with
  | create =>
    have hlayer : (h.inMemory orders).layerOf e = pure (Layer.ofPath (dirOf e.container)) := by
      unfold layerOf
      rw [hdir hk]
    rw [applyEvent_create _ e hk, handleCreate_eq, hlayer, pure_bind]
    exact ((h.inMemory orders).create_outcome e.container _ d).tagged hinj ht
  | delete =>
    rw [applyEvent_delete _ e hk]
    exact ((h.inMemory orders).handleDelete_deletion e.container d).tagged hn ht

theorem handleAll_tagged (hinj : Function.Injective dirOf) (es : List Event)
    (hdir : ∀ e ∈ es, e.kind = .create → Mount.upperdir? e.rootfs = some (dirOf e.container))
    (hn : Store.Nameable (h.inMemory orders).toDisk d.core.store.path) (ht : Tagged dirOf d) :
    Tagged dirOf ((h.inMemory orders).serveAll d (es.map .handle)) := by
  induction es generalizing d with
  | nil => exact ht
  | cons e es ih =>
    refine ih (fun x hx => hdir x (List.mem_cons_of_mem e hx)) ?_
      (handle_tagged hinj e (hdir e List.mem_cons_self) hn ht)
    rw [serve_path]
    exact hn

theorem reconcile_tagged (hs : Sound d.core) (hempty : d.core.store.table = [])
    (hlist : (h.list d.outside.1).1 = .ok []) :
    Tagged dirOf ((h.inMemory orders).serve d .reconcile) := by
  refine ⟨reconcile_sound d hs.distinct hs.within, ?_⟩
  obtain ⟨d₁, hrun, hr, hp⟩ := (h.inMemory orders).reconcile_pass d
  rw [hempty] at hrun
  cases hrun
  have hstore : (Act.run (h.inMemory orders).reconcile d).2.core.store = d.core.store := by
    generalize (Act.run (h.inMemory orders).reconcile d).2 = d' at hp ⊢
    cases hp with
    | unlisted f w hl => rfl
    | listed live w d' hl hb =>
      have hlive := onFirst_eq h.list _ _ _ hl
      rw [hlive] at hlist
      cases hlist
      exact hb.store
  intro c e he
  simp only [serve, hstore, hempty] at he
  cases he

/-- The directories of different containers, of those that are meant, carry no tag in common. -/
def TagsApart (dirOf : String → String) (meant : String → Prop) (m : Memory) : Prop :=
  ∀ b c n, meant b → meant c → m.tags.lookup (Layer.ofPath (dirOf b)) = some n →
    m.tags.lookup (Layer.ofPath (dirOf c)) = some n → b = c

/-- Starting with nothing, whatever fails: the directories of the containers that were created last,
by a creation that did not fail, are tagged, each with another ID. -/
theorem running_tagged_apart (h : Host σ) (orders : σ → List (String × Json.Value))
    (dirOf : String → String) (hinj : Function.Injective dirOf) (a b : Int) (p : Pool)
    (hp : Pool.create a b = .ok p) (settings : Settings) (place : String)
    (hn : Store.Nameable h.toDisk place) (w : σ × Memory) (hlist : (h.list w.1).1 = .ok [])
    (es : List Event)
    (hdir : ∀ e ∈ es, e.kind = .create → Mount.upperdir? e.rootfs = some (dirOf e.container)) :
    let host := h.inMemory orders
    let start := host.serve ⟨Core.opening settings p ⟨place, []⟩, w⟩ .reconcile
    let m := (host.serveAll start (es.map .handle)).outside.2
    let running := Running es (host.transcript start (es.map .handle))
    (∀ c, running c → ∃ n, m.tags.lookup (Layer.ofPath (dirOf c)) = some n) ∧
      TagsApart dirOf running m := by
  intro host start m running
  have hfresh : ∀ n, n ∉ p.used := by
    rw [Pool.create_used a b p hp]
    exact fun n => List.not_mem_nil
  have hstart : Tagged dirOf start :=
    reconcile_tagged ⟨List.nodup_nil, nofun, fun n hu => absurd hu (hfresh n)⟩ rfl hlist
  have hplace : Store.Nameable host.toDisk start.core.store.path := by
    rw [serve_path]
    exact inMemory_nameable hn
  have hend := handleAll_tagged hinj es hdir hplace hstart
  have hentry : ∀ c, running c → ∃ e,
      (host.serveAll start (es.map .handle)).core.store.table.get? c = some e := by
    intro c hc
    obtain ⟨x, hx⟩ := hc.latest
    rw [serveAll_entry _ start hplace]
    exact Answer.settled_of_latest _ c x _ hx
  refine ⟨fun c hc => ?_, fun b c n hb hc hbn hcn => ?_⟩
  · obtain ⟨e, he⟩ := hentry c hc
    exact ⟨e.projectId, hend.tags c e he⟩
  · obtain ⟨x, hx⟩ := hentry b hb
    obtain ⟨y, hy⟩ := hentry c hc
    -- one ID on both would be recorded twice
    by_contra hne
    have hxn := (hend.tags b x hx).symm.trans hbn
    have hyn := (hend.tags c y hy).symm.trans hcn
    exact hend.apart hne hx hy (Option.some.inj (hxn.trans hyn.symm))

/-- Counts the calls that tag and limit. -/
def counting : Host Nat :=
  { smooth with
    tag := fun _ _ n => (.ok (), n + 1)
    setLimit := fun _ _ _ n => (.ok (), n + 1) }

theorem counting_nameable : Store.Nameable counting.toDisk "" := by
  intro text n n' hs
  cases hs

/-- One call fails, if it is of the operation that is named. -/
def failing (call : Nat) (op : String) (n : Nat) : List (String × Json.Value) :=
  if n = call then [(op, .null)] else []

def onOwnDir (kind : EventKind) (c : String) : Event :=
  ⟨kind, c, [⟨"overlay", "overlay", ["upperdir=" ++ c]⟩]⟩

def countingAfter (orders : Nat → List (String × Json.Value)) (greatest : Int) (es : List Event) :
    Memory :=
  ((counting.inMemory orders).session
    ⟨Core.opening ⟨"10g", "12g", .ofInt 5, none⟩ ⟨1, greatest, []⟩ ⟨"", []⟩, 0, .empty⟩
    (es.map .handle)).outside.2

/-- The first creation fails at the limits, and is tried again. -/
def triedAgain : List Event :=
  [onOwnDir .create "a", onOwnDir .create "b", onOwnDir .create "a"]

theorem triedAgain_running_tagged_apart :
    let host := counting.inMemory (failing 2 "set_limit")
    let start := host.serve
      ⟨Core.opening ⟨"10g", "12g", .ofInt 5, none⟩ ⟨1, 2, []⟩ ⟨"", []⟩, 0, .empty⟩ .reconcile
    let m := (host.serveAll start (triedAgain.map .handle)).outside.2
    let running := Running triedAgain (host.transcript start (triedAgain.map .handle))
    running "a" ∧ running "b" ∧
      (∀ c, running c → ∃ n, m.tags.lookup (Layer.ofPath c) = some n) ∧
        TagsApart id running m :=
  ⟨by decide +kernel, by decide +kernel,
    running_tagged_apart counting (failing 2 "set_limit") id Function.injective_id 1 2 ⟨1, 2, []⟩
      rfl ⟨"10g", "12g", .ofInt 5, none⟩ "" counting_nameable (0, .empty) rfl triedAgain
      (by decide)⟩

/-- A container is deleted and its ID goes to another one, before it is created again. -/
def overlapping : List Event :=
  [onOwnDir .create "a", onOwnDir .delete "a", onOwnDir .create "b", onOwnDir .create "a"]

/-- As `overlapping`, and yet another container takes the last ID first. -/
def crowded : List Event :=
  [onOwnDir .create "a", onOwnDir .delete "a", onOwnDir .create "b", onOwnDir .create "c",
    onOwnDir .create "a"]

/-- A creation that failed may leave a container with the tag of another one, whether it fails at the
limits, at the tag, or because no ID is left. -/
theorem failed_creation_shares_tag :
    let created := fun es c => Event.latest es c = some .create
    let limitFails := [onOwnDir .create "a", onOwnDir .create "b"]
    ¬TagsApart id (created limitFails) (countingAfter (failing 2 "set_limit") 2 limitFails) ∧
      ¬TagsApart id (created overlapping) (countingAfter (failing 6 "tag") 2 overlapping) ∧
      ¬TagsApart id (created crowded) (countingAfter (fun _ => []) 2 crowded) := by
  refine ⟨fun hall => ?_, fun hall => ?_, fun hall => ?_⟩
  · exact absurd (hall "a" "b" 1 (by decide) (by decide) (by decide +kernel) (by decide +kernel))
      (by decide)
  · exact absurd (hall "a" "b" 1 (by decide) (by decide) (by decide +kernel) (by decide +kernel))
      (by decide)
  · exact absurd (hall "a" "b" 1 (by decide) (by decide) (by decide +kernel) (by decide +kernel))
      (by decide)

end Host

end LayerQuota
