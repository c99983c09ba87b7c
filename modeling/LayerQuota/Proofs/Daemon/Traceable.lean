import LayerQuota.Proofs.Daemon.Accounting
/-!
# Where the IDs in use were put

An ID in use that no entry has was put on a directory as its tag, by a creation that could not be
recorded. The directory may have been tagged again since: the next creation for the same container
takes another ID and tags the same directory with it. No directory carries the first ID from then on.
-/

namespace LayerQuota

namespace Memory

variable {m m₁ m₂ : Memory} {path : String} {n : Int}

/-- A memory after some more calls: a directory that was tagged carries its tag still, or one that
it was tagged with by these calls. -/
def Follows (m m' : Memory) : Prop :=
  ∃ new, m'.calls = m.calls ++ new ∧ ∀ path id, m.tags.lookup (Layer.ofPath path) = some id →
    ∃ id', m'.tags.lookup (Layer.ofPath path) = some id' ∧
      (id' = id ∨ .tag (Layer.ofPath path) id' ∈ new)

/-- An ID was put on a directory, which carries it still, or one that it was tagged with later. -/
def Traced (m : Memory) (path : String) (n : Int) : Prop :=
  ∃ before after id, m.calls = before ++ .tag (Layer.ofPath path) n :: after ∧
    m.tags.lookup (Layer.ofPath path) = some id ∧ (id = n ∨ .tag (Layer.ofPath path) id ∈ after)

theorem Follows.ofTags (new : List QuotaCall) (hc : m₁.calls = m.calls ++ new)
    (ht : m₁.tags = m.tags) : m.Follows m₁ :=
  ⟨new, hc, fun path id hid => ⟨id, by rw [ht, hid], .inl rfl⟩⟩

theorem Follows.refl (m : Memory) : m.Follows m := .ofTags [] (List.append_nil _).symm rfl

theorem Follows.trans (ha : m.Follows m₁) (hb : m₁.Follows m₂) : m.Follows m₂ := by
  obtain ⟨xs, hxs, hx⟩ := ha
  obtain ⟨ys, hys, hy⟩ := hb
  refine ⟨xs ++ ys, by rw [hys, hxs, List.append_assoc], fun path id hid => ?_⟩
  obtain ⟨id₁, hid₁, hor₁⟩ := hx path id hid
  obtain ⟨id₂, hid₂, hor₂⟩ := hy path id₁ hid₁
  refine ⟨id₂, hid₂, ?_⟩
  rcases hor₂ with rfl | hm
  · exact hor₁.imp_right (List.mem_append_left ys)
  · exact .inr (List.mem_append_right xs hm)

theorem Reads.follows (hr : m.Reads m₁) : m.Follows m₁ := by
  obtain ⟨dirs, hdirs⟩ := hr.calls
  exact .ofTags _ hdirs hr.tags

theorem Limiting.follows {id : Int} {soft hard : String} {r : Except Failure Unit}
    (hl : Limiting id soft hard m r m₁) : m.Follows m₁ :=
  .ofTags _ hl.calls hl.tags

theorem Tagging.follows {id : Int} {r : Except Failure Unit}
    (ht : Tagging (Layer.ofPath path) id m r m₁) : m.Follows m₁ := by
  rcases ht.tags with ⟨-, htags⟩ | ⟨-, htags⟩
  · refine ⟨_, ht.calls, fun other old hold => ?_⟩
    rw [htags]
    by_cases heq : other = path
    · subst heq
      exact ⟨id, lookup_assign_ofPath other id m.tags, .inr (List.mem_singleton.mpr rfl)⟩
    · exact ⟨old, (lookup_assign_ofPath_other path other id m.tags heq).trans hold, .inl rfl⟩
  · exact .ofTags _ ht.calls htags

theorem Tagging.traced (ht : Tagging (Layer.ofPath path) n m (.ok ()) m₁) : m₁.Traced path n := by
  rcases ht.tags with ⟨-, htags⟩ | ⟨⟨f, hf⟩, -⟩
  · refine ⟨m.calls, [], n, ht.calls, ?_, .inl rfl⟩
    rw [htags]
    exact lookup_assign_ofPath path n m.tags
  · cases hf

theorem Traced.follow (hn : m.Traced path n) (hf : m.Follows m₁) : m₁.Traced path n := by
  obtain ⟨before, after, id, hcalls, hid, hor⟩ := hn
  obtain ⟨new, hnew, htags⟩ := hf
  obtain ⟨id', hid', hor'⟩ := htags path id hid
  refine ⟨before, after ++ new, id', ?_, hid', ?_⟩
  · rw [hnew, hcalls, List.append_assoc, List.cons_append]
  · rcases hor' with rfl | hm
    · exact hor.imp_right (List.mem_append_left new)
    · exact .inr (List.mem_append_right after hm)

end Memory

namespace Host

variable {σ : Type} {h : Host σ} {orders : σ → List (String × Json.Value)} {w w₁ : σ × Memory}
  {c : String} {d d' : Daemon (σ × Memory)}

/-! ### Moves -/

theorem Enforcing.follows {s : Settings} {path : String} {id : Int} {r : Except Failure Unit}
    (hn : (h.inMemory orders).Enforcing s (Layer.ofPath path) id w r w₁) : w.2.Follows w₁.2 := by
  cases hn with
  | overtaken hc => exact .refl _
  | untagged f w' ht => exact (tag_memory ht).follows
  | halted w' ht hc => exact (tag_memory ht).follows
  | limited w₁ w' r ht hl => exact (tag_memory ht).follows.trans (setLimit_memory hl).follows

theorem Enforcing.traced {s : Settings} {path : String} {id : Int}
    (hn : (h.inMemory orders).Enforcing s (Layer.ofPath path) id w (.ok ()) w₁) :
    w₁.2.Traced path id := by
  cases hn with
  | limited w₂ w' r ht hl => exact (tag_memory ht).traced.follow (setLimit_memory hl).follows

theorem CreateOutcome.follows {r : Except Failure Entry} {path : String}
    (ho : (h.inMemory orders).CreateOutcome c (Layer.ofPath path) d r d') :
    d.outside.2.Follows d'.outside.2 := by
  cases ho with
  | kept e p w' he hp hq => exact hq.memory.follows
  | refused e f he hp => exact .refl _
  | overtaken he hc => exact .refl _
  | exhausted f he ha => exact .refl _
  | abandoned id p f w' he ha hn => exact hn.follows
  | malformed id p vs w' he ha hn hm => exact hn.follows
  | recorded id p e r s w₁ w₂ w' he ha hn hm hput hq =>
    have hafter : w₁.2.Follows w'.2 := put_memory hput ▸ hq.memory.follows
    exact hn.follows.trans hafter

theorem Deletion.follows {r : Except Failure (Option Int)}
    (hd : (h.inMemory orders).Deletion c d r d') : d.outside.2.Follows d'.outside.2 := by
  cases hd with
  | idle r w' hr hq => exact hq.memory.follows
  | unclear id f w₁ w' hc hq hl => exact hq.memory.follows.trans (setLimit_memory hl).follows
  | cleared id rl w₁ w₂ w₃ r d' hc hq hl hn hf =>
    have hclear := hq.memory.follows.trans (setLimit_memory hl).follows
    exact hclear.trans (hn.memory.follows.trans hf.memory.follows)
  | gone e w₁ r d' he hq hf => exact hq.memory.follows.trans hf.memory.follows

theorem Move.follows {k : EventKind} {ms : List Mark}
    (hm : (h.inMemory orders).Move k c d ms d') (hr : (h.inMemory orders).NamesTexts) :
    d.outside.2.Follows d'.outside.2 := by
  cases hm with
  | beside d' hb => exact hb.outside.memory.follows
  | kept e p w' hk he hp hq => exact hq.memory.follows
  | created dir r d' hk hdir ho =>
    obtain ⟨path, rfl⟩ := hr.names c dir hdir
    exact ho.follows
  | deleted r d' hk ho => exact ho.deletion.follows

/-- An ID that a creation takes into use has been put on its directory. -/
theorem CreateOutcome.used {r : Except Failure Entry} {path : String}
    (ho : (h.inMemory orders).CreateOutcome c (Layer.ofPath path) d r d')
    (hr : (h.inMemory orders).Regular) (hs : Sound d.core) :
    ∀ n ∈ d'.core.pool.used, n ∈ d.core.pool.used ∨ d'.outside.2.Traced path n := by
  intro n hu
  cases ho with
  | kept e p w' he hp hq =>
    rw [hs.markUsed_eq c e p he hp] at hu
    exact .inl hu
  | refused e f he hp => exact .inl hu
  | overtaken he hc => exact .inl hu
  | exhausted f he ha => exact .inl hu
  | abandoned id p f w' he ha hn =>
    obtain ⟨hfree, -⟩ := hr.enforcing ⟨path, rfl⟩ hn
    obtain ⟨-, -, rfl⟩ := Pool.allocate_fresh d.core.pool p id ha
    simp only [hfree, if_true] at hu
    obtain ⟨hu, hne⟩ := (Pool.mem_release _ _ _).mp hu
    exact .inl (((Pool.mem_insert _ _ _).mp hu).resolve_left hne)
  | malformed id p vs w' he ha hn hm =>
    obtain ⟨-, -, rfl⟩ := Pool.allocate_fresh d.core.pool p id ha
    rcases (Pool.mem_insert _ _ _).mp hu with rfl | hu
    · exact .inr hn.traced
    · exact .inl hu
  | recorded id p e r s w₁ w₂ w' he ha hn hm hput hq =>
    have hafter : w₁.2.Follows w'.2 := put_memory hput ▸ hq.memory.follows
    obtain ⟨-, -, rfl⟩ := Pool.allocate_fresh d.core.pool p id ha
    rcases (Pool.mem_insert _ _ _).mp hu with rfl | hu
    · exact .inr (hn.traced.follow hafter)
    · exact .inl hu

theorem Forgetting.used {id : Int} {core : Core} {r : Except Failure (Option Int)}
    (hf : (h.inMemory orders).Forgetting c id core w r d') :
    ∀ n ∈ d'.core.pool.used, n ∈ core.pool.used := by
  have ho := hf.forgotten
  generalize d'.core = core' at ho ⊢
  cases ho with
  | done => exact fun n hn => ((Pool.mem_release _ _ _).mp hn).1
  | undone e he f hf => exact fun n hn => hn
  | unwritten e he f hf => exact fun n hn => hn

theorem Deletion.used {r : Except Failure (Option Int)}
    (hd : (h.inMemory orders).Deletion c d r d') :
    ∀ n ∈ d'.core.pool.used, n ∈ d.core.pool.used := by
  cases hd with
  | idle r w' hr hq => exact fun n hn => hn
  | unclear id f w₁ w' hc hq hl => exact fun n hn => hn
  | cleared id rl w₁ w₂ w₃ r d' hc hq hl hn hf => exact hf.used
  | gone e w₁ r d' he hq hf => exact hf.used

theorem Move.used {k : EventKind} {ms : List Mark} (hm : (h.inMemory orders).Move k c d ms d')
    (hr : (h.inMemory orders).Regular) (hs : Sound d.core) :
    ∀ n ∈ d'.core.pool.used, n ∈ d.core.pool.used ∨ ∃ path, d'.outside.2.Traced path n := by
  cases hm with
  | beside d' hb => exact fun n hn => .inl (hb.pool ▸ hn)
  | kept e p w' hk he hp hq =>
    rw [hs.markUsed_eq c e p he hp]
    exact fun n hn => .inl hn
  | created dir r d' hk hdir ho =>
    obtain ⟨path, rfl⟩ := hr.resolve.names c dir hdir
    exact fun n hn => (ho.used hr hs n hn).imp_right fun ht => ⟨path, ht⟩
  | deleted r d' hk ho => exact fun n hn => .inl (ho.deletion.used n hn)

/-- An ID that a creation retains has been put on its directory. -/
theorem Move.retained {k : EventKind} {ms : List Mark} (hm : (h.inMemory orders).Move k c d ms d')
    (hr : (h.inMemory orders).Regular) {b : String} {dir : Layer} {n : Int}
    (hn : .retained b dir n ∈ ms) : ∃ path, dir = Layer.ofPath path ∧ d'.outside.2.Traced path n := by
  cases hm with
  | beside d' hb => cases hn
  | kept e p w' hk he hp hq => cases hn
  | created dir' r d' hk hdir ho =>
    obtain ⟨path, rfl⟩ := hr.resolve.names c dir' hdir
    obtain ⟨place, fault, id, p, rfl, ha, heq⟩ := Mark.mem_ofCreate hn
    cases heq
    obtain ⟨id', p', e, s, w₁, w₂, w', ha', henf, hput, hq, rfl⟩ := ho.of_unsaved hr
    cases ha'.symm.trans ha
    have hafter : w₁.2.Follows w'.2 := put_memory hput ▸ hq.memory.follows
    exact ⟨path, rfl, henf.traced.follow hafter⟩
  | deleted r d' hk ho =>
    obtain ⟨id, -, heq⟩ := Mark.mem_ofDelete hn
    cases heq

/-! ### Runs -/

structure Traceable (ms : List Mark) (d : Daemon (σ × Memory)) : Prop where
  sound : Sound d.core
  used : ∀ n ∈ d.core.pool.used, ∃ path, d.outside.2.Traced path n
  retained : ∀ c dir n, .retained c dir n ∈ ms →
    ∃ path, dir = Layer.ofPath path ∧ d.outside.2.Traced path n

theorem Traceable.step {ms : List Mark} (ht : Traceable ms d) (hs : Sound d'.core)
    (hf : d.outside.2.Follows d'.outside.2) (hu : ∀ n ∈ d'.core.pool.used,
      n ∈ d.core.pool.used ∨ ∃ path, d'.outside.2.Traced path n) : Traceable ms d' := by
  refine ⟨hs, fun n hn => ?_, fun c dir n hm => ?_⟩
  · rcases hu n hn with hn | htraced
    · obtain ⟨path, htraced⟩ := ht.used n hn
      exact ⟨path, htraced.follow hf⟩
    · exact htraced
  · obtain ⟨path, hdir, htraced⟩ := ht.retained c dir n hm
    exact ⟨path, hdir, htraced.follow hf⟩

theorem Reserving.traceable {ms : List Mark}
    (hv : (h.inMemory orders).Reserving d.core.store.table d d') (ht : Traceable ms d) :
    Traceable ms d' := by
  refine ht.step (hv.sound ht.sound.distinct ht.sound.within) hv.outside.memory.follows fun n hn => ?_
  rcases (hv.used n).mp hn with hn | ⟨hin, hm⟩
  · exact .inl hn
  · obtain ⟨e, he, rfl⟩ := List.mem_map.mp hm
    exact .inl (ht.sound.reserved e he hin)

theorem Regular.traceable (hr : (h.inMemory orders).Regular) :
    (h.inMemory orders).Carried Traceable := by
  refine ⟨fun k c ms ms' d d' ht hm => ?_, fun ms d d' ht hv => hv.traceable ht⟩
  have hold := ht.step (hm.deed.sound ht.sound) (hm.follows hr.resolve) (hm.used hr ht.sound)
  refine ⟨hold.sound, hold.used, fun c dir n hn => ?_⟩
  rcases List.mem_append.mp hn with hn | hn
  · exact hold.retained c dir n hn
  · exact hm.retained hr hn

/-- In every session from an empty record, an ID in use is recorded, or it was put on a directory
that carries it still or one that it was tagged with later. With a pool of IDs that can be recorded,
in a place that can name a file, it is an ID that a failure to record has retained there. -/
theorem session_traced (h : Host σ) (hr : h.NamesTexts) (orders : σ → List (String × Json.Value))
    (a b : Int) (p : Pool) (hp : Pool.create a b = .ok p) (settings : Settings) (place : String)
    (w : σ × Memory) (qs : List (Request (σ × Memory)))
    (hq : ∀ f, .meanwhile f ∈ qs → ∀ w, (f w).2 = w.2) :
    let start : Daemon (σ × Memory) := ⟨Core.opening settings p ⟨place, []⟩, w⟩
    let d := (h.inMemory orders).session start qs
    let ms := (h.inMemory orders).history start (.reconcile :: qs)
    ∀ n ∈ d.core.pool.used, n ∈ d.core.store.table.ids ∨
      ∃ path, d.outside.2.Traced path n ∧
        (b ≤ maxProjectId → Store.Nameable h.toDisk place →
          ∃ c, Mark.Retains ms c (Layer.ofPath path) n) := by
  intro start d ms n hn
  have hreg : (h.inMemory orders).Regular := inMemory_regular hr
  have hused : p.used = [] := congrArg Pool.used (Pool.create_used a b p hp)
  have hnone : ∀ n, n ∉ p.used := by
    rw [hused]
    exact fun n => List.not_mem_nil
  have hempty : Traceable [] start :=
    ⟨⟨List.nodup_nil, nofun, fun n hn => absurd hn (hnone n)⟩, fun n hn => absurd hn (hnone n), nofun⟩
  have ht : Traceable ms d := by
    have hstart := hreg.traceable.reconcile [] start fun _ hv => hv.traceable hempty
    rw [List.nil_append] at hstart
    refine hreg.traceable.serveAll qs (fun f ms d hf ht => ?_) _ _ hstart
    exact ht.step ht.sound (by rw [hq f hf]; exact .refl _) fun n hn => .inl hn
  by_cases hrec : n ∈ d.core.store.table.ids
  · exact .inl hrec
  refine .inr ?_
  by_cases hlike : b ≤ maxProjectId ∧ Store.Nameable h.toDisk place
  · obtain ⟨hb, hplace⟩ := hlike
    have ha := reconcile_accounted (d := start) hreg (inMemory_nameable hplace) hused
      ⟨List.nodup_nil, nofun⟩ List.nodup_nil (fun _ => recordable_of_create hp hb) rfl qs
    have hstanding := ((ha.used n).mp hn).resolve_left fun hin => hrec hin.1
    obtain ⟨c, dir, hret⟩ := Mark.retains_of_standing _ n hstanding
    obtain ⟨path, rfl, htraced⟩ := ht.retained c dir n hret.mem
    exact ⟨path, htraced, fun _ _ => ⟨c, hret⟩⟩
  · obtain ⟨path, htraced⟩ := ht.used n hn
    exact ⟨path, htraced, fun hb hplace => absurd ⟨hb, hplace⟩ hlike⟩

/-- The creation of a container cannot be recorded while the disk is full, and is tried again when
it is not. -/
def createTwice : List (Request (Bool × Memory)) :=
  [.handle ⟨.create, "c", []⟩, .meanwhile fun w => (false, w.2), .handle ⟨.create, "c", []⟩]

theorem createTwice_session_traced :
    let host := onFullDisk.inMemory fun _ => []
    let start : Daemon (Bool × Memory) :=
      ⟨Core.opening ⟨"10g", "12g", .ofInt 5, none⟩ ⟨1, 2, []⟩ ⟨"", []⟩, true, .empty⟩
    let d := host.session start createTwice
    let ms := host.history start (.reconcile :: createTwice)
    ∀ n ∈ d.core.pool.used, n ∈ d.core.store.table.ids ∨
      ∃ path, d.outside.2.Traced path n ∧ ∃ c, Mark.Retains ms c (Layer.ofPath path) n := by
  intro host start d ms n hn
  have hnamed : Store.Nameable onFullDisk.toDisk "" := by
    intro text full full' hs
    cases full <;> cases hs
  have htraced := session_traced onFullDisk onFullDisk_namesTexts (fun _ => []) 1 2 ⟨1, 2, []⟩ rfl
    ⟨"10g", "12g", .ofInt 5, none⟩ "" (true, .empty) createTwice (fun f hf w => ?_) n hn
  · rcases htraced with hrec | ⟨path, hpath, hret⟩
    · exact .inl hrec
    · exact .inr ⟨path, hpath, hret (by decide) hnamed⟩
  · simp only [createTwice, List.mem_cons, reduceCtorEq, Request.meanwhile.injEq, List.not_mem_nil,
      or_false, false_or] at hf
    rw [hf]

theorem createTwice_session_leaks :
    let host := onFullDisk.inMemory fun _ => []
    let start : Daemon (Bool × Memory) :=
      ⟨Core.opening ⟨"10g", "12g", .ofInt 5, none⟩ ⟨1, 2, []⟩ ⟨"", []⟩, true, .empty⟩
    let d := host.session start createTwice
    ¬∀ n ∈ d.core.pool.used, n ∈ d.core.store.table.ids ∨ n ∈ d.outside.2.tags.map (·.2) := by
  decide +kernel

end Host

end LayerQuota
