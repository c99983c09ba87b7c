import LayerQuota.Proofs.Daemon.Run
import LayerQuota.Proofs.Memory
/-!
# Daemons with quotas in memory

A host whose quotas are kept in memory, and what the daemon's calls do there. Whatever touches no
quota leaves the tables as they are.
-/

namespace LayerQuota

/-- A memory after any number of calls that read tags. -/
structure Memory.Reads (m m' : Memory) : Prop where
  tags : m'.tags = m.tags
  limits : m'.limits = m.limits
  calls : ∃ dirs : List Layer, m'.calls = m.calls ++ dirs.map .readTag

namespace Memory.Reads

variable {m m₁ m₂ : Memory}

theorem refl (m : Memory) : m.Reads m := ⟨rfl, rfl, [], (List.append_nil _).symm⟩

theorem trans (ha : m.Reads m₁) (hb : m₁.Reads m₂) : m.Reads m₂ := by
  obtain ⟨xs, hxs⟩ := ha.calls
  obtain ⟨ys, hys⟩ := hb.calls
  refine ⟨hb.tags.trans ha.tags, hb.limits.trans ha.limits, xs ++ ys, ?_⟩
  rw [hys, hxs, List.map_append, List.append_assoc]

end Memory.Reads

namespace Host

variable {σ : Type}

/-- A call on quotas in memory. What else changes meanwhile is up to the host, and so are the
failures that are ordered then. -/
def onMemory {α : Type} (orders : σ → List (String × Json.Value)) (meanwhile : σ → σ)
    (f : Memory → Except Failure α × Memory) (w : σ × Memory) : Except Failure α × (σ × Memory) :=
  let r := f { w.2 with orders := orders (meanwhile w.1) }
  (r.1, meanwhile w.1, r.2)

def inMemory (h : Host σ) (orders : σ → List (String × Json.Value)) : Host (σ × Memory) :=
  { h.paired Memory with
    tag := fun dir id => onMemory orders (fun v => (h.tag dir id v).2) fun m => m.tag dir id
    setLimit := fun id soft hard =>
      onMemory orders (fun v => (h.setLimit id soft hard v).2) fun m => m.setLimit id soft hard
    readTag := fun dir => onMemory orders (fun v => (h.readTag dir v).2) fun m => m.readTag dir }

variable {h : Host σ} {orders : σ → List (String × Json.Value)} {w w₁ : σ × Memory}

theorem inMemory_nameable {path : String} (hn : Store.Nameable h.toDisk path) :
    Store.Nameable (h.inMemory orders).toDisk path :=
  fun text w w' hs => hn text w.1 w'.1 (onFirst_eq (h.save path text) _ w w' hs)

/-! ### Calls -/

theorem tag_memory {dir : Layer} {id : Int} {r : Except Failure Unit}
    (ht : (h.inMemory orders).tag dir id w = (r, w₁)) : Memory.Tagging dir id w.2 r w₁.2 := by
  have hm := Memory.tag_tagging { w.2 with orders := orders (h.tag dir id w.1).2 } dir id
  cases ht
  exact ⟨hm.limits, hm.calls, hm.tags⟩

theorem setLimit_memory {id : Int} {soft hard : String} {r : Except Failure Unit}
    (hl : (h.inMemory orders).setLimit id soft hard w = (r, w₁)) :
    Memory.Limiting id soft hard w.2 r w₁.2 := by
  have hm := Memory.setLimit_limiting
    { w.2 with orders := orders (h.setLimit id soft hard w.1).2 } id soft hard
  cases hl
  exact ⟨hm.tags, hm.calls, hm.limits⟩

theorem readTag_memory {dir : Layer} {r : Except Failure Int}
    (ht : (h.inMemory orders).readTag dir w = (r, w₁)) : Memory.Reading dir w.2 r w₁.2 := by
  have hm := Memory.readTag_reading { w.2 with orders := orders (h.readTag dir w.1).2 } dir
  cases ht
  exact ⟨hm.tags, hm.limits, hm.calls, hm.found⟩

theorem Enforcing.tags {s : Settings} {dir : Layer} {id : Int}
    (hn : (h.inMemory orders).Enforcing s dir id w (.ok ()) w₁) :
    w₁.2.tags = LayerQuota.assign dir id w.2.tags := by
  cases hn with
  | limited w₂ w' r ht hl =>
    rcases (tag_memory ht).tags with ⟨-, htags⟩ | ⟨⟨f, hf⟩, -⟩
    · rw [(setLimit_memory hl).tags, htags]
    · cases hf

theorem Aside.memory (ha : (h.inMemory orders).Aside w w₁) : w.2.Reads w₁.2 := by
  cases ha with
  | log l => exact .refl _
  | resolve c => exact .refl _
  | isPresent dir => exact .refl _
  | list => exact .refl _
  | readTag dir =>
    have hm : Memory.Reading dir w.2 _ ((h.inMemory orders).readTag dir w).2.2 := readTag_memory rfl
    exact ⟨hm.tags, hm.limits, [dir], hm.calls⟩

theorem Quiet.memory (hq : (h.inMemory orders).Quiet w w₁) : w.2.Reads w₁.2 := by
  induction hq with
  | refl => exact .refl _
  | tail _ ha ih => exact ih.trans ha.memory

theorem put_memory {s s' : Store} {e : Entry} {r : Except Failure Unit}
    (hs : s.put (h.inMemory orders).toDisk e w = (r, s', w₁)) : w₁.2 = w.2 := by
  have hk := Store.put_keeps (h.inMemory orders).toDisk (fun v => v.2 = w.2)
    (fun _ _ _ hv => hv) (fun _ _ _ hv => hv) s e w rfl
  rw [hs] at hk
  exact hk

theorem remove_memory {s s' : Store} {c : String} {r : Except Failure Unit}
    (hs : s.remove (h.inMemory orders).toDisk c w = (r, s', w₁)) : w₁.2 = w.2 := by
  have hk := Store.remove_keeps (h.inMemory orders).toDisk (fun v => v.2 = w.2)
    (fun _ _ _ hv => hv) (fun _ _ _ hv => hv) s c w rfl
  rw [hs] at hk
  exact hk

theorem Forgetting.memory {c : String} {id : Int} {core : Core} {r : Except Failure (Option Int)}
    {d' : Daemon (σ × Memory)} (hf : (h.inMemory orders).Forgetting c id core w r d') :
    w.2.Reads d'.outside.2 := by
  cases hf with
  | done s w₁ w' hs hq => exact remove_memory hs ▸ hq.memory
  | failed f s w' hs =>
    rw [remove_memory hs]
    exact .refl _

end Host

end LayerQuota
