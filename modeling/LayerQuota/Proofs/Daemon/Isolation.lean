import LayerQuota.Proofs.Daemon.Sound
import LayerQuota.Enforcer.Memory
/-!
# Containers do not touch each other

Handling an event of one container leaves the entries of all others as they are and their IDs in
use, and no call on quotas names an ID that is recorded for another container. The calls are kept
in a list beside the host.
-/

namespace LayerQuota

def QuotaCall.projectId? : QuotaCall → Option Int
  | .tag _ id => some id
  | .setLimit id _ _ => some id
  | .readTag _ => none

namespace Host

variable {σ : Type}

/-! ### Calls on quotas -/

def noting {α : Type} (call : QuotaCall) (f : σ → α × σ) (w : σ × List QuotaCall) :
    α × (σ × List QuotaCall) :=
  ((f w.1).1, (f w.1).2, w.2 ++ [call])

/-- A host that keeps the calls on quotas in a list. -/
def traced (h : Host σ) : Host (σ × List QuotaCall) :=
  { h.paired (List QuotaCall) with
    tag := fun dir id => noting (.tag dir id) (h.tag dir id)
    setLimit := fun id soft hard => noting (.setLimit id soft hard) (h.setLimit id soft hard)
    readTag := fun dir => noting (.readTag dir) (h.readTag dir) }

/-- The calls that were added name only IDs of a kind. -/
def Adds (P : Int → Prop) (w w' : σ × List QuotaCall) : Prop :=
  ∃ new, w'.2 = w.2 ++ new ∧ ∀ call ∈ new, ∀ id, call.projectId? = some id → P id

variable {P : Int → Prop} {w w₁ w₂ : σ × List QuotaCall}

theorem Adds.ofEq (heq : w₁.2 = w.2) : Adds P w w₁ :=
  ⟨[], by rw [heq, List.append_nil], fun _ hm => absurd hm List.not_mem_nil⟩

theorem Adds.one (call : QuotaCall) (heq : w₁.2 = w.2 ++ [call])
    (hid : ∀ id, call.projectId? = some id → P id) : Adds P w w₁ := by
  refine ⟨[call], heq, fun x hx => ?_⟩
  rw [List.mem_singleton.mp hx]
  exact hid

theorem Adds.trans (ha : Adds P w w₁) (hb : Adds P w₁ w₂) : Adds P w w₂ := by
  obtain ⟨xs, hxs, hx⟩ := ha
  obtain ⟨ys, hys, hy⟩ := hb
  refine ⟨xs ++ ys, by rw [hys, hxs, List.append_assoc], fun call hm => ?_⟩
  rcases List.mem_append.mp hm with hm | hm
  · exact hx call hm
  · exact hy call hm

variable {h : Host σ}

theorem Aside.adds (ha : h.traced.Aside w w₁) : Adds P w w₁ := by
  cases ha with
  | log l => exact .ofEq rfl
  | resolve c => exact .ofEq rfl
  | isPresent dir => exact .ofEq rfl
  | list => exact .ofEq rfl
  | readTag dir => exact .one (.readTag dir) rfl nofun

theorem Quiet.adds (hq : h.traced.Quiet w w₁) : Adds P w w₁ := by
  induction hq with
  | refl => exact .ofEq rfl
  | tail _ ha ih => exact ih.trans ha.adds

theorem tag_adds (dir : Layer) (id : Int) (r : Except Failure Unit)
    (ht : h.traced.tag dir id w = (r, w₁)) (hid : P id) : Adds P w w₁ := by
  have hw : w₁ = (h.traced.tag dir id w).2 := by rw [ht]
  subst hw
  refine .one (.tag dir id) rfl ?_
  rintro _ ⟨⟩
  exact hid

theorem setLimit_adds (id : Int) (soft hard : String) (r : Except Failure Unit)
    (hl : h.traced.setLimit id soft hard w = (r, w₁)) (hid : P id) : Adds P w w₁ := by
  have hw : w₁ = (h.traced.setLimit id soft hard w).2 := by rw [hl]
  subst hw
  refine .one (.setLimit id soft hard) rfl ?_
  rintro _ ⟨⟩
  exact hid

theorem Enforcing.adds {s : Settings} {dir : Layer} {id : Int} {r : Except Failure Unit}
    (hn : h.traced.Enforcing s dir id w r w₁) (hid : P id) : Adds P w w₁ := by
  cases hn with
  | overtaken hc => exact .ofEq rfl
  | untagged f w' ht => exact tag_adds dir id _ ht hid
  | halted w' ht hc => exact tag_adds dir id _ ht hid
  | limited w₁ w' r ht hl =>
    exact (tag_adds dir id _ ht hid).trans (setLimit_adds id _ _ _ hl hid)

theorem put_adds (s s' : Store) (e : Entry) (r : Except Failure Unit)
    (hs : s.put h.traced.toDisk e w = (r, s', w₁)) : Adds P w w₁ := by
  have hk := Store.put_keeps h.traced.toDisk (fun v => v.2 = w.2) (fun _ _ _ hv => hv)
    (fun _ _ _ hv => hv) s e w rfl
  rw [hs] at hk
  exact .ofEq hk

theorem remove_adds (s s' : Store) (c : String) (r : Except Failure Unit)
    (hs : s.remove h.traced.toDisk c w = (r, s', w₁)) : Adds P w w₁ := by
  have hk := Store.remove_keeps h.traced.toDisk (fun v => v.2 = w.2) (fun _ _ _ hv => hv)
    (fun _ _ _ hv => hv) s c w rfl
  rw [hs] at hk
  exact .ofEq hk

/-! ### Deeds -/

/-- What a deed for one container leaves to the others: their entries, and calls that name none of
their IDs. -/
structure Spares (c : String) (d d' : Daemon (σ × List QuotaCall)) : Prop where
  table : Table.SameBut c d.core.store.table d'.core.store.table
  calls : Adds (fun id => ∀ x ∈ d.core.store.table, x.container ≠ c → x.projectId ≠ id)
    d.outside d'.outside

variable {c : String} {d d₁ d' : Daemon (σ × List QuotaCall)}

theorem Spares.trans (ha : Spares c d d₁) (hb : Spares c d₁ d') : Spares c d d' := by
  refine ⟨ha.table.trans hb.table, ha.calls.trans ?_⟩
  obtain ⟨new, hnew, hid⟩ := hb.calls
  refine ⟨new, hnew, fun call hm id hc x hx hxc => ?_⟩
  exact hid call hm id hc x ((ha.table.mem x hxc).mpr hx) hxc

theorem Creation.adds (hc : h.traced.Creation c d d')
    (hid : ∀ id p, d.core.pool.allocate = .ok (id, p) → P id) : Adds P d.outside d'.outside := by
  cases hc with
  | idle => exact .ofEq rfl
  | kept e p w' he hp hq => exact hq.adds
  | abandoned dir id p f w' he ha hn => exact hn.adds (hid id p ha)
  | malformed dir id p w' he ha hn => exact hn.adds (hid id p ha)
  | recorded dir id p e r s w₁ w₂ w' he ha hn hm hput hq =>
    exact ((hn.adds (hid id p ha)).trans (put_adds _ _ _ _ hput)).trans hq.adds

theorem Forgetting.adds {id : Int} {core : Core} {r : Except Failure (Option Int)}
    (hf : h.traced.Forgetting c id core w r d') : Adds P w d'.outside := by
  cases hf with
  | done s w₁ w' hrem hq => exact (remove_adds _ _ _ _ hrem).trans hq.adds
  | failed f s w' hrem => exact remove_adds _ _ _ _ hrem

theorem Deletion.adds {r : Except Failure (Option Int)} (hd : h.traced.Deletion c d r d')
    (hid : ∀ id, Clearable d.core c id → P id) : Adds P d.outside d'.outside := by
  cases hd with
  | idle r w' hr hq => exact hq.adds
  | unclear id f w₁ w' hc hq hl => exact hq.adds.trans (setLimit_adds id _ _ _ hl (hid id hc))
  | cleared id rl w₁ w₂ w₃ r d' hc hq hl hn hf =>
    exact ((hq.adds.trans (setLimit_adds id _ _ _ hl (hid id hc))).trans hn.adds).trans hf.adds
  | gone e w₁ r d' he hq hf => exact hq.adds.trans hf.adds

theorem Deed.spares {k : EventKind} (hd : h.traced.Deed k c d d') (hs : Sound d.core) :
    Spares c d d' := by
  cases hd with
  | beside hb => exact ⟨hb.store ▸ .refl _ _, hb.outside.adds⟩
  | creation hk hc => exact ⟨hc.sameBut, hc.adds fun id p ha x hx _ => hs.fresh id p ha x hx⟩
  | deletion hk r hd => exact ⟨hd.sameBut, hd.adds fun id hc => hc.notOthers hs⟩

theorem handleEvent_spares (e : Event) (d : Daemon (σ × List QuotaCall)) (hs : Sound d.core) :
    Spares e.container d (h.traced.serve d (.handle e)) := by
  have hkeep : ∀ d₁ d₂, Sound d₁.core ∧ Spares e.container d d₁ →
      h.traced.Deed e.kind e.container d₁ d₂ → Sound d₂.core ∧ Spares e.container d d₂ :=
    fun d₁ d₂ hd₁ hdeed => ⟨hdeed.sound hd₁.1, hd₁.2.trans (hdeed.spares hd₁.1)⟩
  exact ((h.traced.handleEvent_deeds e d).keeps _ hkeep ⟨hs, .refl _ _, .ofEq rfl⟩).2

/-! ### Runs -/

/-- In every session, the event of a container leaves the entries of the others, keeps their IDs of
the range in use, and makes no call that names an ID recorded for another container. -/
theorem handle_spares_others (h : Host σ) (a b : Int) (core : Core) (w : σ × List QuotaCall)
    (hs : Start a b core) (qs : List (Request (σ × List QuotaCall))) (e : Event) :
    let d := h.traced.session ⟨core, w⟩ qs
    let d' := h.traced.serve d (.handle e)
    (∀ c, c ≠ e.container → d'.core.store.table.get? c = d.core.store.table.get? c) ∧
      (∀ x ∈ d.core.store.table, x.container ≠ e.container →
        x ∈ d'.core.store.table ∧
          (a ≤ x.projectId → x.projectId ≤ b → x.projectId ∈ d'.core.pool.used)) ∧
      ∃ new, d'.outside.2 = d.outside.2 ++ new ∧
        ∀ call ∈ new, ∀ id, call.projectId? = some id →
          ∀ x ∈ d.core.store.table, x.container ≠ e.container → x.projectId ≠ id := by
  intro d d'
  have hsound : Sound d.core := hs.sound w qs
  have hspare : Spares e.container d d' := handleEvent_spares e d hsound
  have hsound' : Sound d'.core := serve_sound (.handle e) d hsound
  refine ⟨hspare.table.get, fun x hx hxc => ?_, hspare.calls⟩
  have hx' : x ∈ d'.core.store.table := (hspare.table.mem x hxc).mpr hx
  refine ⟨hx', fun hlow hhigh => hsound'.reserved x hx' ?_⟩
  rw [serve_inRange d (.handle e), session_inRange]
  exact (hs.inRange_iff x.projectId).mpr ⟨hlow, hhigh⟩

/-- A host on which every directory carries the first ID. -/
def misread : Host Unit := { smooth with readTag := fun _ _ => (.ok 1, ()) }

/-- The directory of a container that has no entry carries the ID of another one. -/
theorem misread_handle_spares_others :
    let start := Core.opening ⟨"10g", "12g", .ofInt 5, none⟩ ⟨1, 2, []⟩ ⟨"", []⟩
    let d := misread.traced.session ⟨start, ((), [])⟩ [.handle ⟨.create, "c", []⟩]
    let d' := misread.traced.serve d (.handle ⟨.delete, "b", []⟩)
    d.core.store.table = [⟨"c", 1, "c"⟩] ∧
    (∀ c, c ≠ "b" → d'.core.store.table.get? c = d.core.store.table.get? c) ∧
      (∀ x ∈ d.core.store.table, x.container ≠ "b" →
        x ∈ d'.core.store.table ∧
          (1 ≤ x.projectId → x.projectId ≤ 2 → x.projectId ∈ d'.core.pool.used)) ∧
      ∃ new, d'.outside.2 = d.outside.2 ++ new ∧
        ∀ call ∈ new, ∀ id, call.projectId? = some id →
          ∀ x ∈ d.core.store.table, x.container ≠ "b" → x.projectId ≠ id :=
  ⟨by decide +kernel, handle_spares_others misread 1 2 _ ((), []) smooth_start
    [.handle ⟨.create, "c", []⟩] ⟨.delete, "b", []⟩⟩

end Host

end LayerQuota
