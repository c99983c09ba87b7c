import LayerQuota.Enforcer.Memory
import LayerQuota.Proofs.Daemon.Reconciling
/-!
# A second pass changes nothing

A reconciliation that was not cancelled and failed for no container leaves every container that has
its directory with an entry whose ID is reserved. Another one that is told the same has nothing left
to do: it asks again and counts as restored what the first one restored or created.
-/

namespace LayerQuota

/-- What a pass asks of its host, with the answer, or does there. -/
inductive Heard
  | listed (r : Except Failure (List String))
  | resolved (container : String) (r : Except Failure Layer)
  | present (dir : Layer) (r : Except Failure Bool)
  | quota (call : QuotaCall)
  | saved (path : String)

inductive Question
  | listing
  | lookup (container : String)
  | presence (dir : Layer)

namespace Heard

def question? : Heard → Option Question
  | .listed _ => some .listing
  | .resolved c _ => some (.lookup c)
  | .present dir _ => some (.presence dir)
  | .quota _ => none
  | .saved _ => none

def isQuestion (n : Heard) : Bool := n.question?.isSome

end Heard

def questions (ns : List Heard) : List Heard := ns.filter Heard.isQuestion

theorem questions_append (ns ms : List Heard) :
    questions (ns ++ ms) = questions ns ++ questions ms := List.filter_append _ _

/-- Two passes are told the same, as long as they ask the same. -/
inductive Alike : List Heard → List Heard → Prop
  | first (bs : List Heard) : Alike [] bs
  | second (as : List Heard) : Alike as []
  | same (n : Heard) (as bs : List Heard) (h : Alike as bs) : Alike (n :: as) (n :: bs)
  | apart (a b : Heard) (as bs : List Heard) (h : a.question? ≠ b.question?) :
    Alike (a :: as) (b :: bs)

/-- It is enough that no question has two answers. -/
theorem Alike.of_answers (as bs : List Heard)
    (h : ∀ a ∈ as, ∀ b ∈ bs, a.question? = b.question? → a = b) : Alike as bs := by
  induction as generalizing bs with
  | nil => exact .first bs
  | cons a as ih =>
    cases bs with
    | nil => exact .second _
    | cons b bs =>
      by_cases hq : a.question? = b.question?
      · obtain rfl := h a List.mem_cons_self b List.mem_cons_self hq
        refine .same a as bs (ih bs fun x hx y hy => ?_)
        exact h x (List.mem_cons_of_mem a hx) y (List.mem_cons_of_mem a hy)
      · exact .apart a b as bs hq

theorem Alike.next (ns : List Heard) (a b : Heard) (as bs : List Heard)
    (h : Alike (ns ++ a :: as) (ns ++ b :: bs)) (hq : a.question? = b.question?) : a = b := by
  induction ns with
  | nil =>
    cases h with
    | same => rfl
    | apart _ _ _ _ hne => exact absurd hq hne
  | cons n ns ih =>
    cases h with
    | same _ _ _ hrest => exact ih hrest
    | apart _ _ _ _ hne => exact absurd rfl hne

theorem Alike.of_prefix {a b : Heard} {ms as : List Heard} (ns : List Heard)
    (h : Alike (questions ns ++ a :: as) (questions ms)) (hb : b.isQuestion = true)
    (hms : ns ++ [b] <+: ms) (hq : a.question? = b.question?) : a = b := by
  obtain ⟨bs, rfl⟩ := hms
  rw [questions_append, questions_append, List.append_assoc] at h
  have hfirst : questions [b] = [b] := List.filter_cons_of_pos hb
  rw [hfirst] at h
  exact h.next _ _ _ _ _ hq

namespace Host

open LayerQuota.Act

variable {σ α : Type} (h : Host σ)

def hearing (note : α → Heard) (f : σ → α × σ) (v : σ × List Heard) : α × (σ × List Heard) :=
  ((f v.1).1, (f v.1).2, v.2 ++ [note (f v.1).1])

/-- A host that notes what it is asked and answers, and what is done on it. -/
def heard : Host (σ × List Heard) :=
  { h.paired (List Heard) with
    save := fun path text => hearing (fun _ => .saved path) (h.save path text)
    tag := fun dir id => hearing (fun _ => .quota (.tag dir id)) (h.tag dir id)
    setLimit := fun id soft hard =>
      hearing (fun _ => .quota (.setLimit id soft hard)) (h.setLimit id soft hard)
    readTag := fun dir => hearing (fun _ => .quota (.readTag dir)) (h.readTag dir)
    isPresent := fun dir => hearing (.present dir) (h.isPresent dir)
    list := hearing .listed h.list
    resolve := fun c => hearing (.resolved c) (h.resolve c) }

variable {h}

theorem Upholds.heard {P : σ → Prop} (hu : h.Upholds P) : h.heard.Upholds fun v => P v.1 where
  log l v := hu.log l v.1
  save path text v := hu.save path text v.1
  tag dir id v := hu.tag dir id v.1
  setLimit id soft hard v := hu.setLimit id soft hard v.1
  list v := hu.list v.1
  resolve c v := hu.resolve c v.1
  isPresent dir v := hu.isPresent dir v.1
  readTag dir v := hu.readTag dir v.1
  clear id v := hu.clear id v.1

theorem hearing_eq (note : α → Heard) {f : σ → α × σ} {v v' : σ × List Heard} {a : α}
    (hf : hearing note f v = (a, v')) : f v.1 = (a, v'.1) := by
  cases hf
  rfl

theorem NeverAbandons.heard (hn : h.NeverAbandons) : h.heard.NeverAbandons where
  tag dir id v v' ht := hn.tag dir id v.1 v'.1 (hearing_eq (fun _ => .quota (.tag dir id)) ht)
  setLimit id soft hard v v' hl :=
    hn.setLimit id soft hard v.1 v'.1 (hearing_eq (fun _ => .quota (.setLimit id soft hard)) hl)
  readTag dir v v' ht := hn.readTag dir v.1 v'.1 (hearing_eq (fun _ => .quota (.readTag dir)) ht)
  isPresent dir v v' hp := hn.isPresent dir v.1 v'.1 (hearing_eq (.present dir) hp)
  resolve c v v' hr := hn.resolve c v.1 v'.1 (hearing_eq (.resolved c) hr)

theorem heard_grows (ns : List Heard) : h.heard.Upholds fun v => ns <+: v.2 where
  log _ _ _ hv := hv
  save _ _ _ hv := hv.trans (List.prefix_append _ _)
  tag _ _ _ _ hv := hv.trans (List.prefix_append _ _)
  setLimit _ _ _ _ _ hv := hv.trans (List.prefix_append _ _)
  list _ hv := hv.trans (List.prefix_append _ _)
  resolve _ _ hv := hv.trans (List.prefix_append _ _)
  isPresent _ _ hv := hv.trans (List.prefix_append _ _)
  readTag _ _ hv := hv.trans (List.prefix_append _ _)
  clear _ _ hv := hv.trans (List.prefix_append _ _)

theorem heard_permits (qs : List Heard) : h.heard.Permits fun v => questions v.2 = qs := by
  have hact : ∀ (ns : List Heard) (n : Heard), n.isQuestion = false → questions ns = qs →
      questions (ns ++ [n]) = qs := by
    intro ns n hn hq
    rw [questions_append, hq, questions, List.filter_cons_of_neg (by simp [hn]), List.filter_nil,
      List.append_nil]
  exact ⟨fun _ _ _ hv => hv, fun _ _ _ hv => hact _ _ rfl hv, fun _ _ _ _ hv => hact _ _ rfl hv,
    fun _ _ _ _ _ hv => hact _ _ rfl hv⟩

/-! ### What a pass leaves -/

def Known (core : Core) (c : String) : Prop :=
  ∃ e, core.store.table.get? c = some e ∧ core.pool.inRange e.projectId = true

/-- The IDs of the range that are recorded are reserved. -/
def Reserved (core : Core) : Prop :=
  ∀ e ∈ core.store.table, core.pool.inRange e.projectId = true → e.projectId ∈ core.pool.used

/-- The turn of a running container: where its directory is, and whether it is there yet. -/
structure Turn where
  container : String
  dir : Layer
  present : Bool

namespace Turn

def answers (t : Turn) : List Heard :=
  [.resolved t.container (.ok t.dir), .present t.dir (.ok t.present)]

theorem isQuestion_of_answers (t : Turn) (n : Heard) (hn : n ∈ t.answers) :
    n.isQuestion = true := by
  simp only [answers, List.mem_cons, List.not_mem_nil, or_false] at hn
  rcases hn with rfl | rfl
  · rfl
  · rfl

/-- A report with some turns counted as they go where everything is recorded. -/
def counted (r : Report) (ts : List Turn) : Report :=
  { r with
    restored := r.restored + ts.countP (·.present)
    skipped := r.skipped + ts.countP (!·.present) }

end Turn

/-- What some turns come to of which none failed. -/
structure Toured (ts : List Turn) (r r' : Report) (d d' : Daemon (σ × List Heard)) : Prop where
  asked : questions d'.outside.2 = questions d.outside.2 ++ ts.flatMap Turn.answers
  settled : r'.restored + r'.created = r.restored + r.created + ts.countP (·.present)
  skipped : r'.skipped = r.skipped + ts.countP (!·.present)
  recorded : ∀ t ∈ ts, t.present = true → Known d'.core t.container
  known : ∀ c, Known d.core c → Known d'.core c
  reserved : Reserved d.core → Reserved d'.core

variable {r r' : Report} {d d' : Daemon (σ × List Heard)} {c : String} {dir : Layer}

namespace Toured

theorem nil (r : Report) (d : Daemon (σ × List Heard)) : Toured [] r r d d :=
  ⟨(List.append_nil _).symm, rfl, rfl, fun _ ht => absurd ht List.not_mem_nil, fun _ hk => hk,
    fun hr => hr⟩

theorem trans {ts us : List Turn} {r₁ : Report} {d₁ : Daemon (σ × List Heard)}
    (ha : Toured ts r r₁ d d₁) (hb : Toured us r₁ r' d₁ d') : Toured (ts ++ us) r r' d d' := by
  refine ⟨?_, ?_, ?_, fun t ht hp => ?_, fun c hk => hb.known c (ha.known c hk),
    fun hr => hb.reserved (ha.reserved hr)⟩
  · rw [hb.asked, ha.asked, List.flatMap_append, List.append_assoc]
  · have h₁ := ha.settled
    have h₂ := hb.settled
    rw [List.countP_append]
    omega
  · rw [hb.skipped, ha.skipped, List.countP_append, Nat.add_assoc]
  · rcases List.mem_append.mp ht with ht | ht
    · exact hb.known _ (ha.recorded t ht hp)
    · exact hb.recorded t ht hp

end Toured

/-- What settling a container comes to that has its directory, where that did not fail. -/
structure Provided (c : String) (r r' : Report) (d d' : Daemon (σ × List Heard)) : Prop where
  asked : questions d'.outside.2 = questions d.outside.2
  counted : r'.restored + r'.created = r.restored + r.created + 1
  skipped : r'.skipped = r.skipped
  own : Known d'.core c
  known : ∀ b, Known d.core b → Known d'.core b
  reserved : Reserved d.core → Reserved d'.core

theorem Reserved.insert {core : Core} (hr : Reserved core) (id : Int) :
    Reserved { core with pool := core.pool.insert id } := by
  intro e he hin
  rw [Pool.insert_inRange] at hin
  exact (Pool.mem_insert _ _ _).mpr (.inr (hr e he hin))

theorem Known.insert {core : Core} (hk : Known core c) (id : Int) :
    Known { core with pool := core.pool.insert id } c := by
  obtain ⟨e, he, hin⟩ := hk
  exact ⟨e, he, (Pool.insert_inRange _ _ _).trans hin⟩

/-! ### A pass without a failure -/

theorem restore_provided (e : Entry) (he : d.core.store.table.get? c = some e)
    (hrun : Act.run (h.heard.restore e dir r) d = (.ok (r', true), d'))
    (hf : r'.failed = r.failed) : Provided c r r' d d' := by
  rw [restore, run_bind, run_attempt, run_markUsed] at hrun
  cases hin : d.core.pool.inRange e.projectId with
  | false =>
    simp only [Pool.markUsed, hin, Bool.false_eq_true, if_false] at hrun
    cases hrun
    exact absurd hf (Nat.succ_ne_self _)
  | true =>
    simp only [Pool.markUsed, hin, if_true] at hrun
    have hown : Known { d.core with pool := d.core.pool.insert e.projectId } c :=
      Known.insert ⟨e, he, hin⟩ e.projectId
    have hcount : r.restored + 1 + r.created = r.restored + r.created + 1 := by omega
    cases hl : isLayerOf e dir with
    | true =>
      simp only [hl] at hrun
      cases hrun
      exact ⟨rfl, hcount, rfl, hown, fun _ hk => hk.insert _, fun hr => hr.insert _⟩
    | false =>
      simp only [hl] at hrun
      cases hrun
      exact ⟨rfl, hcount, rfl, hown, fun _ hk => hk.insert _, fun hr => hr.insert _⟩

theorem CreateOutcome.pool_of_ok {h : Host σ} {d d' : Daemon σ} {e : Entry}
    (ho : h.CreateOutcome c dir d (.ok e) d') (he : d.core.store.table.get? c = none) :
    d.core.pool.inRange e.projectId = true ∧
      d'.core.pool = d.core.pool.insert e.projectId := by
  generalize hres : (Except.ok e : Except Failure Entry) = res at ho
  cases ho with
  | kept x p w' hx hp hq => cases he.symm.trans hx
  | refused x g hx hp => cases hres
  | overtaken _ hc => cases hres
  | exhausted g _ ha => cases hres
  | abandoned id p g w' _ ha hn => cases hres
  | malformed id p vs w' _ ha hn hm => cases hres
  | recorded id p x rs s w₁ w₂ w' _ ha hn hm hs hq =>
    obtain ⟨-, hin, rfl⟩ := Pool.allocate_fresh _ _ _ ha
    obtain ⟨-, rfl, -⟩ := Entry.make_eq_valid c id dir x hm
    rcases rs with f | u
    · cases hres
    · cases hres
      exact ⟨hin, rfl⟩

theorem created_provided {e : Entry} (he : d.core.store.table.get? e.container = none)
    (ht : d'.core.store.table = d.core.store.table ++ [e])
    (hin : d.core.pool.inRange e.projectId = true)
    (hp : d'.core.pool = d.core.pool.insert e.projectId)
    (hq : questions d'.outside.2 = questions d.outside.2) :
    Provided e.container r { r with created := r.created + 1 } d d' := by
  have hget : ∀ b, d'.core.store.table.get? b =
      (d.core.store.table.get? b).or (Table.get? [e] b) := by
    intro b
    rw [ht]
    exact List.find?_append
  refine ⟨hq, (Nat.add_assoc _ _ _).symm, rfl, ⟨e, ?_, ?_⟩, fun b hk => ?_, fun hr x hx hxin => ?_⟩
  · rw [hget, he]
    simp [Table.get?]
  · rw [hp, Pool.insert_inRange, hin]
  · obtain ⟨x, hx, hxin⟩ := hk
    refine ⟨x, by rw [hget, hx, Option.some_or], ?_⟩
    rw [hp, Pool.insert_inRange, hxin]
  · rw [hp, Pool.insert_inRange] at hxin
    rw [hp, Pool.mem_insert]
    rw [ht] at hx
    rcases List.mem_append.mp hx with hx | hx
    · exact .inr (hr x hx hxin)
    · rw [List.mem_singleton.mp hx]
      exact .inl rfl

theorem supply_provided (he : d.core.store.table.get? c = none)
    (hrun : Act.run (h.heard.supply c dir r) d = (.ok (r', true), d'))
    (hf : r'.failed = r.failed) : Provided c r r' d d' := by
  have ho := h.heard.create_outcome c dir d
  have hq := ((heard_permits (h := h) (questions d.outside.2)).create c dir d rfl).2
  rw [supply, run_bind, run_attempt] at hrun
  generalize Act.run (h.heard.create c dir) d = a at ho hq hrun
  obtain ⟨res, d₁⟩ := a
  simp only at ho hq hrun
  split at hrun
  · cases hrun
    obtain ⟨rfl, ht⟩ := ho.table_of_ok he
    obtain ⟨hin, hp⟩ := ho.pool_of_ok he
    exact created_provided he ht hin hp hq
  · cases hrun
  · rename_i f _
    cases hown : f.isOwn with
    | true =>
      simp only [hown] at hrun
      cases hrun
      exact absurd hf (Nat.succ_ne_self _)
    | false =>
      simp only [hown] at hrun
      cases hrun

theorem Provided.toured {t : Turn} {v : σ} (hp : t.present = true)
    (hs : Provided t.container r r' ⟨d.core, v, d.outside.2 ++ t.answers⟩ d') :
    Toured [t] r r' d d' := by
  have hasked := hs.asked
  rw [questions_append] at hasked
  refine ⟨?_, ?_, ?_, fun u hu _ => ?_, hs.known, hs.reserved⟩
  · rw [hasked, List.flatMap_singleton]
    rfl
  · simpa only [List.countP_singleton, hp, if_true] using hs.counted
  · simpa only [List.countP_singleton, hp, Bool.not_true, Bool.false_eq_true, if_false,
      Nat.add_zero] using hs.skipped
  · rw [List.mem_singleton.mp hu]
    exact hs.own

/-- A visit that counts its container and not as failed is a turn. -/
theorem visit_toured (hrun : Act.run (h.heard.visit c r) d = (.ok (r', true), d'))
    (hf : r'.failed = r.failed) : ∃ t : Turn, t.container = c ∧ Toured [t] r r' d d' := by
  rw [visit, run_bind, run_isCancelled] at hrun
  cases hc : h.heard.cancelled d.outside with
  | true =>
    simp only [hc, if_true] at hrun
    cases hrun
  | false =>
    simp only [hc, Bool.false_eq_true, if_false] at hrun
    rw [run_bind, run_attempt, run_call] at hrun
    rcases hres : h.resolve c d.outside.1 with ⟨f | dir, v⟩
    · have hres' : h.heard.resolve c d.outside =
          (.error f, v, d.outside.2 ++ [.resolved c (.error f)]) := by
        simp only [Host.heard, hearing, hres]
      rw [hres'] at hrun
      cases f with
      | lookup m =>
        cases hrun
        exact absurd hf (Nat.succ_ne_self _)
      | _ => cases hrun
    · have hres' : h.heard.resolve c d.outside =
          (.ok dir, v, d.outside.2 ++ [.resolved c (.ok dir)]) := by
        simp only [Host.heard, hearing, hres]
      rw [hres'] at hrun
      simp only at hrun
      rw [settle, run_bind, run_call] at hrun
      rcases hp : h.isPresent dir v with ⟨f | present, v'⟩
      · simp only [Host.heard, hearing, hp] at hrun
        cases hrun
      · have hp' : h.heard.isPresent dir (v, d.outside.2 ++ [.resolved c (.ok dir)]) =
            (.ok present, v', d.outside.2 ++ (Turn.mk c dir present).answers) := by
          simp only [Host.heard, hearing, hp, List.append_assoc]
          rfl
        simp only [hp'] at hrun
        cases present with
        | false =>
          cases hrun
          refine ⟨⟨c, dir, false⟩, rfl, ?_, rfl, rfl, fun t ht hp => ?_, fun _ hk => hk, fun hr => hr⟩
          · exact (questions_append _ _).trans (by rw [List.flatMap_singleton]; rfl)
          · rw [List.mem_singleton.mp ht] at hp
            cases hp
        | true =>
          simp only [if_true] at hrun
          rw [run_bind, run_entry?] at hrun
          refine ⟨⟨c, dir, true⟩, rfl, Provided.toured (v := v') rfl ?_⟩
          cases he : d.core.store.table.get? c with
          | some e =>
            simp only [he] at hrun
            exact restore_provided (d := ⟨d.core, _⟩) e he hrun hf
          | none =>
            simp only [he] at hrun
            exact supply_provided (d := ⟨d.core, _⟩) he hrun hf

variable (hstay : h.StaysCancelled)

include hstay

theorem heard_open (live : List String) (r : Report) (d : Daemon (σ × List Heard))
    (hopen : h.cancelled (Act.run (h.heard.visitAll live r) d).2.outside.1 = false) :
    h.cancelled d.outside.1 = false :=
  open_before (h := h) (fun hc => (Upholds.visitAll hstay.heard live r d hc).2) hopen

/-- A pass that is not cancelled and fails for nobody is a turn for each container. -/
theorem visitAll_toured (hnever : h.NeverAbandons) (live : List String)
    (hrun : Act.run (h.heard.visitAll live r) d = (.ok r', d'))
    (hopen : h.cancelled d'.outside.1 = false) (hf : r'.failed = r.failed) :
    ∃ ts : List Turn, ts.map (·.container) = live ∧ Toured ts r r' d d' := by
  induction live generalizing r d with
  | nil =>
    cases hrun
    exact ⟨[], rfl, .nil _ _⟩
  | cons c live ih =>
    rw [visitAll, run_bind] at hrun
    rcases hv : Act.run (h.heard.visit c r) d with ⟨f | v, d₁⟩
    · rw [hv] at hrun
      cases hrun
    · rw [hv] at hrun
      cases visit_advance hv with
      | ended _ hp =>
        -- an open scope leaves nobody out, so a pass that ends early was cancelled
        cases hrun
        have hcount := ((hp [c]).full hstay.heard hnever.heard hopen).1
        simp only [List.length_singleton] at hcount
        omega
      | counted r₁ _ hp =>
        simp only at hrun
        have h₁ := hp.failed
        have h₂ := (visitAll_progress live hrun).failed
        obtain ⟨t, rfl, ht⟩ := visit_toured hv (by omega)
        obtain ⟨ts, rfl, hts⟩ := ih hrun (by omega)
        exact ⟨t :: ts, rfl, ht.trans hts⟩

/-! ### The pass after it -/

omit hstay

theorem visitAll_grows (live : List String) (r : Report) (d : Daemon (σ × List Heard)) :
    (Act.run (h.heard.visit c r) d).2.outside.2 <+:
      (Act.run (h.heard.visitAll (c :: live) r) d).2.outside.2 := by
  rw [visitAll, run_bind]
  rcases Act.run (h.heard.visit c r) d with ⟨f | ⟨r', more⟩, d'⟩
  · exact List.prefix_rfl
  · cases more with
    | true => exact (Upholds.visitAll (heard_grows (h := h) d'.outside.2) live r' d'
        List.prefix_rfl).2
    | false => exact List.prefix_rfl

theorem settle_asks (c : String) (r : Report) (d : Daemon (σ × List Heard))
    {p : Except Failure Bool} {v : σ} (hp : h.isPresent dir d.outside.1 = (p, v)) :
    d.outside.2 ++ [.present dir p] <+: (Act.run (h.heard.settle c dir r) d).2.outside.2 := by
  have hnote : h.heard.isPresent dir d.outside = (p, v, d.outside.2 ++ [.present dir p]) := by
    simp only [Host.heard, hearing, hp]
  have hgrows := heard_grows (h := h) (d.outside.2 ++ [.present dir p])
  rw [settle, run_bind, run_call, hnote]
  rcases p with f | present
  · exact List.prefix_rfl
  · cases present with
    | false => exact List.prefix_rfl
    | true =>
      simp only [if_true]
      rw [run_bind, run_entry?]
      simp only
      cases d.core.store.table.get? c with
      | some e => exact (hgrows.restore e dir r _ List.prefix_rfl).2
      | none => exact (hgrows.supply c dir r _ List.prefix_rfl).2

theorem visit_asks (hopen : h.cancelled d.outside.1 = false) {q : Except Failure Layer} {v : σ}
    (hres : h.resolve c d.outside.1 = (q, v)) :
    d.outside.2 ++ [.resolved c q] <+: (Act.run (h.heard.visit c r) d).2.outside.2 := by
  have hc : h.heard.cancelled d.outside = false := hopen
  have hnote : h.heard.resolve c d.outside = (q, v, d.outside.2 ++ [.resolved c q]) := by
    simp only [Host.heard, hearing, hres]
  have hgrows := heard_grows (h := h) (d.outside.2 ++ [.resolved c q])
  rw [visit, run_bind, run_isCancelled]
  simp only [hc, Bool.false_eq_true, if_false]
  rw [run_bind, run_attempt, run_call, hnote]
  rcases q with f | dir
  · cases f with
    | lookup m => exact List.prefix_rfl
    | _ => exact List.prefix_rfl
  · exact (hgrows.settle c dir r _ List.prefix_rfl).2

theorem visit_resolved (hopen : h.cancelled d.outside.1 = false) {v : σ}
    (hres : h.resolve c d.outside.1 = (.ok dir, v)) :
    Act.run (h.heard.visit c r) d = Act.run (h.heard.settle c dir r)
      ⟨d.core, v, d.outside.2 ++ [.resolved c (.ok dir)]⟩ := by
  have hc : h.heard.cancelled d.outside = false := hopen
  have hnote : h.heard.resolve c d.outside =
      (.ok dir, v, d.outside.2 ++ [.resolved c (.ok dir)]) := by
    simp only [Host.heard, hearing, hres]
  rw [visit, run_bind, run_isCancelled]
  simp only [hc, Bool.false_eq_true, if_false]
  rw [run_bind, run_attempt, run_call, hnote]

/-- A container whose entry can be restored and is reserved already is counted, and that is all. -/
theorem settle_again (hr : Reserved d.core) {present : Bool} {v : σ}
    (hk : present = true → Known d.core c)
    (hp : h.isPresent dir d.outside.1 = (.ok present, v)) :
    ∃ v', Act.run (h.heard.settle c dir r) d =
      (.ok (Turn.counted r [⟨c, dir, present⟩], true),
        ⟨d.core, v', d.outside.2 ++ [.present dir (.ok present)]⟩) := by
  have hnote : h.heard.isPresent dir d.outside =
      (.ok present, v, d.outside.2 ++ [.present dir (.ok present)]) := by
    simp only [Host.heard, hearing, hp]
  rw [settle, run_bind, run_call, hnote]
  cases present with
  | false => exact ⟨_, rfl⟩
  | true =>
    obtain ⟨e, he, hin⟩ := hk rfl
    obtain ⟨hmem, -⟩ := Table.get?_mem _ c e he
    have hsame := Pool.insert_of_used d.core.pool e.projectId (hr e hmem hin)
    simp only [if_true]
    rw [run_bind, run_entry?]
    simp only [he]
    rw [restore, run_bind, run_attempt, run_markUsed]
    simp only [Pool.markUsed, hin, if_true, hsame]
    cases hl : isLayerOf e dir with
    | true => exact ⟨v, rfl⟩
    | false => exact ⟨_, rfl⟩

theorem Turn.counted_cons (r : Report) (t : Turn) (ts : List Turn) :
    Turn.counted (Turn.counted r [t]) ts = Turn.counted r (t :: ts) := by
  simp only [Turn.counted, List.countP_cons, List.countP_nil, Nat.zero_add, Nat.add_assoc,
    Nat.add_comm]

/-- Where every turn is recorded, a pass that is told the same counts them all and changes nothing. -/
theorem visitAll_again (hstay : h.StaysCancelled) (core : Core) (hr : Reserved core)
    (ts : List Turn) (hk : ∀ t ∈ ts, t.present = true → Known core t.container) (r : Report) (v : σ)
    (told : List Heard)
    (hopen : h.cancelled (Act.run (h.heard.visitAll (ts.map (·.container)) r)
      ⟨core, v, told⟩).2.outside.1 = false)
    (halike : Alike (questions told ++ ts.flatMap Turn.answers)
      (questions (Act.run (h.heard.visitAll (ts.map (·.container)) r)
        ⟨core, v, told⟩).2.outside.2)) :
    ∃ v', Act.run (h.heard.visitAll (ts.map (·.container)) r) ⟨core, v, told⟩ =
      (.ok (Turn.counted r ts), ⟨core, v', told ++ ts.flatMap Turn.answers⟩) := by
  induction ts generalizing r v told with
  | nil => exact ⟨v, by rw [List.flatMap_nil, List.append_nil]; rfl⟩
  | cons t ts ih =>
    have hfirst := heard_open hstay _ _ _ hopen
    have hgrows := visitAll_grows (h := h) (c := t.container) (ts.map (·.container)) r ⟨core, v, told⟩
    rw [List.map_cons] at hopen halike ⊢
    rcases hres : h.resolve t.container v with ⟨q, v₁⟩
    have hq : Heard.resolved t.container (.ok t.dir) = .resolved t.container q :=
      halike.of_prefix _ rfl ((visit_asks hfirst hres).trans hgrows) rfl
    cases hq
    rw [visit_resolved hfirst hres] at hgrows
    rcases hp : h.isPresent t.dir v₁ with ⟨p, v₂⟩
    have hlookup : questions told ++ (t :: ts).flatMap Turn.answers =
        questions (told ++ [.resolved t.container (.ok t.dir)]) ++
          .present t.dir (.ok t.present) :: ts.flatMap Turn.answers := by
      rw [questions_append, List.append_assoc]
      rfl
    have hasked := halike
    rw [hlookup] at hasked
    have hpres : Heard.present t.dir (.ok t.present) = .present t.dir p :=
      hasked.of_prefix _ rfl ((settle_asks t.container r ⟨core, v₁, _⟩ hp).trans hgrows) rfl
    cases hpres
    obtain ⟨v₃, hsettle⟩ := settle_again (d := ⟨core, v₁, told ++ [.resolved t.container (.ok t.dir)]⟩)
      (r := r) hr (hk t List.mem_cons_self) hp
    have hrest : Act.run (h.heard.visitAll (t.container :: ts.map (·.container)) r)
          ⟨core, v, told⟩ =
        Act.run (h.heard.visitAll (ts.map (·.container)) (Turn.counted r [t]))
          ⟨core, v₃, told ++ t.answers⟩ := by
      rw [visitAll, run_bind, visit_resolved hfirst hres, hsettle, List.append_assoc]
      rfl
    rw [hrest] at hopen halike ⊢
    have hturn : questions told ++ (t :: ts).flatMap Turn.answers =
        questions (told ++ t.answers) ++ ts.flatMap Turn.answers := by
      rw [questions_append, List.append_assoc]
      rfl
    rw [hturn] at halike
    obtain ⟨v', hrun⟩ := ih (fun u hu => hk u (List.mem_cons_of_mem t hu)) _ v₃ _ hopen halike
    refine ⟨v', ?_⟩
    rw [hrun, Turn.counted_cons, List.append_assoc]
    rfl

/-! ### Two reconciliations -/

theorem reserveAll_heard (t : Table) (d : Daemon (σ × List Heard)) :
    (Act.run (h.heard.reserveAll t) d).2.outside.2 = d.outside.2 := by
  induction t generalizing d with
  | nil => rfl
  | cons e t ih =>
    rw [reserveAll, run_bind, run_attempt, run_markUsed]
    cases d.core.pool.markUsed e.projectId with
    | ok p => exact ih _
    | error f => exact ih _

/-- What is reserved already is only reported again where it is out of range. -/
theorem reserveAll_again (core : Core) (t : Table)
    (hr : ∀ e ∈ t, core.pool.inRange e.projectId = true → e.projectId ∈ core.pool.used) (v : σ)
    (told : List Heard) :
    ∃ v', Act.run (h.heard.reserveAll t) ⟨core, v, told⟩ = (.ok (), ⟨core, v', told⟩) := by
  induction t generalizing v with
  | nil => exact ⟨v, rfl⟩
  | cons e t ih =>
    have hrest := ih fun x hx => hr x (List.mem_cons_of_mem e hx)
    rw [reserveAll, run_bind, run_attempt, run_markUsed]
    cases hin : core.pool.inRange e.projectId with
    | false =>
      simp only [Pool.markUsed, hin, Bool.false_eq_true, if_false]
      exact hrest _
    | true =>
      have hsame := Pool.insert_of_used core.pool _ (hr e List.mem_cons_self hin)
      simp only [Pool.markUsed, hin, if_true, hsame]
      exact hrest v

theorem conclude_heard (live : List String) (r : Report) (core : Core) (v : σ)
    (told : List Heard) :
    let report : Report := { r with stale := staleOf core.store.table live }
    ∃ v', Act.run (h.heard.conclude live r) ⟨core, v, told⟩ =
      (.ok report, ⟨{ core with lastReport := some report }, v', told⟩) := by
  rw [conclude, run_bind, run_core]
  simp only
  split
  · exact ⟨_, rfl⟩
  · exact ⟨_, rfl⟩

theorem conclude_after (live : List String) (r : Report) (d : Daemon (σ × List Heard)) :
    (Act.run (h.heard.visitAll live r >>= h.heard.conclude live) d).2.outside.2 =
        (Act.run (h.heard.visitAll live r) d).2.outside.2 ∧
      (h.StaysCancelled →
        h.cancelled (Act.run (h.heard.visitAll live r >>= h.heard.conclude live) d).2.outside.1 =
          false →
        h.cancelled (Act.run (h.heard.visitAll live r) d).2.outside.1 = false) := by
  rw [run_bind]
  rcases Act.run (h.heard.visitAll live r) d with ⟨f | r', core, v, told⟩
  · exact ⟨rfl, fun _ hopen => hopen⟩
  · obtain ⟨v', hconclude⟩ := conclude_heard (h := h) live r' core v told
    obtain ⟨d', hreport, -, hstays⟩ := h.heard.conclude_report live r' ⟨core, v, told⟩
    cases hreport.symm.trans hconclude
    simp only [hconclude, true_and]
    exact fun hstay hopen => open_before (hstays hstay.heard) hopen

theorem Reserving.reserved {d d' : Daemon (σ × List Heard)}
    (hr : h.heard.Reserving d.core.store.table d d') : Reserved d'.core := by
  intro e he hin
  rw [hr.store] at he
  rw [hr.inRange] at hin
  exact (hr.used e.projectId).mpr (.inr ⟨hin, List.mem_map_of_mem he⟩)

/-- What a reconciliation leaves that was not cancelled and failed for nobody: a turn for each
container, of which those with a directory are recorded. -/
structure Completed (core' : Core) (told : List Heard) (report : Report) (live : List String)
    (ts : List Turn) : Prop where
  turns : ts.map (·.container) = live
  asked : questions told = .listed (.ok live) :: ts.flatMap Turn.answers
  recorded : ∀ t ∈ ts, t.present = true → Known core' t.container
  reserved : Reserved core'
  counted : { Turn.counted (Report.opening live.length) ts with
      stale := staleOf core'.store.table live } =
    { report with restored := report.restored + report.created, created := 0 }

theorem reconcile_completed (hstay : h.StaysCancelled) (hnever : h.NeverAbandons)
    {core core' : Core} {v v' : σ} {told : List Heard} {report : Report}
    (hrun : Act.run h.heard.reconcile ⟨core, v, []⟩ = (.ok report, ⟨core', v', told⟩))
    (hopen : h.cancelled v' = false) (hfailed : report.failed = 0) :
    ∃ live ts, Completed core' told report live ts := by
  obtain ⟨d₀, live, w, r, d₁, hreserve, hr, hlist, hpass, hend⟩ := reconcile_parts report hrun
  have htold := reserveAll_heard (h := h) core.store.table ⟨core, v, []⟩
  rw [hreserve] at htold
  have hw : w.2 = [.listed (.ok live)] := by
    have hnote : w.2 = d₀.outside.2 ++ [.listed (h.list d₀.outside.1).1] :=
      (congrArg (fun a => a.2.2) hlist).symm
    have hlive : (h.list d₀.outside.1).1 = .ok live := congrArg Prod.fst hlist
    rw [hnote, htold, hlive]
    rfl
  obtain ⟨core₁, v₁, told₁⟩ := d₁
  obtain ⟨d₂, hreport, -, hstays⟩ := h.heard.conclude_report live r ⟨core₁, v₁, told₁⟩
  cases hreport.symm.trans hend
  obtain ⟨v₂, hconclude⟩ := conclude_heard (h := h) live r core₁ v₁ told₁
  cases hconclude.symm.trans hend
  have hopen₁ : h.cancelled v₁ = false := open_before (hstays hstay.heard) hopen
  obtain ⟨ts, hturns, ht⟩ := visitAll_toured hstay hnever live hpass hopen₁ hfailed
  have hlive : r.live = live.length := (visitAll_progress live hpass).live
  have hsum : r.restored + r.created = 0 + 0 + ts.countP (·.present) := ht.settled
  have hskipped : r.skipped = 0 + ts.countP (!·.present) := ht.skipped
  have hnone : r.failed = 0 := hfailed
  refine ⟨live, ts, hturns, ?_, ht.recorded, ht.reserved hr.reserved, ?_⟩
  · rw [ht.asked, hw]
    rfl
  · simp only [Turn.counted, Report.opening, hlive, hsum, hskipped, hnone, Nat.zero_add]

/-- A reconciliation that is told what one before it was told changes nothing: that one was not
cancelled and failed for nobody, so it left nothing to do. -/
theorem reconcile_idempotent (h : Host σ) (hstay : h.StaysCancelled) (hnever : h.NeverAbandons)
    (core core' : Core) (v v' w : σ) (told : List Heard) (report : Report)
    (hrun : Act.run h.heard.reconcile ⟨core, v, []⟩ = (.ok report, ⟨core', v', told⟩))
    (hopen : h.cancelled v' = false) (hfailed : report.failed = 0)
    (hagain : h.cancelled (Act.run h.heard.reconcile ⟨core', w, []⟩).2.outside.1 = false)
    (halike : Alike (questions told)
      (questions (Act.run h.heard.reconcile ⟨core', w, []⟩).2.outside.2)) :
    let again : Report :=
      { report with restored := report.restored + report.created, created := 0 }
    ∃ w' asked, Act.run h.heard.reconcile ⟨core', w, []⟩ =
        (.ok again, ⟨{ core' with lastReport := some again }, w', asked⟩) ∧
      ∀ n ∈ asked, n.isQuestion = true := by
  intro again
  obtain ⟨live, ts, hc⟩ := reconcile_completed hstay hnever hrun hopen hfailed
  obtain ⟨w₁, hreserve⟩ := reserveAll_again (h := h) core' core'.store.table hc.reserved w []
  rw [hc.asked] at halike
  have hstart : Act.run h.heard.reconcile ⟨core', w, []⟩ =
      Act.run (Act.call h.heard.list >>= fun live =>
        h.heard.visitAll live (Report.opening live.length) >>= h.heard.conclude live)
          ⟨core', w₁, []⟩ := by
    rw [reconcile, run_bind_ok _ _ _ _ _ (run_core _), run_bind_ok _ _ _ _ _ hreserve]
  rw [hstart, run_bind, run_call] at hagain halike ⊢
  rcases hlist : h.list w₁ with ⟨l, w₂⟩
  have hnote : h.heard.list (w₁, []) = (l, w₂, [.listed l]) := by
    simp only [Host.heard, hearing, hlist, List.nil_append]
  rw [hnote] at hagain halike ⊢
  rcases l with f | live'
  · -- it was told the listing before
    cases halike.next [] _ _ _ _ rfl
  · simp only at hagain halike ⊢
    obtain ⟨htold, hopened⟩ := conclude_after (h := h) live' (Report.opening live'.length)
      ⟨core', w₂, [.listed (.ok live')]⟩
    have hgrows := ((heard_grows (h := h) [.listed (.ok live')]).visitAll live'
      (Report.opening live'.length) ⟨core', w₂, [.listed (.ok live')]⟩ List.prefix_rfl).2
    rw [htold] at halike
    have hsame : Heard.listed (.ok live) = .listed (.ok live') :=
      Alike.of_prefix [] halike rfl hgrows rfl
    cases hsame
    rw [← hc.turns] at hopened hagain halike ⊢
    obtain ⟨w₃, hpass⟩ := visitAll_again hstay core' hc.reserved ts hc.recorded _ w₂ _
      (hopened hstay hagain) halike
    obtain ⟨w₄, hconclude⟩ := conclude_heard (h := h) (ts.map (·.container))
      (Turn.counted (Report.opening (ts.map (·.container)).length) ts) core' w₃
      ([.listed (.ok (ts.map (·.container)))] ++ ts.flatMap Turn.answers)
    have hreport := hc.counted
    rw [← hc.turns] at hreport
    simp only [hreport] at hconclude
    refine ⟨w₄, _, (run_bind_ok _ _ _ _ _ hpass).trans hconclude, fun n hn => ?_⟩
    rcases List.mem_append.mp hn with hn | hn
    · rw [List.mem_singleton.mp hn]
      rfl
    · obtain ⟨t, -, ht⟩ := List.mem_flatMap.mp hn
      exact t.isQuestion_of_answers n ht

theorem reconcile_of_parts {h : Host σ} {d d₁ : Daemon σ} {live : List String} {w : σ}
    {r : Report} (d₀ : Daemon σ) (hreserve : Act.run (h.reserveAll d.core.store.table) d = (.ok (), d₀))
    (hlist : h.list d₀.outside = (.ok live, w))
    (hpass : Act.run (h.visitAll live (Report.opening live.length)) ⟨d₀.core, w⟩ = (.ok r, d₁)) :
    Act.run h.reconcile d = Act.run (h.conclude live r) d₁ := by
  rw [reconcile, run_bind_ok _ _ _ _ _ (run_core _), run_bind_ok _ _ _ _ _ hreserve, run_bind,
    run_call, hlist]
  exact run_bind_ok _ _ _ _ _ hpass

theorem repeating_conclude (core : Core) (told : List Heard) (r : Report)
    (hs : staleOf core.store.table ["b", "b"] = ["a"]) :
    Act.run (repeating.heard.conclude ["b", "b"] r) ⟨core, false, told⟩ =
      (.ok { r with stale := ["a"] },
        ⟨{ core with lastReport := some { r with stale := ["a"] } }, false, told⟩) := by
  rw [conclude, run_bind, run_core]
  simp only
  rw [hs]
  rfl

theorem repeating_reconcile_idempotent :
    let core := Core.opening ⟨"10g", "12g", .ofInt 5, none⟩ ⟨1, 9, []⟩ ⟨"", [⟨"a", 1, "/a"⟩]⟩
    let core' : Core := { core with
      pool := ⟨1, 9, [2, 1]⟩
      store := ⟨"", [⟨"a", 1, "/a"⟩, ⟨"b", 2, "b"⟩]⟩
      lastReport := some ⟨2, 1, 1, 0, 0, ["a"]⟩ }
    ∃ told, Act.run repeating.heard.reconcile ⟨core, false, []⟩ =
        (.ok ⟨2, 1, 1, 0, 0, ["a"]⟩, ⟨core', false, told⟩) ∧
      repeating.StaysCancelled ∧ repeating.NeverAbandons ∧
      repeating.cancelled
        (Act.run repeating.heard.reconcile ⟨core', false, []⟩).2.outside.1 = false ∧
      Alike (questions told)
        (questions (Act.run repeating.heard.reconcile ⟨core', false, []⟩).2.outside.2) ∧
      ∃ w' asked, Act.run repeating.heard.reconcile ⟨core', false, []⟩ =
          (.ok ⟨2, 2, 0, 0, 0, ["a"]⟩,
            ⟨{ core' with lastReport := some ⟨2, 2, 0, 0, 0, ["a"]⟩ }, w', asked⟩) ∧
        ∀ n ∈ asked, n.isQuestion = true := by
  intro core core'
  let turn : List Heard := (Turn.mk "b" (Layer.ofPath "b") true).answers
  let told : List Heard := [.listed (.ok ["b", "b"])] ++ turn ++
    [.quota (.tag (Layer.ofPath "b") 2), .quota (.setLimit 2 "10g" "12g"), .saved ""] ++ turn
  let asked : List Heard := [.listed (.ok ["b", "b"])] ++ turn ++ turn
  let passed : Core := { core' with lastReport := none }
  have hstale : staleOf core'.store.table ["b", "b"] = ["a"] := List.mergeSort_singleton _
  have hpass : Act.run (repeating.heard.visitAll ["b", "b"] (Report.opening 2))
      ⟨{ core with pool := ⟨1, 9, [1]⟩ }, false, [.listed (.ok ["b", "b"])]⟩ =
      (.ok ⟨2, 1, 1, 0, 0, []⟩, ⟨passed, false, told⟩) := rfl
  have hrun : Act.run repeating.heard.reconcile ⟨core, false, []⟩ =
      (.ok ⟨2, 1, 1, 0, 0, ["a"]⟩, ⟨core', false, told⟩) :=
    (reconcile_of_parts ⟨{ core with pool := ⟨1, 9, [1]⟩ }, false, []⟩ rfl rfl hpass).trans
      (repeating_conclude passed told _ hstale)
  have hpass' : Act.run (repeating.heard.visitAll ["b", "b"] (Report.opening 2))
      ⟨core', false, [.listed (.ok ["b", "b"])]⟩ =
      (.ok ⟨2, 2, 0, 0, 0, []⟩, ⟨core', false, asked⟩) := rfl
  have hagain : Act.run repeating.heard.reconcile ⟨core', false, []⟩ =
      (.ok ⟨2, 2, 0, 0, 0, ["a"]⟩,
        ⟨{ core' with lastReport := some ⟨2, 2, 0, 0, 0, ["a"]⟩ }, false, asked⟩) :=
    (reconcile_of_parts ⟨core', false, []⟩ rfl rfl hpass').trans
      (repeating_conclude core' asked _ hstale)
  have hopen : repeating.cancelled
      (Act.run repeating.heard.reconcile ⟨core', false, []⟩).2.outside.1 = false := by
    rw [hagain]
    rfl
  have halike : Alike (questions told)
      (questions (Act.run repeating.heard.reconcile ⟨core', false, []⟩).2.outside.2) := by
    rw [hagain]
    have hsame : questions told = questions asked := rfl
    rw [hsame]
    refine Alike.of_answers _ _ fun a ha b hb hq => ?_
    have hlist : ∀ n ∈ questions asked, n = .listed (.ok ["b", "b"]) ∨
        n = .resolved "b" (.ok (Layer.ofPath "b")) ∨ n = .present (Layer.ofPath "b") (.ok true) := by
      intro n hn
      have hmem : n ∈ asked := List.mem_of_mem_filter hn
      simp only [asked, turn, Turn.answers, List.mem_append, List.mem_cons, List.not_mem_nil,
        or_false] at hmem
      grind
    rcases hlist a ha with rfl | rfl | rfl <;> rcases hlist b hb with rfl | rfl | rfl <;>
      first | rfl | cases hq
  exact ⟨told, hrun, repeating_staysCancelled, repeating_neverAbandons, hopen, halike,
    reconcile_idempotent repeating repeating_staysCancelled repeating_neverAbandons core core' false
      false false told _ hrun rfl rfl hopen halike⟩

end Host

end LayerQuota
