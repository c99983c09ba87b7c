import LayerQuota.Proofs.Pool
import LayerQuota.Rehearsal.Pool
import Mathlib.Data.List.Induction
import Mathlib.Order.Bounds.Basic
/-!
# The history of a pool

What a program on a pool was answered tells which IDs are in use: those whose last successful
operation took or reserved them and did not free them. From this it follows that no ID is handed out
twice unless it was freed in between.
-/

namespace LayerQuota

/-- The IDs of the range that can still be handed out. -/
def Pool.free (p : Pool) : Set Int := {n | p.least ≤ n ∧ n ≤ p.greatest ∧ n ∉ p.inUse}

namespace Rehearsal

/-- An operation with what it was answered. -/
structure PoolTurn where
  act : PoolAct
  answer : Except Failure PoolAnswer

/-- A pool in the course of a program. -/
structure PoolCourse where
  turns : List PoolTurn
  pool : Pool

def PoolCourse.take (c : PoolCourse) (act : PoolAct) : PoolCourse :=
  let (answer, pool) := act.perform c.pool
  ⟨c.turns ++ [⟨act, answer⟩], pool⟩

def PoolAct.performAll (p : Pool) (acts : List PoolAct) : PoolCourse :=
  acts.foldl PoolCourse.take ⟨[], p⟩

/-! ### Reading a history -/

inductive PoolWord
  | taken
  | freed
deriving DecidableEq

/-- What an operation that succeeded says of an ID. -/
def PoolTurn.word? (id : Int) (t : PoolTurn) : Option PoolWord :=
  match t.act, t.answer with
  | .allocate, .ok (.number n) => if n = id then some .taken else none
  | .markUsed n, .ok _ => if n = id then some .taken else none
  | .release n, .ok _ => if n = id then some .freed else none
  | _, _ => none

/-- What the last operation that concerns an ID says of it. -/
def lastWord (id : Int) (turns : List PoolTurn) : Option PoolWord :=
  (turns.filterMap (PoolTurn.word? id)).getLast?

theorem lastWord_snoc (id : Int) (turns : List PoolTurn) (t : PoolTurn) :
    lastWord id (turns ++ [t]) = (t.word? id).or (lastWord id turns) := by
  unfold lastWord
  rw [List.filterMap_append]
  cases hw : t.word? id with
  | none => simp only [List.filterMap_cons, hw, List.filterMap_nil, List.append_nil, Option.none_or]
  | some w =>
    simp only [List.filterMap_cons, hw, List.filterMap_nil, List.getLast?_append,
      List.getLast?_singleton, Option.some_or]

/-- An ID stays taken until an operation frees it. -/
theorem lastWord_unfreed (id : Int) (pre mid : List PoolTurn) (h : lastWord id pre = some .taken)
    (hmid : ∀ t ∈ mid, t.word? id ≠ some .freed) : lastWord id (pre ++ mid) = some .taken := by
  induction mid using List.reverseRecOn with
  | nil => rwa [List.append_nil]
  | append_singleton mid t ih =>
    rw [← List.append_assoc, lastWord_snoc]
    have ht := hmid t (List.mem_append_right mid (List.mem_singleton.mpr rfl))
    cases hw : t.word? id with
    | none => exact ih fun u hu => hmid u (List.mem_append_left _ hu)
    | some w =>
      cases w with
      | taken => rfl
      | freed => exact absurd hw ht

theorem act_of_freed (id : Int) (t : PoolTurn) (h : t.word? id = some .freed) :
    t.act = .release id := by
  unfold PoolTurn.word? at h
  split at h
  · split at h <;> cases h
  · split at h <;> cases h
  · rename_i hact _
    split at h
    · rename_i heq
      exact heq ▸ hact
    · cases h
  · cases h

/-! ### One operation -/

section Operation

variable (p : Pool)

/-- An allocation takes the least free ID and no other, or the range has none and the pool stays. -/
theorem perform_allocate :
    (∃ id, PoolAct.allocate.perform p = (.ok (.number id), p.insert id) ∧ IsLeast p.free id) ∨
      (PoolAct.allocate.perform p = (.error (.pool (.exhausted p.least p.greatest)), p) ∧
        ∀ n, p.least ≤ n → n ≤ p.greatest → n ∈ p.inUse) := by
  cases ha : p.allocate with
  | ok r =>
    obtain ⟨id, q⟩ := r
    obtain ⟨hfree, hin, rfl⟩ := p.allocate_fresh q id ha
    obtain ⟨hlow, hhigh⟩ := (p.inRange_iff id).mp hin
    refine .inl ⟨id, by rw [PoolAct.perform, ha], ⟨hlow, hhigh, ?_⟩, fun n hn => ?_⟩
    · rwa [Pool.mem_inUse]
    · by_contra hlt
      have hused := p.allocate_least _ id n ha hn.1 (by omega)
      exact hn.2.2 ((p.mem_inUse n).mpr hused)
  | error e =>
    obtain ⟨rfl, hfull⟩ := p.allocate_error e ha
    refine .inr ⟨by rw [PoolAct.perform, ha], fun n hlow hhigh => ?_⟩
    exact (p.mem_inUse n).mpr (hfull n ((p.inRange_iff n).mpr ⟨hlow, hhigh⟩))

theorem perform_markUsed (n : Int) :
    ((p.least ≤ n ∧ n ≤ p.greatest) ∧
        (PoolAct.markUsed n).perform p = (.ok .nothing, p.insert n)) ∨
      (¬(p.least ≤ n ∧ n ≤ p.greatest) ∧
        (PoolAct.markUsed n).perform p =
          (.error (.pool (.outsideRange n p.least p.greatest)), p)) := by
  rw [← p.inRange_iff n]
  unfold PoolAct.perform Pool.markUsed
  by_cases hn : p.inRange n = true
  · exact .inl ⟨hn, by simp only [hn, if_true]⟩
  · exact .inr ⟨hn, by simp only [hn, Bool.false_eq_true, if_false]⟩

end Operation

/-! ### The law of a history -/

/-- A course that tells which IDs are in use. -/
structure Tells (a b : Int) (c : PoolCourse) : Prop where
  least : c.pool.least = a
  greatest : c.pool.greatest = b
  nodup : c.pool.used.Nodup
  within : ∀ n ∈ c.pool.used, a ≤ n ∧ n ≤ b
  used : ∀ id, id ∈ c.pool.used ↔ lastWord id c.turns = some .taken
  fresh : ∀ pre post id, c.turns = pre ++ ⟨.allocate, .ok (.number id)⟩ :: post →
    lastWord id pre ≠ some .taken

variable {a b : Int} {c : PoolCourse}

theorem Tells.opening : Tells a b ⟨[], ⟨a, b, []⟩⟩ where
  least := rfl
  greatest := rfl
  nodup := List.nodup_nil
  within _ hn := absurd hn List.not_mem_nil
  used _ := iff_of_false List.not_mem_nil nofun
  fresh pre _ _ h := by simp only [List.nil_eq, List.append_eq_nil_iff, reduceCtorEq, and_false] at h

/-- What was handed out before a turn stays as it was told; the turn itself hands out an ID that was
not in use. -/
theorem Tells.fresh_snoc (ht : Tells a b c) (t : PoolTurn)
    (hfresh : ∀ id, t = ⟨.allocate, .ok (.number id)⟩ → id ∉ c.pool.used)
    (pre post : List PoolTurn) (id : Int)
    (h : c.turns ++ [t] = pre ++ ⟨.allocate, .ok (.number id)⟩ :: post) :
    lastWord id pre ≠ some .taken := by
  rcases List.eq_nil_or_concat post with rfl | ⟨post, u, rfl⟩
  · obtain ⟨rfl, hlast⟩ := List.append_inj' h rfl
    exact fun hw => hfresh id (List.singleton_inj.mp hlast) ((ht.used id).mpr hw)
  · rw [List.concat_eq_append, ← List.cons_append, ← List.append_assoc] at h
    exact ht.fresh pre post id (List.append_inj' h rfl).1

/-- A turn after which those IDs are in use that it says so of, and of which it says nothing as
before. -/
theorem Tells.step (ht : Tells a b c) (t : PoolTurn) (q : Pool)
    (hrange : q.least = c.pool.least ∧ q.greatest = c.pool.greatest) (hnodup : q.used.Nodup)
    (hwithin : ∀ n ∈ q.used, n ∈ c.pool.used ∨ a ≤ n ∧ n ≤ b)
    (hused : ∀ id, id ∈ q.used ↔ t.word? id = some .taken ∨
      t.word? id = none ∧ id ∈ c.pool.used)
    (hfresh : ∀ id, t = ⟨.allocate, .ok (.number id)⟩ → id ∉ c.pool.used) :
    Tells a b ⟨c.turns ++ [t], q⟩ := by
  refine ⟨hrange.1.trans ht.least, hrange.2.trans ht.greatest, hnodup, fun n hn => ?_, fun id => ?_,
    ht.fresh_snoc t hfresh⟩
  · exact (hwithin n hn).elim (ht.within n) id
  · rw [lastWord_snoc, hused id, ht.used id]
    cases t.word? id <;> simp

theorem Tells.inserted (ht : Tells a b c) (t : PoolTurn) (n : Int) (hn : a ≤ n ∧ n ≤ b)
    (hword : ∀ id, t.word? id = if n = id then some .taken else none)
    (hfresh : ∀ id, t = ⟨.allocate, .ok (.number id)⟩ → id ∉ c.pool.used) :
    Tells a b ⟨c.turns ++ [t], c.pool.insert n⟩ := by
  refine ht.step t _ ⟨Pool.insert_least _ n, Pool.insert_greatest _ n⟩
    (c.pool.insert_nodup n ht.nodup) (fun m hm => ?_) (fun id => ?_) hfresh
  · rcases (Pool.mem_insert _ n m).mp hm with rfl | hm
    · exact .inr hn
    · exact .inl hm
  · rw [Pool.mem_insert, hword id]
    by_cases heq : n = id
    · simp [heq]
    · simp [heq, Ne.symm heq]

theorem Tells.kept (ht : Tells a b c) (t : PoolTurn) (hword : ∀ id, t.word? id = none)
    (hfresh : ∀ id, t ≠ ⟨.allocate, .ok (.number id)⟩) : Tells a b ⟨c.turns ++ [t], c.pool⟩ := by
  refine ht.step t _ ⟨rfl, rfl⟩ ht.nodup (fun _ => Or.inl) (fun id => ?_)
    fun id h => absurd h (hfresh id)
  simp [hword id]

theorem Tells.take (ht : Tells a b c) (act : PoolAct) : Tells a b (c.take act) := by
  unfold PoolCourse.take
  cases act with
  | allocate =>
    rcases perform_allocate c.pool with ⟨id, hok, ⟨hlow, hhigh, hfree⟩, -⟩ | ⟨herror, -⟩
    · rw [hok]
      refine ht.inserted _ id ⟨ht.least ▸ hlow, ht.greatest ▸ hhigh⟩ (fun _ => rfl) ?_
      rintro n ⟨⟩
      rwa [Pool.mem_inUse] at hfree
    · rw [herror]
      exact ht.kept _ (fun _ => rfl) nofun
  | markUsed n =>
    rcases perform_markUsed c.pool n with ⟨hn, hok⟩ | ⟨-, herror⟩
    · rw [hok]
      exact ht.inserted _ n (ht.least ▸ ht.greatest ▸ hn) (fun _ => rfl) nofun
    · rw [herror]
      exact ht.kept _ (fun _ => rfl) nofun
  | release n =>
    refine ht.step _ _ ⟨rfl, rfl⟩ (c.pool.release_nodup n ht.nodup) (fun m hm => ?_) (fun id => ?_)
      nofun
    · exact .inl ((Pool.mem_release _ n m).mp hm).1
    · rw [Pool.mem_release]
      by_cases heq : n = id
      · simp [PoolTurn.word?, heq]
      · simp [PoolTurn.word?, heq, Ne.symm heq]
  | isUsed n => exact ht.kept _ (fun _ => rfl) nofun
  | inUse => exact ht.kept _ (fun _ => rfl) nofun
  | capacity => exact ht.kept _ (fun _ => rfl) nofun
  | freeCount => exact ht.kept _ (fun _ => rfl) nofun

theorem performAll_tells (a b : Int) (acts : List PoolAct) :
    Tells a b (PoolAct.performAll ⟨a, b, []⟩ acts) := by
  induction acts using List.reverseRecOn with
  | nil => exact .opening
  | append_singleton acts act ih =>
    rw [PoolAct.performAll, List.foldl_append]
    exact ih.take act

theorem Tells.freeCount (ht : Tells a b c) (hab : a < b) :
    0 ≤ c.pool.freeCount ∧ c.pool.freeCount ≤ c.pool.capacity := by
  have hin : ∀ n ∈ c.pool.used, c.pool.inRange n = true := by
    intro n hn
    rw [Pool.inRange_iff, ht.least, ht.greatest]
    exact ht.within n hn
  have hlen := c.pool.used_length_le ht.nodup hin
  have hcap : c.pool.capacity = b - a + 1 := by rw [Pool.capacity, ht.least, ht.greatest]
  unfold Pool.freeCount
  omega

/-- Between two turns that hand out the same ID it is freed. -/
theorem Tells.freed_between (ht : Tells a b c) (pre mid post : List PoolTurn) (id : Int)
    (h : c.turns = pre ++ ⟨.allocate, .ok (.number id)⟩ :: mid ++
      ⟨.allocate, .ok (.number id)⟩ :: post) : ∃ t ∈ mid, t.act = .release id := by
  by_contra hno
  have hmid : ∀ t ∈ mid, t.word? id ≠ some .freed := fun t htm hw =>
    hno ⟨t, htm, act_of_freed id t hw⟩
  have htaken : lastWord id (pre ++ [⟨.allocate, .ok (.number id)⟩]) = some .taken := by
    rw [lastWord_snoc]
    simp [PoolTurn.word?]
  have hstill := lastWord_unfreed id _ mid htaken hmid
  rw [List.append_assoc, List.singleton_append] at hstill
  exact ht.fresh _ post id h hstill

/-- After every program on a fresh pool an ID is in use just where its last successful operation took
or reserved it. An allocation then hands out the least free ID and marks it alone; it fails, and
leaves the pool as it was, just where the whole range is in use. A reservation fails in that way just
outside the range. No ID is handed out twice without being freed in between. -/
theorem performAll_lawful (a b : Int) (ha : 0 < a) (hab : a < b) :
    ∃ fresh, Pool.create a b = .ok fresh ∧ ∀ acts : List PoolAct,
      let c := PoolAct.performAll fresh acts
      let p := c.pool
      (∀ id, id ∈ p.inUse ↔ lastWord id c.turns = some .taken) ∧
        (∀ id, IsLeast p.free id → ∃ q, PoolAct.allocate.perform p = (.ok (.number id), q) ∧
          ∀ n, n ∈ q.inUse ↔ n = id ∨ n ∈ p.inUse) ∧
        (PoolAct.allocate.perform p = (.error (.pool (.exhausted a b)), p) ↔
          ∀ n, a ≤ n → n ≤ b → n ∈ p.inUse) ∧
        (∀ id, (PoolAct.markUsed id).perform p = (.error (.pool (.outsideRange id a b)), p) ↔
          ¬(a ≤ id ∧ id ≤ b)) ∧
        (∀ id, a ≤ id ∧ id ≤ b → ∃ q, (PoolAct.markUsed id).perform p = (.ok .nothing, q) ∧
          ∀ n, n ∈ q.inUse ↔ n = id ∨ n ∈ p.inUse) ∧
        (∀ id, ∃ q, (PoolAct.release id).perform p = (.ok .nothing, q) ∧
          ∀ n, n ∈ q.inUse ↔ n ∈ p.inUse ∧ n ≠ id) ∧
        (∀ n ∈ p.inUse, a ≤ n ∧ n ≤ b) ∧ (0 ≤ p.freeCount ∧ p.freeCount ≤ p.capacity) ∧
        ∀ pre mid post id, c.turns = pre ++ ⟨.allocate, .ok (.number id)⟩ :: mid ++
          ⟨.allocate, .ok (.number id)⟩ :: post → ∃ t ∈ mid, t.act = .release id := by
  have hcreate : Pool.create a b = .ok ⟨a, b, []⟩ := if_neg (by omega)
  refine ⟨_, hcreate, fun acts => ?_⟩
  intro c p
  have ht : Tells a b c := performAll_tells a b acts
  have hleast : p.least = a := ht.least
  have hgreatest : p.greatest = b := ht.greatest
  have hinsert : ∀ id n, n ∈ (p.insert id).inUse ↔ n = id ∨ n ∈ p.inUse := by
    intro id n
    rw [Pool.mem_inUse, Pool.mem_inUse, Pool.mem_insert]
  have hallocate := perform_allocate p
  have hmark := perform_markUsed p
  rw [hleast, hgreatest] at hallocate
  simp only [hleast, hgreatest] at hmark
  refine ⟨fun id => ?_, fun id hid => ?_, ⟨fun hf => ?_, fun hfull => ?_⟩, fun id => ⟨fun hf => ?_,
    fun hout => ?_⟩, fun id hin => ?_, fun id => ⟨_, rfl, fun n => ?_⟩, fun n hn => ?_,
    ht.freeCount hab, fun pre mid post id => ht.freed_between pre mid post id⟩
  · rw [Pool.mem_inUse]
    exact ht.used id
  · rcases hallocate with ⟨n, hok, hn⟩ | ⟨-, hfull⟩
    · obtain rfl := hid.unique hn
      exact ⟨_, hok, hinsert id⟩
    · obtain ⟨hlow, hhigh, hfree⟩ := hid.1
      exact absurd (hfull id (hleast ▸ hlow) (hgreatest ▸ hhigh)) hfree
  · rcases hallocate with ⟨n, hok, -⟩ | ⟨-, hfull⟩
    · rw [hok] at hf
      cases hf
    · exact hfull
  · rcases hallocate with ⟨n, -, ⟨hlow, hhigh, hfree⟩, -⟩ | ⟨herror, -⟩
    · exact absurd (hfull n (hleast ▸ hlow) (hgreatest ▸ hhigh)) hfree
    · exact herror
  · rcases hmark id with ⟨-, hok⟩ | ⟨hout, -⟩
    · rw [hok] at hf
      cases hf
    · exact hout
  · exact ((hmark id).resolve_left fun h => hout h.1).2
  · exact ⟨_, ((hmark id).resolve_right fun h => h.1 hin).2, hinsert id⟩
  · rw [Pool.mem_inUse, Pool.mem_inUse, Pool.mem_release]
  · exact ht.within n ((p.mem_inUse n).mp hn)

/-- A range of two IDs, one of them reserved out of order and freed twice. -/
def twoIds : List PoolAct :=
  [.allocate, .markUsed 2, .allocate, .release 2, .release 2, .markUsed 3]

theorem twoIds_performAll_lawful :
    ∃ fresh, Pool.create 1 2 = .ok fresh ∧
      let c := PoolAct.performAll fresh twoIds
      (1 ∈ c.pool.inUse ∧ 2 ∉ c.pool.inUse) ∧
        (∃ q, PoolAct.allocate.perform c.pool = (.ok (.number 2), q) ∧ 2 ∈ q.inUse) ∧
        (PoolAct.markUsed 3).perform c.pool = (.error (.pool (.outsideRange 3 1 2)), c.pool) := by
  obtain ⟨fresh, hc, h⟩ := performAll_lawful 1 2 (by decide) (by decide)
  refine ⟨fresh, hc, ?_⟩
  intro c
  obtain rfl := Pool.create_used 1 2 fresh hc
  obtain ⟨hused, hallocate, -, hmark, -⟩ := h twoIds
  have h1 : 1 ∈ c.pool.inUse := (hused 1).mpr (by decide)
  have h2 : 2 ∉ c.pool.inUse := mt (hused 2).mp (by decide)
  have hleast : IsLeast c.pool.free 2 := by
    refine ⟨⟨by decide, by decide, h2⟩, fun n hn => ?_⟩
    by_contra hlt
    have hlow : 1 ≤ n := hn.1
    obtain rfl : n = 1 := by omega
    exact hn.2.2 h1
  obtain ⟨q, hq, hmem⟩ := hallocate 2 hleast
  exact ⟨⟨h1, h2⟩, ⟨q, hq, (hmem 2).mpr (.inl rfl)⟩, (hmark 3).mpr (by decide)⟩

end Rehearsal

end LayerQuota
