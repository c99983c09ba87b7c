import LayerQuota.Failure
import LayerQuota.Lock
import LayerQuota.Proofs.Lookup
import Mathlib.Data.List.Nodup
/-!
# What the reader–writer lock keeps

Any number of threads enter and leave, and a woken sleeper tests its condition whenever it comes to
run. The lock's counters always tell how many threads read, write and wait to write, no writer is
inside with another thread, and a waiting writer is the next to enter. A sleeper that was not woken
could not enter anyway, so when the lock is left free one of those that wait is awake and can.
-/

namespace LayerQuota.Lock

/-! ### Who stands where -/

/-- The threads whose place is one of these. -/
def standing (l : Lock) (p : Stand → Bool) : List String :=
  (l.threads.filter fun x => p x.2).map (·.1)

def isAsking (a : Access) : Stand → Bool
  | .asleep b _ => b == a
  | .inside _ => false

def inside (l : Lock) (a : Access) : List String := l.standing (· == .inside a)

/-- The threads that asked for an access and have not entered. -/
def asking (l : Lock) (a : Access) : List String := l.standing (isAsking a)

def names (l : Lock) : List String := l.threads.map (·.1)

def tally (l : Lock) (p : Stand → Bool) : Nat := l.threads.countP fun x => p x.2

theorem length_standing (l : Lock) (p : Stand → Bool) : (l.standing p).length = l.tally p := by
  rw [standing, List.length_map, tally, List.countP_eq_length_filter]

theorem mem_standing (l : Lock) (p : Stand → Bool) (t : String) :
    t ∈ l.standing p ↔ ∃ s, (t, s) ∈ l.threads ∧ p s = true := by
  simp only [standing, List.mem_map, List.mem_filter, Prod.exists, exists_and_right, exists_eq_right]

theorem mem_inside (l : Lock) (a : Access) (t : String) :
    t ∈ l.inside a ↔ (t, .inside a) ∈ l.threads := by
  simp only [inside, mem_standing, beq_iff_eq, exists_eq_right]

theorem mem_asking (l : Lock) (a : Access) (t : String) :
    t ∈ l.asking a ↔ ∃ w, (t, .asleep a w) ∈ l.threads := by
  rw [asking, mem_standing]
  constructor
  · rintro ⟨s, hs, ha⟩
    cases s with
    | asleep b w => exact ⟨w, eq_of_beq ha ▸ hs⟩
    | inside b => cases ha
  · rintro ⟨w, hw⟩
    exact ⟨_, hw, beq_self_eq_true a⟩

/-! ### Steps -/

/-- One atomic step of a thread that is at no place, was woken, or is inside. It leaves in the same
way however the body that it ran inside ended. -/
inductive Step (l : Lock) : Lock → Prop
  | ask (t : String) (a : Access) (h : t ∉ l.names) : Step l (l.request t a)
  | wake (t : String) (a : Access) (h : (t, .asleep a true) ∈ l.threads) : Step l (l.test t a)
  | leave (t : String) (a : Access) (body : Except Failure Unit)
      (h : (t, .inside a) ∈ l.threads) : Step l (l.release t)

/-- The accesses that `l'` has given and `l` has not. -/
def entries (l l' : Lock) : List (Access × String) :=
  [Access.read, .write].flatMap fun a => ((l'.inside a).filter (· ∉ l.inside a)).map (a, ·)

/-- Steps in a row, with the accesses they give in their order. -/
inductive Run (l : Lock) : List (Access × String) → Lock → Prop
  | refl : Run l [] l
  | step {es : List (Access × String)} {m n : Lock} (h : Run l es m) (hs : m.Step n) :
      Run l (es ++ m.entries n) n

/-- The lock after some steps of some threads. -/
def Reachable (l : Lock) : Prop := ∃ es, free.Run es l

theorem mem_entries (l l' : Lock) (a : Access) (t : String) :
    (a, t) ∈ l.entries l' ↔ t ∈ l'.inside a ∧ t ∉ l.inside a := by
  cases a <;> simp [entries]

/-! ### Counting -/

theorem filter_absent (t : String) (xs : List (String × Stand)) (h : t ∉ xs.map (·.1)) :
    xs.filter (·.1 != t) = xs := by
  refine List.filter_eq_self.mpr fun x hx => bne_iff_ne.mpr ?_
  rintro rfl
  exact h (List.mem_map.mpr ⟨x, hx, rfl⟩)

section Count

variable (l : Lock) (t : String) (s : Stand) (p : Stand → Bool)

theorem without_absent (h : t ∉ l.names) : l.without t = l := by
  rw [without, filter_absent t l.threads h]

theorem mem_without (x : String × Stand) :
    x ∈ (l.without t).threads ↔ x ∈ l.threads ∧ x.1 ≠ t := by
  simp only [without, List.mem_filter, bne_iff_ne]

theorem mem_place (x : String × Stand) :
    x ∈ (l.place t s).threads ↔ x ∈ (l.without t).threads ∨ x = (t, s) := by
  simp only [place, List.mem_append, List.mem_singleton]

theorem without_distinct (h : l.names.Nodup) : (l.without t).names.Nodup :=
  h.sublist (List.filter_sublist.map _)

theorem place_distinct (h : (l.without t).names.Nodup) : (l.place t s).names.Nodup := by
  have hnew : t ∉ (l.without t).names := by
    rintro hm
    obtain ⟨x, hx, rfl⟩ := List.mem_map.mp hm
    exact ((mem_without l x.1 x).mp hx).2 rfl
  simp only [names, place, List.map_append, List.map_cons, List.map_nil] at h hnew ⊢
  exact h.append (List.nodup_singleton t) (List.disjoint_singleton.mpr hnew)

theorem tally_place : (l.place t s).tally p = (l.without t).tally p + (p s).toNat := by
  simp only [tally, place, List.countP_append, List.countP_singleton]
  cases p s <;> rfl

theorem tally_without (hn : l.names.Nodup) (h : (t, s) ∈ l.threads) :
    l.tally p = (l.without t).tally p + (p s).toNat := by
  obtain ⟨readers, writer, waiting, threads⟩ := l
  simp only [tally, without, names] at hn h ⊢
  induction threads with
  | nil => exact absurd h List.not_mem_nil
  | cons x xs ih =>
    obtain ⟨hx, hxs⟩ := List.nodup_cons.mp hn
    rcases List.mem_cons.mp h with rfl | h
    · have hrest : xs.filter (·.1 != t) = xs := filter_absent t xs hx
      simp only [List.filter_cons, bne_self_eq_false, Bool.false_eq_true, if_false, hrest,
        List.countP_cons]
      cases p s <;> rfl
    · have hne : (x.1 != t) = true := by
        refine bne_iff_ne.mpr ?_
        rintro rfl
        exact hx (List.mem_map.mpr ⟨_, h, rfl⟩)
      have hrest := ih hxs h
      simp only [List.filter_cons, hne, if_true, List.countP_cons]
      omega

end Count

/-! ### Waking -/

section Waking

variable (l : Lock)

theorem wakeAll_names : l.wakeAll.names = l.names := by
  simp only [names, wakeAll, List.map_map]
  refine List.map_congr_left fun x _ => ?_
  obtain ⟨t, _ | _⟩ := x <;> rfl

/-- A place that does not tell the woken from the others is as full as before. -/
theorem wakeAll_tally (p : Stand → Bool) (hp : ∀ a w, p (.asleep a w) = p (.asleep a true)) :
    l.wakeAll.tally p = l.tally p := by
  simp only [tally, wakeAll, List.countP_map]
  refine List.countP_congr fun x _ => ?_
  obtain ⟨t, s⟩ := x
  cases s with
  | asleep a w => simp only [Function.comp, hp a w]
  | inside a => rfl

theorem not_unwoken_wakeAll (t : String) (a : Access) :
    (t, .asleep a false) ∉ l.wakeAll.threads := by
  intro h
  obtain ⟨⟨u, _ | _⟩, -, heq⟩ := List.mem_map.mp h <;> cases heq

end Waking

/-! ### The invariant -/

/-- The counters tell who stands where, and a writer is inside alone. -/
structure Counted (l : Lock) : Prop where
  distinct : l.names.Nodup
  readers : l.readers = l.tally (· == .inside .read)
  writer : l.writer.toNat = l.tally (· == .inside .write)
  waiting : l.writersWaiting = l.tally (isAsking .write)
  apart : l.writer = true → l.readers = 0

/-- Moreover, who sleeps without having been woken could not enter. -/
structure Sound (l : Lock) : Prop extends Counted l where
  sleepers : ∀ t a, (t, .asleep a false) ∈ l.threads → l.admits a = false

/-- The lock while a thread tests its condition: the thread is at no place, and counted as waiting if
it is to write. -/
structure Testing (l : Lock) (t : String) (a : Access) : Prop where
  distinct : (l.without t).names.Nodup
  readers : l.readers = (l.without t).tally (· == .inside .read)
  writer : l.writer.toNat = (l.without t).tally (· == .inside .write)
  waiting : l.writersWaiting = (l.without t).tally (isAsking .write) + (a == .write).toNat
  apart : l.writer = true → l.readers = 0
  sleepers : ∀ u b, (u, .asleep b false) ∈ (l.without t).threads → l.admits b = false

variable {l l' : Lock} {t : String} {a : Access}

theorem free_sound : free.Sound := by
  exact ⟨⟨List.nodup_nil, rfl, rfl, rfl, nofun⟩, fun t a h => absurd h List.not_mem_nil⟩

theorem Sound.asleep (hl : l.Sound) (w : Bool) (h : (t, .asleep a w) ∈ l.threads) :
    l.Testing t a := by
  have hcount := fun p => tally_without l t (.asleep a w) p hl.distinct h
  refine ⟨without_distinct l t hl.distinct, ?_, ?_, ?_, hl.apart, fun u b hu => ?_⟩
  · exact hl.readers.trans (hcount _)
  · exact hl.writer.trans (hcount _)
  · exact hl.waiting.trans (hcount _)
  · exact hl.sleepers u b ((mem_without l t _).mp hu).1

theorem Sound.asked (hl : l.Sound) (h : t ∉ l.names) :
    Testing { l with writersWaiting := l.writersWaiting + (a == .write).toNat } t a := by
  have hout : ({ l with writersWaiting := l.writersWaiting + (a == .write).toNat } : Lock).without t
      = { l with writersWaiting := l.writersWaiting + (a == .write).toNat } := without_absent _ t h
  refine ⟨?_, ?_, ?_, ?_, hl.apart, fun u b hu => ?_⟩
  all_goals rw [hout] at *
  · exact hl.distinct
  · exact hl.readers
  · exact hl.writer
  · exact congrArg (· + _) hl.waiting
  · have hb := hl.sleepers u b hu
    cases b with
    | read =>
      simp only [admits, Bool.and_eq_false_iff, beq_eq_false_iff_ne] at hb ⊢
      exact hb.imp id fun hw => by omega
    | write => exact hb

theorem Testing.place (hl : l.Testing t a) (m : Lock) (s : Stand) (hm : m.threads = l.threads)
    (hreaders : m.readers = l.readers + (s == .inside .read).toNat)
    (hwriter : m.writer.toNat = l.writer.toNat + (s == .inside .write).toNat)
    (hwaiting : m.writersWaiting + (a == .write).toNat =
      l.writersWaiting + (isAsking .write s).toNat)
    (hapart : m.writer = true → m.readers = 0)
    (hothers : ∀ b, l.admits b = false → m.admits b = false)
    (hself : ∀ b, s = .asleep b false → m.admits b = false) : (m.place t s).Sound := by
  have hout : ∀ p, (m.without t).tally p = (l.without t).tally p := by
    intro p
    simp only [tally, without, hm]
  refine ⟨⟨place_distinct m t s ?_, ?_, ?_, ?_, hapart⟩, fun u b hu => ?_⟩
  · simp only [names, without, hm]
    exact hl.distinct
  · rw [tally_place, hout, ← hl.readers]
    exact hreaders
  · rw [tally_place, hout, ← hl.writer]
    exact hwriter
  · have h := hl.waiting
    rw [tally_place, hout]
    show m.writersWaiting = _
    omega
  · rcases (mem_place m t s _).mp hu with hu | hu
    · rw [mem_without, hm, ← mem_without] at hu
      exact hothers b (hl.sleepers u b hu)
    · exact hself b (congrArg Prod.snd hu).symm

theorem Testing.test (hl : l.Testing t a) : (l.test t a).Sound := by
  unfold Lock.test
  by_cases hadmits : l.admits a = true
  · rw [if_pos hadmits]
    cases a with
    | read =>
      obtain ⟨hw, -⟩ := Bool.and_eq_true_iff.mp hadmits
      have hwriter : l.writer = false := Bool.not_eq_true' _ ▸ hw
      refine hl.place _ _ rfl rfl rfl rfl (fun h => absurd (hwriter ▸ h) nofun) (fun b hb => ?_) nofun
      cases b with
      | read => exact hb
      | write => simp [admits]
    | write =>
      obtain ⟨hw, hr⟩ := Bool.and_eq_true_iff.mp hadmits
      have hwriter : l.writer = false := Bool.not_eq_true' _ ▸ hw
      have hcounted : l.writersWaiting - 1 + 1 = l.writersWaiting := by
        have h := hl.waiting
        simp only [beq_self_eq_true, Bool.toNat_true] at h
        omega
      refine hl.place _ _ rfl rfl ?_ hcounted (fun _ => eq_of_beq hr) (fun b _ => ?_) nofun
      · rw [hwriter]
        rfl
      · cases b <;> rfl
  · rw [if_neg hadmits]
    refine hl.place l _ rfl rfl rfl ?_ hl.apart (fun _ => id) ?_
    · cases a <;> rfl
    · rintro b ⟨⟩
      exact Bool.eq_false_iff.mpr hadmits

theorem Sound.request (hl : l.Sound) (h : t ∉ l.names) (a : Access) : (l.request t a).Sound := by
  cases a with
  | read => exact (hl.asked (a := .read) h).test
  | write => exact (hl.asked (a := .write) h).test

theorem Counted.wakeAll (hl : l.Counted) : l.wakeAll.Sound := by
  refine ⟨⟨wakeAll_names l ▸ hl.distinct, ?_, ?_, ?_, hl.apart⟩,
    fun t a h => absurd h (not_unwoken_wakeAll l t a)⟩
  · exact hl.readers.trans (wakeAll_tally l _ fun _ _ => rfl).symm
  · exact hl.writer.trans (wakeAll_tally l _ fun _ _ => rfl).symm
  · exact hl.waiting.trans (wakeAll_tally l _ fun _ _ => rfl).symm

theorem Sound.releaseReader (hl : l.Sound) (h : (t, .inside .read) ∈ l.threads) :
    (l.release t).Sound := by
  have hlookup := lookup_of_mem t _ l.threads hl.distinct h
  have hcount := fun p => tally_without l t (.inside .read) p hl.distinct h
  have hreaders : l.readers = (l.without t).tally (· == .inside .read) + 1 :=
    hl.readers.trans (hcount _)
  have hleft : Counted { l.without t with readers := l.readers - 1 } := by
    refine ⟨without_distinct l t hl.distinct, ?_, ?_, ?_, fun hw => ?_⟩
    · show l.readers - 1 = (l.without t).tally (· == .inside .read)
      omega
    · exact hl.writer.trans (hcount _)
    · exact hl.waiting.trans (hcount _)
    · have hnone := hl.apart hw
      show l.readers - 1 = 0
      omega
  unfold Lock.release
  rw [hlookup]
  show (if l.readers - 1 == 0 then _ else _ : Lock).Sound
  split
  · exact hleft.wakeAll
  · -- readers are left inside, so a writer that sleeps could not enter
    rename_i hsome
    refine ⟨hleft, fun u b hu => ?_⟩
    have hb := hl.sleepers u b ((mem_without l t _).mp hu).1
    cases b with
    | read => exact hb
    | write => exact Bool.and_eq_false_iff.mpr (.inr (Bool.eq_false_iff.mpr hsome))

theorem Sound.releaseWriter (hl : l.Sound) (h : (t, .inside .write) ∈ l.threads) :
    (l.release t).Sound := by
  have hlookup := lookup_of_mem t _ l.threads hl.distinct h
  have hcount := fun p => tally_without l t (.inside .write) p hl.distinct h
  have hwriter : l.writer.toNat = (l.without t).tally (· == .inside .write) + 1 :=
    hl.writer.trans (hcount _)
  have hleft : Counted { l.without t with writer := false } := by
    refine ⟨without_distinct l t hl.distinct, ?_, ?_, ?_, nofun⟩
    · exact hl.readers.trans (hcount _)
    · have hle := Bool.toNat_le l.writer
      show 0 = (l.without t).tally (· == .inside .write)
      omega
    · exact hl.waiting.trans (hcount _)
  unfold Lock.release
  rw [hlookup]
  exact hleft.wakeAll

theorem Sound.step (hl : l.Sound) (hs : l.Step l') : l'.Sound := by
  cases hs with
  | ask t a h => exact hl.request h a
  | wake t a h => exact (hl.asleep true h).test
  | leave t a body h =>
    cases a with
    | read => exact hl.releaseReader h
    | write => exact hl.releaseWriter h

theorem Run.sound {es : List (Access × String)} (h : l.Run es l') (hl : l.Sound) : l'.Sound := by
  induction h with
  | refl => exact hl
  | step _ hs ih => exact ih.step hs

theorem Reachable.sound (h : l.Reachable) : l.Sound := by
  obtain ⟨es, hrun⟩ := h
  exact hrun.sound free_sound

/-! ### The waiting writer comes first -/

theorem mem_threads_test (x : String × Stand) (hx : x ∈ (l.test t a).threads) :
    x ∈ l.threads ∨ l.admits a = true ∧ x = (t, .inside a) ∨ x = (t, .asleep a false) := by
  unfold Lock.test at hx
  by_cases hadmits : l.admits a = true
  · rw [if_pos hadmits] at hx
    cases a with
    | read =>
      rcases (mem_place _ t _ x).mp hx with hx | rfl
      · exact .inl ((mem_without _ t x).mp hx).1
      · exact .inr (.inl ⟨hadmits, rfl⟩)
    | write =>
      rcases (mem_place _ t _ x).mp hx with hx | rfl
      · exact .inl ((mem_without _ t x).mp hx).1
      · exact .inr (.inl ⟨hadmits, rfl⟩)
  · rw [if_neg hadmits] at hx
    rcases (mem_place _ t _ x).mp hx with hx | rfl
    · exact .inl ((mem_without _ t x).mp hx).1
    · exact .inr (.inr rfl)

theorem test_waiting (h : 0 < l.writersWaiting) :
    0 < (l.test t a).writersWaiting ∨ (t, .inside .write) ∈ (l.test t a).threads := by
  unfold Lock.test
  by_cases hadmits : l.admits a = true
  · rw [if_pos hadmits]
    cases a with
    | read => exact .inl h
    | write => exact .inr ((mem_place _ t _ _).mpr (.inr rfl))
  · rw [if_neg hadmits]
    exact .inl h

theorem not_admits_read (h : 0 < l.writersWaiting) : l.admits .read = false := by
  have hne : l.writersWaiting ≠ 0 := by omega
  exact Bool.and_eq_false_iff.mpr (.inr (beq_eq_false_iff_ne.mpr hne))

theorem inside_read_of_test (h : 0 < l.writersWaiting) (u : String)
    (hu : u ∈ (l.test t a).inside .read) : u ∈ l.inside .read := by
  rw [mem_inside] at hu ⊢
  rcases mem_threads_test _ hu with hu | ⟨hadmits, heq⟩ | heq
  · exact hu
  · cases heq
    rw [not_admits_read h] at hadmits
    cases hadmits
  · cases heq

theorem inside_of_wakeAll (u : String) (b : Access) (hu : u ∈ l.wakeAll.inside b) :
    u ∈ l.inside b := by
  rw [mem_inside] at hu ⊢
  obtain ⟨⟨v, s⟩, hv, heq⟩ := List.mem_map.mp hu
  cases s with
  | asleep a w => cases heq
  | inside a =>
    cases heq
    exact hv

theorem inside_of_without (u : String) (b : Access) (hu : u ∈ (l.without t).inside b) :
    u ∈ l.inside b := by
  rw [mem_inside] at hu ⊢
  exact ((mem_without l t _).mp hu).1

theorem inside_of_release (u : String) (b : Access) (hu : u ∈ (l.release t).inside b) :
    u ∈ l.inside b := by
  unfold Lock.release at hu
  split at hu
  · dsimp only at hu
    split at hu
    · exact inside_of_without u b (inside_of_wakeAll u b hu)
    · exact inside_of_without u b hu
  · exact inside_of_without u b (inside_of_wakeAll u b hu)
  · exact hu

theorem release_waiting : (l.release t).writersWaiting = l.writersWaiting := by
  unfold Lock.release
  split
  · dsimp only
    split <;> rfl
  · rfl
  · rfl

theorem Sound.only_place (hl : l.Sound) (s s' : Stand) (h : (t, s) ∈ l.threads)
    (h' : (t, s') ∈ l.threads) : s = s' := by
  have hs := lookup_of_mem t s l.threads hl.distinct h
  have hs' := lookup_of_mem t s' l.threads hl.distinct h'
  exact Option.some.inj (hs.symm.trans hs')

/-- While a writer waits no step lets a reader in, and one waits on unless a writer is let in. -/
theorem Sound.step_waiting (hl : l.Sound) (hs : l.Step l') (h : 0 < l.writersWaiting) :
    (∀ t, (.read, t) ∉ l.entries l') ∧
      (0 < l'.writersWaiting ∨ ∃ t, (.write, t) ∈ l.entries l') := by
  have hclosed (hall : ∀ u, u ∈ l'.inside .read → u ∈ l.inside .read) (u : String) :
      (.read, u) ∉ l.entries l' := fun hu =>
    have hu := (mem_entries l l' .read u).mp hu
    hu.2 (hall u hu.1)
  have hentry (u : String) (hin : (u, .inside .write) ∈ l'.threads)
      (hout : (u, .inside .write) ∉ l.threads) : (.write, u) ∈ l.entries l' :=
    (mem_entries l l' .write u).mpr
      ⟨(mem_inside l' .write u).mpr hin, mt (mem_inside l .write u).mp hout⟩
  cases hs with
  | ask t a habsent =>
    have hout : (t, .inside .write) ∉ l.threads := fun ht =>
      habsent (List.mem_map.mpr ⟨_, ht, rfl⟩)
    cases a with
    | read =>
      exact ⟨hclosed (inside_read_of_test h),
        (test_waiting h).imp id fun hin => ⟨t, hentry t hin hout⟩⟩
    | write =>
      have hmore : 0 < ({ l with writersWaiting := l.writersWaiting + 1 } : Lock).writersWaiting :=
        Nat.succ_pos _
      exact ⟨hclosed (inside_read_of_test hmore),
        (test_waiting hmore).imp id fun hin => ⟨t, hentry t hin hout⟩⟩
  | wake t a hasleep =>
    have hout : (t, .inside .write) ∉ l.threads := fun ht =>
      absurd (hl.only_place _ _ hasleep ht) nofun
    exact ⟨hclosed (inside_read_of_test h),
      (test_waiting h).imp id fun hin => ⟨t, hentry t hin hout⟩⟩
  | leave t a body hinside =>
    refine ⟨hclosed fun u => inside_of_release u .read, .inl ?_⟩
    rw [release_waiting]
    exact h

theorem Run.writer_first {es : List (Access × String)} (hrun : l.Run es l') (hl : l.Sound)
    (h : 0 < l.writersWaiting) :
    (es = [] ∧ 0 < l'.writersWaiting) ∨ ∃ t rest, es = (.write, t) :: rest := by
  induction hrun with
  | refl => exact .inl ⟨rfl, h⟩
  | @step es m n hm hs ih =>
    rcases ih with ⟨rfl, hwaiting⟩ | ⟨t, rest, rfl⟩
    · obtain ⟨hno, hnext⟩ := (hm.sound hl).step_waiting hs hwaiting
      rw [List.nil_append]
      cases he : m.entries n with
      | nil =>
        refine .inl ⟨rfl, hnext.resolve_right ?_⟩
        rintro ⟨t, ht⟩
        rw [he] at ht
        exact absurd ht List.not_mem_nil
      | cons e rest =>
        obtain ⟨a, t⟩ := e
        cases a with
        | read => exact absurd (he ▸ List.mem_cons_self) (hno t)
        | write => exact .inr ⟨t, rest, rfl⟩
    · exact .inr ⟨t, rest ++ m.entries n, rfl⟩

/-! ### The lock at any time -/

theorem standing_nodup (l : Lock) (p : Stand → Bool) (h : l.names.Nodup) : (l.standing p).Nodup :=
  h.sublist (List.filter_sublist.map _)

/-- In every reachable state a writer is inside alone, the counters are the numbers of the threads that
read, write and wait to write, and where a writer waits the next to enter is a writer. -/
theorem reachable_exclusive (l : Lock) (h : l.Reachable) :
    (∀ t ∈ l.inside .write, l.inside .write = [t] ∧ l.inside .read = []) ∧
      (l.readers = (l.inside .read).length ∧ (l.inside .read).Nodup) ∧
      (l.writer = true ↔ ∃ t, t ∈ l.inside .write) ∧
      (l.writersWaiting = (l.asking .write).length ∧ (l.asking .write).Nodup) ∧
      ∀ es l', l.Run es l' → (∃ t, t ∈ l.asking .write) → ∀ t, es.head? ≠ some (.read, t) := by
  have hl := h.sound
  have hreaders : l.readers = (l.inside .read).length := by
    rw [inside, length_standing]
    exact hl.readers
  have hwriters : l.writer.toNat = (l.inside .write).length := by
    rw [inside, length_standing]
    exact hl.writer
  have hwaiting : l.writersWaiting = (l.asking .write).length := by
    rw [asking, length_standing]
    exact hl.waiting
  have hwriter : l.writer = true ↔ ∃ t, t ∈ l.inside .write := by
    rw [← List.length_pos_iff_exists_mem, ← hwriters]
    cases l.writer <;> simp
  refine ⟨fun t ht => ?_, ⟨hreaders, standing_nodup l _ hl.distinct⟩, hwriter,
    ⟨hwaiting, standing_nodup l _ hl.distinct⟩, fun es l' hrun hasking t hhead => ?_⟩
  · have hw := hwriter.mpr ⟨t, ht⟩
    have hone : (l.inside .write).length = 1 := by
      rw [← hwriters, hw]
      rfl
    obtain ⟨u, hu⟩ := List.length_eq_one_iff.mp hone
    rw [hu] at ht
    obtain rfl := List.mem_singleton.mp ht
    refine ⟨hu, List.length_eq_zero_iff.mp ?_⟩
    rw [← hreaders]
    exact hl.apart hw
  · have hpos : 0 < l.writersWaiting := by
      rw [hwaiting]
      exact List.length_pos_iff_exists_mem.mpr hasking
    rcases hrun.writer_first hl hpos with ⟨rfl, -⟩ | ⟨u, rest, rfl⟩
    · cases hhead
    · cases hhead

/-- A reader is inside, a writer waits for it, and another reader waits for the writer. -/
def crowded : Lock := ((free.request "r" .read).request "w" .write).request "s" .read

theorem crowded_run : free.Run [(.read, "r")] crowded :=
  ((Run.refl.step (.ask "r" .read (by decide))).step (.ask "w" .write (by decide))).step
    (.ask "s" .read (by decide))

theorem crowded_exclusive :
    (crowded.readers = (crowded.inside .read).length ∧ crowded.inside .read = ["r"]) ∧
      (crowded.writersWaiting = (crowded.asking .write).length ∧ crowded.asking .write = ["w"]) ∧
      ∀ es l', crowded.Run es l' → es.head? ≠ some (.read, "s") := by
  obtain ⟨-, hreaders, -, hwaiting, hfirst⟩ := reachable_exclusive crowded ⟨_, crowded_run⟩
  refine ⟨⟨hreaders.1, by decide⟩, ⟨hwaiting.1, by decide⟩, fun es l' hrun => ?_⟩
  exact hfirst es l' hrun ⟨"w", by decide⟩ "s"

/-! ### No wake-up is lost -/

theorem inside_test (hadmits : l.admits a = true) : t ∈ (l.test t a).inside a := by
  rw [mem_inside]
  unfold Lock.test
  rw [if_pos hadmits]
  cases a with
  | read => exact (mem_place _ t _ _).mpr (.inr rfl)
  | write => exact (mem_place _ t _ _).mpr (.inr rfl)

/-- A lock that nobody is inside admits one of those that wait, a writer before all readers. -/
theorem Sound.admits_waiting (hl : l.Sound) (hr : l.inside .read = []) (hw : l.inside .write = [])
    (h : ∃ a t, t ∈ l.asking a) : ∃ t a, t ∈ l.asking a ∧ l.admits a = true := by
  have hreaders : l.readers = 0 := by
    rw [hl.readers, ← length_standing]
    exact List.length_eq_zero_iff.mpr hr
  have hwriter : l.writer = false := by
    have hnone : l.writer.toNat = 0 := by
      rw [hl.writer, ← length_standing]
      exact List.length_eq_zero_iff.mpr hw
    exact Bool.toNat_eq_zero.mp hnone
  by_cases hwriters : ∃ t, t ∈ l.asking .write
  · obtain ⟨t, ht⟩ := hwriters
    exact ⟨t, .write, ht, by simp only [admits, hwriter, hreaders]; rfl⟩
  · have hnone : l.writersWaiting = 0 := by
      rw [hl.waiting, ← length_standing]
      refine List.length_eq_zero_iff.mpr (List.eq_nil_iff_forall_not_mem.mpr fun t ht => ?_)
      exact hwriters ⟨t, ht⟩
    obtain ⟨a, t, ht⟩ := h
    cases a with
    | read => exact ⟨t, .read, ht, by simp only [admits, hwriter, hnone]; rfl⟩
    | write => exact absurd ⟨t, ht⟩ hwriters

/-- In every reachable state a sleeper that was not woken could not enter; so when nobody is inside and
some thread waits, one of those that wait is awake and enters as soon as it comes to run. -/
theorem reachable_wakes (l : Lock) (h : l.Reachable) :
    (∀ t, (t, .asleep .read false) ∈ l.threads → l.writer = true ∨ 0 < l.writersWaiting) ∧
      (∀ t, (t, .asleep .write false) ∈ l.threads → l.writer = true ∨ 0 < l.readers) ∧
      (l.inside .read = [] → l.inside .write = [] → (∃ a t, t ∈ l.asking a) →
        ∃ t a, (t, .asleep a true) ∈ l.threads ∧ l.admits a = true ∧
          l.Step (l.test t a) ∧ t ∈ (l.test t a).inside a) := by
  have hl := h.sound
  refine ⟨fun t ht => ?_, fun t ht => ?_, fun hr hw hask => ?_⟩
  · have hclosed := hl.sleepers t .read ht
    simp only [admits, Bool.and_eq_false_iff, Bool.not_eq_false', beq_eq_false_iff_ne] at hclosed
    exact hclosed.imp id Nat.pos_of_ne_zero
  · have hclosed := hl.sleepers t .write ht
    simp only [admits, Bool.and_eq_false_iff, Bool.not_eq_false', beq_eq_false_iff_ne] at hclosed
    exact hclosed.imp id Nat.pos_of_ne_zero
  · obtain ⟨t, a, ht, hadmits⟩ := hl.admits_waiting hr hw hask
    obtain ⟨woken, hasleep⟩ := (mem_asking l a t).mp ht
    cases woken with
    | true => exact ⟨t, a, hasleep, hadmits, .wake t a hasleep, inside_test hadmits⟩
    | false =>
      have hclosed := hl.sleepers t a hasleep
      rw [hadmits] at hclosed
      cases hclosed

/-- The reader's body fails, and it leaves the lock to the two that wait. -/
theorem crowded_wakes :
    ((crowded.release "r").inside .read = [] ∧ (crowded.release "r").inside .write = [] ∧
        (crowded.release "r").asking .read = ["s"]) ∧
      ∃ t a, (t, .asleep a true) ∈ (crowded.release "r").threads ∧
        (crowded.release "r").admits a = true ∧
        (crowded.release "r").Step ((crowded.release "r").test t a) ∧
        t ∈ ((crowded.release "r").test t a).inside a := by
  have hreachable : (crowded.release "r").Reachable :=
    ⟨_, crowded_run.step (.leave "r" .read (.error .cancelled) (by decide))⟩
  have hempty : (crowded.release "r").inside .read = [] ∧
      (crowded.release "r").inside .write = [] ∧ (crowded.release "r").asking .read = ["s"] := by
    decide
  refine ⟨hempty, (reachable_wakes (crowded.release "r") hreachable).2.2 hempty.1 hempty.2.1 ?_⟩
  exact ⟨.read, "s", by decide⟩

end LayerQuota.Lock
