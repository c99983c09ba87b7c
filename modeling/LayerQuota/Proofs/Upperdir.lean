import LayerQuota.Proofs.Daemon.Isolation
import LayerQuota.Proofs.Daemon.Moves
import LayerQuota.Proofs.EventStream
/-!
# The writable layer is the same however it is learnt

An inspection names the writable layer in a field of its own. A creation learns it either from the
mounts that an event carries, where the field is one option among others, or from the field itself,
when the runtime is asked. Both ways give the same layer, whatever the other options hold, and so the
same directory is tagged.
-/

namespace LayerQuota

open LayerQuota.Json

/-! ### Texts -/

namespace Json

theorem display_text (u : String) : (Value.text u).display = u := by
  unfold Value.display Value.text
  simp only [Str.toString?_ofString]

theorem truth_text (u : String) : (Value.text u).truth = true ↔ u ≠ "" := by
  rw [Value.text, Value.truth, Bool.not_eq_true', List.isEmpty_eq_false_iff, Str.ofString, ne_eq,
    List.map_eq_nil_iff, String.toList_eq_nil_iff]

end Json

/-! ### Options -/

namespace Mount

/-- An option names a layer, which is not empty. -/
def Names (option u : String) : Prop := option = "upperdir=" ++ u ∧ u ≠ ""

/-- A layer is the first one that is named, in the order of mounts and of their options. -/
def FirstNamed (ms : List Mount) (u : String) : Prop :=
  ∃ before option after, ms.flatMap (·.options) = before ++ option :: after ∧ Names option u ∧
    ∀ earlier ∈ before, ∀ v, ¬Names earlier v

theorem optionUpperdir?_eq_some_iff (option u : String) :
    optionUpperdir? option = some u ↔ Names option u := by
  unfold optionUpperdir? Names
  constructor
  · intro h
    split at h
    · rename_i hmark
      obtain ⟨rest, hrest⟩ := List.isPrefixOf_iff_prefix.mp hmark
      rw [← hrest, List.drop_left] at h
      cases rest with
      | nil => cases h
      | cons c cs =>
        cases h
        refine ⟨String.toList_injective ?_, by simp⟩
        rw [← hrest, String.toList_append]
        exact congrArg (upperdirMark ++ ·) String.toList_ofList.symm
    · cases h
  · rintro ⟨rfl, hu⟩
    have hmark : ("upperdir=" ++ u).toList = upperdirMark ++ u.toList := String.toList_append ..
    have hprefix : upperdirMark.isPrefixOf (upperdirMark ++ u.toList) = true :=
      List.isPrefixOf_iff_prefix.mpr (List.prefix_append _ _)
    rw [hmark, if_pos hprefix, List.drop_left]
    cases hcs : u.toList with
    | nil => exact absurd (String.toList_eq_nil_iff.mp hcs) hu
    | cons c cs =>
      show some (String.ofList (c :: cs)) = some u
      rw [← hcs, String.ofList_toList]

theorem optionUpperdir?_of_head (option : String) (c : Char) (h : option.toList.head? = some c)
    (hc : c ≠ 'u') : optionUpperdir? option = none := by
  rw [Option.eq_none_iff_forall_ne_some]
  intro u hu
  obtain ⟨rfl, -⟩ := (optionUpperdir?_eq_some_iff option u).mp hu
  rw [String.toList_append] at h
  exact hc (Option.some.inj h).symm

theorem upperdir?_eq (ms : List Mount) :
    upperdir? ms = (ms.flatMap (·.options)).findSome? optionUpperdir? := by
  induction ms with
  | nil => rfl
  | cons m ms ih =>
    rw [List.flatMap_cons, List.findSome?_append, ← ih]
    unfold upperdir?
    rw [List.findSome?_cons]
    cases m.options.findSome? optionUpperdir? with
    | none => rfl
    | some u => rfl

theorem upperdir?_eq_some_iff (ms : List Mount) (u : String) :
    upperdir? ms = some u ↔ FirstNamed ms u := by
  rw [upperdir?_eq, List.findSome?_eq_some_iff]
  simp only [optionUpperdir?_eq_some_iff, Option.eq_none_iff_forall_ne_some, ne_eq]
  rfl

theorem upperdir?_eq_none_iff (ms : List Mount) :
    upperdir? ms = none ↔ ∀ m ∈ ms, ∀ option ∈ m.options, ∀ u, ¬Names option u := by
  rw [upperdir?_eq, List.findSome?_eq_none_iff]
  simp only [Option.eq_none_iff_forall_ne_some, ne_eq, optionUpperdir?_eq_some_iff,
    List.mem_flatMap, forall_exists_index, and_imp]
  exact ⟨fun h m hm option ho => h option m hm ho, fun h option m hm ho => h m hm option ho⟩

end Mount

/-! ### Inspections -/

namespace Inspection

/-- The directories that an inspection lists. -/
def dataOf (attrs : Value) : Value := innerOf (innerOf attrs "GraphDriver") "Data"

/-- An inspection as the runtime documents it: the layer that it names is a text. What stands for
the other directories is left open. -/
structure Documented (attrs : Value) : Prop extends WellTyped attrs where
  upper : (memberOf (dataOf attrs) "UpperDir").truth = true →
    ∃ u : String, memberOf (dataOf attrs) "UpperDir" = .text u

/-- The option that a directory becomes, none if it is missing or empty. -/
def optionOf (data : Value) (name : String × String) : List String :=
  if (memberOf data name.1).truth then [name.2 ++ "=" ++ (memberOf data name.1).display] else []

theorem options_eq (ms : List (Str × Value)) (names : List (String × String)) :
    options (.object ms) names = .ok (names.flatMap (optionOf (.object ms))) := by
  induction names with
  | nil => rfl
  | cons n names ih =>
    obtain ⟨k, o⟩ := n
    unfold options
    rw [member_object, ih]
    show Except.ok _ = Except.ok _
    rw [List.flatMap_cons, optionOf]
    split
    · rfl
    · rfl

theorem dataOf_object {attrs : Value} (h : WellTyped attrs) : ∃ ls, dataOf attrs = .object ls :=
  orElse_object _ h.data

theorem driver_of_wellTyped {attrs : Value} (h : WellTyped attrs) :
    driver attrs = .ok (innerOf attrs "GraphDriver") ∧
      layers (innerOf attrs "GraphDriver") = .ok (dataOf attrs) := by
  obtain ⟨as, rfl⟩ := h.object
  refine ⟨rfl, ?_⟩
  unfold dataOf
  obtain ⟨ds, hds⟩ := orElse_object _ h.driver
  rw [innerOf, hds]
  rfl

theorem mounts_options {attrs : Value} (h : WellTyped attrs) :
    ∃ ms, mounts attrs = .ok ms ∧
      ms.flatMap (·.options) = optionNames.flatMap (optionOf (dataOf attrs)) := by
  obtain ⟨ms, hms⟩ := mounts_of_wellTyped h
  obtain ⟨hdriver, hlayers⟩ := driver_of_wellTyped h
  obtain ⟨ls, hls⟩ := dataOf_object h
  refine ⟨ms, hms, ?_⟩
  rw [hls] at hlayers ⊢
  unfold mounts at hms
  simp only [hdriver, hlayers, options_eq, bind, Except.bind] at hms
  generalize optionNames.flatMap (optionOf (.object ls)) = os at hms ⊢
  cases os with
  | nil =>
    cases hms
    rfl
  | cons o os =>
    split at hms
    · rename_i hnil
      cases hnil
    · -- the mounts are given, so neither the name nor its type failed
      split at hms
      · cases hms
      · split at hms
        · cases hms
          exact List.append_nil _
        · cases hms

theorem findSome?_optionOf_other (data : Value) (k o : String) (c : Char) (rest : List Char)
    (ho : o.toList = c :: rest) (hc : c ≠ 'u') :
    (optionOf data (k, o)).findSome? Mount.optionUpperdir? = none := by
  have hhead : (o ++ "=" ++ (memberOf data k).display).toList.head? = some c := by
    rw [String.toList_append, String.toList_append, ho]
    rfl
  unfold optionOf
  split
  · rw [List.findSome?_singleton, Mount.optionUpperdir?_of_head _ c hhead hc]
  · rfl

/-- What the options of an inspection name is the layer of its field, unless that is empty. -/
theorem findSome?_options (data : Value) (h : (memberOf data "UpperDir").truth = true →
      ∃ u : String, memberOf data "UpperDir" = .text u) :
    ((optionNames.flatMap (optionOf data)).findSome? Mount.optionUpperdir?).map Layer.ofPath =
      if (memberOf data "UpperDir").truth then some (memberOf data "UpperDir") else none := by
  -- The neighbours begin by another letter, whatever texts follow it.
  have hlower := findSome?_optionOf_other data "LowerDir" "lowerdir" 'l' _ rfl (by decide)
  have hwork := findSome?_optionOf_other data "WorkDir" "workdir" 'w' _ rfl (by decide)
  simp only [optionNames, List.flatMap_cons, List.flatMap_nil, List.append_nil,
    List.findSome?_append, hlower, hwork, Option.none_or, Option.or_none]
  unfold optionOf
  split
  · rename_i ht
    obtain ⟨u, hu⟩ := h ht
    rw [hu] at ht ⊢
    have hnamed : Mount.optionUpperdir? ("upperdir=" ++ u) = some u :=
      (Mount.optionUpperdir?_eq_some_iff _ u).mpr ⟨rfl, (truth_text u).mp ht⟩
    rw [display_text, List.findSome?_singleton]
    exact congrArg (Option.map Layer.ofPath) hnamed
  · rfl

/-- The mounts of an inspection name the layer that its own field names, and none if that is missing
or empty. -/
theorem upperdir?_of_documented {attrs : Value} (h : Documented attrs) :
    ∃ ms, mounts attrs = .ok ms ∧
      upperdir? attrs = .ok ((Mount.upperdir? ms).map Layer.ofPath) := by
  obtain ⟨ms, hms, hoptions⟩ := mounts_options h.toWellTyped
  obtain ⟨hdriver, hlayers⟩ := driver_of_wellTyped h.toWellTyped
  obtain ⟨ls, hls⟩ := dataOf_object h.toWellTyped
  have hmember : member (dataOf attrs) "UpperDir" = .ok (memberOf (dataOf attrs) "UpperDir") := by
    rw [hls, member_object]
  refine ⟨ms, hms, ?_⟩
  rw [Mount.upperdir?_eq, hoptions, findSome?_options (dataOf attrs) h.upper]
  unfold upperdir?
  simp only [hdriver, hlayers, hmember, bind, Except.bind]
  rfl

end Inspection

/-! ### The runtime is asked -/

namespace Station

variable {τ : Type}

/-- The answer of the runtime that is asked for a layer. -/
def layerAnswer (container : Value) : Option Layer → Except Failure Layer
  | some dir => .ok dir
  | none => .error (.lookup s!"upperdir not found for container {container.display}")

theorem resolve_of_inspect {o : Outside τ} {container attrs : Value} {st st' : Station τ}
    {dir : Option Layer} (hi : st.inspect o container = (.ok attrs, st'))
    (hdir : Inspection.upperdir? attrs = .ok dir) :
    st.resolve o container = (layerAnswer container dir, st') := by
  unfold resolve
  rw [hi]
  simp only [hdir]
  cases dir with
  | some d => rfl
  | none => rfl

end Station

/-! ### Tags of a creation -/

/-- The directories that calls on quotas tag, with the IDs. -/
def tagsOf (calls : List QuotaCall) : List (Layer × Int) :=
  calls.filterMap fun
    | .tag dir id => some (dir, id)
    | _ => none

theorem tagsOf_append (xs ys : List QuotaCall) : tagsOf (xs ++ ys) = tagsOf xs ++ tagsOf ys :=
  List.filterMap_append

namespace Host

open LayerQuota.Act

variable {σ : Type} {h : Host σ} {w w₁ : σ × List QuotaCall}

theorem Aside.tagsOf_eq (ha : h.traced.Aside w w₁) : tagsOf w₁.2 = tagsOf w.2 := by
  cases ha with
  | log l => rfl
  | resolve c => rfl
  | isPresent dir => rfl
  | list => rfl
  | readTag dir => exact (tagsOf_append w.2 _).trans (List.append_nil _)

theorem Quiet.tagsOf_eq (hq : h.traced.Quiet w w₁) : tagsOf w₁.2 = tagsOf w.2 := by
  induction hq with
  | refl => rfl
  | tail _ ha ih => exact ha.tagsOf_eq.trans ih

theorem put_tagsOf {s s' : Store} {e : Entry} {r : Except Failure Unit}
    (hs : s.put h.traced.toDisk e w = (r, s', w₁)) : tagsOf w₁.2 = tagsOf w.2 := by
  have hk := Store.put_keeps h.traced.toDisk (fun v => v.2 = w.2) (fun _ _ _ hv => hv)
    (fun _ _ _ hv => hv) s e w rfl
  rw [hs] at hk
  exact congrArg tagsOf hk

theorem tag_tagsOf {dir : Layer} {id : Int} {r : Except Failure Unit}
    (ht : h.traced.tag dir id w = (r, w₁)) : tagsOf w₁.2 = tagsOf w.2 ++ [(dir, id)] := by
  cases ht
  exact tagsOf_append w.2 _

theorem setLimit_tagsOf {id : Int} {soft hard : String} {r : Except Failure Unit}
    (hl : h.traced.setLimit id soft hard w = (r, w₁)) : tagsOf w₁.2 = tagsOf w.2 := by
  cases hl
  exact (tagsOf_append w.2 _).trans (List.append_nil _)

theorem Enforcing.tagsOf_eq {s : Settings} {dir : Layer} {id : Int} {r : Except Failure Unit}
    (hn : h.traced.Enforcing s dir id w r w₁) (hlate : h.cancelled w.1 = false) :
    tagsOf w₁.2 = tagsOf w.2 ++ [(dir, id)] := by
  cases hn with
  | overtaken hc => exact absurd (hlate.symm.trans hc) Bool.false_ne_true
  | untagged f w' ht => exact tag_tagsOf ht
  | halted w' ht hc => exact tag_tagsOf ht
  | limited w₁ w' r ht hl => exact (setLimit_tagsOf hl).trans (tag_tagsOf ht)

/-- What a creation is to tag: the directory, with the least free ID, unless the container has an
entry, the scope is cancelled, or no ID is free. -/
def dueTags (core : Core) (c : String) (dir : Layer) (late : Bool) : List (Layer × Int) :=
  match core.store.table.get? c, late, core.pool.allocate with
  | none, false, .ok (id, _) => [(dir, id)]
  | _, _, _ => []

section Due

variable {core : Core} {c : String} {dir : Layer} {late : Bool}

theorem dueTags_of_entry {e : Entry} (he : core.store.table.get? c = some e) :
    dueTags core c dir late = [] := by
  unfold dueTags
  rw [he]

theorem dueTags_late : dueTags core c dir true = [] := by
  unfold dueTags
  cases core.store.table.get? c with
  | some e => rfl
  | none => rfl

theorem dueTags_exhausted {f : PoolError} (ha : core.pool.allocate = .error f) :
    dueTags core c dir late = [] := by
  unfold dueTags
  rw [ha]
  cases core.store.table.get? c with
  | some e => rfl
  | none =>
    cases late with
    | true => rfl
    | false => rfl

theorem dueTags_of_free {id : Int} {p : Pool} (he : core.store.table.get? c = none)
    (ha : core.pool.allocate = .ok (id, p)) : dueTags core c dir false = [(dir, id)] := by
  unfold dueTags
  rw [he, ha]

end Due

theorem create_overtaken (h : Host σ) (c : String) (dir : Layer) (d : Daemon σ)
    (he : d.core.store.table.get? c = none) (hc : h.cancelled d.outside = true) :
    Act.run (h.create c dir) d = (.error .cancelled, d) := by
  rw [create, run_bind, run_entry?, he]
  simp only
  rw [run_bind, assign, run_bind, run_checkpoint, if_pos hc]

theorem create_tagsOf (h : Host σ) (c : String) (dir : Layer) (core : Core)
    (w : σ × List QuotaCall) :
    tagsOf (Act.run (h.traced.create c dir) ⟨core, w⟩).2.outside.2 =
      tagsOf w.2 ++ dueTags core c dir (h.cancelled w.1) := by
  -- An outcome of tagging does not tell that the scope was live, so a cancelled one is run apart.
  by_cases hstop : core.store.table.get? c = none ∧ h.cancelled w.1 = true
  · rw [h.traced.create_overtaken c dir ⟨core, w⟩ hstop.1 hstop.2, hstop.2, dueTags_late]
    exact (List.append_nil _).symm
  · have hlate : core.store.table.get? c = none → h.cancelled w.1 = false := fun he =>
      Bool.eq_false_iff.mpr fun hc => hstop ⟨he, hc⟩
    have hend := h.traced.create_outcome c dir ⟨core, w⟩
    generalize Act.run (h.traced.create c dir) ⟨core, w⟩ = a at hend
    obtain ⟨r, d'⟩ := a
    cases hend with
    | kept e p w' he hp hq =>
      rw [dueTags_of_entry he, List.append_nil]
      exact hq.tagsOf_eq
    | refused e f he hp => rw [dueTags_of_entry he, List.append_nil]
    | overtaken he hc => exact absurd ⟨he, hc⟩ hstop
    | exhausted f he ha => rw [dueTags_exhausted ha, List.append_nil]
    | abandoned id p f w' he ha hn =>
      rw [hlate he, dueTags_of_free he ha]
      exact hn.tagsOf_eq (hlate he)
    | malformed id p vs w' he ha hn hm =>
      rw [hlate he, dueTags_of_free he ha]
      exact hn.tagsOf_eq (hlate he)
    | recorded id p e r s w₁ w₂ w' he ha hn hm hs hq =>
      rw [hlate he, dueTags_of_free he ha]
      exact hq.tagsOf_eq.trans ((put_tagsOf hs).trans (hn.tagsOf_eq (hlate he)))

end Host

/-! ### Both ways agree -/

namespace Station

open LayerQuota.Act

variable {τ : Type} {o : Outside τ} {c : String} {attrs : Value} {st st' : Station τ}
  {ms : List Mount}

/-- Mounts, and the runtime that is asked for a container, name the same layer; so a creation with
these mounts and one with none tag the same directory, and where no layer is named, both fail. -/
structure Agree (o : Outside τ) (c : String) (st st' : Station τ) (ms : List Mount) : Prop where
  named : ∀ u, Mount.upperdir? ms = some u ↔
    st.resolve o (.text c) = (.ok (Layer.ofPath u), st')
  missing : Mount.upperdir? ms = none ↔ ∃ m, st.resolve o (.text c) = (.error (.lookup m), st')
  tags : ∀ u, Mount.upperdir? ms = some u → ∀ core w calls,
    let carrying := Act.run ((host o).traced.handleCreate ⟨.create, c, ms⟩) ⟨core, w, calls⟩
    let bare := Act.run ((host o).traced.handleCreate ⟨.create, c, []⟩) ⟨core, st, calls⟩
    tagsOf carrying.2.outside.2 =
        tagsOf calls ++ Host.dueTags core c (Layer.ofPath u) w.scope.cancelled ∧
      tagsOf bare.2.outside.2 =
        tagsOf calls ++ Host.dueTags core c (Layer.ofPath u) st'.scope.cancelled
  fails : Mount.upperdir? ms = none → ∃ m, ∀ core calls, ∀ rootfs ∈ [ms, []],
    Act.run ((host o).traced.handleCreate ⟨.create, c, rootfs⟩) ⟨core, st, calls⟩ =
      (.error (.lookup m), ⟨core, st', calls⟩)

theorem run_handleCreate_named (rootfs : List Mount) (u : String)
    (hu : Mount.upperdir? rootfs = some u) (d : Daemon (Station τ × List QuotaCall)) :
    Act.run ((host o).traced.handleCreate ⟨.create, c, rootfs⟩) d =
      Act.run ((host o).traced.create c (Layer.ofPath u)) d := by
  unfold Host.handleCreate
  rw [hu]

theorem run_handleCreate_unnamed (rootfs : List Mount) (hnone : Mount.upperdir? rootfs = none)
    {r : Except Failure Layer} (hr : st.resolve o (.text c) = (r, st')) (core : Core)
    (calls : List QuotaCall) :
    Act.run ((host o).traced.handleCreate ⟨.create, c, rootfs⟩) ⟨core, st, calls⟩ =
      match r with
      | .ok dir => Act.run ((host o).traced.create c dir) ⟨core, st', calls⟩
      | .error f => (.error f, ⟨core, st', calls⟩) := by
  have hresolve : (host o).traced.resolve c (st, calls) = (r, st', calls) := by
    show ((st.resolve o (.text c)).1, (st.resolve o (.text c)).2, calls) = _
    rw [hr]
  unfold Host.handleCreate
  rw [hnone, run_bind, run_call, hresolve]
  cases r with
  | ok dir => rfl
  | error f => rfl

theorem agree_of_resolve (hr : st.resolve o (.text c) =
      (layerAnswer (.text c) ((Mount.upperdir? ms).map Layer.ofPath), st')) :
    Agree o c st st' ms := by
  cases hms : Mount.upperdir? ms with
  | some u =>
    rw [hms] at hr
    refine ⟨fun v => ?_, iff_of_false (by simp [hms]) ?_, ?_, fun hnone => ?_⟩
    · rw [hms, hr]
      constructor
      · rintro ⟨⟩
        rfl
      · intro h
        have heq : Layer.ofPath u = Layer.ofPath v := Except.ok.inj (congrArg Prod.fst h)
        rw [Str.ofString_inj u v (Value.str.inj heq)]
    · rintro ⟨m, hm⟩
      cases hr.symm.trans hm
    · intro v hv core w calls
      cases hms.symm.trans hv
      rw [run_handleCreate_named ms u hms, run_handleCreate_unnamed [] rfl hr]
      exact ⟨Host.create_tagsOf (host o) c _ core (w, calls),
        Host.create_tagsOf (host o) c _ core (st', calls)⟩
    · cases hms.symm.trans hnone
  | none =>
    rw [hms] at hr
    obtain ⟨m, hm⟩ : ∃ m, st.resolve o (.text c) = (.error (.lookup m), st') := ⟨_, hr⟩
    refine ⟨fun v => iff_of_false (by simp [hms]) ?_, iff_of_true hms ⟨m, hm⟩, ?_,
      fun _ => ⟨m, ?_⟩⟩
    · intro hv
      cases hm.symm.trans hv
    · intro v hv
      cases hms.symm.trans hv
    · intro core calls rootfs hrootfs
      have hnone : Mount.upperdir? rootfs = none := by
        rcases List.mem_pair.mp hrootfs with rfl | rfl
        · exact hms
        · rfl
      exact run_handleCreate_unnamed rootfs hnone hm core calls

/-- The mounts of an inspection and the runtime name the same layer, and mounts name the first that
one of their options gives. -/
theorem upperdir_sources_agree (o : Outside τ) (c : String) (attrs : Value) (st st' : Station τ)
    (hi : st.inspect o (.text c) = (.ok attrs, st')) (hd : Inspection.Documented attrs) :
    (∀ ms u, Mount.upperdir? ms = some u ↔ Mount.FirstNamed ms u) ∧
      (∀ ms, Mount.upperdir? ms = none ↔
        ∀ m ∈ ms, ∀ option ∈ m.options, ∀ u, ¬Mount.Names option u) ∧
      ∃ ms, Inspection.mounts attrs = .ok ms ∧ Agree o c st st' ms := by
  obtain ⟨ms, hms, hdir⟩ := Inspection.upperdir?_of_documented hd
  exact ⟨Mount.upperdir?_eq_some_iff, Mount.upperdir?_eq_none_iff, ms, hms,
    agree_of_resolve (resolve_of_inspect hi hdir)⟩

/-- An inspection whose other texts look like options that name a layer. -/
def misleading : Value :=
  .object [(Str.ofString "GraphDriver", .object [(Str.ofString "Name", .text "upperdir=/n"),
    (Str.ofString "Data", .object [(Str.ofString "LowerDir", .text "upperdir=/l"),
      (Str.ofString "UpperDir", .text "/u"), (Str.ofString "WorkDir", .text "upperdir=/w")])])]

theorem misleading_documented : Inspection.Documented misleading where
  object := ⟨_, rfl⟩
  driver := fun _ => ⟨_, rfl⟩
  data := fun _ => ⟨_, rfl⟩
  name := fun _ => ⟨_, rfl⟩
  upper := fun _ => ⟨"/u", rfl⟩

theorem misleading_upperdir_sources_agree :
    let o := { EventStream.knowing with inspect := fun _ _ _ => (.ok misleading, ()) }
    let st : Station Unit := ⟨⟨"", .whole 10, some 1⟩, .fresh, [], false, 0, [], ()⟩
    st.inspect o (.text "c") = (.ok misleading, st) ∧ Inspection.Documented misleading ∧
      (∀ ms u, Mount.upperdir? ms = some u ↔ Mount.FirstNamed ms u) ∧
      (∀ ms, Mount.upperdir? ms = none ↔
        ∀ m ∈ ms, ∀ option ∈ m.options, ∀ u, ¬Mount.Names option u) ∧
      ∃ ms, Inspection.mounts misleading = .ok ms ∧ Agree o "c" st st ms :=
  ⟨rfl, misleading_documented,
    upperdir_sources_agree _ "c" misleading _ _ rfl misleading_documented⟩

end Station

end LayerQuota
