import LayerQuota.Config
import LayerQuota.Proofs.Document
/-!
# The key leaves no trace but itself

Two documents that differ at most in the key of the status service are dumped alike, and what a
check finds in one it finds in the other. The value that stood where a rule is violated belongs to
the violation, so a member that is missing, and what is said of the document as a whole, show each
its own document, key and all; every other violation is the same in both.
-/

namespace LayerQuota

open LayerQuota.Json

/-! ### Members beside one key -/

theorem getMember_filter (k l : Str) (hkl : l ≠ k) (ms : List (Str × Value)) :
    getMember l (ms.filter fun m => m.1 != k) = getMember l ms := by
  induction ms with
  | nil => rfl
  | cons m ms ih =>
    obtain ⟨n, v⟩ := m
    by_cases hn : n = k
    · subst hn
      have hout : ((n, v) :: ms).filter (fun m => m.1 != n) = ms.filter fun m => m.1 != n := by simp
      rw [hout, ih]
      simp only [getMember, if_neg hkl]
      cases getMember l ms <;> rfl
    · have hin : ((n, v) :: ms).filter (fun m => m.1 != k) =
          (n, v) :: ms.filter fun m => m.1 != k := by simp [hn]
      rw [hin]
      simp only [getMember, ih]

/-! ### Checks that end alike -/

/-- What is found by a violation: its kind, its place and its words. -/
def Violation.finding (v : Violation) : String × List String × Option String :=
  (v.rule.name, v.path, v.rule.message?)

/-- Violations, each in a document of its own, of the same rule at the same place and by the same
value, unless what they show is the whole document. -/
structure Violation.Alike (doc doc' : Value) (v u : Violation) : Prop where
  path : v.path = u.path
  rule : v.rule = u.rule
  input : v.input = u.input ∨
    (v.rule = .missing ∨ v.path = []) ∧ v.input = some doc ∧ u.input = some doc'

namespace Violation

variable {doc doc' : Value} {vs us : List Violation}

theorem Alike.refl (v : Violation) : Alike doc doc' v v := ⟨rfl, rfl, .inl rfl⟩

theorem findings_alike (h : List.Forall₂ (Alike doc doc') vs us) :
    vs.map finding = us.map finding := by
  induction h with
  | nil => rfl
  | cons hv _ ih => rw [List.map_cons, List.map_cons, ih, finding, finding, hv.path, hv.rule]

/-- Where nothing is missing and nothing is said of the document as a whole, the violations are the
same. -/
theorem eq_of_alike (h : List.Forall₂ (Alike doc doc') vs us)
    (hown : ∀ v ∈ vs, v.rule ≠ .missing ∧ v.path ≠ []) : vs = us := by
  induction h with
  | nil => rfl
  | @cons v u vs us hv _ ih =>
    obtain ⟨⟨hrule, hpath⟩, hown⟩ := List.forall_mem_cons.mp hown
    have hinput : v.input = u.input := by
      rcases hv.input with hinput | ⟨hwhole, -⟩
      · exact hinput
      · exact (hwhole.elim hrule hpath).elim
    have heq : v = u := by
      obtain ⟨vpath, vrule, vinput⟩ := v
      obtain ⟨upath, urule, uinput⟩ := u
      exact Violation.mk.injEq .. |>.mpr ⟨hv.path, hv.rule, hinput⟩
    rw [heq, ih hown]

end Violation

namespace Checked

variable {α α' β β' γ δ : Type} {V : Violation → Violation → Prop}

/-- Two checks that give related values, or related violations. -/
inductive Alike (V : Violation → Violation → Prop) (R : α → β → Prop) :
    Checked α → Checked β → Prop
  | valid (a : α) (b : β) (h : R a b) : Alike V R (.valid a) (.valid b)
  | invalid (vs us : List Violation) (h : List.Forall₂ V vs us) :
    Alike V R (.invalid vs) (.invalid us)

theorem Alike.refl (hV : ∀ v, V v v) (x : Checked α) : Alike V Eq x x := by
  cases x with
  | valid a => exact .valid a a rfl
  | invalid vs => exact .invalid vs vs (List.forall₂_same.mpr fun v _ => hV v)

theorem Alike.ap {R : α → β → Prop} {S : γ → δ → Prop} {f : Checked (γ → α)}
    {g : Checked (δ → β)} {x : Checked γ} {y : Checked δ}
    (hf : Alike V (fun f g => ∀ c d, S c d → R (f c) (g d)) f g) (hx : Alike V S x y) :
    Alike V R (f.ap x) (g.ap y) := by
  cases hf with
  | valid f g hfg =>
    cases hx with
    | valid c d hcd => exact .valid _ _ (hfg c d hcd)
    | invalid vs us h => exact .invalid vs us h
  | invalid vs us h =>
    cases hx with
    | valid c d hcd => exact .invalid vs us h
    | invalid vs' us' h' => exact .invalid _ _ (List.rel_append h h')

theorem Alike.map {R : α → β → Prop} {S : γ → δ → Prop} {f : γ → α} {g : δ → β}
    (hfg : ∀ c d, S c d → R (f c) (g d)) {x : Checked γ} {y : Checked δ} (hx : Alike V S x y) :
    Alike V R (x.map f) (y.map g) := by
  cases hx with
  | valid c d hcd => exact .valid _ _ (hfg c d hcd)
  | invalid vs us h => exact .invalid vs us h

theorem Alike.andThen {R : α → β → Prop} {S : α' → β' → Prop} {x : Checked α} {y : Checked β}
    (h : Alike V R x y) {f : α → Checked α'} {g : β → Checked β'}
    (hfg : ∀ a b, R a b → Alike V S (f a) (g b)) : Alike V S (x.andThen f) (y.andThen g) := by
  cases h with
  | valid a b hab => exact hfg a b hab
  | invalid vs us h => exact .invalid vs us h

end Checked

namespace Config

/-! ### The fields beside the key -/

def keyMember : Str := Str.ofString "api_key"

/-- What the key may be: missing, null or a text. -/
def KeyShape (v : Option Value) : Prop := v = none ∨ v = some .null ∨ ∃ s, v = some (.text s)

/-- Configurations that agree on every field but the key. -/
def SameButKey (c d : Config) : Prop := d = { c with apiKey := d.apiKey }

theorem key_valid (doc : Value) (h : KeyShape (doc.get? "api_key")) :
    ∃ k, Field.defaulted doc "api_key" none (Field.optional Field.text) = .valid k := by
  unfold Field.defaulted
  obtain h | h | ⟨s, h⟩ := h
  · rw [h]
    exact ⟨none, rfl⟩
  · rw [h]
    exact ⟨none, rfl⟩
  · have hs : Field.optional Field.text (.text s) = .valid (some s) := by
      show (Field.text (.text s)).map some = _
      rw [Entry.text_text]
      rfl
    refine ⟨some s, ?_⟩
    rw [h]
    show (Field.optional Field.text (.text s)).under "api_key" = _
    rw [hs]
    rfl

variable {doc doc' : Value}

theorem required_alike {α : Type} (name : String) (check : Value → Checked α)
    (hget : doc.get? name = doc'.get? name) :
    Checked.Alike (Violation.Alike doc doc') Eq (Field.required doc name check)
      (Field.required doc' name check) := by
  unfold Field.required
  rw [hget]
  cases doc'.get? name with
  | some v => exact .refl Violation.Alike.refl _
  | none => exact .invalid _ _ (.cons ⟨rfl, rfl, .inr ⟨.inl rfl, rfl, rfl⟩⟩ .nil)

theorem fields_alike (hget : ∀ k, k ≠ "api_key" → doc.get? k = doc'.get? k)
    (hkey : KeyShape (doc.get? "api_key")) (hkey' : KeyShape (doc'.get? "api_key")) :
    Checked.Alike (Violation.Alike doc doc') SameButKey (fields doc) (fields doc') := by
  obtain ⟨k, hk⟩ := key_valid doc hkey
  obtain ⟨k', hk'⟩ := key_valid doc' hkey'
  -- Every other field looks up another name, so it is checked alike in both.
  have hr : ∀ {α : Type} (name : String) (check : Value → Checked α), name ≠ "api_key" →
      Checked.Alike (Violation.Alike doc doc') Eq (Field.required doc name check)
        (Field.required doc' name check) :=
    fun name check hname => required_alike name check (hget name hname)
  have hd : ∀ {α : Type} (name : String) (a : α) (check : Value → Checked α), name ≠ "api_key" →
      Checked.Alike (Violation.Alike doc doc') Eq (Field.defaulted doc name a check)
        (Field.defaulted doc' name a check) := by
    intro α name a check hname
    unfold Field.defaulted
    rw [hget name hname]
    exact .refl Violation.Alike.refl _
  have hs : Checked.Alike (Violation.Alike doc doc') Eq (socket doc) (socket doc') := by
    unfold socket
    rw [hget "runtime_sock" (by decide), hget "containerd_sock" (by decide)]
    split
    · exact hr _ _ (by decide)
    · exact hr _ _ (by decide)
  unfold fields
  rw [hk, hk']
  -- From the last field to the key, then from the key to the first field.
  repeat refine Checked.Alike.ap ?_ (hd _ _ _ (by decide))
  refine Checked.Alike.ap (S := fun _ _ => True) ?_ (.valid k k' trivial)
  repeat refine Checked.Alike.ap ?_ (hd _ _ _ (by decide))
  refine Checked.Alike.ap ?_ hs
  repeat refine Checked.Alike.ap ?_ (hr _ _ (by decide))
  refine Checked.Alike.map ?_ (hr _ _ (by decide))
  intros
  subst_vars
  rfl

theorem whole_alike (c d : Config) (h : SameButKey c d) :
    Checked.Alike (Violation.Alike doc doc') SameButKey (whole doc c) (whole doc' d) := by
  have hsize : d.softExceedsHard = c.softExceedsHard := by rw [h]; rfl
  have hleast : d.leastId = c.leastId := by rw [h]
  have hgreatest : d.greatestId = c.greatestId := by rw [h]
  have hfail : ∀ rule, Checked.Alike (Violation.Alike doc doc') SameButKey (.fail rule doc)
      (.fail rule doc') :=
    fun rule => .invalid _ _ (.cons ⟨rfl, rfl, .inr ⟨.inr rfl, rfl, rfl⟩⟩ .nil)
  unfold whole
  rw [hsize, hleast, hgreatest]
  split
  · exact hfail _
  · split
    · exact hfail _
    · exact .valid c d h

theorem check_alike (hget : ∀ k, k ≠ "api_key" → doc.get? k = doc'.get? k)
    (hkey : KeyShape (doc.get? "api_key")) (hkey' : KeyShape (doc'.get? "api_key")) :
    Checked.Alike (Violation.Alike doc doc') SameButKey (check doc) (check doc') :=
  (fields_alike hget hkey hkey').andThen whole_alike

/-! ### Two files -/

/-- A file whose content is a JSON object with these members: each key once, where it first came,
with the last of its values. -/
def Holds (bytes : ByteArray) (members : List (Str × Value)) : Prop :=
  ∃ text, Text.decodeUtf8 bytes = .ok text ∧
    Json.read .lenient (String.ofList (Text.unifyLines text.toList)) = .ok (.object members)

theorem load_holds (path : String) (bytes : ByteArray) (ms : List (Str × Value))
    (h : Holds bytes ms) :
    load path (.ok bytes) =
      ((match check (.object ms) with
        | .valid c => .ok c
        | .invalid vs => .error (.config path (.violations vs))),
        [⟨.info, s!"Loading config from {path}"⟩, ⟨.debug, "Config:\n" ++ dump (shown ms)⟩]) := by
  obtain ⟨text, htext, hread⟩ := h
  unfold load ofText
  simp only [htext, hread]
  cases check (.object ms) <;> rfl

theorem get?_of_shown (ms ns : List (Str × Value))
    (h : ms.filter (fun m => m.1 != keyMember) = ns.filter fun m => m.1 != keyMember) (k : String)
    (hk : k ≠ "api_key") : (Value.object ms).get? k = (Value.object ns).get? k := by
  have hne : Str.ofString k ≠ keyMember := fun heq => hk (Str.ofString_inj _ _ heq)
  show getMember (Str.ofString k) ms = getMember (Str.ofString k) ns
  rw [← getMember_filter keyMember _ hne ms, h, getMember_filter keyMember _ hne ns]

theorem holds_dump (ms : List (Str × Value))
    (h : readChars .lenient (Text.unifyLines (dumpValue 0 (.object ms))) = .ok (.object ms)) :
    Holds (dump (.object ms)).toUTF8 ms := by
  refine ⟨dump (.object ms), Document.decodeUtf8_toUTF8 _, ?_⟩
  unfold Json.read dump
  rw [String.toList_ofList, String.toList_ofList]
  exact h

def smallest : List (Str × Value) :=
  [("state_file_path", .text "state.json"), ("project_id_min", .int 1), ("project_id_max", .int 2),
    ("default_quota_soft", .text "1g"), ("default_quota_hard", .text "2g"),
    ("runtime_sock", .text "docker.sock")]

def keyed : List (Str × Value) := (keyMember, .text "secret") :: smallest

/-- The text of a violation that shows the whole document shows the key. -/
example : Violation.text ⟨["runtime_sock"], .missing, some (.object [(keyMember, .text "secret")])⟩ =
    "runtime_sock\n  Field required [type=missing, " ++
      "input_value=\x7b'api_key': 'secret'\x7d, input_type=dict]" := by
  decide +kernel

end Config

end LayerQuota
