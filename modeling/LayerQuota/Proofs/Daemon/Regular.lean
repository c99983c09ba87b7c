import LayerQuota.Proofs.Daemon.Enforced
/-!
# Hosts as they are documented

Quota tools that fail say so, and directories are named by texts. On such a host an enforcement that
fails frees its ID, whatever the failure.
-/

namespace LayerQuota.Host

variable {σ : Type} {h : Host σ}

/-- A host whose runtime reports directories by texts. -/
def NamesTexts (h : Host σ) : Prop :=
  ∀ c w dir w', h.resolve c w = (.ok dir, w') → ∃ path, dir = Layer.ofPath path

/-- A host as it is documented: tagging and limiting fail as quota tools do, and directories are
named by texts. -/
structure Regular (h : Host σ) : Prop where
  tag : ∀ path id w f w', h.tag (Layer.ofPath path) id w = (.error f, w') →
    ∃ m cmd out, f = .enforcement m cmd out
  setLimit : ∀ id soft hard w f w', h.setLimit id soft hard w = (.error f, w') →
    ∃ m cmd out, f = .enforcement m cmd out
  resolve : h.NamesTexts

theorem NamesTexts.names (hr : h.NamesTexts) (c : String) (dir : Layer) (hdir : h.Names c dir) :
    ∃ path, dir = Layer.ofPath path := by
  rcases hdir with hpath | ⟨w, w', hres⟩
  · exact hpath
  · exact hr c w dir w' hres

theorem Regular.enforcing (hr : h.Regular) {s : Settings} {dir : Layer} {id : Int} {w w' : σ}
    {f : Failure} (hdir : ∃ path, dir = Layer.ofPath path)
    (hn : h.Enforcing s dir id w (.error f) w') :
    freesId f = true ∧ ∀ path fault, f ≠ .unsaved path fault := by
  have hcancel : freesId .cancelled = true ∧ ∀ path fault, Failure.cancelled ≠ .unsaved path fault :=
    ⟨rfl, nofun⟩
  have htool : ∀ f, (∃ m cmd out, f = Failure.enforcement m cmd out) →
      freesId f = true ∧ ∀ path fault, f ≠ .unsaved path fault := by
    rintro _ ⟨m, cmd, out, rfl⟩
    exact ⟨rfl, nofun⟩
  obtain ⟨path, rfl⟩ := hdir
  cases hn with
  | overtaken hc => exact hcancel
  | untagged f w' ht => exact htool f (hr.tag path id w f w' ht)
  | halted w' ht hc => exact hcancel
  | limited w₁ w' r ht hl => exact htool f (hr.setLimit id _ _ w₁ f w' hl)

/-- A creation that was not written to the record has enforced its quota. -/
theorem CreateOutcome.of_unsaved {c path place : String} {fault : OsFault} {d d' : Daemon σ}
    (ho : h.CreateOutcome c (Layer.ofPath path) d (.error (.unsaved place fault)) d')
    (hr : h.Regular) :
    ∃ id p e s w₁ w₂ w', d.core.pool.allocate = .ok (id, p) ∧
      h.Enforcing d.core.settings (Layer.ofPath path) id d.outside (.ok ()) w₁ ∧
      d.core.store.put h.toDisk e w₁ = (.error (.unsaved place fault), s, w₂) ∧ h.Quiet w₂ w' ∧
      d' = ⟨{ d.core with pool := p, store := s }, w'⟩ := by
  generalize hres : (Except.error (.unsaved place fault) : Except Failure Entry) = res at ho
  cases ho with
  | kept e p w' he hp hq => cases hres
  | refused e f he hp => cases hres
  | overtaken he hc => cases hres
  | exhausted f he ha => cases hres
  | malformed id p vs w' he ha hn hm => cases hres
  | abandoned id p f w' he ha hn =>
    obtain ⟨-, hsaved⟩ := hr.enforcing ⟨path, rfl⟩ hn
    exact absurd (Except.error.inj hres).symm (hsaved place fault)
  | recorded id p e r s w₁ w₂ w' he ha hn hm hput hq =>
    rcases r with f | u
    · cases hres
      exact ⟨id, p, e, s, w₁, w₂, w', ha, hn, hput, hq, rfl⟩
    · cases hres

theorem inMemory_regular {orders : σ → List (String × Json.Value)} (hr : h.NamesTexts) :
    (h.inMemory orders).Regular := by
  refine ⟨fun path id w f w' ht => ?_, fun id soft hard w f w' hl => ?_, fun c w dir w' hres => ?_⟩
  · have herr : ((h.inMemory orders).tag (Layer.ofPath path) id w).1 = .error f := by rw [ht]
    exact Memory.tag_eq_error _ path id f herr
  · have herr : ((h.inMemory orders).setLimit id soft hard w).1 = .error f := by rw [hl]
    exact Memory.setLimit_eq_error _ id soft hard f herr
  · exact hr c w.1 dir w'.1 (onFirst_eq (h.resolve c) _ w w' hres)

theorem onFullDisk_nameable (path : String) : Store.Nameable onFullDisk.toDisk path := by
  intro text full full' hs
  cases full <;> cases hs

theorem onFullDisk_namesTexts : onFullDisk.NamesTexts := by
  intro c w dir w' hres
  cases hres
  exact ⟨c, rfl⟩

end LayerQuota.Host
