import TwoStage.Proofs.Mount.Rules
import TwoStage.Proofs.Spec.Strings

/-!
# The texts of mounts

A stable property of all strings of a document is one of the destinations of its mounts and of the
names of its volumes. What a directory of the host is called is up to the host, unless its
declaration holds a marker: then it is what the document says, without the blanks around it.
-/

namespace TwoStage

open Text

variable {R : List Char → Prop}

/-- The destination and the name of a volume have the property, and the key of a volume is bland. -/
structure Mount.Holds (P : String → Prop) (m : Mount) : Prop where
  destination : P m.destination
  volume : ∀ key name external, m.target = .volume key name external → Bland key.toList ∧ P name

/-! ### Where containers see a declaration -/

lemma Storage.bland_roots : Bland volumeRoot.toList ∧ Bland imageRoot.toList :=
  ⟨.literal rfl, .literal rfl⟩

/-- A declaration that does not say where it is seen is seen below a fixed directory. -/
lemma Storage.holds_of_standardDestination? (hR : Stable R) {key d : String} {scope : Scope}
    {source : StorageSource} (hkey : scope = .storage → OnChars R key)
    (h : standardDestination? key scope source = some d) : OnChars R d := by
  have hseam {root : String} (hroot : Bland root.toList) (hkey : OnChars R key) :
      OnChars R (root ++ "/" ++ key) := by
    show R _
    simp only [String.toList_append, List.append_assoc]
    exact hR.seam (by decide) (hR.bland hroot) hkey
  cases scope with
  | mount => cases source <;> simp [standardDestination?] at h
  | storage =>
    cases source with
    | image =>
      obtain rfl := Option.some.inj h
      exact hseam bland_roots.2 (hkey rfl)
    | _ =>
      obtain rfl := Option.some.inj h
      exact hseam bland_roots.1 (hkey rfl)

lemma Storage.holds_destination (hR : Stable R) {key d : String} {scope : Scope}
    {s : StorageSection} {source : StorageSource} (hs : s.Holds (OnChars R))
    (hkey : scope = .storage → OnChars R key)
    (h : (declaredDestination? s <|> standardDestination? key scope source) = some d) :
    OnChars R d := by
  cases hdeclared : declaredDestination? s with
  | some d' =>
    obtain rfl : d' = d := by simpa [hdeclared] using h
    exact hs.destination _ (Option.mem_filter_iff.1 hdeclared).1
  | none =>
    rw [hdeclared] at h
    exact holds_of_standardDestination? hR hkey h

/-! ### Mounts -/

lemma bland_manualVolumeKey {name : String} {project : Project} (h : Bland project.name.toList)
    (stage : Stage) (scope : Scope) (key : String) :
    Bland (manualVolumeKey name project stage scope key).toList := by
  unfold manualVolumeKey
  split
  next hkey => exact bland_of_isVolumeKey hkey
  next => exact bland_autoVolumeName h stage scope key

variable {ctx : Context} {project : Project} {stage : Stage}

lemma Mount.holds_of_resolveMount (hR : Stable R) (hproject : Bland project.name.toList)
    {scope : Scope} {key : String} {s : StorageSection} {m : Mount} (hs : s.Holds (OnChars R))
    (hkey : scope = .storage → OnChars R key)
    (h : resolveMount ctx project stage scope key s = .ok m) : m.Holds (OnChars R) := by
  obtain ⟨source, destination, target, path, hkept, hdestination, hmounted, rfl⟩ :=
    exists_of_resolveMount h
  refine ⟨Storage.holds_destination hR hs hkey hdestination, fun k name external heq => ?_⟩
  obtain rfl : target = .volume k name external := heq
  cases hmounted with
  | autoVolume =>
    have hauto := bland_autoVolumeName hproject stage scope key
    exact ⟨hauto, hR.bland hauto⟩
  | manualVolume hname =>
    refine ⟨bland_manualVolumeKey hproject stage _ _, ?_⟩
    obtain rfl : source = .manualVolume name := hname
    cases hkept with
    | @manualVolume _ raw _ hraw =>
      show R (trim raw).toList
      rw [trim, String.toList_ofList]
      exact hR.trimmed (hs.volumeName _ hraw)

/-- The categories of storage are bland. -/
lemma bland_of_mem_storageCategories {name : String} (h : name ∈ storageCategories) :
    Bland name.toList :=
  (by decide : ∀ name ∈ storageCategories, Bland name.toList) name h

lemma StageSpec.Holds.mounts (hR : Stable R) (hproject : Bland project.name.toList)
    {spec : StageSpec} (hspec : spec.Holds (OnChars R)) {mounts : List Mount}
    (h : resolveMounts ctx project stage spec.storage spec.mount = .ok mounts) :
    ∀ m ∈ mounts, m.Holds (OnChars R) := by
  intro m hm
  obtain ⟨⟨scope, key, s⟩, hmem, hread⟩ := Outcome.exists_of_mem_mapM h hm
  rcases List.mem_append.1 hmem with hmem | hmem
  · obtain ⟨⟨key', s'⟩, hentry, heq⟩ := List.mem_map.1 hmem
    obtain ⟨rfl, rfl, rfl⟩ : _ ∧ _ ∧ _ := by simpa using heq
    have he := hspec.storage _ hentry
    exact Mount.holds_of_resolveMount hR hproject he.2
      (fun _ => hR.bland (bland_of_mem_storageCategories he.1)) hread
  · obtain ⟨⟨key', s'⟩, hentry, heq⟩ := List.mem_map.1 hmem
    obtain ⟨rfl, rfl, rfl⟩ : _ ∧ _ ∧ _ := by simpa using heq
    exact Mount.holds_of_resolveMount hR hproject (hspec.mount _ hentry) (by simp) hread

end TwoStage
