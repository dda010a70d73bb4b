import TwoStage.Proofs.Document.Characters
import TwoStage.Proofs.Layout.Volumes
import TwoStage.Proofs.Spec.WellFormed

/-!
# Keys of declared volumes

A volume of the user's is declared under its name if compose takes that for a key, and every other
one under a name that begins with the project's. A project is named by a slug, which may begin with
an underscore: only then is there a key that compose does not take.
-/

namespace TwoStage

open Text Compilation

/-! ### Names that begin with the project's -/

/-- A well-formed name begins with an underscore or with what a key begins with. -/
lemma Project.WellNamed.head_cases {project : Project} (h : project.WellNamed) :
    ∃ c, project.name.toList.head? = some c ∧ (c = '_' ∨ c.isAlphanum = true) := by
  have hne : project.name.toList ≠ [] := fun heq => h.nonempty (String.toList_eq_nil_iff.1 heq)
  obtain ⟨c, hhead⟩ := Option.isSome_iff_exists.1 (List.isSome_head?.2 hne)
  refine ⟨c, hhead, ?_⟩
  by_cases hunderscore : c = '_'
  · exact .inl hunderscore
  · have hdash : c ≠ '-' := fun heq => h.head (heq ▸ hhead)
    have hchar := h.chars c (List.mem_of_mem_head? hhead)
    exact .inr (isAlphanum_of_isSlugChar hchar hunderscore hdash)

section

variable {ctx : Context} {project : Project} {stage : Stage} {scope : Scope} {key : String}
  {s : StorageSection} {m : Mount} {volume name : String} {external : Bool}

lemma Project.WellNamed.isVolumeKeyChar_autoVolumeName (h : project.WellNamed) :
    ∀ c ∈ (autoVolumeName project stage scope key).toList, isVolumeKeyChar c = true := by
  obtain ⟨cs, heq, hcs⟩ := exists_autoVolumeName_eq project stage scope key
  rw [heq, List.forall_mem_append]
  exact ⟨fun c hc => isVolumeKeyChar_of_isSlugChar (h.chars c hc), hcs⟩

/-- Compose takes the name of an automatic volume for a key unless the project's begins with an
underscore. -/
lemma Project.WellNamed.isVolumeKey_autoVolumeName_iff (h : project.WellNamed) :
    isVolumeKey (autoVolumeName project stage scope key).toList = true ↔
      project.name.toList.head? ≠ some '_' := by
  obtain ⟨cs, heq, -⟩ := exists_autoVolumeName_eq project stage scope key
  obtain ⟨c, hhead, hc⟩ := h.head_cases
  rw [isVolumeKey_iff, and_iff_left h.isVolumeKeyChar_autoVolumeName, heq, List.head?_append, hhead,
    Option.some_or]
  simp only [Option.some.injEq, exists_eq_left', ne_eq]
  constructor
  · rintro halphanum rfl
    exact absurd halphanum (by decide)
  · exact hc.resolve_left

/-! ### Volumes of mounts -/

/-- A volume is the user's, with its name for its key, or its key is an automatic name. -/
lemma key_cases_of_resolveMount (h : resolveMount ctx project stage scope key s = .ok m)
    (htarget : m.target = .volume volume name external) :
    volume = name ∧ external = true ∧ isVolumeKey name.toList = true ∨
      volume = autoVolumeName project stage scope key ∧
        ¬(external = true ∧ isVolumeKey name.toList = true) := by
  obtain ⟨source, destination, target, path, -, -, hmounted, rfl⟩ := exists_of_resolveMount h
  obtain rfl : target = .volume volume name external := htarget
  cases hmounted with
  | autoVolume => exact .inr ⟨rfl, fun h => absurd h.1 Bool.false_ne_true⟩
  | manualVolume =>
    rw [manualVolumeKey]
    split
    next hkey => exact .inl ⟨rfl, rfl, hkey⟩
    next hkey => exact .inr ⟨rfl, fun h => hkey h.2⟩

/-- The key of a mounted volume has no characters that are none of keys. It is one unless it is
named after a project that begins with an underscore. -/
lemma isVolumeKey_iff_of_resolveMount (hproject : project.WellNamed)
    (h : resolveMount ctx project stage scope key s = .ok m)
    (htarget : m.target = .volume volume name external) :
    (∀ c ∈ volume.toList, isVolumeKeyChar c = true) ∧
      (isVolumeKey volume.toList = true ↔
        (project.name.toList.head? = some '_' →
          external = true ∧ isVolumeKey name.toList = true)) := by
  rcases key_cases_of_resolveMount h htarget with ⟨rfl, hname⟩ | ⟨rfl, hname⟩
  · exact ⟨(isVolumeKey_iff.1 hname.2).2, fun _ _ => hname, fun _ => hname.2⟩
  · refine ⟨hproject.isVolumeKeyChar_autoVolumeName,
      hproject.isVolumeKey_autoVolumeName_iff.trans ?_⟩
    exact ⟨fun hhead heq => absurd heq hhead, fun h heq => hname (h heq)⟩

end

variable {ctx : Context} {generator : Generator} {d : Document} {c : Compilation}

/-- The project of a compilation is named by a slug. -/
lemma Compilation.Prepared.wellNamed (h : Prepared ctx generator d c) :
    c.spec.project.WellNamed := by
  obtain ⟨_, _, _, -, -, -, -, heq⟩ := Spec.ofDocument_eq_ok_iff.1 h.spec
  rw [heq]
  exact Project.wellNamed_of d.projectName? ctx.projectDir

namespace Layout

/-- The keys of the declared volumes are made of characters that compose takes, and each is a key
that it takes unless the project begins with an underscore and the key is that of an automatic
volume or of one of the user's whose name is no key. -/
theorem isVolumeKey_iff_of_mem_volumes (h : prepare ctx generator d = .ok c) {key : String}
    (hkey : key ∈ (volumes c).keys) :
    (∀ char ∈ key.toList, isVolumeKeyChar char = true) ∧
      (isVolumeKey key.toList = true ↔
        (c.spec.project.name.toList.head? = some '_' →
          ∀ m ∈ Stage.all.flatMap c.mounts, ∀ name external,
            m.target = .volume key name external →
              external = true ∧ isVolumeKey name.toList = true)) := by
  have hprepared := prepared_of_prepare h
  have hmount : ∀ m ∈ Stage.all.flatMap c.mounts, ∀ name external,
      m.target = .volume key name external →
      (∀ char ∈ key.toList, isVolumeKeyChar char = true) ∧
        (isVolumeKey key.toList = true ↔
          (c.spec.project.name.toList.head? = some '_' →
            external = true ∧ isVolumeKey name.toList = true)) := by
    intro m hm name external htarget
    obtain ⟨stage, -, hm⟩ := List.mem_flatMap.1 hm
    obtain ⟨⟨scope, k, s⟩, -, hresolve⟩ := Outcome.exists_of_mem_mapM (hprepared.mounts stage) hm
    exact isVolumeKey_iff_of_resolveMount hprepared.wellNamed hresolve htarget
  obtain ⟨m, hm, name, external, htarget⟩ := VolumeDeclaration.mem_keys_ofMounts_iff.1 hkey
  refine ⟨(hmount m hm name external htarget).1, fun hvalid hhead m' hm' name' external' htarget' =>
    (hmount m' hm' name' external' htarget').2.1 hvalid hhead, fun hall => ?_⟩
  exact (hmount m hm name external htarget).2.2 fun hhead => hall hhead m hm name external htarget

/-- A volume with a name that is no key, of a declaration whose key has no slug. -/
theorem isVolumeKey_of_name_without_slug : ∃ d c key,
    Document.ofText (fun _ => none) ("stage_1:\n image:\n  base: a\n mount:\n  é:\n" ++
      "   type: manual-volume\n   volume_name: -v\n   dst_path: /m") = .ok d ∧
    prepare .bare .none d = .ok c ∧ (volumes c).keys = [key] ∧ key ≠ "-v" ∧
    isVolumeKey key.toList = true := by
  have hrun : ((Document.ofText (fun _ => none)
      ("stage_1:\n image:\n  base: a\n mount:\n  é:\n" ++
      "   type: manual-volume\n   volume_name: -v\n   dst_path: /m")).toOption.bind fun d =>
      (prepare .bare .none d).toOption.map fun c => (c.spec.project.name, (volumes c).keys)) =
      some ("p", ["p-stage-1-mount--4a99557e"]) := by
    rw [Document.ofText_eq_ofChars, String.toList_append, String.toList_ofList,
      String.toList_ofList]
    decide +kernel
  obtain ⟨d, c, hd, hc, hrun⟩ := exists_of_run hrun
  obtain ⟨hname, hkeys⟩ := Prod.mk.inj hrun
  have hmem : "p-stage-1-mount--4a99557e" ∈ (volumes c).keys := hkeys ▸ List.mem_cons_self
  have hvalid := (isVolumeKey_iff_of_mem_volumes hc hmem).2.2 fun hhead =>
    absurd (hname ▸ hhead) (by decide)
  exact ⟨d, c, _, hd, hc, hkeys, by decide, hvalid⟩

/-- The automatic volumes of a project whose name begins with an underscore have no keys that
compose takes. -/
theorem exists_volume_without_key : ∃ d c,
    Document.ofText (fun _ => none) ("project:\n name: _demo\nstage_1:\n image:\n  base: a\n" ++
      "stage_2:\n storage:\n  data:\n   type: auto-volume") = .ok d ∧
    prepare .bare .none d = .ok c ∧ "_demo-stage-2-storage-data" ∈ (volumes c).keys ∧
    isVolumeKey "_demo-stage-2-storage-data".toList = false := by
  have hrun : ((Document.ofText (fun _ => none)
      ("project:\n name: _demo\nstage_1:\n image:\n  base: a\n" ++
      "stage_2:\n storage:\n  data:\n   type: auto-volume")).toOption.bind fun d =>
      (prepare .bare .none d).toOption.map fun c => (volumes c).keys) =
      some ["_demo-stage-2-storage-data"] := by
    rw [Document.ofText_eq_ofChars, String.toList_append, String.toList_ofList,
      String.toList_ofList]
    decide +kernel
  obtain ⟨d, c, hd, hc, hkeys⟩ := exists_of_run hrun
  exact ⟨d, c, hd, hc, hkeys ▸ List.mem_cons_self, by decide⟩

end Layout

end TwoStage
