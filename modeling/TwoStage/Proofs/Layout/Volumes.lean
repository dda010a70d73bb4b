import TwoStage.Layout
import TwoStage.Proofs.Compilation.Prepared
import TwoStage.Proofs.Document.Characters
import TwoStage.Proofs.Mount.Rules

/-!
# Declared volumes

The volumes that are declared for a whole compose file are those that are mounted in one of the
stages. A declaration is the one of the last mount with its key: an automatic volume is declared the
same way wherever it is mounted, but the name of a volume of the user's may be the key of another
one.
-/

namespace TwoStage

open Compilation

variable {ctx : Context} {generator : Generator} {d : Document} {c : Compilation}

/-! ### Automatic volumes -/

/-- A volume that is not the user's is named by its key. -/
lemma name_eq_key_of_resolveMount {project : Project} {stage : Stage} {scope : Scope} {key : String}
    {s : StorageSection} {m : Mount} {volume name : String}
    (h : resolveMount ctx project stage scope key s = .ok m)
    (htarget : m.target = .volume volume name false) : name = volume := by
  obtain ⟨source, destination, target, path, -, -, hmounted, rfl⟩ := exists_of_resolveMount h
  obtain rfl : target = .volume volume name false := htarget
  cases hmounted with
  | autoVolume => rfl

lemma Compilation.Prepared.name_eq_key (h : Prepared ctx generator d c) {m : Mount}
    (hm : m ∈ Stage.all.flatMap c.mounts) {key name : String}
    (htarget : m.target = .volume key name false) : name = key := by
  obtain ⟨stage, -, hm⟩ := List.mem_flatMap.1 hm
  obtain ⟨⟨scope, k, s⟩, -, hmount⟩ := Outcome.exists_of_mem_mapM (h.mounts stage) hm
  exact name_eq_key_of_resolveMount hmount htarget

/-! ### Declarations -/

namespace VolumeDeclaration

def ofVolume (key name : String) (external : Bool) : VolumeDeclaration :=
  ⟨external, if name = key then none else some name⟩

lemma ofVolume_inj {key name name' : String} {external external' : Bool} :
    ofVolume key name external = ofVolume key name' external' ↔
      external = external' ∧ name = name' := by
  unfold ofVolume
  rw [VolumeDeclaration.mk.injEq]
  split <;> split <;> simp_all [eq_comm]

lemma mem_filterMap_ofMount?_iff {mounts : List Mount} {key : String} {v : VolumeDeclaration} :
    (key, v) ∈ mounts.filterMap ofMount? ↔
      ∃ m ∈ mounts, ∃ name external, m.target = .volume key name external ∧
        v = ofVolume key name external := by
  rw [List.mem_filterMap]
  constructor
  · rintro ⟨m, hm, hv⟩
    unfold ofMount? at hv
    split at hv
    next key' name external htarget =>
      obtain ⟨rfl, rfl⟩ := Prod.mk.inj (Option.some.inj hv)
      exact ⟨m, hm, name, external, htarget, rfl⟩
    next => simp at hv
  · rintro ⟨m, hm, name, external, htarget, rfl⟩
    exact ⟨m, hm, by simp [ofMount?, htarget, ofVolume]⟩

/-- The keys of the declarations are those of the mounted volumes. -/
lemma mem_keys_ofMounts_iff {mounts : List Mount} {key : String} :
    key ∈ (ofMounts mounts).keys ↔
      ∃ m ∈ mounts, ∃ name external, m.target = .volume key name external := by
  rw [ofMounts, OrderedMap.mem_keys_ofList, List.mem_map]
  constructor
  · rintro ⟨⟨key', v⟩, he, rfl⟩
    obtain ⟨m, hm, name, external, htarget, -⟩ := mem_filterMap_ofMount?_iff.1 he
    exact ⟨m, hm, name, external, htarget⟩
  · rintro ⟨m, hm, name, external, htarget⟩
    exact ⟨(key, _), mem_filterMap_ofMount?_iff.2 ⟨m, hm, name, external, htarget, rfl⟩, rfl⟩

/-- What is declared under a key is a volume that is mounted. -/
lemma exists_of_get?_ofMounts {mounts : List Mount} {key : String} {v : VolumeDeclaration}
    (h : (ofMounts mounts).get? key = some v) :
    ∃ m ∈ mounts, ∃ name external, m.target = .volume key name external ∧
      v = ofVolume key name external := by
  rw [ofMounts, OrderedMap.get?_ofList] at h
  obtain ⟨before, after, heq, -⟩ := List.lookup_eq_some_iff.1 h
  refine mem_filterMap_ofMount?_iff.1 ?_
  rw [← List.mem_reverse, heq]
  simp

/-- All mounted volumes of a key are declared under it if they are declared in one way. -/
lemma get?_ofMounts_iff {mounts : List Mount} {key : String} :
    (∀ m ∈ mounts, ∀ name external, m.target = .volume key name external →
      (ofMounts mounts).get? key = some (ofVolume key name external)) ↔
    ∀ m ∈ mounts, ∀ m' ∈ mounts, ∀ name external name' external',
      m.target = .volume key name external → m'.target = .volume key name' external' →
      external = external' ∧ name = name' := by
  constructor
  · intro h m hm m' hm' name external name' external' htarget htarget'
    have hdeclared := h m hm _ _ htarget
    rw [h m' hm' _ _ htarget', Option.some_inj, ofVolume_inj] at hdeclared
    exact ⟨hdeclared.1.symm, hdeclared.2.symm⟩
  · intro h m hm name external htarget
    cases hget : (ofMounts mounts).get? key with
    | none =>
      rw [ofMounts, OrderedMap.get?_ofList, List.lookup_eq_none_iff] at hget
      have hentry := mem_filterMap_ofMount?_iff.2 ⟨m, hm, name, external, htarget, rfl⟩
      simpa using hget _ (List.mem_reverse.2 hentry)
    | some v =>
      obtain ⟨m', hm', name', external', htarget', rfl⟩ := exists_of_get?_ofMounts hget
      rw [Option.some_inj, ofVolume_inj]
      exact h m' hm' m hm _ _ _ _ htarget' htarget

end VolumeDeclaration

namespace Layout

/-- The declared volumes are those that are mounted, and each is declared as it is mounted unless a
volume of the user's shares its key with another volume. -/
theorem volumes_agree_iff (h : prepare ctx generator d = .ok c) :
    (volumes c).keys.Nodup ∧ ∀ key,
      (key ∈ (volumes c).keys ↔ ∃ m ∈ Stage.all.flatMap c.mounts, ∃ name external,
        m.target = .volume key name external) ∧
      ((∀ m ∈ Stage.all.flatMap c.mounts, ∀ name external,
          m.target = .volume key name external →
          (volumes c).get? key = some ⟨external, if name = key then none else some name⟩) ↔
        ∀ m ∈ Stage.all.flatMap c.mounts, ∀ m' ∈ Stage.all.flatMap c.mounts,
          ∀ name name' external, m.target = .volume key name true →
          m'.target = .volume key name' external → external = true ∧ name' = name) := by
  refine ⟨OrderedMap.nodup_keys_ofList _, fun key => ⟨VolumeDeclaration.mem_keys_ofMounts_iff,
    VolumeDeclaration.get?_ofMounts_iff.trans ⟨?_, ?_⟩⟩⟩
  · intro hagree m hm m' hm' name name' external htarget htarget'
    obtain ⟨hexternal, hname⟩ := hagree m hm m' hm' _ _ _ _ htarget htarget'
    exact ⟨hexternal.symm, hname.symm⟩
  · intro hagree m hm m' hm' name external name' external' htarget htarget'
    cases external with
    | true =>
      obtain ⟨hexternal, hname⟩ := hagree m hm m' hm' _ _ _ htarget htarget'
      exact ⟨hexternal.symm, hname.symm⟩
    | false =>
      cases external' with
      | true =>
        -- a volume of the user's does not share its key with an automatic one
        exact absurd (hagree m' hm' m hm _ _ _ htarget' htarget).1 Bool.false_ne_true
      | false =>
        have hprepared := prepared_of_prepare h
        exact ⟨rfl, (hprepared.name_eq_key hm htarget).trans
          (hprepared.name_eq_key hm' htarget').symm⟩

/-- One volume of the user's is mounted in both stages. -/
theorem volumes_agree_of_shared_volume : ∃ d c,
    Document.ofText (fun _ => none) ("stage_1:\n image:\n  base: a\n mount:\n  m:\n" ++
      "   type: manual-volume\n   volume_name: v\n   dst_path: /m\nstage_2:\n mount:\n  n:\n" ++
      "   type: manual-volume\n   volume_name: v\n   dst_path: /n") = .ok d ∧
    prepare .bare .none d = .ok c ∧ (volumes c).get? "v" = some ⟨true, none⟩ := by
  have hrun : ((Document.ofText (fun _ => none)
      ("stage_1:\n image:\n  base: a\n mount:\n  m:\n" ++
      "   type: manual-volume\n   volume_name: v\n   dst_path: /m\nstage_2:\n mount:\n  n:\n" ++
      "   type: manual-volume\n   volume_name: v\n   dst_path: /n")).toOption.bind fun d =>
      (prepare .bare .none d).toOption.map fun c => Stage.all.flatMap c.mounts) =
      some [⟨"m", .mount, .volume "v" "v" true, "/m"⟩,
        ⟨"n", .mount, .volume "v" "v" true, "/n"⟩] := by
    rw [Document.ofText_eq_ofChars, String.toList_append, String.toList_append,
      String.toList_ofList, String.toList_ofList, String.toList_ofList]
    decide +kernel
  obtain ⟨d, c, hd, hc, hmounts⟩ := exists_of_run hrun
  have hdeclared := ((volumes_agree_iff hc).2 "v").2
  rw [hmounts] at hdeclared
  have hget := hdeclared.2 (by simp) _ List.mem_cons_self "v" true rfl
  exact ⟨d, c, hd, hc, hget⟩

/-- A volume of the user's has the name of an automatic volume of the other stage, and is no longer
declared as the user's. -/
theorem exists_volume_declared_otherwise : ∃ d c m,
    Document.ofText (fun _ => none) ("stage_1:\n image:\n  base: a\n mount:\n  m:\n" ++
      "   type: manual-volume\n   volume_name: p-stage-2-storage-data\n   dst_path: /m\n" ++
      "stage_2:\n storage:\n  data:\n   type: auto-volume") = .ok d ∧
    prepare .bare .none d = .ok c ∧ m ∈ c.mounts .first ∧
    m.target = .volume "p-stage-2-storage-data" "p-stage-2-storage-data" true ∧
    (volumes c).get? "p-stage-2-storage-data" = some ⟨false, none⟩ := by
  have hrun : ((Document.ofText (fun _ => none)
      ("stage_1:\n image:\n  base: a\n mount:\n  m:\n" ++
      "   type: manual-volume\n   volume_name: p-stage-2-storage-data\n   dst_path: /m\n" ++
      "stage_2:\n storage:\n  data:\n   type: auto-volume")).toOption.bind fun d =>
      (prepare .bare .none d).toOption.map fun c =>
        (c.mounts .first, (volumes c).get? "p-stage-2-storage-data")) =
      some ([⟨"m", .mount, .volume "p-stage-2-storage-data" "p-stage-2-storage-data" true, "/m"⟩],
        some ⟨false, none⟩) := by
    rw [Document.ofText_eq_ofChars, String.toList_append, String.toList_append,
      String.toList_ofList, String.toList_ofList, String.toList_ofList]
    decide +kernel
  obtain ⟨d, c, hd, hc, hrun⟩ := exists_of_run hrun
  obtain ⟨hmounts, hget⟩ := Prod.mk.inj hrun
  exact ⟨d, c, _, hd, hc, hmounts ▸ List.mem_cons_self, rfl, hget⟩

end Layout

end TwoStage
