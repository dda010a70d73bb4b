import TwoStage.Proofs.Layout.Arguments
import TwoStage.Proofs.Layout.Fidelity
import TwoStage.Proofs.Mount.Openers
import TwoStage.Proofs.Yaml.Keyed

/-!
# Compose files without openers

Where neither the document nor a directory of the host has an opener, the compose file has none: its
texts are those of the compilation as they are, as there is nothing to rewrite in them, and its keys
are names that nobody writes, or names in which no opener can be written.
-/

namespace TwoStage

open Text Yaml

/-! ### Names of build arguments -/

namespace BuildArguments

lemma bland_userName (i : Nat) {f : String} (hf : f ∈ userFieldNames) :
    Bland (userName i f).toList := by
  have hfield : Bland f.toList := (by decide : ∀ f ∈ userFieldNames, Bland f.toList) f hf
  simp only [userName, String.toList_append, bland_append]
  exact ⟨⟨⟨.literal rfl, bland_natText i⟩, .literal rfl⟩, hfield⟩

/-- No part of an argument's name is written by the document. -/
lemma bland_of_mem_of {view : StageView} {users : List KeyedUser} {mounts : List Mount}
    {a : Argument} (h : a ∈ (of view users mounts).entries) : Bland a.1.toList := by
  have hfixed : ∀ name ∈ fixedNames, Bland name.toList := by decide
  have hmem := mem_entries_of_iff.1 h
  rcases mem_fieldsOf_cases hmem with hmem | ⟨settings, -, -, hmem⟩
  · apply hfixed
    have hname := List.mem_map_of_mem (f := Prod.fst) hmem
    rw [List.map_append, map_fst_frontFields, map_fst_backFields] at hname
    simp only [fixedNames, List.mem_append] at hname ⊢
    tauto
  · rcases List.mem_append.1 hmem with hmem | hmem
    · apply hfixed
      have hname := List.mem_map_of_mem (f := Prod.fst) hmem
      rw [map_fst_serverFields] at hname
      simp only [fixedNames, List.mem_append]
      exact .inl (.inr hname)
    · obtain ⟨i, u, -, hfield⟩ := mem_flatten_userFields_iff.1 hmem
      obtain ⟨f, hf, hname⟩ := exists_of_mem_userFields hfield
      rw [show a.1 = userName i f from hname]
      exact bland_userName i hf

end BuildArguments

namespace Layout

variable {c : Compilation} {base output : Stage → String}

/-! ### Keys -/

abbrev HasBlandKeys (t : Tree) : Prop := t.KeysHold (OnChars Bland)

lemma hasBlandKeys_listTree (items : List String) : HasBlandKeys (listTree items) := by
  unfold listTree
  split <;> simp [HasBlandKeys]

lemma hasBlandKeys_gpuDeploy : HasBlandKeys gpuDeploy := by
  have hnames : ∀ s ∈ ["resources", "reservations", "devices", "driver", "count", "capabilities"],
      Bland s.toList := by
    decide
  intro k hk
  have hmem : k ∈ ["resources", "reservations", "devices", "driver", "count", "capabilities"].map
      Tree.text := by
    simpa [gpuDeploy] using hk
  obtain ⟨s, hs, rfl⟩ := List.mem_map.1 hmem
  exact ⟨s, rfl, hnames s hs⟩

lemma hasBlandKeys_declaration (v : VolumeDeclaration) : HasBlandKeys v.toTree := by
  rw [VolumeDeclaration.toTree, HasBlandKeys, Tree.keysHold_record]
  intro f hf
  rcases List.mem_append.1 hf with hf | hf
  · obtain ⟨t, ht, rfl⟩ := Option.map_eq_some_iff.1 (Option.mem_toList.1 hf)
    split at ht
    · obtain rfl := Option.some.inj ht
      exact ⟨.literal rfl, Tree.keysHold_bool true⟩
    · simp at ht
  · obtain ⟨t, ht, rfl⟩ := Option.map_eq_some_iff.1 (Option.mem_toList.1 hf)
    obtain ⟨s, -, rfl⟩ := Option.map_eq_some_iff.1 ht
    exact ⟨.literal rfl, Tree.keysHold_text s⟩

/-- The keys of volumes are bland, whatever the volumes are called. -/
lemma hasBlandKeys_volumesTree {P : String → Prop}
    (hmounts : ∀ stage, ∀ m ∈ c.mounts stage, m.Holds P) : HasBlandKeys (volumesTree c) := by
  unfold volumesTree
  split
  · exact Tree.keysHold_null
  · rw [HasBlandKeys, Tree.keysHold_record]
    intro f hf
    obtain ⟨⟨key, v⟩, hv, rfl⟩ := List.mem_map.1 hf
    refine ⟨?_, hasBlandKeys_declaration v⟩
    obtain ⟨stage, m, hm, hdeclared⟩ := exists_mount_of_mem_volumes hv
    unfold VolumeDeclaration.ofMount? at hdeclared
    split at hdeclared
    next key' name external htarget =>
      obtain ⟨rfl, -⟩ := Prod.mk.inj (Option.some.inj hdeclared)
      exact ((hmounts stage m hm).volume _ _ _ htarget).1
    next => simp at hdeclared

lemma hasBlandKeys_resolvedService (stage : Stage) :
    HasBlandKeys (resolvedService c base output stage) := by
  have harguments : HasBlandKeys
      (.record ((baseImageName, .text (base stage)) :: argumentFields c stage)) := by
    rw [HasBlandKeys, Tree.keysHold_record, List.forall_mem_cons]
    refine ⟨⟨.literal rfl, Tree.keysHold_text _⟩, ?_⟩
    intro f hf
    obtain ⟨a, ha, rfl⟩ := List.mem_map.1 hf
    exact ⟨BuildArguments.bland_of_mem_of ha, Tree.keysHold_text _⟩
  have hbuild : HasBlandKeys (.record [
      ("context", .text "."),
      ("dockerfile", .text (stage.label ++ "/Dockerfile")),
      ("args", .record ((baseImageName, .text (base stage)) :: argumentFields c stage))]) := by
    rw [HasBlandKeys, Tree.keysHold_record]
    simp only [List.forall_mem_cons]
    exact ⟨⟨.literal rfl, Tree.keysHold_text _⟩, ⟨.literal rfl, Tree.keysHold_text _⟩,
      ⟨.literal rfl, harguments⟩, List.forall_mem_nil _⟩
  have hdevices : HasBlandKeys (devices c stage) := by
    unfold devices
    split
    · exact hasBlandKeys_gpuDeploy
    · exact Tree.keysHold_null
  rw [resolvedService, resolvedFields, HasBlandKeys, Tree.keysHold_record]
  simp only [List.forall_mem_cons]
  exact ⟨⟨.literal rfl, Tree.keysHold_text _⟩, ⟨.literal rfl, hbuild⟩,
    ⟨.literal rfl, hasBlandKeys_listTree _⟩, ⟨.literal rfl, hasBlandKeys_listTree _⟩,
    ⟨.literal rfl, hasBlandKeys_listTree _⟩, ⟨.literal rfl, hdevices⟩,
    ⟨.literal rfl, Tree.keysHold_bool _⟩, ⟨.literal rfl, Tree.keysHold_bool _⟩,
    List.forall_mem_nil _⟩

lemma hasBlandKeys_resolvedFile (hvolumes : HasBlandKeys (volumesTree c)) :
    HasBlandKeys (resolvedFile c base output) := by
  have hservices : HasBlandKeys (.record (Stage.all.map fun stage =>
      (stage.label, resolvedService c base output stage))) := by
    rw [HasBlandKeys, Tree.keysHold_record]
    intro f hf
    obtain ⟨stage, -, rfl⟩ := List.mem_map.1 hf
    exact ⟨bland_label stage, hasBlandKeys_resolvedService stage⟩
  rw [resolvedFile, HasBlandKeys, Tree.keysHold_record]
  simp only [List.forall_mem_cons]
  exact ⟨⟨.literal rfl, Tree.keysHold_text _⟩, ⟨.literal rfl, hservices⟩, ⟨.literal rfl, hvolumes⟩,
    List.forall_mem_nil _⟩

/-! ### The whole file -/

/-- No string and no key of the tree holds an opener, at any depth, and every key is a text. -/
structure HasNoOpeners (t : Tree) : Prop where
  strings : t.Holds (OnChars OpenerFree)
  keys : t.KeysHold (OnChars OpenerFree)

variable {ctx : Context} {generator : Generator} {d : Document} {vars : String → Option String}
  {text : String} {source? : Option Path} {tree : Tree}

/-- Where the host adds no opener, its directories have none. -/
lemma hostsAsWritten_of_addsNoOpener (h : Compilation.Prepared ctx generator { d with source? } c)
    (hread : Document.ofText vars text = .ok d) (htree : d.tree.Holds (OnChars OpenerFree))
    (hctx : ctx.AddsNoOpener) : HostsAsWritten d c := by
  intro stage m hm hostPath htarget
  exact .inl (h.openerFree_bind hread hctx htree hm htarget)

/-- A compose file has no openers if neither the document nor the directories of the host have
any. -/
lemma hasNoOpeners_of_render (h : Compilation.Prepared ctx generator { d with source? } c)
    (hread : Document.ofText vars text = .ok d) (htree : d.tree.Holds (OnChars OpenerFree))
    (hhosts : HostsAsWritten d c) (hrender : render c = .ok tree) : HasNoOpeners tree := by
  have hbind (stage : Stage) : ∀ m ∈ c.mounts stage, ∀ hostPath, m.target = .bind hostPath →
      OpenerFree hostPath.toList := by
    intro m hm hostPath htarget
    rcases hhosts stage m hm hostPath htarget with hpath | ⟨s, hs, rfl⟩
    · exact hpath
    · rw [trim, String.toList_ofList]
      exact OpenerFree.stable.trimmed (htree s hs)
  have hfree : ∀ s ∈ d.tree.strings, ¬ referenceOpener <:+: s.toList := by
    intro s hs
    exact (plain_of_openerFree (htree s hs)).2
  obtain ⟨base, output, hrenderable⟩ := exists_renderable h hread hfree hhosts
  have htexts : TextsHold (OnChars OpenerFree) c base output :=
    textsHold hrenderable.output_eq hrenderable.first_eq hrenderable.second_eq
      (holds_stageTexts h OpenerFree.stable hread htree)
      fun stage => holds_composeEntries OpenerFree.stable h hread htree stage (hbind stage)
  have hstrings : (resolvedFile c base output).dropNulls.Holds (OnChars OpenerFree) :=
    Tree.Holds.dropNulls (holds_resolvedFile (fun _ => OpenerFree.of_bland) htexts hrenderable.name)
  have hkeys : HasBlandKeys (resolvedFile c base output).dropNulls :=
    Tree.KeysHold.dropNulls (hasBlandKeys_resolvedFile (hasBlandKeys_volumesTree
      (holds_mounts h OpenerFree.stable hread htree)))
  -- without openers the last rewriting changes nothing
  obtain rfl : (resolvedFile c base output).dropNulls = tree := by
    have hsame : (resolvedFile c base output).dropNulls.mapStrings rewritten =
        (resolvedFile c base output).dropNulls := by
      apply Tree.mapStrings_eq_self
      intro s hs
      exact rewritten_of_openerFree (hstrings s hs)
    rw [render_eq_rewritten hrenderable, hsame] at hrender
    exact Except.ok.inj hrender
  constructor
  case strings => exact hstrings
  case keys =>
    intro k hk
    obtain ⟨s, rfl, hs⟩ := hkeys k hk
    exact ⟨s, rfl, OpenerFree.of_bland hs⟩

end Layout

end TwoStage
