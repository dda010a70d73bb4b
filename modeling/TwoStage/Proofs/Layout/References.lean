import TwoStage.Proofs.Document.Characters
import TwoStage.Proofs.Layout.Strings
import TwoStage.Proofs.Template.Reference

/-!
# References in the texts of a document

The resolver of a template does not tell the texts of a document from those of the template. What
keeps a document's texts as they are is the config round: a reference looks like a marker of that
round, and none is left when it ends. The default of a compose marker is never scanned, though, and
a reference in there is followed.
-/

namespace TwoStage.Layout

open Text Yaml Template

variable {ctx : Context} {generator : Generator} {d : Document} {c : Compilation}
  {vars : String → Option String} {text : String} {source? : Option Path}

/-- What a text of a settled document stands for in the context. -/
lemma resolveTree_eq_self_iff {s : String} (h : Settled s.toList) :
    (∀ follow path, resolveTree follow path (.text s) = .ok (.text s)) ↔
      DefaultsReferenceFree s := by
  simp only [resolveTree]
  rw [resolveText_eq_self_iff, h.referenceFree_iff]

/-- A path with its destination behind a colon holds the references that one of them holds. -/
lemma referenceFree_entry_iff {hostPath destination : String} :
    ReferenceFree (hostPath ++ ":" ++ destination).toList ↔
      ReferenceFree hostPath.toList ∧ ReferenceFree destination.toList := by
  simp only [String.toList_append, List.append_assoc]
  change ReferenceFree (hostPath.toList ++ ':' :: destination.toList) ↔ _
  constructor
  · exact fun h => ⟨h.of_infix (List.prefix_append _ _).isInfix,
      h.of_infix ⟨hostPath.toList ++ [':'], [], by simp⟩⟩
  · rintro ⟨hpath, hdestination⟩ r hr hin
    rcases (infix_append_cons_iff hr.colon_notMem_source).1 hin with hin | hin
    · exact hpath r hr hin
    · exact hdestination r hr hin

/-- A text of a document stands for itself exactly if no default of a compose marker in it holds a
reference, and an entry of a host directory if neither the path nor such a default does. -/
theorem resolves_to_itself_iff (hread : Document.ofText vars text = .ok d)
    (hprepare : Compilation.prepare ctx generator { d with source? } = .ok c) (stage : Stage) :
    (∀ s ∈ stageTexts c stage,
      (∀ follow path, resolveTree follow path (.text s) = .ok (.text s)) ↔
        DefaultsReferenceFree s) ∧
    (∀ m ∈ c.mounts stage, ∀ hostPath, m.target = .bind hostPath → ∀ entry ∈ m.composeEntry?,
      (∀ follow path, resolveTree follow path (.text entry) = .ok (.text entry)) ↔
        ReferenceFree hostPath.toList ∧ DefaultsReferenceFree m.destination) := by
  have h := Compilation.prepared_of_prepare hprepare
  have htree := Document.holds_settled_of_ofText hread
  refine ⟨fun s hs => ?_, fun m hm hostPath htarget entry hentry => ?_⟩
  · exact resolveTree_eq_self_iff (holds_stageTexts h Settled.stable hread htree stage s hs)
  · have hdestination := (holds_mounts h Settled.stable hread htree stage m hm).destination
    obtain rfl : hostPath ++ ":" ++ m.destination = entry := by
      simpa [Mount.composeEntry?, htarget] using hentry
    simp only [resolveTree]
    rw [resolveText_eq_self_iff, referenceFree_entry_iff,
      Settled.referenceFree_iff (s := m.destination) hdestination]

/-- A default without a reference. -/
theorem resolves_to_itself_of_plain_default : ∃ d c,
    Document.ofText (fun _ => none) "stage_1:\n image:\n  base: '\x7b\x7bB:-a\x7d\x7d'" = .ok d ∧
    Compilation.prepare .bare .none { d with source? := none } = .ok c ∧
    "\x7b\x7bB:-a\x7d\x7d" ∈ stageTexts c .first ∧
    ∀ follow path, resolveTree follow path (.text "\x7b\x7bB:-a\x7d\x7d") =
      .ok (.text "\x7b\x7bB:-a\x7d\x7d") := by
  have hrun : ((Document.ofText (fun _ => none)
      "stage_1:\n image:\n  base: '\x7b\x7bB:-a\x7d\x7d'").toOption.bind fun d =>
        (Compilation.prepare .bare .none { d with source? := none }).toOption.map fun c =>
          decide ("\x7b\x7bB:-a\x7d\x7d" ∈ stageTexts c .first)) = some true := by
    rw [Document.ofText_eq_ofChars, String.toList_ofList]
    decide +kernel
  obtain ⟨d, hd, hrun⟩ := Outcome.toOption_bind_eq_some_iff.1 hrun
  obtain ⟨c, hc, hrun⟩ := Outcome.toOption_map_eq_some_iff.1 hrun
  have hmem := of_decide_eq_true hrun
  have hsegments : segments "\x7b\x7bB:-a\x7d\x7d" =
      .ok [.marker ⟨.compose, ['B'], some ['a']⟩] := by
    decide +kernel
  refine ⟨d, c, hd, hc, hmem, ((resolves_to_itself_iff hd hc .first).1 _ hmem).2 ?_⟩
  intro ss hss m hm default hdefault
  obtain rfl := Except.ok.inj (hss.symm.trans hsegments)
  obtain rfl := List.mem_singleton.1 hm
  obtain rfl := Option.some.inj hdefault
  exact (OpenerFree.of_bland (by decide)).referenceFree

/-- A reference in a default is followed: the text becomes the name of the project. -/
theorem exists_followed_reference : ∃ d c t,
    Document.ofText (fun _ => none)
      ("stage_1:\n image:\n  base: a\n environment:\n" ++
        " - 'A=\x7b\x7bB:-$\x7bx-cfg.project.name\x7d \x7d\x7d'") = .ok d ∧
    Compilation.prepare .bare .none { d with source? := none } = .ok c ∧
    "A=\x7b\x7bB:-$\x7bx-cfg.project.name\x7d \x7d\x7d" ∈ stageTexts c .first ∧
    Layout.render c = .ok t ∧
    (Template.get? t "services.stage-1.environment.0").bind EnvironmentSection.text? =
      some "A=$\x7bB:-p \x7d" := by
  have hrun : ((Document.ofText (fun _ => none)
      ("stage_1:\n image:\n  base: a\n environment:\n" ++
        " - 'A=\x7b\x7bB:-$\x7bx-cfg.project.name\x7d \x7d\x7d'")).toOption.bind fun d =>
      (Compilation.prepare .bare .none { d with source? := none }).toOption.bind fun c =>
        (Layout.render c).toOption.map fun t =>
          (decide ("A=\x7b\x7bB:-$\x7bx-cfg.project.name\x7d \x7d\x7d" ∈ stageTexts c .first),
            (Template.get? t "services.stage-1.environment.0").bind EnvironmentSection.text?)) =
      some (true, some "A=$\x7bB:-p \x7d") := by
    rw [Document.ofText_eq_ofChars, String.toList_append, String.toList_ofList,
      String.toList_ofList]
    decide +kernel
  obtain ⟨d, hd, hrun⟩ := Outcome.toOption_bind_eq_some_iff.1 hrun
  obtain ⟨c, hc, hrun⟩ := Outcome.toOption_bind_eq_some_iff.1 hrun
  obtain ⟨t, ht, hrun⟩ := Outcome.toOption_map_eq_some_iff.1 hrun
  obtain ⟨hmem, hget⟩ := Prod.mk.inj hrun
  exact ⟨d, c, t, hd, hc, of_decide_eq_true hmem, ht, hget⟩

end TwoStage.Layout
