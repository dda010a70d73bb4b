import TwoStage.Proofs.Artifact.Listing
import TwoStage.Proofs.Guardrail.Coverage
import TwoStage.Proofs.Path

/-!
# Baked files hold no openers

The wrappers, the entry point and the baked variables of a stage are put together from texts that
the guardrail has checked. Splitting an entry, finding its script in an image and writing a word for
the shell make no opener, and neither does what stands around these texts. So none of these files
holds one.
-/

namespace TwoStage

open Text

/-! ### Words of the shell -/

lemma OpenerFree.quoted {cs : List Char} (h : OpenerFree cs) :
    OpenerFree (cs.flatMap Shell.quoteChar) := by
  induction cs with
  | nil => exact .nil
  | cons c cs ih =>
    have hrest := ih (h.of_infix (List.suffix_cons c cs).isInfix)
    rw [List.flatMap_cons, Shell.quoteChar]
    split
    · exact hrest.of_bland_append (by decide)
    · intro round hin
      rcases List.infix_cons_iff.1 hin with hp | hin
      · refine h round (Round.opener_prefix_cons hp fun zs hzs => ?_).isInfix
        -- What stands behind `c` is quoted, but a brace is only ever quoted as itself.
        cases cs with
        | nil => simp at hzs
        | cons c' cs =>
          rw [List.flatMap_cons, Shell.quoteChar] at hzs
          split at hzs
          next => exact absurd (List.cons.inj hzs).1 (by decide)
          next => exact ⟨cs, by rw [(List.cons.inj hzs).1]⟩
      · exact hrest round hin

lemma OpenerFree.word {s : String} (h : OpenerFree s.toList) :
    OpenerFree (Shell.word s).toList := by
  rw [Shell.word, String.toList_ofList, Shell.wordChars]
  split
  · exact h
  · exact (h.quoted.of_bland_append (by decide)).append_bland (by decide)

/-- Lines without openers make up a text without openers. -/
lemma OpenerFree.join_lines {lines : List String}
    (h : ∀ l ∈ lines, ∃ cs, OpenerFree cs ∧ l.toList = cs ++ ['\n']) :
    OpenerFree (String.join lines).toList := by
  rw [String.toList_join]
  induction lines with
  | nil => exact .nil
  | cons l lines ih =>
    rw [List.forall_mem_cons] at h
    obtain ⟨cs, hcs, heq⟩ := h.1
    rw [List.flatMap_cons, heq, List.append_assoc]
    exact hcs.append_cons (by decide) (ih h.2)

namespace Emission

/-! ### Scripts -/

lemma openerFree_splitEntry {entry : String} (h : OpenerFree entry.toList) :
    OpenerFree (splitEntry entry).1.toList ∧ OpenerFree (splitEntry entry).2.toList := by
  have htrim : OpenerFree (trimBoth entry.toList) := h.of_infix (trimBoth_isInfix _)
  unfold splitEntry
  split
  next script arguments hcut =>
    obtain ⟨c, -, heq⟩ := eq_of_cutAt? hcut
    rw [heq] at htrim
    simp only [String.toList_ofList]
    refine ⟨htrim.of_infix (List.prefix_append _ _).isInfix, htrim.of_infix ?_⟩
    exact (trimLeft_suffix arguments).isInfix.trans ⟨script ++ [c], [], by simp⟩
  next =>
    rw [trim, String.toList_ofList]
    exact ⟨htrim, .nil⟩

lemma dropDotSlash_suffix (cs : List Char) : dropDotSlash cs <:+ cs := by
  fun_induction dropDotSlash cs with
  | case1 cs ih => exact ih.trans ⟨['.', '/'], rfl⟩
  | case2 => exact List.suffix_refl _

lemma openerFree_scriptInContainer {script : String} (h : OpenerFree script.toList) :
    OpenerFree (scriptInContainer script).toList := by
  unfold scriptInContainer
  split
  · exact h
  · rw [String.toList_append, String.toList_ofList]
    refine (h.of_infix (dropDotSlash_suffix _).isInfix).of_bland_append ?_
    exact String.toList_append ▸ bland_append.2 ⟨.literal rfl, .literal rfl⟩

lemma openerFree_runLine (hook : Hook) {entry : String} (h : OpenerFree entry.toList) :
    ∃ cs, OpenerFree cs ∧ (runLine hook entry).toList = cs ++ ['\n'] := by
  obtain ⟨hscript, harguments⟩ := openerFree_splitEntry h
  have hword := (openerFree_scriptInContainer hscript).word
  have hrunner : Bland (runner hook).toList := by cases hook <;> exact .literal rfl
  refine ⟨(runner hook).toList ++ ' ' ::
    ((Shell.word (scriptInContainer (splitEntry entry).1)).toList ++
      (if (splitEntry entry).2 = "" then "" else " " ++ (splitEntry entry).2).toList),
    (OpenerFree.of_bland hrunner).append_cons (by decide) ?_, ?_⟩
  · split
    · simpa using hword
    · rw [String.toList_append]
      exact hword.append_cons (by decide) harguments
  · simp [runLine]

lemma bland_wrapperHead (stage : Stage) (hook : Hook) : Bland (wrapperHead stage hook).toList := by
  have hkey : Bland hook.key.toList := by cases hook <;> exact .literal rfl
  unfold wrapperHead
  simp only [String.toList_append, bland_append]
  exact ⟨⟨⟨⟨⟨⟨.literal rfl, hkey⟩, .literal rfl⟩, bland_label stage⟩, .literal rfl⟩, .literal rfl⟩,
    .literal rfl⟩

lemma openerFree_wrapper {view : StageView} {hook : Hook}
    (h : ∀ entry ∈ view.scripts.entries hook, OpenerFree entry.toList) :
    OpenerFree (wrapper view hook).toList := by
  rw [wrapper, String.toList_append]
  refine OpenerFree.of_bland_append (bland_wrapperHead _ hook) (.join_lines fun l hl => ?_)
  obtain ⟨entry, hentry, rfl⟩ := List.mem_map.1 hl
  exact openerFree_runLine hook (h entry hentry)

lemma openerFree_entryPoint {view : StageView}
    (h : ∀ entry ∈ view.scripts.entries .onEntry, OpenerFree entry.toList) :
    OpenerFree (entryPoint view).1.toList ∧ OpenerFree (entryPoint view).2.toList := by
  unfold entryPoint
  split
  next entry hentry =>
    obtain ⟨hscript, harguments⟩ := openerFree_splitEntry (h entry (List.mem_of_getLast? hentry))
    exact ⟨openerFree_scriptInContainer hscript, harguments⟩
  next => exact ⟨.nil, .nil⟩

lemma openerFree_profileScript {e : Environment}
    (hname : ∀ v ∈ e.entries, isVariableName v.1.toList = true)
    (hvalue : ∀ v ∈ e.entries, OpenerFree v.2.toList) : OpenerFree e.profileScript.toList := by
  unfold Environment.profileScript
  rw [String.toList_append]
  refine OpenerFree.of_bland_append (.literal rfl) (.join_lines fun l hl => ?_)
  obtain ⟨⟨name, value⟩, hv, rfl⟩ := List.mem_map.1 hl
  refine ⟨"export ".toList ++ (name.toList ++ '=' :: (Shell.word value).toList), ?_, by
    simp [Environment.exportLine]⟩
  refine OpenerFree.of_bland_append (.literal rfl) (.of_bland_append ?_ ?_)
  · exact Bland.of_isVariableName (hname _ hv)
  · have hequals : Bland ['='] := by decide
    exact (hvalue _ hv).word.of_bland_append hequals

/-! ### All artifacts -/

/-- The names of the files of a stage into which texts of the document are baked. -/
def bakedNames : List String :=
  Hook.wrapped.map wrapperName ++
    ["_custom-on-entry-path", "_custom-on-entry-args", BuildArguments.bakedEnvironmentName]

lemma isName_of_mem_bakedNames : ∀ name ∈ bakedNames, Path.IsName name := by decide

/-- No other file of a project has one of the names. -/
lemma ne_of_mem_bakedNames :
    ∀ name ∈ bakedNames, composeName ≠ name ∧ buildScriptName ≠ name ∧
      ∀ other ∈ keyFileNames, other ≠ name := by
  decide

/-- A file that a path names by its last step is none with another name. -/
lemma not_same_of_fileName? {p : Path} {stage : Stage} {name other : String}
    (hname : Path.IsName name) (hp : p.fileName? = some other.toList) (hne : other ≠ name) :
    ¬ p.same (stage.generatedDir.child name) = true := by
  intro hsame
  have heq := Path.fileName?_eq_of_same hsame
  rw [hp, Path.fileName?_child _ hname, Option.some.injEq, String.toList_inj] at heq
  exact hne heq

lemma mem_of_mem_pushItem {a b : Artifact} {as : List Artifact}
    (h : b ∈ Artifacts.pushItem a as) : b = a ∨ b ∈ as := by
  induction as with
  | nil => simpa [Artifacts.pushItem] using h
  | cons x as ih =>
    unfold Artifacts.pushItem at h
    split at h
    · exact (List.mem_cons.1 h).imp_right (List.mem_cons_of_mem _)
    · rcases List.mem_cons.1 h with rfl | h
      · exact .inr List.mem_cons_self
      · exact (ih h).imp_right (List.mem_cons_of_mem _)

lemma mem_of_mem_foldl_push {a : Artifact} {as : List Artifact} {bs : Artifacts}
    (h : a ∈ (as.foldl Artifacts.push bs).items) : a ∈ bs.items ∨ a ∈ as := by
  induction as generalizing bs with
  | nil => exact .inl h
  | cons b as ih =>
    rcases ih h with h | h
    · rcases mem_of_mem_pushItem h with rfl | h
      · exact .inr List.mem_cons_self
      · exact .inl h
    · exact .inr (List.mem_cons_of_mem _ h)

/-- Collecting files makes no new ones. -/
lemma mem_of_mem_ofList {a : Artifact} {as : List Artifact} (h : a ∈ (Artifacts.ofList as).items) :
    a ∈ as := by
  rcases mem_of_mem_foldl_push h with h | h
  · simp [Artifacts.empty] at h
  · exact h

end Emission

namespace Compilation

open Emission

variable {ctx : Context} {generator : Generator} {d : Document} {c : Compilation}
  {vars : String → Option String} {text : String} {source? : Option Path}

/-- No file of a stage holds an opener. -/
lemma Prepared.openerFree_stageFiles (h : Prepared ctx generator { d with source? } c)
    (hread : Document.ofText vars text = .ok d) (stage : Stage) :
    ∀ a ∈ stageFiles (c.view stage), OpenerFree a.contents.toList := by
  have hscript (hook : Hook) :
      ∀ entry ∈ (c.view stage).scripts.entries hook, OpenerFree entry.toList :=
    fun _ hentry => h.openerFree_script hread hentry
  obtain ⟨hpath, harguments⟩ := openerFree_entryPoint (hscript .onEntry)
  intro a ha
  simp only [stageFiles, List.mem_append, List.mem_map, List.mem_cons, List.not_mem_nil,
    or_false] at ha
  rcases ha with (⟨hook, -, rfl⟩ | rfl | rfl) | ha
  · exact openerFree_wrapper (hscript hook)
  · exact hpath
  · exact harguments
  · split at ha
    next hbakes =>
      obtain rfl := List.mem_singleton.1 ha
      have hview := h.view_holds Settled.stable hread (Document.holds_settled_of_ofText hread) stage
      exact openerFree_profileScript (fun v hv => (hview.environment v hv).1)
        fun v hv => h.openerFree_variable hread hbakes hv
    next => simp at ha

/-- No key file lies where a stage's baked files do. -/
lemma Prepared.fileName?_of_mem_userFiles (h : Prepared ctx generator { d with source? } c)
    {u : KeyedUser} (hu : u ∈ c.users) {a : Artifact} (ha : a ∈ userFiles u) :
    ∃ other ∈ keyFileNames, a.path.fileName? = some other.toList := by
  obtain ⟨ssh, -, user, -, requests, hresolve⟩ := h.exists_of_mem_users hu
  have hfile : ∃ f ∈ u.files, a.path = f.path := by
    simp only [userFiles, List.mem_append, List.mem_map] at ha
    rcases ha with ⟨f, hf, rfl⟩ | ⟨f, hf, rfl⟩
    · exact ⟨f, by simp [KeyedUser.files, hf], rfl⟩
    · refine ⟨f, ?_, rfl⟩
      rw [KeyedUser.files, List.append_assoc, List.mem_append, List.mem_append]
      exact .inr hf
  obtain ⟨f, hf, hpath⟩ := hfile
  obtain ⟨other, hother, heq⟩ := Credentials.isIn_of_resolveUser hresolve f hf
  refine ⟨other, hother, ?_⟩
  rw [hpath, heq, Path.fileName?_child _ (isName_of_mem_keyFileNames other hother)]

end Compilation

end TwoStage
