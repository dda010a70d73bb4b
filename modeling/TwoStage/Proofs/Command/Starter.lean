import TwoStage.Command.Run
import TwoStage.Proofs.Command.Arguments
import TwoStage.Proofs.Files.Writing
import TwoStage.Proofs.Yaml.Outline
import TwoStage.Proofs.Yaml.Plain

/-!
# What a new document says

A new document is an outline, and reading it gives the base image and the name of the project as
they were asked for, unless one of them holds a character that stands between quotes by its number:
then the document cannot be read at all.
-/

namespace TwoStage

open Text Yaml

namespace Starter

/-! ### The outline -/

def projectOutline (s : Starter) : List Line :=
  match s.name? with
  | some name => [.entry 0 "project" .nothing, .entry 2 "name" (.quoted name)]
  | none      => s.projectLines.map .remark

def imageOutline (s : Starter) : List Line :=
  [.entry 0 "stage_1" .nothing, .entry 2 "image" .nothing, .entry 4 "base" (.quoted s.base)]

/-- The lines of the second stage, all but two of them remarks. -/
def secondOutline : List Line :=
  (secondStageLines.take 1).map .remark ++ [.entry 0 "stage_2" .nothing] ++
    ((secondStageLines.drop 2).dropLast).map .remark ++ [.entry 2 "environment" .emptyList]

def headOutline (s : Starter) : List Line :=
  [.entry 0 "api" (.word "stagecraft/v0")] ++ s.projectOutline ++ [.remark ""]

def outline (s : Starter) : List Line :=
  if s.minimal then s.headOutline ++ s.imageOutline
  else
    markerLines.map .remark ++ s.headOutline ++
      [.remark "# Base image, holds the slow-changing toolchain"] ++ s.imageOutline ++
      firstStageLines.map .remark ++ secondOutline

def lines (s : Starter) : List String := if s.minimal then s.minimalLines else s.standardLines

lemma text_remarks (ls : List String) :
    (ls.map Line.remark).map Line.text = ls.map String.toList := by
  rw [List.map_map]
  rfl

lemma text_secondOutline : secondOutline.map Line.text = secondStageLines.map String.toList := by
  simp only [secondOutline, List.map_append, text_remarks]
  rfl

lemma text_projectOutline (s : Starter) :
    s.projectOutline.map Line.text = s.projectLines.map String.toList := by
  obtain ⟨base, name?, minimal⟩ := s
  cases name? with
  | none => exact text_remarks _
  | some name => simp [projectOutline, projectLines, Line.text, Held.text, scalar]

lemma text_imageOutline (s : Starter) :
    s.imageOutline.map Line.text = s.imageLines.map String.toList := by
  simp [imageOutline, imageLines, Line.text, Held.text, scalar]

lemma text_headOutline (s : Starter) :
    s.headOutline.map Line.text = s.headLines.map String.toList := by
  simp [headOutline, headLines, text_projectOutline, Line.text, Held.text]

lemma text_outline (s : Starter) : s.outline.map Line.text = s.lines.map String.toList := by
  unfold outline lines
  split
  · simp only [minimalLines, List.map_append, text_headOutline, text_imageOutline]
  · simp only [standardLines, List.map_append, text_headOutline, text_imageOutline, text_remarks,
      text_secondOutline]
    rfl

lemma toList_document (s : Starter) : s.document.toList = Outline.text s.outline := by
  have hlines : s.document = String.join (s.lines.map fun line => line ++ "\n") := rfl
  rw [hlines, Outline.toList_join_lines (text_outline s)]

/-! ### Each line can be read -/

lemma isSound_entry {n : Nat} {key : String} {held : Held} {ls : List Line} (hkey : IsWord key)
    (hlength : key.toList.length ≤ 1024) (hheld : ¬ held.IsOpen) (h : Outline.IsSound ls) :
    Outline.IsSound (.entry n key held :: ls) := by
  refine ⟨⟨hkey, hlength, ?_⟩, fun hopen => absurd hopen hheld, h⟩
  cases held with
  | word w => exact absurd trivial hheld
  | nothing | quoted _ | emptyList => trivial

variable {s : Starter} {ls : List Line}

lemma isSound_imageOutline (h : Outline.IsSound ls) :
    Outline.IsSound (s.imageOutline ++ ls) :=
  isSound_entry (by decide) (by decide) id <| isSound_entry (by decide) (by decide) id <|
    isSound_entry (by decide) (by decide) id h

/-- The lines of the project are not indented. -/
lemma isSound_projectOutline (h : Outline.IsSound ls) :
    Outline.IsSound (s.projectOutline ++ ls) ∧
      Cursor.GoesOn (Outline.text (s.projectOutline ++ ls)) := by
  obtain ⟨base, name?, minimal⟩ := s
  cases name? with
  | none =>
    have hremarks : ∀ r ∈ ["# project:", "#   name: my-project"], isRemarkText r = true := by decide
    exact ⟨Outline.isSound_remarks hremarks h, _, _, rfl, by decide, by decide⟩
  | some name =>
    exact ⟨isSound_entry (by decide) (by decide) id (isSound_entry (by decide) (by decide) id h),
      _, _, rfl, by decide, by decide⟩

lemma isSound_headOutline (h : Outline.IsSound ls) : Outline.IsSound (s.headOutline ++ ls) := by
  have hblank : Outline.IsSound (.remark "" :: ls) :=
    ⟨Line.isSound_remark (by decide), False.elim, h⟩
  obtain ⟨hproject, hgoes⟩ := isSound_projectOutline (s := s) hblank
  rw [headOutline, List.append_assoc, List.append_assoc]
  exact ⟨⟨by decide, by decide, show IsWord "stagecraft/v0" by decide⟩, fun _ => hgoes, hproject⟩

lemma isSound_secondOutline : Outline.IsSound secondOutline := by
  have hbefore : ∀ r ∈ secondStageLines.take 1, isRemarkText r = true := by decide
  have hbehind : ∀ r ∈ (secondStageLines.drop 2).dropLast, isRemarkText r = true := by decide
  rw [secondOutline, List.append_assoc, List.append_assoc]
  exact Outline.isSound_remarks hbefore <| isSound_entry (by decide) (by decide) id <|
    Outline.isSound_remarks hbehind <| isSound_entry (by decide) (by decide) id trivial

lemma isSound_outline (s : Starter) : Outline.IsSound s.outline := by
  unfold outline
  split
  · rw [← List.append_nil s.imageOutline]
    exact isSound_headOutline (isSound_imageOutline trivial)
  · have hmarkers : ∀ r ∈ markerLines, isRemarkText r = true := by decide
    have hfirst : ∀ r ∈ firstStageLines, isRemarkText r = true := by decide
    simp only [List.append_assoc]
    exact Outline.isSound_remarks hmarkers <| isSound_headOutline <|
      ⟨Line.isSound_remark (by decide), False.elim, isSound_imageOutline <|
        Outline.isSound_remarks hfirst isSound_secondOutline⟩

lemma tokens_document (s : Starter) : tokens s.document.toList = Outline.spelled [] s.outline := by
  rw [toList_document, Outline.tokens_text (isSound_outline s)]

/-! ### What it says -/

def quotedNode (s : String) : Node := .scalar Node.bare s.toList false

def projectRecord (name : String) : Node × Tree :=
  Node.recordOf [("name", quotedNode name, .text name)]

def firstRecord (base : String) : Node × Tree :=
  Node.recordOf [("image", Node.recordOf [("base", quotedNode base, .text base)])]

def secondRecord : Node × Tree :=
  Node.recordOf [("environment", .sequence Node.bare [], .sequence [])]

def fields (s : Starter) : List (String × Node × Tree) :=
  [("api", Node.word "stagecraft/v0", .text "stagecraft/v0")] ++
    s.name?.toList.map (fun name => ("project", projectRecord name)) ++
    [("stage_1", firstRecord s.base)] ++
    (if s.minimal then [] else [("stage_2", secondRecord)])

def tree (s : Starter) : Tree := (Node.recordOf s.fields).2

/-- No character of the texts is written by its number. -/
def IsReadable (s : Starter) : Prop :=
  ∀ text ∈ s.base :: s.name?.toList, ∀ c ∈ text.toList, isNumbered c = false

instance (s : Starter) : Decidable s.IsReadable :=
  decidable_of_iff
    ((s.base :: s.name?.toList).all (fun text => text.toList.all fun c => !isNumbered c) = true)
    (by simp [IsReadable])

lemma isReadable_iff : s.IsReadable ↔ s.base.toList.any isNumbered = false ∧
    ∀ name ∈ s.name?, name.toList.any isNumbered = false := by
  simp [IsReadable]

def entries (s : Starter) : List Line :=
  .entry 0 "api" (.word "stagecraft/v0") ::
    (s.name?.elim [] fun name => [.entry 0 "project" .nothing, .entry 2 "name" (.quoted name)]) ++
    s.imageOutline ++
    (if s.minimal then [] else [.entry 0 "stage_2" .nothing, .entry 2 "environment" .emptyList])

lemma spelled_outline (s : Starter) :
    Outline.spelled [] s.outline = Outline.spelled [] s.entries := by
  obtain ⟨base, name?, minimal⟩ := s
  cases name? <;> cases minimal <;>
    simp only [outline, headOutline, projectOutline, imageOutline, secondOutline, entries, if_true,
      Bool.false_eq_true, if_false, List.append_assoc, List.cons_append, List.nil_append,
      Outline.spelled_remarks, Outline.spelled, Option.elim]

/-- The document of readable texts is the record of its fields. -/
lemma document?_of_isReadable (h : s.IsReadable) :
    Node.document? (Outline.spelled [] s.outline) =
      some (some (Node.recordOf s.fields).1, [.streamEnd]) := by
  rw [spelled_outline]
  obtain ⟨base, name?, minimal⟩ := s
  obtain ⟨hbase, hname⟩ := isReadable_iff.1 h
  dsimp only at hbase hname
  -- Once the form is known, the tokens are a list of a fixed length, whatever the texts are.
  cases name? with
  | none =>
    cases minimal <;>
      simp only [entries, imageOutline, Option.elim, if_true, Bool.false_eq_true, if_false,
        List.cons_append, List.nil_append, Outline.spelled, Held.tokens?, hbase] <;> rfl
  | some name =>
    have hnamed : name.toList.any isNumbered = false := hname name rfl
    cases minimal <;>
      simp only [entries, imageOutline, Option.elim, if_true, Bool.false_eq_true, if_false,
        List.cons_append, List.nil_append, Outline.spelled, Held.tokens?, hbase, hnamed] <;> rfl

/-- The lexer gives up at the first text that cannot be read, and leaves no document. -/
lemma document?_of_not_isReadable (h : ¬ s.IsReadable) :
    Node.document? (Outline.spelled [] s.outline) = none := by
  rw [isReadable_iff] at h
  rw [spelled_outline]
  obtain ⟨base, name?, minimal⟩ := s
  cases name? with
  | none =>
    have hbase : base.toList.any isNumbered = true := by simpa using h
    simp only [entries, imageOutline, Option.elim, List.cons_append, List.nil_append,
      Outline.spelled, Held.tokens?, hbase, if_true]
    rfl
  | some name =>
    -- the name stands first, so the base is only reached if the name can be read
    cases hname : name.toList.any isNumbered with
    | true =>
      simp only [entries, imageOutline, Option.elim, List.cons_append, List.nil_append,
        Outline.spelled, Held.tokens?, hname, if_true]
      rfl
    | false =>
      have hbase : base.toList.any isNumbered = true := by
        refine Bool.eq_true_of_not_eq_false fun hbase => h ⟨hbase, fun other hother => ?_⟩
        obtain rfl := Option.some.inj hother
        exact hname
      simp only [entries, imageOutline, Option.elim, List.cons_append, List.nil_append,
        Outline.spelled, Held.tokens?, hname, hbase, if_true, Bool.false_eq_true, if_false]
      rfl

variable {scope : Node.Scope} {depth : Nat}

lemma tree_single {key : String} {n : Node} {t : Tree} (hkey : Node.IsTextWord key)
    (h : n.tree scope depth = pure t) :
    (Node.recordOf [(key, n, t)]).1.tree scope (depth + 1) =
      pure (Node.recordOf [(key, n, t)]).2 :=
  Node.tree_recordOf (by simpa using hkey) (by simp) (by simpa using h)

lemma tree_projectRecord (name : String) :
    (projectRecord name).1.tree scope (depth + 1) = pure (projectRecord name).2 :=
  tree_single rfl (Node.tree_quoted name)

lemma tree_firstRecord (base : String) :
    (firstRecord base).1.tree scope (depth + 2) = pure (firstRecord base).2 :=
  tree_single rfl (tree_single rfl (Node.tree_quoted base))

lemma tree_secondRecord : secondRecord.1.tree scope (depth + 2) = pure secondRecord.2 :=
  tree_single rfl Node.tree_nil

lemma isTextWord_of_mem_fields : ∀ f ∈ s.fields, Node.IsTextWord f.1 := by
  have hwords : ∀ key ∈ ["api", "project", "stage_1", "stage_2"], Node.IsTextWord key := by
    simp only [List.forall_mem_cons]
    exact ⟨rfl, rfl, rfl, rfl, by simp⟩
  refine fun f hf => hwords f.1 ?_
  obtain ⟨base, name?, minimal⟩ := s
  revert f
  cases name? <;> cases minimal <;> simp [fields]

lemma nodup_fields (s : Starter) : (s.fields.map Prod.fst).Nodup := by
  obtain ⟨base, name?, minimal⟩ := s
  cases name? <;> cases minimal <;> simp [fields]

lemma tree_of_mem_fields : ∀ f ∈ s.fields, f.2.1.tree scope (depth + 2) = pure f.2.2 := by
  have hapi : (Node.word "stagecraft/v0").tree scope (depth + 2) = pure (.text "stagecraft/v0") :=
    Node.tree_word rfl
  intro f hf
  rw [fields, List.mem_append, List.mem_append, List.mem_append] at hf
  rcases hf with ((hf | hf) | hf) | hf
  · obtain rfl := List.mem_singleton.1 hf
    exact hapi
  · obtain ⟨name, -, rfl⟩ := List.mem_map.1 hf
    exact tree_projectRecord name
  · obtain rfl := List.mem_singleton.1 hf
    exact tree_firstRecord s.base
  · split at hf
    · simp at hf
    · obtain rfl := List.mem_singleton.1 hf
      exact tree_secondRecord

lemma tree_fields (s : Starter) (scope : Node.Scope) :
    (Node.recordOf s.fields).1.tree scope maxDepth = pure s.tree :=
  Node.tree_recordOf isTextWord_of_mem_fields s.nodup_fields tree_of_mem_fields

/-- Readable texts leave a document that is read as the record of its fields. -/
lemma read_document_eq_ok (h : s.IsReadable) : Yaml.read s.document = .ok s.tree := by
  rw [Yaml.read, tokens_document, document?_of_isReadable h]
  simp only [tree_fields]
  rfl

lemma read_document_eq_error (h : ¬ s.IsReadable) : Yaml.read s.document = .error .malformed := by
  rw [Yaml.read, tokens_document, document?_of_not_isReadable h]

/-- Contents say what was asked for: the base image of the first stage and, if there is one, the
name of the project. -/
def IsSaidBy (s : Starter) (contents : String) : Prop :=
  ∃ t, Yaml.read contents = .ok t ∧
    t.walk? ["stage_1", "image", "base"] = some (.text s.base) ∧
    ∀ name ∈ s.name?, t.walk? ["project", "name"] = some (.text name)

lemma walk?_base (s : Starter) :
    s.tree.walk? ["stage_1", "image", "base"] = some (.text s.base) := by
  obtain ⟨base, name?, minimal⟩ := s
  cases name? <;> cases minimal <;>
    simp [tree, fields, firstRecord, Node.recordOf, Tree.walk?_record, Tree.walk?_nil,
      List.lookup_cons]

lemma walk?_name {name : String} (h : s.name? = some name) :
    s.tree.walk? ["project", "name"] = some (.text name) := by
  simp [tree, fields, projectRecord, Node.recordOf, Tree.walk?_record, Tree.walk?_nil,
    List.lookup_cons, h]

lemma isSaidBy_document (h : s.IsReadable) : s.IsSaidBy s.document :=
  ⟨s.tree, read_document_eq_ok h, s.walk?_base, fun _ hname => walk?_name hname⟩

end Starter

namespace Command

open Starter

/-! ### The command -/

/-- The options that ask for a new document. -/
def optionsFor (s : Starter) : List (OptionRule × String) :=
  (.base, s.base) :: s.name?.toList.map (.name, ·) ++
    if s.minimal then [(.template, minimalName)] else []

def asking (s : Starter) : List String :=
  "init" :: (optionsFor s).map fun option => option.1.withValue option.2

lemma readAll_optionsFor (s : Starter) :
    Words.readAll (OptionRule.common ++ [.base, .name, .template]) 1
      ((optionsFor s).map fun option => option.1.withValue option.2) =
        .ok ⟨optionsFor s, []⟩ := by
  have htext : ∀ option ∈ optionsFor s,
      option.1.IsText (OptionRule.common ++ [.base, .name, .template]) := by
    have hrules : ∀ r ∈ [OptionRule.base, .name, .template],
        r.IsText (OptionRule.common ++ [.base, .name, .template]) := by decide
    refine fun option hoption => hrules option.1 ?_
    simp only [optionsFor, List.mem_append, List.mem_cons, List.mem_map] at hoption
    grind
  have hnodup : ((Words.empty.options ++ optionsFor s).map fun option => option.1.long).Nodup := by
    obtain ⟨base, name?, minimal⟩ := s
    cases name? <;> cases minimal <;> simp [optionsFor, Words.empty] <;> decide
  have hread : Words.empty.read _ (some 1) _ = .ok (⟨optionsFor s, []⟩, []) :=
    Words.read_withValue htext hnodup (some 1)
  rw [Words.readAll, hread]
  rfl

/-- The texts on the command line are those of the document. -/
lemma ofArguments_asking (vars : String → Option String) (s : Starter) :
    ofArguments vars (asking s) = .ok (⟨false, 0⟩, .start (Path.ofString ".") s) := by
  have hstarter : (⟨(Words.value? ⟨optionsFor s, []⟩ "base").getD "ubuntu:24.04",
      Words.value? ⟨optionsFor s, []⟩ "name",
      Words.value? ⟨optionsFor s, []⟩ "template" == some minimalName⟩ : Starter) = s := by
    obtain ⟨base, name?, minimal⟩ := s
    cases name? <;> cases minimal <;> rfl
  have hverbosity : verbosity Words.empty ⟨optionsFor s, []⟩ = ⟨false, 0⟩ := by
    obtain ⟨base, name?, minimal⟩ := s
    cases name? <;> cases minimal <;> rfl
  have hwords : ofWords vars "init" ((optionsFor s).map fun option => option.1.withValue option.2) =
      .ok (⟨optionsFor s, []⟩, .start (Path.ofString ".") s) := by
    simp only [ofWords, readAll_optionsFor]
    change Except.ok (_, Command.start _ _) = _
    rw [hstarter]
    rfl
  have hleading : Words.empty.read OptionRule.leading none (asking s) =
      .ok (Words.empty, asking s) := rfl
  rw [ofArguments, hleading]
  simp only [asking]
  change (ofWords vars "init" _ >>= _) = _
  rw [hwords]
  change Except.ok (verbosity _ _, _) = _
  rw [hverbosity]

/-- A document is started where nothing is. -/
lemma write_of_start {host : Host} {dir : Path} {s : Starter}
    (h : (startDocument host dir s).code = 0) :
    host.files.write (dir.child Discovery.documentName) s.document.toUTF8 =
      .ok (startDocument host dir s).files := by
  unfold startDocument at h ⊢
  dsimp only at h ⊢
  split at h
  next => simp [Ending.failure] at h
  next hany =>
    rw [if_neg hany]
    split at h
    next => simp [Ending.failure] at h
    next files hwrite => rw [hwrite]

/-- Every base image and every name can be asked for as they are. Where a document is asked for and
nothing fails, one file holds the document and nothing else changes; without links it is the file at
the path of the document. It says what was asked for exactly if no character of the base image and
the name is written by its number: otherwise it cannot be read. -/
theorem document_of_start (host : Host) :
    (∀ s, ofArguments host.var? (asking s) =
      .ok (⟨false, 0⟩, .start (Path.ofString ".") s)) ∧
    ∀ words v dir s, ofArguments host.var? words = .ok (v, .start dir s) →
      (runArguments host words).code = 0 →
        (∃ place mode, (runArguments host words).files =
          host.files.put place (.file s.document.toUTF8 mode)) ∧
        (host.files.LinkFree →
          (runArguments host words).files.readText (dir.child Discovery.documentName) =
            .ok s.document) ∧
        (s.IsReadable → s.IsSaidBy s.document) ∧
        (¬ s.IsReadable → Yaml.read s.document = .error .malformed) := by
  refine ⟨ofArguments_asking host.var?, fun words v dir s hwords hcode => ?_⟩
  have hrun : runArguments host words = startDocument host dir s := by
    rw [runArguments, hwords]
    rfl
  rw [hrun] at hcode ⊢
  have hwrite := write_of_start hcode
  exact ⟨Files.exists_of_write hwrite, fun hlinks => Files.readText_of_write hlinks hwrite,
    isSaidBy_document, read_document_eq_error⟩

def bareHost : Host := ⟨[], .empty, fun _ => .error "none", false⟩

lemma linkFree_bareHost : bareHost.files.LinkFree :=
  Files.linkFree_of_forall (by simp [bareHost, Files.empty])

lemma code_asking_bareHost (s : Starter) : (runArguments bareHost (asking s)).code = 0 := by
  rw [runArguments, ofArguments_asking]
  rfl

/-- A name with a quote, a tabulator and a letter outside of the first 128 characters is said. -/
theorem document_of_start_of_specials :
    let s : Starter := ⟨"ubuntu:24.04", some "a \"k\tä\"", false⟩
    (runArguments bareHost (asking s)).files.readText (Path.ofString "./stagecraft.yaml") =
        .ok s.document ∧
      s.IsSaidBy s.document := by
  intro s
  have hreadable : s.IsReadable := by decide +kernel
  obtain ⟨-, hread, hsaid, -⟩ := (document_of_start bareHost).2 _ _ _ _
    (ofArguments_asking _ s) (code_asking_bareHost s)
  exact ⟨hread linkFree_bareHost, hsaid hreadable⟩

/-- A name whose last letter is followed by a combining accent leaves a document that cannot be
read. -/
theorem exists_malformed_document :
    let s : Starter := ⟨"ubuntu:24.04", some "cafe\u0301", true⟩
    asking s = ["init", "--base=ubuntu:24.04", "--name=cafe\u0301", "--template=minimal"] ∧
      (runArguments bareHost (asking s)).code = 0 ∧
      (runArguments bareHost (asking s)).files.readText (Path.ofString "./stagecraft.yaml") =
        .ok s.document ∧
      Yaml.read s.document = .error .malformed ∧ ¬ s.IsSaidBy s.document := by
  intro s
  have hrun : runArguments bareHost (asking s) =
      startDocument bareHost (Path.ofString ".") s := by
    rw [runArguments, ofArguments_asking]
    rfl
  have hcode := code_asking_bareHost s
  have hread := read_document_eq_error (show ¬ s.IsReadable by decide +kernel)
  refine ⟨by decide +kernel, hcode, ?_, hread, ?_⟩
  · rw [hrun] at hcode ⊢
    exact Files.readText_of_write linkFree_bareHost (write_of_start hcode)
  · rintro ⟨t, ht, -⟩
    simp [hread] at ht

end Command

end TwoStage
