import TwoStage.Command.Run
import TwoStage.Proofs.Artifact.Paths
import TwoStage.Proofs.Credentials.Rerun
import TwoStage.Proofs.Mount.Rerun

/-!
# Compiling again

When everything that a compilation has made has been written, compiling the same document again
makes the same again: its keys are found, and the directories of the host have the same real paths,
even those that writing has made. So what is on disk is up to date.
-/

namespace TwoStage

open Yaml

/-! ### Origins of keys -/

lemma BuildArguments.user_bare (i : Nat) (u : KeyedUser) :
    BuildArguments.user i u.bare = BuildArguments.user i u := by
  simp [BuildArguments.user, KeyedUser.bare, KeyFile.bare, Function.comp_def]

/-- The arguments about SSH know of the users what the arguments about each of them do. -/
lemma BuildArguments.ssh_congr {settings : Option Ssh} {users users' : List KeyedUser}
    (h : List.Forall₂ (fun u u' => ∀ i, user i u' = user i u) users users') :
    ssh settings users' = ssh settings users := by
  have husers : users'.mapIdx user = users.mapIdx user := by
    apply List.ext_getElem
    · simp [h.length_eq]
    · intro i hi hi'
      rw [List.length_mapIdx] at hi hi'
      rw [List.getElem_mapIdx, List.getElem_mapIdx]
      exact h.get hi' hi i
  unfold ssh
  rw [husers, h.length_eq]

lemma BuildArguments.ssh_bare (settings : Option Ssh) (users : List KeyedUser) :
    ssh settings (users.map KeyedUser.bare) = ssh settings users := by
  apply ssh_congr
  rw [List.forall₂_map_right_iff, List.forall₂_same]
  intro u _ i
  exact user_bare i u

lemma Emission.userFiles_bare (u : KeyedUser) :
    Emission.userFiles u.bare = Emission.userFiles u := by
  cases u with
  | mk name password? uid? gid? authorized privateKey? hostKey? =>
    cases privateKey? <;> cases hostKey? <;>
      simp [userFiles, KeyedUser.bare, keyFile, KeyFile.bare, Function.comp_def]

def Spec.users (s : Spec) : List User :=
  Stage.all.flatMap fun stage => (s.stage stage).ssh?.elim [] Ssh.users

lemma Spec.mem_users {s : Spec} {stage : Stage} {ssh : Ssh} (h : (s.stage stage).ssh? = some ssh)
    {u : User} (hu : u ∈ ssh.users) : u ∈ s.users :=
  List.mem_flatMap.2 ⟨stage, by cases stage <;> decide, by rwa [h]⟩

namespace Compilation

/-- The compilation without where its keys were found, and without requests. -/
def bare (c : Compilation) : Compilation :=
  { c with credentials := ⟨c.users.map KeyedUser.bare, []⟩ }

variable {c c' : Compilation} {tree : Tree}

/-- The compose file knows of the users what the build arguments do. -/
lemma render_congr (hproject : c'.spec.project = c.spec.project)
    (hview : ∀ stage, ∃ ssh?, c'.view stage = { c.view stage with ssh? })
    (hmounts : ∀ stage, c'.mounts stage = c.mounts stage)
    (harguments : ∀ stage, BuildArguments.of (c'.view stage) c'.users (c.mounts stage) =
      BuildArguments.of (c.view stage) c.users (c.mounts stage)) :
    Layout.render c' = Layout.render c := by
  have hstage (stage : Stage) : Layout.stageContext c' stage = Layout.stageContext c stage := by
    obtain ⟨ssh?, hview⟩ := hview stage
    unfold Layout.stageContext
    dsimp only
    rw [hmounts, harguments, hview]
  have hvolumes : Layout.volumes c' = Layout.volumes c := by
    unfold Layout.volumes
    rw [funext hmounts]
  have hcontext : Layout.context c' = Layout.context c := by
    unfold Layout.context
    rw [funext hstage, hvolumes, hproject]
  rw [Layout.render, hcontext, Layout.render]

lemma render_bare (c : Compilation) : Layout.render c.bare = Layout.render c := by
  apply render_congr
  · rfl
  · intro stage
    exact ⟨(c.view stage).ssh?, rfl⟩
  · intro stage
    cases stage <;> rfl
  · intro stage
    have hview : c.bare.view stage = c.view stage := rfl
    have husers : c.bare.users = c.users.map KeyedUser.bare := rfl
    rw [hview, husers, BuildArguments.of, BuildArguments.of, BuildArguments.ssh_bare]

lemma emit_bare (c : Compilation) (tree : Tree) :
    Emission.emit c.bare tree = Emission.emit c tree := by
  have husers : c.bare.users.flatMap Emission.userFiles = c.users.flatMap Emission.userFiles := by
    change (c.users.map KeyedUser.bare).flatMap Emission.userFiles = _
    rw [List.flatMap_map, funext Emission.userFiles_bare]
  unfold Emission.emit Emission.files
  rw [husers]
  rfl

/-- Compilations that differ only in where keys were found come to the same artifacts. -/
lemma emit_eq_of_bare_eq (h : c'.bare = c.bare) (tree : Tree) :
    Layout.render c' = Layout.render c ∧ Emission.emit c' tree = Emission.emit c tree := by
  rw [← render_bare, ← emit_bare, h, render_bare, emit_bare]
  exact ⟨rfl, rfl⟩

/-! ### Preparing again -/

variable {ctx : Context} {fs' : Files} {places : List Location} {generator : Generator}
  (generator' : Generator) {d : Document} {vars : String → Option String} {text : String}
  {source? : Option Path}

lemma prepare_of_prepared (h : Prepared ctx generator d c) : prepare ctx generator d = .ok c := by
  have hguarded : guarded ctx d = .ok (c.spec, c.merged) :=
    Outcome.bind_eq_ok_iff.2 ⟨c.spec, h.spec,
      Outcome.bind_eq_ok_iff.2 ⟨(), h.merged ▸ h.guardrail, by rw [← h.merged]; rfl⟩⟩
  refine Outcome.bind_eq_ok_iff.2 ⟨(c.spec, c.merged), hguarded, ?_⟩
  refine Outcome.bind_eq_ok_iff.2 ⟨c.credentials, h.credentials, ?_⟩
  refine Outcome.bind_eq_ok_iff.2 ⟨c.firstMounts, h.mounts .first, ?_⟩
  refine Outcome.bind_eq_ok_iff.2 ⟨c.secondMounts, h.mounts .second, ?_⟩
  rw [← h.mode]
  rfl

section

variable (hgrows : ctx.files.Grows fs' places) (hlinks : ctx.files.LinkFree)
  (hunsought : Credentials.Unsought places) (hanchored : ctx.IsAnchored)
  (hgenerator : generator.IsReadable)

include hgrows hlinks hunsought hanchored hgenerator

/-- Preparing a document again gives the same, but for where keys were found. -/
lemma Prepared.exists_prepare_eq (h : Prepared ctx generator { d with source? } c)
    (hread : Document.ofText vars text = .ok d)
    (hsources : ∀ u ∈ c.spec.users, Credentials.KeysApart ctx places u)
    (hstored : ∀ keyed ∈ c.users, Credentials.IsStored ctx fs' keyed) :
    ∃ c', prepare { ctx with files := fs' } generator' { d with source? } = .ok c' ∧
      c'.bare = c.bare ∧ c'.credentials.requests = [] := by
  suffices hkeys : ∃ users, resolveKeys { ctx with files := fs' } generator' c.merged =
      .ok ⟨users, []⟩ ∧ users.map KeyedUser.bare = c.users.map KeyedUser.bare by
    obtain ⟨users, hresolve, hbare⟩ := hkeys
    refine ⟨{ c with credentials := ⟨users, []⟩ }, prepare_of_prepared ?_, ?_, rfl⟩
    · refine ⟨h.spec, h.merged, h.guardrail, hresolve, fun stage => ?_, h.mode⟩
      have hmounts := h.mounts stage
      unfold resolveStageMounts at hmounts ⊢
      rw [resolveMounts_eq hanchored hlinks (hgrows.linkFree hlinks), hmounts]
      cases stage <;> rfl
    · rw [bare, bare, ← hbare]
      rfl
  rcases resolveKeys_eq_ok_iff.1 h.credentials with ⟨hoff, heq⟩ | ⟨ssh, hssh, henabled, hresolve⟩
  · exact ⟨[], resolveKeys_eq_ok_iff.2 (.inl ⟨hoff, rfl⟩), by rw [users, ← heq]⟩
  · obtain ⟨-, hnames⟩ := h.names_of_users hread hssh
    have hapart : ∀ u ∈ ssh.settings.users, Credentials.KeysApart ctx places u := fun u hu =>
      hsources u (Spec.mem_users (h.installed hssh) hu)
    obtain ⟨users', hagain, hbare⟩ := Credentials.exists_resolve_eq generator' hgrows hlinks
      hunsought hanchored.project hgenerator hnames hresolve hapart hstored
    exact ⟨users', resolveKeys_eq_ok_iff.2 (.inr ⟨ssh, hssh, henabled, hagain⟩), hbare⟩

end

end Compilation

end TwoStage
