import TwoStage.Compilation
import TwoStage.Proofs.Credentials.Files
import TwoStage.Proofs.Spec.Strings

/-!
# What a compilation is made of

The steps of preparing a compilation, and a stable property of all strings of its document as one of
its stages, views and users.
-/

namespace TwoStage

/-- A context with nothing in it but the directory of a project. -/
def Context.bare : Context where
  vars _          := none
  projectDir      := Path.ofString "/p"
  home?           := none
  sshDir?         := none
  strictHostPaths := false
  mode            := .compose
  files           := .empty

/-- A generator that has no pairs. -/
def Generator.none : Generator := fun _ => .error "none"

namespace Compilation

variable {ctx : Context} {generator : Generator} {d : Document} {c : Compilation}

/-- The compilation comes from the document by way of these steps. -/
structure Prepared (ctx : Context) (generator : Generator) (d : Document) (c : Compilation) :
    Prop where
  spec : Spec.ofDocument ctx.projectDir d = .ok c.spec
  merged : c.merged = Merged.ofSpec c.spec
  guardrail : Guardrail.check c.spec c.merged ctx.mode = .ok ()
  credentials : resolveKeys ctx generator c.merged = .ok c.credentials
  mounts : ∀ stage, resolveStageMounts ctx c.spec stage = .ok (c.mounts stage)
  mode : c.mode = ctx.mode

lemma prepared_of_prepare (h : prepare ctx generator d = .ok c) : Prepared ctx generator d c := by
  obtain ⟨⟨spec, merged⟩, hguarded, h⟩ := Outcome.bind_eq_ok_iff.1 h
  obtain ⟨credentials, hcredentials, h⟩ := Outcome.bind_eq_ok_iff.1 h
  obtain ⟨firstMounts, hfirst, h⟩ := Outcome.bind_eq_ok_iff.1 h
  obtain ⟨secondMounts, hsecond, h⟩ := Outcome.bind_eq_ok_iff.1 h
  obtain rfl := Outcome.pure_eq_ok_iff.1 h
  obtain ⟨spec', hspec, hguarded⟩ := Outcome.bind_eq_ok_iff.1 hguarded
  obtain ⟨⟨⟩, hcheck, hguarded⟩ := Outcome.bind_eq_ok_iff.1 hguarded
  obtain ⟨rfl, rfl⟩ := Prod.mk.inj (Outcome.pure_eq_ok_iff.1 hguarded)
  refine ⟨hspec, rfl, hcheck, hcredentials, fun stage => ?_, rfl⟩
  cases stage
  · exact hfirst
  · exact hsecond

/-- One evaluation reads a text, prepares what it declares and tells something of the outcome. -/
lemma exists_of_run {α : Type} {vars : String → Option String} {text : String}
    {f : Compilation → α} {a : α}
    (h : ((Document.ofText vars text).toOption.bind fun d =>
      (prepare ctx generator d).toOption.map f) = some a) :
    ∃ d c, Document.ofText vars text = .ok d ∧ prepare ctx generator d = .ok c ∧ f c = a := by
  obtain ⟨d, hd, h⟩ := Outcome.toOption_bind_eq_some_iff.1 h
  obtain ⟨c, hc, h⟩ := Outcome.toOption_map_eq_some_iff.1 h
  exact ⟨d, c, hd, hc, h⟩

lemma view_eq (h : Prepared ctx generator d c) (stage : Stage) :
    c.view stage = StageView.of c.spec (Merged.ofSpec c.spec) stage := by
  rw [view, h.merged]

variable {R : List Char → Prop} {vars : String → Option String} {text : String}
  {source? : Option Path}

/-- What holds of all strings of a document holds of what is prepared from it. -/
lemma Prepared.spec_holds (h : Prepared ctx generator { d with source? } c) (hR : Stable R)
    (hread : Document.ofText vars text = .ok d) (htree : d.tree.Holds (OnChars R)) :
    c.spec.Holds (OnChars R) := by
  have hd := Document.holds_of_ofText hread hR.intText htree
  exact Spec.holds_of_ofDocument (d := { d with source? }) hR ⟨hd.first, hd.second⟩ h.spec

lemma Prepared.view_holds (h : Prepared ctx generator { d with source? } c) (hR : Stable R)
    (hread : Document.ofText vars text = .ok d) (htree : d.tree.Holds (OnChars R))
    (stage : Stage) : (c.view stage).Holds (OnChars R) := by
  rw [view_eq h]
  exact (h.spec_holds hR hread htree).view hR stage

/-- The SSH settings in effect are those of a stage. -/
lemma exists_of_installedSsh? {s : Spec} {ssh : InstalledSsh}
    (h : Merged.installedSsh? s = some ssh) :
    (s.stage ssh.stage).ssh? = some ssh.settings := by
  unfold Merged.installedSsh? at h
  cases h₂ : s.second.ssh? with
  | some settings =>
    rw [h₂] at h
    obtain rfl := Option.some.inj h
    exact h₂
  | none =>
    rw [h₂] at h
    cases h₁ : s.first.ssh? with
    | none => simp [h₁] at h
    | some settings =>
      rw [h₁] at h
      obtain rfl := Option.some.inj h
      exact h₁

lemma Prepared.installed (h : Prepared ctx generator d c) {ssh : InstalledSsh}
    (hssh : c.merged.ssh? = some ssh) : (c.spec.stage ssh.stage).ssh? = some ssh.settings := by
  rw [h.merged] at hssh
  exact exists_of_installedSsh? hssh

/-- The users of a compilation's document have names that differ, each one step of a path. -/
lemma Prepared.names_of_users (h : Prepared ctx generator { d with source? } c)
    (hread : Document.ofText vars text = .ok d) {ssh : InstalledSsh}
    (hssh : c.merged.ssh? = some ssh) :
    (ssh.settings.users.map User.name).Nodup ∧
      ∀ u ∈ ssh.settings.users, Path.IsName u.name := by
  have hspec := h.spec_holds Settled.stable hread (Document.holds_settled_of_ofText hread)
  have hstage := h.installed hssh
  refine ⟨(hspec.stage ssh.stage).distinct _ hstage, fun u hu => ?_⟩
  exact Credentials.isName_of_isUserName ((hspec.stage ssh.stage).users _ hstage u hu).name

/-- Every user of a compilation comes from one of its document, whose files stand in the user's
directory. -/
lemma Prepared.exists_of_mem_users (h : Prepared ctx generator d c) {keyed : KeyedUser}
    (hk : keyed ∈ c.users) :
    ∃ ssh, c.merged.ssh? = some ssh ∧ ∃ u ∈ ssh.settings.users, ∃ requests,
      Credentials.resolveUser ctx generator ssh.stage u = .ok (keyed, requests) := by
  rcases resolveKeys_eq_ok_iff.1 h.credentials with ⟨-, heq⟩ | ⟨ssh, hssh, -, hresolve⟩
  · simp [users, ← heq] at hk
  · exact ⟨ssh, hssh, Credentials.exists_of_mem_users hresolve hk⟩

/-- The users of a compilation have names, passwords and files as their document says. -/
lemma Prepared.user_holds (h : Prepared ctx generator { d with source? } c) (hR : Stable R)
    (hread : Document.ofText vars text = .ok d) (htree : d.tree.Holds (OnChars R))
    {keyed : KeyedUser} (hk : keyed ∈ c.users) :
    isUserName keyed.name.toList = true ∧ (∀ s ∈ keyed.password?, OnChars R s) ∧
      ∃ stage, ∀ f ∈ keyed.files, f.IsIn (Credentials.keyDir stage keyed.name) := by
  obtain ⟨ssh, hssh, u, hu, requests, hresolve⟩ := h.exists_of_mem_users hk
  have huser := ((h.spec_holds hR hread htree).stage ssh.stage).users _ (h.installed hssh) u hu
  have hfiles := Credentials.isIn_of_resolveUser hresolve
  obtain ⟨given, half, fresh, -, -, -, heq⟩ := Credentials.resolveUser_eq_ok_iff.1 hresolve
  have hname : keyed.name = u.name := by rw [heq]
  have hpassword : keyed.password? = u.password? := by rw [heq]
  rw [hname, hpassword]
  exact ⟨huser.name, huser.password, ssh.stage, hfiles⟩

end Compilation

end TwoStage
