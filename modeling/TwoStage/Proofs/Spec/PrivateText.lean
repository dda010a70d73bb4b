import TwoStage.Proofs.Compilation.Prepared
import TwoStage.Proofs.Spec.WellFormed

/-!
# Another private key for a user

A document with another text for the private key of one user differs in nothing else, and so do the
checked document and the merged settings that come of it.
-/

namespace TwoStage

/-! ### Giving a key -/

def OrderedMap.adjust {α β : Type} [DecidableEq α] (m : OrderedMap α β) (k : α) (f : β → β) :
    OrderedMap α β :=
  ⟨m.entries.map fun e => if e.1 = k then (e.1, f e.2) else e⟩

/-- The section with a text for the private key. -/
def UserSection.withPrivateText (key : String) (x : UserSection) : UserSection :=
  { x with privateText? := some key }

def SshSection.withPrivateText (user key : String) (x : SshSection) : SshSection :=
  { x with users := x.users.adjust user (UserSection.withPrivateText key) }

def StageSection.withPrivateText (user key : String) (x : StageSection) : StageSection :=
  { x with ssh? := x.ssh?.map (SshSection.withPrivateText user key) }

/-- The document with a text for the private key of a user of a stage. -/
def Document.withPrivateText (stage : Stage) (user key : String) (d : Document) : Document :=
  match stage with
  | .first  => { d with first? := d.first?.map (StageSection.withPrivateText user key) }
  | .second => { d with second? := d.second?.map (StageSection.withPrivateText user key) }

/-- The user, with the text for the private key if the name is the given one. -/
def User.givePrivateText (user key : String) (u : User) : User :=
  if u.name = user then { u with privateKey := .text key } else u

def Ssh.withPrivateText (user key : String) (s : Ssh) : Ssh :=
  { s with users := s.users.map (User.givePrivateText user key) }

def StageSpec.withPrivateText (user key : String) (s : StageSpec) : StageSpec :=
  { s with ssh? := s.ssh?.map (Ssh.withPrivateText user key) }

/-- The checked document with a text for the private key of a user of a stage. -/
def Spec.withPrivateText (stage : Stage) (user key : String) (s : Spec) : Spec :=
  match stage with
  | .first  => { s with first := s.first.withPrivateText user key }
  | .second => { s with second := s.second.withPrivateText user key }

/-- The settings in effect with a text for the private key of a user of a stage. -/
def InstalledSsh.withPrivateText (stage : Stage) (user key : String) (s : InstalledSsh) :
    InstalledSsh :=
  if s.stage = stage then { s with settings := s.settings.withPrivateText user key } else s

/-- The merged settings with a text for the private key of a user of a stage. -/
def Merged.withPrivateText (stage : Stage) (user key : String) (m : Merged) : Merged :=
  { m with ssh? := m.ssh?.map (InstalledSsh.withPrivateText stage user key) }

/-- The private key of the user is the text, if there is such a user. -/
def Ssh.HasPrivateText (user key : String) (s : Ssh) : Prop :=
  ∀ u ∈ s.users, u.name = user → u.privateKey = .text key

variable {stage : Stage} {user key key' : String}

@[simp] lemma User.name_givePrivateText (u : User) :
    (u.givePrivateText user key).name = u.name := by
  unfold givePrivateText
  split <;> rfl

/-! ### Checking -/

namespace User

lemma of_withPrivateText {path name : String} {x : UserSection} {u : User}
    (h : ofSection path name (x.withPrivateText key) = .ok u) :
    x.privateFile? = none ∧ u.privateKey = .text key := by
  obtain ⟨-, hdeclared, -⟩ := ofSection_eq_ok_iff.1 h
  have hprivate : KeySource.ofPair? x.privateFile? (some key) = some u.privateKey :=
    hdeclared.privateKey
  cases hfile : x.privateFile? with
  | some file => simp [hfile, KeySource.ofPair?] at hprivate
  | none =>
    rw [hfile] at hprivate
    exact ⟨rfl, (Option.some.inj hprivate).symm⟩

lemma ofSection_withPrivateText {path name : String} {x : UserSection} {u : User}
    (h : ofSection path name (x.withPrivateText key) = .ok u) :
    ofSection path name (x.withPrivateText key') = .ok { u with privateKey := .text key' } := by
  obtain ⟨hname, hdeclared, -⟩ := ofSection_eq_ok_iff.1 h
  apply ofSection_eq_ok_iff.2
  refine ⟨hname, { hdeclared with privateKey := ?_ }, .inr (.inr (by simp))⟩
  change KeySource.ofPair? x.privateFile? (some key') = _
  rw [(of_withPrivateText h).1]
  rfl

end User

namespace Ssh

lemma ofSection_withPrivateText {path : String} {x : SshSection} {s : Ssh}
    (h : ofSection path (x.withPrivateText user key) = .ok s) :
    s.HasPrivateText user key ∧
      ofSection path (x.withPrivateText user key') = .ok (s.withPrivateText user key') := by
  obtain ⟨husers, hinhabited, hsettings⟩ := ofSection_eq_ok_iff.1 h
  have hread := List.forall₂_map_left_iff.1 (Outcome.mapM_eq_ok_iff.1 husers)
  constructor
  · intro u hu hname
    obtain ⟨e, he, hread⟩ := Outcome.exists_of_mem_mapM husers hu
    obtain ⟨e, -, rfl⟩ := List.mem_map.1 he
    dsimp only at hread
    split at hread
    next => exact (User.of_withPrivateText hread).2
    next hne => exact absurd ((User.name_of_ofSection hread).symm.trans hname) hne
  · refine ofSection_eq_ok_iff.2 ⟨?_, ?_, hsettings⟩
    · apply Outcome.mapM_eq_ok_iff.2
      refine List.forall₂_map_left_iff.2 (List.forall₂_map_right_iff.2 ?_)
      refine hread.imp fun e u hread => ?_
      dsimp only at hread ⊢
      by_cases hname : e.1 = user
      · rw [if_pos hname] at hread ⊢
        have huser : u.name = user := (User.name_of_ofSection hread).trans hname
        rw [User.givePrivateText, if_pos huser]
        exact User.ofSection_withPrivateText hread
      · rw [if_neg hname] at hread ⊢
        have huser : u.name ≠ user := (User.name_of_ofSection hread).symm ▸ hname
        rw [User.givePrivateText, if_neg huser]
        exact hread
    · intro henabled
      simpa [withPrivateText] using hinhabited henabled

end Ssh

lemma StageSection.ssh?_withPrivateText (x : StageSection) :
    (x.withPrivateText user key).ssh? = x.ssh?.map (SshSection.withPrivateText user key) := rfl

namespace StageSpec

/-- The SSH settings that a stage may have hold the text for the private key. -/
def HasPrivateText (user key : String) (s : StageSpec) : Prop :=
  ∀ ssh ∈ s.ssh?, ssh.HasPrivateText user key

lemma ofSection_withPrivateText {x : StageSection} {s : StageSpec}
    (h : ofSection stage (x.withPrivateText user key) = .ok s) :
    s.HasPrivateText user key ∧
      ofSection stage (x.withPrivateText user key') = .ok (s.withPrivateText user key') := by
  have hchecked := ofSection_eq_ok_iff.1 h
  have hgiven : s.HasPrivateText user key ∧
      (x.ssh?.map (SshSection.withPrivateText user key')).mapM (Ssh.ofSection (stage.path "ssh")) =
        .ok (s.ssh?.map (Ssh.withPrivateText user key')) := by
    have hssh := hchecked.ssh
    unfold HasPrivateText
    cases hx : x.ssh? with
    | none =>
      rw [StageSection.ssh?_withPrivateText, hx] at hssh
      rw [← Except.ok.inj hssh]
      exact ⟨by simp, rfl⟩
    | some y =>
      rw [StageSection.ssh?_withPrivateText, hx] at hssh
      obtain ⟨ssh, hread, heq⟩ := Outcome.map_eq_ok_iff.1 hssh
      obtain ⟨hkey, hread'⟩ := Ssh.ofSection_withPrivateText hread
      rw [← heq]
      exact ⟨by simpa using hkey, Outcome.map_eq_ok_iff.2 ⟨_, hread', rfl⟩⟩
  -- the other checks do not look at the section that the key is in
  exact ⟨hgiven.1, ofSection_eq_ok_iff.2 { hchecked with
    ssh := hgiven.2
    rest := congrArg (StageSpec.withPrivateText user key') hchecked.rest }⟩

end StageSpec

namespace Spec

variable {dir : Path} {d : Document} {s : Spec}

lemma ofDocument_withPrivateText (tree' : Yaml.Tree)
    (h : ofDocument dir (d.withPrivateText stage user key) = .ok s) :
    (s.stage stage).HasPrivateText user key ∧
      ofDocument dir { d.withPrivateText stage user key' with tree := tree' } =
        .ok { s.withPrivateText stage user key' with tree := tree' } := by
  obtain ⟨section₁, first, second, hfirst, h₁, hsecond, hbase, rfl⟩ := ofDocument_eq_ok_iff.1 h
  -- the key is in the section of one stage; the check of the other one is taken over
  cases stage with
  | first =>
    obtain ⟨x, hx, rfl⟩ := Option.map_eq_some_iff.1 hfirst
    obtain ⟨hkey, h₁'⟩ : _ ∧ StageSpec.ofSection .first (x.withPrivateText user key') = _ :=
      StageSpec.ofSection_withPrivateText h₁
    refine ⟨hkey, ofDocument_eq_ok_iff.2 ⟨_, _, _, ?_, h₁', hsecond, hbase, rfl⟩⟩
    exact Option.map_eq_some_iff.2 ⟨x, hx, rfl⟩
  | second =>
    rcases hsecond with ⟨hnone, rfl⟩ | ⟨section₂, hsome, h₂⟩
    · have hnone : d.second? = none := Option.map_eq_none_iff.1 hnone
      refine ⟨by simp [StageSpec.HasPrivateText, stage, StageSpec.withOutput, StageSpec.empty], ?_⟩
      refine ofDocument_eq_ok_iff.2 ⟨_, _, _, hfirst, h₁, .inl ⟨?_, rfl⟩, hbase, rfl⟩
      exact Option.map_eq_none_iff.2 hnone
    · obtain ⟨x, hx, rfl⟩ := Option.map_eq_some_iff.1 hsome
      obtain ⟨hkey, h₂'⟩ : _ ∧ StageSpec.ofSection .second (x.withPrivateText user key') = _ :=
        StageSpec.ofSection_withPrivateText h₂
      refine ⟨hkey, ofDocument_eq_ok_iff.2 ⟨_, _, _, ?_, h₁, .inr ⟨_, ?_, h₂'⟩, hbase, rfl⟩⟩
      · exact hfirst
      · exact Option.map_eq_some_iff.2 ⟨x, hx, rfl⟩

end Spec

/-! ### Merging -/

namespace Merged

lemma installedSsh?_withPrivateText (s : Spec) :
    installedSsh? (s.withPrivateText stage user key) =
      (installedSsh? s).map (InstalledSsh.withPrivateText stage user key) := by
  obtain ⟨project, first, second, tree, source?⟩ := s
  cases stage <;> cases hfirst : first.ssh? <;> cases hsecond : second.ssh? <;>
    simp [installedSsh?, Spec.withPrivateText, StageSpec.withPrivateText,
      InstalledSsh.withPrivateText, hfirst, hsecond]

/-- Merging goes on with the text of the key. -/
lemma ofSpec_withPrivateText (s : Spec) :
    ofSpec (s.withPrivateText stage user key) =
      (ofSpec s).withPrivateText stage user key := by
  have hport (o : Option InstalledSsh) :
      ((o.map (InstalledSsh.withPrivateText stage user key)).bind fun ssh =>
        ssh.settings.portMapping) = o.bind fun ssh => ssh.settings.portMapping := by
    cases o with
    | none => rfl
    | some ssh =>
      simp only [Option.map_some, Option.bind_some, InstalledSsh.withPrivateText]
      split <;> rfl
  have hports := hport (installedSsh? s)
  rw [← installedSsh?_withPrivateText] at hports
  unfold ofSpec withPrivateText
  dsimp only
  rw [hports, installedSsh?_withPrivateText]
  cases stage <;> rfl

end Merged

end TwoStage
