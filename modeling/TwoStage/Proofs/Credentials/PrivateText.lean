import TwoStage.Proofs.Credentials.Files
import TwoStage.Proofs.Credentials.Tidy
import TwoStage.Proofs.Spec.PrivateText

/-!
# The files of a user with another private key

Of a private key that is given as text, only its public half goes beyond the file that it is put
into. So another key with that public half, or another one of which none is known, changes what
stands in this file and nothing else about the users.
-/

namespace TwoStage

/-- The files are at one path, and what stands in them differs only if that is the given one. -/
structure KeyFile.SameBut (place : Path) (f f' : KeyFile) : Prop where
  path : f'.path = f.path
  contents : f.path ≠ place → f'.contents = f.contents

/-- The users differ at most in what stands in the file of the private key at the given path. -/
structure KeyedUser.SameBut (place : Path) (u u' : KeyedUser) : Prop where
  eq : u' = { u with privateKey? := u'.privateKey? }
  privateKey : Option.Rel (KeyFile.SameBut place) u.privateKey? u'.privateKey?

@[refl] lemma KeyFile.SameBut.refl (place : Path) (f : KeyFile) : f.SameBut place f :=
  ⟨rfl, fun _ => rfl⟩

@[refl] lemma KeyedUser.SameBut.refl (place : Path) (u : KeyedUser) : u.SameBut place u := by
  refine ⟨rfl, ?_⟩
  cases u.privateKey? with
  | none => exact .none
  | some f => exact .some (.refl place f)

/-- The file of the private key that a user of a stage is given. -/
def Credentials.privatePath (stage : Stage) (user : String) : Path :=
  (keyDir stage user).child "privkey"

variable {ctx : Context} {generator : Generator} {stage : Stage} {user key key' : String}

namespace Credentials

section

variable {u : User} (hhalf : Key.publicHalf key' = Key.publicHalf key)

include hhalf

lemma exists_privateFiles_text {dir : Path} {half : List KeyFile} {key? : Option KeyFile}
    (hkey : u.privateKey = .text key) (h : privateFiles ctx dir u = .ok (half, key?)) :
    ∃ key'?, privateFiles ctx dir { u with privateKey := .text key' } = .ok (half, key'?) ∧
      Option.Rel (KeyFile.SameBut (dir.child "privkey")) key? key'? := by
  obtain ⟨found, hfound, h⟩ := Outcome.bind_eq_ok_iff.1 h
  rw [hkey] at hfound
  obtain rfl := Except.ok.inj hfound
  obtain ⟨derived, hderived, h⟩ := Outcome.bind_eq_ok_iff.1 h
  obtain ⟨rfl, rfl⟩ := Prod.mk.inj (Outcome.pure_eq_ok_iff.1 h)
  have hsame : Key.derive u.name (tidy key') = Key.derive u.name (tidy key) := by
    rw [Key.derive, Key.derive, Key.publicHalf_tidy, Key.publicHalf_tidy, hhalf]
  refine ⟨some ⟨dir.child "privkey", tidy key', .text⟩, ?_, .some ⟨rfl, fun hne => ?_⟩⟩
  · exact Outcome.bind_eq_ok_iff.2 ⟨_, rfl, Outcome.bind_eq_ok_iff.2 ⟨_, hsame.trans hderived, rfl⟩⟩
  · exact absurd rfl hne

omit hhalf in
/-- No pair is made for a user with a private key, whatever it is. -/
lemma freshFiles_text (dir : Path) (key' : String) (hkey : u.privateKey = .text key) :
    freshFiles ctx generator stage dir { u with privateKey := .text key' } =
      freshFiles ctx generator stage dir u := by
  simp [freshFiles, hkey, KeySource.isAbsent]

variable (hkey : u.name = user → u.privateKey = .text key)

include hkey

lemma exists_resolveUser_givePrivateText {keyed : KeyedUser} {requests : List String}
    (h : resolveUser ctx generator stage u = .ok (keyed, requests)) :
    ∃ keyed', resolveUser ctx generator stage (u.givePrivateText user key') =
        .ok (keyed', requests) ∧ keyed.SameBut (privatePath stage user) keyed' := by
  by_cases hname : u.name = user
  · rw [User.givePrivateText, if_pos hname]
    obtain ⟨given, half, fresh, hgiven, hprivate, hfresh, heq⟩ := resolveUser_eq_ok_iff.1 h
    obtain ⟨key'?, hprivate', hsame⟩ := exists_privateFiles_text hhalf (hkey hname) hprivate
    rw [← freshFiles_text _ key' (hkey hname)] at hfresh
    refine ⟨{ keyed with privateKey? := key'? }, ?_, rfl, ?_⟩
    · refine resolveUser_eq_ok_iff.2 ⟨given, half, fresh, hgiven, hprivate', hfresh, ?_⟩
      rw [heq]
    · rw [privatePath, ← hname]
      exact hsame
  · rw [User.givePrivateText, if_neg hname]
    exact ⟨keyed, h, .refl _ keyed⟩

lemma exists_checkAndResolve_givePrivateText {found : KeyedUser × List String}
    (h : checkAndResolve ctx generator stage u = .ok found) :
    ∃ keyed', checkAndResolve ctx generator stage (u.givePrivateText user key') =
        .ok (keyed', found.2) ∧ found.1.SameBut (privatePath stage user) keyed' := by
  obtain ⟨hlogin, h⟩ := checkAndResolve_eq_ok_iff.1 h
  obtain ⟨keyed', hresolve, hsame⟩ := exists_resolveUser_givePrivateText hhalf hkey h
  have hlogin' : (u.givePrivateText user key').hasLoginMethod = true := by
    unfold User.givePrivateText
    split
    next => simp [User.hasLoginMethod, KeySource.isAbsent]
    next => exact hlogin
  exact ⟨keyed', checkAndResolve_eq_ok_iff.2 ⟨hlogin', hresolve⟩, hsame⟩

end

/-- All users come to the same, but for what stands in the file of the private key. -/
lemma exists_resolve_withPrivateText {ssh : InstalledSsh} {credentials : Credentials}
    (hhalf : Key.publicHalf key' = Key.publicHalf key)
    (hkey : ssh.settings.HasPrivateText user key)
    (h : resolve ctx generator ssh = .ok credentials) :
    ∃ users, resolve ctx generator { ssh with settings := ssh.settings.withPrivateText user key' } =
        .ok ⟨users, credentials.requests⟩ ∧
      List.Forall₂ (KeyedUser.SameBut (privatePath ssh.stage user)) credentials.users users := by
  obtain ⟨resolved, hresolved, rfl⟩ := resolve_eq_ok_iff.1 h
  suffices hagain : ∃ resolved', List.Forall₂ (fun u found =>
        checkAndResolve ctx generator ssh.stage u = .ok found)
      (ssh.settings.users.map (User.givePrivateText user key')) resolved' ∧
      resolved'.map Prod.snd = resolved.map Prod.snd ∧
      List.Forall₂ (KeyedUser.SameBut (privatePath ssh.stage user)) (resolved.map Prod.fst)
        (resolved'.map Prod.fst) by
    obtain ⟨resolved', hresolved', hrequests, hsame⟩ := hagain
    refine ⟨resolved'.map Prod.fst, ?_, hsame⟩
    refine resolve_eq_ok_iff.2 ⟨resolved', hresolved', ?_⟩
    rw [List.flatMap_def, List.flatMap_def, hrequests]
  -- each user is resolved alone, so the induction is on the users and the results at once
  clear h
  unfold Ssh.HasPrivateText at hkey
  generalize ssh.settings.users = us at hresolved hkey ⊢
  induction hresolved with
  | nil => exact ⟨[], .nil, rfl, .nil⟩
  | cons hread _ ih =>
    rw [List.forall_mem_cons] at hkey
    obtain ⟨keyed', hread', hsame⟩ := exists_checkAndResolve_givePrivateText hhalf hkey.1 hread
    obtain ⟨resolved', hresolved', hrequests, hsames⟩ := ih hkey.2
    exact ⟨_, .cons hread' hresolved', by simp [hrequests], .cons hsame hsames⟩

end Credentials

/-- The users of merged settings come to the same, but for what stands in the file of the private
key. -/
lemma Compilation.exists_resolveKeys_withPrivateText {m : Merged} {credentials : Credentials}
    (hhalf : Key.publicHalf key' = Key.publicHalf key)
    (hkey : ∀ ssh ∈ m.ssh?, ssh.stage = stage → ssh.settings.HasPrivateText user key)
    (h : resolveKeys ctx generator m = .ok credentials) :
    ∃ users, resolveKeys ctx generator (m.withPrivateText stage user key') =
        .ok ⟨users, credentials.requests⟩ ∧
      List.Forall₂ (KeyedUser.SameBut (Credentials.privatePath stage user)) credentials.users
        users := by
  rcases resolveKeys_eq_ok_iff.1 h with ⟨hoff, rfl⟩ | ⟨ssh, hssh, henabled, h⟩
  · refine ⟨[], resolveKeys_eq_ok_iff.2 (.inl ⟨?_, rfl⟩), .nil⟩
    simp only [Merged.withPrivateText, Option.mem_map, forall_exists_index, and_imp]
    rintro _ ssh hssh rfl
    unfold InstalledSsh.withPrivateText
    split <;> exact hoff ssh hssh
  · have hssh' : ssh.withPrivateText stage user key' ∈ (m.withPrivateText stage user key').ssh? :=
      Option.mem_map_of_mem _ hssh
    by_cases hstage : ssh.stage = stage
    · obtain ⟨users, hresolve, hsame⟩ :=
        Credentials.exists_resolve_withPrivateText hhalf (hkey ssh hssh hstage) h
      rw [InstalledSsh.withPrivateText, if_pos hstage] at hssh'
      exact ⟨users, resolveKeys_eq_ok_iff.2 (.inr ⟨_, hssh', henabled, hresolve⟩), hstage ▸ hsame⟩
    · rw [InstalledSsh.withPrivateText, if_neg hstage] at hssh'
      exact ⟨credentials.users, resolveKeys_eq_ok_iff.2 (.inr ⟨ssh, hssh', henabled, h⟩),
        List.forall₂_same.2 fun u _ => .refl _ u⟩

end TwoStage
