import TwoStage.Proofs.Compilation.Prepared
import TwoStage.Proofs.Credentials.Users
import TwoStage.Proofs.Layout.Arguments
import TwoStage.Proofs.Mount.Rules

/-!
# Build arguments that a document writes

Most build arguments are made up by the compilation. Four kinds of them hand on a text as the
document has it: the address of the proxy, the source of packages, the passwords of users, and where
storage in the image is. Here it is said for each of them which text of the document that is.
-/

namespace TwoStage

open Text Decimal

/-! ### Texts of a document -/

namespace StageSection

def proxyAddress? (x : StageSection) : Option String := x.proxy?.bind Proxy.address?

def repoSource? (x : StageSection) : Option String := x.apt?.bind Apt.repoSource?

end StageSection

/-- What a document says for a stage: the second one goes by the first where it says nothing. -/
def Document.written? (d : Document) (field : StageSection → Option String) : Stage → Option String
  | .first  => (d.section? .first).bind field
  | .second => (d.section? .second).bind field <|> (d.section? .first).bind field

/-- The build argument of a stage has a value in which a text of the document stands: all of it,
what is between the scheme and the port of the proxy, or one of the places of storage in the image.
-/
inductive Document.Writes (d : Document) (stage : Stage) : String → String → String → Prop
  | proxy {scheme address : String} {port : Nat}
      (written : d.written? StageSection.proxyAddress? stage = some address) :
      Writes d stage "PROXY_URL" (scheme ++ "://" ++ address ++ ":" ++ natText port) address
  | packages {source : String}
      (written : d.written? StageSection.repoSource? stage = some source) :
      Writes d stage "APT_REPO_SOURCE" source source
  | password {x : StageSection} {ssh : SshSection} {i : Nat} {name : String} {user : UserSection}
      {password : String} (stageSection : d.section? stage = some x) (server : x.ssh? = some ssh)
      (entry : ssh.users.entries[i]? = some (name, user))
      (written : user.password? = some password) :
      Writes d stage (BuildArguments.userName i "PASSWORD") password password
  | storage {x : StageSection} {key : String} {s : StorageSection} {destination : String}
      {destinations : List String} (stageSection : d.section? stage = some x)
      (entry : (key, s) ∈ x.storage.entries) (kind : s.kind = .image)
      (written : s.destination? = some destination) (listed : destination ∈ destinations) :
      Writes d stage "IMAGE_STORAGE_DIRS" (BuildArguments.commaSeparated destinations) destination

/-- Storage of a checked stage is declared in its section, under a category. -/
lemma Spec.exists_of_mem_storage {dir : Path} {d : Document} {s : Spec}
    (h : ofDocument dir d = .ok s) {stage : Stage} {e : String × StorageSection}
    (he : e ∈ (s.stage stage).storage.entries) :
    e.1 ∈ storageCategories ∧ ∃ x, d.section? stage = some x ∧ e ∈ x.storage.entries := by
  obtain ⟨t, image, heq, ⟨-, rfl⟩ | ⟨x, hsome, hread⟩⟩ := stage_of_ofDocument h stage
  · simp [heq, StageSpec.withOutput, StageSpec.empty, OrderedMap.empty] at he
  · have hchecked := StageSpec.ofSection_eq_ok_iff.1 hread
    rw [heq, StageSpec.withOutput, hchecked.rest] at he
    exact ⟨StageSpec.mem_of_checkCategories hchecked.categories _ (List.mem_map_of_mem he),
      x, hsome, he⟩

/-- The address of a proxy stands between its scheme and its port. -/
lemma Proxy.exists_of_url? {s : Proxy} {value : String} (h : s.url? = some value) :
    ∃ scheme address port, scheme ∈ ["https", "http"] ∧ s.address? = some address ∧
      value = scheme ++ "://" ++ address ++ ":" ++ natText port := by
  unfold url? at h
  split at h
  next address port haddress _ =>
    refine ⟨_, address, port, ?_, haddress, (Option.some.inj h).symm⟩
    split <;> simp
  next => simp at h

namespace Compilation.Prepared

variable {ctx : Context} {generator : Generator} {d : Document} {c : Compilation}
  {source? : Option Path} {stage : Stage} {settings : Ssh}

/-! ### Fields of sections -/

/-- A field that a checked stage takes over from its section, and a view from its stages, is in the
view as the document says. -/
lemma field_view (h : Prepared ctx generator { d with source? } c)
    {field : StageSection → Option String} {f : StageSpec → Option String}
    {g : StageView → Option String} (hempty : ∀ image, f (StageSpec.empty.withOutput image) = none)
    (hsection : ∀ stage x t image, StageSpec.CheckedFrom stage x t →
      f (t.withOutput image) = field x)
    (hfirst : ∀ s m, g (.of s m .first) = f s.first)
    (hsecond : ∀ s, g (.of s (.ofSpec s) .second) = (f s.second <|> f s.first)) (stage : Stage) :
    g (c.view stage) = d.written? field stage := by
  have hstage (stage : Stage) : f (c.spec.stage stage) = (d.section? stage).bind field := by
    rw [← Document.section?_with_source d source?]
    obtain ⟨t, image, heq, ⟨hnone, rfl⟩ | ⟨x, hsome, hread⟩⟩ :=
      Spec.stage_of_ofDocument h.spec stage
    · rw [heq, hnone, hempty, Option.bind_none]
    · rw [heq, hsome, hsection stage x t image (StageSpec.ofSection_eq_ok_iff.1 hread),
        Option.bind_some]
  rw [view_eq h]
  cases stage with
  | first => exact (hfirst _ _).trans (hstage .first)
  | second =>
    rw [hsecond, Document.written?, ← hstage .first, ← hstage .second]
    rfl

lemma proxyAddress?_view (h : Prepared ctx generator { d with source? } c) (stage : Stage) :
    (c.view stage).proxy.address? = d.written? StageSection.proxyAddress? stage := by
  apply h.field_view (f := fun t => t.proxy.address?) (g := fun v => v.proxy.address?)
  case hempty | hfirst | hsecond => intros; rfl
  case hsection =>
    intro stage x t image hchecked
    rw [StageSpec.withOutput, hchecked.rest]
    cases hproxy : x.proxy? <;> simp [StageSection.proxyAddress?, hproxy, Proxy.empty]

lemma repoSource?_view (h : Prepared ctx generator { d with source? } c) (stage : Stage) :
    (c.view stage).apt.repoSource? = d.written? StageSection.repoSource? stage := by
  apply h.field_view (f := fun t => t.apt.repoSource?) (g := fun v => v.apt.repoSource?)
  case hempty | hfirst | hsecond => intros; rfl
  case hsection =>
    intro stage x t image hchecked
    rw [StageSpec.withOutput, hchecked.rest]
    cases hapt : x.apt? <;> simp [StageSection.repoSource?, hapt, Apt.empty]

/-! ### Users -/

/-- The users that keys are resolved for are those of the stage's section, in order. -/
lemma exists_users (h : Prepared ctx generator { d with source? } c)
    (hssh : c.merged.ssh? = some ⟨stage, settings⟩) (henabled : settings.enabled = true) :
    ∃ x ssh, d.section? stage = some x ∧ x.ssh? = some ssh ∧
      c.users.map KeyedUser.name = ssh.users.keys ∧
      c.users.map KeyedUser.password? = ssh.users.entries.map fun e => e.2.password? := by
  obtain ⟨x, ssh, hx, hserver, hread⟩ := Spec.exists_ssh_of_ofDocument h.spec (h.installed hssh)
  rw [Document.section?_with_source] at hx
  rcases resolveKeys_eq_ok_iff.1 h.credentials with ⟨hoff, -⟩ | ⟨installed, hinstalled, -, hresolve⟩
  · exact absurd henabled (hoff _ hssh)
  · obtain rfl := Option.some.inj (hssh.symm.trans hinstalled)
    refine ⟨x, ssh, hx, hserver, ?_, ?_⟩
    · rw [users, Credentials.names_of_resolve hresolve, Ssh.names_of_ofSection hread]
    · have hkeyed : c.credentials.users.map KeyedUser.password? =
          settings.users.map User.password? :=
        Credentials.map_users_of_resolve
          (fun _ _ _ hu => (Credentials.completeIn_of_resolveUser hu).1.password) hresolve
      rw [users, hkeyed]
      exact Ssh.map_users_of_ofSection (fun _ _ _ hu => hu.password) hread

/-! ### Storage -/

/-- Storage in the image is where its declaration says, or where its category belongs. -/
lemma exists_of_mem_inImage (h : Prepared ctx generator { d with source? } c) {destination : String}
    (hmem : destination ∈ BuildArguments.inImage (c.mounts stage)) :
    ∃ x key s, d.section? stage = some x ∧ (key, s) ∈ x.storage.entries ∧ s.kind = .image ∧
      (s.destination? = some destination ∨
        key ∈ storageCategories ∧ destination = Storage.imageRoot ++ "/" ++ key) := by
  obtain ⟨m, hm, rfl⟩ := List.mem_map.1 hmem
  obtain ⟨hm, htarget⟩ := List.mem_filter.1 hm
  obtain ⟨⟨scope, key, s⟩, hdeclared, hresolve⟩ := Outcome.exists_of_mem_mapM (h.mounts stage) hm
  obtain ⟨source, destination, target, path, hkept, hdestination, hmounted, rfl⟩ :=
    exists_of_resolveMount hresolve
  obtain rfl : target = .inImage := of_decide_eq_true htarget
  cases hmounted with
  | image hsource =>
    obtain rfl : source = .image := hsource
    cases hkept with
    | image hkind =>
      have hentry : (key, s) ∈ (c.spec.stage stage).storage.entries := by
        simpa using hdeclared
      obtain ⟨hcategory, x, hx, hentry⟩ := Spec.exists_of_mem_storage h.spec hentry
      rw [Document.section?_with_source] at hx
      refine ⟨x, key, s, hx, hentry, hkind, ?_⟩
      rcases (Option.orElse_eq_some _ _ _).1 hdestination with hset | ⟨-, hset⟩
      · exact .inl (Option.filter_eq_some_iff.1 hset).1
      · exact .inr ⟨hcategory, (Option.some.inj hset).symm⟩

/-! ### Arguments -/

/-- What is between the commas of a proxy's address, and has no colon, is between those of the
document's text. -/
lemma exists_writes_proxy (h : Prepared ctx generator { d with source? } c) {value part : String}
    (hvalue : (c.view stage).proxy.url? = some value) (hpart : part ∈ split ',' value)
    (hcolon : ':' ∉ part.toList) :
    ∃ text, d.Writes stage "PROXY_URL" value text ∧ part ∈ split ',' text := by
  obtain ⟨scheme, address, port, hscheme, haddress, rfl⟩ := Proxy.exists_of_url? hvalue
  rw [h.proxyAddress?_view] at haddress
  refine ⟨address, .proxy haddress, ?_⟩
  obtain ⟨cs, hcs, rfl⟩ := List.mem_map.1 hpart
  rw [String.toList_ofList] at hcolon
  have hchars : (scheme ++ "://" ++ address ++ ":" ++ natText port).toList =
      (scheme ++ "://").toList ++ address.toList ++ (":" ++ natText port).toList := by
    simp [String.toList_append]
  have hfront : ',' ∉ (scheme ++ "://").toList :=
    (by decide : ∀ scheme ∈ ["https", "http"], ',' ∉ (scheme ++ "://").toList) scheme hscheme
  have hback : ',' ∉ (":" ++ natText port).toList := by
    rw [String.toList_append, List.mem_append, not_or]
    exact ⟨by decide, notMem_natText (by decide) port⟩
  rw [hchars] at hcs
  rcases mem_splitAll_around hfront hback hcs with hmem | hstart | hend
  · exact List.mem_map_of_mem hmem
  · exact absurd (hstart.subset (by simp [String.toList_append])) hcolon
  · exact absurd (hend.subset (by simp [String.toList_append])) hcolon

lemma writes_packages (h : Prepared ctx generator { d with source? } c) {value : String}
    (hvalue : (c.view stage).apt.repoSource? = some value) :
    d.Writes stage "APT_REPO_SOURCE" value value := by
  rw [h.repoSource?_view] at hvalue
  exact .packages hvalue

/-- The password of a user is that of the entry with the user's number. -/
lemma writes_password (h : Prepared ctx generator { d with source? } c)
    (hssh : c.merged.ssh? = some ⟨stage, settings⟩) (henabled : settings.enabled = true) {i : Nat}
    {u : KeyedUser} (hu : c.users[i]? = some u) {value : String}
    (hvalue : u.password? = some value) :
    d.Writes stage (BuildArguments.userName i "PASSWORD") value value := by
  obtain ⟨x, ssh, hx, hserver, -, hpasswords⟩ := h.exists_users hssh henabled
  have hentry : (ssh.users.entries.map fun e => e.2.password?)[i]? = some (some value) := by
    rw [← hpasswords, List.getElem?_map, hu, Option.map_some, hvalue]
  rw [List.getElem?_map] at hentry
  obtain ⟨⟨name, user⟩, hentry, hpassword⟩ := Option.map_eq_some_iff.1 hentry
  exact .password hx hserver hentry hpassword

/-- What is between the commas of the places of storage in the image, and not where a category
belongs, is between those of a text of the document. -/
lemma exists_writes_storage (h : Prepared ctx generator { d with source? } c) {value part : String}
    (hvalue : BuildArguments.listValue? (BuildArguments.inImage (c.mounts stage)) = some value)
    (hpart : part ∈ split ',' value)
    (hstandard : ∀ key ∈ storageCategories, part ∉ split ',' (Storage.imageRoot ++ "/" ++ key)) :
    ∃ text, d.Writes stage "IMAGE_STORAGE_DIRS" value text ∧ part ∈ split ',' text := by
  obtain ⟨hne, rfl⟩ := BuildArguments.listValue?_eq_some_iff.1 hvalue
  rw [BuildArguments.split_commaSeparated hne] at hpart
  obtain ⟨destination, hmem, hpart⟩ := List.mem_flatMap.1 hpart
  obtain ⟨x, key, s, hx, hentry, hkind, hset | ⟨hcategory, rfl⟩⟩ := h.exists_of_mem_inImage hmem
  · exact ⟨destination, .storage hx hentry hkind hset hmem, hpart⟩
  · exact absurd hpart (hstandard key hcategory)

end Compilation.Prepared

end TwoStage
