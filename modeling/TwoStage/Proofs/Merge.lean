import TwoStage.Merge
import TwoStage.Proofs.Document.Characters
import TwoStage.Proofs.Spec.WellFormed

/-!
# Nothing is lost or repeated between the stages

The views of the stages are made in part from the merged settings and in part from the checked
document itself. Taken together they agree: build scripts run in the stage that declares them and
all others also in the stage on top of it, a server is installed by one stage, which is the one that
publishes it, and a setting of the second stage takes the place of the first stage's field by field.
-/

namespace TwoStage

open Text Decimal

/-! ### Published servers -/

lemma trimBoth_digits (n : Nat) : trimBoth (digits n) = digits n :=
  trimBoth_of_forall fun c hc => by
    have hdigit : c.isDigit = true := Nat.isDigit_of_mem_toDigits (by decide) (by decide) hc
    exact isBlank_of_isAlphanum (by simp [Char.isAlphanum, hdigit])

/-- The port of a server, behind the one of the host if there is one. -/
def Ssh.mappedPort (s : Ssh) : String :=
  match s.hostPort? with
  | some host => natText host ++ ":" ++ natText s.port
  | none      => natText s.port

def Ssh.published (s : Ssh) : List String := if s.enabled then [s.mappedPort] else []

lemma Port.part?_digits (n : Nat) : part? (digits n) = some (digits n) := by
  have hne : digits n ≠ [] := Nat.toDigits_ne_nil
  rw [part?, trimBoth_digits, if_neg hne]

lemma Ssh.toList_portMapping (s : Ssh) : s.portMapping.toList = s.published := by
  obtain ⟨enabled, port, hostPort?, users⟩ := s
  cases enabled with
  | false => rfl
  | true =>
    cases hostPort? with
    | none =>
      simp [portMapping, published, mappedPort, Port.mapping, Port.join, natText, Port.part?_digits]
    | some host =>
      simp [portMapping, published, mappedPort, Port.mapping, Port.join, natText,
        Port.part?_digits, String.append_assoc]

lemma StageSpec.publishedPorts_eq (s : StageSpec) :
    s.publishedPorts = s.ports ++ s.ssh?.toList.flatMap Ssh.published := by
  cases h : s.ssh? <;> simp [publishedPorts, h, Ssh.toList_portMapping]

/-! ### Fields of the second stage -/

/-- A setting has the value of the second stage, and that of the first if the second has none. -/
def Layered {α : Type} (first second merged : Option α) : Prop :=
  ∀ v, merged = some v ↔ second = some v ∨ second = none ∧ first = some v

lemma layered_orElse {α : Type} (first second : Option α) :
    Layered first second (second <|> first) := by
  intro v
  cases second <;> simp

structure Proxy.Layered (first second merged : Proxy) : Prop where
  address : TwoStage.Layered first.address? second.address? merged.address?
  port : TwoStage.Layered first.port? second.port? merged.port?
  enableGlobally :
    TwoStage.Layered first.enableGlobally? second.enableGlobally? merged.enableGlobally?
  removeAfterBuild :
    TwoStage.Layered first.removeAfterBuild? second.removeAfterBuild? merged.removeAfterBuild?
  useHttps : TwoStage.Layered first.useHttps? second.useHttps? merged.useHttps?

lemma Proxy.layered_overriddenBy (s t : Proxy) : Proxy.Layered s t (s.overriddenBy t) := by
  constructor <;> exact layered_orElse _ _

structure Apt.Layered (first second merged : Apt) : Prop where
  repoSource : TwoStage.Layered first.repoSource? second.repoSource? merged.repoSource?
  keepRepoAfterBuild :
    TwoStage.Layered first.keepRepoAfterBuild? second.keepRepoAfterBuild? merged.keepRepoAfterBuild?
  useProxy : TwoStage.Layered first.useProxy? second.useProxy? merged.useProxy?
  keepProxyAfterBuild :
    TwoStage.Layered first.keepProxyAfterBuild? second.keepProxyAfterBuild?
      merged.keepProxyAfterBuild?

lemma Apt.layered_overriddenBy (s t : Apt) : Apt.Layered s t (s.overriddenBy t) := by
  constructor <;> exact layered_orElse _ _

/-! ### Scripts -/

lemma Scripts.entries_append (s t : Scripts) (hook : Hook) :
    (s.append t).entries hook = s.entries hook ++ t.entries hook := by
  cases hook <;> rfl

lemma Scripts.entries_set_of_ne {s : Scripts} {hook hook' : Hook} {es : List String}
    (hne : hook' ≠ hook) : (s.set hook es).entries hook' = s.entries hook' := by
  cases hook <;> cases hook' <;> first | rfl | exact absurd rfl hne

/-! ### Views -/

/-- What the merged settings and the views of the stages have of a checked document. -/
structure Spec.ShownAs (s : Spec) (m : Merged) (first second : StageView) : Prop where
  onBuild_first : first.scripts.onBuild = s.first.scripts.onBuild
  onBuild_second : second.scripts.onBuild = s.second.scripts.onBuild
  hook_first : ∀ hook ≠ .onBuild, first.scripts.entries hook = s.first.scripts.entries hook
  hook_second : ∀ hook ≠ .onBuild, second.scripts.entries hook =
    s.first.scripts.entries hook ++ s.second.scripts.entries hook
  entryPoint : ∀ e, second.entryPoint? = some e ↔ s.second.scripts.onEntry = [e] ∨
    s.second.scripts.onEntry = [] ∧ s.first.scripts.onEntry = [e]
  ssh_second : second.ssh? = s.second.ssh?
  ssh_first : first.ssh? = if s.second.ssh? = none then s.first.ssh? else none
  ssh_once : first.ssh? = none ∨ second.ssh? = none
  ports : m.ports = s.first.ports ++ s.second.ports ++
    (s.second.ssh? <|> s.first.ssh?).toList.flatMap Ssh.published
  ports_first : first.ports = s.first.ports ++ first.ssh?.toList.flatMap Ssh.published
  ports_second : second.ports = m.ports
  proxy : Proxy.Layered s.first.proxy s.second.proxy m.proxy
  proxy_first : first.proxy = s.first.proxy
  proxy_second : second.proxy = m.proxy
  apt : Apt.Layered s.first.apt s.second.apt m.apt
  apt_first : first.apt = s.first.apt
  apt_second : second.apt = m.apt

/-- The merged settings have nothing but the first stage's. -/
structure Spec.StandsAlone (s : Spec) (m : Merged) : Prop where
  environment : m.environment = s.first.environment
  proxy : m.proxy = s.first.proxy
  apt : m.apt = s.first.apt
  device : m.device = s.first.device?.getD .cpu
  scripts : m.scripts = s.first.scripts
  ports : m.ports = s.first.publishedPorts

namespace Merged

lemma sshOf_first (s : Spec) :
    StageView.sshOf (ofSpec s) .first = if s.second.ssh? = none then s.first.ssh? else none := by
  cases h₁ : s.first.ssh? <;> cases h₂ : s.second.ssh? <;>
    simp [StageView.sshOf, ofSpec, installedSsh?, h₁, h₂]

lemma sshOf_second (s : Spec) : StageView.sshOf (ofSpec s) .second = s.second.ssh? := by
  cases h₁ : s.first.ssh? <;> cases h₂ : s.second.ssh? <;>
    simp [StageView.sshOf, ofSpec, installedSsh?, h₁, h₂]

lemma ports_ofSpec (s : Spec) : (ofSpec s).ports = s.first.ports ++ s.second.ports ++
    (s.second.ssh? <|> s.first.ssh?).toList.flatMap Ssh.published := by
  cases h₁ : s.first.ssh? <;> cases h₂ : s.second.ssh? <;>
    simp [ofSpec, installedSsh?, h₁, h₂, Ssh.toList_portMapping]

end Merged

namespace StageView

open Merged

/-- The first stage publishes a server that it installs, and no other. -/
lemma ports_first (s : Spec) : (of s (.ofSpec s) .first).ports =
    s.first.ports ++ (of s (.ofSpec s) .first).ssh?.toList.flatMap Ssh.published := by
  simp only [of, sshOf_first]
  by_cases h₂ : s.second.ssh? = none
  · simp only [if_pos h₂]
    split
    next => exact s.first.publishedPorts_eq
    next hnone => simp [Option.not_isSome_iff_eq_none.1 hnone]
  · simp [if_neg h₂]

/-- Of two stages with at most one entry point each, the second's is the last one. -/
lemma entryPoint?_second {s : Spec} (h₁ : s.first.scripts.onEntry.length ≤ 1)
    (h₂ : s.second.scripts.onEntry.length ≤ 1) (e : String) :
    (of s (.ofSpec s) .second).entryPoint? = some e ↔ s.second.scripts.onEntry = [e] ∨
      s.second.scripts.onEntry = [] ∧ s.first.scripts.onEntry = [e] := by
  change (s.first.scripts.onEntry ++ s.second.scripts.onEntry).getLast? = some e ↔ _
  rcases hfirst : s.first.scripts.onEntry with - | ⟨a, - | ⟨a', as⟩⟩ <;>
    rcases hsecond : s.second.scripts.onEntry with - | ⟨b, - | ⟨b', bs⟩⟩ <;>
    simp_all

end StageView

namespace Spec

open Merged StageView

lemma shownAs {s : Spec} (h₁ : s.first.scripts.onEntry.length ≤ 1)
    (h₂ : s.second.scripts.onEntry.length ≤ 1) :
    s.ShownAs (.ofSpec s) (.of s (.ofSpec s) .first) (.of s (.ofSpec s) .second) := by
  constructor
  case onBuild_first | onBuild_second => rfl
  case hook_first => exact fun _ _ => rfl
  case hook_second =>
    intro hook hne
    exact (Scripts.entries_set_of_ne hne).trans (Scripts.entries_append _ _ hook)
  case entryPoint => exact entryPoint?_second h₁ h₂
  case ssh_second => exact sshOf_second s
  case ssh_first => exact sshOf_first s
  case ssh_once =>
    by_cases hnone : s.second.ssh? = none
    · exact .inr ((sshOf_second s).trans hnone)
    · exact .inl ((sshOf_first s).trans (if_neg hnone))
  case ports => exact ports_ofSpec s
  case ports_first => exact ports_first s
  case ports_second => rfl
  case proxy => exact Proxy.layered_overriddenBy _ _
  case proxy_first | proxy_second => rfl
  case apt => exact Apt.layered_overriddenBy _ _
  case apt_first | apt_second => rfl

lemma standsAlone {s : Spec} {image : String} (hsecond : s.second = .withOutput .empty image) :
    s.StandsAlone (.ofSpec s) := by
  constructor
  case ports =>
    rw [ports_ofSpec, hsecond, StageSpec.publishedPorts_eq]
    simp [StageSpec.withOutput, StageSpec.empty]
  all_goals simp only [ofSpec, hsecond, StageSpec.withOutput, StageSpec.empty]
  case environment => rfl
  case proxy => simp [Proxy.overriddenBy, Proxy.empty]
  case apt => simp [Apt.overriddenBy, Apt.empty]
  case device => simp
  case scripts => simp [Scripts.append, Scripts.empty]

/-- The merged settings and the views of a checked document lose nothing of its stages and repeat
nothing, and without a second stage the first one stands alone. -/
theorem shownAs_of_ofDocument {dir : Path} {d : Document} {s : Spec}
    (h : ofDocument dir d = .ok s) :
    s.ShownAs (.ofSpec s) (.of s (.ofSpec s) .first) (.of s (.ofSpec s) .second) ∧
      (d.second? = none → s.StandsAlone (.ofSpec s)) := by
  obtain ⟨section₁, first, second, -, h₁, hsecond, -, rfl⟩ := ofDocument_eq_ok_iff.1 h
  have hfirst : first.scripts.onEntry.length ≤ 1 := (StageSpec.ofSection_eq_ok_iff.1 h₁).entryPoint
  rcases hsecond with ⟨-, rfl⟩ | ⟨section₂, hsome, h₂⟩
  · exact ⟨shownAs hfirst (Nat.zero_le 1), fun _ => standsAlone rfl⟩
  · have hlast : second.scripts.onEntry.length ≤ 1 :=
      (StageSpec.ofSection_eq_ok_iff.1 h₂).entryPoint
    refine ⟨shownAs hfirst hlast, fun hnone => ?_⟩
    simp [hnone] at hsome

/-- A server that the second stage disables is not published by the first, whose build script is not
run again; on its own, the first stage publishes its server. -/
theorem shownAs_of_disabled_server :
    (∃ d s, Document.ofText (fun _ => none)
      ("stage_1:\n image: \x7bbase: a\x7d\n" ++
        " ssh: \x7busers: \x7ba: \x7bpassword: p\x7d\x7d\x7d\n" ++
        " proxy: \x7baddress: p, port: 1\x7d\n custom: \x7bon_build: [b], on_entry: [e]\x7d\n" ++
        "stage_2:\n ports: ['90']\n ssh: \x7benable: false\x7d\n proxy: \x7bport: 2\x7d") = .ok d ∧
      ofDocument (Path.ofString "/p") d = .ok s ∧
      s.ShownAs (.ofSpec s) (.of s (.ofSpec s) .first) (.of s (.ofSpec s) .second) ∧
      (of s (.ofSpec s) .first).ports = [] ∧ (of s (.ofSpec s) .second).ports = ["90"] ∧
      (of s (.ofSpec s) .second).entryPoint? = some "e" ∧
      (of s (.ofSpec s) .second).scripts.onBuild = [] ∧
      (of s (.ofSpec s) .second).proxy.url? = some "http://p:2") ∧
    ∃ d s, Document.ofText (fun _ => none)
      ("stage_1:\n image: \x7bbase: a\x7d\n ports: ['80']\n" ++
        " ssh: \x7bhost_port: 2222, users: \x7ba: \x7bpassword: p\x7d\x7d\x7d") = .ok d ∧
      ofDocument (Path.ofString "/p") d = .ok s ∧ d.second? = none ∧
      s.StandsAlone (.ofSpec s) ∧ (ofSpec s).ports = ["80", "2222:22"] := by
  constructor
  · have hrun : ((Document.ofText (fun _ => none)
        ("stage_1:\n image: \x7bbase: a\x7d\n" ++
          " ssh: \x7busers: \x7ba: \x7bpassword: p\x7d\x7d\x7d\n" ++
          " proxy: \x7baddress: p, port: 1\x7d\n custom: \x7bon_build: [b], on_entry: [e]\x7d\n" ++
          "stage_2:\n ports: ['90']\n ssh: \x7benable: false\x7d\n proxy: \x7bport: 2\x7d")
        ).toOption.bind fun d => (ofDocument (Path.ofString "/p") d).toOption.map fun s =>
          decide ((of s (.ofSpec s) .first).ports = [] ∧
            (of s (.ofSpec s) .second).ports = ["90"] ∧
            (of s (.ofSpec s) .second).entryPoint? = some "e" ∧
            (of s (.ofSpec s) .second).scripts.onBuild = [] ∧
            (of s (.ofSpec s) .second).proxy.url? = some "http://p:2")) = some true := by
      rw [Document.ofText_eq_ofChars, String.toList_append, String.toList_append,
        String.toList_append, String.toList_ofList, String.toList_ofList, String.toList_ofList,
        String.toList_ofList]
      decide +kernel
    obtain ⟨d, hd, hrun⟩ := Outcome.toOption_bind_eq_some_iff.1 hrun
    obtain ⟨s, hs, hrun⟩ := Outcome.toOption_map_eq_some_iff.1 hrun
    exact ⟨d, s, hd, hs, (shownAs_of_ofDocument hs).1, of_decide_eq_true hrun⟩
  · have hrun : ((Document.ofText (fun _ => none)
        ("stage_1:\n image: \x7bbase: a\x7d\n ports: ['80']\n" ++
          " ssh: \x7bhost_port: 2222, users: \x7ba: \x7bpassword: p\x7d\x7d\x7d")
        ).toOption.bind fun d => (ofDocument (Path.ofString "/p") d).toOption.map fun s =>
          decide (d.second?.isNone = true ∧ (ofSpec s).ports = ["80", "2222:22"])) =
        some true := by
      rw [Document.ofText_eq_ofChars, String.toList_append, String.toList_ofList,
        String.toList_ofList]
      decide +kernel
    obtain ⟨d, hd, hrun⟩ := Outcome.toOption_bind_eq_some_iff.1 hrun
    obtain ⟨s, hs, hrun⟩ := Outcome.toOption_map_eq_some_iff.1 hrun
    obtain ⟨hnone, hports⟩ := of_decide_eq_true hrun
    have hsecond := Option.isNone_iff_eq_none.1 hnone
    exact ⟨d, s, hd, hs, hsecond, (shownAs_of_ofDocument hs).2 hsecond, hports⟩

end Spec

end TwoStage
