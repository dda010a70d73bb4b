import TwoStage.Proofs.Document.Characters
import TwoStage.Proofs.Merge

/-!
# Empty parts of ports

No port ends with an empty part. A port starts with one where an entry starts with a colon and has
another colon behind what follows, be it inside a marker: such an entry is kept as it is written,
and any other loses the empty parts in front of its container port. The ports of the merged settings
and of the views start with an empty part just there, as the port of a server has none.
-/

namespace TwoStage

open Text

namespace Port

def StartsEmpty (port : String) : Prop := port.toList.head? = some ':'

def EndsEmpty (port : String) : Prop := port.toList.getLast? = some ':'

/-- The entry starts with a colon and has another one behind what follows its first colons. -/
def IsHeadless (entry : String) : Prop :=
  entry.toList.head? = some ':' ∧ ':' ∈ entry.toList.dropWhile (· == ':')

instance (port : String) : Decidable (StartsEmpty port) :=
  inferInstanceAs (Decidable (port.toList.head? = some ':'))

instance (port : String) : Decidable (EndsEmpty port) :=
  inferInstanceAs (Decidable (port.toList.getLast? = some ':'))

instance (entry : String) : Decidable (IsHeadless entry) :=
  inferInstanceAs (Decidable (_ ∧ _))

/-! ### The form of an entry -/

variable {entry port : List Char}

lemma getLast?_ne_of_normalizeTrimmed (h : normalizeTrimmed entry = .ok (some port)) :
    entry.getLast? ≠ some ':' := by
  have hlast {host container : List Char} (hcolon : ':' ∉ container)
      (hne : trimBoth container ≠ []) : (host ++ ':' :: container).getLast? ≠ some ':' := by
    obtain ⟨c, cs, rfl⟩ : ∃ c cs, container = c :: cs :=
      List.exists_cons_of_ne_nil (by rintro rfl; exact hne rfl)
    rw [List.append_cons, List.getLast?_append_cons]
    exact fun h => hcolon (List.mem_of_getLast? h)
  cases normalizeTrimmed_eq_ok_iff.1 h with
  | bare hne hcolon => exact fun h => hcolon (List.mem_of_getLast? h)
  | dropped hvacant hcolon hne => exact hlast hcolon hne
  | joined hsingle hoccupied hcolon hne => exact hlast hcolon hne
  | kept hseveral hoccupied hcolon hne => exact hlast hcolon hne

/-- A host part that is not trimmed away starts with a character of its own. -/
lemma head?_append_ne {host container : List Char} (hsingle : ':' ∉ host) (hne : host ≠ []) :
    (host ++ ':' :: container).head? ≠ some ':' := by
  rw [List.head?_append_of_ne_nil _ hne]
  exact fun h => hsingle (List.mem_of_mem_head? h)

/-- An entry with an empty part in front that has another colon is kept. -/
lemma eq_of_headless (hhead : entry.head? = some ':') (hrest : ':' ∈ entry.dropWhile (· == ':'))
    (h : normalizeTrimmed entry = .ok (some port)) : port = entry := by
  cases normalizeTrimmed_eq_ok_iff.1 h with
  | bare => rfl
  | kept => rfl
  | @joined host container hsingle hoccupied hcolon hne =>
    exact absurd hhead (head?_append_ne hsingle (by rintro rfl; exact hoccupied rfl))
  | @dropped host container hvacant hcolon hne =>
    -- a host part of blanks is empty here, as the entry starts with a colon
    have hcolons : ∀ c ∈ host, c = ':' := by
      rcases hvacant with hcolons | hblank
      · exact hcolons
      · have hsingle : ':' ∉ host := notMem_of_trimBoth_eq_nil hblank (by decide)
        by_contra hsome
        exact head?_append_ne hsingle (by rintro rfl; simp at hsome) hhead
    rw [List.dropWhile_append_of_pos (by simpa using hcolons),
      List.dropWhile_cons_of_pos (by simp)] at hrest
    exact absurd ((List.dropWhile_suffix _).subset hrest) hcolon

lemma head?_eq_iff_of_normalizeTrimmed (h : normalizeTrimmed entry = .ok (some port)) :
    port.head? = some ':' ↔ entry.head? = some ':' ∧ ':' ∈ entry.dropWhile (· == ':') := by
  constructor
  · intro hport
    have hmem : ':' ∈ port := List.mem_of_mem_head? hport
    cases normalizeTrimmed_eq_ok_iff.1 h with
    | bare hne hcolon => exact absurd hmem hcolon
    | dropped hvacant hcolon hne => exact absurd ((trimBoth_isInfix _).subset hmem) hcolon
    | @joined host container hsingle hoccupied hcolon hne =>
      exact absurd hport (head?_append_ne (fun h => hsingle ((trimBoth_isInfix host).subset h))
        hoccupied)
    | @kept host container hseveral hoccupied hcolon hne =>
      obtain ⟨c, hc, hother⟩ := hoccupied
      have hrest : host.dropWhile (· == ':') ≠ [] :=
        List.ne_nil_of_mem (mem_dropWhile_of_not hc (by simpa using hother))
      rw [List.dropWhile_append, if_neg (by simpa using hrest)]
      exact ⟨hport, List.mem_append_right _ List.mem_cons_self⟩
  · rintro ⟨hhead, hrest⟩
    rw [eq_of_headless hhead hrest h]
    exact hhead

/-- The form of an entry does not end with an empty part, and it starts with one exactly where the
entry, without the blanks around it, is headless; then it is that entry. -/
lemma ends_of_normalize {path entry port : String} (h : normalize path entry = .ok (some port)) :
    ¬ EndsEmpty port ∧ (StartsEmpty port ↔ IsHeadless (trim entry)) ∧
      (IsHeadless (trim entry) → port = trim entry) := by
  have hform := normalize_eq_some_iff.1 h
  obtain ⟨-, hnormal⟩ := normalizeTrimmed_of_normalizeTrimmed (trimBoth_trimBoth _) hform
  simp only [EndsEmpty, StartsEmpty, IsHeadless, trim, String.toList_ofList]
  refine ⟨getLast?_ne_of_normalizeTrimmed hnormal, head?_eq_iff_of_normalizeTrimmed hform,
    fun hhead => ?_⟩
  rw [← eq_of_headless hhead.1 hhead.2 hform, String.ofList_toList]

lemma ne_none_of_isHeadless {path entry : String} {port? : Option String}
    (hhead : IsHeadless (trim entry)) (h : normalize path entry = .ok port?) : port? ≠ none := by
  rintro rfl
  have hcolons := normalize_eq_none_iff.1 h
  have hnil : (trimBoth entry.toList).dropWhile (· == ':') = [] :=
    List.dropWhile_eq_nil_iff.2 (by simpa using hcolons)
  have hmem := hhead.2
  rw [trim, String.toList_ofList, hnil] at hmem
  exact absurd hmem List.not_mem_nil

/-- The forms of entries start with an empty part where the entries are headless. -/
lemma ends_of_normalizeFrom {path : String} {i : Nat} {es ps : List String}
    (h : normalizeFrom path i es = .ok ps) :
    (∀ p ∈ ps, ¬ EndsEmpty p) ∧
      ps.filter (StartsEmpty ·) = (es.map trim).filter (IsHeadless ·) := by
  induction es generalizing i ps with
  | nil =>
    obtain rfl := Except.ok.inj h
    simp
  | cons e es ih =>
    obtain ⟨port?, hport, h⟩ := Outcome.bind_eq_ok_iff.1 h
    obtain ⟨ports, hports, h⟩ := Outcome.bind_eq_ok_iff.1 h
    obtain rfl := Outcome.pure_eq_ok_iff.1 h
    obtain ⟨hends, hstarts⟩ := ih hports
    rw [List.filter_append, hstarts, List.map_cons]
    cases port? with
    | none =>
      have hnot : ¬ IsHeadless (trim e) :=
        fun hhead => ne_none_of_isHeadless hhead hport rfl
      rw [List.filter_cons_of_neg (by simpa using hnot)]
      exact ⟨by simpa using hends, rfl⟩
    | some port =>
      obtain ⟨hend, hstart, hkept⟩ := ends_of_normalize hport
      refine ⟨List.forall_mem_cons.2 ⟨hend, hends⟩, ?_⟩
      by_cases hhead : IsHeadless (trim e)
      · rw [List.filter_cons_of_pos (by simpa using hhead), ← hkept hhead]
        simp [hstart.2 hhead]
      · rw [List.filter_cons_of_neg (by simpa using hhead)]
        simp [mt hstart.1 hhead]

end Port

/-! ### The ports of a checked document -/

open Port

/-- The port of a server starts and ends with digits. -/
lemma Ssh.ends_of_mem_published {s : Ssh} {port : String} (h : port ∈ s.published) :
    ¬ EndsEmpty port ∧ ¬ StartsEmpty port := by
  have hcolon (n : Nat) : ':' ∉ Decimal.digits n := fun hmem =>
    absurd (Nat.isDigit_of_mem_toDigits (by decide) (by decide) hmem) (by decide)
  have hne (n : Nat) : Decimal.digits n ≠ [] := Nat.toDigits_ne_nil
  have htext (n : Nat) : (Decimal.natText n).toList = Decimal.digits n := String.toList_ofList
  have hfirst (n : Nat) : (Decimal.digits n).head? ≠ some ':' :=
    fun hc => hcolon n (List.mem_of_mem_head? hc)
  have hlast (n : Nat) : (Decimal.digits n).getLast? ≠ some ':' :=
    fun hc => hcolon n (List.mem_of_getLast? hc)
  unfold published at h
  split at h
  next =>
    obtain rfl := List.mem_singleton.1 h
    unfold mappedPort EndsEmpty StartsEmpty
    cases s.hostPort? with
    | none => exact ⟨by rw [htext]; exact hlast _, by rw [htext]; exact hfirst _⟩
    | some host =>
      simp only [String.toList_append, htext]
      rw [List.getLast?_append_of_ne_nil _ (hne _), List.append_assoc,
        List.head?_append_of_ne_nil _ (hne _)]
      exact ⟨hlast _, hfirst _⟩
  next => simp at h

/-- The entries for ports that the view of a stage is made from. -/
def Document.portEntries (d : Document) : Stage → List String
  | .first  => (d.section? .first).toList.flatMap StageSection.ports
  | .second => (d.section? .first).toList.flatMap StageSection.ports ++
      (d.section? .second).toList.flatMap StageSection.ports

namespace Spec

variable {dir : Path} {d : Document} {s : Spec}

lemma ends_of_stage (h : ofDocument dir d = .ok s) (stage : Stage) :
    (∀ p ∈ (s.stage stage).ports, ¬ EndsEmpty p) ∧
      (s.stage stage).ports.filter (StartsEmpty ·) =
        (((d.section? stage).toList.flatMap StageSection.ports).map trim).filter
          (IsHeadless ·) := by
  obtain ⟨t, image, heq, ⟨hnone, rfl⟩ | ⟨x, hsome, hread⟩⟩ := stage_of_ofDocument h stage
  · simp [heq, hnone, StageSpec.withOutput, StageSpec.empty]
  · rw [heq, hsome, Option.toList_some, List.flatMap_singleton]
    exact ends_of_normalizeFrom (StageSpec.ofSection_eq_ok_iff.1 hread).ports

/-- Ports of servers behind ports of stages change nothing at the ends. -/
lemma ends_append_published {ports : List String} {servers : List Ssh}
    (hends : ∀ p ∈ ports, ¬ EndsEmpty p) :
    (∀ p ∈ ports ++ servers.flatMap Ssh.published, ¬ EndsEmpty p) ∧
      (ports ++ servers.flatMap Ssh.published).filter (StartsEmpty ·) =
        ports.filter (StartsEmpty ·) := by
  have hserver : ∀ p ∈ servers.flatMap Ssh.published, ¬ EndsEmpty p ∧ ¬ StartsEmpty p := by
    intro p hp
    obtain ⟨ssh, -, hp⟩ := List.mem_flatMap.1 hp
    exact Ssh.ends_of_mem_published hp
  refine ⟨List.forall_mem_append.2 ⟨hends, fun p hp => (hserver p hp).1⟩, ?_⟩
  have hnone : (servers.flatMap Ssh.published).filter (StartsEmpty ·) = [] :=
    List.filter_eq_nil_iff.2 fun p hp => by simpa using (hserver p hp).2
  rw [List.filter_append, hnone, List.append_nil]

lemma ends_of_view (h : ofDocument dir d = .ok s) (stage : Stage) :
    (∀ p ∈ (StageView.of s (.ofSpec s) stage).ports, ¬ EndsEmpty p) ∧
      (StageView.of s (.ofSpec s) stage).ports.filter (StartsEmpty ·) =
        ((d.portEntries stage).map trim).filter (IsHeadless ·) := by
  obtain ⟨hends, hstarts⟩ := ends_of_stage h .first
  obtain ⟨hends', hstarts'⟩ := ends_of_stage h .second
  cases stage with
  | first =>
    rw [StageView.ports_first, Document.portEntries, ← hstarts]
    exact ends_append_published hends
  | second =>
    have hports : (StageView.of s (.ofSpec s) .second).ports = s.first.ports ++ s.second.ports ++
        (s.second.ssh? <|> s.first.ssh?).toList.flatMap Ssh.published := Merged.ports_ofSpec s
    obtain ⟨hall, hfilter⟩ := ends_append_published (List.forall_mem_append.2 ⟨hends, hends'⟩)
    refine ⟨hports ▸ hall, ?_⟩
    rw [Document.portEntries, List.map_append, List.filter_append, ← hstarts, ← hstarts',
      ← List.filter_append, hports]
    exact hfilter

end Spec

/-- No port ends with an empty part, neither the form of an entry nor one in the merged settings or
in a view. A form starts with an empty part exactly where its entry is headless, and the ports that
start with one are exactly the headless entries of the document, in order. -/
theorem Port.startsEmpty_iff_isHeadless (path entry : String) :
    (∀ port, normalize path entry = .ok (some port) →
      ¬ EndsEmpty port ∧ (StartsEmpty port ↔ IsHeadless (trim entry))) ∧
    ∀ dir d s, Spec.ofDocument dir d = .ok s →
      (Merged.ofSpec s).ports = (StageView.of s (.ofSpec s) .second).ports ∧
      ∀ stage, (∀ p ∈ (StageView.of s (.ofSpec s) stage).ports, ¬ EndsEmpty p) ∧
        (StageView.of s (.ofSpec s) stage).ports.filter (StartsEmpty ·) =
          ((d.portEntries stage).map trim).filter (IsHeadless ·) :=
  ⟨fun _ h => ⟨(ends_of_normalize h).1, (ends_of_normalize h).2.1⟩,
    fun _ _ _ h => ⟨rfl, Spec.ends_of_view h⟩⟩

/-- Of three entries without a host's port, the one with a default keeps its empty part. -/
theorem Port.startsEmpty_of_default : ∃ d s,
    Document.ofText (fun _ => none)
      ("stage_1:\n image: \x7bbase: a\x7d\n ports: [':22', ' :\x7b\x7bP:-80\x7d\x7d']\n" ++
        " ssh: \x7bhost_port: 5, users: \x7bu: \x7bpassword: p\x7d\x7d\x7d\n" ++
        "stage_2: \x7bports: ['::443']\x7d\n") = .ok d ∧
    Spec.ofDocument (Path.ofString "/p") d = .ok s ∧
    (Merged.ofSpec s).ports = ["22", ":\x7b\x7bP:-80\x7d\x7d", "443", "5:22"] ∧
    (∀ p ∈ (Merged.ofSpec s).ports, ¬ EndsEmpty p) ∧
    (Merged.ofSpec s).ports.filter (StartsEmpty ·) =
      ((d.portEntries .second).map trim).filter (IsHeadless ·) ∧
    IsHeadless (trim " :\x7b\x7bP:-80\x7d\x7d") := by
  have hrun : ((Document.ofText (fun _ => none)
      ("stage_1:\n image: \x7bbase: a\x7d\n ports: [':22', ' :\x7b\x7bP:-80\x7d\x7d']\n" ++
        " ssh: \x7bhost_port: 5, users: \x7bu: \x7bpassword: p\x7d\x7d\x7d\n" ++
        "stage_2: \x7bports: ['::443']\x7d\n")).toOption.bind fun d =>
      (Spec.ofDocument (Path.ofString "/p") d).toOption.map fun s =>
        decide ((Merged.ofSpec s).ports = ["22", ":\x7b\x7bP:-80\x7d\x7d", "443", "5:22"])) =
      some true := by
    rw [Document.ofText_eq_ofChars, String.toList_append, String.toList_append,
      String.toList_ofList, String.toList_ofList, String.toList_ofList]
    decide +kernel
  obtain ⟨d, hd, hrun⟩ := Outcome.toOption_bind_eq_some_iff.1 hrun
  obtain ⟨s, hs, hrun⟩ := Outcome.toOption_map_eq_some_iff.1 hrun
  have hform : normalize "stage_1.ports[1]" " :\x7b\x7bP:-80\x7d\x7d" =
      .ok (some ":\x7b\x7bP:-80\x7d\x7d") := by rfl
  obtain ⟨hentry, hports⟩ :=
    startsEmpty_iff_isHeadless "stage_1.ports[1]" " :\x7b\x7bP:-80\x7d\x7d"
  obtain ⟨heq, hviews⟩ := hports _ d s hs
  exact ⟨d, s, hd, hs, of_decide_eq_true hrun, heq ▸ (hviews .second).1,
    heq ▸ (hviews .second).2, (hentry _ hform).2.1 (by decide)⟩

/-- An entry without a host's port keeps its empty part if its container port has a default. -/
theorem Port.exists_startsEmpty : ¬ ∀ path entry port,
    normalize path entry = .ok (some port) → ¬ StartsEmpty port ∧ ¬ EndsEmpty port := by
  intro h
  have hform : normalize "stage_1.ports[0]" ":\x7b\x7bPORT:-80\x7d\x7d" =
      .ok (some ":\x7b\x7bPORT:-80\x7d\x7d") := by rfl
  exact (h _ _ _ hform).1 (by decide)

end TwoStage
