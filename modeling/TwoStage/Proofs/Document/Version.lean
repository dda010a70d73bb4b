import TwoStage.Proofs.Document.Strings
import TwoStage.Proofs.Resolution

/-!
# The version before the config round

A document's version is read before the config round, everything else after it. So a document may be
replaced by what the config round makes of it, wherever its version is written out: both give the
same document, or errors of which the same is reported. A version that waits for the config round is
refused.
-/

namespace TwoStage

open Yaml

def Error.report (e : Error) : String × Option String × Option String :=
  (e.code, e.message?, e.help?)

/-! ### Texts without config markers -/

/-- The text has a marker of the config round. -/
def HasConfigMarker (s : String) : Prop :=
  ∃ ms, scanMarkers s = .ok ms ∧ ∃ l ∈ ms, l.marker.round = .config

lemma eq_of_substitute {vars : String → Option String} {s s' : String}
    (h : substitute vars s = .ok s') (hs : ¬ HasConfigMarker s) : s' = s := by
  obtain ⟨ss, hss, -⟩ := Outcome.map_eq_ok_iff.1 h
  have hsettled : Settled s.toList := by
    refine settled_iff.2 ⟨locate 0 ss, by rw [scanMarkers, hss]; rfl, fun l hl => ?_⟩
    cases hround : l.marker.round with
    | compose => rfl
    | config => exact absurd ⟨locate 0 ss, by rw [scanMarkers, hss]; rfl, l, hl, hround⟩ hs
  exact Except.ok.inj (h.symm.trans (hsettled.substitute_eq vars))

/-! ### Decoding in the same words -/

namespace Yaml.Decode

variable {α : Type} {known : List (Field α)} {closed : Bool}

/-- Trees of one shape are refused in the same words where nothing is expected, unless they are
different texts. -/
lemma nothing_mapError_eq {R : String → String → Prop} {t t' : Tree} (h : t.Corresponds R t')
    (htext : ∀ s, t = .text s → t' = t) :
    (nothing t').mapError DecodeError.message = (nothing t).mapError DecodeError.message := by
  cases h with
  | text => rw [htext _ rfl]
  | _ => rfl

/-- Records are decoded in the same words when their entries are, one by one. -/
lemma fields_mapError_eq {es es' : List (Tree × Tree)}
    (h : List.Forall₂ (fun e e' => e'.1 = e.1 ∧ ∀ name f a, fieldName e.1 = .ok name →
      known.find? (fun f => f.name = name) = some f →
      (f.read e'.2 a).mapError DecodeError.message = (f.read e.2 a).mapError DecodeError.message)
      es es') (seen : List String) (a : α) :
    (fields known closed seen a es').mapError DecodeError.message =
      (fields known closed seen a es).mapError DecodeError.message := by
  induction h generalizing seen a with
  | nil => rfl
  | @cons e e' es es' he _ ih =>
    obtain ⟨_, v⟩ := e
    obtain ⟨k, v'⟩ := e'
    obtain ⟨rfl, hread⟩ := he
    cases hname : fieldName k with
    | error err => rw [fields_cons_of_error hname, fields_cons_of_error hname]
    | ok name =>
      cases hfind : known.find? fun f => f.name = name with
      | none =>
        rw [fields_cons_of_unknown hname hfind, fields_cons_of_unknown hname hfind]
        split
        · rfl
        · exact ih seen a
      | some f =>
        rw [fields_cons_of_known hname hfind, fields_cons_of_known hname hfind]
        split
        · rfl
        · simp only [Outcome.mapError_bind, hread name f a hname hfind, ih]

end Yaml.Decode

/-! ### Versions -/

namespace Version

/-- The version waits for the config round: there is a config marker in its name, or in the text
under a tag that names it. -/
def Deferred : Tree → Prop
  | .text s                => HasConfigMarker s
  | .tagged name (.text s) => (byName.lookup name).isSome ∧ HasConfigMarker s
  | _                      => False

lemma decode_mapError_eq {vars : String → Option String} {t t' : Tree}
    (h : Tree.Corresponds (fun s s' => substitute vars s = .ok s') t t') (hwritten : ¬ Deferred t) :
    (decode t').mapError DecodeError.message = (decode t).mapError DecodeError.message := by
  cases h with
  | text hs => rw [eq_of_substitute hs hwritten]
  | @tagged name v v' hv =>
    simp only [decode, Decode.choice]
    cases hname : byName.lookup name with
    | none => rfl
    | some version =>
      have hnothing := Decode.nothing_mapError_eq hv fun s hs => by
        subst hs
        cases hv with
        | text hs => rw [eq_of_substitute hs fun hmarker => hwritten ⟨by simp [hname], hmarker⟩]
      simp only [Outcome.mapError_bind, hnothing]
  | _ => rfl

/-- No value under the key of the version waits for the config round. -/
def Written (es : List (Tree × Tree)) : Prop :=
  ∀ e ∈ es, e.1.untagged = .text "api" → ¬ Deferred e.2

/-- The only field that is read before the config round. -/
def versionField : Decode.Field Version := Decode.field "api" decode fun v _ => v

lemma decodeFrom_mapping (es : List (Tree × Tree)) :
    decodeFrom (.mapping es) = (Decode.fields [versionField] false [] .zero es).map Prod.fst := by
  change (Decode.fields [versionField] false [] .zero es >>= fun p => _) = _
  cases Decode.fields [versionField] false [] .zero es <;> rfl

lemma eq_of_find?_versionField {name : String} {f : Decode.Field Version}
    (h : [versionField].find? (fun f => f.name = name) = some f) :
    f = versionField ∧ name = "api" := by
  obtain rfl := List.mem_singleton.1 (List.mem_of_find?_eq_some h)
  have hname := List.find?_some h
  exact ⟨rfl, (of_decide_eq_true hname).symm⟩

lemma decodeFrom_mapError_eq {vars : String → Option String} {es es' : List (Tree × Tree)}
    (h : Tree.EntriesCorrespond (fun s s' => substitute vars s = .ok s') es es')
    (hwritten : Written es) :
    (decodeFrom (.mapping es')).mapError DecodeError.message =
      (decodeFrom (.mapping es)).mapError DecodeError.message := by
  rw [decodeFrom_mapping, decodeFrom_mapping, Outcome.mapError_map, Outcome.mapError_map]
  congr 1
  refine Decode.fields_mapError_eq ?_ [] Version.zero
  refine ((List.forall₂_and_left es es').2 ⟨hwritten, h.forall₂⟩).imp ?_
  rintro e e' ⟨hapi, hkey, hvalue⟩
  refine ⟨hkey, fun name f version hname hfind => ?_⟩
  obtain ⟨rfl, rfl⟩ := eq_of_find?_versionField hfind
  have hdecode := decode_mapError_eq hvalue (hapi (Decode.fieldName_eq_ok_iff.1 hname))
  simp only [versionField, Decode.field, Outcome.mapError_map, hdecode]

/-- A version that is decoded does not wait for the config round. -/
lemma not_deferred_of_decode {t : Tree} {version : Version} (h : decode t = .ok version) :
    ¬ Deferred t := by
  intro hdeferred
  unfold Deferred at hdeferred
  split at hdeferred
  next s =>
    obtain ⟨ms, hscan, l, hl, hround⟩ := hdeferred
    -- the only text that is decoded is the name of the version, and that one has no marker in it
    have hname : s = Version.zero.name := by
      by_contra hne
      simp [decode, Decode.choice, byName, List.lookup_cons, beq_false_of_ne hne] at h
    obtain ⟨ms', hscan', hcompose⟩ := settled_iff.1 (hname ▸ (OpenerFree.of_bland
      (.literal rfl)).settled : Settled s.toList)
    obtain rfl := Except.ok.inj (hscan.symm.trans hscan')
    exact absurd (hround.symm.trans (hcompose l hl)) (by decide)
  next name s =>
    obtain ⟨version', -, h⟩ := Outcome.bind_eq_ok_iff.1 h
    obtain ⟨⟨⟩, hnothing, -⟩ := Outcome.bind_eq_ok_iff.1 h
    simp [Decode.nothing] at hnothing
  next => exact hdeferred

lemma exists_error_of_deferred {es : List (Tree × Tree)} (h : ¬ Written es) :
    ∃ cause, decodeFrom (.mapping es) = .error cause := by
  cases hread : decodeFrom (.mapping es) with
  | error cause => exact ⟨cause, rfl⟩
  | ok version =>
    rw [decodeFrom_mapping, Outcome.map_eq_ok_iff] at hread
    obtain ⟨⟨_, seen⟩, hfields, -⟩ := hread
    refine absurd (fun e he hkey => ?_) h
    obtain ⟨version, version', hread⟩ := Decode.exists_read_of_fields hfields he
      (Decode.fieldName_eq_ok_iff.2 hkey) (f := versionField) rfl
    obtain ⟨v, hv, -⟩ := Outcome.map_eq_ok_iff.1 hread
    exact not_deferred_of_decode hv

end Version

/-! ### Documents -/

namespace Document

lemma mapError_typed {α : Type} {r : Decoded α} :
    (typed r).mapError Error.report = (r.mapError DecodeError.message).mapError fun message =>
      ("stagecraft::invalid_yaml", some ("Invalid configuration document: " ++ message),
        some "Check YAML syntax and that every field has the expected type") := by
  cases r <;> rfl

/-- A document whose version is written out and what the config round makes of it are loaded alike,
whatever the variables are by then: they give the same document, or errors of which the same is
reported. A document whose version waits for the config round is refused. -/
theorem ofTree_of_resolve {vars : String → Option String} {es : List (Tree × Tree)} {t' : Tree}
    (hresolve : Resolution.resolve vars (.mapping es) = .ok t') :
    (Version.Written es → ∀ vars', (ofTree vars' t').mapError Error.report =
      (ofTree vars (.mapping es)).mapError Error.report) ∧
    (¬ Version.Written es → ∃ cause,
      ofTree vars (.mapping es) = .error (.invalidDocument (.illTyped cause))) := by
  constructor
  · intro hwritten vars'
    have hagain : Resolution.resolve vars' t' = .ok t' :=
      Resolution.resolve_eq_self (Resolution.holds_settled_of_resolve hresolve)
    obtain ⟨hsubstitute, -⟩ := Resolution.resolve_eq_ok_iff.1 hresolve
    cases Resolution.substituteAll_eq_ok_iff.1 hsubstitute with
    | @mapping _ es' hes =>
      have hversion := Version.decodeFrom_mapError_eq hes hwritten
      simp only [ofTree, hresolve, hagain, Outcome.mapError_bind, mapError_typed, hversion]
  · intro hdeferred
    obtain ⟨cause, hcause⟩ := Version.exists_error_of_deferred hdeferred
    refine ⟨cause, ?_⟩
    rw [ofTree, hcause]
    rfl

lemma resolve_version_of_default :
    Resolution.resolve (fun _ => none)
        (.mapping [(.text "api", .text "$\x7bV:-stagecraft/v0\x7d")]) =
      .ok (.mapping [(.text "api", .text "stagecraft/v0")]) := by
  have hversion : substitute (fun _ => none) "$\x7bV:-stagecraft/v0\x7d" = .ok "stagecraft/v0" := by
    decide +kernel
  have hplain : Resolution.firstConfigMarker? "stagecraft/v0" = .ok none := by decide +kernel
  simp [Resolution.resolve, Resolution.substituteAll, Resolution.refuseLeftovers, Tree.mapTexts,
    Tree.mapTextsAt, Tree.mapEntryTextsAt, Tree.textsOf, Tree.textsAt, Tree.entryTextsAt,
    Resolution.refuseLeftover, Resolution.markerAt, hversion, hplain, bind, Except.bind, pure,
    Except.pure, Except.map, Except.mapError]

lemma not_written_of_default :
    ¬ Version.Written [(.text "api", .text "$\x7bV:-stagecraft/v0\x7d")] := by
  intro hwritten
  have hmarker : ((scanMarkers "$\x7bV:-stagecraft/v0\x7d").map fun ms =>
      ms.map fun l => l.marker.round) = .ok [.config] := by
    decide +kernel
  obtain ⟨ms, hscan, hrounds⟩ := Outcome.map_eq_ok_iff.1 hmarker
  have hconfig : Round.config ∈ ms.map fun l => l.marker.round := by simp [hrounds]
  obtain ⟨l, hl, hround⟩ := List.mem_map.1 hconfig
  exact hwritten _ (List.mem_singleton_self _) rfl ⟨ms, hscan, l, hl, hround⟩

/-- The name of the project may come from a variable or be written out; the version may not. -/
theorem ofTree_of_resolve_of_default :
    (∀ vars', (ofTree vars' (.mapping [(.text "api", .text "stagecraft/v0"),
        (.text "project", .mapping [(.text "name", .text "demo")])])).mapError Error.report =
      (ofTree (fun _ => none) (.mapping [(.text "api", .text "stagecraft/v0"),
        (.text "project", .mapping [(.text "name", .text "$\x7bP:-demo\x7d")])])).mapError
          Error.report) ∧
    ∃ cause, ofTree (fun _ => none) (.mapping [(.text "api", .text "$\x7bV:-stagecraft/v0\x7d")]) =
      .error (.invalidDocument (.illTyped cause)) := by
  have hname : substitute (fun _ => none) "$\x7bP:-demo\x7d" = .ok "demo" := by decide +kernel
  have hkeep : substitute (fun _ => none) "stagecraft/v0" = .ok "stagecraft/v0" := by decide +kernel
  have hdemo : Resolution.firstConfigMarker? "demo" = .ok none := by decide +kernel
  have hplain : Resolution.firstConfigMarker? "stagecraft/v0" = .ok none := by decide +kernel
  constructor
  · have hresolve : Resolution.resolve (fun _ => none)
        (.mapping [(.text "api", .text "stagecraft/v0"),
          (.text "project", .mapping [(.text "name", .text "$\x7bP:-demo\x7d")])]) =
        .ok (.mapping [(.text "api", .text "stagecraft/v0"),
          (.text "project", .mapping [(.text "name", .text "demo")])]) := by
      simp [Resolution.resolve, Resolution.substituteAll, Resolution.refuseLeftovers, Tree.mapTexts,
        Tree.mapTextsAt, Tree.mapEntryTextsAt, Tree.textsOf, Tree.textsAt, Tree.entryTextsAt,
        Resolution.refuseLeftover, Resolution.markerAt, hname, hkeep, hdemo, hplain, bind,
        Except.bind, pure, Except.pure, Except.map, Except.mapError]
    apply (ofTree_of_resolve hresolve).1
    intro e he hkey
    simp only [List.mem_cons, List.not_mem_nil, or_false] at he
    rcases he with rfl | rfl
    · exact Version.not_deferred_of_decode (rfl : Version.decode _ = .ok .zero)
    · exact absurd hkey (by simp [Tree.untagged])
  · exact (ofTree_of_resolve resolve_version_of_default).2 not_written_of_default

/-- A version that comes from a variable is refused, although what the config round makes of it is
taken. -/
theorem exists_error_of_default_version :
    Resolution.resolve (fun _ => none)
        (.mapping [(.text "api", .text "$\x7bV:-stagecraft/v0\x7d")]) =
      .ok (.mapping [(.text "api", .text "stagecraft/v0")]) ∧
    (∃ d, ofTree (fun _ => none) (.mapping [(.text "api", .text "stagecraft/v0")]) = .ok d) ∧
    ∃ e, ofTree (fun _ => none) (.mapping [(.text "api", .text "$\x7bV:-stagecraft/v0\x7d")]) =
      .error e := by
  refine ⟨resolve_version_of_default, ?_, ?_⟩
  · have hplain : Resolution.firstConfigMarker? "stagecraft/v0" = .ok none := by decide +kernel
    have hsettled : (Tree.mapping [(.text "api", .text "stagecraft/v0")]).Holds fun s =>
        Settled s.toList := by
      intro s hs
      obtain rfl : s = "stagecraft/v0" := by simpa using hs
      exact .of_firstConfigMarker? hplain
    rw [ofTree, Resolution.resolve_eq_self hsettled]
    exact ⟨_, rfl⟩
  · obtain ⟨cause, hcause⟩ := Version.exists_error_of_deferred not_written_of_default
    rw [ofTree, hcause]
    exact ⟨_, rfl⟩

end Document

end TwoStage
