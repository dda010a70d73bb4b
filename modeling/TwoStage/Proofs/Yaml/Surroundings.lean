import TwoStage.Proofs.Resolution
import TwoStage.Proofs.Yaml.Alike

/-!
# Surroundings of a value

A value of a document stands in layers of mappings, each of which may be under tags. The config
round takes each layer by itself. A record that is decoded from a layer goes alike for two values in
it if the field that has the value does.
-/

namespace TwoStage

/-- Entries that are related one by one are so in the maps that are made of them. -/
lemma OrderedMap.forall₂_ofList {α β : Type} [DecidableEq α] {S : β → β → Prop}
    {es es' : List (α × β)} (h : List.Forall₂ (fun e e' => e.1 = e'.1 ∧ S e.2 e'.2) es es') :
    List.Forall₂ (fun e e' => e.1 = e'.1 ∧ S e.2 e'.2)
      (ofList es).entries (ofList es').entries := by
  have hinsert {k : α} {v v' : β} (hv : S v v') {fs fs' : List (α × β)}
      (hfs : List.Forall₂ (fun e e' => e.1 = e'.1 ∧ S e.2 e'.2) fs fs') :
      List.Forall₂ (fun e e' => e.1 = e'.1 ∧ S e.2 e'.2) (insertEntry k v fs)
        (insertEntry k v' fs') := by
    induction hfs with
    | nil => exact .cons ⟨rfl, hv⟩ .nil
    | @cons e e' fs fs' he hfs ih =>
      obtain ⟨l, w⟩ := e
      obtain ⟨_, w'⟩ := e'
      obtain ⟨rfl, hw⟩ := he
      rw [insertEntry, insertEntry]
      split
      · exact .cons ⟨rfl, hv⟩ hfs
      · exact .cons ⟨rfl, hw⟩ ih
  -- the entries are inserted into two maps that have been related so far
  have hall {m m' : OrderedMap α β}
      (hm : List.Forall₂ (fun e e' => e.1 = e'.1 ∧ S e.2 e'.2) m.entries m'.entries) :
      List.Forall₂ (fun e e' => e.1 = e'.1 ∧ S e.2 e'.2) (m.insertAll es).entries
        (m'.insertAll es').entries := by
    induction h generalizing m m' with
    | nil => exact hm
    | @cons e e' es es' he _ ih =>
      obtain ⟨l, w⟩ := e
      obtain ⟨_, w'⟩ := e'
      obtain ⟨rfl, hw⟩ := he
      exact ih (hinsert hw hm)
  exact hall .nil

namespace Yaml

/-! ### Layers -/

/-- A mapping with one value left open: its tags, the outermost first, the key of the value and the
entries around it. -/
structure Layer where
  tags : List String
  before : List (Tree × Tree)
  key : Tree
  after : List (Tree × Tree)

/-- A tree under tags, the outermost first. -/
def Tree.under (tags : List String) (t : Tree) : Tree := tags.foldr .tagged t

/-- The layer with its value. -/
def Layer.around (l : Layer) (t : Tree) : Tree :=
  .under l.tags (.mapping (l.before ++ (l.key, t) :: l.after))

/-- A value in layers, the outermost first. -/
def surround (layers : List Layer) (t : Tree) : Tree := layers.foldr Layer.around t

@[simp] lemma surround_cons (l : Layer) (layers : List Layer) (t : Tree) :
    surround (l :: layers) t = l.around (surround layers t) := rfl

namespace Tree

lemma untagged_under (tags : List String) (t : Tree) : (under tags t).untagged = t.untagged := by
  induction tags with
  | nil => rfl
  | cons tag tags ih => exact ih

lemma strings_under (tags : List String) (t : Tree) : (under tags t).strings = t.strings := by
  induction tags with
  | nil => rfl
  | cons tag tags ih => exact (strings_tagged tag _).trans ih

end Tree

namespace Layer

variable (l : Layer) (t : Tree)

lemma untagged_around :
    (l.around t).untagged = .mapping (l.before ++ (l.key, t) :: l.after) :=
  Tree.untagged_under l.tags _

lemma around_ne_null : l.around t ≠ .null := by
  obtain ⟨tags, before, key, after⟩ := l
  cases tags <;> simp [around, Tree.under]

/-- What relates every entry to itself and the two values relates the layer with either of them. -/
lemma forall₂_around {t t' : Tree} {R : Tree × Tree → Tree × Tree → Prop} (hR : ∀ e, R e e)
    (h : R (l.key, t) (l.key, t')) :
    List.Forall₂ R (l.before ++ (l.key, t) :: l.after) (l.before ++ (l.key, t') :: l.after) :=
  have hself (es : List (Tree × Tree)) : List.Forall₂ R es es :=
    List.forall₂_same.2 fun e _ => hR e
  List.rel_append (hself _) (.cons h (hself _))

/-- The strings of a layer are those around its value and those of the value. -/
lemma mem_strings_around {s : String} :
    s ∈ (l.around t).strings ↔ s ∈ (l.around .null).strings ∨ s ∈ t.strings := by
  simp only [around, Tree.strings_under, Tree.strings_mapping, List.flatMap_append,
    List.flatMap_cons, List.mem_append, Tree.strings_null, List.not_mem_nil, false_or]
  tauto

end Layer

lemma mem_strings_surround {layers : List Layer} {t : Tree} {s : String} :
    s ∈ (surround layers t).strings ↔ s ∈ (surround layers .null).strings ∨ s ∈ t.strings := by
  induction layers with
  | nil => simp [surround]
  | cons l layers ih =>
    rw [surround_cons, surround_cons, l.mem_strings_around, ih,
      l.mem_strings_around (surround layers .null), or_assoc]

/-! ### The config round -/

section

variable {vars : String → Option String} {t u : Tree}

lemma resolve_tagged_iff {tag : String} :
    Resolution.resolve vars (.tagged tag t) = .ok u ↔
      ∃ t', Resolution.resolve vars t = .ok t' ∧ u = .tagged tag t' := by
  simp only [Resolution.resolve_eq_ok_iff, Resolution.substituteAll_eq_ok_iff]
  constructor
  · rintro ⟨⟨⟩, hsettled⟩
    next t' h => exact ⟨t', ⟨h, by simpa [Tree.Holds] using hsettled⟩, rfl⟩
  · rintro ⟨t', ⟨h, hsettled⟩, rfl⟩
    exact ⟨.tagged tag h, by simpa [Tree.Holds] using hsettled⟩

lemma resolve_under_iff {tags : List String} :
    Resolution.resolve vars (.under tags t) = .ok u ↔
      ∃ t', Resolution.resolve vars t = .ok t' ∧ u = .under tags t' := by
  induction tags generalizing u with
  | nil => simp [Tree.under]
  | cons tag tags ih =>
    change Resolution.resolve vars (.tagged tag (.under tags t)) = .ok u ↔ _
    rw [resolve_tagged_iff]
    constructor
    · rintro ⟨v, hv, rfl⟩
      obtain ⟨t', ht, rfl⟩ := ih.1 hv
      exact ⟨t', ht, rfl⟩
    · rintro ⟨t', ht, rfl⟩
      exact ⟨_, ih.2 ⟨t', ht, rfl⟩, rfl⟩

/-- The config round takes the values of a mapping one by one. -/
lemma resolve_mapping_iff {es : List (Tree × Tree)} :
    Resolution.resolve vars (.mapping es) = .ok u ↔
      ∃ es', List.Forall₂ (fun e e' => e.1 = e'.1 ∧ Resolution.resolve vars e.2 = .ok e'.2) es es' ∧
        u = .mapping es' := by
  simp only [Resolution.resolve_eq_ok_iff, Resolution.substituteAll_eq_ok_iff]
  constructor
  · rintro ⟨⟨⟩, hsettled⟩
    -- whether a tree is settled is a matter of all its texts, and is split up with the entries
    next es' h =>
      refine ⟨es', ?_, rfl⟩
      induction es generalizing es' with
      | nil =>
        cases h
        exact .nil
      | cons e es ih =>
        cases h with
        | cons k head tail =>
          simp only [Tree.Holds, Tree.strings_mapping, List.flatMap_cons,
            List.forall_mem_append] at hsettled
          refine .cons ⟨rfl, head, hsettled.1⟩ (ih tail ?_)
          simpa only [Tree.Holds, Tree.strings_mapping] using hsettled.2
  · rintro ⟨es', h, rfl⟩
    induction h with
    | nil => exact ⟨.mapping .nil, by simp [Tree.Holds]⟩
    | @cons e e' es es' he _ ih =>
      obtain ⟨k, v⟩ := e
      obtain ⟨_, v'⟩ := e'
      obtain ⟨rfl, hv, hsettled⟩ := he
      obtain ⟨htail, hrest⟩ := ih
      cases htail with
      | mapping htail =>
        refine ⟨.mapping (.cons k hv htail), ?_⟩
        simp only [Tree.Holds, Tree.strings_mapping, List.flatMap_cons,
          List.forall_mem_append] at hsettled hrest ⊢
        exact ⟨hsettled, hrest⟩

/-- What the config round makes of a layer. -/
structure Layer.Resolves (vars : String → Option String) (l l' : Layer) : Prop where
  tags : l.tags = l'.tags
  before : List.Forall₂ (fun e e' => e.1 = e'.1 ∧ Resolution.resolve vars e.2 = .ok e'.2)
    l.before l'.before
  key : l.key = l'.key
  after : List.Forall₂ (fun e e' => e.1 = e'.1 ∧ Resolution.resolve vars e.2 = .ok e'.2)
    l.after l'.after

/-- A list that is related to one with an item in it has a related item in it. -/
lemma forall₂_append_cons_iff {α β : Type} {R : α → β → Prop} {xs ys : List α} {a : α}
    {zs : List β} :
    List.Forall₂ R (xs ++ a :: ys) zs ↔
      ∃ xs' b ys', List.Forall₂ R xs xs' ∧ R a b ∧ List.Forall₂ R ys ys' ∧
        zs = xs' ++ b :: ys' := by
  constructor
  · intro h
    induction xs generalizing zs with
    | nil =>
      cases h with
      | cons hab hys => exact ⟨[], _, _, .nil, hab, hys, rfl⟩
    | cons x xs ih =>
      cases h with
      | cons hx h =>
        obtain ⟨xs', b, ys', hxs, hab, hys, rfl⟩ := ih h
        exact ⟨_ :: xs', b, ys', .cons hx hxs, hab, hys, rfl⟩
  · rintro ⟨xs', b, ys', hxs, hab, hys, rfl⟩
    exact List.rel_append hxs (.cons hab hys)

/-- The config round takes a layer and the value in it by themselves. -/
lemma resolve_around_iff {l : Layer} :
    Resolution.resolve vars (l.around t) = .ok u ↔
      ∃ l' t', l.Resolves vars l' ∧ Resolution.resolve vars t = .ok t' ∧ u = l'.around t' := by
  simp only [Layer.around, resolve_under_iff, resolve_mapping_iff, forall₂_append_cons_iff]
  constructor
  · rintro ⟨_, ⟨_, ⟨before, ⟨key, t'⟩, after, hbefore, ⟨hkey, ht⟩, hafter, rfl⟩, rfl⟩, rfl⟩
    exact ⟨⟨l.tags, before, key, after⟩, t', ⟨rfl, hbefore, hkey, hafter⟩, ht, rfl⟩
  · rintro ⟨⟨tags, before, key, after⟩, t', ⟨rfl, hbefore, hkey, hafter⟩, ht, rfl⟩
    exact ⟨_, ⟨_, ⟨before, (key, t'), after, hbefore, ⟨hkey, ht⟩, hafter, rfl⟩, rfl⟩, rfl⟩

lemma resolve_surround_iff {layers : List Layer} :
    Resolution.resolve vars (surround layers t) = .ok u ↔
      ∃ layers' t', List.Forall₂ (Layer.Resolves vars) layers layers' ∧
        Resolution.resolve vars t = .ok t' ∧ u = surround layers' t' := by
  induction layers generalizing u with
  | nil => simp [surround]
  | cons l layers ih =>
    rw [surround_cons, resolve_around_iff]
    constructor
    · rintro ⟨l', v, hl, hv, rfl⟩
      obtain ⟨layers', t', hlayers, ht, rfl⟩ := ih.1 hv
      exact ⟨l' :: layers', t', .cons hl hlayers, ht, rfl⟩
    · rintro ⟨_, t', _ | ⟨hl, hlayers⟩, ht, rfl⟩
      exact ⟨_, _, hl, ih.2 ⟨_, t', hlayers, ht, rfl⟩, rfl⟩

/-- The config round takes two values in the same layers to two values in the same layers, if it
takes either of them. -/
lemma alike_resolve_surround {t' u' : Tree} (ht : Resolution.resolve vars t = .ok u)
    (ht' : Resolution.resolve vars t' = .ok u') (layers : List Layer) :
    Alike (fun x x' => ∃ layers', List.Forall₂ (Layer.Resolves vars) layers layers' ∧
        x = surround layers' u ∧ x' = surround layers' u')
      (Resolution.resolve vars (surround layers t))
      (Resolution.resolve vars (surround layers t')) := by
  cases hx : Resolution.resolve vars (surround layers t) with
  | ok x =>
    obtain ⟨layers', v, hlayers, hv, rfl⟩ := resolve_surround_iff.1 hx
    obtain rfl := Except.ok.inj (hv.symm.trans ht)
    rw [resolve_surround_iff.2 ⟨layers', u', hlayers, ht', rfl⟩]
    exact .ok ⟨layers', hlayers, rfl, rfl⟩
  | error e =>
    cases hx' : Resolution.resolve vars (surround layers t') with
    | error e' => exact .error
    | ok x' =>
      obtain ⟨layers', v, hlayers, -⟩ := resolve_surround_iff.1 hx'
      rw [resolve_surround_iff.2 ⟨layers', u, hlayers, ht, rfl⟩] at hx
      simp at hx

end

/-! ### Decoders -/

namespace Decode

variable {α β : Type} {R : α → α → Prop} {S : β → β → Prop} {l : Layer} {t t' : Tree}
  {known : List (Field α)} {closed : Bool} {required : List String} {initial : α} {title : String}

/-- A record goes alike for two values in a layer of it, if the field that has the value does. -/
lemma alike_record_around (hinitial : R initial initial) (hknown : ∀ f ∈ known, f.Respects R)
    (hread : ∀ name f, l.key.untagged = .text name → known.find? (fun f => f.name = name) = some f →
      ∀ a b, R a b → Alike R (f.read t a) (f.read t' b)) :
    Alike R (record title closed known required initial (l.around t))
      (record title closed known required initial (l.around t')) := by
  have hes : List.Forall₂ (fun e e' => e.1 = e'.1 ∧
      ∀ name f, fieldName e.1 = .ok name → known.find? (fun f => f.name = name) = some f →
        ∀ a b, R a b → Alike R (f.read e.2 a) (f.read e'.2 b))
      (l.before ++ (l.key, t) :: l.after) (l.before ++ (l.key, t') :: l.after) :=
    l.forall₂_around
      (fun e => ⟨rfl, fun name f _ hfind => hknown f (List.mem_of_find?_eq_some hfind) e.2⟩)
      ⟨rfl, fun name f hname => hread name f (fieldName_eq_ok_iff.1 hname)⟩
  unfold record
  rw [l.untagged_around, l.untagged_around]
  change Alike R (fields known closed [] initial _ >>= _) (fields known closed [] initial _ >>= _)
  refine (alike_fields hes [] hinitial).bind ?_
  rintro ⟨a, seen⟩ ⟨b, _⟩ ⟨hab, rfl⟩
  dsimp only
  split
  · exact .error
  · exact .ok hab

/-- Entries go alike for two values in a layer of them, if their decoder does. -/
lemma alike_entries_around {f : Tree → Decoded β} (hS : ∀ b, S b b)
    (hf : Alike S (f t) (f t')) :
    Alike (fun m m' => List.Forall₂ (fun e e' => e.1 = e'.1 ∧ S e.2 e'.2) m.entries m'.entries)
      (entries f (l.around t)) (entries f (l.around t')) := by
  let read (e : Tree × Tree) : Decoded (String × β) := do return (← text e.1, ← f e.2)
  have hread {k v v' : Tree} (h : Alike S (f v) (f v')) :
      Alike (fun e e' => e.1 = e'.1 ∧ S e.2 e'.2) (read (k, v)) (read (k, v')) :=
    (Alike.refl (fun _ => rfl) (text k)).bind fun _ _ hk => h.bind fun _ _ hv => .ok ⟨hk, hv⟩
  have hes : List.Forall₂
      (fun e e' => Alike (fun e e' => e.1 = e'.1 ∧ S e.2 e'.2) (read e) (read e'))
      (l.before ++ (l.key, t) :: l.after) (l.before ++ (l.key, t') :: l.after) :=
    l.forall₂_around (fun e => hread (.refl hS _)) (hread hf)
  unfold entries
  rw [l.untagged_around, l.untagged_around]
  exact (Alike.mapM hes).map fun es es' => OrderedMap.forall₂_ofList

/-- A record that is decoded from a layer has its value decoded. -/
lemma exists_of_record_around {f : Tree → Decoded β} {set : β → α → α} {name : String} {a : α}
    (hkey : l.key.untagged = .text name)
    (hfind : known.find? (fun f => f.name = name) = some (field name f set))
    (h : record title closed known required initial (l.around t) = .ok a) : ∃ b, f t = .ok b := by
  obtain ⟨es, seen, hes, hfields⟩ := exists_fields_of_record h
  rw [l.untagged_around] at hes
  obtain heq | ⟨heq, -⟩ := hes
  · obtain rfl := Tree.mapping.inj heq
    obtain ⟨c, c', hread⟩ := exists_read_of_fields hfields (e := (l.key, t)) (by simp)
      (fieldName_eq_ok_iff.2 hkey) hfind
    obtain ⟨b, hb, -⟩ := Outcome.map_eq_ok_iff.1 hread
    exact ⟨b, hb⟩
  · simp at heq

lemma exists_of_optional_around {f : Tree → Decoded β} {set : Option β → α → α} {name : String}
    {a : α} (ht : t ≠ .null) (hkey : l.key.untagged = .text name)
    (hfind : known.find? (fun f => f.name = name) = some (field name (optional f) set))
    (h : record title closed known required initial (l.around t) = .ok a) : ∃ b, f t = .ok b := by
  obtain ⟨o, ho⟩ := exists_of_record_around hkey hfind h
  rw [optional_of_ne_null ht] at ho
  obtain ⟨b, hb, -⟩ := Outcome.map_eq_ok_iff.1 ho
  exact ⟨b, hb⟩

lemma exists_of_entries_around {f : Tree → Decoded β} {m : OrderedMap String β}
    (h : entries f (l.around t) = .ok m) : ∃ b, f t = .ok b := by
  unfold entries at h
  rw [l.untagged_around] at h
  obtain ⟨es, hes, -⟩ := Outcome.map_eq_ok_iff.1 h
  obtain ⟨e, -, he⟩ := Outcome.exists_result_of_mem hes (a := (l.key, t)) (by simp)
  obtain ⟨k, -, he⟩ := Outcome.bind_eq_ok_iff.1 he
  obtain ⟨b, hb, -⟩ := Outcome.bind_eq_ok_iff.1 he
  exact ⟨b, hb⟩

end Decode

end Yaml

end TwoStage
