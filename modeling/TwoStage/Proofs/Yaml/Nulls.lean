import TwoStage.Proofs.Outcome
import TwoStage.Yaml.Merge

/-!
# What is dropped with nulls

The items and entries at any depth of a tree are its members. They are listed in the order of the
document, each with its depth, its key and its hull, which is all of it but what is inside. A tree
is made up of its hull and its members, so that nothing is left out of such a list. Dropping nulls
takes the null members off it and does nothing else.
-/

namespace TwoStage.Yaml.Tree

/-! ### Members -/

/-- A tree without what is inside of it. -/
def hull : Tree → Tree
  | .sequence _   => .sequence []
  | .mapping _    => .mapping []
  | .tagged tag v => .tagged tag v.hull
  | t             => t

/-- An item or an entry in a tree: how deep it stands, the key of an entry, and the hull of what is
there. -/
structure Member where
  depth : Nat
  key? : Option Tree
  hull : Tree

mutual

/-- The members of a tree whose own items and entries have the given depth. -/
def membersAt (depth : Nat) : Tree → List Member
  | .sequence ts => itemMembersAt depth ts
  | .mapping es  => entryMembersAt depth es
  | .tagged _ v  => v.membersAt depth
  | _            => []

def itemMembersAt (depth : Nat) : List Tree → List Member
  | []      => []
  | t :: ts => ⟨depth, none, t.hull⟩ :: (t.membersAt (depth + 1) ++ itemMembersAt depth ts)

def entryMembersAt (depth : Nat) : List (Tree × Tree) → List Member
  | []           => []
  | (k, v) :: es =>
    ⟨depth, some k, v.hull⟩ :: (v.membersAt (depth + 1) ++ entryMembersAt depth es)

end

/-- The items and entries at any depth of a tree, in the order of the document. -/
def members (t : Tree) : List Member := t.membersAt 0

/-! ### A tree by its members -/

mutual

lemma le_depth_of_mem_membersAt (depth : Nat) (t : Tree) :
    ∀ m ∈ t.membersAt depth, depth ≤ m.depth := by
  match t with
  | .null | .bool _ | .number _ | .text _ => simp [membersAt]
  | .sequence ts =>
    rw [membersAt]
    exact le_depth_of_mem_itemMembersAt depth ts
  | .mapping es =>
    rw [membersAt]
    exact le_depth_of_mem_entryMembersAt depth es
  | .tagged _ v =>
    rw [membersAt]
    exact le_depth_of_mem_membersAt depth v

lemma le_depth_of_mem_itemMembersAt (depth : Nat) (ts : List Tree) :
    ∀ m ∈ itemMembersAt depth ts, depth ≤ m.depth := by
  match ts with
  | [] => simp [itemMembersAt]
  | t :: ts =>
    rw [itemMembersAt, List.forall_mem_cons, List.forall_mem_append]
    exact ⟨Nat.le_refl _, fun m hm => Nat.le_of_succ_le (le_depth_of_mem_membersAt _ t m hm),
      le_depth_of_mem_itemMembersAt depth ts⟩

lemma le_depth_of_mem_entryMembersAt (depth : Nat) (es : List (Tree × Tree)) :
    ∀ m ∈ entryMembersAt depth es, depth ≤ m.depth := by
  match es with
  | [] => simp [entryMembersAt]
  | (k, v) :: es =>
    rw [entryMembersAt, List.forall_mem_cons, List.forall_mem_append]
    exact ⟨Nat.le_refl _, fun m hm => Nat.le_of_succ_le (le_depth_of_mem_membersAt _ v m hm),
      le_depth_of_mem_entryMembersAt depth es⟩

end

/-- The members inside of the first item end where the next item begins. -/
lemma append_inj_of_depth {depth : Nat} {inner inner' rest rest' : List Member}
    (hinner : ∀ m ∈ inner, depth + 1 ≤ m.depth) (hinner' : ∀ m ∈ inner', depth + 1 ≤ m.depth)
    (hrest : ∀ m ∈ rest.head?, m.depth = depth) (hrest' : ∀ m ∈ rest'.head?, m.depth = depth)
    (h : inner ++ rest = inner' ++ rest') : inner = inner' ∧ rest = rest' := by
  have hcut {inner rest : List Member} (hinner : ∀ m ∈ inner, depth + 1 ≤ m.depth)
      (hrest : ∀ m ∈ rest.head?, m.depth = depth) :
      (inner ++ rest).takeWhile (fun m => depth < m.depth) = inner := by
    rw [List.takeWhile_append_of_pos fun m hm => decide_eq_true (Nat.lt_of_succ_le (hinner m hm))]
    cases rest with
    | nil => simp
    | cons m rest => simp [hrest m rfl]
  have heq : inner = inner' := by rw [← hcut hinner hrest, h, hcut hinner' hrest']
  subst heq
  exact ⟨rfl, List.append_cancel_left h⟩

lemma depth_of_mem_head?_itemMembersAt (depth : Nat) (ts : List Tree) :
    ∀ m ∈ (itemMembersAt depth ts).head?, m.depth = depth := by
  cases ts <;> simp [itemMembersAt]

lemma depth_of_mem_head?_entryMembersAt (depth : Nat) (es : List (Tree × Tree)) :
    ∀ m ∈ (entryMembersAt depth es).head?, m.depth = depth := by
  cases es <;> simp [entryMembersAt]

mutual

/-- A tree is made up of its hull and its members. -/
lemma eq_of_membersAt (depth : Nat) (t u : Tree) (hhull : t.hull = u.hull)
    (h : t.membersAt depth = u.membersAt depth) : t = u := by
  match t with
  | .null | .bool _ | .number _ | .text _ => cases u <;> simp_all [hull]
  | .sequence ts =>
    cases u with
    | sequence us => rw [eq_of_itemMembersAt depth ts us (by simpa [membersAt] using h)]
    | _ => simp [hull] at hhull
  | .mapping es =>
    cases u with
    | mapping fs => rw [eq_of_entryMembersAt depth es fs (by simpa [membersAt] using h)]
    | _ => simp [hull] at hhull
  | .tagged tag v =>
    cases u with
    | tagged tag' w =>
      obtain ⟨rfl, hvalue⟩ : tag = tag' ∧ v.hull = w.hull := by simpa [hull] using hhull
      rw [eq_of_membersAt depth v w hvalue (by simpa [membersAt] using h)]
    | _ => simp [hull] at hhull

lemma eq_of_itemMembersAt (depth : Nat) (ts us : List Tree)
    (h : itemMembersAt depth ts = itemMembersAt depth us) : ts = us := by
  match ts, us with
  | [], [] => rfl
  | [], u :: us => simp [itemMembersAt] at h
  | t :: ts, [] => simp [itemMembersAt] at h
  | t :: ts, u :: us =>
    rw [itemMembersAt, itemMembersAt, List.cons.injEq, Member.mk.injEq] at h
    obtain ⟨⟨-, -, hhull⟩, h⟩ := h
    obtain ⟨hinner, hrest⟩ := append_inj_of_depth (le_depth_of_mem_membersAt _ t)
      (le_depth_of_mem_membersAt _ u) (depth_of_mem_head?_itemMembersAt depth ts)
      (depth_of_mem_head?_itemMembersAt depth us) h
    rw [eq_of_membersAt _ t u hhull hinner, eq_of_itemMembersAt depth ts us hrest]

lemma eq_of_entryMembersAt (depth : Nat) (es fs : List (Tree × Tree))
    (h : entryMembersAt depth es = entryMembersAt depth fs) : es = fs := by
  match es, fs with
  | [], [] => rfl
  | [], f :: fs => simp [entryMembersAt] at h
  | e :: es, [] => simp [entryMembersAt] at h
  | (k, v) :: es, (k', w) :: fs =>
    rw [entryMembersAt, entryMembersAt, List.cons.injEq, Member.mk.injEq, Option.some.injEq] at h
    obtain ⟨⟨-, rfl, hhull⟩, h⟩ := h
    obtain ⟨hinner, hrest⟩ := append_inj_of_depth (le_depth_of_mem_membersAt _ v)
      (le_depth_of_mem_membersAt _ w) (depth_of_mem_head?_entryMembersAt depth es)
      (depth_of_mem_head?_entryMembersAt depth fs) h
    rw [eq_of_membersAt _ v w hhull hinner, eq_of_entryMembersAt depth es fs hrest]

end

/-! ### Dropping nulls -/

@[simp] lemma isNull_hull (t : Tree) : t.hull.isNull = t.isNull := by
  induction t using isNull.induct with
  | case1 => rfl
  | case2 tag v ih => simpa [hull, isNull] using ih
  | case3 t _ htagged => cases t <;> simp_all [hull, isNull]

@[simp] lemma hull_dropNulls (t : Tree) : t.dropNulls.hull = t.hull := by
  cases t <;> simp [dropNulls, hull]

@[simp] lemma isNull_dropNulls (t : Tree) : t.dropNulls.isNull = t.isNull := by
  rw [← isNull_hull, hull_dropNulls, isNull_hull]

mutual

lemma dropNulls_dropNulls (t : Tree) : t.dropNulls.dropNulls = t.dropNulls := by
  match t with
  | .null | .bool _ | .number _ | .text _ | .tagged _ _ => simp [dropNulls]
  | .sequence ts => simp [dropNulls, dropNullItems_dropNullItems ts]
  | .mapping es => simp [dropNulls, dropNullEntries_dropNullEntries es]

lemma dropNullItems_dropNullItems (ts : List Tree) :
    dropNullItems (dropNullItems ts) = dropNullItems ts := by
  match ts with
  | [] => simp [dropNullItems]
  | t :: ts =>
    rw [dropNullItems]
    split
    next => exact dropNullItems_dropNullItems ts
    next hnull =>
      simp [dropNullItems, hnull, dropNulls_dropNulls t, dropNullItems_dropNullItems ts]

lemma dropNullEntries_dropNullEntries (es : List (Tree × Tree)) :
    dropNullEntries (dropNullEntries es) = dropNullEntries es := by
  match es with
  | [] => simp [dropNullEntries]
  | (k, v) :: es =>
    rw [dropNullEntries]
    split
    next => exact dropNullEntries_dropNullEntries es
    next hnull =>
      simp [dropNullEntries, hnull, dropNulls_dropNulls v, dropNullEntries_dropNullEntries es]

end

/-- No value in the tree has a tag. Keys may have one. -/
inductive TagFree : Tree → Prop
  | null : TagFree .null
  | bool (b : Bool) : TagFree (.bool b)
  | number (n : Number) : TagFree (.number n)
  | text (s : String) : TagFree (.text s)
  | sequence {ts : List Tree} (items : ∀ t ∈ ts, TagFree t) : TagFree (.sequence ts)
  | mapping {es : List (Tree × Tree)} (values : ∀ e ∈ es, TagFree e.2) : TagFree (.mapping es)

/-- What is null has nothing inside. -/
lemma membersAt_of_isNull (depth : Nat) {t : Tree} (h : t.isNull = true) :
    t.membersAt depth = [] := by
  induction t using isNull.induct with
  | case1 => simp [membersAt]
  | case2 tag v ih => simpa [membersAt] using ih h
  | case3 t hnull htagged => cases t <;> simp_all [isNull]

lemma itemMembersAt_dropNullItems (depth : Nat) (ts : List Tree)
    (h : ∀ t ∈ ts, ∀ depth, t.dropNulls.membersAt depth =
      (t.membersAt depth).filter fun m => !m.hull.isNull) :
    itemMembersAt depth (dropNullItems ts) =
      (itemMembersAt depth ts).filter fun m => !m.hull.isNull := by
  induction ts with
  | nil => simp [dropNullItems, itemMembersAt]
  | cons t ts ih =>
    rw [List.forall_mem_cons] at h
    rw [dropNullItems, itemMembersAt, List.filter_cons, List.filter_append, ← h.1, ← ih h.2]
    split
    next hnull => simp [hnull, membersAt_of_isNull]
    next hnull => simp [hnull, itemMembersAt]

lemma entryMembersAt_dropNullEntries (depth : Nat) (es : List (Tree × Tree))
    (h : ∀ e ∈ es, ∀ depth, e.2.dropNulls.membersAt depth =
      (e.2.membersAt depth).filter fun m => !m.hull.isNull) :
    entryMembersAt depth (dropNullEntries es) =
      (entryMembersAt depth es).filter fun m => !m.hull.isNull := by
  induction es with
  | nil => simp [dropNullEntries, entryMembersAt]
  | cons e es ih =>
    obtain ⟨k, v⟩ := e
    rw [List.forall_mem_cons] at h
    rw [dropNullEntries, entryMembersAt, List.filter_cons, List.filter_append, ← h.1, ← ih h.2]
    split
    next hnull => simp [hnull, membersAt_of_isNull]
    next hnull => simp [hnull, entryMembersAt]

/-- Dropping nulls takes the null members off the list. -/
lemma TagFree.membersAt_dropNulls {t : Tree} (h : t.TagFree) (depth : Nat) :
    t.dropNulls.membersAt depth = (t.membersAt depth).filter fun m => !m.hull.isNull := by
  induction h generalizing depth with
  | null | bool _ | number _ | text _ => simp [dropNulls, membersAt]
  | sequence _ ih =>
    rw [dropNulls, membersAt, membersAt]
    exact itemMembersAt_dropNullItems depth _ ih
  | mapping _ ih =>
    rw [dropNulls, membersAt, membersAt]
    exact entryMembersAt_dropNullEntries depth _ ih

/-- Dropping nulls from a tree without tags keeps its hull and those of its members that are not
null, with their depths, keys and hulls, in their order; there is one such tree. Nothing in it is
null, and dropping nulls again changes nothing. -/
theorem members_dropNulls {t : Tree} (h : t.TagFree) :
    t.dropNulls.hull = t.hull ∧
    t.dropNulls.members = t.members.filter (fun m => !m.hull.isNull) ∧
    (∀ u : Tree, u.hull = t.hull → u.members = t.members.filter (fun m => !m.hull.isNull) →
      u = t.dropNulls) ∧
    (∀ m ∈ t.dropNulls.members, m.hull ≠ .null) ∧
    t.dropNulls.dropNulls = t.dropNulls := by
  have hmembers := h.membersAt_dropNulls 0
  refine ⟨hull_dropNulls t, hmembers, fun u hhull hu => ?_, fun m hm hnull => ?_,
    dropNulls_dropNulls t⟩
  · exact eq_of_membersAt 0 u t.dropNulls (hhull.trans (hull_dropNulls t).symm)
      (hu.trans hmembers.symm)
  · rw [members, hmembers, List.mem_filter, hnull] at hm
    simp [isNull] at hm

/-- A mapping that loses its only entry stays as an empty one, and a null in a key stays. -/
theorem members_dropNulls_of_emptied :
    (Tree.mapping [(.text "a", .sequence [.null, .mapping [(.text "b", .null)]]),
        (.text "c", .null), (.sequence [.null], .bool true)]).TagFree ∧
      (Tree.mapping [(.text "a", .sequence [.null, .mapping [(.text "b", .null)]]),
        (.text "c", .null), (.sequence [.null], .bool true)]).dropNulls.members =
        [⟨0, some (.text "a"), .sequence []⟩, ⟨1, none, .mapping []⟩,
          ⟨0, some (.sequence [.null]), .bool true⟩] := by
  have hinner : (Tree.sequence [.null, .mapping [(.text "b", .null)]]).TagFree :=
    .sequence (by simp [TagFree.null, TagFree.mapping])
  have hfree : (Tree.mapping [(.text "a", .sequence [.null, .mapping [(.text "b", .null)]]),
      (.text "c", .null), (.sequence [.null], .bool true)]).TagFree :=
    .mapping (by simp [hinner, TagFree.null, TagFree.bool])
  exact ⟨hfree, (members_dropNulls hfree).2.1⟩

end TwoStage.Yaml.Tree
