import ImageLookup.Json.Value

/-! # Paths into documents

A path leads through members of objects: `Holds v path x` says that `x` stands at the end of a path,
by what is among the members and not by how they are searched.  In a value that was read every key of
an object occurs once (`WellKeyed`), so at most one value stands at the end of a path, and `at?` finds it.
-/

namespace ImageLookup.Json

/-- The keys of objects stand in strict order, so none occurs twice, also further down. -/
inductive Value.WellKeyed : Value → Prop where
  | null : WellKeyed .null
  | bool (b : Bool) : WellKeyed (.bool b)
  | integer (i : Int) : WellKeyed (.integer i)
  | real (x : Double) : WellKeyed (.real x)
  | text (s : String) : WellKeyed (.text s)
  | array {items : List Value} (hitems : ∀ v ∈ items, WellKeyed v) : WellKeyed (.array items)
  | object {members : List (String × Value)} (hkeys : members.Pairwise fun m n => m.1 < n.1)
      (hmembers : ∀ m ∈ members, WellKeyed m.2) : WellKeyed (.object members)

/-- A value stands at the end of a path of keys. -/
inductive Value.Holds : Value → List String → Value → Prop where
  | here (v : Value) : Holds v [] v
  | member {members : List (String × Value)} {key : String} {path : List String} {v x : Value}
      (hmem : (key, v) ∈ members) (hrest : Holds v path x) : Holds (.object members) (key :: path) x

variable {key : String} {v w x : Value} {members : List (String × Value)} {path : List String}

/-! ### Members -/

theorem mem_insertMember {m : String × Value} (hm : m ∈ insertMember key v members) :
    m = (key, v) ∨ m ∈ members := by
  induction members with
  | nil => exact .inl (List.mem_singleton.1 hm)
  | cons other members ih =>
    obtain ⟨k, w⟩ := other
    rw [insertMember] at hm
    split at hm
    · rcases List.mem_cons.1 hm with hm | hm
      · exact .inl hm
      · exact .inr (List.mem_cons_of_mem _ hm)
    · split at hm
      · exact List.mem_cons.1 hm
      · rcases List.mem_cons.1 hm with hm | hm
        · exact .inr (hm ▸ List.mem_cons_self)
        · exact (ih hm).imp_right (List.mem_cons_of_mem _)

/-- Entering a member keeps the keys in strict order, also where the key is there already. -/
theorem pairwise_insertMember (key : String) (v : Value)
    (h : members.Pairwise fun m n => m.1 < n.1) :
    (insertMember key v members).Pairwise fun m n => m.1 < n.1 := by
  induction members with
  | nil => exact List.pairwise_singleton ..
  | cons other members ih =>
    obtain ⟨k, w⟩ := other
    obtain ⟨hfirst, hrest⟩ := List.pairwise_cons.1 h
    rw [insertMember]
    split
    case isTrue heq =>
      subst heq
      exact List.pairwise_cons.2 ⟨hfirst, hrest⟩
    case isFalse hne =>
      split
      case isTrue hlt =>
        refine List.pairwise_cons.2 ⟨?_, h⟩
        intro m hm
        rcases List.mem_cons.1 hm with rfl | hm
        · exact hlt
        · exact String.lt_trans hlt (hfirst m hm)
      case isFalse hle =>
        refine List.pairwise_cons.2 ⟨?_, ih hrest⟩
        intro m hm
        rcases mem_insertMember hm with rfl | hm
        · exact Std.lt_of_le_of_ne (String.not_lt.1 hle) (Ne.symm hne)
        · exact hfirst m hm

/-- In an object whose keys are in order, what is looked up is what is there. -/
theorem lookup?_eq_some_iff (h : members.Pairwise fun m n => m.1 < n.1) :
    lookup? key members = some v ↔ (key, v) ∈ members := by
  induction members with
  | nil => simp [lookup?]
  | cons other members ih =>
    obtain ⟨k, w⟩ := other
    obtain ⟨hfirst, hrest⟩ := List.pairwise_cons.1 h
    rw [lookup?, List.mem_cons, Prod.mk.injEq]
    split
    case isTrue heq =>
      subst heq
      have hnone : (key, v) ∉ members := fun hmem => String.lt_irrefl key (hfirst _ hmem)
      simp [hnone, eq_comm]
    case isFalse hne => simp [hne, ih hrest]

/-! ### Values that were read -/

mutual

theorem Value.wellKeyed_of_ofTree? {room : Nat} : {t : Tree} → {v : Value} →
    Value.ofTree? room t = some v → v.WellKeyed
  | .null, v, h => by
    rw [Value.ofTree?] at h
    cases h
    exact .null
  | .bool b, v, h => by
    rw [Value.ofTree?] at h
    cases h
    exact .bool b
  | .number n, v, h => by
    rw [Value.ofTree?, Option.or_eq_some_iff] at h
    rcases h with h | ⟨-, h⟩
    · obtain ⟨i, -, rfl⟩ := Option.map_eq_some_iff.1 h
      exact .integer i
    · obtain ⟨x, -, rfl⟩ := Option.map_eq_some_iff.1 h
      exact .real x
  | .text pieces, v, h => by
    rw [Value.ofTree?] at h
    obtain ⟨s, -, rfl⟩ := Option.map_eq_some_iff.1 h
    exact .text s
  | .array items, v, h => by
    cases room with
    | zero =>
      rw [Value.ofTree?] at h
      cases h
    | succ room =>
      rw [Value.ofTree?] at h
      obtain ⟨vs, hvs, rfl⟩ := Option.map_eq_some_iff.1 h
      exact .array (wellKeyed_of_itemsOf? hvs)
  | .object members, v, h => by
    cases room with
    | zero =>
      rw [Value.ofTree?] at h
      cases h
    | succ room =>
      rw [Value.ofTree?] at h
      obtain ⟨ms, hms, rfl⟩ := Option.map_eq_some_iff.1 h
      exact wellKeyed_of_membersOf? (.object .nil (by simp)) hms

theorem wellKeyed_of_itemsOf? {room : Nat} : {ts : List Tree} → {vs : List Value} →
    itemsOf? room ts = some vs → ∀ v ∈ vs, v.WellKeyed
  | [], vs, h => by
    rw [itemsOf?] at h
    cases h
    simp
  | t :: ts, vs, h => by
    rw [itemsOf?] at h
    obtain ⟨v, hv, h⟩ := Option.bind_eq_some_iff.1 h
    obtain ⟨rest, hrest, h⟩ := Option.bind_eq_some_iff.1 h
    cases h
    intro x hx
    rcases List.mem_cons.1 hx with rfl | hx
    · exact Value.wellKeyed_of_ofTree? hv
    · exact wellKeyed_of_itemsOf? hrest x hx

theorem wellKeyed_of_membersOf? {room : Nat} : {ts : List (List Piece × Tree)} →
    {done ms : List (String × Value)} → (Value.object done).WellKeyed →
    membersOf? room ts done = some ms → (Value.object ms).WellKeyed
  | [], done, ms, hdone, h => by
    rw [membersOf?] at h
    cases h
    exact hdone
  | (pieces, t) :: ts, done, ms, hdone, h => by
    rw [membersOf?] at h
    obtain ⟨key, -, h⟩ := Option.bind_eq_some_iff.1 h
    obtain ⟨v, hv, h⟩ := Option.bind_eq_some_iff.1 h
    refine wellKeyed_of_membersOf? ?_ h
    cases hdone with
    | object hkeys hmembers =>
      refine .object (pairwise_insertMember key v hkeys) ?_
      intro m hm
      rcases mem_insertMember hm with rfl | hm
      · exact Value.wellKeyed_of_ofTree? hv
      · exact hmembers m hm

end

/-- No document gives an object with a key twice, however often it names it. -/
theorem Value.wellKeyed_of_read? {document : Octets} (h : Value.read? document = some v) :
    v.WellKeyed := by
  obtain ⟨t, -, h⟩ := Option.bind_eq_some_iff.1 h
  exact wellKeyed_of_ofTree? h

/-! ### Paths -/

/-- Following a path finds a value if and only if the value stands at its end. -/
theorem Value.WellKeyed.at?_eq_some_iff (h : v.WellKeyed) :
    v.at? path = some x ↔ v.Holds path x := by
  induction path generalizing v with
  | nil =>
    rw [Value.at?, Option.some.injEq]
    constructor
    · rintro rfl
      exact .here v
    · rintro ⟨⟩
      rfl
  | cons key path ih =>
    rw [Value.at?, Option.bind_eq_some_iff]
    constructor
    · rintro ⟨w, hw, hrest⟩
      cases h with
      | object hkeys hmembers =>
        rw [Value.get?, lookup?_eq_some_iff hkeys] at hw
        exact .member hw ((ih (hmembers _ hw)).1 hrest)
      | _ => cases hw
    · rintro (_ | ⟨hmem, hrest⟩)
      cases h with
      | object hkeys hmembers =>
        exact ⟨_, (lookup?_eq_some_iff hkeys).2 hmem, (ih (hmembers _ hmem)).2 hrest⟩

end ImageLookup.Json
