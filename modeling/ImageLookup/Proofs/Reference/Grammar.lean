import Mathlib.Data.List.Forall2
import Mathlib.Data.List.Nodup
import ImageLookup.Proofs.Reference.Canonical

/-! # The grammar of references

A text is derived by a production together with the reference that it means then.  The readings of a
text are exactly the references that some production derives from it (`mem_readings_iff`), at most
one for each production, in the order of the productions.

Two productions never derive one reference from one text: the number of slashes in the name tells
them apart, and where that is one, whether the reference is on the hub.  So the readings have no
duplicates, and their number decides what `parse` answers.
-/

namespace ImageLookup.Reference

/-! ### Derivations -/

/-- What may stand behind the last component of a name, and the target that it gives. -/
inductive IsSuffix : List Char → Target → Prop
  | missing : IsSuffix [] .latest
  | tag {name} : isTag name = true → IsSuffix (':' :: name) (.tag (String.ofList name))
  | digest {text d} : Digest.ofText? (String.ofList text) = .ok d →
    IsSuffix ('@' :: text) (.digest d)

inductive Production where
  | hostedPath
  | hostedImage
  | hubUser
  | hubImage
deriving DecidableEq, Repr

namespace Production

/-- The productions from the most to the least specific. -/
def order : List Production := [.hostedPath, .hostedImage, .hubUser, .hubImage]

theorem mem_order (p : Production) : p ∈ order := by
  cases p <;> decide

inductive Derives : Production → List Char → Reference → Prop
  | hostedPath {host components suffix target} : isHost host = true → 2 ≤ components.length →
    (∀ c ∈ components, isComponent c = true) → IsSuffix suffix target →
    Derives .hostedPath (host ++ '/' :: List.intercalate ['/'] components ++ suffix)
      ⟨String.ofList host, String.ofList (List.intercalate ['/'] components), target⟩
  | hostedImage {host image suffix target} : isHost host = true → String.ofList host ∉ hubHosts →
    isComponent image = true → IsSuffix suffix target →
    Derives .hostedImage (host ++ '/' :: image ++ suffix)
      ⟨String.ofList host, String.ofList image, target⟩
  | hubUser {user image suffix target} : isUserName user = true → isComponent image = true →
    IsSuffix suffix target →
    Derives .hubUser (user ++ '/' :: image ++ suffix)
      ⟨hubHost, String.ofList (user ++ '/' :: image), target⟩
  | hubImage {image suffix target} : isComponent image = true → IsSuffix suffix target →
    Derives .hubImage (image ++ suffix) ⟨hubHost, hubLibrary ++ "/" ++ String.ofList image, target⟩

/-- How a production reads a name that stands before a target. -/
def read? : Production → List Char → Target → Option Reference
  | .hostedPath => hostedPath?
  | .hostedImage => hostedImage?
  | .hubUser => hubUser?
  | .hubImage => hubImage?

end Production

/-! ### Suffixes -/

variable {cs name word suffix : List Char} {target : Target} {r : Reference}

theorem eq_text_of_ofText? {text : List Char} {d : Digest}
    (h : Digest.ofText? (String.ofList text) = .ok d) : text = d.text.toList := by
  rw [Digest.ofText?_eq_ok_iff.1 h, String.toList_ofList]

/-- A suffix that is not missing is the one that its target is written with. -/
theorem IsSuffix.eq_nil_or_eq (h : IsSuffix suffix target) :
    (suffix = [] ∧ target = .latest) ∨ (suffix = target.suffix.toList ∧ target.IsValid) := by
  cases h with
  | missing => exact .inl ⟨rfl, rfl⟩
  | tag htag =>
    refine .inr ⟨?_, ?_⟩
    · simp [Target.suffix, String.toList_append]
    · simpa [Target.IsValid] using htag
  | digest hdigest =>
    refine .inr ⟨?_, _, hdigest⟩
    rw [eq_text_of_ofText? hdigest, Target.suffix, String.toList_append]
    rfl

theorem IsSuffix.slash_beq_eq_false (h : IsSuffix suffix target) :
    ∀ c ∈ suffix, (c == '/') = false := by
  rcases h.eq_nil_or_eq with ⟨rfl, -⟩ | ⟨rfl, hvalid⟩
  · intro c hc
    cases hc
  · exact slash_beq_eq_false_of_mem_suffix target hvalid

theorem splitTarget?_component (hword : isComponent word = true) :
    splitTarget? word = some (word, .latest) := by
  have hnone : ∀ separator, isNameChar separator = false →
      ∀ c ∈ word, (c == separator) = false :=
    fun separator hseparator c hc =>
      beq_eq_false_of_isNameChar (isNameChar_of_mem_component hword c hc) hseparator
  have hslash : Text.cutLast (· == '/') word = none :=
    Text.cutLast_eq_none_iff.2 (hnone '/' (by decide))
  have hat : Text.cutFirst (· == '@') word = none :=
    Text.cutFirst_eq_none_iff.2 (hnone '@' (by decide))
  have hcolon : Text.cutLast (· == ':') word = none :=
    Text.cutLast_eq_none_iff.2 (hnone ':' (by decide))
  simp [splitTarget?, hslash, hat, hcolon]

theorem splitTarget?_word (hword : isComponent word = true) (hsuffix : IsSuffix suffix target) :
    splitTarget? (word ++ suffix) = some (word, target) := by
  rcases hsuffix.eq_nil_or_eq with ⟨rfl, rfl⟩ | ⟨rfl, hvalid⟩
  · rw [List.append_nil]
    exact splitTarget?_component hword
  · exact splitTarget?_component_append_suffix hword hvalid

/-- A mark before the last slash, such as that of a port, does not set off a target. -/
theorem splitTarget?_path (path : List Char) (hword : isComponent word = true)
    (hsuffix : IsSuffix suffix target) :
    splitTarget? (path ++ '/' :: word ++ suffix) = some (path ++ '/' :: word, target) := by
  have hslash : ∀ c ∈ word ++ suffix, (c == '/') = false := by
    intro c hc
    rcases List.mem_append.1 hc with hc | hc
    · exact slash_beq_eq_false_of_isComponent hword c hc
    · exact hsuffix.slash_beq_eq_false c hc
  rw [List.append_assoc, List.cons_append, splitTarget?_append_slash hslash,
    splitTarget?_word hword hsuffix]
  rfl

theorem exists_suffix_of_slashless (hslash : Text.cutLast (· == '/') cs = none)
    (h : splitTarget? cs = some (name, target)) :
    ∃ suffix, cs = name ++ suffix ∧ IsSuffix suffix target := by
  simp only [splitTarget?, hslash, List.nil_append] at h
  split at h
  · -- a digest
    rename_i before digest hat
    obtain ⟨c, hc, hcs, -⟩ := Text.cutFirst_eq_some hat
    split at h
    · rename_i d hdigest
      obtain ⟨rfl, rfl⟩ := Prod.mk.inj (Option.some.inj h)
      refine ⟨'@' :: digest, ?_, .digest ?_⟩
      · rw [hcs, eq_of_beq hc]
      · rw [Digest.ofText?, String.toList_ofList, hdigest]
    · cases h
  · split at h
    · -- a tag
      rename_i before tag hcolon
      obtain ⟨c, hc, hcs, -⟩ := Text.cutLast_eq_some hcolon
      split at h
      · rename_i htag
        obtain ⟨rfl, rfl⟩ := Prod.mk.inj (Option.some.inj h)
        refine ⟨':' :: tag, ?_, .tag htag⟩
        rw [hcs, eq_of_beq hc]
      · cases h
    · -- no suffix
      obtain ⟨rfl, rfl⟩ := Prod.mk.inj (Option.some.inj h)
      exact ⟨[], (List.append_nil cs).symm, .missing⟩

/-- Whatever a text is divided into, the name is followed by a suffix for the target. -/
theorem exists_suffix_of_splitTarget? (h : splitTarget? cs = some (name, target)) :
    ∃ suffix, cs = name ++ suffix ∧ IsSuffix suffix target := by
  cases hcut : Text.cutLast (· == '/') cs with
  | none => exact exists_suffix_of_slashless hcut h
  | some sides =>
    obtain ⟨c, hc, rfl, hlast⟩ := Text.cutLast_eq_some hcut
    obtain rfl := eq_of_beq hc
    rw [splitTarget?_append_slash hlast, Option.map_eq_some_iff] at h
    obtain ⟨⟨word, target'⟩, hsplit, heq⟩ := h
    obtain ⟨rfl, rfl⟩ := Prod.mk.inj heq
    obtain ⟨suffix, hword, hsuffix⟩ :=
      exists_suffix_of_slashless (Text.cutLast_eq_none_iff.2 hlast) hsplit
    refine ⟨suffix, ?_, hsuffix⟩
    rw [hword, List.append_assoc, List.cons_append]

/-! ### What productions derive -/

namespace Production

variable {p q : Production}

theorem Derives.read? (h : p.Derives cs r) :
    ∃ name target, splitTarget? cs = some (name, target) ∧ p.read? name target = some r := by
  cases h with
  | @hostedPath host components suffix target hhost hlength hall hsuffix =>
    refine ⟨_, target, ?_,
      hostedPath?_eq_some_iff.2 ⟨host, components, hhost, hlength, hall, rfl, rfl⟩⟩
    have hne : components ≠ [] := by
      rintro rfl
      simp at hlength
    obtain ⟨path, last, hlast, hname⟩ := exists_last_component hne hall host
    rw [hname]
    exact splitTarget?_path path hlast hsuffix
  | @hostedImage host image suffix target hhost hhub himage hsuffix =>
    exact ⟨_, target, splitTarget?_path host himage hsuffix,
      hostedImage?_eq_some_iff.2 ⟨host, image, hhost, himage, hhub, rfl, rfl⟩⟩
  | @hubUser user image suffix target huser himage hsuffix =>
    exact ⟨_, target, splitTarget?_path user himage hsuffix,
      hubUser?_eq_some_iff.2 ⟨user, image, huser, himage, rfl, rfl⟩⟩
  | @hubImage image suffix target himage hsuffix =>
    exact ⟨image, target, splitTarget?_word himage hsuffix, hubImage?_eq_some_iff.2 ⟨himage, rfl⟩⟩

theorem derives_of_read? (hsplit : splitTarget? cs = some (name, target))
    (hread : p.read? name target = some r) : p.Derives cs r := by
  obtain ⟨suffix, rfl, hsuffix⟩ := exists_suffix_of_splitTarget? hsplit
  cases p with
  | hostedPath =>
    obtain ⟨host, components, hhost, hlength, hall, rfl, rfl⟩ := hostedPath?_eq_some_iff.1 hread
    exact .hostedPath hhost hlength hall hsuffix
  | hostedImage =>
    obtain ⟨host, image, hhost, himage, hhub, rfl, rfl⟩ := hostedImage?_eq_some_iff.1 hread
    exact .hostedImage hhost hhub himage hsuffix
  | hubUser =>
    obtain ⟨user, image, huser, himage, rfl, rfl⟩ := hubUser?_eq_some_iff.1 hread
    exact .hubUser huser himage hsuffix
  | hubImage =>
    obtain ⟨himage, rfl⟩ := hubImage?_eq_some_iff.1 hread
    exact .hubImage himage hsuffix

/-- A production derives a reference just where its reader, given the name and the target, reads
    one. -/
theorem derives_iff : p.Derives cs r ↔
    ∃ name target, splitTarget? cs = some (name, target) ∧ p.read? name target = some r := by
  constructor
  · exact Derives.read?
  · rintro ⟨name, target, hsplit, hread⟩
    exact derives_of_read? hsplit hread

theorem Derives.unique {r' : Reference} (h : p.Derives cs r) (h' : p.Derives cs r') : r = r' := by
  obtain ⟨name, target, hsplit, hread⟩ := h.read?
  obtain ⟨name', target', hsplit', hread'⟩ := h'.read?
  obtain ⟨rfl, rfl⟩ := Prod.mk.inj (Option.some.inj (hsplit.symm.trans hsplit'))
  exact Option.some.inj (hread.symm.trans hread')

/-! ### Which production it was -/

/-- The production that a name and its reading can come from. -/
def telling (name : List Char) (r : Reference) : Production :=
  if name.count '/' = 0 then .hubImage
  else if name.count '/' ≠ 1 then .hostedPath
  else if r.host ∈ hubHosts then .hubUser
  else .hostedImage

theorem count_slash_of_isHost {host : List Char} (h : isHost host = true) :
    host.count '/' = 0 := by
  refine List.count_eq_zero.2 fun hmem => ?_
  exact absurd (slash_beq_eq_false_of_isHost h '/' hmem) (by decide)

theorem count_slash_of_isComponent (h : isComponent word = true) : word.count '/' = 0 :=
  List.count_eq_zero.2 (slash_not_mem_component h)

theorem count_slash_joined {components : List (List Char)} (hlength : 2 ≤ components.length) :
    0 < (List.intercalate ['/'] components).count '/' := by
  match components with
  | first :: second :: rest =>
    rw [List.intercalate_cons_cons, List.count_append, List.count_append]
    exact Nat.lt_add_right _ (Nat.lt_add_left _ (by decide))

/-- The number of slashes and the host of a reading tell its production. -/
theorem eq_telling (h : p.read? name target = some r) : p = telling name r := by
  cases p with
  | hostedPath =>
    obtain ⟨host, components, hhost, hlength, -, rfl, rfl⟩ := hostedPath?_eq_some_iff.1 h
    have hjoined := count_slash_joined hlength
    have hcount : (host ++ '/' :: List.intercalate ['/'] components).count '/' =
        (List.intercalate ['/'] components).count '/' + 1 := by
      simp [count_slash_of_isHost hhost]
    rw [telling, hcount, if_neg (by omega), if_pos (by omega)]
  | hostedImage =>
    obtain ⟨host, image, hhost, himage, hhub, rfl, rfl⟩ := hostedImage?_eq_some_iff.1 h
    have hcount : (host ++ '/' :: image).count '/' = 1 := by
      simp [count_slash_of_isHost hhost, count_slash_of_isComponent himage]
    rw [telling, hcount, if_neg (by decide), if_neg (by decide), if_neg hhub]
  | hubUser =>
    obtain ⟨user, image, huser, himage, rfl, rfl⟩ := hubUser?_eq_some_iff.1 h
    have hcount : (user ++ '/' :: image).count '/' = 1 := by
      simp [count_slash_of_isComponent (isComponent_of_isUserName huser),
        count_slash_of_isComponent himage]
    rw [telling, hcount, if_neg (by decide), if_neg (by decide),
      if_pos (by decide : hubHost ∈ hubHosts)]
  | hubImage =>
    obtain ⟨himage, rfl⟩ := hubImage?_eq_some_iff.1 h
    rw [telling, if_pos (count_slash_of_isComponent himage)]

end Production

/-! ### Readings -/

theorem readings_eq (cs : List Char) :
    readings cs = (splitTarget? cs).elim []
      fun s => Production.order.filterMap fun p => p.read? s.1 s.2 := by
  unfold readings
  cases splitTarget? cs with
  | none => rfl
  | some s => rfl

theorem mem_readings_iff : r ∈ readings cs ↔ ∃ p : Production, p.Derives cs r := by
  simp only [Production.derives_iff, readings_eq]
  cases hsplit : splitTarget? cs with
  | none => simp
  | some s =>
    obtain ⟨name, target⟩ := s
    simp only [Option.elim_some, List.mem_filterMap, Option.some.injEq, Prod.mk.injEq]
    constructor
    · rintro ⟨p, -, hread⟩
      exact ⟨p, name, target, ⟨rfl, rfl⟩, hread⟩
    · rintro ⟨p, _, _, ⟨rfl, rfl⟩, hread⟩
      exact ⟨p, p.mem_order, hread⟩

theorem forall₂_filterMap {α β : Type} (f : α → Option β) (xs : List α) :
    List.Forall₂ (fun a b => f a = some b) (xs.filter fun a => (f a).isSome) (xs.filterMap f) := by
  induction xs with
  | nil => exact .nil
  | cons x xs ih =>
    cases hx : f x with
    | none => simpa [hx] using ih
    | some b => simpa [hx] using ih

/-- The productions that derive something from a text give its readings one by one. -/
theorem forall₂_readings (cs : List Char) :
    ∃ ps : List Production, ps.Sublist Production.order ∧
      (∀ p, p ∈ ps ↔ ∃ r, p.Derives cs r) ∧
      List.Forall₂ (fun p r => p.Derives cs r) ps (readings cs) := by
  rw [readings_eq]
  cases hsplit : splitTarget? cs with
  | none =>
    refine ⟨[], List.nil_sublist _, ?_, .nil⟩
    simp [Production.derives_iff, hsplit]
  | some s =>
    obtain ⟨name, target⟩ := s
    have hderives : ∀ (p : Production) (r : Reference),
        p.Derives cs r ↔ p.read? name target = some r := by
      simp [Production.derives_iff, hsplit]
    simp only [hderives]
    refine ⟨_, List.filter_sublist, ?_, forall₂_filterMap _ _⟩
    intro p
    rw [List.mem_filter, Option.isSome_iff_exists]
    exact and_iff_right p.mem_order

/-- No reading comes up twice, since it tells its production. -/
theorem nodup_readings (cs : List Char) : (readings cs).Nodup := by
  rw [readings_eq]
  cases splitTarget? cs with
  | none => exact List.nodup_nil
  | some s =>
    refine List.Nodup.filterMap ?_ (by decide : Production.order.Nodup)
    intro p q r hp hq
    rw [Production.eq_telling hp, Production.eq_telling hq]

/-! ### What reading answers -/

theorem parse_eq_unparseable_iff {s : String} :
    parse s = .error (.unparseableReference (String.ofList (Text.trim s.toList))) ↔
      readings (Text.trim s.toList) = [] := by
  unfold parse
  dsimp only
  split
  · rename_i h
    simp [h]
  · rename_i h
    simp [h]
  · rename_i hnil hone
    constructor
    · intro hparse
      cases hparse
    · intro h
      exact absurd h hnil

theorem parse_eq_ambiguous_iff {s : String} {rs : List Reference} :
    parse s = .error (.ambiguousReference (String.ofList (Text.trim s.toList)) rs) ↔
      readings (Text.trim s.toList) = rs ∧ 2 ≤ rs.length := by
  unfold parse
  dsimp only
  split
  · rename_i h
    rw [h]
    constructor
    · intro hparse
      cases hparse
    · rintro ⟨rfl, hlength⟩
      simp at hlength
  · rename_i r h
    rw [h]
    constructor
    · intro hparse
      cases hparse
    · rintro ⟨rfl, hlength⟩
      simp at hlength
  · rename_i hnil hone
    have hlength : 2 ≤ (readings (Text.trim s.toList)).length := by
      match hreadings : readings (Text.trim s.toList) with
      | [] => exact absurd hreadings hnil
      | [r] => exact absurd hreadings (hone r)
      | r :: r' :: rs => simp
    constructor
    · intro hparse
      have hrs : readings (Text.trim s.toList) = rs := by simpa using hparse
      exact ⟨hrs, hrs ▸ hlength⟩
    · rintro ⟨rfl, -⟩
      rfl

/-- The readings of a text are what the productions derive from it, at most one for each, in the
    order of the productions and without duplicates.  A text is trimmed and is then a reference if
    it has one reading; with none it cannot be parsed, and with more it is ambiguous between
    them. -/
theorem readings_follow_grammar :
    (∀ t r, r ∈ readings t ↔ ∃ p : Production, p.Derives t r) ∧
    (∀ (p : Production) t r r', p.Derives t r → p.Derives t r' → r = r') ∧
    (∀ t, (readings t).Nodup ∧
      ∃ ps : List Production, ps.Sublist Production.order ∧ (∀ p, p ∈ ps ↔ ∃ r, p.Derives t r) ∧
        List.Forall₂ (fun p r => p.Derives t r) ps (readings t)) ∧
    (∀ s : String, (∃ t, Text.IsTrimOf t s.toList) ∧ ∀ t, Text.IsTrimOf t s.toList →
      (∀ r, parse s = .ok r ↔ readings t = [r]) ∧
      (parse s = .error (.unparseableReference (String.ofList t)) ↔ readings t = []) ∧
      (∀ rs, parse s = .error (.ambiguousReference (String.ofList t) rs) ↔
        readings t = rs ∧ 2 ≤ rs.length)) := by
  refine ⟨fun t r => mem_readings_iff, fun p t r r' => Production.Derives.unique, ?_, ?_⟩
  · intro t
    exact ⟨nodup_readings t, forall₂_readings t⟩
  · intro s
    refine ⟨⟨_, Text.isTrimOf_trim s.toList⟩, ?_⟩
    intro t ht
    obtain rfl := ht.eq_trim
    refine ⟨?_, parse_eq_unparseable_iff, ?_⟩
    · intro r
      exact parse_eq_ok_iff
    · intro rs
      exact parse_eq_ambiguous_iff

/-- A bare `localhost` is a host and a user name. -/
theorem readings_follow_grammar_localhost :
    let t := "localhost/app:1".toList
    let hosted : Reference := ⟨"localhost", "app", .tag "1"⟩
    let onHub : Reference := ⟨"registry-1.docker.io", "localhost/app", .tag "1"⟩
    Production.hostedImage.Derives t hosted ∧ Production.hubUser.Derives t onHub ∧
      readings t = [hosted, onHub] ∧
      (∀ r, Production.hubUser.Derives t r → onHub = r) ∧
      Text.IsTrimOf t " localhost/app:1\n".toList ∧
      parse " localhost/app:1\n" = .error (.ambiguousReference "localhost/app:1" [hosted, onHub]) := by
  intro t hosted onHub
  have hsuffix : IsSuffix [':', '1'] (.tag "1") := .tag (by decide)
  have hhosted : Production.hostedImage.Derives
      ("localhost".toList ++ '/' :: "app".toList ++ [':', '1']) hosted :=
    .hostedImage (by decide) (by decide) (by decide) hsuffix
  have hhub : Production.hubUser.Derives
      ("localhost".toList ++ '/' :: "app".toList ++ [':', '1']) onHub :=
    .hubUser (by decide) (by decide) hsuffix
  have hreadings : readings t = [hosted, onHub] := by decide +kernel
  have hblanks : Text.trim " localhost/app:1\n".toList = t := by decide +kernel
  have htrim : Text.IsTrimOf t " localhost/app:1\n".toList := hblanks ▸ Text.isTrimOf_trim _
  obtain ⟨-, hunique, -, hparse⟩ := readings_follow_grammar
  refine ⟨hhosted, hhub, hreadings, fun r => hunique _ t _ r hhub, htrim, ?_⟩
  exact (((hparse _).2 t htrim).2.2 _).2 ⟨hreadings, by decide⟩

end ImageLookup.Reference
