import Mathlib.Data.List.Forall2
import ImageLookup.Proofs.Json.Texts

/-! # Reading what is printed

A printed object is read as its members, entered in the order in which they were printed, provided
that each of their values is read as itself.  Blanks between the parts do not matter, nor do blanks
behind the document.
-/

namespace ImageLookup.Json

variable {layout : Layout} {m : Machine} {frames : List Frame} {room : Nat} {v : Value} {t : Tree}
variable {key : String} {members : List (String × Value)}

/-! ### Layouts -/

/-- A layout that puts nothing but blanks between the parts of a container. -/
structure Layout.IsBlank (layout : Layout) : Prop where
  lineBreak : ∀ depth, ∀ c ∈ layout.lineBreak depth, isSpace c = true
  separator : ∃ blanks, layout.separator = ':' :: blanks ∧ ∀ c ∈ blanks, isSpace c = true

theorem Layout.isBlank_pretty : Layout.pretty.IsBlank where
  lineBreak depth c hc := by
    rcases List.mem_cons.1 hc with rfl | hc
    · rfl
    · obtain rfl := List.eq_of_mem_replicate hc
      rfl
  separator := ⟨[' '], rfl, List.forall_mem_singleton.2 rfl⟩

/-- Blanks do not go on with a word, and neither does the mark behind them. -/
theorem closes_blanks {blanks cs : List Char} (hblanks : ∀ c ∈ blanks, isSpace c = true)
    (h : Closes cs) : Closes (blanks ++ cs) := by
  cases blanks with
  | nil => exact h
  | cons c blanks =>
    have hc := hblanks c List.mem_cons_self
    exact closes_cons (lt_of_isSpace hc) (isWord_of_isSpace hc)

/-! ### Values -/

/-- Where a value may stand, the text of `v` at any depth puts the tree `t`. -/
def Prints (layout : Layout) (v : Value) (t : Tree) : Prop :=
  ∀ depth m, m.expected = .value → Spells m (v.print layout depth) (m.place t)

theorem prints_text (layout : Layout) (s : String) :
    Prints layout (.text s) (.text (piecesOfText s)) := by
  intro depth m hm
  apply Leads.spells
  rw [Value.print]
  apply leads_quoted
  rw [Machine.step, hm]
  rfl

theorem prints_bool (layout : Layout) (b : Bool) : Prints layout (.bool b) (.bool b) := by
  intro depth m hm
  rw [Value.print]
  cases b with
  | true =>
    apply spells_word (List.all_eq_true.1 rfl)
    rw [Machine.step, hm]
    rfl
  | false =>
    apply spells_word (List.all_eq_true.1 rfl)
    rw [Machine.step, hm]
    rfl

/-! ### Members -/

/-- What stands between the braces of an object with a member, without the first blanks. -/
theorem spells_member (key : String) (depth : Nat) {done : List (List Piece × Tree)}
    {last : List Piece} (hlayout : layout.IsBlank) (hv : Prints layout v t)
    (hexpected : m.expected = .key ∨ m.expected = .firstKey)
    (hframes : m.frames = .object done last :: frames) :
    Spells m (layout.lineBreak depth ++ (quoted key ++ (layout.separator ++ v.print layout depth)))
      ⟨.object ((piecesOfText key, t) :: done) [] :: frames, .next, none⟩ := by
  obtain ⟨blanks, hseparator, hblanks⟩ := hlayout.separator
  have hbreak : Leads m .between (layout.lineBreak depth) m .between :=
    leads_blanks (hlayout.lineBreak depth)
  have hkey : Leads m .between (quoted key)
      ⟨.object done (piecesOfText key) :: frames, .colon, none⟩ .between := by
    apply leads_quoted
    rcases hexpected with h | h <;> simp [Machine.step, h, Machine.key?, hframes]
  have hcolon : Leads ⟨.object done (piecesOfText key) :: frames, .colon, none⟩ .between
      layout.separator ⟨.object done (piecesOfText key) :: frames, .value, none⟩ .between := by
    rw [hseparator]
    exact (leads_punctuation (t := .colon) rfl rfl).cons (leads_blanks hblanks)
  have hvalue := hv depth ⟨.object done (piecesOfText key) :: frames, .value, none⟩ rfl
  exact hbreak.append_spells (hkey.append_spells (hcolon.append_spells hvalue))

/-- The members of an object and the members of a tree, one by one. -/
def PrintsMembers (layout : Layout) : List (String × Value) → List (List Piece × Tree) → Prop :=
  List.Forall₂ fun member tree => tree.1 = piecesOfText member.1 ∧ Prints layout member.2 tree.2

theorem closes_members {blanks : List Char} (hblanks : ∀ c ∈ blanks, isSpace c = true)
    (depth : Nat) (members : List (String × Value)) :
    Closes (printMembers layout depth members ++ (blanks ++ ['\x7d'])) := by
  cases members with
  | nil =>
    rw [printMembers, List.nil_append]
    exact closes_blanks hblanks (closes_cons (by decide) (by decide))
  | cons member members => exact closes_cons (by decide) (by decide)

/-- The further members of an object, up to its closing brace. -/
theorem leads_members (frames : List Frame) (depth : Nat) {trees : List (List Piece × Tree)}
    {blanks : List Char} (done : List (List Piece × Tree)) (hlayout : layout.IsBlank)
    (hmembers : PrintsMembers layout members trees) (hblanks : ∀ c ∈ blanks, isSpace c = true) :
    Leads ⟨.object done [] :: frames, .next, none⟩ .between
      (printMembers layout depth members ++ (blanks ++ ['\x7d']))
      (Machine.place ⟨frames, .next, none⟩ (.object (done.reverse ++ trees))) .between := by
  -- `done` holds the members before these, the latest first
  induction hmembers generalizing done with
  | nil =>
    have hclose : Leads ⟨.object done [] :: frames, .next, none⟩ .between ['\x7d']
        (Machine.place ⟨frames, .next, none⟩ (.object done.reverse)) .between :=
      leads_punctuation (t := .closeBrace) rfl rfl
    rw [printMembers, List.append_nil]
    exact (leads_blanks hblanks).append hclose
  | @cons member tree members trees hfirst hrest ih =>
    obtain ⟨key, v⟩ := member
    obtain ⟨pieces, t⟩ := tree
    obtain ⟨rfl, hv⟩ := hfirst
    have hcomma : Leads ⟨.object done [] :: frames, .next, none⟩ .between [',']
        ⟨.object done [] :: frames, .key, none⟩ .between :=
      leads_punctuation (t := .comma) rfl rfl
    have hmember := spells_member key depth hlayout hv
      (m := ⟨.object done [] :: frames, .key, none⟩) (.inl rfl) rfl
    have htail := ih ((piecesOfText key, t) :: done)
    rw [List.reverse_cons, List.append_assoc, List.singleton_append] at htail
    have hall := hcomma.cons (hmember.leads htail (closes_members hblanks depth members))
    rw [printMembers]
    simpa only [List.append_assoc, List.cons_append] using hall

/-- Objects print what their members print, so the argument goes through any depth. -/
theorem prints_object {trees : List (List Piece × Tree)} (hlayout : layout.IsBlank)
    (hmembers : PrintsMembers layout members trees) :
    Prints layout (.object members) (.object trees) := by
  intro depth m hm
  apply Leads.spells
  have hopen : Leads m .between ['\x7b'] ⟨.object [] [] :: m.frames, .firstKey, none⟩ .between := by
    apply leads_punctuation (t := .openBrace) rfl
    rw [Machine.step, hm]
    rfl
  cases hmembers with
  | nil =>
    have hclose : Leads ⟨.object [] [] :: m.frames, .firstKey, none⟩ .between ['\x7d']
        (m.place (.object [])) .between := leads_punctuation (t := .closeBrace) rfl rfl
    rw [Value.print]
    exact hopen.cons hclose
  | @cons member tree members trees hfirst hrest =>
    obtain ⟨key, v⟩ := member
    obtain ⟨pieces, t⟩ := tree
    obtain ⟨rfl, hv⟩ := hfirst
    have hmember := spells_member key (depth + 1) hlayout hv
      (m := ⟨.object [] [] :: m.frames, .firstKey, none⟩) (.inr rfl) rfl
    have hblanks := hlayout.lineBreak depth
    have htail : Leads ⟨.object [(piecesOfText key, t)] [] :: m.frames, .next, none⟩ .between
        (printMembers layout (depth + 1) members ++ (layout.lineBreak depth ++ ['\x7d']))
        (m.place (.object ((piecesOfText key, t) :: trees))) .between :=
      leads_members m.frames (depth + 1) [(piecesOfText key, t)] hlayout hrest hblanks
    have hall := hopen.cons (hmember.leads htail (closes_members hblanks (depth + 1) members))
    rw [Value.print]
    simpa only [List.append_assoc, List.cons_append] using hall

theorem getLast?_print_object (layout : Layout) (depth : Nat) (members : List (String × Value)) :
    ((Value.object members).print layout depth).getLast? = some '\x7d' := by
  rcases members with _ | ⟨⟨key, v⟩, members⟩
  · rfl
  · rw [Value.print, ← List.cons_append, List.getLast?_concat]

/-! ### Meanings -/

/-- The members of an object, each entered after those before it. -/
def entered (members done : List (String × Value)) : List (String × Value) :=
  members.foldl (fun done member => insertMember member.1 member.2 done) done

/-- Printed as a part of a document with room for containers, `v` is read as `w`. -/
def ReadsAs (layout : Layout) (room : Nat) (v w : Value) : Prop :=
  ∃ t, Prints layout v t ∧ Value.ofTree? room t = some w

theorem readsAs_text (layout : Layout) (room : Nat) (s : String) :
    ReadsAs layout room (.text s) (.text s) := by
  refine ⟨_, prints_text layout s, ?_⟩
  rw [Value.ofTree?, textOf?_piecesOfText]
  rfl

theorem readsAs_bool (layout : Layout) (room : Nat) (b : Bool) :
    ReadsAs layout room (.bool b) (.bool b) :=
  ⟨_, prints_bool layout b, rfl⟩

/-- Members that are read as themselves are entered one after the other. -/
theorem exists_trees (h : ∀ member ∈ members, ReadsAs layout room member.2 member.2) :
    ∃ trees, PrintsMembers layout members trees ∧
      ∀ done, membersOf? room trees done = some (entered members done) := by
  induction members with
  | nil => exact ⟨[], .nil, fun done => rfl⟩
  | cons member members ih =>
    obtain ⟨t, hprints, hmeans⟩ := h member List.mem_cons_self
    obtain ⟨trees, hmembers, htrees⟩ := ih fun other hother => h other (List.mem_cons_of_mem _ hother)
    refine ⟨(piecesOfText member.1, t) :: trees, .cons ⟨rfl, hprints⟩ hmembers, fun done => ?_⟩
    rw [membersOf?, textOf?_piecesOfText, hmeans]
    exact htrees _

/-- An object whose members are read as themselves is read as these members. -/
theorem readsAs_object (hlayout : layout.IsBlank)
    (h : ∀ member ∈ members, ReadsAs layout room member.2 member.2) :
    ReadsAs layout (room + 1) (.object members) (.object (entered members [])) := by
  obtain ⟨trees, hmembers, htrees⟩ := exists_trees h
  refine ⟨.object trees, prints_object hlayout hmembers, ?_⟩
  rw [Value.ofTree?, htrees]
  rfl

theorem readsAs_single (hlayout : layout.IsBlank) (key : String) (h : ReadsAs layout room v v) :
    ReadsAs layout (room + 1) (.object [(key, v)]) (.object [(key, v)]) := by
  apply readsAs_object hlayout
  intro member hmember
  obtain rfl := List.mem_singleton.1 hmember
  exact h

theorem endsWord_blanks {blanks : List Char} (h : ∀ c ∈ blanks, isSpace c = true) :
    EndsWord (encoded blanks) := by
  cases blanks with
  | nil =>
    intro o ho
    cases ho
  | cons c blanks =>
    have hc := h c List.mem_cons_self
    have hends : EndsWord (encoded (c :: blanks) ++ []) :=
      (closes_cons (lt_of_isSpace hc) (isWord_of_isSpace hc)).endsWord []
    rwa [List.append_nil] at hends

/-- A printed value is read back, and blanks behind it make no difference. -/
theorem read?_print {w : Value} (blanks : List Char) (h : ReadsAs layout depthLimit v w)
    (hblanks : ∀ c ∈ blanks, isSpace c = true) :
    Value.read? (Text.octets (String.ofList (v.print layout 0 ++ blanks))) = some w := by
  obtain ⟨t, hprints, hmeans⟩ := h
  have hfeed : Machine.start.feed? .between (encoded (v.print layout 0 ++ blanks)) =
      some ⟨[], .next, some t⟩ := by
    have hrest := leads_blanks (m := Machine.start.place t) hblanks []
    rw [List.append_nil] at hrest
    rw [encoded_append, hprints 0 Machine.start rfl _ (endsWord_blanks hblanks), hrest]
    rfl
  rw [Value.read?, octets_ofList_eq, read?_eq_feed?, hfeed]
  exact hmeans

/-! ### Objects with distinct keys -/

theorem perm_insertMember (v : Value) (h : key ∉ members.map Prod.fst) :
    (insertMember key v members).Perm ((key, v) :: members) := by
  induction members with
  | nil => exact .refl _
  | cons member members ih =>
    obtain ⟨k, w⟩ := member
    simp only [List.map_cons, List.mem_cons, not_or] at h
    rw [insertMember, if_neg h.1]
    split
    · exact .refl _
    · exact ((ih h.2).cons (k, w)).trans (.swap ..)

/-- Members with keys of their own are all there in the end, in whatever order. -/
theorem perm_entered {done : List (String × Value)}
    (h : ((members ++ done).map Prod.fst).Nodup) : (entered members done).Perm (members ++ done) := by
  induction members generalizing done with
  | nil => exact .refl _
  | cons member members ih =>
    obtain ⟨key, v⟩ := member
    rw [List.cons_append, List.map_cons, List.nodup_cons, List.map_append, List.mem_append] at h
    -- the first key is new among `done`, so entering it leaves all keys distinct
    have hinsert : (insertMember key v done).Perm ((key, v) :: done) :=
      perm_insertMember v fun hkey => h.1 (.inr hkey)
    have hperm : (members ++ insertMember key v done).Perm ((key, v) :: (members ++ done)) :=
      (hinsert.append_left members).trans List.perm_middle
    have hnodup : ((members ++ insertMember key v done).map Prod.fst).Nodup := by
      rw [(hperm.map Prod.fst).nodup_iff, List.map_cons, List.nodup_cons, List.map_append,
        List.mem_append]
      exact h
    exact (ih hnodup).trans hperm

end ImageLookup.Json
