import ImageLookup.Json.Tree
import ImageLookup.Text.Character

/-! # Reading character by character

The two machines of a reader, the one that cuts a document into tokens and the one that builds a tree,
are run as one.  Characters are described by the states that they lead from and to, whatever follows
them, so that the description of a document is put together from those of its parts.  A word is the one
part that what follows it could go on with.
-/

namespace ImageLookup.Json

variable {m m' m'' : Machine} {mode mode' mode'' : Mode} {cs ds : List Char} {c : Char}
variable {o : UInt8} {os : Octets} {ts : List Token} {t : Token}

/-! ### Octets of characters -/

def encoded (cs : List Char) : Octets := cs.flatMap String.utf8EncodeChar

theorem octets_ofList_eq (cs : List Char) : Text.octets (String.ofList cs) = encoded cs :=
  Text.octets_ofList cs

@[simp] theorem encoded_nil : encoded [] = [] := rfl

@[simp] theorem encoded_append (cs ds : List Char) : encoded (cs ++ ds) = encoded cs ++ encoded ds :=
  List.flatMap_append

theorem encoded_cons (c : Char) (cs : List Char) :
    encoded (c :: cs) = String.utf8EncodeChar c ++ encoded cs := rfl

/-- A character of ASCII is one octet, and that octet is read as the character. -/
theorem utf8EncodeChar_of_lt (h : c.toNat < 128) :
    ∃ o, String.utf8EncodeChar c = [o] ∧ Char.ofUInt8 o = c := by
  have hall : ∀ n : Fin 128, String.utf8EncodeChar (Char.ofNat n) = [UInt8.ofNat n] ∧
      Char.ofUInt8 (UInt8.ofNat n) = Char.ofNat n := by decide +kernel
  have hc := hall ⟨c.toNat, h⟩
  simp only [Char.ofNat_toNat] at hc
  exact ⟨_, hc⟩

/-- The octets of any other character are none of ASCII. -/
theorem le_of_mem_utf8EncodeChar (h : 128 ≤ c.toNat) (ho : o ∈ String.utf8EncodeChar c) :
    128 ≤ o.toNat := by
  have hc : ¬c.val.toNat ≤ 127 := Nat.not_le_of_lt h
  have hofNat : ∀ n, 128 ≤ n % 256 → 128 ≤ (UInt8.ofNat n).toNat := by
    intro n hn
    rwa [UInt8.toNat_ofNat']
  simp only [String.utf8EncodeChar, if_neg hc] at ho
  split at ho
  · simp only [List.mem_cons, List.not_mem_nil, or_false] at ho
    rcases ho with rfl | rfl <;> apply hofNat <;> omega
  split at ho
  · simp only [List.mem_cons, List.not_mem_nil, or_false] at ho
    rcases ho with rfl | rfl | rfl <;> apply hofNat <;> omega
  · simp only [List.mem_cons, List.not_mem_nil, or_false] at ho
    rcases ho with rfl | rfl | rfl | rfl <;> apply hofNat <;> omega

/-! ### Both machines -/

/-- Where the machine that builds the tree stands after the rest of a document, if the one that cuts it
    into tokens stands at `mode` before. -/
def Machine.feed? (m : Machine) (mode : Mode) (os : Octets) : Option Machine :=
  (mode.tokens? os).bind fun ts => ts.foldlM Machine.step m

/-- Cutting into tokens and building the tree can be done in one pass, octet by octet. -/
theorem read?_eq_feed? (document : Octets) :
    Tree.read? document = (Machine.start.feed? .between document).bind Machine.result := by
  rw [Tree.read?, Machine.feed?, tokens?]
  cases Mode.tokens? .between document with
  | none => rfl
  | some ts => rfl

/-- One octet may complete two tokens: a word, and the mark behind it. -/
theorem feed?_cons (h : mode.step o = some (ts, mode')) :
    m.feed? mode (o :: os) = (ts.foldlM Machine.step m).bind (·.feed? mode' os) := by
  rw [Machine.feed?, Mode.tokens?, h]
  simp only [Option.bind_eq_bind, Option.bind_some, Machine.feed?]
  cases mode'.tokens? os with
  | none => simp
  | some rest => simp [List.foldlM_append]

theorem feed?_silent (h : mode.step o = some ([], mode')) :
    m.feed? mode (o :: os) = m.feed? mode' os := by
  rw [feed?_cons h]
  rfl

theorem feed?_token (h : mode.step o = some ([t], mode')) (hm : m.step t = some m') :
    m.feed? mode (o :: os) = m'.feed? mode' os := by
  rw [feed?_cons h]
  simp [hm]

/-- Characters lead from one state of both machines to another, whatever follows them. -/
def Leads (m : Machine) (mode : Mode) (cs : List Char) (m' : Machine) (mode' : Mode) : Prop :=
  ∀ rest, m.feed? mode (encoded cs ++ rest) = m'.feed? mode' rest

theorem Leads.nil : Leads m mode [] m mode := fun _ => rfl

/-- Since nothing is assumed of what follows, runs of the machines can be put together. -/
theorem Leads.append (h : Leads m mode cs m' mode') (h' : Leads m' mode' ds m'' mode'') :
    Leads m mode (cs ++ ds) m'' mode'' := by
  intro rest
  rw [encoded_append, List.append_assoc, h, h']

theorem Leads.cons (h : Leads m mode [c] m' mode') (h' : Leads m' mode' cs m'' mode'') :
    Leads m mode (c :: cs) m'' mode'' :=
  h.append h'

theorem leads_of_silent (hc : String.utf8EncodeChar c = [o])
    (h : mode.step o = some ([], mode')) : Leads m mode [c] m mode' := by
  intro rest
  rw [encoded_cons, hc]
  exact feed?_silent h

theorem leads_of_token (hc : String.utf8EncodeChar c = [o])
    (h : mode.step o = some ([t], mode')) (hm : m.step t = some m') :
    Leads m mode [c] m' mode' := by
  intro rest
  rw [encoded_cons, hc]
  exact feed?_token h hm

/-! ### Outside of texts -/

theorem lt_of_isSpace (h : isSpace c = true) : c.toNat < 128 := by
  simp only [isSpace, Bool.or_eq_true, beq_iff_eq] at h
  rcases h with ((rfl | rfl) | rfl) | rfl <;> decide

theorem leads_blank (h : isSpace c = true) : Leads m .between [c] m .between := by
  obtain ⟨o, hc, hread⟩ := utf8EncodeChar_of_lt (lt_of_isSpace h)
  apply leads_of_silent hc
  rw [Mode.step, hread, Mode.stepBetween, if_pos h]

theorem leads_blanks (h : ∀ c ∈ cs, isSpace c = true) : Leads m .between cs m .between := by
  induction cs with
  | nil => exact .nil
  | cons c cs ih =>
    have hrest := ih fun d hd => h d (List.mem_cons_of_mem c hd)
    exact (leads_blank (h c List.mem_cons_self)).cons hrest

/-- The characters of ASCII that stand for themselves outside of texts and words. -/
theorem leads_punctuation (ht : Token.punctuation? c = some t) (hm : m.step t = some m') :
    Leads m .between [c] m' .between := by
  -- no mark is a blank, a quote or a character of words, so each is a token at once
  have hc : c ∈ ['\x7b', '\x7d', '[', ']', ':', ','] := by
    unfold Token.punctuation? at ht
    simp only [beq_iff_eq] at ht
    grind
  have hstep : ∃ o, String.utf8EncodeChar c = [o] ∧
      Mode.between.step o = (Token.punctuation? c).map fun t => ([t], .between) := by
    simp only [List.mem_cons, List.not_mem_nil, or_false] at hc
    rcases hc with rfl | rfl | rfl | rfl | rfl | rfl <;> exact ⟨_, rfl, by decide⟩
  obtain ⟨o, hencode, hstep⟩ := hstep
  rw [ht] at hstep
  exact leads_of_token hencode hstep hm

/-! ### Words -/

theorem lt_of_isWord (h : isWord c = true) : c.toNat < 128 := by
  simp only [isWord, Bool.or_eq_true, beq_iff_eq] at h
  rcases h with ((h | rfl) | rfl) | rfl
  · have hrange := Text.toNat_of_isAlphanum h
    omega
  all_goals decide

theorem isWord_of_isSpace (h : isSpace c = true) : isWord c = false := by
  simp only [isSpace, Bool.or_eq_true, beq_iff_eq] at h
  rcases h with ((rfl | rfl) | rfl) | rfl <;> decide

theorem stepBetween_of_isWord (h : isWord c = true) : Mode.stepBetween c = some ([], .word [c]) := by
  have hspace : isSpace c = false := by
    rw [Bool.eq_false_iff]
    intro hspace
    rw [isWord_of_isSpace hspace] at h
    cases h
  have hquote : (c == '"') = false := by
    rw [beq_eq_false_iff_ne]
    rintro rfl
    exact absurd h (by decide)
  simp [Mode.stepBetween, hspace, hquote, h]

theorem leads_word_more {seen : List Char} (h : ∀ c ∈ cs, isWord c = true) :
    Leads m (.word seen) cs m (.word (cs.reverse ++ seen)) := by
  induction cs generalizing seen with
  | nil => exact .nil
  | cons c cs ih =>
    have hc := h c List.mem_cons_self
    obtain ⟨o, hencode, hread⟩ := utf8EncodeChar_of_lt (lt_of_isWord hc)
    have hfirst : Leads m (.word seen) [c] m (.word (c :: seen)) := by
      apply leads_of_silent hencode
      rw [Mode.step, hread, if_pos hc]
    rw [List.reverse_cons, List.append_assoc]
    exact hfirst.cons (ih fun d hd => h d (List.mem_cons_of_mem c hd))

theorem leads_word (h : ∀ d ∈ c :: cs, isWord d = true) :
    Leads m .between (c :: cs) m (.word (c :: cs).reverse) := by
  have hc := h c List.mem_cons_self
  obtain ⟨o, hencode, hread⟩ := utf8EncodeChar_of_lt (lt_of_isWord hc)
  have hfirst : Leads m .between [c] m (.word [c]) := by
    apply leads_of_silent hencode
    rw [Mode.step, hread, stepBetween_of_isWord hc]
  rw [List.reverse_cons]
  exact hfirst.cons (leads_word_more fun d hd => h d (List.mem_cons_of_mem c hd))

/-- What follows does not go on with a word. -/
def EndsWord (rest : Octets) : Prop := ∀ o, rest.head? = some o → isWord (Char.ofUInt8 o) = false

/-- A word is complete only when something follows that does not belong to it. -/
theorem feed?_word_end {seen : List Char} {rest : Octets} (h : EndsWord rest)
    (hm : m.step (.word seen.reverse) = some m') :
    m.feed? (.word seen) rest = m'.feed? .between rest := by
  cases rest with
  | nil =>
    show ([Token.word seen.reverse].foldlM Machine.step m) = _
    rw [List.foldlM_cons, hm]
    rfl
  | cons o os =>
    -- the octet behind a word completes it, and is then read as it is between tokens
    have ho := h o rfl
    have hstep : (Mode.word seen).step o =
        (Mode.between.step o).map fun r => (.word seen.reverse :: r.1, r.2) := by
      simp [Mode.step, ho]
    cases hbetween : Mode.between.step o with
    | none =>
      rw [hbetween] at hstep
      simp [Machine.feed?, Mode.tokens?, hstep, hbetween]
    | some r =>
      obtain ⟨ts, next⟩ := r
      rw [hbetween] at hstep
      rw [feed?_cons hstep, feed?_cons hbetween, List.foldlM_cons, hm]
      rfl

/-- Characters lead from one state to another between tokens, unless what follows goes on with a word
    at their end. -/
def Spells (m : Machine) (cs : List Char) (m' : Machine) : Prop :=
  ∀ rest, EndsWord rest → m.feed? .between (encoded cs ++ rest) = m'.feed? .between rest

theorem Leads.spells (h : Leads m .between cs m' .between) : Spells m cs m' := fun rest _ => h rest

theorem Leads.append_spells (h : Leads m .between cs m' .between) (h' : Spells m' ds m'') :
    Spells m (cs ++ ds) m'' := by
  intro rest hrest
  rw [encoded_append, List.append_assoc, h, h' rest hrest]

theorem spells_word (h : ∀ d ∈ c :: cs, isWord d = true)
    (hm : m.step (.word (c :: cs)) = some m') : Spells m (c :: cs) m' := by
  intro rest hrest
  rw [leads_word h]
  rw [← List.reverse_reverse (c :: cs)] at hm
  exact feed?_word_end hrest hm

/-- Characters that no word goes on with, the first of them in ASCII. -/
def Closes (cs : List Char) : Prop := ∃ c ds, cs = c :: ds ∧ c.toNat < 128 ∧ isWord c = false

theorem closes_cons (hc : c.toNat < 128) (h : isWord c = false) : Closes (c :: cs) :=
  ⟨c, cs, rfl, hc, h⟩

theorem Closes.endsWord (h : Closes cs) (rest : Octets) : EndsWord (encoded cs ++ rest) := by
  obtain ⟨c, ds, rfl, hlt, hc⟩ := h
  obtain ⟨o, hencode, hread⟩ := utf8EncodeChar_of_lt hlt
  intro o' ho'
  rw [encoded_cons, hencode] at ho'
  obtain rfl := Option.some.inj ho'
  rw [hread, hc]

/-- A value and the mark behind it need nothing of what follows the mark. -/
theorem Spells.leads (h : Spells m cs m') (h' : Leads m' .between ds m'' .between)
    (hcloses : Closes ds) : Leads m .between (cs ++ ds) m'' .between := by
  intro rest
  rw [encoded_append, List.append_assoc, h _ (hcloses.endsWord rest), h']

end ImageLookup.Json
