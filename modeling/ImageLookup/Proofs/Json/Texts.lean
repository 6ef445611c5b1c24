import ImageLookup.Json.Printer
import ImageLookup.Proofs.Json.Machines

/-! # Reading what is quoted

A quoted text leads both machines over its pieces, one character after the other: what is escaped comes
back as a piece, and every other character as its octets.  The pieces make up the text again.
-/

namespace ImageLookup.Json

variable {m m' : Machine} {c : Char} {o : UInt8} {os : Octets}

/-! ### Escapes -/

def isCoded (c : Char) : Bool :=
  c.toNat < 0x20 && !(['\x08', '\t', '\n', '\x0c', '\r'].contains c)

def piecesOf (c : Char) : List Piece :=
  if isCoded c then [.unit c.toNat] else (String.utf8EncodeChar c).map .octet

theorem leads_shortEscape {e : Char} {seen : List Piece} (he : e.toNat < 128)
    (hcode : (e == 'u') = false) (h : escaped? e = some o) :
    Leads m (.text seen) ['\\', e] m (.text (.octet o :: seen)) := by
  obtain ⟨oe, hencode, hread⟩ := utf8EncodeChar_of_lt he
  have hfirst : Leads m (.text seen) ['\\'] m (.escape seen) :=
    leads_of_silent (o := 0x5C) rfl rfl
  have hsecond : Leads m (.escape seen) [e] m (.text (.octet o :: seen)) := by
    apply leads_of_silent hencode
    simp [Mode.step, hread, hcode, h]
  exact hfirst.cons hsecond

theorem leads_digit {seen : List Piece} {left value d : Nat} (hd : d < 16) :
    Leads m (.code seen left value) [Text.hexDigit d] m
      (match left with
        | 0 => .text (.unit (16 * value + d) :: seen)
        | left + 1 => .code seen left (16 * value + d)) := by
  have hlt : ∀ n : Fin 16, (Text.hexDigit n).toNat < 128 := by decide
  obtain ⟨o, hencode, hread⟩ := utf8EncodeChar_of_lt (hlt ⟨d, hd⟩)
  apply leads_of_silent hencode
  rw [Mode.step, hread, Text.hexValue?_hexDigit hd]
  cases left with
  | zero => rfl
  | succ left => rfl

theorem leads_coded {seen : List Piece} (h : c.toNat < 0x20) :
    Leads m (.text seen)
      ['\\', 'u', '0', '0', Text.hexDigit (c.toNat / 16), Text.hexDigit (c.toNat % 16)] m
      (.text (.unit c.toNat :: seen)) := by
  have hstart : Leads m (.text seen) ['\\', 'u'] m (.code seen 3 0) := by
    have hfirst : Leads m (.text seen) ['\\'] m (.escape seen) :=
      leads_of_silent (o := 0x5C) rfl rfl
    exact hfirst.cons (leads_of_silent (o := 0x75) rfl rfl)
  have hzero : Leads m (.code seen 3 0) [Text.hexDigit 0] m (.code seen 2 0) :=
    leads_digit (by decide)
  have hzero' : Leads m (.code seen 2 0) [Text.hexDigit 0] m (.code seen 1 0) :=
    leads_digit (by decide)
  have hhigh : Leads m (.code seen 1 0) [Text.hexDigit (c.toNat / 16)] m
      (.code seen 0 (16 * 0 + c.toNat / 16)) := leads_digit (by omega)
  have hlow : Leads m (.code seen 0 (16 * 0 + c.toNat / 16)) [Text.hexDigit (c.toNat % 16)] m
      (.text (.unit (16 * (16 * 0 + c.toNat / 16) + c.toNat % 16) :: seen)) :=
    leads_digit (Nat.mod_lt _ (by decide))
  have hvalue : 16 * (16 * 0 + c.toNat / 16) + c.toNat % 16 = c.toNat := by omega
  rw [hvalue] at hlow
  exact hstart.append (hzero.cons (hzero'.cons (hhigh.cons hlow)))

theorem toNat_ofUInt8 (o : UInt8) : (Char.ofUInt8 o).toNat = o.toNat := UInt8.toNat_toUInt32 o

/-- The octets that stand for themselves inside a text. -/
def IsPlain (o : UInt8) : Prop := 0x20 ≤ o.toNat ∧ o.toNat ≠ 0x22 ∧ o.toNat ≠ 0x5C

theorem IsPlain.step (h : IsPlain o) (seen : List Piece) :
    (Mode.text seen).step o = some ([], .text (.octet o :: seen)) := by
  obtain ⟨hcontrol, hquote, hslash⟩ := h
  have hne : ∀ c : Char, o.toNat ≠ c.toNat → (Char.ofUInt8 o == c) = false := by
    intro c hc
    rw [beq_eq_false_iff_ne]
    rintro rfl
    exact hc (toNat_ofUInt8 o).symm
  have hshown : ¬o < 0x20 := by
    rw [UInt8.lt_iff_toNat_lt]
    exact Nat.not_lt.2 hcontrol
  simp [Mode.step, hne '"' hquote, hne '\\' hslash, hshown]

theorem feed?_plain {seen : List Piece} {rest : Octets} (h : ∀ o ∈ os, IsPlain o) :
    m.feed? (.text seen) (os ++ rest) =
      m.feed? (.text ((os.map Piece.octet).reverse ++ seen)) rest := by
  induction os generalizing seen with
  | nil => rfl
  | cons o os ih =>
    have hstep := (h o List.mem_cons_self).step seen
    rw [List.cons_append, feed?_silent hstep, ih fun o ho => h o (List.mem_cons_of_mem _ ho)]
    simp

/-- Quotes, backslashes and controls are in ASCII, so no octet of another character is taken for
    one. -/
theorem isPlain_of_mem (hcontrol : 0x20 ≤ c.toNat) (hquote : c ≠ '"') (hslash : c ≠ '\\')
    (ho : o ∈ String.utf8EncodeChar c) : IsPlain o := by
  by_cases hlt : c.toNat < 128
  · obtain ⟨o', hencode, rfl⟩ := utf8EncodeChar_of_lt hlt
    rw [hencode, List.mem_singleton] at ho
    rw [toNat_ofUInt8] at hcontrol
    subst ho
    refine ⟨hcontrol, ?_, ?_⟩
    · intro h
      exact hquote (Char.toNat_inj.1 ((toNat_ofUInt8 o).trans h))
    · intro h
      exact hslash (Char.toNat_inj.1 ((toNat_ofUInt8 o).trans h))
  · have hhigh := le_of_mem_utf8EncodeChar (Nat.le_of_not_lt hlt) ho
    exact ⟨by omega, by omega, by omega⟩

/-- The characters whose escape is a letter or the character itself behind a backslash. -/
def shortEscaped : List Char := ['"', '\\', '\x08', '\t', '\n', '\x0c', '\r']

theorem escape_of_not_mem (h : c ∉ shortEscaped) :
    escape c = if c.toNat < 0x20 then
      ['\\', 'u', '0', '0', Text.hexDigit (c.toNat / 16), Text.hexDigit (c.toNat % 16)]
      else [c] := by
  simp only [shortEscaped, List.mem_cons, List.not_mem_nil, or_false, not_or] at h
  simp [escape, h]

theorem isCoded_of_not_mem (h : c ∉ shortEscaped) : isCoded c = decide (c.toNat < 0x20) := by
  simp only [shortEscaped, List.mem_cons, List.not_mem_nil, or_false, not_or] at h
  simp [isCoded, h]

/-- The escape of a character is read as the pieces of the character. -/
theorem leads_escape (m : Machine) (seen : List Piece) (c : Char) :
    Leads m (.text seen) (escape c) m (.text ((piecesOf c).reverse ++ seen)) := by
  by_cases hshort : c ∈ shortEscaped
  · simp only [shortEscaped, List.mem_cons, List.not_mem_nil, or_false] at hshort
    rcases hshort with rfl | rfl | rfl | rfl | rfl | rfl | rfl <;>
      exact leads_shortEscape (by decide) rfl rfl
  rw [escape_of_not_mem hshort, piecesOf, isCoded_of_not_mem hshort]
  simp only [decide_eq_true_eq]
  split
  case isTrue hcontrol => exact leads_coded hcontrol
  case isFalse hcontrol =>
    intro rest
    rw [encoded_cons, encoded_nil, List.append_nil]
    apply feed?_plain
    intro o ho
    have hquote : c ≠ '"' := by
      rintro rfl
      exact hshort (by decide)
    have hslash : c ≠ '\\' := by
      rintro rfl
      exact hshort (by decide)
    exact isPlain_of_mem (Nat.le_of_not_lt hcontrol) hquote hslash ho

theorem leads_escapes (m : Machine) (seen : List Piece) (cs : List Char) :
    Leads m (.text seen) (cs.flatMap escape) m (.text ((cs.flatMap piecesOf).reverse ++ seen)) := by
  induction cs generalizing seen with
  | nil => exact .nil
  | cons c cs ih =>
    rw [List.flatMap_cons, List.flatMap_cons, List.reverse_append, List.append_assoc]
    exact (leads_escape m seen c).append (ih _)

def piecesOfText (s : String) : List Piece := s.toList.flatMap piecesOf

/-- A quoted text is one token, whatever characters it has. -/
theorem leads_quoted {s : String} (hm : m.step (.text (piecesOfText s)) = some m') :
    Leads m .between (quoted s) m' .between := by
  have hopen : Leads m .between ['"'] m (.text []) := leads_of_silent (o := 0x22) rfl rfl
  have hbody := leads_escapes m [] s.toList
  have hclose : Leads m (.text ((s.toList.flatMap piecesOf).reverse ++ [])) ['"'] m' .between := by
    apply leads_of_token (o := 0x22) (t := .text (piecesOfText s)) rfl ?_ hm
    rw [List.append_nil, piecesOfText]
    show some ([Token.text (s.toList.flatMap piecesOf).reverse.reverse], Mode.between) = _
    rw [List.reverse_reverse]
  exact hopen.cons (hbody.append hclose)

/-! ### Texts of pieces -/

theorem octetsOf?_octets (os : Octets) (rest : List Piece) :
    octetsOf? (os.map Piece.octet ++ rest) = (octetsOf? rest).map (os ++ ·) := by
  induction os with
  | nil => simp
  | cons o os ih =>
    rw [List.map_cons, List.cons_append, octetsOf?, ih, Option.map_map]
    rfl

theorem octetsOf?_unit {code : Nat} (h : code < 0xD800) (rest : List Piece) :
    octetsOf? (.unit code :: rest) = (octetsOf? rest).map (octetsOf?.unitOctets code ++ ·) := by
  have hhigh : ¬(0xD800 ≤ code ∧ code ≤ 0xDBFF) := by omega
  have hlow : ¬(0xDC00 ≤ code ∧ code ≤ 0xDFFF) := by omega
  have hany : ¬(0xD800 ≤ code ∧ code ≤ 0xDFFF) := by omega
  rcases rest with _ | ⟨o | low, rest⟩
  · simp [octetsOf?, hany]
  · simp [octetsOf?, hany]
  · rw [octetsOf?, if_neg hhigh, if_neg hlow]

theorem octetsOf?_piecesOf (c : Char) (rest : List Piece) :
    octetsOf? (piecesOf c ++ rest) =
      (octetsOf? rest).map (String.utf8EncodeChar c ++ ·) := by
  rw [piecesOf]
  split
  case isTrue h =>
    -- a control character is no surrogate, whatever piece comes next
    have hlt : c.toNat < 0xD800 := by
      simp only [isCoded, Bool.and_eq_true, decide_eq_true_eq] at h
      omega
    have hunit : octetsOf?.unitOctets c.toNat = String.utf8EncodeChar c := by
      rw [octetsOf?.unitOctets, Char.ofNat_toNat]
      show Text.octets (String.ofList [c]) = _
      rw [Text.octets_ofList, List.flatMap_singleton]
    rw [List.singleton_append, octetsOf?_unit hlt, hunit]
  case isFalse h => exact octetsOf?_octets _ rest

/-- The pieces of a text make it up. -/
theorem textOf?_piecesOfText (s : String) : textOf? (piecesOfText s) = some s := by
  have hoctets : ∀ cs : List Char, octetsOf? (cs.flatMap piecesOf) = some (encoded cs) := by
    intro cs
    induction cs with
    | nil => rfl
    | cons c cs ih =>
      rw [List.flatMap_cons, octetsOf?_piecesOf, ih]
      rfl
  rw [textOf?, piecesOfText, hoctets, Option.bind_some, ← octets_ofList_eq, String.ofList_toList,
    Text.text?_octets]

end ImageLookup.Json
