/-! # Styled text

What is written for people consists of spans of text, some of which are set off by bold type or
colour.  Whether that is shown is decided when the text is written: without it the spans follow
one another as they are.
-/

namespace ImageLookup.Report

inductive Ink where
  | green
  | yellow
  | red
deriving DecidableEq, Repr

def Ink.code : Ink → Nat
  | .green => 32
  | .yellow => 33
  | .red => 31

inductive Emphasis where
  | none
  | bold
  | boldInk (ink : Ink)
deriving DecidableEq, Repr

def rendition (code : Nat) : String := "\x1b[" ++ toString code ++ "m"

def Emphasis.opening : Emphasis → String
  | .none => ""
  | .bold => rendition 1
  | .boldInk ink => rendition 1 ++ rendition ink.code

def Emphasis.closing : Emphasis → String
  | .none => ""
  | .bold => rendition 0
  | .boldInk _ => rendition 39 ++ rendition 0

structure Span where
  text : String
  emphasis : Emphasis
deriving DecidableEq, Repr

namespace Span

def plain (text : String) : Span := ⟨text, .none⟩

def write (color : Bool) (s : Span) : String :=
  if color then s.emphasis.opening ++ s.text ++ s.emphasis.closing else s.text

end Span

def write (color : Bool) (spans : List Span) : String := String.join (spans.map (Span.write color))

/-! ### Marks -/

def checkMark : Span := ⟨"✓", .boldInk .green⟩

def errorMark : Span := ⟨"✗", .boldInk .red⟩

def warningMark : Span := ⟨"⚠", .boldInk .yellow⟩

def errorLine (color : Bool) (message : String) : String :=
  write color [errorMark, .plain " ", .plain message]

/-! ### Choices -/

inductive ColorChoice where
  | auto
  | always
  | never
deriving DecidableEq, Repr

/-- Reads a choice in any case; what is not one means `auto`. -/
def ColorChoice.ofText (s : String) : ColorChoice :=
  match s.toLower with
  | "always" => .always
  | "never" => .never
  | _ => .auto

/-- Left to itself, colour is used on a terminal unless the environment forbids it. -/
def ColorChoice.enabled (onTerminal forbidden : Bool) : ColorChoice → Bool
  | .auto => onTerminal && !forbidden
  | .always => true
  | .never => false

end ImageLookup.Report
