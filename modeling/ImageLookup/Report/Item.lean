import ImageLookup.Json.Printer
import ImageLookup.Report.Style
import ImageLookup.Resolver
import ImageLookup.Yaml.Writer

/-! # Reports

Two things are reported: how a reference was read, and what was found out about an image.  Each
can be written for people, as styled text, or for programs, as a JSON or YAML document of the
same fields in the same order.
-/

namespace ImageLookup.Report

inductive Format where
  | pretty
  | json
  | yaml
deriving DecidableEq, Repr

/-- Reads the name of a format in any case; what is not one means `pretty`. -/
def Format.ofText (s : String) : Format :=
  match s.toLower with
  | "json" => .json
  | "yaml" | "yml" => .yaml
  | _ => .pretty

inductive Field where
  | text (s : String)
  | flag (b : Bool)
deriving DecidableEq, Repr

namespace Field

def toJson : Field → Json.Value
  | .text s => .text s
  | .flag b => .bool b

def toYaml : Field → List Char
  | .text s => Yaml.scalar s
  | .flag b => if b then "true\n".toList else "false\n".toList

end Field

structure Item where
  spans : List Span
  fields : List (String × Field)
deriving DecidableEq, Repr

namespace Item

def toJson (i : Item) : Json.Value := .object (i.fields.map fun f => (f.1, f.2.toJson))

def toYaml (i : Item) : List Char :=
  i.fields.flatMap fun f => f.1.toList ++ ':' :: ' ' :: f.2.toYaml

def write (i : Item) (format : Format) (color : Bool) : String :=
  match format with
  | .pretty => Report.write color i.spans
  | .json => String.ofList i.toJson.pretty
  | .yaml => String.ofList i.toYaml

end Item

/-! ### References -/

def partLine (label : String) : Option String → List Span
  | some part => [.plain (label ++ part)]
  | none => []

def ofReference (input : String) (r : Reference) : Item where
  spans :=
    [checkMark, .plain " ", ⟨r.text, .bold⟩, .plain ("\n  Registry:   " ++ r.host),
      .plain ("\n  Repository: " ++ r.repository)]
      ++ partLine "\n  Tag:        " r.target.tag?
      ++ partLine "\n  Digest:     " (r.target.digest?.map Digest.text)
  fields :=
    [("input", .text input), ("canonical", .text r.text), ("registry", .text r.host),
      ("repository", .text r.repository)]
      ++ (r.target.tag?.map fun t => ("tag", Field.text t)).toList
      ++ (r.target.digest?.map fun d => ("digest", Field.text d.text)).toList

def parse (input : String) : Except Failure Item := (Reference.parse input).map (ofReference input)

/-! ### Images -/

def verdict : Availability → Span × String
  | .present => (checkMark, "exists")
  | .unreachable => (warningMark, "registry unreachable")
  | .absent => (errorMark, "not found")

def ofResolution (r : Resolution) : Item where
  spans :=
    let (mark, words) := verdict r.availability
    [mark, .plain (" " ++ r.reference.text ++ " (" ++ words ++ ")"),
      .plain ("\n  Working directory: " ++ r.workingDirectory)]
  fields :=
    [("image", .text r.reference.text), ("exists", .flag r.imageExists),
      ("availability", .text r.availability.text),
      ("working_directory", .text r.workingDirectory)]

end ImageLookup.Report
