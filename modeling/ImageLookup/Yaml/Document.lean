import ImageLookup.Yaml.Datum
import ImageLookup.Yaml.Token

/-! # From tokens to data

The tokens of a document are read by descent: a node is an alias, or a scalar or collection with
an optional anchor and tag.  An alias stands for what was last anchored under its name.

A text holds one document; a text without any is an empty mapping.  `fuel` bounds the number of
nodes and items; the number of tokens is always enough.
-/

namespace ImageLookup.Yaml

/-- What has been anchored under a name; `none` while the node is being read. -/
structure Anchored where
  number : Nat
  name : List Char
  datum : Option Datum

structure Progress where
  tokens : List Token
  anchored : List Anchored
  /-- The tag handle that was declared last, and what it stands for. -/
  declared : Option (List Char × List Char)

abbrev Read (α : Type) := StateT Progress Option α

namespace Read

def fail {α : Type} : Read α := fun _ => none

def peek : Read (Option Token) := do return (← get).tokens.head?

def pass : Read Unit := modify fun p => { p with tokens := p.tokens.tail }

/-- Whether the next token is one of these; the end of the tokens is none. -/
def nextIn (ts : List Token) : Read Bool := do
  match ← peek with
  | some t => return ts.contains t
  | none => return false

/-! ### Anchors and tags -/

def openAnchor (name : List Char) : Read Nat := do
  let p ← get
  let number := p.anchored.length
  set { p with anchored := ⟨number, name, none⟩ :: p.anchored }
  return number

def closeAnchor (number : Option Nat) (d : Datum) : Read Unit :=
  match number with
  | none => pure ()
  | some number =>
    modify fun p => { p with
      anchored := p.anchored.map fun a =>
        if a.number = number then { a with datum := some d } else a }

def resolveAlias (name : List Char) : Read Datum := do
  match (← get).anchored.find? fun a => a.name == name with
  | some a => return a.datum.getD .bad
  | none => fail

def resolveTag (handle suffix : List Char) : Read (List Char × List Char) := do
  match (← get).declared with
  | some (h, start) => if h == handle then return (start, suffix)
  | none => pure ()
  if handle == ['!', '!'] then return (Datum.repository, suffix)
  else if 2 ≤ handle.length && handle.getLast? == some '!' then fail
  else return (handle, suffix)

def anchor : Read (Option Nat) := do
  match ← peek with
  | some (.anchor name) =>
    pass
    return some (← openAnchor name)
  | _ => return none

def tag : Read (Option (List Char × List Char)) := do
  match ← peek with
  | some (.tag handle suffix) =>
    pass
    return some (← resolveTag handle suffix)
  | _ => return none

def properties : Read (Option Nat × Option (List Char × List Char)) := do
  match ← anchor with
  | some number => return (some number, ← tag)
  | none =>
    match ← tag with
    | some t => return (← anchor, some t)
    | none => return (none, none)

/-! ### Nodes -/

/-- Reads `item` unless one of these tokens follows, which means that it is left out. -/
def unlessNext (ts : List Token) (item : Read Datum) : Read Datum := do
  if ← nextIn ts then return .null else item

/-- The value of a pair, which is left out together with its colon or before one of these
    tokens. -/
def pairValue (ts : List Token) (item : Read Datum) : Read Datum := do
  if ← nextIn [.value] then
    pass
    unlessNext ts item
  else return .null

mutual

/-- Reads a node.  Block collections may stand only where `block` says so, and sequences without
    indentation where `bare` does. -/
def node : Nat → Bool → Bool → Read Datum
  | 0, _, _ => fail
  | fuel + 1, block, bare => do
    match ← peek with
    | some (.alias name) =>
      pass
      resolveAlias name
    | _ =>
      let (number, t) ← properties
      let d ← content fuel block bare number.isSome t
      closeAnchor number d
      return d

def content : Nat → Bool → Bool → Bool → Option (List Char × List Char) → Read Datum
  | 0, _, _, _, _ => fail
  | fuel + 1, block, bare, isAnchored, t => do
    match ← peek with
    | some (.scalar plain text) =>
      pass
      return .ofScalar plain t text
    | some .flowSequenceStart =>
      pass
      return .sequence (← flowItems fuel true)
    | some .flowMappingStart =>
      pass
      mappingOf (← flowPairs fuel true)
    | next =>
      if next == some .blockEntry && bare then return .sequence (← bareItems fuel)
      else if next == some .blockSequenceStart && block then
        pass
        return .sequence (← blockItems fuel)
      else if next == some .blockMappingStart && block then
        pass
        mappingOf (← blockPairs fuel)
      else if isAnchored || t.isSome then return .ofScalar true t []
      else fail

def blockItems : Nat → Read (List Datum)
  | 0 => fail
  | fuel + 1 => do
    match ← peek with
    | some .blockEnd =>
      pass
      return []
    | some .blockEntry =>
      pass
      let d ← unlessNext [.blockEntry, .blockEnd] (node fuel true false)
      return d :: (← blockItems fuel)
    | _ => fail

def bareItems : Nat → Read (List Datum)
  | 0 => fail
  | fuel + 1 => do
    match ← peek with
    | some .blockEntry =>
      pass
      let d ← unlessNext [.blockEntry, .key, .value, .blockEnd] (node fuel true false)
      return d :: (← bareItems fuel)
    | _ => return []

def blockPairs : Nat → Read (List Datum)
  | 0 => fail
  | fuel + 1 => do
    let item := unlessNext [.key, .value, .blockEnd] (node fuel true true)
    match ← peek with
    | some .blockEnd =>
      pass
      return []
    | some .key =>
      pass
      let key ← item
      let value ← pairValue [.key, .value, .blockEnd] (node fuel true true)
      return key :: value :: (← blockPairs fuel)
    | some .value =>
      let value ← pairValue [.key, .value, .blockEnd] (node fuel true true)
      return .null :: value :: (← blockPairs fuel)
    | _ => fail

/-- Reads the keys and values of a flow mapping; `first` tells that none has been read yet. -/
def flowPairs : Nat → Bool → Read (List Datum)
  | 0, _ => fail
  | fuel + 1, first => do
    if ← nextIn [.flowMappingEnd] then
      pass
      return []
    else
      if !first then
        if ← nextIn [.flowEntry] then pass else fail
      match ← peek with
      | some .flowMappingEnd =>
        pass
        return []
      | some .key =>
        pass
        let key ← unlessNext [.value, .flowEntry, .flowMappingEnd] (node fuel false false)
        let value ← pairValue [.flowEntry, .flowMappingEnd] (node fuel false false)
        return key :: value :: (← flowPairs fuel false)
      | some .value =>
        let value ← pairValue [.flowEntry, .flowMappingEnd] (node fuel false false)
        return .null :: value :: (← flowPairs fuel false)
      | _ =>
        let key ← node fuel false false
        return key :: .null :: (← flowPairs fuel false)

/-- Reads the items of a flow sequence; `first` tells that none has been read yet. -/
def flowItems : Nat → Bool → Read (List Datum)
  | 0, _ => fail
  | fuel + 1, first => do
    if ← nextIn [.flowSequenceEnd] then
      pass
      return []
    else
      if !first then
        if ← nextIn [.flowEntry] then pass else fail
      match ← peek with
      | some .flowSequenceEnd =>
        pass
        return []
      | some .key =>
        pass
        let d ← flowPair fuel
        return d :: (← flowItems fuel false)
      | _ =>
        let d ← node fuel false false
        return d :: (← flowItems fuel false)

/-- Reads a pair in a flow sequence, from behind the mark of its key.  A mark in place of the key
    is passed over with it. -/
def flowPair : Nat → Read Datum
  | 0 => fail
  | fuel + 1 => do
    let key ←
      if ← nextIn [.value, .flowEntry, .flowSequenceEnd] then do
        pass
        pure Datum.null
      else node fuel false false
    let value ← pairValue [.flowEntry, .flowSequenceEnd] (node fuel false false)
    mappingOf [key, value]

def mappingOf (ds : List Datum) : Read Datum :=
  match Datum.pairUp? ds [] with
  | some pairs => return .mapping pairs
  | none => fail

end

/-! ### Documents -/

/-- Reads the directives of a document, and tells whether there are any.  Of tag handles the one
    that is declared last counts, and the version may be given once. -/
def directives : Nat → Bool → Bool → Read Bool
  | 0, _, found => return found
  | fuel + 1, versioned, found => do
    match ← peek with
    | some .versionDirective =>
      if versioned then fail
      else
        modify fun p => { p with declared := none }
        pass
        directives fuel true true
    | some (.tagDirective handle start) =>
      modify fun p => { p with declared := some (handle, start) }
      pass
      directives fuel versioned true
    | _ => return found

def passEnds : Read Unit :=
  modify fun p => { p with tokens := p.tokens.dropWhile (· == .documentEnd) }

def document (fuel : Nat) : Read Datum := do
  passEnds
  if (← peek).isNone then return .mapping []
  else
    let directed ← directives fuel false false
    let explicit ← nextIn [.documentStart]
    let d ←
      if explicit then do
        pass
        match ← peek with
        | none | some .documentStart | some .documentEnd | some .versionDirective
        | some (.tagDirective ..) => pure Datum.null
        | _ => node fuel true false
      else if directed then fail
      else node fuel true false
    passEnds
    if (← peek).isNone then return d else fail

end Read

def read? (text : List Char) : Option Datum := do
  let tokens ← tokens? text
  let (d, _) ← (Read.document (2 * tokens.length + 2)).run ⟨tokens, [], none⟩
  return d

end ImageLookup.Yaml
