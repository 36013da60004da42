import EulerFlow.Config.Toml.Scalar

namespace EulerFlow.Config.Toml

/-- A document under construction. Which later lines may still add to a table depends on
how it came into being. -/
inductive Node where
  | value (v : Value)
  /-- A table; `implied` if no header has named it, `dotted` if keys with dots have made it. -/
  | table (implied dotted : Bool) (entries : List (String × Node))
  /-- An array of tables, the newest first. -/
  | tables (items : List (List (String × Node)))

/-- What stands under each key of a table, in order of definition. -/
abbrev Entries := List (String × Node)

namespace Entries

/-- The entries with the node of a present key exchanged. -/
def put (es : Entries) (key : String) (node : Node) : Entries :=
  es.map fun e => (e.1, if e.1 = key then node else e.2)

/-- Changes the table that a header's path leads to. Tables on the way that do not exist
are implied, and an array of tables stands for its newest table. -/
def within (change : Entries → Option Entries) : List String → Entries → Option Entries
  | [], es => change es
  | key :: path, es =>
    match es.lookup key with
    | none => (within change path []).map fun sub => es ++ [(key, .table true false sub)]
    | some (.table implied dotted sub) =>
      (within change path sub).map fun sub => es.put key (.table implied dotted sub)
    | some (.tables (newest :: older)) =>
      (within change path newest).map fun newest => es.put key (.tables (newest :: older))
    | some _ => none

/-- Defines a key behind a dotted path. Tables that a header has named are closed to dotted
keys, and the innermost table must be one that dotted keys have made. -/
def define (key : String) (v : Value) : List String → Entries → Option Entries
  | [], es => if (es.lookup key).isSome then none else some (es ++ [(key, .value v)])
  | step :: path, es =>
    match es.lookup step with
    | none => (define key v path []).map fun sub => es ++ [(step, .table true true sub)]
    | some (.table implied dotted sub) =>
      if implied ∧ (path ≠ [] ∨ dotted) then
        (define key v path sub).map fun sub => es.put step (.table implied dotted sub)
      else none
    | some (.tables (newest :: older)) =>
      if path ≠ [] then (define key v path newest).map fun newest => es.put step (.tables (newest :: older))
      else none
    | some _ => none

/-- Opens the table of a header. Only a table that is new or implied can be opened. -/
def openTable (key : String) (es : Entries) : Option Entries :=
  match es.lookup key with
  | none => some (es ++ [(key, .table false false [])])
  | some (.table true false sub) => some (es.put key (.table false false sub))
  | some _ => none

/-- Opens the next table of an array of tables. -/
def openNext (key : String) (es : Entries) : Option Entries :=
  match es.lookup key with
  | none => some (es ++ [(key, .tables [[]])])
  | some (.tables items) => some (es.put key (.tables ([] :: items)))
  | some _ => none

end Entries

mutual

/-- The finished value of a node. -/
def Node.toValue : Node → Value
  | .value v => v
  | .table _ _ entries => .table (Node.toFields entries)
  | .tables items => .list (Node.toTables items).reverse

/-- The fields that the entries of a table stand for. -/
def Node.toFields : List (String × Node) → List (String × Value)
  | [] => []
  | (key, node) :: entries => (key, node.toValue) :: Node.toFields entries

/-- The tables of an array of tables, in the order of their headers. -/
def Node.toTables : List (List (String × Node)) → List Value
  | [] => []
  | entries :: items => .table (Node.toFields entries) :: Node.toTables items

end

/-- What follows spaces and tabs. A line end is kept. -/
def dropSpaces (cs : List Char) : List Char :=
  cs.dropWhile fun c => c = ' ' || c = '\t'

/-- A comment up to the end of its line, if there is one. -/
def dropComment? : List Char → Option (List Char)
  | '#' :: cs =>
    let rest := cs.dropWhile isPlain
    if rest = [] ∨ (lineEnd? rest).isSome then some rest else none
  | cs => some cs

/-- Blanks, comments and line ends. Each line takes one unit of fuel. -/
def dropLines? : (fuel : Nat) → List Char → Option (List Char)
  | 0, _ => none
  | fuel + 1, cs =>
    match dropComment? (dropSpaces cs) with
    | none => none
    | some rest =>
      match lineEnd? rest with
      | some rest => dropLines? fuel rest
      | none => some rest

/-- One part of a key: bare or in quotes. -/
def keyPart? (cs : List Char) : Option (String × List Char) :=
  match cs with
  | '"' :: rest => (basic? (rest.length + 1) rest).map fun (s, rest) => (String.ofList s, rest)
  | '\'' :: rest => (literal? rest).map fun (s, rest) => (String.ofList s, rest)
  | _ =>
    let isKeyChar (c : Char) : Bool := c.isAlphanum || c = '_' || c = '-'
    match cs.takeWhile isKeyChar with
    | [] => none
    | name => some (String.ofList name, cs.dropWhile isKeyChar)

/-- The deepest nesting of arrays and inline tables, and the most parts that a key may have. -/
def maxLevels : Nat := 80

/-- The parts of a key, at most so many, with dots between them: the path to the last one, and
the last one. Blanks may stand around each part. -/
def keyParts? : (parts : Nat) → List Char → Option ((List String × String) × List Char)
  | 0, _ => none
  | parts + 1, cs => do
    let (part, rest) ← keyPart? (dropSpaces cs)
    match dropSpaces rest with
    | '.' :: rest =>
      let ((path, last), rest) ← keyParts? parts rest
      return ((part :: path, last), rest)
    | rest => return (([], part), rest)

/-- A key with its dots, as the steps on the way and the last one. -/
def key? (cs : List Char) : Option ((List String × String) × List Char) :=
  keyParts? maxLevels cs

/-- The items of an array behind its opening bracket, with the closing one. -/
def items? (item? : List Char → Option (Value × List Char)) :
    (fuel : Nat) → List Char → Option (List Value × List Char)
  | 0, _ => none
  | fuel + 1, cs => do
    match ← dropLines? (cs.length + 1) cs with
    | ']' :: rest => return ([], rest)
    | cs =>
      let (item, rest) ← item? cs
      match ← dropLines? (rest.length + 1) rest with
      | ',' :: rest =>
        let (items, rest) ← items? item? fuel rest
        return (item :: items, rest)
      | ']' :: rest => return ([item], rest)
      | _ => none

/-- The fields of an inline table behind its opening brace, with the closing one. Between
keys, values and signs there may be blanks, comments and line ends. -/
def fields? (item? : List Char → Option (Value × List Char)) :
    (fuel : Nat) → Entries → List Char → Option (Entries × List Char)
  | 0, _, _ => none
  | fuel + 1, es, cs => do
    match ← dropLines? (cs.length + 1) cs with
    | '\x7d' :: rest => return (es, rest)
    | cs =>
      let ((path, last), rest) ← key? cs
      match ← dropLines? (rest.length + 1) rest with
      | '=' :: rest =>
        let (item, rest) ← item? (← dropLines? (rest.length + 1) rest)
        let es ← es.define last item path
        match ← dropLines? (rest.length + 1) rest with
        | ',' :: rest => fields? item? fuel es rest
        | '\x7d' :: rest => return (es, rest)
        | _ => none
      | _ => none

/-- A value, with arrays and inline tables inside one another up to the given number of levels. -/
def value? : (levels : Nat) → List Char → Option (Value × List Char)
  | levels + 1, '[' :: rest =>
    (items? (value? levels) (rest.length + 1) rest).map fun (items, rest) => (.list items, rest)
  | levels + 1, '\x7b' :: rest =>
    (fields? (value? levels) (rest.length + 1) [] rest).map fun (es, rest) => (.table (Node.toFields es), rest)
  | _, '"' :: rest => (quoted? ('"' :: rest)).map fun (s, rest) => (.text s, rest)
  | _, '\'' :: rest => (quoted? ('\'' :: rest)).map fun (s, rest) => (.text s, rest)
  | _, cs => bare? cs

/-- The document so far: its root, and the path of the table that is open. -/
structure Draft where
  root : Entries
  opened : List String

/-- One header or definition, up to the end of what it says. -/
def statement? (draft : Draft) (cs : List Char) : Option (Draft × List Char) := do
  match cs with
  | '[' :: '[' :: rest =>
    match ← key? rest with
    | ((path, last), ']' :: ']' :: rest) =>
      let root ← draft.root.within (Entries.openNext last) path
      return (⟨root, path ++ [last]⟩, rest)
    | _ => none
  | '[' :: rest =>
    match ← key? rest with
    | ((path, last), ']' :: rest) =>
      let root ← draft.root.within (Entries.openTable last) path
      return (⟨root, path ++ [last]⟩, rest)
    | _ => none
  | _ =>
    match ← key? cs with
    | ((path, last), '=' :: rest) =>
      let (v, rest) ← value? maxLevels (dropSpaces rest)
      let root ← draft.root.within (Entries.define last v path) draft.opened
      return (⟨root, draft.opened⟩, rest)
    | _ => none

/-- The statements of a document, one a line. -/
def statements? : (fuel : Nat) → Draft → List Char → Option Draft
  | 0, _, _ => none
  | fuel + 1, draft, cs => do
    match ← dropLines? (cs.length + 1) cs with
    | [] => return draft
    | cs =>
      let (draft, rest) ← statement? draft cs
      match ← dropComment? (dropSpaces rest) with
      | [] => return draft
      | rest => statements? fuel draft (← lineEnd? rest)

/-- The table that a document describes, unless it breaks a rule somewhere. -/
def read? (text : String) : Option Value :=
  let cs := match text.toList with
    | '\ufeff' :: cs => cs
    | cs => cs
  (statements? (cs.length + 1) ⟨[], []⟩ cs).map fun draft => .table (Node.toFields draft.root)

end EulerFlow.Config.Toml
