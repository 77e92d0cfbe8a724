import Stencil.Toml.Scalar

/-!
# Reading TOML documents

A document is a list of lines: headers that open tables, and keys with values that go into the
table that is open. A table can be opened once only, a key can be set once only, and a table that
came about through a dotted key can only be extended by dotted keys. Values are nested, and keys
are dotted, only so deep.
-/

namespace Stencil.Toml

/-- What a key of a document that is being read stands for. -/
inductive Item where
  | value (value : Toml)
  /-- A table; it is implicit as long as no header opened it, and dotted if a dotted key made
  it. -/
  | table (isImplicit isDotted : Bool) (entries : List (Named Item))
  /-- An array of tables. -/
  | tables (tables : List (List (Named Item)))

/-- The keys of a table that is being read. -/
abbrev Entries := List (Named Item)

/-- What a key stands for. -/
def Entries.get? (entries : Entries) (key : String) : Option Item :=
  (entries.find? (·.name = key)).map (·.value)

/-- Sets what a key stands for. -/
def Entries.set (key : String) (item : Item) : Entries → Entries
  | [] => [⟨key, item⟩]
  | entry :: rest => if entry.name = key then ⟨key, item⟩ :: rest else entry :: set key item rest

/-- Changes the table at a path, which is made if it does not exist. The change is told whether the
table is dotted. A dotted path cannot go through a table that a header opened. -/
def edit (dotted : Bool) (change : Bool → Entries → Option Entries) :
    (path : List String) → (isDotted : Bool) → Entries → Option Entries
  | [], isDotted, entries => change isDotted entries
  | key :: path, _, entries =>
    match entries.get? key with
    | none => do
      let inner ← edit dotted change path dotted []
      return entries.set key (.table true dotted inner)
    | some (.value _) => none
    | some (.table isImplicit isDotted inner) =>
      if dotted && !isImplicit then none
      else do
        let inner ← edit dotted change path isDotted inner
        return entries.set key (.table isImplicit isDotted inner)
    | some (.tables tables) => do
      let inner ← edit dotted change path false (tables.getLastD [])
      return entries.set key (.tables (tables.dropLast ++ [inner]))

/-- Sets a key that may be dotted. -/
def setKey (path : List String) (key : String) (value : Toml) (entries : Entries) :
    Option Entries :=
  edit true (fun isDotted entries =>
    if isDotted = path.isEmpty ∨ (entries.get? key).isSome then none
    else some (entries.set key (.value value))) path false entries

/-- Opens a table. -/
def openTable (path : List String) (key : String) (entries : Entries) : Option Entries :=
  edit false (fun _ entries =>
    match entries.get? key with
    | none => some (entries.set key (.table false false []))
    | some (.table true false inner) => some (entries.set key (.table false false inner))
    | _ => none) path false entries

/-- Adds a table to an array of tables. -/
def openElement (path : List String) (key : String) (entries : Entries) : Option Entries :=
  edit false (fun _ entries =>
    match entries.get? key with
    | none => some (entries.set key (.tables [[]]))
    | some (.tables tables) => some (entries.set key (.tables (tables ++ [[]])))
    | _ => none) path false entries

mutual

/-- The value of what a key stands for. -/
def Item.toValue : Item → Toml
  | .value value => value
  | .table _ _ entries => .table (entriesValue entries)
  | .tables tables => .array (tablesValue tables)

/-- The values of the keys of a table. -/
def entriesValue : List (Named Item) → List (Named Toml)
  | [] => []
  | ⟨key, item⟩ :: rest => ⟨key, item.toValue⟩ :: entriesValue rest

/-- The tables of an array of tables. -/
def tablesValue : List (List (Named Item)) → List Toml
  | [] => []
  | entries :: rest => .table (entriesValue entries) :: tablesValue rest

end

/-- How deep arrays and tables on one line may be nested, and how many parts a key may have. -/
def maxNesting : Nat := 79

/-- Characters of keys that are not in quotes. -/
def isKeyChar (char : Char) : Bool :=
  char.isAlphanum || char = '_' || char = '-'

/-- Reads one part of a key. -/
def keyPart? (text : List Char) : Option (String × List Char) :=
  match text with
  | '"' :: rest => basicString? (rest.length + 1) [] rest
  | '\'' :: rest => literalString? [] rest
  | text =>
    let key := text.takeWhile isKeyChar
    if key.isEmpty then none else some (String.ofList key, text.drop key.length)

/-- Reads a key that may be dotted: the parts before the last one, and the last one. -/
def key? : (fuel : Nat) → (before : List String) → List Char →
    Option ((List String × String) × List Char)
  | 0, _, _ => none
  | fuel + 1, before, text => do
    let (part, text) ← keyPart? (skipSpaces text)
    match skipSpaces text with
    | '.' :: text => key? fuel (before ++ [part]) text
    | text => if before.length < maxNesting then return ((before, part), text) else none

/-- What follows a comment, which runs to the end of its line. -/
def comment? (text : List Char) : Option (List Char) :=
  match text with
  | '#' :: text =>
    let rest := text.dropWhile isPrintable
    if rest.isEmpty ∨ (newline? rest).isSome then some rest else none
  | text => some text

/-- What follows blanks, line breaks and comments. -/
def skipLines? : (fuel : Nat) → List Char → Option (List Char)
  | 0, _ => none
  | fuel + 1, text => do
    let text ← comment? (skipSpaces text)
    match newline? text with
    | some text => skipLines? fuel text
    | none => return text

mutual

/-- Reads a value that may be nested `depth` deep; every value, item and entry takes one unit of
`fuel`. -/
def value? : (fuel depth : Nat) → List Char → Option (Toml × List Char)
  | 0, _, _ => none
  | fuel + 1, depth, text =>
    match text, depth with
    | '"' :: _, _ | '\'' :: _, _ => (string? text).map fun (value, text) => (string value, text)
    | '[' :: _, 0 | '\x7b' :: _, 0 => none
    | '[' :: text, depth + 1 =>
      (items? fuel depth [] text).map fun (items, text) => (array items, text)
    | '\x7b' :: text, depth + 1 =>
      match skipSpaces text with
      | '\x7d' :: text => some (table [], text)
      | text => (inlineEntries? fuel depth [] text).map fun (entries, text) =>
        (table (entriesValue entries), text)
    | text, _ => word? text

/-- Reads the items of an array after those in `before`. A comma may stand after the last one. -/
def items? : (fuel depth : Nat) → (before : List Toml) → List Char →
    Option (List Toml × List Char)
  | 0, _, _, _ => none
  | fuel + 1, depth, before, text => do
    match ← skipLines? (text.length + 1) text with
    | ']' :: text => return (before, text)
    | text =>
      let (item, text) ← value? fuel depth text
      match ← skipLines? (text.length + 1) text with
      | ']' :: text => return (before ++ [item], text)
      | ',' :: text => items? fuel depth (before ++ [item]) text
      | _ => none

/-- Reads the entries of a table on one line after those in `before`. -/
def inlineEntries? : (fuel depth : Nat) → (before : Entries) → List Char →
    Option (Entries × List Char)
  | 0, _, _, _ => none
  | fuel + 1, depth, before, text => do
    let ((path, key), text) ← key? (text.length + 1) [] text
    match text with
    | '=' :: text =>
      let (value, text) ← value? fuel depth (skipSpaces text)
      let entries ← setKey path key value before
      match skipSpaces text with
      | '\x7d' :: text => return (entries, text)
      | ',' :: text => inlineEntries? fuel depth entries text
      | _ => none
    | _ => none

end

/-- How far a document has been read. -/
structure Document where
  entries : Entries := []
  /-- The path of the table that is open. -/
  opened : List String := []

/-- Reads a header, a key with its value, or nothing, up to the end of a line. -/
def line? (document : Document) (text : List Char) : Option (Document × List Char) := do
  match skipSpaces text with
  | '[' :: '[' :: text =>
    let ((path, key), text) ← key? (text.length + 1) [] text
    match text with
    | ']' :: ']' :: text =>
      return (⟨← openElement path key document.entries, path ++ [key]⟩, text)
    | _ => none
  | '[' :: text =>
    let ((path, key), text) ← key? (text.length + 1) [] text
    match text with
    | ']' :: text => return (⟨← openTable path key document.entries, path ++ [key]⟩, text)
    | _ => none
  | text =>
    if text.isEmpty ∨ text.head? = some '#' ∨ (newline? text).isSome then return (document, text)
    else
      let ((path, key), text) ← key? (text.length + 1) [] text
      match text with
      | '=' :: text =>
        let (value, text) ← value? (text.length + 1) maxNesting (skipSpaces text)
        let entries ← edit false (fun _ entries => setKey path key value entries)
          document.opened false document.entries
        return ({ document with entries }, text)
      | _ => none

/-- Reads lines to the end of a text; each takes one unit of `fuel`. -/
def lines? : (fuel : Nat) → Document → List Char → Option Document
  | 0, _, _ => none
  | fuel + 1, document, text => do
    let (document, text) ← line? document text
    match ← comment? (skipSpaces text) with
    | [] => return document
    | text => lines? fuel document (← newline? text)

/-- The entries of the document that a text spells, if it spells one. -/
def read? (text : String) : Option (List (Named Toml)) := do
  let text := text.toList
  let text := if text.head? = some (Char.ofNat 0xFEFF) then text.drop 1 else text
  let document ← lines? (text.length + 1) {} text
  return entriesValue document.entries

end Stencil.Toml
