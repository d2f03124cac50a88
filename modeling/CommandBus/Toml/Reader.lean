import CommandBus.Toml
import CommandBus.Toml.Number

namespace CommandBus.Toml

abbrev ValueReader := Input → Option (Toml × Input)

def afterWord? (word : String) (s : Input) : Option Input :=
  if word.toList.isPrefixOf s then some (s.drop word.length) else none

def readScalar (s : Input) : Option (Toml × Input) :=
  match s with
  | [] => none
  | c :: _ =>
    if c == '"' || c == '\'' then (readText s).map fun (value, s) => (.text value, s)
    else if c == 't' then (afterWord? "true" s).map (.boolean true, ·)
    else if c == 'f' then (afterWord? "false" s).map (.boolean false, ·)
    else match afterDateTime? s with
      | some s => some (.date, s)
      | none =>
        match readNumber s with
        | some (.integer value, s) => some (.integer value, s)
        | some (.float, s) => some (.float, s)
        | none => none

def readElements (read : ValueReader) : Nat → Input → Option (List Toml × Input)
  | 0, _ => none
  | fuel + 1, s =>
    match skipLines false s with
    | ']' :: rest => some ([], rest)
    | s => do
      let (value, s) ← read s
      match skipLines false s with
      | ',' :: rest =>
        let (more, s) ← readElements read fuel rest
        return (value :: more, s)
      | ']' :: rest => return ([value], rest)
      | _ => none

def readEntry (read : ValueReader) (s : Input) : Option ((List String × String × Toml) × Input) := do
  let (path, key, s) ← readKey s
  let (value, s) ← read (skipSpace (← after? '=' s))
  return ((path, key, value), s)

def readEntries (read : ValueReader) : Nat → Input → Option (List (List String × String × Toml) × Input)
  | 0, _ => none
  | fuel + 1, s => do
    let (entry, s) ← readEntry read s
    match skipSpace s with
    | ',' :: rest =>
      let (more, s) ← readEntries read fuel rest
      return (entry :: more, s)
    | '\x7d' :: rest => return ([entry], rest)
    | _ => none

def inlineTable? (entries : List (List String × String × Toml)) : Option Toml := do
  let entries ← entries.foldlM (fun es (path, key, value) => addKey path key value .inline es) []
  return .table .inline entries

def depthLimit : Nat := 79

def readValue : Nat → ValueReader
  | 0, s => readScalar s
  | depth + 1, s =>
    match s with
    | '[' :: rest =>
      (readElements (readValue depth) (rest.length + 1) rest).map fun (elements, s) =>
        (.array elements, s)
    | '\x7b' :: rest =>
      match skipSpace rest with
      | '\x7d' :: rest => some (.table .inline [], rest)
      | rest => do
        let (entries, s) ← readEntries (readValue depth) (rest.length + 1) rest
        return (← inlineTable? entries, s)
    | s => readScalar s

/-- The lines of a document; `header` leads to the table that keys are added to. -/
def readLines : Nat → List String → Entries → Input → Option Entries
  | 0, _, _, _ => none
  | fuel + 1, header, root, s =>
    match skipSpace s with
    | [] => some root
    | '\n' :: rest => readLines fuel header root rest
    | '#' :: rest => do readLines fuel header root (← endLine? ('#' :: rest))
    | '[' :: '[' :: rest => do
      let (path, key, s) ← readKey rest
      let s ← endLine? (← afterWord? "]]" s)
      readLines fuel (path ++ [key]) (← openElement path key root) s
    | '[' :: rest => do
      let (path, key, s) ← readKey rest
      let s ← endLine? (← after? ']' s)
      readLines fuel (path ++ [key]) (← openTable path key root) s
    | s => do
      let ((path, key, value), s) ← readEntry (readValue depthLimit) s
      let root ← alter false (addKey path key value) header .header root
      readLines fuel header root (← endLine? s)

def dropMark : List Char → List Char
  | '\ufeff' :: rest => rest
  | s => s

def parse? (text : String) : Option Entries :=
  let s := unifyBreaks (dropMark text.toList)
  readLines (s.length + 1) [] [] s

end CommandBus.Toml
