import CommandBus.Text.Assignments.Value
import CommandBus.Text.Blank

namespace CommandBus.Text.Assignments

structure Assignment where
  name : List Char
  value : Value
  deriving DecidableEq, Inhabited, Repr

inductive Fault
  | malformed
  /-- A value that an environment cannot hold. -/
  | unsettable
  deriving DecidableEq, Inhabited, Repr

def dropBlank (s : Input) : Input :=
  s.dropWhile isBlank

def afterName? : Input → Option (List Char × Input)
  | c :: rest =>
    if c.isAlpha || c == '_' then
      let isInner := fun c : Char => c.isAlphanum || c == '_' || c == '.'
      some (c :: rest.takeWhile isInner, dropBlank (rest.dropWhile isInner))
    else none
  | [] => none

/-- A name, and what follows the equals sign after it; `export` may come before the name. -/
def afterEquals? (s : Input) : Option (List Char × Input) := do
  match ← afterName? s with
  | (name, '=' :: rest) => return (name, rest)
  | (name, s) =>
    if name = "export".toList then
      match ← afterName? s with
      | (name, '=' :: rest) => return (name, rest)
      | _ => none
    else none

def assignment (line : Input) : Except Fault (Option Assignment) :=
  let s := dropBlank ((line.reverse.dropWhile isBlank).reverse)
  if s.isEmpty || s.head? = some '#' then .ok none
  else match afterEquals? s with
    | none => .error .malformed
    | some (name, s) =>
      let s := dropBlank s
      if s.isEmpty || s.head? = some '#' then .ok (some ⟨name, []⟩)
      else match value? s with
        | some value => .ok (some ⟨name, value⟩)
        | none => .error .malformed

/-- A zero character ends an entry of an environment, so none can be in a value, nor in the value of a
variable. -/
def Assignment.isSettable (a : Assignment) : Bool :=
  !a.value.contains (.text '\x00')

/-- Makes an assignment after others; a name that is set keeps its value. -/
def Assignment.make (made : List Assignment) (a : Assignment) : Except Fault (List Assignment) :=
  if a.name ∈ made.map Assignment.name then .ok made
  else if a.isSettable then .ok (made ++ [a])
  else .error .unsettable

inductive Scan
  | complete
  /-- After a blank, where a comment may begin. -/
  | blank
  | escape
  | single (isEscaped : Bool)
  | double (isEscaped : Bool)
  deriving DecidableEq, Inhabited, Repr

/-- The state after a character, or `none` if that begins a comment. -/
def scan (s : Scan) (c : Char) : Option Scan :=
  match s with
  | .complete | .blank =>
    if s = .blank ∧ c = '#' then none
    else some (match c with
      | '\\' => .escape
      | '"' => .double false
      | '\'' => .single false
      | _ => if s = .complete ∧ isBlank c ∧ c ≠ '\n' ∧ c ≠ '\r' then .blank else .complete)
  | .escape => some .complete
  | .single true => some (.single false)
  | .single false => some (match c with
    | '\\' => .single true
    | '\'' => .complete
    | _ => .single false)
  | .double true => some (.double false)
  | .double false => some (match c with
    | '\\' => .double true
    | '"' => .complete
    | _ => .double false)

/-- The state at the end of a line, or `none` if a comment ends it, and what comes before that. -/
def scanLine : Scan → Input → Option Scan × Input
  | s, [] => (some s, [])
  | s, c :: rest =>
    match scan s c with
    | none => (none, [])
    | some s =>
      let (s, kept) := scanLine s rest
      (s, c :: kept)

def lines : Input → List Input
  | [] => []
  | '\n' :: rest => ['\n'] :: lines rest
  | c :: rest =>
    match lines rest with
    | [] => [[c]]
    | line :: more => (c :: line) :: more

/-- The lines that belong together, each followed by what belongs to it, and whether the last one is
complete; `before` is what earlier lines begin of the next one. -/
def joined : List Input → Scan → Input → List Input × Bool
  | [], s, _ => ([], s = .complete)
  | line :: rest, s, before =>
    if (dropBlank (before ++ line)).head? = some '#' then joined rest .complete []
    else match scanLine s line with
      | (none, kept) | (some .complete, kept) =>
        let (more, isComplete) := joined rest .complete []
        ((before ++ kept) :: more, isComplete)
      | (some s, kept) => joined rest s (before ++ kept)

def makeAll (made : List Assignment) : List Input → Except Fault (List Assignment)
  | [] => .ok made
  | line :: rest => do
    match ← assignment line with
    | some a => makeAll (← a.make made) rest
    | none => makeAll made rest

def dropMark : Input → Input
  | '\ufeff' :: rest => rest
  | s => s

/-- The assignments of a file that take effect; a byte order mark may come first. -/
def load (text : String) : Except Fault (List Assignment) :=
  let (lines, isComplete) := joined (lines (dropMark text.toList)) .complete []
  match makeAll [] lines with
  | .ok made => if isComplete then .ok made else .error .malformed
  | .error fault => .error fault

end CommandBus.Text.Assignments
