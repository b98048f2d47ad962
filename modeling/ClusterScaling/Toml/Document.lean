import ClusterScaling.Toml.Lexeme

/-!
# TOML documents

`read?` reads a document and gives the entries of its root table in their order, or `none` if the
text is no document.
-/

namespace ClusterScaling.Toml

/-! ## Values -/

/-- A reader that takes a value off the front of a text. -/
abbrev Reader (α : Type) := List Char → Option (α × List Char)

/-- The text after white space, line ends and comments. A line may end in two characters. -/
def skipLines (cs : List Char) : List Char :=
  match cs with
  | '\n' :: r => skipLines r
  | '\r' :: '\n' :: r => skipLines r
  | '#' :: r => skipLines (r.dropWhile isCommentChar)
  | c :: r => if isBlank c then skipLines r else cs
  | [] => []
termination_by cs.length
decreasing_by
  all_goals simp_wf
  all_goals have := (r.dropWhile_sublist isCommentChar).length_le
  all_goals omega

/-- Reads the items of an array, from after its bracket or a comma. -/
def items (value : Reader Value) (cs : List Char) : Option (List Value × List Char) :=
  match skipLines cs with
  | ']' :: r => some ([], r)
  | start =>
    match value start with
    | none => none
    | some (v, r) =>
      match skipLines r with
      | ']' :: r => some ([v], r)
      | ',' :: r =>
        if r.length < cs.length then (items value r).map fun p => (v :: p.1, p.2) else none
      | _ => none
termination_by cs.length

/-- Reads a key, the equals sign and a value. -/
def keyValue (value : Reader Value) (cs : List Char) :
    Option ((List String × Value) × List Char) := do
  let (key, r) ← key? cs
  match r with
  | '=' :: r =>
    let (v, r) ← value (skipBlanks r)
    some ((key, v), r)
  | _ => none

/-- The path to the table of a key, and its last part. -/
def splitKey (key : List String) : List String × String :=
  (key.dropLast, key.getLast?.getD "")

/-- Puts a value under a key. -/
def Table.insertKey (t : Table) (key : List String) (v : Value) : Option Table :=
  t.insert (splitKey key).1 (splitKey key).2 v

/-- Reads the entries of an inline table into `t`, from after its brace or a comma. -/
def inlineEntries (value : Reader Value) (t : Table) (cs : List Char) :
    Option (Table × List Char) :=
  match keyValue value cs with
  | none => none
  | some ((key, v), r) =>
    match t.insertKey key v with
    | none => none
    | some t =>
      match skipBlanks r with
      | '\x7d' :: r => some (t, r)
      | ',' :: r => if r.length < cs.length then inlineEntries value t r else none
      | _ => none
termination_by cs.length

/-- The number of arrays and inline tables that a value may stand in. -/
def depthLimit : Nat := 79

/-- Reads a value that may hold `depth` arrays and inline tables within one another. -/
def value : Nat → Reader Value
  | 0, cs =>
    match cs with
    | '"' :: _ | '\'' :: _ => (text? cs).map fun p => (.string p.1, p.2)
    | cs => word? cs
  | depth + 1, cs =>
    match cs with
    | '[' :: r => (items (value depth) r).map fun p => (.array p.1, p.2)
    | '\x7b' :: r =>
      match skipBlanks r with
      | '\x7d' :: r => some (.table [], r)
      | _ =>
        (inlineEntries (value depth) .empty r).map fun p => (.table (entryValues p.1.entries), p.2)
    | '"' :: _ | '\'' :: _ => (text? cs).map fun p => (.string p.1, p.2)
    | cs => word? cs

/-! ## Tables -/

/-- Where the table stands that is being read. -/
inductive Place where
  | root
  /-- The table `key` of the table at `path`. -/
  | table (path : List String) (key : String)
  /-- The last of the tables `key` of the table at `path`. -/
  | lastTable (path : List String) (key : String)

/-- A document of which some lines are read. -/
structure State where
  root : Table
  current : Table
  place : Place

namespace State

/-- A document of which nothing is read. -/
def start : State := ⟨.empty, .empty, .root⟩

/-- Puts the current table in its place and gives the root table. -/
def close (s : State) : Option Table :=
  match s.place with
  | .root => some s.current
  | .table path key =>
    (s.root.updateAt false (fun parent => some (parent.append key (.table s.current), ())) path).map
      Prod.fst
  | .lastTable path key =>
    (s.root.updateAt false (fun parent =>
      match parent.find? key with
      | none => some (parent.append key (.tables [s.current]), ())
      | some (.tables ts) => some (parent.replace key (.tables (s.current :: ts)), ())
      | some _ => none) path).map Prod.fst

/-- Begins the table of a header. It may have been named on the way to another table, but not be
defined or made by dotted keys. -/
def openTable (s : State) (key : List String) : Option State := do
  let root ← s.close
  let (path, last) := splitKey key
  let (root, current) ← root.updateAt false (fun parent =>
    match parent.find? last with
    | none => some (parent, .empty)
    | some (.table t) =>
      if t.isImplicit && !t.isDotted then some (parent.erase last, .mk false false t.entries)
      else none
    | some _ => none) path
  some ⟨root, current, .table path last⟩

/-- Begins one more table of an array of tables. -/
def openLastTable (s : State) (key : List String) : Option State := do
  let root ← s.close
  let (path, last) := splitKey key
  let (root, _) ← root.updateAt false (fun parent =>
    match parent.find? last with
    | none | some (.tables _) => some (parent, ())
    | some _ => none) path
  some ⟨root, .empty, .lastTable path last⟩

/-- Puts a value of a line into the current table. -/
def insert (s : State) (key : List String) (v : Value) : Option State :=
  (s.current.insertKey key v).map fun t => { s with current := t }

/-- Reads a line that is not blank: a comment, a header or a key with its value. -/
def line (s : State) (cs : List Char) : Option (State × List Char) :=
  match cs with
  | '#' :: _ => (restOfLine? cs).map fun r => (s, r)
  | '[' :: '[' :: r => do
    let (key, r) ← key? r
    match r with
    | ']' :: ']' :: r =>
      let s ← s.openLastTable key
      (restOfLine? r).map fun r => (s, r)
    | _ => none
  | '[' :: r => do
    let (key, r) ← key? r
    match r with
    | ']' :: r =>
      let s ← s.openTable key
      (restOfLine? r).map fun r => (s, r)
    | _ => none
  | cs => do
    let ((key, v), r) ← keyValue (value depthLimit) cs
    let s ← s.insert key v
    (restOfLine? r).map fun r => (s, r)

/-- Reads all lines. -/
def lines (s : State) (cs : List Char) : Option State :=
  match skipBlanks cs with
  | [] => some s
  | start =>
    let next := match lineEnd? start with
      | some r => some (s, r)
      | none => s.line start
    match next with
    | none => none
    | some (s, r) => if r.length < cs.length then lines s r else none
termination_by cs.length

end State

/-- Reads a document, which may begin with a byte order mark. -/
def read? (cs : List Char) : Option (List (String × Value)) := do
  let cs := match cs with
    | '\ufeff' :: r => r
    | cs => cs
  let s ← State.start.lines cs
  let root ← s.close
  some (entryValues root.entries)

end ClusterScaling.Toml
