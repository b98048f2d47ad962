import ClusterScaling.Decimal.Binary64

/-!
# Values of TOML documents

`Value` is what a document means. `Table` is a table under construction, which also knows how it
came about, since that decides how it may be extended: a table stands in the document once, a table
of dotted keys takes more dotted keys only, and a table that is only named on the way to another
one may still be defined.
-/

namespace ClusterScaling.Toml

open Decimal (Binary64)

/-- A value. The entries of a table keep their order. -/
inductive Value where
  | string (s : String)
  | integer (n : Int)
  | float (x : Binary64)
  | boolean (b : Bool)
  /-- A date, a time, or both. -/
  | moment
  | array (items : List Value)
  | table (entries : List (String × Value))

mutual

/-- An entry of a table under construction. -/
inductive Node where
  | value (v : Value)
  | table (t : Table)
  /-- An array of tables, the last one first. -/
  | tables (ts : List Table)

/-- A table under construction. -/
inductive Table where
  /-- A table that is not defined itself (`implicit`), or one made by a dotted key (`dotted`). -/
  | mk (implicit dotted : Bool) (entries : List (String × Node))

end

mutual

/-- The value of an entry. -/
def Node.toValue : Node → Value
  | .value v => v
  | .table (.mk _ _ entries) => .table (entryValues entries)
  | .tables ts => .array (tableValues ts).reverse

/-- The values of the entries. -/
def entryValues : List (String × Node) → List (String × Value)
  | [] => []
  | (k, n) :: rest => (k, n.toValue) :: entryValues rest

/-- The values of the tables. -/
def tableValues : List Table → List Value
  | [] => []
  | .mk _ _ entries :: rest => .table (entryValues entries) :: tableValues rest

end

namespace Table

/-- The entries of the table. -/
def entries : Table → List (String × Node)
  | mk _ _ entries => entries

/-- Whether the table is only named on the way to another one. -/
def isImplicit : Table → Bool
  | mk implicit _ _ => implicit

/-- Whether a dotted key made the table. -/
def isDotted : Table → Bool
  | mk _ dotted _ => dotted

/-- A table without entries that is defined by itself. -/
def empty : Table := mk false false []

/-- The table with other entries. -/
def withEntries (t : Table) (entries : List (String × Node)) : Table :=
  mk t.isImplicit t.isDotted entries

/-- The entry under a key. -/
def find? (t : Table) (key : String) : Option Node := t.entries.lookup key

/-- The table with one more entry at its end. -/
def append (t : Table) (key : String) (n : Node) : Table := t.withEntries (t.entries ++ [(key, n)])

/-- The table with another entry under a key that it has. -/
def replace (t : Table) (key : String) (n : Node) : Table :=
  t.withEntries (t.entries.map fun e => if e.1 = key then (key, n) else e)

/-- The table without the entry under a key. -/
def erase (t : Table) (key : String) : Table :=
  t.withEntries (t.entries.filter fun e => e.1 ≠ key)

/-- Changes the table at a path and makes the tables on the way that are missing. In an array of
tables the path goes through its last one. A path of a dotted key must not lead through a table
that is defined. -/
def updateAt {α : Type} (dotted : Bool) (f : Table → Option (Table × α)) :
    List String → Table → Option (Table × α)
  | [], t => f t
  | k :: ks, t =>
    match t.find? k with
    | none =>
      (updateAt dotted f ks (mk true dotted [])).map fun r => (t.append k (.table r.1), r.2)
    | some (.value _) => none
    | some (.tables []) => none
    | some (.tables (last :: before)) =>
      (updateAt dotted f ks last).map fun r => (t.replace k (.tables (r.1 :: before)), r.2)
    | some (.table s) =>
      if dotted && !s.isImplicit then none
      else (updateAt dotted f ks s).map fun r => (t.replace k (.table r.1), r.2)

/-- Puts a value under a dotted key, given as the path to its table and its last part. The key
must be new, and its table made by dotted keys exactly if there is a path. -/
def insert (t : Table) (path : List String) (key : String) (v : Value) : Option Table :=
  (updateAt true (fun s =>
    if s.isDotted == path.isEmpty || (s.find? key).isSome then none
    else some (s.append key (.value v), ())) path t).map Prod.fst

end Table

end ClusterScaling.Toml
