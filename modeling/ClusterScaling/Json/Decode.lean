import ClusterScaling.Json.Shape

/-!
# Decoding

`Shape.decode` reads a value of a shape from a tree. It goes through the tree in document order
and stops at the first problem, be it a fault of the text or a value of the wrong kind. A record
may stand as an object, with its fields in any order among others, or as an array of its fields in
their order. A union is buffered as a whole, since its tag may come last.
-/

namespace ClusterScaling.Json

namespace DecodeError

/-- The outcome of an operation that only faults can end. -/
def ofFault {α : Type} (r : Except Fault α) : Except DecodeError α := r.mapError .fault

/-- The outcome of an operation that only mismatches can end. -/
def ofMismatch {α : Type} (r : Except Mismatch α) : Except DecodeError α := r.mapError .mismatch

end DecodeError

namespace Tree

/-- Refuses the value, since `expected` is asked for in its place. -/
def refuse {α : Type} (expected : Expected) (t : Tree) : Except DecodeError α :=
  match t.seen with
  | .ok s => .error (.mismatch (.kind s expected))
  | .error f => .error (.fault f)

/-- Reads an integer. -/
def decodeInteger {α : Type} (w : Width α) : Tree → Except DecodeError α
  | number n =>
    match n.evaluate with
    | .error f => .error (.fault f)
    | .ok (.floating x) => .error (.mismatch (.kind (.floating x) w.expected))
    | .ok (.integer k) =>
      match w.ofInt? k with
      | some a => .ok a
      | none => .error (.mismatch (.range k w.expected))
  | t => t.refuse w.expected

/-- Reads a text, in whose place `expected` is asked for. -/
def decodeText (expected : Expected) : Tree → Except DecodeError String
  | string l => DecodeError.ofFault l.text
  | t => t.refuse expected

/-- Reads a truth value. -/
def decodeFlag : Tree → Except DecodeError Bool
  | bool b => .ok b
  | t => t.refuse .flag

end Tree

namespace Items

/-- Refuses items after the last field of a record. -/
def endRecord : Items → Except DecodeError Unit
  | done => .ok ()
  | cut f => .error (.fault (if f = .endInList then f else .trailingText))
  | cons (.fault .trailingComma) _ => .error (.fault .trailingComma)
  | cons _ _ => .error (.fault .trailingText)

/-- Refuses items after the last field of a buffered record of `count` fields. -/
def endBuffered (count : Nat) : Items → Except DecodeError Unit
  | cons t rest =>
    .error (.mismatch (.length (count + (cons t rest).length) (.sequence count)))
  | _ => .ok ()

end Items

namespace Members

/-- Finds the text of the tag of a buffered union while checking all members; a second tag is
refused. -/
def findTag (tag : String) (depth : Nat) (found : Option String) :
    Members → Except DecodeError (Option String) :=
  collect .fault (fun found key value =>
    if key = tag then
      if found.isSome then .error (.mismatch (.duplicateField tag))
      else (value.decodeText .unionName).map some
    else (DecodeError.ofFault (value.buffer depth)).map fun _ => found) found

end Members

mutual

/-- Reads a value that stands in `depth` containers. -/
def Shape.decode : {α : Type} → Shape α → Nat → Tree → Except DecodeError α
  | _, .integer w, _, t => t.decodeInteger w
  | _, .text, _, t => t.decodeText .text
  | _, .flag, _, t => t.decodeFlag
  | _, .list item, depth, .array items => items.collect .fault fun t => item.decode (depth + 1) t
  | _, .list _, _, t => t.refuse .sequence
  | _, .nullable _, _, .null => .ok none
  | _, .nullable s, depth, t => (s.decode depth t).map some
  | _, .record name fields make _ _ _, depth, t =>
    match t with
    | .object members => do
      let slots ← members.collect .fault
        (fun slots key value => fields.put (depth + 1) none slots key value) fields.vacant
      (DecodeError.ofMismatch (fields.complete slots)).map make
    | .array items => do
      let (b, rest) ← fields.decodeItems (depth + 1)
        (.fieldsOf (Expected.record name).message fields.length) 0 items
      rest.endRecord
      .ok (make b)
    | t => t.refuse (.record name)
  | _, .union name tag _ cases make _ _ _, depth, t =>
    match t with
    | .object members => do
      match ← members.findTag tag (depth + 1) none with
      | none => .error (.mismatch (.missingField tag))
      | some chosen => (cases.decodeObject name tag chosen (depth + 1) members).map make
    | .array .done => .error (.mismatch (.missingField tag))
    | .array (.cut f) => .error (.fault f)
    | .array (.cons t rest) => do
      let chosen ← t.decodeText .unionName
      DecodeError.ofFault (rest.buffer (depth + 1))
      (cases.decodeArray name chosen (depth + 1) rest).map make
    | t => t.refuse (.union name)

/-- Reads the member `key` into its slot. A member of no field, or under the key `except`, is
passed over, and a second one for the same field is refused. -/
def Fields.put : {β : Type} → (fs : Fields β) → Nat → Option String → fs.Slots → String → Tree →
    Except DecodeError fs.Slots
  | _, .nil, _, _, slots, _, value => (DecodeError.ofFault value.pass).map fun _ => slots
  | _, @Fields.cons α _ name shape _ rest, depth, except, slots, key, value =>
    let held : Option α × rest.Slots := slots
    if key = name && except != some name then
      if held.1.isSome then .error (.mismatch (.duplicateField name))
      else (shape.decode depth value).map fun a => (some a, held.2)
    else (rest.put depth except held.2 key value).map fun slots => (held.1, slots)

/-- Reads the fields, of which the first has the given index, from the items of an array, and gives
the items left over. -/
def Fields.decodeItems : {β : Type} → Fields β → Nat → Arity → Nat → Items →
    Except DecodeError (β × Items)
  | _, .nil, _, _, _, items => .ok ((), items)
  | _, .cons _ shape presence rest, depth, arity, index, items =>
    match items with
    | .cut f => .error (.fault f)
    | .cons t items => do
      let a ← shape.decode depth t
      (rest.decodeItems depth arity (index + 1) items).map fun r => ((a, r.1), r.2)
    | .done =>
      match presence with
      | .required => .error (.mismatch (.length index arity))
      | .absentAs d | .hiddenAs d _ _ =>
        (rest.decodeItems depth arity (index + 1) .done).map fun r => ((d, r.1), r.2)

/-- Reads the case `chosen` from the members of a buffered union. -/
def Cases.decodeObject : {β : Type} → Cases β → String → String → String → Nat → Members →
    Except DecodeError β
  | _, .nil, _, _, _, _, _ => .ok ()
  | _, .cons name fields rest, union, tag, chosen, depth, members =>
    if chosen = name then do
      let slots ← members.collect .fault
        (fun slots key value => fields.put depth (some tag) slots key value) fields.vacant
      (DecodeError.ofMismatch (fields.complete slots)).map .inl
    else (rest.decodeObject union tag chosen depth members).map .inr

/-- Reads the case `chosen` from the items after the tag of a buffered union. -/
def Cases.decodeArray : {β : Type} → Cases β → String → String → Nat → Items →
    Except DecodeError β
  | _, .nil, _, _, _, items => (items.endBuffered 0).map fun _ => ()
  | _, .cons name fields rest, union, chosen, depth, items =>
    if chosen = name then do
      let what := "struct variant " ++ union ++ "::" ++ name
      let (a, left) ← fields.decodeItems depth (.fieldsOf what fields.length) 0 items
      left.endBuffered fields.length
      .ok (.inl a)
    else (rest.decodeArray union chosen depth items).map .inr

end

namespace Shape

variable {α : Type}

/-- Reads a document that holds one value of the shape and nothing else. -/
def decodeDocument (s : Shape α) (d : Document) : Except DecodeError α := do
  let a ← s.decode 0 d.root
  if d.trailing then .error (.fault .trailingText) else .ok a

end Shape

/-- Reads one of several names: its text, or an object with it as the only key and a null. -/
def decodeName {α : Type} (known : List (String × α)) (d : Document) : Except DecodeError α := do
  let named (s : String) : Except DecodeError α :=
    match known.lookup s with
    | some a => .ok a
    | none => .error (.mismatch (.unknownName s (known.map Prod.fst)))
  let a ← match d.root with
    | .string l => (DecodeError.ofFault l.text).bind named
    | .fault f => .error (.fault f)
    | .object (.cut f) => .error (.fault (if f = .endInObject then .endInValue else f))
    | .object (.oddKey t) => t.refuse .unionName
    | .object (.cons key value rest) => do
      let a ← (DecodeError.ofFault key.text).bind named
      match value with
      | .null => pure ()
      | t => t.refuse .unit
      match rest with
      | .done => pure a
      | .cut .endInObject => .error (.fault .endInObject)
      | _ => .error (.fault .expectedValue)
    | _ => .error (.fault .expectedValue)
  if d.trailing then .error (.fault .trailingText) else .ok a

end ClusterScaling.Json
