import ClusterScaling.Http.Exchange
import ClusterScaling.Text.Basic

/-!
# HTTP messages

Requests as they are sent over a connection, and responses as they are received. A response is
read anew whenever more of it has come, until `Message.read` finds its end.
-/

namespace ClusterScaling.Http

namespace Exchange

/-- The lines of the head of a request. -/
def headLines (x : Exchange) : List String :=
  let framing := match x.request.body with
    | none => []
    | some body =>
      [s!"content-type: {Request.bodyType}",
       s!"content-length: {Decimal.text body.utf8ByteSize}"]
  [s!"{x.request.title} HTTP/1.1", s!"host: {x.address}", s!"user-agent: {Request.agent}"] ++
    framing ++ [""]

/-- The request as it is sent. -/
def text (x : Exchange) : String :=
  String.join (x.headLines.map fun l => l ++ "\r\n") ++ x.request.body.getD ""

end Exchange

namespace Message

/-- What is known of a response so far. -/
inductive Progress where
  /-- More has to come. -/
  | partly (failure : Failure)
  | whole (r : Response)
  | failed (failure : Failure)
deriving DecidableEq, Repr

/-- The head of a response. -/
structure Head where
  status : Nat
  /-- The header fields, with their names in lower case. -/
  fields : List (String × String)
deriving DecidableEq, Repr

/-- The bytes as characters, one each. -/
def latin (bs : List UInt8) : List Char := bs.map fun b => Char.ofNat b.toNat

/-- The first line, without its end, and what follows; none if the line has not ended. -/
def line? : List UInt8 → Option (List UInt8 × List UInt8)
  | [] => none
  | 13 :: 10 :: rest => some ([], rest)
  | 10 :: rest => some ([], rest)
  | b :: rest => (line? rest).map fun (l, rest) => (b :: l, rest)

/-- The lines up to an empty one, and what follows. -/
def lines? : Nat → List UInt8 → Option (List (List UInt8) × List UInt8)
  | 0, _ => none
  | n + 1, bs =>
    match line? bs with
    | none => none
    | some ([], rest) => some ([], rest)
    | some (l, rest) => (lines? n rest).map fun (ls, rest) => (l :: ls, rest)

/-- The status of a status line. -/
def status? (l : List UInt8) : Option Nat :=
  match latin l with
  | 'H' :: 'T' :: 'T' :: 'P' :: '/' :: '1' :: '.' :: v :: ' ' :: a :: b :: c :: rest =>
    let digits := [a, b, c]
    if (v == '0' || v == '1') && digits.all Char.isDigit && rest.headD ' ' == ' ' then
      some (Decimal.ofDigits digits)
    else none
  | _ => none

/-- A header field. -/
def field? (l : List UInt8) : Option (String × String) :=
  let name := (latin l).takeWhile (· ≠ ':')
  match (latin l).drop name.length with
  | [] => none
  | _ :: value =>
    some (String.ofList (name.map Char.toLower), String.ofList (Text.trim value))

/-- The head at the start of a response, and what follows. -/
def head? (bs : List UInt8) : Option (Option Head × List UInt8) :=
  match lines? bs.length bs with
  | none => none
  | some ([], rest) => some (none, rest)
  | some (l :: ls, rest) =>
    let head := do some ⟨← status? l, ← ls.mapM field?⟩
    some (head, rest)

/-- The size at the start of a chunk. -/
def chunkSize? (l : List UInt8) : Option Nat :=
  let digits := (latin l).takeWhile fun c => (Text.hexValue? c).isSome
  if digits.isEmpty then none
  else some (digits.foldl (fun n c => 16 * n + (Text.hexValue? c).getD 0) 0)

/-- The content of a body that comes in chunks. -/
def chunks : Nat → List UInt8 → Except Progress (List UInt8)
  | 0, _ => .error (.partly .readBody)
  | n + 1, bs =>
    match line? bs with
    | none => .error (.partly .readBody)
    | some (l, rest) =>
      match chunkSize? l with
      | none => .error (.failed .readBody)
      | some 0 =>
        match lines? (rest.length + 1) rest with
        | none => .error (.partly .readBody)
        | some _ => .ok []
      | some size =>
        match line? (rest.drop size) with
        | none => .error (.partly .readBody)
        | some ([], more) => (chunks n more).map fun content => rest.take size ++ content
        | some _ => .error (.failed .readBody)

/-- The body after a head, where `ended` says that nothing more will come. -/
def body (h : Head) (ended : Bool) (bs : List UInt8) : Except Progress (List UInt8) :=
  if (Status.mk h.status).isBodiless || h.status == 101 then .ok []
  else if (h.fields.lookup "transfer-encoding").any fun v => v.toLower.endsWith "chunked" then
    chunks (bs.length + 1) bs
  else match h.fields.lookup "content-length" with
    | some v =>
      match Decimal.readBounded? 0xffffffffffffffff v.toList with
      | none => .error (.failed .send)
      | some n => if n ≤ bs.length then .ok (bs.take n) else .error (.partly .readBody)
    | none => if ended then .ok bs else .error (.partly .readBody)

/-- Reads what has come of a response, where `ended` says that nothing more will come. Responses
that only announce another one are left out. -/
def readFrom (ended : Bool) : Nat → List UInt8 → Progress
  | 0, _ => .partly .send
  | n + 1, bs =>
    match head? bs with
    | none => .partly .send
    | some (none, _) => .failed .send
    | some (some h, rest) =>
      if h.status < 100 then .failed .send
      else if h.status < 200 && h.status != 101 then readFrom ended n rest
      else match body h ended rest with
        | .error p => p
        | .ok content => .whole ⟨⟨h.status⟩, content⟩

/-- Reads what has come of a response. -/
def read (ended : Bool) (bs : List UInt8) : Progress := readFrom ended (bs.length + 1) bs

end Message

end ClusterScaling.Http
