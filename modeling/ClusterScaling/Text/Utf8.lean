/-!
# Texts that may hold bytes outside UTF-8

A text from outside arrives as bytes. `Piece` is one unit of it: a character, or a run of bytes
that is no character. A broken run is as long as it can be while still beginning a character, so
the lenient reading (`lossyText`) puts one replacement character for it.
-/

namespace ClusterScaling.Text

/-- One unit of a text that may hold bytes outside UTF-8. -/
inductive Piece where
  | char (c : Char)
  /-- A run of `size` bytes that begins no character, or one that breaks off. -/
  | broken (size : Nat)
deriving DecidableEq, Repr

namespace Piece

/-- The number of bytes that the piece stands for. -/
def size : Piece → Nat
  | char c => c.utf8Size
  | broken n => n

end Piece

/-- A character of which some bytes are read. -/
structure OpenChar where
  /-- The bytes read so far. -/
  taken : Nat
  /-- The bits read so far. -/
  code : Nat
  /-- The least byte that may come next. -/
  low : UInt8
  /-- The greatest byte that may come next. -/
  high : UInt8
  /-- The bytes still to come. -/
  left : Nat
deriving Repr

/-- Reads the first byte of a character: a character of one byte, the start of a longer one, or
`none` for a byte that starts nothing. -/
def startChar (b : UInt8) : Option (Char ⊕ OpenChar) :=
  if b < 0x80 then some (.inl (Char.ofNat b.toNat))
  else if b < 0xc2 then none
  else if b < 0xe0 then some (.inr ⟨1, b.toNat - 0xc0, 0x80, 0xbf, 1⟩)
  else if b < 0xf0 then
    some (.inr ⟨1, b.toNat - 0xe0, if b == 0xe0 then 0xa0 else 0x80,
      if b == 0xed then 0x9f else 0xbf, 2⟩)
  else if b < 0xf5 then
    some (.inr ⟨1, b.toNat - 0xf0, if b == 0xf0 then 0x90 else 0x80,
      if b == 0xf4 then 0x8f else 0xbf, 3⟩)
  else none

/-- The pieces of bytes that continue an open character, if there is one. -/
def piecesFrom : Option OpenChar → List UInt8 → List Piece
  | none, [] => []
  | some o, [] => [.broken o.taken]
  | none, b :: bs =>
    match startChar b with
    | none => .broken 1 :: piecesFrom none bs
    | some (.inl c) => .char c :: piecesFrom none bs
    | some (.inr o) => piecesFrom (some o) bs
  | some o, b :: bs =>
    if o.low ≤ b && b ≤ o.high then
      let code := o.code * 64 + (b.toNat - 0x80)
      if o.left ≤ 1 then .char (Char.ofNat code) :: piecesFrom none bs
      else piecesFrom (some ⟨o.taken + 1, code, 0x80, 0xbf, o.left - 1⟩) bs
    else
      .broken o.taken ::
        match startChar b with
        | none => .broken 1 :: piecesFrom none bs
        | some (.inl c) => .char c :: piecesFrom none bs
        | some (.inr o) => piecesFrom (some o) bs

/-- The pieces of a sequence of bytes. -/
def piecesOfBytes (bs : List UInt8) : List Piece := piecesFrom none bs

/-- The pieces of a text that holds characters only. -/
def piecesOfChars (cs : List Char) : List Piece := cs.map .char

/-- The text with one replacement character for each broken run. -/
def lossyText (ps : List Piece) : String :=
  String.ofList (ps.map fun
    | .char c => c
    | .broken _ => '\ufffd')

end ClusterScaling.Text
