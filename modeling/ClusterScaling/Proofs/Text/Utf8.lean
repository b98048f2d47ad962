import ClusterScaling.Text.Utf8

/-!
# Encoded texts are decoded

The bytes of a text are read as its characters (`piecesOfBytes_toUTF8`). The first byte of a
character opens it with the bounds of the next one, and each further byte adds six bits.
-/

namespace ClusterScaling.Text

section
variable {n v taken code left : Nat} {low high : UInt8} {o : OpenChar} {bs : List UInt8}

/-! ## Bytes -/

theorem toNat_byte (h : n < 0x100) : (UInt8.ofNat n).toNat = n := UInt8.toNat_ofNat_of_lt' h

/-- A byte that is a character by itself. -/
theorem startChar_one (h : n < 0x80) :
    startChar (UInt8.ofNat n) = some (.inl (Char.ofNat n)) := by
  have hn : (UInt8.ofNat n).toNat = n := toNat_byte (by omega)
  have hone : UInt8.ofNat n < 0x80 := UInt8.lt_iff_toNat_lt.2 (hn.symm ▸ h)
  rw [startChar, if_pos hone, hn]

/-- A byte that opens a character of two. -/
theorem startChar_two (hlow : 0xc2 ≤ n) (hhigh : n < 0xe0) :
    startChar (UInt8.ofNat n) = some (.inr ⟨1, n - 0xc0, 0x80, 0xbf, 1⟩) := by
  have hn : (UInt8.ofNat n).toNat = n := toNat_byte (by omega)
  have hone : ¬ n < 0x80 := by omega
  have hbreak : ¬ n < 0xc2 := by omega
  simp only [startChar, UInt8.lt_iff_toNat_lt, hn, UInt8.reduceToNat, hone, hbreak, hhigh,
    if_true, if_false]

/-- A byte that opens a character of three. The bounds keep out long forms and surrogates. -/
theorem startChar_three (hlow : 0xe0 ≤ n) (hhigh : n < 0xf0) :
    startChar (UInt8.ofNat n) =
      some (.inr ⟨1, n - 0xe0, if n = 0xe0 then 0xa0 else 0x80,
        if n = 0xed then 0x9f else 0xbf, 2⟩) := by
  have hn : (UInt8.ofNat n).toNat = n := toNat_byte (by omega)
  have hone : ¬ n < 0x80 := by omega
  have hbreak : ¬ n < 0xc2 := by omega
  have htwo : ¬ n < 0xe0 := by omega
  simp only [startChar, UInt8.lt_iff_toNat_lt, hn, UInt8.reduceToNat, hone, hbreak, htwo, hhigh,
    if_true, if_false, beq_iff_eq, ← UInt8.toNat_inj]

/-- A byte that opens a character of four. The bounds keep out long forms and numbers of no
character. -/
theorem startChar_four (hlow : 0xf0 ≤ n) (hhigh : n < 0xf5) :
    startChar (UInt8.ofNat n) =
      some (.inr ⟨1, n - 0xf0, if n = 0xf0 then 0x90 else 0x80,
        if n = 0xf4 then 0x8f else 0xbf, 3⟩) := by
  have hn : (UInt8.ofNat n).toNat = n := toNat_byte (by omega)
  have hone : ¬ n < 0x80 := by omega
  have hbreak : ¬ n < 0xc2 := by omega
  have htwo : ¬ n < 0xe0 := by omega
  have hthree : ¬ n < 0xf0 := by omega
  simp only [startChar, UInt8.lt_iff_toNat_lt, hn, UInt8.reduceToNat, hone, hbreak, htwo, hthree,
    hhigh, if_true, if_false, beq_iff_eq, ← UInt8.toNat_inj]

theorem piecesFrom_open (h : startChar (UInt8.ofNat n) = some (.inr o)) :
    piecesFrom none (UInt8.ofNat n :: bs) = piecesFrom (some o) bs := by
  rw [piecesFrom, h]

/-- A further byte adds six bits to a character. -/
theorem piecesFrom_next (hn : n < 0x40) (hlow : low.toNat ≤ n + 0x80)
    (hhigh : n + 0x80 ≤ high.toNat) :
    piecesFrom (some ⟨taken, code, low, high, left⟩) (UInt8.ofNat (n + 0x80) :: bs) =
      if left ≤ 1 then .char (Char.ofNat (code * 0x40 + n)) :: piecesFrom none bs
      else piecesFrom (some ⟨taken + 1, code * 0x40 + n, 0x80, 0xbf, left - 1⟩) bs := by
  have hbyte : (UInt8.ofNat (n + 0x80)).toNat = n + 0x80 := toNat_byte (by omega)
  have hbounds : (low ≤ UInt8.ofNat (n + 0x80) && UInt8.ofNat (n + 0x80) ≤ high) = true := by
    simp only [UInt8.le_iff_toNat_le, hbyte, hlow, hhigh, decide_true, Bool.and_self]
  rw [piecesFrom, if_pos hbounds, hbyte, Nat.add_sub_cancel]

/-- A further byte without bounds of its own. -/
theorem piecesFrom_tail (hn : n < 0x40) :
    piecesFrom (some ⟨taken, code, 0x80, 0xbf, left⟩) (UInt8.ofNat (n + 0x80) :: bs) =
      if left ≤ 1 then .char (Char.ofNat (code * 0x40 + n)) :: piecesFrom none bs
      else piecesFrom (some ⟨taken + 1, code * 0x40 + n, 0x80, 0xbf, left - 1⟩) bs :=
  piecesFrom_next hn (Nat.le_add_left _ _) (Nat.add_le_add_right (Nat.le_of_lt_succ hn) 0x80)

/-! ## Characters -/

theorem piecesFrom_one (h : v < 0x80) :
    piecesFrom none (UInt8.ofNat v :: bs) = .char (Char.ofNat v) :: piecesFrom none bs := by
  rw [piecesFrom, startChar_one h]

theorem piecesFrom_two (hlow : 0x80 ≤ v) (hhigh : v < 0x800) :
    piecesFrom none (UInt8.ofNat (v / 64 % 32 + 192) :: UInt8.ofNat (v % 64 + 128) :: bs) =
      .char (Char.ofNat v) :: piecesFrom none bs := by
  have hvalue : (v / 64 % 32 + 192 - 192) * 64 + v % 64 = v := by omega
  rw [piecesFrom_open (startChar_two (by omega) (by omega)), piecesFrom_tail (by omega),
    if_pos (by decide), hvalue]

theorem piecesFrom_three (hlow : 0x800 ≤ v) (hhigh : v < 0x10000)
    (hvalid : v < 0xd800 ∨ 0xdfff < v) :
    piecesFrom none (UInt8.ofNat (v / 4096 % 16 + 224) :: UInt8.ofNat (v / 64 % 64 + 128) ::
        UInt8.ofNat (v % 64 + 128) :: bs) =
      .char (Char.ofNat v) :: piecesFrom none bs := by
  have hvalue : ((v / 4096 % 16 + 224 - 224) * 64 + v / 64 % 64) * 64 + v % 64 = v := by omega
  have hlong : (if v / 4096 % 16 + 224 = 224 then 0xa0 else 0x80 : UInt8).toNat
      ≤ v / 64 % 64 + 128 := by
    simp only [apply_ite UInt8.toNat, UInt8.reduceToNat]
    split <;> omega
  have hsurrogate : v / 64 % 64 + 128
      ≤ (if v / 4096 % 16 + 224 = 237 then 0x9f else 0xbf : UInt8).toNat := by
    simp only [apply_ite UInt8.toNat, UInt8.reduceToNat]
    split <;> omega
  -- only the second byte has bounds of its own
  rw [piecesFrom_open (startChar_three (by omega) (by omega)),
    piecesFrom_next (by omega) hlong hsurrogate, if_neg (by decide), piecesFrom_tail (by omega),
    if_pos (by decide), hvalue]

theorem piecesFrom_four (hlow : 0x10000 ≤ v) (hhigh : v < 0x110000) :
    piecesFrom none (UInt8.ofNat (v / 262144 % 8 + 240) :: UInt8.ofNat (v / 4096 % 64 + 128) ::
        UInt8.ofNat (v / 64 % 64 + 128) :: UInt8.ofNat (v % 64 + 128) :: bs) =
      .char (Char.ofNat v) :: piecesFrom none bs := by
  have hvalue : (((v / 262144 % 8 + 240 - 240) * 64 + v / 4096 % 64) * 64 + v / 64 % 64) * 64
      + v % 64 = v := by omega
  have hlong : (if v / 262144 % 8 + 240 = 240 then 0x90 else 0x80 : UInt8).toNat
      ≤ v / 4096 % 64 + 128 := by
    simp only [apply_ite UInt8.toNat, UInt8.reduceToNat]
    split <;> omega
  have hlast : v / 4096 % 64 + 128
      ≤ (if v / 262144 % 8 + 240 = 244 then 0x8f else 0xbf : UInt8).toNat := by
    simp only [apply_ite UInt8.toNat, UInt8.reduceToNat]
    split <;> omega
  rw [piecesFrom_open (startChar_four (by omega) (by omega)),
    piecesFrom_next (by omega) hlong hlast, if_neg (by decide), piecesFrom_tail (by omega),
    if_neg (by decide), piecesFrom_tail (by omega), if_pos (by decide), hvalue]

end

/-- The bytes of a character are read as the character. -/
theorem piecesFrom_utf8EncodeChar (c : Char) (bs : List UInt8) :
    piecesFrom none (String.utf8EncodeChar c ++ bs) = .char c :: piecesFrom none bs := by
  have hvalid : c.val.toNat < 0xd800 ∨ 0xdfff < c.val.toNat ∧ c.val.toNat < 0x110000 := c.valid
  have hchar : Char.ofNat c.val.toNat = c := Char.ofNat_toNat c
  have hpieces (bytes : List UInt8)
      (h : piecesFrom none bytes = .char (Char.ofNat c.val.toNat) :: piecesFrom none bs) :
      piecesFrom none bytes = .char c :: piecesFrom none bs := by rw [h, hchar]
  rw [String.utf8EncodeChar]
  refine hpieces _ ?_
  split
  · exact piecesFrom_one (by omega)
  split
  · exact piecesFrom_two (by omega) (by omega)
  split
  · exact piecesFrom_three (by omega) (by omega) (by omega)
  · exact piecesFrom_four (by omega) (by omega)

/-! ## Texts -/

theorem piecesOfBytes_flatMap (cs : List Char) :
    piecesOfBytes (cs.flatMap String.utf8EncodeChar) = piecesOfChars cs := by
  induction cs with
  | nil => rfl
  | cons c cs ih =>
    rw [List.flatMap_cons, piecesOfBytes, piecesFrom_utf8EncodeChar]
    exact congrArg (Piece.char c :: ·) ih

theorem toList_loop (bs : ByteArray) (i : Nat) (before : List UInt8) :
    ByteArray.toList.loop bs i before = before.reverse ++ bs.data.toList.drop i := by
  fun_induction ByteArray.toList.loop bs i before with
  | case1 i before h ih =>
    have hget : bs.get! i = bs.data.toList[i] := getElem!_pos bs.data i h
    have hdrop : bs.data.toList.drop i = bs.get! i :: bs.data.toList.drop (i + 1) := by
      rw [hget, List.getElem_cons_drop]
    rw [ih, hdrop, List.reverse_cons, List.append_assoc, List.singleton_append]
  | case2 i before h =>
    have hlength : bs.data.toList.length ≤ i := Nat.le_of_not_lt h
    rw [List.drop_eq_nil_of_le hlength, List.append_nil]

/-- **The bytes of a text** are read as its characters. -/
theorem piecesOfBytes_toUTF8 (s : String) :
    piecesOfBytes s.toUTF8.toList = piecesOfChars s.toList := by
  have hbytes : s.toUTF8.toList = s.toList.flatMap String.utf8EncodeChar := by
    rw [ByteArray.toList, toList_loop, String.toUTF8, ← String.utf8Encode_toList, List.utf8Encode,
      List.data_toByteArray]
    simp
  rw [hbytes, piecesOfBytes_flatMap]

end ClusterScaling.Text
