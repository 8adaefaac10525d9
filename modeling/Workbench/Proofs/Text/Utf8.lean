import Mathlib.Tactic.Common
import Workbench.Text.Utf8

/-!
# Texts are read from their bytes again

* `Completes p bs c` : the bytes that a pending character still needs;
* `encodeChar_of_completes`, `begins` : they are the rest of what writes the character;
* `pieces_encode`, `eq_encode_of_pieces` : bytes have no bad piece just if they write a text;
* `decode_eq_ok` : a text is read from the bytes that write it, and from no others.
-/

namespace Workbench.Utf8

open String (utf8EncodeChar)

/-- The bytes with which a pending character becomes complete. -/
inductive Completes : Pending → List UInt8 → Char → Prop
  | last {p : Pending} {b : UInt8} (hrange : p.low ≤ b ∧ b ≤ p.high) (howed : p.owed = 1) :
      Completes p [b] (Char.ofNat (p.push b).point)
  | more {p : Pending} {b : UInt8} {bs : List UInt8} {c : Char} (hrange : p.low ≤ b ∧ b ≤ p.high)
      (howed : p.owed ≠ 1) (h : Completes (p.push b) bs c) : Completes p (b :: bs) c

/-! ## The bytes of a character -/

/-- The bytes of the character with a number. -/
theorem utf8EncodeChar_ofNat {n : Nat} (h : n.isValidChar) :
    utf8EncodeChar (Char.ofNat n) =
      if n ≤ 127 then [UInt8.ofNat n]
      else if n ≤ 2047 then [UInt8.ofNat (n / 64 % 32 + 192), UInt8.ofNat (n % 64 + 128)]
      else if n ≤ 65535 then
        [UInt8.ofNat (n / 4096 % 16 + 224), UInt8.ofNat (n / 64 % 64 + 128),
          UInt8.ofNat (n % 64 + 128)]
      else
        [UInt8.ofNat (n / 262144 % 8 + 240), UInt8.ofNat (n / 4096 % 64 + 128),
          UInt8.ofNat (n / 64 % 64 + 128), UInt8.ofNat (n % 64 + 128)] := by
  have hval : (Char.ofNat n).val.toNat = n := by
    rw [Char.ofNat, dif_pos h]
    rfl
  unfold utf8EncodeChar
  simp only [hval]

theorem ofNat_eq {n : Nat} {b : UInt8} (h : n = b.toNat) : UInt8.ofNat n = b := by
  rw [h, UInt8.ofNat_toNat]

/-- A byte after the first one of a character. -/
def IsTail (b : UInt8) : Prop := 128 ≤ b.toNat ∧ b.toNat < 192

theorem encodeChar_two {a b : UInt8} (ha : 194 ≤ a.toNat ∧ a.toNat < 224) (hb : IsTail b) :
    utf8EncodeChar (Char.ofNat ((a.toNat - 192) * 64 + (b.toNat - 128))) = [a, b] := by
  unfold IsTail at hb
  rw [utf8EncodeChar_ofNat (Or.inl (by omega)), if_neg (by omega), if_pos (by omega),
    ofNat_eq (b := a) (by omega), ofNat_eq (b := b) (by omega)]

theorem encodeChar_three {a b c : UInt8} (ha : 224 ≤ a.toNat ∧ a.toNat < 240) (hb : IsTail b)
    (hc : IsTail c) (hlow : a.toNat = 224 → 160 ≤ b.toNat) (hhigh : a.toNat = 237 → b.toNat < 160) :
    utf8EncodeChar (Char.ofNat
      (((a.toNat - 224) * 64 + (b.toNat - 128)) * 64 + (c.toNat - 128))) = [a, b, c] := by
  unfold IsTail at hb hc
  have hvalid : (((a.toNat - 224) * 64 + (b.toNat - 128)) * 64 + (c.toNat - 128)).isValidChar := by
    unfold Nat.isValidChar
    omega
  rw [utf8EncodeChar_ofNat hvalid, if_neg (by omega), if_neg (by omega), if_pos (by omega),
    ofNat_eq (b := a) (by omega), ofNat_eq (b := b) (by omega), ofNat_eq (b := c) (by omega)]

theorem encodeChar_four {a b c d : UInt8} (ha : 240 ≤ a.toNat ∧ a.toNat < 245) (hb : IsTail b)
    (hc : IsTail c) (hd : IsTail d) (hlow : a.toNat = 240 → 144 ≤ b.toNat)
    (hhigh : a.toNat = 244 → b.toNat < 144) :
    utf8EncodeChar (Char.ofNat ((((a.toNat - 240) * 64 + (b.toNat - 128)) * 64 +
      (c.toNat - 128)) * 64 + (d.toNat - 128))) = [a, b, c, d] := by
  unfold IsTail at hb hc hd
  have hvalid : ((((a.toNat - 240) * 64 + (b.toNat - 128)) * 64 + (c.toNat - 128)) * 64 +
      (d.toNat - 128)).isValidChar := by
    unfold Nat.isValidChar
    omega
  rw [utf8EncodeChar_ofNat hvalid, if_neg (by omega), if_neg (by omega), if_neg (by omega),
    ofNat_eq (b := a) (by omega), ofNat_eq (b := b) (by omega), ofNat_eq (b := c) (by omega),
    ofNat_eq (b := d) (by omega)]

/-! ## First bytes -/

section Start
variable {b : UInt8}

theorem not_lt_of_toNat_le {n : UInt8} (h : n.toNat ≤ b.toNat) : ¬ b < n :=
  fun hb => Nat.not_lt.2 h (UInt8.lt_iff_toNat_lt.1 hb)

theorem start_one (h : b.toNat < 128) : start b = .complete (Char.ofNat b.toNat) := by
  have hlt : b < 0x80 := UInt8.lt_iff_toNat_lt.2 h
  rw [start, if_pos hlt]

theorem start_two (h : 194 ≤ b.toNat ∧ b.toNat < 224) :
    start b = .pending { first := b, point := b.toNat - 192, seen := 1, owed := 1 } := by
  have hle : ∀ n : UInt8, n.toNat ≤ 194 → ¬ b < n :=
    fun _ hn => not_lt_of_toNat_le (Nat.le_trans hn h.1)
  have hlt : b < 0xE0 := UInt8.lt_iff_toNat_lt.2 h.2
  rw [start, if_neg (hle _ (by decide)), if_neg (hle _ (by decide)), if_pos hlt]

theorem start_three (h : 224 ≤ b.toNat ∧ b.toNat < 240) :
    start b = .pending (.mk b (b.toNat - 224) 1 2 (if b = 0xE0 then 0xA0 else 0x80)
      (if b = 0xED then 0x9F else 0xBF)) := by
  have hle : ∀ n : UInt8, n.toNat ≤ 224 → ¬ b < n :=
    fun _ hn => not_lt_of_toNat_le (Nat.le_trans hn h.1)
  have hlt : b < 0xF0 := UInt8.lt_iff_toNat_lt.2 h.2
  rw [start, if_neg (hle _ (by decide)), if_neg (hle _ (by decide)), if_neg (hle _ (by decide)),
    if_pos hlt]

theorem start_four (h : 240 ≤ b.toNat ∧ b.toNat < 245) :
    start b = .pending (.mk b (b.toNat - 240) 1 3 (if b = 0xF0 then 0x90 else 0x80)
      (if b = 0xF4 then 0x8F else 0xBF)) := by
  have hle : ∀ n : UInt8, n.toNat ≤ 240 → ¬ b < n :=
    fun _ hn => not_lt_of_toNat_le (Nat.le_trans hn h.1)
  have hlt : b < 0xF5 := UInt8.lt_iff_toNat_lt.2 h.2
  rw [start, if_neg (hle _ (by decide)), if_neg (hle _ (by decide)), if_neg (hle _ (by decide)),
    if_neg (hle _ (by decide)), if_pos hlt]

theorem start_invalid (h : 128 ≤ b.toNat ∧ b.toNat < 194 ∨ 245 ≤ b.toNat) :
    start b = .invalid := by
  rcases h with h | h
  · have hle : ¬ b < 0x80 := not_lt_of_toNat_le h.1
    have hlt : b < 0xC2 := UInt8.lt_iff_toNat_lt.2 h.2
    rw [start, if_neg hle, if_pos hlt]
  · have hle : ∀ n : UInt8, n.toNat ≤ 245 → ¬ b < n :=
      fun _ hn => not_lt_of_toNat_le (Nat.le_trans hn h)
    rw [start, if_neg (hle _ (by decide)), if_neg (hle _ (by decide)), if_neg (hle _ (by decide)),
      if_neg (hle _ (by decide)), if_neg (hle _ (by decide))]

end Start

theorem isTail_of_range {b : UInt8} (h : (0x80 : UInt8) ≤ b ∧ b ≤ 0xBF) : IsTail b :=
  ⟨UInt8.le_iff_toNat_le.1 h.1, Nat.lt_succ_of_le (UInt8.le_iff_toNat_le.1 h.2)⟩

theorem range_of_isTail {b : UInt8} (h : IsTail b) : (0x80 : UInt8) ≤ b ∧ b ≤ 0xBF :=
  ⟨UInt8.le_iff_toNat_le.2 h.1, UInt8.le_iff_toNat_le.2 (Nat.le_of_lt_succ h.2)⟩

theorem eq_iff_toNat {b n : UInt8} : b = n ↔ b.toNat = n.toNat := UInt8.toNat_inj.symm

/-- What the range of the second byte of a character of three bytes comes to. -/
theorem range_three {a b : UInt8} :
    ((if a = 0xE0 then 0xA0 else 0x80 : UInt8) ≤ b ∧ b ≤ (if a = 0xED then 0x9F else 0xBF)) ↔
      IsTail b ∧ (a.toNat = 224 → 160 ≤ b.toNat) ∧ (a.toNat = 237 → b.toNat < 160) := by
  have hlow : a = 0xE0 ↔ a.toNat = 224 := eq_iff_toNat
  have hhigh : a = 0xED ↔ a.toNat = 237 := eq_iff_toNat
  unfold IsTail
  rw [UInt8.le_iff_toNat_le, UInt8.le_iff_toNat_le, apply_ite UInt8.toNat, apply_ite UInt8.toNat]
  simp only [hlow, hhigh, UInt8.reduceToNat]
  split <;> split <;> omega

theorem range_four {a b : UInt8} :
    ((if a = 0xF0 then 0x90 else 0x80 : UInt8) ≤ b ∧ b ≤ (if a = 0xF4 then 0x8F else 0xBF)) ↔
      IsTail b ∧ (a.toNat = 240 → 144 ≤ b.toNat) ∧ (a.toNat = 244 → b.toNat < 144) := by
  have hlow : a = 0xF0 ↔ a.toNat = 240 := eq_iff_toNat
  have hhigh : a = 0xF4 ↔ a.toNat = 244 := eq_iff_toNat
  unfold IsTail
  rw [UInt8.le_iff_toNat_le, UInt8.le_iff_toNat_le, apply_ite UInt8.toNat, apply_ite UInt8.toNat]
  simp only [hlow, hhigh, UInt8.reduceToNat]
  split <;> split <;> omega

/-! ## Characters that are begun -/

theorem start_cases (a : UInt8) :
    a.toNat < 128 ∨ (128 ≤ a.toNat ∧ a.toNat < 194 ∨ 245 ≤ a.toNat) ∨
      (194 ≤ a.toNat ∧ a.toNat < 224) ∨ (224 ≤ a.toNat ∧ a.toNat < 240) ∨
      (240 ≤ a.toNat ∧ a.toNat < 245) := by
  omega

theorem encodeChar_of_complete {a : UInt8} {c : Char} (h : start a = .complete c) :
    utf8EncodeChar c = [a] := by
  rcases start_cases a with ha | ha | ha | ha | ha
  · obtain rfl := Start.complete.inj (h.symm.trans (start_one ha))
    rw [utf8EncodeChar_ofNat (Or.inl (by omega)), if_pos (by omega), ofNat_eq rfl]
  · exact nomatch h.symm.trans (start_invalid ha)
  · exact nomatch h.symm.trans (start_two ha)
  · exact nomatch h.symm.trans (start_three ha)
  · exact nomatch h.symm.trans (start_four ha)

/-- The first byte and those that complete the character are what writes it. One case for each
length that the first byte can announce. -/
theorem encodeChar_of_completes {a : UInt8} {p : Pending} {bs : List UInt8} {c : Char}
    (hstart : start a = .pending p) (h : Completes p bs c) : utf8EncodeChar c = a :: bs := by
  rcases start_cases a with ha | ha | ha | ha | ha
  · exact nomatch hstart.symm.trans (start_one ha)
  · exact nomatch hstart.symm.trans (start_invalid ha)
  · obtain rfl := Start.pending.inj (hstart.symm.trans (start_two ha))
    cases h with
    | last hb => exact encodeChar_two ha (isTail_of_range hb)
    | more hb howed => exact absurd rfl howed
  · obtain rfl := Start.pending.inj (hstart.symm.trans (start_three ha))
    cases h with
    | last hb howed => exact nomatch howed
    | more hb _ h =>
      obtain ⟨hb, hlow, hhigh⟩ := range_three.1 hb
      cases h with
      | last hc => exact encodeChar_three ha hb (isTail_of_range hc) hlow hhigh
      | more hc howed => exact absurd rfl howed
  · obtain rfl := Start.pending.inj (hstart.symm.trans (start_four ha))
    cases h with
    | last hb howed => exact nomatch howed
    | more hb _ h =>
      obtain ⟨hb, hlow, hhigh⟩ := range_four.1 hb
      cases h with
      | last hc howed => exact nomatch howed
      | more hc _ h =>
        cases h with
        | last hd =>
          exact encodeChar_four ha hb (isTail_of_range hc) (isTail_of_range hd) hlow hhigh
        | more hd howed => exact absurd rfl howed

/-- How a character is written: by its first byte alone, or by a first byte and those that complete
the character. -/
inductive Begins (c : Char) : Prop
  | one {a : UInt8} (hbytes : utf8EncodeChar c = [a]) (hstart : start a = .complete c)
  | more {a : UInt8} {p : Pending} {bs : List UInt8} (hbytes : utf8EncodeChar c = a :: bs)
      (hstart : start a = .pending p) (h : Completes p bs c)

theorem exists_byte {k : Nat} (h : k < 256) : ∃ b : UInt8, UInt8.ofNat k = b ∧ b.toNat = k :=
  ⟨_, rfl, UInt8.toNat_ofNat_of_lt' h⟩

theorem begins_ofNat {n : Nat} (h : n.isValidChar) : Begins (Char.ofNat n) := by
  have hbytes := utf8EncodeChar_ofNat h
  unfold Nat.isValidChar at h
  split at hbytes
  · next h1 =>
    obtain ⟨a, ha, ha'⟩ := exists_byte (k := n) (by omega)
    rw [ha] at hbytes
    refine .one hbytes ?_
    rw [start_one (by omega), ha']
  split at hbytes
  · next h1 h2 =>
    obtain ⟨a, ha, ha'⟩ := exists_byte (k := n / 64 % 32 + 192) (by omega)
    obtain ⟨b, hb, hb'⟩ := exists_byte (k := n % 64 + 128) (by omega)
    have hn : (a.toNat - 192) * 64 + (b.toNat - 128) = n := by omega
    rw [ha, hb] at hbytes
    refine .more hbytes (start_two (by omega)) ?_
    rw [← hn]
    exact .last (range_of_isTail ⟨by omega, by omega⟩) rfl
  split at hbytes
  · next h1 h2 h3 =>
    obtain ⟨a, ha, ha'⟩ := exists_byte (k := n / 4096 % 16 + 224) (by omega)
    obtain ⟨b, hb, hb'⟩ := exists_byte (k := n / 64 % 64 + 128) (by omega)
    obtain ⟨c, hc, hc'⟩ := exists_byte (k := n % 64 + 128) (by omega)
    have hn : ((a.toNat - 224) * 64 + (b.toNat - 128)) * 64 + (c.toNat - 128) = n := by omega
    rw [ha, hb, hc] at hbytes
    refine .more hbytes (start_three (by omega)) ?_
    rw [← hn]
    exact .more (range_three.2 ⟨⟨by omega, by omega⟩, by omega, by omega⟩) (by decide : 2 ≠ 1)
      (.last (range_of_isTail ⟨by omega, by omega⟩) rfl)
  · next h1 h2 h3 =>
    obtain ⟨a, ha, ha'⟩ := exists_byte (k := n / 262144 % 8 + 240) (by omega)
    obtain ⟨b, hb, hb'⟩ := exists_byte (k := n / 4096 % 64 + 128) (by omega)
    obtain ⟨c, hc, hc'⟩ := exists_byte (k := n / 64 % 64 + 128) (by omega)
    obtain ⟨d, hd, hd'⟩ := exists_byte (k := n % 64 + 128) (by omega)
    have hn : (((a.toNat - 240) * 64 + (b.toNat - 128)) * 64 + (c.toNat - 128)) * 64 +
        (d.toNat - 128) = n := by omega
    rw [ha, hb, hc, hd] at hbytes
    refine .more hbytes (start_four (by omega)) ?_
    rw [← hn]
    exact .more (range_four.2 ⟨⟨by omega, by omega⟩, by omega, by omega⟩) (by decide : 3 ≠ 1)
      (.more (range_of_isTail ⟨by omega, by omega⟩) (by decide : 2 ≠ 1)
        (.last (range_of_isTail ⟨by omega, by omega⟩) rfl))

theorem begins (c : Char) : Begins c := by
  have h := begins_ofNat c.valid
  rwa [show Char.ofNat c.val.toNat = c from Char.ofNat_toNat c] at h

/-! ## Pieces -/

theorem pieces_cons (b : UInt8) (bytes : List UInt8) : pieces (b :: bytes) =
    match start b with
    | .complete c => .char c :: pieces bytes
    | .pending p => piecesFrom (some p) bytes
    | .invalid => .bad 1 b .invalidStart :: pieces bytes := rfl

/-- After a byte that does not go on with the pending character, the reader begins anew with it. -/
theorem piecesFrom_some_cons (p : Pending) (b : UInt8) (bytes : List UInt8) :
    piecesFrom (some p) (b :: bytes) =
      if p.low ≤ b ∧ b ≤ p.high then
        if p.owed = 1 then .char (Char.ofNat (p.push b).point) :: pieces bytes
        else piecesFrom (some (p.push b)) bytes
      else .bad p.seen p.first .invalidContinuation :: pieces (b :: bytes) := rfl

theorem piecesFrom_of_completes {p : Pending} {bs : List UInt8} {c : Char} (h : Completes p bs c)
    (rest : List UInt8) : piecesFrom (some p) (bs ++ rest) = .char c :: pieces rest := by
  induction h with
  | last hrange howed =>
    rw [List.singleton_append, piecesFrom_some_cons, if_pos hrange, if_pos howed]
  | more hrange howed h ih =>
    rw [List.cons_append, piecesFrom_some_cons, if_pos hrange, if_neg howed, ih]

theorem pieces_encodeChar (c : Char) (rest : List UInt8) :
    pieces (utf8EncodeChar c ++ rest) = .char c :: pieces rest := by
  cases begins c with
  | one hbytes hstart =>
    rw [hbytes, List.singleton_append, pieces_cons, hstart]
  | more hbytes hstart h =>
    rw [hbytes, List.cons_append, pieces_cons, hstart]
    exact piecesFrom_of_completes h rest

/-- A text is read into its characters. -/
theorem pieces_encode (s : List Char) : pieces (s.flatMap utf8EncodeChar) = s.map .char := by
  induction s with
  | nil => rfl
  | cons c s ih => rw [List.flatMap_cons, pieces_encodeChar, ih, List.map_cons]

/-- A pending character becomes complete, or its bytes are bad. -/
theorem exists_completes {p : Pending} {bytes : List UInt8} {c : Char} {ps : List Piece}
    (h : piecesFrom (some p) bytes = .char c :: ps) :
    ∃ bs rest, bytes = bs ++ rest ∧ Completes p bs c ∧ ps = pieces rest := by
  induction bytes generalizing p with
  | nil => exact nomatch (List.cons.inj h).1
  | cons b bytes ih =>
    rw [piecesFrom_some_cons] at h
    split at h
    · next hrange =>
      split at h
      · next howed =>
        obtain ⟨hc, hps⟩ := List.cons.inj h
        obtain rfl := Piece.char.inj hc
        exact ⟨[b], bytes, rfl, .last hrange howed, hps.symm⟩
      · next howed =>
        obtain ⟨bs, rest, rfl, hbs, hps⟩ := ih h
        exact ⟨b :: bs, rest, rfl, .more hrange howed hbs, hps⟩
    · exact nomatch (List.cons.inj h).1

theorem exists_rest {bytes : List UInt8} {c : Char} {ps : List Piece}
    (h : pieces bytes = .char c :: ps) :
    ∃ rest, bytes = utf8EncodeChar c ++ rest ∧ ps = pieces rest := by
  cases bytes with
  | nil => exact nomatch h
  | cons b bytes =>
    rw [pieces_cons] at h
    split at h
    · next hstart =>
      obtain ⟨hc, hps⟩ := List.cons.inj h
      obtain rfl := Piece.char.inj hc
      exact ⟨bytes, by rw [encodeChar_of_complete hstart]; rfl, hps.symm⟩
    · next hstart =>
      obtain ⟨bs, rest, rfl, hbs, hps⟩ := exists_completes h
      exact ⟨rest, by rw [encodeChar_of_completes hstart hbs]; rfl, hps⟩
    · exact nomatch (List.cons.inj h).1

theorem piecesFrom_some_ne_nil (p : Pending) (bytes : List UInt8) :
    piecesFrom (some p) bytes ≠ [] := by
  induction bytes generalizing p with
  | nil => exact List.cons_ne_nil _ _
  | cons b bytes ih =>
    rw [piecesFrom_some_cons]
    split
    · split
      · exact List.cons_ne_nil _ _
      · exact ih _
    · exact List.cons_ne_nil _ _

theorem eq_nil_of_pieces {bytes : List UInt8} (h : pieces bytes = []) : bytes = [] := by
  cases bytes with
  | nil => rfl
  | cons b bytes =>
    rw [pieces_cons] at h
    split at h
    · exact nomatch h
    · exact absurd h (piecesFrom_some_ne_nil _ _)
    · exact nomatch h

/-- Bytes without a bad piece write the characters that are read from them. -/
theorem eq_encode_of_pieces {bytes : List UInt8} {s : List Char} (h : pieces bytes = s.map .char) :
    bytes = s.flatMap utf8EncodeChar := by
  induction s generalizing bytes with
  | nil => exact eq_nil_of_pieces h
  | cons c s ih =>
    obtain ⟨rest, rfl, hps⟩ := exists_rest h
    rw [List.flatMap_cons, ih hps.symm]

/-! ## Texts -/

theorem charsFrom_chars (offset : Nat) (s : List Char) : charsFrom offset (s.map .char) = .ok s := by
  induction s generalizing offset with
  | nil => rfl
  | cons c s ih => rw [List.map_cons, charsFrom, ih]

theorem eq_chars_of_charsFrom {offset : Nat} {ps : List Piece} {s : List Char}
    (h : charsFrom offset ps = .ok s) : ps = s.map .char := by
  induction ps generalizing offset s with
  | nil =>
    obtain rfl := Except.ok.inj h
    rfl
  | cons p ps ih =>
    cases p with
    | bad length first reason => exact nomatch h
    | char c =>
      rw [charsFrom] at h
      split at h
      · next s' hs =>
        obtain rfl := Except.ok.inj h
        rw [List.map_cons, ih hs]
      · exact nomatch h

/-- The bytes of an array from a place on. -/
theorem loop_toList (bytes : ByteArray) (i : Nat) (r : List UInt8) :
    ByteArray.toList.loop bytes i r = r.reverse ++ bytes.data.toList.drop i := by
  fun_induction ByteArray.toList.loop bytes i r with
  | case1 i r h ih =>
    have hi : i < bytes.data.toList.length := by simpa using h
    have hget : bytes.get! i = bytes.data.toList[i] := getElem!_pos bytes.data i h
    rw [ih, List.drop_eq_getElem_cons hi, List.reverse_cons, List.append_assoc,
      List.singleton_append, hget]
  | case2 i r h =>
    have hi : bytes.data.toList.length ≤ i := Nat.le_of_not_lt h
    rw [List.drop_eq_nil_of_le hi, List.append_nil]

theorem encode_ofList (s : List Char) : encode (String.ofList s) = s.flatMap utf8EncodeChar := by
  show (String.ofList s).toByteArray.toList = _
  rw [String.toByteArray_ofList, List.utf8Encode, ByteArray.toList, loop_toList,
    List.toList_data_toByteArray]
  rfl

/-- A text is read from the bytes that write it, and from no others. -/
theorem decode_eq_ok {bytes : List UInt8} {s : String} : decode bytes = .ok s ↔ bytes = encode s := by
  rw [← String.ofList_toList (s := s), encode_ofList]
  constructor
  · intro h
    unfold decode at h
    split at h
    · next t ht =>
      rw [← String.ofList_injective (Except.ok.inj h)]
      exact eq_encode_of_pieces (eq_chars_of_charsFrom ht)
    · exact nomatch h
  · rintro rfl
    unfold decode
    rw [pieces_encode, charsFrom_chars]

end Workbench.Utf8
